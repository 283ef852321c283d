import CcspPandM.SubdocDecoders
import CcspPandM.TextSearch

/-!
How a webconfig document is taken apart. The objects of the outer map are searched by
name; where the value has the expected type a key is compared over its own length, else
over the length of the name and beyond its end. The decoders of the entries compare keys
over their own length too, so that a short key stands for a longer name.
-/
namespace CcspPandM.SubdocHelpers

open CString MaskedLoop SubdocDecoders TextSearch

inductive MsgpackObjectType where
  | nil
  | boolean
  | positiveInteger
  | negativeInteger
  | float
  | str
  | array
  | map
  | bin
  | ext
  deriving DecidableEq, Repr

structure MsgpackObject (β : Type) where
  type : MsgpackObjectType
  via : β

structure DocumentKv (β : Type) where
  key : Option CStr
  behind : CStr
  val : MsgpackObject β

inductive Unpacked (β : Type) where
  | failed
  | other
  | map (entries : List (DocumentKv β))

structure Name where
  text : CStr
  whole : '\x00' ∉ text

def subdocName : Name := ⟨"subdoc_name".toList, by decide⟩

def version : Name := ⟨"version".toList, by decide⟩

def transactionId : Name := ⟨"transaction_id".toList, by decide⟩

section Converting

variable {ε β : Type}

def caught (name : Name) (expect_type : MsgpackObjectType) (p : DocumentKv β) : Bool :=
  match p.key with
  | none => false
  | some key =>
    if expect_type = p.val.type then strneq key name.text key.length
    else strneq (key ++ p.behind) name.text name.text.length

def finder (name : Name) (expect_type : MsgpackObjectType) (map : List (DocumentKv β)) :
    Option (DocumentKv β) :=
  map.find? (caught name expect_type)

def helperConvert (zero : ε) (buf : Option (Unpacked β)) (wrapper : Option Name)
    (expect_type : MsgpackObjectType) (optional : Bool)
    (process : ε → List (Option (MsgpackObject β)) → ℤ × ε) :
    Option ε × Option (List (Option (DocumentKv β))) :=
  match buf with
  | none => (some zero, none)
  | some (.map map) =>
    match wrapper with
    | none => (none, none)
    | some wrapper =>
      let inner := finder wrapper expect_type map
      let args := if strneq wrapper.text "parameters".toList 10 then [inner]
        else [inner, finder subdocName expect_type map, finder version expect_type map,
          finder transactionId expect_type map]
      if inner.isSome then
        let processed := process zero (args.map fun o => o.map DocumentKv.val)
        (if processed.1 = 0 then some processed.2 else none, some args)
      else (if optional then some zero else none, none)
  | some _ => (none, none)

def documented (wrapper : Name) (expect_type : MsgpackObjectType) :
    List (Name × MsgpackObjectType) :=
  [(wrapper, expect_type), (subdocName, .str), (version, .positiveInteger),
    (transactionId, .positiveInteger)]

def Exact (d : Name × MsgpackObjectType) (p : DocumentKv β) : Prop :=
  p.key = some d.1.text ∧ p.val.type = d.2

def HandsExact (wrapper : Name) (expect_type : MsgpackObjectType)
    (handed : Option (List (Option (DocumentKv β)))) : Prop :=
  ∀ args, handed = some args → List.Forall₂ (fun d o => ∃ p, o = some p ∧ Exact d p)
    ((documented wrapper expect_type).take args.length) args

/-- A key the search takes for a name: with the expected type a beginning of the name, else
one that begins with it, what lies behind the key included. -/
def TakenFor (name : Name) (expect_type : MsgpackObjectType) (p : DocumentKv β) : Prop :=
  ∃ key, p.key = some key ∧
    if expect_type = p.val.type then key <+: name.text ∨ name.text ++ ['\x00'] <+: key
    else name.text <+: key ++ p.behind

/-- The name stands in the map with its type, and no entry before it is taken for it. -/
def ExactFirst (expect_type : MsgpackObjectType) (map : List (DocumentKv β))
    (d : Name × MsgpackObjectType) : Prop :=
  ∃ pre p post, map = pre ++ p :: post ∧ Exact d p ∧ ∀ q ∈ pre, ¬ TakenFor d.1 expect_type q

end Converting

section Searching

variable {ε β : Type} {name : Name} {expect_type : MsgpackObjectType}

theorem caught_iff (p : DocumentKv β) :
    caught name expect_type p = true ↔ TakenFor name expect_type p := by
  rw [caught, TakenFor]
  cases p.key with
  | none => simp
  | some key =>
    simp only [Option.some.injEq, exists_eq_left']
    split
    · exact strneq_key_iff name.whole
    · exact strneq_name_iff name.whole

theorem finder_eq_none_iff (map : List (DocumentKv β)) :
    finder name expect_type map = none ↔ ∀ p ∈ map, ¬ TakenFor name expect_type p := by
  rw [finder, List.find?_eq_none]
  simp only [caught_iff]

theorem takenFor_of_exact {τ : MsgpackObjectType} {p : DocumentKv β} (h : Exact (name, τ) p) :
    TakenFor name expect_type p := by
  refine ⟨name.text, h.1, ?_⟩
  split
  · exact Or.inl (List.prefix_refl _)
  · exact List.prefix_append _ _

theorem finder_exact_iff (map : List (DocumentKv β)) (τ : MsgpackObjectType) :
    (∃ p, finder name expect_type map = some p ∧ Exact (name, τ) p) ↔
      ExactFirst expect_type map (name, τ) := by
  constructor
  · rintro ⟨p, hfind, hexact⟩
    obtain ⟨-, pre, post, rfl, hpre⟩ := List.find?_eq_some_iff_append.mp hfind
    refine ⟨pre, p, post, rfl, hexact, fun q hq htaken => ?_⟩
    have hno := hpre q hq
    rw [(caught_iff q).mpr htaken] at hno
    exact absurd hno (by decide)
  · rintro ⟨pre, p, post, rfl, hexact, hpre⟩
    refine ⟨p, List.find?_eq_some_iff_append.mpr ⟨?_, pre, post, rfl, fun q hq => ?_⟩, hexact⟩
    · exact (caught_iff p).mpr (takenFor_of_exact hexact)
    · rw [Bool.not_eq_true', Bool.eq_false_iff]
      exact fun hcaught => hpre q hq ((caught_iff q).mp hcaught)

/-- Nothing is taken for the wrapper, or it and what goes with it come first under their
exact names. -/
def Distinguished (wrapper : Name) (expect_type : MsgpackObjectType)
    (map : List (DocumentKv β)) : Prop :=
  (∀ p ∈ map, ¬ TakenFor wrapper expect_type p) ∨
    (ExactFirst expect_type map (wrapper, expect_type) ∧ (¬ "parameters".toList <+: wrapper.text →
      ∀ d ∈ (documented wrapper expect_type).tail, ExactFirst expect_type map d))

theorem handsExact_iff (zero : ε) (map : List (DocumentKv β)) (wrapper : Name) (optional : Bool)
    (process : ε → List (Option (MsgpackObject β)) → ℤ × ε) :
    HandsExact wrapper expect_type
        (helperConvert zero (some (.map map)) (some wrapper) expect_type optional process).2 ↔
      Distinguished wrapper expect_type map := by
  have hparameters : strneq wrapper.text "parameters".toList 10 = true ↔
      "parameters".toList <+: wrapper.text :=
    @strneq_name_iff wrapper.text "parameters".toList (by decide)
  cases hinner : finder wrapper expect_type map with
  | none =>
    simp only [helperConvert, hinner, Option.isSome_none, Bool.false_eq_true, if_false]
    refine ⟨fun _ => Or.inl ((finder_eq_none_iff map).mp hinner), fun _ args hargs => ?_⟩
    cases hargs
  | some p =>
    have htaken : ¬ ∀ q ∈ map, ¬ TakenFor wrapper expect_type q := by
      intro hnone
      rw [(finder_eq_none_iff map).mpr hnone] at hinner
      cases hinner
    have hfirst : (∃ q, some p = some q ∧ Exact (wrapper, expect_type) q) ↔
        ExactFirst expect_type map (wrapper, expect_type) := by
      rw [← finder_exact_iff, hinner]
    rw [Distinguished, or_iff_right htaken]
    simp only [helperConvert, hinner, Option.isSome_some, if_true, HandsExact, Option.some.injEq,
      forall_eq']
    by_cases hpre : "parameters".toList <+: wrapper.text
    · rw [if_pos (hparameters.mpr hpre)]
      change List.Forall₂ _ [(wrapper, expect_type)] [some p] ↔ _
      rw [List.forall₂_cons, ← hfirst]
      exact ⟨fun h => ⟨h.1, fun hno => absurd hpre hno⟩, fun h => ⟨h.1, List.Forall₂.nil⟩⟩
    · rw [if_neg fun h => hpre (hparameters.mp h)]
      change List.Forall₂ _ [(wrapper, expect_type), (subdocName, .str),
        (version, .positiveInteger), (transactionId, .positiveInteger)] _ ↔ _
      rw [List.forall₂_cons, List.forall₂_cons, List.forall₂_cons, List.forall₂_cons,
        finder_exact_iff, finder_exact_iff, finder_exact_iff, hfirst]
      constructor
      · rintro ⟨hwrapper, hname, hversion, hid, -⟩
        exact ⟨hwrapper, fun _ => List.forall_mem_cons.mpr ⟨hname, List.forall_mem_cons.mpr
          ⟨hversion, List.forall_mem_cons.mpr ⟨hid, List.forall_mem_nil _⟩⟩⟩⟩
      · rintro ⟨hwrapper, hothers⟩
        obtain ⟨hname, hrest⟩ := List.forall_mem_cons.mp (hothers hpre)
        obtain ⟨hversion, hrest⟩ := List.forall_mem_cons.mp hrest
        exact ⟨hwrapper, hname, hversion, (List.forall_mem_cons.mp hrest).1, List.Forall₂.nil⟩

end Searching

section Decoding

structure Wparam where
  name : Option CStr
  value : Option CStr
  type : BitVec 16
  deriving DecidableEq, Repr

def Wparam.zero : Wparam := ⟨none, none, 0#16⟩

/-- One entry of a parameter; a data type that is too large ends the decoder. -/
def paramEntry (p : MsgpackKv) (s : Wparam × BitVec 8) : Option (Wparam × BitVec 8) :=
  match p.key, p.val with
  | some key, .positiveInteger u64 =>
    if matchKey key "dataType" then
      if 65535 < u64.toNat then none
      else some ({ s.1 with type := u64.setWidth 16 }, clearBit s.2 2)
    else some s
  | some key, .str v =>
    let s := if matchKey key "name" then
      ({ s.1 with name := some (strndup v v.length) }, clearBit s.2 0) else s
    some (if matchKey key "value" then ({ s.1 with value := some v }, clearBit s.2 1) else s)
  | _, _ => some s

def paramLoop : List MsgpackKv → Wparam × BitVec 8 → ℤ × Wparam
  | [], s => (if s.2 = 0#8 then 0 else -1, s.1)
  | p :: rest, s =>
    if 0#8 < s.2 then
      match paramEntry p s with
      | some s' => paramLoop rest s'
      | none => (-1, s.1)
    else (if s.2 = 0#8 then 0 else -1, s.1)

def processParams (e : Wparam) (map : List MsgpackKv) : ℤ × Wparam := paramLoop map (e, 0x04#8)

/-- Entries beside the documented ones change neither the record nor the return code. -/
def Unmoved {ε : Type} (process : ε → List MsgpackKv → ℤ × ε) (zero : ε)
    (extra : List MsgpackKv) : Prop :=
  ∀ l l', Inserted extra l l' → process zero l' = process zero l

def KeyTaken (key name : CStr) : Prop := key <+: name ∨ name ++ ['\x00'] <+: key

/-- The key of an entry is taken for one of the names with its type of value. -/
def Takes (names : List (CStr × MsgpackType)) (p : MsgpackKv) : Prop :=
  ∃ key, p.key = some key ∧ ∃ d ∈ names, p.val.type = d.2 ∧ KeyTaken key d.1

def portdocNames : List (CStr × MsgpackType) :=
  ["ExternalPort", "InternalClient", "Protocol", "Description", "Enable"].map
    fun name => (name.toList, .str)

def PortdocTakes (p : MsgpackKv) : Prop :=
  Takes portdocNames p ∨
    ∃ key, p.key = some key ∧ p.val.type = .str ∧ "ExternalPortEndRange".toList <+: key

def lanNames : List (CStr × MsgpackType) :=
  [("DhcpServerEnable".toList, .boolean), ("LanIPAddress".toList, .str),
    ("LanSubnetMask".toList, .str), ("DhcpStartIPAddress".toList, .str),
    ("DhcpEndIPAddress".toList, .str), ("LeaseTime".toList, .positiveInteger)]

def macdocNames : List (CStr × MsgpackType) := [("Yiaddr".toList, .str), ("Chaddr".toList, .str)]

def wanNames : List (CStr × MsgpackType) :=
  [("Enable".toList, .boolean), ("InternalIP".toList, .str)]

def paramNames : List (CStr × MsgpackType) :=
  [("dataType".toList, .positiveInteger), ("name".toList, .str), ("value".toList, .str)]

theorem matchKey_iff (key : CStr) (name : String) (h : '\x00' ∉ name.toList) :
    matchKey key name = true ↔ KeyTaken key name.toList := strneq_key_iff h

variable {extra : List MsgpackKv} {ε : Type}

theorem decode_inserted {body : MsgpackKv → ε × BitVec 8 → ε × BitVec 8}
    (h : ∀ p ∈ extra, ∀ s, body p s = s) (objects_left : BitVec 8)
    (zero : ε) : Unmoved (decode body objects_left) zero extra := by
  intro l l' hl
  simp only [decode, maskedLoop_inserted h hl]

theorem unmoved_alone {body : MsgpackKv → ε × BitVec 8 → ε × BitVec 8}
    {objects_left : BitVec 8} {zero : ε} {p : MsgpackKv}
    (h : Unmoved (decode body objects_left) zero extra) (hp : p ∈ extra)
    (hleft : 0#8 < objects_left) : (body p (zero, objects_left)).1 = zero := by
  have hone := congrArg Prod.snd (h [] [p] (inserted_append_singleton hp []))
  simp only [decode, maskedLoop, if_pos hleft] at hone
  exact hone

theorem unmoved_behind {body : MsgpackKv → ε × BitVec 8 → ε × BitVec 8}
    {objects_left : BitVec 8} {zero : ε} {p : MsgpackKv}
    (h : Unmoved (decode body objects_left) zero extra) (hp : p ∈ extra) (q : MsgpackKv)
    {s : ε × BitVec 8} (hq : body q (zero, objects_left) = s) (hleft : 0#8 < objects_left)
    (hrest : 0#8 < s.2) : (body p s).1 = s.1 := by
  have hone := congrArg Prod.snd (h [q] [q, p] (inserted_append_singleton hp [q]))
  simp only [decode, maskedLoop, if_pos hleft, hq, if_pos hrest] at hone
  exact hone

def flagEntry (name : String) (b : Bool) : MsgpackKv :=
  ⟨some name.toList, .boolean b, Char.ofNat 0xc3, fun h => by cases h⟩

def numberEntry (name : String) (u64 : BitVec 64) : MsgpackKv :=
  ⟨some name.toList, .positiveInteger u64, '\x01', fun h => by cases h⟩

variable {valByte : Char}

theorem not_matchKey {names : List (CStr × MsgpackType)} {key : CStr} {val : MsgpackVal}
    {strByte : val.type = .str → 0xa0 ≤ valByte.toNat}
    (h : ¬ Takes names ⟨some key, val, valByte, strByte⟩) (name : String) {τ : MsgpackType}
    (hval : val.type = τ) (hmem : (name.toList, τ) ∈ names) (hname : '\x00' ∉ name.toList) :
    ¬ matchKey key name = true := by
  rw [matchKey_iff key name hname]
  exact fun htaken => h ⟨key, rfl, _, hmem, hval, htaken⟩

variable (extra : List MsgpackKv)

theorem macdoc_unmoved_iff :
    Unmoved processMacdocparams Macdoc.zero extra ↔ ∀ p ∈ extra, ¬ Takes macdocNames p := by
  constructor
  · rintro h p hp ⟨key, hkey, d, hd, htype, htaken⟩
    have halone := unmoved_alone h hp (by decide)
    obtain ⟨k, val, valByte, strByte⟩ := p
    simp only at hkey htype
    subst hkey
    simp only [macdocNames, List.mem_cons, List.not_mem_nil, or_false] at hd
    cases val with
    | str v =>
      have hmatch : matchKey key "Yiaddr" = true ∨ matchKey key "Chaddr" = true := by
        rcases hd with rfl | rfl
        · exact Or.inl ((matchKey_iff key "Yiaddr" (by decide)).mpr htaken)
        · exact Or.inr ((matchKey_iff key "Chaddr" (by decide)).mpr htaken)
      simp only [macdocEntry] at halone
      split at halone
      · cases congrArg Macdoc.yiaddr halone
      · next hno =>
        rw [if_pos (hmatch.resolve_left hno)] at halone
        cases congrArg Macdoc.chaddr halone
    | boolean b => rcases hd with rfl | rfl <;> cases htype
    | positiveInteger u64 => rcases hd with rfl | rfl <;> cases htype
    | other => rcases hd with rfl | rfl <;> cases htype
  · intro h
    apply decode_inserted
    intro p hp s
    have hno := h p hp
    obtain ⟨k, val, valByte, strByte⟩ := p
    cases k with
    | none => rfl
    | some key =>
      cases val with
      | str v =>
        have hyiaddr := not_matchKey hno "Yiaddr" (τ := .str) rfl (by decide) (by decide)
        have hchaddr := not_matchKey hno "Chaddr" (τ := .str) rfl (by decide) (by decide)
        simp only [macdocEntry, if_neg hyiaddr, if_neg hchaddr]
      | boolean b => rfl
      | positiveInteger u64 => rfl
      | other => rfl

theorem wan_unmoved_iff :
    Unmoved processWanparams DmzWanparam.zero extra ↔ ∀ p ∈ extra, ¬ Takes wanNames p := by
  constructor
  · rintro h p hp ⟨key, hkey, d, hd, htype, htaken⟩
    have halone := unmoved_alone h hp (by decide)
    have hbehind := fun b : Bool => unmoved_behind h hp (flagEntry "Enable" b)
      (s := (⟨b, none⟩, 0x02#8)) (by cases b <;> decide) (by decide)
      (by decide : 0#8 < 0x02#8)
    obtain ⟨k, val, valByte, strByte⟩ := p
    simp only at hkey htype
    subst hkey
    simp only [wanNames, List.mem_cons, List.not_mem_nil, or_false] at hd
    cases val with
    | str v =>
      rcases hd with rfl | rfl
      · cases htype
      · simp only [wanEntry,
          if_pos ((matchKey_iff key "InternalIP" (by decide)).mpr htaken)] at halone
        cases congrArg DmzWanparam.internal_ip halone
    | boolean b =>
      rcases hd with rfl | rfl
      · have hchanged := hbehind (!b)
        simp only [wanEntry,
          if_pos ((matchKey_iff key "Enable" (by decide)).mpr htaken)] at hchanged
        have hflag : b = !b := congrArg DmzWanparam.enable hchanged
        cases b <;> cases hflag
      · cases htype
    | positiveInteger u64 => rcases hd with rfl | rfl <;> cases htype
    | other => rcases hd with rfl | rfl <;> cases htype
  · intro h
    apply decode_inserted
    intro p hp s
    have hno := h p hp
    obtain ⟨k, val, valByte, strByte⟩ := p
    cases k with
    | none => rfl
    | some key =>
      cases val with
      | str v =>
        have hip := not_matchKey hno "InternalIP" (τ := .str) rfl (by decide) (by decide)
        simp only [wanEntry, if_neg hip]
      | boolean b =>
        have henable := not_matchKey hno "Enable" (τ := .boolean) rfl (by decide) (by decide)
        simp only [wanEntry, if_neg henable]
      | positiveInteger u64 => rfl
      | other => rfl

theorem lanEntry_text {key v : CStr}
    {strByte : (MsgpackVal.str v).type = .str → 0xa0 ≤ valByte.toNat} {left : BitVec 8}
    (h : (lanEntry ⟨some key, .str v, valByte, strByte⟩ (Lanparam.zero, left)).1 = Lanparam.zero) :
    ¬ matchKey key "LanIPAddress" = true ∧ ¬ matchKey key "LanSubnetMask" = true ∧
      ¬ matchKey key "DhcpStartIPAddress" = true ∧ ¬ matchKey key "DhcpEndIPAddress" = true := by
  simp only [lanEntry, lanString] at h
  refine ⟨fun hip => ?_, fun hmask => ?_, fun hstart => ?_, fun hend => ?_⟩
  · have hfield := congrArg Lanparam.lan_ip_address h
    simp only [hip, if_true, apply_ite Prod.fst, apply_ite Lanparam.lan_ip_address, ite_self]
      at hfield
    cases hfield
  · have hfield := congrArg Lanparam.lan_subnet_mask h
    simp only [hmask, if_true, apply_ite Prod.fst, apply_ite Lanparam.lan_subnet_mask, ite_self]
      at hfield
    cases hfield
  · have hfield := congrArg Lanparam.dhcp_start_ip_address h
    simp only [hstart, if_true, apply_ite Prod.fst, apply_ite Lanparam.dhcp_start_ip_address,
      ite_self] at hfield
    cases hfield
  · have hfield := congrArg Lanparam.dhcp_end_ip_address h
    simp only [hend, if_true, apply_ite Prod.fst, apply_ite Lanparam.dhcp_end_ip_address,
      ite_self] at hfield
    cases hfield

theorem lan_unmoved_iff :
    Unmoved processLanparams Lanparam.zero extra ↔ ∀ p ∈ extra, ¬ Takes lanNames p := by
  constructor
  · rintro h p hp ⟨key, hkey, d, hd, htype, htaken⟩
    have halone := unmoved_alone h hp (by decide)
    have hflag := fun b : Bool => unmoved_behind h hp (flagEntry "DhcpServerEnable" b)
      (s := (⟨b, none, none, none, none, 0#32⟩, 0x06#8)) (by cases b <;> decide) (by decide)
        (by decide : 0#8 < 0x06#8)
    have hnumber := unmoved_behind h hp (numberEntry "LeaseTime" 1#64)
      (s := (⟨false, none, none, none, none, 1#32⟩, 0x02#8)) (by decide) (by decide)
        (by decide : 0#8 < 0x02#8)
    obtain ⟨k, val, valByte, strByte⟩ := p
    simp only at hkey htype
    subst hkey
    simp only [lanNames, List.mem_cons, List.not_mem_nil, or_false] at hd
    cases val with
    | str v =>
      obtain ⟨hip, hmask, hstart, hend⟩ := lanEntry_text halone
      rcases hd with rfl | rfl | rfl | rfl | rfl | rfl
      · cases htype
      · exact hip ((matchKey_iff key "LanIPAddress" (by decide)).mpr htaken)
      · exact hmask ((matchKey_iff key "LanSubnetMask" (by decide)).mpr htaken)
      · exact hstart ((matchKey_iff key "DhcpStartIPAddress" (by decide)).mpr htaken)
      · exact hend ((matchKey_iff key "DhcpEndIPAddress" (by decide)).mpr htaken)
      · cases htype
    | boolean b =>
      rcases hd with rfl | rfl | rfl | rfl | rfl | rfl <;> try cases htype
      have hchanged := hflag (!b)
      simp only [lanEntry, if_pos ((matchKey_iff key "DhcpServerEnable" (by decide)).mpr htaken)]
        at hchanged
      have hsame : b = !b := congrArg Lanparam.dhcp_server_enable hchanged
      cases b <;> cases hsame
    | positiveInteger u64 =>
      rcases hd with rfl | rfl | rfl | rfl | rfl | rfl <;> try cases htype
      have hmatch := (matchKey_iff key "LeaseTime" (by decide)).mpr htaken
      simp only [lanEntry, if_pos hmatch] at halone hnumber
      have hzero : u64.setWidth 32 = 0#32 := congrArg Lanparam.leasetime halone
      have hone : u64.setWidth 32 = 1#32 := congrArg Lanparam.leasetime hnumber
      rw [hzero] at hone
      cases hone
    | other => rcases hd with rfl | rfl | rfl | rfl | rfl | rfl <;> cases htype
  · intro h
    apply decode_inserted
    intro p hp s
    have hno := h p hp
    obtain ⟨k, val, valByte, strByte⟩ := p
    cases k with
    | none => rfl
    | some key =>
      cases val with
      | str v =>
        have hip := not_matchKey hno "LanIPAddress" (τ := .str) rfl (by decide) (by decide)
        have hmask := not_matchKey hno "LanSubnetMask" (τ := .str) rfl (by decide) (by decide)
        have hstart := not_matchKey hno "DhcpStartIPAddress" (τ := .str) rfl (by decide) (by decide)
        have hend := not_matchKey hno "DhcpEndIPAddress" (τ := .str) rfl (by decide) (by decide)
        simp only [lanEntry, lanString, if_neg hip, if_neg hmask, if_neg hstart, if_neg hend]
      | boolean b =>
        have henable :=
          not_matchKey hno "DhcpServerEnable" (τ := .boolean) rfl (by decide) (by decide)
        simp only [lanEntry, if_neg henable]
      | positiveInteger u64 =>
        have hlease := not_matchKey hno "LeaseTime" (τ := .positiveInteger) rfl (by decide)
          (by decide)
        simp only [lanEntry, if_neg hlease]
      | other => rfl

theorem endRange_iff {key : CStr} (h : 0xa0 ≤ valByte.toNat) :
    strneq (key ++ [valByte]) "ExternalPortEndRange".toList 20 = true ↔
      "ExternalPortEndRange".toList <+: key := by
  have hname := @strneq_name_iff (key ++ [valByte]) "ExternalPortEndRange".toList (by decide)
  rw [show "ExternalPortEndRange".toList.length = 20 by decide] at hname
  rw [hname, List.prefix_concat_iff]
  refine or_iff_right fun heq => ?_
  have hlast := congrArg List.getLast? heq
  rw [List.getLast?_concat] at hlast
  have he : "ExternalPortEndRange".toList.getLast? = some 'e' := by decide
  rw [he, Option.some.injEq] at hlast
  rw [← hlast] at h
  exact absurd h (by decide)

theorem portdoc_unmoved_iff :
    Unmoved processPortdocparams Portdoc.zero extra ↔ ∀ p ∈ extra, ¬ PortdocTakes p := by
  constructor
  · intro h p hp htakes
    have halone := unmoved_alone h hp (by decide)
    obtain ⟨k, val, valByte, strByte⟩ := p
    have hstr : val.type = .str := by
      rcases htakes with ⟨_, -, d, hd, htype, -⟩ | ⟨_, -, htype, -⟩
      · obtain ⟨name, -, rfl⟩ := List.mem_map.mp hd
        exact htype
      · exact htype
    cases val with
    | str v =>
      cases k with
      | none =>
        rcases htakes with ⟨_, hkey, -⟩ | ⟨_, hkey, -⟩
        · cases hkey
        · cases hkey
      | some key =>
        simp only [portdocEntry] at halone
        split at halone
        · cases congrArg Portdoc.external_port_end_range halone
        · next hrange =>
          split at halone
          · cases congrArg Portdoc.external_port halone
          · next hport =>
            split at halone
            · cases congrArg Portdoc.internal_client halone
            · next hclient =>
              split at halone
              · cases congrArg Portdoc.protocol halone
              · next hprotocol =>
                split at halone
                · cases congrArg Portdoc.description halone
                · next hdescription =>
                  split at halone
                  · cases congrArg Portdoc.enable halone
                  · next henable =>
                    rcases htakes with ⟨_, hkey, d, hd, -, htaken⟩ | ⟨_, hkey, -, htaken⟩
                    · obtain rfl := Option.some.inj hkey
                      simp only [portdocNames, List.map_cons, List.map_nil, List.mem_cons,
                        List.not_mem_nil, or_false] at hd
                      rcases hd with rfl | rfl | rfl | rfl | rfl
                      · exact hport ((matchKey_iff _ _ (by decide)).mpr htaken)
                      · exact hclient ((matchKey_iff _ _ (by decide)).mpr htaken)
                      · exact hprotocol ((matchKey_iff _ _ (by decide)).mpr htaken)
                      · exact hdescription ((matchKey_iff _ _ (by decide)).mpr htaken)
                      · exact henable ((matchKey_iff _ _ (by decide)).mpr htaken)
                    · obtain rfl := Option.some.inj hkey
                      exact hrange ((endRange_iff (strByte rfl)).mpr htaken)
    | boolean b => cases hstr
    | positiveInteger u64 => cases hstr
    | other => cases hstr
  · intro h
    apply decode_inserted
    intro p hp s
    obtain ⟨hnames, hrange⟩ := not_or.mp (h p hp)
    obtain ⟨k, val, valByte, strByte⟩ := p
    cases k with
    | none => rfl
    | some key =>
      cases val with
      | str v =>
        have hlong : ¬ strneq (key ++ [valByte]) "ExternalPortEndRange".toList 20 = true := by
          rw [endRange_iff (strByte rfl)]
          exact fun htaken => hrange ⟨key, rfl, rfl, htaken⟩
        have hport := not_matchKey hnames "ExternalPort" (τ := .str) rfl (by decide) (by decide)
        have hclient := not_matchKey hnames "InternalClient" (τ := .str) rfl (by decide) (by decide)
        have hprotocol := not_matchKey hnames "Protocol" (τ := .str) rfl (by decide) (by decide)
        have hdescription :=
          not_matchKey hnames "Description" (τ := .str) rfl (by decide) (by decide)
        have henable := not_matchKey hnames "Enable" (τ := .str) rfl (by decide) (by decide)
        simp only [portdocEntry, if_neg hlong, if_neg hport, if_neg hclient, if_neg hprotocol,
          if_neg hdescription, if_neg henable]
      | boolean b => rfl
      | positiveInteger u64 => rfl
      | other => rfl

theorem paramLoop_inserted {extra l l' : List MsgpackKv}
    (h : ∀ p ∈ extra, ∀ s, paramEntry p s = some s) (hl : Inserted extra l l')
    (s : Wparam × BitVec 8) : paramLoop l' s = paramLoop l s := by
  induction hl generalizing s with
  | nil => rfl
  | keep p _ ih =>
    rw [paramLoop, paramLoop]
    split
    · cases paramEntry p s with
      | none => rfl
      | some s' => exact ih s'
    · rfl
  | @insert p l l' hp hrest ih =>
    rw [paramLoop, h p hp s]
    split
    · exact ih s
    · next hs =>
      cases l with
      | nil => rfl
      | cons q l => rw [paramLoop, if_neg hs]

theorem params_unmoved_iff :
    Unmoved processParams Wparam.zero extra ↔ ∀ p ∈ extra, ¬ Takes paramNames p := by
  constructor
  · rintro h p hp ⟨key, hkey, d, hd, htype, htaken⟩
    have halone := h [] [p] (inserted_append_singleton hp [])
    have hbefore := h [numberEntry "dataType" 1#64] [p, numberEntry "dataType" 1#64]
      (Inserted.insert hp (inserted_refl _ _))
    have hone : processParams Wparam.zero [numberEntry "dataType" 1#64] =
      (0, ⟨none, none, 1#16⟩) := by
      decide
    rw [hone] at hbefore
    obtain ⟨k, val, valByte, strByte⟩ := p
    simp only at hkey htype
    subst hkey
    simp only [paramNames, List.mem_cons, List.not_mem_nil, or_false] at hd
    cases val with
    | str v =>
      have hzero := congrArg Prod.snd halone
      simp only [processParams, paramLoop, paramEntry, if_pos (by decide : 0#8 < 4#8)] at hzero
      rcases hd with rfl | rfl | rfl
      · cases htype
      · have hname := congrArg Wparam.name hzero
        simp only [if_pos ((matchKey_iff key "name" (by decide)).mpr htaken), apply_ite Prod.fst,
          apply_ite Wparam.name, ite_self] at hname
        cases hname
      · have hvalue := congrArg Wparam.value hzero
        simp only [if_pos ((matchKey_iff key "value" (by decide)).mpr htaken)] at hvalue
        cases hvalue
    | positiveInteger u64 =>
      rcases hd with rfl | rfl | rfl <;> try cases htype
      have hmatch := (matchKey_iff key "dataType" (by decide)).mpr htaken
      simp only [processParams, paramLoop, paramEntry, if_pos (by decide : 0#8 < 4#8),
        if_pos hmatch] at halone hbefore
      by_cases hlarge : 65535 < u64.toNat
      · simp only [if_pos hlarge] at hbefore
        cases congrArg Prod.fst hbefore
      · simp only [if_neg hlarge] at halone
        cases congrArg Prod.fst halone
    | boolean b => rcases hd with rfl | rfl | rfl <;> cases htype
    | other => rcases hd with rfl | rfl | rfl <;> cases htype
  · intro h l l' hl
    apply paramLoop_inserted _ hl
    intro p hp s
    have hno := h p hp
    obtain ⟨k, val, valByte, strByte⟩ := p
    cases k with
    | none => rfl
    | some key =>
      cases val with
      | str v =>
        have hname := not_matchKey hno "name" (τ := .str) rfl (by decide) (by decide)
        have hvalue := not_matchKey hno "value" (τ := .str) rfl (by decide) (by decide)
        simp only [paramEntry, if_neg hname, if_neg hvalue]
      | positiveInteger u64 =>
        have htype := not_matchKey hno "dataType" (τ := .positiveInteger) rfl (by decide)
          (by decide)
        simp only [paramEntry, if_neg htype]
      | boolean b => rfl
      | other => rfl

end Decoding

def textDocument : List (DocumentKv Unit) :=
  [⟨some "lan".toList, [Char.ofNat 0xa1, 'x'], ⟨.str, ()⟩⟩]

end CcspPandM.SubdocHelpers
