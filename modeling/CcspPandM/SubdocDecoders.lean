import CcspPandM.MaskedLoop
import CcspPandM.CString

/-!
The four decoders that turn a msgpack map of a webconfig subdocument into a
record. A key is compared by `strncmp` over its own length, one name in the
port-forwarding decoder over the length of the name. Each decoder stops once
the objects of its initial mask have been seen.
-/
namespace CcspPandM.SubdocDecoders

open CString MaskedLoop

inductive MsgpackType where
  | str
  | boolean
  | positiveInteger
  | other
  deriving DecidableEq, Repr

inductive MsgpackVal where
  | str (s : CStr)
  | boolean (b : Bool)
  | positiveInteger (u64 : BitVec 64)
  | other
  deriving DecidableEq, Repr

def MsgpackVal.type : MsgpackVal → MsgpackType
  | .str _ => .str
  | .boolean _ => .boolean
  | .positiveInteger _ => .positiveInteger
  | .other => .other

/-- A map entry as it lies in the buffer. The byte behind a key is the first of
its value, and no string value starts with a byte below 0xa0. -/
structure MsgpackKv where
  key : Option CStr
  val : MsgpackVal
  valByte : Char
  strByte : val.type = .str → 0xa0 ≤ valByte.toNat

/-- `match`: the key against a name, over the length of the key. -/
def matchKey (key : CStr) (name : String) : Bool := strneq key name.toList key.length

structure Portdoc where
  internal_client : Option CStr
  enable : Option CStr
  external_port_end_range : Option CStr
  protocol : Option CStr
  description : Option CStr
  external_port : Option CStr
  deriving DecidableEq, Repr

structure Lanparam where
  dhcp_server_enable : Bool
  lan_ip_address : Option CStr
  lan_subnet_mask : Option CStr
  dhcp_start_ip_address : Option CStr
  dhcp_end_ip_address : Option CStr
  leasetime : BitVec 32
  deriving DecidableEq, Repr

structure Macdoc where
  yiaddr : Option CStr
  chaddr : Option CStr
  deriving DecidableEq, Repr

structure DmzWanparam where
  enable : Bool
  internal_ip : Option CStr
  deriving DecidableEq, Repr

def clearBit (objects_left : BitVec 8) (n : ℕ) : BitVec 8 := objects_left &&& ~~~(1#8 <<< n)

def portdocEntry (p : MsgpackKv) (s : Portdoc × BitVec 8) : Portdoc × BitVec 8 :=
  match p.key, p.val with
  | some key, .str v =>
    let text := some (strndup v v.length)
    if strneq (key ++ [p.valByte]) "ExternalPortEndRange".toList 20 then
      ({ s.1 with external_port_end_range := text }, clearBit s.2 1)
    else if matchKey key "ExternalPort" then
      ({ s.1 with external_port := text }, clearBit s.2 2)
    else if matchKey key "InternalClient" then
      ({ s.1 with internal_client := text }, clearBit s.2 3)
    else if matchKey key "Protocol" then ({ s.1 with protocol := text }, clearBit s.2 4)
    else if matchKey key "Description" then ({ s.1 with description := text }, clearBit s.2 5)
    else if matchKey key "Enable" then ({ s.1 with enable := text }, clearBit s.2 6)
    else s
  | _, _ => s

/-- One of the string branches of the LAN decoder, which are not exclusive. -/
def lanString (key : CStr) (name : String) (n : ℕ) (put : Lanparam → Lanparam)
    (s : Lanparam × BitVec 8) : Lanparam × BitVec 8 :=
  if matchKey key name then (put s.1, clearBit s.2 n) else s

def lanEntry (p : MsgpackKv) (s : Lanparam × BitVec 8) : Lanparam × BitVec 8 :=
  match p.key, p.val with
  | some key, .boolean b =>
    if matchKey key "DhcpServerEnable" then ({ s.1 with dhcp_server_enable := b }, clearBit s.2 0)
    else s
  | some key, .str v =>
    let text := some (strndup v v.length)
    let s := lanString key "LanIPAddress" 1 (fun e => { e with lan_ip_address := text }) s
    let s := lanString key "LanSubnetMask" 3 (fun e => { e with lan_subnet_mask := text }) s
    let s := lanString key "DhcpStartIPAddress" 4
      (fun e => { e with dhcp_start_ip_address := text }) s
    lanString key "DhcpEndIPAddress" 5 (fun e => { e with dhcp_end_ip_address := text }) s
  | some key, .positiveInteger u64 =>
    if matchKey key "LeaseTime" then ({ s.1 with leasetime := u64.setWidth 32 }, clearBit s.2 2)
    else s
  | _, _ => s

def macdocEntry (p : MsgpackKv) (s : Macdoc × BitVec 8) : Macdoc × BitVec 8 :=
  match p.key, p.val with
  | some key, .str v =>
    let text := some (strndup v v.length)
    if matchKey key "Yiaddr" then ({ s.1 with yiaddr := text }, clearBit s.2 0)
    else if matchKey key "Chaddr" then ({ s.1 with chaddr := text }, clearBit s.2 1)
    else s
  | _, _ => s

def wanEntry (p : MsgpackKv) (s : DmzWanparam × BitVec 8) : DmzWanparam × BitVec 8 :=
  match p.key, p.val with
  | some key, .boolean b =>
    if matchKey key "Enable" then ({ s.1 with enable := b }, clearBit s.2 0) else s
  | some key, .str v =>
    if matchKey key "InternalIP" then
      ({ s.1 with internal_ip := some (strndup v v.length) }, clearBit s.2 1)
    else s
  | _, _ => s

def processPortdocparams (e : Portdoc) (map : List MsgpackKv) : ℤ × Portdoc :=
  decode portdocEntry 0x06#8 e map

def processLanparams (e : Lanparam) (map : List MsgpackKv) : ℤ × Lanparam :=
  decode lanEntry 0x06#8 e map

def processMacdocparams (e : Macdoc) (map : List MsgpackKv) : ℤ × Macdoc :=
  decode macdocEntry 0x02#8 e map

def processWanparams (e : DmzWanparam) (map : List MsgpackKv) : ℤ × DmzWanparam :=
  decode wanEntry 0x02#8 e map

inductive FieldValue where
  | text (s : Option CStr)
  | flag (b : Bool)
  | number (n : ℕ)
  deriving DecidableEq, Repr

def MsgpackVal.stored : MsgpackVal → FieldValue
  | .str s => .text (some (strndup s s.length))
  | .boolean b => .flag b
  | .positiveInteger u64 => .number (u64.toNat % 2 ^ 32)
  | .other => .text none

def MsgpackVal.exact : MsgpackVal → FieldValue
  | .str s => .text (some s)
  | .boolean b => .flag b
  | .positiveInteger u64 => .number u64.toNat
  | .other => .text none

def MsgpackVal.dup : MsgpackVal → Option CStr
  | .str s => some (strndup s s.length)
  | _ => none

def MsgpackVal.truth : MsgpackVal → Bool
  | .boolean b => b
  | _ => false

def MsgpackVal.uint32 : MsgpackVal → BitVec 32
  | .positiveInteger u64 => u64.setWidth 32
  | _ => 0#32

structure FieldDoc (ε : Type) where
  name : CStr
  type : MsgpackType
  bit : ℕ
  get : ε → FieldValue
  put : MsgpackVal → ε → ε

def portdocFields : List (FieldDoc Portdoc) :=
  [⟨"ExternalPortEndRange".toList, .str, 1, fun e => .text e.external_port_end_range,
      fun v e => { e with external_port_end_range := v.dup }⟩,
    ⟨"ExternalPort".toList, .str, 2, fun e => .text e.external_port,
      fun v e => { e with external_port := v.dup }⟩,
    ⟨"InternalClient".toList, .str, 3, fun e => .text e.internal_client,
      fun v e => { e with internal_client := v.dup }⟩,
    ⟨"Protocol".toList, .str, 4, fun e => .text e.protocol,
      fun v e => { e with protocol := v.dup }⟩,
    ⟨"Description".toList, .str, 5, fun e => .text e.description,
      fun v e => { e with description := v.dup }⟩,
    ⟨"Enable".toList, .str, 6, fun e => .text e.enable,
      fun v e => { e with enable := v.dup }⟩]

def lanFields : List (FieldDoc Lanparam) :=
  [⟨"DhcpServerEnable".toList, .boolean, 0, fun e => .flag e.dhcp_server_enable,
      fun v e => { e with dhcp_server_enable := v.truth }⟩,
    ⟨"LanIPAddress".toList, .str, 1, fun e => .text e.lan_ip_address,
      fun v e => { e with lan_ip_address := v.dup }⟩,
    ⟨"LeaseTime".toList, .positiveInteger, 2, fun e => .number e.leasetime.toNat,
      fun v e => { e with leasetime := v.uint32 }⟩,
    ⟨"LanSubnetMask".toList, .str, 3, fun e => .text e.lan_subnet_mask,
      fun v e => { e with lan_subnet_mask := v.dup }⟩,
    ⟨"DhcpStartIPAddress".toList, .str, 4, fun e => .text e.dhcp_start_ip_address,
      fun v e => { e with dhcp_start_ip_address := v.dup }⟩,
    ⟨"DhcpEndIPAddress".toList, .str, 5, fun e => .text e.dhcp_end_ip_address,
      fun v e => { e with dhcp_end_ip_address := v.dup }⟩]

def macdocFields : List (FieldDoc Macdoc) :=
  [⟨"Yiaddr".toList, .str, 0, fun e => .text e.yiaddr,
      fun v e => { e with yiaddr := v.dup }⟩,
    ⟨"Chaddr".toList, .str, 1, fun e => .text e.chaddr,
      fun v e => { e with chaddr := v.dup }⟩]

def wanFields : List (FieldDoc DmzWanparam) :=
  [⟨"Enable".toList, .boolean, 0, fun e => .flag e.enable,
      fun v e => { e with enable := v.truth }⟩,
    ⟨"InternalIP".toList, .str, 1, fun e => .text e.internal_ip,
      fun v e => { e with internal_ip := v.dup }⟩]

/-- The records as the callers' `memset` leaves them. -/
def Portdoc.zero : Portdoc := ⟨none, none, none, none, none, none⟩

def Lanparam.zero : Lanparam := ⟨false, none, none, none, none, 0#32⟩

def Macdoc.zero : Macdoc := ⟨none, none⟩

def DmzWanparam.zero : DmzWanparam := ⟨false, none⟩

section Table

variable {ε : Type} (fields : List (FieldDoc ε))

def IsEntry (f : FieldDoc ε) (p : MsgpackKv) : Prop :=
  p.key = some f.name ∧ p.val.type = f.type

structure DocumentedMap where
  entries : List MsgpackKv
  documented : ∀ p ∈ entries, ∃ f ∈ fields, IsEntry f p
  distinct : (entries.map MsgpackKv.key).Nodup

def fieldAt (key : Option CStr) : Option (FieldDoc ε) :=
  fields.find? (fun f => decide (key = some f.name))

def bitAt (key : Option CStr) : ℕ := ((fieldAt fields key).map FieldDoc.bit).getD 0

def valueAt (e : ε) (key : Option CStr) : FieldValue :=
  ((fieldAt fields key).map (fun f => f.get e)).getD (.text none)

structure TableBody (body : MsgpackKv → ε × BitVec 8 → ε × BitVec 8) : Prop where
  step : ∀ f ∈ fields, ∀ p s, IsEntry f p → body p s = (f.put p.val s.1, clearBit s.2 f.bit)
  get_put : ∀ f ∈ fields, ∀ v e, v.type = f.type → f.get (f.put v e) = v.stored
  frame : ∀ f ∈ fields, ∀ g ∈ fields, ∀ v e, g.name ≠ f.name → g.get (f.put v e) = g.get e
  ext : ∀ e e', (∀ f ∈ fields, f.get e = f.get e') → e = e'
  name_inj : ∀ f ∈ fields, ∀ g ∈ fields, f.name = g.name → f = g
  bit_inj : ∀ f ∈ fields, ∀ g ∈ fields, f.bit = g.bit → f = g
  bit_lt : ∀ f ∈ fields, f.bit < 8

variable {fields} {body : MsgpackKv → ε × BitVec 8 → ε × BitVec 8} (table : TableBody fields body)

include table

variable {f : FieldDoc ε}

theorem fieldAt_of_mem (hf : f ∈ fields) :
    fieldAt fields (some f.name) = some f := by
  unfold fieldAt
  cases hfind : fields.find? (fun g => decide (some f.name = some g.name)) with
  | none =>
    have h := List.find?_eq_none.mp hfind f hf
    simp at h
  | some g =>
    have hg := List.find?_some hfind
    rw [decide_eq_true_eq, Option.some.injEq] at hg
    rw [table.name_inj f hf g (List.mem_of_find?_eq_some hfind) hg]

theorem bitAt_of_isEntry (hf : f ∈ fields) {p : MsgpackKv} (h : IsEntry f p) :
    bitAt fields p.key = f.bit := by
  rw [bitAt, h.1, fieldAt_of_mem table hf]
  rfl

theorem valueAt_of_isEntry (hf : f ∈ fields) {p : MsgpackKv} (h : IsEntry f p)
    (e : ε) : valueAt fields e p.key = f.get e := by
  rw [valueAt, h.1, fieldAt_of_mem table hf]
  rfl

theorem fieldBody_of_tableBody : FieldBody body MsgpackKv.key (bitAt fields) (valueAt fields)
    (fun p => p.val.stored) (fun p => ∃ f ∈ fields, IsEntry f p) where
  mask := by
    rintro p s ⟨f, hf, hp⟩
    rw [table.step f hf p s hp, bitAt_of_isEntry table hf hp]
    rfl
  hit := by
    rintro p s ⟨f, hf, hp⟩
    rw [valueAt_of_isEntry table hf hp, table.step f hf p s hp, table.get_put f hf _ _ hp.2]
  frame := by
    rintro p s k ⟨f, hf, hp⟩ hk
    cases hfind : fieldAt fields k with
    | none => simp only [valueAt, hfind, Option.map_none]
    | some g =>
      have hg := List.find?_some hfind
      rw [decide_eq_true_eq] at hg
      have hne : g.name ≠ f.name := by
        intro h
        rw [hg, h, ← hp.1] at hk
        exact hk rfl
      simp only [valueAt, hfind, Option.map_some, Option.getD_some]
      rw [table.step f hf p s hp]
      exact table.frame f hf g (List.mem_of_find?_eq_some hfind) p.val s.1 hne
  ext := by
    intro e e' h
    refine table.ext e e' (fun f hf => ?_)
    have hk := h (some f.name)
    rwa [valueAt, valueAt, fieldAt_of_mem table hf] at hk
  bit_inj := by
    rintro p q ⟨f, hf, hp⟩ ⟨g, hg, hq⟩ h
    rw [bitAt_of_isEntry table hf hp, bitAt_of_isEntry table hg hq] at h
    rw [hp.1, hq.1, table.bit_inj f hf g hg h]
  bit_lt := by
    rintro p ⟨f, hf, hp⟩
    rw [bitAt_of_isEntry table hf hp]
    exact table.bit_lt f hf

end Table

section Law

variable {ε : Type} {fields : List (FieldDoc ε)}

def Present (m : DocumentedMap fields) (f : FieldDoc ε) : Prop :=
  ∃ p ∈ m.entries, p.key = some f.name

/-- Any order of the entries decodes alike, and a complete map is decoded
without an error into exactly its values. -/
def Lawful (process : ε → List MsgpackKv → ℤ × ε) (zero : ε) (m : DocumentedMap fields) : Prop :=
  OrderFree (process zero) m.entries ∧
    ((∀ f ∈ fields, Present m f) → (process zero m.entries).1 = 0 ∧
      ∀ f ∈ fields, ∀ p ∈ m.entries, IsEntry f p →
        f.get (process zero m.entries).2 = p.val.exact)

/-- An object of the initial mask is missing, or the other entries say nothing
the zeroed record does not hold, and a complete map has only values that fit. -/
def Settled (objects_left : BitVec 8) (zero : ε) (m : DocumentedMap fields) : Prop :=
  (∃ f ∈ fields, objects_left.getLsbD f.bit = true ∧ ¬ Present m f) ∨
    ((∀ f ∈ fields, ∀ p ∈ m.entries, IsEntry f p → objects_left.getLsbD f.bit = false →
        p.val.stored = f.get zero) ∧
      ((∀ f ∈ fields, Present m f) → ∀ p ∈ m.entries, p.val.stored = p.val.exact))

section Decode

variable {body : MsgpackKv → ε × BitVec 8 → ε × BitVec 8} (table : TableBody fields body)
  (objects_left : BitVec 8) (m : DocumentedMap fields)

include table

theorem clearMask_eq_zero_iff_present
    (hbits : ∀ i < 8, objects_left.getLsbD i = true → ∃ f ∈ fields, f.bit = i) :
    clearMask MsgpackKv.key (bitAt fields) objects_left m.entries = 0#8 ↔
      ∀ f ∈ fields, objects_left.getLsbD f.bit = true → Present m f := by
  rw [clearMask_eq_zero_iff]
  constructor
  · intro h f hf hbit
    obtain ⟨p, hp, hpbit⟩ := h f.bit (table.bit_lt f hf) hbit
    obtain ⟨g, hg, hpg⟩ := m.documented p hp
    rw [bitAt_of_isEntry table hg hpg] at hpbit
    exact ⟨p, hp, by rw [hpg.1, table.bit_inj g hg f hf hpbit]⟩
  · intro h i hi hbit
    obtain ⟨f, hf, rfl⟩ := hbits i hi hbit
    obtain ⟨p, hp, hkey⟩ := h f hf hbit
    refine ⟨p, hp, ?_⟩
    rw [bitAt, hkey, fieldAt_of_mem table hf]
    rfl

theorem others_stored_iff (zero : ε) :
    (∀ p ∈ m.entries, objects_left.getLsbD (bitAt fields p.key) = false →
      p.val.stored = valueAt fields zero p.key) ↔
    ∀ f ∈ fields, ∀ p ∈ m.entries, IsEntry f p → objects_left.getLsbD f.bit = false →
      p.val.stored = f.get zero := by
  constructor
  · intro h f hf p hp hfp hbit
    rw [← valueAt_of_isEntry table hf hfp]
    refine h p hp ?_
    rw [bitAt_of_isEntry table hf hfp]
    exact hbit
  · intro h p hp hbit
    obtain ⟨f, hf, hfp⟩ := m.documented p hp
    rw [bitAt_of_isEntry table hf hfp] at hbit
    rw [valueAt_of_isEntry table hf hfp]
    exact h f hf p hp hfp hbit

theorem lawful_decode_iff (zero : ε) (hleft : objects_left ≠ 0#8)
    (hbits : ∀ i < 8, objects_left.getLsbD i = true → ∃ f ∈ fields, f.bit = i) :
    Lawful (decode body objects_left) zero m ↔ Settled objects_left zero m := by
  have hbody := fieldBody_of_tableBody table
  have hmissing : clearMask MsgpackKv.key (bitAt fields) objects_left m.entries ≠ 0#8 ↔
      ∃ f ∈ fields, objects_left.getLsbD f.bit = true ∧ ¬ Present m f := by
    rw [ne_eq, clearMask_eq_zero_iff_present table objects_left m hbits]
    push Not
    rfl
  have horder := orderFree_decode_iff hbody objects_left zero m.documented m.distinct hleft
  rw [hmissing, others_stored_iff table objects_left m zero] at horder
  have hget := fun hlost p hp =>
    decode_get hbody objects_left zero m.documented m.distinct hlost (a := p) hp
  rw [hmissing, others_stored_iff table objects_left m zero] at hget
  constructor
  · rintro ⟨hfree, hcomplete⟩
    refine (horder.mp hfree).imp_right (fun hothers => ⟨hothers, fun hall p hp => ?_⟩)
    obtain ⟨f, hf, hfp⟩ := m.documented p hp
    rw [← hget (Or.inr hothers) p hp, valueAt_of_isEntry table hf hfp]
    exact (hcomplete hall).2 f hf p hp hfp
  · intro hsettled
    have hlost := hsettled.imp_right And.left
    refine ⟨horder.mpr hlost, fun hall => ⟨?_, fun f hf p hp hfp => ?_⟩⟩
    · rw [decode_status hbody objects_left zero m.documented, if_pos]
      exact (clearMask_eq_zero_iff_present table objects_left m hbits).mpr (fun f hf _ => hall f hf)
    · rw [← valueAt_of_isEntry table hf hfp, hget hlost p hp]
      rcases hsettled with ⟨g, hg, -, habsent⟩ | ⟨-, hexact⟩
      · exact absurd (hall g hg) habsent
      · exact hexact hall p hp

end Decode

end Law

private theorem endRange_of_externalPort {h : Char} (hh : 0xa0 ≤ h.toNat) :
    strneq ("ExternalPort".toList ++ [h]) "ExternalPortEndRange".toList 20 = false := by
  have hE : (h == 'E') = false := by
    rw [beq_eq_false_iff_ne]
    rintro rfl
    revert hh
    decide
  simp [strneq, hE]

private theorem portdocEntry_externalPort (v : CStr) (valByte : Char)
    (strByte : MsgpackType.str = .str → 0xa0 ≤ valByte.toNat) (s : Portdoc × BitVec 8) :
    portdocEntry ⟨some "ExternalPort".toList, .str v, valByte, strByte⟩ s =
      ({ s.1 with external_port := some (strndup v v.length) }, clearBit s.2 2) := by
  have hlonger : ¬ strneq ("ExternalPort".toList ++ [valByte]) "ExternalPortEndRange".toList 20 =
      true := by
    rw [endRange_of_externalPort (strByte rfl)]
    exact Bool.false_ne_true
  exact (if_neg hlonger).trans rfl

theorem macdoc_table : TableBody macdocFields macdocEntry where
  step := by
    intro f hf p s hp
    obtain ⟨key, val, valByte, strByte⟩ := p
    simp only [macdocFields, List.mem_cons, List.not_mem_nil, or_false] at hf
    rcases hf with rfl | rfl <;> obtain ⟨rfl, htype⟩ := hp <;> cases val <;> cases htype
    all_goals rfl
  get_put := by
    intro f hf v e htype
    simp only [macdocFields, List.mem_cons, List.not_mem_nil, or_false] at hf
    rcases hf with rfl | rfl <;> cases v <;> cases htype <;> rfl
  frame := by
    intro f hf g hg v e hne
    simp only [macdocFields, List.mem_cons, List.not_mem_nil, or_false] at hf hg
    rcases hf with rfl | rfl <;> rcases hg with rfl | rfl <;>
      first | rfl | exact absurd rfl hne
  ext := by
    intro e e' h
    cases e
    cases e'
    simp_all [macdocFields]
  name_inj := by simp [macdocFields]
  bit_inj := by simp [macdocFields]
  bit_lt := by simp [macdocFields]

theorem wan_table : TableBody wanFields wanEntry where
  step := by
    intro f hf p s hp
    obtain ⟨key, val, valByte, strByte⟩ := p
    simp only [wanFields, List.mem_cons, List.not_mem_nil, or_false] at hf
    rcases hf with rfl | rfl <;> obtain ⟨rfl, htype⟩ := hp <;> cases val <;> cases htype
    all_goals rfl
  get_put := by
    intro f hf v e htype
    simp only [wanFields, List.mem_cons, List.not_mem_nil, or_false] at hf
    rcases hf with rfl | rfl <;> cases v <;> cases htype <;> rfl
  frame := by
    intro f hf g hg v e hne
    simp only [wanFields, List.mem_cons, List.not_mem_nil, or_false] at hf hg
    rcases hf with rfl | rfl <;> rcases hg with rfl | rfl <;>
      first | rfl | exact absurd rfl hne
  ext := by
    intro e e' h
    cases e
    cases e'
    simp_all [wanFields]
  name_inj := by simp [wanFields]
  bit_inj := by simp [wanFields]
  bit_lt := by simp [wanFields]

theorem lan_table : TableBody lanFields lanEntry where
  step := by
    intro f hf p s hp
    obtain ⟨key, val, valByte, strByte⟩ := p
    simp only [lanFields, List.mem_cons, List.not_mem_nil, or_false] at hf
    rcases hf with rfl | rfl | rfl | rfl | rfl | rfl <;> obtain ⟨rfl, htype⟩ := hp <;> cases val <;>
      cases htype
    all_goals rfl
  get_put := by
    intro f hf v e htype
    simp only [lanFields, List.mem_cons, List.not_mem_nil, or_false] at hf
    rcases hf with rfl | rfl | rfl | rfl | rfl | rfl <;> cases v <;> cases htype <;> rfl
  frame := by
    intro f hf g hg v e hne
    simp only [lanFields, List.mem_cons, List.not_mem_nil, or_false] at hf hg
    rcases hf with rfl | rfl | rfl | rfl | rfl | rfl <;>
      rcases hg with rfl | rfl | rfl | rfl | rfl | rfl <;>
      first | rfl | exact absurd rfl hne
  ext := by
    intro e e' h
    cases e
    cases e'
    simp_all [lanFields, BitVec.toNat_inj]
  name_inj := by simp [lanFields]
  bit_inj := by simp [lanFields]
  bit_lt := by simp [lanFields]

theorem portdoc_table : TableBody portdocFields portdocEntry where
  step := by
    intro f hf p s hp
    obtain ⟨key, val, valByte, strByte⟩ := p
    simp only [portdocFields, List.mem_cons, List.not_mem_nil, or_false] at hf
    rcases hf with rfl | rfl | rfl | rfl | rfl | rfl <;> obtain ⟨rfl, htype⟩ := hp <;> cases val <;>
      cases htype
    · rfl
    · exact portdocEntry_externalPort _ valByte strByte s
    · rfl
    · rfl
    · rfl
    · rfl
  get_put := by
    intro f hf v e htype
    simp only [portdocFields, List.mem_cons, List.not_mem_nil, or_false] at hf
    rcases hf with rfl | rfl | rfl | rfl | rfl | rfl <;> cases v <;> cases htype <;> rfl
  frame := by
    intro f hf g hg v e hne
    simp only [portdocFields, List.mem_cons, List.not_mem_nil, or_false] at hf hg
    rcases hf with rfl | rfl | rfl | rfl | rfl | rfl <;>
      rcases hg with rfl | rfl | rfl | rfl | rfl | rfl <;>
      first | rfl | exact absurd rfl hne
  ext := by
    intro e e' h
    cases e
    cases e'
    simp_all [portdocFields]
  name_inj := by simp [portdocFields]
  bit_inj := by simp [portdocFields]
  bit_lt := by simp [portdocFields]

theorem portdoc_lawful_iff (m : DocumentedMap portdocFields) :
    Lawful processPortdocparams Portdoc.zero m ↔ Settled 0x06#8 Portdoc.zero m :=
  lawful_decode_iff portdoc_table 0x06#8 m Portdoc.zero (by decide) (by decide)

theorem lan_lawful_iff (m : DocumentedMap lanFields) :
    Lawful processLanparams Lanparam.zero m ↔ Settled 0x06#8 Lanparam.zero m :=
  lawful_decode_iff lan_table 0x06#8 m Lanparam.zero (by decide) (by decide)

theorem macdoc_lawful_iff (m : DocumentedMap macdocFields) :
    Lawful processMacdocparams Macdoc.zero m ↔ Settled 0x02#8 Macdoc.zero m :=
  lawful_decode_iff macdoc_table 0x02#8 m Macdoc.zero (by decide) (by decide)

theorem wan_lawful_iff (m : DocumentedMap wanFields) :
    Lawful processWanparams DmzWanparam.zero m ↔ Settled 0x02#8 DmzWanparam.zero m :=
  lawful_decode_iff wan_table 0x02#8 m DmzWanparam.zero (by decide) (by decide)

/-- The four decoders decode a map whole and in any order exactly when it is
settled. -/
theorem decoders_lawful_iff (port : DocumentedMap portdocFields) (lan : DocumentedMap lanFields)
    (mac : DocumentedMap macdocFields) (wan : DocumentedMap wanFields) :
    (Lawful processPortdocparams Portdoc.zero port ↔ Settled 0x06#8 Portdoc.zero port) ∧
      (Lawful processLanparams Lanparam.zero lan ↔ Settled 0x06#8 Lanparam.zero lan) ∧
      (Lawful processMacdocparams Macdoc.zero mac ↔ Settled 0x02#8 Macdoc.zero mac) ∧
      (Lawful processWanparams DmzWanparam.zero wan ↔ Settled 0x02#8 DmzWanparam.zero wan) :=
  ⟨portdoc_lawful_iff port, lan_lawful_iff lan, macdoc_lawful_iff mac, wan_lawful_iff wan⟩

def strEntry (name text : String) : MsgpackKv :=
  ⟨some name.toList, .str text.toList, Char.ofNat 0xb1, fun _ => by decide⟩

def chaddrFirst : DocumentedMap macdocFields where
  entries := [strEntry "Chaddr" "00:11:22:33:44:55", strEntry "Yiaddr" "10.0.0.5"]
  documented := by
    intro p hp
    simp only [List.mem_cons, List.not_mem_nil, or_false] at hp
    rcases hp with rfl | rfl
    · exact ⟨macdocFields[1], List.getElem_mem _, rfl, rfl⟩
    · exact ⟨macdocFields[0], List.getElem_mem _, rfl, rfl⟩
  distinct := by decide

/-- The decoder reports success for it and leaves Yiaddr out. -/
theorem decoders_chaddr_first :
    ¬ ((∀ m : DocumentedMap portdocFields, Lawful processPortdocparams Portdoc.zero m) ∧
      (∀ m : DocumentedMap lanFields, Lawful processLanparams Lanparam.zero m) ∧
      (∀ m : DocumentedMap macdocFields, Lawful processMacdocparams Macdoc.zero m) ∧
      (∀ m : DocumentedMap wanFields, Lawful processWanparams DmzWanparam.zero m)) := by
  rintro ⟨-, -, hmac, -⟩
  have hall : ∀ f ∈ macdocFields, Present chaddrFirst f := by
    intro f hf
    simp only [macdocFields, List.mem_cons, List.not_mem_nil, or_false] at hf
    rcases hf with rfl | rfl
    · exact ⟨strEntry "Yiaddr" "10.0.0.5", by simp [chaddrFirst], rfl⟩
    · exact ⟨strEntry "Chaddr" "00:11:22:33:44:55", by simp [chaddrFirst], rfl⟩
  have hyiaddr := ((hmac chaddrFirst).2 hall).2 macdocFields[0] (List.getElem_mem _)
    (strEntry "Yiaddr" "10.0.0.5") (by simp [chaddrFirst]) ⟨rfl, rfl⟩
  have hlost : (processMacdocparams Macdoc.zero chaddrFirst.entries).2.yiaddr = none := rfl
  change FieldValue.text (processMacdocparams Macdoc.zero chaddrFirst.entries).2.yiaddr = _
    at hyiaddr
  rw [hlost] at hyiaddr
  cases hyiaddr

end CcspPandM.SubdocDecoders
