import CcspPandM.KeyedList
import CcspPandM.ScanText
import CcspPandM.StoreSlots

/-!
The port management rules of the true static addresses, kept under numbered keys of
the Utopia store. A rule is found by its instance number, and a deletion copies every
later rule one slot down through the entry of its caller. A text that does not end in
its buffer has no defined result; the calls of the store succeed.
-/
namespace CcspPandM.StaticIpRules

open CString KeyStore ScanText StoreSlots

abbrev ULONG := BitVec 32

structure COSA_DML_TSIP_RULE_ENTRY where
  InstanceNumber : ULONG
  Alias : Buf 512
  Enabled : Bool
  Name : Buf 32
  Protocol : ULONG
  IPRangeMin : Buf 16
  IPRangeMax : Buf 16
  PortRangeMin : ULONG
  PortRangeMax : ULONG
  deriving DecidableEq

abbrev Utopia := Store (CStr × CStr) CStr

/-- `pmCount` is a global; the store holds what the router keeps. -/
structure State where
  pmCount : ULONG
  utopia : Utopia

def PT_MGMT_PREFIX : CStr := "tsip_pm_".toList

def pmSlot (i : ℕ) : CStr := PT_MGMT_PREFIX ++ (decimal i ++ ['_'])

def countKey : CStr × CStr := (PT_MGMT_PREFIX, "count".toList)

def ins : CStr := "ins".toList
def aliasName : CStr := "alias".toList
def enabled : CStr := "enabled".toList
def nameName : CStr := "name".toList
def protocol : CStr := "protocol".toList
def startIP : CStr := "startIP".toList
def endIP : CStr := "endIP".toList
def startPort : CStr := "startPort".toList
def endPort : CStr := "endPort".toList

def ruleParams : List CStr :=
  [ins, aliasName, enabled, nameName, protocol, startIP, endIP, startPort, endPort]

/-- `Utopia_RawGet` into a buffer of 64 bytes; a key without a value gives the empty text. -/
def rawGet (s : Utopia) (key : CStr × CStr) : CStr := ((s key).getD []).take 63

/-- `strtoul(t, NULL, 10)` -/
def strtoulTen (t : CStr) : ULONG := sscanf_lu t 0

/-- `strncpy` of the whole buffer; a text that fills it has no end. -/
def strncpy (n : ℕ) (t : CStr) : Option (Buf n) := if h : t.length < n then some ⟨t, h⟩ else none

/-- The tests on the protocol; another text leaves the entry's as it was. -/
def protocolOf (utVal : CStr) (old : ULONG) : ULONG :=
  if utVal = "tcp".toList then 1
  else if utVal = "udp".toList then 2
  else if utVal = "both".toList then 3
  else old

def protocolText (Protocol : ULONG) (utVal : CStr) : CStr :=
  if Protocol = 1 then "tcp".toList
  else if Protocol = 2 then "udp".toList
  else if Protocol = 3 then "both".toList
  else utVal

def readRule (s : Utopia) (i : ULONG) (pEntry : COSA_DML_TSIP_RULE_ENTRY) :
    Option COSA_DML_TSIP_RULE_ENTRY := do
  let slot := pmSlot i.toNat
  let Alias ← strncpy 512 (rawGet s (slot, aliasName))
  let Name ← strncpy 32 (rawGet s (slot, nameName))
  let IPRangeMin ← strncpy 16 (rawGet s (slot, startIP))
  let IPRangeMax ← strncpy 16 (rawGet s (slot, endIP))
  some {
    InstanceNumber := strtoulTen (rawGet s (slot, ins))
    Alias := Alias
    Enabled := rawGet s (slot, enabled) = "1".toList
    Name := Name
    Protocol := protocolOf (rawGet s (slot, protocol)) pEntry.Protocol
    IPRangeMin := IPRangeMin
    IPRangeMax := IPRangeMax
    PortRangeMin := strtoulTen (rawGet s (slot, startPort))
    PortRangeMax := strtoulTen (rawGet s (slot, endPort)) }

def CosaDmlTSIPRuleGetEntry (ulIndex : ULONG) (pEntry : COSA_DML_TSIP_RULE_ENTRY) (s : State) :
    Option COSA_DML_TSIP_RULE_ENTRY :=
  readRule s.utopia ulIndex pEntry

def ruleFields (e : COSA_DML_TSIP_RULE_ENTRY) (utVal : CStr) : List (CStr × CStr) :=
  [(aliasName, e.Alias.text), (enabled, if e.Enabled then "1".toList else "0".toList),
    (nameName, e.Name.text), (protocol, protocolText e.Protocol utVal),
    (startIP, e.IPRangeMin.text), (endIP, e.IPRangeMax.text),
    (startPort, decimal e.PortRangeMin.toNat), (endPort, decimal e.PortRangeMax.toNat)]

def ruleRecord (e : COSA_DML_TSIP_RULE_ENTRY) (utVal : CStr) : List (CStr × CStr) :=
  (ins, decimal e.InstanceNumber.toNat) :: ruleFields e utVal

theorem toNat_succ_le {i n : ULONG} (h : i < n) : n.toNat - (i + 1).toNat < n.toNat - i.toNat := by
  have hlt := BitVec.lt_def.mp h
  have hn := n.isLt
  rw [BitVec.toNat_add, show (1 : ULONG).toNat = 1 from rfl, Nat.mod_eq_of_lt (by omega)]
  omega

def findRule (s : Utopia) (pmCount InstanceNumber i : ULONG) (utVal : CStr) : ULONG × CStr :=
  if i < pmCount then
    let utVal := rawGet s (pmSlot i.toNat, ins)
    if InstanceNumber = strtoulTen utVal then (i, utVal)
    else findRule s pmCount InstanceNumber (i + 1) utVal
  else (i, utVal)
termination_by pmCount.toNat - i.toNat
decreasing_by exact toNat_succ_le (by assumption)

/-- `stack` is what the value buffer holds when no key was read into it. A rule that is
not found is written behind the last. -/
def CosaDmlTSIPRuleSetEntry (stack : CStr) (pEntry : COSA_DML_TSIP_RULE_ENTRY) (s : State) :
    State :=
  let (i, utVal) := findRule s.utopia s.pmCount pEntry.InstanceNumber 0 stack
  { s with utopia := writeSlot (pmSlot i.toNat) (ruleFields pEntry utVal) s.utopia }

def CosaDmlTSIPRuleAddEntry (stack : CStr) (pEntry : COSA_DML_TSIP_RULE_ENTRY) (s : State) :
    State :=
  let pmCount := s.pmCount + 1
  let utopia := set s.utopia countKey (decimal pmCount.toNat)
  let utopia := set utopia (pmSlot (pmCount - 1).toNat, ins) (decimal pEntry.InstanceNumber.toNat)
  CosaDmlTSIPRuleSetEntry stack pEntry ⟨pmCount, utopia⟩

def moveRules (pmCount next : ULONG) (pEntry : COSA_DML_TSIP_RULE_ENTRY) (s : Utopia) :
    Option (COSA_DML_TSIP_RULE_ENTRY × Utopia) :=
  if next < pmCount then do
    let e ← readRule s next pEntry
    moveRules pmCount (next + 1) e (writeSlot (pmSlot (next - 1).toNat)
      (ruleRecord e (decimal e.InstanceNumber.toNat)) s)
  else some (pEntry, s)
termination_by pmCount.toNat - next.toNat
decreasing_by exact toNat_succ_le (by assumption)

/-- A rule that is not found costs the last one its slot. -/
def CosaDmlTSIPRuleDelEntry (stack : CStr) (pEntry : COSA_DML_TSIP_RULE_ENTRY) (s : State) :
    Option (COSA_DML_TSIP_RULE_ENTRY × State) := do
  let i := (findRule s.utopia s.pmCount pEntry.InstanceNumber 0 stack).1
  let (e, utopia) ← moveRules s.pmCount (i + 1) pEntry s.utopia
  let utopia := clearSlot (pmSlot (s.pmCount - 1).toNat) ruleParams utopia
  let pmCount := s.pmCount - 1
  some (e, ⟨pmCount, set utopia countKey (decimal pmCount.toNat)⟩)

inductive Call where
  | get (ulIndex : ULONG) (pEntry : COSA_DML_TSIP_RULE_ENTRY)
  | add (pEntry : COSA_DML_TSIP_RULE_ENTRY)
  | del (pEntry : COSA_DML_TSIP_RULE_ENTRY)
  | set (pEntry : COSA_DML_TSIP_RULE_ENTRY)

def call (stack : CStr) (s : State) : Call → Option State
  | .get ulIndex pEntry => (CosaDmlTSIPRuleGetEntry ulIndex pEntry s).map fun _ => s
  | .add pEntry => some (CosaDmlTSIPRuleAddEntry stack pEntry s)
  | .del pEntry => (CosaDmlTSIPRuleDelEntry stack pEntry s).map Prod.snd
  | .set pEntry => some (CosaDmlTSIPRuleSetEntry stack pEntry s)

def listCall (l : List COSA_DML_TSIP_RULE_ENTRY) : Call → List COSA_DML_TSIP_RULE_ENTRY
  | .get _ _ => l
  | .add pEntry => l ++ [pEntry]
  | .del pEntry => l.filter (fun e => e.InstanceNumber ≠ pEntry.InstanceNumber)
  | .set pEntry => l.map (fun e => if e.InstanceNumber = pEntry.InstanceNumber then pEntry else e)

/-- A rule of a protocol that has a name, with an alias that can be read back. -/
def Known (e : COSA_DML_TSIP_RULE_ENTRY) : Prop :=
  (e.Protocol = 1 ∨ e.Protocol = 2 ∨ e.Protocol = 3) ∧ e.Alias.text.length < 64

structure Shows (s : State) (l : List COSA_DML_TSIP_RULE_ENTRY) : Prop where
  count : s.pmCount.toNat = l.length
  number : s.utopia countKey = some (decimal l.length)
  slots : ∀ i e, l[i]? = some e → Holds s.utopia (pmSlot i) (ruleRecord e [])
  known : ∀ e ∈ l, Known e
  differ : (l.map COSA_DML_TSIP_RULE_ENTRY.InstanceNumber).Nodup

section Keys

theorem pmSlot_append_inj {i j : ℕ} {f g : CStr} (h : pmSlot i ++ f = pmSlot j ++ g) :
    i = j ∧ f = g := by
  simp only [pmSlot, List.append_assoc] at h
  exact decimal_cons_inj rfl (List.append_cancel_left h)

theorem pmSlot_injective : Function.Injective pmSlot := by
  intro i j h
  have happend : pmSlot i ++ [] = pmSlot j ++ [] := by rw [h]
  exact (pmSlot_append_inj happend).1

theorem pmSlot_ne_head (i : ℕ) : pmSlot i ≠ PT_MGMT_PREFIX := by
  intro h
  have hlen := congrArg List.length h
  simp [pmSlot] at hlen

theorem nodup_ruleRecord (e : COSA_DML_TSIP_RULE_ENTRY) (utVal : CStr) :
    (keys (ruleRecord e utVal)).Nodup := by
  change ruleParams.Nodup
  decide +kernel

theorem set_count_slot (m : Utopia) (v : CStr) (j : ℕ) (k : CStr) :
    set m countKey v (pmSlot j, k) = m (pmSlot j, k) := by
  apply set_of_ne
  intro h
  exact pmSlot_ne_head j (Prod.mk.inj h).1

end Keys

section Fields

variable {e : COSA_DML_TSIP_RULE_ENTRY} {s : Utopia} {i : ℕ}

theorem protocolText_of_known (h : Known e) (utVal utVal' : CStr) :
    protocolText e.Protocol utVal = protocolText e.Protocol utVal' := by
  rcases h.1 with hp | hp | hp
  · rw [hp, protocolText, protocolText, if_pos rfl, if_pos rfl]
  · rw [hp]
    rfl
  · rw [hp]
    rfl

theorem ruleFields_of_known (h : Known e) (utVal utVal' : CStr) :
    ruleFields e utVal = ruleFields e utVal' := by
  rw [ruleFields, ruleFields, protocolText_of_known h utVal utVal']

theorem ruleRecord_of_known (h : Known e) (utVal utVal' : CStr) :
    ruleRecord e utVal = ruleRecord e utVal' := by
  rw [ruleRecord, ruleRecord, ruleFields_of_known h utVal utVal']

theorem protocolOf_protocolText (h : Known e) (utVal : CStr) (old : ULONG) :
    protocolOf (protocolText e.Protocol utVal) old = e.Protocol := by
  have hudp : "udp".toList ≠ "tcp".toList := by decide
  have htcp : "both".toList ≠ "tcp".toList := by decide
  have hboth : "both".toList ≠ "udp".toList := by decide
  rcases h.1 with hp | hp | hp
  · rw [hp]
    exact if_pos rfl
  · rw [hp]
    exact (if_neg hudp).trans (if_pos rfl)
  · rw [hp]
    exact (if_neg htcp).trans ((if_neg hboth).trans (if_pos rfl))

theorem length_decimal (x : ULONG) : (decimal x.toNat).length ≤ 63 := by
  rw [decimal_length_le_iff (by decide)]
  exact lt_of_lt_of_le x.isLt (by norm_num)

theorem rawGet_of_holds {r : List (CStr × CStr)} {n k v : CStr} (h : Holds s n r)
    (hmem : (k, v) ∈ r) (hlen : v.length ≤ 63) : rawGet s (n, k) = v := by
  rw [rawGet, h (k, v) hmem, Option.getD_some, List.take_of_length_le hlen]

theorem strncpy_of_text {n : ℕ} (b : Buf n) : strncpy n b.text = some b :=
  dif_pos b.property

theorem readRule_of_holds {i : ULONG} (h : Holds s (pmSlot i.toNat) (ruleRecord e []))
    (hknown : Known e) (old : COSA_DML_TSIP_RULE_ENTRY) : readRule s i old = some e := by
  have hget : ∀ k v, (k, v) ∈ ruleRecord e [] → v.length ≤ 63 →
      rawGet s (pmSlot i.toNat, k) = v := fun k v => rawGet_of_holds h
  have hins := hget ins (decimal e.InstanceNumber.toNat) (by simp [ruleRecord]) (length_decimal _)
  have halias := hget aliasName e.Alias.text (by simp [ruleRecord, ruleFields])
    (by have hfits := hknown.2; omega)
  have hname := hget nameName e.Name.text (by simp [ruleRecord, ruleFields])
    (by have hfits := e.Name.text_length_lt; omega)
  have hmin := hget startIP e.IPRangeMin.text (by simp [ruleRecord, ruleFields])
    (by have hfits := e.IPRangeMin.text_length_lt; omega)
  have hmax := hget endIP e.IPRangeMax.text (by simp [ruleRecord, ruleFields])
    (by have hfits := e.IPRangeMax.text_length_lt; omega)
  have hstart := hget startPort (decimal e.PortRangeMin.toNat) (by simp [ruleRecord, ruleFields])
    (length_decimal _)
  have hend := hget endPort (decimal e.PortRangeMax.toNat) (by simp [ruleRecord, ruleFields])
    (length_decimal _)
  have henabled : decide (rawGet s (pmSlot i.toNat, enabled) = "1".toList) = e.Enabled := by
    rw [hget enabled (if e.Enabled then "1".toList else "0".toList)
      (by simp [ruleRecord, ruleFields]) (by cases e.Enabled <;> decide)]
    cases e.Enabled <;> decide
  have hprotocol : protocolOf (rawGet s (pmSlot i.toNat, protocol)) old.Protocol =
      e.Protocol := by
    rw [hget protocol (protocolText e.Protocol []) (by simp [ruleRecord, ruleFields])
      (by rcases hknown.1 with hp | hp | hp <;> rw [hp] <;> decide)]
    exact protocolOf_protocolText hknown [] old.Protocol
  simp only [readRule, hins, halias, hname, hmin, hmax, hstart, hend, henabled, hprotocol,
    strncpy_of_text, Option.bind_eq_bind, Option.bind_some, strtoulTen, sscanf_lu_decimal]

theorem findRule_eq {pmCount n : ULONG} (hi : i < pmCount.toNat)
    (hother : ∀ k < i, strtoulTen (rawGet s (pmSlot k, ins)) ≠ n)
    (hfound : strtoulTen (rawGet s (pmSlot i, ins)) = n) {j : ℕ} (hj : j ≤ i) (utVal : CStr) :
    (findRule s pmCount n (BitVec.ofNat 32 j) utVal).1 = BitVec.ofNat 32 i := by
  induction hk : i - j generalizing j utVal with
  | zero =>
    have hn := pmCount.isLt
    have hji : j = i := by omega
    have htoNat : (BitVec.ofNat 32 i).toNat = i := by
      rw [BitVec.toNat_ofNat, Nat.mod_eq_of_lt (by omega)]
    have hlt : BitVec.ofNat 32 i < pmCount := by
      rw [BitVec.lt_def, htoNat]
      exact hi
    rw [hji, findRule, if_pos hlt, htoNat]
    simp only [hfound, if_true]
  | succ k ih =>
    have hn := pmCount.isLt
    have htoNat : (BitVec.ofNat 32 j).toNat = j := by
      rw [BitVec.toNat_ofNat, Nat.mod_eq_of_lt (by omega)]
    have hlt : BitVec.ofNat 32 j < pmCount := by
      rw [BitVec.lt_def, htoNat]
      omega
    have hnext : BitVec.ofNat 32 j + 1 = BitVec.ofNat 32 (j + 1) := by
      rw [BitVec.ofNat_add]
      rfl
    rw [findRule, if_pos hlt, htoNat, hnext]
    simp only [if_neg fun h => hother j (by omega) (Eq.symm h)]
    exact ih (by omega) _ (by omega)

theorem moveRules_eq {pmCount : ULONG} {c : ℕ} (arr : ℕ → COSA_DML_TSIP_RULE_ENTRY)
    (hi : i + 1 + c = pmCount.toNat)
    (hslots : ∀ j, i < j → j < pmCount.toNat →
      Holds s (pmSlot j) (ruleRecord (arr j) []) ∧ Known (arr j))
    (pEntry : COSA_DML_TSIP_RULE_ENTRY) :
    ∃ last, moveRules pmCount (BitVec.ofNat 32 (i + 1)) pEntry s =
      some (last, (shiftDown pmSlot (fun e => ruleRecord e []) i c (arr, s)).2) := by
  induction c generalizing i s arr pEntry with
  | zero =>
    have hn := pmCount.isLt
    have hlt : ¬ BitVec.ofNat 32 (i + 1) < pmCount := by
      rw [BitVec.lt_def, BitVec.toNat_ofNat, Nat.mod_eq_of_lt (by omega)]
      omega
    refine ⟨pEntry, ?_⟩
    rw [moveRules, if_neg hlt]
    rfl
  | succ c ih =>
    have hn := pmCount.isLt
    have htoNat : (BitVec.ofNat 32 (i + 1)).toNat = i + 1 := by
      rw [BitVec.toNat_ofNat, Nat.mod_eq_of_lt (by omega)]
    have hlt : BitVec.ofNat 32 (i + 1) < pmCount := by
      rw [BitVec.lt_def, htoNat]
      omega
    have hprev : (BitVec.ofNat 32 (i + 1) - 1).toNat = i := by
      rw [BitVec.toNat_sub, htoNat, show (1 : ULONG).toNat = 1 from rfl]
      omega
    have hnext : BitVec.ofNat 32 (i + 1) + 1 = BitVec.ofNat 32 (i + 1 + 1) := by
      rw [BitVec.ofNat_add (i + 1)]
      rfl
    obtain ⟨hholds, hknown⟩ := hslots (i + 1) (by omega) (by omega)
    have hread := readRule_of_holds (i := BitVec.ofNat 32 (i + 1)) (s := s) (e := arr (i + 1))
      (by rw [htoNat]; exact hholds) hknown pEntry
    obtain ⟨last, hlast⟩ := ih (i := i + 1)
      (s := writeSlot (pmSlot i) (ruleRecord (arr (i + 1)) []) s)
      (Function.update arr i (arr (i + 1))) (by omega)
      (by
        intro j hj hjn
        rw [Function.update_of_ne (by omega)]
        obtain ⟨hholds', hknown'⟩ := hslots j (by omega) hjn
        refine ⟨holds_congr (fun k => ?_) hholds', hknown'⟩
        exact writeSlot_of_ne (pmSlot_injective.ne (by omega)) _ _ k)
      (arr (i + 1))
    refine ⟨last, ?_⟩
    rw [moveRules, if_pos hlt, hread, hprev, hnext, Option.bind_eq_bind, Option.bind_some,
      ruleRecord_of_known hknown (decimal (arr (i + 1)).InstanceNumber.toNat) []]
    exact hlast

end Fields

section Calls

variable {s : State} {l : List COSA_DML_TSIP_RULE_ENTRY} {e : COSA_DML_TSIP_RULE_ENTRY}
  {r : COSA_DML_TSIP_RULE_ENTRY}

variable {i : ℕ}

theorem read_ins (h : Shows s l) (hr : l[i]? = some r) :
    strtoulTen (rawGet s.utopia (pmSlot i, ins)) = r.InstanceNumber := by
  have hmem : (ins, decimal r.InstanceNumber.toNat) ∈ ruleRecord r [] := List.mem_cons_self ..
  rw [rawGet_of_holds (h.slots i r hr) hmem (length_decimal _), strtoulTen, sscanf_lu_decimal]

theorem findRule_of_shows (h : Shows s l) (hr : l[i]? = some r) (stack : CStr) :
    (findRule s.utopia s.pmCount r.InstanceNumber 0 stack).1 = BitVec.ofNat 32 i := by
  have hi : i < l.length := (List.getElem?_eq_some_iff.mp hr).1
  apply findRule_eq (by rw [h.count]; exact hi) ?_ (read_ins h hr) (Nat.zero_le i)
  intro k hk hsame
  have hk' : l[k]? = some l[k] := List.getElem?_eq_getElem (by omega)
  rw [read_ins h hk'] at hsame
  have hkey : (l.map COSA_DML_TSIP_RULE_ENTRY.InstanceNumber)[k]? =
      (l.map COSA_DML_TSIP_RULE_ENTRY.InstanceNumber)[i]? := by
    rw [List.getElem?_map, List.getElem?_map, hk', hr, Option.map_some, Option.map_some, hsame]
  have hki := (List.getElem?_inj (by rw [List.length_map]; omega) h.differ).mp hkey
  omega

theorem holds_writeFields {u : Utopia} {n utVal : CStr} (hknown : Known e)
    (hins : u (n, ins) = some (decimal e.InstanceNumber.toNat)) :
    Holds (writeSlot n (ruleFields e utVal) u) n (ruleRecord e []) := by
  rw [ruleFields_of_known hknown utVal []]
  apply holds_writeSlot_changed (nodup_ruleRecord e [])
  · intro w hw
    exact List.mem_cons_of_mem _ hw
  · intro w hw
    rcases List.mem_cons.mp hw with rfl | hw
    · exact Or.inr hins
    · exact Or.inl hw

theorem toNat_ofNat_of_lt (hi : i < 2 ^ 32) : (BitVec.ofNat 32 i).toNat = i := by
  rw [BitVec.toNat_ofNat, Nat.mod_eq_of_lt hi]

theorem setEntry_eq (stack : CStr)
    (hfind : (findRule s.utopia s.pmCount e.InstanceNumber 0 stack).1 = BitVec.ofNat 32 i)
    (hi : i < 2 ^ 32) :
    CosaDmlTSIPRuleSetEntry stack e s = ⟨s.pmCount, writeSlot (pmSlot i)
      (ruleFields e (findRule s.utopia s.pmCount e.InstanceNumber 0 stack).2) s.utopia⟩ := by
  have hset : CosaDmlTSIPRuleSetEntry stack e s = ⟨s.pmCount, writeSlot
      (pmSlot (findRule s.utopia s.pmCount e.InstanceNumber 0 stack).1.toNat)
      (ruleFields e (findRule s.utopia s.pmCount e.InstanceNumber 0 stack).2) s.utopia⟩ := rfl
  rw [hset, hfind, toNat_ofNat_of_lt hi]

theorem shows_set (h : Shows s l) (hr : l[i]? = some r)
    (hnumber : r.InstanceNumber = e.InstanceNumber) (hknown : Known e) (stack : CStr) :
    Shows (CosaDmlTSIPRuleSetEntry stack e s) (l.set i e) := by
  have hi : i < l.length := (List.getElem?_eq_some_iff.mp hr).1
  have hlt := s.pmCount.isLt
  have hfind := findRule_of_shows h hr stack
  rw [hnumber] at hfind
  rw [setEntry_eq stack hfind (by rw [h.count] at hlt; omega)]
  refine ⟨?_, ?_, ?_, ?_, ?_⟩
  · rw [List.length_set]
    exact h.count
  · rw [List.length_set]
    exact (writeSlot_of_ne (pmSlot_ne_head i).symm _ _ _).trans h.number
  · intro j a ha
    by_cases hij : i = j
    · subst hij
      obtain rfl : e = a := by
        rw [List.getElem?_set_self hi] at ha
        exact Option.some.inj ha
      apply holds_writeFields hknown
      rw [← hnumber]
      exact h.slots i r hr _ (List.mem_cons_self ..)
    · rw [List.getElem?_set_ne hij] at ha
      exact holds_congr (fun k => writeSlot_of_ne (pmSlot_injective.ne (Ne.symm hij)) _ _ k)
        (h.slots j a ha)
  · intro a ha
    rcases List.mem_or_eq_of_mem_set ha with ha | rfl
    · exact h.known a ha
    · exact hknown
  · have hkeys : (l.set i e).map COSA_DML_TSIP_RULE_ENTRY.InstanceNumber =
        l.map COSA_DML_TSIP_RULE_ENTRY.InstanceNumber := by
      rw [List.map_set, ← hnumber]
      apply KeyedList.set_of_getElem?
      rw [List.getElem?_map, hr]
      rfl
    rw [hkeys]
    exact h.differ

theorem shows_add (h : Shows s l)
    (hfresh : e.InstanceNumber ∉ l.map COSA_DML_TSIP_RULE_ENTRY.InstanceNumber)
    (hknown : Known e) (hroom : l.length + 1 < 2 ^ 32) (stack : CStr) :
    Shows (CosaDmlTSIPRuleAddEntry stack e s) (l ++ [e]) := by
  have hone : (1 : ULONG).toNat = 1 := rfl
  have hcount : (s.pmCount + 1).toNat = l.length + 1 := by
    rw [BitVec.toNat_add, h.count, hone, Nat.mod_eq_of_lt hroom]
  have hback : (s.pmCount + 1 - 1).toNat = l.length := by
    rw [BitVec.toNat_sub, hcount, hone]
    omega
  have hslot : ∀ k f v (u : Utopia), k ≠ l.length →
      set u (pmSlot l.length, ins) v (pmSlot k, f) = u (pmSlot k, f) := by
    intro k f v u hk
    apply set_of_ne
    intro heq
    exact hk (pmSlot_injective (Prod.mk.inj heq).1)
  -- the store with the count and the new number, in which the fields are then set
  obtain ⟨u, hu⟩ : ∃ u, u = set (set s.utopia countKey (decimal (s.pmCount + 1).toNat))
      (pmSlot (s.pmCount + 1 - 1).toNat, ins) (decimal e.InstanceNumber.toNat) := ⟨_, rfl⟩
  have hadd : CosaDmlTSIPRuleAddEntry stack e s =
      CosaDmlTSIPRuleSetEntry stack e ⟨s.pmCount + 1, u⟩ := by
    rw [hu]
    rfl
  rw [hback] at hu
  have hins : u (pmSlot l.length, ins) = some (decimal e.InstanceNumber.toNat) := by
    rw [hu]
    exact set_self _ _ _
  have hkeep : ∀ k f, k ≠ l.length → u (pmSlot k, f) = s.utopia (pmSlot k, f) := by
    intro k f hk
    rw [hu, hslot k f _ _ hk, set_count_slot]
  have hfind : (findRule u (s.pmCount + 1) e.InstanceNumber 0 stack).1 =
      BitVec.ofNat 32 l.length := by
    apply findRule_eq (by omega) ?_ ?_ (Nat.zero_le _)
    · intro k hk hsame
      have hk' : l[k]? = some l[k] := List.getElem?_eq_getElem hk
      rw [rawGet, hkeep k ins (by omega)] at hsame
      have hread := (read_ins h hk').symm.trans hsame
      exact hfresh (hread ▸ List.mem_map_of_mem (List.getElem_mem hk))
    · rw [rawGet, hins, Option.getD_some, List.take_of_length_le (length_decimal _), strtoulTen,
        sscanf_lu_decimal]
  rw [hadd, setEntry_eq stack hfind (by omega)]
  refine ⟨?_, ?_, ?_, ?_, ?_⟩
  · rw [List.length_append, List.length_singleton]
    exact hcount
  · rw [List.length_append, List.length_singleton]
    refine (writeSlot_of_ne (pmSlot_ne_head _).symm _ _ _).trans ?_
    rw [hu]
    refine (set_of_ne _ _ fun heq => pmSlot_ne_head _ (Prod.mk.inj heq).1.symm).trans ?_
    rw [hcount]
    exact set_self _ _ _
  · intro j a ha
    by_cases hj : j = l.length
    · rw [hj, List.getElem?_concat_length] at ha
      obtain rfl := Option.some.inj ha
      rw [hj]
      exact holds_writeFields hknown hins
    · have hlt : j < l.length := by
        have hlt' := (List.getElem?_eq_some_iff.mp ha).1
        rw [List.length_append, List.length_singleton] at hlt'
        omega
      rw [List.getElem?_append_left hlt] at ha
      apply holds_congr ?_ (h.slots j a ha)
      intro k
      exact (writeSlot_of_ne (pmSlot_injective.ne hj) _ _ k).trans (hkeep j k hj)
  · intro a ha
    rcases List.mem_append.mp ha with ha | ha
    · exact h.known a ha
    · rw [List.mem_singleton.mp ha]
      exact hknown
  · rw [List.map_append, List.map_singleton]
    exact List.nodup_append'.mpr ⟨h.differ, List.nodup_singleton _,
      List.disjoint_singleton.mpr hfresh⟩

theorem delEntry_eq {stack : CStr} {last : COSA_DML_TSIP_RULE_ENTRY} {u : Utopia}
    (hfind : (findRule s.utopia s.pmCount e.InstanceNumber 0 stack).1 = BitVec.ofNat 32 i)
    (hmove : moveRules s.pmCount (BitVec.ofNat 32 (i + 1)) e s.utopia = some (last, u)) :
    (CosaDmlTSIPRuleDelEntry stack e s).map Prod.snd = some ⟨s.pmCount - 1,
      set (clearSlot (pmSlot (s.pmCount - 1).toNat) ruleParams u) countKey
        (decimal (s.pmCount - 1).toNat)⟩ := by
  have hnext : BitVec.ofNat 32 i + 1 = BitVec.ofNat 32 (i + 1) := by
    rw [BitVec.ofNat_add]
    rfl
  rw [CosaDmlTSIPRuleDelEntry, hfind, hnext, hmove]
  rfl

theorem shows_del (h : Shows s l) (hr : l[i]? = some r)
    (hnumber : r.InstanceNumber = e.InstanceNumber) (stack : CStr) :
    ∃ t, (CosaDmlTSIPRuleDelEntry stack e s).map Prod.snd = some t ∧ Shows t (l.eraseIdx i) := by
  have hi : i < l.length := (List.getElem?_eq_some_iff.mp hr).1
  have hlen : (l.eraseIdx i).length = l.length - 1 := List.length_eraseIdx_of_lt hi
  have hback : (s.pmCount - 1).toNat = l.length - 1 := by
    have hone : (1 : ULONG).toNat = 1 := rfl
    have hlt := s.pmCount.isLt
    rw [BitVec.toNat_sub, h.count, hone]
    rw [h.count] at hlt
    omega
  have hfind := findRule_of_shows h hr stack
  rw [hnumber] at hfind
  -- the rules of the list as the array that the loop shifts
  obtain ⟨arr, harr⟩ : ∃ arr : ℕ → COSA_DML_TSIP_RULE_ENTRY, ∀ j, j < l.length →
      l[j]? = some (arr j) := by
    refine ⟨fun j => (l[j]?).getD e, fun j hj => ?_⟩
    simp only [List.getElem?_eq_getElem hj, Option.getD_some]
  obtain ⟨last, hmove⟩ := moveRules_eq (i := i) (c := l.length - 1 - i) (s := s.utopia) arr
    (by rw [h.count]; omega) (by
      intro j _ hj
      rw [h.count] at hj
      exact ⟨h.slots j _ (harr j hj), h.known _ (List.mem_of_getElem? (harr j hj))⟩) e
  refine ⟨_, delEntry_eq hfind hmove, ?_, ?_, ?_, ?_, ?_⟩
  · rw [hlen]
    exact hback
  · rw [hlen, ← hback]
    dsimp only
    apply set_self
  · intro j a ha
    have hj : j < l.length - 1 := by
      have hj' := (List.getElem?_eq_some_iff.mp ha).1
      rw [hlen] at hj'
      exact hj'
    have hkeep : ∀ k, set (clearSlot (pmSlot (s.pmCount - 1).toNat) ruleParams
        (shiftDown pmSlot (fun e => ruleRecord e []) i (l.length - 1 - i) (arr, s.utopia)).2)
        countKey (decimal (s.pmCount - 1).toNat) (pmSlot j, k) =
        (shiftDown pmSlot (fun e => ruleRecord e []) i (l.length - 1 - i)
          (arr, s.utopia)).2 (pmSlot j, k) := by
      intro k
      rw [set_count_slot, hback]
      exact clearSlot_of_ne (pmSlot_injective.ne (by omega)) _ _ k
    apply holds_congr hkeep
    rw [List.getElem?_eraseIdx] at ha
    by_cases hji : j < i
    · rw [if_pos hji] at ha
      apply holds_congr ?_ (h.slots j a ha)
      intro k
      apply shiftDown_of_ne
      intro m hm _
      exact pmSlot_injective.ne (by omega)
    · rw [if_neg hji, harr (j + 1) (by omega)] at ha
      obtain rfl := Option.some.inj ha
      exact holds_shiftDown pmSlot_injective (fun x => nodup_ruleRecord x []) (by omega)
        (by omega) _
  · intro a ha
    exact h.known a (List.mem_of_mem_eraseIdx ha)
  · exact h.differ.sublist ((List.eraseIdx_sublist l i).map _)

end Calls

end CcspPandM.StaticIpRules
