import CcspPandM.NatRules

/-!
Changing a port mapping, call by call. The platform's calls work on a copy of the
stored rules that is committed or discarded at the end, and any of them may
fail. The edit deletes what has the entry's number and adds the entry.
-/
namespace CcspPandM.NatEdit

open CString NatRules

/-- Which calls of the platform fail. -/
structure Failing where
  init : Bool
  getRange : Bool
  delRange : Bool
  getSingle : Bool
  delSingle : Bool
  add : Bool
  deriving DecidableEq

def hasRange (id : ℕ) (rules : Rules) : Bool := rules.ranges.any (fun r => r.rule_id == id)

def hasSingle (id : ℕ) (rules : Rules) : Bool := rules.singles.any (fun r => r.rule_id == id)

/-- A call that changes the copy; a failing one leaves it. -/
def change (fails : Bool) (edit : Rules → Rules) (copy : Rules) : Option Rules :=
  if fails then none else some (edit copy)

variable (fails : Failing)

def deleteRange (id : ℕ) (copy : Rules) : Option Rules :=
  if !fails.getRange && hasRange id copy then change fails.delRange (delRangeByRuleId id) copy
  else some copy

def deleteSingle (id : ℕ) (copy : Rules) : Option Rules :=
  if !fails.getSingle && hasSingle id copy then change fails.delSingle (delSingleByRuleId id) copy
  else some copy

/-- `CosaDmlNatSetPortMapping` behind its checks: whether it succeeds, and the
committed rules. Both exits after the deletions commit. -/
def setPortMapping (accepted : Bool) (fails : Failing) (e : PMapping) (committed : Rules) :
    Bool × Rules :=
  if !accepted || fails.init then (false, committed)
  else
    match deleteRange fails e.InstanceNumber committed with
    | none => (false, committed)
    | some copy =>
      match deleteSingle fails e.InstanceNumber copy with
      | none => (false, committed)
      | some copy =>
        match change fails.add (addPortMapping e) copy with
        | some copy => (true, copy)
        | none => (false, copy)

def cosaDmlNatSetPortMappingCalls (p : Platform) (fails : Failing) (e : PMapping)
    (g_NatEnable : Feature → Bool) (committed : Rules) : Bool × Rules :=
  setPortMapping (checkPfParameter p committed e && g_NatEnable e.feature) fails e committed

def isSinglePort (e : PMapping) : Prop :=
  e.ExternalPortEndRange = e.ExternalPort ∧ e.PublicIP = 0

instance (e : PMapping) : Decidable (isSinglePort e) := inferInstanceAs (Decidable (_ ∧ _))

structure CarriesSingle (e : PMapping) (r : PortFwdSingle) : Prop where
  rule_id : r.rule_id = e.InstanceNumber
  name : r.name = e.Description
  enabled : r.enabled = e.bEnabled
  protocol : r.protocol = sb2UPfProtocol e.Protocol
  external_port : r.external_port = e.ExternalPort.toNat
  internal_port : r.internal_port = e.InternalPort.toNat
  dest_ip : r.dest_ip = dots e.InternalClient
  dest_ipv6 : r.dest_ipv6 = e.InternalClientV6

structure CarriesRange (e : PMapping) (r : PortFwdRange) : Prop where
  rule_id : r.rule_id = e.InstanceNumber
  name : r.name = e.Description
  enabled : r.enabled = e.bEnabled
  protocol : r.protocol = sb2UPfProtocol e.Protocol
  start_port : r.start_port = e.ExternalPort.toNat
  end_port : r.end_port = e.ExternalPortEndRange.toNat
  internal_port : r.internal_port = e.InternalPort.toNat
  public_ip : r.public_ip = dots e.PublicIP
  dest_ip : r.dest_ip = dots e.InternalClient
  dest_ipv6 : r.dest_ipv6 = e.InternalClientV6

def singlesOf (id : ℕ) (rules : Rules) : List PortFwdSingle :=
  rules.singles.filter (fun r => r.rule_id == id)

def rangesOf (id : ℕ) (rules : Rules) : List PortFwdRange :=
  rules.ranges.filter (fun r => r.rule_id == id)

/-- Exactly one rule has the number afterwards, in the kind of the entry and
with its values. -/
def OneRule (e : PMapping) (after : Rules) : Prop :=
  if isSinglePort e then
    (∃ r, singlesOf e.InstanceNumber after = [r] ∧ CarriesSingle e r) ∧
      rangesOf e.InstanceNumber after = []
  else singlesOf e.InstanceNumber after = [] ∧
    ∃ r, rangesOf e.InstanceNumber after = [r] ∧ CarriesRange e r

def OthersKept (id : ℕ) (before after : Rules) : Prop :=
  after.singles.filter (fun r => r.rule_id != id) =
      before.singles.filter (fun r => r.rule_id != id) ∧
    after.ranges.filter (fun r => r.rule_id != id) =
      before.ranges.filter (fun r => r.rule_id != id)

/-- A failed edit changes nothing; a successful one leaves the one rule. -/
def Atomic (e : PMapping) (before : Rules) (result : Bool × Rules) : Prop :=
  if result.1 then OneRule e result.2 ∧ OthersKept e.InstanceNumber before result.2
  else result.2 = before

/-- The edit stops before it commits. -/
def StopsBefore (accepted : Bool) (fails : Failing) (id : ℕ) (rules : Rules) : Prop :=
  accepted = false ∨ fails.init = true ∨
    (fails.getRange = false ∧ hasRange id rules = true ∧ fails.delRange = true) ∨
    fails.getSingle = false ∧ hasSingle id rules = true ∧ fails.delSingle = true

/-- With a failing addition nothing has been deleted; otherwise the deletions
have left no rule of the number. -/
def CommitIsWhole (id : ℕ) (rules : Rules) : Prop :=
  if fails.add then (fails.getRange = true ∨ hasRange id rules = false) ∧
    (fails.getSingle = true ∨ hasSingle id rules = false)
  else (rangesOf id rules).length ≤ (if fails.getRange then 0 else 1) ∧
    (singlesOf id rules).length ≤ (if fails.getSingle then 0 else 1)

section Erase

variable {α : Type} (p : α → Bool)

theorem filter_eraseP (l : List α) : (l.eraseP p).filter p = (l.filter p).tail := by
  induction l with
  | nil => rfl
  | cons a l ih =>
    cases h : p a with
    | true => simp [h]
    | false => simp [h, ih]

theorem filter_not_eraseP (l : List α) :
    (l.eraseP p).filter (fun a => !p a) = l.filter (fun a => !p a) := by
  induction l with
  | nil => rfl
  | cons a l ih =>
    cases h : p a with
    | true => simp [h]
    | false => simp [h, ih]

end Erase

def deleted (id : ℕ) (rules : Rules) : Rules where
  singles := if fails.getSingle then rules.singles else
    rules.singles.eraseP (fun r => r.rule_id == id)
  ranges := if fails.getRange then rules.ranges else
    rules.ranges.eraseP (fun r => r.rule_id == id)

variable (id : ℕ)

theorem deleteRange_eq (rules : Rules) :
    deleteRange fails id rules =
      if fails.getRange = false ∧ hasRange id rules = true ∧ fails.delRange = true then none
      else some { rules with ranges := (deleted fails id rules).ranges } := by
  unfold deleteRange change deleted delRangeByRuleId
  cases hget : fails.getRange with
  | true => simp
  | false =>
    cases hhas : hasRange id rules with
    | true => cases fails.delRange <;> simp
    | false =>
      have hself := List.eraseP_eq_self_iff.mpr (List.any_eq_false.mp hhas)
      simp [hself]

theorem deleteSingle_eq (rules : Rules) :
    deleteSingle fails id rules =
      if fails.getSingle = false ∧ hasSingle id rules = true ∧ fails.delSingle = true then none
      else some { rules with singles := (deleted fails id rules).singles } := by
  unfold deleteSingle change deleted delSingleByRuleId
  cases hget : fails.getSingle with
  | true => simp
  | false =>
    cases hhas : hasSingle id rules with
    | true => cases fails.delSingle <;> simp
    | false =>
      have hself := List.eraseP_eq_self_iff.mpr (List.any_eq_false.mp hhas)
      simp [hself]

theorem setPortMapping_eq (accepted : Bool) (fails : Failing) (e : PMapping) (rules : Rules) :
    (StopsBefore accepted fails e.InstanceNumber rules ∧
      setPortMapping accepted fails e rules = (false, rules)) ∨
    ¬ StopsBefore accepted fails e.InstanceNumber rules ∧
      setPortMapping accepted fails e rules =
        if fails.add then (false, deleted fails e.InstanceNumber rules)
        else (true, addPortMapping e (deleted fails e.InstanceNumber rules)) := by
  unfold setPortMapping StopsBefore
  by_cases hearly : accepted = false ∨ fails.init = true
  · refine Or.inl ⟨?_, ?_⟩
    · rcases hearly with h | h
      · exact Or.inl h
      · exact Or.inr (Or.inl h)
    · rcases hearly with h | h <;> simp [h]
  · rw [not_or, Bool.not_eq_false, Bool.not_eq_true] at hearly
    simp only [hearly.1, hearly.2, Bool.not_true, Bool.or_self, Bool.false_eq_true, if_false,
      Bool.true_eq_false, false_or, deleteRange_eq]
    by_cases hrange : fails.getRange = false ∧ hasRange e.InstanceNumber rules = true ∧
        fails.delRange = true
    · rw [if_pos hrange]
      exact Or.inl ⟨Or.inl hrange, rfl⟩
    · rw [if_neg hrange]
      have hdelete : deleteSingle fails e.InstanceNumber
          { rules with ranges := (deleted fails e.InstanceNumber rules).ranges } =
          if fails.getSingle = false ∧ hasSingle e.InstanceNumber rules = true ∧
            fails.delSingle = true then none
          else some (deleted fails e.InstanceNumber rules) := deleteSingle_eq _ _ _
      dsimp only
      rw [hdelete]
      by_cases hsingle : fails.getSingle = false ∧ hasSingle e.InstanceNumber rules = true ∧
          fails.delSingle = true
      · rw [if_pos hsingle]
        exact Or.inl ⟨Or.inr hsingle, rfl⟩
      · rw [if_neg hsingle]
        refine Or.inr ⟨not_or.mpr ⟨hrange, hsingle⟩, ?_⟩
        unfold change
        cases fails.add <;> rfl

theorem rangesOf_deleted (rules : Rules) :
    rangesOf id (deleted fails id rules) =
      if fails.getRange then rangesOf id rules else (rangesOf id rules).tail := by
  unfold rangesOf deleted
  dsimp only
  split
  · rfl
  · exact filter_eraseP _ _

theorem singlesOf_deleted (rules : Rules) :
    singlesOf id (deleted fails id rules) =
      if fails.getSingle then singlesOf id rules else (singlesOf id rules).tail := by
  unfold singlesOf deleted
  dsimp only
  split
  · rfl
  · exact filter_eraseP _ _

theorem othersKept_deleted (rules : Rules) :
    OthersKept id rules (deleted fails id rules) := by
  unfold OthersKept deleted
  constructor
  · dsimp only
    split
    · rfl
    · exact filter_not_eraseP _ _
  · dsimp only
    split
    · rfl
    · exact filter_not_eraseP _ _

theorem deleted_eq_self_iff (rules : Rules) :
    deleted fails id rules = rules ↔ (fails.getRange = true ∨ hasRange id rules = false) ∧
      (fails.getSingle = true ∨ hasSingle id rules = false) := by
  obtain ⟨singles, ranges⟩ := rules
  unfold deleted hasRange hasSingle
  rw [Rules.mk.injEq, and_comm]
  refine and_congr ?_ ?_
  · cases fails.getRange <;> simp
  · cases fails.getSingle <;> simp

theorem tail_eq_nil_iff {α : Type} (l : List α) : l.tail = [] ↔ l.length ≤ 1 := by
  rw [← List.length_eq_zero_iff, List.length_tail]
  omega

theorem deleted_none_iff (rules : Rules) :
    (rangesOf id (deleted fails id rules) = [] ∧ singlesOf id (deleted fails id rules) = []) ↔
      (rangesOf id rules).length ≤ (if fails.getRange then 0 else 1) ∧
        (singlesOf id rules).length ≤ (if fails.getSingle then 0 else 1) := by
  rw [rangesOf_deleted, singlesOf_deleted]
  refine and_congr ?_ ?_
  · cases fails.getRange
    · exact tail_eq_nil_iff _
    · rw [if_pos rfl, if_pos rfl, Nat.le_zero, List.length_eq_zero_iff]
  · cases fails.getSingle
    · exact tail_eq_nil_iff _
    · rw [if_pos rfl, if_pos rfl, Nat.le_zero, List.length_eq_zero_iff]

theorem oneRule_addPortMapping_iff (e : PMapping) (copy : Rules) :
    OneRule e (addPortMapping e copy) ↔
      rangesOf e.InstanceNumber copy = [] ∧ singlesOf e.InstanceNumber copy = [] := by
  unfold OneRule addPortMapping isSinglePort
  split
  · simp only [singlesOf, rangesOf, List.filter_append, List.filter_cons, beq_self_eq_true,
      if_true, List.filter_nil, List.append_eq_singleton_iff]
    constructor
    · rintro ⟨⟨r, hr, -⟩, hranges⟩
      refine ⟨hranges, ?_⟩
      rcases hr with ⟨hnil, -⟩ | ⟨-, hne⟩
      · exact hnil
      · cases hne
    · rintro ⟨hranges, hsingles⟩
      exact ⟨⟨_, Or.inl ⟨hsingles, rfl⟩, ⟨rfl, rfl, rfl, rfl, rfl, rfl, rfl, rfl⟩⟩, hranges⟩
  · simp only [singlesOf, rangesOf, List.filter_append, List.filter_cons, beq_self_eq_true,
      if_true, List.filter_nil, List.append_eq_singleton_iff]
    constructor
    · rintro ⟨hsingles, r, hr, -⟩
      refine ⟨?_, hsingles⟩
      rcases hr with ⟨hnil, -⟩ | ⟨-, hne⟩
      · exact hnil
      · cases hne
    · rintro ⟨hranges, hsingles⟩
      exact ⟨hsingles, _, Or.inl ⟨hranges, rfl⟩,
        ⟨rfl, rfl, rfl, rfl, rfl, rfl, rfl, rfl, rfl, rfl⟩⟩

theorem othersKept_addPortMapping {e : PMapping} {before copy : Rules}
    (h : OthersKept e.InstanceNumber before copy) :
    OthersKept e.InstanceNumber before (addPortMapping e copy) := by
  obtain ⟨hsingles, hranges⟩ := h
  unfold OthersKept addPortMapping
  split
  · simpa [List.filter_append] using And.intro hsingles hranges
  · simpa [List.filter_append] using And.intro hsingles hranges

/-- An edit is atomic exactly when it stops before its commit or what it commits
is whole. -/
theorem cosaDmlNatSetPortMapping_atomic_iff (p : Platform) (fails : Failing) (e : PMapping)
    (g_NatEnable : Feature → Bool) (committed : Rules) :
    Atomic e committed (cosaDmlNatSetPortMappingCalls p fails e g_NatEnable committed) ↔
      StopsBefore (checkPfParameter p committed e && g_NatEnable e.feature) fails
        e.InstanceNumber committed ∨
      CommitIsWhole fails e.InstanceNumber committed := by
  unfold cosaDmlNatSetPortMappingCalls
  rcases setPortMapping_eq (checkPfParameter p committed e && g_NatEnable e.feature) fails e
    committed with ⟨hstop, hresult⟩ | ⟨hgo, hresult⟩
  · rw [hresult]
    exact iff_of_true rfl (Or.inl hstop)
  · rw [hresult, or_iff_right hgo]
    unfold Atomic CommitIsWhole
    cases fails.add with
    | true =>
      simp only [if_true, Bool.false_eq_true, if_false]
      exact deleted_eq_self_iff fails e.InstanceNumber committed
    | false =>
      simp only [Bool.false_eq_true, if_false, if_true]
      rw [← deleted_none_iff, ← oneRule_addPortMapping_iff]
      exact and_iff_left (othersKept_addPortMapping (othersKept_deleted _ _ _))

def entryFive : PMapping where
  InstanceNumber := 5
  bEnabled := false
  PublicIP := 0
  ExternalPort := 80
  ExternalPortEndRange := 80
  InternalPort := 0
  Protocol := 1
  InternalClient := 0x0700000a
  Description := []
  InternalClientV6 := []

def ruleFive : PortFwdSingle where
  rule_id := 5
  name := []
  enabled := true
  prevRuleEnabledState := true
  protocol := .UDP
  external_port := 81
  internal_port := 0
  dest_ip := []
  dest_ipv6 := []

def permissive : Platform where
  lan := some ⟨"10.0.0.1".toList, "255.255.255.0".toList, "10.0.0.2".toList, "10.0.0.253".toList⟩
  checkPortRange _ _ := true

/-- The failing addition commits the deletion before it. -/
theorem cosaDmlNatSetPortMapping_lost_rule : ¬ ∀ (p : Platform) (fails : Failing) (e : PMapping)
    (g_NatEnable : Feature → Bool) (committed : Rules),
    Atomic e committed (cosaDmlNatSetPortMappingCalls p fails e g_NatEnable committed) := by
  intro hclaim
  have hat := hclaim permissive ⟨false, false, false, false, false, true⟩ entryFive (fun _ => true)
    ⟨[ruleFive], []⟩
  have hresult : cosaDmlNatSetPortMappingCalls permissive ⟨false, false, false, false, false, true⟩
      entryFive (fun _ => true) ⟨[ruleFive], []⟩ = (false, ⟨[], []⟩) := by
    decide +kernel
  rw [hresult] at hat
  cases hat

end CcspPandM.NatEdit
