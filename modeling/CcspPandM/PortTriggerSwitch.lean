import CcspPandM.CString
import CcspPandM.Runs

/-!
The switch above the port triggers. Every rule has the state it is wanted in beside
the state it is in, and turning the switch rewrites all rules before the switch is
stored. A failure to store the switch comes too late: the rules are committed.
Utopia keeps a list of rules by number, and any of its calls may fail.
-/
namespace CcspPandM.PortTriggerSwitch

open CString Runs

abbrev ULONG := BitVec 32

variable (P : Type)

/-- `portRangeTrig_t`, where `ports` is what is copied from an entry: protocols,
port ranges and the name. -/
structure portRangeTrig_t where
  rule_id : ULONG
  enabled : Bool
  prevRuleEnabledState : Bool
  ports : P

structure COSA_DML_NAT_PTRIGGER where
  InstanceNumber : ULONG
  bEnabled : Bool
  ports : P

structure State where
  g_NatPTTriggerEnable : Bool
  /-- The value of `PORT_TRIGGER_ENABLED_KEY`. -/
  stored : Option CStr
  rules : List (portRangeTrig_t P)

/-- The call that fails when the switch is turned. -/
inductive Fault where
  | Utopia_Init
  | Utopia_GetPortTrigger
  | Utopia_SetPortTrigger
  | Utopia_RawSet
  deriving DecidableEq

variable {P}

def ruleOf (pEntry : COSA_DML_NAT_PTRIGGER P) : portRangeTrig_t P :=
  ⟨pEntry.InstanceNumber, pEntry.bEnabled, pEntry.bEnabled, pEntry.ports⟩

def hasId (n : ULONG) (r : portRangeTrig_t P) : Bool := r.rule_id = n

/-- `CosaDmlNatInit` -/
def CosaDmlNatInit (s : State P) : State P :=
  { s with g_NatPTTriggerEnable := s.stored = some ['1'] }

def CosaDmlNatAddPortTrigger (utopia : Bool) (pEntry : COSA_DML_NAT_PTRIGGER P) (s : State P) :
    Bool × State P :=
  if s.g_NatPTTriggerEnable = false then (false, s)
  else if utopia then (true, { s with rules := s.rules ++ [ruleOf pEntry] })
  else (false, s)

def CosaDmlNatDelPortTrigger (utopia : Bool) (n : ULONG) (s : State P) : Bool × State P :=
  if utopia && s.rules.any (hasId n) then (true, { s with rules := s.rules.eraseP (hasId n) })
  else (false, s)

def CosaDmlNatSetPortTrigger (utopia : Bool) (pEntry : COSA_DML_NAT_PTRIGGER P) (s : State P) :
    Bool × State P :=
  if s.g_NatPTTriggerEnable = false then (false, s)
  else match s.rules.findIdx? (hasId pEntry.InstanceNumber), utopia with
    | some i, true => (true, { s with rules := s.rules.set i (ruleOf pEntry) })
    | _, _ => (false, s)

def switched (vBool : Bool) (r : portRangeTrig_t P) : portRangeTrig_t P :=
  { r with enabled := if vBool then r.prevRuleEnabledState else vBool }

/-- Without rules nothing is written but the switch. -/
def CosaDmlNatSetPortTriggerEnable (fault : Option Fault) (vBool : Bool) (s : State P) :
    Bool × State P :=
  if vBool = s.g_NatPTTriggerEnable then (true, s)
  else if fault = some .Utopia_Init ∨ fault = some .Utopia_GetPortTrigger then (false, s)
  else if s.rules ≠ [] ∧ fault = some .Utopia_SetPortTrigger then (false, s)
  else
    let t := { s with rules := s.rules.map (switched vBool) }
    if fault = some .Utopia_RawSet then (false, t)
    else
      (true, { t with
        g_NatPTTriggerEnable := vBool
        stored := some [if vBool then '1' else '0'] })

inductive Op (P : Type) where
  | boot
  | add (utopia : Bool) (pEntry : COSA_DML_NAT_PTRIGGER P)
  | del (utopia : Bool) (n : ULONG)
  | set (utopia : Bool) (pEntry : COSA_DML_NAT_PTRIGGER P)
  | enable (fault : Option Fault) (vBool : Bool)

/-- The answer of a call, and the state afterwards. -/
def call (s : State P) : Op P → Bool × State P
  | .boot => (true, CosaDmlNatInit s)
  | .add utopia pEntry => CosaDmlNatAddPortTrigger utopia pEntry s
  | .del utopia n => CosaDmlNatDelPortTrigger utopia n s
  | .set utopia pEntry => CosaDmlNatSetPortTrigger utopia pEntry s
  | .enable fault vBool => CosaDmlNatSetPortTriggerEnable fault vBool s

def step (s : State P) (op : Op P) : Option (State P) := some (call s op).2

/-- The switch, and the entries as they are wanted. -/
structure View (P : Type) where
  switch : Bool
  wanted : List (COSA_DML_NAT_PTRIGGER P)

def wantedOf (r : portRangeTrig_t P) : COSA_DML_NAT_PTRIGGER P :=
  ⟨r.rule_id, r.prevRuleEnabledState, r.ports⟩

def view (s : State P) : View P := ⟨s.g_NatPTTriggerEnable, s.rules.map wantedOf⟩

def isEntry (n : ULONG) (e : COSA_DML_NAT_PTRIGGER P) : Bool := e.InstanceNumber = n

/-- What a call that succeeds means. -/
def viewStep (v : View P) : Op P → View P
  | .boot => v
  | .add _ e => { v with wanted := v.wanted ++ [e] }
  | .del _ n => { v with wanted := v.wanted.eraseP (isEntry n) }
  | .set _ e => { v with wanted := ((v.wanted.findIdx? (isEntry e.InstanceNumber)).map fun i =>
      v.wanted.set i e).getD v.wanted }
  | .enable _ b => { v with switch := b }

/-- A rule is on when the switch is on and the rule is wanted, and the next boot
finds the switch. -/
structure InForce (s : State P) : Prop where
  enabled : ∀ r ∈ s.rules, r.enabled = (s.g_NatPTTriggerEnable && r.prevRuleEnabledState)
  stored : s.stored = some ['1'] ↔ s.g_NatPTTriggerEnable = true

/-- A call that fails changes nothing. -/
structure Right (s : State P) (op : Op P) (t : State P) : Prop where
  done : (call s op).1 = true → view t = viewStep (view s) op
  refused : (call s op).1 = false → view t = view s
  inForce : InForce t

/-- The switch is stored when it is turned above a rule that is wanted. -/
def Ok (s : State P) : Op P → Prop
  | .enable fault vBool => fault = some .Utopia_RawSet → vBool ≠ s.g_NatPTTriggerEnable →
      ∀ r ∈ s.rules, r.prevRuleEnabledState = false
  | _ => True

section Steps

variable {s t : State P}

theorem switched_enabled (vBool : Bool) (r : portRangeTrig_t P) :
    (switched vBool r).enabled = (vBool && r.prevRuleEnabledState) := by
  cases vBool <;> rfl

theorem switched_forall {vBool : Bool} :
    (∀ r ∈ s.rules.map (switched vBool), r.enabled = (vBool && r.prevRuleEnabledState)) := by
  intro r hr
  obtain ⟨r, -, rfl⟩ := List.mem_map.mp hr
  exact switched_enabled vBool r

theorem view_switched (vBool : Bool) :
    (s.rules.map (switched vBool)).map wantedOf = s.rules.map wantedOf := by
  rw [List.map_map]
  rfl

theorem right_done {op : Op P} (hc : call s op = (true, t)) (hv : view t = viewStep (view s) op)
    (ht : InForce t) : Right s op (call s op).2 := by
  refine ⟨fun _ => ?_, fun hf => ?_, ?_⟩
  · rw [hc]
    exact hv
  · rw [hc] at hf
    cases hf
  · rw [hc]
    exact ht

variable (h : InForce s)

include h

theorem right_refused {op : Op P} (hc : call s op = (false, s)) : Right s op (call s op).2 := by
  refine ⟨fun hf => ?_, fun _ => ?_, ?_⟩
  · rw [hc] at hf
    cases hf
  · rw [hc]
  · rw [hc]
    exact h

theorem boot_right : Right s .boot (call s .boot).2 := by
  have hread : decide (s.stored = some ['1']) = s.g_NatPTTriggerEnable := by
    rw [Bool.eq_iff_iff, decide_eq_true_eq]
    exact h.stored
  have hsame : CosaDmlNatInit s = s := by
    rw [CosaDmlNatInit, hread]
  exact right_done (congrArg (Prod.mk true) hsame) rfl h

variable (utopia : Bool)

theorem add_right (e : COSA_DML_NAT_PTRIGGER P) :
    Right s (.add utopia e) (call s (.add utopia e)).2 := by
  by_cases hoff : s.g_NatPTTriggerEnable = false
  · exact right_refused h (if_pos hoff)
  · cases utopia with
    | false => exact right_refused h (if_neg hoff)
    | true =>
      refine right_done (t := { s with rules := s.rules ++ [ruleOf e] }) (if_neg hoff) ?_
        ⟨fun r hr => ?_, h.stored⟩
      · exact congrArg (View.mk _) List.map_append
      · rcases List.mem_append.mp hr with hr | hr
        · exact h.enabled r hr
        · rw [List.mem_singleton.mp hr, Bool.eq_true_of_not_eq_false hoff]
          rfl

theorem del_right (n : ULONG) :
    Right s (.del utopia n) (call s (.del utopia n)).2 := by
  by_cases hfound : (utopia && s.rules.any (hasId n)) = true
  · refine right_done (t := { s with rules := s.rules.eraseP (hasId n) }) (if_pos hfound) ?_
      ⟨fun r hr => h.enabled r (List.mem_of_mem_eraseP hr), h.stored⟩
    exact congrArg (View.mk _) (List.eraseP_map (f := wantedOf) (p := isEntry n)).symm
  · exact right_refused h (if_neg hfound)

theorem set_right (e : COSA_DML_NAT_PTRIGGER P) :
    Right s (.set utopia e) (call s (.set utopia e)).2 := by
  by_cases hoff : s.g_NatPTTriggerEnable = false
  · exact right_refused h (if_pos hoff)
  · have hcall : call s (.set utopia e) =
        match s.rules.findIdx? (hasId e.InstanceNumber), utopia with
        | some i, true => (true, { s with rules := s.rules.set i (ruleOf e) })
        | _, _ => (false, s) := if_neg hoff
    cases hi : s.rules.findIdx? (hasId e.InstanceNumber) with
    | none => exact right_refused h (by rw [hcall, hi])
    | some i =>
      rw [hi] at hcall
      cases utopia with
      | false => exact right_refused h hcall
      | true =>
        refine right_done hcall ?_ ⟨fun r hr => ?_, h.stored⟩
        · have hwanted : (view s).wanted.findIdx? (isEntry e.InstanceNumber) = some i := by
            rw [← hi]
            exact List.findIdx?_map
          rw [viewStep, hwanted]
          exact congrArg (View.mk _) List.map_set
        · rcases List.mem_or_eq_of_mem_set hr with hr | rfl
          · exact h.enabled r hr
          · rw [Bool.eq_true_of_not_eq_false hoff]
            rfl

theorem enable_right_iff (fault : Option Fault) (vBool : Bool) :
    Right s (.enable fault vBool) (call s (.enable fault vBool)).2 ↔
      Ok s (.enable fault vBool) := by
  by_cases hsame : vBool = s.g_NatPTTriggerEnable
  · refine iff_of_true (right_done (if_pos hsame) ?_ h) fun _ hne => absurd hsame hne
    rw [viewStep, hsame]
    rfl
  · have hcall : call s (.enable fault vBool) = if _ then _ else _ := if_neg hsame
    by_cases hearly : fault = some .Utopia_Init ∨ fault = some .Utopia_GetPortTrigger
    · refine iff_of_true (right_refused h (hcall.trans (if_pos hearly))) fun hraw => ?_
      rw [hraw] at hearly
      simp at hearly
    · by_cases hrules : s.rules ≠ [] ∧ fault = some .Utopia_SetPortTrigger
      · refine iff_of_true ?_ fun hraw => ?_
        · exact right_refused h (hcall.trans ((if_neg hearly).trans (if_pos hrules)))
        · rw [hraw] at hrules
          simp at hrules
      · have hlate := hcall.trans ((if_neg hearly).trans (if_neg hrules))
        by_cases hraw : fault = some .Utopia_RawSet
        · have hend := hlate.trans (if_pos hraw)
          constructor
          · intro hr _ _ r hmem
            have hforce := hr.inForce
            rw [hend] at hforce
            have henabled := hforce.enabled _ (List.mem_map_of_mem hmem)
            rw [switched_enabled] at henabled
            by_contra hon
            rw [Bool.not_eq_false] at hon
            apply hsame
            simpa [switched, hon] using henabled
          · intro hok
            have hoff := hok hraw hsame
            refine ⟨fun hf => ?_, fun _ => ?_, ?_⟩
            · rw [hend] at hf
              cases hf
            · rw [hend]
              exact congrArg (View.mk _) (view_switched vBool)
            · rw [hend]
              refine ⟨fun r hr => ?_, h.stored⟩
              obtain ⟨r, hmem, rfl⟩ := List.mem_map.mp hr
              rw [switched_enabled, switched, hoff r hmem, Bool.and_false, Bool.and_false]
        · refine iff_of_true (right_done (hlate.trans (if_neg hraw)) ?_ ⟨switched_forall, ?_⟩)
            fun hraw' => absurd hraw' hraw
          · exact congrArg (View.mk _) (view_switched vBool)
          · cases vBool <;> simp

theorem right_iff (op : Op P) : Right s op (call s op).2 ↔ Ok s op := by
  cases op with
  | boot => exact iff_of_true (boot_right h) trivial
  | add utopia e => exact iff_of_true (add_right h utopia e) trivial
  | del utopia n => exact iff_of_true (del_right h utopia n) trivial
  | set utopia e => exact iff_of_true (set_right h utopia e) trivial
  | enable fault vBool => exact enable_right_iff h fault vBool

end Steps

end CcspPandM.PortTriggerSwitch
