import CcspPandM.Dhcpv4sPools
import CcspPandM.IpRegistry
import CcspPandM.StaticIpRules

/-!
Runs of calls on the port management rules, made directly or by the handlers of the
data model. As long as a call adds a rule of a new number, and deletes or sets a rule
that is there, of a protocol that has a name, the slots of the store follow a list.
A deletion of a number that no slot has takes the last rule, and from none the count wraps.
-/
namespace CcspPandM.StaticIpRuleRuns

open CString KeyStore KeyedList Runs StaticIpRules StoreSlots

/-- `COSA_CONTEXT_LINK_OBJECT`, with the entry that `hContext` points to. -/
structure Link where
  InstanceNumber : ULONG
  bNew : Bool
  hContext : COSA_DML_TSIP_RULE_ENTRY

/-- The rules of the store, and those of the data model. -/
structure COSA_DATAMODEL_TSIP where
  rules : State
  RuleList : List Link
  ulRuleNextInsNum : ULONG

section Handlers

variable (s : COSA_DATAMODEL_TSIP)

/-- The fields that are not set keep what the allocated memory holds. -/
def Rule_AddEntry (memory : COSA_DML_TSIP_RULE_ENTRY) : COSA_DATAMODEL_TSIP :=
  let number := s.ulRuleNextInsNum
  let pEntry := { memory with
    Alias := Buf.sprintf_s ("Rule".toList ++ decimal number.toNat), InstanceNumber := number }
  { s with
    RuleList := IpRegistry.pushEntryByInsNum Link.InstanceNumber s.RuleList ⟨number, true, pEntry⟩
    ulRuleNextInsNum := if number + 1 = 0 then 1 else number + 1 }

/-- The handle of a rule is its place in the list. -/
def Rule_DelEntry (stack : CStr) (hInstance : ℕ) : Option COSA_DATAMODEL_TSIP :=
  match s.RuleList[hInstance]? with
  | none => some s
  | some pCosaContext =>
    if pCosaContext.bNew then some { s with RuleList := s.RuleList.eraseIdx hInstance }
    else (CosaDmlTSIPRuleDelEntry stack pCosaContext.hContext s.rules).map fun r =>
      { s with rules := r.2, RuleList := s.RuleList.eraseIdx hInstance }

def Rule_Commit (stack : CStr) (hInsContext : ℕ) : COSA_DATAMODEL_TSIP :=
  match s.RuleList[hInsContext]? with
  | none => s
  | some pCosaContext =>
    if pCosaContext.bNew then
      { s with
        rules := CosaDmlTSIPRuleAddEntry stack pCosaContext.hContext s.rules
        RuleList := s.RuleList.set hInsContext { pCosaContext with bNew := false } }
    else { s with rules := CosaDmlTSIPRuleSetEntry stack pCosaContext.hContext s.rules }

def setParam (hInsContext : ℕ) (f : COSA_DML_TSIP_RULE_ENTRY → COSA_DML_TSIP_RULE_ENTRY) :
    COSA_DATAMODEL_TSIP :=
  { s with RuleList := s.RuleList.modify hInsContext fun c => { c with hContext := f c.hContext } }

def Rule_SetParamBoolValue (hInsContext : ℕ) (ParamName : CStr) (bValue : Bool) :
    COSA_DATAMODEL_TSIP :=
  setParam s hInsContext fun pRule =>
    if ParamName = "Enable".toList then { pRule with Enabled := bValue } else pRule

def Rule_SetParamUlongValue (hInsContext : ℕ) (ParamName : CStr) (uValue : ULONG) :
    COSA_DATAMODEL_TSIP :=
  setParam s hInsContext fun pRule =>
    if ParamName = "Protocol".toList then { pRule with Protocol := uValue }
    else if ParamName = "PortRangeMin".toList then { pRule with PortRangeMin := uValue }
    else if ParamName = "PortRangeMax".toList then { pRule with PortRangeMax := uValue }
    else pRule

def Rule_SetParamStringValue (hInsContext : ℕ) (ParamName pString : CStr) : COSA_DATAMODEL_TSIP :=
  setParam s hInsContext fun pRule =>
    if ParamName = "Name".toList then
      { pRule with Name := Dhcpv4sPools.strcpyNoclobber pString pRule.Name }
    else if ParamName = "IPRangeMin".toList then
      { pRule with IPRangeMin := Dhcpv4sPools.strcpyNoclobber pString pRule.IPRangeMin }
    else if ParamName = "IPRangeMax".toList then
      { pRule with IPRangeMax := Dhcpv4sPools.strcpyNoclobber pString pRule.IPRangeMax }
    else pRule

end Handlers

inductive Op where
  | call (c : Call)
  | addEntry (memory : COSA_DML_TSIP_RULE_ENTRY)
  | delEntry (hInstance : ℕ)
  | setBool (hInsContext : ℕ) (ParamName : CStr) (bValue : Bool)
  | setUlong (hInsContext : ℕ) (ParamName : CStr) (uValue : ULONG)
  | setString (hInsContext : ℕ) (ParamName pString : CStr)
  | commit (hInsContext : ℕ)

def step (s : COSA_DATAMODEL_TSIP) (op : CStr × Op) : Option COSA_DATAMODEL_TSIP :=
  match op.2 with
  | .call c => (call op.1 s.rules c).map fun rules => { s with rules := rules }
  | .addEntry memory => some (Rule_AddEntry s memory)
  | .delEntry k => Rule_DelEntry s op.1 k
  | .setBool k ParamName bValue => some (Rule_SetParamBoolValue s k ParamName bValue)
  | .setUlong k ParamName uValue => some (Rule_SetParamUlongValue s k ParamName uValue)
  | .setString k ParamName pString => some (Rule_SetParamStringValue s k ParamName pString)
  | .commit k => some (Rule_Commit s op.1 k)

section Spec

def commitCall (c : Link) : Call := if c.bNew then .add c.hContext else .set c.hContext

def deleteCall (c : Link) : Option Call := if c.bNew then none else some (.del c.hContext)

def requested (s : COSA_DATAMODEL_TSIP) : Op → Option Call
  | .call c => some c
  | .delEntry k => s.RuleList[k]?.bind deleteCall
  | .commit k => s.RuleList[k]?.map commitCall
  | _ => none

def named : Call → Option ULONG
  | .del pEntry => some pEntry.InstanceNumber
  | .set pEntry => some pEntry.InstanceNumber
  | _ => none

def Stored (s : State) (n : ULONG) : Prop :=
  ∃ i < s.pmCount.toNat, strtoulTen (rawGet s.utopia (pmSlot i, ins)) = n

def CallSound (s : State) : Call → Prop
  | .get ulIndex _ => ulIndex < s.pmCount
  | .add pEntry => Known pEntry ∧ ¬Stored s pEntry.InstanceNumber ∧ s.pmCount + 1 ≠ 0
  | .del pEntry => Stored s pEntry.InstanceNumber
  | .set pEntry => Stored s pEntry.InstanceNumber ∧ Known pEntry

/-- The call does to the slots what it does to the list they show: one that names an
absent rule does nothing, and a get reads the rule of its place. -/
def CallFollows (s : State) (c : Call) (t : State) : Prop :=
  ∀ l, Shows s l → Shows t (listCall l c) ∧
    (∀ n, named c = some n → n ∉ l.map COSA_DML_TSIP_RULE_ENTRY.InstanceNumber → t = s) ∧
    ∀ i e r, c = .get i e → l[i.toNat]? = some r → CosaDmlTSIPRuleGetEntry i e s = some r

def Sound (s : COSA_DATAMODEL_TSIP) (op : CStr × Op) : Prop :=
  ∀ c, requested s op.2 = some c → CallSound s.rules c

def Follows (s : COSA_DATAMODEL_TSIP) (op : CStr × Op) (t : COSA_DATAMODEL_TSIP) : Prop :=
  (∀ c, requested s op.2 = some c → CallFollows s.rules c t.rules) ∧
    (requested s op.2 = none → t.rules = s.rules)

end Spec

variable {c : Call}

section Calls

variable {s t : State} {l : List COSA_DML_TSIP_RULE_ENTRY}

theorem getElem?_of_lt (h : Shows s l) {i : ℕ} (hi : i < s.pmCount.toNat) :
    ∃ r, l[i]? = some r := by
  rw [h.count] at hi
  exact ⟨l[i], List.getElem?_eq_getElem hi⟩

theorem stored_iff (h : Shows s l) (n : ULONG) :
    Stored s n ↔ ∃ (i : ℕ) (r : COSA_DML_TSIP_RULE_ENTRY), l[i]? = some r ∧
      r.InstanceNumber = n := by
  constructor
  · intro hstored
    obtain ⟨i, hi, hread⟩ := hstored
    obtain ⟨r, hr⟩ := getElem?_of_lt h hi
    exact ⟨i, r, hr, (read_ins h hr).symm.trans hread⟩
  · intro hex
    obtain ⟨i, r, hr, hn⟩ := hex
    have hi : i < l.length := (List.getElem?_eq_some_iff.mp hr).1
    exact ⟨i, by rw [h.count]; exact hi, (read_ins h hr).trans hn⟩

theorem mem_numbers_of_stored (h : Shows s l) {n : ULONG} (hn : Stored s n) :
    n ∈ l.map COSA_DML_TSIP_RULE_ENTRY.InstanceNumber := by
  obtain ⟨i, r, hr, rfl⟩ := (stored_iff h n).mp hn
  exact List.mem_map_of_mem (List.mem_of_getElem? hr)

theorem stored_of_mem_numbers (h : Shows s l) {n : ULONG}
    (hn : n ∈ l.map COSA_DML_TSIP_RULE_ENTRY.InstanceNumber) : Stored s n := by
  obtain ⟨r, hr, rfl⟩ := List.mem_map.mp hn
  obtain ⟨i, hi⟩ := List.mem_iff_getElem?.mp hr
  exact (stored_iff h r.InstanceNumber).mpr ⟨i, r, hi, rfl⟩

theorem getEntry_of_shows (h : Shows s l) {i : ULONG} {r : COSA_DML_TSIP_RULE_ENTRY}
    (hr : l[i.toNat]? = some r) (e : COSA_DML_TSIP_RULE_ENTRY) :
    CosaDmlTSIPRuleGetEntry i e s = some r := by
  apply readRule_of_holds (h.slots i.toNat r hr)
  exact h.known r (List.mem_of_getElem? hr)

theorem shows_call (h : Shows s l) (hok : CallSound s c) (stack : CStr) :
    ∃ t, call stack s c = some t ∧ Shows t (listCall l c) := by
  cases c with
  | get i e =>
    obtain ⟨r, hr⟩ := getElem?_of_lt h (BitVec.lt_def.mp hok)
    refine ⟨s, ?_, h⟩
    simp only [call, getEntry_of_shows h hr e, Option.map_some]
  | add e =>
    obtain ⟨hknown, hfresh, hroom⟩ := hok
    refine ⟨_, rfl, shows_add h ?_ hknown ?_ stack⟩
    · intro hmem
      exact hfresh (stored_of_mem_numbers h hmem)
    · have hlt := s.pmCount.isLt
      rw [h.count] at hlt
      by_contra hfull
      apply hroom
      apply BitVec.eq_of_toNat_eq
      rw [BitVec.toNat_add, h.count, show (1 : ULONG).toNat = 1 from rfl,
        show l.length + 1 = 2 ^ 32 by omega, Nat.mod_self]
      rfl
  | del e =>
    obtain ⟨i, r, hr, hnumber⟩ := (stored_iff h _).mp hok
    have hdrop : listCall l (.del e) = l.eraseIdx i := by
      rw [← drop_eq_eraseIdx h.differ hr, hnumber]
      rfl
    rw [hdrop]
    exact shows_del h hr hnumber stack
  | set e =>
    obtain ⟨hstored, hknown⟩ := hok
    obtain ⟨i, r, hr, hnumber⟩ := (stored_iff h _).mp hstored
    have hset : listCall l (.set e) = l.set i e := by
      rw [← map_change_eq_set h.differ hr (fun _ => e), hnumber]
      rfl
    rw [hset]
    exact ⟨_, rfl, shows_set h hr hnumber hknown stack⟩

theorem call_follows (h : Shows s l) (hok : CallSound s c) (stack : CStr) :
    ∃ t, call stack s c = some t ∧ CallFollows s c t ∧ Shows t (listCall l c) := by
  obtain ⟨t, ht, hshows⟩ := shows_call h hok stack
  refine ⟨t, ht, fun l' h' => ⟨?_, ?_, ?_⟩, hshows⟩
  · obtain ⟨t', ht', hshows'⟩ := shows_call h' hok stack
    rw [ht, Option.some.injEq] at ht'
    rw [ht']
    exact hshows'
  · intro n hn habsent
    have hstored : Stored s n := by
      cases c with
      | get i e => cases hn
      | add e => cases hn
      | del e =>
        obtain rfl := Option.some.inj hn
        exact hok
      | set e =>
        obtain rfl := Option.some.inj hn
        exact hok.1
    exact absurd (mem_numbers_of_stored h' hstored) habsent
  · intro i e r hc hr
    exact getEntry_of_shows h' hr e

end Calls

section Steps

variable {s : COSA_DATAMODEL_TSIP} {op : CStr × Op}

theorem step_of_requested (h : requested s op.2 = some c) {rules : State}
    (hcall : call op.1 s.rules c = some rules) :
    ∃ t, step s op = some t ∧ t.rules = rules := by
  obtain ⟨stack, o⟩ := op
  cases o with
  | call c' =>
    obtain rfl := Option.some.inj h
    exact ⟨{ s with rules := rules }, congrArg (Option.map _) hcall, rfl⟩
  | addEntry memory => cases h
  | delEntry k =>
    simp only [requested, Option.bind_eq_some_iff] at h
    obtain ⟨link, hlink, hdel⟩ := h
    cases hnew : link.bNew with
    | true =>
      rw [deleteCall, hnew] at hdel
      cases hdel
    | false =>
      rw [deleteCall, hnew] at hdel
      obtain rfl := Option.some.inj hdel
      obtain ⟨r, hr, hrules⟩ := Option.map_eq_some_iff.mp hcall
      refine ⟨{ s with rules := r.2, RuleList := s.RuleList.eraseIdx k }, ?_, hrules⟩
      simp only [step, Rule_DelEntry, hlink, hnew, hr, Option.map_some, Bool.false_eq_true,
        if_false]
  | setBool k p b => cases h
  | setUlong k p v => cases h
  | setString k p v => cases h
  | commit k =>
    obtain ⟨link, hlink, rfl⟩ := Option.map_eq_some_iff.mp h
    refine ⟨_, rfl, ?_⟩
    cases hnew : link.bNew with
    | true =>
      simp only [commitCall, hnew, if_true, call, Option.some.injEq] at hcall
      simp only [Rule_Commit, hlink, hnew, if_true, hcall]
    | false =>
      simp only [commitCall, hnew, Bool.false_eq_true, if_false, call, Option.some.injEq] at hcall
      simp only [Rule_Commit, hlink, hnew, Bool.false_eq_true, if_false, hcall]

theorem step_of_not_requested (h : requested s op.2 = none) :
    ∃ t, step s op = some t ∧ t.rules = s.rules := by
  obtain ⟨stack, o⟩ := op
  cases o with
  | call c => cases h
  | addEntry memory => exact ⟨_, rfl, rfl⟩
  | delEntry k =>
    cases hlink : s.RuleList[k]? with
    | none =>
      refine ⟨s, ?_, rfl⟩
      simp only [step, Rule_DelEntry, hlink]
    | some link =>
      cases hnew : link.bNew with
      | true =>
        refine ⟨{ s with RuleList := s.RuleList.eraseIdx k }, ?_, rfl⟩
        simp only [step, Rule_DelEntry, hlink, hnew, if_true]
      | false => simp [requested, hlink, deleteCall, hnew] at h
  | setBool k p b => exact ⟨_, rfl, rfl⟩
  | setUlong k p v => exact ⟨_, rfl, rfl⟩
  | setString k p v => exact ⟨_, rfl, rfl⟩
  | commit k =>
    have hlink := Option.map_eq_none_iff.mp h
    refine ⟨s, ?_, rfl⟩
    simp only [step, Rule_Commit, hlink]

theorem step_follows {l : List COSA_DML_TSIP_RULE_ENTRY} (h : Shows s.rules l)
    (hok : Sound s op) :
    ∃ t, step s op = some t ∧ Follows s op t ∧ ∃ l', Shows t.rules l' := by
  cases hreq : requested s op.2 with
  | none =>
    obtain ⟨t, ht, hrules⟩ := step_of_not_requested hreq
    refine ⟨t, ht, ⟨?_, fun _ => hrules⟩, l, by rw [hrules]; exact h⟩
    intro c hc
    rw [hreq] at hc
    cases hc
  | some c =>
    obtain ⟨rules, hcall, hfollows, hshows⟩ := call_follows h (hok c hreq) op.1
    obtain ⟨t, ht, hrules⟩ := step_of_requested hreq hcall
    refine ⟨t, ht, ⟨?_, ?_⟩, _, by rw [hrules]; exact hshows⟩
    · intro c' hc'
      rw [hreq] at hc'
      obtain rfl := Option.some.inj hc'
      rw [hrules]
      exact hfollows
    · intro hnone
      rw [hreq] at hnone
      cases hnone

end Steps

/-- Over any operations that start with slots that show a list, if each is sound where
it is made, each has a result and does to the slots what it does to the list. -/
theorem static_rules_follow_list {s : COSA_DATAMODEL_TSIP} {l : List COSA_DML_TSIP_RULE_ENTRY}
    (h : Shows s.rules l) {ops : List (CStr × Op)} (hok : StepsMeet step Sound s ops) :
    Does step Follows s ops := by
  apply (@does_iff _ _ step _ Sound (fun _ _ => True) (fun s => ∃ l, Shows s.rules l) ?_ ?_ s ops
    ⟨l, h⟩ hok).mpr (stepsMeet_true step s ops)
  · intro s op hs hsound
    obtain ⟨l, h⟩ := hs
    obtain ⟨t, ht, hfollows, -⟩ := step_follows h hsound
    exact ⟨fun _ => trivial, fun _ => ⟨t, ht, hfollows⟩⟩
  · intro s op t hs hsound _ ht
    obtain ⟨l, h⟩ := hs
    obtain ⟨u, hu, -, hshows⟩ := step_follows h hsound
    obtain rfl := Option.some.inj (ht.symm.trans hu)
    exact hshows

def sampleRule : COSA_DML_TSIP_RULE_ENTRY :=
  ⟨0, Buf.empty, true, Buf.snprintf "web".toList, 1, Buf.snprintf "10.0.0.1".toList,
    Buf.snprintf "10.0.0.9".toList, 80, 90⟩

def noRules : COSA_DATAMODEL_TSIP where
  rules := ⟨0, set (fun _ => none) countKey (decimal 0)⟩
  RuleList := []
  ulRuleNextInsNum := 1

theorem shows_noRules : Shows noRules.rules [] where
  count := rfl
  number := by
    dsimp only [noRules]
    exact set_self _ _ _
  slots := fun i e he => by cases he
  known := fun e he => absurd he List.not_mem_nil
  differ := List.nodup_nil

theorem static_rules_follow_small : Does step Follows noRules
    [([], .addEntry sampleRule), ([], .commit 0), ([], .delEntry 0)] := by
  apply static_rules_follow_list shows_noRules
  refine ⟨fun c hc => (by cases hc), fun s hs => ?_⟩
  obtain rfl := Option.some.inj hs
  have hcommit : CallSound noRules.rules (.add { sampleRule with
      Alias := Buf.sprintf_s "Rule1".toList, InstanceNumber := 1 }) := by
    refine ⟨⟨Or.inl rfl, by decide +kernel⟩, ?_, by decide⟩
    intro hstored
    obtain ⟨i, hi, -⟩ := hstored
    exact absurd hi (Nat.not_lt_zero i)
  refine ⟨?_, fun t ht => ⟨?_, fun _ _ => trivial⟩⟩
  · intro c hc
    obtain rfl := Option.some.inj hc
    exact hcommit
  · obtain rfl := Option.some.inj ht
    intro c hc
    obtain rfl := Option.some.inj hc
    obtain ⟨t, ht, hshows⟩ := shows_call shows_noRules hcommit []
    obtain rfl := Option.some.inj ht
    exact (stored_iff hshows 1).mpr ⟨0, _, rfl, rfl⟩

theorem delEntry_pmCount {stack : CStr} {e : COSA_DML_TSIP_RULE_ENTRY} {s t : State}
    (h : call stack s (.del e) = some t) : t.pmCount = s.pmCount - 1 := by
  obtain ⟨r, hr, rfl⟩ := Option.map_eq_some_iff.mp h
  obtain ⟨moved, -, hmoved⟩ := Option.bind_eq_some_iff.mp hr
  obtain rfl := Option.some.inj hmoved
  rfl

/-- With no rule in the store, deleting one takes the count below zero. -/
theorem static_rules_wrap : ¬Does step Follows noRules [([], .call (.del sampleRule))] := by
  intro hdoes
  obtain ⟨t, ht, hfollows, -⟩ := hdoes
  obtain ⟨rules, hrules, rfl⟩ := Option.map_eq_some_iff.mp ht
  have hsame := ((hfollows.1 (.del sampleRule) rfl [] shows_noRules).2.1 0 rfl
    List.not_mem_nil)
  have hcount := delEntry_pmCount hrules
  rw [show rules = noRules.rules from hsame] at hcount
  exact absurd hcount (by decide)

end CcspPandM.StaticIpRuleRuns
