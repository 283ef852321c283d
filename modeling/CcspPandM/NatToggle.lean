import CcspPandM.NatDocument

/-!
Switching a feature off and on again. A rule keeps its state from before in a
second field, and three writers have to keep the two in step with the flag: the
entries of the data model, the toggles and the webconfig documents.
-/
namespace CcspPandM.NatToggle

open CString KeyStore FaultyStore Syscfg SubdocDecoders CacheRecords InetText Ipv4Addr
  PortForwardCache PortForwardRequest NatRules NatFlags NatDocument Runs

structure Reads (u : Utopia) (readFlag : Option CStr → Bool) : Prop where
  one : readFlag (some ['1']) = true
  single_enabled : ∀ db a, (u.single db a).enabled = readFlag (db (a ++ "::enabled".toList))
  single_prev : ∀ db a, (u.single db a).prevRuleEnabledState =
    readFlag (db (a ++ "::prev_rule_enabled_state".toList))
  single_port : ∀ db a, db (a ++ "::internal_port".toList) = some ['0'] →
    (u.single db a).internal_port = 0
  range_enabled : ∀ db a, (u.range db a).enabled = readFlag (db (a ++ "::enabled".toList))
  range_prev : ∀ db a, (u.range db a).prevRuleEnabledState =
    readFlag (db (a ++ "::prev_rule_enabled_state".toList))
  range_port : ∀ db a, db (a ++ "::internal_port".toList) = some ['0'] →
    (u.range db a).internal_port = 0
  range_ip : ∀ db a t, db (a ++ "::public_ip".toList) = some t → (u.range db a).public_ip = t

structure RuleState where
  feature : Feature
  enabled : Bool
  prevRuleEnabledState : Bool

def singleState (r : PortFwdSingle) : RuleState :=
  ⟨r.feature, r.enabled, r.prevRuleEnabledState⟩

def rangeState (r : PortFwdRange) : RuleState := ⟨r.feature, r.enabled, r.prevRuleEnabledState⟩

def states (rules : Rules) : List RuleState :=
  rules.singles.map singleState ++ rules.ranges.map rangeState

/-- Every rule is enabled exactly when its saved state and the flag of its
feature are. -/
def Consistent (u : Utopia) (s : NatState) : Prop :=
  ∀ x ∈ states (u.rules s.db), x.enabled = (x.prevRuleEnabledState && storedFlag s.db x.feature)

/-- Switching a feature that is on off and, when no rule has been edited in
between, on again gives the rules that were there. -/
def Toggles (u : Utopia) (s : NatState) : Prop :=
  ∀ (f : Feature) (off on : RuleEdit) (s₁ s₂ t : NatState),
    (s.g_NatEnable f = true ∨ storedFlag s.db f = true) →
    cosaDmlNatSet u (Function.update s.g_NatEnable f false) off s = some s₁ →
    u.rules s₂.db = u.rules s₁.db → s₂.g_NatEnable = s₁.g_NatEnable →
    cosaDmlNatSet u (Function.update s₂.g_NatEnable f true) on s₂ = some t →
    u.rules t.db = u.rules s.db

/-- A step of the runs considered: a request is one only if it succeeds. -/
def ruleStep (u : Utopia) (s : NatState) : NatOp → Option NatState
  | .request rpm => (processPFWebConfigRequest noFaults rpm s.web).bind (fun r =>
      if r.1.ErrorCode = .BLOB_EXEC_SUCCESS then some { s with web := r.2 } else none)
  | .rollback => none
  | op => natStep u s op

variable {u : Utopia} {s t : NatState}

theorem natStep_of_ruleStep {op : NatOp}
    (h : ruleStep u s op = some t) : natStep u s op = some t := by
  cases op with
  | request rpm =>
    obtain ⟨r, hr, hsuccess⟩ := Option.bind_eq_some_iff.mp h
    obtain ⟨-, ht⟩ := Option.ite_none_right_eq_some.mp hsuccess
    rw [natStep, hr]
    exact ht
  | rollback => cases h
  | _ => exact h

theorem dots_eq_zero_iff (a : Addr) : dots a = "0.0.0.0".toList ↔ a = 0 := by
  have hzero : "0.0.0.0".toList = dots 0 := by decide +kernel
  rw [hzero]
  constructor
  · intro h
    unfold dots at h
    have hall := dotted_injective (by rfl) h
    simp only [List.cons.injEq, and_true] at hall
    obtain ⟨h0, h1, h2, h3⟩ := hall
    apply BitVec.eq_of_toNat_eq
    simp only [BitVec.extractLsb'_toNat, Nat.shiftRight_eq_div_pow] at h0 h1 h2 h3
    have hlt := a.isLt
    simp at h0 h1 h2 h3 ⊢
    omega
  · intro h
    rw [h]

variable {rules : Rules}

theorem mem_states_addPortMapping {e : PMapping} {x : RuleState} :
    x ∈ states (addPortMapping e rules) ↔
      x ∈ states rules ∨ x = ⟨e.feature, e.bEnabled, e.bEnabled⟩ := by
  have hport : e.InternalPort.toNat = 0 ↔ e.InternalPort = 0 := by
    rw [← BitVec.toNat_inj]
    rfl
  unfold addPortMapping
  split
  · next h =>
    have hfeature : e.feature =
        if e.InternalPort.toNat = 0 then .portForwarding else .hsPortForwarding := by
      rw [PMapping.feature, if_neg (not_not.mpr h.2)]
      simp only [hport]
    simp only [states, List.map_append, List.map_cons, List.map_nil, List.mem_append,
      List.mem_singleton, singleState, PortFwdSingle.feature, ← hfeature]
    tauto
  · have hfeature : e.feature = if dots e.PublicIP ≠ "0.0.0.0".toList then .natForwarding
        else if e.InternalPort.toNat = 0 then .portForwarding else .hsPortForwarding := by
      rw [PMapping.feature]
      simp only [ne_eq, dots_eq_zero_iff, hport]
    simp only [states, List.map_append, List.map_cons, List.map_nil, List.mem_append,
      List.mem_singleton, rangeState, PortFwdRange.feature, ← hfeature]
    tauto

variable {x : RuleState}

theorem states_delSingle {id : ℕ}
    (h : x ∈ states (delSingleByRuleId id rules)) : x ∈ states rules := by
  rcases List.mem_append.mp h with h | h
  · obtain ⟨r, hr, rfl⟩ := List.mem_map.mp h
    exact List.mem_append_left _ (List.mem_map_of_mem (List.mem_of_mem_eraseP hr))
  · exact List.mem_append_right _ h

theorem states_delRange {id : ℕ}
    (h : x ∈ states (delRangeByRuleId id rules)) : x ∈ states rules := by
  rcases List.mem_append.mp h with h | h
  · exact List.mem_append_left _ h
  · obtain ⟨r, hr, rfl⟩ := List.mem_map.mp h
    exact List.mem_append_right _ (List.mem_map_of_mem (List.mem_of_mem_eraseP hr))

theorem mem_states_updateEnable {enable : Feature → Option Bool} :
    x ∈ states (rules.updateEnable enable) ↔ ∃ y ∈ states rules, x = ⟨y.feature,
      updateRuleEnable (enable y.feature) y.enabled y.prevRuleEnabledState,
      y.prevRuleEnabledState⟩ := by
  simp only [states, Rules.updateEnable, List.map_map, List.mem_append, List.mem_map, or_and_right,
    exists_or]
  refine or_congr ?_ ?_
  · constructor
    · rintro ⟨r, hr, rfl⟩
      exact ⟨_, ⟨r, hr, rfl⟩, rfl⟩
    · rintro ⟨y, ⟨r, hr, rfl⟩, rfl⟩
      exact ⟨r, hr, rfl⟩
  · constructor
    · rintro ⟨r, hr, rfl⟩
      exact ⟨_, ⟨r, hr, rfl⟩, rfl⟩
    · rintro ⟨y, ⟨r, hr, rfl⟩, rfl⟩
      exact ⟨r, hr, rfl⟩

/-- The saved state of the i-th entry of a document; from the hundredth on its
name does not fit. -/
def prevText (db : Store CStr CStr) (single : Bool) (i : ℕ) : Option CStr :=
  if i < 100 then some ['1'] else db (aliasOf single i ++ "::prev_rule_enabled_state".toList)

/-- The stored flag after a request with entries: it is written only when the
module's own copy is off. -/
def flagAfter (s : NatState) : Bool :=
  if s.web.gpfEnable = 1 then storedFlag s.db .portForwarding else true

section Document

variable {u : Utopia} {readFlag : Option CStr → Bool} (hu : Reads u readFlag)
  {rules : List PortRule} {before after : Store CStr CStr}
  (h : DocumentStored rules before after) {m : ℕ} {r : PortRule} (hm : rules[m]? = some r)

include h hm

theorem document_attribute (suffix value : CStr) (hsuffix : suffix.length ≤ 24)
    (hp : ∃ safe, ∀ k, ⟨safe, aliasOf r.single (m + 1) ++ suffix, value⟩ ∈ r.records (m + 1) k) :
    after (aliasOf r.single (m + 1) ++ suffix) = some (value.take 128) := by
  obtain ⟨safe, hp⟩ := hp
  refine h.attribute hm hp ?_
  have hlt := (List.getElem?_eq_some_iff.mp hm).1
  have hsmall := h.small
  have hdigits := decimal_length_le_three (n := m + 1) (by omega)
  rw [List.length_append, aliasOf_length]
  omega

theorem document_prev : after (aliasOf r.single (m + 1) ++ "::prev_rule_enabled_state".toList) =
    prevText before r.single (m + 1) := by
  have hlen : "::prev_rule_enabled_state".toList.length = 25 := rfl
  unfold prevText
  split
  · next hi =>
    have hdigits : (decimal (m + 1)).length ≤ 2 := (decimal_length_le_iff (by omega)).mpr hi
    refine h.attribute (p := ⟨true, aliasOf r.single (m + 1) ++
      "::prev_rule_enabled_state".toList, ['1']⟩) hm (fun k => ?_) ?_
    · exact List.mem_append_right _ (by simp [ruleRecords])
    · rw [List.length_append, aliasOf_length, hlen]
      omega
  · next hi =>
    have hdigits : ¬ (decimal (m + 1)).length ≤ 2 :=
      fun hle => hi ((decimal_length_le_iff (by omega)).mp hle)
    refine h.kept _ ?_
    rw [List.length_append, aliasOf_length, hlen]
    omega

theorem document_enabled : after (aliasOf r.single (m + 1) ++ "::enabled".toList) =
    some (r.enable.take 128) :=
  document_attribute h hm "::enabled".toList r.enable (by decide)
    ⟨false, fun k => List.mem_append_left _ (List.mem_append_right _ (by simp [clientRecords]))⟩

theorem document_port : after (aliasOf r.single (m + 1) ++ "::internal_port".toList) =
    some ['0'] :=
  document_attribute h hm "::internal_port".toList ['0'] (by decide)
    ⟨true, fun k => List.mem_append_right _ (by simp [ruleRecords])⟩

theorem document_ip (hr : r.single = false) :
    after (aliasOf r.single (m + 1) ++ "::public_ip".toList) = some "0.0.0.0".toList := by
  refine document_attribute h hm "::public_ip".toList "0.0.0.0".toList (by decide)
    ⟨false, fun k => ?_⟩
  refine List.mem_append_left _ (List.mem_append_left _ ?_)
  rw [hr, if_neg Bool.false_ne_true]
  simp [rangeHead, aliasOf]

end Document

variable {readFlag : Option CStr → Bool}

theorem mem_states_document (hu : Reads u readFlag)
    {rules : List PortRule} {before after : Store CStr CStr}
    (h : DocumentStored rules before after) :
    x ∈ states (u.rules after) ↔ ∃ m r, rules[m]? = some r ∧ x = ⟨.portForwarding,
      readFlag (some (r.enable.take 128)), readFlag (prevText before r.single (m + 1))⟩ := by
  have hsingle : ∀ m r, rules[m]? = some r → r.single = true →
      singleState (u.single after (aliasOf true (m + 1))) = ⟨.portForwarding,
        readFlag (some (r.enable.take 128)), readFlag (prevText before r.single (m + 1))⟩ := by
    intro m r hm hr
    rw [← document_prev h hm, ← document_enabled h hm, singleState, PortFwdSingle.feature,
      hu.single_port _ _ (by rw [← hr]; exact document_port h hm), if_pos rfl, hu.single_enabled,
      hu.single_prev, hr]
  have hrange : ∀ m r, rules[m]? = some r → r.single = false →
      rangeState (u.range after (aliasOf false (m + 1))) = ⟨.portForwarding,
        readFlag (some (r.enable.take 128)), readFlag (prevText before r.single (m + 1))⟩ := by
    intro m r hm hr
    rw [← document_prev h hm, ← document_enabled h hm, rangeState, PortFwdRange.feature,
      hu.range_ip _ _ _ (by rw [← hr]; exact document_ip h hm hr), if_neg (not_not.mpr rfl),
      hu.range_port _ _ (by rw [← hr]; exact document_port h hm), if_pos rfl, hu.range_enabled,
      hu.range_prev, hr]
  rw [rules_of_document u h, states, List.mem_append, List.map_map, List.map_map, List.mem_map,
    List.mem_map]
  constructor
  · rintro (⟨i, hi, rfl⟩ | ⟨i, hi, rfl⟩)
    · obtain ⟨m, r, hm, hr, rfl⟩ := mem_entryIndices.mp hi
      rw [Nat.add_comm]
      exact ⟨m, r, hm, hsingle m r hm hr⟩
    · obtain ⟨m, r, hm, hr, rfl⟩ := mem_entryIndices.mp hi
      rw [Nat.add_comm]
      exact ⟨m, r, hm, hrange m r hm hr⟩
  · rintro ⟨m, r, hm, rfl⟩
    cases hr : r.single with
    | true =>
      refine Or.inl ⟨m + 1, mem_entryIndices.mpr ⟨m, r, hm, hr, Nat.add_comm m 1⟩, ?_⟩
      have hat := hsingle m r hm hr
      rw [hr] at hat
      exact hat
    | false =>
      refine Or.inr ⟨m + 1, mem_entryIndices.mpr ⟨m, r, hm, hr, Nat.add_comm m 1⟩, ?_⟩
      have hat := hrange m r hm hr
      rw [hr] at hat
      exact hat

variable {edit : RuleEdit}

theorem cosaDmlNatSet_rules {req : Feature → Bool} (h : cosaDmlNatSet u req edit s = some t) :
    u.rules t.db = (u.rules s.db).updateEnable (changedFlags s req) := by
  unfold cosaDmlNatSet at h
  split at h
  · next hnone =>
    have hnone' : changedFlags s req = fun _ => none := by
      funext f
      exact Option.isNone_iff_eq_none.mp (List.all_eq_true.mp hnone f (by cases f <;> decide))
    rw [← Option.some.inj h, hnone']
    simp [Rules.updateEnable, updateRuleEnable]
  · unfold updateNatPfHsEnable at h
    obtain ⟨hrules, h⟩ := Option.ite_none_right_eq_some.mp h
    rw [← Option.some.inj h]
    exact hrules

/-- What the runs keep: the two other features have one flag each, the rules are
consistent, and where the port-forwarding flags differ it does not show. -/
structure Kept (u : Utopia) (s : NatState) : Prop where
  guarded : Guarded s
  agree : ∀ f, f ≠ .portForwarding → s.g_NatEnable f = storedFlag s.db f
  consistent : Consistent u s
  unsaved : s.g_NatEnable .portForwarding = true → storedFlag s.db .portForwarding = false →
    ∀ x ∈ states (u.rules s.db), x.feature = .portForwarding → x.prevRuleEnabledState = false
  copy : s.web.gpfEnable = 1 → storedFlag s.db .portForwarding = false →
    s.g_NatEnable .portForwarding = false

variable {s : NatState}

theorem Kept.saved (hs : Kept u s) {f : Feature}
    (hf : s.g_NatEnable f = true ∨ storedFlag s.db f = true)
    (hx : x ∈ states (u.rules s.db)) (hfeature : x.feature = f) :
    x.prevRuleEnabledState = x.enabled := by
  have hc := hs.consistent x hx
  rw [hfeature] at hc
  cases hstored : storedFlag s.db f with
  | true => rw [hc, hstored, Bool.and_true]
  | false =>
    rw [hstored, Bool.and_false] at hc
    have hnat : s.g_NatEnable f = true :=
      hf.resolve_right (by rw [hstored]; exact Bool.false_ne_true)
    have hpf : f = .portForwarding := by
      by_contra hne
      rw [hs.agree f hne, hstored] at hnat
      cases hnat
    subst hpf
    rw [hc, hs.unsaved hnat hstored x hx hfeature]

theorem updateEnable_twice {e₁ e₂ : Feature → Option Bool}
    (h : ∀ x ∈ states rules, updateRuleEnable (e₂ x.feature)
      (updateRuleEnable (e₁ x.feature) x.enabled x.prevRuleEnabledState) x.prevRuleEnabledState =
        x.enabled) : (rules.updateEnable e₁).updateEnable e₂ = rules := by
  obtain ⟨singles, ranges⟩ := rules
  have hsingles : ∀ r ∈ singles, { r with enabled := (updateRuleEnable (e₂ r.feature)
      (updateRuleEnable (e₁ r.feature) r.enabled r.prevRuleEnabledState)
        r.prevRuleEnabledState) } = r := by
    intro r hr
    have hat := h _ (List.mem_append_left _ (List.mem_map_of_mem hr))
    exact congrArg (fun b => { r with enabled := b }) hat
  have hranges : ∀ r ∈ ranges, { r with enabled := (updateRuleEnable (e₂ r.feature)
      (updateRuleEnable (e₁ r.feature) r.enabled r.prevRuleEnabledState)
        r.prevRuleEnabledState) } = r := by
    intro r hr
    have hat := h _ (List.mem_append_right _ (List.mem_map_of_mem hr))
    exact congrArg (fun b => { r with enabled := b }) hat
  refine congrArg₂ Rules.mk ?_ ?_
  · exact (List.map_map ..).trans ((List.map_congr_left hsingles).trans (List.map_id _))
  · exact (List.map_map ..).trans ((List.map_congr_left hranges).trans (List.map_id _))

theorem toggles_of_kept (hs : Kept u s) : Toggles u s := by
  intro f off on s₁ s₂ t hf hoff hsame hnat hon
  have hnat₁ : s₁.g_NatEnable = Function.update s.g_NatEnable f false :=
    congrArg Flags.nat (cosaDmlNatSet_flags hs.guarded hoff).2
  rw [cosaDmlNatSet_rules hon, hsame, cosaDmlNatSet_rules hoff]
  have hother : ∀ g, g ≠ f →
      changedFlags s (Function.update s.g_NatEnable f false) g = none ∧
        changedFlags s₂ (Function.update s₂.g_NatEnable f true) g = none := by
    intro g hg
    simp [changedFlags, Function.update_of_ne hg]
  have hself : changedFlags s₂ (Function.update s₂.g_NatEnable f true) f = some true := by
    simp [changedFlags, hnat, hnat₁]
  apply updateEnable_twice
  intro x hx
  by_cases hfeature : x.feature = f
  · rw [hfeature, hself]
    exact hs.saved hf hx hfeature
  · rw [(hother _ hfeature).1, (hother _ hfeature).2]
    rfl

theorem kept_of_states (hs : Kept u s) (ht : Guarded t)
    (hview : flagView t = flagView s)
    (hstates : ∀ x ∈ states (u.rules t.db), x ∈ states (u.rules s.db) ∨
      (x.enabled = x.prevRuleEnabledState ∧
        (x.enabled = true → storedFlag s.db x.feature = true))) : Kept u t := by
  have hstored : ∀ f, storedFlag t.db f = storedFlag s.db f := by
    intro f
    unfold storedFlag
    rw [show t.db f.key = s.db f.key from congrFun (congrArg Flags.stored hview) f]
  have hnat : t.g_NatEnable = s.g_NatEnable := congrArg Flags.nat hview
  have hweb : t.web.gpfEnable = s.web.gpfEnable := congrArg Flags.web hview
  refine ⟨ht, fun f hf => ?_, fun x hx => ?_, fun hon hoff x hx hfeature => ?_, ?_⟩
  · rw [hnat, hstored]
    exact hs.agree f hf
  · rw [hstored]
    rcases hstates x hx with hx | ⟨hsame, hon⟩
    · exact hs.consistent x hx
    · cases hb : x.enabled with
      | false => rw [← hsame, hb, Bool.false_and]
      | true => rw [← hsame, hb, hon hb, Bool.true_and]
  · rw [hnat] at hon
    rw [hstored] at hoff
    rcases hstates x hx with hx | ⟨hsame, hon'⟩
    · exact hs.unsaved hon hoff x hx hfeature
    · rw [← hsame]
      by_contra hb
      rw [Bool.not_eq_false] at hb
      have hstored' := hon' hb
      rw [hfeature, hoff] at hstored'
      cases hstored'
  · rw [hweb, hstored, hnat]
    exact hs.copy

theorem storeRules_kept_iff (hs : Kept u s) {e : PMapping}
    {base : Rules} (hbase : ∀ x ∈ states base, x ∈ states (u.rules s.db))
    (h : storeRules u (addPortMapping e base) edit s = some t) :
    (Consistent u t → e.bEnabled = true → storedFlag s.db e.feature = true) ∧
      ((e.bEnabled = true → storedFlag s.db e.feature = true) → Kept u t) := by
  obtain ⟨ht, hview⟩ := storeRules_flags hs.guarded h
  obtain ⟨hrules, -⟩ := Option.ite_none_right_eq_some.mp h
  have hread : u.rules t.db = addPortMapping e base := by
    obtain ⟨-, h⟩ := Option.ite_none_right_eq_some.mp h
    rw [← Option.some.inj h]
    exact hrules
  constructor
  · intro hc hb
    have hat := hc ⟨e.feature, e.bEnabled, e.bEnabled⟩
      (by rw [hread]; exact mem_states_addPortMapping.mpr (Or.inr rfl))
    have hstored : storedFlag t.db e.feature = storedFlag s.db e.feature := by
      unfold storedFlag
      rw [show t.db e.feature.key = s.db e.feature.key from
        congrFun (congrArg Flags.stored hview) e.feature]
    dsimp only at hat
    rwa [hstored, hb, Bool.true_and, eq_comm] at hat
  · intro hon
    refine kept_of_states hs ht hview (fun x hx => ?_)
    rw [hread, mem_states_addPortMapping] at hx
    rcases hx with hx | rfl
    · exact Or.inl (hbase x hx)
    · exact Or.inr ⟨rfl, hon⟩

/-- When a step keeps the rules consistent. An entry is enabled only while the
stored flag of its feature is on; each entry of a document asks for what its
saved state and the flag after the request give. -/
def InStep (u : Utopia) (readFlag : Option CStr → Bool) (s : NatState) : NatOp → Prop
  | .add p e _ => entryOk u p e s = true → e.bEnabled = true →
      storedFlag s.db e.feature = true
  | .setMapping p e _ => entryOk u p e s = true → e.bEnabled = true →
      storedFlag s.db e.feature = true
  | .request rpm => ∀ m e, rpm[m]? = some e → readFlag (e.enable.map (List.take 128)) =
      (readFlag (prevText s.db (isSingle e) (m + 1)) && flagAfter s)
  | _ => True

theorem cosaDmlNatSet_kept {req : Feature → Bool}
    (hs : Kept u s) (h : cosaDmlNatSet u req edit s = some t) : Kept u t := by
  obtain ⟨ht, hview⟩ := cosaDmlNatSet_flags hs.guarded h
  have hnat : t.g_NatEnable = req := congrArg Flags.nat hview
  have hweb : t.web.gpfEnable = s.web.gpfEnable := congrArg Flags.web hview
  have hstored : ∀ f, storedFlag t.db f = (changedFlags s req f).getD (storedFlag s.db f) := by
    intro f
    have hdb : t.db f.key = if req f ≠ s.g_NatEnable f then some (boolText (req f))
        else s.db f.key := congrFun (congrArg Flags.stored hview) f
    unfold storedFlag changedFlags
    rw [hdb]
    split
    · cases req f <;> rfl
    · rfl
  have hrules := cosaDmlNatSet_rules h
  have hunchanged : ∀ f, storedFlag t.db f = false → t.g_NatEnable f = true →
      storedFlag s.db f = false ∧ s.g_NatEnable f = true := by
    intro f hoff hon
    rw [hstored, changedFlags] at hoff
    rw [hnat] at hon
    split at hoff
    · rw [Option.getD_some, hon] at hoff
      cases hoff
    · next hsame =>
      rw [not_not, hon] at hsame
      exact ⟨hoff, hsame.symm⟩
  refine ⟨ht, fun f hf => ?_, fun x hx => ?_, fun hon hoff x hx hfeature => ?_, fun hc hoff => ?_⟩
  · rw [hnat, hstored, changedFlags]
    split
    · rfl
    · next hsame =>
      rw [not_not] at hsame
      rw [hsame]
      exact hs.agree f hf
  · rw [hrules, mem_states_updateEnable] at hx
    obtain ⟨y, hy, rfl⟩ := hx
    have hc := hs.consistent y hy
    dsimp only
    rw [hstored]
    cases changedFlags s req y.feature with
    | none => exact hc
    | some b =>
      cases b
      · exact (Bool.and_false _).symm
      · exact (Bool.and_true _).symm
  · rw [hrules, mem_states_updateEnable] at hx
    obtain ⟨y, hy, rfl⟩ := hx
    obtain ⟨hoff', hon'⟩ := hunchanged _ hoff hon
    exact hs.unsaved hon' hoff' y hy hfeature
  · by_contra hon
    rw [Bool.not_eq_false] at hon
    obtain ⟨hoff', hon'⟩ := hunchanged _ hoff hon
    rw [hweb] at hc
    rw [hs.copy hc hoff'] at hon'
    cases hon'

theorem forall₂_getElem? {α β : Type} {R : α → β → Prop} {l : List α} {l' : List β}
    (h : List.Forall₂ R l l') (m : ℕ) :
    (∀ a, l[m]? = some a → ∃ b, l'[m]? = some b ∧ R a b) ∧
      ∀ b, l'[m]? = some b → ∃ a, l[m]? = some a ∧ R a b := by
  induction h generalizing m with
  | nil => exact ⟨fun a ha => (by cases ha), fun b hb => (by cases hb)⟩
  | cons hab _ ih =>
    cases m with
    | zero =>
      refine ⟨fun a ha => ⟨_, rfl, ?_⟩, fun b hb => ⟨_, rfl, ?_⟩⟩
      · rw [List.getElem?_cons_zero, Option.some.injEq] at ha
        rwa [← ha]
      · rw [List.getElem?_cons_zero, Option.some.injEq] at hb
        rwa [← hb]
    | succ m => exact ih m

theorem request_kept_iff (hu : Reads u readFlag) {rpm : List Portdoc} (hs : Kept u s)
    (h : ruleStep u s (.request rpm) = some t) :
    (Consistent u t ↔ InStep u readFlag s (.request rpm)) ∧ (Consistent u t → Kept u t) := by
  have hstep := natStep_of_ruleStep h
  obtain ⟨ht, hview⟩ := natStep_flags hs.guarded hstep
  obtain ⟨⟨err, web⟩, hreq, hsuccess⟩ := Option.bind_eq_some_iff.mp h
  obtain ⟨herr, hweb⟩ := Option.ite_none_right_eq_some.mp hsuccess
  obtain ⟨rules, hrules, hdocument⟩ := documentStored_of_request hreq herr
  have haccepted := (processPFWebConfigRequest_flags hs.guarded.pf_cache hs.guarded.pf_cache_bkup
    hreq).2.2.1.mp herr
  have hdb : t.db = web.sc.db := by
    rw [← Option.some.inj hweb]
    rfl
  simp only [flagStep, haccepted, if_true] at hview
  have hnat : t.g_NatEnable = s.g_NatEnable := congrArg Flags.nat hview
  have hcopy : t.web.gpfEnable = lpfEnable rpm := congrArg Flags.web hview
  have hstored : ∀ f : Feature, t.db f.key = if s.web.gpfEnable ≠ lpfEnable rpm ∧
      f = .portForwarding then some (flagText (lpfEnable rpm)) else s.db f.key :=
    fun f => congrFun (congrArg Flags.stored hview) f
  have hother : ∀ f, f ≠ .portForwarding → storedFlag t.db f = storedFlag s.db f := by
    intro f hf
    unfold storedFlag
    rw [hstored, if_neg (fun hall => hf hall.2)]
  have hflag : rpm ≠ [] → storedFlag t.db .portForwarding = flagAfter s := by
    intro hne
    have hlpf : lpfEnable rpm = 1 := if_pos (List.length_pos_iff.mpr hne)
    unfold storedFlag flagAfter
    rw [hstored, hlpf]
    by_cases hgpf : s.web.gpfEnable = 1
    · rw [if_neg (fun hall => hall.1 hgpf), if_pos hgpf]
      rfl
    · rw [if_pos ⟨hgpf, rfl⟩, if_neg hgpf]
      rfl
  have hnonempty : ∀ {m : ℕ} {e : Portdoc}, rpm[m]? = some e → rpm ≠ [] := by
    rintro m e hm rfl
    cases hm
  have hstates : ∀ x, x ∈ states (u.rules t.db) ↔ ∃ m e, rpm[m]? = some e ∧
      x = ⟨.portForwarding, readFlag (e.enable.map (List.take 128)),
        readFlag (prevText s.db (isSingle e) (m + 1))⟩ := by
    intro x
    rw [hdb, mem_states_document hu hdocument]
    constructor
    · rintro ⟨m, r, hm, rfl⟩
      obtain ⟨e, he, hr⟩ := (forall₂_getElem? hrules m).2 r hm
      refine ⟨m, e, he, ?_⟩
      rw [hr.enable, hr.single]
      rfl
    · rintro ⟨m, e, he, rfl⟩
      obtain ⟨r, hm, hr⟩ := (forall₂_getElem? hrules m).1 e he
      refine ⟨m, r, hm, ?_⟩
      rw [hr.enable, hr.single]
      rfl
  constructor
  · constructor
    · intro hc m e he
      have hat := hc _ ((hstates _).mpr ⟨m, e, he, rfl⟩)
      dsimp only at hat
      rwa [hflag (hnonempty he)] at hat
    · intro hin x hx
      obtain ⟨m, e, he, rfl⟩ := (hstates x).mp hx
      dsimp only
      rw [hflag (hnonempty he)]
      exact hin m e he
  · intro hc
    have hstale : rpm ≠ [] → storedFlag t.db .portForwarding = false →
        t.g_NatEnable .portForwarding = false := by
      intro hne hoff
      rw [hflag hne, flagAfter] at hoff
      split at hoff
      · next hgpf =>
        rw [hnat]
        exact hs.copy hgpf hoff
      · cases hoff
    refine ⟨ht, fun f hf => ?_, hc, fun hon hoff x hx _ => ?_, fun hgpf hoff => ?_⟩
    · rw [hnat, hother f hf]
      exact hs.agree f hf
    · obtain ⟨m, e, he, -⟩ := (hstates x).mp hx
      rw [hstale (hnonempty he) hoff] at hon
      cases hon
    · refine hstale ?_ hoff
      rintro rfl
      rw [hcopy] at hgpf
      cases hgpf

theorem consistent_iff (hu : Reads u readFlag) {op : NatOp} (hs : Kept u s)
    (h : ruleStep u s op = some t) :
    (Consistent u t ↔ InStep u readFlag s op) ∧ (InStep u readFlag s op → Kept u t) := by
  have hsame : some s = some t → (Consistent u t ↔ True) ∧ (True → Kept u t) := by
    intro hst
    rw [← Option.some.inj hst]
    exact ⟨iff_of_true hs.consistent trivial, fun _ => hs⟩
  have hadded : ∀ {p e edit} {base : Rules},
      (∀ x ∈ states base, x ∈ states (u.rules s.db)) →
      (if entryOk u p e s then storeRules u (addPortMapping e base) edit s else some s) = some t →
      (Consistent u t ↔ (entryOk u p e s = true → e.bEnabled = true →
        storedFlag s.db e.feature = true)) ∧ ((entryOk u p e s = true → e.bEnabled = true →
          storedFlag s.db e.feature = true) → Kept u t) := by
    intro p e edit base hbase hif
    split at hif
    · next hok =>
      obtain ⟨hnec, hkept⟩ := storeRules_kept_iff hs hbase hif
      exact ⟨⟨fun hc _ => hnec hc, fun hin => (hkept (hin hok)).consistent⟩,
        fun hin => hkept (hin hok)⟩
    · next hno =>
      obtain ⟨-, hkept⟩ := hsame hif
      exact ⟨iff_of_true (hkept trivial).consistent (fun hok => absurd hok hno),
        fun _ => hkept trivial⟩
  have hdeleted : ∀ {rules : Rules} {edit}, (∀ x ∈ states rules, x ∈ states (u.rules s.db)) →
      storeRules u rules edit s = some t → (Consistent u t ↔ True) ∧ (True → Kept u t) := by
    intro rules edit hsub hstore
    obtain ⟨ht, hview⟩ := storeRules_flags hs.guarded hstore
    have hread : u.rules t.db = rules := by
      obtain ⟨hrules, hst⟩ := Option.ite_none_right_eq_some.mp hstore
      rw [← Option.some.inj hst]
      exact hrules
    have hkept : Kept u t := kept_of_states hs ht hview (fun x hx => by
      rw [hread] at hx
      exact Or.inl (hsub x hx))
    exact ⟨iff_of_true hkept.consistent trivial, fun _ => hkept⟩
  cases op with
  | add p e edit => exact hadded (fun x hx => hx) h
  | setMapping p e edit =>
    exact hadded (fun x hx => states_delRange (states_delSingle hx)) h
  | del ulInstanceNumber edit =>
    simp only [ruleStep, natStep, cosaDmlNatDelPortMapping] at h
    split at h
    · exact hsame h
    · split at h
      · exact hdeleted (fun x hx => states_delSingle hx) h
      · split at h
        · exact hdeleted (fun x hx => states_delRange hx) h
        · exact hsame h
  | natSet req edit =>
    have hkept := cosaDmlNatSet_kept hs h
    exact ⟨iff_of_true hkept.consistent trivial, fun _ => hkept⟩
  | request rpm =>
    obtain ⟨hiff, hkept⟩ := request_kept_iff hu hs h
    exact ⟨hiff, fun hin => hkept (hiff.mpr hin)⟩
  | rollback => cases h

theorem initFlag_eq (db : Store CStr CStr) (f : Feature) : initFlag db f = storedFlag db f := by
  have htake : ∀ t : CStr, t.take 24 = ['1'] ↔ t = ['1'] := by
    intro t
    rcases t with _ | ⟨c, _ | ⟨c', rest⟩⟩ <;> simp
  unfold initFlag storedFlag textAt
  rw [Buf.text_snprintf, Bool.eq_iff_iff, beq_iff_eq, beq_iff_eq, htake]
  cases db f.key <;> simp

theorem kept_boot {db : Store CStr CStr}
    (hboot : NatState.boot db = some s) (hempty : u.rules db = ⟨[], []⟩) : Kept u s := by
  obtain ⟨hs, hview⟩ := boot_flags hboot
  have hdb : s.db = db := by
    obtain ⟨web, hweb, rfl⟩ := Option.map_eq_some_iff.mp hboot
    exact (initPfCache_boot hweb).2.2.1
  have hnat : ∀ f, s.g_NatEnable f = storedFlag s.db f := by
    intro f
    rw [hdb, ← initFlag_eq]
    exact congrFun (congrArg Flags.nat hview) f
  have hnone : ∀ x, x ∉ states (u.rules s.db) := by
    intro x hx
    rw [hdb, hempty] at hx
    cases hx
  refine ⟨hs, fun f _ => hnat f, fun x hx => absurd hx (hnone x),
    fun _ _ x hx => absurd hx (hnone x), fun _ hoff => ?_⟩
  rw [hnat, hoff]

/-- From an empty rule store on, the rules are consistent and every feature can
be switched off and on again after each operation exactly in the runs whose
steps all meet the condition. -/
theorem natRun_toggles_iff (u : Utopia) (readFlag : Option CStr → Bool) (hu : Reads u readFlag)
    (db : Store CStr CStr) (ops : List NatOp) (s t : NatState)
    (hempty : u.rules db = ⟨[], []⟩) (hboot : NatState.boot db = some s)
    (hrun : run (ruleStep u) s ops = some t) :
    Along (ruleStep u) (fun _ _ t => Consistent u t ∧ Toggles u t) s ops ↔
      StepsMeet (ruleStep u) (InStep u readFlag) s ops := by
  refine along_iff (ruleStep u) (Kept u) ?_ ?_ (kept_boot hboot hempty) hrun
  · intro s op t hs h
    obtain ⟨hiff, hkept⟩ := consistent_iff hu hs h
    exact ⟨fun hboth => hiff.mp hboth.1,
      fun hin => ⟨hiff.mpr hin, toggles_of_kept (hkept hin)⟩⟩
  · intro s op t hs hin h
    exact (consistent_iff hu hs h).2 hin

def readOne (t : Option CStr) : Bool := t.getD [] == ['1']

theorem reader_reads : Reads reader readOne where
  one := rfl
  single_enabled _ _ := rfl
  single_prev _ _ := rfl
  single_port db a h := by
    have hzero : (atoi ['0']).toNat = 0 := by decide
    simp only [reader, textAt, h, Option.getD_some, hzero]
  range_enabled _ _ := rfl
  range_prev _ _ := rfl
  range_port db a h := by
    have hzero : (atoi ['0']).toNat = 0 := by decide
    simp only [reader, textAt, h, Option.getD_some, hzero]
  range_ip db a t h := by
    simp only [reader, textAt, h, Option.getD_some]

def switchFirst (enabled : Bool) : RuleEdit where
  apply db := set db "spf_1::enabled".toList (boolText enabled)
  flags db f := set_of_ne db _ (by cases f <;> decide)

def offAndOn : List NatOp :=
  [.natSet (fun _ => false) (switchFirst false), .natSet onlyPortForwarding (switchFirst true)]

/-- An enabled entry, switched off and on. -/
theorem natRun_toggles_enabled : ∃ s t, NatState.boot (flagStore true) = some s ∧
    run (ruleStep reader) s (.request [portdoc "80" "80"] :: offAndOn) = some t ∧
    Along (ruleStep reader) (fun _ _ t => Consistent reader t ∧ Toggles reader t) s
      (.request [portdoc "80" "80"] :: offAndOn) := by
  have hdone : ((NatState.boot (flagStore true)).bind (fun s => run (ruleStep reader) s
      (.request [portdoc "80" "80"] :: offAndOn))).isSome := by
    decide +kernel
  obtain ⟨t, ht⟩ := Option.isSome_iff_exists.mp hdone
  obtain ⟨s, hboot, hrun⟩ := Option.bind_eq_some_iff.mp ht
  refine ⟨s, t, hboot, hrun, (natRun_toggles_iff reader readOne reader_reads (flagStore true) _ s t
    rfl hboot hrun).mpr ⟨fun m e he => ?_, fun _ _ => ⟨trivial, fun _ _ => ⟨trivial,
      fun _ _ => trivial⟩⟩⟩⟩
  have hflag : flagAfter s = true := by
    unfold flagAfter storedFlag
    rw [show s.db (Feature.key .portForwarding) = some ['1'] from
      congrFun (congrArg Flags.stored (boot_flags hboot).2) .portForwarding]
    split <;> rfl
  cases m with
  | zero =>
    rw [List.getElem?_cons_zero, Option.some.injEq] at he
    rw [← he, hflag]
    rfl
  | succ m => cases he

def disabledEntry : Portdoc := { portdoc "80" "80" with enable := some ['0'] }

/-- A disabled entry of a document gets the saved state of an enabled one, so
that switching the feature off and on enables it. -/
theorem natRun_toggle_enables : ¬ ∀ (u : Utopia) (readFlag : Option CStr → Bool)
    (db : Store CStr CStr) (ops : List NatOp) (s t : NatState), Reads u readFlag →
    u.rules db = ⟨[], []⟩ → NatState.boot db = some s → run (ruleStep u) s ops = some t →
    Consistent u t ∨ Toggles u t := by
  intro hclaim
  have hrun : (NatState.boot (flagStore true)).bind (fun s =>
      (run (ruleStep reader) s [.request [disabledEntry]]).bind (fun t =>
        (cosaDmlNatSet reader (Function.update t.g_NatEnable .portForwarding false) noEdit t).bind
          (fun s₁ => (cosaDmlNatSet reader (Function.update s₁.g_NatEnable .portForwarding true)
            (switchFirst true) s₁).map (fun t' => (storedFlag t.db .portForwarding,
              (states (reader.rules t.db)).map (fun x =>
                (x.feature, x.enabled, x.prevRuleEnabledState)),
              (states (reader.rules t'.db)).map (fun x =>
                (x.feature, x.enabled, x.prevRuleEnabledState))))))) =
      some (true, [(.portForwarding, false, true)], [(.portForwarding, true, true)]) := by
    decide +kernel
  obtain ⟨s, hboot, hrun⟩ := Option.bind_eq_some_iff.mp hrun
  obtain ⟨t, ht, hrun⟩ := Option.bind_eq_some_iff.mp hrun
  obtain ⟨s₁, hoff, hrun⟩ := Option.bind_eq_some_iff.mp hrun
  obtain ⟨t', hon, hval⟩ := Option.map_eq_some_iff.mp hrun
  rw [Prod.mk.injEq, Prod.mk.injEq] at hval
  obtain ⟨hflag, hbefore, hafter⟩ := hval
  rcases hclaim reader readOne (flagStore true) _ s t reader_reads rfl hboot ht with hc | htoggle
  · have hmem : (Feature.portForwarding, false, true) ∈ (states (reader.rules t.db)).map (fun x =>
        (x.feature, x.enabled, x.prevRuleEnabledState)) := by
      rw [hbefore]
      exact List.mem_cons_self
    obtain ⟨x, hx, hval⟩ := List.mem_map.mp hmem
    rw [Prod.mk.injEq, Prod.mk.injEq] at hval
    have hat := hc x hx
    rw [hval.1, hval.2.1, hval.2.2, hflag] at hat
    cases hat
  · have hsame := htoggle .portForwarding noEdit (switchFirst true) s₁ s₁ t' (Or.inr hflag) hoff rfl
      rfl hon
    rw [hsame, hbefore] at hafter
    cases hafter

end CcspPandM.NatToggle
