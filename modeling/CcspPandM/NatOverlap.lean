import CcspPandM.NatToggle

/-!
The external ports of the enabled rules. An entry of the data model is checked
against the rules that are enabled at that time; the toggles enable saved rules
and the webconfig documents write rules without such a check. A call may fail to
get a context, for the check or for itself.
-/
namespace CcspPandM.NatOverlap

open CString KeyStore FaultyStore Syscfg SubdocDecoders CacheRecords InetText Ipv4Addr
  PortForwardCache PortForwardRequest NatRules NatFlags NatDocument NatToggle Runs

structure PortUse where
  enabled : Bool
  publicIp : Bool
  start_port : ℕ
  end_port : ℕ
  protocol : PfProtocol
  deriving DecidableEq

structure StoredUse extends PortUse where
  rule_id : ℕ
  feature : Feature
  prevRuleEnabledState : Bool

def singleUse (r : PortFwdSingle) : StoredUse where
  enabled := r.enabled
  publicIp := false
  start_port := r.external_port
  end_port := r.external_port
  protocol := r.protocol
  rule_id := r.rule_id
  feature := r.feature
  prevRuleEnabledState := r.prevRuleEnabledState

def rangeUse (r : PortFwdRange) : StoredUse where
  enabled := r.enabled
  publicIp := decide (r.public_ip ≠ "0.0.0.0".toList)
  start_port := r.start_port
  end_port := r.end_port
  protocol := r.protocol
  rule_id := r.rule_id
  feature := r.feature
  prevRuleEnabledState := r.prevRuleEnabledState

def uses (rules : Rules) : List StoredUse :=
  rules.singles.map singleUse ++ rules.ranges.map rangeUse

def entryUse (e : PMapping) : PortUse where
  enabled := e.bEnabled
  publicIp := decide (e.PublicIP ≠ 0)
  start_port := e.ExternalPort.toNat
  end_port := e.ExternalPortEndRange.toNat
  protocol := sb2UPfProtocol e.Protocol

def meets : PfProtocol → PfProtocol → Bool
  | .TCP, .UDP => false
  | .UDP, .TCP => false
  | _, _ => true

def Overlap (a b : PortUse) : Prop :=
  a.start_port ≤ b.end_port ∧ b.start_port ≤ a.end_port ∧ meets a.protocol b.protocol = true

instance (a b : PortUse) : Decidable (Overlap a b) :=
  inferInstanceAs (Decidable (_ ∧ _ ∧ _))

/-- Both are enabled without a public IP, and they overlap. -/
def Clash (a b : PortUse) : Prop :=
  (a.enabled = true ∧ a.publicIp = false) ∧ (b.enabled = true ∧ b.publicIp = false) ∧ Overlap a b

/-- No two enabled rules without a public IP overlap. -/
def NoOverlap (rules : Rules) : Prop :=
  ((uses rules).map StoredUse.toPortUse).Pairwise (fun a b => ¬ Clash a b)

/-- `Utopia_CheckPortRange`: no other enabled rule overlaps the ports of the entry. -/
def ChecksOverlap (checkPortRange : Rules → PMapping → Bool) : Prop :=
  ∀ rules e, checkPortRange rules e = true ↔ ∀ a ∈ uses rules, a.enabled = true →
    a.rule_id ≠ e.InstanceNumber → ¬ Overlap a.toPortUse (entryUse e)

/-- Which of the contexts of a call there are, and the LAN it reads. -/
structure Contexts where
  lan : Option LanSettings
  check : Bool
  call : Bool

/-- Without a context `CosaDmlNatChkPortRange` returns a code other than FALSE. -/
def Contexts.platform (c : Contexts) (checkPortRange : Rules → PMapping → Bool) : Platform where
  lan := c.lan
  checkPortRange rules e := !c.check || checkPortRange rules e

inductive RuleCall where
  | add (c : Contexts) (e : PMapping) (edit : RuleEdit)
  | setMapping (c : Contexts) (e : PMapping) (edit : RuleEdit)
  | del (call : Bool) (ulInstanceNumber : ℕ) (edit : RuleEdit)
  | natSet (call : Bool) (req : Feature → Bool) (edit : RuleEdit)
  | request (rpm : List Portdoc)

/-- One call; without a context of its own it leaves everything. -/
def callStep (u : Utopia) (checkPortRange : Rules → PMapping → Bool) (s : NatState) :
    RuleCall → Option NatState
  | .add c e edit =>
    if c.call then ruleStep u s (.add (c.platform checkPortRange) e edit) else some s
  | .setMapping c e edit =>
    if c.call then ruleStep u s (.setMapping (c.platform checkPortRange) e edit) else some s
  | .del call ulInstanceNumber edit =>
    if call then ruleStep u s (.del ulInstanceNumber edit) else some s
  | .natSet call req edit => if call then ruleStep u s (.natSet req edit) else some s
  | .request rpm => ruleStep u s (.request rpm)

structure Readers where
  flag : Option CStr → Bool
  port : Option CStr → ℕ
  range : Option CStr → ℕ × ℕ
  protocol : Option CStr → PfProtocol

structure ReadsPorts (u : Utopia) (r : Readers) : Prop extends Reads u r.flag where
  single_external : ∀ db a, (u.single db a).external_port =
    r.port (db (a ++ "::external_port".toList))
  single_protocol : ∀ db a, (u.single db a).protocol = r.protocol (db (a ++ "::protocol".toList))
  range_external : ∀ db a, ((u.range db a).start_port, (u.range db a).end_port) =
    r.range (db (a ++ "::external_port_range".toList))
  range_protocol : ∀ db a, (u.range db a).protocol = r.protocol (db (a ++ "::protocol".toList))

def rangeText (first last : CStr) : CStr := first ++ ' ' :: last

def portdocUse (r : Readers) (e : Portdoc) : PortUse where
  enabled := r.flag (e.enable.map (List.take 128))
  publicIp := false
  start_port := if isSingle e then r.port (e.external_port.map (List.take 128))
    else (r.range ((Option.map₂ rangeText e.external_port e.external_port_end_range).map
      (List.take 128))).1
  end_port := if isSingle e then r.port (e.external_port.map (List.take 128))
    else (r.range ((Option.map₂ rangeText e.external_port e.external_port_end_range).map
      (List.take 128))).2
  protocol := r.protocol ((e.protocol.bind protocolText).map (List.take 128))

def StoredUse.toggled (enable : Feature → Option Bool) (a : StoredUse) : StoredUse :=
  { a with enabled := updateRuleEnable (enable a.feature) a.enabled a.prevRuleEnabledState }

/-- The switch enables a rule that is not. -/
def StoredUse.Raised (enable : Feature → Option Bool) (a : StoredUse) : Prop :=
  a.enabled = false ∧ (a.toggled enable).enabled = true

/-- An accepted entry finds the ports of the rules free that the check did not
look at: all without a context, and always those of its own number. -/
def EntryFree (u : Utopia) (p : Platform) (c : Contexts) (e : PMapping) (s : NatState)
    (base : Rules) : Prop :=
  entryOk u p e s = true → ∀ a ∈ uses base, c.check = false ∨ a.rule_id = e.InstanceNumber →
    ¬ Clash a.toPortUse (entryUse e)

/-- When a call keeps the ports apart: the entries that are not checked overlap
nothing, no rule that a toggle enables overlaps one that is enabled after it,
and no two entries of a document overlap. -/
def PortsFree (u : Utopia) (r : Readers) (checkPortRange : Rules → PMapping → Bool) (s : NatState) :
    RuleCall → Prop
  | .add c e _ => c.call = true →
      EntryFree u (c.platform checkPortRange) c e s (u.rules s.db)
  | .setMapping c e _ => c.call = true →
      EntryFree u (c.platform checkPortRange) c e s (delSingleByRuleId e.InstanceNumber
        (delRangeByRuleId e.InstanceNumber (u.rules s.db)))
  | .del _ _ _ => True
  | .natSet call req _ => call = true →
      (uses (u.rules s.db)).Pairwise (fun a b =>
        a.Raised (changedFlags s req) ∨ b.Raised (changedFlags s req) →
          ¬ Clash (a.toggled (changedFlags s req)).toPortUse
            (b.toggled (changedFlags s req)).toPortUse)
  | .request rpm => (rpm.map (portdocUse r)).Pairwise (fun a b => ¬ Clash a b)

variable (a b : PortUse)

theorem overlap_symm (h : Overlap a b) : Overlap b a := by
  obtain ⟨h1, h2, hmeets⟩ := h
  refine ⟨h2, h1, ?_⟩
  revert hmeets
  cases a.protocol <;> cases b.protocol <;> exact id

theorem clash_symm (h : Clash a b) : Clash b a :=
  ⟨h.2.1, h.1, overlap_symm a b h.2.2⟩

theorem apart_symm (h : ¬ Clash a b) : ¬ Clash b a :=
  fun hba => h (clash_symm b a hba)

theorem noOverlap_perm (rules : Rules) (l : List PortUse)
    (h : ((uses rules).map StoredUse.toPortUse).Perm l) :
    NoOverlap rules ↔ l.Pairwise (fun a b => ¬ Clash a b) :=
  h.pairwise_iff (fun {a b} => apart_symm a b)

theorem uses_addPortMapping (e : PMapping) (base : Rules) :
    ((uses (addPortMapping e base)).map StoredUse.toPortUse).Perm
      (entryUse e :: (uses base).map StoredUse.toPortUse) := by
  unfold addPortMapping
  split
  · next h =>
    have hnew : entryUse e = ⟨e.bEnabled, false, e.ExternalPort.toNat, e.ExternalPort.toNat,
        sb2UPfProtocol e.Protocol⟩ := by
      simp [entryUse, h.1, h.2]
    simp only [uses, List.map_append, List.map_cons, List.map_nil, List.append_assoc, hnew]
    exact List.perm_middle
  · have hnew : entryUse e = ⟨e.bEnabled, decide (dots e.PublicIP ≠ "0.0.0.0".toList),
        e.ExternalPort.toNat, e.ExternalPortEndRange.toNat, sb2UPfProtocol e.Protocol⟩ := by
      simp only [entryUse, ne_eq, dots_eq_zero_iff]
    simp only [uses, List.map_append, List.map_cons, List.map_nil, ← List.append_assoc, hnew]
    exact List.perm_append_singleton _ _

theorem noOverlap_add_iff (e : PMapping) (base : Rules) :
    NoOverlap (addPortMapping e base) ↔
      NoOverlap base ∧ ∀ a ∈ uses base, ¬ Clash a.toPortUse (entryUse e) := by
  rw [noOverlap_perm _ _ (uses_addPortMapping e base), List.pairwise_cons, and_comm,
    List.forall_mem_map]
  refine and_congr_right (fun _ => forall₂_congr (fun a _ => ?_))
  exact ⟨apart_symm _ _, apart_symm _ _⟩

theorem uses_delSingle (id : ℕ) (rules : Rules) :
    (uses (delSingleByRuleId id rules)).Sublist (uses rules) :=
  ((List.eraseP_sublist).map singleUse).append_right _

theorem uses_delRange (id : ℕ) (rules : Rules) :
    (uses (delRangeByRuleId id rules)).Sublist (uses rules) :=
  ((List.eraseP_sublist).map rangeUse).append_left _

theorem noOverlap_sublist (rules rules' : Rules) (hsub : (uses rules').Sublist (uses rules))
    (h : NoOverlap rules) : NoOverlap rules' :=
  List.Pairwise.sublist (hsub.map StoredUse.toPortUse) h

theorem uses_updateEnable (enable : Feature → Option Bool) (rules : Rules) :
    uses (rules.updateEnable enable) = (uses rules).map (StoredUse.toggled enable) := by
  simp only [uses, Rules.updateEnable, List.map_append, List.map_map]
  rfl

theorem noOverlap_updateEnable_iff (enable : Feature → Option Bool) (rules : Rules)
    (h : NoOverlap rules) :
    NoOverlap (rules.updateEnable enable) ↔ (uses rules).Pairwise (fun a b =>
      a.Raised enable ∨ b.Raised enable →
        ¬ Clash (a.toggled enable).toPortUse (b.toggled enable).toPortUse) := by
  have hbefore : (uses rules).Pairwise (fun a b => ¬ Clash a.toPortUse b.toPortUse) :=
    List.pairwise_map.mp h
  rw [NoOverlap, uses_updateEnable, List.map_map, List.pairwise_map]
  constructor
  · intro hafter
    exact hafter.imp (fun {a b} hab (_ : a.Raised enable ∨ b.Raised enable) => hab)
  · intro hraised
    refine (hbefore.and hraised).imp (fun {a b} hab hclash => ?_)
    obtain ⟨hapart, hswitch⟩ := hab
    have hkept : ∀ c : StoredUse, (c.toggled enable).enabled = true → ¬ c.Raised enable →
        c.enabled = true := by
      intro c hon hnot
      by_contra hoff
      exact hnot ⟨Bool.eq_false_of_not_eq_true hoff, hon⟩
    by_cases hany : a.Raised enable ∨ b.Raised enable
    · exact hswitch hany hclash
    · rw [not_or] at hany
      obtain ⟨⟨ha, haip⟩, ⟨hb, hbip⟩, hover⟩ := hclash
      exact hapart ⟨⟨hkept a ha hany.1, haip⟩, ⟨hkept b hb hany.2, hbip⟩, hover⟩

theorem checked_apart (u : Utopia) (checkPortRange : Rules → PMapping → Bool)
    (hcheck : ChecksOverlap checkPortRange) (c : Contexts) (e : PMapping) (s : NatState)
    (hc : c.check = true) (hok : entryOk u (c.platform checkPortRange) e s = true)
    (a : StoredUse) (ha : a ∈ uses (u.rules s.db)) (hid : a.rule_id ≠ e.InstanceNumber) :
    ¬ Clash a.toPortUse (entryUse e) := by
  rintro ⟨⟨hon, -⟩, ⟨he, hip⟩, hover⟩
  have hpublic : e.PublicIP = 0 := by
    simpa [entryUse] using hip
  have henabled : e.bEnabled = true := he
  have hfree : checkPortRange (u.rules s.db) e = true := by
    unfold entryOk checkPfParameter at hok
    rw [Bool.and_eq_true, Bool.and_eq_true] at hok
    have hports := hok.1.1
    simp only [hpublic, beq_self_eq_true, Bool.true_and, Bool.not_eq_true', Bool.or_eq_false_iff,
      Bool.not_eq_false'] at hports
    simpa [chkPortRange, Contexts.platform, henabled, hc] using hports.2
  exact (hcheck _ _).mp hfree a ha hon hid hover

theorem storeRules_rules (u : Utopia) (rules : Rules) (edit : RuleEdit) (s t : NatState)
    (h : storeRules u rules edit s = some t) : u.rules t.db = rules := by
  obtain ⟨hrules, ht⟩ := Option.ite_none_right_eq_some.mp h
  rw [← Option.some.inj ht]
  exact hrules

theorem entry_noOverlap_iff (u : Utopia) (checkPortRange : Rules → PMapping → Bool)
    (hcheck : ChecksOverlap checkPortRange) (c : Contexts) (e : PMapping) (edit : RuleEdit)
    (s t : NatState) (base : Rules) (hbase : (uses base).Sublist (uses (u.rules s.db)))
    (hs : NoOverlap (u.rules s.db))
    (h : (if entryOk u (c.platform checkPortRange) e s
      then storeRules u (addPortMapping e base) edit s else some s) = some t) :
    NoOverlap (u.rules t.db) ↔ EntryFree u (c.platform checkPortRange) c e s base := by
  split at h
  · next hok =>
    rw [storeRules_rules u _ edit s t h, noOverlap_add_iff]
    constructor
    · intro hafter _ a ha _
      exact hafter.2 a ha
    · intro hfree
      refine ⟨noOverlap_sublist _ _ hbase hs, fun a ha => ?_⟩
      by_cases hown : c.check = false ∨ a.rule_id = e.InstanceNumber
      · exact hfree hok a ha hown
      · rw [not_or, Bool.not_eq_false] at hown
        exact checked_apart u checkPortRange hcheck c e s hown.1 hok a (hbase.subset ha) hown.2
  · next hno =>
    rw [← Option.some.inj h]
    exact iff_of_true hs (fun hok => absurd hok hno)

def ruleUse (r : Readers) (rule : PortRule) : PortUse where
  enabled := r.flag (some (rule.enable.take 128))
  publicIp := false
  start_port := if rule.single then r.port (some (rule.external_port.take 128))
    else (r.range (some ((rangeText rule.external_port rule.external_port_end_range).take 128))).1
  end_port := if rule.single then r.port (some (rule.external_port.take 128))
    else (r.range (some ((rangeText rule.external_port rule.external_port_end_range).take 128))).2
  protocol := r.protocol (some (rule.protocol.take 128))

theorem portdocUse_of_accepts (r : Readers) (e : Portdoc) (rule : PortRule) (h : Accepts e rule) :
    portdocUse r e = ruleUse r rule := by
  simp [portdocUse, ruleUse, h.single, h.enable, h.external_port, h.external_port_end_range,
    h.protocol]

theorem map_portdocUse (r : Readers) (rpm : List Portdoc) (rules : List PortRule)
    (h : List.Forall₂ Accepts rpm rules) : rpm.map (portdocUse r) = rules.map (ruleUse r) := by
  induction h with
  | nil => rfl
  | cons hab _ ih => rw [List.map_cons, List.map_cons, portdocUse_of_accepts r _ _ hab, ih]

theorem map_entryIndices {β : Type} (single : Bool) (f : ℕ → β) (g : PortRule → β) (i : ℕ)
    (rules : List PortRule)
    (h : ∀ m rule, rules[m]? = some rule → rule.single = single → f (i + m) = g rule) :
    (entryIndices single i rules).map f = (rules.filter (fun r => r.single == single)).map g := by
  induction rules generalizing i with
  | nil => rfl
  | cons rule rules ih =>
    have hlater := ih (i + 1) (fun m r hm hr => by
      rw [Nat.add_assoc, Nat.add_comm 1]
      exact h (m + 1) r hm hr)
    by_cases hr : rule.single = single
    · simp [entryIndices, hr, hlater, ← h 0 rule rfl hr]
    · simp [entryIndices, hr, hlater]

section Document

variable {u : Utopia} {r : Readers} (hu : ReadsPorts u r) {rules : List PortRule}
  {before after : Store CStr CStr} (h : DocumentStored rules before after) {m : ℕ}
  {rule : PortRule} (hm : rules[m]? = some rule)

include h hm

theorem document_protocol : after (aliasOf rule.single (m + 1) ++ "::protocol".toList) =
    some (rule.protocol.take 128) :=
  document_attribute h hm "::protocol".toList rule.protocol (by decide)
    ⟨false, fun k => List.mem_append_right _ (by simp [ruleRecords])⟩

theorem document_external (hsingle : rule.single = true) :
    after (aliasOf rule.single (m + 1) ++ "::external_port".toList) =
      some (rule.external_port.take 128) := by
  refine document_attribute h hm "::external_port".toList rule.external_port (by decide)
    ⟨true, fun k => ?_⟩
  refine List.mem_append_left _ (List.mem_append_left _ ?_)
  simp [hsingle, singleHead, aliasOf]

theorem document_range (hsingle : rule.single = false) :
    after (aliasOf rule.single (m + 1) ++ "::external_port_range".toList) =
      some ((rangeText rule.external_port rule.external_port_end_range).take 128) := by
  refine document_attribute h hm "::external_port_range".toList
    (rangeText rule.external_port rule.external_port_end_range) (by decide) ⟨true, fun k => ?_⟩
  refine List.mem_append_left _ (List.mem_append_left _ ?_)
  simp [hsingle, rangeHead, rangeText, aliasOf]

include hu

theorem singleUse_document (hsingle : rule.single = true) :
    (singleUse (u.single after (aliasOf true (m + 1)))).toPortUse = ruleUse r rule := by
  have hprotocol := document_protocol h hm
  have henabled := document_enabled h hm
  have hport := document_external h hm hsingle
  rw [hsingle] at hprotocol henabled hport
  simp only [singleUse, ruleUse, hu.single_enabled, hu.single_external, hu.single_protocol,
    hprotocol, henabled, hport, hsingle, if_true]

theorem rangeUse_document (hsingle : rule.single = false) :
    (rangeUse (u.range after (aliasOf false (m + 1)))).toPortUse = ruleUse r rule := by
  have hprotocol := document_protocol h hm
  have henabled := document_enabled h hm
  have hrange := document_range h hm hsingle
  have hip := document_ip h hm hsingle
  rw [hsingle] at hprotocol henabled hrange hip
  have hports := hu.range_external after (aliasOf false (m + 1))
  rw [hrange] at hports
  simp only [rangeUse, ruleUse, hu.range_enabled, hu.range_protocol, hu.range_ip _ _ _ hip,
    hprotocol, henabled, hsingle, ← hports, ne_eq, not_true_eq_false, decide_false]
  rfl

end Document

theorem uses_document (u : Utopia) (r : Readers) (hu : ReadsPorts u r) (rules : List PortRule)
    (before after : Store CStr CStr) (h : DocumentStored rules before after) :
    ((uses (u.rules after)).map StoredUse.toPortUse).Perm (rules.map (ruleUse r)) := by
  have hsingles := map_entryIndices true
    (fun i => (singleUse (u.single after (aliasOf true i))).toPortUse) (ruleUse r) 1 rules
    (fun m rule hm hr => by
      rw [Nat.add_comm]
      exact singleUse_document hu h hm hr)
  have hranges := map_entryIndices false
    (fun i => (rangeUse (u.range after (aliasOf false i))).toPortUse) (ruleUse r) 1 rules
    (fun m rule hm hr => by
      rw [Nat.add_comm]
      exact rangeUse_document hu h hm hr)
  have hread : (uses (u.rules after)).map StoredUse.toPortUse =
      (rules.filter (fun r => r.single == true) ++ rules.filter (fun r => r.single == false)).map
        (ruleUse r) := by
    rw [rules_of_document u h, List.map_append, ← hsingles, ← hranges]
    simp only [uses, List.map_append, List.map_map]
    rfl
  have hkinds : (fun r : PortRule => r.single == false) = fun r => !(r.single == true) := by
    funext r
    cases r.single <;> rfl
  rw [hread, hkinds]
  exact (List.filter_append_perm _ rules).map _

theorem request_noOverlap_iff (u : Utopia) (r : Readers) (hu : ReadsPorts u r) (s t : NatState)
    (rpm : List Portdoc) (h : ruleStep u s (.request rpm) = some t) :
    NoOverlap (u.rules t.db) ↔ (rpm.map (portdocUse r)).Pairwise (fun a b => ¬ Clash a b) := by
  obtain ⟨⟨err, web⟩, hreq, hsuccess⟩ := Option.bind_eq_some_iff.mp h
  obtain ⟨herr, hweb⟩ := Option.ite_none_right_eq_some.mp hsuccess
  obtain ⟨rules, hrules, hdocument⟩ := documentStored_of_request hreq herr
  have hdb : t.db = web.sc.db := by
    rw [← Option.some.inj hweb]
    rfl
  rw [hdb, map_portdocUse r rpm rules hrules]
  exact noOverlap_perm _ _ (uses_document u r hu rules _ _ hdocument)

theorem delete_noOverlap (u : Utopia) (id : ℕ) (edit : RuleEdit) (s t : NatState)
    (hs : NoOverlap (u.rules s.db)) (h : cosaDmlNatDelPortMapping u id edit s = some t) :
    NoOverlap (u.rules t.db) := by
  have hsame : some s = some t → NoOverlap (u.rules t.db) := by
    intro hst
    rw [← Option.some.inj hst]
    exact hs
  simp only [cosaDmlNatDelPortMapping] at h
  split at h
  · exact hsame h
  · split at h
    · rw [storeRules_rules u _ edit s t h]
      exact noOverlap_sublist _ _ (uses_delSingle id _) hs
    · split at h
      · rw [storeRules_rules u _ edit s t h]
        exact noOverlap_sublist _ _ (uses_delRange id _) hs
      · exact hsame h

theorem callStep_noOverlap_iff (u : Utopia) (r : Readers) (hu : ReadsPorts u r)
    (checkPortRange : Rules → PMapping → Bool) (hcheck : ChecksOverlap checkPortRange)
    (s t : NatState) (call : RuleCall) (hs : NoOverlap (u.rules s.db))
    (h : callStep u checkPortRange s call = some t) :
    NoOverlap (u.rules t.db) ↔ PortsFree u r checkPortRange s call := by
  have hidle : ∀ {p : Prop}, some s = some t → (NoOverlap (u.rules t.db) ↔ (false = true → p)) := by
    intro p hst
    rw [← Option.some.inj hst]
    exact iff_of_true hs (fun hno => absurd hno Bool.false_ne_true)
  cases call with
  | add c e edit =>
    cases hcall : c.call with
    | false =>
      simp only [callStep, hcall, Bool.false_eq_true, if_false] at h
      simpa only [PortsFree, hcall] using hidle h
    | true =>
      simp only [callStep, hcall, if_true] at h
      have hiff := entry_noOverlap_iff u checkPortRange hcheck c e edit s t _ (List.Sublist.refl _)
        hs h
      simpa only [PortsFree, hcall, true_implies] using hiff
  | setMapping c e edit =>
    cases hcall : c.call with
    | false =>
      simp only [callStep, hcall, Bool.false_eq_true, if_false] at h
      simpa only [PortsFree, hcall] using hidle h
    | true =>
      simp only [callStep, hcall, if_true] at h
      have hleft := (uses_delSingle e.InstanceNumber
        (delRangeByRuleId e.InstanceNumber (u.rules s.db))).trans (uses_delRange _ _)
      have hiff := entry_noOverlap_iff u checkPortRange hcheck c e edit s t _ hleft hs h
      simpa only [PortsFree, hcall, true_implies] using hiff
  | del call id edit =>
    refine iff_of_true ?_ trivial
    cases call with
    | false =>
      rw [← Option.some.inj h]
      exact hs
    | true => exact delete_noOverlap u id edit s t hs h
  | natSet call req edit =>
    cases call with
    | false => exact hidle h
    | true =>
      have hrules : u.rules t.db = _ := cosaDmlNatSet_rules h
      rw [hrules]
      simpa only [PortsFree, true_implies] using
        noOverlap_updateEnable_iff (changedFlags s req) (u.rules s.db) hs
  | request rpm => exact request_noOverlap_iff u r hu s t rpm h

/-- From an empty rule store on, the enabled rules do not overlap after any call
exactly in the runs whose calls all meet the condition. -/
theorem natRun_noOverlap_iff (u : Utopia) (r : Readers) (hu : ReadsPorts u r)
    (checkPortRange : Rules → PMapping → Bool) (hcheck : ChecksOverlap checkPortRange)
    (db : Store CStr CStr) (calls : List RuleCall) (s t : NatState)
    (hempty : u.rules db = ⟨[], []⟩) (hboot : NatState.boot db = some s)
    (hrun : run (callStep u checkPortRange) s calls = some t) :
    Along (callStep u checkPortRange) (fun _ _ t => NoOverlap (u.rules t.db)) s calls ↔
      StepsMeet (callStep u checkPortRange) (PortsFree u r checkPortRange) s calls := by
  have hstart : NoOverlap (u.rules s.db) := by
    obtain ⟨web, hweb, rfl⟩ := Option.map_eq_some_iff.mp hboot
    have hdb : web.sc.db = db := (initPfCache_boot hweb).2.2.1
    change NoOverlap (u.rules web.sc.db)
    rw [hdb, hempty]
    exact List.Pairwise.nil
  have hstep := callStep_noOverlap_iff u r hu checkPortRange hcheck
  exact along_iff (callStep u checkPortRange) (fun s => NoOverlap (u.rules s.db))
    (fun s call t hs h => hstep s t call hs h)
    (fun s call t hs hfree h => (hstep s t call hs h).mpr hfree) hstart hrun

def readProtocol (t : Option CStr) : PfProtocol :=
  if t.getD [] = "tcp".toList then .TCP
  else if t.getD [] = "udp".toList then .UDP else .BOTH_TCP_UDP

def readRange (t : Option CStr) : ℕ × ℕ :=
  ((atoi (t.getD [])).toNat, (atoi ((t.getD []).dropWhile (fun c => c != ' ')).tail).toNat)

def portReader : Utopia where
  single db alias_ := { reader.single db alias_ with
    rule_id := (atoi (textAt db (alias_ ++ "::rule_id".toList))).toNat
    protocol := readProtocol (db (alias_ ++ "::protocol".toList)) }
  range db alias_ := { reader.range db alias_ with
    rule_id := (atoi (textAt db (alias_ ++ "::rule_id".toList))).toNat
    protocol := readProtocol (db (alias_ ++ "::protocol".toList))
    start_port := (readRange (db (alias_ ++ "::external_port_range".toList))).1
    end_port := (readRange (db (alias_ ++ "::external_port_range".toList))).2 }

def portReaders : Readers where
  flag := readOne
  port t := (atoi (t.getD [])).toNat
  range := readRange
  protocol := readProtocol

theorem portReader_reads : ReadsPorts portReader portReaders where
  one := rfl
  single_enabled _ _ := rfl
  single_prev _ _ := rfl
  single_port db a h := reader_reads.single_port db a h
  range_enabled _ _ := rfl
  range_prev _ _ := rfl
  range_port db a h := reader_reads.range_port db a h
  range_ip db a t h := reader_reads.range_ip db a t h
  single_external _ _ := rfl
  single_protocol _ _ := rfl
  range_external _ _ := rfl
  range_protocol _ _ := rfl

def freePorts (rules : Rules) (e : PMapping) : Bool :=
  (uses rules).all (fun a => !a.enabled || decide (a.rule_id = e.InstanceNumber) ||
    !decide (Overlap a.toPortUse (entryUse e)))

theorem freePorts_checks : ChecksOverlap freePorts := by
  intro rules e
  rw [freePorts, List.all_eq_true]
  refine forall₂_congr (fun a _ => ?_)
  simp only [Bool.or_eq_true, Bool.not_eq_true', decide_eq_true_iff, decide_eq_false_iff_not]
  cases a.enabled <;> simp [or_iff_not_imp_left]

def writesEdit (writes : List (CStr × CStr)) (h : ∀ f : Feature, f.key ∉ keys writes) :
    RuleEdit where
  apply db := setAll writes db
  flags db f := setAll_of_notMem db (h f)

/-- What the platform writes for the entry for port 80 under a number, as the
only rule of its kind or behind another. -/
def ruleWrites (number : String) : List (CStr × CStr) :=
  [("SinglePortForwardCount", number), ("SinglePortForward_" ++ number, "rule_" ++ number),
    ("rule_" ++ number ++ "::rule_id", number), ("rule_" ++ number ++ "::enabled", "1"),
    ("rule_" ++ number ++ "::prev_rule_enabled_state", "1"),
    ("rule_" ++ number ++ "::protocol", "tcp"), ("rule_" ++ number ++ "::external_port", "80"),
    ("rule_" ++ number ++ "::to_ip", "10.0.0.7")].map (fun w => (w.1.toList, w.2.toList))

def entryEighty (number : ℕ) : PMapping where
  InstanceNumber := number
  bEnabled := true
  PublicIP := 0
  ExternalPort := 80
  ExternalPortEndRange := 80
  InternalPort := 0
  Protocol := 1
  InternalClient := 0x0700000a
  Description := []
  InternalClientV6 := []

def contexts (check : Bool) : Contexts where
  lan := some ⟨"10.0.0.1".toList, "255.255.255.0".toList, "10.0.0.2".toList, "10.0.0.253".toList⟩
  check := check
  call := true

def firstAdd : RuleCall :=
  .add (contexts true) (entryEighty 1)
    (writesEdit (ruleWrites "1") (fun f => by cases f <;> decide +kernel))

def secondAdd (check : Bool) : RuleCall :=
  .add (contexts check) (entryEighty 2)
    (writesEdit (ruleWrites "2") (fun f => by cases f <;> decide +kernel))

/-- The second entry for the port is refused. -/
theorem natRun_noOverlap_refused : ∃ s t, NatState.boot (flagStore true) = some s ∧
    run (callStep portReader freePorts) s [firstAdd, secondAdd true] = some t ∧
    Along (callStep portReader freePorts) (fun _ _ t => NoOverlap (portReader.rules t.db)) s
      [firstAdd, secondAdd true] := by
  have hdone : ((NatState.boot (flagStore true)).bind (fun s =>
      (callStep portReader freePorts s firstAdd).map (fun s₁ =>
        ((uses (portReader.rules s.db)).length, entryOk portReader
          ((contexts true).platform freePorts) (entryEighty 2) s₁)))) = some (0, false) := by
    decide +kernel
  obtain ⟨s, hboot, hdone⟩ := Option.bind_eq_some_iff.mp hdone
  obtain ⟨t, hfirst, hval⟩ := Option.map_eq_some_iff.mp hdone
  obtain ⟨hlen, hrefused⟩ := Prod.mk.inj hval
  have hsecond : callStep portReader freePorts t (secondAdd true) = some t := by
    have hno : ¬ entryOk portReader ((contexts true).platform freePorts) (entryEighty 2) t = true :=
      Bool.eq_false_iff.mp hrefused
    exact if_neg hno
  have hrun : run (callStep portReader freePorts) s [firstAdd, secondAdd true] = some t := by
    rw [run_cons, hfirst, Option.bind_some, run_cons, hsecond]
    rfl
  refine ⟨s, t, hboot, hrun, (natRun_noOverlap_iff portReader portReaders portReader_reads freePorts
    freePorts_checks (flagStore true) _ s t rfl hboot hrun).mpr ⟨fun _ _ a ha _ => ?_, ?_⟩⟩
  · rw [List.length_eq_zero_iff.mp hlen] at ha
    cases ha
  · intro s₁ h₁
    rw [hfirst, Option.some.injEq] at h₁
    subst h₁
    refine ⟨fun _ hok => ?_, fun _ _ => trivial⟩
    rw [hrefused] at hok
    cases hok

/-- Without a context for the check the second entry is stored too. -/
theorem natRun_overlap_unchecked : ¬ ∀ (u : Utopia) (r : Readers)
    (checkPortRange : Rules → PMapping → Bool) (db : Store CStr CStr) (calls : List RuleCall)
    (s t : NatState), ReadsPorts u r → ChecksOverlap checkPortRange →
    u.rules db = ⟨[], []⟩ → NatState.boot db = some s →
    run (callStep u checkPortRange) s calls = some t → NoOverlap (u.rules t.db) := by
  intro hclaim
  have hrun : ((NatState.boot (flagStore true)).bind (fun s =>
      (run (callStep portReader freePorts) s [firstAdd, secondAdd false]).map (fun t =>
        (uses (portReader.rules t.db)).map StoredUse.toPortUse))) =
      some [⟨true, false, 80, 80, .TCP⟩, ⟨true, false, 80, 80, .TCP⟩] := by
    decide +kernel
  obtain ⟨s, hboot, hrun⟩ := Option.bind_eq_some_iff.mp hrun
  obtain ⟨t, ht, huses⟩ := Option.map_eq_some_iff.mp hrun
  have hapart := hclaim portReader portReaders freePorts (flagStore true) _ s t portReader_reads
    freePorts_checks rfl hboot ht
  rw [NoOverlap, huses, List.pairwise_cons] at hapart
  exact hapart.1 _ List.mem_cons_self ⟨⟨rfl, rfl⟩, ⟨rfl, rfl⟩, by decide⟩

end CcspPandM.NatOverlap
