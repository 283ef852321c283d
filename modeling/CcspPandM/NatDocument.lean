import CcspPandM.NatFlags

/-!
What a successful webconfig request leaves for the platform to read. The array
has room for few entries, so only a name that `sprintf_s` printed can be lost;
the rules read back are then those of the entries, kind by kind.
-/
namespace CcspPandM.NatDocument

open CString KeyStore FaultyStore Syscfg SubdocDecoders CacheRecords PortForwardCache
  PortForwardRequest NatRules

def entryIndices (single : Bool) : ℕ → List PortRule → List ℕ
  | _, [] => []
  | i, r :: rules =>
    if r.single = single then i :: entryIndices single (i + 1) rules
    else entryIndices single (i + 1) rules

variable (single : Bool)

theorem entryIndices_length (i : ℕ) (rules : List PortRule) :
    (entryIndices single i rules).length = rules.countP (fun r => r.single == single) := by
  induction rules generalizing i with
  | nil => rfl
  | cons r rules ih =>
    rw [entryIndices, List.countP_cons]
    split
    · next hr => simp [ih, hr]
    · next hr => simp [ih, hr]

variable {rules : List PortRule}

theorem mem_entryIndices {single : Bool} {i i' : ℕ} :
    i' ∈ entryIndices single i rules ↔
      ∃ m r, rules[m]? = some r ∧ r.single = single ∧ i' = i + m := by
  induction rules generalizing i with
  | nil => simp [entryIndices]
  | cons r rules ih =>
    have hlater : i' ∈ entryIndices single (i + 1) rules ↔
        ∃ m r', (r :: rules)[m + 1]? = some r' ∧ r'.single = single ∧ i' = i + (m + 1) := by
      rw [ih]
      simp only [List.getElem?_cons_succ, Nat.add_assoc, Nat.add_comm 1]
    have hfirst : (r.single = single ∧ i' = i) ∨ i' ∈ entryIndices single (i + 1) rules ↔
        ∃ m r', (r :: rules)[m]? = some r' ∧ r'.single = single ∧ i' = i + m := by
      rw [hlater]
      constructor
      · rintro (⟨hr, hi⟩ | ⟨m, r', hm⟩)
        · exact ⟨0, r, rfl, hr, hi⟩
        · exact ⟨m + 1, r', hm⟩
      · rintro ⟨m, r', hm, hr, hi⟩
        cases m with
        | zero =>
          rw [List.getElem?_cons_zero, Option.some.injEq] at hm
          rw [hm]
          exact Or.inl ⟨hr, hi⟩
        | succ m => exact Or.inr ⟨m, r', hm, hr, hi⟩
    rw [← hfirst, entryIndices]
    split
    · next hr => simp [hr]
    · next hr => simp [hr]

theorem alias_record {single : Bool} {i j i' : ℕ} (spf pfr : ℕ)
    (h : (entryIndices single i rules)[j]? = some i') :
    ∃ p ∈ rulesRecords i spf pfr rules,
      p.cmd = aliasKey single ((if single then spf else pfr) + j + 1) ∧
        p.val = aliasOf single i' := by
  induction rules generalizing i spf pfr j with
  | nil => cases h
  | cons r rules ih =>
    have hhead : ⟨false, aliasKey r.single (if r.single then spf + 1 else pfr + 1),
        aliasOf r.single i⟩ ∈ r.records i (if r.single then spf + 1 else pfr + 1) := by
      unfold PortRule.records
      cases r.single <;> exact List.mem_cons_self
    rw [rulesRecords]
    rw [entryIndices] at h
    split at h
    · next hr =>
      cases j with
      | zero =>
        rw [List.getElem?_cons_zero, Option.some.injEq] at h
        refine ⟨_, List.mem_append_left _ hhead, ?_, ?_⟩
        · rw [hr]
          cases single <;> rfl
        · rw [hr, h]
      | succ j =>
        obtain ⟨p, hp, hcmd, hval⟩ := ih (if r.single then spf + 1 else spf)
          (if r.single then pfr else pfr + 1) h
        refine ⟨p, List.mem_append_right _ hp, ?_, hval⟩
        rw [hcmd, hr]
        cases single
        · simp only [Bool.false_eq_true, if_false]
          congr 1
          omega
        · simp only [if_true]
          congr 1
          omega
    · next hr =>
      obtain ⟨p, hp, hcmd, hval⟩ := ih (if r.single then spf + 1 else spf)
        (if r.single then pfr else pfr + 1) h
      refine ⟨p, List.mem_append_right _ hp, ?_, hval⟩
      rw [hcmd]
      cases single <;> cases hs : r.single <;> simp [hs] at hr ⊢

variable {r : PortRule}

theorem mem_rulesRecords {i m : ℕ} (spf pfr : ℕ) (h : rules[m]? = some r) :
    ∃ k, ∀ p ∈ r.records (i + m) k, p ∈ rulesRecords i spf pfr rules := by
  induction rules generalizing i spf pfr m with
  | nil => cases h
  | cons r' rules ih =>
    rw [rulesRecords]
    cases m with
    | zero =>
      rw [List.getElem?_cons_zero, Option.some.injEq] at h
      subst h
      exact ⟨_, fun p hp => List.mem_append_left _ hp⟩
    | succ m =>
      obtain ⟨k, hk⟩ := ih _ _ h
      refine ⟨k, fun p hp => List.mem_append_right _ (hk p ?_)⟩
      rwa [show i + 1 + m = i + (m + 1) by omega]

variable {p : Printed}

theorem of_mem_rulesRecords {i spf pfr : ℕ} (h : p ∈ rulesRecords i spf pfr rules) :
    ∃ r m k, m < rules.length ∧ k ≤ spf + pfr + m + 1 ∧ p ∈ PortRule.records (i + m) k r := by
  induction rules generalizing i spf pfr with
  | nil => cases h
  | cons r rules ih =>
    rw [rulesRecords] at h
    rcases List.mem_append.mp h with h | h
    · refine ⟨r, 0, _, Nat.zero_lt_succ _, ?_, h⟩
      split <;> omega
    · obtain ⟨r', m, k, hm, hk, hp⟩ := ih h
      refine ⟨r', m + 1, k, Nat.succ_lt_succ hm, ?_, ?_⟩
      · cases hs : r.single
        · simp only [hs, Bool.false_eq_true, if_false] at hk
          omega
        · simp only [hs, if_true] at hk
          omega
      · rwa [show i + (m + 1) = i + 1 + m by omega]

theorem rulesRecords_length (i spf pfr : ℕ) (rules : List PortRule) :
    9 * rules.length ≤ (rulesRecords i spf pfr rules).length := by
  induction rules generalizing i spf pfr with
  | nil => exact Nat.zero_le _
  | cons r rules ih =>
    have hlater := ih (i + 1) (if r.single then spf + 1 else spf)
      (if r.single then pfr else pfr + 1)
    have hfirst : 9 ≤ (r.records i (if r.single then spf + 1 else pfr + 1)).length := by
      unfold PortRule.records
      cases r.single
      · exact (by decide : 9 ≤ 11)
      · exact Nat.le_refl 9
    rw [rulesRecords, List.length_append, List.length_cons]
    omega

theorem decimal_length_le_three {n : ℕ} (h : n < 1000) : (decimal n).length ≤ 3 :=
  (decimal_length_le_iff (by omega)).mpr h

theorem aliasKey_length {k : ℕ} (hk : k < 1000) :
    (aliasKey single k).length < 32 := by
  have hdigits := decimal_length_le_three hk
  have hname : (if single then "SinglePortForward_".toList
      else "PortRangeForward_".toList).length ≤ 18 := by
    cases single <;> decide
  rw [aliasKey, List.length_append]
  omega

theorem aliasOf_length (i : ℕ) :
    (aliasOf single i).length = 4 + (decimal i).length := by
  rw [aliasOf_length_four, List.length_append]
  cases single <;> rfl

theorem records_fit {i k : ℕ} (hi : i < 1000) (hk : k < 1000)
    (hp : p ∈ r.records i k) (hsafe : p.safe = false) : p.cmd.length < 32 := by
  have hkey : ∀ single, (aliasKey single k).length < 32 := fun single => aliasKey_length single hk
  have hname : ∀ suffix : CStr, suffix.length ≤ 15 →
      (aliasOf r.single i ++ suffix).length < 32 := by
    intro suffix hsuffix
    have hdigits := decimal_length_le_three hi
    rw [List.length_append, aliasOf_length]
    omega
  unfold PortRule.records at hp
  rw [List.mem_append, List.mem_append] at hp
  rcases hp with (hp | hp) | hp
  · cases hs : r.single with
    | true =>
      rw [hs, if_pos rfl] at hp
      simp only [singleHead, List.mem_cons, List.not_mem_nil, or_false] at hp
      rcases hp with rfl | rfl
      · exact hkey true
      · cases hsafe
    | false =>
      rw [hs, if_neg Bool.false_ne_true] at hp
      simp only [rangeHead, List.mem_cons, List.not_mem_nil, or_false] at hp
      rcases hp with rfl | rfl | rfl | rfl
      · exact hkey false
      · cases hsafe
      · rw [hs] at hname
        exact hname _ (by decide)
      · cases hsafe
  · simp only [clientRecords, List.mem_cons, List.not_mem_nil, or_false] at hp
    rcases hp with rfl | rfl | rfl <;> exact hname _ (by decide)
  · simp only [ruleRecords, List.mem_cons, List.not_mem_nil, or_false] at hp
    rcases hp with rfl | rfl | rfl | rfl
    · exact hname _ (by decide)
    · cases hsafe
    · exact hname _ (by decide)
    · cases hsafe

theorem documentRecords_fit (hsmall : rules.length ≤ 113) :
    ∀ p ∈ documentRecords rules, p.safe = false → p.cmd.length < 32 := by
  intro p hp hsafe
  rcases List.mem_append.mp hp with hp | hp
  · obtain ⟨r, m, k, hm, hk, hp⟩ := of_mem_rulesRecords hp
    exact records_fit (by omega) (by omega) hp hsafe
  · simp only [countRecords, List.mem_cons, List.not_mem_nil, or_false] at hp
    rcases hp with rfl | rfl
    · exact (by decide : 22 < 32)
    · exact (by decide : 21 < 32)

theorem documentRecords_cmd_ne_nil (hp : p ∈ documentRecords rules) : p.cmd ≠ [] := by
  have hkey : p.cmd ∈ documentKeys (rules.map PortRule.single) := by
    rw [← documentRecords_keys]
    exact List.mem_map_of_mem hp
  rcases List.mem_append.mp hkey with hkey | hkey
  · rcases keyOf_of_mem hkey with ⟨single, i, rest, -, hcmd⟩ | ⟨k, -, hcmd⟩ | ⟨k, -, hcmd⟩
    · rw [hcmd]
      exact List.append_ne_nil_of_right_ne_nil _ (List.cons_ne_nil _ _)
    · rw [hcmd]
      exact List.append_ne_nil_of_right_ne_nil _ (decimal_ne_nil k)
    · rw [hcmd]
      exact List.append_ne_nil_of_right_ne_nil _ (decimal_ne_nil k)
  · rintro hnil
    rw [hnil] at hkey
    revert hkey
    decide

/-- The document as it is found in the store: every record whose name fits, and
behind longer names what was there. -/
structure DocumentStored (rules : List PortRule) (before after : Store CStr CStr) : Prop where
  small : rules.length ≤ 113
  stored : ∀ p ∈ documentRecords rules, p.cmd.length < 32 → after p.cmd = some p.print.val.text
  kept : ∀ k : CStr, 32 ≤ k.length → after k = before k

theorem documentStored_of_request {rpm : List Portdoc} {web web' : PfState} {err : Err}
    (h : processPFWebConfigRequest noFaults rpm web = some (err, web'))
    (hsuccess : err.ErrorCode = .BLOB_EXEC_SUCCESS) :
    ∃ rules, List.Forall₂ Accepts rpm rules ∧ DocumentStored rules web.sc.db web'.sc.db := by
  have houtcome := processPFWebConfigRequest_outcome h
  rw [hsuccess] at houtcome
  generalize hcode : ErrCode.BLOB_EXEC_SUCCESS = code at houtcome
  cases houtcome with
  | clearing n m calls hno hm => cases hcode
  | applying w c size calls hclear hw hret hset hfault => cases hcode
  | document w code c size hclear hw hret hset =>
    exact absurd hcode.symm ((portmapEntries_ret hw).2 code hret)
  | done w c size calls hclear hw hret hset =>
    obtain ⟨rules, hrules, hrecords, hspf, hpfr⟩ := portmapEntries_accepted hw hret
    have hdocument : w.records ++ countRecords w.spf_count w.pfr_count = documentRecords rules := by
      rw [hrecords, hspf, hpfr, Nat.zero_add, Nat.zero_add, documentRecords]
    have hsmall : rules.length ≤ 113 := by
      have hlen := rulesRecords_length 1 0 0 rules
      rw [← hrecords] at hlen
      have hroom : w.records.length + 2 ≤ 1024 := setPortmapConf_room hset hw hret
      omega
    refine ⟨rules, hrules, hsmall, fun p hp hfit => ?_, fun k hk => ?_⟩
    · change setAll ((requestWrites rpm w web).take _) (cleared web).sc.db p.cmd = _
      rw [leading_noFaults, List.take_length, requestWrites, hdocument, setAll_append, setAll_apply,
        lastValue_printed (documentRecords_fit hsmall) ?_ hp hfit (documentRecords_cmd_ne_nil hp)]
      · rfl
      · rw [documentRecords_keys]
        exact documentKeys_nodup _
    · have hlong : ∀ (c : Cache) n, k ∉ keys (cached c n) := by
        intro c n hmem
        obtain ⟨p, hp, rfl⟩ := List.mem_map.mp hmem
        obtain ⟨i, -, rfl⟩ := List.mem_map.mp hp
        have hshort := Buf.text_length_lt (c i).cmd
        exact absurd hk (Nat.not_le.mpr hshort)
      obtain ⟨-, -, -, hcached⟩ := setPortmapConf_of_accepted hset hw hret
      change setAll ((requestWrites rpm w web).take _) (cleared web).sc.db k = _
      rw [leading_noFaults, List.take_length, requestWrites, ← hcached, setAll_append,
        setAll_of_notMem _ (hlong c size), setAll_of_notMem]
      · exact unsetAll_of_notMem _ (hlong _ _)
      · intro hmem
        have hname : k = pfParamName := by
          split at hmem
          · exact List.mem_singleton.mp hmem
          · cases hmem
        rw [hname] at hk
        revert hk
        decide

section Read

variable {rules : List PortRule} {before after : Store CStr CStr}

theorem DocumentStored.text (h : DocumentStored rules before after)
    (hp : p ∈ documentRecords rules) (hcmd : p.cmd.length < 32) (hval : p.val.length < 129) :
    textAt after p.cmd = p.val := by
  rw [textAt, h.stored p hp hcmd, Option.getD_some]
  exact p.val_text_eq_iff.mpr hval

theorem countP_single_false (rules : List PortRule) :
    rules.countP (fun r => !r.single) = rules.countP (fun r => r.single == false) := by
  congr 1
  funext r
  cases r.single <;> rfl

theorem DocumentStored.count (h : DocumentStored rules before after) (single : Bool) :
    (atoi (textAt after (if single then "SinglePortForwardCount".toList
      else "PortRangeForwardCount".toList))).toNat = (entryIndices single 1 rules).length := by
  have hbound : (entryIndices single 1 rules).length < 1000 := by
    have hle := List.countP_le_length (p := fun r : PortRule => r.single == single) (l := rules)
    have hsmall := h.small
    rw [entryIndices_length]
    omega
  have hlen : (decimal (entryIndices single 1 rules).length).length < 129 := by
    have hdigits := decimal_length_le_three hbound
    omega
  have htext : textAt after (if single then "SinglePortForwardCount".toList
      else "PortRangeForwardCount".toList) = decimal (entryIndices single 1 rules).length := by
    rw [entryIndices_length] at hlen ⊢
    cases single with
    | true =>
      have hcount : rules.countP (fun r => r.single == true) = rules.countP PortRule.single := by
        congr 1
        funext r
        cases r.single <;> rfl
      rw [hcount] at hlen ⊢
      exact h.text (p := ⟨false, "SinglePortForwardCount".toList, _⟩)
        (List.mem_append_right _ List.mem_cons_self) (by decide : 22 < 32) hlen
    | false =>
      rw [← countP_single_false] at hlen ⊢
      exact h.text (p := ⟨false, "PortRangeForwardCount".toList, _⟩)
        (List.mem_append_right _ (List.mem_cons_of_mem _ List.mem_cons_self))
        (by decide : 21 < 32) hlen
  rw [htext, atoi_decimal (by omega)]
  exact Int.toNat_natCast _

theorem DocumentStored.alias_text (h : DocumentStored rules before after) {single : Bool} {j i : ℕ}
    (hj : (entryIndices single 1 rules)[j]? = some i) :
    textAt after (aliasKey single (j + 1)) = aliasOf single i := by
  obtain ⟨p, hp, hcmd, hval⟩ := alias_record 0 0 hj
  have hlt := (List.getElem?_eq_some_iff.mp hj).1
  have hle := List.countP_le_length (p := fun r : PortRule => r.single == single) (l := rules)
  have hsmall := h.small
  rw [entryIndices_length] at hlt
  have hi : i < 1000 := by
    obtain ⟨m, r, hm, -, rfl⟩ := mem_entryIndices.mp (List.mem_of_getElem? hj)
    have hmlt := (List.getElem?_eq_some_iff.mp hm).1
    omega
  have hcmd' : p.cmd = aliasKey single (j + 1) := by
    rw [hcmd]
    cases single <;> simp
  rw [← hcmd', ← hval]
  refine h.text (List.mem_append_left _ hp) ?_ ?_
  · rw [hcmd']
    exact aliasKey_length single (by omega)
  · have hdigits := decimal_length_le_three hi
    rw [hval, aliasOf_length]
    omega

theorem rules_of_document (u : Utopia) (h : DocumentStored rules before after) :
    u.rules after =
      ⟨(entryIndices true 1 rules).map (fun i => u.single after (aliasOf true i)),
        (entryIndices false 1 rules).map (fun i => u.range after (aliasOf false i))⟩ := by
  have hread : ∀ {α : Type} (f : CStr → α) (single : Bool),
      (List.range (entryIndices single 1 rules).length).map
        (fun j => f (textAt after (aliasKey single (j + 1)))) =
        (entryIndices single 1 rules).map (fun i => f (aliasOf single i)) := by
    intro α f single
    apply List.ext_getElem
    · simp
    · intro j h1 h2
      have hj : j < (entryIndices single 1 rules).length := by simpa using h1
      have halias := h.alias_text (List.getElem?_eq_getElem hj)
      simp [halias]
  have hsingle := h.count true
  have hrange := h.count false
  rw [if_pos rfl] at hsingle
  rw [if_neg Bool.false_ne_true] at hrange
  rw [Utopia.rules, hsingle, hrange, hread (u.single after) true, hread (u.range after) false]

theorem DocumentStored.attribute (h : DocumentStored rules before after) {m : ℕ}
    (hm : rules[m]? = some r) (hp : ∀ k, p ∈ r.records (m + 1) k)
    (hcmd : p.cmd.length < 32) : after p.cmd = some p.print.val.text := by
  obtain ⟨k, hk⟩ := mem_rulesRecords (i := 1) 0 0 hm
  refine h.stored p (List.mem_append_left _ (hk p ?_)) hcmd
  rw [Nat.add_comm 1 m]
  exact hp k

end Read

end CcspPandM.NatDocument
