import CcspPandM.LowerLayers

/-!
When the search for a name in a list of tables ends, and with which row. A table
walked by index is always searched in its order; one walked by instance number needs
a name that can be read, and of the rows with ports only one may have the name.
-/
namespace CcspPandM.LowerLayersSearch

open CString InetText ScanText LoopRuns LowerLayers

section Search

theorem firstNamed_cons (pKeyword : CStr) (row : Row) (rows : List Row) :
    firstNamed pKeyword (row :: rows) =
      if row.2 = some pKeyword then some row.1 else firstNamed pKeyword rows := by
  rw [firstNamed, List.find?_cons, firstNamed]
  by_cases h : row.2 = some pKeyword
  · simp [h]
  · simp [h]

theorem firstNamed_append (pKeyword : CStr) (rows rows' : List Row) :
    firstNamed pKeyword (rows ++ rows') =
      (firstNamed pKeyword rows).or (firstNamed pKeyword rows') := by
  rw [firstNamed, List.find?_append, Option.map_or]
  rfl

theorem firstNamed_eq_none_iff (pKeyword : CStr) (rows : List Row) :
    firstNamed pKeyword rows = none ↔ ∀ row ∈ rows, row.2 ≠ some pKeyword := by
  simp [firstNamed]

theorem firstNamed_range' {pKeyword path : CStr} {row : ℕ → Row} {start n : ℕ}
    (h : firstNamed pKeyword ((List.range' start n).map row) = some path) :
    ∃ m, start ≤ m ∧ m < start + n ∧ (row m).2 = some pKeyword ∧ path = (row m).1 ∧
      ∀ e, start ≤ e → e < m → (row e).2 ≠ some pKeyword := by
  induction n generalizing start with
  | zero => simp [firstNamed] at h
  | succ n ih =>
    rw [List.range'_succ, List.map_cons, firstNamed_cons] at h
    by_cases hname : (row start).2 = some pKeyword
    · rw [if_pos hname] at h
      exact ⟨start, le_rfl, by omega, hname, (Option.some.inj h).symm, fun e _ _ => by omega⟩
    · rw [if_neg hname] at h
      obtain ⟨m, hstart, hm, hrow, hpath, hbefore⟩ := ih h
      refine ⟨m, by omega, by omega, hrow, hpath, ?_⟩
      intro e he hem
      rcases Nat.eq_or_lt_of_le he with heq | hlt
      · rw [← heq]
        exact hname
      · exact hbefore e hlt hem

variable {dm : Lookups} {puma7 : Bool} {pKeyword : CStr} {rest : List CStr} {r : Option CStr}
  {n : ULONG}

variable {i : ℕ}

theorem ofNat_lt_iff (hi : i < 2 ^ 32) :
    BitVec.ofNat 32 i < n ↔ i < n.toNat := by
  rw [BitVec.lt_def, BitVec.toNat_ofNat, Nat.mod_eq_of_lt hi]

theorem ofNat_succ (i : ℕ) : BitVec.ofNat 32 i + 1 = BitVec.ofNat 32 (i + 1) := by
  rw [BitVec.ofNat_add]
  rfl

theorem instancesFrom_of_lt (dm : Lookups) (Name : CStr) (hi : i < n.toNat) :
    instancesFrom dm Name n i =
      if dm.GetInstanceNumberByIndex Name (BitVec.ofNat 32 i) ≠ 0 then
        dm.GetInstanceNumberByIndex Name (BitVec.ofNat 32 i) :: instancesFrom dm Name n (i + 1)
      else instancesFrom dm Name n (i + 1) := by
  rw [instancesFrom, instancesFrom, show n.toNat - i = n.toNat - (i + 1) + 1 by omega,
    List.range'_succ, List.map_cons, List.filter_cons]
  simp

def Goes (dm : Lookups) (puma7 : Bool) (pKeyword : CStr) (rest : List CStr)
    (r found : Option CStr) : Prop :=
  match found with
  | some path => r = some path
  | none => Ends (step dm puma7 pKeyword) (.tables rest) r

theorem ends_entries (t : IndexedTable) (hi : i ≤ n.toNat) :
    Ends (step dm puma7 pKeyword) (.entries t n (BitVec.ofNat 32 i) rest) r ↔
      Goes dm puma7 pKeyword rest r
        (firstNamed pKeyword ((instancesFrom dm t.Name n i).map (indexedRow dm t))) := by
  have hn := n.isLt
  induction hk : n.toNat - i generalizing i with
  | zero =>
    have hlt : ¬ BitVec.ofNat 32 i < n := by
      rw [ofNat_lt_iff (by omega)]
      omega
    have hrows : instancesFrom dm t.Name n i = [] := by simp [instancesFrom, hk]
    rw [hrows]
    exact ends_inl (by rw [step, if_neg hlt])
  | succ k ih =>
    have hlt : BitVec.ofNat 32 i < n := by
      rw [ofNat_lt_iff (by omega)]
      omega
    have hnext := ih (i := i + 1) (by omega) (by omega)
    rw [← ofNat_succ] at hnext
    rw [instancesFrom_of_lt dm t.Name (by omega)]
    by_cases hzero : dm.GetInstanceNumberByIndex t.Name (BitVec.ofNat 32 i) = 0
    · rw [if_neg (by simp [hzero])]
      refine Iff.trans ?_ hnext
      exact ends_inl (by simp only [step, if_pos hlt, hzero, ne_eq, not_true_eq_false, false_and,
        if_false])
    · rw [if_pos hzero, List.map_cons, firstNamed_cons]
      by_cases hname : (indexedRow dm t (dm.GetInstanceNumberByIndex t.Name
          (BitVec.ofNat 32 i))).2 = some pKeyword
      · rw [if_pos hname]
        exact ends_inr (by rw [step, if_pos hlt]; exact if_pos ⟨hzero, hname⟩)
      · rw [if_neg hname]
        refine Iff.trans ?_ hnext
        exact ends_inl (by rw [step, if_pos hlt]; exact if_neg fun h => hname h.2)

section Counted

variable (t : CountedTable) {n i instance_ : ULONG}

theorem ends_instances_unnamed (hi : i < n)
    (hname : dm.GetParamValueByPathName (t.ParamName instance_) = none) :
    Ends (step dm puma7 pKeyword) (.instances t n i instance_ rest) r ↔
      Ends (step dm puma7 pKeyword) (.instances t n i (instance_ + 1) rest) r :=
  ends_inl (by simp only [step, if_pos hi, hname])

theorem ends_instances_other (hi : i < n) {value : CStr}
    (hname : dm.GetParamValueByPathName (t.ParamName instance_) = some value)
    (hother : value ≠ pKeyword) :
    Ends (step dm puma7 pKeyword) (.instances t n i instance_ rest) r ↔
      Ends (step dm puma7 pKeyword) (.instances t n (i + 1) (instance_ + 1) rest) r :=
  ends_inl (by simp only [step, if_pos hi, hname, if_neg hother])

theorem ends_instances_found (hi : i < n)
    (hname : dm.GetParamValueByPathName (t.ParamName instance_) = some pKeyword) :
    Ends (step dm puma7 pKeyword) (.instances t n i instance_ rest) r ↔
      r = some (t.FullPath instance_) :=
  ends_inr (by simp only [step, if_pos hi, hname, if_true])

theorem ends_instances_done (hi : ¬ i < n) :
    Ends (step dm puma7 pKeyword) (.instances t n i instance_ rest) r ↔
      Ends (step dm puma7 pKeyword) (.tables rest) r :=
  ends_inl (by rw [step, if_neg hi])

theorem not_ends_instances (hi : i < n)
    (hnone : ∀ k, dm.GetParamValueByPathName (t.ParamName k) = none) :
    ¬ Ends (step dm puma7 pKeyword) (.instances t n i instance_ rest) r := by
  apply not_ends (P := fun s => ∃ k, s = .instances t n i k rest)
  · rintro s ⟨k, rfl⟩
    refine ⟨.instances t n i (k + 1) rest, ?_, k + 1, rfl⟩
    simp only [step, if_pos hi, hnone]
  · exact ⟨instance_, rfl⟩

theorem ends_instances_next (hi : i < n) (d : ℕ)
    (hnone : ∀ e < d, dm.GetParamValueByPathName
      (t.ParamName (instance_ + BitVec.ofNat 32 e)) = none) :
    Ends (step dm puma7 pKeyword) (.instances t n i instance_ rest) r ↔
      Ends (step dm puma7 pKeyword)
        (.instances t n i (instance_ + BitVec.ofNat 32 d) rest) r := by
  induction d with
  | zero => rw [BitVec.add_zero]
  | succ d ih =>
    rw [ih fun e he => hnone e (by omega), ends_instances_unnamed t hi (hnone d (by omega)),
      BitVec.add_assoc, ofNat_succ]

theorem toNat_succ_of_lt (hi : i < n) : (i + 1).toNat = i.toNat + 1 := by
  have hlt := BitVec.lt_def.mp hi
  have hn := n.isLt
  rw [BitVec.toNat_add, show (1 : ULONG).toNat = 1 from rfl, Nat.mod_eq_of_lt (by omega)]

theorem ends_instances_absent {k : ULONG}
    (hnamed : (dm.GetParamValueByPathName (t.ParamName k)).isSome)
    (habsent : ∀ k, dm.GetParamValueByPathName (t.ParamName k) ≠ some pKeyword) :
    Ends (step dm puma7 pKeyword) (.instances t n i instance_ rest) r ↔
      Ends (step dm puma7 pKeyword) (.tables rest) r := by
  induction hleft : n.toNat - i.toNat generalizing i instance_ with
  | zero =>
    apply ends_instances_done
    rw [BitVec.lt_def]
    omega
  | succ left ih =>
    have hi : i < n := by
      rw [BitVec.lt_def]
      omega
    have hexists : ∃ d, (dm.GetParamValueByPathName
        (t.ParamName (instance_ + BitVec.ofNat 32 d))).isSome := by
      refine ⟨(k - instance_).toNat, ?_⟩
      rw [BitVec.ofNat_toNat, BitVec.setWidth_eq, BitVec.add_comm, BitVec.sub_add_cancel]
      exact hnamed
    obtain ⟨value, hvalue⟩ := Option.isSome_iff_exists.mp (Nat.find_spec hexists)
    rw [ends_instances_next t hi (Nat.find hexists) fun e he =>
        Option.not_isSome_iff_eq_none.mp (Nat.find_min hexists he),
      ends_instances_other t hi hvalue fun h => habsent _ (h ▸ hvalue)]
    apply ih
    rw [toNat_succ_of_lt hi]
    omega

def namedBelow (dm : Lookups) (t : CountedTable) (k : ℕ) : ℕ :=
  (List.range k).countP (fun k => (countedRow dm t k).2.isSome)

theorem namedBelow_succ (dm : Lookups) (k : ℕ) : namedBelow dm t (k + 1) =
    namedBelow dm t k + if (countedRow dm t k).2.isSome then 1 else 0 := by
  rw [namedBelow, List.range_succ, List.countP_append, namedBelow, List.countP_singleton]

theorem namedBelow_mono (dm : Lookups) {k l : ℕ} (h : k ≤ l) :
    namedBelow dm t k ≤ namedBelow dm t l := by
  induction l, h using Nat.le_induction with
  | base => exact le_rfl
  | succ l _ ih =>
    rw [namedBelow_succ]
    omega

theorem ends_instances_upto (hzero : (countedRow dm t 0).2 = none) {l : ℕ}
    (hroom : namedBelow dm t (l + 1) < n.toNat)
    (hother : ∀ e, 1 ≤ e → e < l + 1 → (countedRow dm t e).2 ≠ some pKeyword) :
    Ends (step dm puma7 pKeyword) (.instances t n 0 1 rest) r ↔
      Ends (step dm puma7 pKeyword) (.instances t n
        (BitVec.ofNat 32 (namedBelow dm t (l + 1))) (BitVec.ofNat 32 (l + 1)) rest) r := by
  induction l with
  | zero => simp [hzero, namedBelow]
  | succ l ih =>
    have hn := n.isLt
    have hmono := namedBelow_mono t dm (show l + 1 ≤ l + 1 + 1 by omega)
    have hi : BitVec.ofNat 32 (namedBelow dm t (l + 1)) < n := by
      rw [ofNat_lt_iff (by omega)]
      omega
    have hprev := ih (by omega) fun e he hel => hother e he (by omega)
    rw [hprev, namedBelow_succ t dm (l + 1)]
    cases hname : (countedRow dm t (l + 1)).2 with
    | none =>
      rw [ends_instances_unnamed t hi hname, ofNat_succ]
      rfl
    | some value =>
      have hne : value ≠ pKeyword := by
        rintro rfl
        exact hother (l + 1) (by omega) (by omega) hname
      rw [ends_instances_other t hi hname hne, ofNat_succ, ofNat_succ]
      rfl

end Counted

section Lower

variable (t : NestedTable) {n i instance_ ulEntryPortNum : ULONG} {pMatchedLowerLayer : Option CStr}

theorem ends_ports_upto {l : ℕ} (hl : l ≤ (numberOfPorts dm t instance_).toNat)
    (hother : ∀ e, 1 ≤ e → e < l + 1 → (lowerRow dm t instance_ e).2 ≠ some pKeyword) :
    Ends (step dm puma7 pKeyword) (.ports t n i instance_ (numberOfPorts dm t instance_) 1
        pMatchedLowerLayer rest) r ↔
      Ends (step dm puma7 pKeyword) (.ports t n i instance_ (numberOfPorts dm t instance_)
        (BitVec.ofNat 32 (l + 1)) pMatchedLowerLayer rest) r := by
  induction l with
  | zero => rfl
  | succ l ih =>
    have hports := (numberOfPorts dm t instance_).isLt
    have hprev := ih (by omega) fun e he hel => hother e he (by omega)
    rw [hprev, ← ofNat_succ (l + 1)]
    have hle : BitVec.ofNat 32 (l + 1) ≤ numberOfPorts dm t instance_ := by
      rw [BitVec.le_def, BitVec.toNat_ofNat, Nat.mod_eq_of_lt (by omega)]
      exact hl
    exact ends_inl (by rw [step, if_pos hle]; exact if_neg (hother (l + 1) (by omega) (by omega)))

theorem ends_ports_done (hj : ¬ i ≤ ulEntryPortNum) (j : ULONG) :
    Ends (step dm puma7 pKeyword)
        (.ports t n j instance_ ulEntryPortNum i pMatchedLowerLayer rest) r ↔
      Ends (step dm puma7 pKeyword) (.bridges t n (j + 1) pMatchedLowerLayer rest) r :=
  ends_inl (by rw [step, if_neg hj])

/-- The loop over the ports ends, since it finds the name or can count past the last. -/
def PortsEnd (dm : Lookups) (pKeyword : CStr) (t : NestedTable) (instance_ : ULONG) : Prop :=
  firstNamed pKeyword (lowerRows dm t instance_) = none →
    numberOfPorts dm t instance_ ≠ BitVec.allOnes 32

theorem ends_ports (hend : PortsEnd dm pKeyword t instance_) :
    Ends (step dm puma7 pKeyword) (.ports t n i instance_ (numberOfPorts dm t instance_) 1
        pMatchedLowerLayer rest) r ↔
      Ends (step dm puma7 pKeyword) (.bridges t n (i + 1)
        ((firstNamed pKeyword (lowerRows dm t instance_)).or pMatchedLowerLayer) rest) r := by
  have hports := (numberOfPorts dm t instance_).isLt
  cases hfound : firstNamed pKeyword (lowerRows dm t instance_) with
  | some path =>
    obtain ⟨m, hm, hmlt, hname, hpath, hbefore⟩ := firstNamed_range' hfound
    have hle : BitVec.ofNat 32 m ≤ numberOfPorts dm t instance_ := by
      rw [BitVec.le_def, BitVec.toNat_ofNat, Nat.mod_eq_of_lt (by omega)]
      omega
    refine (ends_ports_upto t (l := m - 1) (by omega) fun e he hel =>
      hbefore e he (by omega)).trans ?_
    rw [show m - 1 + 1 = m by omega, Option.some_or, hpath]
    exact ends_inl (by rw [step, if_pos hle]; exact if_pos hname)
  | none =>
    have hall := (firstNamed_eq_none_iff _ _).mp hfound
    have hlt : (numberOfPorts dm t instance_).toNat ≠ 2 ^ 32 - 1 :=
      fun h => hend hfound (BitVec.eq_of_toNat_eq h)
    refine (ends_ports_upto t (le_refl (numberOfPorts dm t instance_).toNat) fun e he hel =>
      hall _ (List.mem_map.mpr ⟨e, List.mem_range'_1.mpr ⟨he, by omega⟩, rfl⟩)).trans ?_
    rw [Option.none_or]
    apply ends_ports_done
    rw [BitVec.le_def, BitVec.toNat_ofNat, Nat.mod_eq_of_lt (by omega)]
    omega

theorem not_ends_ports (hzero : dm.GetParamValueString (t.ParamName instance_ 0) = none)
    (hend : ¬ PortsEnd dm pKeyword t instance_) :
    ¬ Ends (step dm puma7 pKeyword) (.ports t n i instance_ (numberOfPorts dm t instance_) 1
      pMatchedLowerLayer rest) r := by
  have hboth : firstNamed pKeyword (lowerRows dm t instance_) = none ∧
      numberOfPorts dm t instance_ = BitVec.allOnes 32 := by
    simpa [PortsEnd] using hend
  have hall := (firstNamed_eq_none_iff _ _).mp hboth.1
  have hname : ∀ j, dm.GetParamValueString (t.ParamName instance_ j) ≠ some pKeyword := by
    intro j
    by_cases hj : j = 0
    · rw [hj, hzero]
      exact (Option.some_ne_none _).symm
    · have hpos : j.toNat ≠ 0 := fun h => hj (BitVec.eq_of_toNat_eq h)
      have hrow := hall (lowerRow dm t instance_ j.toNat) (List.mem_map.mpr ⟨j.toNat,
        List.mem_range'_1.mpr ⟨by omega, by rw [hboth.2, BitVec.toNat_allOnes]; omega⟩, rfl⟩)
      simpa [lowerRow] using hrow
  apply not_ends (P := fun s => ∃ j, s = .ports t n i instance_ (numberOfPorts dm t instance_) j
    pMatchedLowerLayer rest)
  · rintro s ⟨j, rfl⟩
    refine ⟨_, ?_, j + 1, rfl⟩
    have hlt := j.isLt
    have hle : j ≤ numberOfPorts dm t instance_ := by
      rw [hboth.2, BitVec.le_def, BitVec.toNat_allOnes]
      omega
    rw [step, if_pos hle]
    exact if_neg (hname j)
  · exact ⟨1, rfl⟩

end Lower

section Nested

variable {α : Type}

theorem firstNamed_flatMap (pKeyword : CStr) (g : α → List Row) (l : List α) :
    firstNamed pKeyword (l.flatMap g) = l.findSome? (fun a => firstNamed pKeyword (g a)) := by
  induction l with
  | nil => rfl
  | cons a l ih =>
    rw [List.flatMap_cons, firstNamed_append, ih, List.findSome?_cons]
    cases firstNamed pKeyword (g a) with
    | none => rfl
    | some path => rfl

variable {pMatchedLowerLayer : Option CStr} (t : NestedTable)

theorem ends_bridges_zero {n i : ULONG}
    (hi : i < n) (hzero : dm.GetInstanceNumberByIndex t.Name i = 0) :
    Ends (step dm puma7 pKeyword) (.bridges t n i pMatchedLowerLayer rest) r ↔
      Ends (step dm puma7 pKeyword) (.bridges t n (i + 1) pMatchedLowerLayer rest) r := by
  apply ends_inl
  simp only [step, if_pos hi]
  exact if_neg fun h => h hzero

theorem ends_bridges_ports {n i : ULONG}
    (hi : i < n) (hzero : dm.GetInstanceNumberByIndex t.Name i ≠ 0) :
    Ends (step dm puma7 pKeyword) (.bridges t n i pMatchedLowerLayer rest) r ↔
      Ends (step dm puma7 pKeyword) (.ports t n i (dm.GetInstanceNumberByIndex t.Name i)
        (numberOfPorts dm t (dm.GetInstanceNumberByIndex t.Name i)) 1 pMatchedLowerLayer
        rest) r := by
  apply ends_inl
  simp only [step, if_pos hi]
  exact if_pos hzero

theorem ends_bridges (hi : i ≤ n.toNat)
    (hend : ∀ k ∈ instancesFrom dm t.Name n i, PortsEnd dm pKeyword t k) :
    Ends (step dm puma7 pKeyword)
        (.bridges t n (BitVec.ofNat 32 i) pMatchedLowerLayer rest) r ↔
      Goes dm puma7 pKeyword rest r
        (lastMatch (fun k => firstNamed pKeyword (lowerRows dm t k)) pMatchedLowerLayer
          (instancesFrom dm t.Name n i)) := by
  induction hk : n.toNat - i generalizing i pMatchedLowerLayer with
  | zero =>
    have hn := n.isLt
    have hlt : ¬ BitVec.ofNat 32 i < n := by
      rw [ofNat_lt_iff (by omega)]
      omega
    have hrows : instancesFrom dm t.Name n i = [] := by simp [instancesFrom, hk]
    rw [hrows]
    cases pMatchedLowerLayer with
    | none => exact ends_inl (by rw [step, if_neg hlt])
    | some path => exact ends_inr (by rw [step, if_neg hlt])
  | succ k ih =>
    have hn := n.isLt
    have hlt : BitVec.ofNat 32 i < n := by
      rw [ofNat_lt_iff (by omega)]
      omega
    rw [instancesFrom_of_lt dm t.Name (by omega)] at hend ⊢
    by_cases hzero : dm.GetInstanceNumberByIndex t.Name (BitVec.ofNat 32 i) = 0
    · rw [if_neg (by simp [hzero])] at hend ⊢
      rw [← ih (by omega) hend (by omega), ← ofNat_succ]
      exact ends_bridges_zero t hlt hzero
    · rw [if_pos hzero] at hend ⊢
      obtain ⟨hports, hrest⟩ := List.forall_mem_cons.mp hend
      rw [lastMatch, List.foldl_cons]
      refine Iff.trans ?_ (ih (i := i + 1) (by omega) hrest (by omega))
      rw [← ofNat_succ, ← ends_ports t hports]
      exact ends_bridges_ports t hlt hzero

theorem not_ends_bridges (hi : i ≤ n.toNat)
    (hzero : ∀ k ∈ instancesFrom dm t.Name n i,
      dm.GetParamValueString (t.ParamName k 0) = none)
    (hend : ¬ ∀ k ∈ instancesFrom dm t.Name n i, PortsEnd dm pKeyword t k) :
    ¬ Ends (step dm puma7 pKeyword)
      (.bridges t n (BitVec.ofNat 32 i) pMatchedLowerLayer rest) r := by
  induction hk : n.toNat - i generalizing i pMatchedLowerLayer with
  | zero =>
    have hrows : instancesFrom dm t.Name n i = [] := by simp [instancesFrom, hk]
    rw [hrows] at hend
    exact absurd (by simp) hend
  | succ k ih =>
    have hn := n.isLt
    have hlt : BitVec.ofNat 32 i < n := by
      rw [ofNat_lt_iff (by omega)]
      omega
    rw [instancesFrom_of_lt dm t.Name (by omega)] at hzero hend
    by_cases hinst : dm.GetInstanceNumberByIndex t.Name (BitVec.ofNat 32 i) = 0
    · rw [if_neg (by simp [hinst])] at hzero hend
      rw [ends_bridges_zero t hlt hinst, ofNat_succ]
      exact ih (by omega) hzero hend (by omega)
    · rw [if_pos hinst] at hzero hend
      obtain ⟨hfirst, hrest⟩ := List.forall_mem_cons.mp hzero
      rw [ends_bridges_ports t hlt hinst]
      by_cases hports : PortsEnd dm pKeyword t
          (dm.GetInstanceNumberByIndex t.Name (BitVec.ofNat 32 i))
      · rw [ends_ports t hports, ofNat_succ]
        exact ih (by omega) hrest (fun h => hend (List.forall_mem_cons.mpr ⟨hports, h⟩)) (by omega)
      · exact not_ends_ports t hfirst hports

end Nested


end Search

/-- A data model: no row has the instance number zero, a count that can be read is that
of the rows, and the rows of a table have different instance numbers. -/
structure DataModel extends Lookups where
  zero_unnamed : ∀ t ∈ [mocaInterface, wifiSSID], (countedRow toLookups t 0).2 = none
  count_rows : ∀ t ∈ [mocaInterface, wifiSSID], ∀ value,
    GetParamValueByPathName t.NumberOfEntries = some value →
      namedBelow toLookups t (2 ^ 32) ≤ (sscanf_lu value 0).toNat
  lower_zero_unnamed : ∀ t ∈ [greTunnel, bridgingBridge],
    ∀ k ∈ instancesFrom toLookups t.Name (GetParamValueUlong t.NumberOfEntries) 0,
      GetParamValueString (t.ParamName k 0) = none
  instances_differ : ∀ t ∈ [greTunnel, bridgingBridge],
    (instancesFrom toLookups t.Name (GetParamValueUlong t.NumberOfEntries) 0).Nodup

section Tables

variable (dm : DataModel) (puma7 : Bool) (pKeyword : CStr)

def Unreadable : Table → Prop
  | .counted t => dm.GetParamValueByPathName t.NumberOfEntries = none
  | _ => False

/-- Of a table walked by instance number some name can be read, if it has rows; the
loops over the ports end, and no two rows have a port of the name. -/
def TableSound : Table → Prop
  | .counted t => ∀ value, dm.GetParamValueByPathName t.NumberOfEntries = some value →
      sscanf_lu value 0 ≠ 0 → ∃ k, (dm.GetParamValueByPathName (t.ParamName k)).isSome
  | .nested t =>
    let instances := instancesFrom dm.toLookups t.Name (dm.GetParamValueUlong t.NumberOfEntries) 0
    let found := fun k => firstNamed pKeyword (lowerRows dm.toLookups t k)
    (∀ k ∈ instances, PortsEnd dm.toLookups pKeyword t k) ∧
      ∀ k ∈ instances, ∀ l ∈ instances, found k ≠ none → found l ≠ none → k = l
  | _ => True

/-- Every table up to the one with the row is sound; one whose count cannot be read has
no row of the name behind it. -/
def Sound : List CStr → Prop
  | [] => True
  | Name :: rest =>
    (Unreadable dm (tableOf puma7 Name) → lowerLayer dm.toLookups puma7 pKeyword rest = none) ∧
      (¬ Unreadable dm (tableOf puma7 Name) → TableSound dm pKeyword (tableOf puma7 Name) ∧
        (firstNamed pKeyword (rows dm.toLookups (tableOf puma7 Name)) = none → Sound rest))

variable {dm puma7 pKeyword} {rest : List CStr} {r : Option CStr}

/-- The table is one of those that are not walked by index, or is of no interest here. -/
def Known : Table → Prop
  | .counted t => t ∈ [mocaInterface, wifiSSID]
  | .nested t => t ∈ [greTunnel, bridgingBridge]
  | _ => True

theorem known_ite {c : Prop} [Decidable c] {a b : Table} (ha : Known a) (hb : Known b) :
    Known (if c then a else b) := by
  by_cases hc : c
  · rw [if_pos hc]
    exact ha
  · rw [if_neg hc]
    exact hb

theorem tableOf_known (puma7 : Bool) (Name : CStr) : Known (tableOf puma7 Name) := by
  unfold tableOf
  repeat' apply known_ite
  any_goals exact trivial
  all_goals simp only [Known, List.mem_cons, true_or, or_true]

variable {Name : CStr}

theorem tableOf_counted {t : CountedTable} (h : tableOf puma7 Name = .counted t) :
    t ∈ [mocaInterface, wifiSSID] := by
  have hknown := tableOf_known puma7 Name
  rw [h] at hknown
  exact hknown

variable {t : NestedTable}

theorem tableOf_nested (h : tableOf puma7 Name = .nested t) :
    t ∈ [greTunnel, bridgingBridge] := by
  have hknown := tableOf_known puma7 Name
  rw [h] at hknown
  exact hknown

theorem lowerEntryName_inj (ht : t ∈ [greTunnel, bridgingBridge])
    {k l i j : ULONG} (h : t.LowerEntryName k i = t.LowerEntryName l j) : k = l := by
  have hdot : ∃ tail, t.lower = '.' :: tail := by
    rcases List.mem_cons.mp ht with rfl | ht
    · exact ⟨_, String.toList_ofList⟩
    · rcases List.mem_cons.mp ht with rfl | ht
      · exact ⟨_, String.toList_ofList⟩
      · cases ht
  obtain ⟨tail, htail⟩ := hdot
  simp only [NestedTable.LowerEntryName, NestedTable.FullPath, htail, List.append_assoc,
    List.cons_append] at h
  exact BitVec.eq_of_toNat_eq (decimal_append_inj (List.append_cancel_left h)).1

theorem ends_counted {t : CountedTable} (ht : t ∈ [mocaInterface, wifiSSID]) {value : CStr}
    (hcount : dm.GetParamValueByPathName t.NumberOfEntries = some value)
    (hsound : TableSound dm pKeyword (.counted t)) :
    Ends (step dm.toLookups puma7 pKeyword) (.instances t (sscanf_lu value 0) 0 1 rest) r ↔
      Goes dm.toLookups puma7 pKeyword rest r
        (firstNamed pKeyword (rows dm.toLookups (.counted t))) := by
  have hzero := dm.zero_unnamed t ht
  have hrows : rows dm.toLookups (.counted t) =
      (List.range' 1 (2 ^ 32 - 1)).map (countedRow dm.toLookups t) := by
    simp only [rows, hcount]
  rw [hrows]
  cases hfound : firstNamed pKeyword
      ((List.range' 1 (2 ^ 32 - 1)).map (countedRow dm.toLookups t)) with
  | some path =>
    obtain ⟨m, hm, hmlt, hname, hpath, hbefore⟩ := firstNamed_range' hfound
    have htotal := dm.count_rows t ht value hcount
    have hmono := namedBelow_mono t dm.toLookups (show m + 1 ≤ 2 ^ 32 by omega)
    have hmore := namedBelow_succ t dm.toLookups m
    rw [hname, Option.isSome_some, if_pos rfl] at hmore
    have hm1 : m - 1 + 1 = m := by omega
    have hi : BitVec.ofNat 32 (namedBelow dm.toLookups t m) < sscanf_lu value 0 := by
      have hn := (sscanf_lu value 0).isLt
      rw [ofNat_lt_iff (by omega)]
      omega
    have hroom : namedBelow dm.toLookups t (m - 1 + 1) < (sscanf_lu value 0).toNat := by
      rw [hm1]
      omega
    refine (ends_instances_upto t hzero (l := m - 1) hroom fun e he hel =>
      hbefore e he (by omega)).trans ?_
    rw [hm1, ends_instances_found t hi hname, hpath]
    rfl
  | none =>
    have hall := (firstNamed_eq_none_iff _ _).mp hfound
    have habsent : ∀ k, dm.GetParamValueByPathName (t.ParamName k) ≠ some pKeyword := by
      intro k
      by_cases hk : k = 0
      · rw [hk]
        exact fun h => Option.some_ne_none _ (h.symm.trans hzero)
      · have hpos : k.toNat ≠ 0 := fun h => hk (BitVec.eq_of_toNat_eq h)
        have hlt := k.isLt
        have hrow := hall (countedRow dm.toLookups t k.toNat) (List.mem_map.mpr ⟨k.toNat,
          List.mem_range'_1.mpr ⟨by omega, by omega⟩, rfl⟩)
        simpa [countedRow] using hrow
    by_cases hn : sscanf_lu value 0 = 0
    · rw [hn]
      exact ends_instances_done t (by decide)
    · obtain ⟨k, hk⟩ := hsound value hcount hn
      exact ends_instances_absent t hk habsent

theorem lastMatch_nested (ht : t ∈ [greTunnel, bridgingBridge]) :
    lastMatch (fun k => firstNamed pKeyword (lowerRows dm.toLookups t k)) none
        (instancesFrom dm.toLookups t.Name (dm.GetParamValueUlong t.NumberOfEntries) 0) =
      firstNamed pKeyword (rows dm.toLookups (.nested t)) ↔
    ∀ k ∈ instancesFrom dm.toLookups t.Name (dm.GetParamValueUlong t.NumberOfEntries) 0,
      ∀ l ∈ instancesFrom dm.toLookups t.Name (dm.GetParamValueUlong t.NumberOfEntries) 0,
        firstNamed pKeyword (lowerRows dm.toLookups t k) ≠ none →
        firstNamed pKeyword (lowerRows dm.toLookups t l) ≠ none → k = l := by
  rw [rows, firstNamed_flatMap]
  apply lastMatch_eq_findSome_iff (dm.instances_differ t ht)
  intro k _ l _ hk heq
  obtain ⟨path, hpath⟩ := Option.ne_none_iff_exists'.mp hk
  rw [hpath] at heq
  obtain ⟨i, -, -, -, hi, -⟩ := firstNamed_range' hpath
  obtain ⟨j, -, -, -, hj, -⟩ := firstNamed_range' heq.symm
  exact lowerEntryName_inj ht (hi.symm.trans hj)

theorem lowerLayer_cons (Name : CStr) (rest : List CStr) :
    lowerLayer dm.toLookups puma7 pKeyword (Name :: rest) =
      (firstNamed pKeyword (rows dm.toLookups (tableOf puma7 Name))).or
        (lowerLayer dm.toLookups puma7 pKeyword rest) := by
  rw [lowerLayer, List.flatMap_cons, firstNamed_append, lowerLayer]

theorem goes_lowerLayer (Name : CStr) :
    Goes dm.toLookups puma7 pKeyword rest (lowerLayer dm.toLookups puma7 pKeyword (Name :: rest))
        (firstNamed pKeyword (rows dm.toLookups (tableOf puma7 Name))) ↔
      (firstNamed pKeyword (rows dm.toLookups (tableOf puma7 Name)) = none →
        Ends (step dm.toLookups puma7 pKeyword) (.tables rest)
          (lowerLayer dm.toLookups puma7 pKeyword rest)) := by
  rw [lowerLayer_cons]
  cases firstNamed pKeyword (rows dm.toLookups (tableOf puma7 Name)) with
  | none => simp [Goes]
  | some path => simp [Goes]

theorem ends_tables_sound (hread : ¬ Unreadable dm (tableOf puma7 Name))
    (hsound : TableSound dm pKeyword (tableOf puma7 Name)) :
    Ends (step dm.toLookups puma7 pKeyword) (.tables (Name :: rest)) r ↔
      Goes dm.toLookups puma7 pKeyword rest r
        (firstNamed pKeyword (rows dm.toLookups (tableOf puma7 Name))) := by
  cases htable : tableOf puma7 Name with
  | indexed t =>
    have hstep : step dm.toLookups puma7 pKeyword (.tables (Name :: rest)) =
        .inl (.entries t (dm.GetParamValueUlong t.NumberOfEntries) 0 rest) := by
      rw [step, nextTable, htable]
    rw [ends_inl hstep]
    exact ends_entries t (Nat.zero_le _)
  | counted t =>
    rw [htable] at hread hsound
    obtain ⟨value, hvalue⟩ := Option.ne_none_iff_exists'.mp hread
    have hstep : step dm.toLookups puma7 pKeyword (.tables (Name :: rest)) =
        .inl (.instances t (sscanf_lu value 0) 0 1 rest) := by
      rw [step, nextTable, htable]
      simp only [hvalue]
    rw [ends_inl hstep]
    exact ends_counted (tableOf_counted htable) hvalue hsound
  | nested t =>
    rw [htable] at hsound
    obtain ⟨hports, honce⟩ := hsound
    have hstep : step dm.toLookups puma7 pKeyword (.tables (Name :: rest)) =
        .inl (.bridges t (dm.GetParamValueUlong t.NumberOfEntries) 0 none rest) := by
      rw [step, nextTable, htable]
    rw [ends_inl hstep, ← (lastMatch_nested (tableOf_nested htable)).mpr honce]
    exact ends_bridges t (Nat.zero_le _) hports
  | skipped =>
    have hstep : step dm.toLookups puma7 pKeyword (.tables (Name :: rest)) =
        .inl (.tables rest) := by
      rw [step, nextTable, htable]
    rw [ends_inl hstep]
    rfl

theorem not_ends_tables (hread : ¬ Unreadable dm (tableOf puma7 Name))
    (hsound : ¬ TableSound dm pKeyword (tableOf puma7 Name)) :
    ¬ Ends (step dm.toLookups puma7 pKeyword) (.tables (Name :: rest))
      (lowerLayer dm.toLookups puma7 pKeyword (Name :: rest)) := by
  cases htable : tableOf puma7 Name with
  | indexed t =>
    rw [htable] at hsound
    exact absurd trivial hsound
  | counted t =>
    rw [htable] at hread hsound
    obtain ⟨value, hvalue⟩ := Option.ne_none_iff_exists'.mp hread
    have hnone : sscanf_lu value 0 ≠ 0 ∧
        ∀ k, dm.GetParamValueByPathName (t.ParamName k) = none := by
      simpa [TableSound, hvalue] using hsound
    have hstep : step dm.toLookups puma7 pKeyword (.tables (Name :: rest)) =
        .inl (.instances t (sscanf_lu value 0) 0 1 rest) := by
      rw [step, nextTable, htable]
      simp only [hvalue]
    rw [ends_inl hstep]
    have hpos : 0 < sscanf_lu value 0 := by
      rw [BitVec.lt_def]
      exact Nat.pos_of_ne_zero fun h => hnone.1 (BitVec.eq_of_toNat_eq h)
    exact not_ends_instances t hpos hnone.2
  | nested t =>
    have ht := tableOf_nested htable
    rw [htable] at hsound
    have hstep : step dm.toLookups puma7 pKeyword (.tables (Name :: rest)) =
        .inl (.bridges t (dm.GetParamValueUlong t.NumberOfEntries) 0 none rest) := by
      rw [step, nextTable, htable]
    rw [ends_inl hstep]
    by_cases hports : ∀ k ∈ instancesFrom dm.toLookups t.Name
        (dm.GetParamValueUlong t.NumberOfEntries) 0, PortsEnd dm.toLookups pKeyword t k
    · rw [show (0 : ULONG) = BitVec.ofNat 32 0 from rfl, ends_bridges t (Nat.zero_le _) hports]
      rcases lastMatch_eq (f := fun k => firstNamed pKeyword (lowerRows dm.toLookups t k))
          (instancesFrom dm.toLookups t.Name (dm.GetParamValueUlong t.NumberOfEntries) 0) none with
        ⟨-, hnone⟩ | ⟨k, hk, hsome, heq⟩
      · exact absurd ⟨hports, fun k hk _ _ h => absurd (hnone k hk) h⟩ hsound
      · have hdiffer := fun h => hsound ⟨hports, (lastMatch_nested ht).mp h⟩
        obtain ⟨path, hpath⟩ := Option.ne_none_iff_exists'.mp hsome
        rw [heq, hpath] at hdiffer ⊢
        rw [lowerLayer_cons, htable]
        cases hfirst : firstNamed pKeyword (rows dm.toLookups (.nested t)) with
        | none =>
          rw [rows, firstNamed_flatMap, List.findSome?_eq_none_iff] at hfirst
          exact absurd (hfirst k hk) hsome
        | some first =>
          rw [hfirst] at hdiffer
          exact fun h => hdiffer h.symm
    · exact not_ends_bridges t (Nat.zero_le _) (dm.lower_zero_unnamed t ht) hports
  | skipped =>
    rw [htable] at hsound
    exact absurd trivial hsound

theorem ends_lowerLayer_iff (tables : List CStr) :
    Ends (step dm.toLookups puma7 pKeyword) (.tables tables)
        (lowerLayer dm.toLookups puma7 pKeyword tables) ↔
      Sound dm puma7 pKeyword tables := by
  induction tables with
  | nil =>
    have hstep : step dm.toLookups puma7 pKeyword (.tables []) = .inr none := rfl
    rw [ends_inr hstep]
    exact iff_of_true rfl trivial
  | cons Name rest ih =>
    rw [Sound]
    by_cases hread : Unreadable dm (tableOf puma7 Name)
    · cases htable : tableOf puma7 Name with
      | counted t =>
        rw [htable] at hread
        have hcount : dm.GetParamValueByPathName t.NumberOfEntries = none := hread
        have hstep : step dm.toLookups puma7 pKeyword (.tables (Name :: rest)) = .inr none := by
          rw [step, nextTable, htable]
          simp only [hcount]
        have hrows : rows dm.toLookups (tableOf puma7 Name) = [] := by
          rw [htable]
          simp only [rows, hcount]
        rw [ends_inr hstep, lowerLayer_cons, hrows]
        simp [firstNamed, hread]
      | indexed t =>
        rw [htable] at hread
        exact absurd hread id
      | nested t =>
        rw [htable] at hread
        exact absurd hread id
      | skipped =>
        rw [htable] at hread
        exact absurd hread id
    · by_cases hsound : TableSound dm pKeyword (tableOf puma7 Name)
      · rw [ends_tables_sound hread hsound, goes_lowerLayer, ih]
        simp [hread, hsound]
      · simp only [hread, hsound, false_implies, not_false_eq_true, true_implies, false_and,
          and_false, iff_false]
        exact not_ends_tables hread hsound

/-- The search ends, with the first row of the name; without a name or a list of tables
none is searched. -/
def Finds (dm : DataModel) (puma7 : Bool) (tokens : CStr → List CStr)
    (pTableName pKeyword : CStr) : Prop :=
  ∃ fuel, CosaUtilGetLowerLayers dm.toLookups puma7 pKeyword tokens pTableName fuel =
    some (if pTableName = [] ∨ pKeyword = [] then none
      else lowerLayer dm.toLookups puma7 pKeyword (tokens pTableName))

/-- The search finds the row exactly where the tables up to it are sound. -/
theorem lower_layers_found_iff (dm : DataModel) (puma7 : Bool) (tokens : CStr → List CStr)
    (pTableName pKeyword : CStr) :
    Finds dm puma7 tokens pTableName pKeyword ↔
      (pTableName ≠ [] → pKeyword ≠ [] → Sound dm puma7 pKeyword (tokens pTableName)) := by
  by_cases hempty : pTableName = [] ∨ pKeyword = []
  · have hfinds : Finds dm puma7 tokens pTableName pKeyword := by
      refine ⟨0, ?_⟩
      rw [CosaUtilGetLowerLayers, if_pos hempty, if_pos hempty]
    simp only [hfinds, true_iff]
    intro htable hkeyword
    exact absurd hempty (by simp [htable, hkeyword])
  · have hboth : pTableName ≠ [] ∧ pKeyword ≠ [] := not_or.mp hempty
    rw [Finds]
    simp only [CosaUtilGetLowerLayers, hboth.1, hboth.2, ne_eq, not_false_eq_true, true_implies]
    exact ends_lowerLayer_iff (tokens pTableName)

/-- What a data model without MoCA and with one IP interface answers. -/
def oneInterface : Lookups where
  GetParamValueUlong p := if p = ipInterface.NumberOfEntries then 1 else 0
  GetInstanceNumberByIndex _ i := if i = 0 then 1 else 0
  GetParamValueString p := if p = ipInterface.ParamName 1 then some ['w', 'a', 'n'] else none
  GetParamValueByPathName _ := none

theorem oneInterface_nested (ht : t ∈ [greTunnel, bridgingBridge]) :
    instancesFrom oneInterface t.Name (oneInterface.GetParamValueUlong t.NumberOfEntries) 0 =
      [] := by
  rcases List.mem_pair.mp ht with rfl | rfl
  · decide +kernel
  · decide +kernel

def oneInterfaceModel : DataModel where
  toLookups := oneInterface
  zero_unnamed _ _ := rfl
  count_rows _ _ _ h := absurd h (Option.some_ne_none _).symm
  lower_zero_unnamed t ht k hk := by
    rw [oneInterface_nested ht] at hk
    cases hk
  instances_differ t ht := by
    rw [oneInterface_nested ht]
    exact List.nodup_nil

theorem tableOf_mocaInterface (puma7 : Bool) :
    tableOf puma7 mocaInterface.Name = .counted mocaInterface := by
  have h : mocaInterface.Name ≠ ethernetInterface.Name ∧ mocaInterface.Name ≠ ipInterface.Name ∧
      mocaInterface.Name ≠ wifiRadio.Name := by
    decide +kernel
  rw [tableOf, if_neg h.1, if_neg h.2.1, if_neg h.2.2, if_pos rfl]

/-- The tables of a list, MoCA before IP. -/
def mocaThenIp (_ : CStr) : List CStr := [mocaInterface.Name, ipInterface.Name]

theorem lowerLayer_oneInterface (pTableName : CStr) :
    lowerLayer oneInterface false ['w', 'a', 'n'] (mocaThenIp pTableName) =
      some (ipInterface.FullPath 1) := by
  unfold mocaThenIp
  decide +kernel

/-- A table whose count cannot be read keeps the next one from being searched. -/
theorem lower_layers_lost :
    ¬ Finds oneInterfaceModel false mocaThenIp
      "Device.MoCA.Interface.,Device.IP.Interface.".toList ['w', 'a', 'n'] := by
  have hempty : ¬ ("Device.MoCA.Interface.,Device.IP.Interface.".toList = [] ∨
      ['w', 'a', 'n'] = []) := by simp
  have hstep : step oneInterface false ['w', 'a', 'n'] (.tables (mocaThenIp
      "Device.MoCA.Interface.,Device.IP.Interface.".toList)) = .inr none := by
    rw [step, mocaThenIp, nextTable, tableOf_mocaInterface]
    rfl
  rintro ⟨fuel, hfuel⟩
  rw [CosaUtilGetLowerLayers, if_neg hempty, if_neg hempty] at hfuel
  have hnone := (ends_inr hstep).mp ⟨fuel, hfuel⟩
  rw [show oneInterfaceModel.toLookups = oneInterface from rfl, lowerLayer_oneInterface] at hnone
  cases hnone

end Tables

end CcspPandM.LowerLayersSearch
