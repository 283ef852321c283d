import CcspPandM.PortForwardCache

/-!
A port-forwarding request and its rollback. The request saves the cache, clears
the cached keys from syscfg, prints the document into the cache and writes the
cache to syscfg; the rollback writes the saved records back. Which syscfg calls
of the request fail is arbitrary.
-/
namespace CcspPandM.PortForwardRequest

open CString KeyStore FaultyStore Syscfg SubdocDecoders CacheRecords PortForwardCache

structure PfState where
  pf_cache : Cache
  pf_cache_bkup : Cache
  pf_cache_size : ℕ
  pf_cache_size_bkup : ℕ
  gpfEnable : ℤ
  sc : SyscfgState

def pfParamName : CStr := "CosaNAT::port_forward_enabled".toList

def flagText (pmapEnable : ℤ) : CStr := if pmapEnable = 1 then ['1'] else ['0']

variable (faults : Faults)

/-- The loop of `clear_pf_cache_DB` from index i on. -/
def clearLoop (i : ℕ) : ℕ → PfState → Bool × PfState
  | 0, s => (true, s)
  | n + 1, s =>
    let r := syscfg_unset faults (s.pf_cache i).cmd.text s.sc
    if r.1 then
      clearLoop (i + 1) n
        { s with pf_cache := Function.update s.pf_cache i TCache.zero, sc := r.2 }
    else (false, { s with sc := r.2 })

def clearPfCacheDB (s : PfState) : Bool × PfState :=
  let r := clearLoop faults 0 s.pf_cache_size s
  if r.1 then
    let c := syscfg_commit faults r.2.sc
    (c.1, { r.2 with sc := c.2 })
  else r

/-- The size argument of the source is unused: the loop runs to the current
`pf_cache_size`. -/
def backupPfCache (tmp_pf_cache tmp_pf_cache_bkup : Cache) (pf_cache_size : ℕ) : Cache :=
  fun i => if i < pf_cache_size then tmp_pf_cache i else tmp_pf_cache_bkup i

/-- What `apply_pf_cache_ToDB` writes, in order. -/
def applyWrites (cache : Cache) (cache_size : ℕ) (gpfEnable pmapEnable : ℤ) :
    List (CStr × CStr) :=
  (if gpfEnable ≠ pmapEnable then [(pfParamName, flagText pmapEnable)] else []) ++
    cached cache cache_size

def applyPfCacheToDB (cache : Cache) (cache_size : ℕ) (pmapEnable : ℤ)
    (s : PfState) : Bool × PfState :=
  let r := setLoop faults (applyWrites cache cache_size s.gpfEnable pmapEnable) s.sc
  if r.1 then
    let c := syscfg_commit faults r.2
    (c.1, { s with sc := c.2 })
  else (false, { s with sc := r.2 })

def lpfEnable (rpm : List Portdoc) : ℤ := if rpm.length > 0 then 1 else 0

def confError : ErrCode → Err
  | .INVALID_IP => ⟨.INVALID_IP, "Invalid IP".toList⟩
  | .INVALID_PORT => ⟨.INVALID_PORT, "Invalid Port".toList⟩
  | .INVALID_PROTOCOL => ⟨.INVALID_PROTOCOL, "Invalid Protocol".toList⟩
  | _ => ⟨.BLOB_EXEC_SUCCESS, []⟩

def processPFWebConfigRequest (rpm : List Portdoc) (s : PfState) :
    Option (Err × PfState) :=
  let s := { s with
    pf_cache_bkup := backupPfCache s.pf_cache s.pf_cache_bkup s.pf_cache_size
    pf_cache_size_bkup := s.pf_cache_size }
  let r := clearPfCacheDB faults s
  if r.1 then do
    let (ret, pf_cache, pf_cache_size) ← setPortmapConf rpm r.2.pf_cache r.2.pf_cache_size
    let s := { r.2 with pf_cache := pf_cache, pf_cache_size := pf_cache_size }
    match ret with
    | some code => some (confError code, s)
    | none =>
      let a := applyPfCacheToDB faults pf_cache pf_cache_size (lpfEnable rpm) s
      if a.1 then some (⟨.BLOB_EXEC_SUCCESS, []⟩, { a.2 with gpfEnable := lpfEnable rpm })
      else some (⟨.SYSCFG_FAILURE, "sysconfig failure while applying".toList⟩, a.2)
  else some (⟨.SYSCFG_FAILURE, "sysconfig failure while clearing old entries".toList⟩, r.2)

def rollbackPortForwarding (s : PfState) : Bool × PfState :=
  let r := applyPfCacheToDB faults s.pf_cache_bkup s.pf_cache_size_bkup s.gpfEnable s
  (r.1, { r.2 with
    pf_cache := backupPfCache s.pf_cache_bkup s.pf_cache s.pf_cache_size
    pf_cache_size := s.pf_cache_size_bkup })

/-- One entry of `init_pf_cache`: its alias is copied into eight bytes and its
attributes get their names, but no values. -/
def initEntry (single : Bool) (j i : ℕ) (cache : Cache) (sc : SyscfgState) :
    Option (Cache × SyscfgState) := do
  let key := aliasKey single j
  let r := syscfg_get (n := 129) faults key sc
  let alias_pre := r.2.1.text
  if alias_pre.length < 8 then
    let attributes := (attributeSuffixes single).mapIdx (fun p suffix =>
      (⟨if suffix = "::prev_rule_enabled_state".toList ∨
          suffix = "::internal_port_range_size".toList then Buf.sprintf_s (alias_pre ++ suffix)
        else Buf.snprintf (alias_pre ++ suffix), (cache (i + 1 + p)).val⟩ : TCache))
    let cache ← putRecords cache i (⟨Buf.snprintf key, r.2.1⟩ :: attributes)
    some (cache, r.2.2)
  else none

def initEntries (single : Bool) (j i : ℕ) :
    ℕ → Cache → SyscfgState → Option (ℕ × Cache × SyscfgState)
  | 0, cache, sc => some (i, cache, sc)
  | n + 1, cache, sc => do
    let (cache, sc) ← initEntry faults single j i cache sc
    initEntries single (j + 1) (i + 1 + (attributeSuffixes single).length) n cache sc

/-- A count record; it is kept only if the read succeeds. -/
def initCount (key : CStr) (i : ℕ) (cache : Cache) (sc : SyscfgState) :
    ℕ × ℤ × Cache × SyscfgState :=
  let r := syscfg_get (n := 129) faults key sc
  let cache := Function.update cache i ⟨Buf.snprintf key, r.2.1⟩
  if r.1 then (i + 1, atoi r.2.1.text, cache, r.2.2) else (i, 0, cache, r.2.2)

def initPfCache (s : PfState) : Option PfState := do
  let f := syscfg_get (n := 8) faults pfParamName s.sc
  let gpfEnable := if f.1 ∧ f.2.1.text ≠ [] then atoi f.2.1.text else s.gpfEnable
  let (i, spf_count, cache, sc) := initCount faults "SinglePortForwardCount".toList 0 s.pf_cache
    f.2.2
  let (i, pfr_count, cache, sc) := initCount faults "PortRangeForwardCount".toList i cache sc
  let (i, cache, sc) ← initEntries faults true 1 i spf_count.toNat cache sc
  let (i, cache, sc) ← initEntries faults false 1 i pfr_count.toNat cache sc
  some { s with pf_cache := cache, pf_cache_size := i, gpfEnable := gpfEnable, sc := sc }

def PfState.boot (db : Store CStr CStr) : PfState where
  pf_cache := fun _ => TCache.zero
  pf_cache_bkup := fun _ => TCache.zero
  pf_cache_size := 0
  pf_cache_size_bkup := 0
  gpfEnable := 0
  sc := ⟨db, 0⟩

theorem clearLoop_eq (i n : ℕ) (s : PfState) :
    clearLoop faults i n s = ((unsetLoop faults (keysFrom s.pf_cache i n) s.sc).1,
      { s with
        pf_cache := clearFrom s.pf_cache i (leading faults s.sc.calls n)
        sc := (unsetLoop faults (keysFrom s.pf_cache i n) s.sc).2 }) := by
  induction n generalizing i s with
  | zero =>
    have hnone : clearFrom s.pf_cache i 0 = s.pf_cache := by
      funext j
      exact if_neg (by omega)
    rw [leading, hnone]
    rfl
  | succ n ih =>
    rw [clearLoop, keysFrom, List.range'_succ, List.map_cons, unsetLoop, leading, syscfg_unset,
      unsetCall]
    cases hf : faults s.sc.calls with
    | true =>
      have hnone : clearFrom s.pf_cache i 0 = s.pf_cache := by
        funext j
        exact if_neg (by omega)
      simp only [if_true, Bool.false_eq_true, if_false, hnone]
    | false =>
      have hkeys : keysFrom (Function.update s.pf_cache i TCache.zero) (i + 1) n =
          keysFrom s.pf_cache (i + 1) n := by
        refine List.map_congr_left (fun j hj => ?_)
        rw [Function.update_of_ne]
        have hle := (List.mem_range'_1.mp hj).1
        omega
      have hclear : clearFrom (Function.update s.pf_cache i TCache.zero) (i + 1)
          (leading faults (s.sc.calls + 1) n) =
          clearFrom s.pf_cache i (leading faults (s.sc.calls + 1) n + 1) := by
        funext j
        unfold clearFrom
        by_cases hj : j = i
        · subst hj
          rw [if_neg (by omega), if_pos (by omega), Function.update_self]
        · rw [Function.update_of_ne hj]
          by_cases hin : i + 1 ≤ j ∧ j < i + 1 + leading faults (s.sc.calls + 1) n
          · rw [if_pos hin, if_pos (by omega)]
          · rw [if_neg hin, if_neg (by omega)]
      simp only [Bool.false_eq_true, if_false, if_true, ih, hkeys, hclear]
      rfl

/-- The clearing of the cached keys and the commit after it go through. -/
def ClearSucceeds (s : PfState) : Prop :=
  ∀ i ≤ s.pf_cache_size, faults (s.sc.calls + i) = false

variable (s : PfState)

theorem clearPfCacheDB_eq :
    ∃ calls, (clearPfCacheDB faults s).2 = { s with
      pf_cache := clearFrom s.pf_cache 0 (leading faults s.sc.calls s.pf_cache_size)
      sc := ⟨unsetAll ((keys (cached s.pf_cache s.pf_cache_size)).take
        (leading faults s.sc.calls s.pf_cache_size)) s.sc.db, calls⟩ } ∧
      ((clearPfCacheDB faults s).1 = true ↔ ClearSucceeds faults s) ∧
      (ClearSucceeds faults s → calls = s.sc.calls + s.pf_cache_size + 1) := by
  have hlen : (keysFrom s.pf_cache 0 s.pf_cache_size).length = s.pf_cache_size := by
    rw [keysFrom, List.length_map, List.length_range']
  rw [clearPfCacheDB, clearLoop_eq, unsetLoop_eq, hlen, keys_cached]
  by_cases hall : leading faults s.sc.calls s.pf_cache_size = s.pf_cache_size
  · rw [if_pos (decide_eq_true hall)]
    refine ⟨_, rfl, ?_, fun _ => ?_⟩
    · rw [leading_eq_iff] at hall
      have hcalls : s.sc.calls + min (leading faults s.sc.calls s.pf_cache_size + 1)
          s.pf_cache_size = s.sc.calls + s.pf_cache_size := by
        rw [(leading_eq_iff _ _ _).mpr hall]
        omega
      simp only [syscfg_commit, commitCall, hcalls, Bool.not_eq_true']
      constructor
      · intro hcommit i hi
        rcases Nat.lt_or_eq_of_le hi with hlt | rfl
        · exact hall i hlt
        · exact hcommit
      · intro hs
        exact hs s.pf_cache_size (Nat.le_refl _)
    · simp only [hall]
      omega
  · rw [if_neg (by simp [hall])]
    have hno : ¬ ClearSucceeds faults s := by
      intro hs
      exact hall ((leading_eq_iff _ _ _).mpr (fun i hi => hs i hi.le))
    refine ⟨_, rfl, ?_, fun hs => absurd hs hno⟩
    simp [hall, hno]

theorem applyPfCacheToDB_eq (cache : Cache) (n : ℕ) (pmapEnable : ℤ)
    (s : PfState) : ∃ calls, (applyPfCacheToDB faults cache n pmapEnable s).2 = { s with sc :=
      ⟨setAll ((applyWrites cache n s.gpfEnable pmapEnable).take
        (leading faults s.sc.calls (applyWrites cache n s.gpfEnable pmapEnable).length)) s.sc.db,
        calls⟩ } := by
  unfold applyPfCacheToDB
  rw [setLoop_eq]
  dsimp only
  split <;> exact ⟨_, rfl⟩

theorem applyPfCacheToDB_fault {faults : Faults} {cache : Cache} {n : ℕ} {pmapEnable : ℤ}
    {s : PfState} (h : (applyPfCacheToDB faults cache n pmapEnable s).1 = false) :
    ∃ i, faults i = true := by
  by_contra hno
  have hall : ∀ i, faults i = false := fun i => Bool.eq_false_iff.mpr (fun hi => hno ⟨i, hi⟩)
  unfold applyPfCacheToDB at h
  rw [setLoop_eq, (leading_eq_iff _ _ _).mpr (fun i _ => hall _)] at h
  simp [syscfg_commit, commitCall, hall] at h

theorem rollbackPortForwarding_noFaults :
    (rollbackPortForwarding noFaults s).2.sc.db =
      setAll (cached s.pf_cache_bkup s.pf_cache_size_bkup) s.sc.db ∧
    (rollbackPortForwarding noFaults s).2.pf_cache =
      backupPfCache s.pf_cache_bkup s.pf_cache s.pf_cache_size ∧
    (rollbackPortForwarding noFaults s).2.pf_cache_size = s.pf_cache_size_bkup := by
  obtain ⟨calls, h⟩ := applyPfCacheToDB_eq noFaults s.pf_cache_bkup s.pf_cache_size_bkup
    s.gpfEnable s
  rw [leading_noFaults, List.take_length] at h
  refine ⟨?_, ?_, rfl⟩
  · change
      (applyPfCacheToDB noFaults s.pf_cache_bkup s.pf_cache_size_bkup s.gpfEnable s).2.sc.db = _
    rw [h, applyWrites, if_neg (not_not.mpr rfl), List.nil_append]
  · rfl

def Restored (s s' : PfState) : Prop :=
  s'.sc.db = s.sc.db ∧ s'.pf_cache = s.pf_cache ∧ s'.pf_cache_size = s.pf_cache_size

def CacheCurrent (s : PfState) : Prop :=
  ∀ k v, lastValue k (cached s.pf_cache s.pf_cache_size) = some v → s.sc.db k = some v

/-- What a rejected document writes behind the used part of the cache was there
before. -/
def TailKept (w : EntryWrites) (s : PfState) : Prop :=
  (∀ (i : ℕ) p, s.pf_cache_size ≤ i → w.records[i]? = some p → p.print = s.pf_cache i) ∧
    ∀ cmd, w.half = some cmd → s.pf_cache_size ≤ w.records.length →
      Buf.snprintf cmd = (s.pf_cache w.records.length).cmd

def requestWrites (rpm : List Portdoc) (w : EntryWrites) (s : PfState) : List (CStr × CStr) :=
  (if s.gpfEnable ≠ lpfEnable rpm then [(pfParamName, flagText (lpfEnable rpm))] else []) ++
    (w.records ++ countRecords w.spf_count w.pfr_count).map
      (fun p => (p.print.cmd.text, p.print.val.text))

/-- What an accepted document writes before a call fails changes no key outside
the cache, and the array is restored although the copy stops at the new size. -/
def ApplyUndone (rpm : List Portdoc) (w : EntryWrites) (s : PfState) : Prop :=
  (∀ k v, k ∉ keys (cached s.pf_cache s.pf_cache_size) →
    lastValue k ((requestWrites rpm w s).take (leading faults
      (s.sc.calls + s.pf_cache_size + 1) (requestWrites rpm w s).length)) = some v →
    s.sc.db k = some v) ∧
  (∀ i, s.pf_cache_size ≤ i → i < w.records.length + 2 → s.pf_cache_bkup i = s.pf_cache i) ∧
  ∀ i, w.records.length + 2 ≤ i → i < s.pf_cache_size → s.pf_cache i = TCache.zero

/-- When the rollback of a failed request leads back to the state before it. -/
def Restorable (rpm : List Portdoc) (s : PfState) : Prop :=
  CacheCurrent s ∧ (ClearSucceeds faults s → ∀ w, portmapEntries 1 0 0 rpm = some w →
    if w.ret = none then ApplyUndone faults rpm w s else TailKept w s)

theorem restored_rollback_iff {fresh : List (CStr × CStr)} {n : ℕ} {s s₁ : PfState}
    (hdb : s₁.sc.db = setAll fresh (unsetAll ((keys (cached s.pf_cache s.pf_cache_size)).take n)
      s.sc.db))
    (hbkup : s₁.pf_cache_bkup = backupPfCache s.pf_cache s.pf_cache_bkup s.pf_cache_size)
    (hsize : s₁.pf_cache_size_bkup = s.pf_cache_size) :
    Restored s (rollbackPortForwarding noFaults s₁).2 ↔ CacheCurrent s ∧
      (∀ k v, k ∉ keys (cached s.pf_cache s.pf_cache_size) → lastValue k fresh = some v →
        s.sc.db k = some v) ∧
      (∀ i, s.pf_cache_size ≤ i → i < s₁.pf_cache_size → s.pf_cache_bkup i = s.pf_cache i) ∧
      ∀ i, s₁.pf_cache_size ≤ i → s₁.pf_cache i = s.pf_cache i := by
  obtain ⟨hrdb, hrcache, hrsize⟩ := rollbackPortForwarding_noFaults s₁
  have hcached : cached s₁.pf_cache_bkup s₁.pf_cache_size_bkup =
      cached s.pf_cache s.pf_cache_size := by
    rw [hsize, hbkup]
    exact cached_congr (fun i hi => if_pos hi)
  have hstore : (rollbackPortForwarding noFaults s₁).2.sc.db = s.sc.db ↔ CacheCurrent s ∧
      ∀ k v, k ∉ keys (cached s.pf_cache s.pf_cache_size) → lastValue k fresh = some v →
        s.sc.db k = some v := by
    rw [hrdb, hcached, hdb, restore_eq_iff _ _ _ _ (fun k hk => List.mem_of_mem_take hk)]
    rfl
  have harray : (rollbackPortForwarding noFaults s₁).2.pf_cache = s.pf_cache ↔
      (∀ i, s.pf_cache_size ≤ i → i < s₁.pf_cache_size → s.pf_cache_bkup i = s.pf_cache i) ∧
      ∀ i, s₁.pf_cache_size ≤ i → s₁.pf_cache i = s.pf_cache i := by
    rw [hrcache, hbkup, funext_iff]
    constructor
    · intro h
      refine ⟨fun i hi hlt => ?_, fun i hi => ?_⟩
      · have hat := h i
        rwa [backupPfCache, if_pos hlt, backupPfCache, if_neg (by omega)] at hat
      · have hat := h i
        rwa [backupPfCache, if_neg (by omega)] at hat
    · rintro ⟨hbetween, hbehind⟩ i
      by_cases hi : i < s₁.pf_cache_size
      · rw [backupPfCache, if_pos hi, backupPfCache]
        split
        · rfl
        · exact hbetween i (by omega) hi
      · rw [backupPfCache, if_neg hi]
        exact hbehind i (by omega)
  rw [Restored, hstore, harray, hrsize, hsize]
  simp only [and_true, and_assoc]

variable {rpm : List Portdoc} {w : EntryWrites} {ret : Option ErrCode} {size size' : ℕ}
  {c c' : Cache}

theorem setPortmapConf_of_accepted (h : setPortmapConf rpm c size = some (ret, c', size'))
    (hw : portmapEntries 1 0 0 rpm = some w) (hret : w.ret = none) :
    ret = none ∧ size' = w.records.length + 2 ∧ (∀ i, size' ≤ i → c' i = c i) ∧
      cached c' size' = (w.records ++ countRecords w.spf_count w.pfr_count).map
        (fun p => (p.print.cmd.text, p.print.val.text)) := by
  simp only [setPortmapConf, hw, hret, Option.bind_eq_bind, Option.bind_some,
    Option.bind_eq_some_iff, Option.some.injEq, Prod.mk.injEq] at h
  obtain ⟨c₁, hput, rfl, rfl, rfl⟩ := h
  refine ⟨rfl, ?_, fun i hi => putRecords_outside hput (by omega), ?_⟩
  · rw [List.length_map, List.length_append]
    rfl
  · rw [cached_putRecords hput, List.map_map]
    rfl

theorem setPortmapConf_room (h : setPortmapConf rpm c size = some (ret, c', size'))
    (hw : portmapEntries 1 0 0 rpm = some w) (hret : w.ret = none) :
    w.records.length + 2 ≤ portmapCacheSize := by
  simp only [setPortmapConf, hw, hret, Option.bind_eq_bind, Option.bind_some,
    Option.bind_eq_some_iff] at h
  obtain ⟨c₁, hput, -⟩ := h
  obtain ⟨hroom, -⟩ := Option.ite_none_right_eq_some.mp hput
  simpa [countRecords] using hroom

theorem setPortmapConf_of_rejected {code : ErrCode}
    (h : setPortmapConf rpm c size = some (ret, c', size'))
    (hw : portmapEntries 1 0 0 rpm = some w) (hret : w.ret = some code) :
    ret = some code ∧ size' = size ∧ (∀ (i : ℕ) p, w.records[i]? = some p → c' i = p.print) ∧
      (∀ i, w.records.length < i → c' i = c i) ∧ (c' w.records.length).val =
        (c w.records.length).val ∧ (c' w.records.length).cmd =
        (w.half.map Buf.snprintf).getD (c w.records.length).cmd := by
  simp only [setPortmapConf, hw, hret, Option.bind_eq_bind, Option.bind_some,
    Option.bind_eq_some_iff] at h
  obtain ⟨c₁, hput, h⟩ := h
  have hin : ∀ (i : ℕ) p, w.records[i]? = some p → c₁ i = p.print := by
    intro i p hp
    have hi := putRecords_inside (i := i) (r := p.print) hput (by rw [List.getElem?_map, hp]; rfl)
    rwa [Nat.zero_add] at hi
  have hout : ∀ i, w.records.length ≤ i → c₁ i = c i := fun i hi =>
    putRecords_outside hput (Or.inr (by rw [List.length_map]; omega))
  cases hhalf : w.half with
  | none =>
    rw [hhalf] at h
    simp only [Option.some.injEq, Prod.mk.injEq] at h
    obtain ⟨rfl, rfl, rfl⟩ := h
    refine ⟨rfl, rfl, hin, fun i hi => hout i hi.le, ?_, ?_⟩
    · rw [hout _ (Nat.le_refl _)]
    · rw [hout _ (Nat.le_refl _)]
      rfl
  | some cmd =>
    rw [hhalf] at h
    simp only [Option.bind_eq_some_iff, Option.some.injEq, Prod.mk.injEq] at h
    obtain ⟨c₂, hput', rfl, rfl, rfl⟩ := h
    have hat := putRecords_inside (i := 0) (r := ⟨Buf.snprintf cmd, (c₁ w.records.length).val⟩)
      hput' rfl
    rw [Nat.add_zero] at hat
    refine ⟨rfl, rfl, fun i p hp => ?_, fun i hi => ?_, ?_, ?_⟩
    · have hlt := (List.getElem?_eq_some_iff.mp hp).1
      rw [putRecords_outside hput' (Or.inl hlt), hin i p hp]
    · rw [putRecords_outside hput' (Or.inr hi), hout i hi.le]
    · rw [hat, hout _ (Nat.le_refl _)]
    · rw [hat]
      rfl

def cleared (s : PfState) : PfState := { s with
  pf_cache := clearFrom s.pf_cache 0 s.pf_cache_size
  pf_cache_bkup := backupPfCache s.pf_cache s.pf_cache_bkup s.pf_cache_size
  pf_cache_size_bkup := s.pf_cache_size
  sc := ⟨unsetAll (keys (cached s.pf_cache s.pf_cache_size)) s.sc.db,
    s.sc.calls + s.pf_cache_size + 1⟩ }

theorem cleared_db : (cleared s).sc.db =
    unsetAll ((keys (cached s.pf_cache s.pf_cache_size)).take s.pf_cache_size) s.sc.db := by
  rw [List.take_of_length_le (by simp [keys, cached])]
  rfl

/-- The state an accepted document leads to, up to the first call of the apply
that fails. -/
def applied (rpm : List Portdoc) (w : EntryWrites) (c : Cache) (size calls : ℕ)
    (s : PfState) : PfState := { cleared s with
  pf_cache := c
  pf_cache_size := size
  sc := ⟨setAll ((requestWrites rpm w s).take (leading faults (s.sc.calls + s.pf_cache_size + 1)
    (requestWrites rpm w s).length)) (cleared s).sc.db, calls⟩ }

/-- The ways a request can end: it fails while clearing, on the document or
while applying, or it succeeds. -/
inductive Outcome (faults : Faults) (rpm : List Portdoc) (s : PfState) :
    ErrCode → PfState → Prop where
  | clearing (n m calls : ℕ) (hno : ¬ ClearSucceeds faults s) (hm : m ≤ s.pf_cache_size) :
    Outcome faults rpm s .SYSCFG_FAILURE { s with
      pf_cache := clearFrom s.pf_cache 0 m
      pf_cache_bkup := backupPfCache s.pf_cache s.pf_cache_bkup s.pf_cache_size
      pf_cache_size_bkup := s.pf_cache_size
      sc := ⟨unsetAll ((keys (cached s.pf_cache s.pf_cache_size)).take n) s.sc.db, calls⟩ }
  | document (w : EntryWrites) (code : ErrCode) (c : Cache) (size : ℕ)
    (hclear : ClearSucceeds faults s) (hw : portmapEntries 1 0 0 rpm = some w)
    (hret : w.ret = some code)
    (hset : setPortmapConf rpm (cleared s).pf_cache s.pf_cache_size = some (some code, c, size)) :
    Outcome faults rpm s (confError code).ErrorCode
      { cleared s with pf_cache := c, pf_cache_size := size }
  | applying (w : EntryWrites) (c : Cache) (size calls : ℕ) (hclear : ClearSucceeds faults s)
    (hw : portmapEntries 1 0 0 rpm = some w) (hret : w.ret = none)
    (hset : setPortmapConf rpm (cleared s).pf_cache s.pf_cache_size = some (none, c, size))
    (hfault : ∃ i, faults i = true) :
    Outcome faults rpm s .SYSCFG_FAILURE (applied faults rpm w c size calls s)
  | done (w : EntryWrites) (c : Cache) (size calls : ℕ) (hclear : ClearSucceeds faults s)
    (hw : portmapEntries 1 0 0 rpm = some w) (hret : w.ret = none)
    (hset : setPortmapConf rpm (cleared s).pf_cache s.pf_cache_size = some (none, c, size)) :
    Outcome faults rpm s .BLOB_EXEC_SUCCESS
      { applied faults rpm w c size calls s with gpfEnable := lpfEnable rpm }

theorem processPFWebConfigRequest_outcome {faults : Faults} {s s₁ : PfState}
    {err : Err} (h : processPFWebConfigRequest faults rpm s = some (err, s₁)) :
    Outcome faults rpm s err.ErrorCode s₁ := by
  unfold processPFWebConfigRequest at h
  dsimp only at h
  obtain ⟨calls, hstate, hok, hcalls⟩ := clearPfCacheDB_eq faults { s with
    pf_cache_bkup := backupPfCache s.pf_cache s.pf_cache_bkup s.pf_cache_size
    pf_cache_size_bkup := s.pf_cache_size }
  rw [hstate] at h
  split at h
  · next hclear =>
    have hclear' := hok.mp hclear
    have hall := (leading_eq_iff faults s.sc.calls s.pf_cache_size).mpr
      (fun i hi => hclear' i hi.le)
    have hkeys : (keys (cached s.pf_cache s.pf_cache_size)).length = s.pf_cache_size := by
      simp [keys, cached]
    rw [hcalls hclear', hall, List.take_of_length_le hkeys.le] at h
    simp only [Option.bind_eq_bind, Option.bind_eq_some_iff] at h
    obtain ⟨⟨ret, c, size⟩, hset, h⟩ := h
    obtain ⟨w, hw, -⟩ := Option.bind_eq_some_iff.mp hset
    cases hret : w.ret with
    | some code =>
      obtain ⟨rfl, -⟩ := setPortmapConf_of_rejected hset hw hret
      rw [Option.some.injEq, Prod.mk.injEq] at h
      rw [← h.1, ← h.2]
      exact .document w code c size hclear' hw hret hset
    | none =>
      obtain ⟨rfl, -, -, hcached⟩ := setPortmapConf_of_accepted hset hw hret
      have hwrites : applyWrites c size s.gpfEnable (lpfEnable rpm) = requestWrites rpm w s := by
        rw [applyWrites, hcached, requestWrites]
      have happly : ∃ calls, (applyPfCacheToDB faults c size (lpfEnable rpm) { cleared s with
          pf_cache := c, pf_cache_size := size }).2 = applied faults rpm w c size calls s := by
        unfold applied
        rw [← hwrites]
        exact applyPfCacheToDB_eq faults c size (lpfEnable rpm) _
      obtain ⟨calls, happly⟩ := happly
      dsimp only at h
      split at h
      · rw [Option.some.injEq, Prod.mk.injEq] at h
        have hs₁ := h.2.symm.trans (congrArg
          (fun t : PfState => { t with gpfEnable := lpfEnable rpm }) happly)
        rw [← h.1, hs₁]
        exact .done w c size calls hclear' hw hret hset
      · next hfail =>
        rw [Option.some.injEq, Prod.mk.injEq] at h
        have hs₁ := h.2.symm.trans happly
        rw [← h.1, hs₁]
        exact .applying w c size calls hclear' hw hret hset
          (applyPfCacheToDB_fault (Bool.eq_false_iff.mpr hfail))
  · next hclear =>
    rw [Option.some.injEq, Prod.mk.injEq] at h
    rw [← h.1, ← h.2]
    exact .clearing _ _ _ (fun hc => hclear (hok.mpr hc)) (leading_le _ _ _)

def entryAccepted (e : Portdoc) : Bool :=
  e.internal_client.any checkIfIpIsValid &&
    e.external_port.any (fun port => e.external_port_end_range.any (fun last =>
      decide (port ≠ []) && decide (last ≠ []) && checkIfPortsAreValid port last)) &&
    e.protocol.any (fun protocol => (protocolText protocol).isSome)

theorem portmapEntry_ret {i spf pfr : ℕ} {e : Portdoc}
    (h : portmapEntry i spf pfr e = some w) : (w.ret = none ↔ entryAccepted e = true) ∧
      ∀ code, w.ret = some code → (confError code).ErrorCode ≠ .BLOB_EXEC_SUCCESS := by
  cases portmapEntry_cases h with
  | address client hclient hip =>
    refine ⟨by simp [entryAccepted, hclient, hip], fun code hcode => ?_⟩
    rw [← Option.some.inj hcode]
    decide
  | noPort hport =>
    refine ⟨by simp [entryAccepted, hport], fun code hcode => ?_⟩
    rw [← Option.some.inj hcode]
    decide
  | ports port last hport hlast hinvalid =>
    refine ⟨?_, fun code hcode => ?_⟩
    · rcases hinvalid with hempty | hports
      · simp [entryAccepted, hport, hlast, hempty]
      · simp [entryAccepted, hport, hlast, hports]
    · rw [← Option.some.inj hcode]
      decide
  | rule client port last desc enable protocol hclient hip hport hne hlast hvalid _ hprotocol =>
    rw [not_or, not_not] at hvalid
    unfold ruleWrites
    cases htext : protocolText protocol with
    | none =>
      refine ⟨by simp [entryAccepted, hprotocol, htext], fun code hcode => ?_⟩
      rw [← Option.some.inj hcode]
      decide
    | some text =>
      refine ⟨?_, fun code hcode => by cases hcode⟩
      simp [entryAccepted, hclient, hport, hlast, hprotocol, hip, hne, hvalid, htext]

def documentAccepted (rpm : List Portdoc) : Bool := rpm.all entryAccepted

theorem portmapEntries_ret {i spf pfr : ℕ} (h : portmapEntries i spf pfr rpm = some w) :
    (w.ret = none ↔ documentAccepted rpm = true) ∧
      ∀ code, w.ret = some code → (confError code).ErrorCode ≠ .BLOB_EXEC_SUCCESS := by
  induction rpm generalizing i spf pfr w with
  | nil =>
    rw [portmapEntries, Option.some.injEq] at h
    rw [← h]
    exact ⟨by simp [documentAccepted], fun code hcode => by cases hcode⟩
  | cons e rest ih =>
    simp only [portmapEntries, Option.bind_eq_bind, Option.bind_eq_some_iff] at h
    obtain ⟨w₁, hw₁, h⟩ := h
    obtain ⟨hfirst, hcode⟩ := portmapEntry_ret hw₁
    rw [documentAccepted, List.all_cons, Bool.and_eq_true, ← hfirst, ← documentAccepted]
    split at h
    · next hnone =>
      simp only [Option.bind_eq_some_iff, Option.some.injEq] at h
      obtain ⟨ws, hws, rfl⟩ := h
      rw [← (ih hws).1]
      exact ⟨by simp [hnone], (ih hws).2⟩
    · next hsome =>
      rw [Option.some.injEq] at h
      rw [← h]
      exact ⟨iff_of_false hsome (fun hall => hsome hall.1), hcode⟩

theorem rejected_behind_iff {s : PfState} {code : ErrCode}
    {c : Cache} {size : ℕ} (hw : portmapEntries 1 0 0 rpm = some w) (hret : w.ret = some code)
    (hset : setPortmapConf rpm (cleared s).pf_cache s.pf_cache_size = some (some code, c, size)) :
    (∀ i, s.pf_cache_size ≤ i → c i = s.pf_cache i) ↔ TailKept w s := by
  obtain ⟨-, -, hin, hout, hval, hcmd⟩ := setPortmapConf_of_rejected hset hw hret
  have hbehind : ∀ i, s.pf_cache_size ≤ i → (cleared s).pf_cache i = s.pf_cache i :=
    fun i hi => clearFrom_behind s.pf_cache (Nat.le_refl _) hi
  constructor
  · intro hsame
    refine ⟨fun i p hi hp => ?_, fun cmd hhalf hi => ?_⟩
    · rw [← hin i p hp]
      exact hsame i hi
    · rw [← hsame _ hi, hcmd, hhalf]
      rfl
  · rintro ⟨hrecords, hhalf⟩ i hi
    rcases Nat.lt_trichotomy i w.records.length with hlt | rfl | hgt
    · have hp := List.getElem?_eq_getElem hlt
      rw [hin i _ hp]
      exact hrecords i _ hi hp
    · rw [hbehind _ hi] at hval hcmd
      have hcmd' : (c w.records.length).cmd = (s.pf_cache w.records.length).cmd := by
        rw [hcmd]
        cases hh : w.half with
        | none => rfl
        | some cmd => exact hhalf cmd hh hi
      calc c w.records.length = ⟨(c w.records.length).cmd, (c w.records.length).val⟩ := rfl
        _ = s.pf_cache w.records.length := by rw [hcmd', hval]
    · rw [hout i hgt]
      exact hbehind i hi

theorem accepted_behind_iff {s : PfState} {c : Cache} {n : ℕ}
    (hout : ∀ i, n ≤ i → c i = (cleared s).pf_cache i) :
    (∀ i, n ≤ i → c i = s.pf_cache i) ↔
      ∀ i, n ≤ i → i < s.pf_cache_size → s.pf_cache i = TCache.zero := by
  constructor
  · intro hsame i hi hlt
    rw [← hsame i hi, hout i hi]
    exact if_pos (by omega)
  · intro hzero i hi
    rw [hout i hi]
    by_cases hlt : i < s.pf_cache_size
    · rw [hzero i hi hlt]
      exact if_pos (by omega)
    · exact clearFrom_behind s.pf_cache (Nat.le_refl _) (by omega)

/-- Rolling back a failed request leads back to the state before it exactly
when the cache held the stored values, the array keeps its unused part, and no
key outside the cache was written. -/
theorem rollbackPortForwarding_restored_iff (rpm : List Portdoc)
    (s s₁ : PfState) (err : Err)
    (h : processPFWebConfigRequest faults rpm s = some (err, s₁))
    (herr : err.ErrorCode ≠ .BLOB_EXEC_SUCCESS) :
    Restored s (rollbackPortForwarding noFaults s₁).2 ↔ Restorable faults rpm s := by
  have houtcome := processPFWebConfigRequest_outcome h
  generalize err.ErrorCode = code at herr houtcome
  cases houtcome with
  | clearing n m calls hno hm =>
    refine (@restored_rollback_iff [] n _ _ rfl rfl rfl).trans (and_congr_right (fun _ => ?_))
    refine iff_of_true ⟨?_, ?_, ?_⟩ (fun hclear => absurd hclear hno)
    · intro k v _ hv
      cases hv
    · intro i hi hlt
      exact absurd hlt (Nat.not_lt.mpr hi)
    · intro i hi
      exact clearFrom_behind s.pf_cache hm hi
  | document w code c size hclear hw hret hset =>
    obtain ⟨-, rfl, -⟩ := setPortmapConf_of_rejected hset hw hret
    have hdb : ({ cleared s with pf_cache := c } : PfState).sc.db = setAll []
        (unsetAll ((keys (cached s.pf_cache s.pf_cache_size)).take s.pf_cache_size) s.sc.db) :=
      cleared_db s
    refine (restored_rollback_iff hdb rfl rfl).trans (and_congr_right (fun _ => ?_))
    simp only [hclear, hw, hret, Option.some.injEq, forall_true_left, forall_eq', reduceCtorEq,
      if_false, ← rejected_behind_iff hw hret hset]
    constructor
    · rintro ⟨-, -, hsame⟩
      exact hsame
    · intro hsame
      refine ⟨fun k v _ hv => ?_, fun i hi hlt => ?_, hsame⟩
      · cases hv
      · exact absurd hlt (Nat.not_lt.mpr hi)
  | done => exact absurd rfl herr
  | applying w c size calls hclear hw hret hset =>
    obtain ⟨-, rfl, hout, -⟩ := setPortmapConf_of_accepted hset hw hret
    refine (restored_rollback_iff (congrArg _ (cleared_db s)) rfl rfl).trans
      (and_congr_right (fun _ => ?_))
    simp only [hclear, hw, hret, Option.some.injEq, forall_true_left, forall_eq', if_true,
      ApplyUndone, ← accepted_behind_iff hout]
    rfl

def invalidClient : Portdoc := { portdoc "80" "80" with internal_client := some "10.0.0".toList }

/-- After a successful request the cache is current, so that a rejected one is
undone. -/
theorem rollbackPortForwarding_restored_second : ∃ s s₁ err,
    (processPFWebConfigRequest noFaults [portdoc "80" "80"] (PfState.boot (fun _ => none))).map
      Prod.snd = some s ∧
    processPFWebConfigRequest noFaults [invalidClient] s = some (err, s₁) ∧
    err.ErrorCode ≠ .BLOB_EXEC_SUCCESS ∧ Restored s (rollbackPortForwarding noFaults s₁).2 := by
  have hrun : ((processPFWebConfigRequest noFaults [portdoc "80" "80"]
      (PfState.boot (fun _ => none))).map Prod.snd).bind (fun s =>
        (processPFWebConfigRequest noFaults [invalidClient] s).map (fun r =>
          (r.1.ErrorCode, decide (∀ p ∈ cached s.pf_cache s.pf_cache_size,
            s.sc.db p.1 = some p.2)))) = some (.INVALID_IP, true) := by
    decide +kernel
  obtain ⟨s, hs, hrun⟩ := Option.bind_eq_some_iff.mp hrun
  obtain ⟨⟨err, s₁⟩, h, hval⟩ := Option.map_eq_some_iff.mp hrun
  rw [Prod.mk.injEq, decide_eq_true_eq] at hval
  have herr : err.ErrorCode ≠ .BLOB_EXEC_SUCCESS := by
    rw [hval.1]
    decide
  have hw : portmapEntries 1 0 0 [invalidClient] = some ⟨[], none, some .INVALID_IP, 0, 0⟩ := by
    rfl
  refine ⟨s, s₁, err, hs, h, herr,
    (rollbackPortForwarding_restored_iff noFaults _ s s₁ err h herr).mpr ⟨fun k v hv => ?_, ?_⟩⟩
  · exact hval.2 _ (mem_of_lastValue hv)
  · intro _ w hw'
    rw [hw, Option.some.injEq] at hw'
    rw [← hw', if_neg (by decide)]
    refine ⟨fun i p _ hp => ?_, fun cmd hcmd => ?_⟩
    · cases hp
    · cases hcmd

def bootStore : Store CStr CStr := setAll
  ([("CosaNAT::port_forward_enabled", "1"), ("SinglePortForwardCount", "1"),
    ("PortRangeForwardCount", "0"), ("SinglePortForward_1", "spf_1"),
    ("spf_1::external_port", "80"), ("spf_1::to_ip", "10.0.0.7"), ("spf_1::name", "game"),
    ("spf_1::enabled", "1"), ("spf_1::protocol", "both"), ("spf_1::internal_port", "0"),
    ("spf_1::to_ipv6", "x"), ("spf_1::prev_rule_enabled_state", "1")].map
    (fun p => (p.1.toList, p.2.toList))) (fun _ => none)

/-- The cache filled at boot has no values, so that the first rollback stores
empty ones. -/
theorem rollbackPortForwarding_boot_values_lost :
    ¬ ∀ (faults : Faults) (db : Store CStr CStr) (rpm : List Portdoc) (s s₁ : PfState) (err : Err),
      initPfCache noFaults (PfState.boot db) = some s →
      processPFWebConfigRequest faults rpm s = some (err, s₁) →
      err.ErrorCode ≠ .BLOB_EXEC_SUCCESS →
      Restored s (rollbackPortForwarding noFaults s₁).2 := by
  intro hclaim
  have hrun : (initPfCache noFaults (PfState.boot bootStore)).bind (fun s =>
      (processPFWebConfigRequest noFaults [invalidClient] s).map (fun r =>
        (r.1.ErrorCode, s.sc.db "spf_1::to_ip".toList,
          (rollbackPortForwarding noFaults r.2).2.sc.db "spf_1::to_ip".toList))) =
      some (.INVALID_IP, some "10.0.0.7".toList, some []) := by
    decide +kernel
  obtain ⟨s, hs, hrun⟩ := Option.bind_eq_some_iff.mp hrun
  obtain ⟨⟨err, s₁⟩, h, hval⟩ := Option.map_eq_some_iff.mp hrun
  rw [Prod.mk.injEq, Prod.mk.injEq] at hval
  obtain ⟨hcode, hbefore, hafter⟩ := hval
  have herr : err.ErrorCode ≠ .BLOB_EXEC_SUCCESS := by
    rw [hcode]
    decide
  have hdb := (hclaim noFaults bootStore _ s s₁ err hs h herr).1
  rw [hdb, hbefore] at hafter
  revert hafter
  decide

end CcspPandM.PortForwardRequest
