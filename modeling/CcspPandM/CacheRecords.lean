import CcspPandM.CString
import CcspPandM.KeyStore

/-!
The arrays of records that the webconfig code keeps between a document and
syscfg. A key goes into 32 bytes, a value into 129: `snprintf` cuts what does
not fit, `sprintf_s` leaves an empty text.
-/
namespace CcspPandM.CacheRecords

open CString KeyStore

/-- `t_cache`. -/
structure TCache where
  cmd : Buf 32
  val : Buf 129
  deriving DecidableEq

def TCache.zero : TCache := ⟨Buf.empty, Buf.empty⟩

/-- An array of cache records. The code uses the indices below
`PORTMAP_CACHE_SIZE`. -/
abbrev Cache := ℕ → TCache

def portmapCacheSize : ℕ := 1024

/-- Stores records from an index on; past the end of the array the effect is
undefined. -/
def putRecords (cache : Cache) (count : ℕ) (recs : List TCache) : Option Cache :=
  if count + recs.length ≤ portmapCacheSize then
    some (fun i => if h : count ≤ i ∧ i < count + recs.length then
      recs.get ⟨i - count, by omega⟩ else cache i)
  else none

/-- A record to be printed: its key, by `sprintf_s` or by `snprintf`, and its
value, always by `snprintf`. -/
structure Printed where
  safe : Bool
  cmd : CStr
  val : CStr

def Printed.print (p : Printed) : TCache :=
  ⟨if p.safe then Buf.sprintf_s p.cmd else Buf.snprintf p.cmd, Buf.snprintf p.val⟩

def cached (pf_cache : Cache) (size : ℕ) : List (CStr × CStr) :=
  (List.range size).map (fun i => ((pf_cache i).cmd.text, (pf_cache i).val.text))

variable {c c' : Cache} {recs : List TCache}

theorem putRecords_outside {count i : ℕ}
    (h : putRecords c count recs = some c') (hi : i < count ∨ count + recs.length ≤ i) :
    c' i = c i := by
  simp only [putRecords, Option.ite_none_right_eq_some, Option.some.injEq] at h
  rw [← h.2]
  exact dif_neg (by omega)

theorem putRecords_inside {count i : ℕ} {r : TCache}
    (h : putRecords c count recs = some c') (hr : recs[i]? = some r) : c' (count + i) = r := by
  simp only [putRecords, Option.ite_none_right_eq_some, Option.some.injEq] at h
  obtain ⟨hi, hget⟩ := List.getElem?_eq_some_iff.mp hr
  have hat : c' (count + i) = recs.get ⟨count + i - count, by omega⟩ := by
    rw [← h.2]
    exact dif_pos (by omega)
  rw [hat, List.get_eq_getElem, ← hget]
  congr 1
  exact Nat.add_sub_cancel_left count i

theorem cached_putRecords (h : putRecords c 0 recs = some c') :
    cached c' recs.length = recs.map (fun r => (r.cmd.text, r.val.text)) := by
  simp only [putRecords, Option.ite_none_right_eq_some, Option.some.injEq] at h
  rw [cached, ← h.2]
  apply List.ext_getElem
  · simp
  · intro n h1 h2
    have hn : n < recs.length := by simpa using h1
    simp [hn]

theorem Printed.cmd_text_eq_iff (p : Printed) : p.print.cmd.text = p.cmd ↔ p.cmd.length < 32 := by
  unfold Printed.print
  cases p.safe with
  | false => exact Buf.text_snprintf_eq_iff p.cmd
  | true =>
    constructor
    · intro h
      rw [← h]
      exact Buf.text_length_lt _
    · exact Buf.text_sprintf_s_of_lt

theorem Printed.val_text_eq_iff (p : Printed) : p.print.val.text = p.val ↔ p.val.length < 129 :=
  Buf.text_snprintf_eq_iff p.val

theorem printed_keys_iff (recs : List Printed) :
    keys (recs.map (fun p => (p.print.cmd.text, p.print.val.text))) = recs.map Printed.cmd ↔
      ∀ p ∈ recs, p.cmd.length < 32 := by
  rw [keys, List.map_map, List.map_inj_left]
  exact forall₂_congr (fun p _ => p.cmd_text_eq_iff)

variable {p : Printed}

section Read

variable {recs : List Printed} (hfit : ∀ p ∈ recs, p.cmd.length < 32)
  (hnodup : (recs.map Printed.cmd).Nodup)

include hfit hnodup

theorem store_of_mem (hp : p ∈ recs) :
    setAll (recs.map (fun p => (p.print.cmd.text, p.print.val.text))) (fun _ => none) p.cmd =
      some p.print.val.text := by
  have hkeys := (printed_keys_iff recs).mpr hfit
  rw [setAll_apply, lastValue_of_mem (v := p.print.val.text)]
  · rfl
  · rw [hkeys]
    exact hnodup
  · exact List.mem_map.mpr ⟨p, hp, by rw [(p.cmd_text_eq_iff).mpr (hfit p hp)]⟩

theorem store_eq_val_iff (hp : p ∈ recs) :
    setAll (recs.map (fun p => (p.print.cmd.text, p.print.val.text))) (fun _ => none) p.cmd =
      some p.val ↔ p.val.length < 129 := by
  rw [store_of_mem hfit hnodup hp, Option.some.injEq, p.val_text_eq_iff]

end Read

theorem Printed.cmd_text (hsafe : p.safe = false → p.cmd.length < 32) :
    p.print.cmd.text = if p.cmd.length < 32 then p.cmd else [] := by
  by_cases hfit : p.cmd.length < 32
  · rw [if_pos hfit]
    exact p.cmd_text_eq_iff.mpr hfit
  · have hs : p.safe = true := by
      by_contra hno
      exact hfit (hsafe (Bool.eq_false_iff.mpr hno))
    unfold Printed.print
    dsimp only
    rw [hs, if_pos rfl, Buf.text_sprintf_s]

theorem lastValue_printed {recs : List Printed}
    (hsafe : ∀ p ∈ recs, p.safe = false → p.cmd.length < 32)
    (hnodup : (recs.map Printed.cmd).Nodup) (hp : p ∈ recs)
    (hfit : p.cmd.length < 32) (hne : p.cmd ≠ []) :
    lastValue p.cmd (recs.map (fun p => (p.print.cmd.text, p.print.val.text))) =
      some p.print.val.text := by
  induction recs with
  | nil => cases hp
  | cons q rest ih =>
    rw [List.map_cons, List.nodup_cons] at hnodup
    rw [List.map_cons, lastValue]
    rcases List.mem_cons.mp hp with rfl | hp
    · have hnone : lastValue p.cmd
          (rest.map (fun p => (p.print.cmd.text, p.print.val.text))) = none := by
        rw [lastValue_eq_none_iff]
        intro hmem
        obtain ⟨w, hw, hkey⟩ := List.mem_map.mp hmem
        obtain ⟨r, hr, rfl⟩ := List.mem_map.mp hw
        dsimp only at hkey
        rw [Printed.cmd_text (hsafe r (List.mem_cons_of_mem p hr))] at hkey
        split at hkey
        · exact hnodup.1 (List.mem_map.mpr ⟨r, hr, hkey⟩)
        · exact hne hkey.symm
      rw [hnone, Option.none_or, if_pos (p.cmd_text_eq_iff.mpr hfit)]
    · rw [ih (fun r hr => hsafe r (List.mem_cons_of_mem q hr)) hnodup.2 hp]
      rfl

def clearFrom (c : Cache) (i n : ℕ) : Cache :=
  fun j => if i ≤ j ∧ j < i + n then TCache.zero else c j

def keysFrom (c : Cache) (i n : ℕ) : List CStr :=
  (List.range' i n).map (fun j => (c j).cmd.text)

theorem keys_cached (c : Cache) (n : ℕ) : keys (cached c n) = keysFrom c 0 n := by
  rw [keys, cached, keysFrom, List.map_map, List.range_eq_range']
  rfl

theorem cached_congr {n : ℕ} (h : ∀ i < n, c i = c' i) :
    cached c n = cached c' n := by
  refine List.map_congr_left (fun i hi => ?_)
  rw [h i (List.mem_range.mp hi)]

theorem clearFrom_behind (c : Cache) {n m i : ℕ} (hm : m ≤ n) (hi : n ≤ i) :
    clearFrom c 0 m i = c i := if_neg (by omega)

end CcspPandM.CacheRecords
