import Mathlib.Data.List.GetD
import Mathlib.Data.List.InsertIdx
import Mathlib.Data.List.Nodup
import Mathlib.Data.List.Range

/-!
Arrays in the manner of C: grown by one cell with `realloc`, shifted down by
hand when a cell is taken out, searched from the front. Only the first cells
count, what stands behind them is left over. `Column` says that these first
cells hold one member of the records of a list; every operation on the array
is then an operation on the list.
-/
namespace CcspPandM.PackedArray

variable {α β : Type*}

section Operations

variable [Inhabited α]

def realloc (a : List α) (n : ℕ) : List α := a.take n ++ List.replicate (n - a.length) default

/-- `for (j = i; j < n - 1; j++) a[j] = a[j + 1]` -/
def moveBack (a : List α) (i n : ℕ) : List α :=
  (List.range' i (n - 1 - i)).foldl (fun a j => a.set j (a.getD (j + 1) default)) a

end Operations

/-- The first of the `n` cells that holds `x`. -/
def search [DecidableEq α] (a : List α) (n : ℕ) (x : α) : Option ℕ :=
  (List.range n).find? (fun i => a[i]? = some x)

def Column (a : List α) (f : β → α) (l : List β) : Prop :=
  l.length ≤ a.length ∧ a.take l.length = l.map f

variable {a : List α} {f : β → α} {l : List β}

theorem Column.getElem? (h : Column a f l) {i : ℕ} (hi : i < l.length) :
    a[i]? = l[i]?.map f := by
  have htake := congrArg (fun b => b[i]?) h.2
  simp only [List.getElem?_take, if_pos hi, List.getElem?_map] at htake
  exact htake

theorem Column.set (h : Column a f l) (i : ℕ) (x : β) : Column (a.set i (f x)) f (l.set i x) := by
  refine ⟨by simpa using h.1, ?_⟩
  rw [List.length_set, List.take_set, h.2, List.map_set]

theorem column_range {n : ℕ} (hn : n ≤ a.length) (d : α) {g : ℕ → β}
    (hg : ∀ i < n, f (g i) = a.getD i d) : Column a f ((List.range n).map g) := by
  refine ⟨by simpa using hn, ?_⟩
  apply List.ext_getElem?
  intro i
  rw [List.length_map, List.length_range, List.getElem?_take, List.map_map, List.getElem?_map]
  split
  · next hi =>
    rw [List.getElem?_range hi, Option.map_some, Function.comp_apply, hg i hi,
      List.getElem?_eq_getElem (by omega), List.getD_eq_getElem _ _ (by omega)]
  · next hi => rw [List.getElem?_eq_none (by simpa using hi), Option.map_none]

section Operations

variable [Inhabited α]

theorem length_realloc (a : List α) (n : ℕ) : (realloc a n).length = n := by
  rw [realloc, List.length_append, List.length_take, List.length_replicate]
  omega

theorem Column.realloc_set (h : Column a f l) (x : β) :
    Column ((realloc a (l.length + 1)).set l.length (f x)) f (l ++ [x]) := by
  have hlength := length_realloc a (l.length + 1)
  refine ⟨by simp [hlength], ?_⟩
  rw [List.length_append, List.length_singleton, List.map_append, ← h.2]
  have hfront : (realloc a (l.length + 1)).take l.length = a.take l.length := by
    have hle : l.length ≤ (a.take (l.length + 1)).length := by
      rw [List.length_take]
      exact Nat.le_min.mpr ⟨Nat.le_succ _, h.1⟩
    rw [realloc, List.take_append_of_le_length hle, List.take_take, Nat.min_eq_left (Nat.le_succ _)]
  rw [List.take_of_length_le (by simp [hlength]), List.set_eq_take_append_cons_drop,
    if_pos (by omega), hfront, List.drop_of_length_le (by omega)]
  rfl

omit [Inhabited α] in
theorem length_foldl_set (g : List α → ℕ → α) (js : List ℕ) (a : List α) :
    (js.foldl (fun a j => a.set j (g a j)) a).length = a.length := by
  induction js generalizing a with
  | nil => rfl
  | cons j js ih => rw [List.foldl_cons, ih, List.length_set]

theorem length_moveBack (a : List α) (i n : ℕ) : (moveBack a i n).length = a.length :=
  length_foldl_set _ _ a

theorem getElem?_moveBack_range (a : List α) (i m k : ℕ) (hm : i + m < a.length) :
    ((List.range' i m).foldl (fun a j => a.set j (a.getD (j + 1) default)) a)[k]? =
      if i ≤ k ∧ k < i + m then a[k + 1]? else a[k]? := by
  induction m generalizing i a with
  | zero => rw [List.range'_zero, List.foldl_nil, if_neg (by omega)]
  | succ m ih =>
    rw [List.range'_succ, List.foldl_cons, ih _ _ (by rw [List.length_set]; omega)]
    have hhere : a.getD (i + 1) default = a.get ⟨i + 1, by omega⟩ := by
      rw [List.getD_eq_getElem _ _ (by omega), List.get_eq_getElem]
    rcases Nat.lt_trichotomy k i with hlt | rfl | hgt
    · rw [if_neg (by omega), if_neg (by omega), List.getElem?_set_ne (by omega)]
    · rw [if_neg (by omega), if_pos (by omega), List.getElem?_set_self (by omega), hhere]
      exact (List.getElem?_eq_getElem _).symm
    · rw [List.getElem?_set_ne (by omega), List.getElem?_set_ne (by omega)]
      exact if_congr (by omega) rfl rfl

theorem take_moveBack (a : List α) {i n : ℕ} (hi : i < n) (hn : n ≤ a.length) :
    (moveBack a i n).take (n - 1) = (a.take n).eraseIdx i := by
  apply List.ext_getElem?
  intro k
  rw [List.getElem?_eraseIdx, List.getElem?_take, moveBack,
    getElem?_moveBack_range _ _ _ _ (by omega)]
  rcases Nat.lt_or_ge k i with hlt | hge
  · rw [if_pos (by omega), if_neg (by omega), if_pos hlt, List.getElem?_take, if_pos (by omega)]
  · rw [if_neg (Nat.not_lt.mpr hge), List.getElem?_take]
    by_cases hk : k < n - 1
    · rw [if_pos hk, if_pos (by omega), if_pos (by omega)]
    · rw [if_neg hk, if_neg (by omega)]

theorem Column.moveBack (h : Column a f l) {i : ℕ} (hi : i < l.length) :
    Column (moveBack a i l.length) f (l.eraseIdx i) := by
  have hlength : (l.eraseIdx i).length = l.length - 1 := List.length_eraseIdx_of_lt hi
  refine ⟨?_, ?_⟩
  · rw [hlength, length_moveBack]
    exact Nat.le_trans (Nat.sub_le _ _) h.1
  · rw [hlength, take_moveBack a hi h.1, h.2, List.eraseIdx_map]

end Operations

theorem Column.search_eq_some_iff [DecidableEq α] (h : Column a f l) (hl : (l.map f).Nodup)
    (x : α) (i : ℕ) : search a l.length x = some i ↔ (l.map f)[i]? = some x := by
  have hcell : ∀ j < l.length, a[j]? = (l.map f)[j]? := fun j hj => by
    rw [h.getElem? hj, List.getElem?_map]
  rw [search, List.find?_range_eq_some]
  constructor
  · intro hi
    rw [← hcell i (List.mem_range.mp hi.2.1)]
    exact of_decide_eq_true hi.1
  · intro hi
    obtain ⟨hlt, -⟩ := List.getElem?_eq_some_iff.mp hi
    have hlen : i < l.length := by simpa using hlt
    refine ⟨by simp [hcell i hlen, hi], List.mem_range.mpr hlen, fun j hj => ?_⟩
    have hne : (l.map f)[j]? ≠ some x := fun hx =>
      Nat.ne_of_lt hj ((List.getElem?_inj (by omega) hl).mp (hx.trans hi.symm))
    simpa [hcell j (by omega)] using hne

theorem Column.search_eq_none_iff [DecidableEq α] (h : Column a f l) (x : α) :
    search a l.length x = none ↔ x ∉ l.map f := by
  rw [search, List.find?_eq_none]
  constructor
  · intro hnone hx
    obtain ⟨i, hi⟩ := List.getElem?_of_mem hx
    obtain ⟨hlt, -⟩ := List.getElem?_eq_some_iff.mp hi
    have hlen : i < l.length := by simpa using hlt
    apply hnone i (List.mem_range.mpr hlen)
    rw [h.getElem? hlen, ← List.getElem?_map, hi]
    exact decide_eq_true rfl
  · intro hx i hi hcell
    have hlen := List.mem_range.mp hi
    rw [h.getElem? hlen, ← List.getElem?_map] at hcell
    exact hx (List.mem_of_getElem? (of_decide_eq_true hcell))

end CcspPandM.PackedArray
