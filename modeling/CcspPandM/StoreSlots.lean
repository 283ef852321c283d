import CcspPandM.KeyStore
import Mathlib.Data.List.Nodup
import Mathlib.Data.List.Range

/-!
Arrays kept in numbered slots of a store. Each slot has a name, and the record
of its element is written under that name, one key for each field. Writing a
slot, clearing it and shifting a stretch of slots down by one are described by
what they leave in the slots and by what they do not touch.
-/
namespace CcspPandM.StoreSlots

open KeyStore

variable {N κ ν α : Type*} [DecidableEq N] [DecidableEq κ]

def writeSlot (n : N) (r : List (κ × ν)) (s : Store (N × κ) ν) : Store (N × κ) ν :=
  setAll (r.map (fun e => ((n, e.1), e.2))) s

def clearSlot (n : N) (ks : List κ) (s : Store (N × κ) ν) : Store (N × κ) ν :=
  unsetAll (ks.map (fun k => (n, k))) s

def Holds (s : Store (N × κ) ν) (n : N) (r : List (κ × ν)) : Prop := ∀ e ∈ r, s (n, e.1) = some e.2

instance [DecidableEq ν] (s : Store (N × κ) ν) (n : N) (r : List (κ × ν)) :
    Decidable (Holds s n r) :=
  inferInstanceAs (Decidable (∀ e ∈ r, s (n, e.1) = some e.2))

omit [DecidableEq N] [DecidableEq κ] in
theorem keys_named (n : N) (r : List (κ × ν)) :
    keys (r.map (fun e => ((n, e.1), e.2))) = (keys r).map (fun k => (n, k)) := by
  simp [keys]

theorem writeSlot_of_ne {n n' : N} (h : n' ≠ n) (r : List (κ × ν)) (s : Store (N × κ) ν) (k : κ) :
    writeSlot n r s (n', k) = s (n', k) := by
  apply setAll_of_notMem
  rw [keys_named]
  intro hmem
  obtain ⟨a, -, ha⟩ := List.mem_map.mp hmem
  exact h (Prod.mk.inj ha).1.symm

theorem writeSlot_of_notMem {k : κ} {r : List (κ × ν)} (h : k ∉ keys r) (n n' : N)
    (s : Store (N × κ) ν) : writeSlot n r s (n', k) = s (n', k) := by
  apply setAll_of_notMem
  rw [keys_named]
  intro hmem
  obtain ⟨a, ha, hak⟩ := List.mem_map.mp hmem
  rw [← (Prod.mk.inj hak).2] at h
  exact h ha

theorem holds_writeSlot {r : List (κ × ν)} (hr : (keys r).Nodup) (n : N) (s : Store (N × κ) ν) :
    Holds (writeSlot n r s) n r := by
  intro e he
  have hnd : (keys (r.map (fun e => ((n, e.1), e.2)))).Nodup := by
    rw [keys_named]
    exact hr.map (fun a b hab => (Prod.mk.inj hab).2)
  have hmem : ((n, e.1), e.2) ∈ r.map (fun e => ((n, e.1), e.2)) := List.mem_map_of_mem he
  rw [writeSlot, setAll_apply, lastValue_of_mem hnd hmem, Option.some_or]

theorem holds_writeSlot_changed {r ws : List (κ × ν)} {n : N} {s : Store (N × κ) ν}
    (hr : (keys r).Nodup) (hws : ∀ w ∈ ws, w ∈ r)
    (hs : ∀ e ∈ r, e ∈ ws ∨ s (n, e.1) = some e.2) : Holds (writeSlot n ws s) n r := by
  intro e he
  cases hlast : lastValue (n, e.1) (ws.map (fun w => ((n, w.1), w.2))) with
  | some v =>
    obtain ⟨w, hw, hwv⟩ := List.mem_map.mp (mem_of_lastValue hlast)
    obtain ⟨hname, hvalue⟩ := Prod.mk.inj hwv
    have hwe : w = e := List.inj_on_of_nodup_map hr (hws w hw) he (Prod.mk.inj hname).2
    rw [writeSlot, setAll_apply, hlast, Option.some_or, ← hvalue, hwe]
  | none =>
    have hnotMem := (lastValue_eq_none_iff _ _).mp hlast
    have hnot : e ∉ ws := by
      intro hmem
      apply hnotMem
      rw [keys_named]
      exact List.mem_map_of_mem (List.mem_map_of_mem hmem)
    rw [writeSlot, setAll_apply, hlast, Option.none_or]
    exact (hs e he).resolve_left hnot

theorem clearSlot_of_mem {k : κ} {ks : List κ} (h : k ∈ ks) (n : N) (s : Store (N × κ) ν) :
    clearSlot n ks s (n, k) = none :=
  unsetAll_of_mem s (List.mem_map_of_mem h)

theorem clearSlot_of_ne {n n' : N} (h : n' ≠ n) (ks : List κ) (s : Store (N × κ) ν) (k : κ) :
    clearSlot n ks s (n', k) = s (n', k) := by
  apply unsetAll_of_notMem
  intro hmem
  obtain ⟨a, -, ha⟩ := List.mem_map.mp hmem
  exact h (Prod.mk.inj ha).1.symm

theorem clearSlot_of_notMem {k : κ} {ks : List κ} (h : k ∉ ks) (n n' : N) (s : Store (N × κ) ν) :
    clearSlot n ks s (n', k) = s (n', k) := by
  apply unsetAll_of_notMem
  intro hmem
  obtain ⟨a, ha, hak⟩ := List.mem_map.mp hmem
  rw [← (Prod.mk.inj hak).2] at h
  exact h ha

omit [DecidableEq N] [DecidableEq κ] in
theorem holds_congr {s t : Store (N × κ) ν} {n : N} {r : List (κ × ν)}
    (h : ∀ k, t (n, k) = s (n, k)) (hs : Holds s n r) : Holds t n r := by
  intro e he
  rw [h]
  exact hs e he

section shift

variable (slot : ℕ → N) (record : α → List (κ × ν))

def shiftDown : ℕ → ℕ → (ℕ → α) × Store (N × κ) ν → (ℕ → α) × Store (N × κ) ν
  | _, 0, st => st
  | i, c + 1, (a, s) =>
    shiftDown (i + 1) c (Function.update a i (a (i + 1)), writeSlot (slot i) (record (a (i + 1))) s)

def shiftArray : ℕ → ℕ → (ℕ → α) → ℕ → α
  | _, 0, a => a
  | i, c + 1, a => shiftArray (i + 1) c (Function.update a i (a (i + 1)))

theorem shiftDown_fst (i c : ℕ) (st : (ℕ → α) × Store (N × κ) ν) :
    (shiftDown slot record i c st).1 = shiftArray i c st.1 := by
  induction c generalizing i st with
  | zero => rfl
  | succ c ih => exact ih _ _

theorem shiftArray_apply (i c : ℕ) (a : ℕ → α) (k : ℕ) :
    shiftArray i c a k = if i ≤ k ∧ k < i + c then a (k + 1) else a k := by
  induction c generalizing i a with
  | zero =>
    rw [if_neg (by omega)]
    rfl
  | succ c ih =>
    rw [shiftArray, ih]
    by_cases hk : k = i
    · rw [if_neg (by omega), if_pos (by omega), hk, Function.update_self]
    · by_cases hin : i ≤ k ∧ k < i + (c + 1)
      · rw [if_pos (by omega), if_pos hin, Function.update_of_ne (by omega)]
      · rw [if_neg (by omega), if_neg hin, Function.update_of_ne hk]

variable {slot record}

theorem shiftDown_of_ne {n : N} {i c : ℕ} (h : ∀ j, i ≤ j → j < i + c → n ≠ slot j)
    (st : (ℕ → α) × Store (N × κ) ν) (k : κ) :
    (shiftDown slot record i c st).2 (n, k) = st.2 (n, k) := by
  induction c generalizing i st with
  | zero => rfl
  | succ c ih =>
    have htail := ih (i := i + 1) (fun j hj hjc => h j (by omega) (by omega))
      (Function.update st.1 i (st.1 (i + 1)), writeSlot (slot i) (record (st.1 (i + 1))) st.2)
    exact htail.trans (writeSlot_of_ne (h i (by omega) (by omega)) _ _ _)

theorem shiftDown_of_notMem {k : κ} (h : ∀ x, k ∉ keys (record x)) (n : N) (i c : ℕ)
    (st : (ℕ → α) × Store (N × κ) ν) :
    (shiftDown slot record i c st).2 (n, k) = st.2 (n, k) := by
  induction c generalizing i st with
  | zero => rfl
  | succ c ih =>
    have htail := ih (i + 1)
      (Function.update st.1 i (st.1 (i + 1)), writeSlot (slot i) (record (st.1 (i + 1))) st.2)
    exact htail.trans (writeSlot_of_notMem (h _) _ _ _)

theorem holds_shiftDown (hslot : Function.Injective slot) (hnd : ∀ x, (keys (record x)).Nodup)
    {i c j : ℕ} (hj : i ≤ j) (hjc : j < i + c) (st : (ℕ → α) × Store (N × κ) ν) :
    Holds (shiftDown slot record i c st).2 (slot j) (record (st.1 (j + 1))) := by
  induction c generalizing i st with
  | zero => omega
  | succ c ih =>
    by_cases hji : j = i
    · subst hji
      have hkeep : ∀ k, (shiftDown slot record (j + 1) c
          (Function.update st.1 j (st.1 (j + 1)),
            writeSlot (slot j) (record (st.1 (j + 1))) st.2)).2 (slot j, k) =
          writeSlot (slot j) (record (st.1 (j + 1))) st.2 (slot j, k) := by
        intro k
        refine shiftDown_of_ne (fun m hm _ hmj => ?_) _ k
        have hsame := hslot hmj
        omega
      exact holds_congr hkeep (holds_writeSlot (hnd (st.1 (j + 1))) (slot j) st.2)
    · have htail := ih (i := i + 1) (by omega) (by omega)
        (Function.update st.1 i (st.1 (i + 1)), writeSlot (slot i) (record (st.1 (i + 1))) st.2)
      simp only [Function.update_of_ne (show j + 1 ≠ i by omega)] at htail
      exact htail

end shift

section arrays

theorem map_range_update (a : ℕ → α) (n i : ℕ) (x : α) :
    (List.range n).map (Function.update a i x) = ((List.range n).map a).set i x := by
  apply List.ext_getElem (by simp)
  intro j hj _
  rw [List.getElem_set, List.getElem_map, List.getElem_map, List.getElem_range]
  by_cases hji : i = j
  · rw [if_pos hji, ← hji, Function.update_self]
  · rw [if_neg hji, Function.update_of_ne (Ne.symm hji)]

theorem map_range_push (a : ℕ → α) (n : ℕ) (x : α) :
    (List.range (n + 1)).map (Function.update a n x) = (List.range n).map a ++ [x] := by
  have hkeep : (List.range n).map (Function.update a n x) = (List.range n).map a := by
    apply List.map_congr_left
    intro j hj
    exact Function.update_of_ne (List.mem_range.mp hj).ne x a
  rw [List.range_succ, List.map_append, hkeep, List.map_singleton, Function.update_self]

theorem map_range_shiftArray (a : ℕ → α) {n i : ℕ} (hi : i < n) :
    (List.range (n - 1)).map (shiftArray i (n - 1 - i) a) = ((List.range n).map a).eraseIdx i := by
  have hlen : ((List.range n).map a).length = n := by simp
  apply List.ext_getElem?
  intro j
  rw [List.getElem?_eraseIdx, List.getElem?_map, List.getElem?_map, List.getElem?_map]
  by_cases hj : j < n - 1
  · rw [List.getElem?_range hj, Option.map_some, shiftArray_apply]
    by_cases hji : j < i
    · rw [if_neg (by omega), if_pos hji, List.getElem?_range (by omega), Option.map_some]
    · rw [if_pos (by omega), if_neg hji, List.getElem?_range (by omega), Option.map_some]
  · rw [List.getElem?_eq_none (by simpa using hj), if_neg (by omega),
      List.getElem?_eq_none (by rw [List.length_range]; omega)]
    rfl

end arrays

theorem filter_map_range (f : ℕ → α) (p : α → Bool) {n j : ℕ} (hj : j < n)
    (hp : ∀ i < n, p (f i) = decide (i ≠ j)) : ((List.range n).map f).filter p =
      (List.range (n - 1)).map (fun i => f (if j ≤ i then i + 1 else i)) := by
  induction n with
  | zero => omega
  | succ n ih =>
    rw [List.range_succ, List.map_append, List.filter_append, List.map_singleton,
      Nat.add_sub_cancel]
    by_cases hlast : j = n
    · have hall : ((List.range n).map f).filter p = (List.range n).map f := by
        refine List.filter_eq_self.mpr (fun x hx => ?_)
        obtain ⟨i, hi, rfl⟩ := List.mem_map.mp hx
        rw [List.mem_range] at hi
        rw [hp i (by omega), decide_eq_true_eq]
        omega
      have hgone : [f n].filter p = [] := by
        rw [List.filter_singleton, hp n (by omega), hlast]
        simp
      rw [hall, hgone, List.append_nil]
      refine List.map_congr_left (fun i hi => ?_)
      rw [List.mem_range] at hi
      rw [if_neg (by omega)]
    · have hkept : [f n].filter p = [f n] := by
        have hne : p (f n) = true := by
          rw [hp n (by omega), decide_eq_true_eq]
          omega
        rw [List.filter_singleton, hne]
        rfl
      obtain ⟨m, rfl⟩ : ∃ m, n = m + 1 := ⟨n - 1, by omega⟩
      rw [ih (by omega) (fun i hi => hp i (by omega)), hkept, Nat.add_sub_cancel, List.range_succ,
        List.map_append, List.map_singleton, if_pos (by omega)]

end CcspPandM.StoreSlots
