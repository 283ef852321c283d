import Mathlib.Data.List.Nodup
import Mathlib.Data.List.Perm.Subperm
import Mathlib.Data.List.Range
import Mathlib.Data.Nat.ModEq
import Mathlib.Logic.Function.Iterate

/-!
A search for a free value that steps from one candidate to the next and gives up after
a number of tries. With one try more than there are taken values it fails only if the
candidates repeat. A cycle through the numbers of a range repeats after the whole range,
so there it fails exactly when the range is full.
-/
namespace CcspPandM.FreeSearch

section search

variable {α : Type*} (next : α → α) (free : α → Bool)

/-- The first free value among so many from a on. -/
def firstFree : ℕ → α → Option α
  | 0, _ => none
  | k + 1, a => if free a then some a else firstFree k (next a)

variable {next free}

theorem firstFree_eq_none_iff (k : ℕ) (a : α) :
    firstFree next free k a = none ↔ ∀ i < k, free (next^[i] a) = false := by
  induction k generalizing a with
  | zero => exact ⟨fun _ i hi => absurd hi (Nat.not_lt_zero i), fun _ => rfl⟩
  | succ k ih =>
    rw [firstFree]
    constructor
    · intro h i hi
      cases hfree : free a with
      | true =>
        rw [if_pos hfree] at h
        cases h
      | false =>
        rw [hfree, if_neg Bool.false_ne_true] at h
        cases i with
        | zero => exact hfree
        | succ i => exact (ih (next a)).mp h i (by omega)
    · intro h
      have hfree : free a = false := h 0 (Nat.succ_pos k)
      rw [hfree, if_neg Bool.false_ne_true]
      exact (ih (next a)).mpr fun i hi => h (i + 1) (by omega)

theorem of_firstFree {k : ℕ} {a b : α} (h : firstFree next free k a = some b) :
    free b = true ∧ ∃ i < k, next^[i] a = b := by
  induction k generalizing a with
  | zero => cases h
  | succ k ih =>
    rw [firstFree] at h
    cases hfree : free a with
    | true =>
      rw [if_pos hfree, Option.some.injEq] at h
      exact ⟨h ▸ hfree, 0, Nat.succ_pos k, h⟩
    | false =>
      rw [hfree, if_neg Bool.false_ne_true] at h
      obtain ⟨hb, i, hi, hib⟩ := ih h
      exact ⟨hb, i + 1, by omega, hib⟩

theorem firstFree_holds {p : α → Prop} (hstep : ∀ a, p a → p (next a)) {k : ℕ} {a b : α}
    (ha : p a) (h : firstFree next free k a = some b) : p b := by
  obtain ⟨-, i, -, rfl⟩ := of_firstFree h
  exact Function.Iterate.rec p ha hstep i

theorem firstFree_ne_none {k : ℕ} {a : α} {taken : List α}
    (htaken : ∀ b, free b = false → b ∈ taken)
    (hinj : ∀ i < k, ∀ j < k, next^[i] a = next^[j] a → i = j) (hk : taken.length < k) :
    firstFree next free k a ≠ none := by
  intro hnone
  have hall := (firstFree_eq_none_iff k a).mp hnone
  have hnodup : ((List.range k).map fun i => next^[i] a).Nodup := by
    apply List.Nodup.map_on ?_ List.nodup_range
    intro i hi j hj hij
    exact hinj i (List.mem_range.mp hi) j (List.mem_range.mp hj) hij
  have hsub : ((List.range k).map fun i => next^[i] a) ⊆ taken := by
    intro b hb
    obtain ⟨i, hi, rfl⟩ := List.mem_map.mp hb
    exact htaken _ (hall i (List.mem_range.mp hi))
  have hlen := (List.subperm_of_subset hnodup hsub).length_le
  rw [List.length_map, List.length_range] at hlen
  omega

theorem firstFree_map {β : Type*} {next' : β → β} {free' : β → Bool} {f : α → β} {p : α → Prop}
    (hstep : ∀ a, p a → p (next a) ∧ f (next a) = next' (f a))
    (hfree : ∀ a, p a → free a = free' (f a)) {a : α} (ha : p a) (k : ℕ) :
    (firstFree next free k a).map f = firstFree next' free' k (f a) := by
  induction k generalizing a with
  | zero => rfl
  | succ k ih =>
    obtain ⟨hnext, hf⟩ := hstep a ha
    rw [firstFree, firstFree, ← hfree a ha, ← hf, ← ih hnext]
    cases free a with
    | true => rfl
    | false => rfl

end search

section cycle

def nextIn (low high v : ℕ) : ℕ := if v + 1 < high then v + 1 else low

variable {low high : ℕ}

theorem iterate_nextIn {v : ℕ} (hlow : low ≤ v) (hhigh : v < high) (i : ℕ) :
    (nextIn low high)^[i] v = low + (v - low + i) % (high - low) := by
  induction i with
  | zero =>
    rw [Function.iterate_zero_apply, Nat.add_zero, Nat.mod_eq_of_lt (by omega)]
    omega
  | succ i ih =>
    have hlt := Nat.mod_lt (v - low + i) (show 0 < high - low by omega)
    rw [Function.iterate_succ_apply', ih, nextIn, ← Nat.add_assoc, Nat.add_mod (v - low + i) 1]
    by_cases hlast : (v - low + i) % (high - low) + 1 = high - low
    · rw [if_neg (by omega)]
      by_cases hone : high - low = 1
      · rw [hone, Nat.mod_one]
        rfl
      · rw [Nat.mod_eq_of_lt (show 1 < high - low by omega), hlast, Nat.mod_self, Nat.add_zero]
    · rw [if_pos (by omega), Nat.mod_eq_of_lt (show 1 < high - low by omega),
        Nat.mod_eq_of_lt (show (v - low + i) % (high - low) + 1 < high - low by omega)]
      omega

theorem firstFree_cycle_iff {free : ℕ → Bool} {v : ℕ} {taken : List ℕ}
    (htaken : ∀ b, free b = false → b ∈ taken) (hlow : low ≤ v) (hhigh : v < high) :
    firstFree (nextIn low high) free (taken.length + 1) v ≠ none ↔
      ∃ x, low ≤ x ∧ x < high ∧ free x = true := by
  constructor
  · intro h
    obtain ⟨b, hb⟩ := Option.ne_none_iff_exists'.mp h
    obtain ⟨hfree, i, -, rfl⟩ := of_firstFree hb
    have hlt := Nat.mod_lt (v - low + i) (show 0 < high - low by omega)
    refine ⟨_, ?_, ?_, hfree⟩
    · rw [iterate_nextIn hlow hhigh]
      omega
    · rw [iterate_nextIn hlow hhigh]
      omega
  · intro h
    by_cases hmany : taken.length + 1 ≤ high - low
    · apply firstFree_ne_none htaken ?_ (Nat.lt_succ_self _)
      intro i hi j hj hij
      rw [iterate_nextIn hlow hhigh, iterate_nextIn hlow hhigh] at hij
      have hmod : (v - low + i) % (high - low) = (v - low + j) % (high - low) := by omega
      have hcancel : i % (high - low) = j % (high - low) := Nat.ModEq.add_left_cancel' _ hmod
      rwa [Nat.mod_eq_of_lt (by omega), Nat.mod_eq_of_lt (by omega)] at hcancel
    · -- the tries go through the whole range
      obtain ⟨x, hxlow, hxhigh, hfree⟩ := h
      intro hnone
      have hall := (firstFree_eq_none_iff _ v).mp hnone
        ((x - low + (high - low) - (v - low)) % (high - low))
        (lt_of_lt_of_le (Nat.mod_lt _ (by omega)) (by omega))
      rw [iterate_nextIn hlow hhigh, Nat.add_mod_mod,
        show v - low + (x - low + (high - low) - (v - low)) = x - low + (high - low) by omega,
        Nat.add_mod_right, Nat.mod_eq_of_lt (by omega), show low + (x - low) = x by omega,
        hfree] at hall
      cases hall

end cycle

end CcspPandM.FreeSearch
