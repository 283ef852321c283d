import CcspPandM.IpRegistry
import Mathlib.Data.List.Induction

/-!
Numbering a list in one pass: an entry with a number moves a counter behind it,
an entry without one gets the counter. The numbers are distinct when the counter
never meets the number of a later entry; once it has run over its largest value
it starts again at one, and nothing keeps it from the numbers already in use.
-/
namespace CcspPandM.InitialNumbers

open IpRegistry

def counterStep (next i : ULONG) : ULONG := if i = 0 then nextAfter next else advance next i

def counter (next : ULONG) (xs : List ULONG) : ULONG := xs.foldl counterStep next

def numbers (next : ULONG) : List ULONG → List ULONG
  | [] => []
  | i :: xs => (if i = 0 then next else i) :: numbers (counterStep next i) xs

/-- Delivered numbers: distinct where they are not zero, and below the largest. -/
structure Delivered (xs : List ULONG) : Prop where
  distinct : (xs.filter (· ≠ 0)).Nodup
  below : ∀ i ∈ xs, i ≠ 0xFFFFFFFF

instance (xs : List ULONG) : Decidable (Delivered xs) :=
  decidable_of_iff ((xs.filter (· ≠ 0)).Nodup ∧ xs.all (· ≠ 0xFFFFFFFF) = true)
    ⟨fun h => ⟨h.1, by simpa using h.2⟩, fun h => ⟨h.distinct, by simpa using h.below⟩⟩

/-- The largest number is handed out, so the counter starts again at one. -/
def Wraps (next : ULONG) (xs : List ULONG) : Prop :=
  ∃ pre post, xs = pre ++ 0 :: post ∧ counter next pre = 0xFFFFFFFF

/-- When a pass gives distinct numbers: the counter does not start at zero with
an entry that has none, it never hands out the number of a later entry, and if
it starts again at one, what it hands out is free. -/
structure Clear (next : ULONG) (xs : List ULONG) : Prop where
  started : next = 0 → xs.head? ≠ some 0
  ahead : ∀ pre post, xs = pre ++ 0 :: post → counter next pre ∉ post
  wrapped : Wraps next xs →
    (∀ pre post, xs = pre ++ 0 :: post → counter next pre ∉ numbers next pre) ∧
      counter next xs ∉ numbers next xs

structure Distinct (next : ULONG) (xs : List ULONG) : Prop where
  nonzero : 0 ∉ numbers next xs
  distinct : (numbers next xs).Nodup
  next_free : counter next xs ∉ numbers next xs

theorem counter_append (next : ULONG) (xs ys : List ULONG) :
    counter next (xs ++ ys) = counter (counter next xs) ys := List.foldl_append ..

theorem numbers_append (next : ULONG) (xs ys : List ULONG) :
    numbers next (xs ++ ys) = numbers next xs ++ numbers (counter next xs) ys := by
  induction xs generalizing next with
  | nil => rfl
  | cons i xs ih =>
    rw [List.cons_append, numbers, ih, numbers, List.cons_append]
    rfl

theorem length_numbers (next : ULONG) (xs : List ULONG) :
    (numbers next xs).length = xs.length := by
  induction xs generalizing next with
  | nil => rfl
  | cons i xs ih => rw [numbers, List.length_cons, ih, List.length_cons]

theorem counterStep_ne_zero (next i : ULONG) : counterStep next i ≠ 0 := by
  rw [counterStep]
  split
  · exact nextAfter_ne_zero next
  · next hi =>
    rw [advance]
    split
    · exact nextAfter_ne_zero i
    · next hle =>
      rintro rfl
      exact hle (Nat.zero_le i.toNat)

variable {xs : List ULONG} {next : ULONG}

theorem counter_eq_zero (h : counter next xs = 0) :
    xs = [] ∧ next = 0 := by
  induction xs using List.reverseRecOn with
  | nil => exact ⟨rfl, h⟩
  | append_singleton xs i _ =>
    rw [counter_append] at h
    exact absurd h (counterStep_ne_zero _ _)

theorem mem_numbers {next m : ULONG} (h : m ∈ numbers next xs) :
    (m ∈ xs ∧ m ≠ 0) ∨ ∃ pre post, xs = pre ++ 0 :: post ∧ counter next pre = m := by
  induction xs generalizing next with
  | nil => simp [numbers] at h
  | cons i xs ih =>
    rw [numbers, List.mem_cons] at h
    rcases h with rfl | h
    · by_cases hi : i = 0
      · subst hi
        exact Or.inr ⟨[], xs, rfl, rfl⟩
      · rw [if_neg hi]
        exact Or.inl ⟨List.mem_cons_self .., hi⟩
    · rcases ih h with ⟨hm, hne⟩ | ⟨pre, post, rfl, hpre⟩
      · exact Or.inl ⟨List.mem_cons_of_mem _ hm, hne⟩
      · exact Or.inr ⟨i :: pre, post, rfl, hpre⟩

theorem mem_numbers_of_mem (next : ULONG) {i : ULONG} (h : i ∈ xs)
    (hi : i ≠ 0) : i ∈ numbers next xs := by
  induction xs generalizing next with
  | nil => simp at h
  | cons j xs ih =>
    rw [numbers]
    rcases List.mem_cons.mp h with rfl | h
    · rw [if_neg hi]
      exact List.mem_cons_self ..
    · exact List.mem_cons_of_mem _ (ih _ h)

theorem handed_mem_numbers (next : ULONG) (pre post : List ULONG) :
    counter next pre ∈ numbers next (pre ++ 0 :: post) := by
  rw [numbers_append, numbers, if_pos rfl]
  exact List.mem_append_right _ (List.mem_cons_self ..)

theorem toNat_nextAfter_of_ne {n : ULONG} (h : n ≠ 0xFFFFFFFF) :
    (nextAfter n).toNat = n.toNat + 1 := by
  have hlt := n.isLt
  have hmax : n.toNat ≠ 2 ^ 32 - 1 := fun hn => h (BitVec.eq_of_toNat_eq hn)
  rw [toNat_nextAfter]
  omega

theorem toNat_advance {next n : ULONG} (h : n ≠ 0xFFFFFFFF) :
    (advance next n).toNat = max next.toNat (n.toNat + 1) := by
  rw [advance]
  split
  · next hle =>
    rw [BitVec.le_def] at hle
    rw [toNat_nextAfter_of_ne h]
    omega
  · next hle =>
    rw [BitVec.le_def] at hle
    omega

theorem not_wraps_init {next i : ULONG} (h : ¬ Wraps next (xs ++ [i])) :
    ¬ Wraps next xs := by
  rintro ⟨pre, post, rfl, hmax⟩
  exact h ⟨pre, post ++ [i], by simp, hmax⟩

theorem counter_append_singleton_lt {next i : ULONG} (hi : i ≠ 0xFFFFFFFF)
    (hwraps : ¬ Wraps next (xs ++ [i])) :
    (counter next xs).toNat ≤ (counter next (xs ++ [i])).toNat ∧
      (if i = 0 then counter next xs else i).toNat < (counter next (xs ++ [i])).toNat := by
  rw [counter_append]
  change _ ≤ (counterStep (counter next xs) i).toNat ∧
    _ < (counterStep (counter next xs) i).toNat
  by_cases hzero : i = 0
  · have hmax : counter next xs ≠ 0xFFFFFFFF := fun h => hwraps ⟨xs, [], by rw [hzero], h⟩
    rw [counterStep, if_pos hzero, if_pos hzero, toNat_nextAfter_of_ne hmax]
    omega
  · rw [counterStep, if_neg hzero, if_neg hzero, toNat_advance hi]
    omega

theorem le_counter (hbelow : ∀ i ∈ xs, i ≠ 0xFFFFFFFF)
    (hwraps : ¬ Wraps next xs) : next.toNat ≤ (counter next xs).toNat := by
  induction xs using List.reverseRecOn with
  | nil => exact le_refl _
  | append_singleton xs i ih =>
    have hi := hbelow i (List.mem_append_right _ (List.mem_singleton_self i))
    have hle := ih (fun j hj => hbelow j (List.mem_append_left _ hj)) (not_wraps_init hwraps)
    exact hle.trans (counter_append_singleton_lt hi hwraps).1

theorem numbers_lt_counter (hbelow : ∀ i ∈ xs, i ≠ 0xFFFFFFFF)
    (hwraps : ¬ Wraps next xs) : ∀ m ∈ numbers next xs, m < counter next xs := by
  induction xs using List.reverseRecOn with
  | nil => simp [numbers]
  | append_singleton xs i ih =>
    have ih := ih (fun j hj => hbelow j (List.mem_append_left _ hj)) (not_wraps_init hwraps)
    obtain ⟨hle, hself⟩ := counter_append_singleton_lt
      (hbelow i (List.mem_append_right _ (List.mem_singleton_self i))) hwraps
    intro m hm
    rw [numbers_append, List.mem_append] at hm
    rw [BitVec.lt_def]
    rcases hm with hm | hm
    · have hlt := ih m hm
      rw [BitVec.lt_def] at hlt
      omega
    · rw [numbers, numbers, List.mem_singleton] at hm
      rw [hm]
      exact hself

theorem Clear.handed_free (h : Clear next xs)
    (hdel : Delivered xs) {pre post : List ULONG} (hsplit : xs = pre ++ 0 :: post) :
    counter next pre ∉ numbers next pre := by
  by_cases hwraps : Wraps next xs
  · exact (h.wrapped hwraps).1 pre post hsplit
  · intro hmem
    have hpre : ¬ Wraps next pre := by
      rintro ⟨before, after, hbefore, hmax⟩
      exact hwraps ⟨before, after ++ 0 :: post, by rw [hsplit, hbefore]; simp, hmax⟩
    have hlt := numbers_lt_counter
      (fun i hi => hdel.below i (by rw [hsplit]; exact List.mem_append_left _ hi)) hpre _ hmem
    exact absurd hlt (by simp)

theorem Clear.next_free (h : Clear next xs)
    (hdel : Delivered xs) : counter next xs ∉ numbers next xs := by
  by_cases hwraps : Wraps next xs
  · exact (h.wrapped hwraps).2
  · intro hmem
    have hlt := numbers_lt_counter hdel.below hwraps _ hmem
    exact absurd hlt (by simp)

theorem Clear.nodup_numbers (h : Clear next xs)
    (hdel : Delivered xs) {pre post : List ULONG} (hsplit : xs = pre ++ post) :
    (numbers next pre).Nodup := by
  induction pre using List.reverseRecOn generalizing post with
  | nil => exact List.nodup_nil
  | append_singleton pre i ih =>
    rw [List.append_assoc, List.singleton_append] at hsplit
    rw [numbers_append, numbers, numbers]
    apply (ih hsplit).append (List.nodup_singleton _)
    rw [List.disjoint_singleton]
    by_cases hi : i = 0
    · rw [if_pos hi]
      exact h.handed_free hdel (by rw [hsplit, hi])
    · rw [if_neg hi]
      intro hmem
      rcases mem_numbers hmem with ⟨hpre, -⟩ | ⟨before, after, rfl, hcounter⟩
      · have hdistinct := hdel.distinct
        rw [hsplit, List.filter_append] at hdistinct
        have hdisj := (List.nodup_append'.mp hdistinct).2.2
        exact hdisj (List.mem_filter.mpr ⟨hpre, by simpa using hi⟩)
          (List.mem_filter.mpr ⟨List.mem_cons_self .., by simpa using hi⟩)
      · refine h.ahead before (after ++ i :: post) (by rw [hsplit]; simp) ?_
        rw [hcounter]
        exact List.mem_append_right _ (List.mem_cons_self ..)

theorem distinct_iff (hdel : Delivered xs) :
    Distinct next xs ↔ Clear next xs := by
  constructor
  · intro h
    have hsplit : ∀ pre post, xs = pre ++ 0 :: post → counter next pre ∉ numbers next pre ∧
        counter next pre ∉ post := by
      rintro pre post rfl
      have hdistinct := h.distinct
      rw [numbers_append, numbers, if_pos rfl] at hdistinct
      have hcons := List.nodup_middle.mp hdistinct
      have hnot := (List.nodup_cons.mp hcons).1
      rw [List.mem_append, not_or] at hnot
      refine ⟨hnot.1, fun hpost => ?_⟩
      apply hnot.2
      refine mem_numbers_of_mem _ hpost (fun hzero => h.nonzero ?_)
      have hmem := handed_mem_numbers next pre post
      rwa [hzero] at hmem
    refine ⟨?_, fun pre post hxs => (hsplit pre post hxs).2,
      fun _ => ⟨fun pre post hxs => (hsplit pre post hxs).1, h.next_free⟩⟩
    rintro rfl hhead
    cases xs with
    | nil => cases hhead
    | cons i xs =>
      obtain rfl := Option.some.inj hhead
      exact h.nonzero (by simp [numbers])
  · intro h
    refine ⟨fun hzero => ?_, h.nodup_numbers hdel (List.append_nil xs).symm, h.next_free hdel⟩
    rcases mem_numbers hzero with ⟨-, hne⟩ | ⟨pre, post, rfl, hcounter⟩
    · exact hne rfl
    · obtain ⟨rfl, hnext⟩ := counter_eq_zero hcounter
      exact h.started hnext rfl

theorem clear_of_notMem (next : ULONG) (h : 0 ∉ xs) : Clear next xs := by
  have hsplit : ∀ pre post, xs ≠ pre ++ 0 :: post := by
    rintro pre post rfl
    exact h (List.mem_append_right _ (List.mem_cons_self ..))
  refine ⟨fun _ hhead => h (List.mem_of_head? hhead),
    fun pre post hxs => absurd hxs (hsplit pre post), ?_⟩
  rintro ⟨pre, post, hxs, -⟩
  exact absurd hxs (hsplit pre post)

theorem numbers_eq_self (next : ULONG) (h : ∀ i ∈ xs, i ≠ 0) :
    numbers next xs = xs := by
  induction xs generalizing next with
  | nil => rfl
  | cons i xs ih =>
    rw [numbers, if_neg (h i (List.mem_cons_self ..)),
      ih _ fun j hj => h j (List.mem_cons_of_mem _ hj)]

theorem not_wraps_of_nonzero (next : ULONG) (h : ∀ i ∈ xs, i ≠ 0) :
    ¬ Wraps next xs := by
  rintro ⟨pre, post, rfl, -⟩
  exact h 0 (List.mem_append_right _ (List.mem_cons_self ..)) rfl

/-- The highest number when each entry without one counts one above the highest before. -/
def highest (xs : List ULONG) : ℕ := xs.foldl (fun h i => if i = 0 then h + 1 else max h i.toNat) 0

theorem highest_append_singleton (xs : List ULONG) (i : ULONG) : highest (xs ++ [i]) =
    if i = 0 then highest xs + 1 else max (highest xs) i.toNat := by
  rw [highest, List.foldl_append]
  rfl

theorem highest_mono (xs : List ULONG) (i : ULONG) : highest xs ≤ highest (xs ++ [i]) := by
  rw [highest_append_singleton]
  split
  · omega
  · exact le_max_left _ _

theorem toNat_counter_one (h : highest xs < 2 ^ 32 - 1) :
    (counter 1 xs).toNat = highest xs + 1 := by
  induction xs using List.reverseRecOn with
  | nil => rfl
  | append_singleton xs i ih =>
    have hlt := lt_of_le_of_lt (highest_mono xs i) h
    have ih := ih hlt
    rw [highest_append_singleton] at h ⊢
    rw [counter_append]
    change (counterStep (counter 1 xs) i).toNat = _
    by_cases hi : i = 0
    · rw [if_pos hi] at h ⊢
      rw [counterStep, if_pos hi, toNat_nextAfter, ih]
      omega
    · rw [if_neg hi] at h ⊢
      rw [counterStep, if_neg hi, advance]
      split
      · next hle =>
        rw [BitVec.le_def] at hle
        rw [toNat_nextAfter]
        omega
      · next hle =>
        rw [BitVec.le_def] at hle
        omega

theorem numbers_le_highest (h : highest xs < 2 ^ 32 - 1) :
    ∀ m ∈ numbers 1 xs, m.toNat ≤ highest xs := by
  induction xs using List.reverseRecOn with
  | nil => simp [numbers]
  | append_singleton xs i ih =>
    have hlt := lt_of_le_of_lt (highest_mono xs i) h
    have ih := ih hlt
    have hcounter := toNat_counter_one hlt
    intro m hm
    rw [numbers_append, List.mem_append] at hm
    rcases hm with hm | hm
    · exact (ih m hm).trans (highest_mono xs i)
    · rw [numbers, numbers, List.mem_singleton] at hm
      rw [highest_append_singleton, hm]
      by_cases hi : i = 0
      · rw [if_pos hi, if_pos hi, hcounter]
      · rw [if_neg hi, if_neg hi]
        exact le_max_right _ _

theorem largest_mem_numbers (h : ¬ highest xs < 2 ^ 32 - 1) :
    0xFFFFFFFF ∈ numbers 1 xs := by
  induction xs using List.reverseRecOn with
  | nil => exact absurd (by decide) h
  | append_singleton xs i ih =>
    rw [numbers_append, List.mem_append]
    by_cases hlt : highest xs < 2 ^ 32 - 1
    · right
      have hcounter := toNat_counter_one hlt
      rw [numbers, numbers, List.mem_singleton]
      apply BitVec.eq_of_toNat_eq
      rw [highest_append_singleton] at h
      change 2 ^ 32 - 1 = _
      by_cases hi : i = 0
      · rw [if_pos hi] at h ⊢
        omega
      · rw [if_neg hi] at h ⊢
        have hi32 := i.isLt
        omega
    · exact Or.inl (ih hlt)

theorem numbers_lt_counter_iff (xs : List ULONG) :
    (∀ m ∈ numbers 1 xs, m < counter 1 xs) ↔ highest xs < 2 ^ 32 - 1 := by
  constructor
  · intro h
    by_contra hnot
    have hlt := h _ (largest_mem_numbers hnot)
    have hmax := (counter 1 xs).isLt
    rw [BitVec.lt_def] at hlt
    change 2 ^ 32 - 1 < _ at hlt
    omega
  · intro h m hm
    have hle := numbers_le_highest h m hm
    rw [BitVec.lt_def, toNat_counter_one h]
    omega

end CcspPandM.InitialNumbers
