import CcspPandM.FreeSearch
import Mathlib.Data.Nat.Count

/-!
Numbers that are given to keys and remembered. A key that has a number keeps it; a
new one is given the first number that is not taken from a counter on, which then
moves behind it. Below the end of the range the numbers only grow, so different
keys have different numbers, whatever is taken at each time.
-/
namespace CcspPandM.RememberedNumbers

open FreeSearch

variable {κ : Type*} [DecidableEq κ]

/-- The numbers of the keys, where zero is none, and the counter. -/
structure Memory (κ : Type*) where
  number : κ → ℕ
  next : ℕ

/-- The first number that is not taken, in the cycle from one up to high. -/
def generate (high : ℕ) (taken : List ℕ) (next : ℕ) : Option ℕ :=
  firstFree (nextIn 1 high) (fun n => !taken.contains n) (taken.length + 1) next

def fetch (high : ℕ) (taken : List ℕ) (m : Memory κ) (k : κ) : Option (Memory κ) :=
  if m.number k = 0 then
    (generate high taken m.next).map fun n =>
      ⟨Function.update m.number k n, nextIn 1 high n⟩
  else some m

def fetchAll (high : ℕ) (taken : List ℕ) (m : Memory κ) (ks : List κ) : Option (Memory κ) :=
  ks.foldlM (fetch high taken) m

/-- Only numbers before the counter are in use, each for one key. -/
structure Memory.Wf (m : Memory κ) : Prop where
  next_pos : 0 < m.next
  lt_next : ∀ k, m.number k ≠ 0 → m.number k < m.next
  inj : ∀ k k', m.number k ≠ 0 → m.number k = m.number k' → k = k'

def Memory.Kept (m m' : Memory κ) : Prop := ∀ k, m.number k ≠ 0 → m'.number k = m.number k

section generate

variable {high next n : ℕ} {taken : List ℕ}

theorem iterate_nextIn_of_lt {i : ℕ} (h : next + i < high) :
    (nextIn 1 high)^[i] next = next + i := by
  induction i with
  | zero => rfl
  | succ i ih =>
    rw [Function.iterate_succ_apply', ih (by omega), nextIn, if_pos (by omega)]
    omega

theorem generate_isSome (h : next + taken.length < high) :
    ∃ n, generate high taken next = some n := by
  apply Option.ne_none_iff_exists'.mp
  apply @firstFree_ne_none _ _ _ _ _ taken
  · intro b hb
    simpa using hb
  · intro i hi j hj hij
    rw [iterate_nextIn_of_lt (by omega), iterate_nextIn_of_lt (by omega)] at hij
    omega
  · exact Nat.lt_succ_self _

theorem firstFree_least {free : ℕ → Bool} {k : ℕ} (hk : next + k ≤ high)
    (h : firstFree (nextIn 1 high) free k next = some n) :
    next ≤ n ∧ n < next + k ∧ ∀ i, next ≤ i → i < n → free i = false := by
  induction k generalizing next with
  | zero => cases h
  | succ k ih =>
    rw [firstFree] at h
    cases hfree : free next with
    | true =>
      rw [if_pos hfree, Option.some.injEq] at h
      subst h
      exact ⟨Nat.le_refl _, by omega, fun i hle hlt => absurd hle (Nat.not_le.mpr hlt)⟩
    | false =>
      rw [hfree, if_neg Bool.false_ne_true] at h
      cases k with
      | zero => cases h
      | succ k =>
        rw [nextIn, if_pos (by omega)] at h
        obtain ⟨hle, hlt, hall⟩ := ih (by omega) h
        refine ⟨by omega, by omega, fun i hi hin => ?_⟩
        rcases Nat.eq_or_lt_of_le hi with rfl | hi
        · exact hfree
        · exact hall i hi hin

theorem generate_spec (h : next + taken.length < high) (hn : generate high taken next = some n) :
    next ≤ n ∧ n ≤ next + taken.length ∧ n ∉ taken ∧ ∀ i, next ≤ i → i < n → i ∈ taken := by
  obtain ⟨hle, hlt, hall⟩ := firstFree_least (by omega) hn
  have hfree := (of_firstFree hn).1
  refine ⟨hle, by omega, by simpa using hfree, fun i hi hin => ?_⟩
  simpa using hall i hi hin

end generate

section fetch

variable {high : ℕ} {taken : List ℕ} {m m' : Memory κ}

omit [DecidableEq κ] in
theorem Memory.Kept.refl (m : Memory κ) : m.Kept m := fun _ _ => rfl

omit [DecidableEq κ] in
theorem Memory.Kept.trans {m'' : Memory κ} (h : m.Kept m') (h' : m'.Kept m'') : m.Kept m'' := by
  intro k hk
  have hkept := h k hk
  rw [h' k (by rw [hkept]; exact hk), hkept]

theorem fetch_spec (hwf : m.Wf) (hbound : m.next + taken.length + 1 < high) (k : κ) :
    ∃ m', fetch high taken m k = some m' ∧ m'.Wf ∧ m.Kept m' ∧ m'.number k ≠ 0 ∧
      m'.next ≤ m.next + taken.length + 1 ∧ (∀ k', k' ≠ k → m'.number k' = m.number k') ∧
      (m.number k ≠ 0 → m' = m) ∧
      (m.number k = 0 → m.next ≤ m'.number k ∧ m'.number k ∉ taken ∧
        m'.next = m'.number k + 1 ∧ ∀ i, m.next ≤ i → i < m'.number k → i ∈ taken) := by
  by_cases hnew : m.number k = 0
  · obtain ⟨n, hn⟩ := @generate_isSome high m.next taken (by omega)
    obtain ⟨hle, hlt, hfree, hall⟩ := generate_spec (by omega) hn
    have hpos := hwf.next_pos
    have hnext : nextIn 1 high n = n + 1 := if_pos (by omega)
    have hother : ∀ k', k' ≠ k → Function.update m.number k n k' = m.number k' :=
      fun k' hk' => Function.update_of_ne hk' n m.number
    refine ⟨⟨Function.update m.number k n, n + 1⟩, ?_, ⟨Nat.succ_pos n, ?_, ?_⟩, ?_, ?_, ?_, hother,
      fun h => absurd hnew h, fun _ => ?_⟩
    · rw [fetch, if_pos hnew, hn, Option.map_some, hnext]
    · intro k' hk'
      change Function.update m.number k n k' ≠ 0 at hk'
      change Function.update m.number k n k' < n + 1
      by_cases hkk : k' = k
      · rw [hkk, Function.update_self]
        exact Nat.lt_succ_self n
      · rw [hother k' hkk] at hk' ⊢
        have hlast := hwf.lt_next k' hk'
        omega
    · intro k₁ k₂ hk₁ heq
      change Function.update m.number k n k₁ ≠ 0 at hk₁
      change Function.update m.number k n k₁ = Function.update m.number k n k₂ at heq
      by_cases h₁ : k₁ = k
      · by_cases h₂ : k₂ = k
        · rw [h₁, h₂]
        · rw [h₁, Function.update_self, hother k₂ h₂] at heq
          have hlast := hwf.lt_next k₂ (by omega)
          omega
      · rw [hother k₁ h₁] at hk₁ heq
        by_cases h₂ : k₂ = k
        · rw [h₂, Function.update_self] at heq
          have hlast := hwf.lt_next k₁ hk₁
          omega
        · rw [hother k₂ h₂] at heq
          exact hwf.inj k₁ k₂ hk₁ heq
    · intro k' hk'
      apply hother
      rintro rfl
      exact hk' hnew
    · change Function.update m.number k n k ≠ 0
      rw [Function.update_self]
      omega
    · change n + 1 ≤ m.next + taken.length + 1
      omega
    · change m.next ≤ Function.update m.number k n k ∧ Function.update m.number k n k ∉ taken ∧
        n + 1 = Function.update m.number k n k + 1 ∧
        ∀ i, m.next ≤ i → i < Function.update m.number k n k → i ∈ taken
      rw [Function.update_self]
      exact ⟨hle, hfree, rfl, hall⟩
  · refine ⟨m, if_neg hnew, hwf, Memory.Kept.refl m, hnew, by omega, fun _ _ => rfl, fun _ => rfl,
      fun h => absurd h hnew⟩

/-- A number that a new key may be given: it is free, and before it on from the counter there are
fewer free ones than there are new keys. -/
def Reachable (taken : List ℕ) (m : Memory κ) (ks : List κ) (n : ℕ) : Prop :=
  m.next ≤ n ∧ n ∉ taken ∧
    Nat.count (· ∉ taken) n < Nat.count (· ∉ taken) m.next +
      (ks.filter fun k => m.number k = 0).length

theorem count_eq_of_taken {a b : ℕ} (hab : a ≤ b) (h : ∀ i, a ≤ i → i < b → i ∈ taken) :
    Nat.count (· ∉ taken) b = Nat.count (· ∉ taken) a := by
  obtain ⟨d, rfl⟩ := Nat.exists_eq_add_of_le hab
  have hnone : Nat.count (fun i => a + i ∉ taken) d = 0 := by
    apply Nat.count_iff_forall_not.mpr
    intro i hi
    rw [not_not]
    exact h (a + i) (by omega) (by omega)
  rw [Nat.count_add, hnone, Nat.add_zero]

theorem fetchAll_spec (hwf : m.Wf) {ks : List κ}
    (hbound : m.next + ks.length * (taken.length + 1) < high) :
    ∃ m', fetchAll high taken m ks = some m' ∧ m'.Wf ∧ m.Kept m' ∧
      m'.next ≤ m.next + ks.length * (taken.length + 1) ∧ (∀ k ∈ ks, m'.number k ≠ 0) ∧
      (∀ k ∉ ks, m'.number k = m.number k) ∧
      ∀ k ∈ ks, m.number k = 0 → Reachable taken m ks (m'.number k) := by
  induction ks generalizing m with
  | nil =>
    exact ⟨m, rfl, hwf, Memory.Kept.refl m, by omega, nofun, fun _ _ => rfl, nofun⟩
  | cons k ks ih =>
    rw [List.length_cons, Nat.add_mul] at hbound
    obtain ⟨m₁, hfetch, hwf₁, hkept, hk, hnext, hother, hold, hnew⟩ :=
      fetch_spec hwf (by omega : m.next + taken.length + 1 < high) k
    obtain ⟨m₂, hrest, hwf₂, hkept₂, hnext₂, hall, hout, hreach⟩ := ih hwf₁ (by omega)
    have hk₂ := hkept₂ k hk
    refine ⟨m₂, ?_, hwf₂, hkept.trans hkept₂, ?_, ?_, ?_, ?_⟩
    · rw [fetchAll, List.foldlM_cons, hfetch]
      exact hrest
    · rw [List.length_cons, Nat.add_mul]
      omega
    · intro k' hk'
      rcases List.mem_cons.mp hk' with rfl | hk'
      · rw [hk₂]
        exact hk
      · exact hall k' hk'
    · intro k' hk'
      rw [List.mem_cons, not_or] at hk'
      rw [hout k' hk'.2, hother k' hk'.1]
    · intro k' hk' hzero
      by_cases hk₀ : m.number k = 0
      · obtain ⟨hle, hfree, hafter, htaken⟩ := hnew hk₀
        have hcount := count_eq_of_taken hle htaken
        have hnews : ((k :: ks).filter fun k => m.number k = 0).length =
            (ks.filter fun k => m.number k = 0).length + 1 := by
          rw [List.filter_cons_of_pos (by simpa using hk₀), List.length_cons]
        by_cases hkk : k' = k
        · subst hkk
          rw [hk₂]
          refine ⟨hle, hfree, ?_⟩
          rw [hnews]
          omega
        · have hin : k' ∈ ks := (List.mem_cons.mp hk').resolve_left hkk
          obtain ⟨hle', hfree', hfew⟩ := hreach k' hin (by rw [hother k' hkk, hzero])
          have hsub : (ks.filter fun k => m₁.number k = 0).length ≤
              (ks.filter fun k => m.number k = 0).length := by
            apply List.Sublist.length_le
            apply List.monotone_filter_right
            intro x hx
            simp only [decide_eq_true_eq] at hx ⊢
            by_contra hne
            rw [hkept x hne] at hx
            exact hne hx
          rw [hafter] at hle' hfew
          rw [Nat.count_succ, if_pos hfree] at hfew
          refine ⟨by omega, hfree', ?_⟩
          rw [hnews]
          omega
      · obtain rfl := hold hk₀
        have hin : k' ∈ ks := by
          rcases List.mem_cons.mp hk' with rfl | hin
          · exact absurd hzero hk₀
          · exact hin
        rw [Reachable, List.filter_cons_of_neg (by simpa using hk₀)]
        exact hreach k' hin hzero

end fetch

end CcspPandM.RememberedNumbers
