import Mathlib.Data.Nat.Bits
import Mathlib.Tactic.Ring
import Mathlib.Data.BitVec

/-!
Blocks of bytes read as bit strings, the most significant bit of a byte first.
`number` is the number a window of such a string denotes. Accesses outside a
block have no defined result, so reads, writes and copies return an option.
-/
namespace CcspPandM.BitWindow

abbrev Bytes (n : ℕ) := Fin n → BitVec 8

namespace Bytes

variable {n m : ℕ}

def zero : Bytes n := fun _ => 0#8

def byteAt (a : Bytes n) (i : ℕ) : BitVec 8 := if h : i < n then a ⟨i, h⟩ else 0#8

def read (a : Bytes n) (i : ℕ) : Option (BitVec 8) := if i < n then some (a.byteAt i) else none

def write (a : Bytes n) (i : ℕ) (x : BitVec 8) : Option (Bytes n) :=
  if i < n then some (fun k => if k.val = i then x else a k) else none

/-- `memcpy` of `len` bytes, defined only when both ranges lie in their blocks. -/
def memcpy (dst : Bytes n) (d : ℕ) (src : Bytes m) (s len : ℕ) : Option (Bytes n) :=
  if d + len ≤ n ∧ s + len ≤ m then
    some (fun k => if d ≤ k.val ∧ k.val < d + len then src.byteAt (s + (k.val - d)) else dst k)
  else none

def bit (a : Bytes n) (j : ℕ) : Bool := (a.byteAt (j / 8)).getMsbD (j % 8)

@[simp] theorem byteAt_zero (i : ℕ) : (zero : Bytes n).byteAt i = 0#8 := by
  unfold byteAt zero
  split <;> rfl

theorem byteAt_of_le (a : Bytes n) {i : ℕ} (h : n ≤ i) : a.byteAt i = 0#8 := by
  simp [byteAt, Nat.not_lt.mpr h]

theorem read_of_lt (a : Bytes n) {i : ℕ} (h : i < n) : a.read i = some (a.byteAt i) := if_pos h

theorem read_of_le (a : Bytes n) {i : ℕ} (h : n ≤ i) : a.read i = none :=
  if_neg (Nat.not_lt.mpr h)

theorem write_eq_some_iff (a r : Bytes n) (i : ℕ) (x : BitVec 8) :
    a.write i x = some r ↔ i < n ∧ ∀ k, r.byteAt k = if k = i then x else a.byteAt k := by
  unfold write
  constructor
  · intro h
    simp only [Option.ite_none_right_eq_some, Option.some.injEq] at h
    refine ⟨h.1, fun k => ?_⟩
    rw [← h.2]
    by_cases hk : k < n
    · simp [byteAt, hk]
    · have hki : k ≠ i := by omega
      simp [byteAt, hk, hki]
  · rintro ⟨hi, h⟩
    rw [if_pos hi, Option.some.injEq]
    funext k
    have hk := h k.val
    simp only [byteAt, k.isLt, dite_true] at hk
    exact hk.symm

theorem memcpy_eq_some_iff (dst r : Bytes n) (src : Bytes m) (d s len : ℕ) :
    memcpy dst d src s len = some r ↔ (d + len ≤ n ∧ s + len ≤ m) ∧
      ∀ k, r.byteAt k = if d ≤ k ∧ k < d + len then src.byteAt (s + (k - d))
        else dst.byteAt k := by
  unfold memcpy
  constructor
  · intro h
    simp only [Option.ite_none_right_eq_some, Option.some.injEq] at h
    refine ⟨h.1, fun k => ?_⟩
    rw [← h.2]
    by_cases hk : k < n
    · simp [byteAt, hk]
    · have hkd : ¬ (d ≤ k ∧ k < d + len) := by omega
      simp only [byteAt, hk, dite_false, if_neg hkd]
  · rintro ⟨hb, h⟩
    rw [if_pos hb, Option.some.injEq]
    funext k
    have hk := h k.val
    simp only [byteAt, k.isLt, dite_true] at hk
    simpa only [byteAt] using hk.symm

theorem exists_write (a : Bytes n) {i : ℕ} (x : BitVec 8) (h : i < n) :
    ∃ r, a.write i x = some r ∧ ∀ k, r.byteAt k = if k = i then x else a.byteAt k :=
  ⟨_, if_pos h, ((write_eq_some_iff a _ i x).mp (if_pos h)).2⟩

theorem exists_memcpy (dst : Bytes n) (src : Bytes m) (d s len : ℕ)
    (hd : d + len ≤ n) (hs : s + len ≤ m) :
    ∃ r, memcpy dst d src s len = some r ∧
      ∀ k, r.byteAt k = if d ≤ k ∧ k < d + len then src.byteAt (s + (k - d))
        else dst.byteAt k :=
  ⟨_, if_pos ⟨hd, hs⟩, ((memcpy_eq_some_iff dst _ src d s len).mp (if_pos ⟨hd, hs⟩)).2⟩

theorem memcpy_eq_none (dst : Bytes n) (src : Bytes m) (d s : ℕ) {len : ℕ}
    (h : n < d + len ∨ m < s + len) : memcpy dst d src s len = none := by
  unfold memcpy
  rw [if_neg (by omega)]

end Bytes

theorem Bytes.bit_of_le {n : ℕ} (a : Bytes n) {j : ℕ} (h : 8 * n ≤ j) : a.bit j = false := by
  have hk : n ≤ j / 8 := by omega
  simp [Bytes.bit, Bytes.byteAt_of_le a hk]

/-- The number the `len` bits from `start` on denote, most significant first. -/
def number (bit : ℕ → Bool) (start : ℕ) : ℕ → ℕ
  | 0 => 0
  | len + 1 => 2 * number bit start len + (bit (start + len)).toNat

theorem number_lt (bit : ℕ → Bool) (start len : ℕ) : number bit start len < 2 ^ len := by
  induction len with
  | zero => simp [number]
  | succ len ih =>
    have hbit := Bool.toNat_le (bit (start + len))
    rw [number, pow_succ]
    omega

theorem number_add (bit : ℕ → Bool) (start a b : ℕ) :
    number bit start (a + b) = number bit start a * 2 ^ b + number bit (start + a) b := by
  induction b with
  | zero => simp [number]
  | succ b ih =>
    rw [← Nat.add_assoc, number, ih, number, pow_succ, Nat.add_assoc start a b]
    ring

theorem number_div (bit : ℕ → Bool) (start a b : ℕ) :
    number bit start (a + b) / 2 ^ b = number bit start a := by
  rw [number_add, Nat.mul_comm, Nat.mul_add_div (Nat.two_pow_pos b),
    Nat.div_eq_of_lt (number_lt bit (start + a) b), Nat.add_zero]

theorem number_mod (bit : ℕ → Bool) (start a b : ℕ) :
    number bit start (a + b) % 2 ^ b = number bit (start + a) b := by
  rw [number_add, Nat.mul_comm, Nat.mul_add_mod, Nat.mod_eq_of_lt (number_lt bit (start + a) b)]

theorem number_congr {bit bit' : ℕ → Bool} {start start' len : ℕ}
    (h : ∀ i < len, bit (start + i) = bit' (start' + i)) :
    number bit start len = number bit' start' len := by
  induction len with
  | zero => rfl
  | succ len ih =>
    rw [number, number, ih (fun i hi => h i (by omega)), h len (by omega)]

theorem number_eq_iff (bit bit' : ℕ → Bool) (start start' len : ℕ) :
    number bit start len = number bit' start' len ↔
      ∀ i < len, bit (start + i) = bit' (start' + i) := by
  refine ⟨fun h => ?_, number_congr⟩
  induction len with
  | zero => intro i hi; omega
  | succ len ih =>
    rw [number, number] at h
    have hb := Bool.toNat_le (bit (start + len))
    have hb' := Bool.toNat_le (bit' (start' + len))
    have hhead : number bit start len = number bit' start' len := by omega
    have hlast : (bit (start + len)).toNat = (bit' (start' + len)).toNat := by omega
    intro i hi
    by_cases hil : i < len
    · exact ih hhead i hil
    · rw [show i = len by omega]
      cases hx : bit (start + len) <;> cases hy : bit' (start' + len) <;> simp_all

theorem number_eq_byte (b : BitVec 8) : number b.getMsbD 0 8 = b.toNat := by
  revert b
  decide

theorem number_byte {n : ℕ} (a : Bytes n) (k : ℕ) :
    number a.bit (8 * k) 8 = (a.byteAt k).toNat := by
  rw [← number_eq_byte]
  refine number_congr (fun i hi => ?_)
  have hdiv : (8 * k + i) / 8 = k := by omega
  have hmod : (8 * k + i) % 8 = 0 + i := by omega
  rw [Bytes.bit, hdiv, hmod]

end CcspPandM.BitWindow
