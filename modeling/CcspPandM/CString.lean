import Mathlib.Data.List.Basic
import Mathlib.Tactic.NormNum

/-!
C texts as the characters before their terminating NUL, and the library calls
the modelled code makes on them. A `Buf n` is a char array of n bytes that
holds a terminated text, so a text in it is always shorter than n.
-/
namespace CcspPandM.CString

abbrev CStr := List Char

def Buf (n : ℕ) := { t : CStr // t.length < n }

instance (n : ℕ) : DecidableEq (Buf n) :=
  inferInstanceAs (DecidableEq { t : CStr // t.length < n })

-- Found by name wherever a number or a text is looked up in a list, or an array has the size.
instance (priority := high) lawfulWord : LawfulBEq (BitVec 32) := inferInstance
instance (priority := high) lawfulText : LawfulBEq (List Char) := inferInstance

scoped instance (priority := high) neZero4 : NeZero 4 := ⟨by decide⟩
scoped instance (priority := high) neZero6 : NeZero 6 := ⟨by decide⟩
scoped instance (priority := high) neZero8 : NeZero 8 := ⟨by decide⟩
scoped instance (priority := high) neZero12 : NeZero 12 := ⟨by decide⟩
scoped instance (priority := high) neZero16 : NeZero 16 := ⟨by decide⟩
scoped instance (priority := high) neZero17 : NeZero 17 := ⟨by decide⟩
scoped instance (priority := high) neZero25 : NeZero 25 := ⟨by decide⟩
scoped instance (priority := high) neZero32 : NeZero 32 := ⟨by decide⟩
scoped instance (priority := high) neZero40 : NeZero 40 := ⟨by decide⟩
scoped instance (priority := high) neZero50 : NeZero 50 := ⟨by decide⟩
scoped instance (priority := high) neZero64 : NeZero 64 := ⟨by decide⟩
scoped instance (priority := high) neZero65 : NeZero 65 := ⟨by decide⟩
scoped instance (priority := high) neZero80 : NeZero 80 := ⟨by decide⟩
scoped instance (priority := high) neZero100 : NeZero 100 := ⟨by decide⟩
scoped instance (priority := high) neZero125 : NeZero 125 := ⟨by decide⟩
scoped instance (priority := high) neZero129 : NeZero 129 := ⟨by decide⟩
scoped instance (priority := high) neZero131 : NeZero 131 := ⟨by decide⟩
scoped instance (priority := high) neZero255 : NeZero 255 := ⟨by decide⟩
scoped instance (priority := high) neZero256 : NeZero 256 := ⟨by decide⟩
scoped instance (priority := high) neZero257 : NeZero 257 := ⟨by decide⟩
scoped instance (priority := high) neZero320 : NeZero 320 := ⟨by decide⟩
scoped instance (priority := high) neZero512 : NeZero 512 := ⟨by decide⟩
scoped instance (priority := high) neZero513 : NeZero 513 := ⟨by decide⟩
scoped instance (priority := high) neZero1024 : NeZero 1024 := ⟨by decide⟩
scoped instance (priority := high) neZero1025 : NeZero 1025 := ⟨by decide⟩

namespace Buf

variable {n : ℕ} [NeZero n]

def empty : Buf n := ⟨[], NeZero.pos n⟩

def text (b : Buf n) : CStr := b.val

/-- `snprintf` keeps the longest prefix that leaves room for the NUL. -/
def snprintf (t : CStr) : Buf n :=
  ⟨t.take (n - 1), by
    have hpos := NeZero.pos n
    rw [List.length_take]
    omega⟩

/-- `sprintf_s` empties its destination when the text does not fit. -/
def sprintf_s (t : CStr) : Buf n := if h : t.length < n then ⟨t, h⟩ else empty

@[simp] theorem text_empty : (empty : Buf n).text = [] := rfl

omit [NeZero n] in
theorem text_injective {a b : Buf n} (h : a.text = b.text) : a = b := Subtype.ext h

omit [NeZero n] in
theorem text_length_lt (b : Buf n) : b.text.length < n := b.property

theorem text_snprintf (t : CStr) : (snprintf t : Buf n).text = t.take (n - 1) := rfl

theorem text_snprintf_of_lt {t : CStr} (h : t.length < n) : (snprintf t : Buf n).text = t := by
  rw [text_snprintf, List.take_of_length_le (by omega)]

theorem text_snprintf_eq_iff (t : CStr) : (snprintf t : Buf n).text = t ↔ t.length < n := by
  constructor
  · intro h
    rw [← h]
    exact text_length_lt _
  · exact text_snprintf_of_lt

theorem text_sprintf_s (t : CStr) :
    (sprintf_s t : Buf n).text = if t.length < n then t else [] := by
  by_cases h : t.length < n
  · have hs : (sprintf_s t : Buf n) = ⟨t, h⟩ := dif_pos h
    rw [hs, if_pos h]
    rfl
  · have hs : (sprintf_s t : Buf n) = empty := dif_neg h
    rw [hs, if_neg h]
    rfl

theorem text_sprintf_s_of_lt {t : CStr} (h : t.length < n) :
    (sprintf_s t : Buf n).text = t := by
  rw [text_sprintf_s, if_pos h]

theorem text_sprintf_s_of_le {t : CStr} (h : n ≤ t.length) :
    (sprintf_s t : Buf n).text = [] := by
  rw [text_sprintf_s, if_neg (by omega)]

end Buf

/-- What `%d` and `%lu` print for a number that is not negative. -/
def decimal (n : ℕ) : CStr := Nat.toDigits 10 n

theorem decimal_injective : Function.Injective decimal := by
  intro a b h
  have ha := Nat.ofDigitChars_ten_toDigits (n := a)
  rw [show Nat.toDigits 10 a = Nat.toDigits 10 b from h, Nat.ofDigitChars_ten_toDigits] at ha
  exact ha.symm

theorem decimal_length_le_iff {n k : ℕ} (hk : 0 < k) :
    (decimal n).length ≤ k ↔ n < 10 ^ k :=
  Nat.length_toDigits_le_iff (by norm_num) hk

theorem decimal_word_length (n : BitVec 32) : (decimal n.toNat).length ≤ 10 := by
  apply (decimal_length_le_iff (by decide)).mpr
  have h := n.isLt
  omega

theorem decimal_ne_nil (n : ℕ) : decimal n ≠ [] := Nat.toDigits_ne_nil

theorem isDigit_of_mem_decimal {n : ℕ} {c : Char} (h : c ∈ decimal n) : c.isDigit = true :=
  Nat.isDigit_of_mem_toDigits (by norm_num) (by norm_num) h

theorem decimal_cons_inj {c : Char} (hc : c.isDigit = false) {m n : ℕ} {s t : CStr}
    (h : decimal m ++ c :: s = decimal n ++ c :: t) : m = n ∧ s = t := by
  have hdigits := congrArg (List.takeWhile Char.isDigit) h
  rw [List.takeWhile_append_of_pos (fun c hc => isDigit_of_mem_decimal hc),
    List.takeWhile_append_of_pos (fun c hc => isDigit_of_mem_decimal hc),
    List.takeWhile_cons_of_neg (by simp [hc]), List.takeWhile_cons_of_neg (by simp [hc])] at hdigits
  have hmn : m = n := decimal_injective (List.append_cancel_right hdigits)
  subst hmn
  exact ⟨rfl, (List.cons.inj (List.append_cancel_left h)).2⟩

def isspace (c : Char) : Bool :=
  c = ' ' || c = '\t' || c = '\n' || c = '\x0b' || c = '\x0c' || c = '\r'

theorem forall_false_of_any {p : Char → Bool} {t : CStr} (h : t.any p = false) :
    ∀ c ∈ t, p c = false :=
  fun c hc => Bool.eq_false_iff.mpr (List.any_eq_false.mp h c hc)

def digitValue (c : Char) : ℕ := c.toNat - '0'.toNat

def leadingNumber (t : CStr) : ℕ :=
  (t.takeWhile Char.isDigit).foldl (fun acc c => acc * 10 + digitValue c) 0

/-- `strtol(t, NULL, 10)` for a 64-bit long: out of range it saturates. -/
def strtol (t : CStr) : ℤ :=
  match t.dropWhile isspace with
  | '-' :: rest => max (-(leadingNumber rest : ℤ)) (-(2 ^ 63))
  | '+' :: rest => min (leadingNumber rest : ℤ) (2 ^ 63 - 1)
  | rest => min (leadingNumber rest : ℤ) (2 ^ 63 - 1)

/-- `atoi` is `(int) strtol`. -/
def atoi (t : CStr) : ℤ := (BitVec.ofInt 32 (strtol t)).toInt

theorem leadingNumber_decimal_append (n : ℕ) {t : CStr}
    (ht : ∀ c ∈ t.head?, c.isDigit = false) : leadingNumber (decimal n ++ t) = n := by
  have hstop : t.takeWhile Char.isDigit = [] := by
    cases t with
    | nil => rfl
    | cons c t => rw [List.takeWhile_cons, ht c rfl]; rfl
  have hall : (decimal n ++ t).takeWhile Char.isDigit = decimal n := by
    rw [List.takeWhile_append_of_pos (fun c hc => isDigit_of_mem_decimal hc), hstop,
      List.append_nil]
  have hfold : ∀ (l : CStr) (init : ℕ),
      l.foldl (fun acc c => acc * 10 + digitValue c) init = Nat.ofDigitChars 10 l init := by
    intro l init
    rw [Nat.ofDigitChars_eq_foldl]
    congr 1
    funext acc c
    rw [Nat.mul_comm]
    rfl
  rw [leadingNumber, hall, hfold]
  exact Nat.ofDigitChars_ten_toDigits

theorem leadingNumber_decimal (n : ℕ) : leadingNumber (decimal n) = n := by
  have h := @leadingNumber_decimal_append n [] (by simp)
  rwa [List.append_nil] at h

theorem atoi_decimal_append {n : ℕ} (hn : n < 2 ^ 31) {t : CStr}
    (ht : ∀ c ∈ t.head?, c.isDigit = false) : atoi (decimal n ++ t) = n := by
  have hdigit : ∀ c ∈ decimal n, isspace c = false ∧ c ≠ '-' ∧ c ≠ '+' := by
    intro c hc
    have hd := isDigit_of_mem_decimal hc
    have hnot : ∀ d : Char, d.isDigit = false → c ≠ d := by
      rintro d hd' rfl
      rw [hd] at hd'
      cases hd'
    refine ⟨?_, hnot '-' rfl, hnot '+' rfl⟩
    simp [isspace, hnot ' ' rfl, hnot '\t' rfl, hnot '\n' rfl, hnot '\x0b' rfl, hnot '\x0c' rfl,
      hnot '\r' rfl]
  have hstrtol : strtol (decimal n ++ t) = n := by
    have hnum := leadingNumber_decimal_append n ht
    unfold strtol
    cases hcs : decimal n with
    | nil => exact absurd hcs (decimal_ne_nil n)
    | cons c rest =>
      rw [hcs] at hdigit hnum
      obtain ⟨hspace, hminus, hplus⟩ := hdigit c List.mem_cons_self
      rw [List.cons_append] at hnum ⊢
      rw [List.dropWhile_cons_of_neg (by rw [hspace]; exact Bool.false_ne_true)]
      split
      · next h => exact absurd (List.cons.inj h).1 hminus
      · next h => exact absurd (List.cons.inj h).1 hplus
      · rw [hnum]
        omega
  rw [atoi, hstrtol, BitVec.toInt_ofInt, Int.bmod_eq_of_le (by omega) (by omega)]

theorem atoi_decimal {n : ℕ} (hn : n < 2 ^ 31) : atoi (decimal n) = n := by
  have h := @atoi_decimal_append n hn [] (by simp)
  rwa [List.append_nil] at h

/-- `strcasecmp(a, b) == 0`. -/
def strcaseeq (a b : CStr) : Bool := a.map Char.toLower == b.map Char.toLower

/-- `strncmp(a, b, n) == 0`, the end of a list standing for the NUL. -/
def strneq : CStr → CStr → ℕ → Bool
  | _, _, 0 => true
  | a, b, n + 1 =>
    a.headD '\x00' == b.headD '\x00' &&
      (a.headD '\x00' == '\x00' || strneq a.tail b.tail n)

/-- `strndup` copies up to the length it is given or the first NUL. -/
def strndup (t : CStr) (size : ℕ) : CStr := (t.take size).takeWhile (· ≠ '\x00')

example : atoi "  42 hosts".toList = 42 := by decide
example : atoi "none".toList = 0 := by decide

end CcspPandM.CString
