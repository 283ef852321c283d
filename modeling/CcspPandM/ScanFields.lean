import CcspPandM.ScanText

/-!
The directives of an `sscanf` format, each with the text it leaves to the next
one: `%s` takes a word, `%d` a decimal number and `%x` a hexadecimal one. A
field of printed digits that ends at white space is read back whole. `long` has
32 bits here.
-/
namespace CcspPandM.ScanFields

open CString InetText ScanText

/-- `%s` with a width: white space is passed over and a word is taken. -/
def scanWordOf (n : ℕ) (t : CStr) : Option (CStr × CStr) :=
  let field := t.dropWhile isspace
  let word := (field.takeWhile (fun c => !isspace c)).take n
  if word = [] then none else some (word, field.drop word.length)

/-- `%s`. -/
def scanWord (t : CStr) : Option (CStr × CStr) := scanWordOf t.length t

def scanDigitsRest (t : CStr) : Option (ℕ × CStr) :=
  (scanDigits t).map fun n => (n, t.dropWhile Char.isDigit)

/-- `%d`: a number too large for a `long` is cut down to its range first. -/
def scanInt (t : CStr) : Option (BitVec 32 × CStr) :=
  match t.dropWhile isspace with
  | '-' :: rest => (scanDigitsRest rest).map fun p =>
      (BitVec.ofInt 32 (max (-(p.1 : ℤ)) (-(2 ^ 31))), p.2)
  | '+' :: rest => (scanDigitsRest rest).map fun p =>
      (BitVec.ofInt 32 (min (p.1 : ℤ) (2 ^ 31 - 1)), p.2)
  | rest => (scanDigitsRest rest).map fun p =>
      (BitVec.ofInt 32 (min (p.1 : ℤ) (2 ^ 31 - 1)), p.2)

def hexNat (digits : CStr) : ℕ := digits.foldl (fun acc c => acc * 16 + (hexValue c).getD 0) 0

def isHexDigit (c : Char) : Bool := (hexValue c).isSome

def scanHexDigits (t : CStr) : Option (ℕ × CStr) :=
  if t.takeWhile isHexDigit = [] then none
  else some (hexNat (t.takeWhile isHexDigit), t.dropWhile isHexDigit)

def scanHexNumber : CStr → Option (ℕ × CStr)
  | '0' :: x :: rest =>
    if x = 'x' ∨ x = 'X' then scanHexDigits rest else scanHexDigits ('0' :: x :: rest)
  | t => scanHexDigits t

/-- `%x` with a width; a number too large for an `unsigned long` is its largest one. -/
def scanHexOf (n : ℕ) (t : CStr) : Option (BitVec 32 × CStr) :=
  let field := (t.dropWhile isspace).take n
  let behind := (t.dropWhile isspace).drop n
  match field with
  | '-' :: rest => (scanHexNumber rest).map fun p =>
      (-BitVec.ofNat 32 (min p.1 (2 ^ 32 - 1)), p.2 ++ behind)
  | '+' :: rest => (scanHexNumber rest).map fun p =>
      (BitVec.ofNat 32 (min p.1 (2 ^ 32 - 1)), p.2 ++ behind)
  | rest => (scanHexNumber rest).map fun p =>
      (BitVec.ofNat 32 (min p.1 (2 ^ 32 - 1)), p.2 ++ behind)

/-- `%x`. -/
def scanHex (t : CStr) : Option (BitVec 32 × CStr) := scanHexOf t.length t

/-- The text behind a field: nothing, or white space first. -/
def Ended (rest : CStr) : Prop := ∀ c ∈ rest.head?, isspace c = true

theorem ended_cons {c : Char} (hc : isspace c = true) (rest : CStr) : Ended (c :: rest) := by
  intro d hd
  rw [List.head?_cons, Option.mem_some_iff] at hd
  rwa [← hd]

theorem takeWhile_field {p : Char → Bool} {w rest : CStr} (hw : ∀ c ∈ w, p c = true)
    (hrest : ∀ c ∈ rest.head?, p c = false) :
    (w ++ rest).takeWhile p = w ∧ (w ++ rest).dropWhile p = rest := by
  rw [List.takeWhile_append_of_pos hw, List.dropWhile_append_of_pos hw]
  cases rest with
  | nil => simp
  | cons c rest =>
    have hc := hrest c rfl
    rw [List.takeWhile_cons_of_neg (by simp [hc]), List.dropWhile_cons_of_neg (by simp [hc])]
    exact ⟨List.append_nil w, rfl⟩

theorem dropWhile_isspace {gap t : CStr} (hgap : ∀ c ∈ gap, isspace c = true)
    (ht : ∀ c ∈ t.head?, isspace c = false) : (gap ++ t).dropWhile isspace = t :=
  (takeWhile_field hgap ht).2

/-- White space before a field. -/
def Gap (gap : CStr) : Prop := ∀ c ∈ gap, isspace c = true

theorem gap_nil : Gap [] := by
  intro c hc
  cases hc

theorem gap_blank : Gap [' '] := by
  intro c hc
  rw [List.mem_singleton.mp hc]
  rfl

theorem scanWord_field {gap w rest : CStr} (hgap : Gap gap) (hne : w ≠ [])
    (hw : ∀ c ∈ w, isspace c = false) (hrest : Ended rest) :
    scanWord (gap ++ (w ++ rest)) = some (w, rest) := by
  have hhead : ∀ c ∈ (w ++ rest).head?, isspace c = false := by
    obtain ⟨c, cs, rfl⟩ := List.exists_cons_of_ne_nil hne
    intro d hd
    rw [List.cons_append, List.head?_cons, Option.mem_some_iff] at hd
    rw [← hd]
    exact hw c List.mem_cons_self
  have htake : (w ++ rest).takeWhile (fun c => !isspace c) = w :=
    (takeWhile_field (fun c hc => by rw [hw c hc]; rfl)
      (fun c hc => by rw [hrest c hc]; rfl)).1
  have hfit : w.take (gap ++ (w ++ rest)).length = w := by
    apply List.take_of_length_le
    rw [List.length_append, List.length_append]
    omega
  simp only [scanWord, scanWordOf, dropWhile_isspace hgap hhead, htake, hfit, if_neg hne,
    List.drop_left]

theorem not_digit_of_ended {rest : CStr} (hrest : Ended rest) :
    ∀ c ∈ rest.head?, c.isDigit = false := by
  intro c hc
  have hspace := hrest c hc
  cases hdigit : c.isDigit with
  | false => rfl
  | true =>
    rw [isspace_of_isDigit hdigit] at hspace
    cases hspace

theorem scanDigitsRest_number (n : ℕ) {rest : CStr} (hrest : ∀ c ∈ rest.head?, c.isDigit = false) :
    scanDigitsRest (decimal n ++ rest) = some (n, rest) := by
  obtain ⟨htake, hdrop⟩ := takeWhile_field (w := decimal n)
    (fun c hc => isDigit_of_mem_decimal hc) hrest
  rw [scanDigitsRest, scanDigits, htake, if_neg (decimal_ne_nil n),
    leadingNumber_decimal_append n hrest, hdrop]
  rfl

theorem scanInt_number (n : ℕ) {gap rest : CStr} (hgap : Gap gap)
    (hrest : ∀ c ∈ rest.head?, c.isDigit = false) :
    scanInt (gap ++ (decimal n ++ rest)) =
      some (BitVec.ofInt 32 (min (n : ℤ) (2 ^ 31 - 1)), rest) := by
  obtain ⟨c, cs, hcs, hc⟩ := decimal_eq_cons n
  have hscan := scanDigitsRest_number n hrest
  have hdrop : (gap ++ (decimal n ++ rest)).dropWhile isspace = c :: (cs ++ rest) := by
    rw [hcs]
    apply dropWhile_isspace hgap
    intro d hd
    rw [List.cons_append, List.head?_cons, Option.mem_some_iff] at hd
    rw [← hd, isspace_of_isDigit hc]
  unfold scanInt
  rw [hdrop]
  split
  · next h => exact absurd (List.cons.inj h).1 (ne_of_isDigit hc rfl)
  · next h => exact absurd (List.cons.inj h).1 (ne_of_isDigit hc rfl)
  · rw [← List.cons_append, ← hcs, hscan, Option.map_some]

theorem scanInt_decimal {n : ℕ} (hn : n < 2 ^ 31) {gap rest : CStr} (hgap : Gap gap)
    (hrest : Ended rest) :
    scanInt (gap ++ (decimal n ++ rest)) = some (BitVec.ofNat 32 n, rest) := by
  have hmin : min (n : ℤ) (2 ^ 31 - 1) = n := by omega
  rw [scanInt_number n hgap (not_digit_of_ended hrest), hmin, BitVec.ofInt_natCast]

def scanLiteral (pat t : CStr) : Option CStr :=
  if pat <+: t then some (t.drop pat.length) else none

theorem scanLiteral_append (pat t : CStr) : scanLiteral pat (pat ++ t) = some t := by
  rw [scanLiteral, if_pos (List.prefix_append pat t), List.drop_left]

def IsHex (t : CStr) : Prop := t ≠ [] ∧ ∀ c ∈ t, isHexDigit c = true

theorem isHex_iff (t : CStr) : (!t.isEmpty && t.all isHexDigit) = true ↔ IsHex t := by
  cases t <;> simp [IsHex]

instance (t : CStr) : Decidable (IsHex t) := decidable_of_iff _ (isHex_iff t)

theorem ne_of_isHexDigit {c d : Char} (hc : isHexDigit c = true) (hd : isHexDigit d = false) :
    c ≠ d := by
  rintro rfl
  rw [hc] at hd
  cases hd

theorem isspace_of_isHexDigit {c : Char} (hc : isHexDigit c = true) : isspace c = false := by
  have hne : ∀ d : Char, isHexDigit d = false → c ≠ d := fun d hd => ne_of_isHexDigit hc hd
  simp [isspace, hne ' ' rfl, hne '\t' rfl, hne '\n' rfl, hne '\x0b' rfl, hne '\x0c' rfl,
    hne '\r' rfl]

theorem scanHexDigits_field {t rest : CStr} (ht : IsHex t)
    (hrest : ∀ c ∈ rest.head?, isHexDigit c = false) :
    scanHexDigits (t ++ rest) = some (hexNat t, rest) := by
  obtain ⟨htake, hdrop⟩ := takeWhile_field ht.2 hrest
  rw [scanHexDigits, htake, hdrop, if_neg ht.1]

theorem scanHexNumber_field {t rest : CStr} (ht : IsHex t)
    (hrest : ∀ c ∈ rest.head?, isHexDigit c = false ∧ c ≠ 'x' ∧ c ≠ 'X') :
    scanHexNumber (t ++ rest) = some (hexNat t, rest) := by
  have hfield := scanHexDigits_field ht fun c hc => (hrest c hc).1
  have hsecond : ∀ x tail, t ++ rest = '0' :: x :: tail → ¬ (x = 'x' ∨ x = 'X') := by
    intro x tail h
    obtain ⟨c, cs, rfl⟩ := List.exists_cons_of_ne_nil ht.1
    have htail := (List.cons.inj h).2
    cases cs with
    | nil =>
      have hx := hrest x (by rw [show rest = x :: tail from htail]; rfl)
      exact not_or.mpr hx.2
    | cons d ds =>
      have hd := ht.2 d (List.mem_cons_of_mem _ List.mem_cons_self)
      rw [show d = x from (List.cons.inj htail).1] at hd
      exact not_or.mpr ⟨ne_of_isHexDigit hd rfl, ne_of_isHexDigit hd rfl⟩
  unfold scanHexNumber
  split
  · next x tail h =>
    rw [if_neg (hsecond x tail h), ← h]
    exact hfield
  · exact hfield

theorem scanHexOf_field {n : ℕ} {gap t rest : CStr} (hgap : Gap gap) (ht : IsHex t)
    (hn : t.length ≤ n) (hsmall : hexNat t < 2 ^ 32)
    (hrest : ∀ c ∈ (rest.take (n - t.length)).head?, isHexDigit c = false ∧ c ≠ 'x' ∧ c ≠ 'X') :
    scanHexOf n (gap ++ (t ++ rest)) = some (BitVec.ofNat 32 (hexNat t), rest) := by
  obtain ⟨c, cs, rfl⟩ := List.exists_cons_of_ne_nil ht.1
  have hc := ht.2 c List.mem_cons_self
  have hdrop : (gap ++ (c :: cs ++ rest)).dropWhile isspace = c :: cs ++ rest := by
    apply dropWhile_isspace hgap
    intro d hd
    rw [List.cons_append, List.head?_cons, Option.mem_some_iff] at hd
    rw [← hd, isspace_of_isHexDigit hc]
  have htake : (c :: cs ++ rest).take n = c :: cs ++ rest.take (n - (c :: cs).length) := by
    rw [List.take_append, List.take_of_length_le hn]
  have hbehind : (c :: cs ++ rest).drop n = rest.drop (n - (c :: cs).length) := by
    rw [List.drop_append, List.drop_eq_nil_of_le hn, List.nil_append]
  have hscan := scanHexNumber_field ht hrest
  have hmin : min (hexNat (c :: cs)) (2 ^ 32 - 1) = hexNat (c :: cs) := by omega
  unfold scanHexOf
  rw [hdrop, htake, hbehind]
  dsimp only
  split
  · next h => exact absurd (List.cons.inj h).1 (ne_of_isHexDigit hc rfl)
  · next h => exact absurd (List.cons.inj h).1 (ne_of_isHexDigit hc rfl)
  · rw [hscan, Option.map_some, hmin, List.take_append_drop]

theorem hexNat_lt (t : CStr) : hexNat t < 16 ^ t.length := by
  have hfold : ∀ (t : CStr) (acc k : ℕ), acc < 16 ^ k →
      t.foldl (fun acc c => acc * 16 + (hexValue c).getD 0) acc < 16 ^ (k + t.length) := by
    intro t
    induction t with
    | nil => exact fun acc k h => h
    | cons c t ih =>
      intro acc k h
      have hdigit : (hexValue c).getD 0 < 16 := by
        cases hc : hexValue c with
        | none => exact Nat.zero_lt_succ _
        | some v => exact hexValue_lt hc
      have hstep := ih (acc * 16 + (hexValue c).getD 0) (k + 1) (by rw [Nat.pow_succ]; omega)
      rw [List.foldl_cons, List.length_cons, show k + (t.length + 1) = k + 1 + t.length by omega]
      exact hstep
  have h := hfold t 0 0 (by decide)
  rwa [Nat.zero_add] at h

theorem scanHex_field {gap t rest : CStr} (hgap : Gap gap) (ht : IsHex t)
    (hlen : t.length ≤ 8) (hrest : Ended rest) :
    scanHex (gap ++ (t ++ rest)) = some (BitVec.ofNat 32 (hexNat t), rest) := by
  have hlt : hexNat t < 2 ^ 32 :=
    lt_of_lt_of_le (hexNat_lt t) (Nat.pow_le_pow_right (show 0 < 16 by decide) hlen)
  apply scanHexOf_field hgap ht (by simp only [List.length_append]; omega) hlt
  intro c hc
  have hspace : isspace c = true := by
    apply hrest
    rw [List.head?_take] at hc
    split at hc
    · cases hc
    · exact hc
  refine ⟨?_, ?_, ?_⟩
  · cases hdigit : isHexDigit c with
    | false => rfl
    | true =>
      rw [isspace_of_isHexDigit hdigit] at hspace
      cases hspace
  · rintro rfl
    cases hspace
  · rintro rfl
    cases hspace

theorem scanWord_start {gap w : CStr} (hgap : Gap gap) (hne : w ≠ [])
    (hw : ∀ c ∈ w, isspace c = false) (more : CStr) :
    ∃ v rest, scanWord (gap ++ (w ++ more)) = some (w ++ v, rest) := by
  have hsplit : more = more.takeWhile (fun c => !isspace c) ++
      more.dropWhile (fun c => !isspace c) := List.takeWhile_append_dropWhile.symm
  have hword : ∀ c ∈ w ++ more.takeWhile (fun c => !isspace c), isspace c = false := by
    intro c hc
    rcases List.mem_append.mp hc with hc | hc
    · exact hw c hc
    · simpa using List.mem_takeWhile_imp hc
  have hended : Ended (more.dropWhile fun c => !isspace c) := by
    intro c hc
    have hstop := List.head?_dropWhile_not (fun c => !isspace c) more
    rw [Option.mem_def] at hc
    rw [hc] at hstop
    simpa using hstop
  have hfield := scanWord_field hgap (List.append_ne_nil_of_left_ne_nil hne _) hword hended
  rw [List.append_assoc, ← hsplit] at hfield
  exact ⟨_, _, hfield⟩

end CcspPandM.ScanFields
