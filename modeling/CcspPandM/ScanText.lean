import CcspPandM.InetText
import Mathlib.Data.List.TakeWhile

/-!
Numbers and IPv4 addresses as `sprintf` prints them and as `sscanf` and
`inet_addr` read them back. `long` has 32 bits here. `inet_addr` takes one to four
parts, each decimal, octal or hexadecimal, the last one filling the bytes left.
-/
namespace CcspPandM.ScanText

open CString InetText

/-- What `%d` prints for an `int`. -/
def intText (x : BitVec 32) : CStr :=
  if x.toInt < 0 then '-' :: decimal x.toInt.natAbs else decimal x.toInt.natAbs

def scanDigits (t : CStr) : Option ℕ :=
  if t.takeWhile Char.isDigit = [] then none else some (leadingNumber t)

/-- The number `%d` and `%lu` match: white space, a sign, digits. -/
def scanNumber (t : CStr) : Option ℤ :=
  match t.dropWhile isspace with
  | '-' :: rest => (scanDigits rest).map (fun n => -(n : ℤ))
  | '+' :: rest => (scanDigits rest).map (fun n => (n : ℤ))
  | rest => (scanDigits rest).map (fun n => (n : ℤ))

/-- `sscanf(t, "%d", &x)`; a text without a number leaves x as it was. -/
def sscanf_d (t : CStr) (x : BitVec 32) : BitVec 32 :=
  match scanNumber t with
  | some v => BitVec.ofInt 32 (max (-(2 ^ 31)) (min v (2 ^ 31 - 1)))
  | none => x

/-- `sscanf(t, "%lu", &x)`; a number too large is taken as `ULONG_MAX`. -/
def sscanf_lu (t : CStr) (x : BitVec 32) : BitVec 32 :=
  match scanNumber t with
  | some v => if 2 ^ 32 ≤ v.natAbs then 0xffffffff else BitVec.ofInt 32 v
  | none => x

def isDigitIn (base : ℕ) (c : Char) : Bool := (hexValue c).any (· < base)

/-- The base `strtoul(t, &end, 0)` settles on, and the digits it goes on with. -/
def radix : CStr → ℕ × CStr
  | '0' :: x :: c :: rest =>
    if (x = 'x' ∨ x = 'X') ∧ isDigitIn 16 c then (16, c :: rest) else (8, '0' :: x :: c :: rest)
  | '0' :: rest => (8, '0' :: rest)
  | t => (10, t)

/-- `strtoul(t, &end, 0)` and the text left at `end`. -/
def strtoul (t : CStr) : ℕ × CStr :=
  let (base, s) := radix t
  ((s.takeWhile (isDigitIn base)).foldl (fun acc c => acc * base + (hexValue c).getD 0) 0,
    s.dropWhile (isDigitIn base))

/-- The parts of an address before the last one, and the last one; `left` is
how many more dots may come. -/
def inetParts (t : CStr) (done : List ℕ) (left : ℕ) : Option (List ℕ × ℕ) :=
  if (t.headD '\x00').isDigit then
    let (val, rest) := strtoul t
    if 0xffffffff < val then none
    else match rest with
      | [] => some (done, val)
      | c :: rest =>
        if c = '.' then
          match left with
          | 0 => none
          | left + 1 => if 0xff < val then none else inetParts rest (done ++ [val]) left
        else if isspace c then some (done, val)
        else none
  else none

/-- The octets of `val` in so many bytes, the highest first. -/
def bytesOf (val k : ℕ) : List ℕ := (List.range k).map (fun i => val / 256 ^ (k - 1 - i) % 256)

def ofAddrOctets (octets : List ℕ) : BitVec 32 :=
  octets.foldr (fun v acc => acc <<< 8 ||| BitVec.ofNat 32 v) 0

def addrOctets (a : BitVec 32) : List ℕ :=
  [(a.extractLsb' 0 8).toNat, (a.extractLsb' 8 8).toNat, (a.extractLsb' 16 8).toNat,
    (a.extractLsb' 24 8).toNat]

/-- The address in network order, `INADDR_NONE` when the text is none. -/
def inet_addr (t : CStr) : BitVec 32 :=
  match inetParts t [] 3 with
  | some (done, val) =>
    if val < 256 ^ (4 - done.length) then ofAddrOctets (done ++ bytesOf val (4 - done.length))
    else 0xffffffff
  | none => 0xffffffff

/-- The same address, with no number kept for a text that is none. -/
def inet_aton (t : CStr) : Option (BitVec 32) :=
  match inetParts t [] 3 with
  | some (done, val) =>
    if val < 256 ^ (4 - done.length) then
      some (ofAddrOctets (done ++ bytesOf val (4 - done.length)))
    else none
  | none => none

example : inet_addr "10.0x1f.2".toList = 0x02001f0a := by decide +kernel
example : inet_addr "10.0.0.256".toList = 0xffffffff := by decide +kernel
example : sscanf_d (intText (-17)) 0 = -17 := by decide +kernel

theorem scanDigits_decimal (n : ℕ) : scanDigits (decimal n) = some n := by
  have hall : (decimal n).takeWhile Char.isDigit = decimal n := by
    apply List.takeWhile_eq_self_iff.mpr
    exact fun c hc => isDigit_of_mem_decimal hc
  rw [scanDigits, hall, if_neg (decimal_ne_nil n), leadingNumber_decimal]

theorem ne_of_isDigit {c d : Char} (hc : c.isDigit = true) (hd : d.isDigit = false) : c ≠ d := by
  rintro rfl
  rw [hc] at hd
  cases hd

variable {c : Char}

theorem isspace_of_isDigit (hc : c.isDigit = true) : isspace c = false := by
  have hne : ∀ d : Char, d.isDigit = false → c ≠ d := fun d hd => ne_of_isDigit hc hd
  simp [isspace, hne ' ' rfl, hne '\t' rfl, hne '\n' rfl, hne '\x0b' rfl, hne '\x0c' rfl,
    hne '\r' rfl]

theorem decimal_eq_cons (n : ℕ) : ∃ c rest, decimal n = c :: rest ∧ c.isDigit = true := by
  cases h : decimal n with
  | nil => exact absurd h (decimal_ne_nil n)
  | cons c rest =>
    refine ⟨c, rest, rfl, ?_⟩
    apply isDigit_of_mem_decimal (n := n)
    rw [h]
    exact List.mem_cons_self

theorem scanNumber_decimal (n : ℕ) : scanNumber (decimal n) = some (n : ℤ) := by
  have hdigits := scanDigits_decimal n
  obtain ⟨c, rest, hn, hc⟩ := decimal_eq_cons n
  have hdrop : (decimal n).dropWhile isspace = c :: rest := by
    rw [hn, List.dropWhile_cons_of_neg (by simp [isspace_of_isDigit hc])]
  unfold scanNumber
  rw [hdrop]
  split
  · next h => exact absurd (List.cons.inj h).1 (ne_of_isDigit hc rfl)
  · next h => exact absurd (List.cons.inj h).1 (ne_of_isDigit hc rfl)
  · rw [← hn, hdigits]
    rfl

theorem scanNumber_minus (n : ℕ) : scanNumber ('-' :: decimal n) = some (-(n : ℤ)) := by
  have hdrop : ('-' :: decimal n).dropWhile isspace = '-' :: decimal n :=
    List.dropWhile_cons_of_neg (by decide)
  simp only [scanNumber, hdrop, scanDigits_decimal]
  rfl

theorem intText_of_lt {n : BitVec 32} (h : n.toNat < 2 ^ 31) : intText n = decimal n.toNat := by
  have hint : n.toInt = n.toNat := by
    apply BitVec.toInt_eq_toNat_of_lt
    omega
  rw [intText, hint, if_neg (by omega), Int.natAbs_natCast]

theorem length_intText_le (x : BitVec 32) : (intText x).length ≤ 11 := by
  have hlow := x.le_toInt
  have hhigh := x.toInt_lt
  have hlen : (decimal x.toInt.natAbs).length ≤ 10 := by
    apply (decimal_length_le_iff (by decide)).mpr
    omega
  rw [intText]
  split
  · rw [List.length_cons]
    omega
  · omega

theorem scanNumber_intText (x : BitVec 32) : scanNumber (intText x) = some x.toInt := by
  unfold intText
  split
  · rw [scanNumber_minus]
    congr 1
    omega
  · rw [scanNumber_decimal]
    congr 1
    omega

variable (x y : BitVec 32)

theorem sscanf_d_intText : sscanf_d (intText x) y = x := by
  have hlow := x.le_toInt
  have hhigh := x.toInt_lt
  simp only [sscanf_d, scanNumber_intText]
  rw [show max (-(2 ^ 31)) (min x.toInt (2 ^ 31 - 1)) = x.toInt by omega]
  exact BitVec.ofInt_toInt

theorem sscanf_d_decimal :
    sscanf_d (decimal x.toNat) y = if x.toNat < 2 ^ 31 then x else 0x7fffffff := by
  have hread : sscanf_d (decimal x.toNat) y =
      BitVec.ofInt 32 (max (-(2 ^ 31)) (min x.toNat (2 ^ 31 - 1))) := by
    rw [sscanf_d, scanNumber_decimal]
  split
  · have hmin : max (-(2 ^ 31)) (min (x.toNat : ℤ) (2 ^ 31 - 1)) = x.toNat := by omega
    rw [hread, hmin, BitVec.ofInt_natCast, BitVec.ofNat_toNat, BitVec.setWidth_eq]
  · have hmin : max (-(2 ^ 31)) (min (x.toNat : ℤ) (2 ^ 31 - 1)) = 2147483647 := by omega
    rw [hread, hmin]
    rfl

theorem sscanf_d_decimal_eq_iff :
    sscanf_d (decimal x.toNat) y = x ↔ x.toNat < 2 ^ 31 := by
  rw [sscanf_d_decimal]
  split
  · exact iff_of_true rfl (by assumption)
  · rename_i hbig
    refine iff_of_false ?_ hbig
    rintro rfl
    exact hbig (by decide)

theorem sscanf_lu_decimal : sscanf_lu (decimal x.toNat) y = x := by
  have hx := x.isLt
  simp only [sscanf_lu, scanNumber_decimal, Int.natAbs_natCast]
  rw [if_neg (by omega), BitVec.ofInt_natCast, BitVec.ofNat_toNat, BitVec.setWidth_eq]

theorem hexValue_of_isDigit (hc : c.isDigit = true) :
    hexValue c = some (digitValue c) := if_pos hc

theorem isDigitIn_ten (hc : c.isDigit = true) : isDigitIn 10 c = true := by
  have hvalue : digitValue c < 10 := by
    simp only [Char.isDigit, Bool.and_eq_true, decide_eq_true_eq, UInt32.le_iff_toNat_le] at hc
    have hhigh : c.toNat ≤ 57 := hc.2
    have hzero : '0'.toNat = 48 := rfl
    unfold digitValue
    omega
  simp [isDigitIn, hexValue_of_isDigit hc, hvalue]

variable {n : ℕ}

theorem decimal_ne_zero_cons (hn : 0 < n) (rest : CStr) : decimal n ≠ '0' :: rest := by
  intro h
  have hvalue := Nat.ofDigitChars_ten_toDigits (n := n)
  rw [show Nat.toDigits 10 n = '0' :: rest from h, Nat.ofDigitChars_cons] at hvalue
  have hdigit : ∀ c ∈ rest, c.isDigit = true := fun c hc =>
    isDigit_of_mem_decimal (n := n) (by rw [h]; exact List.mem_cons_of_mem _ hc)
  have hlt : ∀ (l : CStr) (init : ℕ), (∀ c ∈ l, c.isDigit = true) →
      Nat.ofDigitChars 10 l init < (init + 1) * 10 ^ l.length := by
    intro l
    induction l with
    | nil => intro init _; simp
    | cons c l ih =>
      intro init hl
      have hc := isDigitIn_ten (hl c List.mem_cons_self)
      rw [isDigitIn, hexValue_of_isDigit (hl c List.mem_cons_self)] at hc
      have hten : digitValue c < 10 := by simpa using hc
      have hrest := ih (10 * init + digitValue c) (fun d hd => hl d (List.mem_cons_of_mem _ hd))
      rw [Nat.ofDigitChars_cons, List.length_cons, Nat.pow_succ']
      calc Nat.ofDigitChars 10 l (10 * init + digitValue c)
          < (10 * init + digitValue c + 1) * 10 ^ l.length := hrest
        _ ≤ (init + 1) * 10 * 10 ^ l.length := Nat.mul_le_mul_right _ (by omega)
        _ = (init + 1) * (10 * 10 ^ l.length) := Nat.mul_assoc _ _ _
  cases rest with
  | nil =>
    rw [Nat.ofDigitChars_nil] at hvalue
    simp at hvalue
    omega
  | cons c rest =>
    have hsmall : n < 10 ^ (c :: rest).length := by
      have := hlt (c :: rest) 0 hdigit
      simp only [Nat.mul_zero, Nat.zero_add, Nat.sub_self, Nat.one_mul] at hvalue this
      rwa [hvalue] at this
    have hlength := (decimal_length_le_iff (n := n) (by simp)).mpr hsmall
    rw [h] at hlength
    simp at hlength

theorem radix_decimal (hn : 0 < n) (rest : CStr) :
    radix (decimal n ++ rest) = (10, decimal n ++ rest) := by
  obtain ⟨c, tail, hcons, -⟩ := decimal_eq_cons n
  have hzero : c ≠ '0' := by
    rintro rfl
    exact decimal_ne_zero_cons hn tail hcons
  rw [hcons, List.cons_append]
  unfold radix
  split
  · next h => exact absurd (List.cons.inj h).1 hzero
  · next h => exact absurd (List.cons.inj h).1 hzero
  · rfl

theorem strtoul_decimal (n : ℕ) {rest : CStr} (hrest : rest = [] ∨ ∃ s, rest = '.' :: s) :
    strtoul (decimal n ++ rest) = (n, rest) := by
  rcases Nat.eq_zero_or_pos n with rfl | hn
  · rcases hrest with rfl | ⟨s, rfl⟩
    · decide +kernel
    · have hradix : radix ('0' :: '.' :: s) = (8, '0' :: '.' :: s) := by
        cases s with
        | nil => rfl
        | cons c s => simp [radix]
      change strtoul ('0' :: '.' :: s) = (0, '.' :: s)
      simp only [strtoul, hradix]
      rfl
  · have hdigits : ∀ c ∈ decimal n, isDigitIn 10 c = true :=
      fun c hc => isDigitIn_ten (isDigit_of_mem_decimal hc)
    have hstop : rest.takeWhile (isDigitIn 10) = [] ∧ rest.dropWhile (isDigitIn 10) = rest := by
      rcases hrest with rfl | ⟨s, rfl⟩
      · exact ⟨rfl, rfl⟩
      · exact ⟨rfl, rfl⟩
    have hvalue : (decimal n).foldl (fun acc c => acc * 10 + (hexValue c).getD 0) 0 = n := by
      have hnum := leadingNumber_decimal n
      have hall : (decimal n).takeWhile Char.isDigit = decimal n :=
        List.takeWhile_eq_self_iff.mpr (fun c hc => isDigit_of_mem_decimal hc)
      rw [leadingNumber, hall] at hnum
      refine (List.foldl_ext _ _ 0 fun acc c hc => ?_).trans hnum
      rw [hexValue_of_isDigit (isDigit_of_mem_decimal hc), Option.getD_some]
    simp only [strtoul, radix_decimal hn]
    rw [List.takeWhile_append_of_pos hdigits, List.dropWhile_append_of_pos hdigits, hstop.1,
      hstop.2, List.append_nil, hvalue]

theorem inetParts_decimal_dot (hn : n < 256) (rest : CStr) (done : List ℕ) (left : ℕ) :
    inetParts (decimal n ++ '.' :: rest) done (left + 1) = inetParts rest (done ++ [n]) left := by
  obtain ⟨c, tail, hcons, hc⟩ := decimal_eq_cons n
  have hhead : (decimal n ++ '.' :: rest).headD '\x00' = c := by rw [hcons]; rfl
  rw [inetParts, hhead, if_pos hc, strtoul_decimal n (Or.inr ⟨rest, rfl⟩)]
  simp only [if_neg (show ¬0xffffffff < n by omega), if_neg (show ¬0xff < n by omega), if_true]

theorem inetParts_decimal (hn : n < 256) (done : List ℕ) (left : ℕ) :
    inetParts (decimal n) done left = some (done, n) := by
  obtain ⟨c, tail, hcons, hc⟩ := decimal_eq_cons n
  have hhead : (decimal n).headD '\x00' = c := by rw [hcons]; rfl
  have hstrtoul := strtoul_decimal n (Or.inl (rfl : ([] : CStr) = []))
  rw [List.append_nil] at hstrtoul
  unfold inetParts
  rw [hhead, if_pos hc, hstrtoul]
  simp only [if_neg (show ¬0xffffffff < n by omega)]

variable (a : BitVec 32)

theorem ofAddrOctets_addrOctets : ofAddrOctets (addrOctets a) = a := by
  apply BitVec.eq_of_getLsbD_eq
  intro i hi
  simp only [ofAddrOctets, addrOctets, List.foldr_cons, List.foldr_nil, BitVec.ofNat_toNat,
    BitVec.getLsbD_or, BitVec.getLsbD_shiftLeft, BitVec.getLsbD_setWidth,
    BitVec.getLsbD_extractLsb']
  have hi8 : i - 8 < 32 := by omega
  have hi16 : i - 8 - 8 < 32 := by omega
  have hi24 : i - 8 - 8 - 8 < 32 := by omega
  rcases (by omega : i < 8 ∨ (8 ≤ i ∧ i < 16) ∨ (16 ≤ i ∧ i < 24) ∨ 24 ≤ i) with h | h | h | h
  · simp [h, hi]
  · simp [hi, hi8, show ¬i < 8 by omega, show i - 8 < 8 by omega,
      show 8 + (i - 8) = i by omega]
  · simp [hi, hi8, hi16, show ¬i < 8 by omega, show ¬i - 8 < 8 by omega,
      show i - 8 - 8 < 8 by omega, show 16 + (i - 8 - 8) = i by omega]
  · simp [hi, hi8, hi16, hi24, show ¬i < 8 by omega, show ¬i - 8 < 8 by omega,
      show ¬i - 8 - 8 < 8 by omega, show i - 8 - 8 - 8 < 8 by omega,
      show 24 + (i - 8 - 8 - 8) = i by omega]

theorem inet_addr_dotted : inet_addr (dotted (addrOctets a)) = a := by
  have hlt : ∀ i, (a.extractLsb' i 8).toNat < 256 := fun i => (a.extractLsb' i 8).isLt
  have hparts : inetParts (dotted (addrOctets a)) [] 3 =
      some ([(a.extractLsb' 0 8).toNat, (a.extractLsb' 8 8).toNat, (a.extractLsb' 16 8).toNat],
        (a.extractLsb' 24 8).toNat) := by
    unfold addrOctets
    rw [dotted_cons, inetParts_decimal_dot (hlt 0), dotted_cons, inetParts_decimal_dot (hlt 8),
      dotted_cons, inetParts_decimal_dot (hlt 16)]
    simpa [dotted, List.intercalate] using inetParts_decimal (hlt 24) _ 0
  have hbytes : bytesOf (a.extractLsb' 24 8).toNat 1 = [(a.extractLsb' 24 8).toNat] := by
    simp [bytesOf, List.range_succ]
  unfold inet_addr
  rw [hparts]
  simp only [List.length_cons, List.length_nil, Nat.zero_add, Nat.reduceAdd, Nat.reduceSub,
    Nat.pow_one, if_pos (hlt 24), hbytes]
  exact ofAddrOctets_addrOctets a

theorem dotted_addrOctets : ∃ o₀ o₁ o₂ o₃, dotted (addrOctets a) =
    decimal o₀ ++ '.' :: (decimal o₁ ++ '.' :: (decimal o₂ ++ '.' :: decimal o₃)) := by
  refine ⟨(a.extractLsb' 0 8).toNat, (a.extractLsb' 8 8).toNat, (a.extractLsb' 16 8).toNat,
    (a.extractLsb' 24 8).toNat, ?_⟩
  unfold addrOctets
  rw [dotted_cons, dotted_cons, dotted_cons]
  simp only [dotted, List.map_cons, List.map_nil, List.intercalate_singleton]

theorem length_dotted_addrOctets : 7 ≤ (dotted (addrOctets a)).length := by
  have hpos : ∀ n, 0 < (decimal n).length := fun n => List.length_pos_of_ne_nil (decimal_ne_nil n)
  obtain ⟨o₀, o₁, o₂, o₃, h⟩ := dotted_addrOctets a
  have h₀ := hpos o₀
  have h₁ := hpos o₁
  have h₂ := hpos o₂
  have h₃ := hpos o₃
  rw [h]
  simp only [List.length_append, List.length_cons]
  omega

theorem length_dotted_addrOctets_le : (dotted (addrOctets a)).length ≤ 15 := by
  have hoctet : ∀ i, (decimal (a.extractLsb' i 8).toNat).length ≤ 3 := fun i =>
    (decimal_length_le_iff (by omega)).mpr (by
      have hlt : (a.extractLsb' i 8).toNat < 256 := (a.extractLsb' i 8).isLt
      omega)
  have h0 := hoctet 0
  have h8 := hoctet 8
  have h16 := hoctet 16
  have h24 := hoctet 24
  simp only [addrOctets, dotted, List.map_cons, List.map_nil, List.intercalate,
    List.intersperse, List.flatten_cons, List.flatten_nil, List.length_append, List.length_cons,
    List.length_nil]
  omega

theorem notMem_dotted_addrOctets (hdigit : c.isDigit = false) (hdot : c ≠ '.')
    (a : BitVec 32) : c ∉ dotted (addrOctets a) := by
  have hdigits : ∀ n, c ∉ decimal n := fun n h => by
    rw [isDigit_of_mem_decimal h] at hdigit
    cases hdigit
  obtain ⟨o₀, o₁, o₂, o₃, h⟩ := dotted_addrOctets a
  rw [h]
  simp [hdigits, hdot]

end CcspPandM.ScanText
