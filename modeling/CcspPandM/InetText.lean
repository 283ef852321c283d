import CcspPandM.CString

/-!
`inet_pton` for both address families, character by character as the C library
reads a text. An IPv4 text has exactly four decimal octets without leading
zeros; an IPv6 text has groups of at most four hexadecimal digits, at most one
`::` and possibly an IPv4 text at its end.
-/
namespace CcspPandM.InetText

open CString

/-- Four octets; `cur` is the octet being read, `none` before its first digit. -/
def pton4From : CStr → List ℕ → Option ℕ → Option (List ℕ)
  | [], done, some v => if done.length = 3 then some (done ++ [v]) else none
  | [], _, none => none
  | c :: rest, done, cur =>
    if c.isDigit then
      match cur with
      | none => if done.length < 4 then pton4From rest done (some (digitValue c)) else none
      | some v =>
        if v = 0 then none
        else if 255 < v * 10 + digitValue c then none
        else pton4From rest done (some (v * 10 + digitValue c))
    else if c = '.' then
      match cur with
      | none => none
      | some v => if done.length = 3 then none else pton4From rest (done ++ [v]) none
    else none

def hexValue (c : Char) : Option ℕ :=
  if c.isDigit then some (digitValue c)
  else if 'a' ≤ c ∧ c ≤ 'f' then some (c.toNat - 'a'.toNat + 10)
  else if 'A' ≤ c ∧ c ≤ 'F' then some (c.toNat - 'A'.toNat + 10)
  else none

/-- Expands the `::` seen at `colon`, which must stand for at least one byte. -/
def pton6Expand (out : List ℕ) : Option ℕ → Option (List ℕ)
  | some at_ =>
    if out.length < 16 then
      some (out.take at_ ++ List.replicate (16 - out.length) 0 ++ out.drop at_)
    else none
  | none => if out.length = 16 then some out else none

def pton6Finish (out : List ℕ) (colon : Option ℕ) (seen val : ℕ) : Option (List ℕ) :=
  if 0 < seen then
    if out.length + 2 ≤ 16 then pton6Expand (out ++ [val / 256, val % 256]) colon else none
  else pton6Expand out colon

/-- The scan over an IPv6 text: `tok` is the text from the current group on,
`out` the bytes so far, `seen` and `val` the digits of the current group. -/
def pton6From : CStr → CStr → List ℕ → Option ℕ → ℕ → ℕ → Option (List ℕ)
  | [], _, out, colon, seen, val => pton6Finish out colon seen val
  | c :: rest, tok, out, colon, seen, val =>
    match hexValue c with
    | some d =>
      if seen = 4 then none else pton6From rest tok out colon (seen + 1) (val * 16 + d)
    | none =>
      if c = ':' then
        if seen = 0 then
          match colon with
          | some _ => none
          | none => pton6From rest rest out (some out.length) 0 0
        else if rest = [] then none
        else if out.length + 2 ≤ 16 then
          pton6From rest rest (out ++ [val / 256, val % 256]) colon 0 0
        else none
      else if c = '.' ∧ out.length + 4 ≤ 16 then
        match pton4From tok [] none with
        | some octets => pton6Finish (out ++ octets) colon 0 0
        | none => none
      else none

/-- `inet_pton(AF_INET, t, ..)`: the four octets of the address. -/
def inet_pton4 (t : CStr) : Option (List ℕ) := pton4From t [] none

/-- `inet_pton(AF_INET6, t, ..)`: the sixteen bytes of the address. -/
def inet_pton6 (t : CStr) : Option (List ℕ) :=
  match t with
  | [] => none
  | ':' :: rest =>
    match rest with
    | ':' :: _ => pton6From rest rest [] none 0 0
    | _ => none
  | _ => pton6From t t [] none 0 0

def zeroRun : List ℕ → ℕ
  | 0 :: rest => zeroRun rest + 1
  | _ => 0

def bestRun (words : List ℕ) : ℕ × ℕ :=
  (List.range words.length).foldl
    (fun best i => if best.2 < zeroRun (words.drop i) then (i, zeroRun (words.drop i)) else best)
    (0, 0)

def dotted (octets : List ℕ) : CStr := List.intercalate ['.'] (octets.map decimal)

def hexText (n : ℕ) : CStr := Nat.toDigits 16 n

/-- The groups from the i-th on; a run of at least two zero groups is `::`. -/
def ntop6From (words octets : List ℕ) (base len i : ℕ) : ℕ → CStr
  | 0 => if base + len = 8 ∧ 2 ≤ len then [':'] else []
  | fuel + 1 =>
    if 2 ≤ len ∧ base ≤ i ∧ i < base + len then
      (if i = base then [':'] else []) ++ ntop6From words octets base len (i + 1) fuel
    else if i = 6 ∧ base = 0 ∧ (len = 6 ∨
        (len = 5 ∧ words.getD 5 0 = 0xffff)) then
      ':' :: dotted (octets.drop 12)
    else
      (if i = 0 then [] else [':']) ++ hexText (words.getD i 0) ++
        ntop6From words octets base len (i + 1) fuel

/-- `inet_ntop(AF_INET6, octets, ..)` for sixteen bytes. -/
def inet_ntop6 (octets : List ℕ) : CStr :=
  let words := (List.range 8).map (fun i => octets.getD (2 * i) 0 * 256 + octets.getD (2 * i + 1) 0)
  ntop6From words octets (bestRun words).1 (bestRun words).2 0 8

example : inet_ntop6 [0x20, 1, 0x0d, 0xb8, 0, 0, 0, 0, 0, 0, 0, 0, 0, 0, 0, 7] =
    "2001:db8::7".toList := by decide

example : inet_pton4 "10.0.0.7".toList = some [10, 0, 0, 7] := by decide
example : inet_pton4 "10.0.0.256".toList = none := by decide
example : inet_pton6 "2001:db8::7".toList =
    some [0x20, 1, 0x0d, 0xb8, 0, 0, 0, 0, 0, 0, 0, 0, 0, 0, 0, 7] := by decide

theorem hexValue_ne {c d : Char} {v : ℕ} (h : hexValue c = some v) (hd : hexValue d = none) :
    c ≠ d := by
  rintro rfl
  rw [h] at hd
  cases hd

theorem hexValue_lt {c : Char} {v : ℕ} (h : hexValue c = some v) : v < 16 := by
  have hle : ∀ d : Char, c ≤ d → c.toNat ≤ d.toNat := fun d h => UInt32.le_iff_toNat_le.mp h
  unfold hexValue at h
  split_ifs at h with hdigit hlow hhigh
  · have hnine : c.toNat ≤ '9'.toNat := by
      simp only [Char.isDigit, Bool.and_eq_true, decide_eq_true_eq] at hdigit
      exact UInt32.le_iff_toNat_le.mp hdigit.2
    change c.toNat ≤ 57 at hnine
    obtain rfl := Option.some.inj h
    change c.toNat - 48 < 16
    omega
  · have hf := hle _ hlow.2
    change c.toNat ≤ 102 at hf
    obtain rfl := Option.some.inj h
    change c.toNat - 97 + 10 < 16
    omega
  · have hF := hle _ hhigh.2
    change c.toNat ≤ 70 at hF
    obtain rfl := Option.some.inj h
    change c.toNat - 65 + 10 < 16
    omega

theorem pton4From_length {t : CStr} {done octets : List ℕ} {cur : Option ℕ}
    (h : pton4From t done cur = some octets) : octets.length = 4 := by
  induction t generalizing done cur with
  | nil =>
    cases cur with
    | none => simp [pton4From] at h
    | some v =>
      simp only [pton4From, Option.ite_none_right_eq_some, Option.some.injEq] at h
      rw [← h.2, List.length_append, h.1]
      rfl
  | cons c rest ih =>
    simp only [pton4From] at h
    split at h
    · cases cur with
      | none =>
        simp only [Option.ite_none_right_eq_some] at h
        exact ih h.2
      | some v =>
        simp only [Option.ite_none_left_eq_some] at h
        exact ih h.2.2
    · split at h
      · cases cur with
        | none => simp at h
        | some v =>
          simp only [Option.ite_none_left_eq_some] at h
          exact ih h.2
      · simp at h

theorem pton4From_chars {t : CStr} {done octets : List ℕ} {cur : Option ℕ}
    (h : pton4From t done cur = some octets) : ∀ c ∈ t, c.isDigit = true ∨ c = '.' := by
  induction t generalizing done cur with
  | nil => simp
  | cons c rest ih =>
    simp only [pton4From] at h
    rw [List.forall_mem_cons]
    split at h
    · rename_i hdigit
      refine ⟨Or.inl hdigit, ?_⟩
      cases cur with
      | none =>
        simp only [Option.ite_none_right_eq_some] at h
        exact ih h.2
      | some v =>
        simp only [Option.ite_none_left_eq_some] at h
        exact ih h.2.2
    · split at h
      · rename_i hdot
        refine ⟨Or.inr hdot, ?_⟩
        cases cur with
        | none => simp at h
        | some v =>
          simp only [Option.ite_none_left_eq_some] at h
          exact ih h.2
      · simp at h

theorem decimal_append_inj {m n : ℕ} {s t : CStr}
    (h : decimal m ++ '.' :: s = decimal n ++ '.' :: t) : m = n ∧ s = t :=
  decimal_cons_inj rfl h

theorem dotted_cons (o o' : ℕ) (octets : List ℕ) :
    dotted (o :: o' :: octets) = decimal o ++ '.' :: dotted (o' :: octets) := by
  simp [dotted, List.intercalate]

theorem dotted_injective {os os' : List ℕ} (hlen : os.length = os'.length)
    (h : dotted os = dotted os') : os = os' := by
  induction os generalizing os' with
  | nil => exact (List.length_eq_zero_iff.mp hlen.symm).symm
  | cons o os ih =>
    cases os' with
    | nil => cases hlen
    | cons o' os' =>
      cases os with
      | nil =>
        have hnil : os' = [] := List.length_eq_zero_iff.mp (by simpa using hlen.symm)
        subst hnil
        have hone : decimal o = decimal o' := by
          simpa [dotted, List.intercalate] using h
        rw [decimal_injective hone]
      | cons p os =>
        cases os' with
        | nil => simp at hlen
        | cons p' os' =>
          rw [dotted_cons, dotted_cons] at h
          obtain ⟨rfl, hrest⟩ := decimal_append_inj h
          rw [ih (by simpa using hlen) hrest]

end CcspPandM.InetText
