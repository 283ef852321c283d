import CcspPandM.ScanText

/-!
The conversion of hexadecimal text of two digits a byte, with or without
separators. The index goes on by two characters at a time, also where only one was
left, and the size of the result is tested after the loop. A read behind the
terminator has no value; what is stored is the list of all bytes from the start of
the result on.
-/
namespace CcspPandM.StringToHex

open CString InetText ScanText

abbrev Byte := BitVec 8

def hexDigits (t : CStr) : Option ℕ :=
  let digits := t.takeWhile (isDigitIn 16)
  if digits = [] then none
  else some (digits.foldl (fun acc c => acc * 16 + (hexValue c).getD 0) 0)

def hexNumber : CStr → Option ℕ
  | '0' :: x :: rest => if x = 'x' ∨ x = 'X' then hexDigits rest else hexDigits ('0' :: x :: rest)
  | t => hexDigits t

/-- What `sscanf(t, "%x", &val)` stores, if it returns 1; `t` is too short for a number
that does not fit. -/
def sscanf_x (t : CStr) : Option (BitVec 32) :=
  match t.dropWhile isspace with
  | '-' :: rest => (hexNumber rest).map (fun n => -BitVec.ofNat 32 n)
  | '+' :: rest => (hexNumber rest).map (BitVec.ofNat 32)
  | rest => (hexNumber rest).map (BitVec.ofNat 32)

def read (str : CStr) (i : ℕ) : Option Char := (str ++ ['\x00'])[i]?

def isSeparator (c : Char) : Bool := c = ':' || c = '-' || c = '_'

variable {c : Char} {str : CStr}

theorem read_lt {i : ℕ} (h : read str i = some c) :
    i < str.length + 1 := by
  obtain ⟨hi, -⟩ := List.getElem?_eq_some_iff.mp h
  simpa using hi

/-- The loop from position `i`, and the bytes it stores. -/
def loop (str : CStr) (i : ℕ) : Option (List Byte) :=
  match _h : read str i with
  | none => none
  | some c =>
    if c = '\x00' then some []
    else do
      let d ← read str (i + 1)
      match sscanf_x ([c, d].takeWhile (· ≠ '\x00')) with
      | none => some []
      | some val =>
        let s ← read str (i + 2)
        (loop str (if isSeparator s then i + 3 else i + 2)).map (val.setWidth 8 :: ·)
termination_by str.length + 1 - i
decreasing_by
  have hi := read_lt _h
  split <;> omega

/-- Whether the result is `ANSC_STATUS_SUCCESS`, and the bytes stored. -/
def CosaUtilStringToHex (str : CStr) (hex_sz : ℤ) : Option (Bool × List Byte) :=
  (loop str 0).map (fun hex_str => (decide ((hex_str.length : ℤ) = hex_sz), hex_str))

def skipSeparator : CStr → CStr
  | [] => []
  | s :: rest => if isSeparator s then rest else s :: rest

theorem length_skipSeparator (t : CStr) : (skipSeparator t).length ≤ t.length := by
  cases t with
  | nil => exact le_rfl
  | cons s rest =>
    rw [skipSeparator]
    split
    · simp
    · exact le_rfl

def groups : CStr → Option (List Byte)
  | [] => some []
  | [c] => if (sscanf_x [c]).isSome then none else some []
  | c :: d :: rest =>
    match sscanf_x [c, d] with
    | none => some []
    | some val => (groups (skipSeparator rest)).map (val.setWidth 8 :: ·)
termination_by t => t.length
decreasing_by
  have hle := length_skipSeparator rest
  simp only [List.length_cons]
  omega

section Loop

theorem read_append (pre rest : CStr) (k : ℕ) :
    read (pre ++ rest) (pre.length + k) = read rest k := by
  rw [read, read, List.append_assoc, List.getElem?_append_right (by omega),
    Nat.add_sub_cancel_left]

theorem loop_end {i : ℕ} (h : read str i = some '\x00') : loop str i = some [] := by
  rw [loop]
  split
  · simp_all
  · simp_all

theorem loop_step {i : ℕ} {c d : Char} (hc : read str i = some c) (hne : c ≠ '\x00')
    (hd : read str (i + 1) = some d) :
    loop str i = match sscanf_x ([c, d].takeWhile (· ≠ '\x00')) with
      | none => some []
      | some val => (read str (i + 2)).bind fun s =>
        (loop str (if isSeparator s then i + 3 else i + 2)).map (val.setWidth 8 :: ·) := by
  rw [loop]
  split
  · simp_all
  · rename_i c' hc'
    obtain rfl : c' = c := by
      rw [hc] at hc'
      exact (Option.some.inj hc').symm
    rw [if_neg hne, hd]
    rfl

theorem loop_eq_groups (rest pre : CStr) (hnul : '\x00' ∉ rest) :
    loop (pre ++ rest) pre.length = groups rest := by
  have hread := read_append pre rest
  fun_induction groups rest generalizing pre with
  | case1 => exact loop_end (hread 0)
  | case2 c h =>
    have hc : c ≠ '\x00' := fun h0 => hnul (by simp [h0])
    obtain ⟨val, hval⟩ := Option.isSome_iff_exists.mp h
    have hstep := loop_step (hread 0) hc (hread 1)
    rw [Nat.add_zero] at hstep
    rw [hstep]
    simp [hc, hval, read]
  | case3 c h =>
    have hc : c ≠ '\x00' := fun h0 => hnul (by simp [h0])
    have hstep := loop_step (hread 0) hc (hread 1)
    rw [Nat.add_zero] at hstep
    rw [hstep]
    simp [hc, Option.not_isSome_iff_eq_none.mp h]
  | case4 c d rest h =>
    have hc : c ≠ '\x00' := fun h0 => hnul (by simp [h0])
    have hd : d ≠ '\x00' := fun h0 => hnul (by simp [h0])
    have hstep := loop_step (hread 0) hc (hread 1)
    rw [Nat.add_zero] at hstep
    rw [hstep]
    simp [hc, hd, h]
  | case5 c d rest val h ih =>
    have hc : c ≠ '\x00' := fun h0 => hnul (by simp [h0])
    have hd : d ≠ '\x00' := fun h0 => hnul (by simp [h0])
    have hstep := loop_step (hread 0) hc (hread 1)
    rw [Nat.add_zero] at hstep
    rw [hstep]
    simp only [hc, hd, h, ne_eq, not_false_eq_true, decide_true, List.takeWhile_cons_of_pos,
      List.takeWhile_nil, hread 2]
    cases rest with
    | nil =>
      have hend := ih (pre ++ [c, d]) (by simp [skipSeparator]) (read_append _ _)
      have hmap := congrArg (Option.map (val.setWidth 8 :: ·)) hend
      simpa [read, isSeparator, skipSeparator] using hmap
    | cons s rest =>
      cases hs : isSeparator s with
      | false =>
        have hrest := ih (pre ++ [c, d]) (fun h => hnul (by simp_all [skipSeparator]))
          (read_append _ _)
        simpa [read, hs, skipSeparator] using congrArg (Option.map (val.setWidth 8 :: ·)) hrest
      | true =>
        have hrest := ih (pre ++ [c, d, s]) (fun h => hnul (by simp_all [skipSeparator]))
          (read_append _ _)
        simpa [read, hs, skipSeparator] using congrArg (Option.map (val.setWidth 8 :: ·)) hrest

end Loop

variable {v : ℕ}

section Digits

theorem isDigitIn_of_hexValue (h : hexValue c = some v) :
    isDigitIn 16 c = true := by
  simp [isDigitIn, h, hexValue_lt h]

theorem isDigitIn_of_none (h : hexValue c = none) : isDigitIn 16 c = false := by
  simp [isDigitIn, h]

theorem isspace_of_hexValue (h : hexValue c = some v) : isspace c = false := by
  have hne : ∀ d, hexValue d = none → c ≠ d := fun _ => hexValue_ne h
  simp [isspace, hne ' ' rfl, hne '\t' rfl, hne '\n' rfl, hne '\x0b' rfl, hne '\x0c' rfl,
    hne '\r' rfl]

theorem sscanf_x_of_hexValue (h : hexValue c = some v) (rest : CStr) :
    sscanf_x (c :: rest) = (hexNumber (c :: rest)).map (BitVec.ofNat 32) := by
  have hminus : c ≠ '-' := hexValue_ne h rfl
  have hplus : c ≠ '+' := hexValue_ne h rfl
  rw [sscanf_x, List.dropWhile_cons_of_neg (by simp [isspace_of_hexValue h])]
  split
  · simp_all
  · simp_all
  · rfl

theorem sscanf_x_pair {hi lo : Char} {x y : ℕ} (hx : hexValue hi = some x)
    (hy : hexValue lo = some y) : sscanf_x [hi, lo] = some (BitVec.ofNat 32 (x * 16 + y)) := by
  have hlo : lo ≠ 'x' ∧ lo ≠ 'X' := ⟨hexValue_ne hy rfl, hexValue_ne hy rfl⟩
  have hplain : hexNumber [hi, lo] = hexDigits [hi, lo] := by
    by_cases hzero : hi = '0'
    · rw [hzero, hexNumber, if_neg (by simp [hlo])]
    · rw [hexNumber]
      simp [hzero]
  rw [sscanf_x_of_hexValue hx, hplain, hexDigits]
  simp [isDigitIn_of_hexValue hx, isDigitIn_of_hexValue hy, hx, hy]

theorem sscanf_x_single (c : Char) : (sscanf_x [c]).isSome = (hexValue c).isSome := by
  cases h : hexValue c with
  | some v =>
    rw [sscanf_x_of_hexValue h]
    simp [hexNumber, hexDigits, isDigitIn_of_hexValue h]
  | none =>
    have hdigits : hexNumber [c] = none := by
      simp [hexNumber, hexDigits, isDigitIn_of_none h]
    have hempty : hexNumber [] = none := rfl
    by_cases hspace : isspace c = true
    · simp [sscanf_x, hspace, hempty]
    · rw [sscanf_x, List.dropWhile_cons_of_neg hspace]
      split
      · simp_all
      · simp_all
      · simp [hdigits]

end Digits

variable {b : List Byte}

section Renderings

inductive Renders : List Byte → CStr → Prop where
  | nil : Renders [] []
  | cons {v : Byte} {b : List Byte} {hi lo : Char} {ts : CStr} :
      hexValue hi = some (v.toNat / 16) → hexValue lo = some (v.toNat % 16) →
      Renders b ts → Renders (v :: b) (hi :: lo :: ts)
  | separated {v : Byte} {b : List Byte} {hi lo s : Char} {ts : CStr} :
      hexValue hi = some (v.toNat / 16) → hexValue lo = some (v.toNat % 16) →
      isSeparator s = true → Renders b ts → Renders (v :: b) (hi :: lo :: s :: ts)

theorem isSeparator_of_hexValue (h : hexValue c = some v) :
    isSeparator c = false := by
  have hne : ∀ d, hexValue d = none → c ≠ d := fun _ => hexValue_ne h
  simp [isSeparator, hne ':' rfl, hne '-' rfl, hne '_' rfl]

theorem skipSeparator_renders {ts : CStr} (h : Renders b ts) :
    skipSeparator ts = ts := by
  cases h with
  | nil => rfl
  | cons hhi _ _ => simp [skipSeparator, isSeparator_of_hexValue hhi]
  | separated hhi _ _ _ => simp [skipSeparator, isSeparator_of_hexValue hhi]

theorem groups_pair {v : Byte} {hi lo : Char} (hhi : hexValue hi = some (v.toNat / 16))
    (hlo : hexValue lo = some (v.toNat % 16)) (rest : CStr) :
    groups (hi :: lo :: rest) = (groups (skipSeparator rest)).map (v :: ·) := by
  have hval : (BitVec.ofNat 32 (v.toNat / 16 * 16 + v.toNat % 16)).setWidth 8 = v := by
    have hlt := v.isLt
    apply BitVec.eq_of_toNat_eq
    rw [BitVec.toNat_setWidth, BitVec.toNat_ofNat]
    omega
  rw [groups, sscanf_x_pair hhi hlo]
  simp only [hval]

theorem groups_renders {ts : CStr} (h : Renders b ts) : groups ts = some b := by
  induction h with
  | nil => rw [groups]
  | cons hhi hlo hts ih =>
    rw [groups_pair hhi hlo, skipSeparator_renders hts, ih, Option.map_some]
  | separated hhi hlo hs _ ih =>
    rw [groups_pair hhi hlo, skipSeparator, if_pos hs, ih, Option.map_some]

end Renderings

section Bounds

/-- The text starts with so many groups that are numbers, and what is left of it. -/
inductive Leading : CStr → ℕ → CStr → Prop where
  | none (t : CStr) : Leading t 0 t
  | group {c d : Char} {t rest : CStr} {k : ℕ} : (sscanf_x [c, d]).isSome →
      Leading (skipSeparator t) k rest → Leading (c :: d :: t) (k + 1) rest

/-- The text has no more groups than fit, and no group of a single digit. -/
def Fits (str : CStr) (hex_sz : ℤ) : Prop :=
  ∀ k rest, Leading str k rest → (k : ℤ) ≤ hex_sz ∧ ∀ c, rest = [c] → hexValue c = none

theorem leading_of_groups {t : CStr} {stored : List Byte} (h : groups t = some stored) :
    (∃ rest, Leading t stored.length rest) ∧
      ∀ k rest, Leading t k rest → k ≤ stored.length ∧ ∀ c, rest = [c] → hexValue c = none := by
  fun_induction groups t generalizing stored with
  | case1 =>
    obtain rfl := Option.some.inj h
    refine ⟨⟨[], Leading.none _⟩, ?_⟩
    intro k rest hk
    cases hk with
    | none => simp
  | case2 c hc => simp at h
  | case3 c hc =>
    obtain rfl := Option.some.inj h
    refine ⟨⟨[c], Leading.none _⟩, ?_⟩
    intro k rest hk
    cases hk with
    | none =>
      rw [sscanf_x_single, Option.not_isSome_iff_eq_none] at hc
      exact ⟨le_rfl, by simpa using hc⟩
  | case4 c d rest hcd =>
    obtain rfl := Option.some.inj h
    refine ⟨⟨c :: d :: rest, Leading.none _⟩, ?_⟩
    intro k rest' hk
    cases hk with
    | none => simp
    | group hsome _ => simp [hcd] at hsome
  | case5 c d rest val hcd ih =>
    obtain ⟨tail, htail, rfl⟩ := Option.map_eq_some_iff.mp h
    obtain ⟨⟨left, hleft⟩, hall⟩ := ih htail
    refine ⟨⟨left, Leading.group (by simp [hcd]) hleft⟩, ?_⟩
    intro k rest' hk
    cases hk with
    | none => simp
    | group _ hk =>
      rw [List.length_cons]
      exact ⟨Nat.succ_le_succ (hall _ _ hk).1, (hall _ _ hk).2⟩

theorem leading_of_none {t : CStr} (h : groups t = none) :
    ∃ k c v, Leading t k [c] ∧ hexValue c = some v := by
  fun_induction groups t with
  | case1 => simp at h
  | case2 c hc =>
    rw [sscanf_x_single] at hc
    obtain ⟨v, hv⟩ := Option.isSome_iff_exists.mp hc
    exact ⟨0, c, v, Leading.none _, hv⟩
  | case3 c hc => simp at h
  | case4 c d rest hcd => simp at h
  | case5 c d rest val hcd ih =>
    obtain ⟨k, c', v, hk, hv⟩ := ih (Option.map_eq_none_iff.mp h)
    exact ⟨k + 1, c', v, Leading.group (by simp [hcd]) hk, hv⟩

/-- A rendered byte string comes back, with success if the size is its length; no byte
behind the terminator is read and none behind the size is stored. -/
def Converts (str : CStr) (hex_sz : ℤ) : Prop :=
  (∀ b, Renders b str →
      CosaUtilStringToHex str hex_sz = some (decide ((b.length : ℤ) = hex_sz), b)) ∧
    (0 ≤ hex_sz → ∃ status stored, CosaUtilStringToHex str hex_sz = some (status, stored) ∧
      (stored.length : ℤ) ≤ hex_sz)

theorem cosaUtilStringToHex_eq (hnul : '\x00' ∉ str) (hex_sz : ℤ) :
    CosaUtilStringToHex str hex_sz =
      (groups str).map (fun b => (decide ((b.length : ℤ) = hex_sz), b)) := by
  have hloop := loop_eq_groups str [] hnul
  rw [List.nil_append, List.length_nil] at hloop
  rw [CosaUtilStringToHex, hloop]

theorem fits_of_renders (h : Renders b str) {hex_sz : ℤ}
    (hsz : (b.length : ℤ) ≤ hex_sz) : Fits str hex_sz := by
  intro k rest hk
  obtain ⟨hcount, hsingle⟩ := (leading_of_groups (groups_renders h)).2 k rest hk
  exact ⟨by omega, hsingle⟩

end Bounds

end CcspPandM.StringToHex
