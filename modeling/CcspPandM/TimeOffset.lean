import CcspPandM.ScanFields

/-!
The time offset of the ipv6-timeoffset event, which comes in decimal or in
hexadecimal. The digits are added up as hexadecimal ones in an int, whatever the text
is; with no letter among them the text is taken to be decimal and handed on as it is.
-/
namespace CcspPandM.TimeOffset

open CString InetText ScanText ScanFields

section Code

def VALUE_ALREADY_IN_DECIMAL : BitVec 32 := -1

def INVALID_TIME_OFFSET_VAL : BitVec 32 := 0

/-- The loop over the digits. A sum that no int holds has no result. -/
def hexLoop (num : ℕ) (hexDigitFound : Bool) : CStr → Option (BitVec 32)
  | [] => some (if hexDigitFound then BitVec.ofNat 32 num else VALUE_ALREADY_IN_DECIMAL)
  | c :: rest =>
    match hexValue c with
    | none => some INVALID_TIME_OFFSET_VAL
    | some hexdigit =>
      if 16 * num + hexdigit < 2 ^ 31 then
        hexLoop (16 * num + hexdigit) (hexDigitFound || !c.isDigit) rest
      else none

/-- What follows a leading zero, with or without an x, or a minus sign. -/
def bodyOf : CStr → CStr
  | '0' :: 'x' :: rest => rest
  | '0' :: 'X' :: rest => rest
  | '0' :: rest => rest
  | '-' :: rest => rest
  | s => s

def hexToInt (s : CStr) : Option (BitVec 32) :=
  if s = ['-'] then some INVALID_TIME_OFFSET_VAL else hexLoop 0 false (bodyOf s)

/-- The text for version 6; the number is printed unless it is the decimal marker. -/
def converted (s : CStr) : Option CStr :=
  (hexToInt s).map fun v => if v = VALUE_ALREADY_IN_DECIMAL then s else intText v

/-- The event is read into `offset_value[100]`; nothing is written for an empty one. -/
def getTimeOffset (offset_value : Buf 100) (version : ℕ) : Option (Option CStr) :=
  match offset_value.text with
  | [] => some none
  | '@' :: s => if version = 6 then (converted s).map some else some (some s)
  | s => if version = 6 then (converted s).map some else some (some s)

end Code

section Digits

def HasLetter (t : CStr) : Prop := ∃ c ∈ t, c.isDigit = false

instance (t : CStr) : Decidable (HasLetter t) :=
  decidable_of_iff (t.any (fun c => !c.isDigit) = true) (by simp [HasLetter])

def hexFrom (num : ℕ) (t : CStr) : ℕ :=
  t.foldl (fun acc c => acc * 16 + (hexValue c).getD 0) num

theorem le_hexFrom (num : ℕ) (t : CStr) : num ≤ hexFrom num t := by
  induction t generalizing num with
  | nil => exact le_refl _
  | cons c t ih =>
    have h := ih (num * 16 + (hexValue c).getD 0)
    change num ≤ hexFrom (num * 16 + (hexValue c).getD 0) t
    omega

def readingOf (s : CStr) : ℕ := hexNat ((bodyOf s).takeWhile isHexDigit)

theorem hexLoop_isSome_iff {num : ℕ} (hnum : num < 2 ^ 31) (found : Bool) (t : CStr) :
    (hexLoop num found t).isSome ↔ hexFrom num (t.takeWhile isHexDigit) < 2 ^ 31 := by
  induction t generalizing num found with
  | nil => exact iff_of_true rfl hnum
  | cons c t ih =>
    cases hc : hexValue c with
    | none =>
      have hstop : (c :: t).takeWhile isHexDigit = [] := by
        rw [List.takeWhile_cons, isHexDigit, hc]
        rfl
      rw [hexLoop, hc, hstop]
      exact iff_of_true rfl hnum
    | some d =>
      have hgo : (c :: t).takeWhile isHexDigit = c :: t.takeWhile isHexDigit := by
        rw [List.takeWhile_cons, isHexDigit, hc]
        rfl
      have hfrom : hexFrom num (c :: t.takeWhile isHexDigit) =
          hexFrom (16 * num + d) (t.takeWhile isHexDigit) := by
        rw [hexFrom, List.foldl_cons, hc, Option.getD_some, Nat.mul_comm]
        rfl
      rw [hexLoop, hc, hgo, hfrom]
      dsimp only
      split
      · rename_i hfits
        exact ih hfits _
      · rename_i hbig
        have hle := le_hexFrom (16 * num + d) (t.takeWhile isHexDigit)
        constructor
        · intro h
          cases h
        · intro h
          omega

theorem hexLoop_hex {num : ℕ} {t : CStr} (ht : ∀ c ∈ t, isHexDigit c = true)
    (hfits : hexFrom num t < 2 ^ 31) (found : Bool) :
    hexLoop num found t = some (if found = true ∨ HasLetter t then
      BitVec.ofNat 32 (hexFrom num t) else VALUE_ALREADY_IN_DECIMAL) := by
  induction t generalizing num found with
  | nil =>
    have hletter : ¬ HasLetter [] := by
      rintro ⟨c, hc, -⟩
      cases hc
    simp only [hexLoop, hletter, or_false, hexFrom, List.foldl_nil]
  | cons c t ih =>
    obtain ⟨hc, ht⟩ := List.forall_mem_cons.mp ht
    obtain ⟨d, hd⟩ := Option.isSome_iff_exists.mp hc
    have hfrom : hexFrom num (c :: t) = hexFrom (16 * num + d) t := by
      rw [hexFrom, List.foldl_cons, hd, Option.getD_some, Nat.mul_comm]
      rfl
    have hstep : 16 * num + d < 2 ^ 31 := by
      have hle := le_hexFrom (16 * num + d) t
      omega
    have hletter : HasLetter (c :: t) ↔ c.isDigit = false ∨ HasLetter t := by
      simp only [HasLetter, List.exists_mem_cons_iff]
    rw [hfrom] at hfits ⊢
    rw [hexLoop, hd]
    dsimp only
    rw [if_pos hstep, ih ht hfits]
    simp only [hletter, Bool.or_eq_true, Bool.not_eq_true', or_assoc]

end Digits

section Renderings

/-- The renderings of an offset: in decimal, or its two's complement in hexadecimal, with a
letter among the digits or a prefix. -/
inductive Renders (v : BitVec 32) : CStr → Prop where
  | decimal : Renders v (intText v)
  | prefixed {t : CStr} : IsHex t → hexNat t = v.toNat → Renders v ('0' :: 'x' :: t)
  | plain {t : CStr} : IsHex t → hexNat t = v.toNat → HasLetter t → Renders v t

theorem hexToInt_isSome_iff (s : CStr) : (hexToInt s).isSome ↔ readingOf s < 2 ^ 31 := by
  rw [hexToInt]
  split
  · rename_i h
    rw [h]
    exact iff_of_true rfl (by decide)
  · exact hexLoop_isSome_iff (by decide) false (bodyOf s)

variable {s : CStr}

theorem mem_of_mem_bodyOf {c : Char} (h : c ∈ bodyOf s) : c ∈ s := by
  unfold bodyOf at h
  split at h
  · exact List.mem_cons_of_mem _ (List.mem_cons_of_mem _ h)
  · exact List.mem_cons_of_mem _ (List.mem_cons_of_mem _ h)
  · exact List.mem_cons_of_mem _ h
  · exact List.mem_cons_of_mem _ h
  · exact h

theorem isHexDigit_of_isDigit {c : Char} (h : c.isDigit = true) : isHexDigit c = true := by
  rw [isHexDigit, hexValue, if_pos h]
  rfl

theorem bodyOf_intText (v : BitVec 32) : ∀ c ∈ bodyOf (intText v), c.isDigit = true := by
  intro c hc
  rw [intText] at hc
  split at hc
  · exact isDigit_of_mem_decimal hc
  · exact isDigit_of_mem_decimal (mem_of_mem_bodyOf hc)

theorem bodyOf_hex {t : CStr} (ht : IsHex t) (hletter : HasLetter t) :
    (∀ c ∈ bodyOf t, isHexDigit c = true) ∧ hexNat (bodyOf t) = hexNat t := by
  refine ⟨fun c hc => ht.2 c (mem_of_mem_bodyOf hc), ?_⟩
  unfold bodyOf
  split
  · exact absurd (ht.2 'x' (by simp)) (by decide)
  · exact absurd (ht.2 'X' (by simp)) (by decide)
  · rfl
  · exact absurd (ht.2 '-' (by simp)) (by decide)
  · rfl

variable {v : BitVec 32}

theorem bodyOf_renders (h : Renders v s) :
    s ≠ ['-'] ∧ (∀ c ∈ bodyOf s, isHexDigit c = true) ∧
      (HasLetter (bodyOf s) → hexNat (bodyOf s) = v.toNat) := by
  cases h with
  | decimal =>
    refine ⟨?_, fun c hc => isHexDigit_of_isDigit (bodyOf_intText v c hc), ?_⟩
    · rw [intText]
      split
      · exact fun heq => decimal_ne_nil _ (List.cons.inj heq).2
      · intro heq
        exact absurd (isDigit_of_mem_decimal (heq ▸ List.mem_singleton.mpr rfl)) (by decide)
    · rintro ⟨c, hc, hletter⟩
      rw [bodyOf_intText v c hc] at hletter
      cases hletter
  | prefixed ht hv => exact ⟨by simp, ht.2, fun _ => hv⟩
  | plain ht hv hletter =>
    obtain ⟨hhex, hnat⟩ := bodyOf_hex ht hletter
    refine ⟨?_, hhex, fun _ => hnat.trans hv⟩
    rintro rfl
    exact absurd (ht.2 '-' (List.mem_singleton.mpr rfl)) (by decide)

theorem readingOf_hex (h : ∀ c ∈ bodyOf s, isHexDigit c = true) :
    readingOf s = hexNat (bodyOf s) := by
  rw [readingOf, List.takeWhile_eq_self_iff.mpr h]

theorem marker_ne {n : ℕ} (h : n < 2 ^ 31) : BitVec.ofNat 32 n ≠ VALUE_ALREADY_IN_DECIMAL := by
  intro heq
  have hnat := congrArg BitVec.toNat heq
  rw [BitVec.toNat_ofNat, Nat.mod_eq_of_lt (by omega)] at hnat
  change n = 2 ^ 32 - 1 at hnat
  omega

theorem converted_iff (h : Renders v s) :
    converted s = some (intText v) ↔
      readingOf s < 2 ^ 31 ∧ (s = intText v ∨ HasLetter (bodyOf s)) := by
  obtain ⟨hminus, hhex, hnumber⟩ := bodyOf_renders h
  by_cases hfits : readingOf s < 2 ^ 31
  · rw [readingOf_hex hhex] at hfits ⊢
    rw [iff_true_intro hfits, true_and, converted, hexToInt, if_neg hminus,
      hexLoop_hex hhex hfits, Option.map_some, Option.some.injEq]
    by_cases hletter : HasLetter (bodyOf s)
    · have hv : BitVec.ofNat 32 (hexNat (bodyOf s)) = v := by
        rw [hnumber hletter, BitVec.ofNat_toNat, BitVec.setWidth_eq]
      have hne := marker_ne hfits
      rw [hv] at hne
      change BitVec.ofNat 32 (hexFrom 0 (bodyOf s)) = v at hv
      simp only [hletter, or_true, if_true, hv, if_neg hne]
    · simp only [hletter, or_false, Bool.false_eq_true, if_false, if_true]
  · have hnone : hexToInt s = none := by
      have hsome := (hexToInt_isSome_iff s).not.mpr hfits
      exact Option.not_isSome_iff_eq_none.mp hsome
    rw [converted, hnone]
    exact iff_of_false (fun heq => by cases heq) (fun hand => hfits hand.1)

theorem renders_head (h : Renders v s) :
    s ≠ [] ∧ s.head? ≠ some '@' := by
  have hhex : ∀ {t : CStr}, IsHex t → t.head? ≠ some '@' := by
    intro t ht heq
    exact absurd (ht.2 '@' (List.mem_of_mem_head? heq)) (by decide)
  cases h with
  | decimal =>
    rw [intText]
    split
    · exact ⟨List.cons_ne_nil _ _, by simp⟩
    · refine ⟨decimal_ne_nil _, fun heq => ?_⟩
      exact absurd (isDigit_of_mem_decimal (List.mem_of_mem_head? heq)) (by decide)
  | prefixed ht hv => exact ⟨List.cons_ne_nil _ _, by simp⟩
  | plain ht hv hletter => exact ⟨ht.1, hhex ht⟩

/-- When the sum stays in an int, and when version 6 writes the offset that an event renders. -/
theorem timeOffset_right_iff (v : BitVec 32) (s : CStr) :
    ((hexToInt s).isSome ↔ readingOf s < 2 ^ 31) ∧
      (Renders v s → ∀ event : Buf 100, event.text = s ∨ event.text = '@' :: s →
        (getTimeOffset event 6 = some (some (intText v)) ↔
          readingOf s < 2 ^ 31 ∧ (s = intText v ∨ HasLetter (bodyOf s)))) := by
  refine ⟨hexToInt_isSome_iff s, fun h event hevent => ?_⟩
  obtain ⟨hne, hat⟩ := renders_head h
  rw [← converted_iff h]
  have hget : getTimeOffset event 6 = (converted s).map some := by
    rcases hevent with hevent | hevent
    · rw [getTimeOffset, hevent]
      split
      · exact absurd rfl hne
      · exact absurd rfl hat
      · rfl
    · rw [getTimeOffset, hevent]
      rfl
  rw [hget]
  cases converted s with
  | none => simp
  | some t => simp

/-- An hour and its rendering in hexadecimal. -/
theorem timeOffset_hour :
    getTimeOffset (Buf.snprintf "@0xE10".toList) 6 = some (some (intText 3600)) := by
  have hrenders : Renders 3600 "0xE10".toList :=
    .prefixed (t := ['E', '1', '0']) (by decide) (by decide)
  apply ((timeOffset_right_iff 3600 "0xE10".toList).2 hrenders _ (Or.inr (by decide))).mpr
  exact ⟨by decide, Or.inr (by decide)⟩

/-- An offset of -1 is added up past the largest int, and one whose digits hold no letter is
handed on in hexadecimal. -/
theorem timeOffset_wrong :
    (Renders (-1) "ffffffff".toList ∧ hexToInt "ffffffff".toList = none) ∧
      Renders 0x3600 "0x3600".toList ∧
      getTimeOffset (Buf.snprintf "0x3600".toList) 6 ≠ some (some (intText 0x3600)) := by
  refine ⟨⟨.plain (by decide) (by decide) (by decide), by decide⟩,
    .prefixed (t := ['3', '6', '0', '0']) (by decide) (by decide), by decide⟩

end Renderings

end CcspPandM.TimeOffset
