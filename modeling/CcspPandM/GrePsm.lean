import CcspPandM.KeyStore
import CcspPandM.ScanText

/-!
The records of the GRE tunnels in the parameter store, and how they are read. A record is
read into 1024 bytes, and handed on only if the caller's buffer holds what was read.
-/
namespace CcspPandM.GrePsm

open CString KeyStore ScanText

abbrev ULONG := BitVec 32

abbrev Psm := Store CStr CStr

def GrePsmGet (psm : Psm) (param : CStr) : Option CStr :=
  (psm param).map fun val => (Buf.snprintf val : Buf 1024).text

def GrePsmSet (psm : Psm) (param value : CStr) : Psm := set psm param value

def GrePsmGetStr (psm : Psm) (param : CStr) (size : ℕ) : Option CStr :=
  (GrePsmGet psm param).bind fun val => if size ≤ val.length then none else some val

theorem getStr_eq_some_iff (psm : Psm) (param : CStr) (size : ℕ) (t : CStr) :
    GrePsmGetStr psm param size = some t ↔
      ∃ val, psm param = some val ∧ val.take 1023 = t ∧ t.length < size := by
  rw [GrePsmGetStr, GrePsmGet]
  cases psm param with
  | none => simp
  | some val =>
    have hread : (Buf.snprintf val : Buf 1024).text = val.take 1023 := rfl
    rw [Option.map_some, Option.bind_some, hread]
    by_cases hsize : size ≤ (val.take 1023).length
    · rw [if_pos hsize]
      constructor
      · intro h
        cases h
      · rintro ⟨val', h, rfl, hlt⟩
        cases h
        omega
    · rw [if_neg hsize, Option.some.injEq]
      constructor
      · intro h
        exact ⟨val, rfl, h, by rw [← h]; omega⟩
      · rintro ⟨val', h, rfl, -⟩
        cases h
        rfl

theorem getStr_eq_stored_iff {psm : Psm} {param val : CStr} (h : psm param = some val)
    (size : ℕ) :
    GrePsmGetStr psm param size = some val ↔ val.length < size ∧ val.length < 1024 := by
  rw [getStr_eq_some_iff]
  constructor
  · rintro ⟨val', hval, htake, hlt⟩
    rw [h] at hval
    cases hval
    refine ⟨hlt, ?_⟩
    have hlen := congrArg List.length htake
    rw [List.length_take] at hlen
    omega
  · rintro ⟨hsize, hread⟩
    exact ⟨val, h, List.take_of_length_le (by omega), hsize⟩

theorem getStr_short {psm : Psm} {param t : CStr} {size : ℕ} (ht : t.length < 1023) :
    GrePsmGetStr psm param size = some t ↔ psm param = some t ∧ t.length < size := by
  rw [getStr_eq_some_iff]
  constructor
  · rintro ⟨val, hval, htake, hlt⟩
    have hlen := congrArg List.length htake
    rw [List.length_take] at hlen
    rw [List.take_of_length_le (by omega)] at htake
    rw [hval, htake]
    exact ⟨rfl, hlt⟩
  · rintro ⟨hval, hlt⟩
    exact ⟨t, hval, List.take_of_length_le (by omega), hlt⟩

theorem getStr_congr {psm psm' : Psm} {param : CStr} (h : psm' param = psm param) (size : ℕ) :
    GrePsmGetStr psm' param size = GrePsmGetStr psm param size := by
  rw [GrePsmGetStr, GrePsmGetStr, GrePsmGet, GrePsmGet, h]

end CcspPandM.GrePsm
