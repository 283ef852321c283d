import CcspPandM.KeyStore
import Mathlib.Tactic.Common

/-!
A key/value store behind calls that can fail. Every call counts, and an
arbitrary function of the call number says which calls fail; a failed call
leaves the store as it is. A loop of calls that stops at its first failure has
the effect of a prefix of its list, `leading` many.
-/
namespace CcspPandM.FaultyStore

open KeyStore

variable {κ ν : Type*} [DecidableEq κ]

structure Device (κ ν : Type*) where
  db : Store κ ν
  calls : ℕ

abbrev Faults := ℕ → Bool

def noFaults : Faults := fun _ => false

/-- How many of `len` calls from number `start` on succeed before one fails. -/
def leading (faults : Faults) : ℕ → ℕ → ℕ
  | _, 0 => 0
  | start, len + 1 => if faults start then 0 else leading faults (start + 1) len + 1

def setCall (faults : Faults) (k : κ) (v : ν) (s : Device κ ν) : Bool × Device κ ν :=
  if faults s.calls then (false, ⟨s.db, s.calls + 1⟩) else (true, ⟨set s.db k v, s.calls + 1⟩)

def unsetCall (faults : Faults) (k : κ) (s : Device κ ν) : Bool × Device κ ν :=
  if faults s.calls then (false, ⟨s.db, s.calls + 1⟩) else (true, ⟨unset s.db k, s.calls + 1⟩)

def commitCall (faults : Faults) (s : Device κ ν) : Bool × Device κ ν :=
  (!faults s.calls, ⟨s.db, s.calls + 1⟩)

/-- Writes records until a call fails. -/
def setLoop (faults : Faults) : List (κ × ν) → Device κ ν → Bool × Device κ ν
  | [], s => (true, s)
  | w :: ws, s =>
    if (setCall faults w.1 w.2 s).1 then setLoop faults ws (setCall faults w.1 w.2 s).2
    else setCall faults w.1 w.2 s

/-- Clears keys until a call fails. -/
def unsetLoop (faults : Faults) : List κ → Device κ ν → Bool × Device κ ν
  | [], s => (true, s)
  | k :: ks, s =>
    if (unsetCall faults k s).1 then unsetLoop faults ks (unsetCall faults k s).2
    else unsetCall faults k s

variable (faults : Faults)

theorem leading_le (start len : ℕ) : leading faults start len ≤ len := by
  induction len generalizing start with
  | zero => exact Nat.le_refl 0
  | succ len ih =>
    rw [leading]
    split
    · omega
    · have h := ih (start + 1)
      omega

theorem leading_eq_iff (start len : ℕ) :
    leading faults start len = len ↔ ∀ i < len, faults (start + i) = false := by
  induction len generalizing start with
  | zero => simp [leading]
  | succ len ih =>
    rw [leading]
    cases h : faults start with
    | true =>
      refine iff_of_false (by simp) (fun hall => ?_)
      have h0 := hall 0 (by omega)
      rw [Nat.add_zero, h] at h0
      cases h0
    | false =>
      rw [if_neg Bool.false_ne_true, Nat.add_right_cancel_iff, ih]
      constructor
      · intro hall i hi
        cases i with
        | zero => exact h
        | succ i =>
          rw [Nat.add_comm i 1, ← Nat.add_assoc]
          exact hall i (by omega)
      · intro hall i hi
        rw [Nat.add_assoc, Nat.add_comm 1 i]
        exact hall (i + 1) (by omega)

@[simp] theorem leading_noFaults (start len : ℕ) : leading noFaults start len = len :=
  (leading_eq_iff noFaults start len).mpr (fun _ _ => rfl)

theorem setLoop_eq (ws : List (κ × ν)) (s : Device κ ν) :
    setLoop faults ws s = (decide (leading faults s.calls ws.length = ws.length),
      ⟨setAll (ws.take (leading faults s.calls ws.length)) s.db,
        s.calls + min (leading faults s.calls ws.length + 1) ws.length⟩) := by
  induction ws generalizing s with
  | nil => rfl
  | cons w ws ih =>
    rw [setLoop, setCall, List.length_cons, leading]
    cases h : faults s.calls with
    | true => simp
    | false =>
      simp only [Bool.false_eq_true, if_false, if_true, ih, List.take_succ_cons, setAll,
        Nat.add_right_cancel_iff]
      congr 2
      omega

theorem unsetLoop_eq (ks : List κ) (s : Device κ ν) :
    unsetLoop faults ks s = (decide (leading faults s.calls ks.length = ks.length),
      ⟨unsetAll (ks.take (leading faults s.calls ks.length)) s.db,
        s.calls + min (leading faults s.calls ks.length + 1) ks.length⟩) := by
  induction ks generalizing s with
  | nil => rfl
  | cons k ks ih =>
    rw [unsetLoop, unsetCall, List.length_cons, leading]
    cases h : faults s.calls with
    | true => simp
    | false =>
      simp only [Bool.false_eq_true, if_false, if_true, ih, List.take_succ_cons, unsetAll,
        Nat.add_right_cancel_iff]
      congr 2
      omega

theorem setLoop_noFaults_db (ws : List (κ × ν)) (s : Device κ ν) :
    (setLoop noFaults ws s).1 = true ∧ (setLoop noFaults ws s).2.db = setAll ws s.db := by
  rw [setLoop_eq, leading_noFaults, List.take_length]
  exact ⟨decide_eq_true rfl, rfl⟩

theorem unsetLoop_noFaults_db (ks : List κ) (s : Device κ ν) :
    (unsetLoop noFaults ks s).1 = true ∧ (unsetLoop noFaults ks s).2.db = unsetAll ks s.db := by
  rw [unsetLoop_eq, leading_noFaults, List.take_length]
  exact ⟨decide_eq_true rfl, rfl⟩

end CcspPandM.FaultyStore
