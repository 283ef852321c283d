import Mathlib.Logic.Function.Basic
import Mathlib.Data.List.Basic

/-!
Key/value stores and the backup discipline built on them. A request unsets
what it is about to replace, writes fresh records and, when it fails, writes
the saved records back. `restore_eq_iff` says exactly when that returns the
store the request started from.
-/
namespace CcspPandM.KeyStore

variable {κ ν : Type*} [DecidableEq κ]

abbrev Store (κ ν : Type*) := κ → Option ν

def set (s : Store κ ν) (k : κ) (v : ν) : Store κ ν := Function.update s k (some v)

def unset (s : Store κ ν) (k : κ) : Store κ ν := Function.update s k none

def setAll : List (κ × ν) → Store κ ν → Store κ ν
  | [], s => s
  | w :: ws, s => setAll ws (set s w.1 w.2)

def unsetAll : List κ → Store κ ν → Store κ ν
  | [], s => s
  | k :: ks, s => unsetAll ks (unset s k)

def lastValue (k : κ) : List (κ × ν) → Option ν
  | [] => none
  | w :: ws => (lastValue k ws).or (if w.1 = k then some w.2 else none)

def keys (ws : List (κ × ν)) : List κ := ws.map Prod.fst

@[simp] theorem set_self (s : Store κ ν) (k : κ) (v : ν) : set s k v k = some v := by
  simp [set]

theorem set_of_ne (s : Store κ ν) {k a : κ} (v : ν) (h : a ≠ k) : set s k v a = s a := by
  simp [set, h]

@[simp] theorem unset_self (s : Store κ ν) (k : κ) : unset s k k = none := by
  simp [unset]

theorem unset_of_ne (s : Store κ ν) {k a : κ} (h : a ≠ k) : unset s k a = s a := by
  simp [unset, h]

@[simp] theorem setAll_nil (s : Store κ ν) : setAll [] s = s := rfl

@[simp] theorem unsetAll_nil (s : Store κ ν) : unsetAll [] s = s := rfl

theorem setAll_append (ws vs : List (κ × ν)) (s : Store κ ν) :
    setAll (ws ++ vs) s = setAll vs (setAll ws s) := by
  induction ws generalizing s with
  | nil => rfl
  | cons w ws ih => exact ih (set s w.1 w.2)

theorem setAll_apply (ws : List (κ × ν)) (s : Store κ ν) (k : κ) :
    setAll ws s k = (lastValue k ws).or (s k) := by
  induction ws generalizing s with
  | nil => simp [lastValue]
  | cons w ws ih =>
    rw [setAll, ih, lastValue]
    by_cases h : w.1 = k
    · subst h
      cases lastValue w.1 ws <;> simp
    · rw [set_of_ne s w.2 (Ne.symm h)]
      cases lastValue k ws <;> simp [h]

theorem lastValue_eq_none_iff (ws : List (κ × ν)) (k : κ) :
    lastValue k ws = none ↔ k ∉ keys ws := by
  induction ws with
  | nil => simp [lastValue, keys]
  | cons w ws ih =>
    simp only [keys] at ih
    by_cases h : w.1 = k
    · simp [lastValue, keys, h]
    · simp [lastValue, keys, ih, h, Ne.symm h]

theorem mem_of_lastValue {ws : List (κ × ν)} {k : κ} {v : ν}
    (h : lastValue k ws = some v) : (k, v) ∈ ws := by
  induction ws with
  | nil => simp [lastValue] at h
  | cons w ws ih =>
    rw [lastValue] at h
    cases hrest : lastValue k ws with
    | some u =>
      rw [hrest] at h
      have huv : u = v := by simpa using h
      exact List.mem_cons_of_mem w (ih (huv ▸ hrest))
    | none =>
      by_cases hk : w.1 = k
      · have hv : w.2 = v := by simpa [hrest, hk] using h
        exact List.mem_cons.mpr (Or.inl (Prod.ext hk.symm hv.symm))
      · simp [hrest, hk] at h

theorem lastValue_of_mem {ws : List (κ × ν)} {k : κ} {v : ν}
    (hnd : (keys ws).Nodup) (h : (k, v) ∈ ws) : lastValue k ws = some v := by
  induction ws with
  | nil => simp at h
  | cons w ws ih =>
    have hnd' : w.1 ∉ keys ws ∧ (keys ws).Nodup := by
      simpa only [keys, List.map_cons, List.nodup_cons] using hnd
    rcases List.mem_cons.mp h with rfl | h
    · have hnone := (lastValue_eq_none_iff ws k).mpr hnd'.1
      simp [lastValue, hnone]
    · simp [lastValue, ih hnd'.2 h]

theorem setAll_of_notMem {ws : List (κ × ν)} {k : κ} (s : Store κ ν)
    (h : k ∉ keys ws) : setAll ws s k = s k := by
  rw [setAll_apply, (lastValue_eq_none_iff ws k).mpr h, Option.none_or]

theorem unsetAll_apply (ks : List κ) (s : Store κ ν) (k : κ) :
    unsetAll ks s k = if k ∈ ks then none else s k := by
  induction ks generalizing s with
  | nil => rfl
  | cons a ks ih =>
    rw [unsetAll, ih]
    by_cases hka : k = a
    · subst hka
      simp
    · simp [unset_of_ne s hka, hka]

theorem unsetAll_of_mem {ks : List κ} {k : κ} (s : Store κ ν) (h : k ∈ ks) :
    unsetAll ks s k = none := by
  rw [unsetAll_apply, if_pos h]

theorem unsetAll_of_notMem {ks : List κ} {k : κ} (s : Store κ ν) (h : k ∉ ks) :
    unsetAll ks s k = s k := by
  rw [unsetAll_apply, if_neg h]

/-- When the saved records were current, the extra keys were absent, and the
fresh records change no key outside both. -/
structure Undoable (saved fresh : List (κ × ν)) (extra : List κ) (s : Store κ ν) : Prop where
  absent : ∀ k ∈ extra, s k = none
  current : ∀ k v, k ∉ extra → lastValue k saved = some v → s k = some v
  kept : ∀ k v, k ∉ extra → k ∉ keys saved → lastValue k fresh = some v → s k = some v

theorem restore_clear_eq_iff (saved fresh : List (κ × ν)) (gone extra : List κ)
    (s : Store κ ν) (hgone : ∀ k ∈ gone, k ∈ keys saved) :
    unsetAll extra (setAll saved (setAll fresh (unsetAll gone s))) = s ↔
      Undoable saved fresh extra s := by
  have hkept : ∀ k, k ∉ extra →
      unsetAll extra (setAll saved (setAll fresh (unsetAll gone s))) k =
        ((lastValue k saved).or (lastValue k fresh)).or (s k) := by
    intro k hk
    rw [unsetAll_of_notMem _ hk, setAll_apply, setAll_apply]
    cases hv : lastValue k saved with
    | some v => simp
    | none =>
      have hks : k ∉ gone := fun hg =>
        (lastValue_eq_none_iff saved k).mp hv (hgone k hg)
      rw [unsetAll_of_notMem s hks]
      simp
  constructor
  · intro h
    refine ⟨fun k hk => ?_, fun k v hk hv => ?_, fun k v hk hks hv => ?_⟩
    · rw [← h, unsetAll_of_mem _ hk]
    · rw [← h, hkept k hk, hv]
      rfl
    · rw [← h, hkept k hk, (lastValue_eq_none_iff saved k).mpr hks, hv]
      rfl
  · rintro ⟨hextra, hsaved, hfresh⟩
    funext k
    by_cases hk : k ∈ extra
    · rw [unsetAll_of_mem _ hk, hextra k hk]
    · rw [hkept k hk]
      cases hv : lastValue k saved with
      | some v => exact (hsaved k v hk hv).symm
      | none =>
        have hks := (lastValue_eq_none_iff saved k).mp hv
        cases hf : lastValue k fresh with
        | some v => exact (hfresh k v hk hks hf).symm
        | none => rfl

theorem restore_eq_iff (saved fresh : List (κ × ν)) (gone : List κ) (s : Store κ ν)
    (hgone : ∀ k ∈ gone, k ∈ keys saved) :
    setAll saved (setAll fresh (unsetAll gone s)) = s ↔
      (∀ k v, lastValue k saved = some v → s k = some v) ∧
      (∀ k v, k ∉ keys saved → lastValue k fresh = some v → s k = some v) := by
  have h := restore_clear_eq_iff saved fresh gone [] s hgone
  rw [unsetAll_nil] at h
  rw [h]
  constructor
  · rintro ⟨-, hsaved, hfresh⟩
    exact ⟨fun k v => hsaved k v List.not_mem_nil, fun k v => hfresh k v List.not_mem_nil⟩
  · rintro ⟨hsaved, hfresh⟩
    exact ⟨fun k hk => absurd hk List.not_mem_nil, fun k v _ => hsaved k v,
      fun k v _ => hfresh k v⟩

theorem undoable_of_forall {saved fresh : List (κ × ν)} {extra : List κ} {s : Store κ ν}
    (habsent : ∀ k ∈ extra, s k = none) (hsaved : ∀ p ∈ saved, s p.1 = some p.2)
    (hfresh : ∀ p ∈ fresh, p.1 ∈ extra ∨ p.1 ∈ keys saved ∨ s p.1 = some p.2) :
    Undoable saved fresh extra s := by
  refine ⟨habsent, fun k v _ hv => hsaved _ (mem_of_lastValue hv), fun k v hk hks hv => ?_⟩
  rcases hfresh _ (mem_of_lastValue hv) with hmem | hmem | hvalue
  · exact absurd hmem hk
  · exact absurd hmem hks
  · exact hvalue

end CcspPandM.KeyStore
