import CcspPandM.FirstAppearance
import Mathlib.Data.List.Indexes

/-!
Records that are collected into entries by a key. The entry of a record's key is
looked up and updated in place, or made with the next index at the end. The entries
then stand in the order in which their keys first appear, each with the updates of
the records of its key.
-/
namespace CcspPandM.GroupedFold

open FirstAppearance

variable {α β κ : Type*} [DecidableEq κ] (key : α → κ) (keyOf : β → κ) (init : ℕ → κ → β)
  (upd : β → α → β)

def absorb (t : List β) (r : α) : List β :=
  match t.findIdx? (fun h => keyOf h = key r) with
  | some i => t.modify i fun h => upd h r
  | none => t ++ [upd (init t.length (key r)) r]

def collect (rs : List α) : List β := rs.foldl (absorb key keyOf init upd) []

def group (rs : List α) (k : κ) : List α := rs.filter fun r => key r = k

variable {key keyOf init upd}

section absorb

variable {f : ℕ → κ → β} {ks : List κ} {r : α}

theorem findIdx?_mapIdx (hf : ∀ i, ∀ k ∈ ks, keyOf (f i k) = k) :
    (ks.mapIdx f).findIdx? (fun h => keyOf h = key r) = ks.findIdx? (fun k => k = key r) := by
  induction ks generalizing f with
  | nil => rfl
  | cons k ks ih =>
    have hk := hf 0 k List.mem_cons_self
    have hrest := @ih (fun i => f (i + 1)) fun i k' hk' =>
      hf (i + 1) k' (List.mem_cons_of_mem k hk')
    rw [List.mapIdx_cons, List.findIdx?_cons, List.findIdx?_cons, hk, hrest]

theorem modify_mapIdx (hks : ks.Nodup) {k₀ : κ} {i : ℕ} (g : β → β)
    (hi : ks.findIdx? (fun k => k = k₀) = some i) :
    (ks.mapIdx f).modify i g = ks.mapIdx fun j k => if k = k₀ then g (f j k) else f j k := by
  induction ks generalizing f i with
  | nil => cases hi
  | cons k ks ih =>
    rw [List.findIdx?_cons] at hi
    have hnot := (List.nodup_cons.mp hks).1
    rw [List.mapIdx_cons, List.mapIdx_cons]
    by_cases hk : k = k₀
    · subst hk
      rw [if_pos (decide_eq_true rfl), Option.some.injEq] at hi
      subst hi
      rw [List.modify_zero_cons, if_pos rfl]
      congr 1
      apply List.mapIdx_eq_mapIdx_iff.mpr
      intro j hj
      rw [if_neg]
      rintro heq
      exact hnot (heq ▸ List.getElem_mem hj)
    · rw [if_neg (by simpa using hk)] at hi
      obtain ⟨j, hj, rfl⟩ := Option.map_eq_some_iff.mp hi
      rw [List.modify_succ_cons, if_neg hk, ih (List.nodup_cons.mp hks).2 hj]

end absorb

omit [DecidableEq κ] in
theorem keyOf_foldl (hupd : ∀ h r, keyOf (upd h r) = keyOf h) (h : β) (rs : List α) :
    keyOf (rs.foldl upd h) = keyOf h := by
  induction rs generalizing h with
  | nil => rfl
  | cons r rs ih => rw [List.foldl_cons, ih, hupd]

theorem group_concat (rs : List α) (r : α) (k : κ) :
    group key (rs ++ [r]) k = if key r = k then group key rs k ++ [r] else group key rs k := by
  rw [group, List.filter_append]
  split
  · next h => rw [List.filter_cons_of_pos (by simpa using h), List.filter_nil, group]
  · next h =>
    rw [List.filter_cons_of_neg (by simpa using h), List.filter_nil, List.append_nil, group]

theorem collect_eq (hinit : ∀ i r, keyOf (init i (key r)) = key r)
    (hupd : ∀ h r, keyOf (upd h r) = keyOf h) (rs : List α) :
    collect key keyOf init upd rs =
      (firsts id (rs.map key)).mapIdx fun i k => (group key rs k).foldl upd (init i k) := by
  induction rs using List.reverseRecOn with
  | nil => rfl
  | append_singleton rs r ih =>
    have hcollect : collect key keyOf init upd (rs ++ [r]) =
        absorb key keyOf init upd (collect key keyOf init upd rs) r := List.foldl_concat ..
    have hfirsts : firsts id ((rs ++ [r]).map key) =
        addNew id (firsts id (rs.map key)) (key r) := by
      rw [List.map_append, firsts, addAll_append]
      rfl
    have hkeys : ∀ i, ∀ k ∈ firsts id (rs.map key),
        keyOf ((group key rs k).foldl upd (init i k)) = k := by
      intro i k hk
      obtain ⟨r', -, rfl⟩ := List.mem_map.mp (mem_firsts_id.mp hk)
      rw [keyOf_foldl hupd, hinit]
    rw [hcollect, hfirsts, ih, absorb, findIdx?_mapIdx hkeys]
    by_cases hr : key r ∈ firsts id (rs.map key)
    · obtain ⟨i, hi⟩ : ∃ i, (firsts id (rs.map key)).findIdx? (fun k => k = key r) = some i := by
        apply Option.isSome_iff_exists.mp
        rw [List.findIdx?_isSome]
        exact List.any_eq_true.mpr ⟨_, hr, decide_eq_true rfl⟩
      rw [hi, addNew_of_mem (by simpa using hr)]
      dsimp only
      rw [modify_mapIdx (firsts_id_nodup _) _ hi]
      apply List.mapIdx_eq_mapIdx_iff.mpr
      intro j hj
      rw [group_concat]
      by_cases hk : (firsts id (rs.map key))[j] = key r
      · rw [if_pos hk, if_pos hk.symm, List.foldl_append]
        rfl
      · rw [if_neg hk, if_neg (Ne.symm hk)]
    · have hnone : (firsts id (rs.map key)).findIdx? (fun k => k = key r) = none := by
        rw [List.findIdx?_eq_none_iff]
        intro k hk
        apply decide_eq_false
        rintro rfl
        exact hr hk
      have hgroup : group key rs (key r) = [] := by
        apply List.filter_eq_nil_iff.mpr
        intro r' hr' heq
        apply hr
        apply mem_firsts_id.mpr
        rw [← of_decide_eq_true heq]
        exact List.mem_map_of_mem hr'
      rw [hnone, addNew_of_notMem (by simpa using hr), List.mapIdx_concat]
      dsimp only
      rw [List.length_mapIdx, group_concat, if_pos rfl, hgroup]
      congr 1
      apply List.mapIdx_eq_mapIdx_iff.mpr
      intro j hj
      rw [group_concat, if_neg]
      intro heq
      rw [heq] at hr
      exact hr (List.getElem_mem hj)

end CcspPandM.GroupedFold
