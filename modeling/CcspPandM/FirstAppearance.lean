import Mathlib.Data.List.Infix
import Mathlib.Data.List.Nodup

/-!
Items that are told apart by a key and collected in the order in which they first
appear, into a list that may already hold some, without a bound and with one. A
bounded collection keeps what comes first.
-/
namespace CcspPandM.FirstAppearance

variable {α κ : Type*} [DecidableEq κ] (key : α → κ)

def addNew (es : List α) (r : α) : List α :=
  if key r ∈ es.map key then es else es ++ [r]

def addAll (es rs : List α) : List α := rs.foldl (addNew key) es

def firsts (rs : List α) : List α := addAll key [] rs

def addUpTo (limit : ℕ) : List α → List α → List α
  | es, [] => es
  | es, r :: rs => if limit ≤ es.length then es else addUpTo limit (addNew key es r) rs

variable {key} {es rs : List α} {r : α}

theorem addNew_of_mem (h : key r ∈ es.map key) : addNew key es r = es := if_pos h

theorem addNew_of_notMem (h : key r ∉ es.map key) : addNew key es r = es ++ [r] := if_neg h

theorem prefix_addNew (es : List α) (r : α) : es <+: addNew key es r := by
  unfold addNew
  split
  · exact List.prefix_rfl
  · exact List.prefix_append es [r]

theorem addAll_cons (es rs : List α) (r : α) :
    addAll key es (r :: rs) = addAll key (addNew key es r) rs := rfl

theorem addAll_append (es rs rs' : List α) :
    addAll key es (rs ++ rs') = addAll key (addAll key es rs) rs' := List.foldl_append

theorem prefix_addAll (es rs : List α) : es <+: addAll key es rs := by
  induction rs generalizing es with
  | nil => exact List.prefix_rfl
  | cons r rs ih => exact (prefix_addNew es r).trans (ih (addNew key es r))

theorem addNew_nodup (h : (es.map key).Nodup) (r : α) : ((addNew key es r).map key).Nodup := by
  by_cases hr : key r ∈ es.map key
  · rwa [addNew_of_mem hr]
  · rw [addNew_of_notMem hr, List.map_append, List.map_singleton]
    apply List.Nodup.append h (List.nodup_singleton _)
    intro k hk hk'
    rw [List.mem_singleton.mp hk'] at hk
    exact hr hk

theorem addAll_nodup (h : (es.map key).Nodup) (rs : List α) :
    ((addAll key es rs).map key).Nodup := by
  induction rs generalizing es with
  | nil => exact h
  | cons r rs ih => exact ih (addNew_nodup h r)

theorem mem_addAll_id {es rs : List κ} {k : κ} : k ∈ addAll id es rs ↔ k ∈ es ∨ k ∈ rs := by
  induction rs generalizing es with
  | nil => simp [addAll]
  | cons r rs ih =>
    have hnew : k ∈ addNew id es r ↔ k ∈ es ∨ k = r := by
      by_cases hr : r ∈ es
      · rw [addNew_of_mem (by simpa using hr)]
        constructor
        · exact Or.inl
        · rintro (hk | rfl)
          · exact hk
          · exact hr
      · rw [addNew_of_notMem (by simpa using hr), List.mem_append, List.mem_singleton]
    rw [addAll_cons, ih, hnew, List.mem_cons, or_assoc]

theorem mem_firsts_id {rs : List κ} {k : κ} : k ∈ firsts id rs ↔ k ∈ rs := by
  rw [firsts, mem_addAll_id]
  simp

theorem firsts_id_nodup (rs : List κ) : (firsts id rs).Nodup := by
  have h := @addAll_nodup κ κ _ id [] List.nodup_nil rs
  rwa [List.map_id] at h

theorem addAll_map {κ' : Type*} [DecidableEq κ'] {f : κ → κ'} {es rs : List κ}
    (hf : ∀ x ∈ es ++ rs, ∀ y ∈ es ++ rs, f x = f y → x = y) :
    addAll id (es.map f) (rs.map f) = (addAll id es rs).map f := by
  induction rs generalizing es with
  | nil => rfl
  | cons r rs ih =>
    have hr : r ∈ es ++ r :: rs := List.mem_append_right es List.mem_cons_self
    have hmem : f r ∈ es.map f ↔ r ∈ es := by
      constructor
      · intro h
        obtain ⟨x, hx, heq⟩ := List.mem_map.mp h
        rw [← hf x (List.mem_append_left _ hx) r hr heq]
        exact hx
      · exact List.mem_map_of_mem
    have hnew : addNew id (es.map f) (f r) = (addNew id es r).map f := by
      by_cases h : r ∈ es
      · rw [addNew_of_mem (by simpa using hmem.mpr h), addNew_of_mem (by simpa using h)]
      · rw [addNew_of_notMem (by simpa using fun h' => h (hmem.mp (List.mem_map.mpr h'))),
          addNew_of_notMem (by simpa using h), List.map_append, List.map_singleton]
    have hsub : ∀ x ∈ addNew id es r ++ rs, x ∈ es ++ r :: rs := by
      intro x hx
      rcases List.mem_append.mp hx with hx | hx
      · rcases (@mem_addAll_id κ _ es [r] x).mp hx with hx | hx
        · exact List.mem_append_left _ hx
        · rw [List.mem_singleton.mp hx]
          exact hr
      · exact List.mem_append_right _ (List.mem_cons_of_mem _ hx)
    rw [List.map_cons, addAll_cons, addAll_cons, hnew]
    exact ih fun x hx y hy => hf x (hsub x hx) y (hsub y hy)

theorem firsts_map {κ' : Type*} [DecidableEq κ'] {f : κ → κ'} {rs : List κ}
    (hf : ∀ x ∈ rs, ∀ y ∈ rs, f x = f y → x = y) :
    firsts id (rs.map f) = (firsts id rs).map f := @addAll_map κ _ κ' _ f [] rs hf

theorem firsts_nodup (rs : List α) : ((firsts key rs).map key).Nodup :=
  @addAll_nodup _ _ _ key [] List.nodup_nil rs

theorem addUpTo_of_le {limit : ℕ} (h : limit ≤ es.length) (rs : List α) :
    addUpTo key limit es rs = es := by
  cases rs with
  | nil => rfl
  | cons r rs => exact if_pos h

theorem addUpTo_append (limit : ℕ) (es rs rs' : List α) :
    addUpTo key limit es (rs ++ rs') = addUpTo key limit (addUpTo key limit es rs) rs' := by
  induction rs generalizing es with
  | nil => rfl
  | cons r rs ih =>
    by_cases hfull : limit ≤ es.length
    · rw [addUpTo_of_le hfull, addUpTo_of_le hfull, addUpTo_of_le hfull]
    · rw [List.cons_append, addUpTo, addUpTo, if_neg hfull, if_neg hfull, ih]

theorem addUpTo_eq_take (limit : ℕ) (es rs : List α) :
    addUpTo key limit es rs = (addAll key es rs).take (max es.length limit) := by
  induction rs generalizing es with
  | nil => exact (List.take_of_length_le (le_max_left _ _)).symm
  | cons r rs ih =>
    by_cases hfull : limit ≤ es.length
    · obtain ⟨more, hmore⟩ := @prefix_addAll _ _ _ key es (r :: rs)
      rw [addUpTo_of_le hfull, ← hmore, Nat.max_eq_left hfull, List.take_left]
    · have hlen : (addNew key es r).length ≤ es.length + 1 := by
        unfold addNew
        split
        · omega
        · rw [List.length_append, List.length_singleton]
      rw [addUpTo, if_neg hfull, ih, addAll_cons, Nat.max_eq_right (by omega),
        Nat.max_eq_right (by omega)]

end CcspPandM.FirstAppearance
