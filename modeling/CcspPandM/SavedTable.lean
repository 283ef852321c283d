import CcspPandM.KeyedList
import Mathlib.Logic.Function.Basic

/-!
A table of entries in memory and the numbered records that it is saved under. The store
lists the numbers in use in an order of its own. Reading a number back gives what is kept
of an entry; the table is in step with the store when every entry is read back.
-/
namespace CcspPandM.SavedTable

open KeyedList

variable {ι α β ρ : Type*} [DecidableEq ι] [Inhabited ρ]

/-- A number that is not listed has no content. -/
structure Store (ι ρ : Type*) [Inhabited ρ] where
  instances : List ι
  nodup : instances.Nodup
  content : ι → ρ
  unlisted : ∀ i, i ∉ instances → content i = default

/-- The order in which a store lists its numbers. -/
structure Listing (ι : Type*) where
  order : List ι → List ι
  perm : ∀ is, (order is).Perm is

namespace Store

def save (s : Store ι ρ) (i : ι) (change : ρ → ρ) : Store ι ρ where
  instances := s.instances.insert i
  nodup := s.nodup.insert
  content := Function.update s.content i (change (s.content i))
  unlisted := by
    intro j hj
    rw [List.mem_insert_iff, not_or] at hj
    rw [Function.update_of_ne hj.1]
    exact s.unlisted j hj.2

def delete (s : Store ι ρ) (i : ι) : Store ι ρ where
  instances := s.instances.erase i
  nodup := s.nodup.erase i
  content := Function.update s.content i default
  unlisted := by
    intro j hj
    by_cases hji : j = i
    · rw [hji, Function.update_self]
    · rw [Function.update_of_ne hji]
      exact s.unlisted j fun hmem => hj ((List.mem_erase_of_ne hji).mpr hmem)

theorem save_save (s : Store ι ρ) (i : ι) (change change' : ρ → ρ) :
    (s.save i change).save i change' = s.save i (change' ∘ change) := by
  have hlist : (s.instances.insert i).insert i = s.instances.insert i :=
    List.insert_of_mem List.mem_insert_self
  simp only [save, hlist, Function.update_self, Function.update_idem, Function.comp_apply]

theorem save_id (s : Store ι ρ) {i : ι} (h : i ∈ s.instances) : s.save i id = s := by
  obtain ⟨instances, nodup, content, unlisted⟩ := s
  have hlist : instances.insert i = instances := List.insert_of_mem h
  simp only [save, hlist, id_eq, Function.update_eq_self]

end Store

/-- What is read of a number, what is kept of an entry, and the number in both. -/
structure Scheme (ι α β ρ : Type*) where
  key : α → ι
  read : ι → ρ → β
  kept : α → β
  keyOf : β → ι
  keyOf_read : ∀ i c, keyOf (read i c) = i
  keyOf_kept : ∀ a, keyOf (kept a) = key a

def load (scheme : Scheme ι α β ρ) (listing : Listing ι) (s : Store ι ρ) : List β :=
  (listing.order s.instances).map fun i => scheme.read i (s.content i)

structure Keyed (scheme : Scheme ι α β ρ) (l : List α) (s : Store ι ρ) : Prop where
  nodup : (l.map scheme.key).Nodup
  same : ∀ i, i ∈ s.instances ↔ i ∈ l.map scheme.key

structure Synced (scheme : Scheme ι α β ρ) (l : List α) (s : Store ι ρ) : Prop
    extends Keyed scheme l s where
  reads : ∀ a ∈ l, scheme.read (scheme.key a) (s.content (scheme.key a)) = scheme.kept a

variable {scheme : Scheme ι α β ρ} {listing : Listing ι} {l : List α} {s : Store ι ρ}

omit [DecidableEq ι] in
theorem load_perm_iff (h : Keyed scheme l s) :
    (load scheme listing s).Perm (l.map scheme.kept) ↔
      ∀ a ∈ l, scheme.read (scheme.key a) (s.content (scheme.key a)) = scheme.kept a := by
  have hlisted := (listing.perm s.instances).nodup_iff.mpr s.nodup
  have hsame : ∀ i, i ∈ listing.order s.instances ↔ i ∈ l.map scheme.key := by
    intro i
    rw [(listing.perm s.instances).mem_iff, h.same]
  exact listing_perm_iff hlisted h.nodup hsame
    (fun i => scheme.keyOf_read i (s.content i)) scheme.keyOf_kept

omit [DecidableEq ι] in
theorem nodup_of_load_perm (h : (load scheme listing s).Perm (l.map scheme.kept)) :
    (l.map scheme.key).Nodup := by
  have hkeys := h.map scheme.keyOf
  have hread : (load scheme listing s).map scheme.keyOf = listing.order s.instances := by
    rw [load, List.map_map]
    conv_rhs => rw [← List.map_id (listing.order s.instances)]
    exact List.map_congr_left fun i _ => scheme.keyOf_read i _
  have hkept : (l.map scheme.kept).map scheme.keyOf = l.map scheme.key := by
    rw [List.map_map]
    exact List.map_congr_left fun a _ => scheme.keyOf_kept a
  rw [hread, hkept] at hkeys
  exact hkeys.nodup_iff.mp ((listing.perm s.instances).nodup_iff.mpr s.nodup)

omit [DecidableEq ι] in
theorem Synced.load_perm (h : Synced scheme l s) :
    (load scheme listing s).Perm (l.map scheme.kept) := (load_perm_iff h.toKeyed).mpr h.reads

omit [DecidableEq ι] in
theorem synced_of_load {f : ι → α} (hkey : ∀ i, scheme.key (f i) = i)
    (hkept : ∀ i, scheme.kept (f i) = scheme.read i (s.content i)) :
    Synced scheme ((listing.order s.instances).map f) s := by
  have hkeys : ((listing.order s.instances).map f).map scheme.key = listing.order s.instances := by
    rw [List.map_map]
    conv_rhs => rw [← List.map_id (listing.order s.instances)]
    exact List.map_congr_left fun i _ => hkey i
  refine ⟨⟨?_, ?_⟩, ?_⟩
  · rw [hkeys]
    exact (listing.perm s.instances).nodup_iff.mpr s.nodup
  · intro i
    rw [hkeys, (listing.perm s.instances).mem_iff]
  · intro a ha
    obtain ⟨i, -, rfl⟩ := List.mem_map.mp ha
    rw [hkey, hkept]

section Saving

variable {a : α} {change : ρ → ρ}

theorem keyed_save (h : Keyed scheme l s) (a : α) (change : ρ → ρ) :
    Keyed scheme (put scheme.key l a) (s.save (scheme.key a) change) := by
  refine ⟨nodup_put h.nodup a, ?_⟩
  intro i
  exact mem_insert_iff_put h.same a i

theorem save_perm_iff (h : Synced scheme l s) :
    (load scheme listing (s.save (scheme.key a) change)).Perm
        ((put scheme.key l a).map scheme.kept) ↔
      scheme.read (scheme.key a) (change (s.content (scheme.key a))) = scheme.kept a := by
  have hself : (s.save (scheme.key a) change).content (scheme.key a) =
      change (s.content (scheme.key a)) := Function.update_self ..
  rw [load_perm_iff (keyed_save h.toKeyed a change)]
  constructor
  · intro hreads
    rw [← hself]
    exact hreads a ((mem_put_iff a a).mpr (Or.inl rfl))
  · intro hread b hb
    rcases (mem_put_iff a b).mp hb with rfl | ⟨hold, hne⟩
    · rw [hself, hread]
    · have hkept : (s.save (scheme.key a) change).content (scheme.key b) =
          s.content (scheme.key b) := Function.update_of_ne hne ..
      rw [hkept]
      exact h.reads b hold

theorem synced_save (h : Synced scheme l s)
    (hread : scheme.read (scheme.key a) (change (s.content (scheme.key a))) = scheme.kept a) :
    Synced scheme (put scheme.key l a) (s.save (scheme.key a) change) := by
  have hkeyed := keyed_save h.toKeyed a change
  have hperm : (load scheme ⟨id, List.Perm.refl⟩ (s.save (scheme.key a) change)).Perm
      ((put scheme.key l a).map scheme.kept) := (save_perm_iff h).mpr hread
  exact ⟨hkeyed, (load_perm_iff hkeyed).mp hperm⟩

theorem synced_delete (h : Synced scheme l s) (i : ι) :
    Synced scheme (drop scheme.key l i) (s.delete i) := by
  refine ⟨⟨nodup_drop h.nodup i, ?_⟩, ?_⟩
  · intro j
    change j ∈ s.instances.erase i ↔ _
    rw [s.nodup.mem_erase_iff, h.same j, List.mem_map, List.mem_map]
    constructor
    · rintro ⟨hji, a, ha, rfl⟩
      exact ⟨a, (mem_drop_iff _ _).mpr ⟨ha, hji⟩, rfl⟩
    · rintro ⟨a, ha, rfl⟩
      obtain ⟨hmem, hne⟩ := (mem_drop_iff _ _).mp ha
      exact ⟨hne, a, hmem, rfl⟩
  · intro a ha
    obtain ⟨hmem, hne⟩ := (mem_drop_iff _ _).mp ha
    have hkept : (s.delete i).content (scheme.key a) = s.content (scheme.key a) :=
      Function.update_of_ne hne ..
    rw [hkept]
    exact h.reads a hmem

end Saving

end CcspPandM.SavedTable
