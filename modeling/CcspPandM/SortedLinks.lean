import CcspPandM.IpRegistry

/-!
The lists of the middle layer, in which every table keeps its entries. An entry is inserted
before the first one with a larger instance number: a link and an index go through the list
together, and the index tells where to insert. Entries of equal number stay in the order in
which they came.
-/
namespace CcspPandM.SortedLinks

open IpRegistry (ULONG pushEntryByInsNum pushEntry_perm)

variable {α : Type} (number : α → ULONG)

section Code

structure SLIST_HEADER (α : Type) where
  links : List α
  Depth : ℕ
  depth_eq : Depth = links.length

def AnscSListInitializeHeader : SLIST_HEADER α := ⟨[], 0, rfl⟩

def AnscSListPushEntryAtBack (pListHead : SLIST_HEADER α) (a : α) : SLIST_HEADER α where
  links := pListHead.links ++ [a]
  Depth := pListHead.Depth + 1
  depth_eq := by rw [List.length_append, List.length_singleton, pListHead.depth_eq]

/-- An index past the end leaves the list alone; the loop never has one. -/
def AnscSListPushEntryByIndex (pListHead : SLIST_HEADER α) (a : α) (ulIndex : ℕ) :
    SLIST_HEADER α where
  links := pListHead.links.insertIdx ulIndex a
  Depth := if ulIndex ≤ pListHead.Depth then pListHead.Depth + 1 else pListHead.Depth
  depth_eq := by rw [List.length_insertIdx, pListHead.depth_eq]

/-- The loop, with the number of turns left, the link that comes next and the index; `none` is
a read through a link that is NULL. -/
def pushLoop (pListHead : SLIST_HEADER α) (pCosaContext : α) :
    ℕ → List α → ℕ → Option (SLIST_HEADER α)
  | 0, _, _ => some (AnscSListPushEntryAtBack pListHead pCosaContext)
  | _ + 1, [], _ => none
  | turns + 1, pCosaContextEntry :: pSLinkEntry, ulIndex =>
    if (number pCosaContext).toNat < (number pCosaContextEntry).toNat then
      some (AnscSListPushEntryByIndex pListHead pCosaContext ulIndex)
    else pushLoop pListHead pCosaContext turns pSLinkEntry (ulIndex + 1)

def CosaSListPushEntryByInsNum (pListHead : SLIST_HEADER α) (pCosaContext : α) :
    Option (SLIST_HEADER α) :=
  if pListHead.Depth = 0 then some (AnscSListPushEntryAtBack pListHead pCosaContext)
  else pushLoop number pListHead pCosaContext pListHead.Depth pListHead.links 0

def getLoop (InstanceNumber : ULONG) : ℕ → List α → Option (Option α)
  | 0, _ => some none
  | _ + 1, [] => none
  | turns + 1, pCosaContextEntry :: pSLinkEntry =>
    if number pCosaContextEntry = InstanceNumber then some (some pCosaContextEntry)
    else getLoop InstanceNumber turns pSLinkEntry

/-- `some none` is the answer NULL. -/
def CosaSListGetEntryByInsNum (pListHead : SLIST_HEADER α) (InstanceNumber : ULONG) :
    Option (Option α) :=
  if pListHead.Depth = 0 then some none
  else getLoop number InstanceNumber pListHead.Depth pListHead.links

def pushAll (entries : List α) : Option (SLIST_HEADER α) :=
  entries.foldlM (CosaSListPushEntryByInsNum number) AnscSListInitializeHeader

end Code

section Loops

variable {number}

theorem insertIdx_front (front behind : List α) (a : α) :
    (front ++ behind).insertIdx front.length a = front ++ a :: behind := by
  induction front with
  | nil => rfl
  | cons b front ih =>
    rw [List.cons_append, List.length_cons, List.insertIdx_succ_cons, ih, List.cons_append]

variable (pListHead : SLIST_HEADER α)

theorem pushLoop_eq (a : α) (behind : List α) :
    ∀ front, pListHead.links = front ++ behind →
      ∃ h, pushLoop number pListHead a behind.length behind front.length = some h ∧
        h.links = front ++ pushEntryByInsNum number behind a := by
  induction behind with
  | nil =>
    intro front hlinks
    refine ⟨_, rfl, ?_⟩
    change pListHead.links ++ [a] = _
    rw [hlinks, List.append_nil]
    rfl
  | cons b behind ih =>
    intro front hlinks
    rw [List.length_cons, pushLoop, pushEntryByInsNum, List.orderedInsert_cons]
    split
    · refine ⟨_, rfl, ?_⟩
      change pListHead.links.insertIdx front.length a = _
      rw [hlinks, insertIdx_front]
    · obtain ⟨h, hloop, hh⟩ := ih (front ++ [b]) (by rw [hlinks, List.append_assoc]; rfl)
      rw [List.length_append, List.length_singleton] at hloop
      refine ⟨h, hloop, ?_⟩
      rw [hh, List.append_assoc]
      rfl

theorem push_eq (a : α) :
    ∃ h, CosaSListPushEntryByInsNum number pListHead a = some h ∧
      h.links = pushEntryByInsNum number pListHead.links a := by
  rw [CosaSListPushEntryByInsNum]
  split
  · rename_i hempty
    have hnil : pListHead.links = [] := by
      apply List.length_eq_zero_iff.mp
      rw [← pListHead.depth_eq, hempty]
    refine ⟨_, rfl, ?_⟩
    change pListHead.links ++ [a] = _
    rw [hnil]
    rfl
  · obtain ⟨h, hloop, hh⟩ := @pushLoop_eq _ number pListHead a pListHead.links [] rfl
    rw [← pListHead.depth_eq] at hloop
    exact ⟨h, hloop, hh⟩

theorem getLoop_eq (n : ULONG) (links : List α) :
    getLoop number n links.length links = some (links.find? fun a => number a = n) := by
  induction links with
  | nil => rfl
  | cons b links ih =>
    rw [List.length_cons, getLoop]
    split
    · rename_i hb
      rw [List.find?_cons_of_pos (by simpa using hb)]
    · rename_i hb
      rw [ih, List.find?_cons_of_neg (by simpa using hb)]

theorem get_eq (n : ULONG) :
    CosaSListGetEntryByInsNum number pListHead n =
      some (pListHead.links.find? fun a => number a = n) := by
  rw [CosaSListGetEntryByInsNum]
  split
  · rename_i hempty
    have hnil : pListHead.links = [] := by
      apply List.length_eq_zero_iff.mp
      rw [← pListHead.depth_eq, hempty]
    rw [hnil]
    rfl
  · rw [pListHead.depth_eq]
    exact getLoop_eq n pListHead.links

end Loops

section Order

def Sorted (l : List α) : Prop := l.Pairwise fun a b => (number a).toNat ≤ (number b).toNat

variable {number}

theorem sorted_push {l : List α} (h : Sorted number l) (a : α) :
    Sorted number (pushEntryByInsNum number l a) := by
  induction l with
  | nil => exact List.pairwise_singleton _ _
  | cons b l ih =>
    obtain ⟨hb, hl⟩ := List.pairwise_cons.mp h
    rw [pushEntryByInsNum, List.orderedInsert_cons]
    split
    · rename_i hlt
      refine List.pairwise_cons.mpr ⟨fun c hc => ?_, h⟩
      rcases List.mem_cons.mp hc with rfl | hc
      · exact Nat.le_of_lt hlt
      · exact Nat.le_trans (Nat.le_of_lt hlt) (hb c hc)
    · rename_i hge
      refine List.pairwise_cons.mpr ⟨fun c hc => ?_, ih hl⟩
      rcases List.mem_cons.mp ((pushEntry_perm number l a).mem_iff.mp hc) with rfl | hc
      · exact Nat.le_of_not_lt hge
      · exact hb c hc

theorem filter_push {l : List α} (h : Sorted number l) (a : α) (n : ULONG) :
    (pushEntryByInsNum number l a).filter (fun b => number b = n) =
      (l ++ [a]).filter fun b => number b = n := by
  induction l with
  | nil => rfl
  | cons b l ih =>
    obtain ⟨hb, hl⟩ := List.pairwise_cons.mp h
    rw [pushEntryByInsNum, List.orderedInsert_cons]
    split
    · rename_i hlt
      by_cases hn : number a = n
      · -- All that stands behind has a larger number.
        have hnone : ∀ c ∈ b :: l, number c ≠ n := by
          intro c hc heq
          have hle : (number b).toNat ≤ (number c).toNat := by
            rcases List.mem_cons.mp hc with rfl | hc
            · exact Nat.le_refl _
            · exact hb c hc
          rw [heq, ← hn] at hle
          omega
        have hfilter : (b :: l).filter (fun c => number c = n) = [] :=
          List.filter_eq_nil_iff.mpr fun c hc => by simpa using hnone c hc
        rw [List.filter_append, hfilter, List.nil_append, List.filter_cons, hfilter]
        simp [hn]
      · have hnone : [a].filter (fun b => number b = n) = [] :=
          List.filter_cons_of_neg (by simpa using hn)
        rw [List.filter_cons_of_neg (by simpa using hn), List.filter_append, hnone,
          List.append_nil]
    · change (b :: pushEntryByInsNum number l a).filter _ = _
      rw [List.cons_append, List.filter_cons, List.filter_cons, ih hl]

structure Holds (number : α → ULONG) (h : SLIST_HEADER α) (entries : List α) : Prop where
  sorted : Sorted number h.links
  perm : h.links.Perm entries
  order : ∀ n, h.links.filter (fun a => number a = n) = entries.filter fun a => number a = n

theorem holds_empty : Holds number AnscSListInitializeHeader ([] : List α) :=
  ⟨List.Pairwise.nil, List.Perm.refl _, fun _ => rfl⟩

theorem holds_push {h : SLIST_HEADER α} {entries : List α} (hh : Holds number h entries) (a : α) :
    ∃ h', CosaSListPushEntryByInsNum number h a = some h' ∧ Holds number h' (entries ++ [a]) := by
  obtain ⟨h', hpush, hlinks⟩ := @push_eq _ number h a
  refine ⟨h', hpush, ?_, ?_, fun n => ?_⟩
  · rw [hlinks]
    exact sorted_push hh.sorted a
  · rw [hlinks]
    exact (pushEntry_perm number h.links a).trans
      ((hh.perm.cons a).trans (List.perm_append_singleton a entries).symm)
  · rw [hlinks, filter_push hh.sorted, List.filter_append, List.filter_append, hh.order n]

theorem holds_pushAll (entries : List α) :
    ∃ h, pushAll number entries = some h ∧ Holds number h entries := by
  induction entries using List.reverseRecOn with
  | nil => exact ⟨_, rfl, holds_empty⟩
  | append_singleton entries a ih =>
    obtain ⟨h, hall, hh⟩ := ih
    obtain ⟨h', hpush, hh'⟩ := holds_push hh a
    refine ⟨h', ?_, hh'⟩
    rw [pushAll] at hall ⊢
    rw [List.foldlM_append, hall]
    change (CosaSListPushEntryByInsNum number h a).bind some = some h'
    rw [hpush]
    rfl

theorem find_eq_of_filter {l entries : List α} {n : ULONG}
    (h : l.filter (fun a => number a = n) = entries.filter fun a => number a = n) :
    (l.find? fun a => number a = n) = entries.find? fun a => number a = n := by
  rw [← List.head?_filter, ← List.head?_filter, h]

end Order

/-- After any pushes the list is sorted, holds what was pushed, keeps the entries of equal
number in order, and a look-up gives the first pushed entry of a number, or NULL. -/
theorem pushed_list_sorted (entries : List α) :
    ∃ h, pushAll number entries = some h ∧ Sorted number h.links ∧ h.links.Perm entries ∧
      (∀ n, h.links.filter (fun a => number a = n) = entries.filter fun a => number a = n) ∧
      ∀ n, CosaSListGetEntryByInsNum number h n =
          some (entries.find? fun a => number a = n) ∧
        (CosaSListGetEntryByInsNum number h n = some none ↔ ∀ a ∈ entries, number a ≠ n) := by
  obtain ⟨h, hall, hh⟩ := @holds_pushAll α number entries
  refine ⟨h, hall, hh.sorted, hh.perm, hh.order, fun n => ?_⟩
  have hget : CosaSListGetEntryByInsNum number h n =
      some (entries.find? fun a => number a = n) := by
    rw [get_eq, find_eq_of_filter (hh.order n)]
  refine ⟨hget, ?_⟩
  rw [hget, Option.some_inj, List.find?_eq_none]
  simp only [decide_eq_true_eq, ne_eq]

end CcspPandM.SortedLinks
