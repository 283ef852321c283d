import CcspPandM.IpRegistry
import CcspPandM.Runs

/-!
Components that keep their half-added entries in folders of their own. An entry is
a parent, a child in one of the lists of a parent, or stands in a list beside the
parents; its folder is named by its kind and its numbers. At start the lists are loaded
from the backend, then the folders are walked in their order and each adds its entry.
-/
namespace CcspPandM.HalfAdded

open CString IpRegistry KeyedList Registry Runs

inductive Role (C : Type) where
  | parent
  | child (c : C)
  | single
  deriving DecidableEq

/-- A recorded entry; only a child has a parent above it. -/
structure Entry (C : Type) where
  role : Role C
  upper : ULONG
  number : ULONG
  Alias : CStr
  deriving DecidableEq

structure Child where
  InstanceNumber : ULONG
  Alias : CStr
  bNew : Bool
  deriving DecidableEq

structure Parent (C : Type) where
  InstanceNumber : ULONG
  Alias : CStr
  bNew : Bool
  list : C → List Child
  ulNextInsNum : C → ULONG

structure Listing (C : Type) where
  parents : List (Parent C)
  singles : List Child
  ulNextParentInsNum : ULONG
  ulNextSingleInsNum : ULONG

variable {C : Type}

def Entry.IsChild (e : Entry C) : Prop := ∃ c, e.role = .child c

def items (role : Role C) (l : Listing C) : List (Entry C × Bool) :=
  match role with
  | .parent => l.parents.map fun p => (⟨.parent, 0, p.InstanceNumber, p.Alias⟩, p.bNew)
  | .child c => l.parents.flatMap fun p =>
      (p.list c).map fun a => (⟨.child c, p.InstanceNumber, a.InstanceNumber, a.Alias⟩, a.bNew)
  | .single => l.singles.map fun a => (⟨.single, 0, a.InstanceNumber, a.Alias⟩, a.bNew)

def numbers (l : Listing C) : List ULONG := l.parents.map Parent.InstanceNumber

def parents (entries : List (Entry C)) : List ULONG :=
  (entries.filter fun e => match e.role with
    | .parent => true
    | _ => false).map Entry.number

section Placing

variable [DecidableEq C]

def parentIndex (list : List (Parent C)) (upper : ULONG) : Option ℕ :=
  if list.isEmpty then none
  else some ((list.findIdx? fun p => p.InstanceNumber = upper).getD (list.length - 1))

def pushChild (c : C) (a : Child) (p : Parent C) : Parent C :=
  let list := pushEntryByInsNum Child.InstanceNumber (p.list c) a
  { p with list := Function.update p.list c list }

def newParent (number : ULONG) (pAlias : CStr) : Parent C :=
  ⟨number, pAlias, true, fun _ => [], fun _ => 1⟩

def Listing.pushParent (l : Listing C) (number : ULONG) (pAlias : CStr) : Listing C :=
  let p := newParent number pAlias
  { l with parents := pushEntryByInsNum Parent.InstanceNumber l.parents p }

def Listing.pushUnder (l : Listing C) (k : ℕ) (c : C) (number : ULONG) (pAlias : CStr) :
    Listing C :=
  { l with parents := l.parents.modify k (pushChild c ⟨number, pAlias, true⟩) }

def Listing.pushSingle (l : Listing C) (number : ULONG) (pAlias : CStr) : Listing C :=
  { l with singles := pushEntryByInsNum Child.InstanceNumber l.singles ⟨number, pAlias, true⟩ }

/-- What the folder of an entry does to the lists. Without any parent a child is passed
over, or ends the walk. -/
def place (skips : Bool) (l : Listing C) (e : Entry C) : Option (Listing C) :=
  match e.role with
  | .parent => some (l.pushParent e.number e.Alias)
  | .single => some (l.pushSingle e.number e.Alias)
  | .child c =>
    match parentIndex l.parents e.upper with
    | none => if skips then some l else none
    | some k => some (l.pushUnder k c e.number e.Alias)

def placeAll (skips : Bool) : Listing C → List (Entry C) → Listing C
  | l, [] => l
  | l, e :: entries =>
    match place skips l e with
    | none => l
    | some l' => placeAll skips l' entries

/-- Every child comes behind its parent. Where there is no parent at all yet, the child's
own must not come later, and if the walk ends there, nothing else may come either. -/
def Attached (skips : Bool) : List ULONG → List (Entry C) → Prop
  | _, [] => True
  | known, e :: entries =>
    match e.role with
    | .parent => Attached skips (e.number :: known) entries
    | .single => Attached skips known entries
    | .child _ => (e.upper ∈ known ∧ Attached skips known entries) ∨
        (known = [] ∧ e.upper ∉ parents entries ∧
          if skips then Attached skips known entries else ∀ x ∈ entries, x.IsChild)

/-- The entries that have a place: all but the children of no parent. -/
def placed (known : List ULONG) (entries : List (Entry C)) : List (Entry C) :=
  entries.filter fun e => match e.role with
    | .child _ => e.upper ∈ known
    | _ => true

/-- Only children have a number above them. -/
def Rooted (e : Entry C) : Prop := ¬ e.IsChild → e.upper = 0

def newItems (role : Role C) (entries : List (Entry C)) : List (Entry C × Bool) :=
  (entries.filter fun e => e.role = role).map fun e => (e, true)

variable (role : Role C)

theorem newItems_singleton (e : Entry C) :
    newItems role [e] = if e.role = role then [(e, true)] else [] := by
  unfold newItems
  by_cases h : e.role = role
  · simp [h]
  · simp [h]

theorem items_pushParent (l : Listing C) (number : ULONG) (pAlias : CStr) :
    (items role (l.pushParent number pAlias)).Perm
      (newItems role [⟨.parent, 0, number, pAlias⟩] ++ items role l) := by
  have hperm := pushEntry_perm Parent.InstanceNumber l.parents
    (newParent number pAlias)
  rw [newItems_singleton]
  cases role with
  | parent => exact hperm.map _
  | child c =>
    rw [if_neg (by simp)]
    exact hperm.flatMap_right _
  | single =>
    rw [if_neg (by simp)]
    exact List.Perm.refl _

theorem items_pushSingle (l : Listing C) (number : ULONG) (pAlias : CStr) :
    (items role (l.pushSingle number pAlias)).Perm
      (newItems role [⟨.single, 0, number, pAlias⟩] ++ items role l) := by
  rw [newItems_singleton]
  cases role with
  | parent =>
    rw [if_neg (by simp)]
    exact List.Perm.refl _
  | child c =>
    rw [if_neg (by simp)]
    exact List.Perm.refl _
  | single => exact (pushEntry_perm Child.InstanceNumber l.singles ⟨number, pAlias, true⟩).map _

theorem flatMap_modify {α β : Type} {f : α → α} {g : α → List β} {x : List β} {l : List α}
    {k : ℕ} {a : α} (ha : l[k]? = some a) (h : (g (f a)).Perm (x ++ g a)) :
    ((l.modify k f).flatMap g).Perm (x ++ l.flatMap g) := by
  have hmodify := (modify_perm ha f).flatMap_right g
  have herase := (eraseIdx_perm ha).flatMap_right g
  apply hmodify.trans
  rw [List.flatMap_cons]
  apply (h.append_right _).trans
  rw [List.append_assoc]
  exact herase.symm.append_left x

theorem items_pushUnder {l : Listing C} {k : ℕ} {p : Parent C}
    (hp : l.parents[k]? = some p) (c : C) (number : ULONG) (pAlias : CStr) :
    (items role (l.pushUnder k c number pAlias)).Perm
      (newItems role [⟨.child c, p.InstanceNumber, number, pAlias⟩] ++ items role l) := by
  rw [newItems_singleton]
  cases role with
  | parent =>
    rw [if_neg (by simp)]
    have hsame := map_modify (f := pushChild c ⟨number, pAlias, true⟩)
      (g := fun p : Parent C => ((⟨.parent, 0, p.InstanceNumber, p.Alias⟩ : Entry C), p.bNew))
      (fun _ => rfl) l.parents k
    exact List.Perm.of_eq hsame
  | single =>
    rw [if_neg (by simp)]
    exact List.Perm.refl _
  | child d =>
    apply flatMap_modify hp
    by_cases hcd : c = d
    · subst hcd
      have hself : (pushChild c ⟨number, pAlias, true⟩ p).list c =
          pushEntryByInsNum Child.InstanceNumber (p.list c) ⟨number, pAlias, true⟩ := by
        simp [pushChild]
      rw [hself, if_pos rfl]
      exact (pushEntry_perm Child.InstanceNumber (p.list c) ⟨number, pAlias, true⟩).map _
    · have hother : (pushChild c ⟨number, pAlias, true⟩ p).list d = p.list d := by
        have hne : d ≠ c := fun h => hcd h.symm
        simp [pushChild, Function.update_of_ne hne]
      rw [hother, if_neg (by simpa using hcd)]
      exact List.Perm.refl _

omit [DecidableEq C] in
theorem parentIndex_of_mem {list : List (Parent C)} {upper : ULONG}
    (h : upper ∈ list.map Parent.InstanceNumber) : ∃ k p, parentIndex list upper = some k ∧
      list[k]? = some p ∧ p.InstanceNumber = upper := by
  obtain ⟨p, hp, hnumber⟩ := List.mem_map.mp h
  have hne : list.isEmpty = false := by
    cases list with
    | nil => simp at hp
    | cons a list => rfl
  cases hfind : list.findIdx? (fun p => p.InstanceNumber = upper) with
  | none =>
    have hall := List.findIdx?_eq_none_iff.mp hfind p hp
    simp [hnumber] at hall
  | some k =>
    obtain ⟨hlt, hk, -⟩ := List.findIdx?_eq_some_iff_getElem.mp hfind
    refine ⟨k, list[k], ?_, List.getElem?_eq_getElem hlt, by simpa using hk⟩
    rw [parentIndex, hne, hfind]
    rfl

omit [DecidableEq C] in
theorem numbers_pushParent (l : Listing C) (number : ULONG) (pAlias : CStr) :
    (numbers (l.pushParent number pAlias)).Perm (number :: numbers l) :=
  (pushEntry_perm Parent.InstanceNumber l.parents
    (newParent number pAlias)).map Parent.InstanceNumber

theorem numbers_pushUnder (l : Listing C) (k : ℕ) (c : C) (number : ULONG) (pAlias : CStr) :
    numbers (l.pushUnder k c number pAlias) = numbers l :=
  map_modify (f := pushChild c ⟨number, pAlias, true⟩) (g := Parent.InstanceNumber)
    (fun _ => rfl) l.parents k

theorem newItems_cons (e : Entry C) (entries : List (Entry C)) :
    newItems role (e :: entries) = newItems role [e] ++ newItems role entries := by
  rw [newItems_singleton, newItems, List.filter_cons]
  by_cases h : e.role = role
  · simp [h, newItems]
  · simp [h, newItems]

omit [DecidableEq C] in
theorem placed_all_children {known : List ULONG} {entries : List (Entry C)}
    (hchild : ∀ x ∈ entries, x.IsChild) (hknown : known = []) : placed known entries = [] := by
  apply List.filter_eq_nil_iff.mpr
  intro e he
  obtain ⟨c, hc⟩ := hchild e he
  simp [hc, hknown]

omit [DecidableEq C] in
theorem parentIndex_nil {l : Listing C} (h : ∀ n, n ∈ numbers l ↔ n ∈ ([] : List ULONG))
    (upper : ULONG) : parentIndex l.parents upper = none := by
  have hnumbers : numbers l = [] := by
    apply List.eq_nil_iff_forall_not_mem.mpr
    exact fun n hn => List.not_mem_nil ((h n).mp hn)
  have hempty : l.parents = [] := List.map_eq_nil_iff.mp hnumbers
  rw [hempty]
  rfl

theorem items_placeAll {skips : Bool} {entries : List (Entry C)} {known all : List ULONG}
    (h : Attached skips known entries) (hroot : ∀ e ∈ entries, Rooted e)
    (hall : ∀ n, n ∈ all ↔ n ∈ known ∨ n ∈ parents entries) (l : Listing C)
    (hl : ∀ n, n ∈ numbers l ↔ n ∈ known) (role : Role C) :
    (items role (placeAll skips l entries)).Perm
      (items role l ++ newItems role (placed all entries)) := by
  induction entries generalizing known l with
  | nil => simp [placeAll, placed, newItems]
  | cons e entries ih =>
    have hrest : ∀ x ∈ entries, Rooted x := fun x hx => hroot x (List.mem_cons_of_mem _ hx)
    have hfirst := hroot e (List.mem_cons_self ..)
    obtain ⟨kind, upper, number, pAlias⟩ := e
    cases kind with
    | parent =>
      obtain rfl : upper = 0 := hfirst (by rintro ⟨c, hc⟩; cases hc)
      have hplaced : placed all (⟨.parent, 0, number, pAlias⟩ :: entries) =
          ⟨.parent, 0, number, pAlias⟩ :: placed all entries := rfl
      have hall' : ∀ n, n ∈ all ↔ n ∈ number :: known ∨ n ∈ parents entries := by
        intro n
        rw [hall]
        change n ∈ known ∨ n ∈ number :: parents entries ↔ _
        rw [List.mem_cons, List.mem_cons]
        exact or_left_comm.trans or_assoc.symm
      have hl' : ∀ n, n ∈ numbers (l.pushParent number pAlias) ↔ n ∈ number :: known := by
        intro n
        rw [(numbers_pushParent l number pAlias).mem_iff, List.mem_cons, List.mem_cons, hl]
      have hih := ih h hrest hall' (l.pushParent number pAlias) hl'
      rw [hplaced, newItems_cons, ← List.append_assoc]
      apply hih.trans
      exact ((items_pushParent role l number pAlias).trans List.perm_append_comm).append_right _
    | single =>
      obtain rfl : upper = 0 := hfirst (by rintro ⟨c, hc⟩; cases hc)
      have hplaced : placed all (⟨.single, 0, number, pAlias⟩ :: entries) =
          ⟨.single, 0, number, pAlias⟩ :: placed all entries := rfl
      have hih := ih h hrest hall (l.pushSingle number pAlias) hl
      rw [hplaced, newItems_cons, ← List.append_assoc]
      apply hih.trans
      exact ((items_pushSingle role l number pAlias).trans List.perm_append_comm).append_right _
    | child c =>
      have hall' : ∀ n, n ∈ all ↔ n ∈ known ∨ n ∈ parents entries := hall
      rw [placeAll]
      rcases h with ⟨hin, hlater⟩ | ⟨hnone, hnot, hlater⟩
      · obtain ⟨k, p, hk, hp, hnumber⟩ := parentIndex_of_mem ((hl upper).mpr hin)
        have hplace : place skips l ⟨.child c, upper, number, pAlias⟩ =
            some (l.pushUnder k c number pAlias) := by
          rw [place]
          simp only [hk]
        have hplaced : placed all (⟨.child c, upper, number, pAlias⟩ :: entries) =
            ⟨.child c, upper, number, pAlias⟩ :: placed all entries := by
          apply List.filter_cons_of_pos
          have hmem : upper ∈ all := (hall upper).mpr (Or.inl hin)
          simpa using hmem
        have hpush := items_pushUnder role hp c number pAlias
        rw [hnumber] at hpush
        have hih := ih hlater hrest hall' (l.pushUnder k c number pAlias)
          (fun n => by rw [numbers_pushUnder, hl])
        rw [hplace, hplaced, newItems_cons, ← List.append_assoc]
        apply hih.trans
        exact (hpush.trans List.perm_append_comm).append_right _
      · subst hnone
        have hplace : place skips l ⟨.child c, upper, number, pAlias⟩ =
            if skips then some l else none := by
          rw [place]
          simp only [parentIndex_nil hl]
        have hplaced : placed all (⟨.child c, upper, number, pAlias⟩ :: entries) =
            placed all entries := by
          apply List.filter_cons_of_neg
          have hmem : upper ∉ all := by
            rw [hall]
            exact fun hor => hor.elim List.not_mem_nil hnot
          simpa using hmem
        rw [hplace, hplaced]
        cases skips with
        | true =>
          exact ih hlater hrest hall' l hl
        | false =>
          have hnil : all = [] := by
            apply List.eq_nil_iff_forall_not_mem.mpr
            intro n hn
            rcases (hall' n).mp hn with hn | hn
            · exact absurd hn List.not_mem_nil
            · obtain ⟨x, hx, -⟩ := List.mem_map.mp hn
              obtain ⟨hmem, hparent⟩ := List.mem_filter.mp hx
              obtain ⟨d, hd⟩ := hlater x hmem
              simp [hd] at hparent
          rw [placed_all_children hlater hnil]
          simp [newItems]

def nexts (c : C) (l : Listing C) : List (ULONG × Bool × ULONG) :=
  l.parents.map fun p => (p.InstanceNumber, p.bNew, p.ulNextInsNum c)

omit [DecidableEq C] in
theorem nexts_pushParent (c : C) (l : Listing C) (number : ULONG) (pAlias : CStr) :
    (nexts c (l.pushParent number pAlias)).Perm ((number, true, 1) :: nexts c l) :=
  (pushEntry_perm Parent.InstanceNumber l.parents (newParent number pAlias)).map _

theorem nexts_pushUnder (c : C) (l : Listing C) (k : ℕ) (d : C) (number : ULONG) (pAlias : CStr) :
    nexts c (l.pushUnder k d number pAlias) = nexts c l :=
  map_modify (f := pushChild d ⟨number, pAlias, true⟩)
    (g := fun p : Parent C => (p.InstanceNumber, p.bNew, p.ulNextInsNum c)) (fun _ => rfl)
    l.parents k

omit [DecidableEq C] in
theorem parents_all_children {entries : List (Entry C)} (h : ∀ x ∈ entries, x.IsChild) :
    parents entries = [] := by
  apply List.map_eq_nil_iff.mpr
  apply List.filter_eq_nil_iff.mpr
  intro e he
  obtain ⟨c, hc⟩ := h e he
  simp [hc]

theorem nexts_placeAll {skips : Bool} {entries : List (Entry C)} {known : List ULONG}
    (h : Attached skips known entries) (c : C) (l : Listing C)
    (hl : ∀ n, n ∈ numbers l ↔ n ∈ known) :
    (nexts c (placeAll skips l entries)).Perm
        (nexts c l ++ (parents entries).map fun n => (n, true, 1)) ∧
      (placeAll skips l entries).ulNextParentInsNum = l.ulNextParentInsNum := by
  induction entries generalizing known l with
  | nil => simp [placeAll, parents]
  | cons e entries ih =>
    obtain ⟨kind, upper, number, pAlias⟩ := e
    cases kind with
    | parent =>
      have hl' : ∀ n, n ∈ numbers (l.pushParent number pAlias) ↔ n ∈ number :: known := by
        intro n
        rw [(numbers_pushParent l number pAlias).mem_iff, List.mem_cons, List.mem_cons, hl]
      obtain ⟨hnexts, hnumber⟩ := ih h (l.pushParent number pAlias) hl'
      refine ⟨?_, hnumber⟩
      have hcons : parents (⟨.parent, upper, number, pAlias⟩ :: entries) =
          number :: parents entries := rfl
      rw [hcons, List.map_cons]
      apply hnexts.trans
      exact ((nexts_pushParent c l number pAlias).append_right _).trans List.perm_middle.symm
    | single => exact ih h (l.pushSingle number pAlias) hl
    | child d =>
      have hparents : parents (⟨.child d, upper, number, pAlias⟩ :: entries) =
          parents entries := rfl
      rw [hparents]
      rcases h with ⟨hin, hlater⟩ | ⟨rfl, -, hlater⟩
      · obtain ⟨k, p, hk, -, -⟩ := parentIndex_of_mem ((hl upper).mpr hin)
        have hplace : place skips l ⟨.child d, upper, number, pAlias⟩ =
            some (l.pushUnder k d number pAlias) := by
          rw [place]
          simp only [hk]
        rw [placeAll, hplace, ← nexts_pushUnder c l k d number pAlias]
        exact ih hlater (l.pushUnder k d number pAlias)
          (fun n => by rw [numbers_pushUnder, hl])
      · have hplace : place skips l ⟨.child d, upper, number, pAlias⟩ =
            if skips then some l else none := by
          rw [place]
          simp only [parentIndex_nil hl]
        rw [placeAll, hplace]
        cases skips with
        | true => exact ih hlater l hl
        | false => simp [parents_all_children hlater]

end Placing

end CcspPandM.HalfAdded
