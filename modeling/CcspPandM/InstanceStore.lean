import CcspPandM.CString
import CcspPandM.KeyStore
import Mathlib.Data.List.Nodup

/-!
A store of texts under dotted names. The name "t.3.x" lies under instance 3 of
the table "t."; the store lists the instances of a table in the order in which
they were created, and an instance stays until it is deleted with all its names.
-/
namespace CcspPandM.InstanceStore

open CString KeyStore

def instancePath (table : CStr) (n : ℕ) : CStr := table ++ decimal n ++ ['.']

def instanceOf (table name : CStr) : Option ℕ :=
  let n := leadingNumber (name.drop table.length)
  if instancePath table n <+: name then some n else none

theorem instancePath_append (table : CStr) (n : ℕ) (s : CStr) :
    instancePath table n ++ s = table ++ (decimal n ++ '.' :: s) := by
  simp [instancePath]

variable {table : CStr}

theorem instancePath_append_inj {m n : ℕ} {s t : CStr} :
    instancePath table m ++ s = instancePath table n ++ t ↔ m = n ∧ s = t := by
  constructor
  · intro h
    rw [instancePath_append, instancePath_append] at h
    exact decimal_cons_inj rfl (List.append_cancel_left h)
  · rintro ⟨rfl, rfl⟩
    rfl

theorem instancePath_prefix_iff {m n : ℕ} {s t : CStr} :
    instancePath table m ++ s <+: instancePath table n ++ t ↔ m = n ∧ s <+: t := by
  constructor
  · rintro ⟨rest, h⟩
    rw [List.append_assoc, instancePath_append_inj] at h
    exact ⟨h.1, rest, h.2⟩
  · rintro ⟨rfl, h⟩
    exact (List.prefix_append_right_inj _).mpr h

theorem instancePath_prefix_self_iff {m n : ℕ} {t : CStr} :
    instancePath table m <+: instancePath table n ++ t ↔ m = n := by
  have h := @instancePath_prefix_iff table m n [] t
  rw [List.append_nil] at h
  simpa using h

theorem instancePath_inj {m n : ℕ} :
    instancePath table m = instancePath table n ↔ m = n := by
  have h := @instancePath_append_inj table m n [] []
  simpa using h

theorem table_prefix_instancePath (table : CStr) (n : ℕ) (s : CStr) :
    table <+: instancePath table n ++ s := by
  rw [instancePath_append]
  exact List.prefix_append _ _

theorem leadingNumber_decimal_cons (n : ℕ) {c : Char} (hc : c.isDigit = false) (s : CStr) :
    leadingNumber (decimal n ++ c :: s) = n := by
  have hdigits : ∀ c ∈ decimal n, c.isDigit = true := fun c hc => isDigit_of_mem_decimal hc
  have hnumber := leadingNumber_decimal n
  have hall : (decimal n ++ []).takeWhile Char.isDigit =
      decimal n ++ ([] : CStr).takeWhile Char.isDigit := List.takeWhile_append_of_pos hdigits
  rw [List.append_nil, List.takeWhile_nil, List.append_nil] at hall
  rw [leadingNumber, hall] at hnumber
  rw [leadingNumber, List.takeWhile_append_of_pos hdigits,
    List.takeWhile_cons_of_neg (by simp [hc]), List.append_nil]
  exact hnumber

theorem instanceOf_eq_some_iff {table name : CStr} {n : ℕ} :
    instanceOf table name = some n ↔ instancePath table n <+: name := by
  simp only [instanceOf]
  constructor
  · intro h
    split at h
    · next hprefix =>
      rw [← Option.some.inj h]
      exact hprefix
    · cases h
  · rintro ⟨s, rfl⟩
    have hnumber : leadingNumber ((instancePath table n ++ s).drop table.length) = n := by
      rw [instancePath_append, List.drop_left]
      exact leadingNumber_decimal_cons n rfl s
    simp only [hnumber]
    exact if_pos (List.prefix_append _ _)

/-- Every name with a value lies under listed instances only, and so does every
listed instance of a table inside another one. -/
structure Tables where
  value : Store CStr CStr
  listed : CStr → List ℕ
  nodup : ∀ table, (listed table).Nodup
  holds : ∀ table name n, value name ≠ none → instancePath table n <+: name → n ∈ listed table
  nested : ∀ table inner n k, k ∈ listed inner → instancePath table n <+: inner →
    n ∈ listed table

def addNew (n : ℕ) (ns : List ℕ) : List ℕ := if n ∈ ns then ns else ns ++ [n]

theorem mem_addNew {k n : ℕ} {ns : List ℕ} : k ∈ addNew n ns ↔ k = n ∨ k ∈ ns := by
  unfold addNew
  split
  · next h =>
    constructor
    · exact Or.inr
    · rintro (rfl | hk)
      · exact h
      · exact hk
  · rw [List.mem_append, List.mem_singleton, or_comm]

theorem addNew_of_mem {n : ℕ} {ns : List ℕ} (h : n ∈ ns) : addNew n ns = ns := if_pos h

theorem addNew_of_notMem {n : ℕ} {ns : List ℕ} (h : n ∉ ns) : addNew n ns = ns ++ [n] := if_neg h

theorem nodup_addNew {n : ℕ} {ns : List ℕ} (h : ns.Nodup) : (addNew n ns).Nodup := by
  unfold addNew
  split
  · exact h
  · next hn =>
    apply List.Nodup.append h (List.nodup_singleton n)
    exact List.disjoint_singleton.mpr hn

@[simp] theorem addNew_addNew (n : ℕ) (ns : List ℕ) : addNew n (addNew n ns) = addNew n ns :=
  addNew_of_mem (mem_addNew.mpr (Or.inl rfl))

namespace Tables

def empty : Tables where
  value := fun _ => none
  listed := fun _ => []
  nodup := fun _ => List.nodup_nil
  holds := fun _ _ _ h => absurd rfl h
  nested := fun _ _ _ _ h => absurd h List.not_mem_nil

def listedWith (s : Tables) (name : CStr) (table : CStr) : List ℕ :=
  match instanceOf table name with
  | some n => addNew n (s.listed table)
  | none => s.listed table

theorem mem_listedWith {s : Tables} {name table : CStr} {n : ℕ} :
    n ∈ s.listedWith name table ↔ instancePath table n <+: name ∨ n ∈ s.listed table := by
  unfold listedWith
  cases h : instanceOf table name with
  | some m =>
    rw [mem_addNew, ← instanceOf_eq_some_iff, h, Option.some.injEq, eq_comm]
  | none =>
    rw [← instanceOf_eq_some_iff, h]
    simp

def put (s : Tables) (name v : CStr) : Tables where
  value := KeyStore.set s.value name v
  listed := s.listedWith name
  nodup := by
    intro table
    unfold listedWith
    cases instanceOf table name with
    | some n => exact nodup_addNew (s.nodup table)
    | none => exact s.nodup table
  holds := by
    intro table k n hk hprefix
    rw [mem_listedWith]
    by_cases hname : k = name
    · exact Or.inl (hname ▸ hprefix)
    · rw [set_of_ne s.value v hname] at hk
      exact Or.inr (s.holds table k n hk hprefix)
  nested := by
    intro table inner n k hk hprefix
    rw [mem_listedWith] at hk ⊢
    rcases hk with hk | hk
    · have hinner : inner <+: instancePath inner k := by
        simpa using table_prefix_instancePath inner k []
      exact Or.inl (( hprefix.trans hinner).trans hk)
    · exact Or.inr (s.nested table inner n k hk hprefix)

def delete (s : Tables) (path : CStr) : Tables where
  value := fun k => if path <+: k then none else s.value k
  listed := fun table =>
    if path <+: table then []
    else (s.listed table).filter (fun n => instancePath table n ≠ path)
  nodup := by
    intro table
    split
    · exact List.nodup_nil
    · exact (s.nodup table).filter _
  holds := by
    intro table k n hk hprefix
    have hpath : ¬path <+: k := fun h => hk (if_pos h)
    rw [if_neg hpath] at hk
    have htable : table <+: instancePath table n := by
      simpa using table_prefix_instancePath table n []
    rw [if_neg (fun h => hpath ((h.trans htable).trans hprefix)), List.mem_filter]
    refine ⟨s.holds table k n hk hprefix, ?_⟩
    rw [decide_eq_true_eq]
    rintro rfl
    exact hpath hprefix
  nested := by
    intro table inner n k hk hprefix
    split at hk
    · exact absurd hk List.not_mem_nil
    · next hpath =>
      rw [List.mem_filter] at hk
      have htable : table <+: instancePath table n := by
        simpa using table_prefix_instancePath table n []
      rw [if_neg (fun h => hpath ((h.trans htable).trans hprefix)), List.mem_filter]
      refine ⟨s.nested table inner n k hk.1 hprefix, ?_⟩
      rw [decide_eq_true_eq]
      rintro rfl
      exact hpath hprefix

def putAll : List (CStr × CStr) → Tables → Tables
  | [], s => s
  | w :: ws, s => putAll ws (s.put w.1 w.2)

theorem value_putAll (ws : List (CStr × CStr)) (s : Tables) (name : CStr) :
    (putAll ws s).value name = (lastValue name ws).or (s.value name) := by
  rw [← setAll_apply]
  induction ws generalizing s with
  | nil => rfl
  | cons w ws ih => exact ih (s.put w.1 w.2)

theorem listed_putAll_of_none {ws : List (CStr × CStr)}
    (h : ∀ w ∈ ws, ∀ n, ¬instancePath table n <+: w.1) (s : Tables) :
    (putAll ws s).listed table = s.listed table := by
  induction ws generalizing s with
  | nil => rfl
  | cons w ws ih =>
    have hnone : instanceOf table w.1 = none := by
      cases hn : instanceOf table w.1 with
      | none => rfl
      | some n => exact absurd (instanceOf_eq_some_iff.mp hn) (h w List.mem_cons_self n)
    have hput : (s.put w.1 w.2).listed table = s.listed table := by
      change s.listedWith w.1 table = _
      simp only [listedWith, hnone]
    exact (ih (fun v hv => h v (List.mem_cons_of_mem _ hv)) _).trans hput

theorem listed_putAll_of_under {ws : List (CStr × CStr)} {n : ℕ}
    (h : ∀ w ∈ ws, instancePath table n <+: w.1) (s : Tables) :
    (putAll ws s).listed table = if ws = [] then s.listed table else addNew n (s.listed table) := by
  induction ws generalizing s with
  | nil => rfl
  | cons w ws ih =>
    have hput : (s.put w.1 w.2).listed table = addNew n (s.listed table) := by
      change s.listedWith w.1 table = _
      simp only [listedWith, instanceOf_eq_some_iff.mpr (h w List.mem_cons_self)]
    have hrest := ih (fun v hv => h v (List.mem_cons_of_mem _ hv)) (s.put w.1 w.2)
    rw [hput, addNew_addNew, ite_self] at hrest
    rw [if_neg (List.cons_ne_nil w ws)]
    exact hrest

theorem value_delete_of_not {path name : CStr} (h : ¬path <+: name) (s : Tables) :
    (s.delete path).value name = s.value name := if_neg h

theorem listed_delete_self (s : Tables) (table : CStr) (n : ℕ) :
    (s.delete (instancePath table n)).listed table = (s.listed table).filter (· ≠ n) := by
  have hlength : ¬instancePath table n <+: table := fun h => by
    have := h.length_le
    simp [instancePath] at this
  change (if instancePath table n <+: table then [] else _) = _
  rw [if_neg hlength]
  simp only [ne_eq, instancePath_inj]

theorem listed_delete_of_ne {path table : CStr} (hpath : ¬path <+: table)
    (hne : ∀ n, instancePath table n ≠ path) (s : Tables) :
    (s.delete path).listed table = s.listed table := by
  change (if path <+: table then [] else _) = _
  rw [if_neg hpath]
  apply List.filter_eq_self.mpr
  intro n _
  simpa using hne n

end Tables

end CcspPandM.InstanceStore
