import CcspPandM.CString
import CcspPandM.KeyStore
import CcspPandM.KeyedList

/-!
A registry: a tree of named folders that hold typed records. Adding a folder or a
record that is there already opens the folder or replaces the record. The folders
of a folder are listed in the order in which they were added. A folder that is held
by a handle is changed in its place in the tree, so a change is passed down as a function.
-/
namespace CcspPandM.Registry

open CString KeyStore KeyedList

inductive Value where
  | uint32 (n : BitVec 32)
  | bool (b : Bool)
  | string (t : CStr)
  deriving DecidableEq, Repr

inductive Folder where
  | mk (records : CStr → Option Value) (folders : List (CStr × Folder))

namespace Folder

def records : Folder → Store CStr Value
  | mk rs _ => rs

def folders : Folder → List (CStr × Folder)
  | mk _ fs => fs

def empty : Folder := mk (fun _ => none) []

def GetRecord (f : Folder) (name : CStr) : Option Value := f.records name

def AddRecord (f : Folder) (name : CStr) (v : Value) : Folder := mk (set f.records name v) f.folders

def DelRecord (f : Folder) (name : CStr) : Folder := mk (unset f.records name) f.folders

def GetFolder (f : Folder) (name : CStr) : Option Folder :=
  (find Prod.fst f.folders name).map Prod.snd

/-- `AddFolder`, and what is done to the folder while it is open. -/
def AddFolder (f : Folder) (name : CStr) (change : Folder → Folder) : Folder :=
  mk f.records (put Prod.fst f.folders (name, change ((f.GetFolder name).getD empty)))

def DelFolder (f : Folder) (name : CStr) : Folder := mk f.records (drop Prod.fst f.folders name)

def getUint32 (f : Folder) (name : CStr) : Option (BitVec 32) :=
  match f.GetRecord name with
  | some (.uint32 n) => some n
  | _ => none

def getString (f : Folder) (name : CStr) : Option CStr :=
  match f.GetRecord name with
  | some (.string t) => some t
  | _ => none

def getBool (f : Folder) (name : CStr) : Option Bool :=
  match f.GetRecord name with
  | some (.bool b) => some b
  | _ => none

variable (f : Folder) (name other : CStr) (v : Value) (change : Folder → Folder)

@[simp] theorem records_mk (rs : CStr → Option Value) (fs : List (CStr × Folder)) :
    (mk rs fs).records = rs := rfl

@[simp] theorem folders_mk (rs : CStr → Option Value) (fs : List (CStr × Folder)) :
    (mk rs fs).folders = fs := rfl

@[simp] theorem folders_AddRecord : (f.AddRecord name v).folders = f.folders := rfl

@[simp] theorem folders_DelRecord : (f.DelRecord name).folders = f.folders := rfl

@[simp] theorem records_AddFolder : (f.AddFolder name change).records = f.records := rfl

@[simp] theorem records_DelFolder : (f.DelFolder name).records = f.records := rfl

theorem GetRecord_AddRecord : (f.AddRecord name v).GetRecord other =
    if other = name then some v else f.GetRecord other := by
  simp only [GetRecord, AddRecord, records_mk, KeyStore.set, Function.update_apply]

theorem GetFolder_AddFolder : (f.AddFolder name change).GetFolder other =
    if other = name then some (change ((f.GetFolder name).getD empty)) else f.GetFolder other := by
  rw [GetFolder, AddFolder, folders_mk, find_put]
  split
  · rfl
  · rfl

theorem GetFolder_AddFolder_self : (f.AddFolder name change).GetFolder name =
    some (change ((f.GetFolder name).getD empty)) := by
  rw [GetFolder_AddFolder, if_pos rfl]

theorem folders_AddFolder_of_notMem (h : name ∉ f.folders.map Prod.fst) :
    (f.AddFolder name change).folders = f.folders ++ [(name, change empty)] := by
  have hnone : f.GetFolder name = none := by
    rw [GetFolder, (find_eq_none_iff name).mpr h, Option.map_none]
  rw [AddFolder, folders_mk, hnone]
  exact put_of_notMem h

theorem folders_foldl_AddFolder {α : Type} (name : α → CStr) (change : α → Folder → Folder)
    {l : List α} (hnodup : (l.map name).Nodup) : ∀ {f : Folder},
    (∀ a ∈ l, name a ∉ f.folders.map Prod.fst) →
      (l.foldl (fun f a => f.AddFolder (name a) (change a)) f).folders =
        f.folders ++ l.map fun a => (name a, change a empty) := by
  induction l with
  | nil => exact fun _ => (List.append_nil _).symm
  | cons a l ih =>
    intro f hnew
    obtain ⟨ha, hl⟩ := List.nodup_cons.mp hnodup
    have hadd := folders_AddFolder_of_notMem f (name a) (change a) (hnew a List.mem_cons_self)
    rw [List.foldl_cons, ih hl, hadd, List.map_cons, List.append_assoc]
    · rfl
    · intro b hb
      rw [hadd, List.map_append, List.mem_append, not_or]
      refine ⟨hnew b (List.mem_cons_of_mem _ hb), fun hsame => ha ?_⟩
      have heq : name b = name a := List.mem_singleton.mp hsame
      rw [← heq]
      exact List.mem_map_of_mem hb

theorem records_foldl_AddFolder {α : Type} (name : α → CStr) (change : α → Folder → Folder)
    (l : List α) : ∀ f : Folder,
    (l.foldl (fun f a => f.AddFolder (name a) (change a)) f).records = f.records := by
  induction l with
  | nil => exact fun _ => rfl
  | cons a l ih => exact fun f => ih _

end Folder

end CcspPandM.Registry
