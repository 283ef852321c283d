import CcspPandM.IpRegistry
import CcspPandM.ScanText

/-!
The port mappings and port triggers of the NAT middle layer. The backend holds the
committed entries. The registry holds the delay-added ones in folders named by their
numbers, those of the triggers below a folder of their own, and is written anew with
every change of them. Both kinds take their next number by a search for a free one.
-/
namespace CcspPandM.NatLists

open CString KeyedList Registry ScanText
open IpRegistry (ULONG nextAfter pushEntryByInsNum)

inductive Kind where
  | portMapping
  | portTrigger
  deriving DecidableEq, Repr

def COSA_IREP_FOLDER_NAME_NAT : CStr := "NAT".toList

def COSA_IREP_FOLDER_NAME_PORTTRIGGER : CStr := "PORTTRIGGER".toList

def COSA_DML_RR_NAME_NATNextInsNumber : CStr := "NextInstanceNumber".toList

def COSA_DML_RR_NAME_NATAlias : CStr := "Alias".toList

def COSA_DML_RR_NAME_NATbNew : CStr := "bNew".toList

structure Entry where
  InstanceNumber : ULONG
  Alias : CStr
  deriving DecidableEq, Repr

structure ContextLink where
  InstanceNumber : ULONG
  Alias : CStr
  bNew : Bool
  deriving DecidableEq, Repr

def ContextLink.entry (l : ContextLink) : Entry := ⟨l.InstanceNumber, l.Alias⟩

def committed (e : Entry) : ContextLink := ⟨e.InstanceNumber, e.Alias, false⟩

structure System where
  backend : Kind → List Entry
  pPoamIrepFoCOSA : Folder
  list : Kind → List ContextLink
  MaxInstanceNumber : ULONG
  ulPtNextInstanceNumber : ULONG

def numbers (list : List ContextLink) : List ULONG := list.map ContextLink.InstanceNumber

def push (list : List ContextLink) (l : ContextLink) : List ContextLink :=
  pushEntryByInsNum ContextLink.InstanceNumber list l

section Registry

/-- `_ansc_atol`: a text that does not start with a number gives zero. -/
def atol (t : CStr) : ULONG := sscanf_d t 0

def recordLink (l : ContextLink) (fo : Folder) : Folder :=
  (fo.AddRecord COSA_DML_RR_NAME_NATAlias (.string l.Alias)).AddRecord
    COSA_DML_RR_NAME_NATbNew (.bool l.bNew)

/-- The folders of the delay-added entries; `FolderName[16]` takes every number. -/
def saveLinks : List ContextLink → Folder → Folder
  | [], fo => fo
  | l :: rest, fo =>
    saveLinks rest
      (if l.bNew then fo.AddFolder (intText l.InstanceNumber) (recordLink l) else fo)

/-- The folder of the module is cleared and written anew. -/
def CosaNatRegSetNatInfo (s : System) : System :=
  { s with
    pPoamIrepFoCOSA := s.pPoamIrepFoCOSA.AddFolder COSA_IREP_FOLDER_NAME_NAT fun _ =>
      (saveLinks (s.list .portMapping) Folder.empty).AddFolder
        COSA_IREP_FOLDER_NAME_PORTTRIGGER fun pt =>
          saveLinks (s.list .portTrigger)
            (pt.AddRecord COSA_DML_RR_NAME_NATNextInsNumber (.uint32 s.ulPtNextInstanceNumber)) }

def loadLinks : List (CStr × Folder) → List ContextLink → List ContextLink
  | [], list => list
  | (pFolderName, fo) :: rest, list =>
    let uInstanceNumber := atol pFolderName
    loadLinks rest
      (if uInstanceNumber = 0 then list
      else push list ⟨uInstanceNumber, (fo.getString COSA_DML_RR_NAME_NATAlias).getD [],
        (fo.getBool COSA_DML_RR_NAME_NATbNew).getD true⟩)

def folderOf (cosa : Folder) : Kind → Folder
  | .portMapping => (cosa.GetFolder COSA_IREP_FOLDER_NAME_NAT).getD Folder.empty
  | .portTrigger => (((cosa.GetFolder COSA_IREP_FOLDER_NAME_NAT).getD Folder.empty).GetFolder
      COSA_IREP_FOLDER_NAME_PORTTRIGGER).getD Folder.empty

def CosaNatRegGetNatInfo (s : System) : System :=
  { s with list := fun k => loadLinks (folderOf s.pPoamIrepFoCOSA k).folders (s.list k) }

end Registry

section Numbers

/-- The loop of `CosaNatGen`. With more fuel than numbers in use it ends early only when
it would never end. -/
def genLoop (used : List ULONG) : ℕ → ULONG → Option ULONG
  | 0, _ => none
  | fuel + 1, max =>
    let next := nextAfter max
    if next ∈ used then genLoop used fuel next else some next

/-- The loop of `CosaNatGenForTriggerEntry`, which tries the counter itself first. -/
def genTriggerLoop (used : List ULONG) : ℕ → ULONG → Option ULONG
  | 0, _ => none
  | fuel + 1, counter =>
    let next := if counter = 0 then 1 else counter
    if next ∈ used then genTriggerLoop used fuel (next + 1) else some next

def CosaNatGen (s : System) : Option (Entry × System) :=
  let used := numbers (s.list .portMapping)
  (genLoop used (used.length + 1) s.MaxInstanceNumber).map fun n =>
    (⟨n, "PortMapping".toList ++ intText n⟩, CosaNatRegSetNatInfo { s with MaxInstanceNumber := n })

/-- The alias of a new entry is empty before. -/
def CosaNatGenForTriggerEntry (s : System) : Option (Entry × System) :=
  let used := numbers (s.list .portTrigger)
  (genTriggerLoop used (used.length + 1) s.ulPtNextInstanceNumber).map fun n =>
    (⟨n, "PortTrigger".toList ++ intText n⟩,
      CosaNatRegSetNatInfo { s with ulPtNextInstanceNumber := n + 1 })

end Numbers

section Synchronization

def indexOf (backend : List Entry) (number : ULONG) : Option ℕ :=
  backend.findIdx? fun e => e.InstanceNumber = number

def updateLink (backend : List Entry) (l : ContextLink) : ContextLink :=
  match find Entry.InstanceNumber backend l.InstanceNumber with
  | some e => committed e
  | none => l

/-- The entries of the backend that no entry of the list was found to be. -/
def notFound (backend : List Entry) (list : List ContextLink) : List Entry :=
  (backend.zipIdx.filter fun x =>
    list.all fun l => indexOf backend l.InstanceNumber ≠ some x.2).map Prod.fst

/-- No triggers and an error of the backend are one case, which leaves the list alone. -/
def CosaNatSyncPortTrigger (backend : List Entry) (list : List ContextLink) : List ContextLink :=
  if backend = [] then list
  else (notFound backend list).foldl (fun list e => push list (committed e))
    (list.map (updateLink backend))

/-- The first entry of the list with the number of an entry of the backend gets its
content and is marked as found. -/
def markFound (list : List (ContextLink × Bool)) (e : Entry) : List (ContextLink × Bool) :=
  match list.findIdx? fun x => x.1.InstanceNumber = e.InstanceNumber with
  | some i => list.set i (committed e, true)
  | none => list

/-- Committed entries that the backend does not have any more are dropped. -/
def PortMapping_Synchronize (backend : List Entry) (list : List ContextLink) :
    List ContextLink :=
  let marked := backend.foldl markFound (list.map fun l => (l, false))
  let kept := (marked.filter fun x => x.2 || x.1.bNew).map Prod.fst
  (backend.filter fun e => e.InstanceNumber ∉ numbers list).foldl
    (fun list e => push list (committed e)) kept

end Synchronization

/-- At start the folders are opened or added, the triggers come from the backend, and the
delay-added entries from the registry. -/
def CosaNatInitialize (s : System) : System :=
  let cosa := s.pPoamIrepFoCOSA.AddFolder COSA_IREP_FOLDER_NAME_NAT fun nat =>
    nat.AddFolder COSA_IREP_FOLDER_NAME_PORTTRIGGER id
  CosaNatRegGetNatInfo
    { backend := s.backend
      pPoamIrepFoCOSA := cosa
      list := fun
        | .portMapping => []
        | .portTrigger => CosaNatSyncPortTrigger (s.backend .portTrigger) []
      MaxInstanceNumber := 0
      ulPtNextInstanceNumber :=
        ((folderOf cosa .portTrigger).getUint32 COSA_DML_RR_NAME_NATNextInsNumber).getD 1 }

def setList (s : System) (k : Kind) (list : List ContextLink) : System :=
  { s with list := Function.update s.list k list }

def setBackend (s : System) (k : Kind) (backend : List Entry) : System :=
  { s with backend := Function.update s.backend k backend }

def addLink (k : Kind) (g : Entry × System) : System :=
  CosaNatRegSetNatInfo
    (setList g.2 k (push (g.2.list k) ⟨g.1.InstanceNumber, g.1.Alias, true⟩))

def PortMapping_AddEntry (s : System) : Option System :=
  (CosaNatGen s).map (addLink .portMapping)

def PortTrigger_AddEntry (s : System) : Option System :=
  (CosaNatGenForTriggerEntry s).map (addLink .portTrigger)

/-- The commit of an entry, with the answer of the backend. A new entry that is not
accepted and one that is not found keep their number and alias. -/
def commitEntry (k : Kind) (accepted : Bool) (i : ℕ) (s : System) : Option System :=
  ((s.list k)[i]?).map fun l =>
    match l.bNew, accepted with
    | true, true => CosaNatRegSetNatInfo
        (setList (setBackend s k (s.backend k ++ [l.entry])) k
          ((s.list k).modify i fun l => { l with bNew := false }))
    | true, false => s
    | false, true =>
      match indexOf (s.backend k) l.InstanceNumber with
      | some j => setBackend s k ((s.backend k).set j l.entry)
      | none => s
    | false, false =>
      match find Entry.InstanceNumber (s.backend k) l.InstanceNumber with
      | some e => setList s k ((s.list k).modify i fun l => { l with Alias := e.Alias })
      | none => s

def PortMapping_Commit : Bool → ℕ → System → Option System := commitEntry .portMapping

def PortTrigger_Commit : Bool → ℕ → System → Option System := commitEntry .portTrigger

/-- A new entry is unmarked, so that the registry is written without it. -/
def delEntry (k : Kind) (accepted : Bool) (i : ℕ) (s : System) : Option System :=
  ((s.list k)[i]?).map fun l =>
    if l.bNew then
      let unmarked := CosaNatRegSetNatInfo
        (setList s k ((s.list k).modify i fun l => { l with bNew := false }))
      setList unmarked k ((unmarked.list k).eraseIdx i)
    else if accepted then
      setList (setBackend s k ((s.backend k).eraseP fun e => e.InstanceNumber = l.InstanceNumber))
        k ((s.list k).eraseIdx i)
    else s

def PortMapping_DelEntry : Bool → ℕ → System → Option System := delEntry .portMapping

def PortTrigger_DelEntry : Bool → ℕ → System → Option System := delEntry .portTrigger

namespace Kind

def AddEntry : Kind → System → Option System
  | portMapping => PortMapping_AddEntry
  | portTrigger => PortTrigger_AddEntry

def Commit : Kind → Bool → ℕ → System → Option System
  | portMapping => PortMapping_Commit
  | portTrigger => PortTrigger_Commit

def DelEntry : Kind → Bool → ℕ → System → Option System
  | portMapping => PortMapping_DelEntry
  | portTrigger => PortTrigger_DelEntry

/-- The number and alias that the kind's generator gives out. -/
def Gen : Kind → System → Option (Entry × System)
  | portMapping => CosaNatGen
  | portTrigger => CosaNatGenForTriggerEntry

theorem AddEntry_eq (k : Kind) (s : System) : k.AddEntry s = (k.Gen s).map (addLink k) := by
  cases k <;> rfl

theorem Commit_eq (k : Kind) : k.Commit = commitEntry k := by
  cases k <;> rfl

theorem DelEntry_eq (k : Kind) : k.DelEntry = delEntry k := by
  cases k <;> rfl

end Kind

end CcspPandM.NatLists
