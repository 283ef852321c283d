import CcspPandM.IpRegistry
import CcspPandM.ScanText

/-!
The five tables of the parental control module: blocked URLs, trusted users, services,
trusted users of services, and devices. Utopia keeps the committed entries. An entry that
is not yet committed has a folder named by its alias; all five tables open the same
folder for these and read the same record for their next number.
-/
namespace CcspPandM.ParentalControl

open CString IpRegistry Registry ScanText

inductive Table where
  | blkUrl
  | trustedUser
  | msServ
  | msTrustedUser
  | mdDev
  deriving DecidableEq, Repr

def COSA_IREP_FOLDER_NAME_PARENTALCONTROL : CStr := "ParentalControl".toList

def COSA_DML_RR_NAME_PARENTALCONTROL_Alias : CStr := "PCAlias".toList

def COSA_DML_RR_NAME_PARENTALCONTROL_InsNum : CStr := "PCInstanceNumber".toList

def COSA_DML_RR_NAME_PARENTALCONTROL_NextInsNumber : CStr := "PCNextInstanceNumber".toList

def COSA_DML_RR_NAME_MSSERV_Alias : CStr := "MSSERVAlias".toList

def COSA_DML_RR_NAME_MSSERV_InsNum : CStr := "MSSERVInstanceNumber".toList

def COSA_DML_RR_NAME_MSSERV_NextInsNumber : CStr := "MSSERVNextInstanceNumber".toList

def COSA_DML_RR_NAME_MSTRUSTEDUSER_Alias : CStr := "MSTRUSTEDUSERAlias".toList

def COSA_DML_RR_NAME_MSTRUSTEDUSER_InsNum : CStr := "MSTRUSTEDUSERInstanceNumber".toList

def COSA_DML_RR_NAME_MSTRUSTEDUSER_NextInsNumber : CStr := "MSTRUSTEDUSERNextInstanceNumber".toList

def COSA_DML_RR_NAME_MDDEV_Alias : CStr := "MDDEVAlias".toList

def COSA_DML_RR_NAME_MDDEV_InsNum : CStr := "MDDEVInstanceNumber".toList

def COSA_DML_RR_NAME_MDDEV_NextInsNumber : CStr := "MDDEVNextInstanceNumber".toList

namespace Table

def rrAlias : Table → CStr
  | blkUrl => COSA_DML_RR_NAME_PARENTALCONTROL_Alias
  | trustedUser => COSA_DML_RR_NAME_PARENTALCONTROL_Alias
  | msServ => COSA_DML_RR_NAME_MSSERV_Alias
  | msTrustedUser => COSA_DML_RR_NAME_MSTRUSTEDUSER_Alias
  | mdDev => COSA_DML_RR_NAME_MDDEV_Alias

def rrInsNum : Table → CStr
  | blkUrl => COSA_DML_RR_NAME_PARENTALCONTROL_InsNum
  | trustedUser => COSA_DML_RR_NAME_PARENTALCONTROL_InsNum
  | msServ => COSA_DML_RR_NAME_MSSERV_InsNum
  | msTrustedUser => COSA_DML_RR_NAME_MSTRUSTEDUSER_InsNum
  | mdDev => COSA_DML_RR_NAME_MDDEV_InsNum

def rrNextInsNumber : Table → CStr
  | blkUrl => COSA_DML_RR_NAME_PARENTALCONTROL_NextInsNumber
  | trustedUser => COSA_DML_RR_NAME_PARENTALCONTROL_NextInsNumber
  | msServ => COSA_DML_RR_NAME_MSSERV_NextInsNumber
  | msTrustedUser => COSA_DML_RR_NAME_MSTRUSTEDUSER_NextInsNumber
  | mdDev => COSA_DML_RR_NAME_MDDEV_NextInsNumber

def aliasText : Table → CStr
  | blkUrl => "cpe-BlockedURL-".toList
  | trustedUser => "cpe-TrustedUser-".toList
  | msServ => "cpe-MSService-".toList
  | msTrustedUser => "cpe-MSTrustedUser-".toList
  | mdDev => "cpe-MDDevice-".toList

end Table

/-- The alias as `sprintf_s` prints it, with the number as an `int`; it fits `Alias[256]`. -/
def aliasOf (T : Table) (number : ULONG) : CStr := T.aliasText ++ intText number

structure Entry where
  InstanceNumber : ULONG
  Alias : CStr
  deriving DecidableEq, Repr

/-- An entry in a list; `hPoamIrepFo` is the folder it was put into. -/
structure ContextLink where
  InstanceNumber : ULONG
  Alias : CStr
  bNew : Bool
  hPoamIrepFo : Option CStr
  deriving DecidableEq, Repr

def ContextLink.entry (l : ContextLink) : Entry := ⟨l.InstanceNumber, l.Alias⟩

structure Box where
  utopia : Table → List Entry
  pPoamIrepFoCOSA : Folder
  list : Table → List ContextLink
  ulNextInsNum : Table → ULONG

def parentalControl (cosa : Folder) : Folder :=
  (cosa.GetFolder COSA_IREP_FOLDER_NAME_PARENTALCONTROL).getD Folder.empty

/-- One entry of Utopia, numbered where it has no number yet, and the next number. -/
def loadEntry (T : Table) (e : Entry) (next : ULONG) : Entry × ULONG :=
  if e.InstanceNumber ≠ 0 then (e, advance next e.InstanceNumber)
  else (⟨next, aliasOf T next⟩, nextAfter next)

def loadEntries (T : Table) :
    List Entry → ULONG → List ContextLink → List Entry × ULONG × List ContextLink
  | [], next, list => ([], next, list)
  | e :: rest, next, list =>
    let loaded := loadEntry T e next
    let others := loadEntries T rest loaded.2 (pushEntryByInsNum ContextLink.InstanceNumber list
      ⟨loaded.1.InstanceNumber, loaded.1.Alias, false, none⟩)
    (loaded.1 :: others.1, others.2)

/-- The walk over the folders; the number keeps its value when a record is missing. -/
def scanFolders (T : Table) : ULONG → List (CStr × Folder) → List ContextLink → List ContextLink
  | _, [], list => list
  | ulInstanceNumber, (pFolderName, sp) :: rest, list =>
    let number := (sp.getUint32 T.rrInsNum).getD ulInstanceNumber
    scanFolders T number rest (pushEntryByInsNum ContextLink.InstanceNumber list
      ⟨number, (sp.getString T.rrAlias).getD [], true, some pFolderName⟩)

def CosaPcRegGetInfo (T : Table) (fo : Folder) (list : List ContextLink) : List ContextLink :=
  scanFolders T 0 fo.folders list

def recordEntry (T : Table) (l : ContextLink) (sp : Folder) : Folder :=
  (sp.AddRecord T.rrInsNum (.uint32 l.InstanceNumber)).AddRecord T.rrAlias (.string l.Alias)

def CosaPcRegAddInfo (T : Table) (next : ULONG) (l : ContextLink) (fo : Folder) : Folder :=
  ((fo.DelRecord T.rrNextInsNumber).AddRecord T.rrNextInsNumber (.uint32 next)).AddFolder
    l.Alias (recordEntry T l)

def CosaPcRegDelInfo (l : ContextLink) (fo : Folder) : Folder :=
  match l.hPoamIrepFo with
  | none => fo
  | some name => fo.DelFolder name

def initializeTable (T : Table) (fo : Folder) (utopia : List Entry) :
    List Entry × ULONG × List ContextLink :=
  let next := (fo.getUint32 COSA_DML_RR_NAME_PARENTALCONTROL_NextInsNumber).getD 1
  let loaded := loadEntries T utopia next []
  (loaded.1, loaded.2.1, CosaPcRegGetInfo T fo loaded.2.2)

def CosaParentalControlInitialize (s : Box) : Box :=
  let cosa := match s.pPoamIrepFoCOSA.GetFolder COSA_IREP_FOLDER_NAME_PARENTALCONTROL with
    | some _ => s.pPoamIrepFoCOSA
    | none => s.pPoamIrepFoCOSA.AddFolder COSA_IREP_FOLDER_NAME_PARENTALCONTROL id
  let fo := parentalControl cosa
  { utopia := fun T => (initializeTable T fo (s.utopia T)).1
    pPoamIrepFoCOSA := cosa
    list := fun T => (initializeTable T fo (s.utopia T)).2.2
    ulNextInsNum := fun T => (initializeTable T fo (s.utopia T)).2.1 }

def change (s : Box) (T : Table) (utopia : List Entry) (list : List ContextLink)
    (fo : Folder → Folder) : Box :=
  { s with
    utopia := Function.update s.utopia T utopia
    pPoamIrepFoCOSA := s.pPoamIrepFoCOSA.AddFolder COSA_IREP_FOLDER_NAME_PARENTALCONTROL fo
    list := Function.update s.list T list }

/-- The end of the five `AddEntry` functions: the entry is listed and recorded. -/
def addLink (T : Table) (number next : ULONG) (s : Box) : ULONG × Box :=
  let l : ContextLink := ⟨number, aliasOf T number, true, some (aliasOf T number)⟩
  let t := change s T (s.utopia T) (pushEntryByInsNum ContextLink.InstanceNumber (s.list T) l)
    (CosaPcRegAddInfo T next l)
  (number, { t with ulNextInsNum := Function.update s.ulNextInsNum T next })

/-- The next number is given out and goes from its largest value to 1. -/
def addEntry (T : Table) (s : Box) : ULONG × Box :=
  addLink T (s.ulNextInsNum T) (nextAfter (s.ulNextInsNum T)) s

def PcBlkURL_AddEntry : Box → ULONG × Box := addEntry .blkUrl

def PcTrustedUser_AddEntry : Box → ULONG × Box := addEntry .trustedUser

def MSServ_AddEntry : Box → ULONG × Box := addEntry .msServ

def MSTrustedUser_AddEntry : Box → ULONG × Box := addEntry .msTrustedUser

/-- Here the entry itself gets the number 1 when the next number runs over. -/
def MDDev_AddEntry (s : Box) : ULONG × Box :=
  let next := s.ulNextInsNum .mdDev
  if next + 1 = 0 then addLink .mdDev 1 1 s else addLink .mdDev next (next + 1) s

/-- A new entry goes to Utopia and out of the registry; another one is set there. -/
def commitLink (T : Table) (i : ℕ) (l : ContextLink) (s : Box) : Bool × Box :=
  if l.bNew then
    (true, change s T (s.utopia T ++ [l.entry])
      ((s.list T).modify i fun l => { l with bNew := false }) (CosaPcRegDelInfo l))
  else
    match (s.utopia T).findIdx? (fun e => e.InstanceNumber = l.InstanceNumber) with
    | none => (false, s)
    | some k => (true, { s with utopia := Function.update s.utopia T ((s.utopia T).set k l.entry) })

/-- The entry is deleted in Utopia first, where one that was never committed is absent. -/
def delLink (T : Table) (i : ℕ) (l : ContextLink) (s : Box) : Bool × Box :=
  if ∀ e ∈ s.utopia T, e.InstanceNumber ≠ l.InstanceNumber then (false, s)
  else
    (true, change s T ((s.utopia T).eraseP fun e => e.InstanceNumber = l.InstanceNumber)
      ((s.list T).eraseIdx i) (if l.bNew then CosaPcRegDelInfo l else id))

def onEntry (f : Table → ℕ → ContextLink → Box → Bool × Box) (T : Table) (i : ℕ) (s : Box) :
    Option (Bool × Box) :=
  ((s.list T)[i]?).map fun l => f T i l s

def PcBlkURL_Commit : ℕ → Box → Option (Bool × Box) := onEntry commitLink .blkUrl

def PcTrustedUser_Commit : ℕ → Box → Option (Bool × Box) := onEntry commitLink .trustedUser

def MSServ_Commit : ℕ → Box → Option (Bool × Box) := onEntry commitLink .msServ

def MSTrustedUser_Commit : ℕ → Box → Option (Bool × Box) := onEntry commitLink .msTrustedUser

def MDDev_Commit : ℕ → Box → Option (Bool × Box) := onEntry commitLink .mdDev

def PcBlkURL_DelEntry : ℕ → Box → Option (Bool × Box) := onEntry delLink .blkUrl

def PcTrustedUser_DelEntry : ℕ → Box → Option (Bool × Box) := onEntry delLink .trustedUser

def MSServ_DelEntry : ℕ → Box → Option (Bool × Box) := onEntry delLink .msServ

def MSTrustedUser_DelEntry : ℕ → Box → Option (Bool × Box) := onEntry delLink .msTrustedUser

def MDDev_DelEntry : ℕ → Box → Option (Bool × Box) := onEntry delLink .mdDev

namespace Table

def AddEntry : Table → Box → ULONG × Box
  | blkUrl => PcBlkURL_AddEntry
  | trustedUser => PcTrustedUser_AddEntry
  | msServ => MSServ_AddEntry
  | msTrustedUser => MSTrustedUser_AddEntry
  | mdDev => MDDev_AddEntry

def Commit : Table → ℕ → Box → Option (Bool × Box)
  | blkUrl => PcBlkURL_Commit
  | trustedUser => PcTrustedUser_Commit
  | msServ => MSServ_Commit
  | msTrustedUser => MSTrustedUser_Commit
  | mdDev => MDDev_Commit

def DelEntry : Table → ℕ → Box → Option (Bool × Box)
  | blkUrl => PcBlkURL_DelEntry
  | trustedUser => PcTrustedUser_DelEntry
  | msServ => MSServ_DelEntry
  | msTrustedUser => MSTrustedUser_DelEntry
  | mdDev => MDDev_DelEntry

theorem Commit_eq (T : Table) : T.Commit = onEntry commitLink T := by
  cases T <;> rfl

theorem DelEntry_eq (T : Table) : T.DelEntry = onEntry delLink T := by
  cases T <;> rfl

/-- The number that is given out next. -/
def number (T : Table) (s : Box) : ULONG :=
  if T = mdDev ∧ s.ulNextInsNum mdDev + 1 = 0 then 1 else s.ulNextInsNum T

theorem AddEntry_eq (T : Table) (s : Box) :
    T.AddEntry s = addLink T (T.number s) (nextAfter (s.ulNextInsNum T)) s := by
  cases T with
  | mdDev =>
    by_cases h : s.ulNextInsNum mdDev + 1 = 0
    · simp only [AddEntry, MDDev_AddEntry, number, nextAfter, true_and, if_pos h]
    · simp only [AddEntry, MDDev_AddEntry, number, nextAfter, true_and, if_neg h]
  | _ => rfl

theorem number_ne_zero {T : Table} {s : Box} (h : s.ulNextInsNum T ≠ 0) : T.number s ≠ 0 := by
  rw [number]
  split
  · decide
  · exact h

end Table

end CcspPandM.ParentalControl
