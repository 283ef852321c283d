import Mathlib.Data.List.Infix
import Mathlib.Data.List.Sort
import CcspPandM.Registry

/-!
The IP interfaces of the middle layer and their registry. An entry that is not yet
committed has a folder of its own below "IPInterfaceHalfAdded", named by its kind and
its numbers; the next instance numbers have folders beside it. At start the committed
entries come from the backend and the others are restored from these folders.
-/
namespace CcspPandM.IpRegistry

open CString Registry

abbrev ULONG := BitVec 32

def COSA_IREP_FOLDER_NAME_IPIF : CStr := "IPInterface".toList

def COSA_IREP_FOLDER_NAME_IPIF_HA : CStr := "IPInterfaceHalfAdded".toList

def COSA_DML_RR_NAME_IPIF_Prefix : CStr := "IPInterface".toList

def COSA_DML_RR_NAME_IPIF_IPV4_Prefix : CStr := "IPV4Address".toList

def COSA_DML_RR_NAME_IPIF_IPV6_Prefix : CStr := "IPV6Address".toList

def COSA_DML_RR_NAME_IPIF_IPV6Pre_Prefix : CStr := "IPV6Prefix".toList

def COSA_DML_RR_NAME_IPIF_Upper_InsNum : CStr := "UpperInstanceNumber".toList

def COSA_DML_RR_NAME_IPIF_InsNum : CStr := "InstanceNumber".toList

def COSA_DML_RR_NAME_IPIF_Alias : CStr := "Alias".toList

def COSA_DML_RR_NAME_IPIF_NextInsNum : CStr := "NextInstanceNumber".toList

def COSA_DML_RR_NAME_IPIF_IPv4_NextInsNum : CStr := "NextIPv4InstanceNum".toList

def COSA_DML_RR_NAME_IPIF_IPv6_NextInsNum : CStr := "NextIPv6InstanceNum".toList

def COSA_DML_RR_NAME_IPIF_IPv6Pre_NextInsNum : CStr := "NextIPv6PreInstanceNum".toList

structure Child where
  InstanceNumber : ULONG
  Alias : CStr
  bNew : Bool
  deriving DecidableEq, Repr

structure Interface where
  InstanceNumber : ULONG
  Alias : CStr
  bNew : Bool
  IPV4List : List Child
  IPV6List : List Child
  IPV6PrefixList : List Child
  ulNextIPV4InsNum : ULONG
  ulNextIPV6InsNum : ULONG
  ulNextIPV6PreInsNum : ULONG
  deriving DecidableEq, Repr

structure DatamodelIp where
  ulNextInterfaceInsNum : ULONG
  InterfaceList : List Interface
  deriving DecidableEq, Repr

structure BackendInterface where
  InstanceNumber : ULONG
  Alias : CStr
  v4Addrs : List (ULONG × CStr)
  deriving DecidableEq, Repr

section Lists

variable {α : Type} (number : α → ULONG)

/-- `CosaSListPushEntryByInsNum`: before the first entry with a larger number. -/
def pushEntryByInsNum (l : List α) (a : α) : List α :=
  l.orderedInsert (fun x y => (number x).toNat < (number y).toNat) a

theorem pushEntry_perm (l : List α) (a : α) : (pushEntryByInsNum number l a).Perm (a :: l) :=
  List.perm_orderedInsert _ a l

end Lists

/-- The name that is printed into `FolderName[32]`. -/
def folderName (t : CStr) : CStr := (Buf.sprintf_s t : Buf 32).text

/-- The folder of the next numbers is written, then that of the entry. -/
def CosaIPRegAddInfo (pNextInsNumName : CStr) (ulNextInsNum : ULONG) (pPreffix : CStr)
    (ulUpperInsNum : ULONG) (pAlias : CStr) (InstanceNumber : ULONG) (pPoamIrepFoIPIF : Folder) :
    Folder :=
  let next := pPoamIrepFoIPIF.AddFolder
    (folderName (pNextInsNumName ++ decimal ulUpperInsNum.toNat)) fun fo =>
      (fo.DelRecord pNextInsNumName).AddRecord pNextInsNumName (.uint32 ulNextInsNum)
  next.AddFolder COSA_IREP_FOLDER_NAME_IPIF_HA fun ha =>
    ha.AddFolder
      (folderName (pPreffix ++ decimal ulUpperInsNum.toNat ++ decimal InstanceNumber.toNat))
      fun fo =>
        let upper := if 0 ≠ ulUpperInsNum then
          fo.AddRecord COSA_DML_RR_NAME_IPIF_Upper_InsNum (.uint32 ulUpperInsNum) else fo
        (upper.AddRecord COSA_DML_RR_NAME_IPIF_InsNum (.uint32 InstanceNumber)).AddRecord
          COSA_DML_RR_NAME_IPIF_Alias (.string pAlias)

/-- The folder is deleted under the name it was opened with. -/
def CosaIPRegDelInfo (name : CStr) (pPoamIrepFoIPIF : Folder) : Folder :=
  pPoamIrepFoIPIF.AddFolder COSA_IREP_FOLDER_NAME_IPIF_HA fun ha => ha.DelFolder name

/-- The list and the two numbers that keep their value when a record is missing. -/
structure Scan where
  list : List Interface
  ulInstanceNumber : ULONG
  ulUpperInstanceNumber : ULONG

def parentIndex (list : List Interface) (upper : ULONG) : Option ℕ :=
  if list = [] then none
  else some ((list.findIdx? (fun i => i.InstanceNumber = upper)).getD (list.length - 1))

def pushChild (pFolderName : CStr) (c : Child) (i : Interface) : Interface :=
  { i with
    IPV4List := if COSA_DML_RR_NAME_IPIF_IPV4_Prefix <:+: pFolderName then
      pushEntryByInsNum Child.InstanceNumber i.IPV4List c else i.IPV4List
    IPV6List := if COSA_DML_RR_NAME_IPIF_IPV6_Prefix <:+: pFolderName then
      pushEntryByInsNum Child.InstanceNumber i.IPV6List c else i.IPV6List
    IPV6PrefixList := if COSA_DML_RR_NAME_IPIF_IPV6Pre_Prefix <:+: pFolderName then
      pushEntryByInsNum Child.InstanceNumber i.IPV6PrefixList c else i.IPV6PrefixList }

/-- One folder; `none` ends the walk. -/
def scanFolder (st : Scan) (pFolderName : CStr) (fo : Folder) : Option Scan :=
  if COSA_DML_RR_NAME_IPIF_Prefix <:+: pFolderName then
    let number := (fo.getUint32 COSA_DML_RR_NAME_IPIF_InsNum).getD st.ulInstanceNumber
    let pIPInterface : Interface :=
      { InstanceNumber := number
        Alias := (fo.getString COSA_DML_RR_NAME_IPIF_Alias).getD []
        bNew := true
        IPV4List := []
        IPV6List := []
        IPV6PrefixList := []
        ulNextIPV4InsNum := 1
        ulNextIPV6InsNum := 1
        ulNextIPV6PreInsNum := 1 }
    some { st with
      list := pushEntryByInsNum Interface.InstanceNumber st.list pIPInterface
      ulInstanceNumber := number }
  else
    let upper := (fo.getUint32 COSA_DML_RR_NAME_IPIF_Upper_InsNum).getD st.ulUpperInstanceNumber
    if upper = 0 then none
    else
      match parentIndex st.list upper with
      | none => none
      | some i =>
        let number := (fo.getUint32 COSA_DML_RR_NAME_IPIF_InsNum).getD st.ulInstanceNumber
        let c : Child := ⟨number, (fo.getString COSA_DML_RR_NAME_IPIF_Alias).getD [], true⟩
        some ⟨st.list.modify i (pushChild pFolderName c), number, upper⟩

def scanFolders (st : Scan) : List (CStr × Folder) → List Interface
  | [] => st.list
  | (pFolderName, fo) :: rest =>
    match scanFolder st pFolderName fo with
    | none => st.list
    | some st' => scanFolders st' rest

def CosaIpRegGetInfo (pPoamIrepFoIPHA : Folder) (list : List Interface) : List Interface :=
  scanFolders ⟨list, 0, 0⟩ pPoamIrepFoIPHA.folders

/-- The number after a committed one, which is never zero. -/
def nextAfter (n : ULONG) : ULONG := if n + 1 = 0 then 1 else n + 1

def advance (next number : ULONG) : ULONG := if next ≤ number then nextAfter number else next

theorem nextAfter_ne_zero (n : ULONG) : nextAfter n ≠ 0 := by
  rw [nextAfter]
  split
  · decide
  · assumption

theorem advance_ne_zero {next : ULONG} (h : next ≠ 0) (n : ULONG) : advance next n ≠ 0 := by
  rw [advance]
  split
  · exact nextAfter_ne_zero n
  · exact h

theorem toNat_nextAfter (n : ULONG) : (nextAfter n).toNat = n.toNat % (2 ^ 32 - 1) + 1 := by
  have hlt := n.isLt
  have hone : (1 : ULONG).toNat = 1 := rfl
  have hzero : (0 : ULONG).toNat = 0 := rfl
  have hsucc : (n + 1).toNat = (n.toNat + 1) % 2 ^ 32 := by rw [BitVec.toNat_add, hone]
  rw [nextAfter]
  split
  · next h =>
    rw [h, hzero] at hsucc
    omega
  · next h =>
    have hne : n.toNat ≠ 2 ^ 32 - 1 := by
      intro hmax
      apply h
      apply BitVec.eq_of_toNat_eq
      omega
    omega

def storedNext (pPoamIrepFoIPIF : Folder) (name : CStr) (upper : ULONG) : ULONG :=
  (((pPoamIrepFoIPIF.GetFolder (folderName (name ++ decimal upper.toNat))).bind
    (fun fo => fo.getUint32 name)).getD 1)

/-- The addresses of a committed interface, numbered where the backend gives no number. -/
def loadV4Addrs : List (ULONG × CStr) → ULONG → List Child → List Child × ULONG
  | [], next, list => (list, next)
  | (number, pAlias) :: rest, next, list =>
    if 0 ≠ number then
      loadV4Addrs rest (advance next number)
        (pushEntryByInsNum Child.InstanceNumber list ⟨number, pAlias, false⟩)
    else
      loadV4Addrs rest (nextAfter next)
        (pushEntryByInsNum Child.InstanceNumber list
          ⟨next, "IPv4Address".toList ++ decimal next.toNat, false⟩)

def loadInterface (pPoamIrepFoIPIF : Folder) (b : BackendInterface) (number : ULONG)
    (pAlias : CStr) : Interface :=
  let next := storedNext pPoamIrepFoIPIF COSA_DML_RR_NAME_IPIF_IPv4_NextInsNum number
  let v4 := loadV4Addrs b.v4Addrs next []
  { InstanceNumber := number
    Alias := pAlias
    bNew := false
    IPV4List := v4.1
    IPV6List := []
    IPV6PrefixList := []
    ulNextIPV4InsNum := v4.2
    ulNextIPV6InsNum := storedNext pPoamIrepFoIPIF COSA_DML_RR_NAME_IPIF_IPv6_NextInsNum number
    ulNextIPV6PreInsNum :=
      storedNext pPoamIrepFoIPIF COSA_DML_RR_NAME_IPIF_IPv6Pre_NextInsNum number }

def loadInterfaces (pPoamIrepFoIPIF : Folder) : List BackendInterface → DatamodelIp → DatamodelIp
  | [], o => o
  | b :: rest, o =>
    let next := o.ulNextInterfaceInsNum
    let loaded := if 0 ≠ b.InstanceNumber then
        (b.InstanceNumber, b.Alias, advance next b.InstanceNumber)
      else (next, "Interface".toList ++ decimal (nextAfter next).toNat, nextAfter next)
    loadInterfaces pPoamIrepFoIPIF rest
      { ulNextInterfaceInsNum := loaded.2.2
        InterfaceList := pushEntryByInsNum Interface.InstanceNumber o.InterfaceList
          (loadInterface pPoamIrepFoIPIF b loaded.1 loaded.2.1) }

/-- The folder of the half-added entries is looked up in the wrong folder; adding it
finds it all the same. -/
def CosaIPInitialize (backend : List BackendInterface) (pPoamIrepFoCOSA : Folder) :
    DatamodelIp × Folder :=
  let pPoamIrepFoIPIF := (pPoamIrepFoCOSA.GetFolder COSA_IREP_FOLDER_NAME_IPIF).getD Folder.empty
  let ipif := match pPoamIrepFoCOSA.GetFolder COSA_IREP_FOLDER_NAME_IPIF_HA with
    | some _ => pPoamIrepFoIPIF
    | none => pPoamIrepFoIPIF.AddFolder COSA_IREP_FOLDER_NAME_IPIF_HA id
  let ha := match pPoamIrepFoCOSA.GetFolder COSA_IREP_FOLDER_NAME_IPIF_HA with
    | some ha => ha
    | none => (ipif.GetFolder COSA_IREP_FOLDER_NAME_IPIF_HA).getD Folder.empty
  let o := loadInterfaces ipif backend
    ⟨storedNext ipif COSA_DML_RR_NAME_IPIF_NextInsNum 0, []⟩
  ({ o with InterfaceList := CosaIpRegGetInfo ha o.InterfaceList },
    pPoamIrepFoCOSA.AddFolder COSA_IREP_FOLDER_NAME_IPIF fun _ => ipif)

end CcspPandM.IpRegistry
