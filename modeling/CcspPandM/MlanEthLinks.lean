import CcspPandM.BitWindow
import CcspPandM.MlanInterfaces
import CcspPandM.SavedTable
import CcspPandM.TextSearch

/-!
The Ethernet links of a device with several LANs. A link in the store names its lower
layer by one of two pairs of records, of which saving writes only the second and loading
prefers the first. The reader of an entry copies its dynamic part from the static one.
-/
namespace CcspPandM.MlanEthLinks

open BitWindow CString KeyedList Runs SavedTable TextSearch
open MlanInterfaces (ULONG ANSC_STATUS COSA_DML_IF_STATUS COSA_DML_IF_STATS Record emptyStats
  readBool readNumber readText readText_saved_iff strcpy_s)

section Code

inductive COSA_DML_LINK_TYPE where
  /-- The 0 of a link without a type. -/
  | unset
  | Eth
  | EthLink
  | EthVlan
  | Usb
  | Hpna
  | Moca
  | HomePlug
  | Upa
  | WiFiSsid
  | Bridge
  | PPP
  | DOCSIS
  | LAST
  deriving DecidableEq

/-- The rows that are filled; the last two of the array have type 0 and no text. -/
def g_linktype_map : List (CStr × COSA_DML_LINK_TYPE) :=
  [("Ethernet".toList, .Eth), ("EthLink".toList, .EthLink),
    ("Ethernet.VLANTermination".toList, .EthVlan), ("USB".toList, .Usb), ("HPNA".toList, .Hpna),
    ("MoCA".toList, .Moca), ("HomePlug".toList, .HomePlug), ("UPA".toList, .Upa),
    ("WiFi".toList, .WiFiSsid), ("Bridge".toList, .Bridge), ("PPP".toList, .PPP)]

def CosaUtilGetLinkTypeFromStr (pLinkTypeStr : CStr) : COSA_DML_LINK_TYPE :=
  match g_linktype_map.find? fun row => (strstr row.1 pLinkTypeStr).isSome with
  | some row => row.2
  | none => .LAST

/-- NULL for a type without a text. -/
def CosaUtilGetLinkTypeStr (LinkType : COSA_DML_LINK_TYPE) : Option CStr :=
  (g_linktype_map.find? fun row => row.2 = LinkType).map Prod.fst

structure COSA_DML_ETH_LINK_CFG where
  InstanceNumber : ULONG
  Alias : Buf 512
  bEnabled : Bool
  bPriorityTagging : Bool
  LinkType : COSA_DML_LINK_TYPE
  LinkName : Buf 512
  LinkInstNum : ULONG
  LowerLayers : Buf 256

structure COSA_DML_ETH_LINK_SINFO where
  Name : Bytes 512
  MacAddress : Bytes 6

structure COSA_DML_ETH_LINK_DINFO where
  Status : COSA_DML_IF_STATUS
  LastChange : ULONG

structure COSA_DML_ETH_LINK_FULL where
  Cfg : COSA_DML_ETH_LINK_CFG
  StaticInfo : COSA_DML_ETH_LINK_SINFO
  DynamicInfo : COSA_DML_ETH_LINK_DINFO

structure DMSB_TR181_ETH_LINK extends COSA_DML_ETH_LINK_FULL where
  LastStats : COSA_DML_IF_STATS

/-- The records of a link under `dmsb.EthLink.%d.`. -/
inductive EthLinkRecord where
  | Enable
  | Alias
  | PriorityTagging
  | l2net
  | l2netType
  | LowerLayerType
  | LowerLayerInstNum
  deriving DecidableEq

abbrev Records := EthLinkRecord → Option Record

/-- The store: the records of the links, and the names `dmsb.l2net.%d.Name`. -/
structure Psm where
  EthLink : Store ULONG Records
  l2net_name : ULONG → Option Record

structure DMSB_TR181_ETH_CONTEXT where
  EthLinkList : List DMSB_TR181_ETH_LINK
  psm : Psm

structure System where
  getIfStatus : Bytes 512 → COSA_DML_IF_STATUS
  up : Bytes 512 → Bool
  _getMac : Bytes 512 → Option (Bytes 6)
  CosaUtilGetIfStats : Bytes 512 → COSA_DML_IF_STATS
  CosaUtilGetLowerLayerName : COSA_DML_LINK_TYPE → ULONG → Bytes 512
  tick : ULONG

/-- `strcpy_s` into `Name`, which clears what is behind the text. -/
def writeName (t : CStr) : Bytes 512 := fun i =>
  match (strcpy_s t : Buf 512).text[(i : ℕ)]? with
  | some c => BitVec.ofNat 8 c.toNat
  | none => 0

def noName : Bytes 512 := fun _ => 0

section Loading

/-- A priority tag is only read from a boolean. -/
def readTagging : Option Record → Bool
  | some (.boolean varBool) => varBool
  | _ => false

def readLinkType : Option Record → COSA_DML_LINK_TYPE
  | some (.string varString) => CosaUtilGetLinkTypeFromStr varString
  | _ => .LAST

def loadCfg (i : ULONG) (records : Records) : COSA_DML_ETH_LINK_CFG :=
  let LinkType := readLinkType (records .LowerLayerType)
  let Cfg : COSA_DML_ETH_LINK_CFG :=
    { InstanceNumber := i
      Alias := readText (records .Alias)
      bEnabled := readBool (records .Enable)
      bPriorityTagging := readTagging (records .PriorityTagging)
      LinkType := LinkType
      LinkName := Buf.empty
      LinkInstNum := 0
      LowerLayers := Buf.empty }
  if LinkType ≠ .LAST then
    { Cfg with LinkInstNum := readNumber 0 (records .LowerLayerInstNum) }
  else
    { Cfg with
      LinkInstNum := readNumber 0 (records .l2net)
      LinkType := readLinkType (records .l2netType) }

def fetchName (psm : Psm) (LinkInstNum : ULONG) (Name : Bytes 512) : Bytes 512 :=
  if LinkInstNum = 0 then Name
  else
    match psm.l2net_name LinkInstNum with
    | some (.string varString) => writeName varString
    | _ => Name

/-- The MAC address, if the name is not empty and the system knows one. -/
def withMac (sys : System) (StaticInfo : COSA_DML_ETH_LINK_SINFO) : COSA_DML_ETH_LINK_SINFO :=
  if StaticInfo.Name 0 = 0 then StaticInfo
  else { StaticInfo with MacAddress := (sys._getMac StaticInfo.Name).getD StaticInfo.MacAddress }

def loadLink (psm : Psm) (sys : System) (i : ULONG) : DMSB_TR181_ETH_LINK :=
  let records := psm.EthLink.content i
  let Cfg := loadCfg i records
  let Name :=
    if readLinkType (records .LowerLayerType) ≠ .LAST then
      sys.CosaUtilGetLowerLayerName Cfg.LinkType Cfg.LinkInstNum
    else fetchName psm Cfg.LinkInstNum noName
  { Cfg := Cfg
    StaticInfo := withMac sys ⟨Name, fun _ => 0⟩
    DynamicInfo := ⟨.Unknown, sys.tick⟩
    LastStats := emptyStats }

def CosaDmlEthLinkLoadPsm (listing : Listing ULONG) (psm : Psm) (sys : System) :
    List DMSB_TR181_ETH_LINK :=
  (listing.order psm.EthLink.instances).map (loadLink psm sys)

end Loading

section Saving

def PSM_Set_Record_Value2 (psm : Psm) (i : ULONG) (field : EthLinkRecord) (r : Record) : Psm :=
  { psm with
    EthLink := psm.EthLink.save i fun records => Function.update records field (some r) }

/-- The records below `dmsb.EthLink.%d.` go with it. -/
def PSM_Del_Record (psm : Psm) (i : ULONG) : Psm :=
  { psm with EthLink := psm.EthLink.delete i }

/-- What is saved; `RecordValue` holds 64 bytes and is emptied by a text that does not fit or is
NULL. -/
def savedRecords (pCfg : COSA_DML_ETH_LINK_CFG) : List (EthLinkRecord × Record) :=
  [(.Enable, .boolean pCfg.bEnabled),
    (.Alias, .string (strcpy_s pCfg.Alias.text : Buf 64).text),
    (.PriorityTagging, .boolean pCfg.bPriorityTagging),
    (.l2net, .unsignedInt pCfg.LinkInstNum),
    (.l2netType, .string
      (strcpy_s ((CosaUtilGetLinkTypeStr pCfg.LinkType).getD []) : Buf 64).text)]

def CosaDmlEthLinkSavePsm (psm : Psm) (pCfg : COSA_DML_ETH_LINK_CFG) : Psm :=
  (savedRecords pCfg).foldl
    (fun psm record => PSM_Set_Record_Value2 psm pCfg.InstanceNumber record.1 record.2) psm

def CosaDmlEthLinkDelPsm (psm : Psm) (pCfg : COSA_DML_ETH_LINK_CFG) : Psm :=
  PSM_Del_Record psm pCfg.InstanceNumber

end Saving

def instanceOf (pEthLink : DMSB_TR181_ETH_LINK) : ULONG := pEthLink.Cfg.InstanceNumber

def CosaDmlEthLinkFindByInstNum (ctx : DMSB_TR181_ETH_CONTEXT) (ulInstNum : ULONG) : Option ℕ :=
  ctx.EthLinkList.findIdx? fun pEthLink => instanceOf pEthLink = ulInstNum

/-- `LastChange` in a `DynamicInfo` that is copied from `StaticInfo`: the bytes 4 to 7 of the
name, the lowest first. -/
def copiedLastChange (StaticInfo : COSA_DML_ETH_LINK_SINFO) : ULONG :=
  StaticInfo.Name 7 ++ StaticInfo.Name 6 ++ StaticInfo.Name 5 ++ StaticInfo.Name 4

def CosaDmlEthLinkGetEntry (sys : System) (ctx : DMSB_TR181_ETH_CONTEXT) (ulIndex : ℕ) :
    ANSC_STATUS × Option COSA_DML_ETH_LINK_FULL :=
  match ctx.EthLinkList[ulIndex]? with
  | none => (.FAILURE, none)
  | some pEthLink =>
    (.SUCCESS, some
      { Cfg := pEthLink.Cfg
        StaticInfo := pEthLink.StaticInfo
        DynamicInfo :=
          ⟨sys.getIfStatus pEthLink.StaticInfo.Name, copiedLastChange pEthLink.StaticInfo⟩ })

def CosaDmlEthLinkSetValues (ctx : DMSB_TR181_ETH_CONTEXT) (ulIndex : ℕ) (pAlias : CStr) :
    ANSC_STATUS × DMSB_TR181_ETH_CONTEXT :=
  match ctx.EthLinkList[ulIndex]? with
  | none => (.CANT_FIND, ctx)
  | some pEthLink =>
    let pEthLink := { pEthLink with Cfg := { pEthLink.Cfg with Alias := strcpy_s pAlias } }
    let EthLinkList := ctx.EthLinkList.set ulIndex pEthLink
    if 512 ≤ pAlias.length then (.FAILURE, { ctx with EthLinkList := EthLinkList })
    else (.SUCCESS, ⟨EthLinkList, CosaDmlEthLinkSavePsm ctx.psm pEthLink.Cfg⟩)

def CosaDmlEthLinkAddEntry (sys : System) (ctx : DMSB_TR181_ETH_CONTEXT)
    (pEntry : COSA_DML_ETH_LINK_FULL) : ANSC_STATUS × DMSB_TR181_ETH_CONTEXT :=
  let Name := fetchName ctx.psm pEntry.Cfg.LinkInstNum pEntry.StaticInfo.Name
  let pEthLink : DMSB_TR181_ETH_LINK :=
    { Cfg := pEntry.Cfg
      StaticInfo := withMac sys { pEntry.StaticInfo with Name := Name }
      DynamicInfo := ⟨.Unknown, sys.tick⟩
      LastStats := emptyStats }
  (.SUCCESS, ⟨ctx.EthLinkList ++ [pEthLink], CosaDmlEthLinkSavePsm ctx.psm pEntry.Cfg⟩)

def CosaDmlEthLinkDelEntry (ctx : DMSB_TR181_ETH_CONTEXT) (ulInstanceNumber : ULONG) :
    ANSC_STATUS × DMSB_TR181_ETH_CONTEXT :=
  match CosaDmlEthLinkFindByInstNum ctx ulInstanceNumber with
  | none => (.CANT_FIND, ctx)
  | some k =>
    match ctx.EthLinkList[k]? with
    | none => (.CANT_FIND, ctx)
    | some pEthLink =>
      (.SUCCESS, ⟨ctx.EthLinkList.eraseIdx k, CosaDmlEthLinkDelPsm ctx.psm pEthLink.Cfg⟩)

def bChanged (sys : System) (pCfg : COSA_DML_ETH_LINK_CFG) (pEthLink : DMSB_TR181_ETH_LINK) :
    Bool :=
  if pEthLink.Cfg.LinkInstNum ≠ pCfg.LinkInstNum then true
  else if pEthLink.Cfg.bEnabled ≠ pCfg.bEnabled then
    let enifStatus := sys.getIfStatus pEthLink.StaticInfo.Name
    if enifStatus = .Unknown ∨ enifStatus = .NotPresent then false
    else if pCfg.bEnabled && !pEthLink.Cfg.bEnabled && !sys.up pEthLink.StaticInfo.Name then true
    else !pCfg.bEnabled && pEthLink.Cfg.bEnabled
  else false

def changeLink (sys : System) (pCfg : COSA_DML_ETH_LINK_CFG) (pEthLink : DMSB_TR181_ETH_LINK) :
    DMSB_TR181_ETH_LINK :=
  let Name := writeName pCfg.LinkName.text
  { Cfg := pCfg
    StaticInfo := { pEthLink.StaticInfo with Name := Name }
    DynamicInfo := if bChanged sys pCfg pEthLink then
      { pEthLink.DynamicInfo with LastChange := sys.tick } else pEthLink.DynamicInfo
    LastStats := if bChanged sys pCfg pEthLink then sys.CosaUtilGetIfStats Name
      else pEthLink.LastStats }

def CosaDmlEthLinkSetCfg (sys : System) (ctx : DMSB_TR181_ETH_CONTEXT)
    (pCfg : COSA_DML_ETH_LINK_CFG) : ANSC_STATUS × DMSB_TR181_ETH_CONTEXT :=
  match CosaDmlEthLinkFindByInstNum ctx pCfg.InstanceNumber with
  | none => (.CANT_FIND, ctx)
  | some k =>
    (.SUCCESS, ⟨ctx.EthLinkList.modify k (changeLink sys pCfg),
      CosaDmlEthLinkSavePsm ctx.psm pCfg⟩)

inductive Call where
  | addEntry (sys : System) (pEntry : COSA_DML_ETH_LINK_FULL)
  | setValues (ulIndex : ℕ) (pAlias : CStr)
  | setCfg (sys : System) (pCfg : COSA_DML_ETH_LINK_CFG)
  | delEntry (ulInstanceNumber : ULONG)
  | getEntry (sys : System) (ulIndex : ℕ)

def step (ctx : DMSB_TR181_ETH_CONTEXT) : Call → Option DMSB_TR181_ETH_CONTEXT
  | .addEntry sys pEntry => some (CosaDmlEthLinkAddEntry sys ctx pEntry).2
  | .setValues ulIndex pAlias => some (CosaDmlEthLinkSetValues ctx ulIndex pAlias).2
  | .setCfg sys pCfg => some (CosaDmlEthLinkSetCfg sys ctx pCfg).2
  | .delEntry ulInstanceNumber => some (CosaDmlEthLinkDelEntry ctx ulInstanceNumber).2
  | .getEntry _ _ => some ctx

def start (listing : Listing ULONG) (psm : Psm) (sys : System) : DMSB_TR181_ETH_CONTEXT :=
  ⟨CosaDmlEthLinkLoadPsm listing psm sys, psm⟩

end Code

section Purpose

structure Values where
  InstanceNumber : ULONG
  bEnabled : Bool
  Alias : Buf 512
  bPriorityTagging : Bool
  LinkType : COSA_DML_LINK_TYPE
  LinkInstNum : ULONG

def values (Cfg : COSA_DML_ETH_LINK_CFG) : Values :=
  ⟨Cfg.InstanceNumber, Cfg.bEnabled, Cfg.Alias, Cfg.bPriorityTagging, Cfg.LinkType,
    Cfg.LinkInstNum⟩

def kept (pEthLink : DMSB_TR181_ETH_LINK) : Values := values pEthLink.Cfg

/-- What a call should do: loading gives the links in memory, and an entry is read as it is. -/
def Right (listing : Listing ULONG) (ctx : DMSB_TR181_ETH_CONTEXT) (c : Call)
    (ctx' : DMSB_TR181_ETH_CONTEXT) : Prop :=
  (∀ sys, ((CosaDmlEthLinkLoadPsm listing ctx'.psm sys).map kept).Perm
      (ctx'.EthLinkList.map kept)) ∧
    match c with
    | .getEntry sys ulIndex => ∀ pEthLink ∈ ctx.EthLinkList[ulIndex]?,
      ∃ pEntry, CosaDmlEthLinkGetEntry sys ctx ulIndex = (.SUCCESS, some pEntry) ∧
        pEntry.Cfg = pEthLink.Cfg ∧ pEntry.StaticInfo = pEthLink.StaticInfo ∧
          pEntry.DynamicInfo.LastChange = pEthLink.DynamicInfo.LastChange
    | _ => True

/-- A configuration that is saved over some records is read back: the alias fits into its
record, and without a lower layer the type can be told from its text; a lower layer among the
records must be the one of the configuration. -/
def ReadBack (records : Records) (Cfg : COSA_DML_ETH_LINK_CFG) : Prop :=
  Cfg.Alias.text.length < 64 ∧
    if readLinkType (records .LowerLayerType) = .LAST then
      Cfg.LinkType ∉ [.unset, .EthVlan, .DOCSIS]
    else
      Cfg.LinkType = readLinkType (records .LowerLayerType) ∧
        Cfg.LinkInstNum = readNumber 0 (records .LowerLayerInstNum)

def Fits (ctx : DMSB_TR181_ETH_CONTEXT) : Call → Prop
  | .addEntry _ pEntry => pEntry.Cfg.InstanceNumber ∉ ctx.EthLinkList.map instanceOf ∧
    ReadBack (fun _ => none) pEntry.Cfg
  | .setValues ulIndex pAlias => ∀ pEthLink ∈ ctx.EthLinkList[ulIndex]?,
    if pAlias.length < 512 then pAlias.length < 64 else pEthLink.Cfg.Alias = Buf.empty
  | .setCfg _ pCfg => pCfg.InstanceNumber ∈ ctx.EthLinkList.map instanceOf →
    ReadBack (ctx.psm.EthLink.content pCfg.InstanceNumber) pCfg
  | .delEntry _ => True
  | .getEntry _ ulIndex => ∀ pEthLink ∈ ctx.EthLinkList[ulIndex]?,
    pEthLink.DynamicInfo.LastChange = copiedLastChange pEthLink.StaticInfo

end Purpose

section Types

theorem linkTypeFromStr_str (LinkType : COSA_DML_LINK_TYPE) :
    CosaUtilGetLinkTypeFromStr
        (strcpy_s ((CosaUtilGetLinkTypeStr LinkType).getD []) : Buf 64).text = LinkType ↔
      LinkType ∉ [.unset, .EthVlan, .DOCSIS] := by
  cases LinkType <;> decide

theorem rows_told : ∀ row ∈ g_linktype_map, row.2 ≠ .unset ∧ row.2 ≠ .DOCSIS ∧
    (row.2 = .EthVlan → "Ethernet".toList <:+: row.1) := by
  decide

theorem linkTypeFromStr_told (pLinkTypeStr : CStr) :
    CosaUtilGetLinkTypeFromStr pLinkTypeStr ∉ [.unset, .EthVlan, .DOCSIS] := by
  unfold CosaUtilGetLinkTypeFromStr
  split
  · next row hrow =>
    obtain ⟨hunset, hdocsis, hvlan⟩ := rows_told row (List.mem_of_find?_eq_some hrow)
    have hnot : row.2 ≠ .EthVlan := by
      intro htype
      have hfound : (strstr row.1 pLinkTypeStr).isSome :=
        @List.find?_some _
          (fun row : CStr × COSA_DML_LINK_TYPE => (strstr row.1 pLinkTypeStr).isSome) _ _ hrow
      have hcontained := (strstr_isSome _ _).mp hfound
      have hEthernet : (strstr "Ethernet".toList pLinkTypeStr).isSome :=
        (strstr_isSome _ _).mpr ((hvlan htype).trans hcontained)
      have hinterface : g_linktype_map.find? (fun row => (strstr row.1 pLinkTypeStr).isSome) =
          some ("Ethernet".toList, .Eth) := List.find?_cons_of_pos hEthernet
      rw [hinterface, Option.some.injEq] at hrow
      rw [← hrow] at htype
      cases htype
    simp [hunset, hdocsis, hnot]
  · decide

theorem readLinkType_told (r : Option Record) :
    readLinkType r ∉ [.unset, .EthVlan, .DOCSIS] := by
  unfold readLinkType
  split
  · exact linkTypeFromStr_told _
  · decide

end Types

section Store

theorem number_loadCfg (i : ULONG) (records : Records) :
    (loadCfg i records).InstanceNumber = i := by
  rw [loadCfg]
  split
  · rfl
  · rfl

def scheme : Scheme ULONG DMSB_TR181_ETH_LINK Values Records where
  key := instanceOf
  read i records := values (loadCfg i records)
  kept := kept
  keyOf := Values.InstanceNumber
  keyOf_read := number_loadCfg
  keyOf_kept _ := rfl

def overwrite (rs : List (EthLinkRecord × Record)) (records : Records) : Records :=
  rs.foldl (fun records r => Function.update records r.1 (some r.2)) records

theorem foldl_set (psm : Psm) (i : ULONG) (change : Records → Records)
    (rs : List (EthLinkRecord × Record)) :
    rs.foldl (fun psm record => PSM_Set_Record_Value2 psm i record.1 record.2)
        { psm with EthLink := psm.EthLink.save i change } =
      { psm with EthLink := psm.EthLink.save i fun records => overwrite rs (change records) } := by
  induction rs generalizing change with
  | nil => rfl
  | cons r rs ih =>
    rw [List.foldl_cons, PSM_Set_Record_Value2, Store.save_save]
    exact ih _

theorem foldl_set_of_ne_nil (psm : Psm) (i : ULONG) {rs : List (EthLinkRecord × Record)}
    (h : rs ≠ []) :
    rs.foldl (fun psm record => PSM_Set_Record_Value2 psm i record.1 record.2) psm =
      { psm with EthLink := psm.EthLink.save i (overwrite rs) } := by
  cases rs with
  | nil => exact absurd rfl h
  | cons r rs => exact foldl_set psm i _ rs

theorem savePsm_eq (psm : Psm) (pCfg : COSA_DML_ETH_LINK_CFG) :
    CosaDmlEthLinkSavePsm psm pCfg =
      { psm with
        EthLink := psm.EthLink.save pCfg.InstanceNumber (overwrite (savedRecords pCfg)) } :=
  foldl_set_of_ne_nil psm pCfg.InstanceNumber (List.cons_ne_nil _ _)

theorem overwrite_eq (enable pAlias tagging l2net l2netType : Record) (records : Records) :
    overwrite [(.Enable, enable), (.Alias, pAlias), (.PriorityTagging, tagging), (.l2net, l2net),
        (.l2netType, l2netType)] records =
      fun
        | .Enable => some enable
        | .Alias => some pAlias
        | .PriorityTagging => some tagging
        | .l2net => some l2net
        | .l2netType => some l2netType
        | .LowerLayerType => records .LowerLayerType
        | .LowerLayerInstNum => records .LowerLayerInstNum := by
  funext field
  cases field <;> rfl

theorem readBack_iff (pCfg : COSA_DML_ETH_LINK_CFG) (records : Records) :
    values (loadCfg pCfg.InstanceNumber (overwrite (savedRecords pCfg) records)) = values pCfg ↔
      ReadBack records pCfg := by
  rw [savedRecords, overwrite_eq]
  rw [loadCfg, ReadBack, ← readText_saved_iff, ← linkTypeFromStr_str]
  by_cases hlast : readLinkType (records .LowerLayerType) = .LAST
  · rw [if_neg (not_not.mpr hlast), if_pos hlast]
    simp only [values, Values.mk.injEq, true_and, readBool, readTagging, readNumber, readLinkType,
      and_true]
  · rw [if_pos hlast, if_neg hlast]
    simp only [values, Values.mk.injEq, true_and, readBool, readTagging]
    rw [eq_comm (a := readLinkType _), eq_comm (a := readNumber _ _)]

theorem map_load (listing : Listing ULONG) (psm : Psm) (sys : System) :
    (CosaDmlEthLinkLoadPsm listing psm sys).map kept = load scheme listing psm.EthLink := by
  rw [CosaDmlEthLinkLoadPsm, List.map_map]
  rfl

end Store

section Steps

variable {listing : Listing ULONG} {ctx : DMSB_TR181_ETH_CONTEXT}

def Inv (ctx : DMSB_TR181_ETH_CONTEXT) : Prop := Synced scheme ctx.EthLinkList ctx.psm.EthLink

def Reloads (listing : Listing ULONG) (ctx : DMSB_TR181_ETH_CONTEXT) : Prop :=
  ∀ sys, ((CosaDmlEthLinkLoadPsm listing ctx.psm sys).map kept).Perm (ctx.EthLinkList.map kept)

theorem reloads_iff : Reloads listing ctx ↔
    (load scheme listing ctx.psm.EthLink).Perm (ctx.EthLinkList.map kept) := by
  have hsys : Inhabited System :=
    ⟨⟨fun _ => .Unknown, fun _ => false, fun _ => none, fun _ => emptyStats, fun _ _ => noName, 0⟩⟩
  simp only [Reloads, map_load, forall_const]

theorem reloads_of_inv (h : Inv ctx) : Reloads listing ctx := reloads_iff.mpr h.load_perm

def saved (ctx : DMSB_TR181_ETH_CONTEXT) (pEthLink : DMSB_TR181_ETH_LINK) :
    DMSB_TR181_ETH_CONTEXT :=
  ⟨put instanceOf ctx.EthLinkList pEthLink, CosaDmlEthLinkSavePsm ctx.psm pEthLink.Cfg⟩

theorem reloads_saved_iff (h : Inv ctx) (pEthLink : DMSB_TR181_ETH_LINK) :
    Reloads listing (saved ctx pEthLink) ↔
      ReadBack (ctx.psm.EthLink.content (instanceOf pEthLink)) pEthLink.Cfg := by
  rw [reloads_iff, saved, savePsm_eq]
  exact (save_perm_iff h).trans (readBack_iff pEthLink.Cfg _)

theorem inv_saved (h : Inv ctx) {pEthLink : DMSB_TR181_ETH_LINK}
    (hread : ReadBack (ctx.psm.EthLink.content (instanceOf pEthLink)) pEthLink.Cfg) :
    Inv (saved ctx pEthLink) := by
  rw [Inv, saved, savePsm_eq]
  exact synced_save h ((readBack_iff pEthLink.Cfg _).mpr hread)

theorem readBack_alias (h : Inv ctx) {pEthLink : DMSB_TR181_ETH_LINK}
    (hmem : pEthLink ∈ ctx.EthLinkList) (pAlias : Buf 512) :
    ReadBack (ctx.psm.EthLink.content (instanceOf pEthLink))
        { pEthLink.Cfg with Alias := pAlias } ↔ pAlias.text.length < 64 := by
  have hreads : values (loadCfg (instanceOf pEthLink)
      (ctx.psm.EthLink.content (instanceOf pEthLink))) = values pEthLink.Cfg :=
    h.reads pEthLink hmem
  have htype := congrArg Values.LinkType hreads
  have hnumber := congrArg Values.LinkInstNum hreads
  rw [ReadBack]
  apply and_iff_left
  rw [loadCfg] at htype hnumber
  split
  · next hlast =>
    rw [if_neg (not_not.mpr hlast)] at htype
    change pEthLink.Cfg.LinkType ∉ _
    rw [show pEthLink.Cfg.LinkType = _ from htype.symm]
    exact readLinkType_told _
  · next hlower =>
    rw [if_pos hlower] at htype hnumber
    exact ⟨htype.symm, hnumber.symm⟩

def added (sys : System) (ctx : DMSB_TR181_ETH_CONTEXT) (pEntry : COSA_DML_ETH_LINK_FULL) :
    DMSB_TR181_ETH_LINK where
  Cfg := pEntry.Cfg
  StaticInfo := withMac sys { pEntry.StaticInfo with
    Name := fetchName ctx.psm pEntry.Cfg.LinkInstNum pEntry.StaticInfo.Name }
  DynamicInfo := ⟨.Unknown, sys.tick⟩
  LastStats := emptyStats

variable (sys : System)

theorem addEntry_eq {pEntry : COSA_DML_ETH_LINK_FULL}
    (hnew : pEntry.Cfg.InstanceNumber ∉ ctx.EthLinkList.map instanceOf) :
    (CosaDmlEthLinkAddEntry sys ctx pEntry).2 = saved ctx (added sys ctx pEntry) := by
  rw [saved, put_of_notMem hnew]
  rfl

theorem not_reloads_addEntry {pEntry : COSA_DML_ETH_LINK_FULL}
    (hold : pEntry.Cfg.InstanceNumber ∈ ctx.EthLinkList.map instanceOf) :
    ¬ Reloads listing (CosaDmlEthLinkAddEntry sys ctx pEntry).2 := by
  intro hreloads
  have hnodup := nodup_of_load_perm (reloads_iff.mp hreloads)
  change ((ctx.EthLinkList ++ [added sys ctx pEntry]).map instanceOf).Nodup at hnodup
  rw [List.map_append, List.map_singleton] at hnodup
  exact (List.nodup_append.mp hnodup).2.2 _ hold _ (List.mem_singleton_self _) rfl

variable {n : ULONG}

theorem content_new (h : Inv ctx) (hnew : n ∉ ctx.EthLinkList.map instanceOf) :
    ctx.psm.EthLink.content n = fun _ => none :=
  ctx.psm.EthLink.unlisted n fun hlisted => hnew ((h.same n).mp hlisted)

variable {x : DMSB_TR181_ETH_LINK}

theorem listed (h : Inv ctx) (hx : x ∈ ctx.EthLinkList) :
    instanceOf x ∈ ctx.psm.EthLink.instances := (h.same _).mpr (List.mem_map_of_mem hx)

def withAlias (pEthLink : DMSB_TR181_ETH_LINK) (pAlias : CStr) : DMSB_TR181_ETH_LINK :=
  { pEthLink with Cfg := { pEthLink.Cfg with Alias := strcpy_s pAlias } }

variable {pAlias : CStr}

theorem setValues_eq (h : Inv ctx) {ulIndex : ℕ} (hx : ctx.EthLinkList[ulIndex]? = some x) :
    (CosaDmlEthLinkSetValues ctx ulIndex pAlias).2 =
      if pAlias.length < 512 then saved ctx (withAlias x pAlias)
      else { ctx with EthLinkList := put instanceOf ctx.EthLinkList (withAlias x pAlias) } := by
  have hput : ctx.EthLinkList.set ulIndex (withAlias x pAlias) =
      put instanceOf ctx.EthLinkList (withAlias x pAlias) := set_eq_put h.nodup hx rfl
  simp only [CosaDmlEthLinkSetValues, hx]
  by_cases hfield : pAlias.length < 512
  · rw [if_pos hfield, if_neg (Nat.not_le.mpr hfield), saved, ← hput]
    rfl
  · rw [if_neg hfield, if_pos (Nat.le_of_not_lt hfield), ← hput]
    rfl

theorem reloads_put_iff (h : Inv ctx) {x y : DMSB_TR181_ETH_LINK} (hx : x ∈ ctx.EthLinkList)
    (hkey : instanceOf y = instanceOf x) :
    Reloads listing { ctx with EthLinkList := put instanceOf ctx.EthLinkList y } ↔
      kept x = kept y := by
  have hsave : (load scheme listing (ctx.psm.EthLink.save (instanceOf y) id)).Perm
      ((put instanceOf ctx.EthLinkList y).map kept) ↔
        values (loadCfg (instanceOf y) (ctx.psm.EthLink.content (instanceOf y))) = kept y :=
    save_perm_iff h
  have hread : values (loadCfg (instanceOf x) (ctx.psm.EthLink.content (instanceOf x))) = kept x :=
    h.reads x hx
  rw [hkey, Store.save_id _ (listed h hx), hread] at hsave
  rw [reloads_iff]
  exact hsave

theorem reloads_emptied_iff (h : Inv ctx) (hx : x ∈ ctx.EthLinkList)
    (hlong : ¬ pAlias.length < 512) :
    Reloads listing
        { ctx with EthLinkList := put instanceOf ctx.EthLinkList (withAlias x pAlias) } ↔
      x.Cfg.Alias = Buf.empty := by
  have hempty : (strcpy_s pAlias : Buf 512) = Buf.empty :=
    Buf.text_injective (Buf.text_sprintf_s_of_le (Nat.le_of_not_lt hlong))
  have hkey : instanceOf (withAlias x pAlias) = instanceOf x := rfl
  rw [reloads_put_iff h hx hkey, withAlias, hempty]
  constructor
  · exact fun hsame => congrArg Values.Alias hsame
  · intro halias
    rw [kept, values, halias]
    rfl

theorem put_emptied (h : Inv ctx) (hx : x ∈ ctx.EthLinkList) (hlong : ¬ pAlias.length < 512)
    (halias : x.Cfg.Alias = Buf.empty) :
    put instanceOf ctx.EthLinkList (withAlias x pAlias) = ctx.EthLinkList := by
  have hempty : (strcpy_s pAlias : Buf 512) = Buf.empty :=
    Buf.text_injective (Buf.text_sprintf_s_of_le (Nat.le_of_not_lt hlong))
  have hsame : withAlias x pAlias = x := by
    rw [withAlias, hempty, ← halias]
  rw [hsame]
  exact put_of_mem h.nodup hx

theorem find_eq (h : Inv ctx) {k : ℕ} (hx : ctx.EthLinkList[k]? = some x) :
    CosaDmlEthLinkFindByInstNum ctx (instanceOf x) = some k := findIdx_of_getElem? h.nodup hx

theorem find_none (hnone : n ∉ ctx.EthLinkList.map instanceOf) :
    CosaDmlEthLinkFindByInstNum ctx n = none := by
  rw [CosaDmlEthLinkFindByInstNum, List.findIdx?_eq_none_iff]
  intro x hx
  apply decide_eq_false
  rintro rfl
  exact hnone (List.mem_map_of_mem hx)

theorem exists_of_mem (hmem : n ∈ ctx.EthLinkList.map instanceOf) :
    ∃ (k : ℕ) (x : DMSB_TR181_ETH_LINK), ctx.EthLinkList[k]? = some x ∧ instanceOf x = n := by
  obtain ⟨x, hx, hkey⟩ := List.mem_map.mp hmem
  obtain ⟨k, hk⟩ := List.getElem?_of_mem hx
  exact ⟨k, x, hk, hkey⟩

theorem setCfg_eq (h : Inv ctx) (sys : System) {pCfg : COSA_DML_ETH_LINK_CFG} {k : ℕ}
    (hx : ctx.EthLinkList[k]? = some x)
    (hkey : instanceOf x = pCfg.InstanceNumber) :
    (CosaDmlEthLinkSetCfg sys ctx pCfg).2 = saved ctx (changeLink sys pCfg x) := by
  have hfind := find_eq h hx
  rw [hkey] at hfind
  have hput : ctx.EthLinkList.set k (changeLink sys pCfg x) =
      put instanceOf ctx.EthLinkList (changeLink sys pCfg x) :=
    set_eq_put h.nodup hx hkey.symm
  rw [CosaDmlEthLinkSetCfg, hfind, saved, ← hput, ← modify_of_getElem? hx]
  rfl

theorem delEntry_eq (h : Inv ctx) {k : ℕ} (hx : ctx.EthLinkList[k]? = some x) :
    (CosaDmlEthLinkDelEntry ctx (instanceOf x)).2 =
      ⟨drop instanceOf ctx.EthLinkList (instanceOf x), PSM_Del_Record ctx.psm (instanceOf x)⟩ := by
  have hdrop : drop instanceOf ctx.EthLinkList (instanceOf x) = ctx.EthLinkList.eraseIdx k :=
    drop_eq_eraseIdx h.nodup hx
  rw [CosaDmlEthLinkDelEntry, find_eq h hx, hdrop]
  simp only [hx]
  rfl

theorem addEntry_right_iff (h : Inv ctx) (sys : System) (pEntry : COSA_DML_ETH_LINK_FULL) :
    Reloads listing (CosaDmlEthLinkAddEntry sys ctx pEntry).2 ↔
      Fits ctx (.addEntry sys pEntry) := by
  by_cases hnew : pEntry.Cfg.InstanceNumber ∈ ctx.EthLinkList.map instanceOf
  · exact iff_of_false (not_reloads_addEntry sys hnew) fun hfits => hfits.1 hnew
  · rw [addEntry_eq sys hnew, reloads_saved_iff h]
    change ReadBack (ctx.psm.EthLink.content pEntry.Cfg.InstanceNumber) pEntry.Cfg ↔ _
    rw [content_new h hnew]
    exact (and_iff_right hnew).symm

theorem setValues_right_iff (h : Inv ctx) (ulIndex : ℕ) (pAlias : CStr) :
    Reloads listing (CosaDmlEthLinkSetValues ctx ulIndex pAlias).2 ↔
      Fits ctx (.setValues ulIndex pAlias) := by
  cases hx : ctx.EthLinkList[ulIndex]? with
  | none =>
    rw [CosaDmlEthLinkSetValues, Fits, hx]
    exact iff_of_true (reloads_of_inv h) fun x hnone => absurd hnone (Option.not_mem_none x)
  | some x =>
    have hmem := List.mem_of_getElem? hx
    have hfits : Fits ctx (.setValues ulIndex pAlias) ↔
        if pAlias.length < 512 then pAlias.length < 64 else x.Cfg.Alias = Buf.empty := by
      rw [Fits, hx]
      exact ⟨fun hall => hall x rfl, fun hone y hy => by rwa [← Option.some.inj hy]⟩
    rw [hfits, setValues_eq h hx]
    by_cases hfield : pAlias.length < 512
    · have halias : (strcpy_s pAlias : Buf 512).text = pAlias := Buf.text_sprintf_s_of_lt hfield
      have hread := readBack_alias h hmem (strcpy_s pAlias)
      rw [halias] at hread
      rw [if_pos hfield, if_pos hfield, reloads_saved_iff h]
      exact hread
    · rw [if_neg hfield, if_neg hfield]
      exact reloads_emptied_iff h hmem hfield

theorem setCfg_right_iff (h : Inv ctx) (sys : System) (pCfg : COSA_DML_ETH_LINK_CFG) :
    Reloads listing (CosaDmlEthLinkSetCfg sys ctx pCfg).2 ↔ Fits ctx (.setCfg sys pCfg) := by
  rw [Fits]
  by_cases hmem : pCfg.InstanceNumber ∈ ctx.EthLinkList.map instanceOf
  · obtain ⟨k, x, hx, hkey⟩ := exists_of_mem hmem
    rw [setCfg_eq h sys hx hkey, reloads_saved_iff h]
    exact ⟨fun hread _ => hread, fun hall => hall hmem⟩
  · rw [CosaDmlEthLinkSetCfg, find_none hmem]
    exact iff_of_true (reloads_of_inv h) fun hfound => absurd hfound hmem

theorem inv_delEntry (h : Inv ctx) (n : ULONG) : Inv (CosaDmlEthLinkDelEntry ctx n).2 := by
  by_cases hmem : n ∈ ctx.EthLinkList.map instanceOf
  · obtain ⟨k, x, hx, rfl⟩ := exists_of_mem hmem
    rw [delEntry_eq h hx]
    exact synced_delete h (instanceOf x)
  · rw [CosaDmlEthLinkDelEntry, find_none hmem]
    exact h

theorem getEntry_right_iff (ulIndex : ℕ) :
    (∀ pEthLink ∈ ctx.EthLinkList[ulIndex]?,
      ∃ pEntry, CosaDmlEthLinkGetEntry sys ctx ulIndex = (.SUCCESS, some pEntry) ∧
        pEntry.Cfg = pEthLink.Cfg ∧ pEntry.StaticInfo = pEthLink.StaticInfo ∧
          pEntry.DynamicInfo.LastChange = pEthLink.DynamicInfo.LastChange) ↔
      Fits ctx (.getEntry sys ulIndex) := by
  rw [Fits]
  apply forall₂_congr
  intro x hx
  rw [CosaDmlEthLinkGetEntry, show ctx.EthLinkList[ulIndex]? = some x from hx]
  simp only [Prod.mk.injEq, true_and, Option.some.injEq, exists_eq_left']
  exact eq_comm

theorem right_iff (h : Inv ctx) (c : Call) :
    (∃ ctx', step ctx c = some ctx' ∧ Right listing ctx c ctx') ↔ Fits ctx c := by
  cases c with
  | addEntry sys pEntry =>
    simp only [step, Option.some.injEq, exists_eq_left', Right, and_true]
    exact addEntry_right_iff h sys pEntry
  | setValues ulIndex pAlias =>
    simp only [step, Option.some.injEq, exists_eq_left', Right, and_true]
    exact setValues_right_iff h ulIndex pAlias
  | setCfg sys pCfg =>
    simp only [step, Option.some.injEq, exists_eq_left', Right, and_true]
    exact setCfg_right_iff h sys pCfg
  | delEntry n =>
    simp only [step, Option.some.injEq, exists_eq_left', Right, and_true]
    exact iff_of_true (reloads_of_inv (inv_delEntry h n)) trivial
  | getEntry sys ulIndex =>
    simp only [step, Option.some.injEq, exists_eq_left', Right]
    exact (and_iff_right (reloads_of_inv h)).trans (getEntry_right_iff sys ulIndex)

theorem inv_step (h : Inv ctx) {c : Call} {ctx' : DMSB_TR181_ETH_CONTEXT} (hfits : Fits ctx c)
    (hstep : step ctx c = some ctx') : Inv ctx' := by
  cases c with
  | addEntry sys pEntry =>
    cases hstep
    obtain ⟨hnew, hread⟩ := hfits
    rw [addEntry_eq sys hnew]
    apply inv_saved h
    change ReadBack (ctx.psm.EthLink.content pEntry.Cfg.InstanceNumber) pEntry.Cfg
    rwa [content_new h hnew]
  | setValues ulIndex pAlias =>
    cases hstep
    cases hx : ctx.EthLinkList[ulIndex]? with
    | none =>
      rw [CosaDmlEthLinkSetValues, hx]
      exact h
    | some x =>
      have hmem := List.mem_of_getElem? hx
      have hone := hfits x hx
      rw [setValues_eq h hx]
      by_cases hfield : pAlias.length < 512
      · have halias : (strcpy_s pAlias : Buf 512).text = pAlias := Buf.text_sprintf_s_of_lt hfield
        rw [if_pos hfield] at hone ⊢
        apply inv_saved h
        apply (readBack_alias h hmem (strcpy_s pAlias)).mpr
        rwa [halias]
      · rw [if_neg hfield] at hone ⊢
        rw [put_emptied h hmem hfield hone]
        exact h
  | setCfg sys pCfg =>
    cases hstep
    by_cases hmem : pCfg.InstanceNumber ∈ ctx.EthLinkList.map instanceOf
    · obtain ⟨k, x, hx, hkey⟩ := exists_of_mem hmem
      rw [setCfg_eq h sys hx hkey]
      exact inv_saved h (hfits hmem)
    · rw [CosaDmlEthLinkSetCfg, find_none hmem]
      exact h
  | delEntry n =>
    cases hstep
    exact inv_delEntry h n
  | getEntry sys ulIndex =>
    cases hstep
    exact h

theorem inv_start (listing : Listing ULONG) (psm : Psm) (sys : System) :
    Inv (start listing psm sys) :=
  synced_of_load (fun i => number_loadCfg i (psm.EthLink.content i)) fun _ => rfl

end Steps

/-- After a load every call does what it should exactly if every call meets the conditions. -/
theorem links_kept (listing : Listing ULONG) (psm : Psm) (sys : System) (calls : List Call) :
    Does step (Right listing) (start listing psm sys) calls ↔
      StepsMeet step Fits (start listing psm sys) calls := by
  apply @does_iff _ _ step (Right listing) (fun _ _ => True) Fits Inv
  · intro ctx c h _
    exact right_iff h c
  · intro ctx c ctx' h _ hfits hstep
    exact inv_step h hfits hstep
  · exact inv_start listing psm sys
  · exact stepsMeet_true _ _ _

def storeWithBridge : Psm where
  EthLink :=
    { instances := [1]
      nodup := List.nodup_singleton 1
      content := Function.update default 1 fun
        | .Enable => some (.boolean true)
        | .Alias => some (.string "link1".toList)
        | .LowerLayerType => some (.string "Bridge".toList)
        | .LowerLayerInstNum => some (.unsignedInt 1)
        | _ => none
      unlisted := fun _ hi =>
        Function.update_of_ne (List.ne_of_not_mem_cons hi) _ default }
  l2net_name := fun _ => none

def systemAt (tick : ULONG) : System where
  getIfStatus := fun _ => .Up
  up := fun _ => true
  _getMac := fun _ => none
  CosaUtilGetIfStats := fun _ => emptyStats
  CosaUtilGetLowerLayerName := fun _ _ => writeName "brlan0".toList
  tick := tick

def sameOrder : Listing ULONG := ⟨id, List.Perm.refl⟩

def onBridge2 : COSA_DML_ETH_LINK_CFG :=
  ⟨1, Buf.snprintf "link1".toList, true, false, .Bridge, Buf.snprintf "brlan1".toList, 2,
    Buf.empty⟩

/-- A load gives the old bridge again, and the time that is read is not that of the link. -/
theorem changed_link_lost :
    ¬ Does step (Right sameOrder) (start sameOrder storeWithBridge (systemAt 100))
        [.setCfg (systemAt 200) onBridge2] ∧
      ¬ Does step (Right sameOrder) (start sameOrder storeWithBridge (systemAt 100))
        [.getEntry (systemAt 200) 0] := by
  constructor
  · rintro ⟨ctx', hstep, ⟨hreloads, -⟩, -⟩
    cases hstep
    have hlinks := (hreloads (systemAt 300)).map Values.LinkInstNum
    revert hlinks
    decide
  · rintro ⟨ctx', hstep, ⟨-, hreads⟩, -⟩
    have hlink := hreads _ rfl
    obtain ⟨pEntry, hentry, -, -, htime⟩ := hlink
    cases hentry
    revert htime
    decide

end CcspPandM.MlanEthLinks
