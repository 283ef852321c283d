import Mathlib.Data.Multiset.Filter
import CcspPandM.NatLists

/-!
The registry of the DHCPv4 middle layer. Clients and pools that are not yet committed, or
that have lists of their own, are saved in folders named by their numbers, with a folder
for each list that is not empty. Loading ends before the pools where the folder of the
reserved addresses is missing, which is never saved.
-/
namespace CcspPandM.Dhcpv4Registry

open CString Registry ScanText
open IpRegistry (ULONG pushEntryByInsNum pushEntry_perm)
open NatLists (ContextLink atol)

def COSA_IREP_FOLDER_NAME_DHCPV4_CLIENT : CStr := "Client".toList

def COSA_IREP_FOLDER_NAME_DHCPV4_REQOPTION : CStr := "ReqOption".toList

def COSA_IREP_FOLDER_NAME_DHCPV4_SENTOPTION : CStr := "SentOption".toList

def COSA_IREP_FOLDER_NAME_DHCPV4_X_CISCO_COM_SADDR : CStr := "X_CISCO_COM_SAddr".toList

def COSA_IREP_FOLDER_NAME_DHCPV4_POOL : CStr := "Pool".toList

def COSA_IREP_FOLDER_NAME_DHCPV4_STATICADDRESS : CStr := "StaticAddress".toList

def COSA_IREP_FOLDER_NAME_DHCPV4_OPTION : CStr := "Option".toList

def COSA_DML_RR_NAME_Dhcpv4Alias : CStr := "Alias".toList

def COSA_DML_RR_NAME_Dhcpv4bNew : CStr := "bNew".toList

def COSA_DML_RR_NAME_Dhcpv4NextInsNunmber : CStr := "NextInstanceNumber".toList

structure DhcpcLink where
  InstanceNumber : ULONG
  Alias : CStr
  bNew : Bool
  SendOptionList : List ContextLink
  ReqOptionList : List ContextLink
  maxInstanceOfSend : ULONG
  maxInstanceOfReq : ULONG
  deriving DecidableEq, Repr

structure PoolLink where
  InstanceNumber : ULONG
  Alias : CStr
  bNew : Bool
  StaticAddressList : List ContextLink
  OptionList : List ContextLink
  maxInstanceOfStaticAddress : ULONG
  maxInstanceOfOption : ULONG
  deriving DecidableEq, Repr

structure DatamodelDhcpv4 where
  ClientList : List DhcpcLink
  maxInstanceOfClient : ULONG
  X_CISCO_COM_StaticAddressList : List ContextLink
  maxInstanceX_CISCO_COM_SAddr : ULONG
  PoolList : List PoolLink
  maxInstanceOfPool : ULONG
  deriving DecidableEq, Repr

section Saving

def recordLink (pAlias : CStr) (bNew : Bool) (fo : Folder) : Folder :=
  (fo.AddRecord COSA_DML_RR_NAME_Dhcpv4Alias (.string pAlias)).AddRecord
    COSA_DML_RR_NAME_Dhcpv4bNew (.bool bNew)

/-- `FolderName[16]` takes every number. -/
def FolderName (number : ULONG) : CStr := decimal number.toNat

def saveLink (fo : Folder) (l : ContextLink) : Folder :=
  if l.bNew then fo.AddFolder (FolderName l.InstanceNumber) (recordLink l.Alias l.bNew) else fo

def saveLinks (name : CStr) (maxInstance : ULONG) (list : List ContextLink) (fo : Folder) :
    Folder :=
  if list = [] then fo
  else fo.AddFolder name fun links => list.foldl saveLink
    (links.AddRecord COSA_DML_RR_NAME_Dhcpv4NextInsNunmber (.uint32 maxInstance))

/-- A committed client that has no option and never had one is passed over. -/
def DhcpcLink.unsaved (c : DhcpcLink) : Bool :=
  !c.bNew && c.ReqOptionList = [] && c.SendOptionList = [] && c.maxInstanceOfSend = 0 &&
    c.maxInstanceOfReq = 0

def saveClient (fo : Folder) (c : DhcpcLink) : Folder :=
  if c.unsaved then fo
  else fo.AddFolder (FolderName c.InstanceNumber) fun client =>
    saveLinks COSA_IREP_FOLDER_NAME_DHCPV4_SENTOPTION c.maxInstanceOfSend c.SendOptionList
      (saveLinks COSA_IREP_FOLDER_NAME_DHCPV4_REQOPTION c.maxInstanceOfReq c.ReqOptionList
        (recordLink c.Alias c.bNew client))

/-- The options of a pool are looked at only if it has static addresses. -/
def savePool (fo : Folder) (p : PoolLink) : Folder :=
  if !p.bNew && p.StaticAddressList = [] && p.maxInstanceOfStaticAddress = 0 then fo
  else fo.AddFolder (FolderName p.InstanceNumber) fun pool =>
    let pool := recordLink p.Alias p.bNew pool
    if p.StaticAddressList = [] then pool
    else saveLinks COSA_IREP_FOLDER_NAME_DHCPV4_OPTION p.maxInstanceOfOption p.OptionList
      (saveLinks COSA_IREP_FOLDER_NAME_DHCPV4_STATICADDRESS p.maxInstanceOfStaticAddress
        p.StaticAddressList pool)

/-- The folder of the module is cleared and written anew. -/
def CosaDhcpv4RegSetDhcpv4Info (o : DatamodelDhcpv4) : Folder :=
  (Folder.empty.AddFolder COSA_IREP_FOLDER_NAME_DHCPV4_CLIENT fun client =>
    o.ClientList.foldl saveClient (client.AddRecord COSA_DML_RR_NAME_Dhcpv4NextInsNunmber
      (.uint32 o.maxInstanceOfClient))).AddFolder COSA_IREP_FOLDER_NAME_DHCPV4_POOL fun pool =>
    o.PoolList.foldl savePool (pool.AddRecord COSA_DML_RR_NAME_Dhcpv4NextInsNunmber
      (.uint32 o.maxInstanceOfPool))

end Saving

section Loading

/-- The loop over the folders of a table; one whose name is no number is passed over. -/
def loadAll {α : Type} (number : α → ULONG) (load : ULONG → Folder → α)
    (folders : List (CStr × Folder)) (list : List α) : List α :=
  folders.foldl (fun list x =>
    let uInstanceNumber := atol x.1
    if uInstanceNumber = 0 then list
    else pushEntryByInsNum number list (load uInstanceNumber x.2)) list

def loadAlias (fo : Folder) : CStr := (fo.getString COSA_DML_RR_NAME_Dhcpv4Alias).getD []

def loadNew (fo : Folder) : Bool := (fo.getBool COSA_DML_RR_NAME_Dhcpv4bNew).getD true

def loadNext (fo : Folder) (maxInstance : ULONG) : ULONG :=
  (fo.getUint32 COSA_DML_RR_NAME_Dhcpv4NextInsNunmber).getD maxInstance

def loadLink (uInstanceNumber : ULONG) (fo : Folder) : ContextLink :=
  ⟨uInstanceNumber, loadAlias fo, loadNew fo⟩

def loadLinks (fo : Folder) (list : List ContextLink) : List ContextLink :=
  loadAll ContextLink.InstanceNumber loadLink fo.folders list

def loadClient (uInstanceNumber : ULONG) (fo : Folder) : DhcpcLink :=
  let req := fo.GetFolder COSA_IREP_FOLDER_NAME_DHCPV4_REQOPTION
  let send := fo.GetFolder COSA_IREP_FOLDER_NAME_DHCPV4_SENTOPTION
  { InstanceNumber := uInstanceNumber
    Alias := loadAlias fo
    bNew := loadNew fo
    SendOptionList := (send.map fun fo => loadLinks fo []).getD []
    ReqOptionList := (req.map fun fo => loadLinks fo []).getD []
    maxInstanceOfSend := (send.map fun fo => loadNext fo 0).getD 0
    maxInstanceOfReq := (req.map fun fo => loadNext fo 0).getD 0 }

def loadPool (uInstanceNumber : ULONG) (fo : Folder) : PoolLink :=
  let saddr := fo.GetFolder COSA_IREP_FOLDER_NAME_DHCPV4_STATICADDRESS
  let option := saddr.bind fun _ => fo.GetFolder COSA_IREP_FOLDER_NAME_DHCPV4_OPTION
  { InstanceNumber := uInstanceNumber
    Alias := loadAlias fo
    bNew := loadNew fo
    StaticAddressList := (saddr.map fun fo => loadLinks fo []).getD []
    OptionList := (option.map fun fo => loadLinks fo []).getD []
    maxInstanceOfStaticAddress := (saddr.map fun fo => loadNext fo 0).getD 0
    maxInstanceOfOption := (option.map fun fo => loadNext fo 0).getD 0 }

/-- Whether the load succeeds, and the object after it: the first folder that is missing
ends it. -/
def CosaDhcpv4RegGetDhcpv4Info (pPoamIrepFoDhcpv4 : Folder) (o : DatamodelDhcpv4) :
    Bool × DatamodelDhcpv4 :=
  match pPoamIrepFoDhcpv4.GetFolder COSA_IREP_FOLDER_NAME_DHCPV4_CLIENT with
  | none => (false, o)
  | some client =>
    let o := { o with
      maxInstanceOfClient := loadNext client o.maxInstanceOfClient
      ClientList := loadAll DhcpcLink.InstanceNumber loadClient client.folders o.ClientList }
    match pPoamIrepFoDhcpv4.GetFolder COSA_IREP_FOLDER_NAME_DHCPV4_X_CISCO_COM_SADDR with
    | none => (false, o)
    | some saddr =>
      let o := { o with
        maxInstanceX_CISCO_COM_SAddr := loadNext saddr o.maxInstanceX_CISCO_COM_SAddr
        X_CISCO_COM_StaticAddressList := loadLinks saddr o.X_CISCO_COM_StaticAddressList }
      match pPoamIrepFoDhcpv4.GetFolder COSA_IREP_FOLDER_NAME_DHCPV4_POOL with
      | none => (false, o)
      | some pool =>
        (true, { o with
          maxInstanceOfPool := loadNext pool o.maxInstanceOfPool
          PoolList := loadAll PoolLink.InstanceNumber loadPool pool.folders o.PoolList })

end Loading

section Law

@[ext] structure Contents where
  InstanceNumber : ULONG
  Alias : CStr
  bNew : Bool
  first : Multiset ContextLink
  second : Multiset ContextLink
  maxFirst : ULONG
  maxSecond : ULONG

def DhcpcLink.contents (c : DhcpcLink) : Contents :=
  ⟨c.InstanceNumber, c.Alias, c.bNew, c.ReqOptionList, c.SendOptionList, c.maxInstanceOfReq,
    c.maxInstanceOfSend⟩

def PoolLink.contents (p : PoolLink) : Contents :=
  ⟨p.InstanceNumber, p.Alias, p.bNew, p.StaticAddressList, p.OptionList,
    p.maxInstanceOfStaticAddress, p.maxInstanceOfOption⟩

/-- The part that is committed, without next numbers. -/
def Contents.committed (c : Contents) : Contents :=
  { c with
    first := c.first.filter fun l => l.bNew = false
    second := c.second.filter fun l => l.bNew = false
    maxFirst := 0
    maxSecond := 0 }

/-- What should be there of an entry after the load: of one that is not committed, the part
that is not committed either. -/
def Contents.kept (c : Contents) : Contents :=
  if c.bNew then
    { c with
      first := c.first.filter fun l => l.bNew = true
      second := c.second.filter fun l => l.bNew = true }
  else c

def DatamodelDhcpv4.clients (o : DatamodelDhcpv4) : Multiset Contents :=
  (o.ClientList.map DhcpcLink.contents : List Contents)

def DatamodelDhcpv4.pools (o : DatamodelDhcpv4) : Multiset Contents :=
  (o.PoolList.map PoolLink.contents : List Contents)

/-- The entries of a table that are committed, without next numbers. -/
def committedOf (table : Multiset Contents) : Multiset Contents :=
  (table.filter fun c => c.bNew = false).map Contents.committed

/-- The lists of the second object hold exactly the committed entries of the first; its next
numbers may be any. -/
structure HoldsCommitted (s t : DatamodelDhcpv4) : Prop where
  clients : t.clients.map (fun c => { c with maxFirst := 0, maxSecond := 0 }) =
    committedOf s.clients
  pools : t.pools.map (fun c => { c with maxFirst := 0, maxSecond := 0 }) = committedOf s.pools

/-- Everything is there again, with all next numbers, and nothing else. -/
structure Restores (s t r : DatamodelDhcpv4) : Prop where
  clients : r.clients = s.clients.map Contents.kept
  pools : r.pools = s.pools.map Contents.kept
  reserved : r.X_CISCO_COM_StaticAddressList = t.X_CISCO_COM_StaticAddressList
  next : r.maxInstanceOfClient = s.maxInstanceOfClient ∧
    r.maxInstanceX_CISCO_COM_SAddr = s.maxInstanceX_CISCO_COM_SAddr ∧
    r.maxInstanceOfPool = s.maxInstanceOfPool

structure NumberedList {α : Type} (number : α → ULONG) (list : List α) : Prop where
  distinct : (list.map number).Nodup
  pos : ∀ a ∈ list, number a ≠ 0

structure Numbered (s : DatamodelDhcpv4) : Prop where
  clients : NumberedList DhcpcLink.InstanceNumber s.ClientList
  options : ∀ c ∈ s.ClientList, NumberedList ContextLink.InstanceNumber c.ReqOptionList ∧
    NumberedList ContextLink.InstanceNumber c.SendOptionList

/-- A list of a client that comes back: its new entries have numbers below 2^31, and an empty
one never had an entry. -/
def ListSaved (list : List ContextLink) (maxInstance : ULONG) : Prop :=
  (∀ l ∈ list, l.bNew = true → l.InstanceNumber.toNat < 2 ^ 31) ∧ (list = [] → maxInstance = 0)

/-- No committed client has options or next numbers, the new ones come back, and no pool, no
static address and no option of a pool is new. -/
structure Survives (s t : DatamodelDhcpv4) : Prop where
  committed : ∀ c ∈ s.ClientList, c.bNew = false → c.ReqOptionList = [] ∧
    c.SendOptionList = [] ∧ c.maxInstanceOfReq = 0 ∧ c.maxInstanceOfSend = 0
  new : ∀ c ∈ s.ClientList, c.bNew = true → c.InstanceNumber.toNat < 2 ^ 31 ∧
    ListSaved c.ReqOptionList c.maxInstanceOfReq ∧ ListSaved c.SendOptionList c.maxInstanceOfSend
  clients : ∀ c ∈ t.ClientList, c.maxInstanceOfReq = 0 ∧ c.maxInstanceOfSend = 0
  pools : ∀ p ∈ s.PoolList, p.bNew = false ∧ (∀ l ∈ p.StaticAddressList, l.bNew = false) ∧
    ∀ l ∈ p.OptionList, l.bNew = false
  next : t.pools = s.pools ∧ t.maxInstanceX_CISCO_COM_SAddr = s.maxInstanceX_CISCO_COM_SAddr ∧
    t.maxInstanceOfPool = s.maxInstanceOfPool

def cut (n : ULONG) : ULONG := if n.toNat < 2 ^ 31 then n else 0x7fffffff

theorem atol_FolderName (n : ULONG) : atol (FolderName n) = cut n := sscanf_d_decimal n 0

theorem cut_lt (n : ULONG) : (cut n).toNat < 2 ^ 31 := by
  rw [cut]
  split
  · assumption
  · decide

theorem cut_of_lt {n : ULONG} (h : n.toNat < 2 ^ 31) : cut n = n := if_pos h

theorem cut_ne_zero {n : ULONG} (h : n ≠ 0) : cut n ≠ 0 := by
  rw [cut]
  split
  · exact h
  · decide

theorem FolderName_injective : Function.Injective FolderName := fun _ _ h =>
  BitVec.eq_of_toNat_eq (decimal_injective h)

theorem loadAll_saved {α β : Type} (number : β → ULONG) (load : ULONG → Folder → β)
    (name : α → ULONG) (folder : α → Folder) {l : List α} (hpos : ∀ a ∈ l, name a ≠ 0) :
    ∀ list : List β,
      ((loadAll number load (l.map fun a => (FolderName (name a), folder a)) list : List β) :
        Multiset β) = ↑(l.map fun a => load (cut (name a)) (folder a)) + ↑list := by
  induction l with
  | nil => exact fun list => (Multiset.zero_add (list : Multiset β)).symm
  | cons a l ih =>
    intro list
    have hrest := ih (fun b hb => hpos b (List.mem_cons_of_mem _ hb))
      (pushEntryByInsNum number list (load (cut (name a)) (folder a)))
    have hpush : ((pushEntryByInsNum number list (load (cut (name a)) (folder a)) : List β) :
        Multiset β) = load (cut (name a)) (folder a) ::ₘ ↑list :=
      Multiset.coe_eq_coe.mpr (pushEntry_perm _ _ _)
    rw [loadAll, List.map_cons, List.foldl_cons]
    simp only [atol_FolderName, if_neg (cut_ne_zero (hpos a List.mem_cons_self))]
    rw [loadAll] at hrest
    rw [hrest, hpush, List.map_cons, ← Multiset.cons_coe, Multiset.add_cons, Multiset.cons_add]

theorem getUint32_AddRecord (fo : Folder) (name : CStr) (n : ULONG) :
    (fo.AddRecord name (.uint32 n)).getUint32 name = some n := by
  rw [Folder.getUint32, Folder.GetRecord_AddRecord, if_pos rfl]

theorem loadAlias_recordLink (pAlias : CStr) (bNew : Bool) (fo : Folder) :
    loadAlias (recordLink pAlias bNew fo) = pAlias := by
  have hne : COSA_DML_RR_NAME_Dhcpv4Alias ≠ COSA_DML_RR_NAME_Dhcpv4bNew := by decide
  rw [loadAlias, recordLink, Folder.getString, Folder.GetRecord_AddRecord, if_neg hne,
    Folder.GetRecord_AddRecord, if_pos rfl]
  rfl

theorem loadNew_recordLink (pAlias : CStr) (bNew : Bool) (fo : Folder) :
    loadNew (recordLink pAlias bNew fo) = bNew := by
  rw [loadNew, recordLink, Folder.getBool, Folder.GetRecord_AddRecord, if_pos rfl]
  rfl

/-- The folder of a list that is not empty. -/
def linksFolder (maxInstance : ULONG) (list : List ContextLink) : Folder :=
  list.foldl saveLink
    (Folder.empty.AddRecord COSA_DML_RR_NAME_Dhcpv4NextInsNunmber (.uint32 maxInstance))

theorem foldl_saveLink (list : List ContextLink) (fo : Folder) :
    list.foldl saveLink fo = (list.filter fun l => l.bNew).foldl (fun fo l =>
      fo.AddFolder (FolderName l.InstanceNumber) (recordLink l.Alias l.bNew)) fo := by
  rw [List.foldl_filter]
  rfl

theorem NumberedList.filter {α : Type} {number : α → ULONG} {list : List α}
    (h : NumberedList number list) (p : α → Bool) : NumberedList number (list.filter p) :=
  ⟨h.distinct.sublist (List.filter_sublist.map _), fun a ha => h.pos a (List.mem_of_mem_filter ha)⟩

theorem NumberedList.names {α : Type} {number : α → ULONG} {list : List α}
    (h : NumberedList number list) : (list.map fun a => FolderName (number a)).Nodup := by
  have hnames := h.distinct.map FolderName_injective
  rwa [List.map_map] at hnames

def cutLink (l : ContextLink) : ContextLink := { l with InstanceNumber := cut l.InstanceNumber }

theorem loadLinks_linksFolder {list : List ContextLink}
    (h : NumberedList ContextLink.InstanceNumber list) (maxInstance : ULONG) :
    ((loadLinks (linksFolder maxInstance list) [] : List ContextLink) : Multiset ContextLink) =
      ((list.filter fun l => l.bNew).map cutLink : List ContextLink) := by
  have hnew := h.filter fun l => l.bNew
  have hfolders : (linksFolder maxInstance list).folders = (list.filter fun l => l.bNew).map
      fun l => (FolderName l.InstanceNumber, recordLink l.Alias l.bNew Folder.empty) := by
    rw [linksFolder, foldl_saveLink,
      Folder.folders_foldl_AddFolder (fun l : ContextLink => FolderName l.InstanceNumber) _
        hnew.names fun l _ => List.not_mem_nil]
    rfl
  rw [loadLinks, hfolders, loadAll_saved _ _ ContextLink.InstanceNumber _ hnew.pos,
    Multiset.coe_nil, Multiset.add_zero]
  apply congrArg (fun l : List ContextLink => (l : Multiset ContextLink))
  apply List.map_congr_left
  intro l _
  rw [loadLink, loadAlias_recordLink, loadNew_recordLink, cutLink]

theorem loadNext_linksFolder (maxInstance other : ULONG) (list : List ContextLink) :
    loadNext (linksFolder maxInstance list) other = maxInstance := by
  rw [loadNext, Folder.getUint32, Folder.GetRecord, linksFolder, foldl_saveLink,
    Folder.records_foldl_AddFolder]
  exact congrArg (Option.getD · other)
    (getUint32_AddRecord Folder.empty COSA_DML_RR_NAME_Dhcpv4NextInsNunmber maxInstance)

theorem GetFolder_saveLinks (name other : CStr) (maxInstance : ULONG) (list : List ContextLink)
    (fo : Folder) (hnone : fo.GetFolder name = none) :
    (saveLinks name maxInstance list fo).GetFolder other =
      if other = name then if list = [] then none else some (linksFolder maxInstance list)
      else fo.GetFolder other := by
  rw [saveLinks]
  split
  · split
    · rename_i heq
      rw [heq, hnone]
    · rfl
  · rw [Folder.GetFolder_AddFolder, hnone]
    rfl

theorem records_saveLinks (name : CStr) (maxInstance : ULONG) (list : List ContextLink)
    (fo : Folder) : (saveLinks name maxInstance list fo).records = fo.records := by
  rw [saveLinks]
  split
  · rfl
  · rfl

def clientFolder (c : DhcpcLink) : Folder :=
  saveLinks COSA_IREP_FOLDER_NAME_DHCPV4_SENTOPTION c.maxInstanceOfSend c.SendOptionList
    (saveLinks COSA_IREP_FOLDER_NAME_DHCPV4_REQOPTION c.maxInstanceOfReq c.ReqOptionList
      (recordLink c.Alias c.bNew Folder.empty))

def reloaded (c : DhcpcLink) : Contents where
  InstanceNumber := cut c.InstanceNumber
  Alias := c.Alias
  bNew := c.bNew
  first := ((c.ReqOptionList.filter fun l => l.bNew).map cutLink : List ContextLink)
  second := ((c.SendOptionList.filter fun l => l.bNew).map cutLink : List ContextLink)
  maxFirst := if c.ReqOptionList = [] then 0 else c.maxInstanceOfReq
  maxSecond := if c.SendOptionList = [] then 0 else c.maxInstanceOfSend

theorem loadLinks_list {list : List ContextLink}
    (h : NumberedList ContextLink.InstanceNumber list) (maxInstance : ULONG) :
    (((if list = [] then none else some (linksFolder maxInstance list)).map
      (fun fo => loadLinks fo [])).getD [] : Multiset ContextLink) =
        ((list.filter fun l => l.bNew).map cutLink : List ContextLink) := by
  split
  · rename_i hnil
    rw [hnil]
    rfl
  · exact loadLinks_linksFolder h maxInstance

theorem loadNext_list (list : List ContextLink) (maxInstance : ULONG) :
    ((if list = [] then none else some (linksFolder maxInstance list)).map
      (fun fo => loadNext fo 0)).getD 0 = if list = [] then 0 else maxInstance := by
  split
  · rfl
  · exact loadNext_linksFolder maxInstance 0 list

theorem contents_loadClient {c : DhcpcLink} (n : ULONG)
    (hreq : NumberedList ContextLink.InstanceNumber c.ReqOptionList)
    (hsend : NumberedList ContextLink.InstanceNumber c.SendOptionList) :
    (loadClient n (clientFolder c)).contents = { reloaded c with InstanceNumber := n } := by
  have hnames : COSA_IREP_FOLDER_NAME_DHCPV4_REQOPTION ≠ COSA_IREP_FOLDER_NAME_DHCPV4_SENTOPTION :=
    by decide
  have hempty (name : CStr) : (recordLink c.Alias c.bNew Folder.empty).GetFolder name = none := rfl
  have hinner (name : CStr) := GetFolder_saveLinks COSA_IREP_FOLDER_NAME_DHCPV4_REQOPTION name
    c.maxInstanceOfReq c.ReqOptionList _ (hempty _)
  have hfresh := hinner COSA_IREP_FOLDER_NAME_DHCPV4_SENTOPTION
  rw [if_neg hnames.symm, hempty] at hfresh
  have houter (name : CStr) := GetFolder_saveLinks COSA_IREP_FOLDER_NAME_DHCPV4_SENTOPTION name
    c.maxInstanceOfSend c.SendOptionList _ hfresh
  have hrecords : (clientFolder c).records =
      (recordLink c.Alias c.bNew Folder.empty).records := by
    rw [clientFolder, records_saveLinks, records_saveLinks]
  have halias : loadAlias (clientFolder c) = c.Alias := by
    rw [← loadAlias_recordLink c.Alias c.bNew Folder.empty, loadAlias, loadAlias,
      Folder.getString, Folder.getString, Folder.GetRecord, Folder.GetRecord, hrecords]
  have hnew : loadNew (clientFolder c) = c.bNew := by
    rw [← loadNew_recordLink c.Alias c.bNew Folder.empty, loadNew, loadNew,
      Folder.getBool, Folder.getBool, Folder.GetRecord, Folder.GetRecord, hrecords]
  have hreqFolder : (clientFolder c).GetFolder COSA_IREP_FOLDER_NAME_DHCPV4_REQOPTION =
      if c.ReqOptionList = [] then none
      else some (linksFolder c.maxInstanceOfReq c.ReqOptionList) := by
    rw [clientFolder, houter, if_neg hnames, hinner, if_pos rfl]
  have hsendFolder : (clientFolder c).GetFolder COSA_IREP_FOLDER_NAME_DHCPV4_SENTOPTION =
      if c.SendOptionList = [] then none
      else some (linksFolder c.maxInstanceOfSend c.SendOptionList) := by
    rw [clientFolder, houter, if_pos rfl]
  rw [DhcpcLink.contents, loadClient, reloaded]
  simp only [hreqFolder, hsendFolder, halias, hnew, loadLinks_list hreq, loadLinks_list hsend,
    loadNext_list]

def saved (s : DatamodelDhcpv4) : List DhcpcLink := s.ClientList.filter fun c => !c.unsaved

theorem foldl_saveClient (list : List DhcpcLink) (fo : Folder) :
    list.foldl saveClient fo = (list.filter fun c => !c.unsaved).foldl (fun fo c =>
      fo.AddFolder (FolderName c.InstanceNumber) fun client =>
        saveLinks COSA_IREP_FOLDER_NAME_DHCPV4_SENTOPTION c.maxInstanceOfSend c.SendOptionList
          (saveLinks COSA_IREP_FOLDER_NAME_DHCPV4_REQOPTION c.maxInstanceOfReq c.ReqOptionList
            (recordLink c.Alias c.bNew client))) fo := by
  rw [List.foldl_filter]
  apply congrArg (fun f => list.foldl f fo)
  funext fo c
  rw [saveClient]
  cases c.unsaved <;> rfl

theorem GetFolder_RegSet (s : DatamodelDhcpv4) :
    (CosaDhcpv4RegSetDhcpv4Info s).GetFolder COSA_IREP_FOLDER_NAME_DHCPV4_CLIENT =
      some (s.ClientList.foldl saveClient (Folder.empty.AddRecord
        COSA_DML_RR_NAME_Dhcpv4NextInsNunmber (.uint32 s.maxInstanceOfClient))) ∧
    (CosaDhcpv4RegSetDhcpv4Info s).GetFolder COSA_IREP_FOLDER_NAME_DHCPV4_X_CISCO_COM_SADDR =
      none := by
  have hclient : COSA_IREP_FOLDER_NAME_DHCPV4_CLIENT ≠ COSA_IREP_FOLDER_NAME_DHCPV4_POOL := by
    decide
  have hpool : COSA_IREP_FOLDER_NAME_DHCPV4_X_CISCO_COM_SADDR ≠
      COSA_IREP_FOLDER_NAME_DHCPV4_POOL := by decide
  have hsaddr : COSA_IREP_FOLDER_NAME_DHCPV4_X_CISCO_COM_SADDR ≠
      COSA_IREP_FOLDER_NAME_DHCPV4_CLIENT := by decide
  constructor
  · rw [CosaDhcpv4RegSetDhcpv4Info, Folder.GetFolder_AddFolder, if_neg hclient,
      Folder.GetFolder_AddFolder_self]
    rfl
  · rw [CosaDhcpv4RegSetDhcpv4Info, Folder.GetFolder_AddFolder, if_neg hpool,
      Folder.GetFolder_AddFolder, if_neg hsaddr]
    rfl

theorem RegGet_RegSet {s : DatamodelDhcpv4} (hs : Numbered s) (t : DatamodelDhcpv4) :
    ∃ list, (CosaDhcpv4RegGetDhcpv4Info (CosaDhcpv4RegSetDhcpv4Info s) t).2 =
        { t with maxInstanceOfClient := s.maxInstanceOfClient, ClientList := list } ∧
      ((list.map DhcpcLink.contents : List Contents) : Multiset Contents) =
        ↑((saved s).map reloaded) + t.clients := by
  obtain ⟨hclient, hsaddr⟩ := GetFolder_RegSet s
  have hsaved : NumberedList DhcpcLink.InstanceNumber (saved s) := hs.clients.filter _
  have hnext (n : ULONG) : loadNext (s.ClientList.foldl saveClient (Folder.empty.AddRecord
      COSA_DML_RR_NAME_Dhcpv4NextInsNunmber (.uint32 s.maxInstanceOfClient))) n =
        s.maxInstanceOfClient := by
    rw [loadNext, Folder.getUint32, Folder.GetRecord, foldl_saveClient,
      Folder.records_foldl_AddFolder]
    exact congrArg (Option.getD · n) (getUint32_AddRecord Folder.empty
      COSA_DML_RR_NAME_Dhcpv4NextInsNunmber s.maxInstanceOfClient)
  have hfolders : (s.ClientList.foldl saveClient (Folder.empty.AddRecord
      COSA_DML_RR_NAME_Dhcpv4NextInsNunmber (.uint32 s.maxInstanceOfClient))).folders =
        (saved s).map fun c => (FolderName c.InstanceNumber, clientFolder c) := by
    rw [foldl_saveClient, Folder.folders_foldl_AddFolder
      (fun c : DhcpcLink => FolderName c.InstanceNumber) _
        (hs.clients.filter fun c => !c.unsaved).names fun c _ => List.not_mem_nil]
    rfl
  refine ⟨loadAll DhcpcLink.InstanceNumber loadClient (s.ClientList.foldl saveClient
    (Folder.empty.AddRecord COSA_DML_RR_NAME_Dhcpv4NextInsNunmber
      (.uint32 s.maxInstanceOfClient))).folders t.ClientList, ?_, ?_⟩
  · rw [CosaDhcpv4RegGetDhcpv4Info, hclient]
    simp only [hsaddr, hnext]
  · rw [hfolders, ← Multiset.map_coe, loadAll_saved _ _ DhcpcLink.InstanceNumber _ hsaved.pos,
      Multiset.map_add, Multiset.map_coe, Multiset.map_coe, List.map_map, DatamodelDhcpv4.clients]
    apply congrArg (fun l : List Contents => (l : Multiset Contents) +
      (t.ClientList.map DhcpcLink.contents : List Contents))
    apply List.map_congr_left
    intro c hc
    obtain ⟨hreq, hsend⟩ := hs.options c (List.mem_of_mem_filter hc)
    exact contents_loadClient _ hreq hsend

theorem map_cutLink_iff (list : List ContextLink) :
    ((list.map cutLink : List ContextLink) : Multiset ContextLink) = list ↔
      ∀ l ∈ list, l.InstanceNumber.toNat < 2 ^ 31 := by
  constructor
  · intro h l hl
    have hmem : l ∈ ((list.map cutLink : List ContextLink) : Multiset ContextLink) := by
      rw [h]
      exact hl
    obtain ⟨l', -, rfl⟩ := List.mem_map.mp hmem
    exact cut_lt l'.InstanceNumber
  · intro h
    apply congrArg (fun l : List ContextLink => (l : Multiset ContextLink))
    refine (List.map_congr_left fun l hl => ?_).trans (List.map_id list)
    rw [cutLink, cut_of_lt (h l hl)]
    rfl

theorem listSaved_iff (list : List ContextLink) (maxInstance : ULONG) :
    (((list.filter fun l => l.bNew).map cutLink : List ContextLink) : Multiset ContextLink) =
        (list.filter fun l => l.bNew : List ContextLink) ∧
      (if list = [] then 0 else maxInstance) = maxInstance ↔ ListSaved list maxInstance := by
  rw [map_cutLink_iff, ListSaved]
  refine and_congr ?_ ?_
  · simp only [List.mem_filter, and_imp]
  · by_cases hnil : list = []
    · rw [if_pos hnil]
      exact ⟨fun h _ => h.symm, fun h => (h hnil).symm⟩
    · rw [if_neg hnil]
      exact iff_of_true rfl fun h => absurd h hnil

theorem kept_of_new {c : DhcpcLink} (h : c.bNew = true) : c.contents.kept =
    { c.contents with
      first := (c.ReqOptionList.filter fun l => l.bNew : List ContextLink)
      second := (c.SendOptionList.filter fun l => l.bNew : List ContextLink) } := by
  have hnew : c.contents.bNew = true := h
  rw [Contents.kept, if_pos hnew, DhcpcLink.contents]
  simp only [Multiset.filter_coe, Bool.decide_eq_true]

theorem kept_of_committed {c : Contents} (h : c.bNew = false) : c.kept = c := by
  rw [Contents.kept, h]
  rfl

theorem reloaded_iff {c : DhcpcLink} (h : c.bNew = true) : reloaded c = c.contents.kept ↔
    c.InstanceNumber.toNat < 2 ^ 31 ∧ ListSaved c.ReqOptionList c.maxInstanceOfReq ∧
      ListSaved c.SendOptionList c.maxInstanceOfSend := by
  rw [kept_of_new h, ← listSaved_iff, ← listSaved_iff, Contents.ext_iff]
  have hcut : cut c.InstanceNumber = c.InstanceNumber ↔ c.InstanceNumber.toNat < 2 ^ 31 := by
    refine ⟨fun heq => ?_, cut_of_lt⟩
    rw [← heq]
    exact cut_lt _
  rw [← hcut]
  constructor
  · rintro ⟨hnumber, -, -, hfirst, hsecond, hmaxFirst, hmaxSecond⟩
    exact ⟨hnumber, ⟨hfirst, hmaxFirst⟩, hsecond, hmaxSecond⟩
  · rintro ⟨hnumber, ⟨hfirst, hmaxFirst⟩, hsecond, hmaxSecond⟩
    exact ⟨hnumber, rfl, rfl, hfirst, hsecond, hmaxFirst, hmaxSecond⟩

theorem map_reloaded_iff {list : List DhcpcLink}
    (h : NumberedList DhcpcLink.InstanceNumber list) :
    ((list.map reloaded : List Contents) : Multiset Contents) =
        (list.map fun c => c.contents.kept : List Contents) ↔
      ∀ c ∈ list, reloaded c = c.contents.kept := by
  have hnumber (c : DhcpcLink) : c.contents.kept.InstanceNumber = c.InstanceNumber := by
    rw [Contents.kept]
    split <;> rfl
  constructor
  · intro hall c hc
    have hlt : c.InstanceNumber.toNat < 2 ^ 31 := by
      have hmem : c.contents.kept ∈ ((list.map reloaded : List Contents) : Multiset Contents) := by
        rw [hall]
        exact List.mem_map.mpr ⟨c, hc, rfl⟩
      obtain ⟨c', -, hc'⟩ := List.mem_map.mp hmem
      rw [← hnumber c, ← hc']
      exact cut_lt c'.InstanceNumber
    have hmem : reloaded c ∈
        ((list.map fun c => c.contents.kept : List Contents) : Multiset Contents) := by
      rw [← hall]
      exact List.mem_map.mpr ⟨c, hc, rfl⟩
    obtain ⟨c', hc', heq⟩ := List.mem_map.mp hmem
    have hsame : c'.InstanceNumber = c.InstanceNumber := by
      rw [← hnumber c', heq]
      exact cut_of_lt hlt
    rw [← heq, KeyedList.eq_of_key h.distinct hc' hc hsame]
  · intro hall
    rw [List.map_congr_left hall]

theorem committed_of_mem {table held : Multiset Contents}
    (h : held.map (fun c => { c with maxFirst := 0, maxSecond := 0 }) = committedOf table)
    {c : Contents} (hc : c ∈ held) : c.bNew = false ∧ (∀ l ∈ c.first, l.bNew = false) ∧
      ∀ l ∈ c.second, l.bNew = false := by
  have hmem : ({ c with maxFirst := 0, maxSecond := 0 } : Contents) ∈ committedOf table := by
    rw [← h]
    exact Multiset.mem_map_of_mem _ hc
  obtain ⟨a, ha, heq⟩ := Multiset.mem_map.mp hmem
  obtain ⟨-, -, hnew, hfirst, hsecond, -⟩ := Contents.ext_iff.mp heq
  refine ⟨hnew.symm.trans (Multiset.mem_filter.mp ha).2, fun l hl => ?_, fun l hl => ?_⟩
  · have hl' : l ∈ c.first := hl
    rw [show c.first = a.first.filter fun l => l.bNew = false from hfirst.symm] at hl'
    exact (Multiset.mem_filter.mp hl').2
  · have hl' : l ∈ c.second := hl
    rw [show c.second = a.second.filter fun l => l.bNew = false from hsecond.symm] at hl'
    exact (Multiset.mem_filter.mp hl').2

variable {s t : DatamodelDhcpv4}

theorem pools_iff (ht : HoldsCommitted s t) :
    t.pools = s.pools.map Contents.kept ↔
      t.pools = s.pools ∧ ∀ p ∈ s.PoolList, p.bNew = false ∧
        (∀ l ∈ p.StaticAddressList, l.bNew = false) ∧ ∀ l ∈ p.OptionList, l.bNew = false := by
  have hkept (h : ∀ p ∈ s.PoolList, p.bNew = false) : s.pools.map Contents.kept = s.pools := by
    refine (Multiset.map_congr rfl fun c hc => ?_).trans (Multiset.map_id s.pools)
    obtain ⟨p, hp, rfl⟩ := List.mem_map.mp hc
    exact kept_of_committed (h p hp)
  constructor
  · intro h
    have hold : ∀ p ∈ s.PoolList, p.bNew = false := by
      intro p hp
      have hmem : p.contents.kept ∈ t.pools := by
        rw [h]
        exact Multiset.mem_map_of_mem _ (List.mem_map.mpr ⟨p, hp, rfl⟩)
      have hfalse := (committed_of_mem ht.pools hmem).1
      rw [Contents.kept] at hfalse
      split at hfalse
      · exact hfalse
      · exact hfalse
    rw [hkept hold] at h
    refine ⟨h, fun p hp => ?_⟩
    have hmem : p.contents ∈ t.pools := by
      rw [h]
      exact List.mem_map.mpr ⟨p, hp, rfl⟩
    exact committed_of_mem ht.pools hmem
  · rintro ⟨h, hall⟩
    rw [hkept fun p hp => (hall p hp).1, h]

def newClients (s : DatamodelDhcpv4) : List DhcpcLink := s.ClientList.filter fun c => c.bNew

def oldClients (s : DatamodelDhcpv4) : List DhcpcLink := s.ClientList.filter fun c => !c.bNew

theorem unsaved_iff (c : DhcpcLink) : c.unsaved = true ↔ c.bNew = false ∧
    c.ReqOptionList = [] ∧ c.SendOptionList = [] ∧ c.maxInstanceOfReq = 0 ∧
      c.maxInstanceOfSend = 0 := by
  simp only [DhcpcLink.unsaved, Bool.and_eq_true, Bool.not_eq_true', decide_eq_true_eq]
  tauto

theorem filter_saved_new (s : DatamodelDhcpv4) :
    (saved s).filter (fun c => c.bNew) = newClients s := by
  rw [saved, List.filter_filter, newClients]
  apply List.filter_congr
  intro c _
  cases hnew : c.bNew with
  | false => rfl
  | true =>
    have hsaved : c.unsaved = false := by
      rw [Bool.eq_false_iff]
      intro h
      rw [((unsaved_iff c).mp h).1] at hnew
      cases hnew
    rw [hsaved]
    rfl

theorem map_kept_clients (s : DatamodelDhcpv4) : s.clients.map Contents.kept =
    (s.ClientList.map fun c => c.contents.kept : List Contents) := by
  rw [DatamodelDhcpv4.clients, Multiset.map_coe, List.map_map]
  rfl

theorem bNew_kept (c : DhcpcLink) : c.contents.kept.bNew = c.bNew := by
  rw [Contents.kept]
  split <;> rfl

theorem new_of_restored (ht : HoldsCommitted s t)
    (h : ↑((saved s).map reloaded) + t.clients = s.clients.map Contents.kept) :
    (((newClients s).map reloaded : List Contents) : Multiset Contents) =
      ((newClients s).map fun c => c.contents.kept : List Contents) := by
  have hfilter := congrArg (Multiset.filter fun c => c.bNew = true) h
  have hnone : t.clients.filter (fun c => c.bNew = true) = 0 := by
    rw [Multiset.filter_eq_nil]
    intro c hc hnew
    rw [(committed_of_mem ht.clients hc).1] at hnew
    cases hnew
  rw [Multiset.filter_add, hnone, Multiset.add_zero, map_kept_clients, Multiset.filter_coe,
    Multiset.filter_coe, List.filter_map, List.filter_map] at hfilter
  have hleft : (saved s).filter ((fun c : Contents => decide (c.bNew = true)) ∘ reloaded) =
      newClients s := by
    rw [← filter_saved_new]
    exact List.filter_congr fun c _ => Bool.decide_eq_true
  have hright : s.ClientList.filter ((fun c : Contents => decide (c.bNew = true)) ∘
      fun c => c.contents.kept) = newClients s := by
    refine List.filter_congr fun c _ => ?_
    rw [Function.comp_apply, bNew_kept, Bool.decide_eq_true]
  rwa [hleft, hright] at hfilter

theorem old_of_restored (ht : HoldsCommitted s t)
    (h : ↑((saved s).map reloaded) + t.clients = s.clients.map Contents.kept) :
    (saved s).filter (fun c => !c.bNew) = [] ∧
      t.clients = ((oldClients s).map DhcpcLink.contents : List Contents) := by
  have hfilter := congrArg (Multiset.filter fun c => c.bNew = false) h
  have hall : t.clients.filter (fun c => c.bNew = false) = t.clients :=
    Multiset.filter_eq_self.mpr fun c hc => (committed_of_mem ht.clients hc).1
  have hright : s.ClientList.filter ((fun c : Contents => decide (c.bNew = false)) ∘
      fun c => c.contents.kept) = oldClients s := by
    refine List.filter_congr fun c _ => ?_
    rw [Function.comp_apply, bNew_kept]
    cases c.bNew <;> rfl
  have hleft : (saved s).filter ((fun c : Contents => decide (c.bNew = false)) ∘ reloaded) =
      (saved s).filter fun c => !c.bNew := by
    refine List.filter_congr fun c _ => ?_
    rw [Function.comp_apply, reloaded]
    cases c.bNew <;> rfl
  have hkept : (oldClients s).map (fun c => c.contents.kept) =
      (oldClients s).map DhcpcLink.contents := by
    refine List.map_congr_left fun c hc => kept_of_committed ?_
    exact Bool.not_eq_true' _ |>.mp (List.mem_filter.mp hc).2
  rw [Multiset.filter_add, hall, map_kept_clients, Multiset.filter_coe, Multiset.filter_coe,
    List.filter_map, List.filter_map, hleft, hright, hkept] at hfilter
  -- the numbers of entries leave no room for a saved one
  have hcard : Multiset.card t.clients = (oldClients s).length := by
    have hheld := congrArg Multiset.card ht.clients
    have htable : s.clients = (s.ClientList.map DhcpcLink.contents : List Contents) := rfl
    rw [Multiset.card_map, committedOf, Multiset.card_map, htable, Multiset.filter_coe,
      List.filter_map, Multiset.coe_card, List.length_map] at hheld
    rw [hheld, oldClients]
    apply congrArg List.length
    refine List.filter_congr fun c _ => ?_
    rw [Function.comp_apply, DhcpcLink.contents]
    cases c.bNew <;> rfl
  have hnil : (saved s).filter (fun c => !c.bNew) = [] := by
    have hsum := congrArg Multiset.card hfilter
    rw [Multiset.card_add, hcard, Multiset.coe_card, Multiset.coe_card, List.length_map,
      List.length_map] at hsum
    exact List.length_eq_zero_iff.mp (by omega)
  rw [hnil, List.map_nil, Multiset.coe_nil, Multiset.zero_add] at hfilter
  exact ⟨hnil, hfilter⟩

theorem clients_iff (hs : Numbered s) (ht : HoldsCommitted s t) :
    ↑((saved s).map reloaded) + t.clients = s.clients.map Contents.kept ↔
      (∀ c ∈ s.ClientList, c.bNew = false → c.ReqOptionList = [] ∧ c.SendOptionList = [] ∧
        c.maxInstanceOfReq = 0 ∧ c.maxInstanceOfSend = 0) ∧
      (∀ c ∈ s.ClientList, c.bNew = true → c.InstanceNumber.toNat < 2 ^ 31 ∧
        ListSaved c.ReqOptionList c.maxInstanceOfReq ∧
          ListSaved c.SendOptionList c.maxInstanceOfSend) ∧
      ∀ c ∈ t.ClientList, c.maxInstanceOfReq = 0 ∧ c.maxInstanceOfSend = 0 := by
  have hnew : (∀ c ∈ newClients s, reloaded c = c.contents.kept) ↔
      ∀ c ∈ s.ClientList, c.bNew = true → c.InstanceNumber.toNat < 2 ^ 31 ∧
        ListSaved c.ReqOptionList c.maxInstanceOfReq ∧
          ListSaved c.SendOptionList c.maxInstanceOfSend := by
    simp only [newClients, List.mem_filter, and_imp]
    refine forall₂_congr fun c _ => forall_congr' fun hc => ?_
    exact reloaded_iff hc
  have hnumbered : NumberedList DhcpcLink.InstanceNumber (newClients s) := hs.clients.filter _
  rw [← hnew, ← map_reloaded_iff hnumbered]
  constructor
  · intro h
    obtain ⟨hnil, hheld⟩ := old_of_restored ht h
    have hold : ∀ c ∈ s.ClientList, c.bNew = false → c.ReqOptionList = [] ∧
        c.SendOptionList = [] ∧ c.maxInstanceOfReq = 0 ∧ c.maxInstanceOfSend = 0 := by
      intro c hc hfalse
      by_contra hsome
      have hsaved : c.unsaved = false := by
        rw [Bool.eq_false_iff]
        exact fun h => hsome ((unsaved_iff c).mp h).2
      have hmem : c ∈ (saved s).filter fun c => !c.bNew := by
        rw [saved, List.filter_filter, List.mem_filter, hsaved, hfalse]
        exact ⟨hc, rfl⟩
      rw [hnil] at hmem
      cases hmem
    refine ⟨hold, new_of_restored ht h, fun c hc => ?_⟩
    have hmem : c.contents ∈ t.clients := List.mem_map.mpr ⟨c, hc, rfl⟩
    rw [hheld] at hmem
    obtain ⟨c', hc', heq⟩ := List.mem_map.mp hmem
    obtain ⟨hc', hfalse⟩ := List.mem_filter.mp hc'
    obtain ⟨-, -, hreq, hsend⟩ := hold c' hc' ((Bool.not_eq_true' _).mp hfalse)
    obtain ⟨-, -, -, -, -, hmaxFirst, hmaxSecond⟩ := Contents.ext_iff.mp heq
    exact ⟨hmaxFirst.symm.trans hreq, hmaxSecond.symm.trans hsend⟩
  · rintro ⟨hold, hnews, hzero⟩
    have hsaved : saved s = newClients s := by
      refine List.filter_congr fun c hc => ?_
      cases hb : c.bNew with
      | true =>
        have hnot : c.unsaved = false := by
          rw [Bool.eq_false_iff]
          intro h
          rw [((unsaved_iff c).mp h).1] at hb
          cases hb
        rw [hnot]
        rfl
      | false =>
        rw [(unsaved_iff c).mpr ⟨hb, hold c hc hb⟩]
        rfl
    -- without next numbers the committed part is what is held
    have hbare : t.clients.map (fun c => { c with maxFirst := 0, maxSecond := 0 }) =
        t.clients := by
      refine (Multiset.map_congr rfl fun c hc => ?_).trans (Multiset.map_id _)
      obtain ⟨a, ha, rfl⟩ := List.mem_map.mp hc
      obtain ⟨hreq, hsend⟩ := hzero a ha
      exact Contents.ext rfl rfl rfl rfl rfl hreq.symm hsend.symm
    have hheld : t.clients =
        ((oldClients s).map fun c => c.contents.kept : List Contents) := by
      have hcommitted := ht.clients
      have htable : s.clients = (s.ClientList.map DhcpcLink.contents : List Contents) := rfl
      have hold' : s.ClientList.filter ((fun c : Contents => decide (c.bNew = false)) ∘
          DhcpcLink.contents) = oldClients s := by
        refine List.filter_congr fun c _ => ?_
        rw [Function.comp_apply, DhcpcLink.contents]
        cases c.bNew <;> rfl
      rw [hbare, committedOf, htable, Multiset.filter_coe, List.filter_map, hold',
        Multiset.map_coe, List.map_map] at hcommitted
      rw [hcommitted]
      apply congrArg (fun l : List Contents => (l : Multiset Contents))
      refine List.map_congr_left fun c hc => ?_
      obtain ⟨hc, hfalse⟩ := List.mem_filter.mp hc
      have hfalse := (Bool.not_eq_true' _).mp hfalse
      obtain ⟨hreq, hsend, hmaxReq, hmaxSend⟩ := hold c hc hfalse
      rw [kept_of_committed (c := c.contents) hfalse, Function.comp_apply, Contents.committed,
        DhcpcLink.contents, hreq, hsend, hmaxReq, hmaxSend]
      rfl
    have hsplit : s.clients.map Contents.kept =
        ((newClients s).map fun c => c.contents.kept : List Contents) +
          ((oldClients s).map fun c => c.contents.kept : List Contents) := by
      rw [map_kept_clients, ← Multiset.map_coe, ← Multiset.map_coe, ← Multiset.map_coe,
        ← Multiset.map_add, newClients, oldClients]
      apply congrArg (Multiset.map fun c : DhcpcLink => c.contents.kept)
      exact Multiset.coe_eq_coe.mpr (List.filter_append_perm (fun c => c.bNew) s.ClientList).symm
    rw [hsplit, ← hheld, ← hnews, hsaved]

/-- A save and a load bring everything back just where no pool is new and each client that is
saved is a new one that comes back. -/
theorem dhcpv4_restored_iff (s t : DatamodelDhcpv4) (hs : Numbered s) (ht : HoldsCommitted s t) :
    Restores s t (CosaDhcpv4RegGetDhcpv4Info (CosaDhcpv4RegSetDhcpv4Info s) t).2 ↔
      Survives s t := by
  obtain ⟨list, hload, hclients⟩ := RegGet_RegSet hs t
  rw [hload]
  constructor
  · intro h
    obtain ⟨hcommitted, hnew, hzero⟩ := (clients_iff hs ht).mp (hclients.symm.trans h.clients)
    obtain ⟨hpools, hall⟩ := (pools_iff ht).mp h.pools
    exact ⟨hcommitted, hnew, hzero, hall, hpools, h.next.2⟩
  · rintro ⟨hcommitted, hnew, hzero, hall, hpools, hnext⟩
    refine ⟨hclients.trans ((clients_iff hs ht).mpr ⟨hcommitted, hnew, hzero⟩),
      (pools_iff ht).mpr ⟨hpools, hall⟩, rfl, rfl, hnext⟩

def exampleClient : DhcpcLink :=
  ⟨1, "Client1".toList, true, [], [⟨1, "ReqOption1".toList, true⟩], 0, 1⟩

def exampleState : DatamodelDhcpv4 := ⟨[exampleClient], 1, [], 0, [], 0⟩

def emptyState : DatamodelDhcpv4 := ⟨[], 0, [], 0, [], 0⟩

theorem numbered_example (o : DatamodelDhcpv4) (h : o.ClientList = [exampleClient]) :
    Numbered o := by
  have hone : NumberedList ContextLink.InstanceNumber exampleClient.ReqOptionList :=
    ⟨List.nodup_singleton _, by decide⟩
  have hnone : NumberedList ContextLink.InstanceNumber exampleClient.SendOptionList :=
    ⟨List.nodup_nil, by decide⟩
  refine ⟨?_, fun c hc => ?_⟩
  · rw [h]
    exact ⟨List.nodup_singleton _, by decide⟩
  · rw [h] at hc
    rw [List.mem_singleton.mp hc]
    exact ⟨hone, hnone⟩

theorem dhcpv4_restored_client : Restores exampleState emptyState
    (CosaDhcpv4RegGetDhcpv4Info (CosaDhcpv4RegSetDhcpv4Info exampleState) emptyState).2 := by
  apply (dhcpv4_restored_iff exampleState emptyState (numbered_example _ rfl) ⟨rfl, rfl⟩).mpr
  exact {
    committed := by decide
    new := by
      intro c hc _
      rw [List.mem_singleton.mp hc]
      refine ⟨by decide, ⟨by decide, by decide⟩, by decide, by decide⟩
    clients := by decide
    pools := by decide
    next := ⟨rfl, rfl, rfl⟩ }

/-- A new pool is lost. -/
theorem pool_lost : ¬ ∀ s t, Numbered s → HoldsCommitted s t → Restores s t
    (CosaDhcpv4RegGetDhcpv4Info (CosaDhcpv4RegSetDhcpv4Info s) t).2 := by
  intro h
  have hrestored := h ⟨[], 0, [], 0, [⟨1, "Pool1".toList, true, [], [], 0, 0⟩], 0⟩ emptyState
    ⟨⟨List.nodup_nil, by decide⟩, fun c hc => by cases hc⟩ ⟨rfl, rfl⟩
  have hcard := congrArg Multiset.card hrestored.pools
  rw [Multiset.card_map] at hcard
  cases hcard

end Law

end CcspPandM.Dhcpv4Registry
