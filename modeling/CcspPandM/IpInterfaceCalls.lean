import CcspPandM.MlanInterfaces
import CcspPandM.TextSearch

/-!
The table of IP interfaces is made of two: a few fixed interfaces kept in buffers, and the
list of a device with several LANs, which begins where the last fixed one would stand. Every
operation chooses between the two by a comparison of its own. An operation is modelled by its
answer, by what it reaches, and by the buffers, the list and the records that it leaves.
-/
namespace CcspPandM.IpInterfaceCalls

open CString KeyedList TextSearch
open MlanInterfaces (ULONG ANSC_STATUS COSA_DML_IF_STATUS COSA_DML_LINK_TYPE COSA_DML_IP_IF_CFG
  COSA_DML_IP_IF_INFO COSA_DML_IP_IF_FULL DMSB_TR181_IP_IF DMSB_TR181_IP_CONTEXT Psm System brlan0
  instanceOf strcpy_s CosaDmlIpIfMlanFindByInstNum)

section Code

/-- What the builds differ in: whether `wan0` is one of the fixed interfaces, and
`CISCO_CONFIG_DHCPV6_PREFIX_DELEGATION`. -/
structure Build where
  wan0 : Bool
  delegation : Bool

def COSA_USG_IF_NUM (build : Build) : ℕ := if build.wan0 then 4 else 3

structure USG_IF_CFG where
  IfName : CStr
  LinkType : COSA_DML_LINK_TYPE

def erouter0 : CStr := "erouter0".toList

def lo : CStr := "lo".toList

/-- The codes are those of DOCSIS and of a bridge. -/
def g_usg_if_cfg (build : Build) : List USG_IF_CFG :=
  if build.wan0 then
    [⟨erouter0, .EthLink⟩, ⟨"wan0".toList, .other 12⟩, ⟨lo, .EthLink⟩, ⟨brlan0, .other 10⟩]
  else [⟨erouter0, .EthLink⟩, ⟨lo, .EthLink⟩, ⟨brlan0, .other 10⟩]

/-- The names are copied once, and those behind the table stay empty. -/
def g_ipif_names (build : Build) (i : ℕ) : CStr :=
  (((g_usg_if_cfg build).map USG_IF_CFG.IfName)[i]?).getD []

structure COSA_DML_IP_V4ADDR where
  InstanceNumber : ULONG
  Alias : Buf 512
  IPAddress : ULONG
  SubnetMask : ULONG

/-- The two lists of an interface that are kept for IPv6. -/
inductive V6Table where
  | address
  | pref
  deriving DecidableEq

/-- A `COSA_DML_IP_V6ADDR` or `COSA_DML_IP_V6PREFIX`, with its address or its prefix. -/
structure V6Entry where
  InstanceNumber : ULONG
  text : Buf 64

/-- A buffer; of the IPv4 addresses only the first is used. -/
structure COSA_PRI_IP_IF_FULL where
  Cfg : COSA_DML_IP_IF_CFG
  Info : COSA_DML_IP_IF_INFO
  V4Addr : COSA_DML_IP_V4ADDR
  V6List : V6Table → List V6Entry

/-- The buffers of the fixed interfaces, the list with its store, and the address records
`dmsb.l3net.%d.V4Addr` and `V4SubnetMask` of the store. -/
structure State where
  g_ipif_be_bufs : ℕ → COSA_PRI_IP_IF_FULL
  pIpContext : DMSB_TR181_IP_CONTEXT
  V4Addr : ULONG → Option ULONG
  V4SubnetMask : ULONG → Option ULONG

/-- What the system, Utopia and sysevent say during a call, by the name of an interface.
`IPIF_getEntry` is what reading the kernel and syscfg makes of a list. -/
structure World where
  sys : System
  uptime : ULONG
  mtu : CStr → ULONG
  IfAddr : CStr → ULONG
  netmask : CStr → ULONG
  tr_alias : CStr → CStr
  tr_v4addr_alias : CStr → CStr
  IPIF_getEntry : V6Table → CStr → List V6Entry → List V6Entry
  multinet_name : ULONG → CStr
  ipv6_value : V6Table → CStr → CStr

/-- What an operation reads or writes, the search for an instance number apart: a buffer, what
is kept under a name of `g_ipif_names`, the device of a link name, the address and mask of the
LAN in Utopia, an interface of the list, and its records in the store. -/
inductive Access where
  | buf (i : ℕ)
  | name (i : ℕ)
  | link (t : CStr)
  | LAN
  | entry (n : ULONG)
  | records (n : ULONG)
  deriving DecidableEq

inductive Answer where
  | SUCCESS
  | FAILURE
  | CANT_FIND
  | UNAPPLICABLE
  | NULL
  | cfg (pCfg : COSA_DML_IP_IF_CFG)
  | info (pInfo : COSA_DML_IP_IF_INFO)
  | ifStatus (status : COSA_DML_IF_STATUS)
  | count (n : ℕ)
  | v4 (pEntry : COSA_DML_IP_V4ADDR)
  | v6 (pEntry : V6Entry)
  | v6s (entries : List V6Entry)

def Answer.of : ANSC_STATUS → Answer
  | .SUCCESS => .SUCCESS
  | .FAILURE => .FAILURE
  | .CANT_FIND => .CANT_FIND

structure Outcome where
  answer : Answer
  accesses : List Access
  after : State

variable (build : Build) (w : World)

variable (s : State)

def State.setBuf (i : ℕ) (b : COSA_PRI_IP_IF_FULL) : State :=
  { s with g_ipif_be_bufs := Function.update s.g_ipif_be_bufs i b }

/-- A text of Utopia, or the one that is put there instead. -/
def aliasOr (out fallback : CStr) : Buf 512 :=
  if out = [] then Buf.sprintf_s fallback else Buf.snprintf out

section Table

/-- There is an overlapping interface. -/
def CosaDmlIpIfGetNumberOfEntries : ℕ :=
  COSA_USG_IF_NUM build + s.pIpContext.IpIfList.length - 1

def CosaDmlIpIfMlanGetEntry (ulIndex : ℕ) (pEntry : COSA_DML_IP_IF_FULL) :
    ANSC_STATUS × COSA_DML_IP_IF_FULL :=
  match s.pIpContext.IpIfList[ulIndex]? with
  | some pIpIf => (.SUCCESS, ⟨pIpIf.Cfg, pIpIf.Info⟩)
  | none => (.FAILURE, pEntry)

/-- The entry of a fixed interface: the row `i` of the table has its name. -/
def fixedEntry (i ulIndex : ℕ) (pEntry : COSA_DML_IP_IF_FULL) : COSA_DML_IP_IF_FULL :=
  let name := g_ipif_names build ulIndex
  { Cfg :=
      { pEntry.Cfg with
        InstanceNumber := BitVec.ofNat 32 (1 + i)
        bEnabled := true
        LinkType := ((g_usg_if_cfg build)[i]?.map USG_IF_CFG.LinkType).getD .none
        IfType := if name = lo then .other 2 else .Normal
        Loopback := name = lo
        MaxMTUSize := w.mtu name
        AutoIPEnable := false
        LinkName := strcpy_s name
        Alias := aliasOr (w.tr_alias name) ("Interface_".toList ++ name)
        RouterName := Buf.empty }
    Info := ⟨strcpy_s name, w.uptime⟩ }

def CosaDmlIpIfGetEntry (ulIndex : ℕ) (pEntry : COSA_DML_IP_IF_FULL) :
    ANSC_STATUS × COSA_DML_IP_IF_FULL × State :=
  if COSA_USG_IF_NUM build - 1 ≤ ulIndex then
    let r := CosaDmlIpIfMlanGetEntry s (ulIndex - (COSA_USG_IF_NUM build - 1)) pEntry
    (r.1, r.2, s)
  else
    match (g_usg_if_cfg build).findIdx? fun row => g_ipif_names build ulIndex = row.IfName with
    | none => (.FAILURE, { pEntry with Cfg := { pEntry.Cfg with InstanceNumber := 0 } }, s)
    | some i =>
      let pEntry := fixedEntry build w i ulIndex pEntry
      (.SUCCESS, pEntry, s.setBuf ulIndex
        { s.g_ipif_be_bufs ulIndex with Cfg := pEntry.Cfg, Info := pEntry.Info })

end Table

section Fixed

def fixedSetCfg (i : ℕ) (pCfg : COSA_DML_IP_IF_CFG) : Outcome :=
  let b := s.g_ipif_be_bufs i
  let newAlias := pCfg.Alias.text ≠ b.Cfg.Alias.text
  let newMtu := pCfg.MaxMTUSize ≠ b.Cfg.MaxMTUSize
  let MaxMTUSize :=
    if (strstr erouter0 pCfg.LinkName.text).isSome ∧ pCfg.MaxMTUSize = 0 then 1500
    else pCfg.MaxMTUSize
  let Cfg := if newAlias then { b.Cfg with Alias := strcpy_s pCfg.Alias.text } else b.Cfg
  let Cfg := if newMtu then { Cfg with MaxMTUSize := MaxMTUSize } else Cfg
  ⟨.SUCCESS, .buf i :: (if newAlias then [.name i] else []) ++
      (if newMtu then [.link pCfg.LinkName.text] else []),
    s.setBuf i { b with Cfg := Cfg }⟩

def fixedGetCfg (i : ℕ) : Outcome := ⟨.cfg (s.g_ipif_be_bufs i).Cfg, [.buf i], s⟩

def fixedGetInfo (i : ℕ) : Outcome := ⟨.info (s.g_ipif_be_bufs i).Info, [.buf i], s⟩

def fixedGetV4Addr (i ulIndex : ℕ) : Outcome :=
  let name := g_ipif_names build i
  let pEntry : COSA_DML_IP_V4ADDR :=
    { InstanceNumber := BitVec.ofNat 32 (ulIndex + 1)
      Alias := aliasOr (w.tr_v4addr_alias name) ("Interface_".toList ++ decimal (ulIndex + 1))
      IPAddress := w.IfAddr name
      SubnetMask := w.netmask name }
  ⟨.v4 pEntry, [.name i, .buf i], s.setBuf i { s.g_ipif_be_bufs i with V4Addr := pEntry }⟩

def fixedSetV4Addr (i : ℕ) (pEntry : COSA_DML_IP_V4ADDR) : Outcome :=
  let name := g_ipif_names build i
  let b := s.g_ipif_be_bufs i
  let newAlias := pEntry.Alias.text ≠ b.V4Addr.Alias.text
  let V4Addr : COSA_DML_IP_V4ADDR :=
    { b.V4Addr with
      Alias := if newAlias then strcpy_s pEntry.Alias.text else b.V4Addr.Alias
      IPAddress := pEntry.IPAddress
      SubnetMask := pEntry.SubnetMask }
  let maskAccess : List Access :=
    if pEntry.SubnetMask = b.V4Addr.SubnetMask then []
    else if (strstr "lan".toList name).isSome then [.LAN]
    else if name = lo then [.name i]
    else []
  ⟨.SUCCESS, .buf i :: (if newAlias then [.name i] else []) ++
      (if pEntry.IPAddress ≠ b.V4Addr.IPAddress then [.LAN] else []) ++ maskAccess,
    s.setBuf i { b with V4Addr := V4Addr }⟩

def fixedGetV4Addr2 (i : ℕ) : Outcome :=
  ⟨.v4 (s.g_ipif_be_bufs i).V4Addr, [.buf i], s⟩

def withV6 (b : COSA_PRI_IP_IF_FULL) (table : V6Table) (l : List V6Entry) : COSA_PRI_IP_IF_FULL :=
  { b with V6List := Function.update b.V6List table l }

/-- The list is read anew before it is given out. -/
def fixedGetV6 (table : V6Table) (s : State) (i : ℕ) : Outcome :=
  let b := s.g_ipif_be_bufs i
  let l := w.IPIF_getEntry table (g_ipif_names build i) (b.V6List table)
  ⟨.v6s l, [.name i, .buf i], s.setBuf i (withV6 b table l)⟩

def MAX_IPV6_ENTRY_NUM : ℕ := 20

/-- What an operation does in the slot that has the number; `none` goes on to the next. -/
def fixedAddV6 (table : V6Table) (s : State) (pEntry : V6Entry) (i : ℕ) : Option Outcome :=
  let b := s.g_ipif_be_bufs i
  if MAX_IPV6_ENTRY_NUM ≤ (b.V6List table).length then some ⟨.FAILURE, [.buf i], s⟩
  else some ⟨.SUCCESS, [.buf i, .name i],
    s.setBuf i (withV6 b table (b.V6List table ++ [pEntry]))⟩

def fixedDelV6 (table : V6Table) (s : State) (pEntry : V6Entry) (i : ℕ) : Option Outcome :=
  let b := s.g_ipif_be_bufs i
  match (b.V6List table).findIdx? fun e => e.InstanceNumber = pEntry.InstanceNumber with
  | none => none
  | some j => some ⟨.SUCCESS, [.buf i, .name i],
      s.setBuf i (withV6 b table ((b.V6List table).eraseIdx j))⟩

def fixedSetV6 (table : V6Table) (s : State) (pEntry : V6Entry) (i : ℕ) : Option Outcome :=
  let b := s.g_ipif_be_bufs i
  match (b.V6List table).findIdx? fun e => e.InstanceNumber = pEntry.InstanceNumber with
  | none => none
  | some j => some ⟨.SUCCESS, [.buf i, .name i],
      s.setBuf i (withV6 b table ((b.V6List table).set j pEntry))⟩

def fixedGetV6Entry (table : V6Table) (s : State) (pEntry : V6Entry) (i : ℕ) : Option Outcome :=
  match ((s.g_ipif_be_bufs i).V6List table).find? fun e =>
    e.InstanceNumber = pEntry.InstanceNumber with
  | none => none
  | some e => some ⟨.v6 e, [.buf i], s⟩

def searchSlots (n : ULONG) (body : ℕ → Option Outcome) (last : Answer) :
    List ℕ → Outcome
  | [] => ⟨last, [], s⟩
  | i :: is =>
    if n = (s.g_ipif_be_bufs i).Cfg.InstanceNumber then
      match body i with
      | some o => o
      | none =>
        let o := searchSlots n body last is
        { o with accesses := .buf i :: o.accesses }
    else searchSlots n body last is

end Fixed

section Mlan

/-- The interface at a place of the list. -/
def CosaDmlIpIfMlanSetValues (ulIndex : ℕ) (pAlias : CStr) : Outcome :=
  let r := MlanInterfaces.CosaDmlIpIfMlanSetValues s.pIpContext ulIndex pAlias
  ⟨.of r.1,
    match s.pIpContext.IpIfList[ulIndex]? with
    | none => []
    | some pIpIf =>
      if 512 ≤ pAlias.length then [.entry (instanceOf pIpIf)]
      else [.entry (instanceOf pIpIf), .records (instanceOf pIpIf)],
    { s with pIpContext := r.2 }⟩

def foundAccesses (n : ULONG) (accesses : List Access) : List Access :=
  match CosaDmlIpIfMlanFindByInstNum s.pIpContext n with
  | none => []
  | some _ => accesses

/-- The records of the addresses lie below `dmsb.l3net.%d.` too. -/
def CosaDmlIpIfMlanDelEntry (n : ULONG) : Outcome :=
  let r := MlanInterfaces.CosaDmlIpIfMlanDelEntry s.pIpContext n
  ⟨.of r.1, foundAccesses s n [.records n, .entry n],
    match CosaDmlIpIfMlanFindByInstNum s.pIpContext n with
    | none => s
    | some _ =>
      { s with
        pIpContext := r.2
        V4Addr := Function.update s.V4Addr n none
        V4SubnetMask := Function.update s.V4SubnetMask n none }⟩

def CosaDmlIpIfMlanSetCfg (pCfg : COSA_DML_IP_IF_CFG) : Outcome :=
  let n := pCfg.InstanceNumber
  let r := MlanInterfaces.CosaDmlIpIfMlanSetCfg w.sys s.pIpContext pCfg
  ⟨.of r.1, foundAccesses s n [.entry n, .records n], { s with pIpContext := r.2 }⟩

def CosaDmlIpIfMlanGetCfg (n : ULONG) : Outcome :=
  match CosaDmlIpIfMlanFindByInstNum s.pIpContext n with
  | none => ⟨.CANT_FIND, [], s⟩
  | some pIpIf => ⟨.cfg pIpIf.Cfg, [.entry n], s⟩

def CosaDmlIpIfMlanGetInfo (n : ULONG) : Outcome :=
  match CosaDmlIpIfMlanFindByInstNum s.pIpContext n with
  | none => ⟨.CANT_FIND, [], s⟩
  | some pIpIf => ⟨.ifStatus (w.sys.getIfStatus pIpIf.Info.Name.text), [.entry n], s⟩

/-- There are no records for the number 0. -/
def recordsOf (n : ULONG) : List Access := if n = 0 then [] else [.records n]

/-- Always 1. -/
def CosaDmlIpIfMlanGetNumberOfV4Addrs : Outcome := ⟨.count 1, [], s⟩

/-- A record that is missing leaves the caller's value. -/
def CosaDmlIpIfMlanGetV4Addr2 (n : ULONG) (pEntry : COSA_DML_IP_V4ADDR) : Outcome :=
  ⟨.v4
    { InstanceNumber := 1
      Alias := Buf.sprintf_s (decimal 1)
      IPAddress := if n = 0 then pEntry.IPAddress else (s.V4Addr n).getD pEntry.IPAddress
      SubnetMask :=
        if n = 0 then pEntry.SubnetMask else (s.V4SubnetMask n).getD pEntry.SubnetMask },
    recordsOf n, s⟩

/-- One address only. -/
def CosaDmlIpIfMlanGetV4Addr (n : ULONG) (ulIndex : ℕ) (pEntry : COSA_DML_IP_V4ADDR) :
    Outcome :=
  if ulIndex ≠ 0 then ⟨.UNAPPLICABLE, [], s⟩ else CosaDmlIpIfMlanGetV4Addr2 s n pEntry

def CosaDmlIpIfMlanSetV4AddrValues : Outcome := ⟨.SUCCESS, [], s⟩

def CosaDmlIpIfMlanAddV4Addr (pEntry : COSA_DML_IP_V4ADDR) : Outcome :=
  ⟨.v4 { pEntry with InstanceNumber := 1 }, [], s⟩

/-- Adding and deleting addresses is not supported. -/
def CosaDmlIpIfMlanDelV4Addr : Outcome := ⟨.UNAPPLICABLE, [], s⟩

def CosaDmlIpIfMlanSetV4Addr (n : ULONG) (pEntry : COSA_DML_IP_V4ADDR) : Outcome :=
  if pEntry.InstanceNumber ≠ 1 then ⟨.UNAPPLICABLE, [], s⟩
  else ⟨.SUCCESS, [.records n],
    { s with
      V4Addr := Function.update s.V4Addr n (some pEntry.IPAddress)
      V4SubnetMask := Function.update s.V4SubnetMask n (some pEntry.SubnetMask) }⟩

def CosaDmlIpIfMlanAddV6Addr : Outcome := ⟨.UNAPPLICABLE, [], s⟩

def CosaDmlIpIfMlanDelV6Addr : Outcome := ⟨.FAILURE, [], s⟩

def CosaDmlIpIfMlanSetV6Addr : Outcome := ⟨.UNAPPLICABLE, [], s⟩

def CosaDmlIpIfMlanAddV6Prefix : Outcome := ⟨.UNAPPLICABLE, [], s⟩

def CosaDmlIpIfMlanDelV6Prefix : Outcome := ⟨.UNAPPLICABLE, [], s⟩

def CosaDmlIpIfMlanSetV6Prefix : Outcome := ⟨.UNAPPLICABLE, [], s⟩

/-- Only records of this type are read. -/
def readUnsigned : Option MlanInterfaces.Record → ULONG
  | some (.unsignedInt v) => v
  | _ => 0

/-- The layer-2 network behind the link of an interface, 0 where there is none. -/
def l2_instnum (psm : Psm) (n : ULONG) : ULONG :=
  if n = 0 then 0 else readUnsigned (psm.EthLink_l2net (readUnsigned (psm.l3net n .EthLink)))

/-- `CosaDmlIpIfMlanGetV6Addr2` and `CosaDmlIpIfMlanGetV6Prefix2`: sysevent keeps the value
under the name of the network. -/
def mlanGetV6 (table : V6Table) (s : State) (n : ULONG) (pEntry : V6Entry) : V6Entry :=
  let l2 := l2_instnum s.pIpContext.psm n
  let value : Buf 64 := Buf.snprintf (w.ipv6_value table (w.multinet_name l2))
  if l2 = 0 ∨ value.text = [] then pEntry else { pEntry with text := value }

def CosaDmlIpIfMlanGetV6Addr2 (n : ULONG) (pEntry : V6Entry) : Outcome :=
  ⟨.v6 (mlanGetV6 w .address s n pEntry), recordsOf n, s⟩

def CosaDmlIpIfMlanGetV6Prefix2 (n : ULONG) (pEntry : V6Entry) : Outcome :=
  ⟨.v6 (mlanGetV6 w .pref s n pEntry), recordsOf n, s⟩

def blankV6 : V6Entry := ⟨1, Buf.empty⟩

/-- The one entry that `CosaDmlIPGetIPv6Addresses` and `CosaDmlIPGetIPv6Prefixes` give. -/
def mlanGetV6s (table : V6Table) (s : State) (n : ULONG) : Outcome :=
  ⟨.v6s [mlanGetV6 w table s n blankV6], recordsOf n, s⟩

end Mlan

section Dispatch

def CosaDmlIpIfSetValues (ulIndex : ℕ) (pAlias : CStr) : Outcome :=
  if COSA_USG_IF_NUM build ≤ ulIndex then CosaDmlIpIfMlanSetValues s ulIndex pAlias
  else ⟨.SUCCESS, [], s⟩

/-- An operation that gives the numbers from `COSA_USG_IF_NUM` on to the list. -/
def fromNum (mlan : ULONG → Outcome) (fixed : ℕ → Outcome) (n : ULONG) : Outcome :=
  if COSA_USG_IF_NUM build ≤ n.toNat then mlan n else fixed (n - 1).toNat

def CosaDmlIpIfDelEntry : ULONG → Outcome :=
  fromNum build (CosaDmlIpIfMlanDelEntry s) fun _ => ⟨.SUCCESS, [], s⟩

def CosaDmlIpIfSetCfg (pCfg : COSA_DML_IP_IF_CFG) : Outcome :=
  fromNum build (fun _ => CosaDmlIpIfMlanSetCfg w s pCfg) (fun i => fixedSetCfg s i pCfg)
    pCfg.InstanceNumber

def CosaDmlIpIfGetCfg : ULONG → Outcome :=
  fromNum build (CosaDmlIpIfMlanGetCfg s) (fixedGetCfg s)

def CosaDmlIpIfGetInfo : ULONG → Outcome :=
  fromNum build (CosaDmlIpIfMlanGetInfo w s) (fixedGetInfo s)

def CosaDmlIpIfGetNumberOfV4Addrs : ULONG → Outcome :=
  fromNum build (fun _ => CosaDmlIpIfMlanGetNumberOfV4Addrs s) fun _ => ⟨.count 1, [], s⟩

def CosaDmlIpIfGetV4Addr (n : ULONG) (ulIndex : ℕ) (pEntry : COSA_DML_IP_V4ADDR) :
    Outcome :=
  fromNum build (fun n => CosaDmlIpIfMlanGetV4Addr s n ulIndex pEntry)
    (fun i => fixedGetV4Addr build w s i ulIndex) n

def CosaDmlIpIfSetV4AddrValues : ULONG → Outcome :=
  fromNum build (fun _ => CosaDmlIpIfMlanSetV4AddrValues s) fun _ => ⟨.FAILURE, [], s⟩

def CosaDmlIpIfAddV4Addr (n : ULONG) (pEntry : COSA_DML_IP_V4ADDR) : Outcome :=
  fromNum build (fun _ => CosaDmlIpIfMlanAddV4Addr s pEntry) (fun _ => ⟨.FAILURE, [], s⟩) n

def CosaDmlIpIfDelV4Addr : ULONG → Outcome :=
  fromNum build (fun _ => CosaDmlIpIfMlanDelV4Addr s) fun _ => ⟨.FAILURE, [], s⟩

def CosaDmlIpIfSetV4Addr (n : ULONG) (pEntry : COSA_DML_IP_V4ADDR) : Outcome :=
  fromNum build (fun n => CosaDmlIpIfMlanSetV4Addr s n pEntry)
    (fun i => fixedSetV4Addr build s i pEntry) n

def CosaDmlIpIfGetV4Addr2 (n : ULONG) (pEntry : COSA_DML_IP_V4ADDR) : Outcome :=
  fromNum build (fun n => CosaDmlIpIfMlanGetV4Addr2 s n pEntry) (fixedGetV4Addr2 s) n

/-- An operation that gives only the numbers above `COSA_USG_IF_NUM` to the list, and looks
the others up in the buffers. -/
def aboveNum (mlan : Outcome) (body : ℕ → Option Outcome) (last : Answer)
    (n : ULONG) : Outcome :=
  if COSA_USG_IF_NUM build < n.toNat then mlan
  else searchSlots s n body last (List.range (COSA_USG_IF_NUM build))

def CosaDmlIpIfAddV6Addr (n : ULONG) (pEntry : V6Entry) : Outcome :=
  aboveNum build s (CosaDmlIpIfMlanAddV6Addr s) (fixedAddV6 .address s pEntry) .CANT_FIND n

def CosaDmlIpIfDelV6Addr (n : ULONG) (pEntry : V6Entry) : Outcome :=
  aboveNum build s (CosaDmlIpIfMlanDelV6Addr s) (fixedDelV6 .address s pEntry) .CANT_FIND n

def CosaDmlIpIfSetV6Addr (n : ULONG) (pEntry : V6Entry) : Outcome :=
  aboveNum build s (CosaDmlIpIfMlanSetV6Addr s) (fixedSetV6 .address s pEntry) .CANT_FIND n

/-- An entry that is not found is given back as it came. -/
def CosaDmlIpIfGetV6Addr2 (n : ULONG) (pEntry : V6Entry) : Outcome :=
  aboveNum build s (CosaDmlIpIfMlanGetV6Addr2 w s n pEntry) (fixedGetV6Entry .address s pEntry)
    (.v6 pEntry) n

def CosaDmlIpIfAddV6Prefix (n : ULONG) (pEntry : V6Entry) : Outcome :=
  aboveNum build s (CosaDmlIpIfMlanAddV6Prefix s) (fixedAddV6 .pref s pEntry) .CANT_FIND n

def CosaDmlIpIfDelV6Prefix (n : ULONG) (pEntry : V6Entry) : Outcome :=
  aboveNum build s (CosaDmlIpIfMlanDelV6Prefix s) (fixedDelV6 .pref s pEntry) .CANT_FIND n

def CosaDmlIpIfSetV6Prefix (n : ULONG) (pEntry : V6Entry) : Outcome :=
  aboveNum build s (CosaDmlIpIfMlanSetV6Prefix s) (fixedSetV6 .pref s pEntry) .CANT_FIND n

def CosaDmlIpIfGetV6Prefix2 (n : ULONG) (pEntry : V6Entry) : Outcome :=
  aboveNum build s (CosaDmlIpIfMlanGetV6Prefix2 w s n pEntry) (fixedGetV6Entry .pref s pEntry)
    (.v6 pEntry) n

def byName (table : V6Table) (s : State) (p_ipif : COSA_DML_IP_IF_FULL) : Outcome :=
  match (List.range (COSA_USG_IF_NUM build)).find? fun i =>
    g_ipif_names build i = p_ipif.Info.Name.text with
  | none => ⟨.NULL, [], s⟩
  | some i => fixedGetV6 build w table s i

/-- With prefix delegation the branch by name is not compiled. -/
def CosaDmlIPGetIPv6Addresses (p_ipif : COSA_DML_IP_IF_FULL) : Outcome :=
  if COSA_USG_IF_NUM build < p_ipif.Cfg.InstanceNumber.toNat then
    mlanGetV6s w .address s p_ipif.Cfg.InstanceNumber
  else if build.delegation then ⟨.NULL, [], s⟩
  else byName build w .address s p_ipif

/-- Without prefix delegation the comparison is another. -/
def CosaDmlIPGetIPv6Prefixes (p_ipif : COSA_DML_IP_IF_FULL) : Outcome :=
  if build.delegation then
    if COSA_USG_IF_NUM build < p_ipif.Cfg.InstanceNumber.toNat then
      mlanGetV6s w .pref s p_ipif.Cfg.InstanceNumber
    else byName build w .pref s p_ipif
  else if COSA_USG_IF_NUM build ≤ p_ipif.Cfg.InstanceNumber.toNat then
    mlanGetV6s w .pref s p_ipif.Cfg.InstanceNumber
  else byName build w .pref s p_ipif

end Dispatch

end Code

section Calls

inductive V6Call where
  | get
  | add (pEntry : V6Entry)
  | del (pEntry : V6Entry)
  | set (pEntry : V6Entry)
  | get2 (pEntry : V6Entry)

inductive Op where
  | SetValues (pAlias : CStr)
  | SetCfg (pCfg : COSA_DML_IP_IF_CFG)
  | GetCfg
  | GetInfo
  | DelEntry
  | GetNumberOfV4Addrs
  | GetV4Addr (ulIndex : ℕ) (pEntry : COSA_DML_IP_V4ADDR)
  | SetV4AddrValues
  | AddV4Addr (pEntry : COSA_DML_IP_V4ADDR)
  | DelV4Addr
  | SetV4Addr (pEntry : COSA_DML_IP_V4ADDR)
  | GetV4Addr2 (pEntry : COSA_DML_IP_V4ADDR)
  | V6 (table : V6Table) (c : V6Call)

inductive Interface where
  | fixed (i : ℕ)
  | mlan (p : ℕ) (pIpIf : DMSB_TR181_IP_IF)

/-- Where an interface is kept: in a slot of the buffers, or in the list. -/
inductive Home where
  | slot (i : ℕ)
  | element (p : ℕ) (n : ULONG)

variable (build : Build) (w : World) (s : State)

def numbered (pCfg : COSA_DML_IP_IF_CFG) (n : ULONG) : COSA_DML_IP_IF_CFG :=
  { pCfg with InstanceNumber := n }

def call (ulIndex : ℕ) (e : COSA_DML_IP_IF_FULL) : Op → Outcome
  | .SetValues pAlias => CosaDmlIpIfSetValues build s ulIndex pAlias
  | .SetCfg pCfg => CosaDmlIpIfSetCfg build w s (numbered pCfg e.Cfg.InstanceNumber)
  | .GetCfg => CosaDmlIpIfGetCfg build s e.Cfg.InstanceNumber
  | .GetInfo => CosaDmlIpIfGetInfo build w s e.Cfg.InstanceNumber
  | .DelEntry => CosaDmlIpIfDelEntry build s e.Cfg.InstanceNumber
  | .GetNumberOfV4Addrs => CosaDmlIpIfGetNumberOfV4Addrs build s e.Cfg.InstanceNumber
  | .GetV4Addr ulIndex pEntry =>
    CosaDmlIpIfGetV4Addr build w s e.Cfg.InstanceNumber ulIndex pEntry
  | .SetV4AddrValues => CosaDmlIpIfSetV4AddrValues build s e.Cfg.InstanceNumber
  | .AddV4Addr pEntry => CosaDmlIpIfAddV4Addr build s e.Cfg.InstanceNumber pEntry
  | .DelV4Addr => CosaDmlIpIfDelV4Addr build s e.Cfg.InstanceNumber
  | .SetV4Addr pEntry => CosaDmlIpIfSetV4Addr build s e.Cfg.InstanceNumber pEntry
  | .GetV4Addr2 pEntry => CosaDmlIpIfGetV4Addr2 build s e.Cfg.InstanceNumber pEntry
  | .V6 .address .get => CosaDmlIPGetIPv6Addresses build w s e
  | .V6 .address (.add pEntry) => CosaDmlIpIfAddV6Addr build s e.Cfg.InstanceNumber pEntry
  | .V6 .address (.del pEntry) => CosaDmlIpIfDelV6Addr build s e.Cfg.InstanceNumber pEntry
  | .V6 .address (.set pEntry) => CosaDmlIpIfSetV6Addr build s e.Cfg.InstanceNumber pEntry
  | .V6 .address (.get2 pEntry) => CosaDmlIpIfGetV6Addr2 build w s e.Cfg.InstanceNumber pEntry
  | .V6 .pref .get => CosaDmlIPGetIPv6Prefixes build w s e
  | .V6 .pref (.add pEntry) => CosaDmlIpIfAddV6Prefix build s e.Cfg.InstanceNumber pEntry
  | .V6 .pref (.del pEntry) => CosaDmlIpIfDelV6Prefix build s e.Cfg.InstanceNumber pEntry
  | .V6 .pref (.set pEntry) => CosaDmlIpIfSetV6Prefix build s e.Cfg.InstanceNumber pEntry
  | .V6 .pref (.get2 pEntry) => CosaDmlIpIfGetV6Prefix2 build w s e.Cfg.InstanceNumber pEntry

/-- What a slot is asked for, with the answer when it has no such entry. -/
def atSlot (body : ℕ → Option Outcome) (last : Answer) (i : ℕ) : Outcome :=
  match body i with
  | some o => o
  | none => ⟨last, [.buf i], s⟩

/-- What a slot does for IPv6, and the answer when no slot had it done. -/
def slotBody (table : V6Table) : V6Call → ℕ → Option Outcome
  | .get => fun i => some (fixedGetV6 build w table s i)
  | .add pEntry => fixedAddV6 table s pEntry
  | .del pEntry => fixedDelV6 table s pEntry
  | .set pEntry => fixedSetV6 table s pEntry
  | .get2 pEntry => fixedGetV6Entry table s pEntry

def lastAnswer : V6Call → Answer
  | .get => .NULL
  | .get2 pEntry => .v6 pEntry
  | _ => .CANT_FIND

def serveSlot (n : ULONG) (i : ℕ) : Op → Outcome
  | .SetValues _ => ⟨.SUCCESS, [], s⟩
  | .SetCfg pCfg => fixedSetCfg s i (numbered pCfg n)
  | .GetCfg => fixedGetCfg s i
  | .GetInfo => fixedGetInfo s i
  | .DelEntry => ⟨.SUCCESS, [], s⟩
  | .GetNumberOfV4Addrs => ⟨.count 1, [], s⟩
  | .GetV4Addr ulIndex _ => fixedGetV4Addr build w s i ulIndex
  | .SetV4AddrValues => ⟨.FAILURE, [], s⟩
  | .AddV4Addr _ => ⟨.FAILURE, [], s⟩
  | .DelV4Addr => ⟨.FAILURE, [], s⟩
  | .SetV4Addr pEntry => fixedSetV4Addr build s i pEntry
  | .GetV4Addr2 _ => fixedGetV4Addr2 s i
  | .V6 table c => atSlot s (slotBody build w s table c) (lastAnswer c) i

def serveElement (p : ℕ) (n : ULONG) : Op → Outcome
  | .SetValues pAlias => CosaDmlIpIfMlanSetValues s p pAlias
  | .SetCfg pCfg => CosaDmlIpIfMlanSetCfg w s (numbered pCfg n)
  | .GetCfg => CosaDmlIpIfMlanGetCfg s n
  | .GetInfo => CosaDmlIpIfMlanGetInfo w s n
  | .DelEntry => CosaDmlIpIfMlanDelEntry s n
  | .GetNumberOfV4Addrs => CosaDmlIpIfMlanGetNumberOfV4Addrs s
  | .GetV4Addr ulIndex pEntry => CosaDmlIpIfMlanGetV4Addr s n ulIndex pEntry
  | .SetV4AddrValues => CosaDmlIpIfMlanSetV4AddrValues s
  | .AddV4Addr pEntry => CosaDmlIpIfMlanAddV4Addr s pEntry
  | .DelV4Addr => CosaDmlIpIfMlanDelV4Addr s
  | .SetV4Addr pEntry => CosaDmlIpIfMlanSetV4Addr s n pEntry
  | .GetV4Addr2 pEntry => CosaDmlIpIfMlanGetV4Addr2 s n pEntry
  | .V6 table .get => mlanGetV6s w table s n
  | .V6 .address (.add _) => CosaDmlIpIfMlanAddV6Addr s
  | .V6 .address (.del _) => CosaDmlIpIfMlanDelV6Addr s
  | .V6 .address (.set _) => CosaDmlIpIfMlanSetV6Addr s
  | .V6 .address (.get2 pEntry) => CosaDmlIpIfMlanGetV6Addr2 w s n pEntry
  | .V6 .pref (.add _) => CosaDmlIpIfMlanAddV6Prefix s
  | .V6 .pref (.del _) => CosaDmlIpIfMlanDelV6Prefix s
  | .V6 .pref (.set _) => CosaDmlIpIfMlanSetV6Prefix s
  | .V6 .pref (.get2 pEntry) => CosaDmlIpIfMlanGetV6Prefix2 w s n pEntry

def serve (op : Op) (n : ULONG) : Home → Outcome
  | .slot i => serveSlot build w s n i op
  | .element p m => serveElement w s p m op

def Op.isV6 : Op → Bool
  | .V6 _ _ => true
  | _ => false

/-- For IPv6 the slot behind the fixed interfaces is kept as the primary LAN of the list. -/
def Overlaps (op : Op) (pIpIf : DMSB_TR181_IP_IF) : Prop :=
  op.isV6 ∧ pIpIf.Info.Name.text = brlan0

def LivesAt (op : Op) : Interface → Home → Prop
  | .fixed i, .slot j => j = i
  | .fixed _, .element _ _ => False
  | .mlan p pIpIf, .element q n => q = p ∧ n = instanceOf pIpIf
  | .mlan _ pIpIf, .slot j => Overlaps op pIpIf ∧ j = COSA_USG_IF_NUM build - 1

def Owns (op : Op) : Interface → Access → Prop
  | .fixed i, .buf j => j = i
  | .fixed i, .name j => j = i
  | .fixed i, .link t => t = g_ipif_names build i
  | .fixed _, .LAN => False
  | .fixed _, .entry _ => False
  | .fixed _, .records _ => False
  | .mlan _ pIpIf, .buf j => Overlaps op pIpIf ∧ j = COSA_USG_IF_NUM build - 1
  | .mlan _ pIpIf, .name j => Overlaps op pIpIf ∧ j = COSA_USG_IF_NUM build - 1
  | .mlan _ pIpIf, .link t => t = pIpIf.Info.Name.text
  | .mlan _ pIpIf, .LAN => pIpIf.Info.Name.text = brlan0
  | .mlan _ pIpIf, .entry n => n = instanceOf pIpIf
  | .mlan _ pIpIf, .records n => n = instanceOf pIpIf

/-- A slot without the IPv6 entry that an operation asks for. -/
def Absent (i : ℕ) : Op → Prop
  | .V6 table (.del pEntry) =>
    ∀ e ∈ (s.g_ipif_be_bufs i).V6List table, e.InstanceNumber ≠ pEntry.InstanceNumber
  | .V6 table (.set pEntry) =>
    ∀ e ∈ (s.g_ipif_be_bufs i).V6List table, e.InstanceNumber ≠ pEntry.InstanceNumber
  | _ => False

/-- All that is not the interface's stays as it was. -/
structure Kept (op : Op) (x : Interface) (s' : State) : Prop where
  bufs : ∀ j, ¬ Owns build op x (.buf j) → s'.g_ipif_be_bufs j = s.g_ipif_be_bufs j
  entries : ∀ m, ¬ Owns build op x (.entry m) →
    find instanceOf s'.pIpContext.IpIfList m = find instanceOf s.pIpContext.IpIfList m
  records : ∀ m, ¬ Owns build op x (.records m) →
    s'.pIpContext.psm.l3net m = s.pIpContext.psm.l3net m ∧
      s'.V4Addr m = s.V4Addr m ∧ s'.V4SubnetMask m = s.V4SubnetMask m

/-- The operation does what it does on the interface itself, reaches and changes no other, and
does not miss the interface: what is not found is at most an address or prefix of its own. -/
structure ActsOn (n : ULONG) (op : Op) (x : Interface) (o : Outcome) : Prop where
  served : ∃ h, LivesAt build op x h ∧ o = serve build w s op n h
  own : ∀ a ∈ o.accesses, Owns build op x a
  found : o.answer ≠ .NULL ∧
    (o.answer = .CANT_FIND → ∃ i, LivesAt build op x (.slot i) ∧ Absent s i op)
  kept : Kept build s op x o.after

/-- The interface that `GetEntry` reads at an index. -/
def source (ulIndex : ℕ) : Option Interface :=
  if COSA_USG_IF_NUM build - 1 ≤ ulIndex then
    let p := ulIndex - (COSA_USG_IF_NUM build - 1)
    s.pIpContext.IpIfList[p]?.map (.mlan p)
  else some (.fixed ulIndex)

end Calls

end CcspPandM.IpInterfaceCalls
