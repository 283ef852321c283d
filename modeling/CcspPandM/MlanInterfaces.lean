import CcspPandM.CString
import CcspPandM.KeyedList
import CcspPandM.Runs
import Mathlib.Data.List.Perm.Basic

/-!
The IP interfaces of a device with several LANs. The list in memory is loaded from the
parameter store; adding, changing and deleting an interface saves it there again. An
interface takes its name from the layer-2 network that its link leads to.
-/
namespace CcspPandM.MlanInterfaces

open CString KeyedList Runs

section Code

abbrev ULONG := BitVec 32

inductive COSA_DML_IF_STATUS where
  | Up
  | Down
  | Unknown
  | Dormant
  | NotPresent
  | LowerLayerDown
  | Error
  /-- The -1 of `getIfStatus`, which is none of the others. -/
  | failed
  deriving DecidableEq

inductive COSA_DML_LINK_TYPE where
  | none
  | EthLink
  | other (code : ℕ)
  deriving DecidableEq

inductive COSA_DML_IP_IF_TYPE where
  | none
  | Normal
  | other (code : ℕ)
  deriving DecidableEq

inductive ANSC_STATUS where
  | SUCCESS
  | FAILURE
  | CANT_FIND
  deriving DecidableEq

structure COSA_DML_IF_STATS where
  BytesSent : ULONG
  BytesReceived : ULONG
  PacketsSent : ULONG
  PacketsReceived : ULONG
  ErrorsSent : ULONG
  ErrorsReceived : ULONG
  UnicastPacketsSent : ULONG
  UnicastPacketsReceived : ULONG
  DiscardPacketsSent : ULONG
  DiscardPacketsReceived : ULONG
  MulticastPacketsSent : ULONG
  MulticastPacketsReceived : ULONG
  BroadcastPacketsSent : ULONG
  BroadcastPacketsReceived : ULONG
  UnknownProtoPacketsReceived : ULONG
  deriving DecidableEq

structure COSA_DML_IP_IF_CFG where
  InstanceNumber : ULONG
  Alias : Buf 512
  bEnabled : Bool
  LinkType : COSA_DML_LINK_TYPE
  LinkName : Buf 512
  LinkInstNum : ULONG
  MaxMTUSize : ULONG
  IfType : COSA_DML_IP_IF_TYPE
  Loopback : Bool
  AutoIPEnable : Bool
  RouterName : Buf 512
  LowerLayers : Buf 256
  WanTTL : ULONG
  ArpCacheTimeout : ULONG
  UpnpIgdEnabled : Bool
  bIPv6Enabled : Bool

structure COSA_DML_IP_IF_INFO where
  Name : Buf 64
  LastChange : ULONG

structure COSA_DML_IP_IF_FULL where
  Cfg : COSA_DML_IP_IF_CFG
  Info : COSA_DML_IP_IF_INFO

structure DMSB_TR181_IP_IF where
  Cfg : COSA_DML_IP_IF_CFG
  Info : COSA_DML_IP_IF_INFO
  LastStats : COSA_DML_IF_STATS

/-- A record with its type; only these types are read. -/
inductive Record where
  | boolean (varBool : Bool)
  | unsignedInt (varUint32 : ULONG)
  | string (varString : CStr)
  | other

/-- The records of an interface under `dmsb.l3net.%d.`. -/
inductive L3net where
  | Enable
  | Alias
  | MaxMTU
  | AutoIPEnable
  | ArpCacheTimeout
  | UpnpIgdEnabled
  | IPv6Enable
  | EthLink
  deriving DecidableEq

/-- The store: the instances of `dmsb.l3net.` and their records, `dmsb.EthLink.%d.l2net`
and `dmsb.l2net.%d.name`. -/
structure Psm where
  instances : List ULONG
  l3net : ULONG → L3net → Option Record
  EthLink_l2net : ULONG → Option Record
  l2net_name : ULONG → Option Record

/-- The interfaces in memory, and the store. -/
structure DMSB_TR181_IP_CONTEXT where
  IpIfList : List DMSB_TR181_IP_IF
  psm : Psm

/-- What the system says during a call: the states and counters of its interfaces, by name,
and the time. -/
structure System where
  getIfStatus : CStr → COSA_DML_IF_STATUS
  up : CStr → Bool
  CosaUtilGetIfStats : CStr → COSA_DML_IF_STATS
  tick : ULONG

def PSM_Set_Record_Value2 (psm : Psm) (i : ULONG) (field : L3net) (r : Record) : Psm :=
  { psm with
    instances := psm.instances.insert i
    l3net := Function.update psm.l3net i (Function.update (psm.l3net i) field (some r)) }

/-- The records below `dmsb.l3net.%d.` go with it. -/
def PSM_Del_Record (psm : Psm) (i : ULONG) : Psm :=
  { psm with
    instances := psm.instances.erase i
    l3net := Function.update psm.l3net i fun _ => none }

/-- `strcpy_s` empties its destination when the text does not fit. -/
def strcpy_s {n : ℕ} [NeZero n] (t : CStr) : Buf n := Buf.sprintf_s t

def trueText : CStr := "true".toList

def falseText : CStr := "false".toList

def readBool : Option Record → Bool
  | some (.boolean b) => b
  | some (.string t) => t = trueText
  | _ => false

def readText : Option Record → Buf 512
  | some (.string t) => strcpy_s t
  | _ => Buf.empty

/-- A record without a number leaves `old`. -/
def readNumber (old : ULONG) : Option Record → ULONG
  | some (.unsignedInt v) => v
  | some (.string t) => BitVec.ofInt 32 (atoi t)
  | _ => old

def readIPv6 : Option Record → Bool
  | some (.string t) => t = trueText
  | _ => false

def emptyStats : COSA_DML_IF_STATS := ⟨0, 0, 0, 0, 0, 0, 0, 0, 0, 0, 0, 0, 0, 0, 0⟩

def loadCfg (psm : Psm) (i : ULONG) : COSA_DML_IP_IF_CFG where
  InstanceNumber := i
  Alias := readText (psm.l3net i .Alias)
  bEnabled := readBool (psm.l3net i .Enable)
  LinkType := .EthLink
  LinkName := Buf.empty
  LinkInstNum := readNumber 0 (psm.l3net i .EthLink)
  MaxMTUSize := readNumber 0 (psm.l3net i .MaxMTU)
  IfType := .Normal
  Loopback := false
  AutoIPEnable := readBool (psm.l3net i .AutoIPEnable)
  RouterName := Buf.empty
  LowerLayers := Buf.empty
  WanTTL := 0
  ArpCacheTimeout := readNumber 0 (psm.l3net i .ArpCacheTimeout)
  UpnpIgdEnabled := readBool (psm.l3net i .UpnpIgdEnabled)
  bIPv6Enabled := readIPv6 (psm.l3net i .IPv6Enable)

/-- `ulL2netInst` after the lookup of a link. -/
def fetchL2net (psm : Psm) (LinkInstNum ulL2netInst : ULONG) : ULONG :=
  if LinkInstNum = 0 then ulL2netInst
  else readNumber ulL2netInst (psm.EthLink_l2net LinkInstNum)

def fetchName (psm : Psm) (ulL2netInst : ULONG) : Option CStr :=
  if ulL2netInst = 0 then none
  else
    match psm.l2net_name ulL2netInst with
    | some (.string t) => some t
    | _ => none

def setName (name : Option CStr) (pIpIf : DMSB_TR181_IP_IF) : DMSB_TR181_IP_IF :=
  match name with
  | none => pIpIf
  | some t =>
    let Name : Buf 64 := strcpy_s t
    { pIpIf with
      Cfg := { pIpIf.Cfg with LinkName := strcpy_s Name.text }
      Info := { pIpIf.Info with Name := Name } }

/-- The loop over the instances; `ulL2netInst` is kept from one to the next. -/
def loadLoop (psm : Psm) (tick : ULONG) : ULONG → List ULONG → List DMSB_TR181_IP_IF
  | _, [] => []
  | ulL2netInst, i :: is =>
    let Cfg := loadCfg psm i
    let ulL2netInst := fetchL2net psm Cfg.LinkInstNum ulL2netInst
    setName (fetchName psm ulL2netInst) ⟨Cfg, ⟨Buf.empty, tick⟩, emptyStats⟩ ::
      loadLoop psm tick ulL2netInst is

/-- The store lists its instances in an `order` of its own. -/
def CosaDmlIpIfMlanLoadPsm (order : List ULONG → List ULONG) (psm : Psm) (tick : ULONG) :
    List DMSB_TR181_IP_IF :=
  loadLoop psm tick 0 (order psm.instances)

/-- What is saved; `RecordValue` holds 64 bytes. -/
def recordOf (pCfg : COSA_DML_IP_IF_CFG) : L3net → Record
  | .Enable => .boolean pCfg.bEnabled
  | .Alias => .string (strcpy_s pCfg.Alias.text : Buf 64).text
  | .MaxMTU => .unsignedInt pCfg.MaxMTUSize
  | .AutoIPEnable => .boolean pCfg.AutoIPEnable
  | .ArpCacheTimeout => .unsignedInt pCfg.ArpCacheTimeout
  | .UpnpIgdEnabled => .boolean pCfg.UpnpIgdEnabled
  | .IPv6Enable => .string (if pCfg.bIPv6Enabled then trueText else falseText)
  | .EthLink => .unsignedInt pCfg.LinkInstNum

def savedFields : List L3net :=
  [.Enable, .Alias, .MaxMTU, .AutoIPEnable, .ArpCacheTimeout, .UpnpIgdEnabled, .IPv6Enable,
    .EthLink]

def CosaDmlIpIfMlanSavePsm (psm : Psm) (pCfg : COSA_DML_IP_IF_CFG) : Psm :=
  savedFields.foldl
    (fun psm field => PSM_Set_Record_Value2 psm pCfg.InstanceNumber field (recordOf pCfg field))
    psm

def instanceOf (pIpIf : DMSB_TR181_IP_IF) : ULONG := pIpIf.Cfg.InstanceNumber

def CosaDmlIpIfMlanFindByInstNum (ctx : DMSB_TR181_IP_CONTEXT) (ulInstNum : ULONG) :
    Option DMSB_TR181_IP_IF :=
  find instanceOf ctx.IpIfList ulInstNum

def writeFound (l : List DMSB_TR181_IP_IF) (pIpIf : DMSB_TR181_IP_IF) : List DMSB_TR181_IP_IF :=
  l.replaceF fun b => if instanceOf b = instanceOf pIpIf then some pIpIf else none

def CosaDmlIpIfMlanSetValues (ctx : DMSB_TR181_IP_CONTEXT) (ulIndex : ℕ) (pAlias : CStr) :
    ANSC_STATUS × DMSB_TR181_IP_CONTEXT :=
  match ctx.IpIfList[ulIndex]? with
  | none => (.CANT_FIND, ctx)
  | some pIpIf =>
    let pIpIf := { pIpIf with Cfg := { pIpIf.Cfg with Alias := strcpy_s pAlias } }
    if 512 ≤ pAlias.length then (.FAILURE, { ctx with IpIfList := ctx.IpIfList.set ulIndex pIpIf })
    else (.SUCCESS, ⟨ctx.IpIfList.set ulIndex pIpIf, CosaDmlIpIfMlanSavePsm ctx.psm pIpIf.Cfg⟩)

def CosaDmlIpIfMlanAddEntry (sys : System) (ctx : DMSB_TR181_IP_CONTEXT)
    (pEntry : COSA_DML_IP_IF_FULL) : ANSC_STATUS × DMSB_TR181_IP_CONTEXT :=
  let name := fetchName ctx.psm (fetchL2net ctx.psm pEntry.Cfg.LinkInstNum 0)
  let pIpIf := setName name ⟨pEntry.Cfg, pEntry.Info, emptyStats⟩
  let pIpIf := { pIpIf with Info := { pIpIf.Info with LastChange := sys.tick } }
  (.SUCCESS, ⟨ctx.IpIfList ++ [pIpIf], CosaDmlIpIfMlanSavePsm ctx.psm pIpIf.Cfg⟩)

def CosaDmlIpIfMlanDelEntry (ctx : DMSB_TR181_IP_CONTEXT) (ulInstanceNumber : ULONG) :
    ANSC_STATUS × DMSB_TR181_IP_CONTEXT :=
  match CosaDmlIpIfMlanFindByInstNum ctx ulInstanceNumber with
  | none => (.CANT_FIND, ctx)
  | some pIpIf =>
    (.SUCCESS, ⟨ctx.IpIfList.eraseP fun b => instanceOf b = ulInstanceNumber,
      PSM_Del_Record ctx.psm pIpIf.Cfg.InstanceNumber⟩)

def renewed (sys : System) (pIpIf : DMSB_TR181_IP_IF) : DMSB_TR181_IP_IF :=
  { pIpIf with
    Info := { pIpIf.Info with LastChange := sys.tick }
    LastStats := sys.CosaUtilGetIfStats pIpIf.Info.Name.text }

def CosaDmlIpIfMlanSetCfg (sys : System) (ctx : DMSB_TR181_IP_CONTEXT)
    (pCfg : COSA_DML_IP_IF_CFG) : ANSC_STATUS × DMSB_TR181_IP_CONTEXT :=
  match CosaDmlIpIfMlanFindByInstNum ctx pCfg.InstanceNumber with
  | none => (.CANT_FIND, ctx)
  | some pIpIf =>
    let pIpIf := { pIpIf with Cfg := pCfg }
    let psm := CosaDmlIpIfMlanSavePsm ctx.psm pIpIf.Cfg
    let pIpIf := { pIpIf with Info := { pIpIf.Info with Name := strcpy_s pCfg.LinkName.text } }
    let enifStatus := sys.getIfStatus pIpIf.Info.Name.text
    if enifStatus = .Unknown ∨ enifStatus = .NotPresent then
      (.FAILURE, ⟨writeFound ctx.IpIfList pIpIf, psm⟩)
    else if pCfg.bEnabled ∧ !pIpIf.Cfg.bEnabled ∧ !sys.up pIpIf.Info.Name.text then
      (.SUCCESS, ⟨writeFound ctx.IpIfList (renewed sys pIpIf), psm⟩)
    else if !pCfg.bEnabled ∧ pIpIf.Cfg.bEnabled then
      (.SUCCESS, ⟨writeFound ctx.IpIfList (renewed sys pIpIf), psm⟩)
    else (.SUCCESS, ⟨writeFound ctx.IpIfList pIpIf, psm⟩)

end Code

section Calls

inductive Call where
  | addEntry (sys : System) (pEntry : COSA_DML_IP_IF_FULL)
  | setValues (ulIndex : ℕ) (pAlias : CStr)
  | setCfg (sys : System) (pCfg : COSA_DML_IP_IF_CFG)
  | delEntry (ulInstanceNumber : ULONG)

def apply (ctx : DMSB_TR181_IP_CONTEXT) : Call → ANSC_STATUS × DMSB_TR181_IP_CONTEXT
  | .addEntry sys pEntry => CosaDmlIpIfMlanAddEntry sys ctx pEntry
  | .setValues ulIndex pAlias => CosaDmlIpIfMlanSetValues ctx ulIndex pAlias
  | .setCfg sys pCfg => CosaDmlIpIfMlanSetCfg sys ctx pCfg
  | .delEntry ulInstanceNumber => CosaDmlIpIfMlanDelEntry ctx ulInstanceNumber

def step (ctx : DMSB_TR181_IP_CONTEXT) (c : Call) : Option DMSB_TR181_IP_CONTEXT :=
  some (apply ctx c).2

structure Values where
  InstanceNumber : ULONG
  bEnabled : Bool
  Alias : Buf 512
  MaxMTUSize : ULONG
  AutoIPEnable : Bool
  ArpCacheTimeout : ULONG
  UpnpIgdEnabled : Bool
  bIPv6Enabled : Bool
  LinkInstNum : ULONG

def values (Cfg : COSA_DML_IP_IF_CFG) : Values :=
  ⟨Cfg.InstanceNumber, Cfg.bEnabled, Cfg.Alias, Cfg.MaxMTUSize, Cfg.AutoIPEnable,
    Cfg.ArpCacheTimeout, Cfg.UpnpIgdEnabled, Cfg.bIPv6Enabled, Cfg.LinkInstNum⟩

def kept (pIpIf : DMSB_TR181_IP_IF) : Values := values pIpIf.Cfg

def linkName (psm : Psm) (LinkInstNum : ULONG) : CStr :=
  (fetchName psm (fetchL2net psm LinkInstNum 0)).getD []

def OwnNames (psm : Psm) (l : List DMSB_TR181_IP_IF) : Prop :=
  ∀ pIpIf ∈ l, pIpIf.Info.Name.text = linkName psm pIpIf.Cfg.LinkInstNum

variable (order : List ULONG → List ULONG)

/-- What a call should do: loading gives the interfaces in memory, and under their own names;
an interface that is added has its own name; a failing `SetCfg` changes nothing; and one that
succeeds and disables an interface renews its time and its counters. -/
def Right (ctx : DMSB_TR181_IP_CONTEXT) (c : Call) (ctx' : DMSB_TR181_IP_CONTEXT) : Prop :=
  (∀ tick, ((CosaDmlIpIfMlanLoadPsm order ctx'.psm tick).map kept).Perm
      (ctx'.IpIfList.map kept)) ∧
    (∀ tick, OwnNames ctx'.psm (CosaDmlIpIfMlanLoadPsm order ctx'.psm tick)) ∧
    match c with
    | .addEntry _ pEntry => ∀ pIpIf ∈ ctx'.IpIfList, instanceOf pIpIf = pEntry.Cfg.InstanceNumber →
        pIpIf.Info.Name.text = linkName ctx'.psm pIpIf.Cfg.LinkInstNum
    | .setCfg sys pCfg =>
        ((apply ctx c).1 ≠ .SUCCESS → ctx' = ctx) ∧
          ((apply ctx c).1 = .SUCCESS → pCfg.bEnabled = false →
            ∀ old ∈ ctx.IpIfList, instanceOf old = pCfg.InstanceNumber →
              old.Cfg.bEnabled = true →
              ∀ new ∈ ctx'.IpIfList, instanceOf new = pCfg.InstanceNumber →
                new.Info.LastChange = sys.tick ∧
                  new.LastStats = sys.CosaUtilGetIfStats new.Info.Name.text)
    | _ => True

def Legal (ctx : DMSB_TR181_IP_CONTEXT) : Call → Prop
  | .addEntry _ pEntry => pEntry.Cfg.InstanceNumber ∉ ctx.IpIfList.map instanceOf
  | .setValues _ pAlias => pAlias.length < 512
  | _ => True

def leadsTo (psm : Psm) (LinkInstNum : ULONG) : Option ULONG :=
  if LinkInstNum = 0 then none
  else
    match psm.EthLink_l2net LinkInstNum with
    | some (.unsignedInt v) => some v
    | some (.string t) => some (BitVec.ofInt 32 (atoi t))
    | _ => none

/-- In the order in which the interfaces are loaded, before one whose link leads nowhere the
last that led somewhere has no name. -/
def NoStale (psm : Psm) (links : List ULONG) : Prop :=
  ∀ before link after, links = before ++ link :: after → leadsTo psm link = none →
    ∀ v, (before.filterMap (leadsTo psm)).getLast? = some v → (fetchName psm v).getD [] = []

def linkOf (psm : Psm) (i : ULONG) : ULONG := readNumber 0 (psm.l3net i .EthLink)

def linksAfter (ctx : DMSB_TR181_IP_CONTEXT) : Call → List ULONG
  | .addEntry _ pEntry => (order (ctx.psm.instances.insert pEntry.Cfg.InstanceNumber)).map
      (Function.update (linkOf ctx.psm) pEntry.Cfg.InstanceNumber pEntry.Cfg.LinkInstNum)
  | .setValues _ _ => (order ctx.psm.instances).map (linkOf ctx.psm)
  | .setCfg _ pCfg =>
    if pCfg.InstanceNumber ∈ ctx.psm.instances then
      (order ctx.psm.instances).map
        (Function.update (linkOf ctx.psm) pCfg.InstanceNumber pCfg.LinkInstNum)
    else (order ctx.psm.instances).map (linkOf ctx.psm)
  | .delEntry n => (order (ctx.psm.instances.erase n)).map (linkOf ctx.psm)

def Fits (ctx : DMSB_TR181_IP_CONTEXT) (c : Call) : Prop :=
  NoStale ctx.psm (linksAfter order ctx c) ∧
    match c with
    | .addEntry _ pEntry => pEntry.Cfg.Alias.text.length < 64 ∧
        (fetchName ctx.psm (fetchL2net ctx.psm pEntry.Cfg.LinkInstNum 0) = none →
          pEntry.Info.Name.text = [])
    | .setValues ulIndex pAlias => ulIndex < ctx.IpIfList.length → pAlias.length < 64
    | .setCfg sys pCfg =>
        ∀ old ∈ ctx.IpIfList, instanceOf old = pCfg.InstanceNumber →
          pCfg.Alias.text.length < 64 ∧
          if sys.getIfStatus (strcpy_s pCfg.LinkName.text : Buf 64).text = .Unknown ∨
              sys.getIfStatus (strcpy_s pCfg.LinkName.text : Buf 64).text = .NotPresent then
            old.Cfg = pCfg ∧ old.Info.Name = strcpy_s pCfg.LinkName.text ∧
              ctx.psm.l3net pCfg.InstanceNumber = fun field => some (recordOf pCfg field)
          else old.Cfg.bEnabled = true → pCfg.bEnabled = false →
            old.Info.LastChange = sys.tick ∧
              old.LastStats =
                sys.CosaUtilGetIfStats (strcpy_s pCfg.LinkName.text : Buf 64).text
    | .delEntry _ => True

end Calls

variable {pCfg : COSA_DML_IP_IF_CFG} {psm : Psm}

section Store

theorem foldl_set (r : L3net → Record) (i : ULONG) (fields : List L3net) (psm : Psm)
    (hi : i ∈ psm.instances) :
    fields.foldl (fun psm field => PSM_Set_Record_Value2 psm i field (r field)) psm =
      { psm with
        l3net := Function.update psm.l3net i fun field =>
          if field ∈ fields then some (r field) else psm.l3net i field } := by
  induction fields generalizing psm with
  | nil => simp
  | cons field fields ih =>
    have hlisted : (PSM_Set_Record_Value2 psm i field (r field)).instances = psm.instances :=
      List.insert_of_mem hi
    rw [List.foldl_cons, ih _ (by rw [hlisted]; exact hi)]
    simp only [PSM_Set_Record_Value2, List.insert_of_mem hi, Function.update_self,
      Function.update_idem]
    congr 2
    funext other
    by_cases hother : other = field
    · subst hother
      simp
    · simp [hother]

theorem savePsm_eq (psm : Psm) (pCfg : COSA_DML_IP_IF_CFG) :
    CosaDmlIpIfMlanSavePsm psm pCfg =
      { psm with
        instances := psm.instances.insert pCfg.InstanceNumber
        l3net := Function.update psm.l3net pCfg.InstanceNumber fun field =>
          some (recordOf pCfg field) } := by
  rw [CosaDmlIpIfMlanSavePsm, savedFields, List.foldl_cons, foldl_set]
  · simp only [PSM_Set_Record_Value2, Function.update_idem, Function.update_self]
    congr 2
    funext field
    cases field <;> rfl
  · exact List.mem_insert_self

theorem text_strcpy_s_of_lt {n : ℕ} [NeZero n] {t : CStr} (h : t.length < n) :
    (strcpy_s t : Buf n).text = t := Buf.text_sprintf_s_of_lt h

theorem readText_saved_iff (b : Buf 512) :
    readText (some (.string (strcpy_s b.text : Buf 64).text)) = b ↔ b.text.length < 64 := by
  rw [readText]
  constructor
  · intro hsame
    by_contra hlong
    have hempty : (strcpy_s b.text : Buf 64).text = [] := Buf.text_sprintf_s_of_le (by omega)
    rw [hempty] at hsame
    have htext : b.text = [] := by
      rw [← hsame]
      exact text_strcpy_s_of_lt (by decide)
    rw [htext] at hlong
    exact hlong (by decide)
  · intro hlt
    apply Buf.text_injective
    rw [text_strcpy_s_of_lt hlt, text_strcpy_s_of_lt b.text_length_lt]

theorem readIPv6_saved (b : Bool) :
    readIPv6 (some (.string (if b then trueText else falseText))) = b := by
  cases b with
  | false => decide
  | true => decide

theorem values_saved_iff
    (hsaved : psm.l3net pCfg.InstanceNumber = fun field => some (recordOf pCfg field)) :
    values (loadCfg psm pCfg.InstanceNumber) = values pCfg ↔ pCfg.Alias.text.length < 64 := by
  have hipv6 : readIPv6 (some (recordOf pCfg .IPv6Enable)) = pCfg.bIPv6Enabled :=
    readIPv6_saved pCfg.bIPv6Enabled
  simp only [values, loadCfg, hsaved, Values.mk.injEq, hipv6, true_and]
  simp only [recordOf, readBool, readNumber, true_and, and_true]
  exact readText_saved_iff pCfg.Alias

end Store

section Loading

variable {psm : Psm}

theorem fetchL2net_eq (psm : Psm) (link ul : ULONG) :
    fetchL2net psm link ul = (leadsTo psm link).getD ul := by
  rw [fetchL2net, leadsTo]
  split
  · rfl
  · cases psm.EthLink_l2net link with
    | none => rfl
    | some r => cases r <;> rfl

theorem kept_setName (name : Option CStr) (pIpIf : DMSB_TR181_IP_IF) :
    kept (setName name pIpIf) = kept pIpIf := by
  cases name <;> rfl

theorem kept_loadLoop (psm : Psm) (tick : ULONG) (is : List ULONG) : ∀ ul : ULONG,
    (loadLoop psm tick ul is).map kept = is.map fun i => values (loadCfg psm i) := by
  induction is with
  | nil =>
    intro ul
    rfl
  | cons i is ih =>
    intro ul
    rw [loadLoop, List.map_cons, List.map_cons, ih, kept_setName]
    rfl

theorem name_setName (hnames : ∀ v t, fetchName psm v = some t → t.length < 64) (v : ULONG)
    {pIpIf : DMSB_TR181_IP_IF} :
    (setName (fetchName psm v) pIpIf).Info.Name.text =
      (fetchName psm v).getD pIpIf.Info.Name.text := by
  cases hname : fetchName psm v with
  | none => rfl
  | some t => exact text_strcpy_s_of_lt (hnames v t hname)

theorem link_setName (name : Option CStr) (pIpIf : DMSB_TR181_IP_IF) :
    (setName name pIpIf).Cfg.LinkInstNum = pIpIf.Cfg.LinkInstNum := by
  cases name <;> rfl

theorem getLast?_leadsTo_cons (link ul : ULONG) (before : List ULONG) :
    (((link :: before).filterMap (leadsTo psm)).getLast?).getD ul =
      ((before.filterMap (leadsTo psm)).getLast?).getD ((leadsTo psm link).getD ul) := by
  cases hlink : leadsTo psm link with
  | none => rw [List.filterMap_cons_none hlink, Option.getD_none]
  | some v =>
    rw [List.filterMap_cons_some hlink, List.getLast?_cons, Option.getD_some, Option.getD_some]

theorem ownNames_loadLoop_iff (hnames : ∀ v t, fetchName psm v = some t → t.length < 64)
    (tick : ULONG) (is : List ULONG) : ∀ ul : ULONG,
    OwnNames psm (loadLoop psm tick ul is) ↔
      ∀ before link after, is.map (linkOf psm) = before ++ link :: after →
        leadsTo psm link = none →
          (fetchName psm (((before.filterMap (leadsTo psm)).getLast?).getD ul)).getD [] = [] := by
  induction is with
  | nil =>
    intro ul
    refine iff_of_true (fun x hx => absurd hx List.not_mem_nil) ?_
    intro before link after hsplit
    simp at hsplit
  | cons i is ih =>
    intro ul
    have hhead : (setName (fetchName psm (fetchL2net psm (linkOf psm i) ul))
        ⟨loadCfg psm i, ⟨Buf.empty, tick⟩, emptyStats⟩).Info.Name.text =
          linkName psm (linkOf psm i) ↔
        (leadsTo psm (linkOf psm i) = none → (fetchName psm ul).getD [] = []) := by
      rw [name_setName hnames, linkName, fetchL2net_eq, fetchL2net_eq]
      cases leadsTo psm (linkOf psm i) with
      | none => simp [fetchName]
      | some v => simp
    have hlink : (loadCfg psm i).LinkInstNum = linkOf psm i := rfl
    rw [loadLoop, OwnNames, List.forall_mem_cons, link_setName, hlink, hhead]
    have htail := ih (fetchL2net psm (linkOf psm i) ul)
    rw [OwnNames] at htail
    rw [htail, fetchL2net_eq]
    constructor
    · intro h before link after hsplit hnone
      cases before with
      | nil =>
        obtain ⟨rfl, -⟩ := List.cons.inj hsplit
        exact h.1 hnone
      | cons first before =>
        obtain ⟨rfl, hrest⟩ := List.cons.inj hsplit
        rw [getLast?_leadsTo_cons]
        exact h.2 before link after hrest hnone
    · intro h
      refine ⟨fun hnone => h [] _ _ rfl hnone, fun before link after hrest hnone => ?_⟩
      rw [← getLast?_leadsTo_cons]
      exact h (linkOf psm i :: before) link after (by rw [List.map_cons, hrest]; rfl) hnone

theorem ownNames_load_iff (hnames : ∀ v t, fetchName psm v = some t → t.length < 64)
    (order : List ULONG → List ULONG) (tick : ULONG) :
    OwnNames psm (CosaDmlIpIfMlanLoadPsm order psm tick) ↔
      NoStale psm ((order psm.instances).map (linkOf psm)) := by
  rw [CosaDmlIpIfMlanLoadPsm, ownNames_loadLoop_iff hnames, NoStale]
  refine forall_congr' fun before => forall_congr' fun link => forall_congr' fun after =>
    forall_congr' fun _ => forall_congr' fun _ => ?_
  cases (before.filterMap (leadsTo psm)).getLast? with
  | none => simp [fetchName]
  | some v => simp

end Loading

section Saving

structure Keyed (ctx : DMSB_TR181_IP_CONTEXT) : Prop where
  instances : ctx.psm.instances.Nodup
  list : (ctx.IpIfList.map instanceOf).Nodup
  same : ∀ i, i ∈ ctx.psm.instances ↔ i ∈ ctx.IpIfList.map instanceOf
  names : ∀ v t, fetchName ctx.psm v = some t → t.length < 64

structure Synced (ctx : DMSB_TR181_IP_CONTEXT) : Prop extends Keyed ctx where
  reads : ∀ x ∈ ctx.IpIfList, values (loadCfg ctx.psm (instanceOf x)) = kept x

variable {order : List ULONG → List ULONG} {ctx : DMSB_TR181_IP_CONTEXT}

theorem load_perm_iff (horder : ∀ is, (order is).Perm is) (h : Keyed ctx) (tick : ULONG) :
    ((CosaDmlIpIfMlanLoadPsm order ctx.psm tick).map kept).Perm (ctx.IpIfList.map kept) ↔
      ∀ x ∈ ctx.IpIfList, values (loadCfg ctx.psm (instanceOf x)) = kept x := by
  have hlisted := (horder ctx.psm.instances).nodup_iff.mpr h.instances
  have hsame : ∀ i, i ∈ order ctx.psm.instances ↔ i ∈ ctx.IpIfList.map instanceOf := by
    intro i
    rw [(horder ctx.psm.instances).mem_iff, h.same]
  rw [CosaDmlIpIfMlanLoadPsm, kept_loadLoop]
  exact @listing_perm_iff _ _ instanceOf _ _ _ hlisted h.list hsame _ kept Values.InstanceNumber
    (fun _ => rfl) fun _ => rfl

theorem keyed_save (h : Keyed ctx) (x : DMSB_TR181_IP_IF) :
    Keyed ⟨put instanceOf ctx.IpIfList x, CosaDmlIpIfMlanSavePsm ctx.psm x.Cfg⟩ := by
  rw [savePsm_eq]
  exact ⟨h.instances.insert, nodup_put h.list x, mem_insert_iff_put h.same x, h.names⟩

theorem reads_save_iff (h : Synced ctx) (x : DMSB_TR181_IP_IF) :
    (∀ y ∈ put instanceOf ctx.IpIfList x,
      values (loadCfg (CosaDmlIpIfMlanSavePsm ctx.psm x.Cfg) (instanceOf y)) = kept y) ↔
        x.Cfg.Alias.text.length < 64 := by
  have hsaved : (CosaDmlIpIfMlanSavePsm ctx.psm x.Cfg).l3net x.Cfg.InstanceNumber =
      fun field => some (recordOf x.Cfg field) := by
    rw [savePsm_eq]
    exact Function.update_self ..
  constructor
  · intro hreads
    apply (values_saved_iff hsaved).mp
    exact hreads x ((mem_put_iff x x).mpr (Or.inl rfl))
  · intro hlt y hy
    rcases (mem_put_iff x y).mp hy with rfl | ⟨hold, hne⟩
    · exact (values_saved_iff hsaved).mpr hlt
    · have hkept : (CosaDmlIpIfMlanSavePsm ctx.psm x.Cfg).l3net (instanceOf y) =
          ctx.psm.l3net (instanceOf y) := by
        rw [savePsm_eq]
        exact Function.update_of_ne hne ..
      rw [← h.reads y hold]
      simp only [values, loadCfg, hkept]

theorem linkOf_save (psm : Psm) (pCfg : COSA_DML_IP_IF_CFG) :
    linkOf (CosaDmlIpIfMlanSavePsm psm pCfg) =
      Function.update (linkOf psm) pCfg.InstanceNumber pCfg.LinkInstNum := by
  funext i
  rw [savePsm_eq, linkOf]
  by_cases hi : i = pCfg.InstanceNumber
  · subst hi
    simp [recordOf, readNumber]
  · simp [hi, linkOf]

theorem ownNames_save_iff (h : Keyed ctx) (x : DMSB_TR181_IP_IF) (tick : ULONG) :
    OwnNames (CosaDmlIpIfMlanSavePsm ctx.psm x.Cfg)
        (CosaDmlIpIfMlanLoadPsm order (CosaDmlIpIfMlanSavePsm ctx.psm x.Cfg) tick) ↔
      NoStale ctx.psm ((order (ctx.psm.instances.insert (instanceOf x))).map
        (Function.update (linkOf ctx.psm) (instanceOf x) x.Cfg.LinkInstNum)) := by
  rw [ownNames_load_iff (keyed_save h x).names, linkOf_save, savePsm_eq]
  exact Iff.rfl

theorem right_save_iff (horder : ∀ is, (order is).Perm is) (h : Synced ctx)
    {x : DMSB_TR181_IP_IF} {ctx' : DMSB_TR181_IP_CONTEXT}
    (hctx' : ctx' = ⟨put instanceOf ctx.IpIfList x, CosaDmlIpIfMlanSavePsm ctx.psm x.Cfg⟩) :
    ((∀ tick, ((CosaDmlIpIfMlanLoadPsm order ctx'.psm tick).map kept).Perm
        (ctx'.IpIfList.map kept)) ∧
      ∀ tick, OwnNames ctx'.psm (CosaDmlIpIfMlanLoadPsm order ctx'.psm tick)) ↔
      NoStale ctx.psm ((order (ctx.psm.instances.insert (instanceOf x))).map
        (Function.update (linkOf ctx.psm) (instanceOf x) x.Cfg.LinkInstNum)) ∧
      x.Cfg.Alias.text.length < 64 := by
  subst hctx'
  have hperm (tick : ULONG) := (load_perm_iff horder (keyed_save h.toKeyed x) tick).trans
    (reads_save_iff h x)
  have hnames (tick : ULONG) := @ownNames_save_iff order ctx h.toKeyed x tick
  simp only [hperm, hnames, forall_const]
  exact and_comm

theorem synced_save (h : Synced ctx) {x : DMSB_TR181_IP_IF} (hfits : x.Cfg.Alias.text.length < 64) :
    Synced ⟨put instanceOf ctx.IpIfList x, CosaDmlIpIfMlanSavePsm ctx.psm x.Cfg⟩ :=
  ⟨keyed_save h.toKeyed x, (reads_save_iff h x).mpr hfits⟩

end Saving

section Steps

variable {order : List ULONG → List ULONG} {ctx : DMSB_TR181_IP_CONTEXT}

theorem linkName_save (psm : Psm) (pCfg : COSA_DML_IP_IF_CFG) (link : ULONG) :
    linkName (CosaDmlIpIfMlanSavePsm psm pCfg) link = linkName psm link := by
  rw [savePsm_eq]
  rfl

/-- The interface that `AddEntry` adds. -/
def added (sys : System) (psm : Psm) (pEntry : COSA_DML_IP_IF_FULL) : DMSB_TR181_IP_IF :=
  let pIpIf := setName (fetchName psm (fetchL2net psm pEntry.Cfg.LinkInstNum 0))
    ⟨pEntry.Cfg, pEntry.Info, emptyStats⟩
  { pIpIf with Info := { pIpIf.Info with LastChange := sys.tick } }

theorem values_added (sys : System) (psm : Psm) (pEntry : COSA_DML_IP_IF_FULL) :
    values (added sys psm pEntry).Cfg = values pEntry.Cfg :=
  kept_setName _ ⟨pEntry.Cfg, pEntry.Info, emptyStats⟩

variable {sys : System}

theorem addEntry_eq {pEntry : COSA_DML_IP_IF_FULL}
    (hnew : pEntry.Cfg.InstanceNumber ∉ ctx.IpIfList.map instanceOf) :
    step ctx (.addEntry sys pEntry) =
      some ⟨put instanceOf ctx.IpIfList (added sys ctx.psm pEntry),
        CosaDmlIpIfMlanSavePsm ctx.psm (added sys ctx.psm pEntry).Cfg⟩ := by
  have hkey : instanceOf (added sys ctx.psm pEntry) = pEntry.Cfg.InstanceNumber :=
    congrArg Values.InstanceNumber (values_added sys ctx.psm pEntry)
  rw [put_of_notMem (by rw [hkey]; exact hnew)]
  rfl

def withAlias (pIpIf : DMSB_TR181_IP_IF) (pAlias : CStr) : DMSB_TR181_IP_IF :=
  { pIpIf with Cfg := { pIpIf.Cfg with Alias := strcpy_s pAlias } }

theorem setValues_eq (h : Keyed ctx) {ulIndex : ℕ} {pAlias : CStr} {x : DMSB_TR181_IP_IF}
    (hx : ctx.IpIfList[ulIndex]? = some x) (hfield : pAlias.length < 512) :
    step ctx (.setValues ulIndex pAlias) =
      some ⟨put instanceOf ctx.IpIfList (withAlias x pAlias),
        CosaDmlIpIfMlanSavePsm ctx.psm (withAlias x pAlias).Cfg⟩ := by
  have hput : ctx.IpIfList.set ulIndex (withAlias x pAlias) =
      put instanceOf ctx.IpIfList (withAlias x pAlias) := set_eq_put h.list hx rfl
  rw [← hput]
  simp only [step, apply, CosaDmlIpIfMlanSetValues, hx]
  rw [if_neg (by omega)]
  rfl

theorem update_linkOf (h : Synced ctx) {x : DMSB_TR181_IP_IF} (hx : x ∈ ctx.IpIfList) :
    Function.update (linkOf ctx.psm) (instanceOf x) x.Cfg.LinkInstNum = linkOf ctx.psm := by
  have hlink : linkOf ctx.psm (instanceOf x) = x.Cfg.LinkInstNum :=
    congrArg Values.LinkInstNum (h.reads x hx)
  rw [← hlink, Function.update_eq_self]

theorem insert_instance (h : Keyed ctx) {x : DMSB_TR181_IP_IF} (hx : x ∈ ctx.IpIfList) :
    ctx.psm.instances.insert (instanceOf x) = ctx.psm.instances :=
  List.insert_of_mem ((h.same _).mpr (List.mem_map_of_mem hx))

def withCfg (pIpIf : DMSB_TR181_IP_IF) (pCfg : COSA_DML_IP_IF_CFG) : DMSB_TR181_IP_IF :=
  { pIpIf with
    Cfg := pCfg
    Info := { pIpIf.Info with Name := strcpy_s pCfg.LinkName.text } }

def nameOf (pCfg : COSA_DML_IP_IF_CFG) : CStr := (strcpy_s pCfg.LinkName.text : Buf 64).text

/-- The states of an interface that `SetCfg` reports as a failure. -/
def Missing (sys : System) (pCfg : COSA_DML_IP_IF_CFG) : Prop :=
  sys.getIfStatus (nameOf pCfg) = .Unknown ∨ sys.getIfStatus (nameOf pCfg) = .NotPresent

instance (sys : System) (pCfg : COSA_DML_IP_IF_CFG) : Decidable (Missing sys pCfg) :=
  inferInstanceAs (Decidable (_ ∨ _))

theorem setCfg_eq (h : Keyed ctx) (sys : System)
    {x : DMSB_TR181_IP_IF} (hx : x ∈ ctx.IpIfList) (hkey : instanceOf x = pCfg.InstanceNumber) :
    CosaDmlIpIfMlanSetCfg sys ctx pCfg =
      (if Missing sys pCfg then .FAILURE else .SUCCESS,
        ⟨put instanceOf ctx.IpIfList (withCfg x pCfg), CosaDmlIpIfMlanSavePsm ctx.psm pCfg⟩) := by
  have hfind : CosaDmlIpIfMlanFindByInstNum ctx pCfg.InstanceNumber = some x :=
    (find_eq_some_iff h.list _ _).mpr ⟨hx, hkey⟩
  have hput : writeFound ctx.IpIfList (withCfg x pCfg) =
      put instanceOf ctx.IpIfList (withCfg x pCfg) := by
    apply replaceF_eq_put h.list
    have hmem : instanceOf x ∈ ctx.IpIfList.map instanceOf := List.mem_map_of_mem hx
    rw [hkey] at hmem
    exact hmem
  have hcode : CosaDmlIpIfMlanSetCfg sys ctx pCfg =
      if Missing sys pCfg then
        (.FAILURE, ⟨writeFound ctx.IpIfList (withCfg x pCfg), CosaDmlIpIfMlanSavePsm ctx.psm pCfg⟩)
      else if pCfg.bEnabled ∧ !pCfg.bEnabled ∧ !sys.up (nameOf pCfg) then
        (.SUCCESS, ⟨writeFound ctx.IpIfList (renewed sys (withCfg x pCfg)),
          CosaDmlIpIfMlanSavePsm ctx.psm pCfg⟩)
      else if !pCfg.bEnabled ∧ pCfg.bEnabled then
        (.SUCCESS, ⟨writeFound ctx.IpIfList (renewed sys (withCfg x pCfg)),
          CosaDmlIpIfMlanSavePsm ctx.psm pCfg⟩)
      else (.SUCCESS,
        ⟨writeFound ctx.IpIfList (withCfg x pCfg), CosaDmlIpIfMlanSavePsm ctx.psm pCfg⟩) := by
    rw [CosaDmlIpIfMlanSetCfg, hfind]
    rfl
  have hsame : ¬ (pCfg.bEnabled ∧ !pCfg.bEnabled ∧ !sys.up (nameOf pCfg)) := by
    cases pCfg.bEnabled <;> simp
  have hsame' : ¬ (!pCfg.bEnabled ∧ pCfg.bEnabled) := by
    cases pCfg.bEnabled <;> simp
  rw [hcode, if_neg hsame, if_neg hsame', hput]
  split <;> rfl

theorem setCfg_unchanged_iff (h : Keyed ctx)
    {x : DMSB_TR181_IP_IF} (hx : x ∈ ctx.IpIfList) (hkey : instanceOf x = pCfg.InstanceNumber) :
    (⟨put instanceOf ctx.IpIfList (withCfg x pCfg), CosaDmlIpIfMlanSavePsm ctx.psm pCfg⟩ :
        DMSB_TR181_IP_CONTEXT) = ctx ↔
      x.Cfg = pCfg ∧ x.Info.Name = strcpy_s pCfg.LinkName.text ∧
        ctx.psm.l3net pCfg.InstanceNumber = fun field => some (recordOf pCfg field) := by
  constructor
  · intro hsame
    have hlist := congrArg DMSB_TR181_IP_CONTEXT.IpIfList hsame
    have hpsm := congrArg DMSB_TR181_IP_CONTEXT.psm hsame
    have hx' : withCfg x pCfg ∈ ctx.IpIfList := by
      rw [← hlist]
      exact (mem_put_iff _ _).mpr (Or.inl rfl)
    have hwith : withCfg x pCfg = x := eq_of_key h.list hx' hx hkey.symm
    refine ⟨?_, ?_, ?_⟩
    · rw [← hwith]
      rfl
    · rw [← hwith]
      rfl
    · have hrecords := congrFun (congrArg Psm.l3net hpsm) pCfg.InstanceNumber
      rw [savePsm_eq] at hrecords
      rw [← hrecords]
      exact Function.update_self ..
  · intro hsame
    obtain ⟨hcfg, hname, hrecords⟩ := hsame
    have hwith : withCfg x pCfg = x := by
      obtain ⟨cfg, ⟨name, change⟩, stats⟩ := x
      dsimp only at hcfg hname
      subst hcfg hname
      rfl
    have hput : put instanceOf ctx.IpIfList x = ctx.IpIfList := put_of_mem h.list hx
    have hpsm : CosaDmlIpIfMlanSavePsm ctx.psm pCfg = ctx.psm := by
      rw [savePsm_eq, ← hrecords, Function.update_eq_self, ← hkey, insert_instance h hx]
    rw [hwith, hput, hpsm]

theorem forall_of_key (h : Keyed ctx) {x : DMSB_TR181_IP_IF} (hx : x ∈ ctx.IpIfList)
    {n : ULONG} (hkey : instanceOf x = n) (P : DMSB_TR181_IP_IF → Prop) :
    (∀ y ∈ ctx.IpIfList, instanceOf y = n → P y) ↔ P x := by
  constructor
  · intro hall
    exact hall x hx hkey
  · intro hp y hy hy'
    rw [eq_of_key h.list hy hx (hy'.trans hkey.symm)]
    exact hp

theorem setCfg_none (hnone : pCfg.InstanceNumber ∉ ctx.IpIfList.map instanceOf) :
    CosaDmlIpIfMlanSetCfg sys ctx pCfg = (.CANT_FIND, ctx) := by
  have hfind : CosaDmlIpIfMlanFindByInstNum ctx pCfg.InstanceNumber = none :=
    (find_eq_none_iff _).mpr hnone
  rw [CosaDmlIpIfMlanSetCfg, hfind]

theorem renewed_iff (h : Keyed ctx)
    {x : DMSB_TR181_IP_IF} (hx : x ∈ ctx.IpIfList) (hkey : instanceOf x = pCfg.InstanceNumber) :
    (pCfg.bEnabled = false → ∀ old ∈ ctx.IpIfList, instanceOf old = pCfg.InstanceNumber →
        old.Cfg.bEnabled = true → ∀ new ∈ put instanceOf ctx.IpIfList (withCfg x pCfg),
          instanceOf new = pCfg.InstanceNumber → new.Info.LastChange = sys.tick ∧
            new.LastStats = sys.CosaUtilGetIfStats new.Info.Name.text) ↔
      (x.Cfg.bEnabled = true → pCfg.bEnabled = false →
        x.Info.LastChange = sys.tick ∧ x.LastStats = sys.CosaUtilGetIfStats (nameOf pCfg)) := by
  rw [forall_of_key h hx hkey fun old => old.Cfg.bEnabled = true →
    ∀ new ∈ put instanceOf ctx.IpIfList (withCfg x pCfg), instanceOf new = pCfg.InstanceNumber →
      new.Info.LastChange = sys.tick ∧
        new.LastStats = sys.CosaUtilGetIfStats new.Info.Name.text]
  constructor
  · intro hnew henabled hdisable
    exact hnew hdisable henabled (withCfg x pCfg) ((mem_put_iff _ _).mpr (Or.inl rfl)) rfl
  · intro hnew hdisable henabled new hmem hinst
    rcases (mem_put_iff _ new).mp hmem with rfl | ⟨-, hne⟩
    · exact hnew henabled hdisable
    · exact absurd hinst hne

theorem delEntry_eq (h : Keyed ctx) {n : ULONG} (hn : n ∈ ctx.IpIfList.map instanceOf) :
    step ctx (.delEntry n) =
      some ⟨drop instanceOf ctx.IpIfList n, PSM_Del_Record ctx.psm n⟩ := by
  obtain ⟨x, hx, hkey⟩ := List.mem_map.mp hn
  have hfind : CosaDmlIpIfMlanFindByInstNum ctx n = some x :=
    (find_eq_some_iff h.list _ _).mpr ⟨hx, hkey⟩
  have hinst : x.Cfg.InstanceNumber = n := hkey
  simp only [step, apply, CosaDmlIpIfMlanDelEntry, hfind, hinst, eraseP_eq_drop h.list n]

theorem synced_del (h : Synced ctx) (n : ULONG) :
    Synced ⟨drop instanceOf ctx.IpIfList n, PSM_Del_Record ctx.psm n⟩ := by
  refine ⟨⟨h.instances.erase n, nodup_drop h.list n, ?_, h.names⟩, ?_⟩
  · intro i
    change i ∈ ctx.psm.instances.erase n ↔ _
    rw [h.instances.mem_erase_iff, h.same i, List.mem_map, List.mem_map]
    constructor
    · intro hi
      obtain ⟨hne, x, hx, hkey⟩ := hi
      exact ⟨x, (mem_drop_iff _ _).mpr ⟨hx, by rw [hkey]; exact hne⟩, hkey⟩
    · intro hi
      obtain ⟨x, hx, hkey⟩ := hi
      obtain ⟨hold, hne⟩ := (mem_drop_iff _ _).mp hx
      exact ⟨by rw [← hkey]; exact hne, x, hold, hkey⟩
  · intro x hx
    obtain ⟨hold, hne⟩ := (mem_drop_iff _ _).mp hx
    have hkept : (PSM_Del_Record ctx.psm n).l3net (instanceOf x) =
        ctx.psm.l3net (instanceOf x) := Function.update_of_ne hne ..
    rw [← h.reads x hold]
    simp only [values, loadCfg, hkept]

section Judged

variable (horder : ∀ is, (order is).Perm is) (h : Synced ctx)

include horder h

theorem right_same_iff :
    ((∀ tick, ((CosaDmlIpIfMlanLoadPsm order ctx.psm tick).map kept).Perm
        (ctx.IpIfList.map kept)) ∧
      ∀ tick, OwnNames ctx.psm (CosaDmlIpIfMlanLoadPsm order ctx.psm tick)) ↔
      NoStale ctx.psm ((order ctx.psm.instances).map (linkOf ctx.psm)) := by
  have hperm (tick : ULONG) := (load_perm_iff horder h.toKeyed tick).mpr h.reads
  have hnames (tick : ULONG) := ownNames_load_iff h.names order tick
  simp only [hperm, hnames, forall_const, true_and]

theorem addEntry_right_iff
    {pEntry : COSA_DML_IP_IF_FULL} (hlegal : Legal ctx (.addEntry sys pEntry)) :
    (∃ ctx', step ctx (.addEntry sys pEntry) = some ctx' ∧
      Right order ctx (.addEntry sys pEntry) ctx') ↔ Fits order ctx (.addEntry sys pEntry) := by
  have hvalues := values_added sys ctx.psm pEntry
  have hkey : instanceOf (added sys ctx.psm pEntry) = pEntry.Cfg.InstanceNumber :=
    congrArg Values.InstanceNumber hvalues
  have hlink : (added sys ctx.psm pEntry).Cfg.LinkInstNum = pEntry.Cfg.LinkInstNum :=
    congrArg Values.LinkInstNum hvalues
  have halias : (added sys ctx.psm pEntry).Cfg.Alias = pEntry.Cfg.Alias :=
    congrArg Values.Alias hvalues
  have hname : (added sys ctx.psm pEntry).Info.Name.text =
      (fetchName ctx.psm (fetchL2net ctx.psm pEntry.Cfg.LinkInstNum 0)).getD
        pEntry.Info.Name.text :=
    name_setName h.names (fetchL2net ctx.psm pEntry.Cfg.LinkInstNum 0)
  have hcommon := right_save_iff horder h (x := added sys ctx.psm pEntry) rfl
  rw [hkey, hlink, halias] at hcommon
  rw [addEntry_eq hlegal]
  simp only [Option.some.injEq, exists_eq_left', Right, Fits, linksAfter]
  rw [← and_assoc, hcommon, and_assoc]
  refine and_congr_right fun _ => and_congr_right fun _ => ?_
  have hown : (added sys ctx.psm pEntry).Info.Name.text =
      linkName ctx.psm pEntry.Cfg.LinkInstNum ↔
        (fetchName ctx.psm (fetchL2net ctx.psm pEntry.Cfg.LinkInstNum 0) = none →
          pEntry.Info.Name.text = []) := by
    rw [hname, linkName]
    cases fetchName ctx.psm (fetchL2net ctx.psm pEntry.Cfg.LinkInstNum 0) with
    | none => simp
    | some t => simp
  rw [← hown]
  simp only [linkName_save]
  constructor
  · intro hnew
    rw [← hlink]
    exact hnew _ ((mem_put_iff _ _).mpr (Or.inl rfl)) hkey
  · intro hnew x hx hinst
    rcases (mem_put_iff _ x).mp hx with rfl | ⟨-, hne⟩
    · rw [hlink]
      exact hnew
    · exact absurd (hinst.trans hkey.symm) hne

theorem setValues_right_iff {ulIndex : ℕ}
    {pAlias : CStr} (hlegal : Legal ctx (.setValues ulIndex pAlias)) :
    (∃ ctx', step ctx (.setValues ulIndex pAlias) = some ctx' ∧
      Right order ctx (.setValues ulIndex pAlias) ctx') ↔
        Fits order ctx (.setValues ulIndex pAlias) := by
  simp only [Right, and_true, Fits, linksAfter]
  cases hx : ctx.IpIfList[ulIndex]? with
  | none =>
    have hstep : step ctx (.setValues ulIndex pAlias) = some ctx := by
      simp only [step, apply, CosaDmlIpIfMlanSetValues, hx]
    have hout : ¬ ulIndex < ctx.IpIfList.length := by
      rw [List.getElem?_eq_none_iff] at hx
      omega
    rw [hstep]
    simp only [Option.some.injEq, exists_eq_left', right_same_iff horder h, hout, false_imp_iff,
      and_true]
  | some x =>
    have hmem := List.mem_of_getElem? hx
    obtain ⟨hin, -⟩ := List.getElem?_eq_some_iff.mp hx
    rw [setValues_eq h.toKeyed hx hlegal]
    have halias : (withAlias x pAlias).Cfg.Alias.text = pAlias := text_strcpy_s_of_lt hlegal
    have hcommon := right_save_iff horder h (x := withAlias x pAlias) rfl
    have hinsert : ctx.psm.instances.insert (instanceOf (withAlias x pAlias)) =
        ctx.psm.instances := @insert_instance _ h.toKeyed x hmem
    have hupdate : Function.update (linkOf ctx.psm) (instanceOf (withAlias x pAlias))
        (withAlias x pAlias).Cfg.LinkInstNum = linkOf ctx.psm := @update_linkOf _ h x hmem
    rw [halias, hinsert, hupdate] at hcommon
    simp only [Option.some.injEq, exists_eq_left', hin, true_imp_iff]
    exact hcommon

theorem setCfg_right_iff (sys : System)
    (pCfg : COSA_DML_IP_IF_CFG) :
    (∃ ctx', step ctx (.setCfg sys pCfg) = some ctx' ∧
      Right order ctx (.setCfg sys pCfg) ctx') ↔ Fits order ctx (.setCfg sys pCfg) := by
  simp only [step, apply, Option.some.injEq, exists_eq_left', Right, Fits, linksAfter]
  by_cases hfound : pCfg.InstanceNumber ∈ ctx.IpIfList.map instanceOf
  · obtain ⟨x, hx, hkey⟩ := List.mem_map.mp hfound
    have hlisted := (h.same _).mpr hfound
    have hcommon := right_save_iff horder h (x := withCfg x pCfg) rfl
    have hinsert : ctx.psm.instances.insert (instanceOf (withCfg x pCfg)) = ctx.psm.instances :=
      List.insert_of_mem hlisted
    rw [hinsert] at hcommon
    rw [setCfg_eq h.toKeyed sys hx hkey, if_pos hlisted,
      forall_of_key h.toKeyed hx hkey fun old => _ ∧ _]
    refine and_assoc.symm.trans ((and_congr hcommon ?_).trans and_assoc)
    by_cases hmissing : Missing sys pCfg
    · simp only [if_pos hmissing]
      refine Iff.trans ?_ ((setCfg_unchanged_iff h.toKeyed hx hkey).trans
        (Iff.of_eq (if_pos hmissing).symm))
      constructor
      · intro hright
        apply hright.1
        intro hstatus
        cases hstatus
      · intro hsame
        refine ⟨fun _ => hsame, fun hstatus => ?_⟩
        cases hstatus
    · simp only [if_neg hmissing]
      refine Iff.trans ?_ ((renewed_iff h.toKeyed hx hkey).trans
        (Iff.of_eq (if_neg hmissing).symm))
      constructor
      · intro hright
        exact hright.2 trivial
      · intro hnew
        exact ⟨fun hstatus => (hstatus rfl).elim, fun _ => hnew⟩
  · have hunlisted : pCfg.InstanceNumber ∉ ctx.psm.instances := by
      rw [h.same]
      exact hfound
    have hnone : ∀ old ∈ ctx.IpIfList, instanceOf old = pCfg.InstanceNumber → False := by
      intro old hold hkey
      exact hfound (List.mem_map.mpr ⟨old, hold, hkey⟩)
    rw [setCfg_none hfound, if_neg hunlisted, ← and_assoc, right_same_iff horder h]
    refine and_congr_right fun _ => iff_of_true ⟨fun _ => rfl, fun hstatus => ?_⟩ ?_
    · cases hstatus
    · intro old hold hkey
      exact (hnone old hold hkey).elim

theorem delEntry_right_iff (n : ULONG) :
    (∃ ctx', step ctx (.delEntry n) = some ctx' ∧ Right order ctx (.delEntry n) ctx') ↔
      Fits order ctx (.delEntry n) := by
  simp only [Right, and_true, Fits, linksAfter]
  by_cases hn : n ∈ ctx.IpIfList.map instanceOf
  · rw [delEntry_eq h.toKeyed hn]
    simp only [Option.some.injEq, exists_eq_left']
    have hcommon := right_same_iff horder (synced_del h n)
    have hlinks : (order (ctx.psm.instances.erase n)).map (linkOf (PSM_Del_Record ctx.psm n)) =
        (order (ctx.psm.instances.erase n)).map (linkOf ctx.psm) := by
      apply List.map_congr_left
      intro i hi
      have hi' : i ∈ ctx.psm.instances.erase n := (horder _).mem_iff.mp hi
      have hne := (h.instances.mem_erase_iff.mp hi').1
      have hkept : (PSM_Del_Record ctx.psm n).l3net i = ctx.psm.l3net i :=
        Function.update_of_ne hne ..
      rw [linkOf, linkOf, hkept]
    rw [← hlinks]
    exact hcommon
  · have hstep : step ctx (.delEntry n) = some ctx := by
      have hfind : CosaDmlIpIfMlanFindByInstNum ctx n = none := (find_eq_none_iff _).mpr hn
      simp only [step, apply, CosaDmlIpIfMlanDelEntry, hfind]
    have herase : ctx.psm.instances.erase n = ctx.psm.instances := by
      apply List.erase_of_not_mem
      rw [h.same]
      exact hn
    rw [hstep, herase]
    simp only [Option.some.injEq, exists_eq_left', right_same_iff horder h]

theorem call_right_iff (c : Call)
    (hlegal : Legal ctx c) :
    (∃ ctx', step ctx c = some ctx' ∧ Right order ctx c ctx') ↔ Fits order ctx c := by
  cases c with
  | addEntry sys pEntry => exact addEntry_right_iff horder h hlegal
  | setValues ulIndex pAlias => exact setValues_right_iff horder h hlegal
  | setCfg sys pCfg => exact setCfg_right_iff horder h sys pCfg
  | delEntry n => exact delEntry_right_iff horder h n

end Judged

theorem synced_step (h : Synced ctx) {c : Call} {ctx' : DMSB_TR181_IP_CONTEXT}
    (hlegal : Legal ctx c) (hfits : Fits order ctx c) (hstep : step ctx c = some ctx') :
    Synced ctx' := by
  cases c with
  | addEntry sys pEntry =>
    rw [addEntry_eq hlegal] at hstep
    obtain rfl := Option.some.inj hstep
    apply synced_save h
    rw [show (added sys ctx.psm pEntry).Cfg.Alias = pEntry.Cfg.Alias from
      congrArg Values.Alias (values_added sys ctx.psm pEntry)]
    exact hfits.2.1
  | setValues ulIndex pAlias =>
    cases hx : ctx.IpIfList[ulIndex]? with
    | none =>
      simp only [step, apply, CosaDmlIpIfMlanSetValues, hx, Option.some.injEq] at hstep
      rw [← hstep]
      exact h
    | some x =>
      obtain ⟨hin, -⟩ := List.getElem?_eq_some_iff.mp hx
      rw [setValues_eq h.toKeyed hx hlegal] at hstep
      obtain rfl := Option.some.inj hstep
      apply synced_save h
      rw [show (withAlias x pAlias).Cfg.Alias.text = pAlias from text_strcpy_s_of_lt hlegal]
      exact hfits.2 hin
  | setCfg sys pCfg =>
    by_cases hfound : pCfg.InstanceNumber ∈ ctx.IpIfList.map instanceOf
    · obtain ⟨x, hx, hkey⟩ := List.mem_map.mp hfound
      simp only [step, apply, setCfg_eq h.toKeyed sys hx hkey, Option.some.injEq] at hstep
      rw [← hstep]
      exact synced_save h (x := withCfg x pCfg) (hfits.2 x hx hkey).1
    · simp only [step, apply, setCfg_none hfound, Option.some.injEq] at hstep
      rw [← hstep]
      exact h
  | delEntry n =>
    by_cases hn : n ∈ ctx.IpIfList.map instanceOf
    · rw [delEntry_eq h.toKeyed hn] at hstep
      obtain rfl := Option.some.inj hstep
      exact synced_del h n
    · have hfind : CosaDmlIpIfMlanFindByInstNum ctx n = none := (find_eq_none_iff _).mpr hn
      simp only [step, apply, CosaDmlIpIfMlanDelEntry, hfind, Option.some.injEq] at hstep
      rw [← hstep]
      exact h

end Steps

section Runs

variable (order : List ULONG → List ULONG)

def loaded (psm : Psm) (tick : ULONG) : DMSB_TR181_IP_CONTEXT :=
  ⟨CosaDmlIpIfMlanLoadPsm order psm tick, psm⟩

theorem kept_of_mem_loadLoop {tick : ULONG} {is : List ULONG} {ul : ULONG}
    {x : DMSB_TR181_IP_IF} (hx : x ∈ loadLoop psm tick ul is) :
    values (loadCfg psm (instanceOf x)) = kept x := by
  have hmem : kept x ∈ (loadLoop psm tick ul is).map kept := List.mem_map_of_mem hx
  rw [kept_loadLoop] at hmem
  obtain ⟨i, -, hi⟩ := List.mem_map.mp hmem
  have hinst : i = instanceOf x := congrArg Values.InstanceNumber hi
  rw [← hinst]
  exact hi

theorem synced_loaded (horder : ∀ is, (order is).Perm is) (hinst : psm.instances.Nodup)
    (hnames : ∀ v t, psm.l2net_name v = some (.string t) → t.length < 64) (tick : ULONG) :
    Synced (loaded order psm tick) := by
  have hlist : (loaded order psm tick).IpIfList.map instanceOf = order psm.instances := by
    have hkept := congrArg (List.map Values.InstanceNumber)
      (kept_loadLoop psm tick (order psm.instances) 0)
    rw [List.map_map, List.map_map] at hkept
    exact hkept.trans (List.map_id' _)
  refine ⟨⟨hinst, ?_, ?_, ?_⟩, fun x hx => kept_of_mem_loadLoop hx⟩
  · rw [hlist]
    exact (horder _).nodup_iff.mpr hinst
  · intro i
    rw [hlist]
    exact (horder _).mem_iff.symm
  · intro v t hname
    rw [fetchName] at hname
    split at hname
    · cases hname
    · split at hname
      · rename_i hrecord
        obtain rfl := Option.some.inj hname
        exact hnames v _ hrecord
      · cases hname

/-- A loaded table has the names of its own links, and every call of a run goes right, just
where no link that leads nowhere is loaded behind a network with a name, and every call
fits. -/
theorem mlan_right_iff (horder : ∀ is, (order is).Perm is) (psm : Psm)
    (hinst : psm.instances.Nodup)
    (hnames : ∀ v t, psm.l2net_name v = some (.string t) → t.length < 64) (tick : ULONG)
    (calls : List Call) (hlegal : StepsMeet step Legal (loaded order psm tick) calls) :
    OwnNames psm (CosaDmlIpIfMlanLoadPsm order psm tick) ∧
        Does step (Right order) (loaded order psm tick) calls ↔
      NoStale psm ((order psm.instances).map (linkOf psm)) ∧
        StepsMeet step (Fits order) (loaded order psm tick) calls := by
  have hsynced := synced_loaded order horder hinst hnames tick
  refine and_congr (ownNames_load_iff hsynced.names order tick) ?_
  apply @does_iff _ _ step (Right order) Legal (Fits order) Synced
  · intro ctx c h hc
    exact call_right_iff horder h c hc
  · intro ctx c ctx' h hc hfits hstep
    exact synced_step h hc hfits hstep
  · exact hsynced
  · exact hlegal

def brlan0 : CStr := "brlan0".toList

/-- A store without interfaces, whose link 1 leads to the network 2. -/
def emptyStore : Psm where
  instances := []
  l3net := fun _ _ => none
  EthLink_l2net := fun i => if i = 1 then some (.unsignedInt 2) else none
  l2net_name := fun i => if i = 2 then some (.string brlan0) else none

def entry : COSA_DML_IP_IF_FULL where
  Cfg := ⟨1, Buf.empty, true, .EthLink, Buf.empty, 1, 1500, .Normal, false, false, Buf.empty,
    Buf.empty, 0, 0, false, false⟩
  Info := ⟨Buf.empty, 0⟩

def quiet : System := ⟨fun _ => .Up, fun _ => true, fun _ => emptyStats, 5⟩

theorem noStale_singleton (psm : Psm) (link : ULONG) : NoStale psm [link] := by
  intro before link' after hsplit _ v hv
  cases before with
  | nil => cases hv
  | cons first before => simp at hsplit

theorem short_names (v : ULONG) (t : CStr)
    (h : (if v = 2 then some (Record.string brlan0) else none) = some (.string t)) :
    t.length < 64 := by
  split at h
  · obtain rfl := Record.string.inj (Option.some.inj h)
    decide
  · cases h

theorem mlan_right_of_entry :
    OwnNames emptyStore (CosaDmlIpIfMlanLoadPsm id emptyStore 0) ∧
      Does step (Right id) (loaded id emptyStore 0) [.addEntry quiet entry] := by
  apply (mlan_right_iff id (fun is => List.Perm.refl is) emptyStore List.nodup_nil short_names 0
    [.addEntry quiet entry] ⟨List.not_mem_nil, fun _ _ => trivial⟩).mpr
  refine ⟨?_, ⟨noStale_singleton _ _, by decide, fun _ => rfl⟩, fun _ _ => trivial⟩
  intro before link after hsplit
  simp [emptyStore] at hsplit

/-- Two interfaces, the second with no link. -/
def twoStore : Psm where
  instances := [1, 2]
  l3net := fun i field =>
    if i = 1 ∧ field = .EthLink then some (.unsignedInt 1)
    else if i = 2 ∧ field = .EthLink then some (.unsignedInt 0)
    else none
  EthLink_l2net := emptyStore.EthLink_l2net
  l2net_name := emptyStore.l2net_name

/-- The interface without a link is loaded under the name of the other. -/
theorem name_of_another :
    ((CosaDmlIpIfMlanLoadPsm id twoStore 0).map fun x =>
        (instanceOf x, x.Cfg.LinkInstNum, x.Info.Name.text)) = [(1, 1, brlan0), (2, 0, brlan0)] ∧
      linkName twoStore 0 = [] ∧
      ¬ (OwnNames twoStore (CosaDmlIpIfMlanLoadPsm id twoStore 0) ∧
        Does step (Right id) (loaded id twoStore 0) []) := by
  have hload : ((CosaDmlIpIfMlanLoadPsm id twoStore 0).map fun x =>
      (instanceOf x, x.Cfg.LinkInstNum, x.Info.Name.text)) =
        [(1, 1, brlan0), (2, 0, brlan0)] := by decide
  have hnone : linkName twoStore 0 = [] := by decide
  refine ⟨hload, hnone, fun hright => ?_⟩
  have hmem : ((2 : ULONG), (0 : ULONG), brlan0) ∈
      (CosaDmlIpIfMlanLoadPsm id twoStore 0).map fun x =>
        (instanceOf x, x.Cfg.LinkInstNum, x.Info.Name.text) := by
    rw [hload]
    exact List.mem_cons_of_mem _ List.mem_cons_self
  obtain ⟨x, hx, hsame⟩ := List.mem_map.mp hmem
  have hown := hright.1 x hx
  obtain ⟨-, hlink, hname⟩ := Prod.mk.inj hsame |>.imp_right Prod.mk.inj
  rw [hlink, hname, hnone] at hown
  cases hown

end Runs

end CcspPandM.MlanInterfaces
