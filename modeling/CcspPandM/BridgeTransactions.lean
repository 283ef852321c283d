import CcspPandM.BitWindow
import CcspPandM.IpRegistry
import CcspPandM.Runs
import CcspPandM.TextSearch

/-!
Setting parameters of a bridge or of a port as a transaction. The setters write into the
live entry, the check compares its alias with those of the others, and the rollback
after a failed check does nothing. Runs mix transactions with entries that are added
and deleted.
-/
namespace CcspPandM.BridgeTransactions

open BitWindow CString IpRegistry KeyedList Runs TextSearch

section Code

inductive COSA_DML_BRG_LINK_TYPE where
  | NONE
  | Eth
  | EthVlan
  | Usb
  | Hpna
  | Moca
  | HomePlug
  | Upa
  | WiFiSsid
  | Bridge
  | Gre
  deriving DecidableEq

structure COSA_DML_BRG_CFG where
  InstanceNumber : ULONG
  Alias : Buf 512
  name : Buf 512
  bEnabled : Bool
  bAllowDelete : Bool
  Std : ULONG
  deriving DecidableEq

structure COSA_DML_BRG_PORT_CFG where
  InstanceNumber : ULONG
  Alias : Buf 512
  bEnabled : Bool
  LinkType : COSA_DML_BRG_LINK_TYPE
  LinkName : Buf 512
  bManagementPort : Bool
  DftUserPriority : BitVec 8
  PriorityRegeneration : Bytes 8
  PVID : BitVec 16
  AcceptableFrameTypes : ULONG
  bIngressFiltering : Bool
  bPriorityTagging : Bool
  mode : ULONG
  bUpstream : Bool
  bAllowDelete : Bool
  deriving DecidableEq

/-- A port with its displayed name; `InstanceNumber` is that of the list link and `committed`
what the last commit handed to the backend. -/
structure Port where
  InstanceNumber : ULONG
  Cfg : COSA_DML_BRG_PORT_CFG
  Name : Buf 512
  bNew : Bool
  committed : Option COSA_DML_BRG_PORT_CFG

structure Vlan where
  InstanceNumber : ULONG
  Alias : Buf 512
  bEnabled : Bool
  VLANID : BitVec 32
  Name : Buf 512
  deriving DecidableEq

structure Bridge where
  InstanceNumber : ULONG
  Cfg : COSA_DML_BRG_CFG
  bNew : Bool
  PortList : List Port
  VLANList : List Vlan
  ulNextPortInsNum : ULONG
  ulNextVLANInsNum : ULONG
  committed : Option COSA_DML_BRG_CFG

structure State where
  BridgeList : List Bridge
  ulNextBridgeInstance : ULONG

structure Bus where
  COSAGetParamValueByPathName : CStr → Buf 256 → Bool × Buf 256
  CosaGetParamValueString : CStr → Buf 256 → Bool × Buf 256

inductive SetParam where
  | BoolValue (ParamName : CStr) (bValue : Bool)
  | IntValue (ParamName : CStr) (iValue : BitVec 32)
  | UlongValue (ParamName : CStr) (uValue : ULONG)
  | StringValue (ParamName pString : CStr) (bus : Bus)

/-- The copy, unless the text does not fit. -/
def STRCPY_S_NOCLOBBER {n : ℕ} (src : CStr) : Option (Buf n) :=
  if h : src.length < n then some ⟨src, h⟩ else none

section Setters

variable (MULTILAN_FEATURE : Bool) (b : Bridge) (p : Port)

/-- The first VLAN is enabled with the bridge. -/
def Bridge_SetParamBoolValue (ParamName : CStr) (bValue : Bool) : Bridge × Bool :=
  if ParamName = "Enable".toList then
    ({ b with
        Cfg := { b.Cfg with bEnabled := bValue }
        VLANList := b.VLANList.modifyHead fun pVLAN => { pVLAN with bEnabled := bValue } }, true)
  else (b, false)

def Bridge_SetParamIntValue : Bridge × Bool := (b, false)

def Bridge_SetParamUlongValue (ParamName : CStr) (uValue : ULONG) : Bridge × Bool :=
  if ParamName = "Standard".toList then ({ b with Cfg := { b.Cfg with Std := uValue } }, true)
  else (b, false)

def Bridge_SetParamStringValue (ParamName pString : CStr) : Bridge × Bool :=
  if ParamName = "Alias".toList then
    match STRCPY_S_NOCLOBBER pString with
    | some Alias => ({ b with Cfg := { b.Cfg with Alias := Alias } }, true)
    | none => (b, false)
  else if MULTILAN_FEATURE && ParamName = "Name".toList then
    match STRCPY_S_NOCLOBBER pString with
    | some name => ({ b with Cfg := { b.Cfg with name := name } }, true)
    | none => (b, false)
  else (b, false)

def Bridge_SetParam : SetParam → Bridge × Bool
  | .BoolValue ParamName bValue => Bridge_SetParamBoolValue b ParamName bValue
  | .IntValue _ _ => Bridge_SetParamIntValue b
  | .UlongValue ParamName uValue => Bridge_SetParamUlongValue b ParamName uValue
  | .StringValue ParamName pString _ =>
    Bridge_SetParamStringValue MULTILAN_FEATURE b ParamName pString

def Port_SetParamBoolValue (ParamName : CStr) (bValue : Bool) : Port × Bool :=
  if ParamName = "Enable".toList then
    ({ p with Cfg := { p.Cfg with bEnabled := bValue } }, true)
  else if ParamName = "ManagementPort".toList then
    ({ p with Cfg := { p.Cfg with bManagementPort := bValue } }, true)
  else if ParamName = "IngressFiltering".toList then
    ({ p with Cfg := { p.Cfg with bIngressFiltering := bValue } }, true)
  else if ParamName = "PriorityTagging".toList then
    ({ p with Cfg := { p.Cfg with bPriorityTagging := bValue } }, true)
  else (p, false)

def Port_SetParamIntValue (ParamName : CStr) (iValue : BitVec 32) : Port × Bool :=
  if ParamName = "PVID".toList then
    ({ p with Cfg := { p.Cfg with PVID := iValue.setWidth 16 } }, true)
  else (p, false)

def Port_SetParamUlongValue (ParamName : CStr) (uValue : ULONG) : Port × Bool :=
  if ParamName = "DefaultUserPriority".toList then
    ({ p with Cfg := { p.Cfg with DftUserPriority := uValue.setWidth 8 } }, true)
  else if ParamName = "PriorityRegeneration".toList then
    ({ p with
        Cfg := { p.Cfg with
          PriorityRegeneration := Function.update p.Cfg.PriorityRegeneration 0 0 } }, true)
  else if ParamName = "AcceptableFrameTypes".toList then
    ({ p with Cfg := { p.Cfg with AcceptableFrameTypes := uValue } }, true)
  else if ParamName = "X_CISCO_COM_Mode".toList then
    ({ p with Cfg := { p.Cfg with mode := uValue } }, true)
  else (p, false)

end Setters

section LowerLayers

variable (bus : Bus) (pString : CStr)

/-- `sprintf_s` into `ucEntryParamName[256]`. -/
def entryParamName (front back : CStr) : Option CStr :=
  if (front ++ back).length < 256 then some (front ++ back) else none

/-- Whether a lookup succeeds with a value that is not empty. -/
def found (r : Bool × Buf 256) : Bool := r.1 && !r.2.text.isEmpty

def linkTo (LinkType : COSA_DML_BRG_LINK_TYPE) (value : Buf 256) (p : Port) : Option Port :=
  (STRCPY_S_NOCLOBBER value.text).map fun LinkName =>
    { p with Cfg := { p.Cfg with LinkName := LinkName, LinkType := LinkType } }

/-- A WiFi or MoCA link; without a name the port stays as it is. -/
def radioLink (LinkType : COSA_DML_BRG_LINK_TYPE) (r : Bool × Buf 256) (p : Port) :
    Port × Option (Buf 256) :=
  if found r then
    match linkTo LinkType r.2 p with
    | none => (p, none)
    | some p => (p, (entryParamName pString ".LowerLayers".toList).map fun _ => r.2)
  else (p, some r.2)

/-- The name and the type of the link of a port that is no management port. The second part is
the buffer of the values, nothing where the setter returns FALSE. -/
def linkOf (ucEntryParamName : CStr) (p : Port) : Port × Option (Buf 256) :=
  if (strstr "WiFi".toList pString).isSome then
    radioLink pString .WiFiSsid (bus.COSAGetParamValueByPathName ucEntryParamName Buf.empty) p
  else if (strstr "MoCA".toList pString).isSome then
    radioLink pString .Moca (bus.COSAGetParamValueByPathName ucEntryParamName Buf.empty) p
  else
    let r := bus.CosaGetParamValueString ucEntryParamName Buf.empty
    if found r then
      let LinkType :=
        if (strstr "Ethernet".toList pString).isSome then .Eth
        else if (strstr "Bridge".toList pString).isSome then .Bridge
        else if (strstr "GRE".toList pString).isSome then .Gre
        else p.Cfg.LinkType
      match linkTo LinkType r.2 p with
      | none => (p, none)
      | some p => (p, some r.2)
    else ({ p with Cfg := { p.Cfg with LinkType := .NONE, LinkName := Buf.empty } }, some r.2)

def upstreamBelow (value : Buf 256) : Option Bool :=
  (entryParamName value.text ".Upstream".toList).map fun ucEntryParamName =>
    let r := bus.COSAGetParamValueByPathName ucEntryParamName Buf.empty
    found r && (strstr "true".toList r.2.text).isSome

def upstreamOf (ucEntryParamName : CStr) (value : Buf 256) : Option Bool :=
  let wifi := (strstr "WiFi".toList pString).isSome
  let r := if wifi then bus.COSAGetParamValueByPathName ucEntryParamName value else (false, value)
  if wifi && found r then upstreamBelow bus r.2
  else
    let moca := (strstr "MoCA".toList pString).isSome
    let r := if moca then bus.COSAGetParamValueByPathName ucEntryParamName r.2 else (false, r.2)
    if moca && found r then upstreamBelow bus r.2
    else
      let r := bus.CosaGetParamValueString ucEntryParamName r.2
      some (found r && (strstr "true".toList r.2.text).isSome)

def showLink (p : Port) : Port := { p with Name := p.Cfg.LinkName }

def setUpstream (bUpstream : Bool) (p : Port) : Port :=
  { p with Cfg := { p.Cfg with bUpstream := bUpstream } }

/-- The "LowerLayers" branch, which may return FALSE after each of its steps. -/
def Port_SetLowerLayers (p : Port) : Port × Bool :=
  match entryParamName pString ".Name".toList with
  | none => (p, false)
  | some ucEntryParamName =>
    if p.Cfg.bManagementPort then
      (showLink { p with
        Cfg := { p.Cfg with LinkType := .NONE, LinkName := Buf.empty, bUpstream := false } }, true)
    else
      let (p, value) := linkOf bus pString ucEntryParamName p
      match value, entryParamName pString ".Upstream".toList with
      | some value, some ucEntryParamName =>
        let p := setUpstream false (showLink p)
        match upstreamOf bus pString ucEntryParamName value with
        | none => (p, false)
        | some bUpstream => (setUpstream bUpstream p, true)
      | _, _ => (p, false)

end LowerLayers

def Port_SetParamStringValue (p : Port) (ParamName pString : CStr) (bus : Bus) : Port × Bool :=
  if ParamName = "Alias".toList then
    match STRCPY_S_NOCLOBBER pString with
    | some Alias => ({ p with Cfg := { p.Cfg with Alias := Alias } }, true)
    | none => (p, false)
  else if ParamName = "LowerLayers".toList then Port_SetLowerLayers bus pString p
  else (p, false)

def Port_SetParam (p : Port) : SetParam → Port × Bool
  | .BoolValue ParamName bValue => Port_SetParamBoolValue p ParamName bValue
  | .IntValue ParamName iValue => Port_SetParamIntValue p ParamName iValue
  | .UlongValue ParamName uValue => Port_SetParamUlongValue p ParamName uValue
  | .StringValue ParamName pString bus => Port_SetParamStringValue p ParamName pString bus

/-- The parameter that fails the check: the alias is that of another entry. -/
def validateAlias (aliases : List (Buf 512)) (k : ℕ) : Option CStr :=
  match aliases[k]? with
  | none => none
  | some own =>
    if (aliases.eraseIdx k).any fun other => other.text == own.text then some "Alias".toList
    else none

def Bridge_Validate (BridgeList : List Bridge) (k : ℕ) : Option CStr :=
  validateAlias (BridgeList.map fun b => b.Cfg.Alias) k

def Port_Validate (PortList : List Port) (j : ℕ) : Option CStr :=
  validateAlias (PortList.map fun p => p.Cfg.Alias) j

/-- A new entry goes to `CosaDmlBrgAddEntry`, another one to `CosaDmlBrgSetCfg`. -/
def Bridge_Commit (b : Bridge) : Bridge :=
  if b.bNew then { b with bNew := false, committed := some b.Cfg }
  else { b with committed := some b.Cfg }

def Port_Commit (p : Port) : Port :=
  if p.bNew then { p with bNew := false, committed := some p.Cfg }
  else { p with committed := some p.Cfg }

def Bridge_Rollback (b : Bridge) : Bridge := b

def Port_Rollback (p : Port) : Port := p

/-- `memory` is what the allocated entry holds, the name and the id come from the backend. -/
def Bridge_AddEntry (MULTILAN_FEATURE : Bool) (memory : COSA_DML_BRG_CFG) (BrgName : Buf 512)
    (VLANID : BitVec 32) (s : State) : State :=
  let number := s.ulNextBridgeInstance
  let Cfg : COSA_DML_BRG_CFG :=
    { InstanceNumber := number
      Alias := Buf.sprintf_s
        ((if MULTILAN_FEATURE then "cpe-Bridge".toList else "Bridge".toList) ++
          decimal number.toNat)
      name := if MULTILAN_FEATURE then Buf.sprintf_s ("Bridge".toList ++ decimal number.toNat)
        else memory.name
      bEnabled := false
      bAllowDelete := true
      Std := 2 }
  { BridgeList := pushEntryByInsNum Bridge.InstanceNumber s.BridgeList
      { InstanceNumber := number
        Cfg := Cfg
        bNew := false
        PortList := []
        VLANList := [⟨1, Buf.sprintf_s "cpe-VLAN1".toList, false, VLANID, BrgName⟩]
        ulNextPortInsNum := 1
        ulNextVLANInsNum := 2
        committed := none }
    ulNextBridgeInstance := nextAfter number }

def Bridge_DelEntry (k : ℕ) (s : State) : State :=
  match s.BridgeList[k]? with
  | none => s
  | some b =>
    if b.Cfg.bAllowDelete then { s with BridgeList := s.BridgeList.eraseIdx k } else s

/-- The number and the alias are printed into memory that is as it was allocated. -/
def Port_AddEntry (memory : COSA_DML_BRG_PORT_CFG) (Name : Buf 512) (b : Bridge) : Bridge :=
  let number := b.ulNextPortInsNum
  let pPort : Port :=
    { InstanceNumber := number
      Cfg := { memory with
        InstanceNumber := number
        Alias := Buf.sprintf_s ("Port".toList ++ decimal number.toNat)
        bAllowDelete := true }
      Name := Name
      bNew := true
      committed := none }
  { b with
    PortList := pushEntryByInsNum Port.InstanceNumber b.PortList pPort
    ulNextPortInsNum := nextAfter number }

/-- The mark that is looked at is the one of the bridge. -/
def Port_DelEntry (j : ℕ) (b : Bridge) : Bridge :=
  match b.PortList[j]? with
  | none => b
  | some p =>
    if p.Cfg.bAllowDelete then { b with bNew := false, PortList := b.PortList.eraseIdx j } else b

inductive Op where
  | addBridge (memory : COSA_DML_BRG_CFG) (BrgName : Buf 512) (VLANID : BitVec 32)
  | delBridge (k : ℕ)
  | addPort (k : ℕ) (memory : COSA_DML_BRG_PORT_CFG) (Name : Buf 512)
  | delPort (k j : ℕ)
  | setVLANs (k : ℕ) (VLANList : List Vlan)
  | setBridge (k : ℕ) (calls : List SetParam)
  | setPort (k j : ℕ) (calls : List SetParam)

variable (MULTILAN_FEATURE : Bool)

def bridgesSet (BridgeList : List Bridge) (k : ℕ) (calls : List SetParam) : List Bridge :=
  BridgeList.modify k fun b =>
    calls.foldl (fun b call => (Bridge_SetParam MULTILAN_FEATURE b call).1) b

def portsSet (PortList : List Port) (j : ℕ) (calls : List SetParam) : List Port :=
  PortList.modify j fun p => calls.foldl (fun p call => (Port_SetParam p call).1) p

def setBridges (BridgeList : List Bridge) (k : ℕ) (calls : List SetParam) : List Bridge :=
  let set := bridgesSet MULTILAN_FEATURE BridgeList k calls
  match Bridge_Validate set k with
  | none => set.modify k Bridge_Commit
  | some _ => set.modify k Bridge_Rollback

def setPorts (PortList : List Port) (j : ℕ) (calls : List SetParam) : List Port :=
  let set := portsSet PortList j calls
  match Port_Validate set j with
  | none => set.modify j Port_Commit
  | some _ => set.modify j Port_Rollback

def step (s : State) : Op → Option State
  | .addBridge memory BrgName VLANID =>
    some (Bridge_AddEntry MULTILAN_FEATURE memory BrgName VLANID s)
  | .delBridge k => some (Bridge_DelEntry k s)
  | .addPort k memory Name =>
    some { s with BridgeList := s.BridgeList.modify k (Port_AddEntry memory Name) }
  | .delPort k j => some { s with BridgeList := s.BridgeList.modify k (Port_DelEntry j) }
  | .setVLANs k VLANList =>
    some { s with BridgeList := s.BridgeList.modify k fun b => { b with VLANList := VLANList } }
  | .setBridge k calls =>
    some { s with BridgeList := setBridges MULTILAN_FEATURE s.BridgeList k calls }
  | .setPort k j calls =>
    some { s with
      BridgeList := s.BridgeList.modify k fun b =>
        { b with PortList := setPorts b.PortList j calls } }

end Code

section Purpose

/-- No two bridges and no two ports of one bridge have the same alias. -/
structure Distinct (BridgeList : List Bridge) : Prop where
  bridges : (BridgeList.map fun b => b.Cfg.Alias).Nodup
  ports : ∀ b ∈ BridgeList, (b.PortList.map fun p => p.Cfg.Alias).Nodup

structure AsCommitted (BridgeList : List Bridge) : Prop where
  bridges : ∀ b ∈ BridgeList, ∀ Cfg ∈ b.committed, b.Cfg = Cfg
  ports : ∀ b ∈ BridgeList, ∀ p ∈ b.PortList, ∀ Cfg ∈ p.committed, p.Cfg = Cfg

def Good (s : State) : Prop := Distinct s.BridgeList ∧ AsCommitted s.BridgeList

/-- What a transaction that fails its check should leave as it was. -/
def shownBridge (BridgeList : List Bridge) (k : ℕ) : Option (COSA_DML_BRG_CFG × Option Vlan) :=
  (BridgeList[k]?).map fun b => (b.Cfg, b.VLANList.head?)

def shownPort (BridgeList : List Bridge) (k j : ℕ) :
    Option (Option (COSA_DML_BRG_PORT_CFG × Buf 512) × Option Vlan) :=
  (BridgeList[k]?).map fun b =>
    ((b.PortList[j]?).map fun p => (p.Cfg, p.Name), b.VLANList.head?)

/-- After a failed check and the rollback everything is as before the transaction. -/
def Restored (MULTILAN_FEATURE : Bool) (s : State) (op : Op) (t : State) : Prop :=
  match op with
  | .setBridge k calls =>
    Bridge_Validate (bridgesSet MULTILAN_FEATURE s.BridgeList k calls) k ≠ none →
      shownBridge t.BridgeList k = shownBridge s.BridgeList k
  | .setPort k j calls => ∀ b ∈ s.BridgeList[k]?,
    Port_Validate (portsSet b.PortList j calls) j ≠ none →
      shownPort t.BridgeList k j = shownPort s.BridgeList k j
  | _ => True

def Right (MULTILAN_FEATURE : Bool) (s : State) (op : Op) (t : State) : Prop :=
  Restored MULTILAN_FEATURE s op t ∧ Good t

def aliasAfter (old : Buf 512) : SetParam → Buf 512
  | .StringValue ParamName pString _ =>
    if ParamName = "Alias".toList then (STRCPY_S_NOCLOBBER pString).getD old else old
  | _ => old

/-- The alias that an entry gets is not that of another one. -/
def Fits (MULTILAN_FEATURE : Bool) (s : State) : Op → Prop
  | .addBridge _ _ _ =>
    ∀ b ∈ s.BridgeList, b.Cfg.Alias ≠ Buf.sprintf_s
      ((if MULTILAN_FEATURE then "cpe-Bridge".toList else "Bridge".toList) ++
        decimal s.ulNextBridgeInstance.toNat)
  | .addPort k _ _ => ∀ b ∈ s.BridgeList[k]?, ∀ p ∈ b.PortList,
    p.Cfg.Alias ≠ Buf.sprintf_s ("Port".toList ++ decimal b.ulNextPortInsNum.toNat)
  | .setBridge k calls => ∀ b ∈ s.BridgeList[k]?, ∀ other ∈ s.BridgeList.eraseIdx k,
    other.Cfg.Alias ≠ calls.foldl aliasAfter b.Cfg.Alias
  | .setPort k j calls => ∀ b ∈ s.BridgeList[k]?, ∀ p ∈ b.PortList[j]?,
    ∀ other ∈ b.PortList.eraseIdx j, other.Cfg.Alias ≠ calls.foldl aliasAfter p.Cfg.Alias
  | _ => True

end Purpose

section Setters

variable (M : Bool)

theorem bridge_set (b : Bridge) (call : SetParam) :
    (Bridge_SetParam M b call).1.Cfg.Alias = aliasAfter b.Cfg.Alias call ∧
      (Bridge_SetParam M b call).1.PortList = b.PortList := by
  cases call with
  | BoolValue ParamName bValue =>
    rw [Bridge_SetParam, Bridge_SetParamBoolValue]
    split
    · exact ⟨rfl, rfl⟩
    · exact ⟨rfl, rfl⟩
  | IntValue ParamName iValue => exact ⟨rfl, rfl⟩
  | UlongValue ParamName uValue =>
    rw [Bridge_SetParam, Bridge_SetParamUlongValue]
    split
    · exact ⟨rfl, rfl⟩
    · exact ⟨rfl, rfl⟩
  | StringValue ParamName pString bus =>
    rw [Bridge_SetParam, Bridge_SetParamStringValue, aliasAfter]
    split
    · cases STRCPY_S_NOCLOBBER pString with
      | none => exact ⟨rfl, rfl⟩
      | some Alias => exact ⟨rfl, rfl⟩
    · split
      · cases STRCPY_S_NOCLOBBER pString with
        | none => exact ⟨rfl, rfl⟩
        | some name => exact ⟨rfl, rfl⟩
      · exact ⟨rfl, rfl⟩

theorem linkTo_alias {LinkType : COSA_DML_BRG_LINK_TYPE} {value : Buf 256} {p p' : Port}
    (h : linkTo LinkType value p = some p') : p'.Cfg.Alias = p.Cfg.Alias := by
  obtain ⟨LinkName, -, rfl⟩ := Option.map_eq_some_iff.mp h
  rfl

theorem radioLink_alias (pString : CStr) (LinkType : COSA_DML_BRG_LINK_TYPE) (r : Bool × Buf 256)
    (p : Port) : (radioLink pString LinkType r p).1.Cfg.Alias = p.Cfg.Alias := by
  rw [radioLink]
  split
  · cases hlink : linkTo LinkType r.2 p with
    | none => rfl
    | some p' => exact linkTo_alias hlink
  · rfl

theorem linkOf_alias (bus : Bus) (pString ucEntryParamName : CStr) (p : Port) :
    (linkOf bus pString ucEntryParamName p).1.Cfg.Alias = p.Cfg.Alias := by
  rw [linkOf]
  split
  · exact radioLink_alias ..
  · split
    · exact radioLink_alias ..
    · dsimp only
      split
      · split
        · rfl
        · next hlink => exact linkTo_alias hlink
      · rfl

theorem setLowerLayers_alias (bus : Bus) (pString : CStr) (p : Port) :
    (Port_SetLowerLayers bus pString p).1.Cfg.Alias = p.Cfg.Alias := by
  rw [Port_SetLowerLayers]
  split
  · rfl
  · split
    · rfl
    · dsimp only
      split
      · split
        · exact linkOf_alias ..
        · exact linkOf_alias ..
      · exact linkOf_alias ..

theorem port_set (p : Port) (call : SetParam) :
    (Port_SetParam p call).1.Cfg.Alias = aliasAfter p.Cfg.Alias call := by
  cases call with
  | BoolValue ParamName bValue =>
    rw [Port_SetParam, Port_SetParamBoolValue]
    repeat' split
    all_goals rfl
  | IntValue ParamName iValue =>
    rw [Port_SetParam, Port_SetParamIntValue]
    split
    · rfl
    · rfl
  | UlongValue ParamName uValue =>
    rw [Port_SetParam, Port_SetParamUlongValue]
    repeat' split
    all_goals rfl
  | StringValue ParamName pString bus =>
    rw [Port_SetParam, Port_SetParamStringValue, aliasAfter]
    split
    · cases STRCPY_S_NOCLOBBER pString with
      | none => rfl
      | some Alias => rfl
    · split
      · exact setLowerLayers_alias bus pString p
      · rfl

theorem bridge_sets (b : Bridge) (calls : List SetParam) :
    let b' := calls.foldl (fun b call => (Bridge_SetParam M b call).1) b
    b'.Cfg.Alias = calls.foldl aliasAfter b.Cfg.Alias ∧ b'.PortList = b.PortList := by
  induction calls generalizing b with
  | nil => exact ⟨rfl, rfl⟩
  | cons call calls ih =>
    obtain ⟨halias, hports⟩ := bridge_set M b call
    obtain ⟨halias', hports'⟩ := ih (Bridge_SetParam M b call).1
    rw [halias] at halias'
    exact ⟨halias', hports'.trans hports⟩

theorem port_sets (p : Port) (calls : List SetParam) :
    (calls.foldl (fun p call => (Port_SetParam p call).1) p).Cfg.Alias =
      calls.foldl aliasAfter p.Cfg.Alias := by
  induction calls generalizing p with
  | nil => rfl
  | cons call calls ih =>
    rw [List.foldl_cons, ih, port_set, List.foldl_cons]

end Setters

section Checks

theorem validateAlias_eq_none {α : Type} {key : α → Buf 512} {l : List α} {k : ℕ} {f : α → α} :
    validateAlias ((l.modify k f).map key) k = none ↔
      ∀ a ∈ l[k]?, ∀ other ∈ l.eraseIdx k, key other ≠ key (f a) := by
  rw [validateAlias, List.getElem?_map, List.getElem?_modify_eq]
  cases l[k]? with
  | none => exact iff_of_true rfl nofun
  | some a =>
    have herase : ((l.modify k f).map key).eraseIdx k = (l.eraseIdx k).map key := by
      rw [List.eraseIdx_map, List.eraseIdx_modify_of_eq]
    simp only [Option.map_eq_map, Option.map_some, herase, List.any_map, Option.mem_def,
      Option.some.injEq, forall_eq']
    rw [ite_eq_right_iff]
    constructor
    · intro hany other hother heq
      apply Option.some_ne_none _ (hany ?_)
      exact List.any_eq_true.mpr ⟨other, hother, beq_iff_eq.mpr (congrArg Buf.text heq)⟩
    · intro hdiffer hany
      obtain ⟨other, hother, heq⟩ := List.any_eq_true.mp hany
      exact absurd (Buf.text_injective (beq_iff_eq.mp heq)) (hdiffer other hother)

structure PortsGood (PortList : List Port) : Prop where
  distinct : (PortList.map fun p => p.Cfg.Alias).Nodup
  asCommitted : ∀ p ∈ PortList, ∀ Cfg ∈ p.committed, p.Cfg = Cfg

theorem good_iff {s : State} : Good s ↔ (s.BridgeList.map fun b => b.Cfg.Alias).Nodup ∧
    (∀ b ∈ s.BridgeList, ∀ Cfg ∈ b.committed, b.Cfg = Cfg) ∧
      ∀ b ∈ s.BridgeList, PortsGood b.PortList := by
  constructor
  · rintro ⟨hdistinct, hcommitted⟩
    exact ⟨hdistinct.bridges, hcommitted.bridges,
      fun b hb => ⟨hdistinct.ports b hb, hcommitted.ports b hb⟩⟩
  · rintro ⟨hdistinct, hcommitted, hports⟩
    exact ⟨⟨hdistinct, fun b hb => (hports b hb).distinct⟩,
      ⟨hcommitted, fun b hb => (hports b hb).asCommitted⟩⟩

section Ports

variable {PortList : List Port} {j : ℕ} {calls : List SetParam}

theorem port_commit (p : Port) :
    (Port_Commit p).Cfg = p.Cfg ∧ (Port_Commit p).committed = some p.Cfg := by
  rw [Port_Commit]
  split
  · exact ⟨rfl, rfl⟩
  · exact ⟨rfl, rfl⟩

theorem port_validate : Port_Validate (portsSet PortList j calls) j = none ↔
    ∀ p ∈ PortList[j]?, ∀ other ∈ PortList.eraseIdx j,
      other.Cfg.Alias ≠ calls.foldl aliasAfter p.Cfg.Alias := by
  rw [Port_Validate, portsSet, validateAlias_eq_none]
  simp only [port_sets]

theorem portsGood_setPorts (h : PortsGood PortList) :
    PortsGood (setPorts PortList j calls) ↔
      Port_Validate (portsSet PortList j calls) j = none := by
  rw [setPorts]
  cases hcheck : Port_Validate (portsSet PortList j calls) j with
  | none =>
    rw [portsSet, List.modify_modify_eq]
    refine iff_of_true ⟨?_, ?_⟩ rfl
    · apply (nodup_modify h.distinct).mpr
      intro p hp other hother
      rw [Function.comp_apply, (port_commit _).1, port_sets]
      exact port_validate.mp hcheck p hp other hother
    · apply (forall_mem_modify h.asCommitted).mpr
      intro p _ Cfg hCfg
      rw [Function.comp_apply, (port_commit _).2] at hCfg
      rw [Function.comp_apply, (port_commit _).1]
      exact Option.some.inj hCfg
  | some ParamName =>
    apply iff_of_false
    · intro hgood
      have hnone : Port_Validate (portsSet PortList j calls) j = none := by
        apply port_validate.mpr
        intro p hp other hother
        have hdiffer := (nodup_modify h.distinct).mp (List.modify_id _ _ ▸ hgood.distinct)
        rw [← port_sets]
        exact hdiffer p hp other hother
      rw [hcheck] at hnone
      cases hnone
    · nofun

end Ports

section Bridges

variable {M : Bool} {s : State} {k : ℕ} {calls : List SetParam}

theorem bridge_commit (b : Bridge) : (Bridge_Commit b).Cfg = b.Cfg ∧
    (Bridge_Commit b).committed = some b.Cfg ∧ (Bridge_Commit b).PortList = b.PortList := by
  rw [Bridge_Commit]
  split
  · exact ⟨rfl, rfl, rfl⟩
  · exact ⟨rfl, rfl, rfl⟩

theorem bridge_validate {BridgeList : List Bridge} :
    Bridge_Validate (bridgesSet M BridgeList k calls) k = none ↔
      ∀ b ∈ BridgeList[k]?, ∀ other ∈ BridgeList.eraseIdx k,
        other.Cfg.Alias ≠ calls.foldl aliasAfter b.Cfg.Alias := by
  rw [Bridge_Validate, bridgesSet, validateAlias_eq_none]
  simp only [(bridge_sets M _ _).1]

theorem good_setBridges (hs : Good s) :
    Good { s with BridgeList := setBridges M s.BridgeList k calls } ↔
      Bridge_Validate (bridgesSet M s.BridgeList k calls) k = none := by
  obtain ⟨hdistinct, hcommitted, hports⟩ := good_iff.mp hs
  rw [good_iff, setBridges]
  dsimp only
  cases hcheck : Bridge_Validate (bridgesSet M s.BridgeList k calls) k with
  | none =>
    rw [bridgesSet, List.modify_modify_eq]
    refine iff_of_true ⟨?_, ?_, ?_⟩ rfl
    · apply (nodup_modify hdistinct).mpr
      intro b hb other hother
      rw [Function.comp_apply, (bridge_commit _).1, (bridge_sets M b calls).1]
      exact bridge_validate.mp hcheck b hb other hother
    · apply (forall_mem_modify hcommitted).mpr
      intro b _ Cfg hCfg
      rw [Function.comp_apply, (bridge_commit _).2.1] at hCfg
      rw [Function.comp_apply, (bridge_commit _).1]
      exact Option.some.inj hCfg
    · apply (forall_mem_modify hports).mpr
      intro b hb
      rw [Function.comp_apply, (bridge_commit _).2.2, (bridge_sets M b calls).2]
      exact hports b (List.mem_of_getElem? hb)
  | some ParamName =>
    apply iff_of_false
    · rintro ⟨hset, -, -⟩
      have hnone : Bridge_Validate (bridgesSet M s.BridgeList k calls) k = none := by
        apply bridge_validate.mpr
        intro b hb other hother
        have hdiffer := (nodup_modify hdistinct).mp (List.modify_id _ _ ▸ hset)
        rw [← (bridge_sets M b calls).1]
        exact hdiffer b hb other hother
      rw [hcheck] at hnone
      cases hnone
    · nofun

theorem good_modify (hs : Good s) {g : Bridge → Bridge}
    (hg : ∀ b, (g b).Cfg = b.Cfg ∧ (g b).committed = b.committed) :
    Good { s with BridgeList := s.BridgeList.modify k g } ↔
      ∀ b ∈ s.BridgeList[k]?, PortsGood (g b).PortList := by
  obtain ⟨hdistinct, hcommitted, hports⟩ := good_iff.mp hs
  have haliases : (s.BridgeList.modify k g).map (fun b => b.Cfg.Alias) =
      s.BridgeList.map fun b => b.Cfg.Alias := by
    apply map_modify
    intro b
    rw [(hg b).1]
  have hkept : ∀ b ∈ s.BridgeList.modify k g, ∀ Cfg ∈ b.committed, b.Cfg = Cfg := by
    apply (forall_mem_modify hcommitted).mpr
    intro b hb
    rw [(hg b).1, (hg b).2]
    exact hcommitted b (List.mem_of_getElem? hb)
  rw [good_iff, ← forall_mem_modify hports]
  dsimp only
  rw [haliases]
  exact ⟨fun h => h.2.2, fun h => ⟨hdistinct, hkept, h⟩⟩

theorem portsGood_add {PortList : List Port} (h : PortsGood PortList) {p : Port}
    (hp : p.committed = none) :
    PortsGood (pushEntryByInsNum Port.InstanceNumber PortList p) ↔
      ∀ other ∈ PortList, other.Cfg.Alias ≠ p.Cfg.Alias := by
  have hperm := pushEntry_perm Port.InstanceNumber PortList p
  have hnodup := (hperm.map fun p => p.Cfg.Alias).nodup_iff
  rw [List.map_cons, List.nodup_cons, and_iff_left h.distinct, List.mem_map] at hnodup
  constructor
  · intro hgood other hother heq
    exact hnodup.mp hgood.distinct ⟨other, hother, heq⟩
  · intro hfresh
    refine ⟨hnodup.mpr ?_, ?_⟩
    · rintro ⟨other, hother, heq⟩
      exact hfresh other hother heq
    · intro q hq
      rcases List.mem_cons.mp (hperm.mem_iff.mp hq) with rfl | hq
      · rw [hp]
        exact fun Cfg hCfg => absurd hCfg (Option.not_mem_none Cfg)
      · exact h.asCommitted q hq

theorem good_addBridge (hs : Good s) (memory : COSA_DML_BRG_CFG) (BrgName : Buf 512)
    (VLANID : BitVec 32) :
    Good (Bridge_AddEntry M memory BrgName VLANID s) ↔
      Fits M s (.addBridge memory BrgName VLANID) := by
  obtain ⟨hdistinct, hcommitted, hports⟩ := good_iff.mp hs
  rw [good_iff, Fits, Bridge_AddEntry]
  dsimp only
  generalize hnew : Bridge.mk _ _ _ _ _ _ _ _ = new
  have halias : new.Cfg.Alias = Buf.sprintf_s
      ((if M then "cpe-Bridge".toList else "Bridge".toList) ++
        decimal s.ulNextBridgeInstance.toNat) :=
    congrArg (fun b => b.Cfg.Alias) hnew.symm
  have hnone : new.committed = none := congrArg Bridge.committed hnew.symm
  have hempty : new.PortList = [] := congrArg Bridge.PortList hnew.symm
  clear hnew
  have hperm := pushEntry_perm Bridge.InstanceNumber s.BridgeList new
  have hnodup := (hperm.map fun b => b.Cfg.Alias).nodup_iff
  rw [List.map_cons, List.nodup_cons, and_iff_left hdistinct, List.mem_map] at hnodup
  rw [hnodup]
  constructor
  · rintro ⟨hfresh, -, -⟩ b hb heq
    exact hfresh ⟨b, hb, heq.trans halias.symm⟩
  · intro hfresh
    refine ⟨?_, ?_, ?_⟩
    · rintro ⟨b, hb, heq⟩
      exact hfresh b hb (heq.trans halias)
    · intro b hb
      rcases List.mem_cons.mp (hperm.mem_iff.mp hb) with rfl | hb
      · rw [hnone]
        exact fun Cfg hCfg => absurd hCfg (Option.not_mem_none Cfg)
      · exact hcommitted b hb
    · intro b hb
      rcases List.mem_cons.mp (hperm.mem_iff.mp hb) with rfl | hb
      · rw [hempty]
        exact ⟨List.nodup_nil, fun p hp => absurd hp List.not_mem_nil⟩
      · exact hports b hb

theorem good_delBridge (hs : Good s) : Good (Bridge_DelEntry k s) := by
  obtain ⟨hdistinct, hcommitted, hports⟩ := good_iff.mp hs
  rw [Bridge_DelEntry]
  split
  · exact hs
  · split
    · apply good_iff.mpr
      refine ⟨hdistinct.sublist ((List.eraseIdx_sublist _ _).map _), ?_, ?_⟩
      · exact fun b hb => hcommitted b (List.eraseIdx_subset hb)
      · exact fun b hb => hports b (List.eraseIdx_subset hb)
    · exact hs

theorem portsGood_del {b : Bridge} (h : PortsGood b.PortList) (j : ℕ) :
    PortsGood (Port_DelEntry j b).PortList := by
  rw [Port_DelEntry]
  split
  · exact h
  · split
    · exact ⟨h.distinct.sublist ((List.eraseIdx_sublist _ _).map _),
        fun p hp => h.asCommitted p (List.eraseIdx_subset hp)⟩
    · exact h

theorem port_delEntry (b : Bridge) (j : ℕ) :
    (Port_DelEntry j b).Cfg = b.Cfg ∧ (Port_DelEntry j b).committed = b.committed := by
  rw [Port_DelEntry]
  split
  · exact ⟨rfl, rfl⟩
  · split
    · exact ⟨rfl, rfl⟩
    · exact ⟨rfl, rfl⟩

theorem right_iff (hs : Good s) (op : Op) :
    (∃ t, step M s op = some t ∧ Right M s op t) ↔ Fits M s op := by
  have honly : ∀ {t : State}, step M s op = some t →
      ((∃ t, step M s op = some t ∧ Right M s op t) ↔ Right M s op t) := by
    intro t ht
    constructor
    · rintro ⟨t', ht', hright⟩
      rw [ht, Option.some.injEq] at ht'
      rwa [ht']
    · exact fun hright => ⟨t, ht, hright⟩
  cases op with
  | addBridge memory BrgName VLANID =>
    rw [honly rfl, Right, good_addBridge hs memory BrgName VLANID]
    exact and_iff_right trivial
  | delBridge k =>
    rw [honly rfl, Right]
    exact iff_of_true ⟨trivial, good_delBridge hs⟩ trivial
  | addPort k memory Name =>
    rw [honly rfl, Right, good_modify hs (g := Port_AddEntry memory Name) fun b => ⟨rfl, rfl⟩, Fits]
    apply (and_iff_right trivial).trans
    apply forall₂_congr
    intro b hb
    exact portsGood_add ((good_iff.mp hs).2.2 b (List.mem_of_getElem? hb)) rfl
  | delPort k j =>
    rw [honly rfl, Right, good_modify hs fun b => port_delEntry b j]
    refine iff_of_true ⟨trivial, fun b hb => ?_⟩ trivial
    exact portsGood_del ((good_iff.mp hs).2.2 b (List.mem_of_getElem? hb)) j
  | setVLANs k VLANList =>
    rw [honly rfl, Right,
      good_modify hs (g := fun b => { b with VLANList := VLANList }) fun b => ⟨rfl, rfl⟩]
    exact iff_of_true
      ⟨trivial, fun b hb => (good_iff.mp hs).2.2 b (List.mem_of_getElem? hb)⟩ trivial
  | setBridge k calls =>
    rw [honly rfl, Right, good_setBridges hs, Fits, ← bridge_validate]
    exact and_iff_right_of_imp fun hnone hfails => absurd hnone hfails
  | setPort k j calls =>
    rw [honly rfl, Right, good_modify hs
      (g := fun b => { b with PortList := setPorts b.PortList j calls }) fun b => ⟨rfl, rfl⟩, Fits]
    have hports : ∀ b ∈ s.BridgeList[k]?, (PortsGood (setPorts b.PortList j calls) ↔
        Port_Validate (portsSet b.PortList j calls) j = none) := fun b hb =>
      portsGood_setPorts ((good_iff.mp hs).2.2 b (List.mem_of_getElem? hb))
    constructor
    · rintro ⟨-, hgood⟩ b hb
      exact port_validate.mp ((hports b hb).mp (hgood b hb))
    · intro hfree
      have hnone : ∀ b ∈ s.BridgeList[k]?, Port_Validate (portsSet b.PortList j calls) j = none :=
        fun b hb => port_validate.mpr (hfree b hb)
      exact ⟨fun b hb hfails => absurd (hnone b hb) hfails,
        fun b hb => (hports b hb).mpr (hnone b hb)⟩

end Bridges

def bridgeNamed (number : ULONG) (Alias : CStr) : Bridge where
  InstanceNumber := number
  Cfg := ⟨number, Buf.sprintf_s Alias, Buf.empty, false, true, 2⟩
  bNew := false
  PortList := []
  VLANList := [⟨1, Buf.sprintf_s "cpe-VLAN1".toList, false, 100, Buf.empty⟩]
  ulNextPortInsNum := 1
  ulNextVLANInsNum := 2
  committed := none

def twoBridges : State :=
  ⟨[bridgeNamed 1 "Bridge1".toList, bridgeNamed 2 "Bridge2".toList], 3⟩

def noBus : Bus := ⟨fun _ value => (false, value), fun _ value => (false, value)⟩

end Checks

end CcspPandM.BridgeTransactions
