import CcspPandM.PortForwardRequest
import CcspPandM.Ipv4Addr

/-!
The port-forwarding rules and the three feature flags of the NAT component, on
the store that the webconfig requests also write. The platform's rule calls are
known by what they leave: a step is a change of the store after which the
platform reads the rules that the code has handed to it.
-/
namespace CcspPandM.NatRules

open CString KeyStore FaultyStore Syscfg SubdocDecoders Ipv4Addr InetText CacheRecords
  PortForwardCache PortForwardRequest

inductive Feature where
  | portForwarding
  | hsPortForwarding
  | natForwarding
  deriving DecidableEq, Repr

def Feature.key : Feature → CStr
  | .portForwarding => pfParamName
  | .hsPortForwarding => "CosaNAT::port_hs_forward_enabled".toList
  | .natForwarding => "CosaNAT::nat_forward_enabled".toList

inductive PfProtocol where
  | TCP
  | UDP
  | BOTH_TCP_UDP
  deriving DecidableEq, Repr

structure PortFwdSingle where
  rule_id : ℕ
  name : CStr
  enabled : Bool
  prevRuleEnabledState : Bool
  protocol : PfProtocol
  external_port : ℕ
  internal_port : ℕ
  dest_ip : CStr
  dest_ipv6 : CStr
  deriving DecidableEq

structure PortFwdRange where
  rule_id : ℕ
  name : CStr
  enabled : Bool
  prevRuleEnabledState : Bool
  protocol : PfProtocol
  start_port : ℕ
  end_port : ℕ
  internal_port : ℕ
  internal_port_range_size : ℕ
  public_ip : CStr
  dest_ip : CStr
  dest_ipv6 : CStr
  deriving DecidableEq

/-- `COSA_DML_NAT_PMAPPING`, as far as the rules are made from it. -/
structure PMapping where
  InstanceNumber : ℕ
  bEnabled : Bool
  PublicIP : Addr
  ExternalPort : BitVec 16
  ExternalPortEndRange : BitVec 16
  InternalPort : BitVec 16
  Protocol : ℕ
  InternalClient : Addr
  Description : CStr
  InternalClientV6 : CStr

def PortFwdSingle.feature (r : PortFwdSingle) : Feature :=
  if r.internal_port = 0 then .portForwarding else .hsPortForwarding

def PortFwdRange.feature (r : PortFwdRange) : Feature :=
  if r.public_ip ≠ "0.0.0.0".toList then .natForwarding
  else if r.internal_port = 0 then .portForwarding else .hsPortForwarding

/-- `IS_ONE2ONE_NAT`, `IS_PORTFWD` and `IS_HS_PORTFWD`. -/
def PMapping.feature (e : PMapping) : Feature :=
  if e.PublicIP ≠ 0 then .natForwarding
  else if e.InternalPort = 0 then .portForwarding else .hsPortForwarding

structure Rules where
  singles : List PortFwdSingle
  ranges : List PortFwdRange
  deriving DecidableEq

structure Utopia where
  single : Store CStr CStr → CStr → PortFwdSingle
  range : Store CStr CStr → CStr → PortFwdRange

def textAt (db : Store CStr CStr) (key : CStr) : CStr := (db key).getD []

/-- `Utopia_GetPortForwarding` and `Utopia_GetPortForwardingRange`, on the
counts and aliases that `init_pf_cache` reads too. -/
def Utopia.rules (u : Utopia) (db : Store CStr CStr) : Rules where
  singles := (List.range (atoi (textAt db "SinglePortForwardCount".toList)).toNat).map
    (fun j => u.single db (textAt db (aliasKey true (j + 1))))
  ranges := (List.range (atoi (textAt db "PortRangeForwardCount".toList)).toNat).map
    (fun j => u.range db (textAt db (aliasKey false (j + 1))))

/-- What storing rules does to the store; the flags are not among its keys. -/
structure RuleEdit where
  apply : Store CStr CStr → Store CStr CStr
  flags : ∀ (db : Store CStr CStr) (f : Feature), apply db f.key = db f.key

structure NatState where
  web : PfState
  g_NatEnable : Feature → Bool

def NatState.db (s : NatState) : Store CStr CStr := s.web.sc.db

def NatState.withDb (s : NatState) (db : Store CStr CStr) : NatState :=
  { s with web := { s.web with sc := { s.web.sc with db := db } } }

def storedFlag (db : Store CStr CStr) (f : Feature) : Bool := db f.key == some ['1']

def boolText (b : Bool) : CStr := if b then ['1'] else ['0']

/-- One case of the macros that switch the rules; no value stands for -1. -/
def updateRuleEnable (enable : Option Bool) (enabled prevRuleEnabledState : Bool) : Bool :=
  match enable with
  | some true => prevRuleEnabledState
  | some false => false
  | none => enabled

/-- `UPDATE_PF_SINGLE_RULE_ENABLE` and `UPDATE_PF_RANGE_RULE_ENABLE`. -/
def Rules.updateEnable (enable : Feature → Option Bool) (rules : Rules) : Rules where
  singles := rules.singles.map (fun r =>
    { r with enabled := updateRuleEnable (enable r.feature) r.enabled r.prevRuleEnabledState })
  ranges := rules.ranges.map (fun r =>
    { r with enabled := updateRuleEnable (enable r.feature) r.enabled r.prevRuleEnabledState })

def features : List Feature := [.portForwarding, .hsPortForwarding, .natForwarding]

def changedFlags (s : NatState) (req : Feature → Bool) (f : Feature) : Option Bool :=
  if req f ≠ s.g_NatEnable f then some (req f) else none

def flagWrites (enable : Feature → Option Bool) : List (CStr × CStr) :=
  features.filterMap (fun f => (enable f).map (fun b => (f.key, boolText b)))

/-- `_Update_NAT_PF_HS_Enable`: rules, then flags. -/
def updateNatPfHsEnable (u : Utopia) (enable : Feature → Option Bool) (edit : RuleEdit)
    (s : NatState) : Option NatState :=
  let db := setAll (flagWrites enable) (edit.apply s.db)
  if u.rules db = (u.rules s.db).updateEnable enable then
    some { s.withDb db with
      g_NatEnable := fun f => (enable f).getD (s.g_NatEnable f) }
  else none

def cosaDmlNatSet (u : Utopia) (req : Feature → Bool) (edit : RuleEdit) (s : NatState) :
    Option NatState :=
  if features.all (fun f => (changedFlags s req f).isNone) then some s
  else updateNatPfHsEnable u (changedFlags s req) edit s

/-- `sprintf` of the four `Dot`s of an address. -/
def dots (a : Addr) : CStr :=
  dotted [(a.extractLsb' 0 8).toNat, (a.extractLsb' 8 8).toNat, (a.extractLsb' 16 8).toNat,
    (a.extractLsb' 24 8).toNat]

def sb2UPfProtocol (x : ℕ) : PfProtocol :=
  if x = 1 then .TCP else if x = 2 then .UDP else .BOTH_TCP_UDP

/-- `_AddPortMapping`: the platform appends the rule. -/
def addPortMapping (e : PMapping) (rules : Rules) : Rules :=
  if e.ExternalPortEndRange = e.ExternalPort ∧ e.PublicIP = 0 then
    { rules with singles := rules.singles ++ [{
        rule_id := e.InstanceNumber
        name := e.Description
        enabled := e.bEnabled
        prevRuleEnabledState := e.bEnabled
        protocol := sb2UPfProtocol e.Protocol
        external_port := e.ExternalPort.toNat
        internal_port := e.InternalPort.toNat
        dest_ip := dots e.InternalClient
        dest_ipv6 := e.InternalClientV6 }] }
  else
    { rules with ranges := rules.ranges ++ [{
        rule_id := e.InstanceNumber
        name := e.Description
        enabled := e.bEnabled
        prevRuleEnabledState := e.bEnabled
        protocol := sb2UPfProtocol e.Protocol
        start_port := e.ExternalPort.toNat
        end_port := e.ExternalPortEndRange.toNat
        internal_port := e.InternalPort.toNat
        internal_port_range_size := 0
        public_ip := dots e.PublicIP
        dest_ip := dots e.InternalClient
        dest_ipv6 := e.InternalClientV6 }] }

/-- What the platform says at the time of a call: the LAN, and whether the ports
of an entry are free. -/
structure Platform where
  lan : Option LanSettings
  checkPortRange : Rules → PMapping → Bool

def chkPortRange (p : Platform) (rules : Rules) (e : PMapping) : Bool :=
  !e.bEnabled || p.checkPortRange rules e

/-- `_Check_PF_parameter`. -/
def checkPfParameter (p : Platform) (rules : Rules) (e : PMapping) : Bool :=
  !(e.PublicIP == 0 && (e.ExternalPort == 0 || decide (e.ExternalPortEndRange < e.ExternalPort) ||
    decide (3 < e.Protocol ∨ e.Protocol < 1) || !chkPortRange p rules e)) &&
    !(e.InternalClient == 0 || !chkPortMappingClient p.lan e.InternalClient)

def cosaDmlNatChkEnableFlg (s : NatState) (e : PMapping) : Bool := s.g_NatEnable e.feature

def entryOk (u : Utopia) (p : Platform) (e : PMapping) (s : NatState) : Bool :=
  checkPfParameter p (u.rules s.db) e && cosaDmlNatChkEnableFlg s e

/-- The step that stores new rules; it is one only if the platform then reads
them back. -/
def storeRules (u : Utopia) (rules : Rules) (edit : RuleEdit) (s : NatState) : Option NatState :=
  if u.rules (edit.apply s.db) = rules then some (s.withDb (edit.apply s.db)) else none

def cosaDmlNatAddPortMapping (u : Utopia) (p : Platform) (e : PMapping) (edit : RuleEdit)
    (s : NatState) : Option NatState :=
  if entryOk u p e s then storeRules u (addPortMapping e (u.rules s.db)) edit s else some s

def delSingleByRuleId (id : ℕ) (rules : Rules) : Rules :=
  { rules with singles := rules.singles.eraseP (fun r => r.rule_id == id) }

def delRangeByRuleId (id : ℕ) (rules : Rules) : Rules :=
  { rules with ranges := rules.ranges.eraseP (fun r => r.rule_id == id) }

def cosaDmlNatSetPortMapping (u : Utopia) (p : Platform) (e : PMapping) (edit : RuleEdit)
    (s : NatState) : Option NatState :=
  if entryOk u p e s then
    storeRules u (addPortMapping e (delSingleByRuleId e.InstanceNumber
      (delRangeByRuleId e.InstanceNumber (u.rules s.db)))) edit s
  else some s

def cosaDmlNatDelPortMapping (u : Utopia) (ulInstanceNumber : ℕ) (edit : RuleEdit) (s : NatState) :
    Option NatState :=
  let rules := u.rules s.db
  if ulInstanceNumber < 1 then some s
  else if rules.singles.any (fun r => r.rule_id == ulInstanceNumber) then
    storeRules u (delSingleByRuleId ulInstanceNumber rules) edit s
  else if rules.ranges.any (fun r => r.rule_id == ulInstanceNumber) then
    storeRules u (delRangeByRuleId ulInstanceNumber rules) edit s
  else some s

inductive NatOp where
  | add (p : Platform) (e : PMapping) (edit : RuleEdit)
  | setMapping (p : Platform) (e : PMapping) (edit : RuleEdit)
  | del (ulInstanceNumber : ℕ) (edit : RuleEdit)
  | natSet (req : Feature → Bool) (edit : RuleEdit)
  | request (rpm : List Portdoc)
  | rollback

def natStep (u : Utopia) (s : NatState) : NatOp → Option NatState
  | .add p e edit => cosaDmlNatAddPortMapping u p e edit s
  | .setMapping p e edit => cosaDmlNatSetPortMapping u p e edit s
  | .del ulInstanceNumber edit => cosaDmlNatDelPortMapping u ulInstanceNumber edit s
  | .natSet req edit => cosaDmlNatSet u req edit s
  | .request rpm => (processPFWebConfigRequest noFaults rpm s.web).map
      (fun r => { s with web := r.2 })
  | .rollback => some { s with web := (rollbackPortForwarding noFaults s.web).2 }

/-- `CosaDmlNatInit` reads a flag into 25 bytes. -/
def initFlag (db : Store CStr CStr) (f : Feature) : Bool :=
  (Buf.snprintf (textAt db f.key) : Buf 25).text == ['1']

/-- The component after `CosaDmlNatInit` and `init_pf_cache`. -/
def NatState.boot (db : Store CStr CStr) : Option NatState :=
  (initPfCache noFaults (PfState.boot db)).map (fun web => ⟨web, initFlag db⟩)

end CcspPandM.NatRules
