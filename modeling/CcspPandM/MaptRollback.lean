import CcspPandM.MaptConfigure
import CcspPandM.Frames
import Mathlib.Data.List.Infix

/-!
The processing of an option-95 response with its rollbacks. The calls to other
programs are recorded in a trace, and an environment says, from the trace so
far, which of them fail and what they print, so every pattern of failures is
covered.
-/
namespace CcspPandM.MaptRollback

open CString MaptEaBits MaptOptions MaptConfigure Frames Runs

def rbHotspot : BitVec 8 := 0x20#8
def rbUpnpigd : BitVec 8 := 0x10#8
def rbEvents : BitVec 8 := 0x08#8
def rbFirewall : BitVec 8 := 0x04#8
def rbConfig : BitVec 8 := 0x02#8
def rbDhcpclient : BitVec 8 := 0x01#8

inductive Event where
  /-- A call of `CosaDmlMaptRollback`. -/
  | rollback (eState : BitVec 8)
  | commonSyseventSet (name value : CStr)
  | secureSystem (cmd : CStr)
  | securePopen (cmd : CStr)
  | syscfgGet (name : CStr)
  | access (path : CStr)
  /-- A thread that switches the UPnP IGD service. -/
  | pthreadCreate (arg : CStr)
  | flushDNSv4Entries
  deriving DecidableEq

/-- What the calls answer, given the calls before them. -/
structure Env where
  fails : List Event → Event → Bool
  /-- The first line of a command, `some none` when it prints nothing. -/
  line : List Event → CStr → Option (Option CStr)
  value : List Event → CStr → CStr
  /-- What a service thread has written to `g_bEnableUPnPIGD` by now. -/
  serviceThread : List Event → Option Bool
  /-- A Broadcom XB6 build, which switches packet acceleration. -/
  xb6 : Bool

structure State where
  g_stMaptData : MaptConfig
  g_bRollBackInProgress : Bool
  g_bEnableUPnPIGD : Bool
  g_bEnableHotspot : Bool
  /-- The calls of the current response. -/
  trace : List Event

def State.log (s : State) (e : Event) : State := { s with trace := s.trace ++ [e] }

variable (env : Env)

/-- A call that returns zero or an error. -/
def invoke (e : Event) : StateM State Bool := fun s => (env.fails s.trace e, s.log e)

def popen (cmd : CStr) : StateM State (Option (Option CStr)) :=
  fun s => (env.line s.trace cmd, s.log (.securePopen cmd))

/-- The result and the value of a `syscfg_get`. -/
def syscfgGet (name : CStr) : StateM State (Bool × CStr) :=
  fun s => ((env.fails s.trace (.syscfgGet name), env.value s.trace name), s.log (.syscfgGet name))

def invokeIf (run : Bool) (e : Event) : StateM State Bool :=
  if run then invoke env e else pure false

def invokeAll : List Event → StateM State Bool
  | [] => pure false
  | e :: es => do
    let failed ← invoke env e
    let later ← invokeAll es
    pure (failed || later)

/-- Calls up to the first one that fails, unless it is only warned about. -/
def invokeUntil : List (Event × Bool) → StateM State Bool
  | [] => pure false
  | (e, fatal) :: es => do
    let failed ← invoke env e
    if failed && fatal then pure true else invokeUntil es

def eventSet (name value : String) : Event := .commonSyseventSet name.toList value.toList
def shell (cmd : String) : Event := .secureSystem cmd.toList

def names (word : String) (line : Option (Option CStr)) : Bool :=
  match line with
  | some (some text) => decide (word.toList <:+: text)
  | _ => false

def resetEvents : List Event :=
  [eventSet "map_transport_mode" "NONE", eventSet "mapt_config_flag" "",
    eventSet "map_ea_length" "", eventSet "mapt_ratio" "", eventSet "mapt_psid_value" "",
    eventSet "mapt_psid_length" "", eventSet "mapt_psid_offset" "", eventSet "mapt_ip_address" "",
    eventSet "mapt_ipv6_address" "", eventSet "mapt_br_ipv6_prefix" "",
    eventSet "map_rule_ip_address" "", eventSet "map_rule_ipv6_address" "",
    eventSet "map_is_fmr" ""]

def cosaDmlMaptResetEvents : StateM State Bool := invokeAll env resetEvents

def cosaDmlMaptResetClient : StateM State Bool := do
  let line ← popen env "ps | grep udhcp | grep erouter0".toList
  invokeIf env ((line.bind id).isSome && !names "erouter0" line) (shell "service_wan dhcp-start")

def setHotspot (b : Bool) : StateM State PUnit := modify (fun s => { s with g_bEnableHotspot := b })

def switchHotspot (event : String) (flag : Bool) : StateM State Bool := do
  let s ← get
  let failed ← invoke env (eventSet event "")
  setHotspot (if failed then s.g_bEnableHotspot else flag)
  pure failed

def startHotspot (running : Bool) : StateM State Bool := do
  let s ← get
  setHotspot (if running then false else s.g_bEnableHotspot)
  if !running && s.g_bEnableHotspot then switchHotspot env "hotspot-start" false else pure false

def cosaDmlMaptResetHotspot (flag : Bool) : StateM State Bool := do
  let line ← popen env "ps | grep CcspHotspot | grep -v grep".toList
  let running := names "CcspHotspot" line
  if flag then startHotspot env running
  else if running then switchHotspot env "hotspot-stop" true
  else pure false

def accelPath : CStr := "/proc/sys/net/flowmgr/disable_mapt_accel".toList

def disableAccel : StateM State Bool :=
  if env.xb6 then do
    let absent ← invoke env (.access accelPath)
    invokeIf env (!absent) (shell "echo 3 > /proc/sys/net/flowmgr/disable_mapt_accel")
  else pure false

def cosaDmlMaptResetConfig : StateM State Bool := do
  let map0 ← popen env "ip -4 route show | grep default | grep map0".toList
  let _ ← invokeIf env (names "map0" map0) (shell "ip route del default")
  let erouter0 ← popen env "ip -4 route show | grep default | grep erouter0".toList
  let routes ← invokeIf env (erouter0.isSome && !names "erouter0" erouter0)
    (shell "ip ro rep default dev erouter0")
  let nat46 ← popen env "lsmod | grep nat46".toList
  let unloaded ← invokeIf env (names "nat46" nat46) (shell "rmmod nat46.ko")
  let accel ← disableAccel env
  pure (routes || unloaded || accel)

def readUPnPIGD : StateM State Bool :=
  fun s =>
    let value := (env.serviceThread s.trace).getD s.g_bEnableUPnPIGD
    (value, { s with g_bEnableUPnPIGD := value })

def setUPnPIGD (b : Bool) : StateM State PUnit := modify (fun s => { s with g_bEnableUPnPIGD := b })

def resetUPnPIGD : StateM State Bool := do
  let (_, isEnabled) ← syscfgGet env "upnp_igd_enabled".toList
  let flag ← readUPnPIGD env
  setUPnPIGD (if isEnabled.head? = some '1' then false else flag)
  let flag ← readUPnPIGD env
  -- Whether the thread can be created is not part of the result.
  let _ ← invokeIf env flag (.pthreadCreate "true".toList)
  pure false

def part (eState bit : BitVec 8) (m : StateM State Bool) : StateM State Bool :=
  if eState &&& bit ≠ 0#8 then m else pure false

def clearData (eState : BitVec 8) : StateM State PUnit :=
  modify (fun s => if eState ≠ 0#8 then { s with g_stMaptData := MaptConfig.zero } else s)

def record (e : Event) : StateM State PUnit := modify (fun s => s.log e)

def rollbackParts (eState : BitVec 8) : StateM State Bool := do
  let events ← part eState rbEvents (cosaDmlMaptResetEvents env)
  let firewall ← part eState rbFirewall (invoke env (eventSet "firewall-restart" ""))
  let config ← part eState rbConfig (cosaDmlMaptResetConfig env)
  let client ← part eState rbDhcpclient (cosaDmlMaptResetClient env)
  let upnp ← part eState rbUpnpigd (resetUPnPIGD env)
  let hotspot ← part eState rbHotspot (cosaDmlMaptResetHotspot env true)
  pure (events || firewall || config || client || upnp || hotspot)

def cosaDmlMaptRollback (eState : BitVec 8) : StateM State Bool := do
  record (.rollback eState)
  let failed ← rollbackParts env eState
  clearData eState
  pure failed

/-- The UPnP service is stopped where an address is shared. -/
def stopUPnPIGD (ratio : BitVec 32) : StateM State Bool :=
  if 1 < ratio.toNat then do
    let (failed, isEnabled) ← syscfgGet env "upnp_igd_enabled".toList
    invokeIf env (!failed && isEnabled.head? == some '1') (.pthreadCreate "false".toList)
  else pure false

/-- What follows the release of the lease, whose failure is only logged. -/
def stopOtherServices : StateM State PUnit := do
  let _ ← invoke env (shell "service_wan dhcp-stop")
  let _ ← invoke env (eventSet "current_wan_ipaddr" "0.0.0.0")
  let (failed, ethWan) ← syscfgGet env "eth_wan_enabled".toList
  let _ ← invokeIf env (!failed && ethWan == "false".toList) .flushDNSv4Entries
  let s ← get
  let _ ← stopUPnPIGD env s.g_stMaptData.ratio
  let _ ← cosaDmlMaptResetHotspot env false
  pure ()

def cosaDmlMaptStopServices : StateM State PUnit := do
  let _ ← invoke env (shell "service_wan dhcp-release")
  stopOtherServices env

def slashed (text : CStr) (n : ℕ) : CStr := text ++ '/' :: decimal n

def configEvents (g : MaptConfig) : List Event :=
  let number (name : String) (n : ℕ) := Event.commonSyseventSet name.toList (decimal n)
  [eventSet "map_transport_mode" "MAPT", eventSet "mapt_config_flag" "set",
    number "map_ea_length" g.eaLen.toNat, number "mapt_ratio" g.ratio.toNat,
    number "mapt_psid_value" g.psid.toNat, number "mapt_psid_length" g.psidLen.toNat,
    number "mapt_psid_offset" g.psidOffset.toNat,
    .commonSyseventSet "mapt_ip_address".toList g.iPv4AddrString,
    .commonSyseventSet "mapt_ipv6_address".toList g.iPv6AddrString,
    .commonSyseventSet "mapt_br_ipv6_prefix".toList
      (slashed g.brIPv6Prefix g.brIPv6PrefixLen.toNat),
    .commonSyseventSet "map_rule_ip_address".toList
      (slashed g.ruleIPv4Prefix g.ruleIPv4PrefixLen.toNat),
    .commonSyseventSet "map_rule_ipv6_address".toList
      (slashed g.ruleIPv6Prefix g.ruleIPv6PrefixLen.toNat),
    eventSet "map_is_fmr" (if g.bFMR then "TRUE" else "FALSE")]

def cosaDmlMaptSetEvents : StateM State Bool := do
  let s ← get
  invokeAll env (configEvents s.g_stMaptData)

def configCommand (g : MaptConfig) : CStr :=
  "echo config map0 local.v4 ".toList ++ slashed g.ruleIPv4Prefix g.ruleIPv4PrefixLen.toNat ++
    " local.v6 ".toList ++ slashed g.ruleIPv6Prefix g.ruleIPv6PrefixLen.toNat ++
    " local.style MAP local.ea-len ".toList ++ decimal g.eaLen.toNat ++
    " local.psid-offset ".toList ++ decimal g.psidOffset.toNat ++
    " remote.v4 0.0.0.0/0 remote.v6 ".toList ++ slashed g.brIPv6Prefix g.brIPv6PrefixLen.toNat ++
    " remote.style RFC6052 remote.ea-len 0 remote.psid-offset 0 debug 0 local.pd ".toList ++
    slashed g.pdIPv6Prefix g.pdIPv6PrefixLen.toNat ++ " > /proc/net/nat46/control".toList

/-- The calls that load and configure nat46; only a failed deletion of the
default route is let pass. -/
def applyCalls (g : MaptConfig) : List (Event × Bool) :=
  (if env.xb6 then
    [(.access accelPath, true),
      (shell "echo 0 > /proc/sys/net/flowmgr/disable_mapt_accel", true)]
  else []) ++
  [(shell "insmod /lib/modules/`uname -r`/extra/nat46.ko zero_csum_pass=1", true),
    (shell "echo add map0 > /proc/net/nat46/control", true),
    (.secureSystem (configCommand g), true),
    (shell "ip link set map0 up", true),
    (shell "ip route del default", false),
    (shell "ip ro rep default dev map0 mtu 1472", true),
    (shell "ip link set dev map0 mtu 1500", true),
    (.secureSystem ("ip -6 route add ".toList ++ g.iPv6AddrString ++
      " dev map0 metric 256 mtu 1500".toList), true)]

def cosaDmlMaptApplyConfig : StateM State Bool := do
  let s ← get
  invokeUntil env (applyCalls env s.g_stMaptData)

def cosaDmlMaptDisplayFeatureStatus : StateM State PUnit := do
  let _ ← invokeAll env [.syscfgGet "upnp_igd_enabled".toList, .syscfgGet "dmz_enabled".toList,
    .syscfgGet "CosaNAT::port_forward_enabled".toList,
    .syscfgGet "CosaNAT::port_trigger_enabled".toList]
  let failed ← invoke env (.syscfgGet "mgmt_wan_httpaccess".toList)
  let _ ← invokeIf env failed (.syscfgGet "mgmt_wan_httpaccess_ert".toList)
  let _ ← invoke env (.syscfgGet "mgmt_wan_httpsaccess".toList)
  pure ()

inductive AnscStatus where
  | ANSC_STATUS_SUCCESS
  | ANSC_STATUS_FAILURE
  deriving DecidableEq

/-- MAP-T counts as configured when the rule prefix is not empty. -/
def State.active (s : State) : Prop := s.g_stMaptData.ruleIPv4Prefix ≠ []

instance (s : State) : Decidable s.active := inferInstanceAs (Decidable (¬ _))

def failWith (eState : BitVec 8) : StateM State AnscStatus := do
  let _ ← cosaDmlMaptRollback env eState
  pure .ANSC_STATUS_FAILURE

def finish : StateM State AnscStatus := do
  let _ ← invoke env (eventSet "firewall-restart" "")
  let _ ← invoke env (eventSet "ntpd-restart" "")
  cosaDmlMaptDisplayFeatureStatus env
  pure .ANSC_STATUS_SUCCESS

def applyConfig : StateM State AnscStatus := do
  let failed ← cosaDmlMaptApplyConfig env
  if failed then
    failWith env (rbConfig ||| rbEvents ||| rbDhcpclient ||| rbUpnpigd ||| rbHotspot)
  else finish env

def applyEvents : StateM State AnscStatus := do
  let failed ← cosaDmlMaptSetEvents env
  if failed then failWith env (rbEvents ||| rbDhcpclient ||| rbUpnpigd ||| rbHotspot)
  else applyConfig env

def activate : StateM State AnscStatus := do
  cosaDmlMaptStopServices env
  applyEvents env

def rollbackActive (s : State) : State :=
  if s.active then
    (cosaDmlMaptRollback env (rbEvents ||| rbFirewall ||| rbConfig)
      { s with g_bRollBackInProgress := true }).2
  else s

def giveUp (s : State) : AnscStatus × State :=
  if s.g_bRollBackInProgress then
    failWith env (rbDhcpclient ||| rbUpnpigd ||| rbHotspot)
      { s with g_bRollBackInProgress := false }
  else (.ANSC_STATUS_FAILURE, s)

def State.begin (s : State) : State := { s with trace := [] }

def State.store (s : State) (g : MaptConfig) : State := { s with g_stMaptData := g }

def cosaDmlMaptProcessOpt95Response (pPdIPv6Prefix : CStr) (pOptionBuf : Option CStr)
    (s : State) : Option (AnscStatus × State) :=
  let s := rollbackActive env s.begin
  (configure pPdIPv6Prefix pOptionBuf).map (fun (ret, g) =>
    if ret = .STATUS_FAILURE then giveUp env (s.store g) else activate env (s.store g))

structure Response where
  pPdIPv6Prefix : CStr
  pOptionBuf : CStr
  env : Env

def step (r : AnscStatus × State) (c : Response) : Option (AnscStatus × State) :=
  cosaDmlMaptProcessOpt95Response c.env c.pPdIPv6Prefix (some c.pOptionBuf) r.2

def start : AnscStatus × State := (.ANSC_STATUS_SUCCESS, ⟨MaptConfig.zero, false, false, false, []⟩)

def RolledBack (t : State) (bit : BitVec 8) : Prop :=
  ∃ eState, eState &&& bit ≠ 0#8 ∧ Event.rollback eState ∈ t.trace

/-- What a call leaves: after a failure no data, and what was active before is
reset and rolled back; never the flag; and no rollback when it fails with
nothing active and nothing stopped. -/
structure Behaves (r : AnscStatus × State) (_ : Response) (r' : AnscStatus × State) : Prop where
  cleared : r'.1 = .ANSC_STATUS_FAILURE → r'.2.g_stMaptData = MaptConfig.zero
  eventsReset : r'.1 = .ANSC_STATUS_FAILURE → r.2.active → ∀ e ∈ resetEvents, e ∈ r'.2.trace
  rolledBack : r'.1 = .ANSC_STATUS_FAILURE → r.2.active →
    ∀ bit ∈ [rbDhcpclient, rbUpnpigd, rbHotspot], RolledBack r'.2 bit
  flag : r'.2.g_bRollBackInProgress = false
  quiet : r'.1 = .ANSC_STATUS_FAILURE → ¬ r.2.active →
    shell "service_wan dhcp-release" ∉ r'.2.trace → ∀ eState, .rollback eState ∉ r'.2.trace

/-- With a configuration active the response yields none; otherwise an empty
prefix comes with the length 0. -/
def Harmless (r : AnscStatus × State) (c : Response) : Prop :=
  if r.2.active then
    ∀ g, configure c.pPdIPv6Prefix (some c.pOptionBuf) ≠ some (.STATUS_SUCCESS, g)
  else
    ∀ g, storePdPrefix c.pPdIPv6Prefix MaptConfig.zero = some g → g.pdIPv6Prefix = [] →
      g.pdIPv6PrefixLen = 0#16

variable (s : State)

section frames

/-- The calls to other programs leave the data and the flag, and only add to the trace. -/
structure Keeps (s t : State) : Prop where
  data : t.g_stMaptData = s.g_stMaptData
  flag : t.g_bRollBackInProgress = s.g_bRollBackInProgress
  trace : ∀ e ∈ s.trace, e ∈ t.trace

instance : Std.Refl Keeps := ⟨fun _ => ⟨rfl, rfl, fun _ h => h⟩⟩

instance : IsTrans State Keeps :=
  ⟨fun _ _ _ h h' => ⟨h'.data.trans h.data, h'.flag.trans h.flag,
    fun e he => h'.trace e (h.trace e he)⟩⟩

theorem keeps_log (e : Event) : Keeps s (s.log e) :=
  ⟨rfl, rfl, fun _ h => List.mem_append_left _ h⟩

theorem mem_log (e : Event) : e ∈ (s.log e).trace :=
  List.mem_append_right _ List.mem_cons_self

theorem keeps_invoke (e : Event) : Respects Keeps (invoke env e) := fun s => keeps_log s e

theorem keeps_popen (cmd : CStr) : Respects Keeps (popen env cmd) := fun s => keeps_log s _

theorem keeps_syscfgGet (name : CStr) : Respects Keeps (syscfgGet env name) :=
  fun s => keeps_log s _

theorem keeps_invokeIf (run : Bool) (e : Event) : Respects Keeps (invokeIf env run e) :=
  respects_ite (keeps_invoke env e) (respects_pure false)

theorem keeps_invokeAll (es : List Event) : Respects Keeps (invokeAll env es) := by
  induction es with
  | nil => exact respects_pure false
  | cons e es ih =>
    exact respects_bind (keeps_invoke env e) (fun _ => respects_bind ih (fun _ => respects_pure _))

theorem mem_invokeAll {es : List Event} {e : Event} (h : e ∈ es) (s : State) :
    e ∈ (invokeAll env es s).2.trace := by
  induction es generalizing s with
  | nil => cases h
  | cons a es ih =>
    rcases List.mem_cons.mp h with rfl | h
    · exact (keeps_invokeAll env es (s.log e)).trace e (mem_log s e)
    · exact ih h (s.log a)

theorem keeps_invokeUntil (es : List (Event × Bool)) : Respects Keeps (invokeUntil env es) := by
  induction es with
  | nil => exact respects_pure false
  | cons p es ih =>
    obtain ⟨e, fatal⟩ := p
    exact respects_bind (keeps_invoke env e) (fun _ => respects_ite (respects_pure true) ih)

theorem keeps_setHotspot (b : Bool) : Respects Keeps (setHotspot b) :=
  respects_modify (fun _ => ⟨rfl, rfl, fun _ h => h⟩)

theorem keeps_switchHotspot (event : String) (flag : Bool) :
    Respects Keeps (switchHotspot env event flag) := by
  refine respects_bind respects_get (fun s => ?_)
  apply respects_bind (keeps_invoke env _)
  intro failed
  exact respects_bind (keeps_setHotspot _) (fun _ => respects_pure failed)

theorem keeps_resetHotspot (flag : Bool) : Respects Keeps (cosaDmlMaptResetHotspot env flag) := by
  apply respects_bind (keeps_popen env _)
  intro line
  apply respects_ite
  · refine respects_bind respects_get (fun s => ?_)
    apply respects_bind (keeps_setHotspot _)
    intro _
    exact respects_ite (keeps_switchHotspot env _ _) (respects_pure false)
  · exact respects_ite (keeps_switchHotspot env _ _) (respects_pure false)

theorem keeps_resetClient : Respects Keeps (cosaDmlMaptResetClient env) :=
  respects_bind (keeps_popen env _) (fun _ => keeps_invokeIf env _ _)

theorem keeps_disableAccel : Respects Keeps (disableAccel env) :=
  respects_ite (respects_bind (keeps_invoke env _) (fun _ => keeps_invokeIf env _ _))
    (respects_pure false)

theorem keeps_resetConfig : Respects Keeps (cosaDmlMaptResetConfig env) := by
  apply respects_bind (keeps_popen env _)
  intro map0
  apply respects_bind (keeps_invokeIf env _ _)
  intro _
  apply respects_bind (keeps_popen env _)
  intro erouter0
  apply respects_bind (keeps_invokeIf env _ _)
  intro routes
  apply respects_bind (keeps_popen env _)
  intro nat46
  apply respects_bind (keeps_invokeIf env _ _)
  intro _
  exact respects_bind (keeps_disableAccel env) (fun _ => respects_pure _)

theorem keeps_readUPnPIGD : Respects Keeps (readUPnPIGD env) := fun _ => ⟨rfl, rfl, fun _ h => h⟩

theorem keeps_setUPnPIGD (b : Bool) : Respects Keeps (setUPnPIGD b) :=
  respects_modify (fun _ => ⟨rfl, rfl, fun _ h => h⟩)

theorem keeps_resetUPnPIGD : Respects Keeps (resetUPnPIGD env) := by
  apply respects_bind (keeps_syscfgGet env _)
  intro isEnabled
  apply respects_bind (keeps_readUPnPIGD env)
  intro flag
  apply respects_bind (keeps_setUPnPIGD _)
  intro _
  apply respects_bind (keeps_readUPnPIGD env)
  intro flag
  exact respects_bind (keeps_invokeIf env _ _) (fun _ => respects_pure false)

theorem keeps_part {m : StateM State Bool} (hm : Respects Keeps m) (eState bit : BitVec 8) :
    Respects Keeps (part eState bit m) := respects_ite hm (respects_pure false)

theorem keeps_rollbackParts (eState : BitVec 8) : Respects Keeps (rollbackParts env eState) := by
  apply respects_bind (keeps_part (keeps_invokeAll env _) _ _)
  intro events
  apply respects_bind (keeps_part (keeps_invoke env _) _ _)
  intro firewall
  apply respects_bind (keeps_part (keeps_resetConfig env) _ _)
  intro config
  apply respects_bind (keeps_part (keeps_resetClient env) _ _)
  intro client
  apply respects_bind (keeps_part (keeps_resetUPnPIGD env) _ _)
  intro upnp
  exact respects_bind (keeps_part (keeps_resetHotspot env true) _ _) (fun _ => respects_pure _)

theorem keeps_stopOtherServices : Respects Keeps (stopOtherServices env) := by
  apply respects_bind (keeps_invoke env _)
  intro _
  apply respects_bind (keeps_invoke env _)
  intro _
  apply respects_bind (keeps_syscfgGet env _)
  intro ethWan
  apply respects_bind (keeps_invokeIf env _ _)
  intro _
  refine respects_bind respects_get (fun s => ?_)
  have hupnp : Respects Keeps (stopUPnPIGD env s.g_stMaptData.ratio) :=
    respects_ite (respects_bind (keeps_syscfgGet env _) (fun _ => keeps_invokeIf env _ _))
      (respects_pure false)
  apply respects_bind hupnp
  intro _
  exact respects_bind (keeps_resetHotspot env false) (fun _ => respects_pure _)

theorem keeps_setEvents : Respects Keeps (cosaDmlMaptSetEvents env) :=
  respects_bind respects_get (fun _ => keeps_invokeAll env _)

theorem keeps_applyConfig : Respects Keeps (cosaDmlMaptApplyConfig env) :=
  respects_bind respects_get (fun _ => keeps_invokeUntil env _)

theorem keeps_finish : Respects Keeps (finish env) := by
  apply respects_bind (keeps_invoke env _)
  intro _
  apply respects_bind (keeps_invoke env _)
  intro _
  have hstatus : Respects Keeps (cosaDmlMaptDisplayFeatureStatus env) := by
    apply respects_bind (keeps_invokeAll env _)
    intro _
    apply respects_bind (keeps_invoke env _)
    intro failed
    apply respects_bind (keeps_invokeIf env _ _)
    intro _
    exact respects_bind (keeps_invoke env _) (fun _ => respects_pure _)
  exact respects_bind hstatus (fun _ => respects_pure _)

end frames

section calls

/-- What a rollback leaves and what its trace shows. -/
structure RollbackLeaves (eState : BitVec 8) (s t : State) : Prop where
  data : t.g_stMaptData = MaptConfig.zero
  flag : t.g_bRollBackInProgress = s.g_bRollBackInProgress
  trace : ∀ e ∈ s.trace, e ∈ t.trace
  logged : .rollback eState ∈ t.trace
  events : eState &&& rbEvents ≠ 0#8 → ∀ e ∈ resetEvents, e ∈ t.trace

theorem rollback_leaves (eState : BitVec 8) (h : eState ≠ 0#8) (s : State) :
    RollbackLeaves eState s (cosaDmlMaptRollback env eState s).2 := by
  have hparts := keeps_rollbackParts env eState (s.log (.rollback eState))
  have hend : (cosaDmlMaptRollback env eState s).2 =
      { (rollbackParts env eState (s.log (.rollback eState))).2 with
        g_stMaptData := MaptConfig.zero } := if_pos h
  rw [hend]
  refine ⟨rfl, hparts.flag, fun e he => ?_, hparts.trace _ (mem_log s _), fun hbit e he => ?_⟩
  · exact hparts.trace e ((keeps_log s _).trace e he)
  · have hreset : part eState rbEvents (cosaDmlMaptResetEvents env) = invokeAll env resetEvents :=
      if_pos hbit
    have hset := mem_invokeAll env he (s.log (.rollback eState))
    have hlater : Keeps (part eState rbEvents (cosaDmlMaptResetEvents env)
        (s.log (.rollback eState))).2 (rollbackParts env eState (s.log (.rollback eState))).2 := by
      refine after_bind (fun events => ?_) _
      apply respects_bind (keeps_part (keeps_invoke env _) _ _)
      intro firewall
      apply respects_bind (keeps_part (keeps_resetConfig env) _ _)
      intro config
      apply respects_bind (keeps_part (keeps_resetClient env) _ _)
      intro client
      apply respects_bind (keeps_part (keeps_resetUPnPIGD env) _ _)
      intro upnp
      exact respects_bind (keeps_part (keeps_resetHotspot env true) _ _)
        (fun _ => respects_pure _)
    rw [hreset] at hlater
    exact hlater.trace e hset

theorem rollbackActive_inactive {s : State} (h : ¬ s.active) : rollbackActive env s = s := if_neg h

theorem rollbackActive_active {s : State} (h : s.active) :
    (rollbackActive env s).g_bRollBackInProgress = true ∧
      ∀ e ∈ resetEvents, e ∈ (rollbackActive env s).trace := by
  have hleaves := rollback_leaves env (rbEvents ||| rbFirewall ||| rbConfig) (by decide)
    { s with g_bRollBackInProgress := true }
  have hcall : rollbackActive env s = _ := if_pos h
  rw [hcall]
  exact ⟨hleaves.flag, hleaves.events (by decide)⟩

/-- How a call ends: the flag as it was, and after a failure no data. -/
structure Ends (s : State) (r : AnscStatus × State) : Prop where
  flag : r.2.g_bRollBackInProgress = s.g_bRollBackInProgress
  cleared : r.1 = .ANSC_STATUS_FAILURE → r.2.g_stMaptData = MaptConfig.zero
  trace : ∀ e ∈ s.trace, e ∈ r.2.trace

theorem ends_bind {α : Type} {m : StateM State α} {f : α → StateM State AnscStatus}
    (hm : Respects Keeps m) (hf : ∀ a s, Ends s (f a s)) (s : State) : Ends s ((m >>= f) s) := by
  have hfirst := hm s
  have hlast := hf (m s).1 (m s).2
  exact ⟨hlast.flag.trans hfirst.flag, hlast.cleared, fun e he => hlast.trace e (hfirst.trace e he)⟩

theorem ends_failWith {eState : BitVec 8} (h : eState ≠ 0#8) (s : State) :
    Ends s (failWith env eState s) := by
  have hleaves := rollback_leaves env _ h s
  exact ⟨hleaves.flag, fun _ => hleaves.data, hleaves.trace⟩

theorem ends_finish : Ends s (finish env s) := by
  have hfinish := keeps_finish env s
  exact ⟨hfinish.flag, fun h => absurd h (fun h => by cases h), hfinish.trace⟩

theorem ends_applyConfig : Ends s (applyConfig env s) := by
  refine ends_bind (keeps_applyConfig env) (fun failed s => ?_) s
  cases failed with
  | true => exact ends_failWith env (by decide) s
  | false => exact ends_finish env s

theorem ends_applyEvents : Ends s (applyEvents env s) := by
  refine ends_bind (keeps_setEvents env) (fun failed s => ?_) s
  cases failed with
  | true => exact ends_failWith env (by decide) s
  | false => exact ends_applyConfig env s

section Release

attribute [local irreducible] stopOtherServices

theorem keeps_stopServices :
    Keeps (s.log (shell "service_wan dhcp-release")) (cosaDmlMaptStopServices env s).2 :=
  keeps_stopOtherServices env (s.log (shell "service_wan dhcp-release"))

end Release

theorem ends_activate :
    Ends (cosaDmlMaptStopServices env s).2 (activate env s) :=
  ends_applyEvents env (cosaDmlMaptStopServices env s).2

variable {r : AnscStatus × State}

theorem behaves_giveUp (hflag : r.2.g_bRollBackInProgress = false)
    (c : Response) (g : MaptConfig) :
    Behaves r c (giveUp c.env
      ((rollbackActive c.env r.2.begin).store g)) ↔
        r.2.active ∨ g = MaptConfig.zero := by
  by_cases hactive : r.2.active
  · refine iff_of_true ?_ (.inl hactive)
    have hbegin := rollbackActive_active c.env (s := r.2.begin) hactive
    generalize hs : rollbackActive c.env r.2.begin = s at hbegin
    obtain ⟨hset, hevents⟩ := hbegin
    have hleaves := rollback_leaves c.env (rbDhcpclient ||| rbUpnpigd ||| rbHotspot)
      (by decide) { s.store g with g_bRollBackInProgress := false }
    have hcall : giveUp c.env (s.store g) =
        failWith c.env (rbDhcpclient ||| rbUpnpigd ||| rbHotspot)
          { s.store g with g_bRollBackInProgress := false } := if_pos hset
    rw [hcall]
    refine ⟨fun _ => hleaves.data, fun _ _ e he => hleaves.trace e (hevents e he),
      fun _ _ bit hbit => ⟨_, ?_, hleaves.logged⟩, hleaves.flag,
      fun _ hidle => absurd hactive hidle⟩
    revert bit
    decide
  · rw [rollbackActive_inactive c.env (s := r.2.begin) hactive]
    have hclear : ¬ (r.2.begin.store g).g_bRollBackInProgress = true := by
      change ¬ r.2.g_bRollBackInProgress = true
      rw [hflag]
      decide
    have hcall : giveUp c.env (r.2.begin.store g) = (.ANSC_STATUS_FAILURE, r.2.begin.store g) :=
      if_neg hclear
    rw [hcall]
    refine ⟨fun h => .inr (h.cleared rfl), fun h => ?_⟩
    have hzero := h.resolve_left hactive
    exact ⟨fun _ => hzero, fun _ h => absurd h hactive, fun _ h => absurd h hactive, hflag,
      fun _ _ _ _ => List.not_mem_nil⟩

theorem behaves_activate (hflag : r.2.g_bRollBackInProgress = false)
    (c : Response) (g : MaptConfig) :
    Behaves r c (activate c.env
      ((rollbackActive c.env r.2.begin).store g)) ↔ ¬ r.2.active := by
  have hends := ends_activate c.env ((rollbackActive c.env r.2.begin).store g)
  have hstop := keeps_stopServices c.env ((rollbackActive c.env r.2.begin).store g)
  have hkept : (activate c.env ((rollbackActive c.env r.2.begin).store g)).2.g_bRollBackInProgress =
      (rollbackActive c.env r.2.begin).g_bRollBackInProgress := hends.flag.trans hstop.flag
  by_cases hactive : r.2.active
  · refine iff_of_false (fun h => ?_) (not_not.mpr hactive)
    have hset := (rollbackActive_active c.env (s := r.2.begin) hactive).1
    rw [h.flag] at hkept
    exact absurd (hkept.trans hset) (by decide)
  · refine iff_of_true ?_ hactive
    have hstill : (rollbackActive c.env r.2.begin).g_bRollBackInProgress = false := by
      rw [rollbackActive_inactive c.env (s := r.2.begin) hactive]
      exact hflag
    exact ⟨hends.cleared, fun _ h => absurd h hactive, fun _ h => absurd h hactive,
      hkept.trans hstill,
      fun _ _ hquiet => absurd (hends.trace _ (hstop.trace _ (mem_log _ _))) hquiet⟩

theorem storePdPrefix_eq_zero {pPdIPv6Prefix : CStr} {g : MaptConfig}
    (h : storePdPrefix pPdIPv6Prefix MaptConfig.zero = some g) (hempty : g.pdIPv6Prefix = [])
    (hlen : g.pdIPv6PrefixLen = 0#16) : g = MaptConfig.zero := by
  simp only [storePdPrefix, Option.ite_none_right_eq_some, Option.some.injEq] at h
  obtain ⟨-, rfl⟩ := h
  change (if _ then _ else _) = _ at hempty
  change BitVec.ofInt 16 _ = _ at hlen
  rw [hempty, hlen]
  rfl

theorem step_of_configure {c : Response} {ret : ReturnStatus} {g : MaptConfig}
    (h : configure c.pPdIPv6Prefix (some c.pOptionBuf) = some (ret, g)) (r : AnscStatus × State) :
    step r c = some (if ret = .STATUS_FAILURE then
        giveUp c.env ((rollbackActive c.env r.2.begin).store g)
      else activate c.env ((rollbackActive c.env r.2.begin).store g)) := by
  unfold step cosaDmlMaptProcessOpt95Response
  rw [h]
  rfl

theorem behaves_iff {r r' : AnscStatus × State} {c : Response}
    (hflag : r.2.g_bRollBackInProgress = false) (h : step r c = some r') :
    Behaves r c r' ↔ Harmless r c := by
  cases hconf : configure c.pPdIPv6Prefix (some c.pOptionBuf) with
  | none =>
    unfold step cosaDmlMaptProcessOpt95Response at h
    rw [hconf] at h
    cases h
  | some res =>
  obtain ⟨ret, g⟩ := res
  rw [step_of_configure hconf, Option.some.injEq] at h
  subst h
  unfold Harmless
  cases ret with
  | STATUS_SUCCESS =>
    rw [if_neg (fun h => by cases h), behaves_activate hflag]
    by_cases hactive : r.2.active
    · rw [if_pos hactive]
      exact iff_of_false (not_not.mpr hactive) (fun hnone => hnone g hconf)
    · rw [if_neg hactive]
      refine iff_of_true hactive (fun g' hstore hempty => ?_)
      have hfail := configure_empty hstore hempty hconf
      cases hfail
  | STATUS_FAILURE =>
    rw [if_pos rfl, behaves_giveUp hflag]
    by_cases hactive : r.2.active
    · rw [if_pos hactive]
      refine iff_of_true (.inl hactive) (fun g' hsucc => ?_)
      rw [hconf] at hsucc
      cases hsucc
    · rw [if_neg hactive]
      refine ⟨fun h g' hstore hempty => ?_, fun h => .inr ?_⟩
      · have hfail := configure_empty hstore hempty hconf
        rw [← (Prod.mk.inj hfail).2, h.resolve_left hactive]
        rfl
      · rcases configure_failed hconf with hzero | ⟨hstore, hnone | hempty⟩
        · exact hzero
        · cases hnone
        · exact storePdPrefix_eq_zero hstore hempty (h g hstore hempty)

/-- All along a run the calls behave exactly when every response is harmless. -/
theorem cosaDmlMaptProcessOpt95Response_behaves_iff {cs : List Response} {r : AnscStatus × State}
    (hrun : run step start cs = some r) :
    Along step Behaves start cs ↔ StepsMeet step Harmless start cs := by
  apply along_iff step (fun r => r.2.g_bRollBackInProgress = false)
  · exact fun r c r' hflag h => behaves_iff hflag h
  · exact fun r c r' hflag hok h => ((behaves_iff hflag h).mpr hok).flag
  · rfl
  · exact hrun

end calls

section renewal

open BitWindow PrefixText MaptDecode

/-- An environment where no call fails and no command prints anything. -/
def quiet : Env := ⟨fun _ _ => false, fun _ _ => none, fun _ _ => [], fun _ => none, false⟩

def renewal : Response where
  pPdIPv6Prefix := "2001:db8:0:1200::/56".toList
  pOptionBuf := "'0059000d011018c00002002820010db800005b00094020010db8ffff0000'".toList
  env := quiet

theorem renewal_configured : ∃ g, configure renewal.pPdIPv6Prefix (some renewal.pOptionBuf) =
    some (.STATUS_SUCCESS, g) ∧ g.ruleIPv4Prefix ≠ [] := by
  have hall : (configure renewal.pPdIPv6Prefix (some renewal.pOptionBuf)).map
      (fun res => (res.1, decide (res.2.ruleIPv4Prefix ≠ []))) = some (.STATUS_SUCCESS, true) := by
    decide +kernel
  rw [Option.map_eq_some_iff] at hall
  obtain ⟨⟨ret, g⟩, hdone, hres⟩ := hall
  rw [Prod.mk.injEq] at hres
  obtain ⟨rfl, hrule⟩ := hres
  exact ⟨g, hdone, of_decide_eq_true hrule⟩

theorem renewal_step : ∃ r, step start renewal = some r ∧ r.2.active := by
  have hactive : (step start renewal).map (fun r => decide r.2.active) = some true := by
    decide +kernel
  obtain ⟨r, hstep, hactive⟩ := Option.map_eq_some_iff.mp hactive
  exact ⟨r, hstep, of_decide_eq_true hactive⟩

theorem cosaDmlMaptProcessOpt95Response_behaves_once : ∃ r, run step start [renewal] = some r ∧
    (Along step Behaves start [renewal] ↔ StepsMeet step Harmless start [renewal]) := by
  obtain ⟨r, hstep, -⟩ := renewal_step
  have hrun : run step start [renewal] = some r := by
    rw [run_cons, hstep, Option.bind_some, run_nil]
  exact ⟨r, hrun, cosaDmlMaptProcessOpt95Response_behaves_iff hrun⟩

/-- A second configuration leaves the flag of the rollback it started with. -/
theorem cosaDmlMaptProcessOpt95Response_flag_left :
    ¬ ∀ (cs : List Response) (r : AnscStatus × State),
    run step start cs = some r → Along step Behaves start cs := by
  intro h
  obtain ⟨r, hstep, hactive⟩ := renewal_step
  obtain ⟨g, hconf, -⟩ := renewal_configured
  obtain ⟨r', hstep'⟩ : ∃ r', step r renewal = some r' := ⟨_, step_of_configure hconf r⟩
  have hrun : run step start [renewal, renewal] = some r' := by
    rw [run_cons, hstep, Option.bind_some, run_cons, hstep', Option.bind_some, run_nil]
  obtain ⟨hfirst, hlater⟩ := h _ _ hrun r hstep
  have hharmless := (behaves_iff hfirst.flag hstep').mp (hlater r' hstep').1
  rw [Harmless, if_pos hactive] at hharmless
  exact hharmless g hconf

end renewal

end CcspPandM.MaptRollback
