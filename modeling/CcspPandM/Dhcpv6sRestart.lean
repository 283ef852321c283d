import CcspPandM.Runs
import CcspPandM.CString

/-!
Restart requests to the DHCPv6 server. The data model counts a request after a
change of its tables and then writes to a FIFO. The server thread reads the FIFO
and, once the prefix and the LAN are ready, makes its configuration file anew
from the tables. The threads take their steps in any order.
-/
namespace CcspPandM.Dhcpv6sRestart

open CString Runs

inductive DmPc where
  | idle
  | changed
  | counted
  deriving DecidableEq

inductive LanPc where
  | idle
  | raised
  deriving DecidableEq

inductive ClientPc where
  | idle
  | raised
  | restarting
  | counted
  deriving DecidableEq

/-- The server thread, in `CosaDmlDhcpv6sRebootServer` unless it is idle. While a
file is made it may be that the tables change. -/
inductive ServerPc where
  | idle
  | prefixEvent
  | lanEvent
  | flags
  | count
  | clear
  | refresh
  | generating (clean : Bool)
  | start
  | lanRefresh
  deriving DecidableEq

/-- The globals, the FIFO, the events and where the threads are. No file stands
for one that mixes old and new tables. -/
structure State (τ : Type) where
  tables : τ
  file : Option τ
  g_dhcpv6s_restart_count : BitVec 32
  g_dhcpv6s_refresh_count : Bool
  g_lan_ready : Bool
  g_dhcpv6_server_prefix_ready : Bool
  globalIP2 : CStr
  fifo : ℕ
  lan_status : CStr
  ipv6_prefix : CStr
  bridgeMode : Bool
  dm : DmPc
  lan : LanPc
  client : ClientPc
  server : ServerPc

inductive Action (τ : Type) where
  | change (tables : τ)
  | dmNext (opened : Bool)
  | lanStarted
  | lanNext (opened : Bool)
  | prefixReceived
  | clientNext (globalIP lan_restarted : CStr) (opened : Bool)
  | serverNext (running : Bool)
  | events (lan_status ipv6_prefix : CStr)
  | bridge (bridgeMode : Bool)

variable {τ : Type}

/-- `CosaDmlDHCPv6sTriggerRestart` counts a request, unless it only triggers. -/
def State.countRequest (s : State τ) : State τ :=
  { s with g_dhcpv6s_restart_count := s.g_dhcpv6s_restart_count + 1#32 }

def State.writeFifo (opened : Bool) (s : State τ) : State τ :=
  { s with fifo := if opened then s.fifo + 1 else s.fifo }

def State.changeTables (s : State τ) (tables : τ) : State τ :=
  { s with
    tables := tables
    dm := .changed
    server := match s.server with
      | .generating _ => .generating false
      | pc => pc }

def dmNext (opened : Bool) (s : State τ) : Option (State τ) :=
  match s.dm with
  | .idle => none
  | .changed => some { s.countRequest with dm := .counted }
  | .counted => some { s.writeFifo opened with dm := .idle }

/-- `CosaDmlDhcpv6sRestartOnLanStarted`. -/
def lanStarted (s : State τ) : Option (State τ) :=
  match s.lan with
  | .idle => some { s with g_lan_ready := true, lan := .raised }
  | .raised => none

def lanNext (opened : Bool) (s : State τ) : Option (State τ) :=
  match s.lan with
  | .idle => none
  | .raised => some { s.writeFifo opened with lan := .idle }

/-- The branch of `dhcpv6c_dbg_thrd` that handles a new prefix. -/
def prefixReceived (s : State τ) : Option (State τ) :=
  match s.client with
  | .idle => some { s with g_dhcpv6_server_prefix_ready := true, client := .raised }
  | _ => none

def bRestartLan (globalIP globalIP2 lan_restarted : CStr) : Bool :=
  decide (globalIP ≠ globalIP2) || decide (lan_restarted = "true".toList)

def clientNext (globalIP lan_restarted : CStr) (opened : Bool) (s : State τ) :
    Option (State τ) :=
  match s.client with
  | .idle => none
  | .raised =>
    let restart := bRestartLan globalIP s.globalIP2 lan_restarted
    some { s with
      globalIP2 := globalIP
      g_dhcpv6s_refresh_count := restart
      client := if restart then .restarting else .idle }
  | .restarting => some { s.countRequest with client := .counted }
  | .counted => some { s.writeFifo opened with client := .idle }

def serverNext (wanManager running : Bool) (s : State τ) : Option (State τ) :=
  match s.server with
  | .idle =>
    if s.fifo = 0 then none else some { s with fifo := s.fifo - 32, server := .prefixEvent }
  | .prefixEvent => some { s with
      g_dhcpv6_server_prefix_ready := s.g_dhcpv6_server_prefix_ready ||
        (wanManager && decide (3 < s.ipv6_prefix.length))
      server := .lanEvent }
  | .lanEvent => some { s with
      g_lan_ready := s.g_lan_ready || decide (s.lan_status.take 7 = "started".toList)
      server := .flags }
  | .flags => some { s with
      server := if s.g_dhcpv6_server_prefix_ready && s.g_lan_ready then .count else .idle }
  | .count => some { s with
      server := if s.g_dhcpv6s_restart_count = 0#32 then .start else .clear }
  | .clear => some { s with g_dhcpv6s_restart_count := 0#32, server := .refresh }
  | .refresh => some { s with server := .generating true }
  | .generating clean => some { s with
      file := if clean then some s.tables else none
      server := .start }
  | .start => some { s with
      server := if !running && s.bridgeMode then .idle else .lanRefresh }
  | .lanRefresh => some { s with g_dhcpv6s_refresh_count := false, server := .idle }

def step (wanManager : Bool) (s : State τ) : Action τ → Option (State τ)
  | .change tables =>
    match s.dm with
    | .counted => none
    | _ => some (s.changeTables tables)
  | .dmNext opened => dmNext opened s
  | .lanStarted => lanStarted s
  | .lanNext opened => lanNext opened s
  | .prefixReceived => prefixReceived s
  | .clientNext globalIP lan_restarted opened => clientNext globalIP lan_restarted opened s
  | .serverNext running => serverNext wanManager running s
  | .events lan_status ipv6_prefix =>
    some { s with lan_status := lan_status, ipv6_prefix := ipv6_prefix }
  | .bridge bridgeMode => some { s with bridgeMode := bridgeMode }

/-- All threads are idle and nothing is left in the FIFO. -/
structure State.Idle (s : State τ) : Prop where
  fifo : s.fifo = 0
  dm : s.dm = .idle
  lan : s.lan = .idle
  client : s.client = .idle
  server : s.server = .idle

structure State.Ready (s : State τ) : Prop where
  lan : s.g_lan_ready = true
  server_prefix : s.g_dhcpv6_server_prefix_ready = true
  bridge : s.bridgeMode = false

/-- No request waits and the file is made from the tables. -/
def State.Served (s : State τ) : Prop :=
  s.g_dhcpv6s_restart_count = 0#32 ∧ s.file = some s.tables

/-- After `CosaDmlDhcpv6Init`, with a file from the tables that are read. -/
structure State.Fresh (s : State τ) : Prop extends s.Idle where
  count : s.g_dhcpv6s_restart_count = 0#32
  file : s.file = some s.tables

/-- The server thread has not looked at the count yet. -/
def ServerPc.early : ServerPc → Bool
  | .prefixEvent | .lanEvent | .flags | .count | .clear => true
  | _ => false

/-- The server thread has cleared the count for a file that is not done. -/
def ServerPc.renewing : ServerPc → Bool
  | .refresh | .generating _ => true
  | _ => false

/-- The server thread will look at the count, or another thread has not ended. -/
def State.Awake (s : State τ) : Prop :=
  s.fifo ≠ 0 ∨ s.dm ≠ .idle ∨ s.lan ≠ .idle ∨ s.client ≠ .idle ∨ s.server.early = true

/-- A request waits though it could be served, and nothing wakes the server. -/
def State.Stranded (s : State τ) : Prop :=
  s.g_dhcpv6s_restart_count ≠ 0#32 ∧ s.g_dhcpv6_server_prefix_ready = true ∧
    s.g_lan_ready = true ∧ ¬ s.Awake

/-- The count does not overflow. -/
def State.CountFits (s : State τ) : Prop := s.g_dhcpv6s_restart_count + 1#32 ≠ 0#32

/-- When a step loses no request: the count does not overflow, and a thread that
ends without writing to the FIFO, as the FIFO does not open or the client does
not restart the LAN, leaves no request that only it could have woken. -/
def Wakes (s : State τ) : Action τ → Prop
  | .dmNext opened =>
    (s.dm = .changed → s.CountFits) ∧
      (s.dm = .counted → opened = false → ¬ State.Stranded { s with dm := .idle })
  | .lanNext opened => opened = false → ¬ State.Stranded { s with lan := .idle }
  | .clientNext globalIP lan_restarted opened =>
    (s.client = .raised → bRestartLan globalIP s.globalIP2 lan_restarted = false →
        ¬ State.Stranded { s with client := .idle }) ∧
      (s.client = .restarting → s.CountFits) ∧
      (s.client = .counted → opened = false → ¬ State.Stranded { s with client := .idle })
  | _ => True

structure Inv (s : State τ) : Prop where
  current : s.file = some s.tables ∨ s.g_dhcpv6s_restart_count ≠ 0#32 ∨ s.dm = .changed ∨
    s.server.renewing = true
  torn : s.server = .generating false → s.dm = .changed ∨ s.g_dhcpv6s_restart_count ≠ 0#32
  woken : ¬ s.Stranded

variable (s : State τ)

theorem not_stranded_of_awake (h : s.Awake) : ¬ s.Stranded := fun hs => hs.2.2.2 h

theorem inv_dmNext (opened : Bool) (s t : State τ) (hs : Inv s) (hok : Wakes s (.dmNext opened))
    (h : dmNext opened s = some t) : Inv t := by
  obtain ⟨hfits, hwakes⟩ := hok
  unfold dmNext at h
  split at h
  · cases h
  · next hdm =>
    rw [Option.some.injEq] at h
    subst h
    have hcount : s.g_dhcpv6s_restart_count + 1#32 ≠ 0#32 := hfits hdm
    refine ⟨.inr (.inl hcount), fun _ => .inr hcount, not_stranded_of_awake _ (.inr (.inl ?_))⟩
    exact DmPc.noConfusion
  · next hdm =>
    rw [Option.some.injEq] at h
    subst h
    have hnot : s.dm ≠ .changed := by
      rw [hdm]
      exact DmPc.noConfusion
    refine ⟨?_, fun htorn => .inr ((hs.torn htorn).resolve_left hnot), ?_⟩
    · have hcurrent := hs.current
      rcases hcurrent with hfile | hcount | hchanged | hrenew
      · exact .inl hfile
      · exact .inr (.inl hcount)
      · exact absurd hchanged hnot
      · exact .inr (.inr (.inr hrenew))
    · cases opened with
      | true => exact not_stranded_of_awake _ (.inl (Nat.succ_ne_zero s.fifo))
      | false => exact hwakes hdm rfl

theorem inv_lanStarted (s t : State τ) (hs : Inv s) (h : lanStarted s = some t) : Inv t := by
  unfold lanStarted at h
  split at h
  · rw [Option.some.injEq] at h
    subst h
    refine ⟨hs.current, hs.torn, not_stranded_of_awake _ (.inr (.inr (.inl ?_)))⟩
    exact LanPc.noConfusion
  · cases h

theorem inv_lanNext (opened : Bool) (s t : State τ) (hs : Inv s) (hok : Wakes s (.lanNext opened))
    (h : lanNext opened s = some t) : Inv t := by
  unfold lanNext at h
  split at h
  · cases h
  · rw [Option.some.injEq] at h
    subst h
    refine ⟨hs.current, hs.torn, ?_⟩
    cases opened with
    | true => exact not_stranded_of_awake _ (.inl (Nat.succ_ne_zero s.fifo))
    | false => exact hok rfl

theorem inv_prefixReceived (s t : State τ) (hs : Inv s) (h : prefixReceived s = some t) :
    Inv t := by
  unfold prefixReceived at h
  split at h
  · rw [Option.some.injEq] at h
    subst h
    refine ⟨hs.current, hs.torn, not_stranded_of_awake _ (.inr (.inr (.inr (.inl ?_))))⟩
    exact ClientPc.noConfusion
  · cases h

theorem inv_clientNext (globalIP lan_restarted : CStr) (opened : Bool) (s t : State τ)
    (hs : Inv s) (hok : Wakes s (.clientNext globalIP lan_restarted opened))
    (h : clientNext globalIP lan_restarted opened s = some t) : Inv t := by
  obtain ⟨hdecides, hfits, hwakes⟩ := hok
  unfold clientNext at h
  split at h
  · cases h
  · next hclient =>
    rw [Option.some.injEq] at h
    subst h
    refine ⟨hs.current, hs.torn, ?_⟩
    cases hrestart : bRestartLan globalIP s.globalIP2 lan_restarted with
    | true =>
      refine not_stranded_of_awake _ (.inr (.inr (.inr (.inl ?_))))
      exact ClientPc.noConfusion
    | false => exact hdecides hclient hrestart
  · next hclient =>
    rw [Option.some.injEq] at h
    subst h
    have hcount : s.g_dhcpv6s_restart_count + 1#32 ≠ 0#32 := hfits hclient
    refine ⟨.inr (.inl hcount), fun _ => .inr hcount,
      not_stranded_of_awake _ (.inr (.inr (.inr (.inl ?_))))⟩
    exact ClientPc.noConfusion
  · next hclient =>
    rw [Option.some.injEq] at h
    subst h
    refine ⟨hs.current, hs.torn, ?_⟩
    cases opened with
    | true => exact not_stranded_of_awake _ (.inl (Nat.succ_ne_zero s.fifo))
    | false => exact hwakes hclient rfl

/-- A step of the server thread alone: it leaves the tables, the threads and the
requests of the others. -/
structure ServerStep (s t : State τ) : Prop where
  tables : t.tables = s.tables
  dm : t.dm = s.dm
  lan : t.lan = s.lan
  client : t.client = s.client

theorem inv_looking (s t : State τ) (hs : Inv s) (hstep : ServerStep s t)
    (hrenew : s.server.renewing = false) (hfile : t.file = s.file)
    (hcount : t.g_dhcpv6s_restart_count = s.g_dhcpv6s_restart_count)
    (hpc : t.server ≠ .generating false) (hwoken : ¬ t.Stranded) : Inv t := by
  refine ⟨?_, fun htorn => absurd htorn hpc, hwoken⟩
  rw [hfile, hstep.tables, hcount, hstep.dm]
  rcases hs.current with hfile | hcount | hchanged | hrenew'
  · exact .inl hfile
  · exact .inr (.inl hcount)
  · exact .inr (.inr (.inl hchanged))
  · rw [hrenew] at hrenew'
    cases hrenew'

theorem stranded_of_late (s t : State τ) (h : t.Stranded) (hstep : ServerStep s t)
    (hearly : s.server.early = false) (hfifo : t.fifo = s.fifo)
    (hcount : t.g_dhcpv6s_restart_count = s.g_dhcpv6s_restart_count)
    (hready : t.g_dhcpv6_server_prefix_ready = s.g_dhcpv6_server_prefix_ready)
    (hlan : t.g_lan_ready = s.g_lan_ready) : s.Stranded := by
  obtain ⟨hpending, hprefixReady, hlanReady, hasleep⟩ := h
  refine ⟨by rwa [← hcount], by rwa [← hready], by rwa [← hlan], fun hawake => hasleep ?_⟩
  unfold State.Awake
  rw [hfifo, hstep.dm, hstep.lan, hstep.client]
  rcases hawake with h | h | h | h | h
  · exact .inl h
  · exact .inr (.inl h)
  · exact .inr (.inr (.inl h))
  · exact .inr (.inr (.inr (.inl h)))
  · rw [hearly] at h
    cases h

theorem awake_of_early (h : s.server.early = true) : ¬ s.Stranded :=
  not_stranded_of_awake s (.inr (.inr (.inr (.inr h))))

variable (wanManager running : Bool)

theorem inv_serverNext_looking (s t : State τ) (hs : Inv s)
    (hpc : s.server = .idle ∨ s.server.early = true) (hclear : s.server ≠ .clear)
    (h : serverNext wanManager running s = some t) : Inv t := by
  unfold serverNext at h
  split at h
  · next hserver =>
    obtain ⟨-, h⟩ := Option.ite_none_left_eq_some.mp h
    rw [Option.some.injEq] at h
    subst h
    exact inv_looking s _ hs ⟨rfl, rfl, rfl, rfl⟩ (by rw [hserver]; rfl) rfl rfl
      ServerPc.noConfusion (awake_of_early _ rfl)
  · next hserver =>
    rw [Option.some.injEq] at h
    subst h
    exact inv_looking s _ hs ⟨rfl, rfl, rfl, rfl⟩ (by rw [hserver]; rfl) rfl rfl
      ServerPc.noConfusion (awake_of_early _ rfl)
  · next hserver =>
    rw [Option.some.injEq] at h
    subst h
    exact inv_looking s _ hs ⟨rfl, rfl, rfl, rfl⟩ (by rw [hserver]; rfl) rfl rfl
      ServerPc.noConfusion (awake_of_early _ rfl)
  · next hserver =>
    rw [Option.some.injEq] at h
    subst h
    refine inv_looking s _ hs ⟨rfl, rfl, rfl, rfl⟩ (by rw [hserver]; rfl) rfl rfl ?_ ?_
    · dsimp only
      split <;> exact ServerPc.noConfusion
    · by_cases hready : (s.g_dhcpv6_server_prefix_ready && s.g_lan_ready) = true
      · exact awake_of_early _ (by simp only [hready, if_true, ServerPc.early])
      · rintro ⟨-, hprefixReady, hlanReady, -⟩
        exact hready (Bool.and_eq_true_iff.mpr ⟨hprefixReady, hlanReady⟩)
  · next hserver =>
    rw [Option.some.injEq] at h
    subst h
    refine inv_looking s _ hs ⟨rfl, rfl, rfl, rfl⟩ (by rw [hserver]; rfl) rfl rfl ?_ ?_
    · dsimp only
      split <;> exact ServerPc.noConfusion
    · by_cases hcount : s.g_dhcpv6s_restart_count = 0#32
      · exact fun hstranded => hstranded.1 hcount
      · exact awake_of_early _ (by simp only [hcount, if_false, ServerPc.early])
  · next hserver => exact absurd hserver hclear
  all_goals
    next hserver =>
      rw [hserver] at hpc
      rcases hpc with hpc | hpc <;> cases hpc

theorem inv_serverNext (s t : State τ) (hs : Inv s)
    (h : serverNext wanManager running s = some t) : Inv t := by
  cases hserver : s.server with
  | clear =>
    simp only [serverNext, hserver, Option.some.injEq] at h
    subst h
    exact ⟨.inr (.inr (.inr rfl)), ServerPc.noConfusion, fun hstranded => hstranded.1 rfl⟩
  | refresh =>
    simp only [serverNext, hserver, Option.some.injEq] at h
    subst h
    refine ⟨.inr (.inr (.inr rfl)), fun htorn => ?_, fun hstranded => hs.woken ?_⟩
    · cases htorn
    · exact stranded_of_late s _ hstranded ⟨rfl, rfl, rfl, rfl⟩ (by rw [hserver]; rfl) rfl rfl rfl
        rfl
  | generating clean =>
    simp only [serverNext, hserver, Option.some.injEq] at h
    subst h
    refine ⟨?_, ServerPc.noConfusion, fun hstranded => hs.woken ?_⟩
    · cases clean with
      | true => exact .inl rfl
      | false =>
        rcases hs.torn hserver with hchanged | hcount
        · exact .inr (.inr (.inl hchanged))
        · exact .inr (.inl hcount)
    · exact stranded_of_late s _ hstranded ⟨rfl, rfl, rfl, rfl⟩ (by rw [hserver]; rfl) rfl rfl rfl
        rfl
  | start =>
    simp only [serverNext, hserver, Option.some.injEq] at h
    subst h
    refine inv_looking s _ hs ⟨rfl, rfl, rfl, rfl⟩ (by rw [hserver]; rfl) rfl rfl ?_
      (fun hstranded => hs.woken ?_)
    · dsimp only
      split <;> exact ServerPc.noConfusion
    · exact stranded_of_late s _ hstranded ⟨rfl, rfl, rfl, rfl⟩ (by rw [hserver]; rfl) rfl rfl rfl
        rfl
  | lanRefresh =>
    simp only [serverNext, hserver, Option.some.injEq] at h
    subst h
    refine inv_looking s _ hs ⟨rfl, rfl, rfl, rfl⟩ (by rw [hserver]; rfl) rfl rfl
      ServerPc.noConfusion (fun hstranded => hs.woken ?_)
    exact stranded_of_late s _ hstranded ⟨rfl, rfl, rfl, rfl⟩ (by rw [hserver]; rfl) rfl rfl rfl
      rfl
  | _ =>
    exact inv_serverNext_looking wanManager running s t hs (by rw [hserver]; decide)
      (by rw [hserver]; exact ServerPc.noConfusion) h

theorem inv_changeTables (tables : τ) : Inv (s.changeTables tables) := by
  refine ⟨.inr (.inr (.inl rfl)), fun _ => .inl rfl, not_stranded_of_awake _ (.inr (.inl ?_))⟩
  exact DmPc.noConfusion

theorem inv_step (wanManager : Bool) (s : State τ) (a : Action τ) (t : State τ) (hs : Inv s)
    (hok : Wakes s a) (h : step wanManager s a = some t) : Inv t := by
  cases a with
  | change tables =>
    simp only [step] at h
    split at h
    · cases h
    · rw [← Option.some.inj h]
      exact inv_changeTables s tables
  | dmNext opened => exact inv_dmNext opened s t hs hok h
  | lanStarted => exact inv_lanStarted s t hs h
  | lanNext opened => exact inv_lanNext opened s t hs hok h
  | prefixReceived => exact inv_prefixReceived s t hs h
  | clientNext globalIP lan_restarted opened =>
    exact inv_clientNext globalIP lan_restarted opened s t hs hok h
  | serverNext running => exact inv_serverNext wanManager running s t hs h
  | events lan_status ipv6_prefix =>
    rw [← Option.some.inj h]
    exact ⟨hs.current, hs.torn, hs.woken⟩
  | bridge bridgeMode =>
    rw [← Option.some.inj h]
    exact ⟨hs.current, hs.torn, hs.woken⟩

theorem inv_fresh (h : s.Fresh) : Inv s := by
  refine ⟨.inl h.file, fun htorn => ?_, fun hstranded => hstranded.1 h.count⟩
  rw [h.server] at htorn
  cases htorn

theorem served_of_idle (hs : Inv s) (hidle : s.Idle) (hready : s.Ready) :
    s.Served := by
  have hasleep : ¬ s.Awake := by
    simp [State.Awake, hidle.fifo, hidle.dm, hidle.lan, hidle.client, hidle.server, ServerPc.early]
  have hcount : s.g_dhcpv6s_restart_count = 0#32 := by
    by_contra hpending
    exact hs.woken ⟨hpending, hready.server_prefix, hready.lan, hasleep⟩
  refine ⟨hcount, ?_⟩
  rcases hs.current with hfile | hpending | hchanged | hrenew
  · exact hfile
  · exact absurd hcount hpending
  · rw [hidle.dm] at hchanged
    cases hchanged
  · rw [hidle.server] at hrenew
    cases hrenew

/-- In a run whose steps all meet the condition, no request is lost: whenever the
threads are idle and the server could run, it has been served. -/
theorem triggerRestart_served (wanManager : Bool) (s t : State τ) (acts : List (Action τ))
    (hfresh : s.Fresh) (hmeet : StepsMeet (step wanManager) Wakes s acts)
    (hrun : run (step wanManager) s acts = some t) (hidle : t.Idle) (hready : t.Ready) :
    t.Served :=
  served_of_idle t (run_invariant (step wanManager) (inv_step wanManager) (inv_fresh s hfresh) hmeet
    hrun) hidle hready

/-- The LAN is up, and the prefix is or is not. -/
def lanUp (prefixReady : Bool) : State ℕ where
  tables := 0
  file := some 0
  g_dhcpv6s_restart_count := 0
  g_dhcpv6s_refresh_count := false
  g_lan_ready := true
  g_dhcpv6_server_prefix_ready := prefixReady
  globalIP2 := "2001:db8::1".toList
  fifo := 0
  lan_status := "started".toList
  ipv6_prefix := []
  bridgeMode := false
  dm := .idle
  lan := .idle
  client := .idle
  server := .idle

theorem lanUp_fresh (prefixReady : Bool) : (lanUp prefixReady).Fresh :=
  ⟨⟨rfl, rfl, rfl, rfl, rfl⟩, rfl, rfl⟩

theorem wakes_server (s : State τ) (n : ℕ) :
    StepsMeet (step wanManager) Wakes s (List.replicate n (.serverNext running)) := by
  induction n generalizing s with
  | zero => trivial
  | succ n ih => exact ⟨trivial, fun t _ => ih t⟩

def changeAndServe (n : ℕ) : List (Action ℕ) :=
  .change 1 :: .dmNext true :: .dmNext true :: List.replicate n (.serverNext false)

theorem triggerRestart_served_change : ∃ t, run (step false) (lanUp true) (changeAndServe 10) =
    some t ∧ t.Idle ∧ t.Ready ∧ t.Served := by
  have hrun : run (step false) (lanUp true) (changeAndServe 10) =
      some { lanUp true with tables := 1, file := some 1 } := rfl
  have hmeet : StepsMeet (step false) Wakes (lanUp true) (changeAndServe 10) := by
    refine ⟨trivial, fun s₁ h₁ => ⟨⟨fun _ => ?_, fun _ hno => by cases hno⟩, fun s₂ h₂ =>
      ⟨⟨fun hpc => ?_, fun _ hno => by cases hno⟩, fun s₃ _ => wakes_server false false s₃ 10⟩⟩⟩
    · rw [← Option.some.inj h₁]
      exact (by decide : 0#32 + 1#32 ≠ 0#32)
    · rw [← Option.some.inj h₁] at h₂
      rw [← Option.some.inj h₂] at hpc
      cases hpc
  exact ⟨_, hrun, ⟨rfl, rfl, rfl, rfl, rfl⟩, ⟨rfl, rfl, rfl⟩,
    triggerRestart_served false _ _ _ (lanUp_fresh true) hmeet hrun ⟨rfl, rfl, rfl, rfl, rfl⟩
      ⟨rfl, rfl, rfl⟩⟩

/-- The prefix comes back with the address that the bridge has: the thread of the
client raises the flag and leaves the request that waits for it. -/
theorem triggerRestart_lost : ¬ ∀ (wanManager : Bool) (s t : State ℕ) (acts : List (Action ℕ)),
    s.Fresh → run (step wanManager) s acts = some t → t.Idle → t.Ready → t.Served := by
  intro hclaim
  have hrun : run (step false) (lanUp false) (changeAndServe 4 ++
      [.prefixReceived, .clientNext "2001:db8::1".toList [] true]) =
      some { lanUp true with tables := 1, g_dhcpv6s_restart_count := 1 } := rfl
  have hserved := hclaim false _ _ _ (lanUp_fresh false) hrun ⟨rfl, rfl, rfl, rfl, rfl⟩
    ⟨rfl, rfl, rfl⟩
  exact absurd hserved.1 (by decide)

end CcspPandM.Dhcpv6sRestart
