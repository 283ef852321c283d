import CcspPandM.Runs
import CcspPandM.TextSearch

/-!
When the dynamic DNS service is restarted. The client and the host entry are set
one at a time; each setter compares its entry with the copy it stored last, and
looks at the other entry only to see whether both are filled in. Both write
`ddns_host_enable_1`. The entries are those of the data model, client 1 and
host 1, and a set stores the values in the entry before the setter is called.
-/
namespace CcspPandM.DdnsUpdates

open CString Runs TextSearch

section Code

structure COSA_DML_DDNS_CLIENT where
  Enable : Bool
  Server : Buf 256
  Username : Buf 256
  Password : Buf 256
  deriving DecidableEq

structure COSA_DML_DDNS_HOST where
  Enable : Bool
  Name : Buf 256
  Status : BitVec 32
  deriving DecidableEq

structure Settings where
  client : COSA_DML_DDNS_CLIENT
  Enable : Bool
  Name : Buf 256
  deriving DecidableEq

/-- The two entries, the copies stored of them, the keys in syscfg, and the settings the service
was restarted with, the last ones first. -/
structure State where
  pClientEntry : COSA_DML_DDNS_CLIENT
  pHostEntry : COSA_DML_DDNS_HOST
  DDNSclient : COSA_DML_DDNS_CLIENT
  g_DDNSHost : COSA_DML_DDNS_HOST
  dynamic_dns_enable : Option CStr
  ddns_host_enable_1 : CStr
  ddns_host_name_1 : CStr
  ddns_host_status_1 : CStr
  ddns_client_Status : CStr
  restarts : List Settings

def State.settings (s : State) : Settings :=
  ⟨s.pClientEntry, s.pHostEntry.Enable, s.pHostEntry.Name⟩

def HOST_REGISTERED : ℤ := 1

def CLIENT_UPDATED : ℤ := 3

def HOST_DISABLED : BitVec 32 := 5

def duckdns : CStr := "duckdns".toList

def connecting : CStr := "1".toList

def updateNeeded : CStr := "2".toList

def UtGetBool (val : CStr) : Bool := atoi (val.take 63) == 1

def UtSetBool (val : Bool) : CStr := if val then "1".toList else "0".toList

def CosaDmlDynamicDns_GetEnable (s : State) : Bool := s.dynamic_dns_enable.isSome

/-- Both entries are filled in; the password may be missing for duckdns. -/
def bReadyUpdate (s : State) : Bool :=
  s.pClientEntry.Enable && s.pClientEntry.Server.text != [] &&
    s.pClientEntry.Username.text != [] && s.pHostEntry.Enable && s.pHostEntry.Name.text != [] &&
    ((strstr duckdns s.pHostEntry.Name.text).isSome || s.pClientEntry.Password.text != [])

/-- The statuses are reset and the service is restarted, which one of the builds leaves out
while the service is updating. -/
def restart (DDNS_SERVICE_BIN updating : Bool) (s : State) : State :=
  { s with
    ddns_client_Status := connecting
    ddns_host_status_1 := updateNeeded
    restarts := if DDNS_SERVICE_BIN && updating then s.restarts else s.settings :: s.restarts }

def isUserconfChanged (s : State) : Bool :=
  let pEntry := s.pClientEntry
  CosaDmlDynamicDns_GetEnable s && pEntry.Enable &&
      (s.DDNSclient.Username != pEntry.Username || s.DDNSclient.Password != pEntry.Password ||
        s.DDNSclient.Server != pEntry.Server) ||
    atoi (s.ddns_client_Status.take 11) != CLIENT_UPDATED ||
    (UtGetBool s.ddns_host_enable_1 != pEntry.Enable && pEntry.Enable &&
      CosaDmlDynamicDns_GetEnable s)

def CosaDmlDynamicDns_Client_SetConf (DDNS_SERVICE_BIN updating : Bool) (s : State) : State :=
  let stored : State :=
    { s with
      DDNSclient := s.pClientEntry
      ddns_host_enable_1 :=
        if UtGetBool s.ddns_host_enable_1 != s.pClientEntry.Enable then
          UtSetBool s.pClientEntry.Enable
        else s.ddns_host_enable_1 }
  if isUserconfChanged s && bReadyUpdate s then restart DDNS_SERVICE_BIN updating stored
  else stored

def hostOf (s : State) : COSA_DML_DDNS_HOST where
  Enable := UtGetBool s.ddns_host_enable_1
  Name := Buf.snprintf (s.ddns_host_name_1.take 254)
  Status :=
    if s.ddns_host_status_1 = [] then HOST_DISABLED
    else BitVec.ofInt 32 (atoi (s.ddns_host_status_1.take 63))

def CosaDmlDynamicDns_Host_GetEntryByIndex (s : State) : State :=
  { s with g_DDNSHost := hostOf s, pHostEntry := hostOf s }

def CosaDmlDynamicDns_Host_GetConf (s : State) : State := CosaDmlDynamicDns_Host_GetEntryByIndex s

def isHostchanged (s : State) : Bool :=
  s.g_DDNSHost.Enable != s.pHostEntry.Enable || s.g_DDNSHost.Name != s.pHostEntry.Name ||
    atoi (s.ddns_host_status_1.take 1) != HOST_REGISTERED

def CosaDmlDynamicDns_Host_SetConf (DDNS_SERVICE_BIN updating : Bool) (s : State) : State :=
  let pEntry := s.pHostEntry
  let stored : State :=
    { s with
      g_DDNSHost := { s.g_DDNSHost with Enable := pEntry.Enable, Name := pEntry.Name }
      ddns_host_enable_1 :=
        if s.g_DDNSHost.Enable != pEntry.Enable then UtSetBool pEntry.Enable
        else s.ddns_host_enable_1
      ddns_host_name_1 :=
        if s.g_DDNSHost.Name != pEntry.Name then pEntry.Name.text else s.ddns_host_name_1 }
  if bReadyUpdate s && CosaDmlDynamicDns_GetEnable s && pEntry.Enable && isHostchanged s &&
      pEntry.Name.text != [] then
    let reset := restart DDNS_SERVICE_BIN updating stored
    { reset with g_DDNSHost := { reset.g_DDNSHost with Status := 2 } }
  else stored

/-- The calls, and what the service reports. `updating` says whether the file is there by which
the service tells that it is updating. -/
inductive Call where
  | setClient (pEntry : COSA_DML_DDNS_CLIENT) (updating : Bool)
  | setHost (Enable : Bool) (Name : Buf 256) (updating : Bool)
  | getHost
  | report (ddns_client_Status ddns_host_status_1 : CStr)

def entered (s : State) : Call → State
  | .setClient pEntry _ => { s with pClientEntry := pEntry }
  | .setHost Enable Name _ =>
    { s with pHostEntry := { s.pHostEntry with Enable := Enable, Name := Name } }
  | _ => s

def step (DDNS_SERVICE_BIN : Bool) (s : State) (c : Call) : Option State :=
  match c with
  | .setClient _ updating =>
    some (CosaDmlDynamicDns_Client_SetConf DDNS_SERVICE_BIN updating (entered s c))
  | .setHost _ _ updating =>
    some (CosaDmlDynamicDns_Host_SetConf DDNS_SERVICE_BIN updating (entered s c))
  | .getHost => some (CosaDmlDynamicDns_Host_GetConf s)
  | .report client host =>
    some { s with ddns_client_Status := client, ddns_host_status_1 := host }

end Code

section Purpose

structure Settings.Complete (p : Settings) : Prop where
  client : p.client.Enable = true
  host : p.Enable = true
  server : p.client.Server.text ≠ []
  user : p.client.Username.text ≠ []
  name : p.Name.text ≠ []
  password : duckdns <:+: p.Name.text ∨ p.client.Password.text ≠ []

structure Restarted (s t : State) : Prop where
  restarts : t.restarts = t.settings :: s.restarts
  client : t.ddns_client_Status = connecting
  host : t.ddns_host_status_1 = updateNeeded

def Call.isSet : Call → Bool
  | .setClient _ _ => true
  | .setHost _ _ _ => true
  | _ => false

/-- A set that leaves complete settings the service does not have restarts it, and no call
restarts it with other ones than complete ones. -/
structure Right (s : State) (c : Call) (t : State) : Prop where
  restarted : c.isSet = true → t.settings.Complete → s.restarts.head? ≠ some t.settings →
    Restarted s t
  complete : t.restarts ≠ s.restarts → t.settings.Complete

/-- A change that the setter can see: the client has not reported an update, or other values than
the stored ones are set, or the key that both setters write is off; and likewise for the host. -/
def Seen (s : State) : Call → Prop
  | .setClient pEntry _ =>
    atoi (s.ddns_client_Status.take 11) ≠ CLIENT_UPDATED ∨
      s.dynamic_dns_enable.isSome = true ∧
        (s.pClientEntry.Username ≠ pEntry.Username ∨ s.pClientEntry.Password ≠ pEntry.Password ∨
          s.pClientEntry.Server ≠ pEntry.Server ∨ UtGetBool s.ddns_host_enable_1 = false)
  | .setHost Enable Name _ =>
    s.dynamic_dns_enable.isSome = true ∧
      (atoi (s.ddns_host_status_1.take 1) ≠ HOST_REGISTERED ∨ s.pHostEntry.Enable ≠ Enable ∨
        s.pHostEntry.Name ≠ Name)
  | _ => True

def Call.updating : Call → Bool
  | .setClient _ updating => updating
  | .setHost _ _ updating => updating
  | _ => false

/-- A set of complete settings that the service does not have is one that its setter sees, and
the restart is not left out. -/
def Fits (DDNS_SERVICE_BIN : Bool) (s : State) (c : Call) : Prop :=
  c.isSet = true → (entered s c).settings.Complete →
    s.restarts.head? ≠ some (entered s c).settings →
      Seen s c ∧ (DDNS_SERVICE_BIN && c.updating) = false

structure Synced (s : State) : Prop where
  client : s.DDNSclient = s.pClientEntry
  enable : s.g_DDNSHost.Enable = s.pHostEntry.Enable
  name : s.g_DDNSHost.Name = s.pHostEntry.Name

end Purpose

section Steps

variable {DDNS_SERVICE_BIN : Bool} {s t : State}

theorem bReadyUpdate_iff (s : State) : bReadyUpdate s = true ↔ s.settings.Complete := by
  simp only [bReadyUpdate, Bool.and_eq_true, Bool.or_eq_true, bne_iff_ne, strstr_isSome]
  constructor
  · rintro ⟨⟨⟨⟨⟨hclient, hserver⟩, huser⟩, hhost⟩, hname⟩, hpassword⟩
    exact ⟨hclient, hhost, hserver, huser, hname, hpassword⟩
  · intro h
    exact ⟨⟨⟨⟨⟨h.client, h.server⟩, h.user⟩, h.host⟩, h.name⟩, h.password⟩

theorem settings_setConf (c : Call) (hset : c.isSet = true)
    (ht : step DDNS_SERVICE_BIN s c = some t) : t.settings = (entered s c).settings := by
  cases c with
  | setClient pEntry updating =>
    rw [← Option.some.inj ht, CosaDmlDynamicDns_Client_SetConf]
    split <;> rfl
  | setHost Enable Name updating =>
    rw [← Option.some.inj ht, CosaDmlDynamicDns_Host_SetConf]
    dsimp only
    split <;> rfl
  | getHost => cases hset
  | report client host => cases hset

theorem synced_step (hs : Synced s) (c : Call) (ht : step DDNS_SERVICE_BIN s c = some t) :
    Synced t := by
  cases c with
  | setClient pEntry updating =>
    rw [← Option.some.inj ht, CosaDmlDynamicDns_Client_SetConf]
    split
    · exact ⟨rfl, hs.enable, hs.name⟩
    · exact ⟨rfl, hs.enable, hs.name⟩
  | setHost Enable Name updating =>
    rw [← Option.some.inj ht, CosaDmlDynamicDns_Host_SetConf]
    dsimp only
    split
    · exact ⟨hs.client, rfl, rfl⟩
    · exact ⟨hs.client, rfl, rfl⟩
  | getHost =>
    rw [← Option.some.inj ht]
    exact ⟨hs.client, rfl, rfl⟩
  | report client host =>
    rw [← Option.some.inj ht]
    exact ⟨hs.client, hs.enable, hs.name⟩

theorem isUserconfChanged_iff (hs : Synced s) {pEntry : COSA_DML_DDNS_CLIENT} (updating : Bool)
    (hon : pEntry.Enable = true) :
    isUserconfChanged (entered s (.setClient pEntry updating)) = true ↔
      Seen s (.setClient pEntry updating) := by
  simp only [isUserconfChanged, entered, Seen, CosaDmlDynamicDns_GetEnable, hs.client, hon,
    Bool.or_eq_true, Bool.and_eq_true, bne_iff_ne, Bool.and_true, ne_eq, Bool.not_eq_true]
  tauto

theorem isHostchanged_iff (hs : Synced s) (Enable : Bool) (Name : Buf 256) (updating : Bool) :
    (CosaDmlDynamicDns_GetEnable s = true ∧
        isHostchanged (entered s (.setHost Enable Name updating)) = true) ↔
      Seen s (.setHost Enable Name updating) := by
  simp only [isHostchanged, entered, Seen, CosaDmlDynamicDns_GetEnable, hs.enable, hs.name,
    Bool.or_eq_true, bne_iff_ne]
  tauto

theorem restarted_restart_iff (s u : State) (updating : Bool) (hsame : u.restarts = s.restarts) :
    Restarted s (restart DDNS_SERVICE_BIN updating u) ↔ (DDNS_SERVICE_BIN && updating) = false := by
  constructor
  · intro h
    cases hleft : DDNS_SERVICE_BIN && updating with
    | false => rfl
    | true =>
      have hrestarts := congrArg List.length h.restarts
      rw [restart, hleft, if_pos rfl, hsame, List.length_cons] at hrestarts
      omega
  · intro hleft
    refine ⟨?_, rfl, rfl⟩
    rw [restart, hleft, if_neg Bool.false_ne_true, hsame]
    rfl

theorem restarted_status_iff (s u : State) (g : COSA_DML_DDNS_HOST) :
    Restarted s { u with g_DDNSHost := g } ↔ Restarted s u :=
  ⟨fun h => ⟨h.restarts, h.client, h.host⟩, fun h => ⟨h.restarts, h.client, h.host⟩⟩

theorem not_restarted (hsame : t.restarts = s.restarts) : ¬ Restarted s t := by
  intro h
  have hrestarts := congrArg List.length h.restarts
  rw [hsame, List.length_cons] at hrestarts
  omega

variable {c : Call}

theorem restarted_iff (hs : Synced s) (hset : c.isSet = true)
    (ht : step DDNS_SERVICE_BIN s c = some t) (hcomplete : (entered s c).settings.Complete) :
    Restarted s t ↔ Seen s c ∧ (DDNS_SERVICE_BIN && c.updating) = false := by
  have hready := (bReadyUpdate_iff _).mpr hcomplete
  cases c with
  | setClient pEntry updating =>
    have hon : pEntry.Enable = true := hcomplete.client
    have hseen := isUserconfChanged_iff hs updating hon
    rw [← Option.some.inj ht, CosaDmlDynamicDns_Client_SetConf, hready, Bool.and_true, ← hseen]
    split
    · next hchanged =>
      rw [and_iff_right hchanged]
      apply restarted_restart_iff
      rfl
    · next hchanged =>
      exact iff_of_false (not_restarted rfl) fun h => hchanged h.1
  | setHost Enable Name updating =>
    have hseen := isHostchanged_iff hs Enable Name updating
    have hname : (entered s (.setHost Enable Name updating)).pHostEntry.Name.text ≠ [] :=
      hcomplete.name
    have hon : (entered s (.setHost Enable Name updating)).pHostEntry.Enable = true :=
      hcomplete.host
    rw [← Option.some.inj ht, CosaDmlDynamicDns_Host_SetConf, ← hseen]
    dsimp only
    rw [hready, hon, bne_iff_ne.mpr hname]
    simp only [Bool.true_and, Bool.and_true, Bool.and_eq_true]
    split
    · next hchanged =>
      refine Iff.trans ?_ (and_iff_right hchanged).symm
      rw [restarted_status_iff]
      apply restarted_restart_iff
      rfl
    · next hchanged =>
      exact iff_of_false (not_restarted rfl) fun h => hchanged h.1
  | getHost => cases hset
  | report client host => cases hset

theorem restarts_of_incomplete (ht : step DDNS_SERVICE_BIN s c = some t)
    (hnot : ¬ (entered s c).settings.Complete) : t.restarts = s.restarts := by
  have hready : bReadyUpdate (entered s c) = false :=
    Bool.eq_false_iff.mpr fun h => hnot ((bReadyUpdate_iff _).mp h)
  cases c with
  | setClient pEntry updating =>
    rw [← Option.some.inj ht, CosaDmlDynamicDns_Client_SetConf, hready, Bool.and_false,
      if_neg Bool.false_ne_true]
    rfl
  | setHost Enable Name updating =>
    rw [← Option.some.inj ht, CosaDmlDynamicDns_Host_SetConf, hready]
    simp only [Bool.false_and]
    rw [if_neg Bool.false_ne_true]
    rfl
  | getHost =>
    rw [← Option.some.inj ht]
    rfl
  | report client host =>
    rw [← Option.some.inj ht]

theorem right_iff (hs : Synced s) (ht : step DDNS_SERVICE_BIN s c = some t) :
    Right s c t ↔ Fits DDNS_SERVICE_BIN s c := by
  by_cases hset : c.isSet = true
  · have hsettings := settings_setConf c hset ht
    constructor
    · intro h _ hcomplete hnew
      rw [← hsettings] at hnew
      exact (restarted_iff hs hset ht hcomplete).mp
        (h.restarted hset (hsettings ▸ hcomplete) hnew)
    · intro h
      refine ⟨fun _ hcomplete hnew => ?_, fun hne => ?_⟩
      · rw [hsettings] at hcomplete hnew
        exact (restarted_iff hs hset ht hcomplete).mpr (h hset hcomplete hnew)
      · rw [hsettings]
        by_contra hnot
        exact hne (restarts_of_incomplete ht hnot)
  · refine iff_of_true ⟨fun h => absurd h hset, fun hne => ?_⟩ fun h => absurd h hset
    exfalso
    cases c with
    | setClient pEntry updating => exact hset rfl
    | setHost Enable Name updating => exact hset rfl
    | getHost =>
      rw [← Option.some.inj ht] at hne
      exact hne rfl
    | report client host =>
      rw [← Option.some.inj ht] at hne
      exact hne rfl

end Steps

/-- From entries that agree with their stored copies, a run of the calls does what it should just
where each set of complete settings that the service does not have is seen by its setter. -/
theorem ddns_updates_iff (DDNS_SERVICE_BIN : Bool) {s : State} (hs : Synced s)
    (calls : List Call) :
    Does (step DDNS_SERVICE_BIN) Right s calls ↔
      StepsMeet (step DDNS_SERVICE_BIN) (Fits DDNS_SERVICE_BIN) s calls := by
  refine @does_iff _ _ (step DDNS_SERVICE_BIN) Right (fun _ _ => True) (Fits DDNS_SERVICE_BIN)
    Synced ?_ ?_ s calls hs (stepsMeet_true _ s calls)
  · intro s c hs _
    constructor
    · rintro ⟨t, ht, hright⟩
      exact (right_iff hs ht).mp hright
    · intro hfits
      have htotal : ∃ t, step DDNS_SERVICE_BIN s c = some t := by
        cases c <;> exact ⟨_, rfl⟩
      obtain ⟨t, ht⟩ := htotal
      exact ⟨t, ht, (right_iff hs ht).mpr hfits⟩
  · intro s c t hs _ _ ht
    exact synced_step hs c ht

def noHost : COSA_DML_DDNS_HOST := ⟨false, Buf.empty, HOST_DISABLED⟩

def clientOf (Enable : Bool) (user : CStr) : COSA_DML_DDNS_CLIENT where
  Enable := Enable
  Server := Buf.snprintf "Device.DynamicDNS.Server.1".toList
  Username := Buf.snprintf user
  Password := Buf.snprintf "secret".toList

def fresh : State where
  pClientEntry := clientOf false []
  pHostEntry := noHost
  DDNSclient := clientOf false []
  g_DDNSHost := noHost
  dynamic_dns_enable := some "1".toList
  ddns_host_enable_1 := "0".toList
  ddns_host_name_1 := []
  ddns_host_status_1 := updateNeeded
  ddns_client_Status := connecting
  restarts := []

def home : Buf 256 := Buf.snprintf "home.no-ip.com".toList

/-- The user name is changed while the client is off, and the host is switched off and on before
the client is switched on again. -/
def forgotten : List Call :=
  [.setHost true home false, .setClient (clientOf true ['a']) false, .report ['3'] ['1'],
    .setClient (clientOf false ['b']) false, .setHost false home false,
    .setHost true home false, .setClient (clientOf true ['b']) false]

theorem ddns_updates_fresh : Does (step true) Right fresh forgotten ↔
    StepsMeet (step true) (Fits true) fresh forgotten :=
  ddns_updates_iff true ⟨rfl, rfl, rfl⟩ forgotten

/-- The new user name is forgotten. -/
theorem user_forgotten : ¬ ∀ calls, Does (step false) Right fresh calls := by
  intro h
  obtain ⟨t₁, h₁, -, t₂, h₂, -, t₃, h₃, -, t₄, h₄, -, t₅, h₅, -, t₆, h₆, -, t₇, h₇, hright, -⟩ :=
    h forgotten
  obtain rfl := Option.some.inj h₁
  obtain rfl := Option.some.inj h₂
  obtain rfl := Option.some.inj h₃
  obtain rfl := Option.some.inj h₄
  obtain rfl := Option.some.inj h₅
  obtain rfl := Option.some.inj h₆
  obtain rfl := Option.some.inj h₇
  have hcomplete : Settings.Complete ⟨clientOf true ['b'], true, home⟩ :=
    ⟨rfl, rfl, by decide, by decide, by decide, Or.inr (by decide)⟩
  have hrestarts := (hright.restarted rfl hcomplete (by decide)).restarts
  exact absurd (congrArg List.length hrestarts) (by decide)

end CcspPandM.DdnsUpdates
