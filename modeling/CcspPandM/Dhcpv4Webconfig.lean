import CcspPandM.Dhcpv4Cache
import CcspPandM.SubdocDecoders

/-!
The static-clients and the LAN request with their rollbacks. The backup keeps
only keys that are not empty; the rollback writes it back, and for static
clients clears the hosts between the number of backed-up and the number of
received records. Reads, writes and commits of a request fail arbitrarily.
-/
namespace CcspPandM.Dhcpv4Webconfig

open CString KeyStore FaultyStore Syscfg InetText SubdocDecoders Ipv4Addr Dhcpv4Cache

def dhcpv4NumStaticHosts : CStr := "dhcp_num_static_hosts".toList

def dhcpv4StaticHost (i : ℕ) : CStr := "dhcp_static_host_".toList ++ decimal i

def dhcpv4StaticHostsInsNum (i : ℕ) : CStr := "dhcp_static_host_insNum_".toList ++ decimal i

def dhcpv4StaticHostAlias (i : ℕ) : CStr := "dhcp_static_host_alias_".toList ++ decimal i

def dhcpv4CommentsLanClients (i : ℕ) : CStr := "lan_clients_".toList ++ decimal i

/-- Host i: its record, whose text up to the first comma names the comment
record, and the keys that belong to it. -/
def backupHost (faults : Faults) (i : ℕ) (pCache : List CacheParam) (sc : SyscfgState) :
    Option (List CacheParam × SyscfgState) := do
  let (val, pCache, sc) ← backupParam faults (Buf.snprintf (dhcpv4StaticHost i)) pCache sc
  let hostInfo := val.takeWhile (· ≠ ',')
  backupParams faults [Buf.sprintf_s (dhcpv4StaticHostsInsNum i),
    Buf.sprintf_s (dhcpv4StaticHostAlias i), Buf.snprintf (dhcpv4CommentsLanClients i),
    Buf.sprintf_s ("lan_clients_mac_".toList ++ hostInfo)] pCache sc

def backupHosts (faults : Faults) (i : ℕ) : ℕ → List CacheParam → SyscfgState →
    Option (List CacheParam × SyscfgState)
  | 0, pCache, sc => some (pCache, sc)
  | n + 1, pCache, sc => do
    let (pCache, sc) ← backupHost faults i pCache sc
    backupHosts faults (i + 1) n pCache sc

def dhcpv4StaticClientsBackupFromDb (faults : Faults) (sc : SyscfgState) :
    Option (List CacheParam × SyscfgState) := do
  let (val, pCache, sc) ← backupParam faults (Buf.snprintf dhcpv4NumStaticHosts) [] sc
  let numOfHost := atoi val
  let (pCache, sc) ← backupHosts faults 1 numOfHost.toNat pCache sc
  backupParams faults [Buf.snprintf "lan_clients_count".toList] pCache sc

def hostParams (i : ℕ) (e : Macdoc) : Option (List CacheParam) := do
  let chaddr ← e.chaddr
  let yiaddr ← e.yiaddr
  some [⟨Buf.snprintf (dhcpv4StaticHost i), Buf.snprintf (chaddr ++ ',' :: yiaddr ++ [','])⟩,
    ⟨Buf.snprintf (dhcpv4StaticHostsInsNum i), Buf.snprintf (decimal i)⟩,
    ⟨Buf.snprintf (dhcpv4StaticHostAlias i), Buf.snprintf ("StaticAddress".toList ++ decimal i)⟩]

def hostsParams : ℕ → List Macdoc → Option (List CacheParam)
  | _, [] => some []
  | i, e :: rest => do
    let params ← hostParams i e
    let others ← hostsParams (i + 1) rest
    some (params ++ others)

def dhcpv4StaticClientsUpdateConfToCache (pConf : List Macdoc) : Option (List CacheParam) := do
  let hosts ← hostsParams 1 pConf
  let pCache := ⟨Buf.snprintf dhcpv4NumStaticHosts, Buf.snprintf (decimal pConf.length)⟩ :: hosts
  if pCache.length ≤ dhcpv4CacheMaxNumOfParam then some pCache else none

/-- The keys of the hosts counted from the number of backed-up records to the
number of received ones. -/
def notUsedKeys (numOfNewlyReceivedParam numOfBackupParam : ℕ) : List CStr :=
  (List.range' numOfBackupParam (numOfNewlyReceivedParam - numOfBackupParam)).flatMap (fun index =>
    [(Buf.snprintf (dhcpv4StaticHost (index + 1)) : Buf 64).text,
      (Buf.snprintf (dhcpv4StaticHostAlias (index + 1)) : Buf 64).text,
      (Buf.snprintf (dhcpv4StaticHostsInsNum (index + 1)) : Buf 64).text])

def dhcpv4StaticClientsUnsetNotUsedParamFromDb (faults : Faults)
    (numOfNewlyReceivedParam numOfBackupParam : ℕ) (sc : SyscfgState) : Ret × SyscfgState :=
  if numOfNewlyReceivedParam ≤ numOfBackupParam then (.minusOne, sc)
  else
    let r := unsetLoop faults (notUsedKeys numOfNewlyReceivedParam numOfBackupParam) sc
    if r.1 then
      let c := syscfg_commit faults r.2
      (if c.1 then .zero else .code .SYSCFG_FAILURE, c.2)
    else (.code .SYSCFG_FAILURE, r.2)

/-- The common end of both requests: what was backed up is cleared, the records
of the document are written, the data model is synchronized. -/
def replaceParams (faults : Faults) (synchronized : Bool) (update : Option (List CacheParam))
    (bkup : List CacheParam) (sc : SyscfgState) : Option (Err × Dhcpv4State) :=
  let u := dhcpv4UnsetAllDbValues faults bkup sc
  if u.1 = .code .SYSCFG_FAILURE then
    some (⟨.SYSCFG_FAILURE, "sysconfig failure while clearing entries".toList⟩, ⟨bkup, 0, u.2⟩)
  else do
    let cache_temp ← update
    let a := dhcpv4CacheApplyAllToDb faults cache_temp u.2
    let err : Err :=
      if a.1 = .code .SYSCFG_FAILURE then
        ⟨.SYSCFG_FAILURE, "sysconfig failure while applying into db".toList⟩
      else if synchronized then ⟨.BLOB_EXEC_SUCCESS, []⟩
      else ⟨.COSA_SYNCHRONIZE_FAILED, "Sync with Cosa object failure".toList⟩
    some (err, ⟨bkup, cache_temp.length, a.2⟩)

def isxdigit (c : Char) : Bool := (hexValue c).isSome

def checkMacHasValidCharacter : ℕ → CStr → Bool
  | 0, [a, b] => isxdigit a && isxdigit b
  | n + 1, a :: b :: ':' :: rest => isxdigit a && isxdigit b && checkMacHasValidCharacter n rest
  | _, _ => false

def validateMac (physAddress : Option CStr) : Bool :=
  match physAddress with
  | some t => t != "00:00:00:00:00:00".toList && t.length == 17 && checkMacHasValidCharacter 5 t
  | none => false

section Validate

variable (ansc_inet_addr : CStr → Addr)

def checkStaticClientIpIsValid (faults : Faults) (ipAddress : Option CStr) (sc : SyscfgState) :
    Ret × SyscfgState :=
  if checkIpIsValid ipAddress then
    let static_ip := ansc_inet_addr (ipAddress.getD [])
    let r := syscfg_get (n := 24) faults "dhcp_start".toList sc
    let dhcp_start := if r.1 then ansc_inet_addr r.2.1.text else 0
    let e := syscfg_get (n := 24) faults "dhcp_end".toList r.2.2
    let dhcp_end := if e.1 then ansc_inet_addr e.2.1.text else 0
    (if dhcp_end = 0 ∨ dhcp_start = 0 then .zero
      else if ntohl static_ip < ntohl dhcp_start ∨ ntohl dhcp_end < ntohl static_ip then
        .code .STATIC_IP_NOT_IN_LANRANGE
      else .zero, e.2.2)
  else (.code .INVALID_IP, sc)

def validateHosts (faults : Faults) : List Macdoc → SyscfgState → Ret × SyscfgState
  | [], sc => (.zero, sc)
  | e :: rest, sc =>
    let r := checkStaticClientIpIsValid ansc_inet_addr faults e.yiaddr sc
    if r.1 = .zero then
      if validateMac e.chaddr then validateHosts faults rest r.2 else (.code .INVALID_MAC, r.2)
    else r

def dhcpv4StaticClientsValidate (faults : Faults) (pConf : List Macdoc) (sc : SyscfgState) :
    Ret × SyscfgState :=
  if pConf = [] then (.code .EMPTY_BLOB, sc)
  else validateHosts ansc_inet_addr faults pConf sc

def clearParams (faults : Faults) (synchronized : Bool) (bkup : List CacheParam)
    (sc : SyscfgState) : Err × Dhcpv4State :=
  let u := dhcpv4UnsetAllDbValues faults bkup sc
  let err : Err :=
    if u.1 = .code .SYSCFG_FAILURE then
      ⟨.SYSCFG_FAILURE, "sysconfig failure while clearing entries".toList⟩
    else if synchronized then ⟨.BLOB_EXEC_SUCCESS, []⟩
    else ⟨.COSA_SYNCHRONIZE_FAILED, "Sync with Cosa Object failure".toList⟩
  (err, ⟨bkup, 0, u.2⟩)

def processStaticClientsWebConfigRequest (faults : Faults) (synchronized : Bool)
    (pMacConf : List Macdoc) (s : Dhcpv4State) : Option (Err × Dhcpv4State) :=
  let b := bridgeMode faults s.sc
  if b.1 then
    some (⟨.VALIDATION_FALIED, "MacBinding Blob Not supported in bridge mode".toList⟩,
      { s with sc := b.2 })
  else
    let v := dhcpv4StaticClientsValidate ansc_inet_addr faults pMacConf b.2
    match v.1 with
    | .code .EMPTY_BLOB => do
      let (bkup, sc) ← dhcpv4StaticClientsBackupFromDb faults v.2
      some (clearParams faults synchronized bkup sc)
    | .zero => do
      let (bkup, sc) ← dhcpv4StaticClientsBackupFromDb faults v.2
      replaceParams faults synchronized (dhcpv4StaticClientsUpdateConfToCache pMacConf) bkup sc
    | ret => some (⟨.VALIDATION_FALIED, convertErrCodeToErrMsg ret⟩, ⟨[], 0, v.2⟩)

end Validate

def rollbackStaticClients (faults : Faults) (synchronized : Bool) (s : Dhcpv4State) :
    Bool × Dhcpv4State :=
  let a := dhcpv4CacheApplyAllToDb faults s.g_dhcpv4bkup_cache s.sc
  let u := dhcpv4StaticClientsUnsetNotUsedParamFromDb faults s.g_numOfReceivedParam
    s.g_dhcpv4bkup_cache.length a.2
  (synchronized, { s with sc := u.2 })

structure Landoc where
  entries_count : ℕ
  param : Option Lanparam

def lanKeys : List CStr :=
  ["lan_ipaddr", "lan_netmask", "dhcp_server_enabled", "dhcp_start", "dhcp_end",
    "dhcp_lease_time"].map String.toList

def dhcpv4LanBackupFromDb (faults : Faults) (sc : SyscfgState) :
    Option (List CacheParam × SyscfgState) :=
  backupParams faults (lanKeys.map Buf.snprintf) [] sc

def dhcpv4LanUpdateConfToCache (pConf : Landoc) : Option (List CacheParam) := do
  let param ← pConf.param
  let lan_ip_address ← param.lan_ip_address
  let lan_subnet_mask ← param.lan_subnet_mask
  let dhcp_start_ip_address ← param.dhcp_start_ip_address
  let dhcp_end_ip_address ← param.dhcp_end_ip_address
  some (List.zipWith (fun cmd val => ⟨Buf.snprintf cmd, Buf.snprintf val⟩) lanKeys
    [lan_ip_address, lan_subnet_mask, if param.dhcp_server_enable then ['1'] else ['0'],
      dhcp_start_ip_address, dhcp_end_ip_address, decimal param.leasetime.toNat])

def dhcpv4LanIpIspublicAddr (addr : Addr) : Bool :=
  !(decide (0x0A000000 ≤ addr ∧ addr ≤ 0x0AFFFFFF) ||
    decide (0xAC100000 ≤ addr ∧ addr ≤ 0xAC1FFFFF) ||
    decide (0xC0A80000 ≤ addr ∧ addr ≤ 0xC0A8FFFF))

def dhcpv4LanCheckIsValidLeaseTime (leasetime : BitVec 32) : Bool :=
  leasetime % 604800 == 0 || leasetime % 86400 == 0 || leasetime % 3600 == 0 ||
    leasetime % 60 == 0 || decide (120 ≤ leasetime ∧ leasetime ≤ 999) || leasetime == 0xffffffff

def dhcpv4LanCheckIpIsValidUnicast (gw mask ipaddr : Addr) : Bool :=
  let subnet := gw &&& mask
  let bcast := subnet ||| ~~~mask
  !(ipaddr == 0 || decide (0xE0000000 ≤ ipaddr) || ipaddr &&& 0xFF000000 == 0x7F000000) &&
    !(decide (ipaddr ≤ subnet) || decide (bcast ≤ ipaddr) || ipaddr == gw)

section Validate

variable (ansc_inet_addr : CStr → Addr)

def getLanParametersValidityCheckStatus (pLanParam : Lanparam) : Ret :=
  match pLanParam.dhcp_start_ip_address, pLanParam.dhcp_end_ip_address, pLanParam.lan_ip_address,
      pLanParam.lan_subnet_mask with
  | some start_ip, some end_ip, some lan_ip, some subnet_mask =>
    let minaddr := ntohl (ansc_inet_addr start_ip)
    let maxaddr := ntohl (ansc_inet_addr end_ip)
    let gateway := ntohl (ansc_inet_addr lan_ip)
    let netmask := ntohl (ansc_inet_addr subnet_mask)
    if !checkIpIsValid lan_ip then .code .LAN_PARAM_GATEWAY_IP_INVALID
    else if !checkIpIsValid start_ip || !checkIpIsValid end_ip then
      .code .LAN_PARAM_IP_RANGE_INVALID
    else if maxaddr < minaddr then .code .LAN_PARAM_IP_RANGE_INVALID
    else if dhcpv4LanIpIspublicAddr gateway then .code .LAN_PARAM_GATEWAY_IP_INVALID
    else if gateway &&& 0x000000FF ≠ 1 then .code .LAN_PARAM_GATEWAY_IP_INVALID
    else if netmask = 0 ∨ netmask = 0xFFFFFFFF then .code .LAN_PARAM_NETMASK_INVALID
    else if !dhcpv4LanCheckIpIsValidUnicast gateway netmask minaddr ||
        !dhcpv4LanCheckIpIsValidUnicast gateway netmask maxaddr then
      .code .LAN_PARAM_IP_RANGE_INVALID
    else if !dhcpv4LanCheckIsValidLeaseTime pLanParam.leasetime then
      .code .LAN_PARAM_LEASETIME_INVALID
    else .zero
  | _, _, _, _ => .minusOne

def dhcpv4LanValidate (pConf : Landoc) : Ret :=
  match pConf.entries_count, pConf.param with
  | _ + 1, some param => getLanParametersValidityCheckStatus ansc_inet_addr param
  | _, _ => .code .EMPTY_BLOB

def processLanWebConfigRequest (faults : Faults) (synchronized : Bool) (pLanConf : Landoc)
    (s : Dhcpv4State) : Option (Err × Dhcpv4State) :=
  let b := bridgeMode faults s.sc
  if b.1 then
    some (⟨.VALIDATION_FALIED, "Lan Blob Not supported in bridge mode".toList⟩,
      { s with sc := b.2 })
  else
    match dhcpv4LanValidate ansc_inet_addr pLanConf with
    | .zero => do
      let (bkup, sc) ← dhcpv4LanBackupFromDb faults b.2
      replaceParams faults synchronized (dhcpv4LanUpdateConfToCache pLanConf) bkup sc
    | ret => some (⟨.VALIDATION_FALIED, convertErrCodeToErrMsg ret⟩, ⟨[], 0, b.2⟩)

end Validate

def rollbackLan (faults : Faults) (synchronized : Bool) (s : Dhcpv4State) : Bool × Dhcpv4State :=
  let a := dhcpv4CacheApplyAllToDb faults s.g_dhcpv4bkup_cache s.sc
  (synchronized, { s with sc := a.2 })

variable {faults : Faults}

theorem backupHosts_db {i n : ℕ} {pCache pCache' : List CacheParam}
    {sc sc' : SyscfgState} (h : backupHosts faults i n pCache sc = some (pCache', sc')) :
    sc'.db = sc.db := by
  induction n generalizing i pCache sc with
  | zero =>
    rw [backupHosts, Option.some.injEq, Prod.mk.injEq] at h
    rw [h.2]
  | succ n ih =>
    simp only [backupHosts, backupHost, Option.bind_eq_bind, Option.bind_eq_some_iff] at h
    obtain ⟨⟨pCache₁, sc₁⟩, ⟨⟨val, pCache₂, sc₂⟩, h₂, h₁⟩, h⟩ := h
    rw [ih h, backupParams_db h₁, backupParam_db h₂]

theorem dhcpv4StaticClientsBackupFromDb_db {pCache : List CacheParam}
    {sc sc' : SyscfgState} (h : dhcpv4StaticClientsBackupFromDb faults sc = some (pCache, sc')) :
    sc'.db = sc.db := by
  simp only [dhcpv4StaticClientsBackupFromDb, Option.bind_eq_bind, Option.bind_eq_some_iff] at h
  obtain ⟨⟨val, pCache₁, sc₁⟩, h₁, ⟨pCache₂, sc₂⟩, h₂, h⟩ := h
  rw [backupParams_db h, backupHosts_db h₂, backupParam_db h₁]

variable (ansc_inet_addr : CStr → Addr)

theorem validateHosts_db (faults : Faults) (pConf : List Macdoc)
    (sc : SyscfgState) : (validateHosts ansc_inet_addr faults pConf sc).2.db = sc.db := by
  have hcheck : ∀ (ip : Option CStr) (sc : SyscfgState),
      (checkStaticClientIpIsValid ansc_inet_addr faults ip sc).2.db = sc.db := by
    intro ip sc
    unfold checkStaticClientIpIsValid
    split
    · rw [syscfg_get_db, syscfg_get_db]
    · rfl
  induction pConf generalizing sc with
  | nil => rfl
  | cons e rest ih =>
    rw [validateHosts]
    split
    · split
      · rw [ih, hcheck]
      · exact hcheck _ _
    · exact hcheck _ _

theorem dhcpv4StaticClientsValidate_db (faults : Faults)
    (pConf : List Macdoc) (sc : SyscfgState) :
    (dhcpv4StaticClientsValidate ansc_inet_addr faults pConf sc).2.db = sc.db := by
  unfold dhcpv4StaticClientsValidate
  split
  · rfl
  · exact validateHosts_db ansc_inet_addr faults pConf sc

/-- When the round from a backup to its rollback is undone: with a failed
clearing by the backup alone, else with the records written before a call
failed and the unused keys cleared. -/
def ReplaceUndoable (faults : Faults) (start : ℕ) (bkup : List CacheParam)
    (update : Option (List CacheParam)) (unused : ℕ → ℕ → List CStr)
    (db : Store CStr CStr) : Prop :=
  (¬ ClearSucceeds faults start bkup.length → Undoable (records bkup) [] [] db) ∧
    (ClearSucceeds faults start bkup.length → ∀ recs, update = some recs →
      Undoable (records bkup) ((records recs).take
        (leading faults (afterClear start bkup.length) recs.length))
        (unused recs.length bkup.length) db)

variable {err : Err}

theorem replaceParams_undone_iff {synchronized : Bool}
    {update : Option (List CacheParam)} {bkup : List CacheParam} {sc : SyscfgState}
    {s₁ : Dhcpv4State} (h : replaceParams faults synchronized update bkup sc = some (err, s₁))
    {unused : ℕ → ℕ → List CStr} (hunused : ∀ n, unused 0 n = []) :
    unsetAll (unused s₁.g_numOfReceivedParam s₁.g_dhcpv4bkup_cache.length)
      (setAll (records s₁.g_dhcpv4bkup_cache) s₁.sc.db) = sc.db ↔
      ReplaceUndoable faults sc.calls bkup update unused sc.db := by
  obtain ⟨n, calls, hstate, hok, hcalls⟩ := dhcpv4UnsetAllDbValues_eq faults bkup sc
  have hgone : ∀ k ∈ (keys (records bkup)).take n, k ∈ keys (records bkup) :=
    fun k hk => List.mem_of_mem_take hk
  unfold replaceParams at h
  dsimp only at h
  rw [hstate] at h
  split at h
  · next hfail =>
    have hno : ¬ ClearSucceeds faults sc.calls bkup.length := fun hs => hok.mpr hs hfail
    rw [Option.some.injEq, Prod.mk.injEq] at h
    rw [← h.2]
    dsimp only
    rw [hunused, ReplaceUndoable]
    have hiff := restore_clear_eq_iff (records bkup) [] _ [] sc.db hgone
    rw [setAll_nil] at hiff
    rw [hiff]
    constructor
    · intro hu
      exact ⟨fun _ => hu, fun hs => absurd hs hno⟩
    · intro hu
      exact hu.1 hno
  · next hclear =>
    have hs := hok.mp hclear
    simp only [Option.bind_eq_bind, Option.bind_eq_some_iff, Option.some.injEq,
      Prod.mk.injEq] at h
    obtain ⟨recs, hrecs, -, rfl⟩ := h
    obtain ⟨calls', happly⟩ := dhcpv4CacheApplyAllToDb_eq faults recs
      ⟨unsetAll ((keys (records bkup)).take n) sc.db, calls⟩
    rw [happly, hcalls hs]
    dsimp only
    rw [restore_clear_eq_iff _ _ _ _ _ hgone, ReplaceUndoable]
    constructor
    · intro hu
      refine ⟨fun hno => absurd hs hno, fun _ recs' hrecs' => ?_⟩
      rw [hrecs, Option.some.injEq] at hrecs'
      rw [← hrecs']
      exact hu
    · intro hu
      exact hu.2 hs recs hrecs

theorem rollbackStaticClients_noFaults (synchronized : Bool) (s : Dhcpv4State) :
    (rollbackStaticClients noFaults synchronized s).2.sc.db =
      unsetAll (notUsedKeys s.g_numOfReceivedParam s.g_dhcpv4bkup_cache.length)
        (setAll (records s.g_dhcpv4bkup_cache) s.sc.db) := by
  rw [← dhcpv4CacheApplyAllToDb_noFaults]
  change (dhcpv4StaticClientsUnsetNotUsedParamFromDb noFaults s.g_numOfReceivedParam
    s.g_dhcpv4bkup_cache.length _).2.db = _
  unfold dhcpv4StaticClientsUnsetNotUsedParamFromDb
  split
  · next hle =>
    rw [notUsedKeys, Nat.sub_eq_zero_of_le hle]
    rfl
  · obtain ⟨hok, hdb⟩ := unsetLoop_noFaults_db
      (notUsedKeys s.g_numOfReceivedParam s.g_dhcpv4bkup_cache.length)
      (dhcpv4CacheApplyAllToDb noFaults s.g_dhcpv4bkup_cache s.sc).2
    dsimp only
    rw [if_pos hok]
    exact hdb

theorem notUsedKeys_zero (n : ℕ) : notUsedKeys 0 n = [] := by
  rw [notUsedKeys, Nat.zero_sub]
  rfl

/-- When the rollback of a static-clients request leads back to the store before
it: in bridge mode the old backup is what counts. -/
def StaticClientsUndoable (ansc_inet_addr : CStr → Addr) (faults : Faults) (pMacConf : List Macdoc)
    (s : Dhcpv4State) : Prop :=
  let b := bridgeMode faults s.sc
  let v := dhcpv4StaticClientsValidate ansc_inet_addr faults pMacConf b.2
  (b.1 = true → Undoable (records s.g_dhcpv4bkup_cache) []
    (notUsedKeys s.g_numOfReceivedParam s.g_dhcpv4bkup_cache.length) s.sc.db) ∧
  (b.1 = false → ∀ bkup sc, dhcpv4StaticClientsBackupFromDb faults v.2 = some (bkup, sc) →
    (v.1 = .code .EMPTY_BLOB → Undoable (records bkup) [] [] s.sc.db) ∧
    (v.1 = .zero → ReplaceUndoable faults sc.calls bkup
      (dhcpv4StaticClientsUpdateConfToCache pMacConf) notUsedKeys s.sc.db))

theorem clearParams_undone_iff (faults : Faults) (synchronized : Bool) (bkup : List CacheParam)
    (sc : SyscfgState) {unused : ℕ → ℕ → List CStr} (hunused : ∀ n, unused 0 n = []) :
    unsetAll (unused (clearParams faults synchronized bkup sc).2.g_numOfReceivedParam
      (clearParams faults synchronized bkup sc).2.g_dhcpv4bkup_cache.length)
      (setAll (records bkup) (clearParams faults synchronized bkup sc).2.sc.db) = sc.db ↔
      Undoable (records bkup) [] [] sc.db := by
  obtain ⟨n, calls, hstate, -⟩ := dhcpv4UnsetAllDbValues_eq faults bkup sc
  have hiff := restore_clear_eq_iff (records bkup) [] ((keys (records bkup)).take n) [] sc.db
    (fun k hk => List.mem_of_mem_take hk)
  rw [setAll_nil] at hiff
  unfold clearParams
  dsimp only
  rw [hunused, hstate]
  exact hiff

theorem staticClients_restored_iff {ansc_inet_addr : CStr → Addr}
    {synchronized synchronized' : Bool} {pMacConf : List Macdoc} {s s₁ : Dhcpv4State}
    (h : processStaticClientsWebConfigRequest ansc_inet_addr faults synchronized pMacConf s =
      some (err, s₁)) :
    (rollbackStaticClients noFaults synchronized' s₁).2.sc.db = s.sc.db ↔
      StaticClientsUndoable ansc_inet_addr faults pMacConf s := by
  rw [rollbackStaticClients_noFaults]
  unfold processStaticClientsWebConfigRequest at h
  unfold StaticClientsUndoable
  dsimp only at h ⊢
  have hb := bridgeMode_db faults s.sc
  have hv := dhcpv4StaticClientsValidate_db ansc_inet_addr faults pMacConf
    (bridgeMode faults s.sc).2
  rw [hb] at hv
  split at h
  · next hbridge =>
    rw [Option.some.injEq, Prod.mk.injEq] at h
    rw [← h.2]
    dsimp only
    rw [hb]
    have hiff := restore_clear_eq_iff (records s.g_dhcpv4bkup_cache) [] []
      (notUsedKeys s.g_numOfReceivedParam s.g_dhcpv4bkup_cache.length) s.sc.db
      (fun k hk => absurd hk List.not_mem_nil)
    rw [unsetAll_nil, setAll_nil] at hiff
    rw [hiff]
    simp [hbridge]
  · next hbridge =>
    rw [Bool.not_eq_true] at hbridge
    rw [hb] at h
    rw [hb]
    revert h hv
    generalize dhcpv4StaticClientsValidate ansc_inet_addr faults pMacConf
      ⟨s.sc.db, s.sc.calls + 1⟩ = v
    intro hv h
    split at h
    · next hret =>
      simp only [Option.bind_eq_bind, Option.bind_eq_some_iff, Option.some.injEq] at h
      obtain ⟨⟨bkup, sc⟩, hbkup, h⟩ := h
      have hdb : sc.db = s.sc.db := by
        rw [dhcpv4StaticClientsBackupFromDb_db hbkup, hv]
      have hs₁ : s₁ = (clearParams faults synchronized bkup sc).2 := by rw [h]
      have hiff := clearParams_undone_iff faults synchronized bkup sc notUsedKeys_zero
      rw [hs₁, ← hdb]
      refine hiff.trans ?_
      simp [hbridge, hret, hbkup, hdb]
    · next hret =>
      simp only [Option.bind_eq_bind, Option.bind_eq_some_iff] at h
      obtain ⟨⟨bkup, sc⟩, hbkup, h⟩ := h
      have hdb : sc.db = s.sc.db := by
        rw [dhcpv4StaticClientsBackupFromDb_db hbkup, hv]
      have hiff := replaceParams_undone_iff h notUsedKeys_zero
      rw [hdb] at hiff
      refine hiff.trans ?_
      simp [hbridge, hret, hbkup]
    · next hempty hzero =>
      rw [Option.some.injEq, Prod.mk.injEq] at h
      rw [← h.2]
      refine iff_of_true ?_ ⟨fun hb' => ?_, fun _ bkup sc _ => ⟨fun he => ?_, fun hz => ?_⟩⟩
      · exact hv
      · rw [hbridge] at hb'
        cases hb'
      · exact absurd he hempty
      · exact absurd hz hzero

/-- The same for the LAN request, whose rollback clears nothing. -/
def LanUndoable (ansc_inet_addr : CStr → Addr) (faults : Faults) (pLanConf : Landoc)
    (s : Dhcpv4State) : Prop :=
  let b := bridgeMode faults s.sc
  (b.1 = true → Undoable (records s.g_dhcpv4bkup_cache) [] [] s.sc.db) ∧
  (b.1 = false → dhcpv4LanValidate ansc_inet_addr pLanConf = .zero →
    ∀ bkup sc, dhcpv4LanBackupFromDb faults b.2 = some (bkup, sc) →
      ReplaceUndoable faults sc.calls bkup (dhcpv4LanUpdateConfToCache pLanConf) (fun _ _ => [])
        s.sc.db)

theorem lan_restored_iff {ansc_inet_addr : CStr → Addr}
    {synchronized synchronized' : Bool} {pLanConf : Landoc} {s s₁ : Dhcpv4State}
    (h : processLanWebConfigRequest ansc_inet_addr faults synchronized pLanConf s =
      some (err, s₁)) :
    (rollbackLan noFaults synchronized' s₁).2.sc.db = s.sc.db ↔
      LanUndoable ansc_inet_addr faults pLanConf s := by
  have hrollback : (rollbackLan noFaults synchronized' s₁).2.sc.db =
      setAll (records s₁.g_dhcpv4bkup_cache) s₁.sc.db := dhcpv4CacheApplyAllToDb_noFaults _ _
  rw [hrollback]
  unfold processLanWebConfigRequest at h
  unfold LanUndoable
  dsimp only at h ⊢
  have hb := bridgeMode_db faults s.sc
  rw [hb] at h
  rw [hb]
  split at h
  · next hbridge =>
    rw [Option.some.injEq, Prod.mk.injEq] at h
    rw [← h.2]
    have hiff := restore_clear_eq_iff (records s.g_dhcpv4bkup_cache) [] [] [] s.sc.db
      (fun k hk => absurd hk List.not_mem_nil)
    rw [unsetAll_nil, unsetAll_nil, setAll_nil] at hiff
    refine hiff.trans ?_
    simp [hbridge]
  · next hbridge =>
    rw [Bool.not_eq_true] at hbridge
    split at h
    · next hret =>
      simp only [Option.bind_eq_bind, Option.bind_eq_some_iff] at h
      obtain ⟨⟨bkup, sc⟩, hbkup, h⟩ := h
      have hdb : sc.db = s.sc.db := by
        rw [backupParams_db hbkup]
      have hiff := @replaceParams_undone_iff _ _ _ _ _ _ _ h (fun _ _ => []) (fun _ => rfl)
      rw [hdb, unsetAll_nil] at hiff
      refine hiff.trans ?_
      simp [hbridge, hret, hbkup]
    · next hret =>
      rw [Option.some.injEq, Prod.mk.injEq] at h
      rw [← h.2]
      refine iff_of_true rfl ⟨fun hb' => ?_, fun _ hz => absurd hz hret⟩
      rw [hbridge] at hb'
      cases hb'

/-- Both rollbacks lead back to the store before the request exactly when the
backed-up records were current, the keys cleared as unused were absent, and the
document writes no other key. -/
theorem rollback_restored_iff (ansc_inet_addr : CStr → Addr) (faults : Faults)
    (synchronized synchronized' : Bool) (s s₁ : Dhcpv4State) (err : Err) :
    (∀ pMacConf,
      processStaticClientsWebConfigRequest ansc_inet_addr faults synchronized pMacConf s =
        some (err, s₁) →
      ((rollbackStaticClients noFaults synchronized' s₁).2.sc.db = s.sc.db ↔
        StaticClientsUndoable ansc_inet_addr faults pMacConf s)) ∧
    ∀ pLanConf, processLanWebConfigRequest ansc_inet_addr faults synchronized pLanConf s =
        some (err, s₁) →
      ((rollbackLan noFaults synchronized' s₁).2.sc.db = s.sc.db ↔
        LanUndoable ansc_inet_addr faults pLanConf s) :=
  ⟨fun _ h => staticClients_restored_iff h, fun _ h => lan_restored_iff h⟩

def Dhcpv4State.boot (db : Store CStr CStr) : Dhcpv4State := ⟨[], 0, ⟨db, 0⟩⟩

def emptyStore : Store CStr CStr := fun _ => none

def macdoc : Macdoc := ⟨some "10.0.0.7".toList, some "00:11:22:33:44:55".toList⟩

def landoc : Landoc := ⟨1, some ⟨true, some "10.0.0.1".toList, some "255.255.255.0".toList,
  some "10.0.0.2".toList, some "10.0.0.253".toList, 86400⟩⟩

def configuredStore : Store CStr CStr := setAll
  ([("lan_ipaddr", "10.0.0.1"), ("lan_netmask", "255.255.255.0"), ("dhcp_server_enabled", "1"),
    ("dhcp_start", "10.0.0.2"), ("dhcp_end", "10.0.0.200"), ("dhcp_lease_time", "3600"),
    ("dhcp_num_static_hosts", "1"), ("dhcp_static_host_1", "00:11:22:33:44:66,10.0.0.9,"),
    ("dhcp_static_host_insNum_1", "1"), ("dhcp_static_host_alias_1", "StaticAddress1")].map
    (fun p => (p.1.toList, p.2.toList))) emptyStore

/-- Whether a backup is current, covers the keys of the document and leaves no
unused keys. -/
def covers (bkup recs : List CacheParam) (unused : ℕ → ℕ → List CStr) (db : Store CStr CStr) :
    Bool :=
  decide ((∀ p ∈ records bkup, db p.1 = some p.2) ∧
    (∀ p ∈ records recs, p.1 ∈ keys (records bkup)) ∧ unused recs.length bkup.length = [])

theorem replaceUndoable_of_covers {start : ℕ} {bkup : List CacheParam}
    {update : Option (List CacheParam)} {unused : ℕ → ℕ → List CStr} {db : Store CStr CStr}
    (h : update.map (fun recs => covers bkup recs unused db) = some true) :
    ReplaceUndoable faults start bkup update unused db := by
  obtain ⟨recs, rfl, hcovers⟩ := Option.map_eq_some_iff.mp h
  obtain ⟨hsaved, hcovered, hunused⟩ := of_decide_eq_true hcovers
  refine ⟨fun _ => ?_, fun _ recs' hrecs' => ?_⟩
  · exact undoable_of_forall (fun k hk => absurd hk List.not_mem_nil) hsaved
      (fun p hp => absurd hp List.not_mem_nil)
  · rw [Option.some.injEq] at hrecs'
    rw [← hrecs', hunused]
    exact undoable_of_forall (fun k hk => absurd hk List.not_mem_nil) hsaved
      (fun p hp => Or.inr (Or.inl (hcovered p (List.mem_of_mem_take hp))))

theorem rollback_restored_configured :
    (∃ s₁ err, processStaticClientsWebConfigRequest (inetAddr 0xffffffff) noFaults true [macdoc]
        (Dhcpv4State.boot configuredStore) = some (err, s₁) ∧
      (rollbackStaticClients noFaults true s₁).2.sc.db = configuredStore) ∧
    ∃ s₁ err, processLanWebConfigRequest (inetAddr 0xffffffff) noFaults true landoc
        (Dhcpv4State.boot configuredStore) = some (err, s₁) ∧
      (rollbackLan noFaults true s₁).2.sc.db = configuredStore := by
  have hbridge : (bridgeMode noFaults (Dhcpv4State.boot configuredStore).sc).1 = false := by
    decide +kernel
  constructor
  · have hsome : (processStaticClientsWebConfigRequest (inetAddr 0xffffffff) noFaults true [macdoc]
        (Dhcpv4State.boot configuredStore)).isSome := by
      decide +kernel
    obtain ⟨⟨err, s₁⟩, h⟩ := Option.isSome_iff_exists.mp hsome
    refine ⟨s₁, err, h, ((rollback_restored_iff _ _ _ true _ _ _).1 _ h).mpr ⟨?_, ?_⟩⟩
    · intro hb
      rw [hbridge] at hb
      cases hb
    · intro _ bkup sc hbkup
      have hcheck : (dhcpv4StaticClientsBackupFromDb noFaults (dhcpv4StaticClientsValidate
          (inetAddr 0xffffffff) noFaults [macdoc] (bridgeMode noFaults
            (Dhcpv4State.boot configuredStore).sc).2).2).map (fun b =>
          (dhcpv4StaticClientsUpdateConfToCache [macdoc]).map (fun recs =>
            covers b.1 recs notUsedKeys configuredStore)) = some (some true) := by
        decide +kernel
      have hret : (dhcpv4StaticClientsValidate (inetAddr 0xffffffff) noFaults [macdoc]
          (bridgeMode noFaults (Dhcpv4State.boot configuredStore).sc).2).1 = .zero := by
        decide +kernel
      rw [hbkup, Option.map_some, Option.some.injEq] at hcheck
      refine ⟨fun hempty => ?_, fun _ => replaceUndoable_of_covers hcheck⟩
      rw [hret] at hempty
      cases hempty
  · have hsome : (processLanWebConfigRequest (inetAddr 0xffffffff) noFaults true landoc
        (Dhcpv4State.boot configuredStore)).isSome := by
      decide +kernel
    obtain ⟨⟨err, s₁⟩, h⟩ := Option.isSome_iff_exists.mp hsome
    refine ⟨s₁, err, h, ((rollback_restored_iff _ _ _ true _ _ _).2 _ h).mpr ⟨?_, ?_⟩⟩
    · intro hb
      rw [hbridge] at hb
      cases hb
    · intro _ _ bkup sc hbkup
      have hcheck : (dhcpv4LanBackupFromDb noFaults (bridgeMode noFaults
          (Dhcpv4State.boot configuredStore).sc).2).map (fun b =>
          (dhcpv4LanUpdateConfToCache landoc).map (fun recs =>
            covers b.1 recs (fun _ _ => []) configuredStore)) = some (some true) := by
        decide +kernel
      rw [hbkup, Option.map_some, Option.some.injEq] at hcheck
      exact replaceUndoable_of_covers hcheck

/-- What a store without any of the keys keeps after a successful request and
its rollback. -/
theorem rollback_leaves_new_keys :
    (¬ ∀ (ansc_inet_addr : CStr → Addr) (faults : Faults) (synchronized : Bool)
      (pMacConf : List Macdoc) (s s₁ : Dhcpv4State) (err : Err),
      processStaticClientsWebConfigRequest ansc_inet_addr faults synchronized pMacConf s =
        some (err, s₁) →
      (rollbackStaticClients noFaults synchronized s₁).2.sc.db = s.sc.db) ∧
    ¬ ∀ (ansc_inet_addr : CStr → Addr) (faults : Faults) (synchronized : Bool)
      (pLanConf : Landoc) (s s₁ : Dhcpv4State) (err : Err),
      processLanWebConfigRequest ansc_inet_addr faults synchronized pLanConf s = some (err, s₁) →
      (rollbackLan noFaults synchronized s₁).2.sc.db = s.sc.db := by
  constructor
  · intro hclaim
    have hrun : (processStaticClientsWebConfigRequest (inetAddr 0xffffffff) noFaults true [macdoc]
        (Dhcpv4State.boot emptyStore)).map (fun r =>
          (rollbackStaticClients noFaults true r.2).2.sc.db dhcpv4NumStaticHosts) =
          some (some "1".toList) := by
      decide +kernel
    obtain ⟨⟨err, s₁⟩, h, hval⟩ := Option.map_eq_some_iff.mp hrun
    have hdb := hclaim _ _ _ _ _ _ _ h
    dsimp only at hval
    rw [hdb] at hval
    cases hval
  · intro hclaim
    have hrun : (processLanWebConfigRequest (inetAddr 0xffffffff) noFaults true landoc
        (Dhcpv4State.boot emptyStore)).map (fun r =>
          (rollbackLan noFaults true r.2).2.sc.db "dhcp_lease_time".toList) =
          some (some "86400".toList) := by
      decide +kernel
    obtain ⟨⟨err, s₁⟩, h, hval⟩ := Option.map_eq_some_iff.mp hrun
    have hdb := hclaim _ _ _ _ _ _ _ h
    dsimp only at hval
    rw [hdb] at hval
    cases hval

end CcspPandM.Dhcpv4Webconfig
