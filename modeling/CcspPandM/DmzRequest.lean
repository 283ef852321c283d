import CcspPandM.CacheRecords
import CcspPandM.Ipv4Addr
import CcspPandM.Syscfg
import CcspPandM.SubdocDecoders

/-!
A DMZ request and its rollback. What the rollback stores are the records that
were in the cache when the request started, whatever became of the request, so
all depends on what the cache held then.
-/
namespace CcspPandM.DmzRequest

open CString KeyStore FaultyStore Syscfg SubdocDecoders CacheRecords Ipv4Addr

structure DmzState where
  dmz_cache : Cache
  dmz_cache_bkup : Cache
  sc : SyscfgState

def dmzCacheSize : ℕ := 2

def dmzEnabledKey : CStr := "dmz_enabled".toList

def dmzDstIpAddrKey : CStr := "dmz_dst_ip_addr".toList

def initDmzCache (tmp_dmz_cache : Cache) : Cache :=
  Function.update (Function.update tmp_dmz_cache 0 ⟨Buf.snprintf dmzEnabledKey, Buf.empty⟩)
    1 ⟨Buf.snprintf dmzDstIpAddrKey, Buf.empty⟩

/-- The loop of `clear_dmz_cache_DB` from index i on; every round commits. -/
def clearDmzLoop (faults : Faults) (i : ℕ) : ℕ → DmzState → Bool × DmzState
  | 0, s => (true, s)
  | n + 1, s =>
    let r := syscfg_unset faults (s.dmz_cache i).cmd.text s.sc
    if r.1 then
      let c := syscfg_commit faults r.2
      let s := { s with dmz_cache := Function.update s.dmz_cache i TCache.zero, sc := c.2 }
      if c.1 then clearDmzLoop faults (i + 1) n s else (false, s)
    else (false, { s with sc := r.2 })

def clearDmzCacheDB (faults : Faults) (s : DmzState) : Bool × DmzState :=
  clearDmzLoop faults 0 dmzCacheSize s

def backupDmzCache (tmp_dmz_cache tmp_dmz_cache_bkup : Cache) (cache_size : ℕ) : Cache :=
  fun i => if i < cache_size then tmp_dmz_cache i else tmp_dmz_cache_bkup i

def applyDmzCacheToDB (faults : Faults) (tmp_dmz_cache : Cache) (cache_size : ℕ)
    (sc : SyscfgState) : Bool × SyscfgState :=
  let r := setLoop faults (cached tmp_dmz_cache cache_size) sc
  if r.1 then syscfg_commit faults r.2 else r

section Process

variable (lan : Option LanSettings) (ansc_inet_addr : CStr → Addr)

/-- The test of the address in `set_dmz_conf`. -/
def dmzHostOk (internal_ip : CStr) : Bool :=
  let dmzHost := ansc_inet_addr internal_ip
  chkPortMappingClient lan dmzHost &&
    !(ipv4AddrIsLoopback dmzHost || ipv4AddrIsMulticast dmzHost || dmzHost == 0xffffffff)

def setDmzConf (rpm : DmzWanparam) (dmz_cache : Cache) : Bool × Cache :=
  let dmz_cache := Function.update dmz_cache 0
    ⟨Buf.snprintf dmzEnabledKey, Buf.snprintf (if rpm.enable then ['1'] else ['0'])⟩
  if rpm.enable then
    match rpm.internal_ip with
    | some internal_ip =>
      if dmzHostOk lan ansc_inet_addr internal_ip then
        (true, Function.update dmz_cache 1
          ⟨Buf.snprintf dmzDstIpAddrKey, Buf.snprintf internal_ip⟩)
      else (false, dmz_cache)
    | none => (false, dmz_cache)
  else
    (true, Function.update dmz_cache 1
      ⟨Buf.snprintf dmzDstIpAddrKey, Buf.snprintf "0.0.0.0".toList⟩)

def processDMZWebConfigRequest (faults : Faults) (rpm : DmzWanparam) (s : DmzState) :
    Err × DmzState :=
  let s := { s with dmz_cache_bkup := backupDmzCache s.dmz_cache s.dmz_cache_bkup dmzCacheSize }
  let r := clearDmzCacheDB faults s
  if r.1 then
    let d := setDmzConf lan ansc_inet_addr rpm r.2.dmz_cache
    let s := { r.2 with dmz_cache := d.2 }
    if d.1 then
      let a := applyDmzCacheToDB faults s.dmz_cache dmzCacheSize s.sc
      if a.1 then (⟨.BLOB_EXEC_SUCCESS, []⟩, { s with sc := a.2 })
      else (⟨.SYSCFG_FAILURE, "sysconfig failure while applying".toList⟩, { s with sc := a.2 })
    else (⟨.INVALID_DMZ_WAN_IP, "Invalid IP".toList⟩, s)
  else (⟨.SYSCFG_FAILURE, "sysconfig failure while clearing DMZ old entries".toList⟩, r.2)

end Process

def rollbackDmz (faults : Faults) (s : DmzState) : Bool × DmzState :=
  let r := applyDmzCacheToDB faults s.dmz_cache_bkup dmzCacheSize s.sc
  (r.1, { s with
    dmz_cache := backupDmzCache s.dmz_cache_bkup s.dmz_cache dmzCacheSize
    sc := r.2 })

/-- The globals after `CosaNatInitialize`. -/
def DmzState.boot (db : Store CStr CStr) : DmzState where
  dmz_cache := initDmzCache (fun _ => TCache.zero)
  dmz_cache_bkup := fun _ => TCache.zero
  sc := ⟨db, 0⟩

def DmzCacheCurrent (s : DmzState) : Prop :=
  keys (cached s.dmz_cache dmzCacheSize) = [dmzEnabledKey, dmzDstIpAddrKey] ∧
    ∀ p ∈ cached s.dmz_cache dmzCacheSize, s.sc.db p.1 = some p.2

structure DmzRestored (s s' : DmzState) : Prop where
  enabled : s'.sc.db dmzEnabledKey = s.sc.db dmzEnabledKey
  dst_ip_addr : s'.sc.db dmzDstIpAddrKey = s.sc.db dmzDstIpAddrKey
  current : DmzCacheCurrent s'

theorem backupDmzCache_cached (src dst : Cache) (n : ℕ) :
    cached (backupDmzCache src dst n) n = cached src n :=
  cached_congr (fun _ hi => if_pos hi)

theorem clearDmzLoop_bkup (faults : Faults) (i n : ℕ) (s : DmzState) :
    (clearDmzLoop faults i n s).2.dmz_cache_bkup = s.dmz_cache_bkup := by
  induction n generalizing i s with
  | zero => rfl
  | succ n ih =>
    rw [clearDmzLoop]
    dsimp only
    split
    · split
      · exact ih (i + 1) _
      · rfl
    · rfl

theorem processDMZWebConfigRequest_bkup (lan : Option LanSettings) (ansc_inet_addr : CStr → Addr)
    (faults : Faults) (rpm : DmzWanparam) (s : DmzState) :
    (processDMZWebConfigRequest lan ansc_inet_addr faults rpm s).2.dmz_cache_bkup =
      backupDmzCache s.dmz_cache s.dmz_cache_bkup dmzCacheSize := by
  have hclear := clearDmzLoop_bkup faults 0 dmzCacheSize { s with
    dmz_cache_bkup := backupDmzCache s.dmz_cache s.dmz_cache_bkup dmzCacheSize }
  unfold processDMZWebConfigRequest
  dsimp only
  split
  · split
    · split <;> exact hclear
    · exact hclear
  · exact hclear

theorem applyDmzCacheToDB_noFaults (cache : Cache) (n : ℕ) (sc : SyscfgState) :
    (applyDmzCacheToDB noFaults cache n sc).2.db = setAll (cached cache n) sc.db := by
  obtain ⟨hok, hdb⟩ := setLoop_noFaults_db (cached cache n) sc
  rw [applyDmzCacheToDB, if_pos hok, ← hdb]
  rfl

/-- A request followed by its rollback restores both keys and the cache exactly
when the cache held the stored configuration, whatever the request did. -/
theorem rollbackDmz_restored_iff (lan : Option LanSettings) (ansc_inet_addr : CStr → Addr)
    (faults : Faults) (rpm : DmzWanparam) (s : DmzState) :
    DmzRestored s (rollbackDmz noFaults
      (processDMZWebConfigRequest lan ansc_inet_addr faults rpm s).2).2 ↔ DmzCacheCurrent s := by
  have hbkup := processDMZWebConfigRequest_bkup lan ansc_inet_addr faults rpm s
  revert hbkup
  generalize (processDMZWebConfigRequest lan ansc_inet_addr faults rpm s).2 = s₁
  intro hbkup
  have hsaved : cached s₁.dmz_cache_bkup dmzCacheSize = cached s.dmz_cache dmzCacheSize := by
    rw [hbkup, backupDmzCache_cached]
  have hcache : cached (rollbackDmz noFaults s₁).2.dmz_cache dmzCacheSize =
      cached s.dmz_cache dmzCacheSize := by
    rw [← hsaved]
    exact backupDmzCache_cached _ _ _
  have hdb : (rollbackDmz noFaults s₁).2.sc.db =
      setAll (cached s.dmz_cache dmzCacheSize) s₁.sc.db := by
    rw [← hsaved]
    exact applyDmzCacheToDB_noFaults _ _ _
  have hnodup : [dmzEnabledKey, dmzDstIpAddrKey].Nodup := by decide
  constructor
  · rintro ⟨henabled, hdst, hkeys, hvalues⟩
    rw [hcache] at hkeys hvalues
    refine ⟨hkeys, fun p hp => ?_⟩
    have hkey : p.1 ∈ [dmzEnabledKey, dmzDstIpAddrKey] := by
      rw [← hkeys]
      exact List.mem_map_of_mem hp
    have hvalue := hvalues p hp
    rcases List.mem_cons.mp hkey with hk | hk
    · rwa [hk, henabled, ← hk] at hvalue
    · rw [List.mem_singleton] at hk
      rwa [hk, hdst, ← hk] at hvalue
  · rintro ⟨hkeys, hvalues⟩
    have hsame : ∀ p ∈ cached s.dmz_cache dmzCacheSize,
        (rollbackDmz noFaults s₁).2.sc.db p.1 = some p.2 := by
      intro p hp
      rw [hdb, setAll_apply, lastValue_of_mem (by rw [hkeys]; exact hnodup) hp]
      rfl
    have hkept : ∀ k ∈ [dmzEnabledKey, dmzDstIpAddrKey],
        (rollbackDmz noFaults s₁).2.sc.db k = s.sc.db k := by
      intro k hk
      rw [← hkeys] at hk
      obtain ⟨p, hp, rfl⟩ := List.mem_map.mp hk
      rw [hsame p hp, hvalues p hp]
    refine ⟨hkept _ (by simp), hkept _ (by simp), ?_, ?_⟩
    · rw [hcache]
      exact hkeys
    · rw [hcache]
      exact hsame

def dmzStore : Store CStr CStr :=
  setAll [(dmzEnabledKey, "1".toList), (dmzDstIpAddrKey, "10.0.0.9".toList)] (fun _ => none)

/-- The cache filled at boot has no values: a document without an address takes
the stored configuration away. -/
theorem rollbackDmz_boot_values_lost :
    ¬ ∀ (lan : Option LanSettings) (ansc_inet_addr : CStr → Addr) (db : Store CStr CStr)
      (faults : Faults) (rpm : DmzWanparam),
      (processDMZWebConfigRequest lan ansc_inet_addr faults rpm
        (DmzState.boot db)).1.ErrorCode ≠ .BLOB_EXEC_SUCCESS →
      DmzRestored (DmzState.boot db) (rollbackDmz noFaults (processDMZWebConfigRequest lan
        ansc_inet_addr faults rpm (DmzState.boot db)).2).2 := by
  intro hclaim
  have hsame := (hclaim none (inetAddr 0xffffffff) dmzStore noFaults ⟨true, none⟩
    (by decide +kernel)).dst_ip_addr
  have hbefore : (DmzState.boot dmzStore).sc.db dmzDstIpAddrKey = some "10.0.0.9".toList := by
    decide +kernel
  have hafter : (rollbackDmz noFaults (processDMZWebConfigRequest none (inetAddr 0xffffffff)
      noFaults ⟨true, none⟩ (DmzState.boot dmzStore)).2).2.sc.db dmzDstIpAddrKey = some [] := by
    decide +kernel
  rw [hbefore, hafter] at hsame
  revert hsame
  decide

end CcspPandM.DmzRequest
