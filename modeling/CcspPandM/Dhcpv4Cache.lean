import CcspPandM.Syscfg
import CcspPandM.Ipv4Addr

/-!
The cache that the static-clients and the LAN documents share. A backup reads
the stored texts and keeps those that are not empty, a request clears what was
backed up and writes its own records, a rollback writes the backup back.
-/
namespace CcspPandM.Dhcpv4Cache

open CString KeyStore FaultyStore Syscfg InetText

/-- `Dhcpv4_Cache_t`. -/
structure CacheParam where
  cmd : Buf 32
  val : Buf 256

def dhcpv4CacheMaxNumOfParam : ℕ := 1024

/-- The globals: the backed-up records, `g_numOfbkupCacheParam` many, the number
of received ones, and the store. -/
structure Dhcpv4State where
  g_dhcpv4bkup_cache : List CacheParam
  g_numOfReceivedParam : ℕ
  sc : SyscfgState

inductive Ret where
  | zero
  | minusOne
  | code (c : ErrCode)
  deriving DecidableEq, Repr

def records (pCache : List CacheParam) : List (CStr × CStr) :=
  pCache.map (fun p => (p.cmd.text, p.val.text))

def dhcpv4UnsetAllDbValues (faults : Faults) (pCache : List CacheParam) (sc : SyscfgState) :
    Ret × SyscfgState :=
  if pCache = [] then (.minusOne, sc)
  else
    let r := unsetLoop faults (keys (records pCache)) sc
    if r.1 then
      let c := syscfg_commit faults r.2
      (if c.1 then .zero else .code .SYSCFG_FAILURE, c.2)
    else (.code .SYSCFG_FAILURE, r.2)

def dhcpv4CacheApplyAllToDb (faults : Faults) (pCache : List CacheParam) (sc : SyscfgState) :
    Ret × SyscfgState :=
  if pCache = [] then (.minusOne, sc)
  else
    let r := setLoop faults (records pCache) sc
    if r.1 then
      let c := syscfg_commit faults r.2
      (if c.1 then .zero else .code .SYSCFG_FAILURE, c.2)
    else (.code .SYSCFG_FAILURE, r.2)

/-- Reads one key into the next free record, which is kept if its text is not
empty. -/
def backupParam (faults : Faults) (cmd : Buf 32) (pCache : List CacheParam) (sc : SyscfgState) :
    Option (CStr × List CacheParam × SyscfgState) :=
  if pCache.length < dhcpv4CacheMaxNumOfParam then
    let r := syscfg_get (n := 256) faults cmd.text sc
    some (r.2.1.text, if r.2.1.text = [] then pCache else pCache ++ [⟨cmd, r.2.1⟩], r.2.2)
  else none

def backupParams (faults : Faults) : List (Buf 32) → List CacheParam → SyscfgState →
    Option (List CacheParam × SyscfgState)
  | [], pCache, sc => some (pCache, sc)
  | cmd :: cmds, pCache, sc => do
    let (_, pCache, sc) ← backupParam faults cmd pCache sc
    backupParams faults cmds pCache sc

def convertErrCodeToErrMsg : Ret → CStr
  | .zero => "Success".toList
  | .code .INVALID_IP => "Invalid IP".toList
  | .code .INVALID_MAC => "Invalid MAC".toList
  | .code .STATIC_IP_NOT_IN_LANRANGE => "Static IP not in Lan Min/Max Range".toList
  | .code .LAN_PARAM_IP_RANGE_INVALID => "Lan Min/Max IP Invalid".toList
  | .code .LAN_PARAM_NETMASK_INVALID => "Lan NetMask Invalid".toList
  | .code .LAN_PARAM_LEASETIME_INVALID => "Lan LeaseTime Invalid".toList
  | .code .COSA_SYNCHRONIZE_FAILED => "Cosa Object Sync Failed".toList
  | .code .LAN_PARAM_GATEWAY_IP_INVALID => "Lan Gateway IP Invalid".toList
  | _ => "Invalid Blob Input Parameters".toList

def checkIpIsValid (ipAddress : Option CStr) : Bool :=
  match ipAddress with
  | some t => (inet_pton4 t).isSome
  | none => false

/-- `bridge_mode` reads as something else than 0. -/
def bridgeMode (faults : Faults) (sc : SyscfgState) : Bool × SyscfgState :=
  let r := syscfg_get (n := 16) faults "bridge_mode".toList sc
  (r.1 && r.2.1.text != ['0'], r.2.2)

theorem backupParam_db {faults : Faults} {cmd : Buf 32} {pCache pCache' : List CacheParam}
    {sc sc' : SyscfgState} {val : CStr}
    (h : backupParam faults cmd pCache sc = some (val, pCache', sc')) : sc'.db = sc.db := by
  simp only [backupParam, Option.ite_none_right_eq_some, Option.some.injEq, Prod.mk.injEq] at h
  rw [← h.2.2.2, syscfg_get_db]

theorem backupParams_db {faults : Faults} {cmds : List (Buf 32)} {pCache pCache' : List CacheParam}
    {sc sc' : SyscfgState} (h : backupParams faults cmds pCache sc = some (pCache', sc')) :
    sc'.db = sc.db := by
  induction cmds generalizing pCache sc with
  | nil =>
    rw [backupParams, Option.some.injEq, Prod.mk.injEq] at h
    rw [h.2]
  | cons cmd cmds ih =>
    simp only [backupParams, Option.bind_eq_bind, Option.bind_eq_some_iff] at h
    obtain ⟨⟨val, pCache₁, sc₁⟩, h₁, h⟩ := h
    rw [ih h, backupParam_db h₁]

variable (faults : Faults)

theorem bridgeMode_db (sc : SyscfgState) :
    (bridgeMode faults sc).2 = ⟨sc.db, sc.calls + 1⟩ := syscfg_get_db faults _ sc

/-- The calls that clear n records, and their commit, go through; without
records there are none. -/
def ClearSucceeds (faults : Faults) (start n : ℕ) : Prop :=
  n = 0 ∨ ∀ i ≤ n, faults (start + i) = false

def afterClear (start n : ℕ) : ℕ := if n = 0 then start else start + n + 1

theorem dhcpv4UnsetAllDbValues_eq (pCache : List CacheParam) (sc : SyscfgState) :
    ∃ n calls, (dhcpv4UnsetAllDbValues faults pCache sc).2 =
      ⟨unsetAll ((keys (records pCache)).take n) sc.db, calls⟩ ∧
      ((dhcpv4UnsetAllDbValues faults pCache sc).1 ≠ .code .SYSCFG_FAILURE ↔
        ClearSucceeds faults sc.calls pCache.length) ∧
      (ClearSucceeds faults sc.calls pCache.length →
        calls = afterClear sc.calls pCache.length) := by
  have hlen : (keys (records pCache)).length = pCache.length := by simp [keys, records]
  unfold dhcpv4UnsetAllDbValues
  by_cases hnil : pCache = []
  · rw [if_pos hnil]
    refine ⟨0, sc.calls, rfl, iff_of_true (by simp) (Or.inl (by simp [hnil])), fun _ => ?_⟩
    rw [afterClear, if_pos (by simp [hnil])]
  · have hpos : pCache.length ≠ 0 := fun h => hnil (List.length_eq_zero_iff.mp h)
    rw [if_neg hnil, unsetLoop_eq, hlen]
    dsimp only
    by_cases hall : leading faults sc.calls pCache.length = pCache.length
    · rw [if_pos (decide_eq_true hall), hall, Nat.min_eq_right (by omega)]
      rw [leading_eq_iff] at hall
      refine ⟨pCache.length, sc.calls + pCache.length + 1, rfl, ?_, fun _ => ?_⟩
      · simp only [syscfg_commit, commitCall]
        by_cases hcommit : faults (sc.calls + pCache.length) = true
        · refine iff_of_false (by simp [hcommit]) (fun hs => ?_)
          rw [hs.resolve_left hpos pCache.length (Nat.le_refl _)] at hcommit
          cases hcommit
        · rw [Bool.not_eq_true] at hcommit
          refine iff_of_true (by simp [hcommit]) (Or.inr (fun i hi => ?_))
          rcases Nat.lt_or_eq_of_le hi with hlt | rfl
          · exact hall i hlt
          · exact hcommit
      · rw [afterClear, if_neg hpos]
    · rw [if_neg (by simp [hall])]
      have hno : ¬ ClearSucceeds faults sc.calls pCache.length := fun hs =>
        hall ((leading_eq_iff _ _ _).mpr (fun i hi => hs.resolve_left hpos i hi.le))
      exact ⟨_, _, rfl, iff_of_false (by simp) hno, fun hs => absurd hs hno⟩

theorem dhcpv4CacheApplyAllToDb_eq (pCache : List CacheParam)
    (sc : SyscfgState) : ∃ calls, (dhcpv4CacheApplyAllToDb faults pCache sc).2 =
      ⟨setAll ((records pCache).take (leading faults sc.calls pCache.length)) sc.db, calls⟩ := by
  have hlen : (records pCache).length = pCache.length := by simp [records]
  unfold dhcpv4CacheApplyAllToDb
  by_cases hnil : pCache = []
  · rw [if_pos hnil, hnil]
    exact ⟨sc.calls, rfl⟩
  · rw [if_neg hnil, setLoop_eq, hlen]
    dsimp only
    split <;> exact ⟨_, rfl⟩

theorem dhcpv4CacheApplyAllToDb_noFaults (pCache : List CacheParam) (sc : SyscfgState) :
    (dhcpv4CacheApplyAllToDb noFaults pCache sc).2.db = setAll (records pCache) sc.db := by
  obtain ⟨calls, h⟩ := dhcpv4CacheApplyAllToDb_eq noFaults pCache sc
  rw [h, leading_noFaults, List.take_of_length_le (by simp [records])]

end CcspPandM.Dhcpv4Cache
