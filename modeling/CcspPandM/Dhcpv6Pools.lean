import CcspPandM.CString
import CcspPandM.Runs
import CcspPandM.StoreSlots
import Mathlib.Data.List.Infix

/-!
The DHCPv6 server pools and their options: three parallel arrays, and the
numbered syscfg namespaces that copy them. Every store call succeeds. Reads and
writes past an array, and a text appended past its buffer, have no defined
result.
-/
namespace CcspPandM.Dhcpv6Pools

open CString KeyStore StoreSlots Runs

abbrev ULONG := BitVec 32

structure Build where
  /-- `MULTILAN_FEATURE` -/
  multilan : Bool
  /-- `CISCO_CONFIG_DHCPV6_PREFIX_DELEGATION` -/
  prefixDelegation : Bool
  deriving DecidableEq

/-- `DHCPV6S_POOL_NUM` -/
def Build.poolNum (b : Build) : ℕ := if b.multilan then 64 else 1

/-- `DHCPV6S_POOL_OPTION_NUM` -/
def poolOptionNum : ℕ := 16

structure PoolCfg where
  InstanceNumber : ULONG
  Alias : Buf 64
  Order : ULONG
  Interface : Buf 64
  VendorClassID : Buf 256
  UserClassID : Buf 256
  SourceAddress : Buf 40
  SourceAddressMask : Buf 40
  IANAManualPrefixes : Buf 320
  IAPDManualPrefixes : Buf 320
  PrefixRangeBegin : Buf 64
  PrefixRangeEnd : Buf 64
  StartAddress : Buf 64
  LeaseTime : BitVec 32
  IAPDAddLength : ULONG
  IANAAmount : ULONG
  DUID : Buf 131
  IAPDEnable : Bool
  SourceAddressExclude : Bool
  IANAEnable : Bool
  UserClassIDExclude : Bool
  VendorClassIDExclude : Bool
  DUIDExclude : Bool
  bEnabled : Bool
  UnicastEnable : Bool
  RapidEnable : Bool
  EUI64Enable : Bool
  X_RDKCENTRAL_COM_DNSServersEnabled : Bool
  X_RDKCENTRAL_COM_DNSServers : Buf 256
  deriving DecidableEq

structure PoolInfo where
  Status : ULONG
  IANAPrefixes : Buf 320
  IAPDPrefixes : Buf 320
  deriving DecidableEq

structure PoolFull where
  Cfg : PoolCfg
  Info : PoolInfo
  deriving DecidableEq

structure PoolOption where
  InstanceNumber : ULONG
  Alias : Buf 64
  Tag : ULONG
  PassthroughClient : Buf 64
  Value : Buf 255
  bEnabled : Bool
  deriving DecidableEq

/-- A pool after `AnscZeroMemory`. -/
def PoolFull.zero : PoolFull :=
  { Cfg := ⟨0, .empty, 0, .empty, .empty, .empty, .empty, .empty, .empty, .empty, .empty, .empty,
      .empty, 0, 0, 0, .empty, false, false, false, false, false, false, false, false, false,
      false, false, .empty⟩
    Info := ⟨0, .empty, .empty⟩ }

def statusEnabled : ULONG := 2#32

/-- The text `SETI_INTO_UTOPIA` writes for a number. -/
def seti (v : ULONG) : CStr := decimal v.toNat

def setb (v : Bool) : CStr := if v then "1".toList else "0".toList

abbrev Syscfg := Store (CStr × CStr) CStr

def namespaceOf (table1Name : CStr) (table1Index : ℕ) (table2Name : CStr) (table2Index : ℕ) :
    CStr :=
  "dhcpv6s".toList ++ table1Name ++ decimal table1Index ++ table2Name ++ decimal table2Index

def serverNs : CStr := namespaceOf [] 0 [] 0
def poolNs (i : ℕ) : CStr := namespaceOf "pool".toList i [] 0
def optionNs (i k : ℕ) : CStr := namespaceOf "pool".toList i "option".toList k

/-- What `setpool_into_utopia` writes, in its order. -/
def poolRecord (b : Build) (pEntry : PoolFull) : List (CStr × CStr) :=
  [("instancenumber".toList, seti pEntry.Cfg.InstanceNumber),
   ("alias".toList, pEntry.Cfg.Alias.text),
   ("Order".toList, seti pEntry.Cfg.Order),
   ((if b.prefixDelegation then "IAInterface" else "Interface").toList, pEntry.Cfg.Interface.text),
   ("VendorClassID".toList, pEntry.Cfg.VendorClassID.text),
   ("UserClassID".toList, pEntry.Cfg.UserClassID.text),
   ("SourceAddress".toList, pEntry.Cfg.SourceAddress.text),
   ("SourceAddressMask".toList, pEntry.Cfg.SourceAddressMask.text),
   ("IANAManualPrefixes".toList, pEntry.Cfg.IANAManualPrefixes.text),
   ("IAPDManualPrefixes".toList, pEntry.Cfg.IAPDManualPrefixes.text),
   ("PrefixRangeBegin".toList, pEntry.Cfg.PrefixRangeBegin.text),
   ("PrefixRangeEnd".toList, pEntry.Cfg.PrefixRangeEnd.text),
   ("LeaseTime".toList, seti pEntry.Cfg.LeaseTime),
   ("IAPDAddLength".toList, seti pEntry.Cfg.IAPDAddLength),
   ("DUID".toList, pEntry.Cfg.DUID.text),
   ("IAPDEnable".toList, setb pEntry.Cfg.IAPDEnable),
   ("SourceAddressExclude".toList, setb pEntry.Cfg.SourceAddressExclude),
   ("IANAEnable".toList, setb pEntry.Cfg.IANAEnable),
   ("UserClassIDExclude".toList, setb pEntry.Cfg.UserClassIDExclude),
   ("VendorClassIDExclude".toList, setb pEntry.Cfg.VendorClassIDExclude),
   ("DUIDExclude".toList, setb pEntry.Cfg.DUIDExclude),
   ("bEnabled".toList, setb pEntry.Cfg.bEnabled),
   ("Status".toList, seti pEntry.Info.Status),
   ((if b.prefixDelegation then "IANAInterfacePrefixes" else "IANAPrefixes").toList,
     pEntry.Info.IANAPrefixes.text),
   ("IAPDPrefixes".toList, pEntry.Info.IAPDPrefixes.text),
   ("RapidEnable".toList, setb pEntry.Cfg.RapidEnable),
   ("UnicastEnable".toList, setb pEntry.Cfg.UnicastEnable),
   ("EUI64Enable".toList, setb pEntry.Cfg.EUI64Enable),
   ("IANAAmount".toList, seti pEntry.Cfg.IANAAmount),
   ("StartAddress".toList, pEntry.Cfg.StartAddress.text),
   ("X_RDKCENTRAL_COM_DNSServersEnabled".toList,
     setb pEntry.Cfg.X_RDKCENTRAL_COM_DNSServersEnabled),
   ("X_RDKCENTRAL_COM_DNSServers".toList, pEntry.Cfg.X_RDKCENTRAL_COM_DNSServers.text)]

/-- The parameters `unsetpool_from_utopia` removes. -/
def poolParams (b : Build) : List CStr :=
  ["instancenumber".toList, "alias".toList, "Order".toList,
   (if b.prefixDelegation then "IAInterface" else "Interface").toList,
   "VendorClassID".toList, "UserClassID".toList, "SourceAddress".toList,
   "SourceAddressMask".toList, "IANAManualPrefixes".toList, "IAPDManualPrefixes".toList,
   "PrefixRangeBegin".toList, "PrefixRangeEnd".toList, "LeaseTime".toList,
   "IAPDAddLength".toList, "DUID".toList, "IAPDEnable".toList, "SourceAddressExclude".toList,
   "IANAEnable".toList, "UserClassIDExclude".toList, "VendorClassIDExclude".toList,
   "DUIDExclude".toList, "bEnabled".toList, "Status".toList,
   (if b.prefixDelegation then "IANAInterfacePrefixes" else "IANAPrefixes").toList,
   "IAPDPrefixes".toList, "RapidEnable".toList, "UnicastEnable".toList, "EUI64Enable".toList,
   "IANAAmount".toList, "StartAddress".toList, "X_RDKCENTRAL_COM_DNSServersEnabled".toList,
   "X_RDKCENTRAL_COM_DNSServers".toList]

def optionRecord (pEntry : PoolOption) : List (CStr × CStr) :=
  [("InstanceNumber".toList, seti pEntry.InstanceNumber), ("alias".toList, pEntry.Alias.text),
   ("Tag".toList, seti pEntry.Tag),
   ("PassthroughClient".toList, pEntry.PassthroughClient.text),
   ("Value".toList, pEntry.Value.text), ("bEnabled".toList, setb pEntry.bEnabled)]

def optionParams : List CStr :=
  ["InstanceNumber".toList, "alias".toList, "Tag".toList, "PassthroughClient".toList,
   "Value".toList, "bEnabled".toList]

def setpoolIntoUtopia (b : Build) (i : ℕ) (pEntry : PoolFull) (s : Syscfg) : Syscfg :=
  writeSlot (poolNs i) (poolRecord b pEntry) s

def unsetpoolFromUtopia (b : Build) (i : ℕ) (s : Syscfg) : Syscfg :=
  clearSlot (poolNs i) (poolParams b) s

def setpooloptionIntoUtopia (i k : ℕ) (pEntry : PoolOption) (s : Syscfg) : Syscfg :=
  writeSlot (optionNs i k) (optionRecord pEntry) s

def unsetpooloptionFromUtopia (i k : ℕ) (s : Syscfg) : Syscfg :=
  clearSlot (optionNs i k) optionParams s

structure Server (b : Build) where
  uDhcpv6ServerPoolNum : ℕ
  sDhcpv6ServerPool : ℕ → PoolFull
  uDhcpv6ServerPoolOptionNum : ℕ → ULONG
  sDhcpv6ServerPoolOption : ℕ → ℕ → PoolOption
  syscfg : Syscfg
  poolNum_le : uDhcpv6ServerPoolNum ≤ b.poolNum

inductive AnscStatus where
  | SUCCESS
  | FAILURE
  | NOT_SUPPORTED
  deriving DecidableEq

variable {b : Build}

def Server.instanceAt (s : Server b) (i : ℕ) : ULONG := (s.sDhcpv6ServerPool i).Cfg.InstanceNumber

def Server.findPool (s : Server b) (ulInstanceNumber : ULONG) : Option ℕ :=
  (List.range s.uDhcpv6ServerPoolNum).find? (fun i => s.instanceAt i = ulInstanceNumber)

/-- The interface's prefix path, kept by the `MULTILAN_FEATURE` build. -/
def lanPrefixes (b : Build) (c : PoolCfg) (old : Buf 320) : Buf 320 :=
  if b.multilan ∧ c.Interface.text ≠ [] then
    .snprintf (c.Interface.text ++ "IPv6Prefix.1.".toList)
  else old

/-- The entry as it is stored; `pretm` is the sysevent value of the lease time. -/
def addedPool (b : Build) (pretm : CStr) (pEntry : PoolFull) : PoolFull :=
  { Cfg := { pEntry.Cfg with
      LeaseTime :=
        if b.multilan ∧ pretm ≠ [] then BitVec.ofInt 32 (atoi pretm) else pEntry.Cfg.LeaseTime }
    Info := { pEntry.Info with
      IANAPrefixes := lanPrefixes b pEntry.Cfg pEntry.Info.IANAPrefixes
      Status := statusEnabled } }

def setPoolNumber (n : ℕ) (s : Syscfg) : Syscfg :=
  set s (serverNs, "poolnumber".toList) (decimal n)

def setOptionNumber (i : ℕ) (n : ULONG) (s : Syscfg) : Syscfg :=
  set s (poolNs i, "optionnumber".toList) (seti n)

def cosaDmlDhcpv6sAddPool (s : Server b) (pretm : CStr) (pEntry : PoolFull) :
    AnscStatus × Server b :=
  if h : s.uDhcpv6ServerPoolNum < b.poolNum then
    let i := s.uDhcpv6ServerPoolNum
    let added := addedPool b pretm pEntry
    (.SUCCESS, { s with
      uDhcpv6ServerPoolNum := i + 1
      sDhcpv6ServerPool := Function.update s.sDhcpv6ServerPool i added
      syscfg := setPoolNumber (i + 1) (setpoolIntoUtopia b i added s.syscfg)
      poolNum_le := h })
  else (.NOT_SUPPORTED, s)

def Server.lastSlot (s : Server b) : ℕ :=
  if s.uDhcpv6ServerPoolNum = 0 then b.poolNum - 1
  else if s.uDhcpv6ServerPoolNum < b.poolNum then s.uDhcpv6ServerPoolNum - 1
  else b.poolNum - 1

/-- Only the `MULTILAN_FEATURE` build moves the pools after i one slot down. -/
def Server.shiftPools (s : Server b) (i : ℕ) : (ℕ → PoolFull) × Syscfg :=
  if b.multilan then
    shiftDown poolNs (poolRecord b) i (s.uDhcpv6ServerPoolNum - (i + 1))
      (s.sDhcpv6ServerPool, s.syscfg)
  else (s.sDhcpv6ServerPool, s.syscfg)

def cosaDmlDhcpv6sDelPool (s : Server b) (ulInstanceNumber : ULONG) : AnscStatus × Server b :=
  let shifted := s.shiftPools ((s.findPool ulInstanceNumber).getD s.uDhcpv6ServerPoolNum)
  (.SUCCESS, { s with
    uDhcpv6ServerPoolNum := s.uDhcpv6ServerPoolNum - 1
    sDhcpv6ServerPool := Function.update shifted.1 s.lastSlot PoolFull.zero
    syscfg := setPoolNumber (s.uDhcpv6ServerPoolNum - 1)
      (unsetpoolFromUtopia b s.lastSlot shifted.2)
    poolNum_le := Nat.le_trans (Nat.sub_le _ _) s.poolNum_le })

/-- Appends the manual prefixes unless they are already named. -/
def syncPrefixes (manual prefixes : Buf 320) : Option (Buf 320) :=
  if manual.text ≠ [] ∧ ¬ manual.text <:+: prefixes.text then
    if h : (prefixes.text ++ ',' :: manual.text).length < 320 then
      some ⟨prefixes.text ++ ',' :: manual.text, h⟩
    else none
  else some prefixes

def cosaDmlDhcpv6sSetPoolCfg (s : Server b) (pCfg : PoolCfg) : Option (AnscStatus × Server b) := do
  let found := (s.findPool pCfg.InstanceNumber).getD s.uDhcpv6ServerPoolNum
  let i := if found < b.poolNum then found else b.poolNum - 1
  let old := (s.sDhcpv6ServerPool i).Info
  let prefixes ← syncPrefixes pCfg.IANAManualPrefixes (lanPrefixes b pCfg old.IANAPrefixes)
  let entry : PoolFull := { Cfg := pCfg, Info := { old with IANAPrefixes := prefixes } }
  some (.SUCCESS, { s with
    sDhcpv6ServerPool := Function.update s.sDhcpv6ServerPool i entry
    syscfg := setpoolIntoUtopia b i entry s.syscfg })

def cosaDmlDhcpv6sAddOption (s : Server b) (ulPoolInstanceNumber : ULONG) (pEntry : PoolOption) :
    AnscStatus × Server b :=
  match s.findPool ulPoolInstanceNumber with
  | none => (.SUCCESS, s)
  | some i =>
    if poolOptionNum ≤ (s.uDhcpv6ServerPoolOptionNum i).toNat then (.NOT_SUPPORTED, s)
    else
      let k := (s.uDhcpv6ServerPoolOptionNum i).toNat
      let count := s.uDhcpv6ServerPoolOptionNum i + 1#32
      (.SUCCESS, { s with
        uDhcpv6ServerPoolOptionNum := Function.update s.uDhcpv6ServerPoolOptionNum i count
        sDhcpv6ServerPoolOption := Function.update s.sDhcpv6ServerPoolOption i
          (Function.update (s.sDhcpv6ServerPoolOption i) k pEntry)
        syscfg := setpooloptionIntoUtopia i k pEntry (setOptionNumber i count s.syscfg) })

def Server.findOption (s : Server b) (i : ℕ) (ulInstanceNumber : ULONG) : Option ℕ :=
  (List.range (s.uDhcpv6ServerPoolOptionNum i).toNat).find?
    (fun k => (s.sDhcpv6ServerPoolOption i k).InstanceNumber = ulInstanceNumber)

/-- The options after k move one slot down; only the `MULTILAN_FEATURE` build
moves their records along, the others clear the record of slot k. -/
def Server.shiftOptions (s : Server b) (i k : ℕ) : (ℕ → PoolOption) × Syscfg :=
  let n := (s.uDhcpv6ServerPoolOptionNum i).toNat
  if b.multilan then
    let shifted := shiftDown (optionNs i) optionRecord k (n - (k + 1))
      (s.sDhcpv6ServerPoolOption i, s.syscfg)
    (shifted.1, unsetpooloptionFromUtopia i (max (k + 1) n - 1) shifted.2)
  else
    (shiftArray k (n - (k + 1)) (s.sDhcpv6ServerPoolOption i),
      unsetpooloptionFromUtopia i k s.syscfg)

def cosaDmlDhcpv6sDelOption (s : Server b) (ulPoolInstanceNumber ulInstanceNumber : ULONG) :
    Option (AnscStatus × Server b) :=
  match s.findPool ulPoolInstanceNumber with
  | none => some (.SUCCESS, s)
  | some i =>
    let n := (s.uDhcpv6ServerPoolOptionNum i).toNat
    if poolOptionNum < n then none
    else
      let shifted := s.shiftOptions i ((s.findOption i ulInstanceNumber).getD n)
      let count := s.uDhcpv6ServerPoolOptionNum i - 1#32
      some (.SUCCESS, { s with
        uDhcpv6ServerPoolOptionNum := Function.update s.uDhcpv6ServerPoolOptionNum i count
        sDhcpv6ServerPoolOption := Function.update s.sDhcpv6ServerPoolOption i shifted.1
        syscfg := setOptionNumber i count shifted.2 })

def cosaDmlDhcpv6sSetOption (s : Server b) (ulPoolInstanceNumber : ULONG) (pEntry : PoolOption) :
    Option (AnscStatus × Server b) :=
  match s.findPool ulPoolInstanceNumber with
  | none => some (.FAILURE, s)
  | some i =>
    match s.findOption i pEntry.InstanceNumber with
    | none =>
      if poolOptionNum < (s.uDhcpv6ServerPoolOptionNum i).toNat then none else some (.FAILURE, s)
    | some k =>
      if poolOptionNum ≤ k then none
      else some (.SUCCESS, { s with
        sDhcpv6ServerPoolOption := Function.update s.sDhcpv6ServerPoolOption i
          (Function.update (s.sDhcpv6ServerPoolOption i) k pEntry)
        syscfg := setpooloptionIntoUtopia i k pEntry s.syscfg })

inductive Op where
  | addPool (pretm : CStr) (pEntry : PoolFull)
  | delPool (ulInstanceNumber : ULONG)
  | setPoolCfg (pCfg : PoolCfg)
  | addOption (ulPoolInstanceNumber : ULONG) (pEntry : PoolOption)
  | delOption (ulPoolInstanceNumber ulInstanceNumber : ULONG)
  | setOption (ulPoolInstanceNumber : ULONG) (pEntry : PoolOption)

def step (s : Server b) : Op → Option (Server b)
  | .addPool pretm pEntry => some (cosaDmlDhcpv6sAddPool s pretm pEntry).2
  | .delPool i => some (cosaDmlDhcpv6sDelPool s i).2
  | .setPoolCfg pCfg => (cosaDmlDhcpv6sSetPoolCfg s pCfg).map Prod.snd
  | .addOption p pEntry => some (cosaDmlDhcpv6sAddOption s p pEntry).2
  | .delOption p k => (cosaDmlDhcpv6sDelOption s p k).map Prod.snd
  | .setOption p pEntry => (cosaDmlDhcpv6sSetOption s p pEntry).map Prod.snd

def Server.optionList (s : Server b) (i : ℕ) : List PoolOption :=
  (List.range (s.uDhcpv6ServerPoolOptionNum i).toNat).map (s.sDhcpv6ServerPoolOption i)

/-- What the arrays stand for: configurations with their ordered options, one
for each pool instance number. -/
abbrev Table := List (PoolCfg × List PoolOption)

def Server.table (s : Server b) : Table :=
  (List.range s.uDhcpv6ServerPoolNum).map (fun i => ((s.sDhcpv6ServerPool i).Cfg, s.optionList i))

def Table.modify (t : Table) (ulPoolInstanceNumber : ULONG)
    (f : PoolCfg × List PoolOption → PoolCfg × List PoolOption) : Table :=
  t.map (fun e => if e.1.InstanceNumber = ulPoolInstanceNumber then f e else e)

def tableStep (b : Build) (t : Table) : Op → Table
  | .addPool pretm pEntry =>
    if t.length < b.poolNum then t ++ [((addedPool b pretm pEntry).Cfg, [])] else t
  | .delPool i => t.filter (fun e => e.1.InstanceNumber ≠ i)
  | .setPoolCfg pCfg => t.modify pCfg.InstanceNumber (fun e => (pCfg, e.2))
  | .addOption p pEntry =>
    t.modify p (fun e => (e.1, if e.2.length < poolOptionNum then e.2 ++ [pEntry] else e.2))
  | .delOption p k => t.modify p (fun e => (e.1, e.2.filter (fun o => o.InstanceNumber ≠ k)))
  | .setOption p pEntry => t.modify p (fun e =>
      (e.1, e.2.map (fun o => if o.InstanceNumber = pEntry.InstanceNumber then pEntry else o)))

/-- Counts in range, distinct instance numbers, and syscfg in step with the
arrays: every slot holds the record of its element, and the stored counts are
the counts in memory. -/
structure Consistent (s : Server b) : Prop where
  counts : ∀ i < s.uDhcpv6ServerPoolNum, (s.uDhcpv6ServerPoolOptionNum i).toNat ≤ poolOptionNum
  distinct : ((List.range s.uDhcpv6ServerPoolNum).map s.instanceAt).Nodup
  optionsDistinct : ∀ i < s.uDhcpv6ServerPoolNum,
    ((s.optionList i).map PoolOption.InstanceNumber).Nodup
  pools : ∀ i < s.uDhcpv6ServerPoolNum,
    Holds s.syscfg (poolNs i) (poolRecord b (s.sDhcpv6ServerPool i))
  options : ∀ i < s.uDhcpv6ServerPoolNum, ∀ k < (s.uDhcpv6ServerPoolOptionNum i).toNat,
    Holds s.syscfg (optionNs i k) (optionRecord (s.sDhcpv6ServerPoolOption i k))
  poolnumber : s.syscfg (serverNs, "poolnumber".toList) = some (decimal s.uDhcpv6ServerPoolNum)
  optionnumber : ∀ i < s.uDhcpv6ServerPoolNum,
    (s.syscfg (poolNs i, "optionnumber".toList)).getD (seti 0#32) =
      seti (s.uDhcpv6ServerPoolOptionNum i)

/-- The call names a pool or an option that does not exist. -/
def Absent (s : Server b) : Op → Prop
  | .addPool _ _ => False
  | .delPool i => ∀ j < s.uDhcpv6ServerPoolNum, s.instanceAt j ≠ i
  | .setPoolCfg pCfg => ∀ j < s.uDhcpv6ServerPoolNum, s.instanceAt j ≠ pCfg.InstanceNumber
  | .addOption p _ => ∀ j < s.uDhcpv6ServerPoolNum, s.instanceAt j ≠ p
  | .delOption p k => ∀ j < s.uDhcpv6ServerPoolNum, s.instanceAt j = p →
      ∀ o ∈ s.optionList j, o.InstanceNumber ≠ k
  | .setOption p pEntry => ∀ j < s.uDhcpv6ServerPoolNum, s.instanceAt j = p →
      ∀ o ∈ s.optionList j, o.InstanceNumber ≠ pEntry.InstanceNumber

def Fresh (s : Server b) : Op → Prop
  | .addPool _ pEntry =>
    ∀ j < s.uDhcpv6ServerPoolNum, s.instanceAt j ≠ pEntry.Cfg.InstanceNumber
  | .addOption p pEntry => ∀ j < s.uDhcpv6ServerPoolNum, s.instanceAt j = p →
      ∀ o ∈ s.optionList j, o.InstanceNumber ≠ pEntry.InstanceNumber
  | _ => True

instance (s : Server b) : (op : Op) → Decidable (Fresh s op)
  | .addPool _ pEntry => inferInstanceAs (Decidable (∀ j < s.uDhcpv6ServerPoolNum,
      s.instanceAt j ≠ pEntry.Cfg.InstanceNumber))
  | .addOption p pEntry => inferInstanceAs (Decidable (∀ j < s.uDhcpv6ServerPoolNum,
      s.instanceAt j = p → ∀ o ∈ s.optionList j, o.InstanceNumber ≠ pEntry.InstanceNumber))
  | .delPool _ | .setPoolCfg _ | .delOption _ _ | .setOption _ _ => inferInstanceAs (Decidable True)

/-- A step does to the table what its call says, does nothing when it names
something absent, and leaves a consistent state. -/
structure Behaves (s : Server b) (op : Op) (t : Server b) : Prop where
  table_eq : t.table = tableStep b s.table op
  absent : Absent s op → t = s
  consistent : Consistent t

def Proper (s : Server b) : Op → Prop
  | .addPool _ _ => s.uDhcpv6ServerPoolNum < b.poolNum →
      s.uDhcpv6ServerPoolOptionNum s.uDhcpv6ServerPoolNum = 0#32 ∧
        (s.syscfg (poolNs s.uDhcpv6ServerPoolNum, "optionnumber".toList)).getD (seti 0#32) =
          seti 0#32
  | .delPool i => ∃ j < s.uDhcpv6ServerPoolNum, s.instanceAt j = i ∧
      ∀ l, j ≤ l → l + 1 < s.uDhcpv6ServerPoolNum → s.optionList l = s.optionList (l + 1)
  | .setPoolCfg pCfg => ∃ j < s.uDhcpv6ServerPoolNum, s.instanceAt j = pCfg.InstanceNumber ∧
      (syncPrefixes pCfg.IANAManualPrefixes
        (lanPrefixes b pCfg (s.sDhcpv6ServerPool j).Info.IANAPrefixes)).isSome
  | .addOption _ _ => True
  | .delOption p k => ∀ j < s.uDhcpv6ServerPoolNum, s.instanceAt j = p →
      ∃ l < (s.uDhcpv6ServerPoolOptionNum j).toNat,
        (s.sDhcpv6ServerPoolOption j l).InstanceNumber = k ∧
          (b.multilan = true ∨ l + 1 = (s.uDhcpv6ServerPoolOptionNum j).toNat)
  | .setOption _ _ => True

section names

theorem poolNs_eq (i : ℕ) : poolNs i = "dhcpv6spool".toList ++ (decimal i ++ ['0']) := by
  change "dhcpv6s".toList ++ "pool".toList ++ decimal i ++ [] ++ ['0'] = _
  simp

theorem optionNs_eq (i k : ℕ) :
    optionNs i k = "dhcpv6spool".toList ++
      (decimal i ++ ('o' :: ("ption".toList ++ decimal k))) := by
  change "dhcpv6s".toList ++ "pool".toList ++ decimal i ++ "option".toList ++ decimal k = _
  simp

theorem poolNs_injective : Function.Injective poolNs := by
  intro i j h
  rw [poolNs_eq, poolNs_eq, List.append_cancel_left_eq] at h
  exact decimal_injective (List.append_cancel_right h)

theorem optionNs_inj {i j k l : ℕ} (h : optionNs i k = optionNs j l) : i = j ∧ k = l := by
  rw [optionNs_eq, optionNs_eq, List.append_cancel_left_eq] at h
  obtain ⟨hij, hrest⟩ := decimal_cons_inj rfl h
  exact ⟨hij, decimal_injective (List.append_cancel_left hrest)⟩

theorem poolNs_ne_optionNs (i j k : ℕ) : poolNs i ≠ optionNs j k := by
  intro h
  rw [poolNs_eq, optionNs_eq, List.append_cancel_left_eq] at h
  have hmem : 'o' ∈ decimal i ++ ['0'] := by
    rw [h]
    simp
  rcases List.mem_append.mp hmem with hdigit | hlast
  · exact absurd (isDigit_of_mem_decimal hdigit) (by decide)
  · exact absurd hlast (by decide)

theorem serverNs_eq : serverNs = "dhcpv6s".toList ++ ['0', '0'] := rfl

private theorem pool_prefix (t : CStr) :
    "dhcpv6spool".toList ++ t = "dhcpv6s".toList ++ ('p' :: ("ool".toList ++ t)) := rfl

theorem serverNs_ne_poolNs (i : ℕ) : serverNs ≠ poolNs i := by
  intro h
  rw [poolNs_eq, pool_prefix, serverNs_eq, List.append_cancel_left_eq] at h
  exact absurd (List.cons.inj h).1 (by decide)

theorem serverNs_ne_optionNs (i k : ℕ) : serverNs ≠ optionNs i k := by
  intro h
  rw [optionNs_eq, pool_prefix, serverNs_eq, List.append_cancel_left_eq] at h
  exact absurd (List.cons.inj h).1 (by decide)

end names

section records

variable (b : Build)

theorem keys_poolRecord (pEntry : PoolFull) :
    keys (poolRecord b pEntry) = poolParams b := by
  simp only [keys, poolRecord, poolParams, List.map_cons, List.map_nil]

theorem keys_optionRecord (pEntry : PoolOption) : keys (optionRecord pEntry) = optionParams := rfl

theorem poolNames_nodup : ("optionnumber".toList :: poolParams b).Nodup := by
  unfold poolParams
  cases b.prefixDelegation
  all_goals
    simp only [Bool.false_eq_true, if_true, if_false]
    repeat rw [String.toList_ofList]
    decide +kernel

theorem poolParams_nodup : (poolParams b).Nodup :=
  (List.nodup_cons.mp (poolNames_nodup b)).2

theorem optionnumber_notMem : "optionnumber".toList ∉ poolParams b :=
  (List.nodup_cons.mp (poolNames_nodup b)).1

theorem optionnumber_notMem_record (pEntry : PoolFull) :
    "optionnumber".toList ∉ keys (poolRecord b pEntry) := by
  rw [keys_poolRecord]
  exact optionnumber_notMem b

theorem poolRecord_nodup (pEntry : PoolFull) :
    (keys (poolRecord b pEntry)).Nodup := by
  rw [keys_poolRecord]
  exact poolParams_nodup b

theorem optionRecord_nodup (pEntry : PoolOption) : (keys (optionRecord pEntry)).Nodup := by
  rw [keys_optionRecord]
  decide +kernel

theorem setPoolNumber_of_ne {ns : CStr} (h : ns ≠ serverNs) (n : ℕ) (m : Syscfg) (k : CStr) :
    setPoolNumber n m (ns, k) = m (ns, k) :=
  set_of_ne m _ (fun hk => h (Prod.mk.inj hk).1)

theorem setpool_optionnumber (i j : ℕ) (pEntry : PoolFull) (m : Syscfg) :
    setpoolIntoUtopia b i pEntry m (poolNs j, "optionnumber".toList) =
      m (poolNs j, "optionnumber".toList) :=
  writeSlot_of_notMem (optionnumber_notMem_record b pEntry) _ _ _

theorem unsetpool_optionnumber (i j : ℕ) (m : Syscfg) :
    unsetpoolFromUtopia b i m (poolNs j, "optionnumber".toList) =
      m (poolNs j, "optionnumber".toList) :=
  clearSlot_of_notMem (optionnumber_notMem b) _ _ _

theorem holds_setPoolNumber {i n : ℕ} {r : List (CStr × CStr)} {m : Syscfg}
    (h : Holds m (poolNs i) r) : Holds (setPoolNumber n m) (poolNs i) r :=
  holds_congr (fun k => setPoolNumber_of_ne (serverNs_ne_poolNs i).symm n m k) h

end records

variable {p : ULONG} {i : ℕ} {i k : ℕ}

section lookup

variable {s : Server b}

theorem instanceAt_inj (hs : Consistent s) {i j : ℕ} (hi : i < s.uDhcpv6ServerPoolNum)
    (hj : j < s.uDhcpv6ServerPoolNum) (h : s.instanceAt i = s.instanceAt j) : i = j :=
  List.inj_on_of_nodup_map hs.distinct (List.mem_range.mpr hi) (List.mem_range.mpr hj) h

theorem findPool_eq_some (hs : Consistent s) :
    s.findPool p = some i ↔ i < s.uDhcpv6ServerPoolNum ∧ s.instanceAt i = p := by
  unfold Server.findPool
  rw [List.find?_range_eq_some]
  simp only [decide_eq_true_eq, List.mem_range, Bool.not_eq_true', decide_eq_false_iff_not]
  constructor
  · rintro ⟨hp, hi, -⟩
    exact ⟨hi, hp⟩
  · rintro ⟨hi, hp⟩
    refine ⟨hp, hi, fun j hj hjp => ?_⟩
    have hsame := instanceAt_inj hs (by omega) hi (hjp.trans hp.symm)
    omega

theorem findPool_eq_none :
    s.findPool p = none ↔ ∀ j < s.uDhcpv6ServerPoolNum, s.instanceAt j ≠ p := by
  simp [Server.findPool, List.find?_eq_none]

theorem optionAt_inj (hs : Consistent s) {i k l : ℕ} (hi : i < s.uDhcpv6ServerPoolNum)
    (hk : k < (s.uDhcpv6ServerPoolOptionNum i).toNat)
    (hl : l < (s.uDhcpv6ServerPoolOptionNum i).toNat)
    (h : (s.sDhcpv6ServerPoolOption i k).InstanceNumber =
      (s.sDhcpv6ServerPoolOption i l).InstanceNumber) : k = l := by
  have hnd := hs.optionsDistinct i hi
  rw [Server.optionList, List.map_map] at hnd
  exact List.inj_on_of_nodup_map hnd (List.mem_range.mpr hk) (List.mem_range.mpr hl) h

theorem findOption_eq_some (hs : Consistent s)
    (hi : i < s.uDhcpv6ServerPoolNum) : s.findOption i p = some k ↔
      k < (s.uDhcpv6ServerPoolOptionNum i).toNat ∧
        (s.sDhcpv6ServerPoolOption i k).InstanceNumber = p := by
  unfold Server.findOption
  rw [List.find?_range_eq_some]
  simp only [decide_eq_true_eq, List.mem_range, Bool.not_eq_true', decide_eq_false_iff_not]
  constructor
  · rintro ⟨hp, hk, -⟩
    exact ⟨hk, hp⟩
  · rintro ⟨hk, hp⟩
    refine ⟨hp, hk, fun l hl hlp => ?_⟩
    have hsame := optionAt_inj hs hi (by omega) hk (hlp.trans hp.symm)
    omega

theorem findOption_eq_none :
    s.findOption i p = none ↔ ∀ o ∈ s.optionList i, o.InstanceNumber ≠ p := by
  simp [Server.findOption, Server.optionList, List.find?_eq_none]

theorem modify_table (hs : Consistent s) (hi : i < s.uDhcpv6ServerPoolNum)
    (f : PoolCfg × List PoolOption → PoolCfg × List PoolOption) (g : ℕ → PoolCfg × List PoolOption)
    (hg : g i = f ((s.sDhcpv6ServerPool i).Cfg, s.optionList i))
    (hother : ∀ j, j ≠ i → g j = ((s.sDhcpv6ServerPool j).Cfg, s.optionList j)) :
    (List.range s.uDhcpv6ServerPoolNum).map g = s.table.modify (s.instanceAt i) f := by
  unfold Server.table Table.modify
  rw [List.map_map]
  refine List.map_congr_left (fun j hj => ?_)
  rw [List.mem_range] at hj
  by_cases hji : j = i
  · subst hji
    simp only [Function.comp_apply, hg, Server.instanceAt, if_true]
  · have hne : (s.sDhcpv6ServerPool j).Cfg.InstanceNumber ≠ s.instanceAt i :=
      fun h => hji (instanceAt_inj hs hj hi h)
    simp only [Function.comp_apply, hother j hji, if_neg hne]

theorem modify_absent (h : ∀ j < s.uDhcpv6ServerPoolNum, s.instanceAt j ≠ p)
    (f : PoolCfg × List PoolOption → PoolCfg × List PoolOption) : s.table.modify p f = s.table := by
  unfold Server.table Table.modify
  rw [List.map_map]
  refine List.map_congr_left (fun j hj => ?_)
  exact if_neg (h j (List.mem_range.mp hj))

end lookup

section steps

variable {s : Server b}

theorem table_length : s.table.length = s.uDhcpv6ServerPoolNum := by simp [Server.table]

theorem addPool_eq (hroom : s.uDhcpv6ServerPoolNum < b.poolNum) (pretm : CStr) (pEntry : PoolFull) :
    ∃ t, (cosaDmlDhcpv6sAddPool s pretm pEntry).2 = t ∧
      t.uDhcpv6ServerPoolNum = s.uDhcpv6ServerPoolNum + 1 ∧
      t.sDhcpv6ServerPool = Function.update s.sDhcpv6ServerPool s.uDhcpv6ServerPoolNum
        (addedPool b pretm pEntry) ∧
      t.uDhcpv6ServerPoolOptionNum = s.uDhcpv6ServerPoolOptionNum ∧
      t.sDhcpv6ServerPoolOption = s.sDhcpv6ServerPoolOption ∧
      t.syscfg = setPoolNumber (s.uDhcpv6ServerPoolNum + 1)
        (setpoolIntoUtopia b s.uDhcpv6ServerPoolNum (addedPool b pretm pEntry) s.syscfg) := by
  unfold cosaDmlDhcpv6sAddPool
  rw [dif_pos hroom]
  exact ⟨_, rfl, rfl, rfl, rfl, rfl, rfl⟩

theorem optionList_congr {s t : Server b}
    (hnum : t.uDhcpv6ServerPoolOptionNum i = s.uDhcpv6ServerPoolOptionNum i)
    (hopt : t.sDhcpv6ServerPoolOption i = s.sDhcpv6ServerPoolOption i) :
    t.optionList i = s.optionList i := by
  rw [Server.optionList, Server.optionList, hnum, hopt]

theorem optionList_empty (h : s.uDhcpv6ServerPoolOptionNum i = 0#32) :
    s.optionList i = [] := by
  rw [Server.optionList, h]
  rfl

theorem addPool_behaves (hs : Consistent s) {pretm : CStr} {pEntry : PoolFull}
    (hfresh : Fresh s (.addPool pretm pEntry)) (hproper : Proper s (.addPool pretm pEntry)) :
    Behaves s (.addPool pretm pEntry) (cosaDmlDhcpv6sAddPool s pretm pEntry).2 := by
  by_cases hroom : s.uDhcpv6ServerPoolNum < b.poolNum
  swap
  · have hfull : (cosaDmlDhcpv6sAddPool s pretm pEntry).2 = s := by
      unfold cosaDmlDhcpv6sAddPool
      rw [dif_neg hroom]
    rw [hfull]
    refine ⟨?_, fun h => h.elim, hs⟩
    simp only [tableStep, table_length, if_neg hroom]
  obtain ⟨hcount, hstored⟩ := hproper hroom
  obtain ⟨t, ht, hnum, hpool, honum, hopt, hsys⟩ := addPool_eq hroom pretm pEntry
  rw [ht]
  have hold : ∀ i < s.uDhcpv6ServerPoolNum, t.sDhcpv6ServerPool i = s.sDhcpv6ServerPool i := by
    intro i hi
    rw [hpool, Function.update_of_ne (by omega)]
  have hnew : t.sDhcpv6ServerPool s.uDhcpv6ServerPoolNum = addedPool b pretm pEntry := by
    rw [hpool, Function.update_self]
  have hlist : ∀ i, t.optionList i = s.optionList i :=
    fun i => optionList_congr (by rw [honum]) (by rw [hopt])
  have hslot : ∀ i < s.uDhcpv6ServerPoolNum + 1,
      i < s.uDhcpv6ServerPoolNum ∨ i = s.uDhcpv6ServerPoolNum := fun i hi => by omega
  refine ⟨?_, fun h => h.elim, ?_, ?_, ?_, ?_, ?_, ?_, ?_⟩
  · simp only [tableStep, table_length, if_pos hroom]
    rw [Server.table, hnum, List.range_succ, List.map_append, List.map_singleton, hnew, hlist,
      optionList_empty hcount, Server.table]
    congr 1
    refine List.map_congr_left (fun i hi => ?_)
    rw [hold i (List.mem_range.mp hi), hlist]
  · intro i hi
    rw [hnum] at hi
    rw [honum]
    rcases hslot i hi with hlt | rfl
    · exact hs.counts i hlt
    · rw [hcount]
      exact Nat.zero_le _
  · have hinst : (List.range s.uDhcpv6ServerPoolNum).map t.instanceAt =
        (List.range s.uDhcpv6ServerPoolNum).map s.instanceAt := by
      refine List.map_congr_left (fun i hi => ?_)
      rw [Server.instanceAt, hold i (List.mem_range.mp hi), Server.instanceAt]
    rw [hnum, List.range_succ, List.map_append, List.map_singleton, hinst, Server.instanceAt, hnew]
    refine List.nodup_append.mpr ⟨hs.distinct, List.nodup_singleton _, ?_⟩
    intro x hx y hy hxy
    obtain ⟨j, hj, rfl⟩ := List.mem_map.mp hx
    rw [List.mem_singleton] at hy
    exact hfresh j (List.mem_range.mp hj) (hxy.trans hy)
  · intro i hi
    rw [hnum] at hi
    rw [hlist]
    rcases hslot i hi with hlt | rfl
    · exact hs.optionsDistinct i hlt
    · rw [optionList_empty hcount]
      exact List.nodup_nil
  · intro i hi
    rw [hnum] at hi
    rw [hsys]
    refine holds_setPoolNumber ?_
    rcases hslot i hi with hlt | rfl
    · rw [hold i hlt]
      refine holds_congr (fun k => writeSlot_of_ne ?_ _ _ _) (hs.pools i hlt)
      intro h
      have hsame := poolNs_injective h
      omega
    · rw [hnew]
      exact holds_writeSlot (poolRecord_nodup b _) _ _
  · intro i hi k hk
    rw [hnum] at hi
    rw [honum] at hk
    rw [hsys, hopt]
    rcases hslot i hi with hlt | rfl
    · refine holds_congr (fun q => ?_) (hs.options i hlt k hk)
      rw [setPoolNumber_of_ne (serverNs_ne_optionNs i k).symm]
      exact writeSlot_of_ne (poolNs_ne_optionNs _ i k).symm _ _ _
    · rw [hcount] at hk
      exact absurd hk (Nat.not_lt_zero k)
  · rw [hsys, hnum]
    exact set_self _ _ _
  · intro i hi
    rw [hnum] at hi
    rw [hsys, setPoolNumber_of_ne (serverNs_ne_poolNs i).symm, setpool_optionnumber, honum]
    rcases hslot i hi with hlt | rfl
    · exact hs.optionnumber i hlt
    · rw [hstored, hcount]

theorem lastSlot_eq (hpos : 0 < s.uDhcpv6ServerPoolNum) :
    s.lastSlot = s.uDhcpv6ServerPoolNum - 1 := by
  have hle := s.poolNum_le
  unfold Server.lastSlot
  split_ifs <;> omega

theorem poolNum_single (hm : b.multilan = false) : b.poolNum = 1 := by
  rw [Build.poolNum, hm]
  rfl

variable {j : ℕ}

theorem shiftPools_spec (hs : Consistent s) (hj : j < s.uDhcpv6ServerPoolNum) :
    (∀ i < s.uDhcpv6ServerPoolNum - 1,
      (s.shiftPools j).1 i = s.sDhcpv6ServerPool (if j ≤ i then i + 1 else i) ∧
        Holds (s.shiftPools j).2 (poolNs i)
          (poolRecord b (s.sDhcpv6ServerPool (if j ≤ i then i + 1 else i)))) ∧
      (∀ i k q, (s.shiftPools j).2 (optionNs i k, q) = s.syscfg (optionNs i k, q)) ∧
      ∀ i, (s.shiftPools j).2 (poolNs i, "optionnumber".toList) =
        s.syscfg (poolNs i, "optionnumber".toList) := by
  have hle := s.poolNum_le
  cases hm : b.multilan
  · have hone := poolNum_single hm
    have hsame : s.shiftPools j = (s.sDhcpv6ServerPool, s.syscfg) := by
      rw [Server.shiftPools, hm]
      rfl
    rw [hsame]
    exact ⟨fun i hi => by omega, fun _ _ _ => rfl, fun _ => rfl⟩
  · have hshift : s.shiftPools j = shiftDown poolNs (poolRecord b) j
        (s.uDhcpv6ServerPoolNum - (j + 1)) (s.sDhcpv6ServerPool, s.syscfg) := by
      rw [Server.shiftPools, hm]
      rfl
    rw [hshift]
    refine ⟨fun i hi => ⟨?_, ?_⟩, fun i k q => ?_, fun i => ?_⟩
    · rw [shiftDown_fst, shiftArray_apply]
      by_cases hji : j ≤ i
      · rw [if_pos ⟨hji, by omega⟩, if_pos hji]
      · rw [if_neg (by omega), if_neg hji]
    · by_cases hji : j ≤ i
      · rw [if_pos hji]
        exact holds_shiftDown poolNs_injective (poolRecord_nodup b) hji (by omega) _
      · rw [if_neg hji]
        refine holds_congr (fun q => shiftDown_of_ne (fun l hl _ hil => ?_) _ q)
          (hs.pools i (by omega))
        have hsame := poolNs_injective hil
        omega
    · exact shiftDown_of_ne (fun l _ _ => (poolNs_ne_optionNs l i k).symm) _ q
    · exact shiftDown_of_notMem (optionnumber_notMem_record b) _ _ _ _

theorem delPool_eq (hs : Consistent s) (hj : j < s.uDhcpv6ServerPoolNum) :
    ∃ t, (cosaDmlDhcpv6sDelPool s (s.instanceAt j)).2 = t ∧
      t.uDhcpv6ServerPoolNum = s.uDhcpv6ServerPoolNum - 1 ∧
      (∀ i < s.uDhcpv6ServerPoolNum - 1,
        t.sDhcpv6ServerPool i = s.sDhcpv6ServerPool (if j ≤ i then i + 1 else i) ∧
          Holds t.syscfg (poolNs i)
            (poolRecord b (s.sDhcpv6ServerPool (if j ≤ i then i + 1 else i)))) ∧
      t.uDhcpv6ServerPoolOptionNum = s.uDhcpv6ServerPoolOptionNum ∧
      t.sDhcpv6ServerPoolOption = s.sDhcpv6ServerPoolOption ∧
      (∀ i k q, t.syscfg (optionNs i k, q) = s.syscfg (optionNs i k, q)) ∧
      (∀ i, t.syscfg (poolNs i, "optionnumber".toList) =
        s.syscfg (poolNs i, "optionnumber".toList)) ∧
      t.syscfg (serverNs, "poolnumber".toList) = some (decimal (s.uDhcpv6ServerPoolNum - 1)) := by
  have hfind : s.findPool (s.instanceAt j) = some j := (findPool_eq_some hs).mpr ⟨hj, rfl⟩
  have hlast := lastSlot_eq (s := s) (by omega)
  obtain ⟨hslots, hoptions, hcounts⟩ := shiftPools_spec hs hj
  unfold cosaDmlDhcpv6sDelPool
  rw [hfind, Option.getD_some, hlast]
  refine ⟨_, rfl, rfl, fun i hi => ⟨?_, ?_⟩, rfl, rfl, fun i k q => ?_, fun i => ?_, ?_⟩
  · exact (Function.update_of_ne (by omega) _ _).trans (hslots i hi).1
  · refine holds_setPoolNumber (holds_congr (fun q => clearSlot_of_ne ?_ _ _ q) (hslots i hi).2)
    intro h
    have hsame := poolNs_injective h
    omega
  · change setPoolNumber (s.uDhcpv6ServerPoolNum - 1)
      (unsetpoolFromUtopia b (s.uDhcpv6ServerPoolNum - 1) (s.shiftPools j).2) (optionNs i k, q) = _
    rw [setPoolNumber_of_ne (serverNs_ne_optionNs i k).symm, ← hoptions i k q]
    exact clearSlot_of_ne (poolNs_ne_optionNs _ i k).symm _ _ _
  · change setPoolNumber (s.uDhcpv6ServerPoolNum - 1)
      (unsetpoolFromUtopia b (s.uDhcpv6ServerPoolNum - 1) (s.shiftPools j).2) (poolNs i, _) = _
    rw [setPoolNumber_of_ne (serverNs_ne_poolNs i).symm, unsetpool_optionnumber]
    exact hcounts i
  · simp only [setPoolNumber, set_self]

theorem delPool_behaves (hs : Consistent s) {x : ULONG} (hproper : Proper s (.delPool x)) :
    Behaves s (.delPool x) (cosaDmlDhcpv6sDelPool s x).2 := by
  obtain ⟨j, hj, rfl, halike⟩ := hproper
  obtain ⟨t, ht, hnum, hpool, honum, hopt, hoptions, hcounts, hnumber⟩ := delPool_eq hs hj
  rw [ht]
  have hlist : ∀ i, t.optionList i = s.optionList i :=
    fun i => optionList_congr (by rw [honum]) (by rw [hopt])
  have hmoved : ∀ i < s.uDhcpv6ServerPoolNum - 1,
      s.optionList i = s.optionList (if j ≤ i then i + 1 else i) := by
    intro i hi
    by_cases hji : j ≤ i
    · rw [if_pos hji]
      exact halike i hji (by omega)
    · rw [if_neg hji]
  have htable : t.table = s.table.filter (fun e => e.1.InstanceNumber ≠ s.instanceAt j) := by
    unfold Server.table
    rw [filter_map_range _ _ hj, hnum]
    · refine List.map_congr_left (fun i hi => ?_)
      rw [List.mem_range] at hi
      rw [(hpool i hi).1, hlist, hmoved i hi]
    · intro i hi
      rw [decide_eq_decide, not_iff_not]
      exact ⟨instanceAt_inj hs hi hj, fun h => by rw [h]; rfl⟩
  have hinstances : (List.range t.uDhcpv6ServerPoolNum).map t.instanceAt =
      t.table.map (fun e => e.1.InstanceNumber) := by
    rw [Server.table, List.map_map]
    rfl
  have hinstances' : (List.range s.uDhcpv6ServerPoolNum).map s.instanceAt =
      s.table.map (fun e => e.1.InstanceNumber) := by
    rw [Server.table, List.map_map]
    rfl
  refine ⟨htable, fun h => absurd rfl (h j hj), ?_, ?_, ?_, ?_, ?_, ?_, ?_⟩
  · intro i hi
    rw [hnum] at hi
    rw [honum]
    exact hs.counts i (by omega)
  · have hnd := hs.distinct
    rw [hinstances'] at hnd
    rw [hinstances, htable]
    exact hnd.sublist (List.filter_sublist.map _)
  · intro i hi
    rw [hnum] at hi
    rw [hlist]
    exact hs.optionsDistinct i (by omega)
  · intro i hi
    rw [hnum] at hi
    rw [(hpool i hi).1]
    exact (hpool i hi).2
  · intro i hi k hk
    rw [hnum] at hi
    rw [honum] at hk
    rw [hopt]
    exact holds_congr (hoptions i k) (hs.options i (by omega) k hk)
  · rw [hnumber, hnum]
  · intro i hi
    rw [hnum] at hi
    rw [hcounts, honum]
    exact hs.optionnumber i (by omega)

theorem setPoolCfg_eq (hs : Consistent s) {pCfg : PoolCfg}
    (hj : j < s.uDhcpv6ServerPoolNum) (hinst : s.instanceAt j = pCfg.InstanceNumber)
    (hfits : (syncPrefixes pCfg.IANAManualPrefixes
      (lanPrefixes b pCfg (s.sDhcpv6ServerPool j).Info.IANAPrefixes)).isSome) :
    ∃ r t entry, cosaDmlDhcpv6sSetPoolCfg s pCfg = some (r, t) ∧ entry.Cfg = pCfg ∧
      t.uDhcpv6ServerPoolNum = s.uDhcpv6ServerPoolNum ∧
      t.sDhcpv6ServerPool = Function.update s.sDhcpv6ServerPool j entry ∧
      t.uDhcpv6ServerPoolOptionNum = s.uDhcpv6ServerPoolOptionNum ∧
      t.sDhcpv6ServerPoolOption = s.sDhcpv6ServerPoolOption ∧
      t.syscfg = setpoolIntoUtopia b j entry s.syscfg := by
  obtain ⟨prefixes, hprefixes⟩ := Option.isSome_iff_exists.mp hfits
  have hfind : s.findPool pCfg.InstanceNumber = some j := (findPool_eq_some hs).mpr ⟨hj, hinst⟩
  have hslot : j < b.poolNum := Nat.lt_of_lt_of_le hj s.poolNum_le
  simp only [cosaDmlDhcpv6sSetPoolCfg, hfind, Option.getD_some, if_pos hslot, hprefixes,
    Option.bind_eq_bind, Option.bind_some]
  exact ⟨_, _, _, rfl, rfl, rfl, rfl, rfl, rfl, rfl⟩

theorem setPoolCfg_behaves (hs : Consistent s) {pCfg : PoolCfg}
    (hproper : Proper s (.setPoolCfg pCfg)) :
    ∃ r t, cosaDmlDhcpv6sSetPoolCfg s pCfg = some (r, t) ∧ Behaves s (.setPoolCfg pCfg) t := by
  obtain ⟨j, hj, hinst, hfits⟩ := hproper
  obtain ⟨r, t, entry, ht, hcfg, hnum, hpool, honum, hopt, hsys⟩ :=
    setPoolCfg_eq hs hj hinst hfits
  refine ⟨r, t, ht, ?_⟩
  have hself : t.sDhcpv6ServerPool j = entry := by rw [hpool, Function.update_self]
  have hkeep : ∀ i, i ≠ j → t.sDhcpv6ServerPool i = s.sDhcpv6ServerPool i := by
    intro i hi
    rw [hpool, Function.update_of_ne hi]
  have hlist : ∀ i, t.optionList i = s.optionList i :=
    fun i => optionList_congr (by rw [honum]) (by rw [hopt])
  have hinstance : t.instanceAt = s.instanceAt := by
    funext i
    by_cases hij : i = j
    · rw [hij, Server.instanceAt, hself, hcfg, hinst]
    · rw [Server.instanceAt, hkeep i hij, Server.instanceAt]
  refine ⟨?_, fun h => absurd hinst (h j hj), ?_, ?_, ?_, ?_, ?_, ?_, ?_⟩
  · rw [tableStep, ← hinst, Server.table, hnum]
    refine modify_table hs hj _ _ ?_ (fun i hi => ?_)
    · rw [hself, hcfg, hlist]
    · rw [hkeep i hi, hlist]
  · rw [hnum, honum]
    exact hs.counts
  · rw [hnum, hinstance]
    exact hs.distinct
  · intro i hi
    rw [hnum] at hi
    rw [hlist]
    exact hs.optionsDistinct i hi
  · intro i hi
    rw [hnum] at hi
    rw [hsys]
    by_cases hij : i = j
    · rw [hij, hself]
      exact holds_writeSlot (poolRecord_nodup b _) _ _
    · rw [hkeep i hij]
      exact holds_congr (fun q => writeSlot_of_ne (fun h => hij (poolNs_injective h)) _ _ q)
        (hs.pools i hi)
  · intro i hi k hk
    rw [hnum] at hi
    rw [honum] at hk
    rw [hsys, hopt]
    exact holds_congr (fun q => writeSlot_of_ne (poolNs_ne_optionNs j i k).symm _ _ q)
      (hs.options i hi k hk)
  · rw [hsys, hnum, ← hs.poolnumber]
    exact writeSlot_of_ne (serverNs_ne_poolNs j) _ _ _
  · intro i hi
    rw [hnum] at hi
    rw [hsys, setpool_optionnumber, honum]
    exact hs.optionnumber i hi

/-- The pools, and the options of every pool but the j-th, are as they were. -/
structure Others (s t : Server b) (j : ℕ) : Prop where
  num : t.uDhcpv6ServerPoolNum = s.uDhcpv6ServerPoolNum
  pool : t.sDhcpv6ServerPool = s.sDhcpv6ServerPool
  onum : ∀ i, i ≠ j → t.uDhcpv6ServerPoolOptionNum i = s.uDhcpv6ServerPoolOptionNum i
  opt : ∀ i, i ≠ j → t.sDhcpv6ServerPoolOption i = s.sDhcpv6ServerPoolOption i

variable {t : Server b}

theorem others_of_update {n : ULONG} {os : ℕ → PoolOption}
    (hnum : t.uDhcpv6ServerPoolNum = s.uDhcpv6ServerPoolNum)
    (hpool : t.sDhcpv6ServerPool = s.sDhcpv6ServerPool)
    (honum : t.uDhcpv6ServerPoolOptionNum = Function.update s.uDhcpv6ServerPoolOptionNum j n)
    (hopt : t.sDhcpv6ServerPoolOption = Function.update s.sDhcpv6ServerPoolOption j os) :
    Others s t j :=
  ⟨hnum, hpool, fun i hi => by rw [honum, Function.update_of_ne hi],
    fun i hi => by rw [hopt, Function.update_of_ne hi]⟩

theorem consistent_of_options (hs : Consistent s) (ho : Others s t j)
    (hsys : ∀ ns q, (ns, q) ≠ (poolNs j, "optionnumber".toList) → (∀ k, ns ≠ optionNs j k) →
      t.syscfg (ns, q) = s.syscfg (ns, q))
    (hcount : (t.uDhcpv6ServerPoolOptionNum j).toNat ≤ poolOptionNum)
    (hnd : ((t.optionList j).map PoolOption.InstanceNumber).Nodup)
    (hholds : ∀ k < (t.uDhcpv6ServerPoolOptionNum j).toNat,
      Holds t.syscfg (optionNs j k) (optionRecord (t.sDhcpv6ServerPoolOption j k)))
    (hstored : (t.syscfg (poolNs j, "optionnumber".toList)).getD (seti 0#32) =
      seti (t.uDhcpv6ServerPoolOptionNum j)) : Consistent t := by
  obtain ⟨hnum, hpool, honum, hopt⟩ := ho
  have hlist : ∀ i, i ≠ j → t.optionList i = s.optionList i :=
    fun i hi => optionList_congr (honum i hi) (hopt i hi)
  have hpoolsys : ∀ i q, q ≠ "optionnumber".toList →
      t.syscfg (poolNs i, q) = s.syscfg (poolNs i, q) := fun i q hq =>
    hsys _ _ (fun h => hq (Prod.mk.inj h).2) (fun k => poolNs_ne_optionNs i j k)
  constructor
  · intro i hi
    rw [hnum] at hi
    by_cases hij : i = j
    · rw [hij]
      exact hcount
    · rw [honum i hij]
      exact hs.counts i hi
  · have hinst : t.instanceAt = s.instanceAt := by
      funext i
      rw [Server.instanceAt, hpool, Server.instanceAt]
    rw [hnum, hinst]
    exact hs.distinct
  · intro i hi
    rw [hnum] at hi
    by_cases hij : i = j
    · rw [hij]
      exact hnd
    · rw [hlist i hij]
      exact hs.optionsDistinct i hi
  · intro i hi e he
    rw [hnum] at hi
    rw [hpool] at he
    rw [hpoolsys i e.1]
    · exact hs.pools i hi e he
    · intro h
      have hmem : e.1 ∈ keys (poolRecord b (s.sDhcpv6ServerPool i)) := List.mem_map_of_mem he
      rw [h] at hmem
      exact optionnumber_notMem b hmem
  · intro i hi k hk
    rw [hnum] at hi
    by_cases hij : i = j
    · subst hij
      exact hholds k hk
    · rw [honum i hij] at hk
      rw [hopt i hij]
      refine holds_congr (fun q => hsys _ _ ?_ ?_) (hs.options i hi k hk)
      · intro h
        exact poolNs_ne_optionNs j i k (Prod.mk.inj h).1.symm
      · intro l h
        exact hij (optionNs_inj h).1
  · rw [hnum, ← hs.poolnumber]
    refine hsys _ _ ?_ (fun k => serverNs_ne_optionNs j k)
    intro h
    exact serverNs_ne_poolNs j (Prod.mk.inj h).1
  · intro i hi
    rw [hnum] at hi
    by_cases hij : i = j
    · rw [hij]
      exact hstored
    · rw [honum i hij, ← hs.optionnumber i hi]
      congr 1
      refine hsys _ _ ?_ (fun k => poolNs_ne_optionNs i j k)
      intro h
      exact hij (poolNs_injective (Prod.mk.inj h).1)

theorem table_of_options (hs : Consistent s)
    (hj : j < s.uDhcpv6ServerPoolNum) (hinst : s.instanceAt j = p) (ho : Others s t j)
    (f : List PoolOption → List PoolOption) (hf : t.optionList j = f (s.optionList j)) :
    t.table = s.table.modify p (fun e => (e.1, f e.2)) := by
  rw [Server.table, ho.num, ← hinst]
  refine modify_table hs hj _ _ ?_ (fun i hi => ?_)
  · rw [ho.pool, hf]
  · rw [ho.pool, optionList_congr (ho.onum i hi) (ho.opt i hi)]

theorem setOptionNumber_self (i : ℕ) (n : ULONG) (m : Syscfg) :
    setOptionNumber i n m (poolNs i, "optionnumber".toList) = some (seti n) := set_self _ _ _

theorem setOptionNumber_pair {ns q : CStr}
    (h : (ns, q) ≠ (poolNs i, "optionnumber".toList)) (n : ULONG) (m : Syscfg) :
    setOptionNumber i n m (ns, q) = m (ns, q) := set_of_ne m _ h

variable {pEntry : PoolOption}

theorem absent_addOption (hs : Consistent s)
    (h : s.findPool p = none) : Behaves s (.addOption p pEntry) s :=
  ⟨(modify_absent (findPool_eq_none.mp h) _).symm, fun _ => rfl, hs⟩

theorem addOption_eq (hfind : s.findPool p = some j)
    (hroom : ¬ poolOptionNum ≤ (s.uDhcpv6ServerPoolOptionNum j).toNat) (pEntry : PoolOption) :
    ∃ t, (cosaDmlDhcpv6sAddOption s p pEntry).2 = t ∧
      t.uDhcpv6ServerPoolNum = s.uDhcpv6ServerPoolNum ∧
      t.sDhcpv6ServerPool = s.sDhcpv6ServerPool ∧
      t.uDhcpv6ServerPoolOptionNum = Function.update s.uDhcpv6ServerPoolOptionNum j
        (s.uDhcpv6ServerPoolOptionNum j + 1#32) ∧
      t.sDhcpv6ServerPoolOption = Function.update s.sDhcpv6ServerPoolOption j (Function.update
        (s.sDhcpv6ServerPoolOption j) (s.uDhcpv6ServerPoolOptionNum j).toNat pEntry) ∧
      t.syscfg = setpooloptionIntoUtopia j (s.uDhcpv6ServerPoolOptionNum j).toNat pEntry
        (setOptionNumber j (s.uDhcpv6ServerPoolOptionNum j + 1#32) s.syscfg) := by
  simp only [cosaDmlDhcpv6sAddOption, hfind, if_neg hroom]
  exact ⟨_, rfl, rfl, rfl, rfl, rfl, rfl⟩

theorem addOption_behaves (hs : Consistent s) (hfresh : Fresh s (.addOption p pEntry)) :
    Behaves s (.addOption p pEntry) (cosaDmlDhcpv6sAddOption s p pEntry).2 := by
  cases hfind : s.findPool p with
  | none =>
    have hsame : (cosaDmlDhcpv6sAddOption s p pEntry).2 = s := by
      simp only [cosaDmlDhcpv6sAddOption, hfind]
    rw [hsame]
    exact absent_addOption hs hfind
  | some j =>
    obtain ⟨hj, hinst⟩ := (findPool_eq_some hs).mp hfind
    have hlength : (s.optionList j).length = (s.uDhcpv6ServerPoolOptionNum j).toNat := by
      simp [Server.optionList]
    by_cases hfull : poolOptionNum ≤ (s.uDhcpv6ServerPoolOptionNum j).toNat
    · have hsame : (cosaDmlDhcpv6sAddOption s p pEntry).2 = s := by
        simp only [cosaDmlDhcpv6sAddOption, hfind, if_pos hfull]
      rw [hsame]
      refine ⟨?_, fun h => absurd hinst (h j hj), hs⟩
      exact table_of_options hs hj hinst ⟨rfl, rfl, fun _ _ => rfl, fun _ _ => rfl⟩
        (fun os => if os.length < poolOptionNum then os ++ [pEntry] else os)
        (by rw [hlength, if_neg (by omega)])
    · obtain ⟨t, ht, hnum, hpool, honum, hopt, hsys⟩ := addOption_eq hfind hfull pEntry
      rw [ht]
      have hroom : (s.uDhcpv6ServerPoolOptionNum j).toNat < poolOptionNum := by omega
      have hcount : (t.uDhcpv6ServerPoolOptionNum j).toNat =
          (s.uDhcpv6ServerPoolOptionNum j).toNat + 1 := by
        rw [honum, Function.update_self, BitVec.toNat_add, show (1#32).toNat = 1 from rfl,
          Nat.mod_eq_of_lt]
        unfold poolOptionNum at hroom
        omega
      have holdOption : ∀ k < (s.uDhcpv6ServerPoolOptionNum j).toNat,
          t.sDhcpv6ServerPoolOption j k = s.sDhcpv6ServerPoolOption j k := by
        intro k hk
        rw [hopt, Function.update_self, Function.update_of_ne (by omega)]
      have hnewOption : t.sDhcpv6ServerPoolOption j (s.uDhcpv6ServerPoolOptionNum j).toNat =
          pEntry := by
        rw [hopt, Function.update_self, Function.update_self]
      have hlist : t.optionList j = s.optionList j ++ [pEntry] := by
        rw [Server.optionList, hcount, List.range_succ, List.map_append, List.map_singleton,
          hnewOption, Server.optionList]
        congr 1
        exact List.map_congr_left (fun k hk => holdOption k (List.mem_range.mp hk))
      have hothers := others_of_update hnum hpool honum hopt
      refine ⟨?_, fun h => absurd hinst (h j hj), ?_⟩
      · exact table_of_options hs hj hinst hothers
          (fun os => if os.length < poolOptionNum then os ++ [pEntry] else os)
          (by rw [hlength, if_pos hroom, hlist])
      · refine consistent_of_options hs hothers ?_ ?_ ?_ ?_ ?_
        · intro ns q hpair hns
          rw [hsys, ← setOptionNumber_pair hpair _ s.syscfg]
          exact writeSlot_of_ne (hns _) _ _ _
        · rw [hcount]
          exact hroom
        · rw [hlist, List.map_append, List.map_singleton]
          refine List.nodup_append.mpr ⟨hs.optionsDistinct j hj, List.nodup_singleton _, ?_⟩
          intro x hx y hy hxy
          obtain ⟨o, ho, rfl⟩ := List.mem_map.mp hx
          rw [List.mem_singleton] at hy
          exact hfresh j hj hinst o ho (hxy.trans hy)
        · intro k hk
          rw [hcount] at hk
          rw [hsys]
          by_cases hlast : k = (s.uDhcpv6ServerPoolOptionNum j).toNat
          · rw [hlast, hnewOption]
            exact holds_writeSlot (optionRecord_nodup _) _ _
          · rw [holdOption k (by omega)]
            refine holds_congr (fun q => ?_) (hs.options j hj k (by omega))
            rw [← setOptionNumber_pair (i := j)
              (fun h => poolNs_ne_optionNs j j k (Prod.mk.inj h).1.symm) _ s.syscfg]
            exact writeSlot_of_ne (fun h => hlast (optionNs_inj h).2) _ _ _
        · have hstored : t.syscfg (poolNs j, "optionnumber".toList) =
              some (seti (s.uDhcpv6ServerPoolOptionNum j + 1#32)) := by
            rw [hsys, ← setOptionNumber_self j _ s.syscfg]
            exact writeSlot_of_ne (poolNs_ne_optionNs j j _) _ _ _
          rw [hstored, honum, Function.update_self]
          rfl

theorem findOption_lt (hs : Consistent s) {x : ULONG} (hi : i < s.uDhcpv6ServerPoolNum)
    (h : s.findOption i x = some k) : k < poolOptionNum :=
  Nat.lt_of_lt_of_le ((findOption_eq_some hs hi).mp h).1 (hs.counts i hi)

theorem mem_optionList (h : k < (s.uDhcpv6ServerPoolOptionNum i).toNat) :
    s.sDhcpv6ServerPoolOption i k ∈ s.optionList i :=
  List.mem_map_of_mem (List.mem_range.mpr h)

theorem setOption_eq (hs : Consistent s) {j k : ℕ}
    (hfind : s.findPool p = some j) (hopt : s.findOption j pEntry.InstanceNumber = some k) :
    ∃ r t, cosaDmlDhcpv6sSetOption s p pEntry = some (r, t) ∧
      t.uDhcpv6ServerPoolNum = s.uDhcpv6ServerPoolNum ∧
      t.sDhcpv6ServerPool = s.sDhcpv6ServerPool ∧
      t.uDhcpv6ServerPoolOptionNum = s.uDhcpv6ServerPoolOptionNum ∧
      t.sDhcpv6ServerPoolOption = Function.update s.sDhcpv6ServerPoolOption j
        (Function.update (s.sDhcpv6ServerPoolOption j) k pEntry) ∧
      t.syscfg = setpooloptionIntoUtopia j k pEntry s.syscfg := by
  have hlt := findOption_lt hs ((findPool_eq_some hs).mp hfind).1 hopt
  simp only [cosaDmlDhcpv6sSetOption, hfind, hopt, if_neg (Nat.not_le.mpr hlt)]
  exact ⟨_, _, rfl, rfl, rfl, rfl, rfl, rfl⟩

theorem setOption_behaves (hs : Consistent s) (p : ULONG) (pEntry : PoolOption) :
    ∃ r t, cosaDmlDhcpv6sSetOption s p pEntry = some (r, t) ∧
      Behaves s (.setOption p pEntry) t := by
  cases hfind : s.findPool p with
  | none =>
    refine ⟨.FAILURE, s, by simp only [cosaDmlDhcpv6sSetOption, hfind], ?_, fun _ => rfl, hs⟩
    exact (modify_absent (findPool_eq_none.mp hfind) _).symm
  | some j =>
    obtain ⟨hj, hinst⟩ := (findPool_eq_some hs).mp hfind
    cases hopt : s.findOption j pEntry.InstanceNumber with
    | none =>
      have hcount := hs.counts j hj
      refine ⟨.FAILURE, s, ?_, ?_, fun _ => rfl, hs⟩
      · simp only [cosaDmlDhcpv6sSetOption, hfind, hopt, if_neg (Nat.not_lt.mpr hcount)]
      · refine table_of_options hs hj hinst ⟨rfl, rfl, fun _ _ => rfl, fun _ _ => rfl⟩
          (fun os => os.map (fun o =>
            if o.InstanceNumber = pEntry.InstanceNumber then pEntry else o)) ?_
        have hnone := findOption_eq_none.mp hopt
        conv_lhs => rw [← List.map_id (s.optionList j)]
        exact List.map_congr_left (fun o ho => (if_neg (hnone o ho)).symm)
    | some k =>
      obtain ⟨hk, hkinst⟩ := (findOption_eq_some hs hj).mp hopt
      obtain ⟨r, t, ht, hnum, hpool, honum, hoption, hsys⟩ := setOption_eq hs hfind hopt
      refine ⟨r, t, ht, ?_⟩
      have hself : t.sDhcpv6ServerPoolOption j k = pEntry := by
        rw [hoption, Function.update_self, Function.update_self]
      have hkeep : ∀ l, l ≠ k → t.sDhcpv6ServerPoolOption j l = s.sDhcpv6ServerPoolOption j l := by
        intro l hl
        rw [hoption, Function.update_self, Function.update_of_ne hl]
      have hothers : Others s t j := ⟨hnum, hpool, fun i _ => by rw [honum],
        fun i hi => by rw [hoption, Function.update_of_ne hi]⟩
      have hlist : t.optionList j = (s.optionList j).map (fun o =>
          if o.InstanceNumber = pEntry.InstanceNumber then pEntry else o) := by
        rw [Server.optionList, honum, Server.optionList, List.map_map]
        refine List.map_congr_left (fun l hl => ?_)
        rw [List.mem_range] at hl
        by_cases hlk : l = k
        · rw [hlk, hself]
          exact (if_pos hkinst).symm
        · rw [hkeep l hlk]
          refine (if_neg (fun h => hlk ?_)).symm
          exact optionAt_inj hs hj hl hk (h.trans hkinst.symm)
      refine ⟨?_, fun h => absurd hkinst (h j hj hinst _ (mem_optionList hk)), ?_⟩
      · exact table_of_options hs hj hinst hothers _ hlist
      · refine consistent_of_options hs hothers ?_ ?_ ?_ ?_ ?_
        · intro ns q _ hns
          rw [hsys]
          exact writeSlot_of_ne (hns _) _ _ _
        · rw [honum]
          exact hs.counts j hj
        · have hsame : (t.optionList j).map PoolOption.InstanceNumber =
              (s.optionList j).map PoolOption.InstanceNumber := by
            rw [hlist, List.map_map]
            refine List.map_congr_left (fun o _ => ?_)
            by_cases ho : o.InstanceNumber = pEntry.InstanceNumber
            · rw [Function.comp_apply, if_pos ho, ho]
            · simp only [Function.comp_apply, if_neg ho]
          rw [hsame]
          exact hs.optionsDistinct j hj
        · intro l hl
          rw [honum] at hl
          rw [hsys]
          by_cases hlk : l = k
          · rw [hlk, hself]
            exact holds_writeSlot (optionRecord_nodup _) _ _
          · rw [hkeep l hlk]
            exact holds_congr
              (fun q => writeSlot_of_ne (fun h => hlk (optionNs_inj h).2) _ _ q)
              (hs.options j hj l hl)
        · have hstored : t.syscfg (poolNs j, "optionnumber".toList) =
              s.syscfg (poolNs j, "optionnumber".toList) := by
            rw [hsys]
            exact writeSlot_of_ne (poolNs_ne_optionNs j j _) _ _ _
          rw [hstored, honum]
          exact hs.optionnumber j hj

theorem shiftOptions_spec (hs : Consistent s) {j l : ℕ} (hj : j < s.uDhcpv6ServerPoolNum)
    (hl : l < (s.uDhcpv6ServerPoolOptionNum j).toNat)
    (hlast : b.multilan = true ∨ l + 1 = (s.uDhcpv6ServerPoolOptionNum j).toNat) :
    (∀ k < (s.uDhcpv6ServerPoolOptionNum j).toNat - 1,
      (s.shiftOptions j l).1 k = s.sDhcpv6ServerPoolOption j (if l ≤ k then k + 1 else k) ∧
        Holds (s.shiftOptions j l).2 (optionNs j k)
          (optionRecord (s.sDhcpv6ServerPoolOption j (if l ≤ k then k + 1 else k)))) ∧
      ∀ ns q, (∀ k, ns ≠ optionNs j k) → (s.shiftOptions j l).2 (ns, q) = s.syscfg (ns, q) := by
  have hinj : Function.Injective (optionNs j) := fun k k' h => (optionNs_inj h).2
  unfold Server.shiftOptions
  cases hm : b.multilan
  · rw [hm] at hlast
    have hend := hlast.resolve_left Bool.false_ne_true
    have hnone : (s.uDhcpv6ServerPoolOptionNum j).toNat - (l + 1) = 0 := by omega
    simp only [Bool.false_eq_true, if_false, hnone]
    refine ⟨fun k hk => ?_, fun ns q hns => clearSlot_of_ne (hns l) _ _ _⟩
    rw [if_neg (by omega)]
    refine ⟨rfl, holds_congr (fun q => clearSlot_of_ne ?_ _ _ q) (hs.options j hj k (by omega))⟩
    intro h
    have hsame := hinj h
    omega
  · have hmax : max (l + 1) (s.uDhcpv6ServerPoolOptionNum j).toNat - 1 =
        (s.uDhcpv6ServerPoolOptionNum j).toNat - 1 := by omega
    simp only [if_true, hmax]
    refine ⟨fun k hk => ⟨?_, ?_⟩, fun ns q hns => ?_⟩
    · rw [shiftDown_fst, shiftArray_apply]
      by_cases hlk : l ≤ k
      · rw [if_pos ⟨hlk, by omega⟩, if_pos hlk]
      · rw [if_neg (by omega), if_neg hlk]
    · have hclear : ∀ q, unsetpooloptionFromUtopia j ((s.uDhcpv6ServerPoolOptionNum j).toNat - 1)
          (shiftDown (optionNs j) optionRecord l ((s.uDhcpv6ServerPoolOptionNum j).toNat - (l + 1))
            (s.sDhcpv6ServerPoolOption j, s.syscfg)).2 (optionNs j k, q) =
          (shiftDown (optionNs j) optionRecord l ((s.uDhcpv6ServerPoolOptionNum j).toNat - (l + 1))
            (s.sDhcpv6ServerPoolOption j, s.syscfg)).2 (optionNs j k, q) := by
        intro q
        refine clearSlot_of_ne (fun h => ?_) _ _ _
        have hsame := hinj h
        omega
      refine holds_congr hclear ?_
      by_cases hlk : l ≤ k
      · rw [if_pos hlk]
        exact holds_shiftDown hinj optionRecord_nodup hlk (by omega) _
      · rw [if_neg hlk]
        refine holds_congr (fun q => shiftDown_of_ne (fun i hi _ hki => ?_) _ q)
          (hs.options j hj k (by omega))
        have hsame := hinj hki
        omega
    · refine (clearSlot_of_ne (hns _) _ _ _).trans ?_
      exact shiftDown_of_ne (fun i _ _ => hns i) _ q

theorem delOption_eq {p x : ULONG} {j l : ℕ} (hfind : s.findPool p = some j)
    (hopt : s.findOption j x = some l)
    (hcount : (s.uDhcpv6ServerPoolOptionNum j).toNat ≤ poolOptionNum) :
    ∃ r t, cosaDmlDhcpv6sDelOption s p x = some (r, t) ∧
      t.uDhcpv6ServerPoolNum = s.uDhcpv6ServerPoolNum ∧
      t.sDhcpv6ServerPool = s.sDhcpv6ServerPool ∧
      t.uDhcpv6ServerPoolOptionNum = Function.update s.uDhcpv6ServerPoolOptionNum j
        (s.uDhcpv6ServerPoolOptionNum j - 1#32) ∧
      t.sDhcpv6ServerPoolOption = Function.update s.sDhcpv6ServerPoolOption j
        (s.shiftOptions j l).1 ∧
      t.syscfg = setOptionNumber j (s.uDhcpv6ServerPoolOptionNum j - 1#32)
        (s.shiftOptions j l).2 := by
  simp only [cosaDmlDhcpv6sDelOption, hfind, hopt, if_neg (Nat.not_lt.mpr hcount),
    Option.getD_some]
  exact ⟨_, _, rfl, rfl, rfl, rfl, rfl, rfl⟩

theorem delOption_behaves (hs : Consistent s) {p x : ULONG} (hproper : Proper s (.delOption p x)) :
    ∃ r t, cosaDmlDhcpv6sDelOption s p x = some (r, t) ∧ Behaves s (.delOption p x) t := by
  cases hfind : s.findPool p with
  | none =>
    refine ⟨.SUCCESS, s, by simp only [cosaDmlDhcpv6sDelOption, hfind], ?_, fun _ => rfl, hs⟩
    exact (modify_absent (findPool_eq_none.mp hfind) _).symm
  | some j =>
    obtain ⟨hj, hinst⟩ := (findPool_eq_some hs).mp hfind
    obtain ⟨l, hl, hlinst, hlast⟩ := hproper j hj hinst
    have hopt := (findOption_eq_some hs hj).mpr ⟨hl, hlinst⟩
    obtain ⟨r, t, ht, hnum, hpool, honum, hoption, hsys⟩ :=
      delOption_eq hfind hopt (hs.counts j hj)
    obtain ⟨hslots, hframe⟩ := shiftOptions_spec hs hj hl hlast
    refine ⟨r, t, ht, ?_⟩
    have hcount : (t.uDhcpv6ServerPoolOptionNum j).toNat =
        (s.uDhcpv6ServerPoolOptionNum j).toNat - 1 := by
      have hle := hs.counts j hj
      unfold poolOptionNum at hle
      rw [honum, Function.update_self, BitVec.toNat_sub_of_le]
      · rfl
      · rw [BitVec.le_def]
        exact Nat.succ_le_of_lt (Nat.lt_of_le_of_lt (Nat.zero_le l) hl)
    have hothers := others_of_update hnum hpool honum hoption
    have hself : t.sDhcpv6ServerPoolOption j = (s.shiftOptions j l).1 := by
      rw [hoption, Function.update_self]
    have hlist : t.optionList j =
        (s.optionList j).filter (fun o => o.InstanceNumber ≠ x) := by
      unfold Server.optionList
      rw [filter_map_range _ _ hl, hcount, hself]
      · exact List.map_congr_left (fun k hk => (hslots k (List.mem_range.mp hk)).1)
      · intro k hk
        rw [decide_eq_decide, not_iff_not, ← hlinst]
        exact ⟨optionAt_inj hs hj hk hl, fun h => by rw [h]⟩
    refine ⟨?_, fun h => absurd hlinst (h j hj hinst _ (mem_optionList hl)), ?_⟩
    · exact table_of_options hs hj hinst hothers _ hlist
    · refine consistent_of_options hs hothers ?_ ?_ ?_ ?_ ?_
      · intro ns q hpair hns
        rw [hsys, setOptionNumber_pair hpair, hframe ns q hns]
      · rw [hcount]
        exact Nat.le_trans (Nat.sub_le _ _) (hs.counts j hj)
      · rw [hlist]
        exact (hs.optionsDistinct j hj).sublist (List.filter_sublist.map _)
      · intro k hk
        rw [hcount] at hk
        rw [hself, (hslots k hk).1, hsys]
        refine holds_congr (fun q => setOptionNumber_pair ?_ _ _) (hslots k hk).2
        intro h
        exact poolNs_ne_optionNs j j k (Prod.mk.inj h).1.symm
      · rw [hsys, setOptionNumber_self, honum, Function.update_self]
        rfl

theorem step_behaves (hs : Consistent s) {op : Op} (hfresh : Fresh s op) (hproper : Proper s op) :
    ∃ t, step s op = some t ∧ Behaves s op t := by
  cases op with
  | addPool pretm pEntry => exact ⟨_, rfl, addPool_behaves hs hfresh hproper⟩
  | delPool x => exact ⟨_, rfl, delPool_behaves hs hproper⟩
  | setPoolCfg pCfg =>
    obtain ⟨r, t, ht, hbehaves⟩ := setPoolCfg_behaves hs hproper
    exact ⟨t, by rw [step, ht]; rfl, hbehaves⟩
  | addOption p pEntry => exact ⟨_, rfl, addOption_behaves hs hfresh⟩
  | delOption p x =>
    obtain ⟨r, t, ht, hbehaves⟩ := delOption_behaves hs hproper
    exact ⟨t, by rw [step, ht]; rfl, hbehaves⟩
  | setOption p pEntry =>
    obtain ⟨r, t, ht, hbehaves⟩ := setOption_behaves hs p pEntry
    exact ⟨t, by rw [step, ht]; rfl, hbehaves⟩

end steps

/-- In a run whose calls all find a proper state, every call is defined, does
to the table what it says and leaves syscfg in step with the arrays. -/
theorem poolRun_behaves {s : Server b} (hs : Consistent s) {ops : List Op}
    (hfresh : StepsMeet step Fresh s ops) (hproper : StepsMeet step Proper s ops) :
    (run step s ops).isSome ∧ Along step Behaves s ops := by
  induction ops generalizing s with
  | nil => exact ⟨rfl, trivial⟩
  | cons op ops ih =>
    obtain ⟨t, ht, hbehaves⟩ := step_behaves hs hfresh.1 hproper.1
    obtain ⟨hdefined, hrest⟩ := ih hbehaves.consistent (hfresh.2 t ht) (hproper.2 t ht)
    refine ⟨by rw [run_cons, ht]; exact hdefined, fun u hu => ?_⟩
    rw [ht, Option.some.injEq] at hu
    subst hu
    exact ⟨hbehaves, hrest⟩

def plainBuild : Build := ⟨false, false⟩

/-- No pools, and a store that says so. -/
def emptyServer : Server plainBuild where
  uDhcpv6ServerPoolNum := 0
  sDhcpv6ServerPool := fun _ => PoolFull.zero
  uDhcpv6ServerPoolOptionNum := fun _ => 0#32
  sDhcpv6ServerPoolOption := fun _ _ => ⟨0, .empty, 0, .empty, .empty, false⟩
  syscfg := setPoolNumber 0 (fun _ => none)
  poolNum_le := Nat.zero_le _

def firstPool : PoolFull :=
  { PoolFull.zero with Cfg := { PoolFull.zero.Cfg with InstanceNumber := 1#32, bEnabled := true } }

def dnsOption (n : ULONG) : PoolOption := ⟨n, .empty, 23#32, .empty, .empty, true⟩

theorem emptyServer_consistent : Consistent emptyServer where
  counts i hi := absurd hi (Nat.not_lt_zero i)
  distinct := List.nodup_nil
  optionsDistinct i hi := absurd hi (Nat.not_lt_zero i)
  pools i hi := absurd hi (Nat.not_lt_zero i)
  options i hi := absurd hi (Nat.not_lt_zero i)
  poolnumber := by simp only [emptyServer, setPoolNumber, set_self]
  optionnumber i hi := absurd hi (Nat.not_lt_zero i)

theorem poolRun_behaves_first : (run step emptyServer [.addPool [] firstPool]).isSome ∧
    Along step Behaves emptyServer [.addPool [] firstPool] :=
  poolRun_behaves emptyServer_consistent
    ⟨fun j hj => absurd hj (Nat.not_lt_zero j), fun _ _ => trivial⟩
    ⟨fun _ => ⟨rfl, by decide +kernel⟩, fun _ _ => trivial⟩

def deleteFirstOption : List Op :=
  [.addPool [] firstPool, .addOption 1#32 (dnsOption 1#32), .addOption 1#32 (dnsOption 2#32),
    .delOption 1#32 1#32]

theorem deleteFirstOption_fresh : StepsMeet step Fresh emptyServer deleteFirstOption := by
  refine ⟨by decide +kernel, fun t ht => ?_⟩
  cases Option.some.inj ht
  refine ⟨by decide +kernel, fun t ht => ?_⟩
  cases Option.some.inj ht
  refine ⟨by decide +kernel, fun t ht => ?_⟩
  cases Option.some.inj ht
  exact ⟨by decide +kernel, fun _ _ => trivial⟩

/-- Without `MULTILAN_FEATURE` the option that remains loses its record. -/
theorem cosaDmlDhcpv6sDelOption_lost_record : ¬ ∀ (b : Build) (s : Server b) (ops : List Op),
    Consistent s → StepsMeet step Fresh s ops →
      (run step s ops).isSome ∧ Along step Behaves s ops := by
  intro h
  have hrun := (h plainBuild emptyServer deleteFirstOption emptyServer_consistent
    deleteFirstOption_fresh).2
  obtain ⟨-, hrun⟩ := hrun _ rfl
  obtain ⟨-, hrun⟩ := hrun _ rfl
  obtain ⟨-, hrun⟩ := hrun _ rfl
  obtain ⟨hlast, -⟩ := hrun _ rfl
  have hholds := hlast.consistent.options 0 (by decide +kernel) 0 (by decide +kernel)
  have hrecord := hholds _ List.mem_cons_self
  revert hrecord
  decide +kernel

end CcspPandM.Dhcpv6Pools
