import CcspPandM.LoopRuns
import CcspPandM.ScanText

/-!
The search for the row of a name in a list of tables. The tables of most components
are walked by index, two of them by instance number until as many names are read as
there are rows, and two have ports under each of their rows. The search is one
machine, since the loop by instance number and the one over the ports may not end.
Every path is shorter than the buffer it is printed into.
-/
namespace CcspPandM.LowerLayers

open CString InetText ScanText LoopRuns

abbrev ULONG := BitVec 32

/-- What the data model answers: values of parameters by their name, and instance
numbers, zero where there is none. -/
structure Lookups where
  GetParamValueUlong : CStr → ULONG
  GetInstanceNumberByIndex : CStr → ULONG → ULONG
  GetParamValueString : CStr → Option CStr
  GetParamValueByPathName : CStr → Option CStr

/-- A table walked by index; what stands behind the instance number in the path of a
row, and behind the path in the name of its parameter. -/
structure IndexedTable where
  Name : CStr
  NumberOfEntries : CStr
  behind : CStr
  leaf : CStr

def IndexedTable.FullPath (t : IndexedTable) (instance_ : ULONG) : CStr :=
  t.Name ++ decimal instance_.toNat ++ t.behind

def IndexedTable.ParamName (t : IndexedTable) (instance_ : ULONG) : CStr :=
  t.FullPath instance_ ++ t.leaf

structure CountedTable where
  Name : CStr
  NumberOfEntries : CStr

def CountedTable.FullPath (t : CountedTable) (instance_ : ULONG) : CStr :=
  t.Name ++ decimal instance_.toNat

def CountedTable.ParamName (t : CountedTable) (instance_ : ULONG) : CStr :=
  t.FullPath instance_ ++ ".Name".toList

/-- A table whose rows have a table of their own. -/
structure NestedTable where
  Name : CStr
  NumberOfEntries : CStr
  lowerNumberOfEntries : CStr
  lower : CStr

def NestedTable.FullPath (t : NestedTable) (instance_ : ULONG) : CStr :=
  t.Name ++ decimal instance_.toNat

def NestedTable.LowerEntryName (t : NestedTable) (instance_ j : ULONG) : CStr :=
  t.FullPath instance_ ++ t.lower ++ decimal j.toNat

def NestedTable.ParamName (t : NestedTable) (instance_ j : ULONG) : CStr :=
  t.LowerEntryName instance_ j ++ ".Name".toList

section Tables

def ethernetInterface : IndexedTable where
  Name := "Device.Ethernet.Interface.".toList
  NumberOfEntries := "Device.Ethernet.InterfaceNumberOfEntries".toList
  behind := []
  leaf := ".Name".toList

def ipInterface : IndexedTable where
  Name := "Device.IP.Interface.".toList
  NumberOfEntries := "Device.IP.InterfaceNumberOfEntries".toList
  behind := []
  leaf := ".Name".toList

def wifiRadio : IndexedTable where
  Name := "Device.WiFi.Radio.".toList
  NumberOfEntries := "Device.WiFi.RadioNumberOfEntries".toList
  behind := ['.']
  leaf := "Name".toList

def mocaInterface : CountedTable where
  Name := "Device.MoCA.Interface.".toList
  NumberOfEntries := "Device.MoCA.InterfaceNumberOfEntries".toList

def greInterface : IndexedTable where
  Name := "Device.X_CISCO_COM_GRE.Interface.".toList
  NumberOfEntries := "Device.X_CISCO_COM_GRE.InterfaceNumberOfEntries".toList
  behind := []
  leaf := ".Name".toList

def greTunnel : NestedTable where
  Name := "Device.GRE.Tunnel.".toList
  NumberOfEntries := "Device.GRE.TunnelNumberOfEntries".toList
  lowerNumberOfEntries := ".InterfaceNumberOfEntries".toList
  lower := ".Interface.".toList

def ethernetLink : IndexedTable where
  Name := "Device.Ethernet.Link.".toList
  NumberOfEntries := "Device.Ethernet.LinkNumberOfEntries".toList
  behind := []
  leaf := ".Name".toList

def wifiSSID : CountedTable where
  Name := "Device.WiFi.SSID.".toList
  NumberOfEntries := "Device.WiFi.SSIDNumberOfEntries".toList

def bridgingBridge : NestedTable where
  Name := "Device.Bridging.Bridge.".toList
  NumberOfEntries := "Device.Bridging.BridgeNumberOfEntries".toList
  lowerNumberOfEntries := ".PortNumberOfEntries".toList
  lower := ".Port.".toList

inductive Table where
  | indexed (t : IndexedTable)
  | counted (t : CountedTable)
  | nested (t : NestedTable)
  | skipped

/-- The table of a name; the other names have an empty branch or none. The tunnels are
those of the `INTEL_PUMA7` build. -/
def tableOf (puma7 : Bool) (Name : CStr) : Table :=
  if Name = ethernetInterface.Name then .indexed ethernetInterface
  else if Name = ipInterface.Name then .indexed ipInterface
  else if Name = wifiRadio.Name then .indexed wifiRadio
  else if Name = mocaInterface.Name then .counted mocaInterface
  else if Name = greInterface.Name then .indexed greInterface
  else if puma7 && Name = greTunnel.Name then .nested greTunnel
  else if Name = ethernetLink.Name then .indexed ethernetLink
  else if Name = wifiSSID.Name then .counted wifiSSID
  else if Name = bridgingBridge.Name then .nested bridgingBridge
  else .skipped

end Tables

section Machine

/-- Where the search stands, with the tables still to come. -/
inductive State where
  | tables (rest : List CStr)
  | entries (t : IndexedTable) (ulNumOfEntries i : ULONG) (rest : List CStr)
  | instances (t : CountedTable) (ulNumOfEntries i ulEntryInstanceNum : ULONG) (rest : List CStr)
  | bridges (t : NestedTable) (ulNumOfEntries i : ULONG) (pMatchedLowerLayer : Option CStr)
      (rest : List CStr)
  | ports (t : NestedTable) (ulNumOfEntries i ulEntryInstanceNum ulEntryPortNum j : ULONG)
      (pMatchedLowerLayer : Option CStr) (rest : List CStr)

variable (dm : Lookups) (puma7 : Bool) (pKeyword : CStr)

/-- The next table; a count that is not there breaks out of the loop over the tables. -/
def nextTable : List CStr → State ⊕ Option CStr
  | [] => .inr none
  | Name :: rest => match tableOf puma7 Name with
    | .indexed t => .inl (.entries t (dm.GetParamValueUlong t.NumberOfEntries) 0 rest)
    | .counted t => match dm.GetParamValueByPathName t.NumberOfEntries with
      | some value => .inl (.instances t (sscanf_lu value 0) 0 1 rest)
      | none => .inr none
    | .nested t => .inl (.bridges t (dm.GetParamValueUlong t.NumberOfEntries) 0 none rest)
    | .skipped => .inl (.tables rest)

def step : State → State ⊕ Option CStr
  | .tables rest => nextTable dm puma7 rest
  | .entries t n i rest =>
    if i < n then
      let ulEntryInstanceNum := dm.GetInstanceNumberByIndex t.Name i
      if ulEntryInstanceNum ≠ 0 ∧
          dm.GetParamValueString (t.ParamName ulEntryInstanceNum) = some pKeyword then
        .inr (some (t.FullPath ulEntryInstanceNum))
      else .inl (.entries t n (i + 1) rest)
    else .inl (.tables rest)
  | .instances t n i ulEntryInstanceNum rest =>
    if i < n then
      match dm.GetParamValueByPathName (t.ParamName ulEntryInstanceNum) with
      | none => .inl (.instances t n i (ulEntryInstanceNum + 1) rest)
      | some value =>
        if value = pKeyword then .inr (some (t.FullPath ulEntryInstanceNum))
        else .inl (.instances t n (i + 1) (ulEntryInstanceNum + 1) rest)
    else .inl (.tables rest)
  | .bridges t n i pMatchedLowerLayer rest =>
    if i < n then
      let ulEntryInstanceNum := dm.GetInstanceNumberByIndex t.Name i
      if ulEntryInstanceNum ≠ 0 then
        .inl (.ports t n i ulEntryInstanceNum
          (dm.GetParamValueUlong (t.FullPath ulEntryInstanceNum ++ t.lowerNumberOfEntries)) 1
          pMatchedLowerLayer rest)
      else .inl (.bridges t n (i + 1) pMatchedLowerLayer rest)
    else match pMatchedLowerLayer with
      | some path => .inr (some path)
      | none => .inl (.tables rest)
  | .ports t n i ulEntryInstanceNum ulEntryPortNum j pMatchedLowerLayer rest =>
    if j ≤ ulEntryPortNum then
      if dm.GetParamValueString (t.ParamName ulEntryInstanceNum j) = some pKeyword then
        -- only the loop over the ports ends here
        .inl (.bridges t n (i + 1) (some (t.LowerEntryName ulEntryInstanceNum j)) rest)
      else .inl (.ports t n i ulEntryInstanceNum ulEntryPortNum (j + 1) pMatchedLowerLayer rest)
    else .inl (.bridges t n (i + 1) pMatchedLowerLayer rest)

/-- The result, if the search ends in so many steps; `tokens` is what the library cuts
out of the list at the commas. -/
def CosaUtilGetLowerLayers (tokens : CStr → List CStr) (pTableName : CStr) (fuel : ℕ) :
    Option (Option CStr) :=
  if pTableName = [] ∨ pKeyword = [] then some none
  else runFor (step dm puma7 pKeyword) fuel (.tables (tokens pTableName))

end Machine

section Rows

abbrev Row := CStr × Option CStr

def firstNamed (pKeyword : CStr) (rows : List Row) : Option CStr :=
  (rows.find? (fun row => row.2 = some pKeyword)).map Prod.fst

variable (dm : Lookups)

def instancesFrom (Name : CStr) (ulNumOfEntries : ULONG) (i : ℕ) : List ULONG :=
  ((List.range' i (ulNumOfEntries.toNat - i)).map
    (fun k => dm.GetInstanceNumberByIndex Name (BitVec.ofNat 32 k))).filter (· ≠ 0)

def indexedRow (t : IndexedTable) (instance_ : ULONG) : Row :=
  (t.FullPath instance_, dm.GetParamValueString (t.ParamName instance_))

def lowerRow (t : NestedTable) (instance_ : ULONG) (j : ℕ) : Row :=
  (t.LowerEntryName instance_ (BitVec.ofNat 32 j),
    dm.GetParamValueString (t.ParamName instance_ (BitVec.ofNat 32 j)))

def numberOfPorts (t : NestedTable) (instance_ : ULONG) : ULONG :=
  dm.GetParamValueUlong (t.FullPath instance_ ++ t.lowerNumberOfEntries)

def lowerRows (t : NestedTable) (instance_ : ULONG) : List Row :=
  (List.range' 1 (numberOfPorts dm t instance_).toNat).map (lowerRow dm t instance_)

/-- Every instance number; one without a row has no name. -/
def countedRow (t : CountedTable) (k : ℕ) : Row :=
  (t.FullPath (BitVec.ofNat 32 k), dm.GetParamValueByPathName (t.ParamName (BitVec.ofNat 32 k)))

def rows : Table → List Row
  | .indexed t =>
    (instancesFrom dm t.Name (dm.GetParamValueUlong t.NumberOfEntries) 0).map (indexedRow dm t)
  | .counted t => match dm.GetParamValueByPathName t.NumberOfEntries with
    | some _ => (List.range' 1 (2 ^ 32 - 1)).map (countedRow dm t)
    | none => []
  | .nested t =>
    (instancesFrom dm t.Name (dm.GetParamValueUlong t.NumberOfEntries) 0).flatMap (lowerRows dm t)
  | .skipped => []

def lowerLayer (puma7 : Bool) (pKeyword : CStr) (tables : List CStr) : Option CStr :=
  firstNamed pKeyword (tables.flatMap (fun Name => rows dm (tableOf puma7 Name)))

end Rows

end CcspPandM.LowerLayers
