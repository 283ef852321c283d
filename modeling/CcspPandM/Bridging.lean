import CcspPandM.HalfAddedRuns

/-!
The bridges of the middle layer with their ports and VLANs. A new bridge goes to the
backend at once, a new port has a folder below "BridgingHalfAdded" until it is committed.
At start the lists are loaded from the backend and the ports of the folders are added;
a folder without its bridge is deleted while the folders are walked by index.
-/
namespace CcspPandM.Bridging

open CString HalfAdded HalfAddedRuns Registry Runs
open IpRegistry (ULONG advance nextAfter pushEntryByInsNum storedNext folderName)

def layout : Layout Unit where
  folder := "Bridging".toList
  halfAdded := "BridgingHalfAdded".toList
  Upper_InsNum := "UpperInstanceNumber".toList
  InsNum := "InstanceNumber".toList
  Alias := "Alias".toList
  preffix role := match role with
    | .parent => "Bridge".toList
    | .child _ => "Port".toList
    | .single => []
  nextInsNum role := match role with
    | .parent => "NextBridgeInstanceNum".toList
    | .child _ => "NextPortInstanceNum".toList
    | .single => []
  print n := decimal n.toNat
  checks := false

def COSA_DML_RR_NAME_Bridge_VLAN_NextInsNumber : CStr := "NextVLANInstanceNum".toList

/-- A port in the list of its bridge; `link` is the number of the list link. -/
structure Port where
  link : ULONG
  InstanceNumber : ULONG
  Alias : CStr
  bNew : Bool
  bAllowDelete : Bool
  deriving DecidableEq

structure Vlan where
  link : ULONG
  InstanceNumber : ULONG
  Alias : CStr
  deriving DecidableEq

structure Bridge where
  link : ULONG
  InstanceNumber : ULONG
  Alias : CStr
  bNew : Bool
  bAllowDelete : Bool
  PortList : List Port
  VLANList : List Vlan
  ulNextPortInsNum : ULONG
  ulNextVLANInsNum : ULONG
  deriving DecidableEq

section Backend

structure BackendPort where
  InstanceNumber : ULONG
  Alias : CStr
  bAllowDelete : Bool
  deriving DecidableEq

structure BackendVlan where
  InstanceNumber : ULONG
  Alias : CStr
  deriving DecidableEq

structure BackendBridge where
  InstanceNumber : ULONG
  Alias : CStr
  bAllowDelete : Bool
  ports : List BackendPort
  vlans : List BackendVlan
  deriving DecidableEq

abbrev Backend := List BackendBridge

def atBridge (number : ULONG) (change : BackendBridge → BackendBridge) (backend : Backend) :
    Backend :=
  backend.map fun b => if b.InstanceNumber = number then change b else b

def CosaDmlBrgAddEntry (number : ULONG) (pAlias : CStr) (bAllowDelete : Bool) (backend : Backend) :
    Backend :=
  backend ++ [⟨number, pAlias, bAllowDelete, [], []⟩]

def CosaDmlBrgDelEntry (number : ULONG) (backend : Backend) : Backend :=
  backend.filter (·.InstanceNumber ≠ number)

def CosaDmlBrgSetCfg (number : ULONG) (pAlias : CStr) (bAllowDelete : Bool) (backend : Backend) :
    Backend :=
  atBridge number (fun b => { b with Alias := pAlias, bAllowDelete := bAllowDelete }) backend

def CosaDmlBrgPortAddEntry (number : ULONG) (pPort : BackendPort) (backend : Backend) : Backend :=
  atBridge number (fun b => { b with ports := b.ports ++ [pPort] }) backend

def CosaDmlBrgPortDelEntry (number port : ULONG) (backend : Backend) : Backend :=
  atBridge number (fun b => { b with ports := b.ports.filter (·.InstanceNumber ≠ port) }) backend

def CosaDmlBrgPortSetCfg (number : ULONG) (pPort : BackendPort) (backend : Backend) : Backend :=
  atBridge number (fun b =>
    { b with
      ports := b.ports.map fun p =>
        if p.InstanceNumber = pPort.InstanceNumber then pPort else p }) backend

def CosaDmlBrgVlanAddEntry (number : ULONG) (pVLAN : BackendVlan) (backend : Backend) : Backend :=
  atBridge number (fun b => { b with vlans := b.vlans ++ [pVLAN] }) backend

end Backend

section Loading

structure PortLoad where
  ulNextPortInsNum : ULONG
  PortList : List Port
  ports : List BackendPort

def loadPort (st : PortLoad) (p : BackendPort) : PortLoad :=
  if p.InstanceNumber ≠ 0 then
    { ulNextPortInsNum := advance st.ulNextPortInsNum p.InstanceNumber
      PortList := pushEntryByInsNum Port.link st.PortList
        ⟨p.InstanceNumber, p.InstanceNumber, p.Alias, false, p.bAllowDelete⟩
      ports := st.ports ++ [p] }
  else
    let number := st.ulNextPortInsNum
    let pAlias := "Port".toList ++ decimal number.toNat
    { ulNextPortInsNum := nextAfter number
      PortList := pushEntryByInsNum Port.link st.PortList
        ⟨number, number, pAlias, false, p.bAllowDelete⟩
      ports := st.ports ++ [⟨number, pAlias, p.bAllowDelete⟩] }

structure VlanLoad where
  ulNextVLANInsNum : ULONG
  VLANList : List Vlan
  vlans : List BackendVlan

/-- A VLAN without a number gets the next number of the ports; its own link gets none. -/
def loadVlan (ulNextPortInsNum : ULONG) (st : VlanLoad) (v : BackendVlan) : VlanLoad :=
  if v.InstanceNumber ≠ 0 then
    { ulNextVLANInsNum := advance st.ulNextVLANInsNum v.InstanceNumber
      VLANList := pushEntryByInsNum Vlan.link st.VLANList
        ⟨v.InstanceNumber, v.InstanceNumber, v.Alias⟩
      vlans := st.vlans ++ [v] }
  else
    let pAlias := "VLAN".toList ++ decimal ulNextPortInsNum.toNat
    { ulNextVLANInsNum := nextAfter st.ulNextVLANInsNum
      VLANList := pushEntryByInsNum Vlan.link st.VLANList ⟨0, ulNextPortInsNum, pAlias⟩
      vlans := st.vlans ++ [⟨ulNextPortInsNum, pAlias⟩] }

/-- The lists so far, and the bridge and number of the port that was loaded last. -/
structure Load where
  BridgeList : List Bridge
  ulNextBridgeInstance : ULONG
  backend : Backend
  last : Option (ULONG × ULONG)
  crashed : Bool

def relink (bridge port number : ULONG) (BridgeList : List Bridge) : List Bridge :=
  BridgeList.map fun b =>
    if b.InstanceNumber = bridge then
      { b with
        PortList := b.PortList.map fun p =>
          if p.InstanceNumber = port then { p with link := number } else p }
    else b

def numberBridge (next : ULONG) (b : BackendBridge) : ULONG × CStr × ULONG :=
  if b.InstanceNumber ≠ 0 then (b.InstanceNumber, b.Alias, advance next b.InstanceNumber)
  else (next, "DmlBridge".toList ++ decimal (nextAfter next).toNat, nextAfter next)

/-- One round of the bridges. Where a VLAN has no number, its new number is written through
the link of the last port; if there was no port yet, that is a null pointer. -/
def loadBridge (pPoamIrepFoBRG : Folder) (st : Load) (b : BackendBridge) : Load :=
  if st.crashed then st
  else
    let numbered := numberBridge st.ulNextBridgeInstance b
    let ulNextPortInsNum := storedNext pPoamIrepFoBRG (layout.nextInsNum (.child ())) numbered.1
    let ports := b.ports.foldl loadPort ⟨ulNextPortInsNum, [], []⟩
    let last := match ports.ports.getLast? with
      | some p => some (numbered.1, p.InstanceNumber)
      | none => st.last
    let ulNextVLANInsNum :=
      storedNext pPoamIrepFoBRG COSA_DML_RR_NAME_Bridge_VLAN_NextInsNumber numbered.1
    let vlans := b.vlans.foldl (loadVlan ports.ulNextPortInsNum) ⟨ulNextVLANInsNum, [], []⟩
    let pDmlBridge : Bridge :=
      { link := numbered.1
        InstanceNumber := numbered.1
        Alias := numbered.2.1
        bNew := false
        bAllowDelete := b.bAllowDelete
        PortList := ports.PortList
        VLANList := vlans.VLANList
        ulNextPortInsNum := ports.ulNextPortInsNum
        ulNextVLANInsNum := vlans.ulNextVLANInsNum }
    let BridgeList := pushEntryByInsNum Bridge.link st.BridgeList pDmlBridge
    let unnumbered := b.vlans.any (·.InstanceNumber = 0)
    { BridgeList := match unnumbered, last with
        | true, some (bridge, port) => relink bridge port ports.ulNextPortInsNum BridgeList
        | _, _ => BridgeList
      ulNextBridgeInstance := numbered.2.2
      backend := st.backend ++
        [⟨numbered.1, numbered.2.1, b.bAllowDelete, ports.ports, vlans.vlans⟩]
      last := last
      crashed := unnumbered && last.isNone }

def loadBridges (pPoamIrepFoBRG : Folder) (backend : Backend) : Load :=
  backend.foldl (loadBridge pPoamIrepFoBRG)
    ⟨[], storedNext pPoamIrepFoBRG (layout.nextInsNum .parent) 0, [], none, false⟩

end Loading

section Walking

/-- The lists, the folder that is walked, and the two numbers that keep their value when a
record is missing. -/
structure Walk where
  BridgeList : List Bridge
  ha : Folder
  ulInstanceNumber : ULONG
  ulUpperInstanceNumber : ULONG
  stopped : Bool

def pushPort (number : ULONG) (pAlias : CStr) (b : Bridge) : Bridge :=
  { b with
    PortList := pushEntryByInsNum Port.link b.PortList ⟨number, number, pAlias, true, true⟩
    ulNextPortInsNum := if b.ulNextPortInsNum ≤ number then number + 1 else b.ulNextPortInsNum }

def newBridge (number : ULONG) (pAlias : CStr) : Bridge :=
  ⟨number, number, pAlias, true, true, [], [], 1, 1⟩

/-- The folder at an index. One without its bridge is deleted, so that the folders behind
it move up by one. -/
def walkFolder (st : Walk) (ulIndex : ℕ) : Walk :=
  if st.stopped then st
  else
    match st.ha.folders[ulIndex]? with
    | none => st
    | some (pFolderName, fo) =>
      let number := (fo.getUint32 "InstanceNumber".toList).getD st.ulInstanceNumber
      let pAlias := (fo.getString "Alias".toList).getD []
      if "Bridge".toList <:+: pFolderName then
        { st with
          BridgeList := pushEntryByInsNum Bridge.link st.BridgeList (newBridge number pAlias)
          ulInstanceNumber := number }
      else
        let upper := (fo.getUint32 "UpperInstanceNumber".toList).getD st.ulUpperInstanceNumber
        if upper = 0 then { st with ulUpperInstanceNumber := upper, stopped := true }
        else
          match st.BridgeList.findIdx? fun b => b.InstanceNumber = upper with
          | none => { st with ha := st.ha.DelFolder pFolderName, ulUpperInstanceNumber := upper }
          | some k =>
            let BridgeList := if "Port".toList <:+: pFolderName then
              st.BridgeList.modify k (pushPort number pAlias) else st.BridgeList
            { st with
              BridgeList := BridgeList
              ulInstanceNumber := number
              ulUpperInstanceNumber := upper }

def CosaBridgingRegGetInfo (pPoamIrepFoBRGHA : Folder) (BridgeList : List Bridge) : Walk :=
  (List.range pPoamIrepFoBRGHA.folders.length).foldl walkFolder
    ⟨BridgeList, pPoamIrepFoBRGHA, 0, 0, false⟩

end Walking

structure State where
  BridgeList : List Bridge
  ulNextBridgeInstance : ULONG
  backend : Backend
  cosa : Folder
  usedBridges : List ULONG
  usedPorts : ULONG → List ULONG

section Operations

/-- The folder of the half-added entries is looked up in the wrong folder; adding it
finds it all the same. -/
def CosaBridgingInitialize (backend : Backend) (pPoamIrepFoCOSA : Folder) :
    Option (List Bridge × ULONG × Backend × Folder) :=
  let pPoamIrepFoBRG := (pPoamIrepFoCOSA.GetFolder layout.folder).getD Folder.empty
  match pPoamIrepFoCOSA.GetFolder layout.halfAdded with
  | some ha =>
    let loaded := loadBridges pPoamIrepFoBRG backend
    let walk := CosaBridgingRegGetInfo ha loaded.BridgeList
    if loaded.crashed then none
    else
      let cosa := pPoamIrepFoCOSA.AddFolder layout.folder fun _ => pPoamIrepFoBRG
      some (walk.BridgeList, loaded.ulNextBridgeInstance, loaded.backend,
        cosa.AddFolder layout.halfAdded fun _ => walk.ha)
  | none =>
    let opened := pPoamIrepFoBRG.AddFolder layout.halfAdded id
    let ha := (opened.GetFolder layout.halfAdded).getD Folder.empty
    let loaded := loadBridges opened backend
    let walk := CosaBridgingRegGetInfo ha loaded.BridgeList
    if loaded.crashed then none
    else
      some (walk.BridgeList, loaded.ulNextBridgeInstance, loaded.backend,
        pPoamIrepFoCOSA.AddFolder layout.folder fun _ =>
          opened.AddFolder layout.halfAdded fun _ => walk.ha)

def bridgeEntry (b : Bridge) : Entry Unit := ⟨.parent, 0, b.link, b.Alias⟩

def portEntry (b : Bridge) (p : Port) : Entry Unit :=
  ⟨.child (), b.InstanceNumber, p.link, p.Alias⟩

def CosaBridgingRegAddInfo (e : Entry Unit) (ulNextInsNum : ULONG) (cosa : Folder) : Folder :=
  cosa.AddFolder layout.folder (RegAddInfo layout (layout.nextInsNum e.role) ulNextInsNum
    (layout.preffix e.role) e.upper e.Alias e.number)

def CosaBridgingRegDelInfo (e : Entry Unit) (cosa : Folder) : Folder :=
  cosa.AddFolder layout.folder (RegDelInfo layout (folderName (entryName layout e)))

/-- A new bridge is recorded, added to the backend with its VLAN, and its folder deleted. -/
def Bridge_AddEntry (t : State) : State :=
  let number := t.ulNextBridgeInstance
  let pAlias := "Bridge".toList ++ decimal number.toNat
  let next := nextAfter number
  let pDmlBridge : Bridge :=
    { link := number
      InstanceNumber := number
      Alias := pAlias
      bNew := false
      bAllowDelete := true
      PortList := []
      VLANList := [⟨1, 1, "cpe-VLAN1".toList⟩]
      ulNextPortInsNum := 1
      ulNextVLANInsNum := 2 }
  let added := CosaDmlBrgAddEntry number pAlias true t.backend
  let recorded := CosaBridgingRegAddInfo (bridgeEntry pDmlBridge) next t.cosa
  { t with
    BridgeList := pushEntryByInsNum Bridge.link t.BridgeList pDmlBridge
    ulNextBridgeInstance := next
    backend := CosaDmlBrgVlanAddEntry number ⟨1, "cpe-VLAN1".toList⟩ added
    cosa := CosaBridgingRegDelInfo (bridgeEntry pDmlBridge) recorded
    usedBridges := number :: t.usedBridges }

def Bridge_DelEntry (t : State) (k : ℕ) (b : Bridge) : State :=
  if b.bAllowDelete = false then t
  else
    let BridgeList := t.BridgeList.eraseIdx k
    if b.bNew then
      { t with
        BridgeList := BridgeList
        cosa := CosaBridgingRegDelInfo (bridgeEntry b) t.cosa }
    else
      { t with
        BridgeList := BridgeList
        backend := CosaDmlBrgDelEntry b.InstanceNumber t.backend }

def Bridge_Commit (t : State) (k : ℕ) (b : Bridge) : State :=
  if b.bNew then
    { t with
      BridgeList := t.BridgeList.set k { b with bNew := false }
      backend := CosaDmlBrgAddEntry b.InstanceNumber b.Alias b.bAllowDelete t.backend
      cosa := CosaBridgingRegDelInfo (bridgeEntry b) t.cosa }
  else
    { t with backend := CosaDmlBrgSetCfg b.InstanceNumber b.Alias b.bAllowDelete t.backend }

def Port_AddEntry (t : State) (k : ℕ) (b : Bridge) : State :=
  let number := b.ulNextPortInsNum
  let pPort : Port := ⟨number, number, "Port".toList ++ decimal number.toNat, true, true⟩
  let next := nextAfter number
  let pDmlBridge : Bridge :=
    { b with
      PortList := pushEntryByInsNum Port.link b.PortList pPort
      ulNextPortInsNum := next }
  { t with
    BridgeList := t.BridgeList.set k pDmlBridge
    cosa := CosaBridgingRegAddInfo (portEntry b pPort) next t.cosa
    usedPorts := Function.update t.usedPorts b.InstanceNumber
      (number :: t.usedPorts b.InstanceNumber) }

/-- The mark that is looked at is the one of the bridge. -/
def Port_DelEntry (t : State) (k : ℕ) (b : Bridge) (j : ℕ) (p : Port) : State :=
  if p.bAllowDelete = false then t
  else
    let PortList := b.PortList.eraseIdx j
    if b.bNew then
      { t with
        BridgeList := t.BridgeList.set k { b with bNew := false, PortList := PortList }
        cosa := CosaBridgingRegDelInfo (portEntry b p) t.cosa }
    else
      { t with
        BridgeList := t.BridgeList.set k { b with PortList := PortList }
        backend := CosaDmlBrgPortDelEntry b.link p.InstanceNumber t.backend }

def Port.cfg (p : Port) : BackendPort := ⟨p.InstanceNumber, p.Alias, p.bAllowDelete⟩

def Port_Commit (t : State) (k : ℕ) (b : Bridge) (j : ℕ) (p : Port) : State :=
  if p.bNew then
    { t with
      BridgeList :=
        t.BridgeList.set k { b with PortList := b.PortList.set j { p with bNew := false } }
      backend := CosaDmlBrgPortAddEntry b.InstanceNumber p.cfg t.backend
      cosa := CosaBridgingRegDelInfo (portEntry b p) t.cosa }
  else
    { t with backend := CosaDmlBrgPortSetCfg b.InstanceNumber p.cfg t.backend }

def reorder (order : List (CStr × Folder)) (cosa : Folder) : Folder :=
  cosa.AddFolder layout.folder fun fo =>
    fo.AddFolder layout.halfAdded fun ha => Folder.mk ha.records order

def restart (t : State) (order : List (CStr × Folder)) : Option State :=
  (CosaBridgingInitialize t.backend (reorder order t.cosa)).map
    fun (BridgeList, ulNextBridgeInstance, backend, cosa) =>
      { t with
        BridgeList := BridgeList
        ulNextBridgeInstance := ulNextBridgeInstance
        backend := backend
        cosa := cosa }

inductive Call where
  | addBridge
  | delBridge (k : ℕ)
  | commitBridge (k : ℕ)
  | addPort (k : ℕ)
  | delPort (k j : ℕ)
  | commitPort (k j : ℕ)
  | restart (order : List (CStr × Folder))

/-- A call on a bridge or port that is not there does not come about. -/
def step (t : State) : Call → Option State
  | .addBridge => some (Bridge_AddEntry t)
  | .delBridge k => t.BridgeList[k]?.map fun b => Bridge_DelEntry t k b
  | .commitBridge k => t.BridgeList[k]?.map fun b => Bridge_Commit t k b
  | .addPort k => t.BridgeList[k]?.map fun b => Port_AddEntry t k b
  | .delPort k j => t.BridgeList[k]?.bind fun b =>
      b.PortList[j]?.map fun p => Port_DelEntry t k b j p
  | .commitPort k j => t.BridgeList[k]?.bind fun b =>
      b.PortList[j]?.map fun p => Port_Commit t k b j p
  | .restart order => Bridging.restart t order

end Operations

end CcspPandM.Bridging
