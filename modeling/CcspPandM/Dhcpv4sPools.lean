import CcspPandM.FieldRecords
import CcspPandM.ScanText
import CcspPandM.Ipv4Addr
import CcspPandM.Runs

/-!
The DHCPv4 server pools after the first one. Memory holds them as a list with
the options of each, the PSM holds the fields that were ever given a value other
than a default, and a reader rebuilds the list from the PSM at the next start.
-/
namespace CcspPandM.Dhcpv4sPools

open CString InetText ScanText InstanceStore FieldRecords Ipv4Addr Runs

abbrev ULONG := BitVec 32

inductive Status where
  | SUCCESS
  | FAILURE
  | CANT_FIND
  deriving DecidableEq

/-- An array of `COSA_DML_DHCP_MAX_ENTRIES` addresses. -/
def Addrs := { l : List Addr // l.length = 4 }

instance : DecidableEq Addrs := inferInstanceAs (DecidableEq { l : List Addr // l.length = 4 })

namespace Addrs

def zero : Addrs := ⟨[0, 0, 0, 0], rfl⟩

def padded (l : List Addr) : Addrs :=
  ⟨(l ++ List.replicate 4 0).take 4, by simp⟩

end Addrs

def cosaDmlGetIpaddrString (pIPAddr : Addrs) : CStr :=
  List.intercalate [',']
    ((pIPAddr.val.takeWhile (· ≠ 0)).map (fun a => dotted (addrOctets a)))

/-- The loop of `CosaDmlSetIpaddr`: `tok` is the text since the last comma and
`done` the addresses before it. After a fourth comma the length of what follows
is taken of a wrapped number, which is refused. -/
def setIpaddrFrom : CStr → CStr → List Addr → Option (List Addr)
  | [], tok, done =>
    if 7 ≤ tok.length then
      if inet_addr tok = 0xffffffff then none else some (done ++ [inet_addr tok])
    else if 1 < tok.length then none
    else some done
  | c :: rest, tok, done =>
    if c = ',' then
      if inet_addr tok = 0xffffffff then none
      else if 4 ≤ done.length + 1 then none
      else setIpaddrFrom rest [] (done ++ [inet_addr tok])
    else setIpaddrFrom rest (tok ++ [c]) done

def cosaDmlSetIpaddr (pString : CStr) (pIPAddr : Addrs) : Addrs :=
  match setIpaddrFrom pString [] [] with
  | some l => Addrs.padded l
  | none => pIPAddr

/-- The fields that select the clients of a pool, and others that no function
here compares or stores. -/
structure PoolSelection where
  VendorClassID : Buf 256
  VendorClassIDExclude : Bool
  VendorClassIDMode : ULONG
  ClientID : Fin 256 → BitVec 8
  ClientIDExclude : Bool
  UserClassID : Fin 256 → BitVec 8
  UserClassIDExclude : Bool
  Chaddr : Fin 6 → BitVec 8
  ChaddrMask : Fin 6 → BitVec 8
  ChaddrExclude : Bool
  DNSServersEnabled : Bool
  MinAddressUpdateSource : Buf 16
  MaxAddressUpdateSource : Buf 16
  ReservedAddresses : Fin 8 → Addr

structure PoolCfg where
  InstanceNumber : ULONG
  Alias : Buf 64
  bEnabled : Bool
  Order : ULONG
  Interface : Buf 64
  selection : PoolSelection
  MinAddress : Addr
  MaxAddress : Addr
  SubnetMask : Addr
  DNSServers : Addrs
  DomainName : Buf 64
  IPRouters : Addrs
  LeaseTime : BitVec 32
  X_CISCO_COM_TimeOffset : BitVec 32
  bAllowDelete : Bool

structure PoolOption where
  InstanceNumber : ULONG
  Alias : Buf 64
  Tag : ULONG
  Value : Buf 512
  bEnabled : Bool
  deriving DecidableEq

structure Pool where
  Cfg : PoolCfg
  StaticAddressList : ℕ
  OptionList : List PoolOption

/-- `DHCPV4_POOL_SET_DEFAULTVALUE` on memory that is zero. -/
def defaultCfg (n : ULONG) : PoolCfg where
  InstanceNumber := n
  Alias := Buf.empty
  bEnabled := false
  Order := 0
  Interface := Buf.empty
  selection :=
    { VendorClassID := Buf.empty
      VendorClassIDExclude := false
      VendorClassIDMode := 0
      ClientID := fun _ => 0
      ClientIDExclude := false
      UserClassID := fun _ => 0
      UserClassIDExclude := false
      Chaddr := fun _ => 0
      ChaddrMask := fun _ => 0
      ChaddrExclude := false
      DNSServersEnabled := false
      MinAddressUpdateSource := Buf.empty
      MaxAddressUpdateSource := Buf.empty
      ReservedAddresses := fun _ => 0 }
  MinAddress := 0
  MaxAddress := 0
  SubnetMask := 0
  DNSServers := Addrs.zero
  DomainName := Buf.empty
  IPRouters := Addrs.zero
  LeaseTime := 86400
  X_CISCO_COM_TimeOffset := 0
  bAllowDelete := true

/-- `DHCPV4_POOLOPTION_SET_DEFAULTVALUE` on memory that is zero. -/
def defaultOption (n : ULONG) : PoolOption where
  InstanceNumber := n
  Alias := Buf.empty
  Tag := 0
  Value := Buf.empty
  bEnabled := false

def boolText (b : Bool) : CStr := if b then "TRUE".toList else "FALSE".toList

/-- `STRCPY_S_NOCLOBBER` leaves the old text when the new one does not fit. -/
def strcpyNoclobber {n : ℕ} (t : CStr) (old : Buf n) : Buf n :=
  if h : t.length < n then ⟨t, h⟩ else old

def ipInterface : CStr := "Device.IP.Interface.".toList

def addrText (a : Addr) : CStr := dotted (addrOctets a)

section Fields

def cfgEnable : StoredField PoolCfg where
  Value := Bool
  get := PoolCfg.bEnabled
  set := fun v c => { c with bEnabled := v }
  writeName := "Enable".toList
  text := boolText
  load := fun t _ => t == "TRUE".toList
  absent := fun _ => false

def cfgAlias : StoredField PoolCfg where
  Value := Buf 64
  get := PoolCfg.Alias
  set := fun v c => { c with Alias := v }
  writeName := "Alias".toList
  text := Buf.text
  load := strcpyNoclobber
  restarts := false

/-- Only what follows "Device.IP.Interface." is stored. -/
def cfgInterface : StoredField PoolCfg where
  Value := Buf 64
  get := PoolCfg.Interface
  set := fun v c => { c with Interface := v }
  writeName := "IPInterface".toList
  text := fun v => v.text.drop ipInterface.length
  load := fun t _ => Buf.sprintf_s (ipInterface ++ t)

def cfgMinAddress : StoredField PoolCfg where
  Value := Addr
  get := PoolCfg.MinAddress
  set := fun v c => { c with MinAddress := v }
  writeName := "MinAddress".toList
  text := addrText
  load := fun t _ => inet_addr t

def cfgMaxAddress : StoredField PoolCfg where
  Value := Addr
  get := PoolCfg.MaxAddress
  set := fun v c => { c with MaxAddress := v }
  writeName := "MaxAddress".toList
  text := addrText
  load := fun t _ => inet_addr t

def cfgSubnetMask : StoredField PoolCfg where
  Value := Addr
  get := PoolCfg.SubnetMask
  set := fun v c => { c with SubnetMask := v }
  writeName := "SubnetMask".toList
  text := addrText
  load := fun t _ => inet_addr t

def cfgDNSServers : StoredField PoolCfg where
  Value := Addrs
  get := PoolCfg.DNSServers
  set := fun v c => { c with DNSServers := v }
  writeName := "DNSServers".toList
  text := cosaDmlGetIpaddrString
  load := cosaDmlSetIpaddr

def cfgIPRouters : StoredField PoolCfg where
  Value := Addrs
  get := PoolCfg.IPRouters
  set := fun v c => { c with IPRouters := v }
  writeName := "IPRouters".toList
  text := cosaDmlGetIpaddrString
  load := cosaDmlSetIpaddr

def cfgDomainName : StoredField PoolCfg where
  Value := Buf 64
  get := PoolCfg.DomainName
  set := fun v c => { c with DomainName := v }
  writeName := "DomainName".toList
  text := Buf.text
  load := strcpyNoclobber

def cfgLeaseTime : StoredField PoolCfg where
  Value := BitVec 32
  get := PoolCfg.LeaseTime
  set := fun v c => { c with LeaseTime := v }
  writeName := "LeaseTime".toList
  text := intText
  load := sscanf_d

def cfgOrder : StoredField PoolCfg where
  Value := ULONG
  get := PoolCfg.Order
  set := fun v c => { c with Order := v }
  writeName := "Order".toList
  text := fun v => decimal v.toNat
  load := sscanf_lu

def cfgTimeOffset : StoredField PoolCfg where
  Value := BitVec 32
  get := PoolCfg.X_CISCO_COM_TimeOffset
  set := fun v c => { c with X_CISCO_COM_TimeOffset := v }
  writeName := "LeaseTime".toList
  readName := "TimeOffset".toList
  text := intText
  load := sscanf_d

def cfgFields : List (StoredField PoolCfg) :=
  [cfgEnable, cfgAlias, cfgInterface, cfgMinAddress, cfgMaxAddress, cfgSubnetMask, cfgDNSServers,
    cfgIPRouters, cfgDomainName, cfgLeaseTime, cfgOrder, cfgTimeOffset]

def cfgReads : List (StoredField PoolCfg) :=
  [cfgEnable, cfgAlias, cfgInterface, cfgMinAddress, cfgMaxAddress, cfgSubnetMask, cfgDomainName,
    cfgDNSServers, cfgIPRouters, cfgLeaseTime, cfgOrder, cfgTimeOffset]

def optionEnable : StoredField PoolOption where
  Value := Bool
  get := PoolOption.bEnabled
  set := fun v c => { c with bEnabled := v }
  writeName := "Enable".toList
  text := boolText
  load := fun t _ => t == "TRUE".toList
  absent := fun _ => false

def optionAlias : StoredField PoolOption where
  Value := Buf 64
  get := PoolOption.Alias
  set := fun v c => { c with Alias := v }
  writeName := "Alias".toList
  text := Buf.text
  load := strcpyNoclobber
  restarts := false

def optionTag : StoredField PoolOption where
  Value := ULONG
  get := PoolOption.Tag
  set := fun v c => { c with Tag := v }
  writeName := "Tag".toList
  text := fun v => decimal v.toNat
  load := sscanf_lu
  absent := fun _ => 0

/-- The writer leaves the value of the old copy as it was. -/
def optionValue : StoredField PoolOption where
  Value := Buf 512
  get := PoolOption.Value
  set := fun v c => { c with Value := v }
  writeName := "Value".toList
  text := fun v => (Buf.sprintf_s v.text : Buf 256).text
  load := strcpyNoclobber
  absent := fun _ => Buf.empty
  copies := false

def optionFields : List (StoredField PoolOption) :=
  [optionEnable, optionAlias, optionTag, optionValue]

end Fields

def poolTable : CStr := "dmsb.dhcpv4.server.pool.".toList

def poolPath (n : ULONG) : CStr := instancePath poolTable n.toNat

def optionTable (n : ULONG) : CStr := poolPath n ++ "Option.".toList

def optionPath (n m : ULONG) : CStr := instancePath (optionTable n) m.toNat

def writeDHCPv4ServerPoolCFGToPSM (pNewCfg : PoolCfg) (s : Saving PoolCfg) : Saving PoolCfg :=
  writeAll cfgFields (poolPath pNewCfg.InstanceNumber) pNewCfg s

def writeDHCPv4ServerPoolOptionToPSM (tblInstancenum : ULONG) (pNewOption : PoolOption)
    (s : Saving PoolOption) : Saving PoolOption :=
  writeAll optionFields (optionPath tblInstancenum pNewOption.InstanceNumber) pNewOption s

def getDHCPv4ServerPoolParametersFromPSM (psm : Tables) (instancenum : ULONG) (c : PoolCfg) :
    PoolCfg :=
  readAll cfgReads (poolPath instancenum) psm
    { c with
      InstanceNumber := instancenum
      bAllowDelete :=
        match psm.value (poolPath instancenum ++ "AllowDelete".toList) with
        | some t => t == "TRUE".toList
        | none => true }

def getDHCPv4ServerPoolOptionFromPSM (psm : Tables) (tblInstancenum instancenum : ULONG)
    (o : PoolOption) : PoolOption :=
  readAll optionFields (optionPath tblInstancenum instancenum) psm
    { o with InstanceNumber := instancenum }

/-- The instances of a table, as an array of `unsigned int`. -/
def psmGetNextLevelInstances (psm : Tables) (table : CStr) : List ULONG :=
  ((psm.listed table).filter (· < 2 ^ 32)).map (BitVec.ofNat 32)

def readPool (psm : Tables) (n : ULONG) : Pool where
  Cfg := getDHCPv4ServerPoolParametersFromPSM psm n (defaultCfg 0)
  StaticAddressList := 0
  OptionList := (psmGetNextLevelInstances psm (optionTable n)).map
    (fun m => getDHCPv4ServerPoolOptionFromPSM psm n m (defaultOption 0))

/-- The first pool is kept elsewhere and skipped here. -/
def readDHCPv4ServerPoolFromPSM (psm : Tables) : List Pool :=
  ((psmGetNextLevelInstances psm poolTable).filter (· ≠ 1)).map (readPool psm)

/-- Memory, the PSM, and how often the server was told to start again. -/
structure Dhcps where
  g_dhcpv4_server_pool_list : List Pool
  psm : Tables
  restarts : ℕ

def updateFirst {α : Type} (p : α → Bool) (f : α → α) : List α → List α
  | [] => []
  | a :: l => if p a then f a :: l else a :: updateFirst p f l

def Pool.hasNumber (n : ULONG) (p : Pool) : Bool := p.Cfg.InstanceNumber = n

def PoolOption.hasNumber (m : ULONG) (o : PoolOption) : Bool := o.InstanceNumber = m

def findPool (n : ULONG) (w : Dhcps) : Option Pool :=
  w.g_dhcpv4_server_pool_list.find? (Pool.hasNumber n)

def is_a_public_addr (addr : Addr) : Bool :=
  if 0x0A000000 ≤ addr ∧ addr ≤ 0x0AFFFFFF then false
  else if 0xAC100000 ≤ addr ∧ addr ≤ 0xAC1FFFFF then false
  else if 0xC0A80000 ≤ addr ∧ addr ≤ 0xC0A8FFFF then false
  else true

def cosaDmlDhcpsAddPool (pEntry : PoolCfg) (w : Dhcps) : Status × Dhcps :=
  let s := writeDHCPv4ServerPoolCFGToPSM pEntry ⟨defaultCfg pEntry.InstanceNumber, w.psm, false⟩
  (.SUCCESS,
    { g_dhcpv4_server_pool_list := w.g_dhcpv4_server_pool_list ++ [⟨s.old, 0, []⟩]
      psm := s.psm
      restarts := w.restarts + s.restart.toNat })

def cosaDmlDhcpsDelPool (n : ULONG) (w : Dhcps) : Status × Dhcps :=
  match findPool n w with
  | none => (.CANT_FIND, w)
  | some p =>
    if p.StaticAddressList ≠ 0 then (.CANT_FIND, w)
    else if p.OptionList ≠ [] then (.CANT_FIND, w)
    else
      (.SUCCESS,
        { g_dhcpv4_server_pool_list := w.g_dhcpv4_server_pool_list.eraseP (Pool.hasNumber n)
          psm := w.psm.delete (poolPath n)
          restarts := w.restarts + 1 })

def cosaDmlDhcpsSetPoolCfg (pCfg : PoolCfg) (w : Dhcps) : Status × Dhcps :=
  match findPool pCfg.InstanceNumber w with
  | none => (.CANT_FIND, w)
  | some p =>
    if pCfg.InstanceNumber = 2 ∧ (is_a_public_addr (ntohl pCfg.MinAddress) ∨
        is_a_public_addr (ntohl pCfg.MaxAddress)) then
      (.FAILURE, w)
    else
      let s := writeDHCPv4ServerPoolCFGToPSM pCfg ⟨p.Cfg, w.psm, false⟩
      (.SUCCESS,
        { g_dhcpv4_server_pool_list :=
            updateFirst (Pool.hasNumber pCfg.InstanceNumber) (fun p => { p with Cfg := s.old })
              w.g_dhcpv4_server_pool_list
          psm := s.psm
          restarts := w.restarts + s.restart.toNat })

def setOptions (n : ULONG) (f : List PoolOption → List PoolOption) (w : Dhcps) : List Pool :=
  updateFirst (Pool.hasNumber n) (fun p => { p with OptionList := f p.OptionList })
    w.g_dhcpv4_server_pool_list

def cosaDmlDhcpsAddOption (n : ULONG) (pEntry : PoolOption) (w : Dhcps) : Status × Dhcps :=
  match findPool n w with
  | none => (.CANT_FIND, w)
  | some _ =>
    let s := writeDHCPv4ServerPoolOptionToPSM n pEntry
      ⟨defaultOption pEntry.InstanceNumber, w.psm, false⟩
    (.SUCCESS,
      { g_dhcpv4_server_pool_list := setOptions n (· ++ [s.old]) w
        psm := s.psm
        restarts := w.restarts + s.restart.toNat })

def cosaDmlDhcpsDelOption (n m : ULONG) (w : Dhcps) : Status × Dhcps :=
  match findPool n w with
  | none => (.CANT_FIND, w)
  | some p =>
    match p.OptionList.find? (PoolOption.hasNumber m) with
    | none => (.CANT_FIND, w)
    | some _ =>
      (.SUCCESS,
        { g_dhcpv4_server_pool_list := setOptions n (List.eraseP (PoolOption.hasNumber m)) w
          psm := w.psm.delete (optionPath n m)
          restarts := w.restarts + 1 })

def cosaDmlDhcpsSetOption (n : ULONG) (pEntry : PoolOption) (w : Dhcps) : Status × Dhcps :=
  match findPool n w with
  | none => (.CANT_FIND, w)
  | some p =>
    match p.OptionList.find? (PoolOption.hasNumber pEntry.InstanceNumber) with
    | none => (.CANT_FIND, w)
    | some o =>
      let s := writeDHCPv4ServerPoolOptionToPSM n pEntry ⟨o, w.psm, false⟩
      (.SUCCESS,
        { g_dhcpv4_server_pool_list :=
            setOptions n (updateFirst (PoolOption.hasNumber pEntry.InstanceNumber) fun _ => s.old) w
          psm := s.psm
          restarts := w.restarts + s.restart.toNat })

end CcspPandM.Dhcpv4sPools
