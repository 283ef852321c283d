import CcspPandM.GroupedFold
import CcspPandM.Ipv6Text
import CcspPandM.Runs
import CcspPandM.TextSearch
import Mathlib.Tactic.FinCases

/-!
The table of the LAN hosts, which each call releases and builds anew from what the
LAN manager reports. Records of one MAC address go to one host and their addresses
are merged. The interfaces and clients of a host are looked up by a part of their
names. The IPv6 addresses of a host are released by the number of its IPv4 ones.
-/
namespace CcspPandM.HostsTable

open BitWindow CString FirstAppearance GroupedFold InetText Ipv6Text PrefixText Runs ScanFields
  ScanText TextSearch

section Code

inductive LM_ADDR_SOURCE where
  | NONE
  | DHCP
  | STATIC
  | RESERVED
  deriving DecidableEq

structure LM_ip_addr_t where
  addr : Bytes 16
  addrSource : LM_ADDR_SOURCE
  LeaseTime : ℕ

structure LM_host_t where
  phyAddr : Bytes 6
  online : Bool
  hostName : CStr
  l1IfName : CStr
  l3IfName : CStr
  AssociatedDevice : CStr
  comments : CStr
  RSSI : BitVec 32
  activityChangeTime : ℕ
  ipv4AddrList : List LM_ip_addr_t
  ipv6AddrList : List LM_ip_addr_t

structure LmObjectHostAddress where
  id : ℕ
  instanceNum : ℕ
  IPAddress : CStr

structure AddrArray where
  size : ℕ
  addrs : List LmObjectHostAddress
  fits : addrs.length ≤ size

structure LmObjectHost where
  id : ℕ
  instanceNum : ℕ
  objectName : CStr
  Active : Bool
  RSSI : BitVec 32
  activityChangeTime : ℕ
  LeaseTime : ℕ
  bTrueStaticIPClient : Bool
  PhysAddress : CStr
  IPAddress : Option CStr
  DHCPClient : Option CStr
  AssociatedDevice : Option CStr
  Layer1Interface : Option CStr
  Layer3Interface : Option CStr
  HostName : Option CStr
  AddressSource : Option CStr
  Comments : Option CStr
  availableInstanceNumIPv4Address : ℕ
  ipv4AddrArray : AddrArray
  availableInstanceNumIPv6Address : ℕ
  ipv6AddrArray : AddrArray

structure NameDM where
  name : CStr
  dm : CStr

def LM_HOST_ARRAY_STEP : ℕ := 20

def hexByte (b : BitVec 8) : CStr :=
  [Nat.digitChar (b.toNat / 16), Nat.digitChar (b.toNat % 16)]

def macText (phyAddr : Bytes 6) : CStr :=
  hexByte (phyAddr 0) ++ ':' :: (hexByte (phyAddr 1) ++ ':' :: (hexByte (phyAddr 2) ++
    ':' :: (hexByte (phyAddr 3) ++ ':' :: (hexByte (phyAddr 4) ++ ':' :: hexByte (phyAddr 5)))))

def ipv4Octets (a : LM_ip_addr_t) : List ℕ :=
  [(a.addr 0).toNat, (a.addr 1).toNat, (a.addr 2).toNat, (a.addr 3).toNat]

def ipv6Octets (a : LM_ip_addr_t) : List ℕ := octets a.addr

/-- The address of the atom side, zero where the lookups fail. -/
def _get_unwelcome_list (psm : CStr → Option CStr) : List ℕ :=
  match psm "dmsb.MultiLAN.PrimaryLAN_l3net".toList with
  | none => [0, 0, 0, 0]
  | some pStr =>
    let ins := sscanf_d pStr 0
    match psm (Buf.sprintf_s
        ("dmsb.atom.l3net.".toList ++ intText ins ++ ".V4Addr".toList) : Buf 50).text with
    | none => [0, 0, 0, 0]
    | some pStr => (inet_pton4 pStr).getD [0, 0, 0, 0]

/-- The lines of the leases file, none where it is missing. -/
def FindHostInLeases (leases : Option (List CStr)) (Temp : CStr) : Bool :=
  match leases with
  | none => true
  | some lines => !lines.isEmpty && !lines.any fun buf => (strstr Temp buf).isSome

def host_filter (atom_if_ip : List ℕ) (leases : Option (List CStr)) (host : LM_host_t) : Bool :=
  if atom_if_ip = [0, 0, 0, 0] then false
  else host.ipv4AddrList.any fun pIp =>
    ipv4Octets pIp == atom_if_ip ||
      (!host.online && FindHostInLeases leases (macText host.phyAddr))

namespace AddrArray

def empty : AddrArray := ⟨0, [], Nat.le_refl 0⟩

def push (a : AddrArray) (x : LmObjectHostAddress) : AddrArray where
  size := if a.size ≤ a.addrs.length then a.size + LM_HOST_ARRAY_STEP else a.size
  addrs := a.addrs ++ [x]
  fits := by
    have hfits := a.fits
    rw [List.length_append, List.length_singleton, LM_HOST_ARRAY_STEP]
    split <;> omega

def read (a : AddrArray) (i : ℕ) : Option (Option LmObjectHostAddress) :=
  if i < a.size then some a.addrs[i]? else none

def records (a : AddrArray) (i : ℕ) : ℕ → Option (List LmObjectHostAddress)
  | 0 => some []
  | n + 1 => do
    let slot ← a.read i
    let rest ← a.records (i + 1) n
    some (slot.toList ++ rest)

/-- The records that a release of the first n slots frees; an empty array is NULL. -/
def freed (a : AddrArray) (n : ℕ) : Option (List LmObjectHostAddress) :=
  if a.size = 0 then some [] else a.records 0 n

end AddrArray

/-- The records that are freed with the host: the IPv4 and the IPv6 ones. -/
def Hosts_FreeHost (pHost : LmObjectHost) :
    Option (List LmObjectHostAddress × List LmObjectHostAddress) := do
  let numIPv4Addr := pHost.ipv4AddrArray.addrs.length
  let ipv4 ← pHost.ipv4AddrArray.freed numIPv4Addr
  let ipv6 ← pHost.ipv6AddrArray.freed numIPv4Addr
  some (ipv4, ipv6)

/-- The new host with its number, before anything is known of it. -/
def Hosts_AddHost (currentTime numHost instanceNum : ℕ) (physAddress : CStr) : LmObjectHost where
  id := numHost
  instanceNum := instanceNum
  objectName := "Device.Hosts.Host.".toList ++ decimal instanceNum ++ ".".toList
  Active := false
  RSSI := 0x7fffffff
  activityChangeTime := currentTime
  LeaseTime := 0
  bTrueStaticIPClient := false
  PhysAddress := physAddress
  IPAddress := none
  DHCPClient := none
  AssociatedDevice := none
  Layer1Interface := some "Ethernet".toList
  Layer3Interface := none
  HostName := none
  AddressSource := none
  Comments := none
  availableInstanceNumIPv4Address := 1
  ipv4AddrArray := AddrArray.empty
  availableInstanceNumIPv6Address := 1
  ipv6AddrArray := AddrArray.empty

def renumber (p : ℕ × ℕ) (x : LmObjectHostAddress) : ℕ × ℕ :=
  if x.instanceNum = p.1 then (p.2, p.2 + 1) else p

/-- `Host_AddIPv4Address` and `Host_AddIPv6Address` on the array and the next number. -/
def addAddress (a : AddrArray) (available instanceNum : ℕ) (address : CStr) : AddrArray × ℕ :=
  if a.addrs.any fun x => strcaseeq x.IPAddress address then (a, available)
  else
    let (n, av) := a.addrs.foldl renumber (instanceNum, available)
    (a.push ⟨a.addrs.length, n, address⟩, if av ≤ n then n + 1 else av)

def Host_AddIPv4Address (pHost : LmObjectHost) (instanceNum : ℕ) (ipv4Address : CStr) :
    LmObjectHost :=
  let (a, av) := addAddress pHost.ipv4AddrArray pHost.availableInstanceNumIPv4Address instanceNum
    ipv4Address
  { pHost with ipv4AddrArray := a, availableInstanceNumIPv4Address := av }

def Host_AddIPv6Address (pHost : LmObjectHost) (instanceNum : ℕ) (ipv6Address : CStr) :
    LmObjectHost :=
  let (a, av) := addAddress pHost.ipv6AddrArray pHost.availableInstanceNumIPv6Address instanceNum
    ipv6Address
  { pHost with ipv6AddrArray := a, availableInstanceNumIPv6Address := av }

def _get_addr_source : LM_ADDR_SOURCE → CStr
  | .DHCP => "DHCP".toList
  | .STATIC => "Static".toList
  | .RESERVED => "ReservedIP".toList
  | .NONE => "None".toList

/-- `strcasestr(haystack, needle) != NULL`. -/
def strcasestr (haystack needle : CStr) : Bool :=
  (strstr (needle.map Char.toLower) (haystack.map Char.toLower)).isSome

def _get_dmbyname (list : List NameDM) (dm : Option CStr) (name : CStr) : Option CStr :=
  match list.find? fun e => strcasestr e.name name with
  | some e => some e.dm
  | none => dm

structure Lists where
  ipIfNames : List NameDM
  moCAADs : List NameDM
  dhcpv4s : List NameDM

def firstAddress (lists : Lists) (pIp : LM_ip_addr_t) (pHost : LmObjectHost) : LmObjectHost :=
  let str := dotted (ipv4Octets pIp)
  { pHost with
    IPAddress := some str
    bTrueStaticIPClient := !(strneq str "192.168".toList 7 || strneq str "10.".toList 3 ||
      strneq str "172.".toList 4)
    AddressSource := some (_get_addr_source pIp.addrSource)
    DHCPClient := if pIp.addrSource = .DHCP then
      _get_dmbyname lists.dhcpv4s pHost.DHCPClient pHost.PhysAddress else none
    LeaseTime := pIp.LeaseTime }

def _get_host_ipaddress (lists : Lists) (pSrcHost : LM_host_t) (pHost : LmObjectHost) :
    LmObjectHost :=
  let addIPv4 := fun (h : LmObjectHost) (a : LM_ip_addr_t) =>
    Host_AddIPv4Address h 1 (dotted (ipv4Octets a))
  let ipv4 := match pSrcHost.ipv4AddrList with
    | [] => pHost
    | pIp :: rest => rest.foldl addIPv4 (firstAddress lists pIp (addIPv4 pHost pIp))
  pSrcHost.ipv6AddrList.foldl
    (fun h a => Host_AddIPv6Address h 1 (inet_ntop6 (ipv6Octets a))) ipv4

/-- The layer 1 interface and the associated device; `port` holds what was on the stack. -/
def layer1 (lists : Lists) (port : BitVec 32) (pDestHost : LM_host_t) (pHost : LmObjectHost) :
    LmObjectHost :=
  if (strstr "Ethernet.".toList pDestHost.l1IfName).isSome then
    let port := match scanLiteral "Ethernet.".toList pDestHost.l1IfName with
      | some rest => sscanf_d rest port
      | none => port
    if port ≠ 0 then
      { pHost with
        Layer1Interface := some
          (Buf.snprintf ("Device.Ethernet.Interface.".toList ++ intText port) : Buf 100).text
        AssociatedDevice := none }
    else pHost
  else if (strstr "MoCA".toList pDestHost.l1IfName).isSome then
    { pHost with
      AssociatedDevice := _get_dmbyname lists.moCAADs pHost.AssociatedDevice pHost.PhysAddress
      Layer1Interface := some pDestHost.l1IfName }
  else if (strstr "WiFi".toList pDestHost.l1IfName).isSome then
    { pHost with
      Layer1Interface := some pDestHost.l1IfName
      AssociatedDevice := some pDestHost.AssociatedDevice }
  else { pHost with Layer1Interface := some pDestHost.l1IfName, AssociatedDevice := none }

def _get_host_info (lists : Lists) (port : BitVec 32) (pHost : LmObjectHost)
    (pDestHost : LM_host_t) : LmObjectHost :=
  let pHost := layer1 lists port pDestHost
    { pHost with Active := pDestHost.online, HostName := some pDestHost.hostName }
  _get_host_ipaddress lists pDestHost
    { pHost with
      Layer3Interface := _get_dmbyname lists.ipIfNames pHost.Layer3Interface pDestHost.l3IfName
      Comments := some pDestHost.comments
      RSSI := pDestHost.RSSI
      activityChangeTime := pDestHost.activityChangeTime }

/-- `_init_DM_List`: the paths without their last dot, each with its name; a path whose name
cannot be read is left empty with it. -/
def _init_DM_List (names : Option (List (Buf 256 × Option (Buf 257)))) : List NameDM :=
  match names with
  | none => []
  | some names => names.map fun (path, value) =>
    match value with
    | some name => ⟨name.text, path.text.dropLast⟩
    | none => ⟨[], []⟩

structure LmHosts where
  hostArray : List LmObjectHost
  availableInstanceNum : ℕ

/-- The table, whether there was a call before, and the records freed by the last release. -/
structure State where
  lmHosts : LmHosts
  firstFlg : Bool
  freed : List (List LmObjectHostAddress × List LmObjectHostAddress)

structure Call where
  bridgeMode : Bool
  psm : CStr → Option CStr
  leases : Option (List CStr)
  hosts : Option (List LM_host_t)
  ipIfNames : Option (List (Buf 256 × Option (Buf 257)))
  moCAADs : Option (List (Buf 256 × Option (Buf 257)))
  dhcpv4s : Option (List (Buf 256 × Option (Buf 257)))
  currentTime : ℕ
  port : BitVec 32

def MACADDR_SZ : ℕ := 18

def addRecord (c : Call) (lists : Lists) (lmHosts : LmHosts) (plmHost : LM_host_t) : LmHosts :=
  let str := macText plmHost.phyAddr
  if str.length ≠ MACADDR_SZ - 1 then lmHosts
  else match lmHosts.hostArray.findIdx? (fun h => strcaseeq h.PhysAddress str) with
    | some i =>
      { lmHosts with
        hostArray := lmHosts.hostArray.modify i fun h => _get_host_info lists c.port h plmHost }
    | none =>
      { hostArray := lmHosts.hostArray ++ [_get_host_info lists c.port
          (Hosts_AddHost c.currentTime lmHosts.hostArray.length lmHosts.availableInstanceNum str)
          plmHost]
        availableInstanceNum := lmHosts.availableInstanceNum + 1 }

def Hosts_RmHosts (lmHosts : LmHosts) :
    Option (LmHosts × List (List LmObjectHostAddress × List LmObjectHostAddress)) :=
  if lmHosts.hostArray.length = 0 then some (lmHosts, [])
  else (lmHosts.hostArray.mapM Hosts_FreeHost).map fun freed => (⟨[], 1⟩, freed)

def CosaDmlHostsGetHosts (s : State) (c : Call) : Option State := do
  let (lmHosts, freed) ← Hosts_RmHosts s.lmHosts
  if !s.firstFlg || c.bridgeMode then some ⟨lmHosts, true, freed⟩
  else match c.hosts with
    | none => some ⟨lmHosts, true, freed⟩
    | some hosts =>
      let lists : Lists :=
        ⟨_init_DM_List c.ipIfNames, _init_DM_List c.moCAADs, _init_DM_List c.dhcpv4s⟩
      let listed := hosts.filter fun h => !host_filter (_get_unwelcome_list c.psm) c.leases h
      some ⟨listed.foldl (addRecord c lists) lmHosts, true, freed⟩

/-- After `CosaDmlHostsInit`. -/
def start : State := ⟨⟨[], 1⟩, false, []⟩

end Code

section Purpose

/-- The records of a call that are not filtered out. -/
def reported (c : Call) : List LM_host_t :=
  (c.hosts.getD []).filter fun h => !host_filter (_get_unwelcome_list c.psm) c.leases h

def recordsOf (c : Call) (mac : Bytes 6) : List LM_host_t :=
  (reported c).filter fun r => r.phyAddr = mac

def pathNamed (names : Option (List (Buf 256 × Option (Buf 257)))) (isName : CStr → Bool) :
    Option CStr :=
  ((names.getD []).find? fun x => x.2.any fun name => isName name.text).map
    fun x => x.1.text.dropLast

def leased (rs : List LM_host_t) : Option LM_ip_addr_t :=
  rs.reverse.findSome? fun r => r.ipv4AddrList.head?

def layer3Of (c : Call) (rs : List LM_host_t) : Option CStr :=
  rs.getLast?.bind fun r => pathNamed c.ipIfNames fun name => name == r.l3IfName

def clientOf (c : Call) (mac : Bytes 6) (rs : List LM_host_t) : Option CStr :=
  if (leased rs).any fun a => a.addrSource = .DHCP then
    pathNamed c.dhcpv4s fun name => strcaseeq name (macText mac) else none

structure ShowsAddresses (text : List ℕ → CStr) (reported : List (List ℕ)) (a : AddrArray) :
    Prop where
  addresses : ∃ as : List (List ℕ), as.Nodup ∧ (∀ x, x ∈ as ↔ x ∈ reported) ∧
    a.addrs.map LmObjectHostAddress.IPAddress = as.map text
  numbers : (a.addrs.map LmObjectHostAddress.instanceNum).Nodup

structure ShowsHost (c : Call) (mac : Bytes 6) (h : LmObjectHost) : Prop where
  ipv4 : ShowsAddresses dotted ((recordsOf c mac).flatMap fun r => r.ipv4AddrList.map ipv4Octets)
    h.ipv4AddrArray
  ipv6 : ShowsAddresses inet_ntop6
    ((recordsOf c mac).flatMap fun r => r.ipv6AddrList.map ipv6Octets) h.ipv6AddrArray
  layer3 : h.Layer3Interface = layer3Of c (recordsOf c mac)
  client : h.DHCPClient = clientOf c mac (recordsOf c mac)

/-- The hosts of the table are those of the reported MAC addresses in the order in which these
first appear. -/
structure ShowsHosts (c : Call) (hosts : List LmObjectHost) : Prop where
  macs : hosts.map LmObjectHost.PhysAddress =
    (firsts id ((reported c).map LM_host_t.phyAddr)).map macText
  numbers : hosts.map LmObjectHost.instanceNum = List.range' 1 hosts.length
  hosts : ∀ (i : ℕ) (mac : Bytes 6) (h : LmObjectHost),
    (firsts id ((reported c).map LM_host_t.phyAddr))[i]? = some mac → hosts[i]? = some h →
    ShowsHost c mac h

/-- What a call should do: free the records of the old table, each once, and show the hosts. -/
def Right (s : State) (c : Call) (t : State) : Prop :=
  t.freed = s.lmHosts.hostArray.map (fun h => (h.ipv4AddrArray.addrs, h.ipv6AddrArray.addrs)) ∧
    (c.bridgeMode = false → ShowsHosts c t.lmHosts.hostArray)

/-- The number of IPv4 addresses lies between that of the IPv6 ones and the slots for these. -/
def Releasable (h : LmObjectHost) : Prop :=
  h.ipv6AddrArray.size = 0 ∨
    h.ipv6AddrArray.addrs.length ≤ h.ipv4AddrArray.addrs.length ∧
      h.ipv4AddrArray.addrs.length ≤ h.ipv6AddrArray.size

def pathContaining (names : Option (List (Buf 256 × Option (Buf 257)))) (name : CStr) :
    Option CStr :=
  ((_init_DM_List names).find? fun e => strcasestr e.name name).map NameDM.dm

/-- The first interface whose name contains the one reported last is the one that has this name;
where none contains it, no other name reported for the MAC address is contained in one. -/
def InterfaceTold (c : Call) (rs : List LM_host_t) : Prop :=
  ∀ r ∈ rs.getLast?, match pathContaining c.ipIfNames r.l3IfName with
    | some dm => pathNamed c.ipIfNames (fun name => name == r.l3IfName) = some dm
    | none => ∀ r' ∈ rs, pathContaining c.ipIfNames r'.l3IfName = none

/-- The first client whose address contains the MAC address is the one that has it. -/
def ClientTold (c : Call) (mac : Bytes 6) (rs : List LM_host_t) : Prop :=
  ((leased rs).any fun a => a.addrSource = .DHCP) = true →
    ∀ dm ∈ pathContaining c.dhcpv4s (macText mac),
      pathNamed c.dhcpv4s (fun name => strcaseeq name (macText mac)) = some dm

def Fits (s : State) (c : Call) : Prop :=
  (∀ h ∈ s.lmHosts.hostArray, Releasable h) ∧
    (c.bridgeMode = false →
      if s.firstFlg then ∀ mac ∈ (reported c).map LM_host_t.phyAddr,
        InterfaceTold c (recordsOf c mac) ∧ ClientTold c mac (recordsOf c mac)
      else reported c = [])

end Purpose

section Texts

/-- Small letters only. -/
def IsLower (t : CStr) : Prop := ∀ c ∈ t, c.toLower = c

variable {t t' : CStr}

theorem IsLower.map_eq (h : IsLower t) : t.map Char.toLower = t := by
  conv_rhs => rw [← List.map_id t]
  exact List.map_congr_left h

theorem IsLower.append (h : IsLower t) (h' : IsLower t') : IsLower (t ++ t') := by
  intro c hc
  rcases List.mem_append.mp hc with hc | hc
  · exact h c hc
  · exact h' c hc

theorem IsLower.cons {c : Char} (hc : c.toLower = c) (h : IsLower t) : IsLower (c :: t) := by
  intro d hd
  rcases List.mem_cons.mp hd with rfl | hd
  · exact hc
  · exact h d hd

theorem strcaseeq_iff (h : IsLower t) (h' : IsLower t') : strcaseeq t t' = true ↔ t = t' := by
  rw [strcaseeq, h.map_eq, h'.map_eq, beq_iff_eq]

theorem toLower_of_isDigit {c : Char} (h : c.isDigit = true) : c.toLower = c := by
  have hle : ¬ ('A'.val ≤ c.val ∧ c.val ≤ 'Z'.val) := by
    rintro ⟨hA, -⟩
    rw [Char.isDigit, Bool.and_eq_true, decide_eq_true_eq, decide_eq_true_eq] at h
    have hnine : 'A'.val ≤ '9'.val := UInt32.le_trans hA h.2
    exact absurd hnine (by decide)
  exact dif_neg hle

theorem toLower_digitChar {d : ℕ} (h : d < 16) : d.digitChar.toLower = d.digitChar := by
  revert d
  decide

theorem isLower_decimal (n : ℕ) : IsLower (decimal n) :=
  fun _ hc => toLower_of_isDigit (isDigit_of_mem_decimal hc)

theorem isLower_hexText (n : ℕ) : IsLower (hexText n) := by
  induction n using Nat.strongRecOn with
  | _ n ih =>
    by_cases hsmall : n < 16
    · have htext : hexText n = [n.digitChar] := Nat.toDigits_of_lt_base hsmall
      rw [htext]
      exact IsLower.cons (toLower_digitChar hsmall) nofun
    · have htext : hexText n = hexText (n / 16) ++ [(n % 16).digitChar] :=
        Nat.toDigits_of_base_le (by omega) (by omega)
      rw [htext]
      exact (ih (n / 16) (by omega)).append
        (IsLower.cons (toLower_digitChar (Nat.mod_lt n (by omega))) nofun)

theorem isLower_dotted : ∀ os : List ℕ, IsLower (dotted os)
  | [] => nofun
  | [o] => by
    rw [dotted_singleton]
    exact isLower_decimal o
  | o :: o' :: os => by
    rw [dotted_cons]
    exact (isLower_decimal o).append (IsLower.cons rfl (isLower_dotted (o' :: os)))

theorem isLower_ntop6From (words octets : List ℕ) (base len i fuel : ℕ) :
    IsLower (ntop6From words octets base len i fuel) := by
  have hcolon : IsLower [':'] := IsLower.cons rfl nofun
  induction fuel generalizing i with
  | zero =>
    rw [ntop6From]
    split
    · exact hcolon
    · exact nofun
  | succ fuel ih =>
    rw [ntop6From]
    split
    · apply IsLower.append ?_ (ih (i + 1))
      split
      · exact hcolon
      · exact nofun
    · split
      · exact IsLower.cons rfl (isLower_dotted _)
      · apply IsLower.append (IsLower.append ?_ (isLower_hexText _)) (ih (i + 1))
        split
        · exact nofun
        · exact hcolon

theorem isLower_inet_ntop6 (os : List ℕ) : IsLower (inet_ntop6 os) := isLower_ntop6From _ _ _ _ _ _

theorem isLower_hexByte (b : BitVec 8) : IsLower (hexByte b) := by
  have hlt := b.isLt
  exact IsLower.cons (toLower_digitChar (by omega))
    (IsLower.cons (toLower_digitChar (Nat.mod_lt _ (by omega))) nofun)

theorem isLower_macText (a : Bytes 6) : IsLower (macText a) := by
  have hbyte : ∀ (b : BitVec 8) {t : CStr}, IsLower t → IsLower (hexByte b ++ ':' :: t) :=
    fun b t ht => (isLower_hexByte b).append (IsLower.cons rfl ht)
  exact hbyte _ (hbyte _ (hbyte _ (hbyte _ (hbyte _ (isLower_hexByte _)))))

theorem digitChar_injective {d d' : ℕ} (hd : d < 16) (hd' : d' < 16)
    (h : d.digitChar = d'.digitChar) : d = d' := by
  have hvalue := hexValue_digitChar hd
  rw [h, hexValue_digitChar hd'] at hvalue
  exact (Option.some.inj hvalue).symm

theorem hexByte_injective : Function.Injective hexByte := by
  intro b b' h
  have hlt := b.isLt
  have hlt' := b'.isLt
  obtain ⟨hhigh, hlow⟩ := List.cons.inj h
  have hdiv := digitChar_injective (by omega) (by omega) hhigh
  have hmod := digitChar_injective (Nat.mod_lt _ (by omega)) (Nat.mod_lt _ (by omega))
    (List.cons.inj hlow).1
  apply BitVec.eq_of_toNat_eq
  omega

theorem macText_injective : Function.Injective macText := by
  intro a a' h
  have hpart : ∀ {b b' : BitVec 8} {t t' : CStr},
      hexByte b ++ ':' :: t = hexByte b' ++ ':' :: t' → b = b' ∧ t = t' := by
    intro b b' t t' heq
    obtain ⟨hbyte, hrest⟩ := List.append_inj heq rfl
    exact ⟨hexByte_injective hbyte, (List.cons.inj hrest).2⟩
  obtain ⟨h0, h⟩ := hpart h
  obtain ⟨h1, h⟩ := hpart h
  obtain ⟨h2, h⟩ := hpart h
  obtain ⟨h3, h⟩ := hpart h
  obtain ⟨h4, h⟩ := hpart h
  have h5 := hexByte_injective h
  funext k
  fin_cases k
  · exact h0
  · exact h1
  · exact h2
  · exact h3
  · exact h4
  · exact h5

theorem length_macText (a : Bytes 6) : (macText a).length = MACADDR_SZ - 1 := rfl

theorem ipv6Octets_spec (a : LM_ip_addr_t) :
    (ipv6Octets a).length = 16 ∧ ∀ o ∈ ipv6Octets a, o < 256 := by
  refine ⟨rfl, fun o ho => ?_⟩
  obtain ⟨i, -, rfl⟩ := List.mem_map.mp ho
  exact (a.addr.byteAt i).isLt

end Texts

section Release

variable {a : AddrArray}

theorem records_of_le {i n : ℕ} (h : i + n ≤ a.size) :
    a.records i n = some ((a.addrs.drop i).take n) := by
  induction n generalizing i with
  | zero => rw [AddrArray.records, List.take_zero]
  | succ n ih =>
    have hread : a.read i = some a.addrs[i]? := if_pos (by omega)
    simp only [AddrArray.records, hread, Option.bind_eq_bind, Option.bind_some,
      @ih (i + 1) (by omega)]
    congr 1
    rcases hlist : a.addrs.drop i with _ | ⟨x, rest⟩
    · have hlen : a.addrs.length ≤ i := List.drop_eq_nil_iff.mp hlist
      rw [List.getElem?_eq_none hlen, List.drop_eq_nil_of_le (by omega), List.take_nil,
        List.take_nil]
      rfl
    · have hx : a.addrs[i]? = some x := by
        rw [← List.head?_drop, hlist]
        rfl
      have hrest : a.addrs.drop (i + 1) = rest := by
        rw [← List.tail_drop, hlist]
        rfl
      rw [hx, hrest, List.take_succ_cons]
      rfl

theorem records_of_lt {i n : ℕ} (hn : 0 < n) (h : a.size < i + n) : a.records i n = none := by
  induction n generalizing i with
  | zero => cases hn
  | succ n ih =>
    by_cases hi : i < a.size
    · have hread : a.read i = some a.addrs[i]? := if_pos hi
      simp only [AddrArray.records, hread, Option.bind_eq_bind, Option.bind_some,
        @ih (i + 1) (by omega) (by omega), Option.bind_none]
    · have hread : a.read i = none := if_neg hi
      simp only [AddrArray.records, hread, Option.bind_eq_bind, Option.bind_none]

theorem addrs_of_size_zero (h : a.size = 0) : a.addrs = [] := by
  have hfits := a.fits
  exact List.eq_nil_of_length_eq_zero (by omega)

theorem freed_eq_some_iff (n : ℕ) :
    a.freed n = some a.addrs ↔ a.size = 0 ∨ a.addrs.length ≤ n ∧ n ≤ a.size := by
  rw [AddrArray.freed]
  by_cases hzero : a.size = 0
  · rw [if_pos hzero, addrs_of_size_zero hzero]
    exact iff_of_true rfl (Or.inl hzero)
  · rw [if_neg hzero]
    by_cases hfit : n ≤ a.size
    · rw [records_of_le (by omega), List.drop_zero, Option.some.injEq, List.take_eq_self_iff]
      simp [hzero, hfit]
    · rw [records_of_lt (by omega) (by omega)]
      simp [hzero, hfit]

theorem freeHost_iff (h : LmObjectHost) :
    Hosts_FreeHost h = some (h.ipv4AddrArray.addrs, h.ipv6AddrArray.addrs) ↔ Releasable h := by
  have hv4 : h.ipv4AddrArray.freed h.ipv4AddrArray.addrs.length = some h.ipv4AddrArray.addrs :=
    (freed_eq_some_iff _).mpr (Or.inr ⟨Nat.le_refl _, h.ipv4AddrArray.fits⟩)
  simp only [Hosts_FreeHost, hv4, Option.bind_eq_bind, Option.bind_some]
  rw [Releasable, ← freed_eq_some_iff]
  cases h.ipv6AddrArray.freed h.ipv4AddrArray.addrs.length with
  | none => simp
  | some rs => simp

theorem mapM_eq_some_map {α β : Type} {f : α → Option β} {g : α → β} {l : List α} :
    l.mapM f = some (l.map g) ↔ ∀ x ∈ l, f x = some (g x) := by
  induction l with
  | nil => simp
  | cons x l ih =>
    rw [List.mapM_cons, List.forall_mem_cons, ← ih]
    cases hx : f x with
    | none => simp
    | some y =>
      cases hl : l.mapM f with
      | none => simp
      | some ys => simp

end Release

section Addresses

def numbered (ts : List CStr) : List LmObjectHostAddress := ts.mapIdx fun i t => ⟨i, i + 1, t⟩

theorem map_numbered (ts : List CStr) :
    (numbered ts).map LmObjectHostAddress.IPAddress = ts := by
  apply List.ext_getElem
  · rw [numbered, List.length_map, List.length_mapIdx]
  · intro i hi hi'
    simp [numbered]

theorem numbered_numbers (ts : List CStr) :
    ((numbered ts).map LmObjectHostAddress.instanceNum).Nodup := by
  have hrange : (numbered ts).map LmObjectHostAddress.instanceNum = List.range' 1 ts.length := by
    apply List.ext_getElem
    · rw [numbered, List.length_map, List.length_mapIdx, List.length_range']
    · intro i hi hi'
      simp [numbered, Nat.add_comm]
  rw [hrange]
  exact List.nodup_range'

theorem foldl_renumber {l : List LmObjectHostAddress} {n av : ℕ}
    (h : ∀ x ∈ l, x.instanceNum ≠ n) : l.foldl renumber (n, av) = (n, av) := by
  induction l with
  | nil => rfl
  | cons x l ih =>
    have hx : renumber (n, av) x = (n, av) := if_neg (h x List.mem_cons_self)
    rw [List.foldl_cons, hx]
    exact ih fun y hy => h y (List.mem_cons_of_mem x hy)

theorem foldl_renumber_numbered (ts : List CStr) :
    (numbered ts).foldl renumber (1, ts.length + 1) =
      (ts.length + 1, if ts = [] then 1 else ts.length + 2) := by
  cases ts with
  | nil => rfl
  | cons t ts =>
    rw [numbered, List.mapIdx_cons, List.foldl_cons]
    have hfirst : renumber (1, (t :: ts).length + 1) ⟨0, 0 + 1, t⟩ =
        ((t :: ts).length + 1, (t :: ts).length + 2) := if_pos rfl
    rw [hfirst, foldl_renumber, if_neg (List.cons_ne_nil t ts)]
    intro x hx
    obtain ⟨i, hi, rfl⟩ := List.mem_mapIdx.mp hx
    change i + 1 + 1 ≠ (t :: ts).length + 1
    rw [List.length_cons]
    omega

variable {a : AddrArray} {av : ℕ} {ts : List CStr} {t : CStr}

theorem addAddress_numbered (ha : a.addrs = numbered ts) (hav : av = ts.length + 1)
    (hts : ∀ t ∈ ts, IsLower t) (ht : IsLower t) :
    (addAddress a av 1 t).1.addrs = numbered (addNew id ts t) ∧
      (addAddress a av 1 t).2 = (addNew id ts t).length + 1 := by
  have hany : (a.addrs.any fun x => strcaseeq x.IPAddress t) = true ↔ t ∈ ts := by
    have hmap : (a.addrs.any fun x => strcaseeq x.IPAddress t) =
        ts.any fun x => strcaseeq x t := by
      conv_rhs => rw [← map_numbered ts]
      rw [List.any_map, ha]
      rfl
    rw [hmap, List.any_eq_true]
    constructor
    · rintro ⟨x, hx, heq⟩
      rw [(strcaseeq_iff (hts x hx) ht).mp heq] at hx
      exact hx
    · exact fun hmem => ⟨t, hmem, (strcaseeq_iff ht ht).mpr rfl⟩
  rw [addAddress]
  by_cases hmem : t ∈ ts
  · rw [if_pos (hany.mpr hmem), addNew_of_mem (by simpa using hmem)]
    exact ⟨ha, hav⟩
  · rw [if_neg fun h => hmem (hany.mp h), addNew_of_notMem (by simpa using hmem), ha, hav,
      foldl_renumber_numbered]
    refine ⟨?_, ?_⟩
    · change a.addrs ++ [⟨(numbered ts).length, ts.length + 1, t⟩] = numbered (ts ++ [t])
      rw [ha, numbered, numbered, List.mapIdx_concat, List.length_mapIdx]
    · rw [List.length_append, List.length_singleton]
      dsimp only
      by_cases hnil : ts = []
      · rw [if_pos hnil, if_pos (by omega)]
      · rw [if_neg hnil, if_neg (by omega)]

def addAddresses (p : AddrArray × ℕ) (ts : List CStr) : AddrArray × ℕ :=
  ts.foldl (fun p t => addAddress p.1 p.2 1 t) p

theorem addAddresses_append (p : AddrArray × ℕ) (ts ts' : List CStr) :
    addAddresses p (ts ++ ts') = addAddresses (addAddresses p ts) ts' := List.foldl_append

theorem addAddresses_numbered {new : List CStr} (ha : a.addrs = numbered ts)
    (hav : av = ts.length + 1) (hts : ∀ t ∈ ts, IsLower t) (hnew : ∀ t ∈ new, IsLower t) :
    (addAddresses (a, av) new).1.addrs = numbered (addAll id ts new) := by
  induction new generalizing a av ts with
  | nil => exact ha
  | cons t new ih =>
    have ht := hnew t List.mem_cons_self
    obtain ⟨ha', hav'⟩ := addAddress_numbered ha hav hts ht
    rw [addAll_cons]
    apply ih ha' hav' ?_ fun t ht => hnew t (List.mem_cons_of_mem _ ht)
    intro t' ht'
    rcases mem_addAll_id.mp (show t' ∈ addAll id ts [t] from ht') with hold | hone
    · exact hts t' hold
    · rw [List.mem_singleton.mp hone]
      exact ht

theorem showsAddresses {text : List ℕ → CStr} {addrs : List (List ℕ)}
    (hlower : ∀ x, IsLower (text x))
    (hinj : ∀ x ∈ addrs, ∀ y ∈ addrs, text x = text y → x = y) :
    ShowsAddresses text addrs (addAddresses (AddrArray.empty, 1) (addrs.map text)).1 := by
  have hshown : (addAddresses (AddrArray.empty, 1) (addrs.map text)).1.addrs =
      numbered (firsts id (addrs.map text)) := by
    have hnone : ∀ t ∈ ([] : List CStr), IsLower t := nofun
    have hempty : AddrArray.empty.addrs = numbered [] := rfl
    apply addAddresses_numbered hempty rfl hnone
    intro t ht
    obtain ⟨x, -, rfl⟩ := List.mem_map.mp ht
    exact hlower x
  have hfirsts := firsts_map hinj
  refine ⟨⟨firsts id addrs, firsts_id_nodup addrs, fun x => mem_firsts_id, ?_⟩, ?_⟩
  · rw [hshown, map_numbered, hfirsts]
  · rw [hshown]
    exact numbered_numbers _

end Addresses

section Info

variable (lists : Lists) (port : BitVec 32) (h : LmObjectHost) (r : LM_host_t)

theorem layer1_eq : ∃ l1 dev,
    layer1 lists port r h = { h with Layer1Interface := l1, AssociatedDevice := dev } := by
  rw [layer1]
  split
  · dsimp only
    generalize (match scanLiteral "Ethernet.".toList r.l1IfName with
      | some rest => sscanf_d rest port
      | none => port) = port'
    split
    · exact ⟨_, _, rfl⟩
    · exact ⟨h.Layer1Interface, h.AssociatedDevice, rfl⟩
  · split
    · exact ⟨_, _, rfl⟩
    · split
      · exact ⟨_, _, rfl⟩
      · exact ⟨_, _, rfl⟩

theorem foldl_addIPv4 (text : LM_ip_addr_t → CStr) (as : List LM_ip_addr_t) (h : LmObjectHost) :
    as.foldl (fun h a => Host_AddIPv4Address h 1 (text a)) h =
      { h with
        ipv4AddrArray := (addAddresses
          (h.ipv4AddrArray, h.availableInstanceNumIPv4Address) (as.map text)).1
        availableInstanceNumIPv4Address := (addAddresses
          (h.ipv4AddrArray, h.availableInstanceNumIPv4Address) (as.map text)).2 } := by
  induction as generalizing h with
  | nil => rfl
  | cons a as ih =>
    rw [List.foldl_cons, ih]
    rfl

theorem foldl_addIPv6 (text : LM_ip_addr_t → CStr) (as : List LM_ip_addr_t) (h : LmObjectHost) :
    as.foldl (fun h a => Host_AddIPv6Address h 1 (text a)) h =
      { h with
        ipv6AddrArray := (addAddresses
          (h.ipv6AddrArray, h.availableInstanceNumIPv6Address) (as.map text)).1
        availableInstanceNumIPv6Address := (addAddresses
          (h.ipv6AddrArray, h.availableInstanceNumIPv6Address) (as.map text)).2 } := by
  induction as generalizing h with
  | nil => rfl
  | cons a as ih =>
    rw [List.foldl_cons, ih]
    rfl

def clientAfter (client : Option CStr) (mac : CStr) : Option CStr :=
  match r.ipv4AddrList with
  | [] => client
  | pIp :: _ =>
    if pIp.addrSource = .DHCP then _get_dmbyname lists.dhcpv4s client mac else none

theorem hostIpaddress_eq : ∃ ip static source lease,
    _get_host_ipaddress lists r h =
      { h with
        IPAddress := ip
        bTrueStaticIPClient := static
        AddressSource := source
        LeaseTime := lease
        DHCPClient := clientAfter lists r h.DHCPClient h.PhysAddress
        ipv4AddrArray := (addAddresses (h.ipv4AddrArray, h.availableInstanceNumIPv4Address)
          (r.ipv4AddrList.map fun a => dotted (ipv4Octets a))).1
        availableInstanceNumIPv4Address :=
          (addAddresses (h.ipv4AddrArray, h.availableInstanceNumIPv4Address)
            (r.ipv4AddrList.map fun a => dotted (ipv4Octets a))).2
        ipv6AddrArray := (addAddresses (h.ipv6AddrArray, h.availableInstanceNumIPv6Address)
          (r.ipv6AddrList.map fun a => inet_ntop6 (ipv6Octets a))).1
        availableInstanceNumIPv6Address :=
          (addAddresses (h.ipv6AddrArray, h.availableInstanceNumIPv6Address)
            (r.ipv6AddrList.map fun a => inet_ntop6 (ipv6Octets a))).2 } := by
  cases hlist : r.ipv4AddrList with
  | nil =>
    refine ⟨h.IPAddress, h.bTrueStaticIPClient, h.AddressSource, h.LeaseTime, ?_⟩
    rw [_get_host_ipaddress, clientAfter, hlist]
    exact foldl_addIPv6 _ _ _
  | cons pIp rest =>
    rw [_get_host_ipaddress, clientAfter, hlist]
    dsimp only
    rw [foldl_addIPv6, foldl_addIPv4]
    exact ⟨_, _, _, _, rfl⟩

structure InfoOf (h h' : LmObjectHost) : Prop where
  mac : h'.PhysAddress = h.PhysAddress
  number : h'.instanceNum = h.instanceNum
  ipv4 : (h'.ipv4AddrArray, h'.availableInstanceNumIPv4Address) =
    addAddresses (h.ipv4AddrArray, h.availableInstanceNumIPv4Address)
      (r.ipv4AddrList.map fun a => dotted (ipv4Octets a))
  ipv6 : (h'.ipv6AddrArray, h'.availableInstanceNumIPv6Address) =
    addAddresses (h.ipv6AddrArray, h.availableInstanceNumIPv6Address)
      (r.ipv6AddrList.map fun a => inet_ntop6 (ipv6Octets a))
  layer3 : h'.Layer3Interface = _get_dmbyname lists.ipIfNames h.Layer3Interface r.l3IfName
  client : h'.DHCPClient = clientAfter lists r h.DHCPClient h.PhysAddress

theorem info_spec : InfoOf lists r h (_get_host_info lists port h r) := by
  obtain ⟨l1, dev, hlayer1⟩ := layer1_eq lists port
    { h with Active := r.online, HostName := some r.hostName } r
  rw [_get_host_info, hlayer1]
  dsimp only
  obtain ⟨ip, static, source, lease, hinfo⟩ := hostIpaddress_eq lists
    { h with
      Active := r.online, HostName := some r.hostName, Layer1Interface := l1
      AssociatedDevice := dev, Comments := some r.comments, RSSI := r.RSSI
      activityChangeTime := r.activityChangeTime
      Layer3Interface := _get_dmbyname lists.ipIfNames h.Layer3Interface r.l3IfName } r
  rw [hinfo]
  exact ⟨rfl, rfl, rfl, rfl, rfl, rfl⟩

end Info

section Names

variable {names : Option (List (Buf 256 × Option (Buf 257)))} {name : CStr}

theorem get_dmbyname_eq (dm : Option CStr) :
    _get_dmbyname (_init_DM_List names) dm name = (pathContaining names name).or dm := by
  rw [_get_dmbyname, pathContaining]
  cases (_init_DM_List names).find? fun e => strcasestr e.name name with
  | none => rfl
  | some e => rfl

theorem strcasestr_self (t t' : CStr) (h : strcaseeq t t' = true) : strcasestr t t' = true := by
  rw [strcaseeq, beq_iff_eq] at h
  rw [strcasestr, h]
  exact (strstr_isSome _ _).mpr List.infix_rfl

theorem pathNamed_of_not_containing {isName : CStr → Bool}
    (his : ∀ t, isName t = true → strcasestr t name = true)
    (h : pathContaining names name = none) : pathNamed names isName = none := by
  rw [pathNamed, Option.map_eq_none_iff, List.find?_eq_none]
  intro x hx hnamed
  rw [pathContaining, Option.map_eq_none_iff, List.find?_eq_none] at h
  obtain ⟨value, hvalue, hname⟩ := (Option.any_eq_true _ _).mp hnamed
  cases names with
  | none => cases hx
  | some names =>
    apply h ⟨value.text, x.1.text.dropLast⟩ ?_ (his _ hname)
    apply List.mem_map.mpr
    refine ⟨x, hx, ?_⟩
    obtain ⟨path, value'⟩ := x
    cases hvalue
    rfl

variable (c : Call) (mac : Bytes 6) (rs : List LM_host_t)

theorem layer3_iff :
    rs.foldl (fun dm r => (pathContaining c.ipIfNames r.l3IfName).or dm) none = layer3Of c rs ↔
      InterfaceTold c rs := by
  have hnone : ∀ rs : List LM_host_t,
      rs.foldl (fun dm r => (pathContaining c.ipIfNames r.l3IfName).or dm) none = none ↔
        ∀ r ∈ rs, pathContaining c.ipIfNames r.l3IfName = none := by
    intro rs
    induction rs using List.reverseRecOn with
    | nil => simp
    | append_singleton rs r ih =>
      rw [List.foldl_concat, Option.or_eq_none_iff, ih, List.forall_mem_append,
        List.forall_mem_singleton, and_comm]
  rcases List.eq_nil_or_concat rs with rfl | ⟨rs, r, rfl⟩
  · exact iff_of_true rfl nofun
  · have hlast : (rs.concat r).getLast? = some r := by simp
    rw [layer3Of, InterfaceTold, hlast, List.concat_eq_append, List.foldl_concat, Option.bind_some]
    simp only [Option.mem_def, Option.some.injEq, forall_eq']
    cases hfound : pathContaining c.ipIfNames r.l3IfName with
    | some dm => rw [Option.some_or, eq_comm]
    | none =>
      have hnamed : (pathNamed c.ipIfNames fun name => name == r.l3IfName) = none := by
        apply pathNamed_of_not_containing ?_ hfound
        intro t ht
        rw [eq_of_beq ht]
        exact strcasestr_self _ _ (beq_self_eq_true _)
      rw [hnamed, Option.none_or, hnone, List.forall_mem_append, List.forall_mem_singleton]
      exact (and_iff_left hfound).symm

theorem client_eq (lists : Lists) (hlists : lists.dhcpv4s = _init_DM_List c.dhcpv4s) :
    rs.foldl (fun dm r => clientAfter lists r dm (macText mac)) none =
      if (leased rs).any fun a => a.addrSource = .DHCP then
        pathContaining c.dhcpv4s (macText mac) else none := by
  induction rs using List.reverseRecOn with
  | nil => rfl
  | append_singleton rs r ih =>
    have hleased : leased (rs ++ [r]) = r.ipv4AddrList.head?.or (leased rs) := by
      rw [leased, List.reverse_concat, List.findSome?_cons]
      cases r.ipv4AddrList.head? with
      | none => rfl
      | some a => rfl
    rw [List.foldl_concat, ih, hleased, clientAfter]
    cases hlist : r.ipv4AddrList with
    | nil => rfl
    | cons pIp rest =>
      rw [List.head?_cons, Option.some_or, Option.any_some, hlists]
      dsimp only
      rw [get_dmbyname_eq]
      by_cases hdhcp : pIp.addrSource = .DHCP
      · rw [if_pos hdhcp, if_pos (decide_eq_true hdhcp)]
        split
        · exact Option.or_self
        · exact Option.or_none
      · rw [if_neg hdhcp, if_neg (by simpa using hdhcp)]

theorem client_iff :
    (if (leased rs).any fun a => a.addrSource = .DHCP then
      pathContaining c.dhcpv4s (macText mac) else none) = clientOf c mac rs ↔
      ClientTold c mac rs := by
  rw [clientOf, ClientTold]
  by_cases hdhcp : ((leased rs).any fun a => a.addrSource = .DHCP) = true
  · rw [if_pos hdhcp, if_pos hdhcp]
    simp only [hdhcp, forall_const]
    cases hfound : pathContaining c.dhcpv4s (macText mac) with
    | some dm => simp [eq_comm]
    | none =>
      have hnamed := pathNamed_of_not_containing
        (fun t => strcasestr_self t (macText mac)) hfound
      rw [hnamed]
      exact iff_of_true rfl nofun
  · rw [if_neg hdhcp, if_neg hdhcp]
    exact iff_of_true rfl fun h => absurd h hdhcp

end Names

section Hosts

structure InfosOf (lists : Lists) (rs : List LM_host_t) (h h' : LmObjectHost) : Prop where
  mac : h'.PhysAddress = h.PhysAddress
  number : h'.instanceNum = h.instanceNum
  ipv4 : (h'.ipv4AddrArray, h'.availableInstanceNumIPv4Address) =
    addAddresses (h.ipv4AddrArray, h.availableInstanceNumIPv4Address)
      ((rs.flatMap fun r => r.ipv4AddrList.map ipv4Octets).map dotted)
  ipv6 : (h'.ipv6AddrArray, h'.availableInstanceNumIPv6Address) =
    addAddresses (h.ipv6AddrArray, h.availableInstanceNumIPv6Address)
      ((rs.flatMap fun r => r.ipv6AddrList.map ipv6Octets).map inet_ntop6)
  layer3 : h'.Layer3Interface =
    rs.foldl (fun dm r => _get_dmbyname lists.ipIfNames dm r.l3IfName) h.Layer3Interface
  client : h'.DHCPClient =
    rs.foldl (fun dm r => clientAfter lists r dm h.PhysAddress) h.DHCPClient

theorem infos_spec (lists : Lists) (port : BitVec 32) (rs : List LM_host_t) (h : LmObjectHost) :
    InfosOf lists rs h (rs.foldl (_get_host_info lists port) h) := by
  induction rs generalizing h with
  | nil => exact ⟨rfl, rfl, rfl, rfl, rfl, rfl⟩
  | cons r rs ih =>
    have hfirst := info_spec lists port h r
    have hrest := ih (_get_host_info lists port h r)
    rw [List.foldl_cons]
    exact
      { mac := hrest.mac.trans hfirst.mac
        number := hrest.number.trans hfirst.number
        ipv4 := by
          rw [hrest.ipv4, hfirst.ipv4, List.flatMap_cons, List.map_append, addAddresses_append,
            List.map_map]
          rfl
        ipv6 := by
          rw [hrest.ipv6, hfirst.ipv6, List.flatMap_cons, List.map_append, addAddresses_append,
            List.map_map]
          rfl
        layer3 := by rw [hrest.layer3, hfirst.layer3, List.foldl_cons]
        client := by rw [hrest.client, hfirst.client, hfirst.mac, List.foldl_cons] }

def listsOf (c : Call) : Lists :=
  ⟨_init_DM_List c.ipIfNames, _init_DM_List c.moCAADs, _init_DM_List c.dhcpv4s⟩

def hostOf (c : Call) (i : ℕ) (mac : Bytes 6) : LmObjectHost :=
  (recordsOf c mac).foldl (_get_host_info (listsOf c) c.port)
    (Hosts_AddHost c.currentTime i (i + 1) (macText mac))

variable (c : Call)

theorem addRecord_eq (hosts : List LmObjectHost) (r : LM_host_t) :
    addRecord c (listsOf c) ⟨hosts, hosts.length + 1⟩ r =
      let t := absorb (fun r => macText r.phyAddr) (fun h => h.PhysAddress.map Char.toLower)
        (fun i => Hosts_AddHost c.currentTime i (i + 1)) (_get_host_info (listsOf c) c.port) hosts r
      ⟨t, t.length + 1⟩ := by
  have hsame : (fun h : LmObjectHost => strcaseeq h.PhysAddress (macText r.phyAddr)) =
      fun h => decide (h.PhysAddress.map Char.toLower = macText r.phyAddr) := by
    funext h
    apply Bool.eq_iff_iff.mpr
    rw [strcaseeq, (isLower_macText r.phyAddr).map_eq, beq_iff_eq, decide_eq_true_iff]
  have hlen : ¬ (macText r.phyAddr).length ≠ MACADDR_SZ - 1 := fun h => h (length_macText _)
  dsimp only
  rw [addRecord, if_neg hlen, hsame, absorb]
  cases hosts.findIdx? fun h => decide (h.PhysAddress.map Char.toLower = macText r.phyAddr) with
  | some i =>
    dsimp only
    rw [List.length_modify]
  | none =>
    dsimp only
    rw [List.length_append, List.length_singleton]

theorem addRecords_eq (rs : List LM_host_t) :
    rs.foldl (addRecord c (listsOf c)) ⟨[], 1⟩ =
      let t := collect (fun r => macText r.phyAddr) (fun h => h.PhysAddress.map Char.toLower)
        (fun i => Hosts_AddHost c.currentTime i (i + 1)) (_get_host_info (listsOf c) c.port) rs
      ⟨t, t.length + 1⟩ := by
  induction rs using List.reverseRecOn with
  | nil => rfl
  | append_singleton rs r ih =>
    rw [List.foldl_concat, ih]
    dsimp only
    rw [addRecord_eq, collect, collect, List.foldl_concat]

theorem hosts_eq :
    ((reported c).foldl (addRecord c (listsOf c)) ⟨[], 1⟩).hostArray =
      (firsts id ((reported c).map LM_host_t.phyAddr)).mapIdx (hostOf c) := by
  have hinit : ∀ (i : ℕ) (r : LM_host_t),
      (Hosts_AddHost c.currentTime i (i + 1) (macText r.phyAddr)).PhysAddress.map Char.toLower =
        macText r.phyAddr := fun i r => (isLower_macText r.phyAddr).map_eq
  have hupd : ∀ (h : LmObjectHost) (r : LM_host_t),
      (_get_host_info (listsOf c) c.port h r).PhysAddress.map Char.toLower =
        h.PhysAddress.map Char.toLower :=
    fun h r => congrArg _ (info_spec (listsOf c) c.port h r).mac
  have hkeys : firsts id ((reported c).map fun r => macText r.phyAddr) =
      (firsts id ((reported c).map LM_host_t.phyAddr)).map macText := by
    rw [← firsts_map fun x _ y _ hxy => macText_injective hxy, List.map_map]
    rfl
  have hgroup : ∀ mac, group (fun r => macText r.phyAddr) (reported c) (macText mac) =
      recordsOf c mac := by
    intro mac
    apply List.filter_congr
    intro r _
    exact decide_eq_decide.mpr macText_injective.eq_iff
  rw [addRecords_eq]
  dsimp only
  rw [collect_eq hinit hupd, hkeys]
  apply List.ext_getElem
  · rw [List.length_mapIdx, List.length_mapIdx, List.length_map]
  · intro i hi hi'
    rw [List.getElem_mapIdx, List.getElem_mapIdx, List.getElem_map, hgroup, hostOf]

theorem showsHost_iff (i : ℕ) (mac : Bytes 6) :
    ShowsHost c mac (hostOf c i mac) ↔
      InterfaceTold c (recordsOf c mac) ∧ ClientTold c mac (recordsOf c mac) := by
  have hinfo := infos_spec (listsOf c) c.port (recordsOf c mac)
    (Hosts_AddHost c.currentTime i (i + 1) (macText mac))
  have hipv4 : ShowsAddresses dotted
      ((recordsOf c mac).flatMap fun r => r.ipv4AddrList.map ipv4Octets)
      (hostOf c i mac).ipv4AddrArray := by
    have harray : (hostOf c i mac).ipv4AddrArray = (addAddresses (AddrArray.empty, 1)
        (((recordsOf c mac).flatMap fun r => r.ipv4AddrList.map ipv4Octets).map dotted)).1 :=
      congrArg Prod.fst hinfo.ipv4
    have hlen : ∀ x ∈ (recordsOf c mac).flatMap fun r => r.ipv4AddrList.map ipv4Octets,
        x.length = 4 := by
      intro x hx
      obtain ⟨r, -, hr⟩ := List.mem_flatMap.mp hx
      obtain ⟨a, -, rfl⟩ := List.mem_map.mp hr
      rfl
    rw [harray]
    exact showsAddresses isLower_dotted fun x hx y hy hxy =>
      dotted_injective ((hlen x hx).trans (hlen y hy).symm) hxy
  have hipv6 : ShowsAddresses inet_ntop6
      ((recordsOf c mac).flatMap fun r => r.ipv6AddrList.map ipv6Octets)
      (hostOf c i mac).ipv6AddrArray := by
    have harray : (hostOf c i mac).ipv6AddrArray = (addAddresses (AddrArray.empty, 1)
        (((recordsOf c mac).flatMap fun r => r.ipv6AddrList.map ipv6Octets).map inet_ntop6)).1 :=
      congrArg Prod.fst hinfo.ipv6
    have hread : ∀ x ∈ (recordsOf c mac).flatMap fun r => r.ipv6AddrList.map ipv6Octets,
        inet_pton6 (inet_ntop6 x) = some x := by
      intro x hx
      obtain ⟨r, -, hr⟩ := List.mem_flatMap.mp hx
      obtain ⟨a, -, rfl⟩ := List.mem_map.mp hr
      obtain ⟨hlen, hlt⟩ := ipv6Octets_spec a
      exact inet_pton6_inet_ntop6 hlen hlt
    rw [harray]
    apply showsAddresses isLower_inet_ntop6
    intro x hx y hy hxy
    have heq := hread x hx
    rw [hxy, hread y hy] at heq
    exact (Option.some.inj heq).symm
  have hlayer3 : (hostOf c i mac).Layer3Interface =
      (recordsOf c mac).foldl (fun dm r => (pathContaining c.ipIfNames r.l3IfName).or dm) none := by
    rw [hostOf, hinfo.layer3]
    have hstep : (fun dm (r : LM_host_t) => _get_dmbyname (listsOf c).ipIfNames dm r.l3IfName) =
        fun dm r => (pathContaining c.ipIfNames r.l3IfName).or dm := by
      funext dm r
      exact get_dmbyname_eq dm
    rw [hstep]
    rfl
  have hclient : (hostOf c i mac).DHCPClient =
      if (leased (recordsOf c mac)).any fun a => a.addrSource = .DHCP then
        pathContaining c.dhcpv4s (macText mac) else none := by
    rw [hostOf, hinfo.client]
    exact client_eq c mac (recordsOf c mac) (listsOf c) rfl
  constructor
  · intro h
    have hl := h.layer3
    have hc := h.client
    rw [hlayer3] at hl
    rw [hclient] at hc
    exact ⟨(layer3_iff c _).mp hl, (client_iff c mac _).mp hc⟩
  · rintro ⟨hl, hc⟩
    exact ⟨hipv4, hipv6, hlayer3.trans ((layer3_iff c _).mpr hl),
      hclient.trans ((client_iff c mac _).mpr hc)⟩

theorem showsHosts_iff :
    ShowsHosts c ((reported c).foldl (addRecord c (listsOf c)) ⟨[], 1⟩).hostArray ↔
      ∀ mac ∈ (reported c).map LM_host_t.phyAddr,
        InterfaceTold c (recordsOf c mac) ∧ ClientTold c mac (recordsOf c mac) := by
  rw [hosts_eq]
  have hmac : ∀ (i : ℕ) (mac : Bytes 6), (hostOf c i mac).PhysAddress = macText mac ∧
      (hostOf c i mac).instanceNum = i + 1 := by
    intro i mac
    have hinfo := infos_spec (listsOf c) c.port (recordsOf c mac)
      (Hosts_AddHost c.currentTime i (i + 1) (macText mac))
    exact ⟨hinfo.mac, hinfo.number⟩
  constructor
  · intro h mac hmem
    obtain ⟨i, hi, hget⟩ := List.getElem_of_mem (mem_firsts_id.mpr hmem)
    apply (showsHost_iff c i mac).mp
    apply h.hosts i mac
    · rw [List.getElem?_eq_getElem hi, hget]
    · rw [List.getElem?_mapIdx, List.getElem?_eq_getElem hi, hget]
      rfl
  · intro h
    refine ⟨?_, ?_, ?_⟩
    · apply List.ext_getElem
      · rw [List.length_map, List.length_mapIdx, List.length_map]
      · intro i hi hi'
        rw [List.getElem_map, List.getElem_mapIdx, List.getElem_map]
        exact (hmac i _).1
    · apply List.ext_getElem
      · rw [List.length_map, List.length_range']
      · intro i hi hi'
        rw [List.getElem_map, List.getElem_mapIdx, List.getElem_range', (hmac i _).2]
        omega
    · intro i mac host hi hhost
      rw [List.getElem?_mapIdx, hi, Option.map_some, Option.some.injEq] at hhost
      rw [← hhost]
      exact (showsHost_iff c i mac).mpr (h mac (mem_firsts_id.mp (List.mem_of_getElem? hi)))

theorem showsHosts_nil : ShowsHosts c [] ↔ reported c = [] := by
  constructor
  · intro h
    have hmacs := h.macs
    rw [List.map_nil, eq_comm, List.map_eq_nil_iff] at hmacs
    apply List.eq_nil_iff_forall_not_mem.mpr
    intro r hr
    have hfirst : r.phyAddr ∈ firsts id ((reported c).map LM_host_t.phyAddr) :=
      mem_firsts_id.mpr (List.mem_map_of_mem hr)
    rw [hmacs] at hfirst
    cases hfirst
  · intro h
    have hnone : (reported c).map LM_host_t.phyAddr = [] := by rw [h, List.map_nil]
    refine ⟨?_, rfl, ?_⟩
    · rw [hnone]
      rfl
    · intro i mac host _ hhost
      cases hhost

/-- The number after the last one is available. -/
def Inv (s : State) : Prop :=
  s.lmHosts.availableInstanceNum = s.lmHosts.hostArray.length + 1

theorem rmHosts_eq {l : LmHosts} (h : l.availableInstanceNum = l.hostArray.length + 1) :
    Hosts_RmHosts l = (l.hostArray.mapM Hosts_FreeHost).map fun freed => (⟨[], 1⟩, freed) := by
  obtain ⟨hosts, n⟩ := l
  cases hosts with
  | nil =>
    have hone : n = 1 := h
    rw [hone]
    rfl
  | cons host hosts => exact if_neg (Nat.succ_ne_zero _)

def tableAfter (s : State) : LmHosts :=
  if !s.firstFlg || c.bridgeMode then ⟨[], 1⟩
  else (reported c).foldl (addRecord c (listsOf c)) ⟨[], 1⟩

theorem getHosts_eq {s : State} (hs : Inv s) :
    CosaDmlHostsGetHosts s c = (s.lmHosts.hostArray.mapM Hosts_FreeHost).map fun freed =>
      ⟨tableAfter c s, true, freed⟩ := by
  rw [CosaDmlHostsGetHosts, rmHosts_eq hs, tableAfter]
  cases s.lmHosts.hostArray.mapM Hosts_FreeHost with
  | none => rfl
  | some freed =>
    simp only [Option.map_some, Option.bind_eq_bind, Option.bind_some]
    split
    · rfl
    · cases hhosts : c.hosts with
      | none =>
        rw [reported, hhosts]
        rfl
      | some hosts =>
        rw [reported, hhosts]
        rfl

theorem inv_tableAfter (s : State) :
    (tableAfter c s).availableInstanceNum = (tableAfter c s).hostArray.length + 1 := by
  rw [tableAfter]
  split
  · rfl
  · rw [addRecords_eq]

theorem right_iff {s : State} (hs : Inv s) :
    (∃ t, CosaDmlHostsGetHosts s c = some t ∧ Right s c t) ↔ Fits s c := by
  have hfreed : s.lmHosts.hostArray.mapM Hosts_FreeHost =
      some (s.lmHosts.hostArray.map fun h => (h.ipv4AddrArray.addrs, h.ipv6AddrArray.addrs)) ↔
      ∀ h ∈ s.lmHosts.hostArray, Releasable h := by
    rw [mapM_eq_some_map]
    exact forall₂_congr fun h _ => freeHost_iff h
  have hshows : c.bridgeMode = false → (ShowsHosts c (tableAfter c s).hostArray ↔
      if s.firstFlg then ∀ mac ∈ (reported c).map LM_host_t.phyAddr,
        InterfaceTold c (recordsOf c mac) ∧ ClientTold c mac (recordsOf c mac)
      else reported c = []) := by
    intro hbridge
    rw [tableAfter, hbridge]
    cases s.firstFlg with
    | false => exact showsHosts_nil c
    | true => exact showsHosts_iff c
  rw [getHosts_eq c hs, Fits, ← hfreed]
  constructor
  · rintro ⟨t, ht, hright, hhosts⟩
    obtain ⟨freed, hmap, rfl⟩ := Option.map_eq_some_iff.mp ht
    refine ⟨?_, fun hbridge => (hshows hbridge).mp (hhosts hbridge)⟩
    rw [hmap, show freed = _ from hright]
  · rintro ⟨hmap, hfits⟩
    rw [hmap, Option.map_some]
    exact ⟨_, rfl, rfl, fun hbridge => (hshows hbridge).mpr (hfits hbridge)⟩

/-- Every call releases the old table and shows the reported hosts exactly if in every call the
numbers of addresses fit, the names tell and the first call has nothing to show. -/
theorem hosts_shown (calls : List Call) :
    Does CosaDmlHostsGetHosts Right start calls ↔
      StepsMeet CosaDmlHostsGetHosts Fits start calls := by
  apply @does_iff _ _ CosaDmlHostsGetHosts Right (fun _ _ => True) Fits Inv
  · intro s c hs _
    exact right_iff c hs
  · intro s c t hs _ _ ht
    rw [getHosts_eq c hs] at ht
    obtain ⟨freed, -, rfl⟩ := Option.map_eq_some_iff.mp ht
    exact inv_tableAfter c s
  · rfl
  · exact stepsMeet_true _ _ _

def callReporting (hosts : List LM_host_t) : Call where
  bridgeMode := false
  psm := fun _ => none
  leases := none
  hosts := some hosts
  ipIfNames := some [(Buf.snprintf "Device.IP.Interface.1.".toList,
    some (Buf.snprintf "brlan0".toList))]
  moCAADs := none
  dhcpv4s := none
  currentTime := 0
  port := 0

def dualStackHost : LM_host_t where
  phyAddr := fun _ => 0xa0
  online := true
  hostName := "laptop".toList
  l1IfName := "Ethernet.1".toList
  l3IfName := "brlan0".toList
  AssociatedDevice := []
  comments := []
  RSSI := 0
  activityChangeTime := 0
  ipv4AddrList := [⟨fun _ => 10, .STATIC, 0⟩]
  ipv6AddrList := [⟨fun _ => 0xfe, .NONE, 0⟩, ⟨fun _ => 0x20, .NONE, 0⟩]

/-- The second IPv6 address of the host is not freed by the next call. -/
theorem second_address_leaks :
    ¬ Does CosaDmlHostsGetHosts Right start
      [callReporting [], callReporting [dualStackHost], callReporting [dualStackHost]] := by
  rintro ⟨s₁, h₁, -, s₂, h₂, -, s₃, h₃, ⟨hfreed, -⟩, -⟩
  have hheld : ((CosaDmlHostsGetHosts start (callReporting [])).bind fun s =>
      (CosaDmlHostsGetHosts s (callReporting [dualStackHost])).map fun s =>
        s.lmHosts.hostArray.map fun h => h.ipv6AddrArray.addrs.length) = some [2] := by decide
  have hreleased : ((CosaDmlHostsGetHosts start (callReporting [])).bind fun s =>
      (CosaDmlHostsGetHosts s (callReporting [dualStackHost])).bind fun s =>
        (CosaDmlHostsGetHosts s (callReporting [dualStackHost])).map fun s =>
          s.freed.map fun f => f.2.length) = some [1] := by decide
  rw [h₁, Option.bind_some, h₂] at hheld hreleased
  rw [Option.map_some, Option.some.injEq] at hheld
  rw [Option.bind_some, h₃, Option.map_some, hfreed, List.map_map, Option.some.injEq] at hreleased
  have hsame : [2] = [1] := hheld.symm.trans hreleased
  cases hsame

end Hosts

end CcspPandM.HostsTable
