import Mathlib.Data.List.Infix
import CcspPandM.HostOrder
import CcspPandM.KeyedList

/-!
Which clients of a port mapping the pools of the data model accept. The search
for the LAN stops at the first address whose subnet the client belongs to. The
walk over the pools then turns the bytes of the client around at every pool that
it examines, and takes a pool as soon as its interface contains the path of the
LAN interface.
-/
namespace CcspPandM.NatClientPools

open CString HostOrder InetText Ipv4Addr

/-- The calls into the data model; a value is read into `MAX_QUERY` bytes. -/
structure DslhDmlAgent where
  getParamValueUlong : CStr → BitVec 32
  getInstanceNumberByIndex : CStr → ℕ → BitVec 32
  getParamValueString : CStr → Option (Buf 1024)
  getParamValueBool : CStr → Bool

def ipInterfaceDml : CStr := "Device.IP.Interface.".toList

def ipInterfaceCountDml : CStr := "Device.IP.InterfaceNumberOfEntries".toList

def dhcpv4ServerPoolDml : CStr := "Device.DHCPv4.Server.Pool.".toList

def dhcpv4ServerPoolCountDml : CStr := "Device.DHCPv4.Server.PoolNumberOfEntries".toList

/-- A name printed into `MAX_QUERY` bytes by `sprintf_s`. -/
def query (name : CStr) : CStr := (Buf.sprintf_s name : Buf 1024).text

def ipInstance (ip_inst_num : BitVec 32) : CStr :=
  (Buf.snprintf (ipInterfaceDml ++ decimal ip_inst_num.toNat) : Buf 1024).text

def poolInstance (pool_inst_num : BitVec 32) : CStr :=
  (Buf.snprintf (dhcpv4ServerPoolDml ++ decimal pool_inst_num.toNat) : Buf 1024).text

section Agent

variable (dml : DslhDmlAgent)

def stringOf (instance_ : CStr) (param : String) : Option CStr :=
  (dml.getParamValueString (query (instance_ ++ param.toList))).map Buf.text

def bridgedLan (ip_instance : CStr) : Bool :=
  match stringOf dml ip_instance ".LowerLayers" with
  | some link => decide ("Device.Ethernet.Link".toList <:+: link) &&
    match stringOf dml link ".LowerLayers" with
    | some bridge => decide ("Device.Bridging.Bridge".toList <:+: bridge)
    | none => false
  | none => false

def clientInSubnet (client : Addr) (addr_instance : CStr) : Bool :=
  match stringOf dml addr_instance ".IPAddress", stringOf dml addr_instance ".SubnetMask" with
  | some ip_addr, some ip_netmask =>
    let ipaddr := inetAddr 0xffffffff ip_addr
    let netmask := inetAddr 0xffffffff ip_netmask
    (inet_pton4 ip_addr).isSome && (inet_pton4 ip_netmask).isSome &&
      (ipv4AddrIsSameNetwork client ipaddr netmask && !ipv4AddrIsBroadcast client ipaddr netmask &&
        !ipv4AddrIsNetworkAddr client ipaddr netmask)
  | _, _ => false

/-- The instance numbers of a table in the order of its indices; the count is
kept in an `int`. -/
def intInstances (count table : CStr) : List (BitVec 32) :=
  (List.range (dml.getParamValueUlong count).toInt.toNat).map (dml.getInstanceNumberByIndex table)

def ipInterfaces : List (BitVec 32) := intInstances dml ipInterfaceCountDml ipInterfaceDml

def ipv4Addresses (ip_instance : CStr) : List (BitVec 32) :=
  intInstances dml (query (ip_instance ++ ".IPv4AddressNumberOfEntries".toList))
    (query (ip_instance ++ ".IPv4Address.".toList))

def addressAccepts (client : Addr) (ip_instance : CStr) (addr_inst_num : BitVec 32) : Bool :=
  addr_inst_num != 0 && clientInSubnet dml client
    (query (ip_instance ++ ".IPv4Address.".toList ++ decimal addr_inst_num.toNat))

/-- `_Find_IPv4_LAN_DML`: the interface and the address. -/
def findIPv4LanDml (client : Addr) : Option (BitVec 32 × BitVec 32) :=
  (ipInterfaces dml).findSome? (fun ip_inst_num =>
    if ip_inst_num ≠ 0 ∧ bridgedLan dml (ipInstance ip_inst_num) then
      ((ipv4Addresses dml (ipInstance ip_inst_num)).find?
        (addressAccepts dml client (ipInstance ip_inst_num))).map (fun a => (ip_inst_num, a))
    else none)

def serverPools : List (BitVec 32) :=
  (List.range (dml.getParamValueUlong dhcpv4ServerPoolCountDml).toNat).map
    (dml.getInstanceNumberByIndex dhcpv4ServerPoolDml)

def poolEnabled (pool_inst_num : BitVec 32) : Bool :=
  dml.getParamValueBool (query (poolInstance pool_inst_num ++ ".Enable".toList))

/-- The walk over the pools, with the client and `dhcp_ip_address_end` as the
pools before have left them. -/
def poolLoop (ip_instance : CStr) : List (BitVec 32) → Addr → Addr → Bool
  | [], _, _ => false
  | pool_inst_num :: pools, client_ip_address, dhcp_ip_address_end =>
    if pool_inst_num ≠ 0 ∧
        (stringOf dml (poolInstance pool_inst_num) ".Interface").any
          (fun param_val => decide (ip_instance <:+: param_val)) ∧
        poolEnabled dml pool_inst_num then
      match stringOf dml (poolInstance pool_inst_num) ".MinAddress" with
      | none => poolLoop ip_instance pools client_ip_address dhcp_ip_address_end
      | some minAddress =>
        let dhcp_ip_address_end := inetAddr dhcp_ip_address_end minAddress
        let dhcp_ip_address_start := htonl dhcp_ip_address_end
        match stringOf dml (poolInstance pool_inst_num) ".MaxAddress" with
        | none => poolLoop ip_instance pools client_ip_address dhcp_ip_address_end
        | some maxAddress =>
          let dhcp_ip_address_end := htonl (inetAddr dhcp_ip_address_end maxAddress)
          let client_ip_address := htonl client_ip_address
          if dhcp_ip_address_start ≤ client_ip_address ∧
              client_ip_address ≤ dhcp_ip_address_end then true
          else poolLoop ip_instance pools client_ip_address dhcp_ip_address_end
    else poolLoop ip_instance pools client_ip_address dhcp_ip_address_end

def validateClientIPAddress (client_ip_address : Addr) : Bool :=
  match findIPv4LanDml dml client_ip_address with
  | some (dml_ip_inst_num, _) =>
    dml_ip_inst_num != 0 && poolLoop dml (ipInstance dml_ip_inst_num) (serverPools dml)
      client_ip_address 0xffffffff
  | none => false

/-- The host belongs to the subnet of an IPv4 address of this bridged LAN. -/
def InLan (client : Addr) (ip_inst_num : BitVec 32) : Prop :=
  ip_inst_num ∈ ipInterfaces dml ∧ ip_inst_num ≠ 0 ∧ bridgedLan dml (ipInstance ip_inst_num) ∧
    ∃ a ∈ ipv4Addresses dml (ipInstance ip_inst_num),
      addressAccepts dml client (ipInstance ip_inst_num) a

/-- The pool refers to this interface, and not to one whose path only begins
like it. -/
def PoolOf (ip_inst_num pool_inst_num : BitVec 32) : Prop :=
  stringOf dml (poolInstance pool_inst_num) ".Interface" = some (ipInstance ip_inst_num) ∨
    stringOf dml (poolInstance pool_inst_num) ".Interface" = some (ipInstance ip_inst_num ++ ['.'])

def rangeOf (pool_inst_num : BitVec 32) : Option (Addr × Addr) :=
  match stringOf dml (poolInstance pool_inst_num) ".MinAddress",
    stringOf dml (poolInstance pool_inst_num) ".MaxAddress" with
  | some minAddress, some maxAddress =>
    some (htonl (inetAddr 0xffffffff minAddress), htonl (inetAddr 0xffffffff maxAddress))
  | _, _ => none

def Contains (range : Addr × Addr) (address : Addr) : Prop :=
  range.1 ≤ address ∧ address ≤ range.2

def Served (client : Addr) : Prop :=
  ∃ ip_inst_num, InLan dml client ip_inst_num ∧ ∃ pool ∈ serverPools dml, pool ≠ 0 ∧
    PoolOf dml ip_inst_num pool ∧ poolEnabled dml pool ∧
    ∃ range, rangeOf dml pool = some range ∧ Contains range (htonl client)

/-- The addresses of the pools read as dotted quads; the library renders them
from numbers. -/
def RangesAreAddresses : Prop :=
  ∀ pool ∈ serverPools dml, ∀ t, (stringOf dml (poolInstance pool) ".MinAddress" = some t ∨
    stringOf dml (poolInstance pool) ".MaxAddress" = some t) → (inet_pton4 t).isSome

def examined (ip_instance : CStr) (pool_inst_num : BitVec 32) : Bool :=
  pool_inst_num != 0 && (stringOf dml (poolInstance pool_inst_num) ".Interface").any
    (fun param_val => decide (ip_instance <:+: param_val)) && poolEnabled dml pool_inst_num &&
    (rangeOf dml pool_inst_num).isSome

def places (ip_instance : CStr) (pools : List (BitVec 32)) : List (BitVec 32 × Addr × Addr) :=
  pools.filterMap (fun pool =>
    if examined dml ip_instance pool then (rangeOf dml pool).map (fun r => (pool, r)) else none)

/-- The client as it is compared at place p, counted from 0: as a number at the
even places, with its bytes reversed at the odd ones. -/
def clientAt (client : Addr) (p : ℕ) : Addr := if p % 2 = 0 then htonl client else client

/-- The pool at place p of the first LAN contains what the client is there. -/
def TakenAt (client : Addr) (ip_inst_num : BitVec 32) (p : ℕ) (pool : BitVec 32) : Prop :=
  (∃ a, findIPv4LanDml dml client = some (ip_inst_num, a)) ∧ ∃ range,
    (places dml (ipInstance ip_inst_num) (serverPools dml))[p]? = some (pool, range) ∧
      Contains range (clientAt client p)

/-- A right pool of the first LAN at an even place. -/
def ServedFirst (client : Addr) : Prop :=
  ∃ ip_inst_num p pool, TakenAt dml client ip_inst_num p pool ∧ p % 2 = 0 ∧
    PoolOf dml ip_inst_num pool

/-- A pool at an odd place, or one of an interface whose path begins like that
of the first LAN. -/
def TakenWrongly (client : Addr) : Prop :=
  ∃ ip_inst_num p pool, TakenAt dml client ip_inst_num p pool ∧
    (p % 2 = 1 ∨ ¬ PoolOf dml ip_inst_num pool)

end Agent

theorem clientAt_htonl (client : Addr) (p : ℕ) :
    clientAt (htonl client) p = clientAt client (p + 1) := by
  unfold clientAt
  by_cases hp : p % 2 = 0
  · rw [if_pos hp, if_neg (by omega), htonl_htonl]
  · rw [if_neg hp, if_pos (by omega)]

theorem inetAddr_congr {t : CStr} (h : (inet_pton4 t).isSome) (x y : Addr) :
    inetAddr x t = inetAddr y t := by
  obtain ⟨octets, hoctets⟩ := Option.isSome_iff_exists.mp h
  rw [inetAddr, inetAddr, hoctets]

section Walk

variable (dml : DslhDmlAgent) (ip_instance : CStr)

variable {pool : BitVec 32} {pools : List (BitVec 32)}

theorem places_of_examined {range : Addr × Addr}
    (h : examined dml ip_instance pool = true) (hrange : rangeOf dml pool = some range) :
    places dml ip_instance (pool :: pools) = (pool, range) :: places dml ip_instance pools := by
  rw [places, List.filterMap_cons, if_pos h, hrange]
  rfl

theorem places_of_skipped (h : ¬ examined dml ip_instance pool = true) :
    places dml ip_instance (pool :: pools) = places dml ip_instance pools := by
  rw [places, List.filterMap_cons, if_neg h]
  rfl

theorem poolLoop_of_skipped (pools : List (BitVec 32)) (client last : Addr)
    (h : ¬ examined dml ip_instance pool = true) :
    ∃ last', poolLoop dml ip_instance (pool :: pools) client last =
      poolLoop dml ip_instance pools client last' := by
  rw [poolLoop]
  split
  · next hpool =>
    cases hmin : stringOf dml (poolInstance pool) ".MinAddress" with
    | none => exact ⟨_, rfl⟩
    | some minAddress =>
      cases hmax : stringOf dml (poolInstance pool) ".MaxAddress" with
      | none => exact ⟨_, rfl⟩
      | some maxAddress =>
        exfalso
        apply h
        simp only [examined, rangeOf, hmin, hmax, Bool.and_eq_true, bne_iff_ne]
        exact ⟨⟨⟨hpool.1, hpool.2.1⟩, hpool.2.2⟩, rfl⟩
  · exact ⟨_, rfl⟩

theorem poolLoop_of_examined (pools : List (BitVec 32)) (client last : Addr)
    {range : Addr × Addr} (h : examined dml ip_instance pool = true)
    (hrange : rangeOf dml pool = some range)
    (haddr : ∀ t, (stringOf dml (poolInstance pool) ".MinAddress" = some t ∨
      stringOf dml (poolInstance pool) ".MaxAddress" = some t) → (inet_pton4 t).isSome) :
    ∃ last', (poolLoop dml ip_instance (pool :: pools) client last = true ↔
      Contains range (htonl client) ∨
        poolLoop dml ip_instance pools (htonl client) last' = true) := by
  simp only [examined, Bool.and_eq_true, bne_iff_ne] at h
  obtain ⟨⟨⟨hne, hinterface⟩, henabled⟩, -⟩ := h
  cases hmin : stringOf dml (poolInstance pool) ".MinAddress" with
  | none =>
    rw [rangeOf, hmin] at hrange
    cases hrange
  | some minAddress =>
    cases hmax : stringOf dml (poolInstance pool) ".MaxAddress" with
    | none =>
      rw [rangeOf, hmin, hmax] at hrange
      cases hrange
    | some maxAddress =>
      rw [rangeOf, hmin, hmax, Option.some.injEq] at hrange
      subst hrange
      rw [poolLoop, if_pos ⟨hne, hinterface, henabled⟩, hmin]
      dsimp only
      rw [hmax]
      dsimp only
      rw [inetAddr_congr (haddr minAddress (Or.inl hmin)) last 0xffffffff,
        inetAddr_congr (haddr maxAddress (Or.inr hmax)) _ 0xffffffff]
      refine ⟨htonl (inetAddr 0xffffffff maxAddress), ?_⟩
      split
      · next hin => exact iff_of_true rfl (Or.inl hin)
      · next hout => exact (or_iff_right hout).symm

theorem poolLoop_iff (client last : Addr)
    (haddr : ∀ pool ∈ pools, ∀ t, (stringOf dml (poolInstance pool) ".MinAddress" = some t ∨
      stringOf dml (poolInstance pool) ".MaxAddress" = some t) → (inet_pton4 t).isSome) :
    poolLoop dml ip_instance pools client last = true ↔
      ∃ p pool range, (places dml ip_instance pools)[p]? = some (pool, range) ∧
        Contains range (clientAt client p) := by
  induction pools generalizing client last with
  | nil => simp [poolLoop, places]
  | cons pool pools ih =>
    rw [List.forall_mem_cons] at haddr
    by_cases h : examined dml ip_instance pool = true
    · obtain ⟨range, hrange⟩ : ∃ range, rangeOf dml pool = some range := by
        simp only [examined, Bool.and_eq_true] at h
        exact Option.isSome_iff_exists.mp h.2
      obtain ⟨last', hloop⟩ := poolLoop_of_examined dml ip_instance pools client last h hrange
        haddr.1
      rw [hloop, ih (htonl client) last' haddr.2, places_of_examined dml ip_instance h hrange]
      constructor
      · rintro (hin | ⟨p, q, r, hq, hin⟩)
        · exact ⟨0, pool, range, rfl, hin⟩
        · rw [clientAt_htonl] at hin
          exact ⟨p + 1, q, r, hq, hin⟩
      · rintro ⟨p, q, r, hq, hin⟩
        cases p with
        | zero =>
          rw [List.getElem?_cons_zero, Option.some.injEq, Prod.mk.injEq] at hq
          obtain ⟨-, rfl⟩ := hq
          exact Or.inl hin
        | succ p =>
          rw [← clientAt_htonl] at hin
          exact Or.inr ⟨p, q, r, hq, hin⟩
    · obtain ⟨last', hloop⟩ := poolLoop_of_skipped dml ip_instance pools client last h
      rw [hloop, ih client last' haddr.2, places_of_skipped dml ip_instance h]

end Walk

section Settled

variable (dml : DslhDmlAgent)

theorem inLan_of_find {client : Addr} {ip_inst_num a : BitVec 32}
    (h : findIPv4LanDml dml client = some (ip_inst_num, a)) : InLan dml client ip_inst_num := by
  obtain ⟨n, hn, h⟩ := List.exists_of_findSome?_eq_some h
  split at h
  · next hlan =>
    obtain ⟨a', ha', hpair⟩ := Option.map_eq_some_iff.mp h
    rw [Prod.mk.injEq] at hpair
    obtain ⟨rfl, rfl⟩ := hpair
    exact ⟨hn, hlan.1, hlan.2, a', List.mem_of_find?_eq_some ha', List.find?_some ha'⟩
  · cases h

theorem validateClientIPAddress_iff_taken (client : Addr) (haddr : RangesAreAddresses dml) :
    validateClientIPAddress dml client = true ↔
      ∃ ip_inst_num p pool, TakenAt dml client ip_inst_num p pool := by
  cases hfind : findIPv4LanDml dml client with
  | none =>
    rw [validateClientIPAddress, hfind]
    refine iff_of_false (by simp) ?_
    rintro ⟨n, p, pool, ⟨a, ha⟩, -⟩
    rw [hfind] at ha
    cases ha
  | some found =>
    obtain ⟨n, a⟩ := found
    obtain ⟨-, hne, -⟩ := inLan_of_find dml hfind
    rw [validateClientIPAddress, hfind]
    dsimp only
    rw [Bool.and_eq_true, bne_iff_ne, and_iff_right hne, poolLoop_iff dml _ _ _ haddr]
    constructor
    · rintro ⟨p, pool, range, hplace, hin⟩
      exact ⟨n, p, pool, ⟨a, hfind⟩, range, hplace, hin⟩
    · rintro ⟨n', p, pool, ⟨a', ha'⟩, range, hplace, hin⟩
      rw [hfind, Option.some.injEq, Prod.mk.injEq] at ha'
      obtain ⟨rfl, rfl⟩ := ha'
      exact ⟨p, pool, range, hplace, hin⟩

theorem served_of_servedFirst {client : Addr} (h : ServedFirst dml client) :
    Served dml client := by
  obtain ⟨n, p, pool, ⟨⟨a, ha⟩, range, hplace, hin⟩, heven, hof⟩ := h
  obtain ⟨q, hq, hat⟩ := List.mem_filterMap.mp (List.mem_of_getElem? hplace)
  split at hat
  · next hexamined =>
    obtain ⟨r, hr, hpair⟩ := Option.map_eq_some_iff.mp hat
    rw [Prod.mk.injEq] at hpair
    obtain ⟨rfl, rfl⟩ := hpair
    simp only [examined, Bool.and_eq_true, bne_iff_ne] at hexamined
    rw [clientAt, if_pos heven] at hin
    exact ⟨n, inLan_of_find dml ha, q, hq, hexamined.1.1.1, hof, hexamined.1.2, r, hr, hin⟩
  · cases hat

theorem validateClientIPAddress_iff (client : Addr) (haddr : RangesAreAddresses dml) :
    validateClientIPAddress dml client = true ↔
      ServedFirst dml client ∨ TakenWrongly dml client := by
  rw [validateClientIPAddress_iff_taken dml client haddr]
  constructor
  · rintro ⟨n, p, pool, htaken⟩
    by_cases hright : p % 2 = 0 ∧ PoolOf dml n pool
    · exact Or.inl ⟨n, p, pool, htaken, hright⟩
    · refine Or.inr ⟨n, p, pool, htaken, ?_⟩
      rcases Nat.mod_two_eq_zero_or_one p with heven | hodd
      · exact Or.inr (fun hof => hright ⟨heven, hof⟩)
      · exact Or.inl hodd
  · rintro (⟨n, p, pool, htaken, -⟩ | ⟨n, p, pool, htaken, -⟩)
    · exact ⟨n, p, pool, htaken⟩
    · exact ⟨n, p, pool, htaken⟩

/-- The check says whether some pool of a LAN of the client contains it exactly
when no pool takes it wrongly without one that serves it, and when it is served
at an even place of its first LAN, if at all, or else is taken wrongly. -/
theorem validateClientIPAddress_served_iff (client : Addr) (haddr : RangesAreAddresses dml) :
    (validateClientIPAddress dml client = true ↔ Served dml client) ↔
      (TakenWrongly dml client → Served dml client) ∧
        (Served dml client → ServedFirst dml client ∨ TakenWrongly dml client) := by
  rw [validateClientIPAddress_iff dml client haddr]
  constructor
  · intro h
    exact ⟨fun hwrong => h.mp (Or.inr hwrong), h.mpr⟩
  · rintro ⟨hwrong, hserved⟩
    refine ⟨?_, hserved⟩
    rintro (hfirst | htaken)
    · exact served_of_servedFirst dml hfirst
    · exact hwrong htaken

end Settled

def twoPools : DslhDmlAgent where
  getParamValueUlong name := if name = dhcpv4ServerPoolCountDml then 2 else 1
  getInstanceNumberByIndex _ i := BitVec.ofNat 32 (i + 1)
  getParamValueString name := (([("Device.IP.Interface.1.LowerLayers", "Device.Ethernet.Link.1"),
    ("Device.Ethernet.Link.1.LowerLayers", "Device.Bridging.Bridge.1.Port.1"),
    ("Device.IP.Interface.1.IPv4Address.1.IPAddress", "10.0.0.1"),
    ("Device.IP.Interface.1.IPv4Address.1.SubnetMask", "255.255.255.0"),
    ("Device.DHCPv4.Server.Pool.1.Interface", "Device.IP.Interface.1"),
    ("Device.DHCPv4.Server.Pool.1.MinAddress", "10.0.0.2"),
    ("Device.DHCPv4.Server.Pool.1.MaxAddress", "10.0.0.100"),
    ("Device.DHCPv4.Server.Pool.2.Interface", "Device.IP.Interface.1"),
    ("Device.DHCPv4.Server.Pool.2.MinAddress", "10.0.0.101"),
    ("Device.DHCPv4.Server.Pool.2.MaxAddress", "10.0.0.200")].find?
      (fun entry => entry.1.toList = name)).map (fun entry => Buf.snprintf entry.2.toList))
  getParamValueBool _ := true

theorem twoPools_lan : serverPools twoPools = [1, 2] ∧
    findIPv4LanDml twoPools (htonl 0x0a000032) = some (1, 1) ∧
    findIPv4LanDml twoPools (htonl 0x0a000096) = some (1, 1) := by
  decide +kernel

theorem twoPools_ranges : rangeOf twoPools 1 = some (0x0a000002, 0x0a000064) ∧
    rangeOf twoPools 2 = some (0x0a000065, 0x0a0000c8) ∧
    places twoPools (ipInstance 1) (serverPools twoPools) =
      [(1, 0x0a000002, 0x0a000064), (2, 0x0a000065, 0x0a0000c8)] := by
  decide +kernel

theorem twoPools_poolOf : PoolOf twoPools 1 1 ∧ PoolOf twoPools 1 2 := by
  have h : stringOf twoPools (poolInstance 1) ".Interface" = some (ipInstance 1) ∧
      stringOf twoPools (poolInstance 2) ".Interface" = some (ipInstance 1) := by
    decide +kernel
  exact ⟨Or.inl h.1, Or.inl h.2⟩

theorem twoPools_addresses : RangesAreAddresses twoPools := by
  have hall : (serverPools twoPools).all fun pool => ([".MinAddress", ".MaxAddress"].map
      (stringOf twoPools (poolInstance pool))).all (Option.all fun t => (inet_pton4 t).isSome) := by
    decide +kernel
  intro pool hpool t ht
  have hpool' := List.all_eq_true.mp hall pool hpool
  simp only [List.map_cons, List.map_nil, List.all_cons, List.all_nil, Bool.and_true,
    Bool.and_eq_true] at hpool'
  rcases ht with ht | ht
  · simpa only [ht, Option.all_some] using hpool'.1
  · simpa only [ht, Option.all_some] using hpool'.2

/-- A client of the first pool. -/
theorem validateClientIPAddress_served_first_pool :
    validateClientIPAddress twoPools (htonl 0x0a000032) = true ↔
      Served twoPools (htonl 0x0a000032) := by
  have hfirst : ServedFirst twoPools (htonl 0x0a000032) := by
    refine ⟨1, 0, 1, ⟨⟨1, twoPools_lan.2.1⟩, (0x0a000002, 0x0a000064), ?_, ?_⟩, rfl,
      twoPools_poolOf.1⟩
    · rw [twoPools_ranges.2.2]
      rfl
    · rw [clientAt, if_pos rfl, htonl_htonl]
      exact ⟨by decide, by decide⟩
  exact (validateClientIPAddress_served_iff twoPools _ twoPools_addresses).mpr
    ⟨fun _ => served_of_servedFirst twoPools hfirst, fun _ => Or.inl hfirst⟩

/-- A client of the second pool: its bytes are turned around twice. -/
theorem validateClientIPAddress_second_pool :
    ¬ ∀ (dml : DslhDmlAgent) (client : Addr), RangesAreAddresses dml →
      (validateClientIPAddress dml client = true ↔ Served dml client) := by
  intro hclaim
  have hserved : Served twoPools (htonl 0x0a000096) := by
    refine ⟨1, inLan_of_find _ twoPools_lan.2.2, 2, ?_, by decide, twoPools_poolOf.2, rfl,
      (0x0a000065, 0x0a0000c8), twoPools_ranges.2.1, ?_⟩
    · rw [twoPools_lan.1]
      exact List.mem_cons_of_mem 1 List.mem_cons_self
    · rw [htonl_htonl]
      exact ⟨by decide, by decide⟩
  have htaken := (validateClientIPAddress_iff_taken twoPools _ twoPools_addresses).mp
    ((hclaim twoPools _ twoPools_addresses).mpr hserved)
  obtain ⟨n, p, pool, ⟨a, ha⟩, range, hplace, hin⟩ := htaken
  rw [twoPools_lan.2.2, Option.some.injEq, Prod.mk.injEq] at ha
  obtain ⟨rfl, rfl⟩ := ha
  rw [twoPools_ranges.2.2] at hplace
  rcases p with _ | _ | p
  · rw [List.getElem?_cons_zero, Option.some.injEq, Prod.mk.injEq] at hplace
    obtain ⟨-, rfl⟩ := hplace
    exact absurd hin.2 (by decide)
  · rw [List.getElem?_cons_succ, List.getElem?_cons_zero, Option.some.injEq,
      Prod.mk.injEq] at hplace
    obtain ⟨-, rfl⟩ := hplace
    exact absurd hin.2 (by decide)
  · cases hplace

end CcspPandM.NatClientPools
