import CcspPandM.HostOrder
import CcspPandM.SubnetMasks

/-!
Which clients a port mapping may name. The address of the LAN and the pool are
texts of the platform; the client comes in network order and is compared in host
order with the pool, in network order with the LAN, and in network order with a
home security subnet that is written in host order.
-/
namespace CcspPandM.PortMappingClient

open CString HostOrder Ipv4Addr SubnetMasks

def value (t : CStr) : Addr := htonl (inetAddr 0xffffffff t)

def InSecuritySubnet (addr : Addr) : Prop := network addr 0xffffff00 = 0xac100c00

/-- The subnet in which the test looks for the client: addresses that end in 12.16.172. -/
def InReversedSubnet (addr : Addr) : Prop := addr &&& 0x00ffffff = 0x000c10ac

instance (addr : Addr) : Decidable (InSecuritySubnet addr) :=
  inferInstanceAs (Decidable (_ = _))

instance (addr : Addr) : Decidable (InReversedSubnet addr) :=
  inferInstanceAs (Decidable (_ = _))

/-- The value of a client passes every test but the one on its subnet. -/
def Usable (lan : LanSettings) (addr : Addr) : Prop :=
  addr ≠ value lan.ipaddr ∧
    (value lan.DHCPIPAddressStart ≤ addr ∧ addr ≤ value lan.DHCPIPAddressEnd) ∧
    addr ≠ broadcast (value lan.ipaddr) (value lan.netmask) ∧
    addr ≠ network (value lan.ipaddr) (value lan.netmask)

def InLan (lan : LanSettings) (addr : Addr) : Prop :=
  network addr (value lan.netmask) = network (value lan.ipaddr) (value lan.netmask)

def Accepted (lan : LanSettings) (addr : Addr) : Prop :=
  addr = 0xffffffff ∨ Usable lan addr ∧ (InLan lan addr ∨ InSecuritySubnet addr)

section Tests

theorem isNetworkAddr_iff (addr net mask : Addr) :
    ipv4AddrIsNetworkAddr addr net mask = true ↔
      htonl addr = network (htonl net) (htonl mask) := by
  rw [eq_network_iff, network, network, ← htonl_and, ← htonl_and, ← htonl_not, ← htonl_and,
    htonl_inj, show (0#32 : Addr) = htonl 0#32 from rfl, htonl_inj, ipv4AddrIsNetworkAddr,
    ipv4AddrIsSameNetwork, Bool.and_eq_true, beq_iff_eq, beq_iff_eq]
  rfl

theorem isBroadcast_iff {addr : Addr} (haddr : addr ≠ 0xffffffff) (net mask : Addr) :
    ipv4AddrIsBroadcast addr net mask = true ↔
      htonl addr = broadcast (htonl net) (htonl mask) := by
  have hones : (0xffffffff : Addr) &&& ~~~mask = ~~~mask := BitVec.allOnes_and
  have hfalse : (addr == 0xffffffff) = false := by simpa using haddr
  rw [eq_broadcast_iff, network, network, ← htonl_and, ← htonl_and, ← htonl_not, ← htonl_and,
    htonl_inj, htonl_inj, ipv4AddrIsBroadcast, ipv4AddrIsSameNetwork, hones, hfalse,
    Bool.false_or, Bool.and_eq_true, beq_iff_eq, beq_iff_eq]

theorem isSameNetwork_iff (addr net mask : Addr) : ipv4AddrIsSameNetwork addr net mask = true ↔
    network (htonl addr) (htonl mask) = network (htonl net) (htonl mask) := by
  rw [← isSameNetwork_htonl, ipv4AddrIsSameNetwork, beq_iff_eq]
  rfl

theorem reversed_iff (addr : Addr) :
    ipv4AddrIsSameNetwork addr 0xac100c00 0xffffff00 = true ↔ InReversedSubnet (htonl addr) := by
  rw [isSameNetwork_iff]
  exact Iff.rfl

end Tests

theorem chkPortMappingClient_iff (lan : LanSettings) (client : Addr) :
    chkPortMappingClient (some lan) client = true ↔ htonl client = 0xffffffff ∨
      Usable lan (htonl client) ∧ (InLan lan (htonl client) ∨ InReversedSubnet (htonl client)) := by
  have hall : htonl client = 0xffffffff ↔ client = 0xffffffff :=
    @htonl_inj client 0xffffffff
  rw [hall]
  by_cases hclient : client = 0xffffffff
  · rw [chkPortMappingClient, if_pos hclient]
    exact iff_of_true rfl (Or.inl hclient)
  · have haddr : (client != inetAddr 0xffffffff lan.ipaddr) = true ↔
        htonl client ≠ value lan.ipaddr := by
      rw [bne_iff_ne, value, ne_eq, ne_eq, htonl_inj]
    have hbroadcast := not_congr (isBroadcast_iff hclient (inetAddr 0xffffffff lan.ipaddr)
      (inetAddr 0xffffffff lan.netmask))
    have hnetwork := not_congr (isNetworkAddr_iff client (inetAddr 0xffffffff lan.ipaddr)
      (inetAddr 0xffffffff lan.netmask))
    rw [Bool.not_eq_true] at hbroadcast hnetwork
    rw [chkPortMappingClient, if_neg hclient, or_iff_right hclient]
    simp only [Bool.and_eq_true, Bool.or_eq_true, Bool.not_eq_true', decide_eq_true_eq, haddr,
      hbroadcast, hnetwork, isSameNetwork_iff client (inetAddr 0xffffffff lan.ipaddr),
      reversed_iff, Usable, InLan, value, ne_eq, and_assoc]

/-- The clients are the intended ones exactly where the home security subnet decides
nothing: it is then neither the client's subnet nor, its bytes reversed, the tested one. -/
theorem portMappingClient_accepted_iff (lan : LanSettings) (client : Addr) :
    (chkPortMappingClient (some lan) client = true ↔ Accepted lan (htonl client)) ↔
      (htonl client ≠ 0xffffffff → Usable lan (htonl client) → ¬ InLan lan (htonl client) →
        ¬ InSecuritySubnet (htonl client) ∧ ¬ InReversedSubnet (htonl client)) := by
  have hboth : ¬ (InSecuritySubnet (htonl client) ∧ InReversedSubnet (htonl client)) := by
    rintro ⟨hsec, hrev⟩
    have hmid : ∀ addr : Addr, network addr 0xffffff00 = 0xac100c00 →
        addr &&& 0x00ffffff = 0x000c10ac → False := by
      intro addr h h'
      have hbit := congrArg (fun x : Addr => x.getLsbD 18) h
      have hbit' := congrArg (fun x : Addr => x.getLsbD 18) h'
      simp only [network, BitVec.getLsbD_and] at hbit hbit'
      have h1 : (0xffffff00 : Addr).getLsbD 18 = true := rfl
      have h2 : (0x00ffffff : Addr).getLsbD 18 = true := rfl
      rw [h1, Bool.and_true] at hbit
      rw [h2, Bool.and_true, hbit] at hbit'
      exact absurd hbit' (by decide)
    exact hmid _ hsec hrev
  rw [chkPortMappingClient_iff, Accepted]
  tauto

def securityLan : LanSettings :=
  ⟨"10.0.0.1".toList, "255.255.255.0".toList, "10.0.0.2".toList, "172.16.12.254".toList⟩

/-- 172.16.12.5 is in the pool and in the home security subnet, and is refused. -/
theorem portMappingClient_security_refused :
    ¬ (chkPortMappingClient (some securityLan) 0x050c10ac = true ↔
      Accepted securityLan (htonl 0x050c10ac)) := by
  have hvalues : value securityLan.ipaddr = 0x0a000001 ∧
      value securityLan.netmask = 0xffffff00 ∧
      value securityLan.DHCPIPAddressStart = 0x0a000002 ∧
      value securityLan.DHCPIPAddressEnd = 0xac100cfe ∧
      chkPortMappingClient (some securityLan) 0x050c10ac = false := by decide
  obtain ⟨hip, hmask, hstart, hend, hrefused⟩ := hvalues
  have haccepted : Accepted securityLan (htonl 0x050c10ac) := by
    right
    rw [Usable, hip, hmask, hstart, hend]
    exact ⟨by decide, Or.inr (by decide)⟩
  rw [hrefused]
  intro h
  cases h.mpr haccepted

end CcspPandM.PortMappingClient
