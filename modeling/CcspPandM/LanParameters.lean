import CcspPandM.Dhcpv4Webconfig
import CcspPandM.SubnetMasks

/-!
What the check of a LAN document guarantees. The range of the pool is checked at
its two ends only: with a contiguous mask the addresses between them are hosts of
the gateway's subnet, but one of them may be the gateway.
-/
namespace CcspPandM.LanParameters

open CString Ipv4Addr InetText SubdocDecoders Dhcpv4Cache Dhcpv4Webconfig SubnetMasks

structure LanAddrs where
  gateway : Addr
  netmask : Addr
  minaddr : Addr
  maxaddr : Addr

def lanAddrs (ansc_inet_addr : CStr → Addr) (pLanParam : Lanparam) : LanAddrs where
  gateway := ntohl (ansc_inet_addr (pLanParam.lan_ip_address.getD []))
  netmask := ntohl (ansc_inet_addr (pLanParam.lan_subnet_mask.getD []))
  minaddr := ntohl (ansc_inet_addr (pLanParam.dhcp_start_ip_address.getD []))
  maxaddr := ntohl (ansc_inet_addr (pLanParam.dhcp_end_ip_address.getD []))

def Private (addr : Addr) : Prop :=
  network addr (hostMask 32 24) = 0x0A000000 ∨ network addr (hostMask 32 20) = 0xAC100000 ∨
    network addr (hostMask 32 16) = 0xC0A80000

/-- Not zero, below the multicast addresses and not in 127.0.0.0/8. -/
def Unicast (addr : Addr) : Prop :=
  addr ≠ 0 ∧ addr < 0xE0000000 ∧ network addr (hostMask 32 24) ≠ 0x7F000000

/-- A host of the subnet of `gateway`. -/
structure Host (gateway netmask addr : Addr) : Prop where
  same_network : network addr netmask = network gateway netmask
  not_network : addr ≠ network gateway netmask
  not_broadcast : addr ≠ broadcast gateway netmask

structure Sound (lan : LanAddrs) : Prop where
  contiguous : Contiguous lan.netmask
  gateway_private : Private lan.gateway
  gateway_host : Host lan.gateway lan.netmask lan.gateway
  ordered : lan.minaddr ≤ lan.maxaddr
  pool : ∀ addr, lan.minaddr ≤ addr → addr ≤ lan.maxaddr →
    Unicast addr ∧ Host lan.gateway lan.netmask addr
  gateway_outside : ¬ (lan.minaddr ≤ lan.gateway ∧ lan.gateway ≤ lan.maxaddr)

structure Checked (lan : LanAddrs) : Prop where
  ordered : lan.minaddr ≤ lan.maxaddr
  not_public : dhcpv4LanIpIspublicAddr lan.gateway = false
  last_digit : lan.gateway &&& 0x000000FF = 1
  not_zero : lan.netmask ≠ 0
  not_ones : lan.netmask ≠ 0xFFFFFFFF
  first : dhcpv4LanCheckIpIsValidUnicast lan.gateway lan.netmask lan.minaddr = true
  last : dhcpv4LanCheckIpIsValidUnicast lan.gateway lan.netmask lan.maxaddr = true

theorem checked_of_zero {ansc_inet_addr : CStr → Addr} {pLanParam : Lanparam}
    (h : getLanParametersValidityCheckStatus ansc_inet_addr pLanParam = .zero) :
    Checked (lanAddrs ansc_inet_addr pLanParam) := by
  obtain ⟨enable, lan_ip, mask, start_ip, end_ip, leasetime⟩ := pLanParam
  cases start_ip with
  | none => simp [getLanParametersValidityCheckStatus] at h
  | some start_ip =>
  cases end_ip with
  | none => simp [getLanParametersValidityCheckStatus] at h
  | some end_ip =>
  cases lan_ip with
  | none => simp [getLanParametersValidityCheckStatus] at h
  | some lan_ip =>
  cases mask with
  | none => simp [getLanParametersValidityCheckStatus] at h
  | some mask =>
    simp only [getLanParametersValidityCheckStatus, ne_eq] at h
    split at h
    · cases h
    split at h
    · cases h
    split at h
    · cases h
    split at h
    · cases h
    split at h
    · cases h
    split at h
    · cases h
    split at h
    · cases h
    rename_i hordered hpublic hdigit hmask hends
    simp only [not_or] at hmask
    simp only [Bool.or_eq_true, Bool.not_eq_true', not_or, Bool.not_eq_false] at hends
    exact ⟨by simpa [BitVec.not_lt, lanAddrs] using hordered, by simpa [lanAddrs] using hpublic,
      by simpa [lanAddrs] using hdigit, hmask.1, hmask.2, hends.1, hends.2⟩

theorem private_of_not_public {addr : Addr} (h : dhcpv4LanIpIspublicAddr addr = false) :
    Private addr := by
  have hmask : ∀ k < 33, Contiguous (hostMask 32 k) := fun k hk => ⟨k, hk, rfl⟩
  simp only [dhcpv4LanIpIspublicAddr, Bool.not_eq_false', Bool.or_eq_true,
    decide_eq_true_eq] at h
  rcases h with (h | h) | h
  · left
    exact (network_eq_iff (hmask 24 (by omega)) addr 0x0A000000).mpr h
  · right; left
    exact (network_eq_iff (hmask 20 (by omega)) addr 0xAC100000).mpr h
  · right; right
    exact (network_eq_iff (hmask 16 (by omega)) addr 0xC0A80000).mpr h

theorem end_checked {gw mask ipaddr : Addr}
    (h : dhcpv4LanCheckIpIsValidUnicast gw mask ipaddr = true) :
    Unicast ipaddr ∧ network gw mask < ipaddr ∧ ipaddr < broadcast gw mask ∧ ipaddr ≠ gw := by
  simp only [dhcpv4LanCheckIpIsValidUnicast, Bool.and_eq_true, Bool.not_eq_true',
    Bool.or_eq_false_iff, beq_eq_false_iff_ne, decide_eq_false_iff_not, BitVec.not_le] at h
  obtain ⟨⟨⟨hzero, hmulti⟩, hloop⟩, ⟨hlow, hhigh⟩, hgw⟩ := h
  exact ⟨⟨hzero, hmulti, hloop⟩, hlow, hhigh, hgw⟩

theorem Checked.gateway_host {lan : LanAddrs} (h : Checked lan) (hmask : Contiguous lan.netmask) :
    Host lan.gateway lan.netmask lan.gateway := by
  obtain ⟨-, hlow, hhigh, -⟩ := end_checked h.first
  obtain ⟨k, hk, hnetmask⟩ := hmask
  have hdigit : lan.gateway.toNat % 2 ^ 8 = 1 := by
    have hnat := congrArg BitVec.toNat h.last_digit
    rwa [BitVec.toNat_and, show (0x000000FF : Addr).toNat = 2 ^ 8 - 1 from rfl,
      Nat.and_two_pow_sub_one_eq_mod] at hnat
  rw [hnetmask, BitVec.lt_def, toNat_network] at hlow
  rw [hnetmask, BitVec.lt_def, toNat_broadcast hk] at hhigh
  have hk2 : 2 ≤ k := by
    by_contra hlt
    have hsmall : 2 ^ k ≤ 2 ^ 1 := Nat.pow_le_pow_right (by omega) (by omega)
    omega
  have hfour : lan.gateway.toNat % 4 = 1 := by omega
  have hpow : 2 ^ k = 4 * 2 ^ (k - 2) := by
    rw [show (4 : ℕ) = 2 ^ 2 from rfl, ← Nat.pow_add]
    congr 1
    omega
  refine ⟨rfl, fun heq => ?_, fun heq => ?_⟩
  · have hnat := congrArg BitVec.toNat heq
    rw [hnetmask, toNat_network, hpow, ← Nat.mul_assoc, Nat.mul_comm _ 4, Nat.mul_assoc] at hnat
    omega
  · have hnat := congrArg BitVec.toNat heq
    have hpos : 0 < 2 ^ (k - 2) := Nat.two_pow_pos _
    rw [hnetmask, toNat_broadcast hk, hpow, ← Nat.mul_assoc, Nat.mul_comm _ 4,
      Nat.mul_assoc] at hnat
    omega

theorem Checked.pool {lan : LanAddrs} (h : Checked lan) (hmask : Contiguous lan.netmask)
    {addr : Addr} (hmin : lan.minaddr ≤ addr) (hmax : addr ≤ lan.maxaddr) :
    Unicast addr ∧ Host lan.gateway lan.netmask addr := by
  obtain ⟨⟨hzero₁, -, hloop₁⟩, hlow₁, hhigh₁, -⟩ := end_checked h.first
  obtain ⟨⟨-, hmulti₂, hloop₂⟩, hlow₂, hhigh₂, -⟩ := end_checked h.last
  have hnet₁ : network lan.minaddr lan.netmask = network lan.gateway lan.netmask :=
    (network_eq_iff hmask _ _).mpr ⟨BitVec.le_of_lt hlow₁, BitVec.le_of_lt hhigh₁⟩
  have hnet₂ : network lan.maxaddr lan.netmask = network lan.gateway lan.netmask :=
    (network_eq_iff hmask _ _).mpr ⟨BitVec.le_of_lt hlow₂, BitVec.le_of_lt hhigh₂⟩
  have hloopback : ∀ a : Addr, network a (hostMask 32 24) = 0x7F000000 ↔
      0x7F000000 ≤ a ∧ a ≤ 0x7FFFFFFF :=
    fun a => network_eq_iff ⟨24, by omega, rfl⟩ a 0x7F000000
  rw [ne_eq, hloopback] at hloop₁ hloop₂
  have hhalf := msb_eq_of_network hmask h.not_zero (hnet₁.trans hnet₂.symm)
  rw [BitVec.msb_eq_decide, BitVec.msb_eq_decide, decide_eq_decide] at hhalf
  refine ⟨⟨?_, ?_, ?_⟩, network_between hmask hnet₁ hnet₂ hmin hmax, ?_, ?_⟩
  · rintro rfl
    exact hzero₁ (by simpa using hmin)
  · rw [BitVec.lt_def] at hmulti₂ ⊢
    exact Nat.lt_of_le_of_lt hmax hmulti₂
  · rw [ne_eq, hloopback]
    simp only [BitVec.le_def, BitVec.reduceToNat] at *
    omega
  · rintro rfl
    exact absurd hlow₁ (BitVec.not_lt.mpr hmin)
  · rintro rfl
    exact absurd hhigh₂ (BitVec.not_lt.mpr hmax)

/-- An accepted document is sound when its mask is contiguous and the gateway
does not lie strictly between the ends of the range. -/
theorem accepted_sound_iff (ansc_inet_addr : CStr → Addr) (pLanParam : Lanparam)
    (h : getLanParametersValidityCheckStatus ansc_inet_addr pLanParam = .zero) :
    Sound (lanAddrs ansc_inet_addr pLanParam) ↔
      Contiguous (lanAddrs ansc_inet_addr pLanParam).netmask ∧
        ¬ ((lanAddrs ansc_inet_addr pLanParam).minaddr < (lanAddrs ansc_inet_addr pLanParam).gateway
          ∧ (lanAddrs ansc_inet_addr pLanParam).gateway <
            (lanAddrs ansc_inet_addr pLanParam).maxaddr) := by
  have hchecked := checked_of_zero h
  generalize lanAddrs ansc_inet_addr pLanParam = lan at hchecked ⊢
  constructor
  · intro hsound
    exact ⟨hsound.contiguous, fun hin =>
      hsound.gateway_outside ⟨BitVec.le_of_lt hin.1, BitVec.le_of_lt hin.2⟩⟩
  · intro ⟨hmask, hout⟩
    refine ⟨hmask, private_of_not_public hchecked.not_public, hchecked.gateway_host hmask,
      hchecked.ordered, fun addr hmin hmax => hchecked.pool hmask hmin hmax, fun hin => hout ?_⟩
    obtain ⟨-, -, -, hne₁⟩ := end_checked hchecked.first
    obtain ⟨-, -, -, hne₂⟩ := end_checked hchecked.last
    exact ⟨BitVec.lt_of_le_ne hin.1 hne₁, BitVec.lt_of_le_ne hin.2 (Ne.symm hne₂)⟩

def document (lan_ip subnet_mask start_ip end_ip : String) : Lanparam where
  dhcp_server_enable := true
  lan_ip_address := some lan_ip.toList
  lan_subnet_mask := some subnet_mask.toList
  dhcp_start_ip_address := some start_ip.toList
  dhcp_end_ip_address := some end_ip.toList
  leasetime := 3600

theorem accepted_sound_plain :
    Sound (lanAddrs (inetAddr 0xFFFFFFFF)
      (document "10.0.0.1" "255.255.255.0" "10.0.0.2" "10.0.0.253")) :=
  (accepted_sound_iff (inetAddr 0xFFFFFFFF) _ (by decide +kernel)).mpr
    ⟨⟨8, by omega, by decide +kernel⟩, by decide +kernel⟩

/-- A gateway between the ends of its own pool, and a mask with a gap. -/
theorem accepted_unsound_documents :
    (getLanParametersValidityCheckStatus (inetAddr 0xFFFFFFFF)
        (document "10.0.1.1" "255.255.0.0" "10.0.0.2" "10.0.2.254") = .zero ∧
      ¬ Sound (lanAddrs (inetAddr 0xFFFFFFFF)
        (document "10.0.1.1" "255.255.0.0" "10.0.0.2" "10.0.2.254"))) ∧
    getLanParametersValidityCheckStatus (inetAddr 0xFFFFFFFF)
        (document "192.168.0.1" "255.0.255.0" "192.168.0.2" "192.168.0.254") = .zero ∧
      ¬ Sound (lanAddrs (inetAddr 0xFFFFFFFF)
        (document "192.168.0.1" "255.0.255.0" "192.168.0.2" "192.168.0.254")) := by
  refine ⟨⟨by decide +kernel, fun h => h.gateway_outside (by decide +kernel)⟩, by decide +kernel,
    fun h => absurd h.contiguous (by decide +kernel)⟩

end CcspPandM.LanParameters
