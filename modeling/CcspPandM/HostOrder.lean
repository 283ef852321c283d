import CcspPandM.Ipv4Addr

/-!
Addresses in network order and their values in host order. The conversion
permutes the bits, so it commutes with the operations on single bits, and it is
its own inverse.
-/
namespace CcspPandM.HostOrder

open Ipv4Addr

theorem getLsbD_htonl (x : Addr) {i : ℕ} (hi : i < 32) :
    (htonl x).getLsbD i = x.getLsbD (8 * (3 - i / 8) + i % 8) := by
  simp only [htonl, BitVec.getLsbD_append, BitVec.getLsbD_extractLsb']
  split
  · rw [show i / 8 = 0 by omega, show i % 8 = i by omega]
    simp [show i < 8 by omega]
  · split
    · rw [show i / 8 = 1 by omega, show i % 8 = i - 8 by omega]
      simp [show i - 8 < 8 by omega]
    · split
      · rw [show i / 8 = 2 by omega, show i % 8 = i - 8 - 8 by omega]
        simp [show i - 8 - 8 < 8 by omega]
      · rw [show i / 8 = 3 by omega, show i % 8 = i - 8 - 8 - 8 by omega]
        simp [show i - 8 - 8 - 8 < 8 by omega]

@[simp] theorem htonl_htonl (x : Addr) : htonl (htonl x) = x := by
  apply BitVec.eq_of_getLsbD_eq
  intro i hi
  rw [getLsbD_htonl _ hi, getLsbD_htonl _ (by omega)]
  congr 1
  omega

theorem htonl_inj {a b : Addr} : htonl a = htonl b ↔ a = b := by
  constructor
  · intro h
    rw [← htonl_htonl a, h, htonl_htonl]
  · intro h
    rw [h]

theorem htonl_and (a b : Addr) : htonl (a &&& b) = htonl a &&& htonl b := by
  apply BitVec.eq_of_getLsbD_eq
  intro i hi
  simp only [BitVec.getLsbD_and, getLsbD_htonl _ hi]

theorem htonl_not (a : Addr) : htonl (~~~a) = ~~~htonl a := by
  apply BitVec.eq_of_getLsbD_eq
  intro i hi
  have hj : 8 * (3 - i / 8) + i % 8 < 32 := by omega
  simp only [BitVec.getLsbD_not, getLsbD_htonl _ hi, hi, hj, decide_true, Bool.true_and]

theorem isSameNetwork_htonl (addr1 addr2 mask : Addr) :
    ipv4AddrIsSameNetwork (htonl addr1) (htonl addr2) (htonl mask) =
      ipv4AddrIsSameNetwork addr1 addr2 mask := by
  rw [ipv4AddrIsSameNetwork, ipv4AddrIsSameNetwork, ← htonl_and, ← htonl_and, Bool.eq_iff_iff,
    beq_iff_eq, beq_iff_eq, htonl_inj]

end CcspPandM.HostOrder
