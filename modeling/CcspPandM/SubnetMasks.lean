import Mathlib.Algebra.Group.Nat.Defs
import Mathlib.Data.Nat.Basic

/-!
Contiguous masks over words of any width: ones down to some position, zeros
below it. The network of an address is a block of consecutive addresses, so an
address between two addresses of one network is in that network.
-/
namespace CcspPandM.SubnetMasks

def hostMask (w k : ℕ) : BitVec w := BitVec.allOnes w <<< k

def Contiguous {w : ℕ} (mask : BitVec w) : Prop := ∃ k < w + 1, mask = hostMask w k

instance {w : ℕ} (mask : BitVec w) : Decidable (Contiguous mask) :=
  inferInstanceAs (Decidable (∃ k < w + 1, mask = hostMask w k))

theorem getLsbD_hostMask {w i : ℕ} (hi : i < w) (k : ℕ) :
    (hostMask w k).getLsbD i = decide (k ≤ i) := by
  by_cases hk : k ≤ i
  · simp [hostMask, hi, hk, show ¬ i < k by omega]
  · simp [hostMask, hi, hk, show i < k by omega]

variable {w : ℕ}

theorem eq_hostMask_iff (mask : BitVec w) (k : ℕ) :
    mask = hostMask w k ↔ ∀ i < w, mask.getLsbD i = decide (k ≤ i) := by
  constructor
  · intro h i hi
    rw [h, getLsbD_hostMask hi]
  · intro h
    apply BitVec.eq_of_getLsbD_eq
    intro i hi
    rw [h i hi, getLsbD_hostMask hi]

theorem contiguous_iff_up (mask : BitVec w) :
    Contiguous mask ↔
      ∀ i, mask.getLsbD i = true → i + 1 < w → mask.getLsbD (i + 1) = true := by
  constructor
  · rintro ⟨k, -, h⟩ i hone hi
    have hbits := (eq_hostMask_iff mask k).mp h
    rw [hbits i (by omega), decide_eq_true_eq] at hone
    rw [hbits (i + 1) hi, decide_eq_true_eq]
    omega
  · intro hup
    -- from one position on all bits are ones, going down as long as there are ones
    have hdown : ∀ n ≤ w, ∃ k, k ≤ w ∧ w - n ≤ k ∧
        ∀ i < w, w - n ≤ i → mask.getLsbD i = decide (k ≤ i) := by
      intro n
      induction n with
      | zero => exact fun _ => ⟨w, le_rfl, by omega, fun i hi hw => by omega⟩
      | succ n ih =>
        intro hn
        obtain ⟨k, hkw, hk, hbits⟩ := ih (by omega)
        by_cases hone : mask.getLsbD (w - (n + 1)) = true
        · refine ⟨w - (n + 1), by omega, by omega, ?_⟩
          intro i hi hle
          rcases Nat.eq_or_lt_of_le hle with heq | hlt
          · rw [← heq, hone]
            simp
          · have habove := hup (w - (n + 1)) hone (by omega)
            rw [show w - (n + 1) + 1 = w - n by omega, hbits (w - n) (by omega) le_rfl,
              decide_eq_true_eq] at habove
            rw [hbits i hi (by omega), decide_eq_true (by omega), decide_eq_true hle]
        · refine ⟨k, hkw, by omega, ?_⟩
          intro i hi hle
          rcases Nat.eq_or_lt_of_le hle with heq | hlt
          · rw [← heq, Bool.eq_false_iff.mpr hone, decide_eq_false (by omega)]
          · exact hbits i hi (by omega)
    obtain ⟨k, hkw, -, hbits⟩ := hdown w le_rfl
    exact ⟨k, by omega, (eq_hostMask_iff mask k).mpr fun i hi => hbits i hi (by omega)⟩

theorem contiguous_iff_and_shift (mask : BitVec w) :
    Contiguous mask ↔ mask &&& (~~~mask >>> 1) = 0#w := by
  rw [contiguous_iff_up]
  constructor
  · intro hup
    apply BitVec.eq_of_getLsbD_eq
    intro i hi
    simp only [BitVec.getLsbD_and, BitVec.getLsbD_ushiftRight, BitVec.getLsbD_not,
      BitVec.getLsbD_zero, Bool.and_eq_false_iff]
    by_cases hone : mask.getLsbD i = true
    · by_cases hlast : 1 + i < w
      · have habove := hup i hone (by omega)
        rw [Nat.add_comm] at habove
        simp [habove]
      · simp [hlast]
    · exact Or.inl (Bool.eq_false_iff.mpr hone)
  · intro hzero i hone hi
    have hbit := congrArg (fun x => x.getLsbD i) hzero
    simpa [hone, Nat.add_comm 1 i, hi] using hbit

def network {w : ℕ} (addr mask : BitVec w) : BitVec w := addr &&& mask

def broadcast {w : ℕ} (addr mask : BitVec w) : BitVec w := network addr mask ||| ~~~mask

theorem toNat_network {w k : ℕ} (addr : BitVec w) :
    (network addr (hostMask w k)).toNat = addr.toNat / 2 ^ k * 2 ^ k := by
  have hshift : network addr (hostMask w k) = (addr >>> k) <<< k := by
    apply BitVec.eq_of_getLsbD_eq
    intro i hi
    by_cases hk : i < k
    · simp [network, hostMask, hk]
    · have hadd : k + (i - k) = i := by omega
      simp [network, hostMask, hk, hi, hadd]
  have hle : addr.toNat / 2 ^ k * 2 ^ k ≤ addr.toNat := Nat.div_mul_le_self _ _
  rw [hshift, BitVec.toNat_shiftLeft, BitVec.toNat_ushiftRight, Nat.shiftRight_eq_div_pow,
    Nat.shiftLeft_eq, Nat.mod_eq_of_lt (lt_of_le_of_lt hle addr.isLt)]

theorem toNat_not_hostMask {w k : ℕ} (hk : k < w + 1) : (~~~hostMask w k).toNat = 2 ^ k - 1 := by
  have hones : network (BitVec.allOnes w) (hostMask w k) = hostMask w k := BitVec.allOnes_and
  have hmask := toNat_network (k := k) (BitVec.allOnes w)
  have hsplit : 2 ^ w = 2 ^ (w - k) * 2 ^ k := by
    rw [← Nat.pow_add, Nat.sub_add_cancel (by omega)]
  have hpos : 0 < 2 ^ k := Nat.two_pow_pos k
  have hhigh : 0 < 2 ^ (w - k) := Nat.two_pow_pos _
  have hdiv : (2 ^ w - 1) / 2 ^ k = 2 ^ (w - k) - 1 := by
    apply Nat.div_eq_of_lt_le
    · rw [Nat.sub_mul, ← hsplit]
      omega
    · rw [show 2 ^ (w - k) - 1 + 1 = 2 ^ (w - k) by omega, ← hsplit]
      omega
  rw [hones, BitVec.toNat_allOnes, hdiv, Nat.sub_mul, ← hsplit] at hmask
  have hle : 2 ^ k ≤ 2 ^ w := Nat.pow_le_pow_right (by omega) (by omega)
  rw [BitVec.toNat_not, hmask]
  omega

theorem toNat_broadcast {w k : ℕ} (hk : k < w + 1) (addr : BitVec w) :
    (broadcast addr (hostMask w k)).toNat = addr.toNat / 2 ^ k * 2 ^ k + (2 ^ k - 1) := by
  have hpos : 0 < 2 ^ k := Nat.two_pow_pos k
  have hlow : 2 ^ k - 1 < 2 ^ k := by omega
  rw [broadcast, BitVec.toNat_or, toNat_network, toNat_not_hostMask hk, Nat.mul_comm,
    Nat.two_pow_add_eq_or_of_lt hlow]

theorem network_eq_iff {mask : BitVec w} (hmask : Contiguous mask) (a b : BitVec w) :
    network a mask = network b mask ↔ network b mask ≤ a ∧ a ≤ broadcast b mask := by
  obtain ⟨k, hk, rfl⟩ := hmask
  have hpos : 0 < 2 ^ k := Nat.two_pow_pos k
  have ha := Nat.div_add_mod' a.toNat (2 ^ k)
  have hlt := Nat.mod_lt a.toNat hpos
  rw [← BitVec.toNat_inj, BitVec.le_def, BitVec.le_def, toNat_network, toNat_network,
    toNat_broadcast hk]
  constructor
  · intro h
    omega
  · rintro ⟨hlow, hhigh⟩
    have hdiv : a.toNat / 2 ^ k = b.toNat / 2 ^ k := by
      apply Nat.div_eq_of_lt_le hlow
      rw [Nat.succ_mul]
      omega
    rw [hdiv]

theorem eq_iff_parts (mask a b : BitVec w) :
    a = b ↔ a &&& mask = b &&& mask ∧ a &&& ~~~mask = b &&& ~~~mask := by
  constructor
  · rintro rfl
    exact ⟨rfl, rfl⟩
  · intro h
    have hsplit : ∀ x : BitVec w, x = x &&& mask ||| x &&& ~~~mask := by
      intro x
      rw [← BitVec.and_or_distrib_left, BitVec.or_not_self, BitVec.and_allOnes]
    rw [hsplit a, hsplit b, h.1, h.2]

theorem eq_network_iff (a b mask : BitVec w) :
    a = network b mask ↔ network a mask = network b mask ∧ a &&& ~~~mask = 0#w := by
  have hhost : b &&& mask &&& ~~~mask = 0#w := by
    rw [BitVec.and_assoc, BitVec.and_not_self]
    exact BitVec.and_zero
  rw [eq_iff_parts mask, network, network, hhost, BitVec.and_assoc, BitVec.and_self]

theorem eq_broadcast_iff (a b mask : BitVec w) :
    a = broadcast b mask ↔ network a mask = network b mask ∧ a &&& ~~~mask = ~~~mask := by
  have hnet : (b &&& mask ||| ~~~mask) &&& mask = b &&& mask := by
    rw [BitVec.and_or_distrib_right, BitVec.and_assoc, BitVec.and_self, BitVec.not_and_self]
    exact BitVec.or_zero
  have hhost : (b &&& mask ||| ~~~mask) &&& ~~~mask = ~~~mask := by
    rw [BitVec.and_or_distrib_right, BitVec.and_assoc, BitVec.and_not_self, BitVec.and_self]
    simp
  rw [eq_iff_parts mask, broadcast, network, network, hnet, hhost]

theorem network_between {mask a b c g : BitVec w} (hmask : Contiguous mask)
    (ha : network a mask = network g mask) (hb : network b mask = network g mask)
    (hac : a ≤ c) (hcb : c ≤ b) : network c mask = network g mask := by
  rw [network_eq_iff hmask] at ha hb ⊢
  exact ⟨BitVec.le_trans ha.1 hac, BitVec.le_trans hcb hb.2⟩

theorem msb_of_contiguous {mask : BitVec w} (hmask : Contiguous mask) (hzero : mask ≠ 0) :
    mask.msb = true := by
  obtain ⟨k, hk, rfl⟩ := hmask
  have hlt : k < w := by
    by_contra hge
    apply hzero
    rw [hostMask, BitVec.shiftLeft_eq_zero (by omega)]
    rfl
  simp [hostMask, BitVec.msb_eq_getLsbD_last, show w - 1 < w by omega,
    show ¬ w - 1 < k by omega]

theorem msb_eq_of_network {mask a b : BitVec w} (hmask : Contiguous mask)
    (hzero : mask ≠ 0) (h : network a mask = network b mask) : a.msb = b.msb := by
  have hmsb := congrArg BitVec.msb h
  simpa [network, BitVec.msb_and, msb_of_contiguous hmask hzero] using hmsb

end CcspPandM.SubnetMasks
