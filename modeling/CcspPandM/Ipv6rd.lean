import CcspPandM.BitWindow

/-!
The splice of an IPv4 address into a 6rd prefix, as the board layer computes
it: whole prefix bytes, a shared byte, then the rest of the address. Lengths
are 32-bit unsigned, as in the source, and an access outside an address has no
defined result.
-/
namespace CcspPandM.Ipv6rd

open BitWindow

/-- The bytes of `s_addr` lie in network order. -/
def ntohl (s_addr : Bytes 4) : BitVec 32 :=
  s_addr.byteAt 0 ++ s_addr.byteAt 1 ++ s_addr.byteAt 2 ++ s_addr.byteAt 3

def ucv4addr (uiv4addr : BitVec 32) : Bytes 4 :=
  fun k => ((uiv4addr >>> (24 - 8 * k.val)) &&& 0xff#32).setWidth 8

/-- `x & (0xff00 >> n)`, computed as an int and stored in a byte. -/
def maskOctet (x : BitVec 8) (n : ℕ) : BitVec 8 :=
  (x.setWidth 32 &&& (0xff00#32 >>> n)).setWidth 8

def sharedOctet (pref octet : BitVec 8) (b : ℕ) : BitVec 8 :=
  ((pref.setWidth 32 &&& (0xff00#32 >>> b)) ||| (octet.setWidth 32 >>> b)).setWidth 8

def copyAddressBits (out : Bytes 16) (o : ℕ) (uiv4addr len : BitVec 32) : Option (Bytes 16) := do
  let m := (len >>> 3).toNat
  let n := (len &&& 7#32).toNat
  let out ← out.memcpy o (ucv4addr uiv4addr) 0 m
  if n ≠ 0 then
    let octet ← (ucv4addr uiv4addr).read m
    out.write (o + m) (maskOctet octet n)
  else
    some out

def generate6rdDelegatedPrefix (v6rdpref : Bytes 16) (v6rdmasklen : BitVec 32)
    (v4addr : Bytes 4) (v4masklen : BitVec 32) : Option (ℤ × Bytes 16) :=
  if v4masklen > 31#32 ∨ v6rdmasklen + 32#32 - v4masklen > 64#32 then
    some (-1, Bytes.zero)
  else do
    let o := (v6rdmasklen >>> 3).toNat
    let b := v6rdmasklen &&& 7#32
    let uiv4addr := ntohl v4addr <<< v4masklen.toNat
    let out ← Bytes.zero.memcpy 0 v6rdpref 0 o
    let (out, o) ←
      if b ≠ 0#32 then do
        let pref ← v6rdpref.read o
        let octet ← (ucv4addr uiv4addr).read 0
        let out ← out.write o (sharedOctet pref octet b.toNat)
        some (out, o + 1)
      else
        some (out, o)
    -- The difference is unsigned: it wraps when b exceeds the address bits.
    if 32#32 - v4masklen - b > 0#32 then do
      let out ← copyAddressBits out o (uiv4addr <<< b.toNat) (32#32 - v4masklen - b)
      some (0, out)
    else
      some (0, out)

/-- The delegated prefix: v prefix bits, the low 32 - w address bits, zeros. -/
def Delegated (pref : Bytes 16) (v : ℕ) (addr : Bytes 4) (w : ℕ) (out : Bytes 16) : Prop :=
  ∀ j < 128, out.bit j =
    if j < v then pref.bit j else if j < v + (32 - w) then addr.bit (w + (j - v)) else false

instance (pref : Bytes 16) (v : ℕ) (addr : Bytes 4) (w : ℕ) (out : Bytes 16) :
    Decidable (Delegated pref v addr w out) :=
  inferInstanceAs (Decidable (∀ j < 128, _))

private theorem mask_getLsbD (i : ℕ) : (0xff00#32).getLsbD i = decide (8 ≤ i ∧ i < 16) := by
  by_cases hi : i < 32
  · have h : ∀ i < 32, (0xff00#32).getLsbD i = decide (8 ≤ i ∧ i < 16) := by decide
    exact h i hi
  · rw [BitVec.getLsbD_of_ge _ _ (by omega)]
    symm
    rw [decide_eq_false_iff_not]
    omega

theorem maskOctet_getMsbD (x : BitVec 8) (n t : ℕ) (hn : n < 8) :
    (maskOctet x n).getMsbD t = (decide (t < n) && x.getMsbD t) := by
  by_cases ht : t < 8
  · have hmask : decide (8 ≤ n + (8 - 1 - t) ∧ n + (8 - 1 - t) < 16) = decide (t < n) := by
      rw [decide_eq_decide]
      omega
    simp only [maskOctet, BitVec.getMsbD_eq_getLsbD, BitVec.getLsbD_setWidth, BitVec.getLsbD_and,
      BitVec.getLsbD_ushiftRight, mask_getLsbD, hmask]
    have h1 : 8 - 1 - t < 8 := by omega
    have h2 : 8 - 1 - t < 32 := by omega
    simp only [ht, h1, h2, decide_true, Bool.true_and]
    exact Bool.and_comm _ _
  · rw [BitVec.getMsbD_of_ge _ _ (by omega), BitVec.getMsbD_of_ge _ _ (by omega), Bool.and_false]

theorem sharedOctet_getMsbD (p x : BitVec 8) (b t : ℕ) (hb : b < 8) (ht : t < 8) :
    (sharedOctet p x b).getMsbD t = if t < b then p.getMsbD t else x.getMsbD (t - b) := by
  have hmask : decide (8 ≤ b + (8 - 1 - t) ∧ b + (8 - 1 - t) < 16) = decide (t < b) := by
    rw [decide_eq_decide]
    omega
  have h1 : 8 - 1 - t < 8 := by omega
  have h2 : 8 - 1 - t < 32 := by omega
  simp only [sharedOctet, BitVec.getMsbD_eq_getLsbD, BitVec.getLsbD_setWidth, BitVec.getLsbD_and,
    BitVec.getLsbD_or, BitVec.getLsbD_ushiftRight, mask_getLsbD, hmask, ht, h1, h2, decide_true,
    Bool.true_and]
  by_cases htb : t < b
  · rw [BitVec.getLsbD_of_ge x _ (by omega)]
    simp [htb]
  · have h3 : 7 - (t - b) < 32 := by omega
    have h4 : t - b < 8 := by omega
    have h5 : b + (7 - t) = 7 - (t - b) := by omega
    simp only [htb, decide_false, Bool.and_false, Bool.false_or, if_false, h4, h5,
      decide_true, Bool.true_and]
    rw [decide_eq_true h3, Bool.true_and]

theorem ucv4addr_bit (u : BitVec 32) (j : ℕ) : (ucv4addr u).bit j = u.getMsbD j := by
  by_cases hj : j < 32
  · have hk : j / 8 < 4 := by omega
    have h8 : j % 8 < 8 := Nat.mod_lt _ (by omega)
    have hff : ∀ i < 8, (0xff#32).getLsbD i = true := by decide
    have hidx : 24 - 8 * (j / 8) + (8 - 1 - j % 8) = 32 - 1 - j := by omega
    simp only [Bytes.bit, Bytes.byteAt, hk, dite_true, ucv4addr, BitVec.getMsbD_eq_getLsbD,
      BitVec.getLsbD_setWidth, BitVec.getLsbD_and, BitVec.getLsbD_ushiftRight, hidx,
      hff (8 - 1 - j % 8) (by omega), h8, hj, decide_true, Bool.true_and, Bool.and_true]
    simp only [show 8 - 1 - j % 8 < 8 by omega, decide_true, Bool.true_and]
  · have hk : 4 ≤ j / 8 := by omega
    rw [Bytes.bit, Bytes.byteAt_of_le _ hk, BitVec.getMsbD_of_ge u j (by omega)]
    simp

theorem ntohl_getMsbD (a : Bytes 4) (j : ℕ) : (ntohl a).getMsbD j = a.bit j := by
  simp only [ntohl, BitVec.getMsbD_append, Bytes.bit]
  by_cases h1 : j < 8
  · have hdiv : j / 8 = 0 := by omega
    have hmod : j % 8 = j := by omega
    simp [hdiv, hmod, show ¬ 8 ≤ j by omega, show ¬ 16 ≤ j by omega, show ¬ 24 ≤ j by omega]
  by_cases h2 : j < 16
  · have hdiv : j / 8 = 1 := by omega
    have hmod : j % 8 = j - 8 := by omega
    simp [hdiv, hmod, show 8 ≤ j by omega, show ¬ 16 ≤ j by omega, show ¬ 24 ≤ j by omega]
  by_cases h3 : j < 24
  · have hdiv : j / 8 = 2 := by omega
    have hmod : j % 8 = j - 16 := by omega
    simp [hdiv, hmod, show 16 ≤ j by omega, show ¬ 24 ≤ j by omega]
  by_cases h4 : j < 32
  · have hdiv : j / 8 = 3 := by omega
    have hmod : j % 8 = j - 24 := by omega
    simp [hdiv, hmod, show 24 ≤ j by omega]
  · have hk : 4 ≤ j / 8 := by omega
    rw [Bytes.byteAt_of_le _ hk, if_pos (by omega), BitVec.getMsbD_of_ge _ _ (by omega)]
    simp

private theorem toNat_shiftRight_three (x : BitVec 32) : (x >>> 3).toNat = x.toNat / 8 := by
  rw [BitVec.toNat_ushiftRight, Nat.shiftRight_eq_div_pow]

private theorem toNat_and_seven (x : BitVec 32) : (x &&& 7#32).toNat = x.toNat % 8 := by
  rw [BitVec.toNat_and]
  exact Nat.and_two_pow_sub_one_eq_mod x.toNat 3

theorem copyAddressBits_eq_none (out : Bytes 16) (o : ℕ) (u len : BitVec 32)
    (h : 40 ≤ len.toNat) : copyAddressBits out o u len = none := by
  have hm : 4 < 0 + (len >>> 3).toNat := by
    rw [toNat_shiftRight_three]
    omega
  simp only [copyAddressBits, Bytes.memcpy_eq_none out (ucv4addr u) o 0 (Or.inr hm),
    Option.bind_eq_bind, Option.bind_none]

theorem copyAddressBits_spec (out : Bytes 16) (o : ℕ) (u len : BitVec 32)
    (hlen : len.toNat ≤ 32) (hfit : 8 * o + len.toNat ≤ 128)
    (hzero : ∀ j, 8 * o ≤ j → out.bit j = false) :
    ∃ r, copyAddressBits out o u len = some r ∧ ∀ j, r.bit j =
      if j < 8 * o then out.bit j
      else (decide (j - 8 * o < len.toNat) && u.getMsbD (j - 8 * o)) := by
  have hoctet : ∀ j, 8 * o ≤ j →
      ((ucv4addr u).byteAt (j / 8 - o)).getMsbD (j % 8) = u.getMsbD (j - 8 * o) := by
    intro j hj
    rw [← ucv4addr_bit, Bytes.bit, show (j - 8 * o) / 8 = j / 8 - o by omega,
      show (j - 8 * o) % 8 = j % 8 by omega]
  obtain ⟨r, hr, hrbyte⟩ := out.exists_memcpy (ucv4addr u) o 0
    (len.toNat / 8) (by omega) (by omega)
  have hrbit : ∀ j, j < 8 * (o + len.toNat / 8) ∨ 8 * (o + len.toNat / 8) + 8 ≤ j ∨
      len.toNat % 8 = 0 → r.bit j = if j < 8 * o then out.bit j
        else (decide (j - 8 * o < len.toNat) && u.getMsbD (j - 8 * o)) := by
    intro j hj
    rw [Bytes.bit, hrbyte]
    by_cases hjo : j < 8 * o
    · rw [if_neg (by omega), if_pos hjo, Bytes.bit]
    · rw [if_neg hjo]
      by_cases hjm : j < 8 * (o + len.toNat / 8)
      · rw [if_pos (by omega), Nat.zero_add, hoctet j (by omega), decide_eq_true (by omega),
          Bool.true_and]
      · rw [if_neg (by omega), decide_eq_false (by omega), Bool.false_and]
        exact hzero j (by omega)
  by_cases hn : len.toNat % 8 = 0
  · refine ⟨r, ?_, fun j => hrbit j (Or.inr (Or.inr hn))⟩
    simp only [copyAddressBits, toNat_shiftRight_three, toNat_and_seven, hr, hn, ne_eq,
      not_true_eq_false, if_false, Option.bind_eq_bind, Option.bind_some]
  · obtain ⟨q, hq, hqbyte⟩ := r.exists_write (i := o + len.toNat / 8)
      (maskOctet ((ucv4addr u).byteAt (len.toNat / 8)) (len.toNat % 8)) (by omega)
    refine ⟨q, ?_, fun j => ?_⟩
    · simp only [copyAddressBits, toNat_shiftRight_three, toNat_and_seven, hr, hn, ne_eq,
        not_false_eq_true, if_true, Option.bind_eq_bind, Option.bind_some]
      rw [Bytes.read_of_lt _ (by omega), Option.bind_some, hq]
    · rw [Bytes.bit, hqbyte]
      by_cases hj : j / 8 = o + len.toNat / 8
      · rw [if_pos hj, if_neg (by omega), maskOctet_getMsbD _ _ _ (by omega),
          ← hoctet j (by omega), show j / 8 - o = len.toNat / 8 by omega]
        congr 1
        rw [decide_eq_decide]
        omega
      · rw [if_neg hj]
        exact hrbit j (by omega)

variable (v6rdpref : Bytes 16) (v6rdmasklen : BitVec 32) (v4addr : Bytes 4)
  (v4masklen : BitVec 32)

/-- The address bits an unaligned prefix pushes past the shared byte survive
the shift by b only where it acts like the shift by 8 - b. -/
def SpliceExact : Prop :=
  v6rdmasklen.toNat + 32 < 2 ^ 32 ∧
    (v6rdmasklen.toNat % 8 = 0 ∨ (v6rdmasklen.toNat % 8 ≤ 32 - v4masklen.toNat ∧
      ntohl v4addr <<< v4masklen.toNat <<< (v6rdmasklen.toNat % 8) =
        ntohl v4addr <<< v4masklen.toNat <<< (8 - v6rdmasklen.toNat % 8)))

instance : Decidable (SpliceExact v6rdmasklen v4addr v4masklen) :=
  inferInstanceAs (Decidable (_ ∧ _))

theorem address_getMsbD (t : ℕ) : (ntohl v4addr <<< v4masklen.toNat).getMsbD t =
    if t < 32 - v4masklen.toNat then v4addr.bit (v4masklen.toNat + t) else false := by
  rw [BitVec.getMsbD_shiftLeft, ntohl_getMsbD, Nat.add_comm t]
  by_cases ht : t < 32 - v4masklen.toNat
  · rw [if_pos ht]
  · rw [if_neg ht, Bytes.bit_of_le _ (by omega)]

private theorem rest_toNat (hw : v4masklen.toNat ≤ 31) :
    (32#32 - v4masklen - (v6rdmasklen &&& 7#32)).toNat =
      if v6rdmasklen.toNat % 8 ≤ 32 - v4masklen.toNat then
        32 - v4masklen.toNat - v6rdmasklen.toNat % 8
      else 2 ^ 32 + 32 - v4masklen.toNat - v6rdmasklen.toNat % 8 := by
  rw [BitVec.toNat_sub, BitVec.toNat_sub, toNat_and_seven, BitVec.toNat_ofNat]
  split <;> omega

private theorem check_toNat (hw : v4masklen.toNat ≤ 31) (hv : v6rdmasklen.toNat + 32 < 2 ^ 32) :
    (v6rdmasklen + 32#32 - v4masklen).toNat = v6rdmasklen.toNat + 32 - v4masklen.toNat := by
  rw [BitVec.toNat_sub, BitVec.toNat_add, BitVec.toNat_ofNat]
  omega

private theorem check_passes (hw : v4masklen ≤ 31#32)
    (hv : v6rdmasklen + 32#32 - v4masklen ≤ 64#32) :
    ¬ (v4masklen > 31#32 ∨ v6rdmasklen + 32#32 - v4masklen > 64#32) := by
  rintro (h | h)
  · exact absurd hw (BitVec.not_le.mpr h)
  · exact absurd hv (BitVec.not_le.mpr h)

theorem generate6rdDelegatedPrefix_of_wrap (hw : v4masklen ≤ 31#32)
    (hv : v6rdmasklen + 32#32 - v4masklen ≤ 64#32) (hwrap : 2 ^ 32 ≤ v6rdmasklen.toNat + 32) :
    generate6rdDelegatedPrefix v6rdpref v6rdmasklen v4addr v4masklen = none := by
  have ho : 16 < 0 + (v6rdmasklen >>> 3).toNat := by
    rw [toNat_shiftRight_three]
    omega
  simp only [generate6rdDelegatedPrefix, if_neg (check_passes _ _ hw hv),
    Bytes.memcpy_eq_none _ v6rdpref 0 0 (Or.inl ho), Option.bind_eq_bind, Option.bind_none]

section Splice

variable {v6rdmasklen v4masklen}

private theorem prefix_copied (hv : v6rdmasklen.toNat ≤ 63) :
    ∃ out : Bytes 16, Bytes.zero.memcpy 0 v6rdpref 0 (v6rdmasklen.toNat / 8) = some out ∧
      ∀ j, out.bit j =
        if j < 8 * (v6rdmasklen.toNat / 8) then v6rdpref.bit j else false := by
  obtain ⟨out, hout, hbyte⟩ := (Bytes.zero : Bytes 16).exists_memcpy v6rdpref
    0 0 (v6rdmasklen.toNat / 8) (by omega) (by omega)
  refine ⟨out, hout, fun j => ?_⟩
  rw [Bytes.bit, hbyte]
  by_cases hj : j < 8 * (v6rdmasklen.toNat / 8)
  · rw [if_pos hj, if_pos (by omega), Nat.zero_add, Nat.sub_zero, Bytes.bit]
  · rw [if_neg hj, if_neg (by omega), Bytes.byteAt_zero]
    simp

variable (hw : v4masklen ≤ 31#32) (hv : v6rdmasklen + 32#32 - v4masklen ≤ 64#32)

include hw hv

theorem generate6rdDelegatedPrefix_aligned (hV : v6rdmasklen.toNat ≤ 63)
    (hb : v6rdmasklen.toNat % 8 = 0) :
    ∃ out, generate6rdDelegatedPrefix v6rdpref v6rdmasklen v4addr v4masklen = some (0, out) ∧
      ∀ j, out.bit j = if j < v6rdmasklen.toNat then v6rdpref.bit j
        else (ntohl v4addr <<< v4masklen.toNat).getMsbD (j - v6rdmasklen.toNat) := by
  have hW : v4masklen.toNat ≤ 31 := hw
  obtain ⟨out, hout, hbit⟩ := prefix_copied v6rdpref hV
  have hrest := rest_toNat v6rdmasklen v4masklen hW
  rw [if_pos (by omega), hb, Nat.sub_zero] at hrest
  have hb0 : v6rdmasklen &&& 7#32 = 0#32 := by
    rw [← BitVec.toNat_inj, toNat_and_seven, hb]
    rfl
  obtain ⟨r, hr, hrbit⟩ := copyAddressBits_spec out (v6rdmasklen.toNat / 8)
    (ntohl v4addr <<< v4masklen.toNat) (32#32 - v4masklen - (v6rdmasklen &&& 7#32))
    (by omega) (by omega) (fun j hj => by rw [hbit, if_neg (by omega)])
  refine ⟨r, ?_, fun j => ?_⟩
  · have hpos : 32#32 - v4masklen - (v6rdmasklen &&& 7#32) > 0#32 := by
      change 0 < BitVec.toNat _
      omega
    simp only [generate6rdDelegatedPrefix, if_neg (check_passes _ _ hw hv),
      toNat_shiftRight_three, hout, Option.bind_eq_bind, Option.bind_some, hb0, ne_eq,
      not_true_eq_false, if_false]
    rw [hb0] at hpos hr
    rw [if_pos hpos]
    simp only [BitVec.toNat_ofNat, Nat.zero_mod, BitVec.shiftLeft_zero]
    rw [hr, Option.bind_some]
  · rw [hrbit, hbit, show 8 * (v6rdmasklen.toNat / 8) = v6rdmasklen.toNat by omega]
    by_cases hj : j < v6rdmasklen.toNat
    · rw [if_pos hj, if_pos hj, if_pos hj]
    · rw [if_neg hj, if_neg hj, hrest]
      by_cases ht : j - v6rdmasklen.toNat < 32 - v4masklen.toNat
      · rw [decide_eq_true ht, Bool.true_and]
      · rw [decide_eq_false ht, Bool.false_and, address_getMsbD, if_neg ht]

theorem generate6rdDelegatedPrefix_shared (hV : v6rdmasklen.toNat ≤ 63)
    (hb : v6rdmasklen.toNat % 8 ≠ 0) :
    ∃ mid : Bytes 16, (generate6rdDelegatedPrefix v6rdpref v6rdmasklen v4addr v4masklen =
      if 32#32 - v4masklen - (v6rdmasklen &&& 7#32) > 0#32 then
        (copyAddressBits mid (v6rdmasklen.toNat / 8 + 1)
          (ntohl v4addr <<< v4masklen.toNat <<< (v6rdmasklen.toNat % 8))
          (32#32 - v4masklen - (v6rdmasklen &&& 7#32))).bind (fun out => some (0, out))
      else some (0, mid)) ∧
      ∀ j, mid.bit j = if j < v6rdmasklen.toNat then v6rdpref.bit j
        else if j < 8 * (v6rdmasklen.toNat / 8 + 1) then
          (ntohl v4addr <<< v4masklen.toNat).getMsbD (j - v6rdmasklen.toNat) else false := by
  obtain ⟨out, hout, hbit⟩ := prefix_copied v6rdpref hV
  have hb0 : v6rdmasklen &&& 7#32 ≠ 0#32 := by
    intro h
    rw [← BitVec.toNat_inj, toNat_and_seven] at h
    exact hb h
  obtain ⟨mid, hmid, hmbyte⟩ := out.exists_write (i := v6rdmasklen.toNat / 8)
    (sharedOctet (v6rdpref.byteAt (v6rdmasklen.toNat / 8))
      ((ucv4addr (ntohl v4addr <<< v4masklen.toNat)).byteAt 0) (v6rdmasklen.toNat % 8)) (by omega)
  refine ⟨mid, ?_, fun j => ?_⟩
  · simp only [generate6rdDelegatedPrefix, if_neg (check_passes _ _ hw hv),
      toNat_shiftRight_three, toNat_and_seven, hout, Option.bind_eq_bind, Option.bind_some, hb0,
      ne_eq, not_false_eq_true, if_true]
    rw [Bytes.read_of_lt _ (by omega), Option.bind_some, Bytes.read_of_lt _ (by omega),
      Option.bind_some, hmid, Option.bind_some]
  · rw [Bytes.bit, hmbyte]
    by_cases hj : j / 8 = v6rdmasklen.toNat / 8
    · rw [if_pos hj, sharedOctet_getMsbD _ _ _ _ (by omega) (by omega)]
      by_cases hjb : j < v6rdmasklen.toNat
      · rw [if_pos (by omega), if_pos hjb, Bytes.bit, hj]
      · rw [if_neg (by omega), if_neg hjb, if_pos (by omega), ← ucv4addr_bit, Bytes.bit,
          show (j - v6rdmasklen.toNat) / 8 = 0 by omega,
          show (j - v6rdmasklen.toNat) % 8 = j % 8 - v6rdmasklen.toNat % 8 by omega]
    · rw [if_neg hj, ← Bytes.bit, hbit]
      by_cases hjb : j < v6rdmasklen.toNat
      · rw [if_pos (by omega), if_pos hjb]
      · rw [if_neg (by omega), if_neg hjb, if_neg (by omega)]

theorem generate6rdDelegatedPrefix_unaligned (hV : v6rdmasklen.toNat ≤ 63)
    (hb : v6rdmasklen.toNat % 8 ≠ 0) (hL : v6rdmasklen.toNat % 8 ≤ 32 - v4masklen.toNat) :
    ∃ out, generate6rdDelegatedPrefix v6rdpref v6rdmasklen v4addr v4masklen = some (0, out) ∧
      ∀ j, out.bit j = if j < v6rdmasklen.toNat then v6rdpref.bit j
        else if j < 8 * (v6rdmasklen.toNat / 8 + 1) then
          (ntohl v4addr <<< v4masklen.toNat).getMsbD (j - v6rdmasklen.toNat)
        else (ntohl v4addr <<< v4masklen.toNat <<< (v6rdmasklen.toNat % 8)).getMsbD
          (j - 8 * (v6rdmasklen.toNat / 8 + 1)) := by
  have hW : v4masklen.toNat ≤ 31 := hw
  have hrest := rest_toNat v6rdmasklen v4masklen hW
  rw [if_pos hL] at hrest
  obtain ⟨mid, hstep, hmbit⟩ :=
    generate6rdDelegatedPrefix_shared v6rdpref v4addr hw hv hV hb
  have htail : ∀ t, 32 - v4masklen.toNat - v6rdmasklen.toNat % 8 ≤ t →
      (ntohl v4addr <<< v4masklen.toNat <<< (v6rdmasklen.toNat % 8)).getMsbD t = false := by
    intro t ht
    rw [BitVec.getMsbD_shiftLeft, address_getMsbD, if_neg (by omega)]
  by_cases hpos : 32#32 - v4masklen - (v6rdmasklen &&& 7#32) > 0#32
  · rw [if_pos hpos] at hstep
    obtain ⟨r, hr, hrbit⟩ := copyAddressBits_spec mid (v6rdmasklen.toNat / 8 + 1)
      (ntohl v4addr <<< v4masklen.toNat <<< (v6rdmasklen.toNat % 8))
      (32#32 - v4masklen - (v6rdmasklen &&& 7#32)) (by omega) (by omega)
      (fun j hj => by rw [hmbit, if_neg (by omega), if_neg (by omega)])
    refine ⟨r, by rw [hstep, hr]; rfl, fun j => ?_⟩
    rw [hrbit, hmbit, hrest]
    by_cases hj : j < 8 * (v6rdmasklen.toNat / 8 + 1)
    · rw [if_pos hj, if_pos hj, if_pos hj]
    · rw [if_neg hj, if_neg (by omega), if_neg hj]
      by_cases ht : j - 8 * (v6rdmasklen.toNat / 8 + 1) <
          32 - v4masklen.toNat - v6rdmasklen.toNat % 8
      · rw [decide_eq_true ht, Bool.true_and]
      · rw [decide_eq_false ht, Bool.false_and, htail _ (by omega)]
  · rw [if_neg hpos] at hstep
    have hzero : 32 - v4masklen.toNat - v6rdmasklen.toNat % 8 = 0 := by
      have hle : BitVec.toNat _ ≤ 0 := Nat.not_lt.mp hpos
      omega
    refine ⟨mid, hstep, fun j => ?_⟩
    rw [hmbit]
    by_cases hj : j < 8 * (v6rdmasklen.toNat / 8 + 1)
    · rw [if_pos hj, if_pos hj]
    · rw [if_neg hj, if_neg hj, htail _ (by omega)]

theorem generate6rdDelegatedPrefix_of_short (hV : v6rdmasklen.toNat ≤ 63)
    (hL : 32 - v4masklen.toNat < v6rdmasklen.toNat % 8) :
    generate6rdDelegatedPrefix v6rdpref v6rdmasklen v4addr v4masklen = none := by
  have hW : v4masklen.toNat ≤ 31 := hw
  have hrest := rest_toNat v6rdmasklen v4masklen hW
  rw [if_neg (by omega)] at hrest
  obtain ⟨mid, hstep, -⟩ := generate6rdDelegatedPrefix_shared v6rdpref v4addr hw hv hV (by omega)
  have hpos : 32#32 - v4masklen - (v6rdmasklen &&& 7#32) > 0#32 := by
    change 0 < BitVec.toNat _
    omega
  rw [hstep, if_pos hpos, copyAddressBits_eq_none _ _ _ _ (by omega), Option.bind_none]

end Splice

private theorem prefix_le (hw : v4masklen ≤ 31#32)
    (hv : v6rdmasklen + 32#32 - v4masklen ≤ 64#32) (hlt : v6rdmasklen.toNat + 32 < 2 ^ 32) :
    v6rdmasklen.toNat + 32 - v4masklen.toNat ≤ 64 := by
  rw [← check_toNat v6rdmasklen v4masklen hw hlt]
  exact hv

private theorem shifts_agree_iff (u : BitVec 32) {V : ℕ} (hV : V ≤ 63) :
    (∀ j < 128, 8 * (V / 8 + 1) ≤ j →
      (u <<< (V % 8)).getMsbD (j - 8 * (V / 8 + 1)) = u.getMsbD (j - V)) ↔
    u <<< (V % 8) = u <<< (8 - V % 8) := by
  constructor
  · intro h
    apply BitVec.eq_of_getMsbD_eq
    intro t ht
    have hj := h (8 * (V / 8 + 1) + t) (by omega) (by omega)
    rw [show 8 * (V / 8 + 1) + t - 8 * (V / 8 + 1) = t by omega] at hj
    rw [hj, BitVec.getMsbD_shiftLeft]
    congr 1
    omega
  · intro h j hj hge
    rw [h, BitVec.getMsbD_shiftLeft]
    congr 1
    omega

/-- The splice is the delegated prefix exactly when the tail shift is harmless
and neither length expression wraps. -/
theorem generate6rdDelegatedPrefix_delegated_iff (hw : v4masklen ≤ 31#32)
    (hv : v6rdmasklen + 32#32 - v4masklen ≤ 64#32) :
    (∃ out, generate6rdDelegatedPrefix v6rdpref v6rdmasklen v4addr v4masklen = some (0, out) ∧
      Delegated v6rdpref v6rdmasklen.toNat v4addr v4masklen.toNat out) ↔
    SpliceExact v6rdmasklen v4addr v4masklen := by
  unfold SpliceExact
  by_cases hlt : v6rdmasklen.toNat + 32 < 2 ^ 32
  swap
  · rw [generate6rdDelegatedPrefix_of_wrap _ _ _ _ hw hv (by omega)]
    refine ⟨?_, fun h => absurd h.1 hlt⟩
    rintro ⟨out, hout, -⟩
    cases hout
  have hsum := prefix_le v6rdmasklen v4masklen hw hv hlt
  have hW : v4masklen.toNat ≤ 31 := hw
  have hV : v6rdmasklen.toNat ≤ 63 := by omega
  have hexpect : ∀ j, v6rdmasklen.toNat ≤ j →
      (if j < v6rdmasklen.toNat then v6rdpref.bit j
        else if j < v6rdmasklen.toNat + (32 - v4masklen.toNat) then
          v4addr.bit (v4masklen.toNat + (j - v6rdmasklen.toNat)) else false) =
      (ntohl v4addr <<< v4masklen.toNat).getMsbD (j - v6rdmasklen.toNat) := by
    intro j hj
    rw [if_neg (by omega), address_getMsbD]
    by_cases hjL : j < v6rdmasklen.toNat + (32 - v4masklen.toNat)
    · rw [if_pos hjL, if_pos (by omega)]
    · rw [if_neg hjL, if_neg (by omega)]
  by_cases hb : v6rdmasklen.toNat % 8 = 0
  · obtain ⟨out, hout, hbit⟩ := generate6rdDelegatedPrefix_aligned v6rdpref v4addr hw hv hV hb
    refine ⟨fun _ => ⟨hlt, Or.inl hb⟩, fun _ => ⟨out, hout, fun j hj => ?_⟩⟩
    rw [hbit]
    by_cases hjV : j < v6rdmasklen.toNat
    · rw [if_pos hjV, if_pos hjV]
    · rw [if_neg hjV, hexpect j (by omega)]
  by_cases hL : v6rdmasklen.toNat % 8 ≤ 32 - v4masklen.toNat
  swap
  · rw [generate6rdDelegatedPrefix_of_short v6rdpref v4addr hw hv hV (by omega)]
    simp [hb, hL]
  obtain ⟨out, hout, hbit⟩ :=
    generate6rdDelegatedPrefix_unaligned v6rdpref v4addr hw hv hV hb hL
  have hdel : Delegated v6rdpref v6rdmasklen.toNat v4addr v4masklen.toNat out ↔
      ∀ j < 128, 8 * (v6rdmasklen.toNat / 8 + 1) ≤ j →
        (ntohl v4addr <<< v4masklen.toNat <<< (v6rdmasklen.toNat % 8)).getMsbD
          (j - 8 * (v6rdmasklen.toNat / 8 + 1)) =
        (ntohl v4addr <<< v4masklen.toNat).getMsbD (j - v6rdmasklen.toNat) := by
    refine forall₂_congr (fun j hj => ?_)
    rw [hbit]
    by_cases hjV : j < v6rdmasklen.toNat
    · rw [if_pos hjV, if_pos hjV]
      exact ⟨fun _ h => by omega, fun _ => rfl⟩
    rw [hexpect j (by omega), if_neg hjV]
    by_cases hjo : j < 8 * (v6rdmasklen.toNat / 8 + 1)
    · rw [if_pos hjo]
      exact ⟨fun _ h => by omega, fun _ => rfl⟩
    · rw [if_neg hjo]
      exact ⟨fun h _ => h, fun h => h (by omega)⟩
  rw [shifts_agree_iff _ hV] at hdel
  constructor
  · rintro ⟨out', hout', hd⟩
    rw [hout, Option.some.injEq, Prod.mk.injEq] at hout'
    rw [← hout'.2] at hd
    exact ⟨hlt, Or.inr ⟨hL, hdel.mp hd⟩⟩
  · rintro ⟨-, h | ⟨-, h⟩⟩
    · exact absurd h hb
    · exact ⟨out, hout, hdel.mpr h⟩

/-- A prefix of 36 bits and a whole IPv4 address meet the condition. -/
theorem generate6rdDelegatedPrefix_delegated_36 :
    ∃ out, generate6rdDelegatedPrefix Bytes.zero 36#32 (fun k => [192, 0, 2, 1].get k) 4#32 =
      some (0, out) ∧ Delegated Bytes.zero 36 (fun k => [192, 0, 2, 1].get k) 4 out :=
  (generate6rdDelegatedPrefix_delegated_iff Bytes.zero 36#32 _ 4#32 (by decide) (by decide)).mpr
    (by decide)

/-- With a prefix of 33 bits and the address 10.1.0.0 of a /8, bit 7 of the
address suffix belongs at bit 40 of the result but lands at bit 46. -/
theorem generate6rdDelegatedPrefix_shift_slip :
    ¬ ∀ (v6rdpref : Bytes 16) (v6rdmasklen : BitVec 32) (v4addr : Bytes 4)
      (v4masklen : BitVec 32), v4masklen ≤ 31#32 → v6rdmasklen + 32#32 - v4masklen ≤ 64#32 →
      ∃ out, generate6rdDelegatedPrefix v6rdpref v6rdmasklen v4addr v4masklen = some (0, out) ∧
        Delegated v6rdpref v6rdmasklen.toNat v4addr v4masklen.toNat out := by
  intro h
  obtain ⟨out, hout, hd⟩ := h Bytes.zero 33#32 (fun k => [10, 1, 0, 0].get k) 8#32
    (by decide) (by decide)
  have hbit : (generate6rdDelegatedPrefix Bytes.zero 33#32
      (fun k => [10, 1, 0, 0].get k) 8#32).map (fun r => r.2.bit 40) = some false := by
    decide
  rw [hout, Option.map_some, Option.some.injEq, hd 40 (by decide)] at hbit
  revert hbit
  decide

end CcspPandM.Ipv6rd
