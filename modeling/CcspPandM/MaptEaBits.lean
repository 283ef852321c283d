import CcspPandM.BitWindow
import CcspPandM.InetText

/-!
The MAP-T split of a delegated prefix into an IPv4 suffix and a PSID. The EA
bits are gathered bytewise into a 64-bit word and cut apart with masks built by
shifts. A shift by the word size or more has no defined result.
-/
namespace CcspPandM.MaptEaBits

open BitWindow CString InetText

inductive ReturnStatus where
  | STATUS_SUCCESS
  | STATUS_FAILURE
  deriving DecidableEq, Repr

structure EaOutputs where
  pPsid : BitVec 16
  pPsidLen : BitVec 16
  pIPv4Suffix : BitVec 32
  deriving DecidableEq, Repr

def in6Addr (octets : List ℕ) : Bytes 16 := fun k => BitVec.ofNat 8 (octets.getD k.val 0)

/-- `SET_BIT_MASK`: both shift amounts must be below the width of the word. -/
def setBitMask (maskBits shiftBits : ℕ) : Option (BitVec 64) :=
  if 0 < maskBits ∧ maskBits + shiftBits ≤ 64 then
    some ((BitVec.allOnes 64 <<< (64 - maskBits)) >>> (64 - maskBits - shiftBits))
  else none

/-- The do-while loop: `count` further bytes from `idx` on enter the word. -/
def gatherEaBytes (ipv6Addr : Bytes 16) (idx : ℕ) : ℕ → BitVec 64 → Option (BitVec 64)
  | 0, ulEaBytes => some ulEaBytes
  | count + 1, ulEaBytes => do
    let octet ← ipv6Addr.read idx
    gatherEaBytes ipv6Addr (idx + 1) count (ulEaBytes <<< 8 ||| octet.setWidth 64)

def eaBytes (ipv6Addr : Bytes 16) (ui16v6PrefixLen : BitVec 16) (ui8EaLen : BitVec 8) :
    Option (BitVec 64) := do
  let ui8EaStartByte : BitVec 8 := (ui16v6PrefixLen / 8#16).setWidth 8
  let ui8EaLastByte : BitVec 8 :=
    ui8EaStartByte + ui8EaLen / 8#8 + if ui8EaLen % 8#8 ≠ 0#8 then 1#8 else 0#8
  let ui8EaStartByteSetBits : BitVec 8 := (ui16v6PrefixLen % 8#16).setWidth 8
  let ulEaBytes ← gatherEaBytes ipv6Addr ui8EaStartByte.toNat
    (max 1 (ui8EaLastByte.toNat - ui8EaStartByte.toNat)) 0#64
  if ui8EaStartByteSetBits ≠ 0#8 then
    let octet ← ipv6Addr.read ui8EaLastByte.toNat
    let shift : ℤ := ((ui8EaLastByte.toNat : ℤ) - ui8EaStartByte.toNat) * 8 - ui8EaLen.toNat +
      (8 - ui8EaStartByteSetBits.toNat)
    if 0 ≤ shift ∧ shift < 64 then
      some ((ulEaBytes <<< 8 ||| octet.setWidth 64) >>> shift.toNat)
    else none
  else
    -- The shift for a length that is no multiple of 8 is commented out.
    some ulEaBytes

def cosaDmlMaptComputePsidAndIPv4Suffix (pPdIPv6Prefix : CStr)
    (ui16PdPrefixLen ui16v6PrefixLen ui16v4PrefixLen : BitVec 16) (out : EaOutputs) :
    Option (ReturnStatus × EaOutputs) :=
  let ui8v4BitIdxLen : BitVec 8 := (32#16 - ui16v4PrefixLen).setWidth 8
  let ui8EaLen : BitVec 8 := (ui16PdPrefixLen - ui16v6PrefixLen).setWidth 8
  let ui8PsidBitIdxLen : BitVec 8 := ui8EaLen - ui8v4BitIdxLen
  if ui16PdPrefixLen < ui16v6PrefixLen then some (.STATUS_FAILURE, out)
  else match inet_pton6 pPdIPv6Prefix with
    | none => some (.STATUS_FAILURE, out)
    | some octets =>
      if ui8EaLen ≠ 0#8 then do
        let ulEaBytes ← eaBytes (in6Addr octets) ui16v6PrefixLen ui8EaLen
        let v4Mask ← setBitMask ui8v4BitIdxLen.toNat ui8PsidBitIdxLen.toNat
        let psid ← if ui8PsidBitIdxLen ≠ 0#8 then do
            let psidMask ← setBitMask ui8PsidBitIdxLen.toNat 0
            some (ulEaBytes &&& psidMask)
          else some 0#64
        some (.STATUS_SUCCESS,
          { pPsid := psid.setWidth 16
            pPsidLen := ui8PsidBitIdxLen.setWidth 16
            pIPv4Suffix := ((ulEaBytes &&& v4Mask) >>> ui8PsidBitIdxLen.toNat).setWidth 32 })
      else some (.STATUS_SUCCESS, out)

/-- The split of the EA bits v .. p-1: first the IPv4 suffix, then the PSID. -/
def EaSplit (addr : Bytes 16) (p v w : ℕ) (out : EaOutputs) : Prop :=
  out.pIPv4Suffix.toNat = number addr.bit v (32 - w) ∧
    out.pPsid.toNat = number addr.bit (v + (32 - w)) (p - v - (32 - w)) ∧
    out.pPsidLen.toNat = p - v - (32 - w)

instance (addr : Bytes 16) (p v w : ℕ) (out : EaOutputs) : Decidable (EaSplit addr p v w out) :=
  inferInstanceAs (Decidable (_ ∧ _))

theorem setBitMask_spec {m s : ℕ} (hm : 0 < m) (hms : m + s ≤ 64) :
    ∃ mask, setBitMask m s = some mask ∧
      ∀ x : BitVec 64, ((x &&& mask) >>> s).toNat = x.toNat / 2 ^ s % 2 ^ m := by
  refine ⟨_, if_pos ⟨hm, hms⟩, fun x => ?_⟩
  apply Nat.eq_of_testBit_eq
  intro i
  rw [Nat.testBit_mod_two_pow, Nat.testBit_div_two_pow, ← BitVec.getLsbD, ← BitVec.getLsbD,
    BitVec.getLsbD_ushiftRight, BitVec.getLsbD_and, BitVec.getLsbD_ushiftRight,
    BitVec.getLsbD_shiftLeft, BitVec.getLsbD_allOnes, Nat.add_comm s i]
  by_cases hi : i < m
  · have h1 : 64 - m - s + (i + s) < 64 := by omega
    have h2 : ¬ 64 - m - s + (i + s) < 64 - m := by omega
    have h3 : 64 - m - s + (i + s) - (64 - m) < 64 := by omega
    simp only [h1, h2, h3, hi, decide_true, decide_false, Bool.not_false, Bool.and_true,
      Bool.true_and]
  · have h1 : ¬ 64 - m - s + (i + s) < 64 := by omega
    simp only [h1, hi, decide_false, Bool.false_and, Bool.and_false]

theorem setBitMask_zero (s : ℕ) : setBitMask 0 s = none := if_neg (by omega)

private theorem appendOctet_toNat (x : BitVec 64) (octet : BitVec 8) (hx : x.toNat < 2 ^ 56) :
    (x <<< 8 ||| octet.setWidth 64).toNat = x.toNat * 2 ^ 8 + octet.toNat := by
  have hlt : octet.toNat < 2 ^ 8 := octet.isLt
  rw [BitVec.toNat_or, BitVec.toNat_shiftLeft, BitVec.toNat_setWidth,
    Nat.mod_eq_of_lt (by omega : octet.toNat < 2 ^ 64), Nat.shiftLeft_eq,
    Nat.mod_eq_of_lt (by omega : x.toNat * 2 ^ 8 < 2 ^ 64), ← Nat.shiftLeft_eq,
    ← Nat.shiftLeft_add_eq_or_of_lt hlt, Nat.shiftLeft_eq]

theorem gatherEaBytes_spec (a : Bytes 16) (start idx count : ℕ) {x : BitVec 64}
    (hread : idx + count ≤ 16) (hstart : start ≤ 8 * idx) (hlen : 8 * (idx + count) - start ≤ 64)
    (hx : x.toNat = number a.bit start (8 * idx - start)) :
    ∃ r, gatherEaBytes a idx count x = some r ∧
      r.toNat = number a.bit start (8 * (idx + count) - start) := by
  induction count generalizing idx x with
  | zero => exact ⟨x, rfl, hx⟩
  | succ count ih =>
    have hxlt : x.toNat < 2 ^ 56 := by
      rw [hx]
      exact (number_lt _ _ _).trans_le (Nat.pow_le_pow_right (by omega) (by omega))
    have hnext : (x <<< 8 ||| (a.byteAt idx).setWidth 64).toNat =
        number a.bit start (8 * (idx + 1) - start) := by
      rw [appendOctet_toNat _ _ hxlt, hx, ← number_byte,
        show 8 * (idx + 1) - start = 8 * idx - start + 8 by omega, number_add,
        show start + (8 * idx - start) = 8 * idx by omega]
    obtain ⟨r, hr, hrnum⟩ := ih (idx + 1) (by omega) (by omega) (by omega) hnext
    refine ⟨r, ?_, ?_⟩
    · rw [gatherEaBytes, Bytes.read_of_lt a (by omega)]
      exact hr
    · rw [hrnum, show idx + 1 + count = idx + (count + 1) by omega]

section EaBytes

variable {v : BitVec 16} {ea : BitVec 8}

private theorem startByte_toNat (hv : v.toNat ≤ 128) :
    ((v / 8#16).setWidth 8 : BitVec 8).toNat = v.toNat / 8 := by
  rw [BitVec.toNat_setWidth, BitVec.toNat_udiv, show (8#16).toNat = 8 from rfl]
  omega

private theorem startBits_toNat : ((v % 8#16).setWidth 8 : BitVec 8).toNat = v.toNat % 8 := by
  rw [BitVec.toNat_setWidth, BitVec.toNat_umod, show (8#16).toNat = 8 from rfl]
  omega

private theorem lastByte_toNat (hv : v.toNat + ea.toNat ≤ 128) :
    ((v / 8#16).setWidth 8 + ea / 8#8 + if ea % 8#8 ≠ 0#8 then 1#8 else 0#8 : BitVec 8).toNat =
      v.toNat / 8 + (ea.toNat + 7) / 8 := by
  have hdiv : (ea / 8#8).toNat = ea.toNat / 8 := by
    rw [BitVec.toNat_udiv]
    rfl
  have hmod : (ea % 8#8).toNat = ea.toNat % 8 := by
    rw [BitVec.toNat_umod]
    rfl
  have hround : (if ea % 8#8 ≠ 0#8 then 1#8 else 0#8).toNat =
      if ea.toNat % 8 ≠ 0 then 1 else 0 := by
    by_cases h : ea % 8#8 = 0#8
    · rw [← BitVec.toNat_inj, hmod] at h
      simp [h, ← BitVec.toNat_inj, hmod]
    · have h0 : ea.toNat % 8 ≠ 0 := fun h' => h (by rw [← BitVec.toNat_inj, hmod, h']; rfl)
      rw [if_pos h, if_pos h0]
      rfl
  rw [BitVec.toNat_add, BitVec.toNat_add, startByte_toNat (by omega), hdiv, hround]
  split <;> omega

private theorem gathered (a : Bytes 16) (hv : v.toNat + ea.toNat ≤ 128) (hea : 0 < ea.toNat)
    (hea' : ea.toNat ≤ 48) :
    ∃ r, gatherEaBytes a (v.toNat / 8)
        (max 1 (v.toNat / 8 + (ea.toNat + 7) / 8 - v.toNat / 8)) 0#64 = some r ∧
      r.toNat = number a.bit (8 * (v.toNat / 8)) (8 * ((ea.toNat + 7) / 8)) := by
  rw [show max 1 (v.toNat / 8 + (ea.toNat + 7) / 8 - v.toNat / 8) = (ea.toNat + 7) / 8 by omega]
  obtain ⟨r, hr, hnum⟩ := gatherEaBytes_spec a (8 * (v.toNat / 8)) (v.toNat / 8)
    ((ea.toNat + 7) / 8) (x := 0#64) (by omega) (by omega) (by omega)
    (by rw [Nat.sub_self]; rfl)
  refine ⟨r, hr, ?_⟩
  rw [hnum]
  congr 1
  omega

theorem eaBytes_aligned (a : Bytes 16) (hv : v.toNat + ea.toNat ≤ 128) (hea : 0 < ea.toNat)
    (hea' : ea.toNat ≤ 48) (hs : v.toNat % 8 = 0) :
    ∃ r, eaBytes a v ea = some r ∧
      r.toNat = number a.bit v.toNat (8 * ((ea.toNat + 7) / 8)) := by
  obtain ⟨r, hr, hnum⟩ := gathered a hv hea hea'
  have hs0 : (v % 8#16).setWidth 8 = 0#8 := by
    rw [← BitVec.toNat_inj, startBits_toNat, hs]
    rfl
  refine ⟨r, ?_, ?_⟩
  · simp only [eaBytes, startByte_toNat (v := v) (by omega), lastByte_toNat hv, hr, hs0, ne_eq,
      not_true_eq_false, if_false, Option.bind_eq_bind, Option.bind_some]
  · rw [hnum, show 8 * (v.toNat / 8) = v.toNat by omega]

theorem eaBytes_unaligned (a : Bytes 16) (hv : v.toNat + ea.toNat ≤ 128) (hea : 0 < ea.toNat)
    (hea' : ea.toNat ≤ 48) (hs : v.toNat % 8 ≠ 0) (hlast : v.toNat / 8 + (ea.toNat + 7) / 8 ≤ 15) :
    ∃ r, eaBytes a v ea = some r ∧
      r.toNat = number a.bit (8 * (v.toNat / 8)) (v.toNat % 8 + ea.toNat) := by
  obtain ⟨x, hx, hnum⟩ := gathered a hv hea hea'
  have hs0 : (v % 8#16).setWidth 8 ≠ 0#8 := by
    intro h
    rw [← BitVec.toNat_inj, startBits_toNat] at h
    exact hs h
  have hshift : (((v.toNat / 8 + (ea.toNat + 7) / 8 : ℕ) : ℤ) - (v.toNat / 8 : ℕ)) * 8 -
      (ea.toNat : ℕ) + (8 - (v.toNat % 8 : ℕ)) =
      ((8 * ((ea.toNat + 7) / 8) + 8 - (v.toNat % 8 + ea.toNat) : ℕ) : ℤ) := by
    omega
  have hxlt : x.toNat < 2 ^ 56 := by
    rw [hnum]
    exact (number_lt _ _ _).trans_le (Nat.pow_le_pow_right (by omega) (by omega))
  refine ⟨(x <<< 8 ||| (a.byteAt (v.toNat / 8 + (ea.toNat + 7) / 8)).setWidth 64) >>>
    (8 * ((ea.toNat + 7) / 8) + 8 - (v.toNat % 8 + ea.toNat)), ?_, ?_⟩
  · simp only [eaBytes, startByte_toNat (v := v) (by omega), lastByte_toNat hv, startBits_toNat,
      hx, hs0, ne_eq, not_false_eq_true, if_true, Option.bind_eq_bind, Option.bind_some, hshift]
    rw [Bytes.read_of_lt a (by omega), Option.bind_some, if_pos (by omega),
      Int.toNat_natCast]
  · have hword : (x <<< 8 ||| (a.byteAt (v.toNat / 8 + (ea.toNat + 7) / 8)).setWidth 64).toNat =
        number a.bit (8 * (v.toNat / 8)) (v.toNat % 8 + ea.toNat +
          (8 * ((ea.toNat + 7) / 8) + 8 - (v.toNat % 8 + ea.toNat))) := by
      rw [Nat.add_sub_cancel' (by omega), appendOctet_toNat _ _ hxlt, hnum, ← number_byte,
        number_add, show 8 * (v.toNat / 8) + 8 * ((ea.toNat + 7) / 8) =
          8 * (v.toNat / 8 + (ea.toNat + 7) / 8) by omega]
    rw [BitVec.toNat_ushiftRight, Nat.shiftRight_eq_div_pow, hword, number_div]

theorem eaBytes_of_last (a : Bytes 16) (hv : v.toNat + ea.toNat ≤ 128)
    (hs : v.toNat % 8 ≠ 0) (hlast : 16 ≤ v.toNat / 8 + (ea.toNat + 7) / 8) :
    eaBytes a v ea = none := by
  have hs0 : (v % 8#16).setWidth 8 ≠ 0#8 := by
    intro h
    rw [← BitVec.toNat_inj, startBits_toNat] at h
    exact hs h
  simp only [eaBytes, lastByte_toNat hv, hs0, ne_eq, not_false_eq_true, if_true,
    Bytes.read_of_le a hlast, Option.bind_eq_bind, Option.bind_none, Option.bind_fun_none]

end EaBytes

section Split

variable {t : CStr} {octets : List ℕ} {p v w : BitVec 16} (out : EaOutputs)

private theorem eaLen_toNat (hvp : v.toNat ≤ p.toNat) (hea : p.toNat - v.toNat ≤ 48) :
    ((p - v).setWidth 8 : BitVec 8).toNat = p.toNat - v.toNat := by
  rw [BitVec.toNat_setWidth, BitVec.toNat_sub]
  omega

private theorem v4Len_toNat (hw : w.toNat ≤ 32) :
    ((32#16 - w).setWidth 8 : BitVec 8).toNat = 32 - w.toNat := by
  rw [BitVec.toNat_setWidth, BitVec.toNat_sub, show (32#16).toNat = 32 from rfl]
  omega

private theorem psidLen_toNat (hvp : v.toNat ≤ p.toNat) (hea : p.toNat - v.toNat ≤ 48)
    (hw : w.toNat ≤ 32) (hfit : 32 - w.toNat ≤ p.toNat - v.toNat) :
    ((p - v).setWidth 8 - (32#16 - w).setWidth 8 : BitVec 8).toNat =
      p.toNat - v.toNat - (32 - w.toNat) := by
  rw [BitVec.toNat_sub, eaLen_toNat hvp hea, v4Len_toNat hw]
  omega

theorem compute_of_no_ea (hpton : inet_pton6 t = some octets) (hpv : p = v) :
    cosaDmlMaptComputePsidAndIPv4Suffix t p v w out = some (.STATUS_SUCCESS, out) := by
  subst hpv
  have hlt : ¬ p < p := BitVec.lt_irrefl p
  simp only [cosaDmlMaptComputePsidAndIPv4Suffix, if_neg hlt, hpton, BitVec.sub_self,
    BitVec.setWidth_zero, ne_eq, not_true_eq_false, if_false]

theorem compute_of_ea (hpton : inet_pton6 t = some octets) (hvp : v.toNat < p.toNat)
    (hea : p.toNat - v.toNat ≤ 48) (hw : w.toNat ≤ 32)
    (hfit : 32 - w.toNat ≤ p.toNat - v.toNat)
    (hpsid : p.toNat - v.toNat - (32 - w.toNat) ≤ 16) :
    cosaDmlMaptComputePsidAndIPv4Suffix t p v w out =
      (eaBytes (in6Addr octets) v ((p - v).setWidth 8)).bind (fun x =>
        if w.toNat = 32 then none else some (.STATUS_SUCCESS,
          { pPsid := BitVec.ofNat 16 (x.toNat % 2 ^ (p.toNat - v.toNat - (32 - w.toNat)))
            pPsidLen := BitVec.ofNat 16 (p.toNat - v.toNat - (32 - w.toNat))
            pIPv4Suffix := BitVec.ofNat 32
              (x.toNat / 2 ^ (p.toNat - v.toNat - (32 - w.toNat)) % 2 ^ (32 - w.toNat)) })) := by
  have hlt : ¬ p < v := by
    change ¬ p.toNat < v.toNat
    omega
  have hea0 : (p - v).setWidth 8 ≠ 0#8 := by
    intro h
    rw [← BitVec.toNat_inj, eaLen_toNat hvp.le hea] at h
    change p.toNat - v.toNat = 0 at h
    omega
  have hpsidLen := psidLen_toNat hvp.le hea hw hfit
  simp only [cosaDmlMaptComputePsidAndIPv4Suffix, if_neg hlt, hpton, if_pos hea0,
    v4Len_toNat hw, hpsidLen, Option.bind_eq_bind]
  congr 1
  funext x
  by_cases hw32 : w.toNat = 32
  · rw [if_pos hw32, hw32, Nat.sub_self, setBitMask_zero, Option.bind_none]
  rw [if_neg hw32]
  obtain ⟨mask, hmask, hcut⟩ := setBitMask_spec (m := 32 - w.toNat)
    (s := p.toNat - v.toNat - (32 - w.toNat)) (by omega) (by omega)
  have hsuffix : ((x &&& mask) >>> (p.toNat - v.toNat - (32 - w.toNat))).setWidth 32 =
      BitVec.ofNat 32
        (x.toNat / 2 ^ (p.toNat - v.toNat - (32 - w.toNat)) % 2 ^ (32 - w.toNat)) := by
    rw [← hcut x, BitVec.ofNat_toNat]
  have hlen : ((p - v).setWidth 8 - (32#16 - w).setWidth 8 : BitVec 8).setWidth 16 =
      BitVec.ofNat 16 (p.toNat - v.toNat - (32 - w.toNat)) := by
    rw [← hpsidLen, BitVec.ofNat_toNat]
  rw [hmask, Option.bind_some, hsuffix, hlen]
  by_cases hs0 : ((p - v).setWidth 8 - (32#16 - w).setWidth 8 : BitVec 8) = 0#8
  · rw [if_neg (not_not.mpr hs0), Option.bind_some]
    rw [← BitVec.toNat_inj, hpsidLen] at hs0
    change p.toNat - v.toNat - (32 - w.toNat) = 0 at hs0
    rw [hs0, Nat.pow_zero, Nat.mod_one]
    rfl
  · have hpos : 0 < p.toNat - v.toNat - (32 - w.toNat) := by
      rw [← hpsidLen]
      exact Nat.pos_of_ne_zero (fun h => hs0 (BitVec.toNat_inj.mp h))
    obtain ⟨psidMask, hpm, hpcut⟩ := setBitMask_spec hpos (s := 0) (by omega)
    have hpsidv : (x &&& psidMask).setWidth 16 =
        BitVec.ofNat 16 (x.toNat % 2 ^ (p.toNat - v.toNat - (32 - w.toNat))) := by
      have h := hpcut x
      rw [BitVec.ushiftRight_zero, Nat.pow_zero, Nat.div_one] at h
      rw [← h, BitVec.ofNat_toNat]
    rw [if_pos hs0, hpm, Option.bind_some, Option.bind_some, hpsidv]

theorem eaSplit_iff (a : Bytes 16) (x : ℕ) {p v w : ℕ} (hw : w ≤ 32) (hfit : 32 - w ≤ p - v)
    (hpsid : p - v - (32 - w) ≤ 16) :
    EaSplit a p v w
      { pPsid := BitVec.ofNat 16 (x % 2 ^ (p - v - (32 - w)))
        pPsidLen := BitVec.ofNat 16 (p - v - (32 - w))
        pIPv4Suffix := BitVec.ofNat 32 (x / 2 ^ (p - v - (32 - w)) % 2 ^ (32 - w)) } ↔
      x % 2 ^ (p - v) = number a.bit v (p - v) := by
  have hpow : 2 ^ (p - v - (32 - w)) ≤ 2 ^ 16 := Nat.pow_le_pow_right (by omega) hpsid
  have hpow' : 2 ^ (32 - w) ≤ 2 ^ 32 := Nat.pow_le_pow_right (by omega) (by omega)
  have h1 : x % 2 ^ (p - v - (32 - w)) < 2 ^ (p - v - (32 - w)) := Nat.mod_lt _ (Nat.two_pow_pos _)
  have h2 : x / 2 ^ (p - v - (32 - w)) % 2 ^ (32 - w) < 2 ^ (32 - w) :=
    Nat.mod_lt _ (Nat.two_pow_pos _)
  have hsum : p - v = 32 - w + (p - v - (32 - w)) := by omega
  have hx : x % 2 ^ (p - v) = x / 2 ^ (p - v - (32 - w)) % 2 ^ (32 - w) *
      2 ^ (p - v - (32 - w)) + x % 2 ^ (p - v - (32 - w)) := by
    conv_lhs => rw [hsum]
    rw [Nat.add_comm, Nat.pow_add, Nat.mod_mul, Nat.add_comm, Nat.mul_comm]
  have hnum : number a.bit v (p - v) = number a.bit v (32 - w) * 2 ^ (p - v - (32 - w)) +
      number a.bit (v + (32 - w)) (p - v - (32 - w)) := by
    conv_lhs => rw [hsum]
    exact number_add _ _ _ _
  have hlt := number_lt a.bit (v + (32 - w)) (p - v - (32 - w))
  simp only [EaSplit, BitVec.toNat_ofNat]
  rw [Nat.mod_eq_of_lt (h2.trans_le hpow'), Nat.mod_eq_of_lt (h1.trans_le hpow),
    Nat.mod_eq_of_lt (by omega : p - v - (32 - w) < 2 ^ 16), hx, hnum]
  constructor
  · rintro ⟨hs, hp, -⟩
    rw [hs, hp]
  · intro h
    have hdiv := congrArg (· / 2 ^ (p - v - (32 - w))) h
    have hmod := congrArg (· % 2 ^ (p - v - (32 - w))) h
    simp only [Nat.mul_comm _ (2 ^ (p - v - (32 - w))), Nat.mul_add_div (Nat.two_pow_pos _),
      Nat.mul_add_mod, Nat.div_eq_of_lt h1, Nat.div_eq_of_lt hlt, Nat.mod_eq_of_lt h1,
      Nat.mod_eq_of_lt hlt, Nat.add_zero] at hdiv hmod
    exact ⟨hdiv, hmod, rfl⟩

/-- The code hits the EA bits: no empty IPv4 mask, no byte past the address, and
on a byte boundary nothing changes when the window slides to the end of its
last byte. -/
def EaExact (a : Bytes 16) (p v w : ℕ) (out : EaOutputs) : Prop :=
  if p = v then out = ⟨0#16, 0#16, 0#32⟩
  else w < 32 ∧
    if v % 8 = 0 then
      ∀ j < p - v, a.bit (v + (8 * ((p - v + 7) / 8) - (p - v)) + j) = a.bit (v + j)
    else v / 8 + (p - v + 7) / 8 ≤ 15

instance (a : Bytes 16) (p v w : ℕ) (out : EaOutputs) : Decidable (EaExact a p v w out) := by
  unfold EaExact
  infer_instance

private theorem split_iff_word (a : Bytes 16) (e : Option (BitVec 64))
    (hw : w.toNat ≤ 32) (hfit : 32 - w.toNat ≤ p.toNat - v.toNat)
    (hpsid : p.toNat - v.toNat - (32 - w.toNat) ≤ 16) :
    (∃ out', e.bind (fun x => if w.toNat = 32 then none else
        some (ReturnStatus.STATUS_SUCCESS,
          { pPsid := BitVec.ofNat 16 (x.toNat % 2 ^ (p.toNat - v.toNat - (32 - w.toNat)))
            pPsidLen := BitVec.ofNat 16 (p.toNat - v.toNat - (32 - w.toNat))
            pIPv4Suffix := BitVec.ofNat 32
              (x.toNat / 2 ^ (p.toNat - v.toNat - (32 - w.toNat)) % 2 ^ (32 - w.toNat)) })) =
          some (.STATUS_SUCCESS, out') ∧ EaSplit a p.toNat v.toNat w.toNat out') ↔
      w.toNat < 32 ∧ ∃ x, e = some x ∧
        x.toNat % 2 ^ (p.toNat - v.toNat) = number a.bit v.toNat (p.toNat - v.toNat) := by
  cases e with
  | none => simp
  | some x =>
    by_cases hw32 : w.toNat = 32
    · simp [hw32]
    · simp only [Option.bind_some, if_neg hw32, Option.some.injEq, Prod.mk.injEq, true_and,
        exists_eq_left']
      rw [eaSplit_iff a x.toNat hw hfit hpsid]
      exact ⟨fun h => ⟨by omega, h⟩, fun h => h.2⟩

/-- The split is computed exactly when the word built from whole bytes ends
where the EA bits end. -/
theorem cosaDmlMaptComputePsidAndIPv4Suffix_split_iff (hpton : inet_pton6 t = some octets)
    (hvp : v.toNat ≤ p.toNat) (hp : p.toNat ≤ 128) (hw : w.toNat ≤ 32)
    (hfit : 32 - w.toNat ≤ p.toNat - v.toNat) (hea : p.toNat - v.toNat ≤ 48)
    (hpsid : p.toNat - v.toNat - (32 - w.toNat) ≤ 16) :
    (∃ out', cosaDmlMaptComputePsidAndIPv4Suffix t p v w out = some (.STATUS_SUCCESS, out') ∧
      EaSplit (in6Addr octets) p.toNat v.toNat w.toNat out') ↔
    EaExact (in6Addr octets) p.toNat v.toNat w.toNat out := by
  unfold EaExact
  by_cases hpv : p.toNat = v.toNat
  · have hw32 : 32 - w.toNat = 0 := by omega
    rw [if_pos hpv, compute_of_no_ea out hpton (BitVec.toNat_inj.mp hpv)]
    simp only [Option.some.injEq, Prod.mk.injEq, true_and, exists_eq_left', EaSplit, hpv, hw32,
      Nat.sub_self, number]
    constructor
    · rintro ⟨h1, h2, h3⟩
      cases out
      simp_all [← BitVec.toNat_inj]
    · intro h
      subst h
      exact ⟨rfl, rfl, rfl⟩
  have hlt : v.toNat < p.toNat := by omega
  rw [if_neg hpv, compute_of_ea out hpton hlt hea hw hfit hpsid,
    split_iff_word (in6Addr octets) _ hw hfit hpsid]
  refine and_congr_right (fun _ => ?_)
  have heaLen := eaLen_toNat hvp hea
  by_cases hs : v.toNat % 8 = 0
  · obtain ⟨x, hx, hnum⟩ := @eaBytes_aligned v ((p - v).setWidth 8)
      (in6Addr octets) (by omega) (by omega) (by omega) hs
    rw [if_pos hs, hx, ← number_eq_iff]
    simp only [Option.some.injEq, exists_eq_left', hnum, heaLen]
    have hwindow : number (in6Addr octets).bit v.toNat (8 * ((p.toNat - v.toNat + 7) / 8)) %
        2 ^ (p.toNat - v.toNat) = number (in6Addr octets).bit
          (v.toNat + (8 * ((p.toNat - v.toNat + 7) / 8) - (p.toNat - v.toNat)))
          (p.toNat - v.toNat) := by
      rw [← number_mod]
      congr 2
      omega
    rw [hwindow]
  · rw [if_neg hs]
    by_cases hlast : v.toNat / 8 + (p.toNat - v.toNat + 7) / 8 ≤ 15
    · obtain ⟨x, hx, hnum⟩ := @eaBytes_unaligned v ((p - v).setWidth 8)
        (in6Addr octets) (by omega) (by omega) (by omega) hs (by omega)
      refine iff_of_true ⟨x, hx, ?_⟩ hlast
      rw [hnum, heaLen, number_mod]
      congr 1
      omega
    · rw [@eaBytes_of_last v ((p - v).setWidth 8) (in6Addr octets) (by omega) hs
        (by omega)]
      simp [hlast]

end Split

/-- A /44 rule, a /56 delegation and a /24 IPv4 prefix are split right. -/
theorem cosaDmlMaptComputePsidAndIPv4Suffix_split_44 :
    ∃ out', cosaDmlMaptComputePsidAndIPv4Suffix "2001:db8:1234:5600::".toList 56#16 44#16 24#16
        ⟨0#16, 0#16, 0#32⟩ = some (.STATUS_SUCCESS, out') ∧
      EaSplit (in6Addr [0x20, 0x01, 0x0d, 0xb8, 0x12, 0x34, 0x56, 0, 0, 0, 0, 0, 0, 0, 0, 0])
        56 44 24 out' :=
  (cosaDmlMaptComputePsidAndIPv4Suffix_split_iff (t := "2001:db8:1234:5600::".toList)
    (p := 56#16) (v := 44#16) (w := 24#16) ⟨0#16, 0#16, 0#32⟩ (by decide) (by decide)
    (by decide) (by decide) (by decide) (by decide) (by decide)).mpr (by decide)

/-- A /32 rule with 14 EA bits: the gathered 16 bits are not shifted down. -/
theorem cosaDmlMaptComputePsidAndIPv4Suffix_missing_shift :
    ¬ ∀ (t : CStr) (octets : List ℕ) (p v w : BitVec 16) (out : EaOutputs),
      inet_pton6 t = some octets → v.toNat ≤ p.toNat → p.toNat ≤ 128 → w.toNat ≤ 32 →
      32 - w.toNat ≤ p.toNat - v.toNat → p.toNat - v.toNat ≤ 48 →
      p.toNat - v.toNat - (32 - w.toNat) ≤ 16 →
      ∃ out', cosaDmlMaptComputePsidAndIPv4Suffix t p v w out = some (.STATUS_SUCCESS, out') ∧
        EaSplit (in6Addr octets) p.toNat v.toNat w.toNat out' := by
  intro h
  obtain ⟨out', hout, hsuffix, -⟩ := h "2001:db8:1200::".toList
    [0x20, 0x01, 0x0d, 0xb8, 0x12, 0, 0, 0, 0, 0, 0, 0, 0, 0, 0, 0] 46#16 32#16 24#16
    ⟨0#16, 0#16, 0#32⟩ (by decide) (by decide) (by decide) (by decide) (by decide) (by decide)
    (by decide)
  have hval : (cosaDmlMaptComputePsidAndIPv4Suffix "2001:db8:1200::".toList 46#16 32#16 24#16
      ⟨0#16, 0#16, 0#32⟩).map (fun r => r.2.pIPv4Suffix.toNat) = some 0x48 := by
    decide
  rw [hout, Option.map_some, Option.some.injEq, hsuffix] at hval
  revert hval
  decide

end CcspPandM.MaptEaBits
