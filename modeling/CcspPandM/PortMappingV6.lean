import CcspPandM.PrefixMatch

/-!
Which IPv6 addresses a port mapping may name. The address must not be one of the
WAN side and must be in the prefix of the LAN; the test compares whole bytes with
`memcmp` and the rest after a shift of one `char`, whose sign is the platform's.
A byte read outside a buffer has no value.
-/
namespace CcspPandM.PortMappingV6

open CString BitWindow PrefixMatch PrefixText ScanText

/-- `*p >> n`, the character taken as an `int`. -/
def charShift (signed : Bool) (b : BitVec 8) (n : ℕ) : ℤ :=
  (if signed then b.toInt else (b.toNat : ℤ)) >>> n

/-- The last whole `char` of the prefix is `i`; `nbits` may be negative. -/
def compare_last_byte {n : ℕ} (signed : Bool) (a b : Bytes n) (i : ℕ) (nbits : ℤ) : Option Bool :=
  if nbits = 0 then some true
  else do
    let x ← a.read i
    let y ← b.read i
    some (charShift signed x (8 - nbits).toNat == charShift signed y (8 - nbits).toNat)

/-- The test on two buffers. `memcmp` takes its length as a `size_t` and may read
all of it. -/
def prefixTest {n : ℕ} (signed : Bool) ( ipv6_prefix ipv6_address : Bytes n) (size : ℤ) :
    Option Bool :=
  let len := (BitVec.ofInt 32 (size.tdiv 8)).toNat
  if n < len then none
  else if ∀ k < len, ipv6_prefix.byteAt k = ipv6_address.byteAt k then
    compare_last_byte signed ipv6_prefix ipv6_address len (size.tmod 8)
  else some false

/-- The text in front of the first slash and the number behind it; `atoi` is that of
a 32-bit `long`. -/
def get_prefix ( in_prefix : CStr) : Option (CStr × ℤ) :=
  if '/' ∈ in_prefix then
    some ( in_prefix.takeWhile (· ≠ '/'),
      (sscanf_d ( in_prefix.dropWhile (· ≠ '/')).tail 0).toInt)
  else none

structure Ipv6AddrInfo where
  v6addr : CStr
  isGlobal : Bool

/-- The loop over the WAN addresses; a text that is no address leaves `wan_ip6`. -/
def sameAsWan (ipv6_address : Bytes 16) : Bytes 16 → List Ipv6AddrInfo → Bool
  | _, [] => false
  | wan_ip6, p :: rest =>
    if p.isGlobal then
      let wan_ip6 := (in6Addr p.v6addr).getD wan_ip6
      if wan_ip6 = ipv6_address then true else sameAsWan ipv6_address wan_ip6 rest
    else sameAsWan ipv6_address wan_ip6 rest

def inBuffer (n : ℕ) (a : Bytes 16) : Bytes n := fun k => a.byteAt k.val

/-- `IPADDR_SZ` is the size of the buffers; no prefix stands for a failed
`Utopia_Init`. -/
def CosaDmlNatChkPortMappingIPV6Address (IPADDR_SZ : ℕ) (signed : Bool)
    (p_v6addr : List Ipv6AddrInfo) ( ipv6_prefix : Option CStr) (address : CStr) : Option Bool :=
  if address.head? = some 'x' then some true
  else match in6Addr address with
    | none => some false
    | some ipv6_address =>
      if sameAsWan ipv6_address Bytes.zero p_v6addr then some false
      else match ipv6_prefix with
        | none => some false
        | some in_prefix => match get_prefix in_prefix with
          | none => some true
          | some (text, size) =>
            prefixTest signed (inBuffer IPADDR_SZ ((in6Addr text).getD Bytes.zero))
              (inBuffer IPADDR_SZ ipv6_address) size

variable {m : ℕ}

section Shift

theorem charShift_eq_iff (signed : Bool) (x y : BitVec 8) (hm : m < 8) (hpos : 0 < m) :
    charShift signed x (8 - m) = charShift signed y (8 - m) ↔
      ∀ i < m, x.getMsbD i = y.getMsbD i := by
  cases signed with
  | false =>
    have hshift : ∀ z : BitVec 8, charShift false z (8 - m) = ((z >>> (8 - m)).toNat : ℤ) := by
      intro z
      rw [BitVec.toNat_ushiftRight]
      rfl
    rw [hshift, hshift, Int.ofNat_inj, BitVec.toNat_inj, byte_eq_iff]
    simp only [BitVec.getMsbD_ushiftRight]
    constructor
    · intro h i hi
      have hat := h (8 - m + i) (by omega)
      simpa [show 8 - m + i < 8 by omega, show 8 - m + i - (8 - m) = i by omega] using hat
    · intro h i hi
      by_cases hlow : i < 8 - m
      · simp [hlow]
      · simp [hlow, h (i - (8 - m)) (by omega)]
  | true =>
    have hshift : ∀ z : BitVec 8, charShift true z (8 - m) = (z.sshiftRight (8 - m)).toInt := by
      intro z
      rw [BitVec.toInt_sshiftRight]
      rfl
    rw [hshift, hshift, BitVec.toInt_inj, byte_eq_iff]
    simp only [BitVec.getMsbD_sshiftRight]
    constructor
    · intro h i hi
      have hat := h (8 - m + i) (by omega)
      simpa [show 8 - m + i < 8 by omega, show 8 - m + i - (8 - m) = i by omega] using hat
    · intro h i hi
      by_cases hlow : i < 8 - m
      · have hmsb := h 0 hpos
        simpa [hlow, hi, BitVec.msb] using hmsb
      · simp [hlow, hi, h (i - (8 - m)) (by omega)]

end Shift

variable {n : ℕ}

section Test

instance (a b : Bytes 16) (n : ℕ) : Decidable (SameBits a b n) :=
  inferInstanceAs (Decidable (∀ j < n, a.bit j = b.bit j))

variable (signed : Bool) (a b : Bytes 16)

theorem sameBits_comm (n : ℕ) : SameBits a b n ↔ SameBits b a n :=
  ⟨fun h j hj => (h j hj).symm, fun h j hj => (h j hj).symm⟩

theorem prefixTest_natCast (hn : n < 2 ^ 31) :
    prefixTest signed a b n = if 16 < n / 8 then none
      else if ∀ k < n / 8, a.byteAt k = b.byteAt k then
        compare_last_byte signed a b (n / 8) ((n % 8 : ℕ) : ℤ)
      else some false := by
  have hdiv : (n : ℤ).tdiv 8 = ((n / 8 : ℕ) : ℤ) := rfl
  have hmod : (n : ℤ).tmod 8 = ((n % 8 : ℕ) : ℤ) := rfl
  have hlen : (BitVec.ofInt 32 ((n / 8 : ℕ) : ℤ)).toNat = n / 8 := by
    rw [BitVec.ofInt_natCast, BitVec.toNat_ofNat]
    omega
  simp only [prefixTest, hdiv, hmod, hlen]

theorem compare_last_byte_of_lt {i : ℕ} (hi : i < 16) (hm : m < 8) :
    ∃ r, compare_last_byte signed a b i (m : ℕ) = some r ∧
      (r = true ↔ ∀ j < m, (a.byteAt i).getMsbD j = (b.byteAt i).getMsbD j) := by
  by_cases hzero : m = 0
  · subst hzero
    exact ⟨true, rfl, iff_of_true rfl (fun j hj => absurd hj (Nat.not_lt_zero j))⟩
  · refine ⟨charShift signed (a.byteAt i) (8 - (m : ℤ)).toNat ==
      charShift signed (b.byteAt i) (8 - (m : ℤ)).toNat, ?_, ?_⟩
    · rw [compare_last_byte, if_neg (by omega), Bytes.read_of_lt a hi, Bytes.read_of_lt b hi]
      rfl
    · rw [show (8 - (m : ℤ)).toNat = 8 - m by omega, beq_iff_eq,
        charShift_eq_iff signed _ _ hm (by omega)]

theorem prefixTest_le (hn : n ≤ 128) :
    ∃ r, prefixTest signed a b n = some r ∧ (r = true ↔ SameBits a b n) := by
  rw [prefixTest_natCast signed a b (by omega), if_neg (by omega), sameBits_iff]
  by_cases hbytes : ∀ k < n / 8, a.byteAt k = b.byteAt k
  · rw [if_pos hbytes, and_iff_right hbytes]
    by_cases hfull : n = 128
    · subst hfull
      exact ⟨true, rfl, iff_of_true rfl (fun j hj => absurd hj (by omega))⟩
    · exact compare_last_byte_of_lt signed a b (by omega) (by omega)
  · rw [if_neg hbytes]
    exact ⟨false, rfl, iff_of_false (by decide) (fun h => hbytes h.1)⟩

theorem sameBits_128_iff : SameBits a b 128 ↔ ∀ k < 16, a.byteAt k = b.byteAt k := by
  rw [sameBits_iff]
  exact and_iff_left (fun i hi => absurd hi (by omega))

theorem prefixTest_gt (hn : 128 < n) (hint : n < 2 ^ 31) :
    prefixTest signed a b n = if n < 136 ∧ ¬ SameBits a b 128 then some false else none := by
  have hsame := sameBits_128_iff a b
  rw [prefixTest_natCast signed a b hint]
  by_cases hlong : 16 < n / 8
  · rw [if_pos hlong, if_neg (by omega)]
  · have h16 : n / 8 = 16 := by omega
    rw [if_neg hlong, h16]
    by_cases hbytes : ∀ k < 16, a.byteAt k = b.byteAt k
    · rw [if_pos hbytes, if_neg (fun h => h.2 (hsame.mpr hbytes)),
        compare_last_byte, if_neg (by omega), Bytes.read_of_le a (le_refl 16)]
      rfl
    · rw [if_neg hbytes, if_pos ⟨by omega, mt hsame.mp hbytes⟩]

theorem prefixTest_neg (hm : 8 ≤ m) (hint : m ≤ 2 ^ 31) :
    prefixTest signed a b (-(m : ℤ)) = none := by
  have hdiv : (-(m : ℤ)).tdiv 8 = -((m / 8 : ℕ) : ℤ) := Int.neg_tdiv _ _
  have hlen : (BitVec.ofInt 32 (-((m / 8 : ℕ) : ℤ))).toNat = 2 ^ 32 - m / 8 := by
    rw [BitVec.toNat_ofInt]
    omega
  simp only [prefixTest, hdiv, hlen]
  exact if_pos (by omega)

theorem prefixTest_inBuffer (hn : 16 ≤ n) {size : ℤ} {r : Bool}
    (h : prefixTest signed a b size = some r) :
    prefixTest signed (inBuffer n a) (inBuffer n b) size = some r := by
  have hbyte : ∀ (c : Bytes 16) k, (inBuffer n c).byteAt k = c.byteAt k := by
    intro c k
    by_cases hk : k < n
    · simp [inBuffer, Bytes.byteAt, hk]
    · rw [Bytes.byteAt_of_le _ (by omega), Bytes.byteAt_of_le _ (by omega)]
  have hread : ∀ (c : Bytes 16) k x, c.read k = some x → (inBuffer n c).read k = some x := by
    intro c k x hx
    by_cases hk : k < 16
    · rw [Bytes.read_of_lt _ hk, Option.some.injEq] at hx
      rw [Bytes.read_of_lt _ (by omega), hbyte, hx]
    · rw [Bytes.read_of_le _ (by omega)] at hx
      cases hx
  unfold prefixTest at h ⊢
  dsimp only at h ⊢
  by_cases hlen : 16 < (BitVec.ofInt 32 (size.tdiv 8)).toNat
  · rw [if_pos hlen] at h
    cases h
  · rw [if_neg hlen] at h
    rw [if_neg (by omega)]
    simp only [hbyte]
    by_cases hbytes : ∀ k < (BitVec.ofInt 32 (size.tdiv 8)).toNat, a.byteAt k = b.byteAt k
    · rw [if_pos hbytes] at h ⊢
      unfold compare_last_byte at h ⊢
      by_cases hbits : size.tmod 8 = 0
      · rwa [if_pos hbits] at h ⊢
      · rw [if_neg hbits, Option.bind_eq_bind, Option.bind_eq_some_iff] at h
        obtain ⟨x, hx, h⟩ := h
        obtain ⟨y, hy, h⟩ := Option.bind_eq_some_iff.mp h
        rw [if_neg hbits, hread a _ x hx, hread b _ y hy]
        exact h
    · rwa [if_neg hbytes] at h ⊢

end Test

section Texts

/-- The addresses of the WAN side can be read, and none that is global is this one. -/
def Elsewhere (a : Bytes 16) (p_v6addr : List Ipv6AddrInfo) : Prop :=
  ∀ p ∈ p_v6addr, p.isGlobal = true → ∃ w, in6Addr p.v6addr = some w ∧ w ≠ a

theorem sameAsWan_eq_false {a wan_ip6 : Bytes 16} {p_v6addr : List Ipv6AddrInfo}
    (h : Elsewhere a p_v6addr) : sameAsWan a wan_ip6 p_v6addr = false := by
  induction p_v6addr generalizing wan_ip6 with
  | nil => rfl
  | cons p rest ih =>
    have hrest := fun w => @ih w (fun q hq => h q (List.mem_cons_of_mem p hq))
    unfold sameAsWan
    by_cases hglobal : p.isGlobal = true
    · obtain ⟨w, hw, hne⟩ := h p List.mem_cons_self hglobal
      simp only [hglobal, if_true, hw, Option.getD_some, if_neg hne]
      exact hrest w
    · rw [if_neg hglobal]
      exact hrest wan_ip6

theorem head_of_in6Addr {t : CStr} {a : Bytes 16} (h : in6Addr t = some a) :
    t.head? ≠ some 'x' := by
  intro hx
  cases t with
  | nil => cases hx
  | cons c t =>
    obtain rfl := Option.some.inj hx
    cases h

theorem get_prefix_of_split {v6pre pref_buf : CStr} {pref_len : ℤ}
    (h : splitPrefix v6pre = .ok (pref_buf, pref_len)) :
    get_prefix v6pre = some (pref_buf, pref_len) := by
  unfold splitPrefix at h
  by_cases hslash : '/' ∈ v6pre
  · rw [if_pos hslash] at h
    cases hscan : scanNumber (v6pre.dropWhile (· ≠ '/')).tail with
    | none =>
      simp only [hscan] at h
      cases h
    | some v =>
      simp only [hscan, Except.ok.injEq, Prod.mk.injEq] at h
      rw [ get_prefix, if_pos hslash, h.1, h.2]
  · rw [if_neg hslash] at h
    cases h

theorem pref_len_bounds {v6pre : CStr} {b : Bytes 16} {pref_len : ℤ}
    (h : Denotes v6pre b pref_len) : -(2 ^ 31) ≤ pref_len ∧ pref_len < 2 ^ 31 := by
  obtain ⟨-, pref_buf, hsplit, -⟩ := h
  have hprefix := get_prefix_of_split hsplit
  unfold get_prefix at hprefix
  by_cases hslash : '/' ∈ v6pre
  · rw [if_pos hslash, Option.some.injEq, Prod.mk.injEq] at hprefix
    rw [← hprefix.2]
    exact ⟨BitVec.le_toInt _, BitVec.toInt_lt⟩
  · rw [if_neg hslash] at hprefix
    cases hprefix

variable {t v6pre : CStr} {a b : Bytes 16} {pref_len : ℤ}

theorem checked_eq (ha : in6Addr t = some a) (hpre : Denotes v6pre b pref_len)
    {p_v6addr : List Ipv6AddrInfo} (hwan : Elsewhere a p_v6addr) (IPADDR_SZ : ℕ) (signed : Bool) :
    CosaDmlNatChkPortMappingIPV6Address IPADDR_SZ signed p_v6addr (some v6pre) t =
      prefixTest signed (inBuffer IPADDR_SZ b) (inBuffer IPADDR_SZ a) pref_len := by
  obtain ⟨-, pref_buf, hsplit, hb⟩ := hpre
  unfold CosaDmlNatChkPortMappingIPV6Address
  rw [if_neg (head_of_in6Addr ha)]
  simp only [ha, sameAsWan_eq_false hwan, Bool.false_eq_true, if_false,
    get_prefix_of_split hsplit, hb, Option.getD_some]

theorem mismatches_eq (ha : in6Addr t = some a) (hpre : Denotes v6pre b pref_len) :
    v6addrMismatchesV6pre (some t) (some v6pre) = compareAddr a b pref_len := by
  obtain ⟨hlen, pref_buf, hsplit, hb⟩ := hpre
  have ht := in6Addr_length ha
  rw [v6addrMismatchesV6pre, if_neg (by omega), hsplit]
  exact v6addrMismatch_eq ha hb pref_len

theorem compareAddr_small_neg (a b : Bytes 16) (hpos : 0 < m) (hm : m < 8) :
    compareAddr a b (-(m : ℤ)) = some 0 := by
  have hmod : (-(m : ℤ)).tmod 8 = -((m % 8 : ℕ) : ℤ) := Int.neg_tmod _ _
  have hdiv : (-(m : ℤ)).tdiv 8 = -((m / 8 : ℕ) : ℤ) := Int.neg_tdiv _ _
  have hnat : (-((m / 8 : ℕ) : ℤ) + 1 - 1).toNat = 0 := by omega
  have hrounds : (-((m % 8 : ℕ) : ℤ)).toNat = 0 := by omega
  have hmask : maskOf 0 = 0#8 := rfl
  rw [compareAddr, hmod, hdiv, if_pos (by omega)]
  simp only [hnat, hrounds, hmask]
  rw [show bytesDiffer a b 0 0 = some false from rfl]
  simp only [Option.bind_eq_bind, Option.bind_some, Bool.false_eq_true, if_false]
  rw [if_neg (by omega), Bytes.read_of_lt a (by decide), Bytes.read_of_lt b (by decide)]
  simp

theorem compareAddr_differ {a b : Bytes 16} (hne : ¬ SameBits a b 128) (hn : 128 < n) :
    compareAddr a b n ≠ some 0 := by
  rw [← sameBytes_iff a b (q := n / 8) (by omega)] at hne
  rw [compareAddr_natCast]
  rcases bytesDiffer_cases a b 0 (n / 8) with ⟨hres, -⟩ | ⟨-, -, hsame⟩ | ⟨-, -, -, hsame⟩
  · rw [hres]
    split <;> exact fun h => absurd (Option.some.inj h) (by decide)
  · exact absurd hsame hne
  · exact absurd hsame hne

/-- The test reads the two addresses only and accepts what the other comparison does not
find to mismatch, which is what agrees in the first bits, for a length that an address has. -/
def Agrees (IPADDR_SZ : ℕ) (signed : Bool) (p_v6addr : List Ipv6AddrInfo) (t v6pre : CStr)
    (a b : Bytes 16) (pref_len : ℤ) : Prop :=
  (prefixTest signed b a pref_len).isSome ∧
    ∃ r, CosaDmlNatChkPortMappingIPV6Address IPADDR_SZ signed p_v6addr (some v6pre) t = some r ∧
      (r = true ↔ v6addrMismatchesV6pre (some t) (some v6pre) = some 0) ∧
      (r = true ↔ (0 ≤ pref_len ∧ pref_len ≤ 128) ∧ SameBits a b pref_len.toNat)

/-- The two comparisons of a prefix agree for the lengths that an address has, and for
a few longer ones as long as the addresses differ. -/
theorem prefix_tests_agree_iff (IPADDR_SZ : ℕ) (hsize : 16 ≤ IPADDR_SZ) (signed : Bool)
    (p_v6addr : List Ipv6AddrInfo) (t v6pre : CStr) (a b : Bytes 16) (pref_len : ℤ)
    (ha : in6Addr t = some a) (hpre : Denotes v6pre b pref_len) (hwan : Elsewhere a p_v6addr) :
    Agrees IPADDR_SZ signed p_v6addr t v6pre a b pref_len ↔
      (0 ≤ pref_len ∧ pref_len ≤ 128) ∨
        (128 < pref_len ∧ pref_len < 136) ∧ ¬ SameBits a b 128 := by
  obtain ⟨hlow, hhigh⟩ := pref_len_bounds hpre
  rw [Agrees, checked_eq ha hpre hwan, mismatches_eq ha hpre]
  by_cases hneg : pref_len < 0
  · obtain ⟨m, rfl⟩ : ∃ m : ℕ, pref_len = -(m : ℤ) := ⟨pref_len.natAbs, by omega⟩
    refine iff_of_false ?_ (by omega)
    rintro ⟨hreads, r, -, hr, hr'⟩
    by_cases hm : 8 ≤ m
    · rw [prefixTest_neg signed b a hm (by omega)] at hreads
      cases hreads
    · rw [compareAddr_small_neg a b (by omega) (by omega)] at hr
      have hrange := (hr'.mp (hr.mpr rfl)).1
      omega
  · obtain ⟨n, rfl⟩ : ∃ n : ℕ, pref_len = (n : ℤ) := ⟨pref_len.toNat, by omega⟩
    rw [Int.toNat_natCast]
    by_cases hle : n ≤ 128
    · refine iff_of_true ?_ (Or.inl (by omega))
      obtain ⟨r, hr, hsame⟩ := prefixTest_le signed b a hle
      obtain ⟨code, hcode, hzero⟩ := compareAddr_le a b hle
      have hrange : (0 : ℤ) ≤ n ∧ (n : ℤ) ≤ 128 := by omega
      rw [hr, hcode, Option.some.injEq, hzero, and_iff_right hrange]
      rw [sameBits_comm] at hsame
      exact ⟨rfl, r, prefixTest_inBuffer signed b a hsize hr, hsame, hsame⟩
    · have htest := prefixTest_gt signed b a (n := n) (by omega) (by omega)
      have hcomm := sameBits_comm a b 128
      constructor
      · rintro ⟨hreads, -⟩
        right
        by_contra hnot
        rw [htest, if_neg (fun h => hnot ⟨by omega, mt hcomm.mp h.2⟩)] at hreads
        cases hreads
      · rintro (h | ⟨h, hne⟩)
        · omega
        · rw [if_pos ⟨by omega, mt hcomm.mpr hne⟩] at htest
          refine ⟨by rw [htest]; rfl, false, prefixTest_inBuffer signed b a hsize htest, ?_, ?_⟩
          · exact iff_of_false (by decide) (compareAddr_differ hne (by omega))
          · exact iff_of_false (by decide) (fun h' => by omega)

def lanAddress : Bytes 16 :=
  ofOctets [0x20, 0x42, 0xca, 0xfe, 0, 0, 0, 7, 0, 0, 0, 0, 0, 0, 0, 5]

def lanPrefix : Bytes 16 := ofOctets [0x20, 0x42, 0xca, 0xfe, 0, 0, 0, 5]

theorem lan_texts : in6Addr "2042:cafe:0:7::5".toList = some lanAddress ∧
    in6Addr "2042:cafe:0:5::".toList = some lanPrefix ∧
    in6Addr "2001:db8::1".toList ≠ some lanAddress ∧ in6Addr "2001:db8::1".toList ≠ none := by
  repeat rw [String.toList_ofList]
  decide +kernel

/-- An address and a prefix of 61 bits of the LAN. -/
theorem prefix_tests_agree_61 :
    Agrees 64 false [⟨"2001:db8::1".toList, true⟩] "2042:cafe:0:7::5".toList
        "2042:cafe:0:5::/61".toList lanAddress lanPrefix 61 ↔
      ((0 : ℤ) ≤ 61 ∧ (61 : ℤ) ≤ 128) ∨
        ((128 : ℤ) < 61 ∧ (61 : ℤ) < 136) ∧ ¬ SameBits lanAddress lanPrefix 128 := by
  obtain ⟨haddress, hprefix, hwan, hread⟩ := lan_texts
  have hsplit : splitPrefix "2042:cafe:0:5::/61".toList = .ok ("2042:cafe:0:5::".toList, 61) := by
    decide
  refine prefix_tests_agree_iff 64 (by decide) false _ _ _ lanAddress lanPrefix 61 haddress
    ⟨by decide, _, hsplit, hprefix⟩ ?_
  intro p hp _
  rw [List.mem_singleton] at hp
  subst hp
  obtain ⟨w, hw⟩ := Option.ne_none_iff_exists'.mp hread
  exact ⟨w, hw, fun h => hwan (h ▸ hw)⟩

/-- With the length -1 every address is accepted. -/
theorem prefix_tests_disagree_neg :
    in6Addr "2042:cafe:0:7::5".toList = some lanAddress ∧
    Denotes "2042:cafe:0:5::/-1".toList lanPrefix (-1) ∧
    ¬ Agrees 64 false [] "2042:cafe:0:7::5".toList "2042:cafe:0:5::/-1".toList lanAddress lanPrefix
      (-1) := by
  obtain ⟨haddress, hprefix, -⟩ := lan_texts
  have hsplit : splitPrefix "2042:cafe:0:5::/-1".toList =
      .ok ("2042:cafe:0:5::".toList, -1) := by decide
  have hpre : Denotes "2042:cafe:0:5::/-1".toList lanPrefix (-1) :=
    ⟨by decide, _, hsplit, hprefix⟩
  have hwan : Elsewhere lanAddress [] := fun p hp => absurd hp List.not_mem_nil
  refine ⟨haddress, hpre, ?_⟩
  rintro ⟨-, r, hr, -, hrange⟩
  have haccepted : prefixTest false lanPrefix lanAddress (-1) = some true := by decide +kernel
  rw [checked_eq haddress hpre hwan, prefixTest_inBuffer _ _ _ (by omega) haccepted,
    Option.some.injEq] at hr
  have h := (hrange.mp hr.symm).1
  omega

end Texts

end CcspPandM.PortMappingV6
