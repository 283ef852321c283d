import CcspPandM.Ipv6Text
import CcspPandM.ScanText

/-!
The comparison of IPv6 addresses up to a prefix length. Whole bytes are compared
one by one and the last bits under a mask built in a loop. The length comes from
`sscanf` without a check, so the byte that is read last may lie outside the
address.
-/
namespace CcspPandM.PrefixMatch

open CString InetText BitWindow PrefixText ScanText

/-- `inet_pton(AF_INET6, t, ..)`. -/
def in6Addr (t : CStr) : Option (Bytes 16) := (inet_pton6 t).map ofOctets

def bytesDiffer (in6_addr1 in6_addr2 : Bytes 16) (i : ℕ) : ℕ → Option Bool
  | 0 => some false
  | n + 1 => do
    let x ← in6_addr1.read i
    let y ← in6_addr2.read i
    if x ≠ y then some true else bytesDiffer in6_addr1 in6_addr2 (i + 1) n

def maskOf (rounds : ℕ) : BitVec 8 :=
  BitVec.ofNat 8 ((List.range rounds).foldl (fun mask i => mask + 1 <<< (7 - i)) 0)

/-- `__v6addr_mismatch` on the two addresses. A read outside them has no
result. -/
def compareAddr (in6_addr1 in6_addr2 : Bytes 16) (pref_len : ℤ) : Option ℤ :=
  if pref_len.tmod 8 ≠ 0 then do
    let num := pref_len.tdiv 8 + 1
    if ← bytesDiffer in6_addr1 in6_addr2 0 (num - 1).toNat then some (-3)
    else if num - 1 < 0 then none
    else do
      let x ← in6_addr1.read (num - 1).toNat
      let y ← in6_addr2.read (num - 1).toNat
      let mask := maskOf (pref_len.tmod 8).toNat
      if x &&& mask = y &&& mask then some 0 else some (-4)
  else do
    let num := pref_len.tdiv 8
    if ← bytesDiffer in6_addr1 in6_addr2 0 num.toNat then some (-5) else some 0

def v6addrMismatch (addr1 addr2 : Option CStr) (pref_len : ℤ) : Option ℤ :=
  match addr1, addr2 with
  | some addr1, some addr2 =>
    if 128 ≤ addr1.length ∨ 128 ≤ addr2.length then some (-1)
    else match in6Addr addr1 with
      | none => some (-8)
      | some in6_addr1 => match in6Addr addr2 with
        | none => some (-9)
        | some in6_addr2 => compareAddr in6_addr1 in6_addr2 pref_len
  | _, _ => some (-1)

/-- The text before the first slash and the number that `sscanf` reads behind
it, or the code that is returned. -/
def splitPrefix (t : CStr) : Except ℤ (CStr × ℤ) :=
  if '/' ∈ t then
    let p := (t.dropWhile (· ≠ '/')).tail
    match scanNumber p with
    | none => .error (-2)
    | some _ => .ok (t.takeWhile (· ≠ '/'), (sscanf_d p 0).toInt)
  else .error (-1)

def v6addrMismatchesV6pre (v6addr v6pre : Option CStr) : Option ℤ :=
  match v6addr, v6pre with
  | some v6addr, some v6pre =>
    if 128 ≤ v6addr.length ∨ 128 ≤ v6pre.length then some (-1)
    else match splitPrefix v6pre with
      | .error code => some code
      | .ok (pref_buf, pref_len) => v6addrMismatch (some v6addr) (some pref_buf) pref_len
  | _, _ => some (-1)

def v6prefMismatches (v6pref1 v6pref2 : Option CStr) : Option ℤ :=
  match v6pref1, v6pref2 with
  | some v6pref1, some v6pref2 =>
    if 128 ≤ v6pref1.length ∨ 128 ≤ v6pref2.length then some (-1)
    else match splitPrefix v6pref1 with
      | .error code => some code
      | .ok (pref1_buf, pref1_len) => match splitPrefix v6pref2 with
        | .error code => some code
        | .ok (pref2_buf, pref2_len) =>
          if pref1_len ≠ pref2_len then some (-7)
          else v6addrMismatch (some pref1_buf) (some pref2_buf) pref1_len
  | _, _ => some (-1)

def cosaDmlV6AddrIsEqual (p_addr1 p_addr2 : Option CStr) : Option Bool :=
  if p_addr1 = none ∨ p_addr2 = none then some false
  else (v6addrMismatch p_addr1 p_addr2 128).map (· == 0)

def cosaDmlV6PrefIsEqual (p_pref1 p_pref2 : Option CStr) : Option Bool :=
  if p_pref1 = none ∨ p_pref2 = none then some false
  else (v6prefMismatches p_pref1 p_pref2).map (· == 0)

/-- The first n bits of the addresses agree. -/
def SameBits (a b : Bytes 16) (n : ℕ) : Prop := ∀ j < n, a.bit j = b.bit j

theorem byte_eq_iff (x y : BitVec 8) : x = y ↔ ∀ i < 8, x.getMsbD i = y.getMsbD i := by
  constructor
  · intro h i _
    rw [h]
  · intro h
    exact BitVec.eq_of_getMsbD_eq h

theorem bit_byte (a : Bytes 16) (i : ℕ) {j : ℕ} (hj : j < 8) :
    a.bit (8 * i + j) = (a.byteAt i).getMsbD j := by
  rw [Bytes.bit, show (8 * i + j) / 8 = i by omega, show (8 * i + j) % 8 = j by omega]

variable (a b : Bytes 16)

theorem sameBits_iff (n : ℕ) : SameBits a b n ↔
    (∀ k < n / 8, a.byteAt k = b.byteAt k) ∧
      ∀ i < n % 8, (a.byteAt (n / 8)).getMsbD i = (b.byteAt (n / 8)).getMsbD i := by
  constructor
  · intro h
    refine ⟨fun k hk => (byte_eq_iff _ _).mpr (fun i hi => ?_), fun i hi => ?_⟩
    · rw [← bit_byte a k hi, ← bit_byte b k hi]
      exact h _ (by omega)
    · rw [← bit_byte a _ (by omega), ← bit_byte b _ (by omega)]
      exact h _ (by omega)
  · rintro ⟨hbytes, hlast⟩ j hj
    rw [Bytes.bit, Bytes.bit]
    by_cases hk : j / 8 < n / 8
    · rw [hbytes _ hk]
    · rw [show j / 8 = n / 8 by omega]
      exact hlast _ (by omega)

theorem mask_eq_iff (x y : BitVec 8) {m : ℕ} (hm : m < 8) :
    x &&& maskOf m = y &&& maskOf m ↔ ∀ i < m, x.getMsbD i = y.getMsbD i := by
  have hmask : ∀ m < 8, ∀ i < 8, (maskOf m).getMsbD i = decide (i < m) := by decide +kernel
  rw [byte_eq_iff]
  constructor
  · intro h i hi
    have hat := h i (by omega)
    rw [BitVec.getMsbD_and, BitVec.getMsbD_and, hmask m hm i (by omega), decide_eq_true hi,
      Bool.and_true, Bool.and_true] at hat
    exact hat
  · intro h i hi
    rw [BitVec.getMsbD_and, BitVec.getMsbD_and, hmask m hm i hi]
    by_cases him : i < m
    · rw [h i him]
    · rw [decide_eq_false him, Bool.and_false, Bool.and_false]

theorem bytesDiffer_cases (i n : ℕ) :
    (bytesDiffer a b i n = some true ∧ ∃ k, i ≤ k ∧ k < i + n ∧ a.byteAt k ≠ b.byteAt k) ∨
    (bytesDiffer a b i n = some false ∧ (n = 0 ∨ i + n ≤ 16) ∧
      ∀ k, i ≤ k → k < i + n → a.byteAt k = b.byteAt k) ∨
    (bytesDiffer a b i n = none ∧ n ≠ 0 ∧ 16 < i + n ∧
      ∀ k, i ≤ k → k < i + n → a.byteAt k = b.byteAt k) := by
  induction n generalizing i with
  | zero => exact Or.inr (Or.inl ⟨rfl, Or.inl rfl, fun k h1 h2 => absurd h2 (by omega)⟩)
  | succ n ih =>
    by_cases hi : i < 16
    · rw [bytesDiffer, Bytes.read_of_lt a hi, Bytes.read_of_lt b hi]
      simp only [Option.bind_eq_bind, Option.bind_some]
      by_cases heq : a.byteAt i = b.byteAt i
      · rw [if_neg (not_not.mpr heq)]
        have hall : (∀ k, i + 1 ≤ k → k < i + 1 + n → a.byteAt k = b.byteAt k) →
            ∀ k, i ≤ k → k < i + (n + 1) → a.byteAt k = b.byteAt k := by
          intro h k h1 h2
          rcases Nat.eq_or_lt_of_le h1 with rfl | hlt
          · exact heq
          · exact h k hlt (by omega)
        rcases ih (i + 1) with ⟨hres, k, h1, h2, hne⟩ | ⟨hres, hroom, h⟩ | ⟨hres, -, hout, h⟩
        · exact Or.inl ⟨hres, k, by omega, by omega, hne⟩
        · exact Or.inr (Or.inl ⟨hres, Or.inr (by omega), hall h⟩)
        · exact Or.inr (Or.inr ⟨hres, by omega, by omega, hall h⟩)
      · rw [if_pos heq]
        exact Or.inl ⟨rfl, i, Nat.le_refl i, by omega, heq⟩
    · refine Or.inr (Or.inr ⟨?_, by omega, by omega, fun k h1 _ => ?_⟩)
      · rw [bytesDiffer, Bytes.read_of_le a (by omega)]
        rfl
      · rw [Bytes.byteAt_of_le a (by omega), Bytes.byteAt_of_le b (by omega)]

/-- The comparison reads no byte outside the addresses. -/
def Stays (a b : Bytes 16) (pref_len : ℤ) : Prop :=
  (-8 ≤ pref_len ∧ pref_len ≤ 128) ∨ (pref_len < 0 ∧ 8 ∣ pref_len) ∨
    (128 < pref_len ∧ ¬ SameBits a b 128)

theorem compareAddr_natCast (n : ℕ) : compareAddr a b n =
    if n % 8 ≠ 0 then
      (bytesDiffer a b 0 (n / 8)).bind (fun differ => if differ then some (-3)
        else (a.read (n / 8)).bind (fun x => (b.read (n / 8)).bind (fun y =>
          if x &&& maskOf (n % 8) = y &&& maskOf (n % 8) then some 0 else some (-4))))
    else (bytesDiffer a b 0 (n / 8)).bind (fun differ => if differ then some (-5) else some 0) := by
  have hmod : (n : ℤ).tmod 8 = ((n % 8 : ℕ) : ℤ) := rfl
  have hdiv : (n : ℤ).tdiv 8 = ((n / 8 : ℕ) : ℤ) := rfl
  have hnum : ((n / 8 : ℕ) : ℤ) + 1 - 1 = ((n / 8 : ℕ) : ℤ) := by omega
  have hneg : ¬ ((n / 8 : ℕ) : ℤ) < 0 := by omega
  simp only [compareAddr, hmod, hdiv, hnum, Int.toNat_natCast, if_neg hneg, ne_eq,
    Int.natCast_eq_zero, Option.bind_eq_bind]

theorem compareAddr_le {n : ℕ} (hn : n ≤ 128) :
    ∃ code, compareAddr a b n = some code ∧ (code = 0 ↔ SameBits a b n) := by
  rw [compareAddr_natCast, sameBits_iff]
  rcases bytesDiffer_cases a b 0 (n / 8) with ⟨hres, k, -, hk, hne⟩ | ⟨hres, -, hsame⟩ |
    ⟨hres, -, hout, -⟩
  · have hno : ¬ ((∀ k < n / 8, a.byteAt k = b.byteAt k) ∧
        ∀ i < n % 8, (a.byteAt (n / 8)).getMsbD i = (b.byteAt (n / 8)).getMsbD i) :=
      fun h => hne (h.1 k (by omega))
    rw [hres]
    split
    · exact ⟨-3, rfl, iff_of_false (by decide) hno⟩
    · exact ⟨-5, rfl, iff_of_false (by decide) hno⟩
  · have hbytes : ∀ k < n / 8, a.byteAt k = b.byteAt k := fun k hk => hsame k (by omega) (by omega)
    rw [hres, and_iff_right hbytes]
    split
    · next hmod =>
      have hlt : n / 8 < 16 := by omega
      rw [Bytes.read_of_lt a hlt, Bytes.read_of_lt b hlt, ← mask_eq_iff _ _ (by omega)]
      simp only [Option.bind_some, Bool.false_eq_true, if_false]
      split
      · next hmask => exact ⟨0, rfl, iff_of_true rfl hmask⟩
      · next hmask => exact ⟨-4, rfl, iff_of_false (by decide) hmask⟩
    · next hmod =>
      refine ⟨0, rfl, iff_of_true rfl (fun i hi => ?_)⟩
      rw [not_not] at hmod
      omega
  · omega

theorem sameBytes_iff {q : ℕ} (hq : 16 ≤ q) :
    (∀ k, 0 ≤ k → k < 0 + q → a.byteAt k = b.byteAt k) ↔ SameBits a b 128 := by
  rw [sameBits_iff]
  constructor
  · intro h
    exact ⟨fun k hk => h k (Nat.zero_le k) (by omega), fun i hi => absurd hi (by omega)⟩
  · rintro ⟨h, -⟩ k - -
    by_cases hk : k < 16
    · exact h k hk
    · rw [Bytes.byteAt_of_le a (by omega), Bytes.byteAt_of_le b (by omega)]

theorem compareAddr_gt {n : ℕ} (hn : 128 < n) :
    (∃ code, compareAddr a b n = some code) ↔ ¬ SameBits a b 128 := by
  rw [compareAddr_natCast, ← sameBytes_iff a b (q := n / 8) (by omega)]
  rcases bytesDiffer_cases a b 0 (n / 8) with ⟨hres, k, h1, h2, hne⟩ | ⟨hres, hroom, hsame⟩ |
    ⟨hres, -, -, hsame⟩
  · refine iff_of_true ?_ (fun h => hne (h k h1 h2))
    rw [hres]
    split
    · exact ⟨-3, rfl⟩
    · exact ⟨-5, rfl⟩
  · refine iff_of_false ?_ (not_not.mpr hsame)
    rw [hres, if_pos (by omega), show n / 8 = 16 by omega]
    rintro ⟨code, hcode⟩
    cases hcode
  · refine iff_of_false ?_ (not_not.mpr hsame)
    rw [hres]
    rintro ⟨code, hcode⟩
    split at hcode
    · cases hcode
    · cases hcode

theorem compareAddr_neg {m : ℕ} (hm : 0 < m) :
    (∃ code, compareAddr a b (-(m : ℤ)) = some code) ↔ m ≤ 8 ∨ m % 8 = 0 := by
  have hmod : (-(m : ℤ)).tmod 8 = -((m % 8 : ℕ) : ℤ) := Int.neg_tmod _ _
  have hdiv : (-(m : ℤ)).tdiv 8 = -((m / 8 : ℕ) : ℤ) := Int.neg_tdiv _ _
  by_cases h8 : m % 8 = 0
  · refine iff_of_true ⟨0, ?_⟩ (Or.inr h8)
    have hnat : (-((m / 8 : ℕ) : ℤ)).toNat = 0 := by omega
    rw [compareAddr, hmod, hdiv, h8, if_neg (by simp)]
    simp only [hnat]
    rfl
  · have hnat : (-((m / 8 : ℕ) : ℤ) + 1 - 1).toNat = 0 := by omega
    rw [compareAddr, hmod, hdiv, if_pos (by omega)]
    simp only [hnat]
    rw [show bytesDiffer a b 0 0 = some false from rfl]
    simp only [Option.bind_eq_bind, Option.bind_some, Bool.false_eq_true, if_false]
    by_cases hlt : m < 8
    · refine iff_of_true ?_ (Or.inl (by omega))
      rw [if_neg (by omega), Bytes.read_of_lt a (by decide), Bytes.read_of_lt b (by decide)]
      simp only [Option.bind_some]
      split
      · exact ⟨0, rfl⟩
      · exact ⟨-4, rfl⟩
    · refine iff_of_false ?_ (by omega)
      rw [if_pos (by omega)]
      rintro ⟨code, hcode⟩
      cases hcode

theorem compareAddr_isSome_iff (pref_len : ℤ) :
    (∃ code, compareAddr a b pref_len = some code) ↔ Stays a b pref_len := by
  unfold Stays
  by_cases hneg : pref_len < 0
  · obtain ⟨m, rfl⟩ : ∃ m : ℕ, pref_len = -(m : ℤ) := ⟨pref_len.natAbs, by omega⟩
    rw [compareAddr_neg a b (by omega)]
    omega
  · obtain ⟨n, rfl⟩ : ∃ n : ℕ, pref_len = (n : ℤ) := ⟨pref_len.toNat, by omega⟩
    by_cases hle : n ≤ 128
    · obtain ⟨code, hcode, -⟩ := compareAddr_le a b hle
      exact iff_of_true ⟨code, hcode⟩ (Or.inl (by omega))
    · rw [compareAddr_gt a b (by omega)]
      constructor
      · intro h
        exact Or.inr (Or.inr ⟨by omega, h⟩)
      · rintro (h | h | h)
        · omega
        · omega
        · exact h.2

section Texts

theorem in6Addr_length {t : CStr} {a : Bytes 16} (h : in6Addr t = some a) : t.length < 128 := by
  obtain ⟨os, hos, -⟩ := Option.map_eq_some_iff.mp h
  have hlt := inet_pton6_text_le hos
  omega

theorem v6addrMismatch_eq {t u : CStr} {a b : Bytes 16} (ha : in6Addr t = some a)
    (hb : in6Addr u = some b) (pref_len : ℤ) :
    v6addrMismatch (some t) (some u) pref_len = compareAddr a b pref_len := by
  have ht := in6Addr_length ha
  have hu := in6Addr_length hb
  simp only [v6addrMismatch, ha, hb]
  exact if_neg (by omega)

theorem v6addrMismatch_isSome_iff (t u : CStr) (pref_len : ℤ) :
    (∃ code, v6addrMismatch (some t) (some u) pref_len = some code) ↔
      ∀ a b, in6Addr t = some a → in6Addr u = some b → Stays a b pref_len := by
  cases ha : in6Addr t with
  | none =>
    refine iff_of_true ?_ (fun a b h => by cases h)
    simp only [v6addrMismatch, ha]
    split
    · exact ⟨-1, rfl⟩
    · exact ⟨-8, rfl⟩
  | some a =>
    cases hb : in6Addr u with
    | none =>
      refine iff_of_true ?_ (fun a b _ h => by cases h)
      simp only [v6addrMismatch, ha, hb]
      split
      · exact ⟨-1, rfl⟩
      · exact ⟨-9, rfl⟩
    | some b =>
      rw [v6addrMismatch_eq ha hb, compareAddr_isSome_iff]
      constructor
      · rintro h a' b' ⟨rfl⟩ ⟨rfl⟩
        exact h
      · intro h
        exact h a b rfl rfl

def Denotes (v6pre : CStr) (addr : Bytes 16) (pref_len : ℤ) : Prop :=
  v6pre.length < 128 ∧ ∃ pref_buf, splitPrefix v6pre = .ok (pref_buf, pref_len) ∧
    in6Addr pref_buf = some addr

theorem v6addrMismatchesV6pre_isSome_iff (v6addr v6pre : Option CStr) :
    (∃ code, v6addrMismatchesV6pre v6addr v6pre = some code) ↔
      ∀ t p a b pref_len, v6addr = some t → v6pre = some p → in6Addr t = some a →
        Denotes p b pref_len → Stays a b pref_len := by
  cases v6addr with
  | none => exact iff_of_true ⟨-1, rfl⟩ (fun t p a b n h => by cases h)
  | some t =>
    cases v6pre with
    | none => exact iff_of_true ⟨-1, rfl⟩ (fun t p a b n _ h => by cases h)
    | some p =>
      rw [v6addrMismatchesV6pre]
      by_cases hlong : 128 ≤ t.length ∨ 128 ≤ p.length
      · rw [if_pos hlong]
        refine iff_of_true ⟨-1, rfl⟩ ?_
        rintro _ _ a b n ⟨rfl⟩ ⟨rfl⟩ ha ⟨hp, -⟩
        have ht := in6Addr_length ha
        omega
      · rw [if_neg hlong]
        cases hsplit : splitPrefix p with
        | error code =>
          refine iff_of_true ⟨code, rfl⟩ ?_
          rintro _ _ a b n ⟨rfl⟩ ⟨rfl⟩ - ⟨-, pref_buf, h, -⟩
          rw [hsplit] at h
          cases h
        | ok r =>
          obtain ⟨pref_buf, pref_len⟩ := r
          dsimp only
          rw [v6addrMismatch_isSome_iff]
          constructor
          · rintro h _ _ a b n ⟨rfl⟩ ⟨rfl⟩ ha ⟨-, buf, hbuf, hb⟩
            rw [hsplit, Except.ok.injEq, Prod.mk.injEq] at hbuf
            obtain ⟨rfl, rfl⟩ := hbuf
            exact h a b ha hb
          · intro h a b ha hb
            exact h t p a b pref_len rfl rfl ha ⟨by omega, pref_buf, hsplit, hb⟩

theorem v6prefMismatches_isSome_iff (v6pref1 v6pref2 : Option CStr) :
    (∃ code, v6prefMismatches v6pref1 v6pref2 = some code) ↔
      ∀ p q a b pref_len, v6pref1 = some p → v6pref2 = some q → Denotes p a pref_len →
        Denotes q b pref_len → Stays a b pref_len := by
  cases v6pref1 with
  | none => exact iff_of_true ⟨-1, rfl⟩ (fun p q a b n h => by cases h)
  | some p =>
    cases v6pref2 with
    | none => exact iff_of_true ⟨-1, rfl⟩ (fun p q a b n _ h => by cases h)
    | some q =>
      rw [v6prefMismatches]
      by_cases hlong : 128 ≤ p.length ∨ 128 ≤ q.length
      · rw [if_pos hlong]
        refine iff_of_true ⟨-1, rfl⟩ ?_
        rintro _ _ a b n ⟨rfl⟩ ⟨rfl⟩ ⟨hp, -⟩ ⟨hq, -⟩
        omega
      rw [if_neg hlong]
      cases hsplit1 : splitPrefix p with
      | error code =>
        refine iff_of_true ⟨code, rfl⟩ ?_
        rintro _ _ a b n ⟨rfl⟩ ⟨rfl⟩ ⟨-, pref_buf, h, -⟩ -
        rw [hsplit1] at h
        cases h
      | ok r1 =>
        obtain ⟨pref1_buf, pref1_len⟩ := r1
        cases hsplit2 : splitPrefix q with
        | error code =>
          refine iff_of_true ⟨code, rfl⟩ ?_
          rintro _ _ a b n ⟨rfl⟩ ⟨rfl⟩ - ⟨-, pref_buf, h, -⟩
          rw [hsplit2] at h
          cases h
        | ok r2 =>
          obtain ⟨pref2_buf, pref2_len⟩ := r2
          dsimp only
          by_cases hlen : pref1_len = pref2_len
          · subst hlen
            rw [if_neg (not_not.mpr rfl), v6addrMismatch_isSome_iff]
            constructor
            · rintro h _ _ a b n ⟨rfl⟩ ⟨rfl⟩ ⟨-, buf1, hbuf1, ha⟩ ⟨-, buf2, hbuf2, hb⟩
              rw [hsplit1, Except.ok.injEq, Prod.mk.injEq] at hbuf1
              rw [hsplit2, Except.ok.injEq, Prod.mk.injEq] at hbuf2
              obtain ⟨rfl, rfl⟩ := hbuf1
              obtain ⟨rfl, -⟩ := hbuf2
              exact h a b ha hb
            · intro h a b ha hb
              exact h p q a b pref1_len rfl rfl ⟨by omega, pref1_buf, hsplit1, ha⟩
                ⟨by omega, pref2_buf, hsplit2, hb⟩
          · rw [if_pos hlen]
            refine iff_of_true ⟨-7, rfl⟩ ?_
            rintro _ _ a b n ⟨rfl⟩ ⟨rfl⟩ ⟨-, buf1, hbuf1, -⟩ ⟨-, buf2, hbuf2, -⟩
            rw [hsplit1, Except.ok.injEq, Prod.mk.injEq] at hbuf1
            rw [hsplit2, Except.ok.injEq, Prod.mk.injEq] at hbuf2
            exact absurd (hbuf1.2.trans hbuf2.2.symm) hlen

def WellFormed (p : CStr) : Prop := ∃ a, ∃ n ≤ 128, Denotes p a (n : ℕ)

theorem cosaDmlV6PrefIsEqual_iff {p q : CStr} {a b : Bytes 16} {n m : ℕ} (hn : n ≤ 128)
    (hp : Denotes p a n) (hq : Denotes q b m) :
    cosaDmlV6PrefIsEqual (some p) (some q) = some true ↔ n = m ∧ SameBits a b n := by
  obtain ⟨hplen, buf1, hbuf1, ha⟩ := hp
  obtain ⟨hqlen, buf2, hbuf2, hb⟩ := hq
  rw [cosaDmlV6PrefIsEqual, if_neg (by simp), v6prefMismatches]
  simp only [hbuf1, hbuf2]
  rw [if_neg (by omega)]
  by_cases hnm : n = m
  · subst hnm
    obtain ⟨code, hcode, hzero⟩ := compareAddr_le a b hn
    rw [if_neg (not_not.mpr rfl), v6addrMismatch_eq ha hb, hcode, and_iff_right rfl, ← hzero]
    simp
  · rw [if_pos (fun h => hnm (Int.ofNat_inj.mp h))]
    exact iff_of_false (by decide) (fun h => hnm h.1)

theorem sameBits_ofOctets {os os' : List ℕ} (h : os.length = 16 ∧ ∀ o ∈ os, o < 256)
    (h' : os'.length = 16 ∧ ∀ o ∈ os', o < 256) :
    SameBits (ofOctets os) (ofOctets os') 128 ↔ os = os' := by
  rw [← sameBytes_iff _ _ (q := 16) (Nat.le_refl 16)]
  constructor
  · intro hsame
    apply List.ext_getElem (h.1.trans h'.1.symm)
    intro k hk hk'
    have hbyte := hsame k (Nat.zero_le k) (by omega)
    simp only [Bytes.byteAt, ofOctets, dif_pos (show k < 16 by omega), List.getD_eq_getElem?_getD,
      List.getElem?_eq_getElem hk, List.getElem?_eq_getElem hk', Option.getD_some] at hbyte
    have hvalue := congrArg BitVec.toNat hbyte
    rwa [BitVec.toNat_ofNat, BitVec.toNat_ofNat, Nat.mod_eq_of_lt (h.2 _ (List.getElem_mem hk)),
      Nat.mod_eq_of_lt (h'.2 _ (List.getElem_mem hk'))] at hvalue
  · rintro rfl _ _ _
    rfl

/-- Two texts are equal exactly when both are addresses that print alike, however
they are spelled; there is always a result. -/
theorem cosaDmlV6AddrIsEqual_iff (t u : CStr) :
    ∃ equal, cosaDmlV6AddrIsEqual (some t) (some u) = some equal ∧ (equal = true ↔
      ∃ os os', inet_pton6 t = some os ∧ inet_pton6 u = some os' ∧
        inet_ntop6 os = inet_ntop6 os') := by
  rw [cosaDmlV6AddrIsEqual, if_neg (by simp)]
  cases ht : inet_pton6 t with
  | none =>
    have hres : v6addrMismatch (some t) (some u) 128 = some (-1) ∨
        v6addrMismatch (some t) (some u) 128 = some (-8) := by
      simp only [v6addrMismatch, in6Addr, ht, Option.map_none]
      exact ite_eq_or_eq ..
    rcases hres with hres | hres <;> simp [hres]
  | some os =>
    cases hu : inet_pton6 u with
    | none =>
      have hres : v6addrMismatch (some t) (some u) 128 = some (-1) ∨
          v6addrMismatch (some t) (some u) 128 = some (-9) := by
        simp only [v6addrMismatch, in6Addr, ht, hu, Option.map_none, Option.map_some]
        exact ite_eq_or_eq ..
      rcases hres with hres | hres <;> simp [hres]
    | some os' =>
      have h := Ipv6Text.inet_pton6_bytes ht
      have h' := Ipv6Text.inet_pton6_bytes hu
      obtain ⟨code, hcode, hzero⟩ := compareAddr_le (ofOctets os) (ofOctets os') (Nat.le_refl 128)
      have hres : v6addrMismatch (some t) (some u) 128 = some code :=
        (v6addrMismatch_eq (by rw [in6Addr, ht]; rfl) (by rw [in6Addr, hu]; rfl) 128).trans hcode
      refine ⟨code == 0, by rw [hres]; rfl, ?_⟩
      rw [beq_iff_eq, hzero, sameBits_ofOctets h h']
      constructor
      · rintro rfl
        exact ⟨os, os, rfl, rfl, rfl⟩
      · rintro ⟨_, _, ⟨rfl⟩, ⟨rfl⟩, hprint⟩
        have hback := congrArg inet_pton6 hprint
        rw [Ipv6Text.inet_pton6_inet_ntop6 h.1 h.2,
          Ipv6Text.inet_pton6_inet_ntop6 h'.1 h'.2] at hback
        exact Option.some.inj hback

theorem cosaDmlV6PrefIsEqual_equivalence :
    Equivalence (fun p q : { p // WellFormed p } =>
      cosaDmlV6PrefIsEqual (some p.val) (some q.val) = some true) where
  refl := by
    rintro ⟨p, a, n, hn, hp⟩
    exact (cosaDmlV6PrefIsEqual_iff hn hp hp).mpr ⟨rfl, fun _ _ => rfl⟩
  symm := by
    rintro ⟨p, a, n, hn, hp⟩ ⟨q, b, m, hm, hq⟩ h
    obtain ⟨rfl, hbits⟩ := (cosaDmlV6PrefIsEqual_iff hn hp hq).mp h
    exact (cosaDmlV6PrefIsEqual_iff hm hq hp).mpr ⟨rfl, fun j hj => (hbits j hj).symm⟩
  trans := by
    rintro ⟨p, a, n, hn, hp⟩ ⟨q, b, m, hm, hq⟩ ⟨r, c, k, hk, hr⟩ hpq hqr
    obtain ⟨rfl, hab⟩ := (cosaDmlV6PrefIsEqual_iff hn hp hq).mp hpq
    obtain ⟨rfl, hbc⟩ := (cosaDmlV6PrefIsEqual_iff hm hq hr).mp hqr
    exact (cosaDmlV6PrefIsEqual_iff hn hp hr).mpr
      ⟨rfl, fun j hj => (hab j hj).trans (hbc j hj)⟩

/-- The comparison is right for every length of a prefix, and equality of prefixes
is an equivalence; the two callers stay in the addresses exactly for the lengths
that keep the index there. -/
theorem prefixes_compared_iff (v6addr v6pre v6pref1 v6pref2 : Option CStr) :
    (∀ t u a b, in6Addr t = some a → in6Addr u = some b → ∀ n ≤ 128,
      (v6addrMismatch (some t) (some u) (n : ℕ) = some 0 ↔ SameBits a b n)) ∧
    ((∃ code, v6addrMismatchesV6pre v6addr v6pre = some code) ↔
      ∀ t p a b pref_len, v6addr = some t → v6pre = some p → in6Addr t = some a →
        Denotes p b pref_len → Stays a b pref_len) ∧
    ((∃ code, v6prefMismatches v6pref1 v6pref2 = some code) ↔
      ∀ p q a b pref_len, v6pref1 = some p → v6pref2 = some q → Denotes p a pref_len →
        Denotes q b pref_len → Stays a b pref_len) ∧
    Equivalence (fun p q : { p // WellFormed p } =>
      cosaDmlV6PrefIsEqual (some p.val) (some q.val) = some true) ∧
    ∀ p q a b, ∀ n ≤ 128, ∀ m ≤ 128, Denotes p a (n : ℕ) → Denotes q b (m : ℕ) →
      (cosaDmlV6PrefIsEqual (some p) (some q) = some true ↔ n = m ∧ SameBits a b n) := by
  refine ⟨fun t u a b ha hb n hn => ?_, v6addrMismatchesV6pre_isSome_iff v6addr v6pre,
    v6prefMismatches_isSome_iff v6pref1 v6pref2, cosaDmlV6PrefIsEqual_equivalence,
    fun p q a b n hn m _ hp hq => cosaDmlV6PrefIsEqual_iff hn hp hq⟩
  obtain ⟨code, hcode, hzero⟩ := compareAddr_le a b hn
  rw [v6addrMismatch_eq ha hb, hcode, Option.some.injEq, hzero]

/-- Equal addresses and the length 129: the seventeenth byte is read. -/
theorem prefixes_compared_long :
    ¬ ∀ v6addr v6pre v6pref1 v6pref2 : Option CStr,
      (∀ t u a b, in6Addr t = some a → in6Addr u = some b → ∀ n ≤ 128,
        (v6addrMismatch (some t) (some u) (n : ℕ) = some 0 ↔ SameBits a b n)) ∧
      (∃ code, v6addrMismatchesV6pre v6addr v6pre = some code) ∧
      (∃ code, v6prefMismatches v6pref1 v6pref2 = some code) ∧
      Equivalence (fun p q : { p // WellFormed p } =>
        cosaDmlV6PrefIsEqual (some p.val) (some q.val) = some true) ∧
      ∀ p q a b, ∀ n ≤ 128, ∀ m ≤ 128, Denotes p a (n : ℕ) → Denotes q b (m : ℕ) →
        (cosaDmlV6PrefIsEqual (some p) (some q) = some true ↔ n = m ∧ SameBits a b n) := by
  intro hclaim
  obtain ⟨code, hcode⟩ := (hclaim (some "::1".toList) (some "::1/129".toList) none none).2.1
  have hnone : v6addrMismatchesV6pre (some "::1".toList) (some "::1/129".toList) = none := by
    decide +kernel
  rw [hnone] at hcode
  cases hcode

end Texts

end CcspPandM.PrefixMatch
