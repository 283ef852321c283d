import CcspPandM.InetText

/-!
Addresses out of flat hexadecimal text: one address into a static buffer of 256
bytes, a colon after every fourth character, and several of them, with commas,
into the caller's buffer. What is in a buffer is its text; a character stored
past the end of one, or before its start, has no defined result.
-/
namespace CcspPandM.DnsText

open CString InetText

def store (size : ℕ) (out : CStr) (c : Char) : Option CStr :=
  if out.length < size then some (out ++ [c]) else none

/-- `sizeof(ipv6Address)` -/
def addressSize : ℕ := 256

/-- The loop of the conversion: what is left of the address, how much of it was
read, and what is in the buffer. -/
def addressLoop : CStr → ℕ → CStr → Option CStr
  | [], _, out => some out
  | c :: address, i, out =>
    if i < addressSize then do
      let out ← store addressSize out c
      let out ← if (i + 1) % 4 = 0 then store addressSize out ':' else some out
      addressLoop address (i + 1) out
    else some out

/-- The last character is taken for a colon. -/
def CosaDmlDhcpv6sGetAddressFromString (address : CStr) : Option CStr :=
  (addressLoop address 0 []).map List.dropLast

/-- `_ansc_strcat`, which also stores the NUL. -/
def strcat (size : ℕ) (dst src : CStr) : Option CStr :=
  if dst.length + src.length < size then some (dst ++ src) else none

def dnsLoop (size : ℕ) (Dns : CStr) : ℕ → ℕ → CStr → Option CStr
  | _, 0, output => some output
  | i, count + 1, output => do
    let oneDns := (Dns.drop (i * 32)).take 32
    let pStr ← CosaDmlDhcpv6sGetAddressFromString oneDns
    let output ← strcat size output pStr
    let output ← strcat size output [',']
    dnsLoop size Dns (i + 1) count output

/-- What `_ansc_strlen` gives as an int. -/
def intLength (Dns : CStr) : ℤ := (BitVec.ofNat 32 Dns.length).toInt

/-- The result and the text of the output, if any was written. The product of
the count and the 40 characters of an address has to be an int, and the last
character of the output has to exist. -/
def CosaDmlDHCPv6sGetDNS (Dns : CStr) (outputLen : ℤ) : Option (ℤ × Option CStr) := do
  let len := intLength Dns
  let count := len.tdiv 32
  if count * (32 + 8) < -(2 ^ 31) ∨ 2 ^ 31 ≤ count * (32 + 8) then none
  else
    let short := outputLen < count * (32 + 8)
    let count := if short then outputLen.tdiv (32 + 8) else count
    if short ∧ count = 0 then some (1, none)
    else
      let output ← dnsLoop outputLen.toNat Dns 0 count.toNat []
      if output = [] then none else some (0, some output.dropLast)

def pieces (m : ℕ) : ℕ → CStr → List CStr
  | 0, _ => []
  | k + 1, t => t.take m :: pieces m k (t.drop m)

def addressText (t : CStr) : CStr := [':'].intercalate (pieces 4 8 t)

def dnsText (k : ℕ) (Dns : CStr) : CStr := [','].intercalate ((pieces 32 k Dns).map addressText)

variable {t : CStr}

section Pieces

theorem dropLast_flatMap (s : Char) {gs : List CStr} (h : gs ≠ []) :
    (gs.flatMap (fun g => g ++ [s])).dropLast = [s].intercalate gs := by
  induction gs with
  | nil => exact absurd rfl h
  | cons g gs ih =>
    cases gs with
    | nil => simp
    | cons g' gs =>
      have hrest := ih (List.cons_ne_nil g' gs)
      have hne : (g' :: gs).flatMap (fun g => g ++ [s]) ≠ [] := by simp
      rw [List.flatMap_cons, List.dropLast_append_of_ne_nil hne, hrest,
        List.intercalate_cons_cons]

theorem length_intercalate (s : Char) (m : ℕ) {gs : List CStr} (hgs : ∀ g ∈ gs, g.length = m)
    (h : gs ≠ []) : ([s].intercalate gs).length = gs.length * (m + 1) - 1 := by
  have hlen (l : List CStr) (hl : ∀ g ∈ l, g.length = m) :
      (l.flatMap (fun g => g ++ [s])).length = l.length * (m + 1) := by
    induction l with
    | nil => simp
    | cons g l ih =>
      rw [List.flatMap_cons, List.length_append, List.length_append, hl g List.mem_cons_self,
        ih fun g' hg' => hl g' (List.mem_cons_of_mem g hg'), List.length_singleton,
        List.length_cons, Nat.succ_mul, Nat.add_comm]
  rw [← dropLast_flatMap s h, List.length_dropLast, hlen gs hgs]

theorem length_pieces (m k : ℕ) (t : CStr) : (pieces m k t).length = k := by
  induction k generalizing t with
  | zero => rfl
  | succ k ih => rw [pieces, List.length_cons, ih]

theorem length_of_mem_pieces {m k : ℕ} (ht : m * k ≤ t.length) :
    ∀ g ∈ pieces m k t, g.length = m := by
  induction k generalizing t with
  | zero =>
    intro g hg
    cases hg
  | succ k ih =>
    rw [Nat.mul_succ] at ht
    intro g hg
    rcases List.mem_cons.mp hg with hhead | htail
    · rw [hhead, List.length_take]
      omega
    · exact ih (by rw [List.length_drop]; omega) g htail

end Pieces

section Addresses

variable {out : CStr}

theorem store_of_lt {size : ℕ} (h : out.length < size) (c : Char) :
    store size out c = some (out ++ [c]) := if_pos h

theorem addressLoop_isSome (address : CStr) {i : ℕ} (hi : i ≤ 205)
    (hout : out.length = i + i / 4) :
    (addressLoop address i out).isSome ↔ i + address.length ≤ 205 := by
  induction address generalizing i out with
  | nil => simp [addressLoop, hi]
  | cons c address ih =>
    rw [addressLoop, if_pos (show i < addressSize by unfold addressSize; omega), List.length_cons]
    by_cases hlast : i = 205
    · have hfull : store addressSize out c = none := by
        apply if_neg
        unfold addressSize
        omega
      rw [hfull]
      simp only [Option.bind_eq_bind, Option.bind_none, Option.isSome_none, Bool.false_eq_true,
        false_iff]
      omega
    rw [store_of_lt (show out.length < addressSize by unfold addressSize; omega)]
    have hlen : (out ++ [c]).length = i + i / 4 + 1 := by simp [hout]
    by_cases hfour : (i + 1) % 4 = 0
    · have hlen' : (out ++ [c] ++ [':']).length = (i + 1) + (i + 1) / 4 := by
        rw [List.length_append, hlen, List.length_singleton]
        omega
      simp only [Option.bind_eq_bind, Option.bind_some, if_pos hfour]
      rw [store_of_lt (show (out ++ [c]).length < addressSize by unfold addressSize; omega),
        Option.bind_some, ih (by omega) hlen']
      omega
    · have hlen' : (out ++ [c]).length = (i + 1) + (i + 1) / 4 := by omega
      simp only [Option.bind_eq_bind, Option.bind_some, if_neg hfour]
      rw [ih (by omega) hlen']
      omega

theorem addressLoop_group {i : ℕ} (hi : i % 4 = 0) (hroom : i + 4 ≤ 204)
    (hout : out.length = i + i / 4) (a b c d : Char) (rest : CStr) :
    addressLoop (a :: b :: c :: d :: rest) i out =
      addressLoop rest (i + 4) (out ++ ([a, b, c, d] ++ [':'])) := by
  have hsize : out.length + 5 ≤ 256 := by omega
  have h1 : ¬(i + 1) % 4 = 0 := by omega
  have h2 : ¬(i + 2) % 4 = 0 := by omega
  have h3 : ¬(i + 3) % 4 = 0 := by omega
  have h4 : (i + 4) % 4 = 0 := by omega
  have g0 : i < 256 := by omega
  have g1 : i + 1 < 256 := by omega
  have g2 : i + 2 < 256 := by omega
  have g3 : i + 3 < 256 := by omega
  have s0 : out.length < 256 := by omega
  have s1 : out.length + 1 < 256 := by omega
  have s2 : out.length + 2 < 256 := by omega
  have s3 : out.length + 3 < 256 := by omega
  have s4 : out.length + 4 < 256 := by omega
  simp [addressLoop, addressSize, store, h1, h2, h3, h4, g0, g1, g2, g3, s0, s1, s2, s3, s4]

theorem addressLoop_groups (k : ℕ) {t out : CStr} {i : ℕ} (ht : t.length = 4 * k) (hi : i % 4 = 0)
    (hroom : i + 4 * k ≤ 204) (hout : out.length = i + i / 4) :
    addressLoop t i out = some (out ++ (pieces 4 k t).flatMap (fun g => g ++ [':'])) := by
  induction k generalizing t out i with
  | zero =>
    obtain rfl := List.length_eq_zero_iff.mp ht
    simp [addressLoop, pieces]
  | succ k ih =>
    match t, ht with
    | a :: b :: c :: d :: rest, ht =>
      have hrest : rest.length = 4 * k := by
        simp only [List.length_cons] at ht
        omega
      have hlen : (out ++ ([a, b, c, d] ++ [':'])).length = (i + 4) + (i + 4) / 4 := by
        simp only [List.length_append, List.length_cons, List.length_nil]
        omega
      rw [addressLoop_group hi (by omega) hout, ih hrest (by omega) (by omega) hlen]
      simp [pieces]

theorem getAddressFromString_isSome (address : CStr) :
    (CosaDmlDhcpv6sGetAddressFromString address).isSome ↔ address.length ≤ 205 := by
  rw [CosaDmlDhcpv6sGetAddressFromString, Option.isSome_map,
    addressLoop_isSome address (by omega) rfl, Nat.zero_add]

theorem getAddressFromString_eq (ht : t.length = 32) :
    CosaDmlDhcpv6sGetAddressFromString t = some (addressText t) := by
  have hne : pieces 4 8 t ≠ [] := List.cons_ne_nil _ _
  rw [CosaDmlDhcpv6sGetAddressFromString, addressLoop_groups 8 ht rfl (by omega) rfl,
    Option.map_some, List.nil_append, dropLast_flatMap ':' hne]
  rfl

theorem length_addressText (ht : t.length = 32) : (addressText t).length = 39 := by
  have hne : pieces 4 8 t ≠ [] := List.cons_ne_nil _ _
  have hgroups : ∀ g ∈ pieces 4 8 t, g.length = 4 := length_of_mem_pieces (by omega)
  rw [addressText, length_intercalate ':' 4 hgroups hne, length_pieces]

end Addresses

section Output

theorem dnsLoop_eq (size : ℕ) {Dns : CStr} (count : ℕ) {i : ℕ} {output : CStr}
    (hDns : 32 * (i + count) ≤ Dns.length) (hout : output.length = 40 * i) :
    dnsLoop size Dns i count output =
      if count = 0 ∨ 40 * (i + count) < size then
        some (output ++ ((pieces 32 count (Dns.drop (i * 32))).map addressText).flatMap
          (fun g => g ++ [',']))
      else none := by
  induction count generalizing i output with
  | zero => simp [dnsLoop, pieces]
  | succ count ih =>
    have hone : ((Dns.drop (i * 32)).take 32).length = 32 := by
      rw [List.length_take, List.length_drop]
      omega
    have haddr := length_addressText hone
    rw [dnsLoop, getAddressFromString_eq hone]
    simp only [Option.bind_eq_bind, Option.bind_some]
    by_cases hroom : 40 * (i + 1) < size
    · have hfirst : strcat size output (addressText ((Dns.drop (i * 32)).take 32)) =
          some (output ++ addressText ((Dns.drop (i * 32)).take 32)) := by
        apply if_pos
        omega
      have hsecond : strcat size (output ++ addressText ((Dns.drop (i * 32)).take 32)) [','] =
          some (output ++ addressText ((Dns.drop (i * 32)).take 32) ++ [',']) := by
        apply if_pos
        rw [List.length_append, List.length_singleton]
        omega
      have hlen : (output ++ addressText ((Dns.drop (i * 32)).take 32) ++ [',']).length =
          40 * (i + 1) := by
        simp only [List.length_append, List.length_singleton]
        omega
      have hdrop : (Dns.drop (i * 32)).drop 32 = Dns.drop ((i + 1) * 32) := by
        rw [List.drop_drop, Nat.succ_mul]
      rw [hfirst, Option.bind_some, hsecond, Option.bind_some, ih (by omega) hlen, pieces,
        List.map_cons, List.flatMap_cons, hdrop]
      have hcond : (count = 0 ∨ 40 * (i + 1 + count) < size) ↔
          (count + 1 = 0 ∨ 40 * (i + (count + 1)) < size) := by omega
      simp only [hcond, List.append_assoc]
    · have hcond : ¬(count + 1 = 0 ∨ 40 * (i + (count + 1)) < size) := by omega
      rw [if_neg hcond]
      by_cases hfits : output.length + (addressText ((Dns.drop (i * 32)).take 32)).length < size
      · have hsecond : strcat size (output ++ addressText ((Dns.drop (i * 32)).take 32)) [','] =
            none := by
          apply if_neg
          rw [List.length_append, List.length_singleton]
          omega
        rw [strcat, if_pos hfits, Option.bind_some, hsecond]
        rfl
      · rw [strcat, if_neg hfits]
        rfl

theorem dnsLoop_text {size : ℕ} {Dns : CStr} {k : ℕ} (hk : 0 < k) (hDns : 32 * k ≤ Dns.length) :
    (do
      let output ← dnsLoop size Dns 0 k []
      if output = [] then none else some ((0 : ℤ), some output.dropLast)) =
    if 40 * k < size then some (0, some (dnsText k Dns)) else none := by
  have hloop := @dnsLoop_eq size Dns k 0 [] (by omega) rfl
  have hcond : (k = 0 ∨ 40 * (0 + k) < size) ↔ 40 * k < size := by omega
  have hne : (pieces 32 k Dns).map addressText ≠ [] := by
    intro hnil
    have hlen := congrArg List.length hnil
    rw [List.length_map, length_pieces, List.length_nil] at hlen
    omega
  have htext : ((pieces 32 k Dns).map addressText).flatMap (fun g => g ++ [',']) ≠ [] := by
    obtain ⟨g, gs, hgs⟩ := List.exists_cons_of_ne_nil hne
    rw [hgs]
    simp
  simp only [hcond, Nat.zero_mul, List.drop_zero, List.nil_append] at hloop
  rw [hloop]
  by_cases hroom : 40 * k < size
  · rw [if_pos hroom, if_pos hroom]
    simp only [Option.bind_eq_bind, Option.bind_some, if_neg htext, dropLast_flatMap ',' hne]
    rfl
  · rw [if_neg hroom, if_neg hroom]
    rfl

end Output

section Whole

theorem tdiv_nat (n d : ℕ) : (n : ℤ).tdiv d = (n / d : ℕ) := (Int.ofNat_tdiv n d).symm

theorem tdiv_neg (n d : ℕ) : (-(n : ℤ)).tdiv d = -(n / d : ℕ) := by
  rw [Int.neg_tdiv, tdiv_nat]

/-- A text of 32 characters or more whose addresses can be counted as an int. -/
def Countable (Dns : CStr) : Prop := 32 ≤ Dns.length ∧ 40 * (Dns.length / 32) < 2 ^ 31

def taken (Dns : CStr) (m : ℕ) : ℕ := min (Dns.length / 32) (m / 40)

theorem intLength_of_lt {Dns : CStr} (h : Dns.length < 2 ^ 31) :
    intLength Dns = (Dns.length : ℤ) := by
  have hmod : (BitVec.ofNat 32 Dns.length).toNat = Dns.length := by
    rw [BitVec.toNat_ofNat]
    exact Nat.mod_eq_of_lt (by omega)
  rw [intLength, BitVec.toInt_eq_toNat_cond, hmod]
  apply if_pos
  omega

theorem intLength_of_le {Dns : CStr} (h : 2 ^ 31 ≤ Dns.length) (hDns : Dns.length < 2 ^ 32) :
    intLength Dns = -((2 ^ 32 - Dns.length : ℕ) : ℤ) := by
  have hmod : (BitVec.ofNat 32 Dns.length).toNat = Dns.length := by
    rw [BitVec.toNat_ofNat]
    exact Nat.mod_eq_of_lt hDns
  have hneg : ¬2 * Dns.length < 2 ^ 32 := by omega
  rw [intLength, BitVec.toInt_eq_toNat_cond, hmod, if_neg hneg]
  omega

theorem getDNS_of_not {Dns : CStr} (hDns : Dns.length < 2 ^ 32) {m : ℕ} (hm : 0 < m)
    (h : ¬Countable Dns) : CosaDmlDHCPv6sGetDNS Dns m = none := by
  have hcount : ∃ c : ℕ, (intLength Dns).tdiv 32 = -(c : ℤ) ∨
      (2 ^ 31 ≤ 40 * c ∧ (intLength Dns).tdiv 32 = (c : ℤ)) := by
    by_cases hneg : 2 ^ 31 ≤ Dns.length
    · have hlen := intLength_of_le hneg hDns
      exact ⟨_, .inl (by rw [hlen]; exact tdiv_neg _ 32)⟩
    · have hlen := intLength_of_lt (Nat.lt_of_not_le hneg)
      have hdiv := tdiv_nat Dns.length 32
      by_cases hshort : Dns.length < 32
      · refine ⟨0, .inl ?_⟩
        rw [hlen]
        refine hdiv.trans ?_
        rw [Nat.div_eq_of_lt hshort]
        rfl
      · refine ⟨Dns.length / 32, .inr ⟨?_, by rw [hlen]; exact hdiv⟩⟩
        unfold Countable at h
        omega
  obtain ⟨c, hc | ⟨hbig, hc⟩⟩ := hcount
  · simp only [CosaDmlDHCPv6sGetDNS, hc]
    by_cases hover : -(c : ℤ) * (32 + 8) < -(2 ^ 31) ∨ 2 ^ 31 ≤ -(c : ℤ) * (32 + 8)
    · rw [if_pos hover]
    · have hlong : ¬(m : ℤ) < -(c : ℤ) * (32 + 8) := by omega
      have hzero : (-(c : ℤ)).toNat = 0 := by omega
      simp only [if_neg hover, hlong, if_false, false_and, hzero, dnsLoop]
      rfl
  · have hover : (c : ℤ) * (32 + 8) < -(2 ^ 31) ∨ 2 ^ 31 ≤ (c : ℤ) * (32 + 8) := by omega
    simp only [CosaDmlDHCPv6sGetDNS, hc, if_pos hover]

theorem getDNS_of_countable {Dns : CStr} {m : ℕ} (h : Countable Dns) :
    CosaDmlDHCPv6sGetDNS Dns m =
      if m < 40 then some (1, none)
      else if 40 * taken Dns m < m then some (0, some (dnsText (taken Dns m) Dns)) else none := by
  obtain ⟨hlong, hint⟩ := h
  have hlen : intLength Dns = (Dns.length : ℤ) := intLength_of_lt (by omega)
  have hcount : (intLength Dns).tdiv 32 = (Dns.length / 32 : ℕ) := by
    rw [hlen]
    exact tdiv_nat Dns.length 32
  have hroom : (m : ℤ).tdiv (32 + 8) = (m / 40 : ℕ) := tdiv_nat m 40
  have hover : ¬(((Dns.length / 32 : ℕ) : ℤ) * (32 + 8) < -(2 ^ 31) ∨
      2 ^ 31 ≤ ((Dns.length / 32 : ℕ) : ℤ) * (32 + 8)) := by omega
  simp only [CosaDmlDHCPv6sGetDNS, hcount, hroom, if_neg hover, Int.toNat_natCast]
  by_cases hshort : (m : ℤ) < ((Dns.length / 32 : ℕ) : ℤ) * (32 + 8)
  · have htaken : taken Dns m = m / 40 := Nat.min_eq_right (by omega)
    simp only [hshort, if_true, true_and, Int.toNat_natCast, htaken]
    by_cases hsmall : m < 40
    · have hzero : ((m / 40 : ℕ) : ℤ) = 0 := by omega
      rw [if_pos hzero, if_pos hsmall]
    · have hnonzero : ¬((m / 40 : ℕ) : ℤ) = 0 := by omega
      rw [if_neg hnonzero, if_neg hsmall]
      exact dnsLoop_text (by omega) (by omega)
  · have htaken : taken Dns m = Dns.length / 32 := Nat.min_eq_left (by omega)
    have hsmall : ¬m < 40 := by omega
    simp only [hshort, false_and, if_false, Int.toNat_natCast, htaken, if_neg hsmall]
    exact dnsLoop_text (by omega) (by omega)

/-- A flat text of n addresses is turned into the list of those that have room. -/
def Delivers (Dns : CStr) (m : ℕ) : Prop :=
  ∀ n, 1 ≤ n → Dns.length = 32 * n → (∀ c ∈ Dns, (hexValue c).isSome = true) → 40 ≤ m →
    CosaDmlDHCPv6sGetDNS Dns m = some (0, some (dnsText (min n (m / 40)) Dns))

/-- There is an address, or the output is too short for one and left alone, and
the NUL behind the last comma has its place. -/
def Fits (Dns : CStr) (m : ℕ) : Prop := Countable Dns ∧ (m < 40 ∨ 40 * taken Dns m < m)

end Whole

/-- The list is delivered and nothing is written outside the output, and nothing
outside the buffer of one address, exactly when there is an address, the output
is no multiple of 40 that is filled, and an address has at most 205 characters. -/
theorem dns_written_iff (Dns : CStr) (hDns : Dns.length < 2 ^ 32) (outputLen : ℕ)
    (hpos : 0 < outputLen) (address : CStr) :
    (Delivers Dns outputLen ∧ (CosaDmlDHCPv6sGetDNS Dns outputLen).isSome ∧
      (CosaDmlDhcpv6sGetAddressFromString address).isSome) ↔
    Fits Dns outputLen ∧ address.length ≤ 205 := by
  rw [getAddressFromString_isSome, ← and_assoc, and_congr_left_iff]
  intro _
  by_cases hcountable : Countable Dns
  · have heq := getDNS_of_countable (m := outputLen) hcountable
    rw [Fits, and_iff_right hcountable]
    by_cases hsmall : outputLen < 40
    · rw [if_pos hsmall] at heq
      have hdelivers : Delivers Dns outputLen := fun _ _ _ _ hlarge => absurd hsmall (by omega)
      rw [heq]
      exact ⟨fun _ => .inl hsmall, fun _ => ⟨hdelivers, rfl⟩⟩
    · rw [if_neg hsmall] at heq
      by_cases hroom : 40 * taken Dns outputLen < outputLen
      · rw [if_pos hroom] at heq
        have hdelivers : Delivers Dns outputLen := by
          intro n _ hlen _ _
          have htaken : taken Dns outputLen = min n (outputLen / 40) := by
            rw [taken, hlen, Nat.mul_div_cancel_left n (by omega)]
          rw [heq, htaken]
        rw [heq]
        exact ⟨fun _ => .inr hroom, fun _ => ⟨hdelivers, rfl⟩⟩
      · rw [if_neg hroom] at heq
        rw [heq]
        exact ⟨fun hboth => absurd hboth.2 (by simp),
          fun hfits => absurd hfits (by omega)⟩
  · rw [getDNS_of_not hDns hpos hcountable]
    exact ⟨fun hboth => absurd hboth.2 (by simp), fun hfits => absurd hfits.1 hcountable⟩

def flatAddress : CStr := "2018CAFE00000000020C29FFFE97FCCC".toList

theorem dns_written_one : Delivers flatAddress 64 ∧
    (CosaDmlDHCPv6sGetDNS flatAddress (64 : ℕ)).isSome ∧
      (CosaDmlDhcpv6sGetAddressFromString flatAddress).isSome :=
  (dns_written_iff flatAddress (by decide +kernel) 64 (by omega) flatAddress).mpr
    ⟨⟨⟨by decide +kernel, by decide +kernel⟩, .inr (by decide +kernel)⟩, by decide +kernel⟩

/-- The NUL behind the comma of one address does not fit an output of 40. -/
theorem dns_written_past_end : flatAddress.length = 32 * 1 ∧
    ¬(Delivers flatAddress 40 ∧ (CosaDmlDHCPv6sGetDNS flatAddress (40 : ℕ)).isSome) := by
  refine ⟨by decide +kernel, ?_⟩
  intro h
  have hcountable : Countable flatAddress := ⟨by decide +kernel, by decide +kernel⟩
  have heq := getDNS_of_countable (m := 40) hcountable
  have hfull : ¬40 * taken flatAddress 40 < 40 := by decide +kernel
  rw [if_neg (by omega), if_neg hfull] at heq
  rw [heq] at h
  exact absurd h.2 (by simp)

end CcspPandM.DnsText
