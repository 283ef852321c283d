import CcspPandM.MaptEaBits
import CcspPandM.Runs

/-!
The parser of the MAP-T container option. Its outer loop checks each option
against the end of the buffer; inside a rule or DMR option the lengths in the
payload are followed unchecked. A read outside the buffer, a write outside a
local array and a shift by a negative or too large amount have no result.
-/
namespace CcspPandM.MaptOptions

open BitWindow CString InetText MaptEaBits Runs

/-- The fields of `g_stMaptData` the parser writes. -/
structure MaptData where
  ruleIPv4Prefix : CStr
  ruleIPv6Prefix : CStr
  brIPv6Prefix : CStr
  ruleIPv6PrefixH : Bytes 24
  ruleIPv4PrefixLen : BitVec 16
  ruleIPv6PrefixLen : BitVec 16
  brIPv6PrefixLen : BitVec 16
  eaLen : BitVec 16
  psid : BitVec 16
  psidLen : BitVec 16
  psidOffset : BitVec 32
  ratio : BitVec 32
  bFMR : Bool

/-- `g_stMaptData` after the caller's `memset_s`. -/
def MaptData.cleared : MaptData :=
  ⟨[], [], [], Bytes.zero, 0#16, 0#16, 0#16, 0#16, 0#16, 0#16, 0#32, 0#32, false⟩

abbrev OptionBuf := List (BitVec 8)

variable (buf : OptionBuf)

def byteAt (i : ℕ) : ℕ := (buf.getD i 0#8).toNat

def readByte (i : ℕ) : Option ℕ :=
  if i < buf.length then some (byteAt buf i) else none

/-- `ntohs` of the two bytes at an index. -/
def shortAt (i : ℕ) : ℕ := byteAt buf i * 256 + byteAt buf (i + 1)

def readShort (i : ℕ) : Option ℕ :=
  if i + 2 ≤ buf.length then some (shortAt buf i) else none

/-- `memcpy_s` into an array of 24 bytes: a length that does not fit zeroes it
and reads nothing. -/
def memcpyS (dst : Bytes 24) (buf : OptionBuf) (p n : ℕ) : Option (Bytes 24) :=
  if 24 < n then some Bytes.zero
  else if p + n ≤ buf.length then
    some (fun k => if k.val < n then BitVec.ofNat 8 (byteAt buf (p + k.val)) else dst k)
  else none

/-- `1 << k`. -/
def shiftOne (k : ℤ) : Option (BitVec 32) :=
  if 0 ≤ k ∧ k < 32 then some (1#32 <<< k.toNat) else none

def cosaDmlMaptGetIPv6StringFromHex (pIPv6AddrH : Bytes 24) : CStr :=
  inet_ntop6 ((List.range 16).map (fun i => (pIPv6AddrH.byteAt i).toNat))

/-- Without EA bits the sharing ratio comes from the PSID length. -/
def psidRatio (g : MaptData) (psidLen : ℕ) : Option (BitVec 32) :=
  if g.eaLen = 0#16 then shiftOne psidLen else some g.ratio

def parsePortParams (pCurOption : ℕ) (g : MaptData) : Option MaptData := do
  let uiSubOptionLen ← readShort buf (pCurOption + 2)
  let uiSubOption ← readShort buf pCurOption
  if uiSubOption = 93 ∧ uiSubOptionLen = 4 then
    let offset ← readByte buf (pCurOption + 4)
    let psidLen ← readByte buf (pCurOption + 5)
    let ratio ← psidRatio g psidLen
    let bits ← readShort buf (pCurOption + 6)
    if psidLen ≤ 16 then
      some { g with
        psidOffset := if offset ≠ 0 then BitVec.ofNat 32 offset else 6#32
        psidLen := BitVec.ofNat 16 psidLen
        ratio := ratio
        psid := BitVec.ofNat 16 (bits >>> (16 - psidLen)) }
    else none
  else some g

/-- The prefix bytes of a rule, the last one cut to the bits it shares. -/
def ruleV6Addr (pCurOption v6ByteLen v6BitLen : ℕ) : Option (Bytes 24) := do
  let v6Addr ← memcpyS Bytes.zero buf pCurOption (v6ByteLen + if v6BitLen ≠ 0 then 1 else 0)
  if v6BitLen ≠ 0 then
    let octet ← v6Addr.read v6ByteLen
    v6Addr.write v6ByteLen (octet &&& (0xff#32 <<< (8 - v6BitLen)).setWidth 8)
  else some v6Addr

/-- The fields a rule sets. `memcpy_s` from `v6Addr` leaves the bytes past the
prefix as an earlier rule left them. -/
def storeRule (flags eaLen ruleIPv4PrefixLen : ℕ) (ipv4 : List ℕ) (ruleIPv6PrefixLen : ℕ)
    (v6Addr : Bytes 24) (ratio : BitVec 32) (g : MaptData) : MaptData :=
  let n := ruleIPv6PrefixLen / 8 + if ruleIPv6PrefixLen % 8 ≠ 0 then 1 else 0
  let ruleIPv6PrefixH : Bytes 24 :=
    if 24 < n then Bytes.zero
    else fun k => if k.val < n then v6Addr k else g.ruleIPv6PrefixH k
  { g with
    bFMR := flags % 2 = 1
    eaLen := BitVec.ofNat 16 eaLen
    ruleIPv4PrefixLen := BitVec.ofNat 16 ruleIPv4PrefixLen
    ruleIPv4Prefix := dotted ipv4
    ruleIPv6PrefixLen := BitVec.ofNat 16 ruleIPv6PrefixLen
    ruleIPv6PrefixH := ruleIPv6PrefixH
    ruleIPv6Prefix := cosaDmlMaptGetIPv6StringFromHex ruleIPv6PrefixH
    ratio := ratio
    psidOffset := 6#32 }

def parseRule (pCurOption uiOptionLen : ℕ) (g : MaptData) : Option MaptData := do
  let flags ← readByte buf pCurOption
  let eaLen ← readByte buf (pCurOption + 1)
  let ruleIPv4PrefixLen ← readByte buf (pCurOption + 2)
  let b0 ← readByte buf (pCurOption + 3)
  let b1 ← readByte buf (pCurOption + 4)
  let b2 ← readByte buf (pCurOption + 5)
  let b3 ← readByte buf (pCurOption + 6)
  let ruleIPv6PrefixLen ← readByte buf (pCurOption + 7)
  let v6ByteLen := ruleIPv6PrefixLen / 8
  let v6BitLen := ruleIPv6PrefixLen % 8
  let n := v6ByteLen + if v6BitLen ≠ 0 then 1 else 0
  let v6Addr ← ruleV6Addr buf (pCurOption + 8) v6ByteLen v6BitLen
  let bytesLeftOut := BitVec.ofInt 8 ((uiOptionLen : ℤ) - 8 - n)
  let ratio ← shiftOne ((eaLen : ℤ) - (32 - ruleIPv4PrefixLen))
  let g := storeRule flags eaLen ruleIPv4PrefixLen [b0, b1, b2, b3] ruleIPv6PrefixLen v6Addr ratio g
  -- Other leftovers only get a warning.
  if bytesLeftOut = 8#8 then parsePortParams buf (pCurOption + 8 + n) g else some g

def parseDmr (pCurOption : ℕ) (g : MaptData) : Option MaptData := do
  let brIPv6PrefixLen ← readByte buf pCurOption
  let ipv6Addr ← memcpyS Bytes.zero buf (pCurOption + 1) (brIPv6PrefixLen / 8)
  some { g with
    brIPv6PrefixLen := BitVec.ofNat 16 brIPv6PrefixLen
    brIPv6Prefix := cosaDmlMaptGetIPv6StringFromHex ipv6Addr }

/-- An option of the container: its type, where its payload starts, how long
the payload is. -/
structure MaptOption where
  uiOption : ℕ
  pCurOption : ℕ
  uiOptionLen : ℕ
  deriving DecidableEq, Repr

def parseOption (g : MaptData) (o : MaptOption) : Option MaptData :=
  if o.uiOption = 89 then parseRule buf o.pCurOption o.uiOptionLen g
  else if o.uiOption = 91 then parseDmr buf o.pCurOption g
  else some g

def parseOptions (pStartBuf : ℕ) (g : MaptData) :
    Option (ReturnStatus × MaptData) :=
  if pStartBuf + 4 ≤ buf.length then do
    let uiOptionLen ← readShort buf (pStartBuf + 2)
    let uiOption ← readShort buf pStartBuf
    if pStartBuf + 4 + uiOptionLen > buf.length then some (.STATUS_FAILURE, g)
    else do
      let g ← parseOption buf g ⟨uiOption, pStartBuf + 4, uiOptionLen⟩
      parseOptions (pStartBuf + 4 + uiOptionLen) g
  else some (.STATUS_SUCCESS, g)
termination_by buf.length - pStartBuf

def cosaDmlMaptParseResponse (pOptionBuf : Option OptionBuf) (g : MaptData) :
    Option (ReturnStatus × MaptData) :=
  match pOptionBuf with
  | none => some (.STATUS_FAILURE, g)
  | some buf => do
    let second ← readByte buf 1
    if second = 0 then some (.STATUS_FAILURE, g)
    else do
      let (retStatus, g) ← parseOptions buf 0 g
      if g.ruleIPv6PrefixLen = 0#16 ∨ g.brIPv6PrefixLen = 0#16 then some (.STATUS_FAILURE, g)
      else some (retStatus, g)

def options (pos : ℕ) : List MaptOption × Bool :=
  if pos + 4 ≤ buf.length then
    if pos + 4 + shortAt buf (pos + 2) > buf.length then ([], true)
    else
      let later := options (pos + 4 + shortAt buf (pos + 2))
      (⟨shortAt buf pos, pos + 4, shortAt buf (pos + 2)⟩ :: later.1, later.2)
  else ([], false)
termination_by buf.length - pos

section Fields

variable (buf : OptionBuf) (p L : ℕ)

def rulePrefixBytes : ℕ := (byteAt buf (p + 7) + 7) / 8

/-- The eight-bit counter says that eight bytes are left. -/
def PortParamsFollow : Prop := ((L : ℤ) - 8 - rulePrefixBytes buf p) % 256 = 8

def PortParamsUsed : Prop :=
  PortParamsFollow buf p L ∧ shortAt buf (p + 8 + rulePrefixBytes buf p) = 93 ∧
    shortAt buf (p + 8 + rulePrefixBytes buf p + 2) = 4

/-- What keeps a rule's reads in the buffer, its writes in `v6Addr` and its
shift amounts in range. -/
def RuleSafe : Prop :=
  p + 8 ≤ buf.length ∧
    (rulePrefixBytes buf p ≤ 24 → p + 8 + rulePrefixBytes buf p ≤ buf.length) ∧
    (byteAt buf (p + 7) % 8 ≠ 0 → byteAt buf (p + 7) < 192) ∧
    (32 ≤ byteAt buf (p + 1) + byteAt buf (p + 2) ∧
      byteAt buf (p + 1) + byteAt buf (p + 2) < 64) ∧
    (PortParamsFollow buf p L → p + 8 + rulePrefixBytes buf p + 4 ≤ buf.length) ∧
    (PortParamsUsed buf p L → p + 8 + rulePrefixBytes buf p + 8 ≤ buf.length ∧
      byteAt buf (p + 8 + rulePrefixBytes buf p + 5) ≤ 16)

def DmrSafe : Prop :=
  p + 1 ≤ buf.length ∧
    (byteAt buf p / 8 ≤ 24 → p + 1 + byteAt buf p / 8 ≤ buf.length)

/-- The fields a rule option uses lie in the option, with lengths in range. -/
def RuleInside : Prop :=
  8 + rulePrefixBytes buf p ≤ L ∧ byteAt buf (p + 2) ≤ 32 ∧ byteAt buf (p + 7) ≤ 128 ∧
    (PortParamsUsed buf p L → 8 + rulePrefixBytes buf p + 8 ≤ L ∧
      byteAt buf (p + 8 + rulePrefixBytes buf p + 5) ≤ 16)

def DmrInside : Prop := 1 + byteAt buf p / 8 ≤ L ∧ byteAt buf p ≤ 128

instance : Decidable (PortParamsFollow buf p L) := inferInstanceAs (Decidable (_ = _))

instance : Decidable (PortParamsUsed buf p L) := inferInstanceAs (Decidable (_ ∧ _))

instance : Decidable (RuleSafe buf p L) := inferInstanceAs (Decidable (_ ∧ _))

instance : Decidable (DmrSafe buf p) := inferInstanceAs (Decidable (_ ∧ _))

instance : Decidable (RuleInside buf p L) := inferInstanceAs (Decidable (_ ∧ _))

instance : Decidable (DmrInside buf p L) := inferInstanceAs (Decidable (_ ∧ _))

end Fields

def OptionSafe (o : MaptOption) : Prop :=
  (o.uiOption = 89 → RuleSafe buf o.pCurOption o.uiOptionLen) ∧
    (o.uiOption = 91 → DmrSafe buf o.pCurOption)

def OptionInside (o : MaptOption) : Prop :=
  (o.uiOption = 89 → RuleInside buf o.pCurOption o.uiOptionLen) ∧
    (o.uiOption = 91 → DmrInside buf o.pCurOption o.uiOptionLen)

/-- Every option lies in the buffer, and what the parser uses in its option. -/
def WellFormed : Prop :=
  (options buf 0).2 = false ∧ ∀ o ∈ (options buf 0).1, OptionInside buf o

def prefixLens (g : MaptData) : BitVec 16 × BitVec 16 := (g.ruleIPv6PrefixLen, g.brIPv6PrefixLen)

def updateLens (lens : BitVec 16 × BitVec 16) (o : MaptOption) :
    BitVec 16 × BitVec 16 :=
  if o.uiOption = 89 then (BitVec.ofNat 16 (byteAt buf (o.pCurOption + 7)), lens.2)
  else if o.uiOption = 91 then (lens.1, BitVec.ofNat 16 (byteAt buf o.pCurOption))
  else lens

/-- No option overruns the buffer, and the last rule and the last DMR option
have prefix lengths other than zero. -/
def Accepted (lens : BitVec 16 × BitVec 16) : Prop :=
  (options buf 0).2 = false ∧
    ((options buf 0).1.foldl (updateLens buf) lens).1 ≠ 0#16 ∧
    ((options buf 0).1.foldl (updateLens buf) lens).2 ≠ 0#16

variable {i : ℕ}

theorem readByte_of_lt {buf : OptionBuf} (h : i < buf.length) :
    readByte buf i = some (byteAt buf i) := if_pos h

theorem readByte_of_le {buf : OptionBuf} (h : buf.length ≤ i) :
    readByte buf i = none := if_neg (Nat.not_lt.mpr h)

theorem readShort_of_le {buf : OptionBuf} (h : i + 2 ≤ buf.length) :
    readShort buf i = some (shortAt buf i) := if_pos h

theorem readShort_of_lt {buf : OptionBuf} (h : buf.length < i + 2) :
    readShort buf i = none := if_neg (Nat.not_le.mpr h)

theorem shiftOne_isSome_iff (k : ℤ) : (shiftOne k).isSome ↔ 0 ≤ k ∧ k < 32 := by
  unfold shiftOne
  split <;> simp_all

theorem memcpyS_isSome_iff (dst : Bytes 24) (buf : OptionBuf) (p n : ℕ) :
    (memcpyS dst buf p n).isSome ↔ (n ≤ 24 → p + n ≤ buf.length) := by
  unfold memcpyS
  by_cases h24 : 24 < n
  · rw [if_pos h24]
    exact iff_of_true rfl (fun h => by omega)
  · rw [if_neg h24]
    by_cases hp : p + n ≤ buf.length
    · rw [if_pos hp]
      exact iff_of_true rfl (fun _ => hp)
    · rw [if_neg hp]
      exact iff_of_false (by simp) (fun h => hp (h (by omega)))

private theorem prefixBytes_eq (len : ℕ) :
    (len / 8 + if len % 8 ≠ 0 then 1 else 0) = (len + 7) / 8 := by
  split <;> omega

theorem ruleV6Addr_isSome_iff (p len : ℕ) :
    (ruleV6Addr buf p (len / 8) (len % 8)).isSome ↔
      ((len + 7) / 8 ≤ 24 → p + (len + 7) / 8 ≤ buf.length) ∧ (len % 8 ≠ 0 → len < 192) := by
  unfold ruleV6Addr
  rw [prefixBytes_eq, ← memcpyS_isSome_iff Bytes.zero]
  cases memcpyS Bytes.zero buf p ((len + 7) / 8) with
  | none => simp
  | some v6Addr =>
    simp only [Option.bind_eq_bind, Option.bind_some, Option.isSome_some, true_and]
    by_cases hbit : len % 8 = 0
    · simp [hbit]
    · rw [if_pos hbit]
      by_cases hlen : len < 192
      · rw [Bytes.read_of_lt _ (by omega), Option.bind_some, Bytes.write, if_pos (by omega)]
        exact iff_of_true rfl (fun _ => hlen)
      · rw [Bytes.read_of_le _ (by omega), Option.bind_none]
        exact iff_of_false (by simp) (fun h => hlen (h hbit))

theorem parsePortParams_isSome_iff (p : ℕ) (g : MaptData) :
    (parsePortParams buf p g).isSome ↔ p + 4 ≤ buf.length ∧
      (shortAt buf p = 93 ∧ shortAt buf (p + 2) = 4 →
        p + 8 ≤ buf.length ∧ byteAt buf (p + 5) ≤ 16) := by
  unfold parsePortParams
  by_cases h4 : p + 4 ≤ buf.length
  swap
  · rw [readShort_of_lt (by omega)]
    simp [h4]
  rw [readShort_of_le (by omega), readShort_of_le (by omega)]
  simp only [Option.bind_eq_bind, Option.bind_some, h4, true_and]
  by_cases hsub : shortAt buf p = 93 ∧ shortAt buf (p + 2) = 4
  swap
  · simp [hsub]
  rw [if_pos hsub, forall_prop_of_true hsub]
  by_cases h8 : p + 8 ≤ buf.length
  swap
  · rw [readShort_of_lt (by omega : buf.length < p + 6 + 2)]
    simp [h8]
  rw [readByte_of_lt (by omega), readByte_of_lt (by omega), readShort_of_le (by omega)]
  simp only [Option.bind_some, h8, true_and]
  by_cases hpsid : byteAt buf (p + 5) ≤ 16
  · have hshift := (shiftOne_isSome_iff (byteAt buf (p + 5))).mpr (by omega)
    obtain ⟨r, hr⟩ := Option.isSome_iff_exists.mp hshift
    unfold psidRatio
    rw [hr]
    split <;> simp [hpsid]
  · simp [hpsid]

private theorem bytesLeftOut_eq_iff (x : ℤ) : BitVec.ofInt 8 x = 8#8 ↔ x % 256 = 8 := by
  rw [← BitVec.toNat_inj, BitVec.toNat_ofInt]
  change (x % 256).toNat = 8 ↔ _
  omega

theorem parseRule_eq (p L : ℕ) (g : MaptData) (h : p + 8 ≤ buf.length) :
    parseRule buf p L g =
      (ruleV6Addr buf (p + 8) (byteAt buf (p + 7) / 8) (byteAt buf (p + 7) % 8)).bind
        (fun v6Addr => (shiftOne ((byteAt buf (p + 1) : ℤ) - (32 - byteAt buf (p + 2)))).bind
          (fun ratio =>
            let g' := storeRule (byteAt buf p) (byteAt buf (p + 1)) (byteAt buf (p + 2))
              [byteAt buf (p + 3), byteAt buf (p + 4), byteAt buf (p + 5), byteAt buf (p + 6)]
              (byteAt buf (p + 7)) v6Addr ratio g
            if PortParamsFollow buf p L then
              parsePortParams buf (p + 8 + rulePrefixBytes buf p) g'
            else some g')) := by
  simp only [parseRule, readByte_of_lt (show p < buf.length by omega),
    readByte_of_lt (show p + 1 < buf.length by omega),
    readByte_of_lt (show p + 2 < buf.length by omega),
    readByte_of_lt (show p + 3 < buf.length by omega),
    readByte_of_lt (show p + 4 < buf.length by omega),
    readByte_of_lt (show p + 5 < buf.length by omega),
    readByte_of_lt (show p + 6 < buf.length by omega),
    readByte_of_lt (show p + 7 < buf.length by omega), Option.bind_eq_bind, Option.bind_some,
    bytesLeftOut_eq_iff, prefixBytes_eq, PortParamsFollow, rulePrefixBytes]
  rfl

theorem parseRule_isSome_iff (p L : ℕ) (g : MaptData) :
    (parseRule buf p L g).isSome ↔ RuleSafe buf p L := by
  unfold RuleSafe
  by_cases h8 : p + 8 ≤ buf.length
  swap
  · simp only [parseRule, readByte_of_le (show buf.length ≤ p + 7 by omega), Option.bind_eq_bind,
      Option.bind_none, Option.bind_fun_none, h8, false_and, Option.isSome_none,
      Bool.false_eq_true]
  have hv := ruleV6Addr_isSome_iff buf (p + 8) (byteAt buf (p + 7))
  have hr := shiftOne_isSome_iff ((byteAt buf (p + 1) : ℤ) - (32 - byteAt buf (p + 2)))
  have hratio : (0 ≤ (byteAt buf (p + 1) : ℤ) - (32 - byteAt buf (p + 2)) ∧
      (byteAt buf (p + 1) : ℤ) - (32 - byteAt buf (p + 2)) < 32) ↔
      32 ≤ byteAt buf (p + 1) + byteAt buf (p + 2) ∧
        byteAt buf (p + 1) + byteAt buf (p + 2) < 64 := by
    omega
  rw [hratio] at hr
  rw [parseRule_eq buf p L g h8, ← and_assoc (a := _ → _), rulePrefixBytes, ← hv, ← hr]
  cases ruleV6Addr buf (p + 8) (byteAt buf (p + 7) / 8) (byteAt buf (p + 7) % 8) with
  | none => simp
  | some v6Addr =>
    cases shiftOne ((byteAt buf (p + 1) : ℤ) - (32 - byteAt buf (p + 2))) with
    | none => simp
    | some ratio =>
      simp only [Option.bind_some, Option.isSome_some, h8, true_and]
      by_cases hf : PortParamsFollow buf p L
      · rw [if_pos hf, parsePortParams_isSome_iff, forall_prop_of_true hf]
        simp only [PortParamsUsed, hf, true_and, rulePrefixBytes]
      · rw [if_neg hf]
        refine iff_of_true rfl ⟨fun h => absurd h hf, fun h => absurd h.1 hf⟩

theorem parseDmr_isSome_iff (p : ℕ) (g : MaptData) :
    (parseDmr buf p g).isSome ↔ DmrSafe buf p := by
  unfold parseDmr DmrSafe
  by_cases h1 : p + 1 ≤ buf.length
  swap
  · rw [readByte_of_le (by omega)]
    simp [h1]
  rw [readByte_of_lt (by omega), ← memcpyS_isSome_iff Bytes.zero]
  simp only [Option.bind_eq_bind, Option.bind_some]
  cases memcpyS Bytes.zero buf (p + 1) (byteAt buf p / 8) <;> simp [h1]

theorem parseOption_isSome_iff (g : MaptData) (o : MaptOption) :
    (parseOption buf g o).isSome ↔ OptionSafe buf o := by
  unfold parseOption OptionSafe
  by_cases h89 : o.uiOption = 89
  · rw [if_pos h89, parseRule_isSome_iff]
    simp [h89]
  · rw [if_neg h89]
    by_cases h91 : o.uiOption = 91
    · rw [if_pos h91, parseDmr_isSome_iff]
      simp [h91]
    · rw [if_neg h91]
      simp [h89, h91]

theorem parsePortParams_lens {buf : OptionBuf} {p : ℕ} {g g' : MaptData}
    (h : parsePortParams buf p g = some g') : prefixLens g' = prefixLens g := by
  simp only [parsePortParams, Option.bind_eq_bind, Option.bind_eq_some_iff] at h
  obtain ⟨len, -, opt, -, h⟩ := h
  split at h
  · simp only [Option.bind_eq_some_iff] at h
    obtain ⟨offset, -, psidLen, -, ratio, -, bits, -, h⟩ := h
    split at h
    · rw [Option.some.injEq] at h
      rw [← h]
      rfl
    · cases h
  · rw [Option.some.injEq] at h
    rw [h]

theorem parseOption_lens {buf : OptionBuf} {g g' : MaptData} {o : MaptOption}
    (h : parseOption buf g o = some g') : prefixLens g' = updateLens buf (prefixLens g) o := by
  unfold parseOption at h
  unfold updateLens
  by_cases h89 : o.uiOption = 89
  · rw [if_pos h89] at h ⊢
    have hsafe := (parseRule_isSome_iff buf o.pCurOption o.uiOptionLen g).mp (by rw [h]; rfl)
    rw [parseRule_eq buf _ _ g hsafe.1] at h
    simp only [Option.bind_eq_some_iff] at h
    obtain ⟨v6Addr, -, ratio, -, h⟩ := h
    split at h
    · exact parsePortParams_lens h
    · rw [Option.some.injEq] at h
      rw [← h]
      rfl
  rw [if_neg h89] at h ⊢
  by_cases h91 : o.uiOption = 91
  · rw [if_pos h91] at h ⊢
    have hsafe := (parseDmr_isSome_iff buf o.pCurOption g).mp (by rw [h]; rfl)
    rw [parseDmr, readByte_of_lt hsafe.1] at h
    simp only [Option.bind_eq_bind, Option.bind_some, Option.bind_eq_some_iff] at h
    obtain ⟨ipv6Addr, -, h⟩ := h
    rw [Option.some.injEq] at h
    rw [← h]
    rfl
  · rw [if_neg h91, Option.some.injEq] at h
    rw [if_neg h91, h]

theorem parseOptions_eq_run (pos : ℕ) (g : MaptData) :
    parseOptions buf pos g = (run (parseOption buf) g (options buf pos).1).map (fun g' =>
      (if (options buf pos).2 then ReturnStatus.STATUS_FAILURE else .STATUS_SUCCESS, g')) := by
  induction pos using options.induct buf generalizing g with
  | case1 pos hfit hover =>
    rw [parseOptions, if_pos hfit, readShort_of_le (by omega), readShort_of_le (by omega), options,
      if_pos hfit, if_pos hover]
    simp only [Option.bind_eq_bind, Option.bind_some, if_pos hover, run_nil, Option.map_some,
      if_true]
  | case2 pos hfit hover ih =>
    rw [parseOptions, if_pos hfit, readShort_of_le (by omega), readShort_of_le (by omega), options,
      if_pos hfit, if_neg hover]
    simp only [Option.bind_eq_bind, Option.bind_some, if_neg hover, run_cons, Option.map_bind, ih]
    rfl
  | case3 pos hfit =>
    rw [parseOptions, if_neg hfit, options, if_neg hfit]
    rfl

theorem cosaDmlMaptParseResponse_eq_some_iff (g : MaptData)
    (hlen : 2 ≤ buf.length) (hsecond : byteAt buf 1 ≠ 0) (retStatus : ReturnStatus) :
    (∃ g', cosaDmlMaptParseResponse (some buf) g = some (retStatus, g')) ↔
      (∀ o ∈ (options buf 0).1, OptionSafe buf o) ∧
        (retStatus = .STATUS_SUCCESS ↔ Accepted buf (prefixLens g)) := by
  have hsafe := run_isSome_iff (parseOption buf) (parseOption_isSome_iff buf) g (options buf 0).1
  simp only [cosaDmlMaptParseResponse, readByte_of_lt (show 1 < buf.length by omega),
    Option.bind_eq_bind, Option.bind_some, if_neg hsecond, parseOptions_eq_run]
  rw [← hsafe]
  cases hrun : run (parseOption buf) g (options buf 0).1 with
  | none => simp
  | some g' =>
    have hview := run_view (parseOption buf) (fun s o t h => parseOption_lens h) hrun
    have hlens : ((options buf 0).1.foldl (updateLens buf) (prefixLens g)) =
        (g'.ruleIPv6PrefixLen, g'.brIPv6PrefixLen) := hview.symm
    simp only [Option.map_some, Option.bind_some, Option.isSome_some, true_and, Accepted, hlens]
    by_cases hzero : g'.ruleIPv6PrefixLen = 0#16 ∨ g'.brIPv6PrefixLen = 0#16
    · simp only [if_pos hzero, Option.some.injEq, Prod.mk.injEq, exists_and_left, exists_eq',
        and_true]
      have hno : ¬ ((options buf 0).2 = false ∧ g'.ruleIPv6PrefixLen ≠ 0#16 ∧
          g'.brIPv6PrefixLen ≠ 0#16) := by
        rintro ⟨-, h1, h2⟩
        exact hzero.elim h1 h2
      cases retStatus <;> simp [hno]
    · simp only [if_neg hzero, Option.some.injEq, Prod.mk.injEq, exists_and_left, exists_eq',
        and_true]
      rw [not_or] at hzero
      cases hover : (options buf 0).2 <;> cases retStatus <;> simp [hzero]

/-- Parsing is safe, and success means well formed, exactly for the buffers
whose reached options are safe and, if they are accepted, stay inside. -/
theorem cosaDmlMaptParseResponse_safe_iff (g : MaptData) :
    (∃ retStatus g', cosaDmlMaptParseResponse (some buf) g = some (retStatus, g') ∧
      (retStatus = .STATUS_SUCCESS → WellFormed buf)) ↔
    2 ≤ buf.length ∧ (byteAt buf 1 = 0 ∨
      ((∀ o ∈ (options buf 0).1, OptionSafe buf o) ∧
        (Accepted buf (prefixLens g) → ∀ o ∈ (options buf 0).1, OptionInside buf o))) := by
  by_cases hlen : 2 ≤ buf.length
  swap
  · have hnone : cosaDmlMaptParseResponse (some buf) g = none := by
      simp only [cosaDmlMaptParseResponse, readByte_of_le (show buf.length ≤ 1 by omega),
        Option.bind_eq_bind, Option.bind_none]
    simp [hnone, hlen]
  by_cases hsecond : byteAt buf 1 = 0
  · refine iff_of_true ⟨.STATUS_FAILURE, g, ?_, fun h => by cases h⟩ ⟨hlen, Or.inl hsecond⟩
    simp only [cosaDmlMaptParseResponse, readByte_of_lt (show 1 < buf.length by omega),
      Option.bind_eq_bind, Option.bind_some, if_pos hsecond]
  have hres := cosaDmlMaptParseResponse_eq_some_iff buf g hlen hsecond
  constructor
  · rintro ⟨retStatus, g', hparse, hwf⟩
    obtain ⟨hsafe, hstatus⟩ := (hres retStatus).mp ⟨g', hparse⟩
    exact ⟨hlen, Or.inr ⟨hsafe, fun hacc => (hwf (hstatus.mpr hacc)).2⟩⟩
  · rintro ⟨-, h | ⟨hsafe, hinside⟩⟩
    · exact absurd h hsecond
    by_cases hacc : Accepted buf (prefixLens g)
    · obtain ⟨g', hparse⟩ := (hres .STATUS_SUCCESS).mpr ⟨hsafe, iff_of_true rfl hacc⟩
      exact ⟨_, g', hparse, fun _ => ⟨hacc.1, hinside hacc⟩⟩
    · obtain ⟨g', hparse⟩ := (hres .STATUS_FAILURE).mpr
        ⟨hsafe, iff_of_false (fun h => by cases h) hacc⟩
      exact ⟨_, g', hparse, fun h => by cases h⟩

/-- An empty rule option at the end of the buffer: its fields are read behind
the end. -/
theorem cosaDmlMaptParseResponse_empty_rule :
    ¬ ∀ (buf : OptionBuf) (g : MaptData), ∃ retStatus g',
      cosaDmlMaptParseResponse (some buf) g = some (retStatus, g') ∧
        (retStatus = .STATUS_SUCCESS → WellFormed buf) := by
  intro h
  obtain ⟨retStatus, g', hparse, -⟩ := h [0#8, 89#8, 0#8, 0#8] MaptData.cleared
  have hread : parseOption [0#8, 89#8, 0#8, 0#8] MaptData.cleared ⟨89, 4, 0⟩ = none := rfl
  have hnone : parseOptions [0#8, 89#8, 0#8, 0#8] 0 MaptData.cleared = none := by
    rw [parseOptions]
    simp [readShort, shortAt, byteAt, hread]
  simp [cosaDmlMaptParseResponse, readByte, byteAt, hnone] at hparse

end CcspPandM.MaptOptions
