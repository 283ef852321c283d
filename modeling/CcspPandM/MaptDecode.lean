import CcspPandM.MaptOptions
import CcspPandM.PrefixText
import Mathlib.Data.List.GetD

/-!
Well-formed option-95 containers and what the MAP-T parser makes of them. The
data of the last rule and of the last DMR option decide the result, except for
two things an earlier rule leaves: prefix bytes past a shorter prefix, and its
PSID when the last rule has no port parameters.
-/
namespace CcspPandM.MaptDecode

open BitWindow CString InetText PrefixText MaptEaBits MaptOptions

/-- The port parameters of a rule; the PSID is in the first bits of its field. -/
structure PortParams where
  offset : BitVec 8
  psidLen : BitVec 8
  psidField : BitVec 16
  psidLen_le : psidLen.toNat ≤ 16

/-- An S46_RULE option; of the IPv6 prefix the bytes its length covers are sent. -/
structure Rule where
  flags : BitVec 8
  eaLen : BitVec 8
  prefix4Len : BitVec 8
  ipv4Prefix : Bytes 4
  prefix6Len : BitVec 8
  ipv6Prefix : Bytes 16
  portParams : Option PortParams
  prefix4Len_le : prefix4Len.toNat ≤ 32
  prefix6Len_pos : 1 ≤ prefix6Len.toNat
  prefix6Len_le : prefix6Len.toNat ≤ 128
  eaLen_ge : 32 ≤ eaLen.toNat + prefix4Len.toNat
  eaLen_le : eaLen.toNat + prefix4Len.toNat ≤ 48

structure Dmr where
  prefixLen : BitVec 8
  ipv6Prefix : Bytes 16
  prefixLen_pos : 0 < prefixLen.toNat
  prefixLen_le : prefixLen.toNat ≤ 128
  prefixLen_octets : prefixLen.toNat % 8 = 0

structure Unknown where
  optType : ℕ
  payload : OptionBuf
  optType_lt : optType < 2 ^ 16
  not_rule : optType ≠ 89
  not_dmr : optType ≠ 91
  payload_lt : payload.length < 2 ^ 16

inductive SubOption where
  | rule (r : Rule)
  | dmr (d : Dmr)
  | unknown (u : Unknown)

def shortBytes (n : ℕ) : OptionBuf := [BitVec.ofNat 8 (n / 256), BitVec.ofNat 8 n]

def PortParams.encode (q : PortParams) : OptionBuf :=
  shortBytes 93 ++ shortBytes 4 ++ [q.offset, q.psidLen] ++ shortBytes q.psidField.toNat

def Rule.prefixBytes (r : Rule) : ℕ := (r.prefix6Len.toNat + 7) / 8

def Rule.payload (r : Rule) : OptionBuf :=
  [r.flags, r.eaLen, r.prefix4Len, r.ipv4Prefix 0, r.ipv4Prefix 1, r.ipv4Prefix 2, r.ipv4Prefix 3,
    r.prefix6Len] ++ (List.range r.prefixBytes).map r.ipv6Prefix.byteAt ++
      (r.portParams.map PortParams.encode).getD []

def Dmr.payload (d : Dmr) : OptionBuf :=
  [d.prefixLen] ++ (List.range (d.prefixLen.toNat / 8)).map d.ipv6Prefix.byteAt

namespace SubOption

def optType : SubOption → ℕ
  | .rule _ => 89
  | .dmr _ => 91
  | .unknown u => u.optType

def payload : SubOption → OptionBuf
  | .rule r => r.payload
  | .dmr d => d.payload
  | .unknown u => u.payload

def encode (o : SubOption) : OptionBuf :=
  shortBytes o.optType ++ shortBytes o.payload.length ++ o.payload

def rule? : SubOption → Option Rule
  | .rule r => some r
  | _ => none

def dmr? : SubOption → Option Dmr
  | .dmr d => some d
  | _ => none

end SubOption

def container (opts : List SubOption) : OptionBuf := opts.flatMap SubOption.encode

def rules (opts : List SubOption) : List Rule := opts.filterMap SubOption.rule?

def dmrs (opts : List SubOption) : List Dmr := opts.filterMap SubOption.dmr?

def Rule.psidOffset (r : Rule) : ℕ :=
  match r.portParams with
  | some q => if q.offset = 0#8 then 6 else q.offset.toNat
  | none => 6

def Rule.psidLen (r : Rule) : ℕ := (r.portParams.map (fun q => q.psidLen.toNat)).getD 0

def Rule.psid (r : Rule) : ℕ :=
  (r.portParams.map (fun q => q.psidField.toNat / 2 ^ (16 - q.psidLen.toNat))).getD 0

def firstBits {n m : ℕ} (len : ℕ) (b : Bytes n) : Bytes m :=
  fun k => BitVec.ofNat 8 (number (fun j => decide (j < len) && b.bit j) (8 * k.val) 8)

def Rule.eaRatio (r : Rule) : ℕ := 2 ^ (r.eaLen.toNat - (32 - r.prefix4Len.toNat))

structure DmrDecoded (d : Dmr) (g : MaptData) : Prop where
  brIPv6PrefixLen : g.brIPv6PrefixLen.toNat = d.prefixLen.toNat
  brIPv6Prefix : g.brIPv6Prefix =
    inet_ntop6 (octets (firstBits d.prefixLen.toNat d.ipv6Prefix : Bytes 16))

/-- The decoding of a rule and a DMR with nothing left from other options. -/
structure Decoded (r : Rule) (d : Dmr) (g : MaptData) : Prop extends DmrDecoded d g where
  bFMR : g.bFMR = r.flags.getLsbD 0
  eaLen : g.eaLen.toNat = r.eaLen.toNat
  ruleIPv4PrefixLen : g.ruleIPv4PrefixLen.toNat = r.prefix4Len.toNat
  ruleIPv4Prefix : g.ruleIPv4Prefix =
    dotted (octets (firstBits r.prefix4Len.toNat r.ipv4Prefix : Bytes 4))
  ruleIPv6PrefixLen : g.ruleIPv6PrefixLen.toNat = r.prefix6Len.toNat
  ruleIPv6PrefixH : g.ruleIPv6PrefixH = firstBits r.prefix6Len.toNat r.ipv6Prefix
  ruleIPv6Prefix : g.ruleIPv6Prefix =
    inet_ntop6 (octets (firstBits r.prefix6Len.toNat r.ipv6Prefix : Bytes 16))
  psidOffset : g.psidOffset.toNat = r.psidOffset
  ratio : g.ratio.toNat = r.eaRatio
  psidLen : g.psidLen.toNat = r.psidLen
  psid : g.psid.toNat = r.psid

/-- Without EA bits the PSID length gives the ratio. -/
def Rule.ratio (r : Rule) : ℕ :=
  match r.portParams with
  | some q => if r.eaLen = 0#8 then 2 ^ q.psidLen.toNat else r.eaRatio
  | none => r.eaRatio

/-- What is left of the last of several rules: its own prefix when none is
longer, and its own PSID when it has port parameters or no rule has. -/
structure RuleDecoded (all : List Rule) (r : Rule) (g : MaptData) : Prop where
  bFMR : g.bFMR = r.flags.getLsbD 0
  eaLen : g.eaLen.toNat = r.eaLen.toNat
  ruleIPv4PrefixLen : g.ruleIPv4PrefixLen.toNat = r.prefix4Len.toNat
  ruleIPv4Prefix : (∀ j, r.prefix4Len.toNat ≤ j → r.ipv4Prefix.bit j = false) →
    g.ruleIPv4Prefix = dotted (octets (firstBits r.prefix4Len.toNat r.ipv4Prefix : Bytes 4))
  ruleIPv6PrefixLen : g.ruleIPv6PrefixLen.toNat = r.prefix6Len.toNat
  ruleIPv6PrefixH : (∀ r' ∈ all, r'.prefixBytes ≤ r.prefixBytes) →
    g.ruleIPv6PrefixH = firstBits r.prefix6Len.toNat r.ipv6Prefix
  ruleIPv6Prefix : (∀ r' ∈ all, r'.prefixBytes ≤ r.prefixBytes) →
    g.ruleIPv6Prefix = inet_ntop6 (octets (firstBits r.prefix6Len.toNat r.ipv6Prefix : Bytes 16))
  psidOffset : g.psidOffset.toNat = r.psidOffset
  ratio : g.ratio.toNat = r.ratio
  psidLen : (r.portParams = none → ∀ r' ∈ all, r'.portParams = none) →
    g.psidLen.toNat = r.psidLen
  psid : (r.portParams = none → ∀ r' ∈ all, r'.portParams = none) → g.psid.toNat = r.psid

/-- The low byte of the first type is what the parser takes a response by. -/
def Present (opts : List SubOption) : Prop :=
  ∃ o rest, opts = o :: rest ∧ o.optType % 256 ≠ 0

section bits

variable {n m : ℕ} (len : ℕ) (b : Bytes n)

theorem firstBits_byte (k : Fin m) (t : ℕ) (ht : t < 8) :
    ((firstBits len b : Bytes m) k).getMsbD t =
    (decide (8 * k.val + t < len) && b.bit (8 * k.val + t)) := by
  have hlt := number_lt (fun j => decide (j < len) && b.bit j) (8 * k.val) 8
  have hnumber : number ((firstBits len b : Bytes m) k).getMsbD 0 8 =
      number (fun j => decide (j < len) && b.bit j) (8 * k.val) 8 := by
    rw [number_eq_byte, firstBits, BitVec.toNat_ofNat, Nat.mod_eq_of_lt hlt]
  have hbit := (number_eq_iff _ _ _ _ _).mp hnumber t ht
  rwa [Nat.zero_add] at hbit

theorem bit_byte {k t : ℕ} (ht : t < 8) : b.bit (8 * k + t) = (b.byteAt k).getMsbD t := by
  have hdiv : (8 * k + t) / 8 = k := by omega
  have hmod : (8 * k + t) % 8 = t := by omega
  rw [Bytes.bit, hdiv, hmod]

theorem firstBits_eq (k : Fin m) (v : ℕ) (hv : v < 8) (j : ℕ) :
    (firstBits (8 * j + v) b : Bytes m) k =
      if k.val < j then b.byteAt k.val
      else if k.val = j then b.byteAt k.val &&& (0xff#32 <<< (8 - v)).setWidth 8
      else 0#8 := by
  have hmask : ∀ v < 8, ∀ t < 8,
      ((0xff#32 <<< (8 - v)).setWidth 8).getMsbD t = decide (t < v) := by decide
  apply BitVec.eq_of_getMsbD_eq
  intro t ht
  rw [firstBits_byte _ _ _ _ ht, bit_byte _ ht]
  by_cases hlt : k.val < j
  · rw [if_pos hlt, decide_eq_true (by omega), Bool.true_and]
  · rw [if_neg hlt]
    by_cases heq : k.val = j
    · rw [if_pos heq, BitVec.getMsbD_and, hmask v hv t ht, Bool.and_comm]
      congr 1
      rw [decide_eq_decide]
      omega
    · rw [if_neg heq, decide_eq_false (by omega), Bool.false_and, BitVec.getMsbD_zero]

end bits

variable {buf : OptionBuf} {p : ℕ}

section buffers

def Reads (buf : OptionBuf) (p : ℕ) (l : OptionBuf) : Prop :=
  p + l.length ≤ buf.length ∧ ∀ i < l.length, byteAt buf (p + i) = byteAt l i

theorem byteAt_append_right (l l' : OptionBuf) (i : ℕ) :
    byteAt (l ++ l') (l.length + i) = byteAt l' i := by
  rw [byteAt, byteAt, List.getD_append_right _ _ _ _ (Nat.le_add_right ..), Nat.add_sub_cancel_left]

theorem byteAt_append_left (l l' : OptionBuf) {i : ℕ} (h : i < l.length) :
    byteAt (l ++ l') i = byteAt l i := by
  rw [byteAt, byteAt, List.getD_append _ _ _ _ h]

theorem reads_self (pre l post : OptionBuf) : Reads (pre ++ (l ++ post)) pre.length l := by
  refine ⟨by simp, fun i hi => ?_⟩
  rw [byteAt_append_right, byteAt_append_left _ _ hi]

theorem reads_append {buf l l' : OptionBuf} (h : Reads buf p (l ++ l')) :
    Reads buf p l ∧ Reads buf (p + l.length) l' := by
  obtain ⟨hlen, hbytes⟩ := h
  rw [List.length_append] at hlen hbytes
  refine ⟨⟨by omega, fun i hi => ?_⟩, ⟨by omega, fun i hi => ?_⟩⟩
  · rw [hbytes i (by omega), byteAt_append_left _ _ hi]
  · rw [Nat.add_assoc, hbytes _ (by omega), byteAt_append_right]

theorem shortAt_shortBytes {p n : ℕ} (h : Reads buf p (shortBytes n))
    (hn : n < 2 ^ 16) : shortAt buf p = n := by
  have h0 : byteAt buf (p + 0) = (BitVec.ofNat 8 (n / 256)).toNat := h.2 0 Nat.two_pos
  have h1 : byteAt buf (p + 1) = (BitVec.ofNat 8 n).toNat := h.2 1 Nat.one_lt_two
  rw [Nat.add_zero] at h0
  rw [shortAt, h0, h1, BitVec.toNat_ofNat, BitVec.toNat_ofNat]
  omega

theorem byteAt_front {n : ℕ} {b : Bytes n} {m i : ℕ} (h : i < m) :
    byteAt ((List.range m).map b.byteAt) i = (b.byteAt i).toNat := by
  simp [byteAt, List.getD_eq_getElem?_getD, h]

theorem memcpyS_front {p m : ℕ} {b : Bytes 16} (hm : m ≤ 16)
    (h : Reads buf p ((List.range m).map b.byteAt)) :
    memcpyS Bytes.zero buf p m = some (fun k => if k.val < m then b.byteAt k.val else 0#8) := by
  have hlen : p + m ≤ buf.length := by simpa using h.1
  rw [memcpyS, if_neg (by omega), if_pos hlen]
  congr 1
  funext k
  by_cases hk : k.val < m
  · have hbyte := h.2 k.val (by simpa using hk)
    rw [byteAt_front hk] at hbyte
    rw [if_pos hk, if_pos hk, hbyte, BitVec.ofNat_toNat, BitVec.setWidth_eq]
  · rw [if_neg hk, if_neg hk]
    rfl

end buffers

variable (opts : List SubOption) (o : SubOption)

section options

def PortParams.store (q : PortParams) (g : MaptData) : MaptData :=
  { g with
    psidOffset := if q.offset.toNat ≠ 0 then BitVec.ofNat 32 q.offset.toNat else 6#32
    psidLen := BitVec.ofNat 16 q.psidLen.toNat
    ratio := if g.eaLen = 0#16 then 1#32 <<< q.psidLen.toNat else g.ratio
    psid := BitVec.ofNat 16 (q.psidField.toNat >>> (16 - q.psidLen.toNat)) }

def Rule.ipv4Octets (r : Rule) : List ℕ :=
  [(r.ipv4Prefix 0).toNat, (r.ipv4Prefix 1).toNat, (r.ipv4Prefix 2).toNat, (r.ipv4Prefix 3).toNat]

def Rule.fixed (r : Rule) (g : MaptData) : MaptData :=
  storeRule r.flags.toNat r.eaLen.toNat r.prefix4Len.toNat r.ipv4Octets r.prefix6Len.toNat
    (firstBits r.prefix6Len.toNat r.ipv6Prefix)
    (1#32 <<< (r.eaLen.toNat - (32 - r.prefix4Len.toNat))) g

def Rule.store (r : Rule) (g : MaptData) : MaptData :=
  match r.portParams with
  | some q => q.store (r.fixed g)
  | none => r.fixed g

def Dmr.store (d : Dmr) (g : MaptData) : MaptData :=
  { g with
    brIPv6PrefixLen := BitVec.ofNat 16 d.prefixLen.toNat
    brIPv6Prefix :=
      cosaDmlMaptGetIPv6StringFromHex (firstBits d.prefixLen.toNat d.ipv6Prefix) }

def SubOption.store (g : MaptData) : SubOption → MaptData
  | .rule r => r.store g
  | .dmr d => d.store g
  | .unknown _ => g

theorem ruleV6Addr_eq {p len : ℕ} {b : Bytes 16} (hlen : len ≤ 128)
    (h : Reads buf p ((List.range ((len + 7) / 8)).map b.byteAt)) :
    ruleV6Addr buf p (len / 8) (len % 8) = some (firstBits len b) := by
  have hbytes : (len / 8 + if len % 8 ≠ 0 then 1 else 0) = (len + 7) / 8 := by
    split <;> omega
  have hv : len % 8 < 8 := Nat.mod_lt _ (by omega)
  have hsplit : 8 * (len / 8) + len % 8 = len := by omega
  have hfirst : ∀ k, (firstBits len b : Bytes 24) k = _ :=
    fun k => hsplit ▸ firstBits_eq b k (len % 8) hv (len / 8)
  unfold ruleV6Addr
  rw [hbytes, memcpyS_front (by omega) h]
  simp only [Option.bind_eq_bind, Option.bind_some]
  by_cases hbit : len % 8 = 0
  · rw [if_neg (not_not.mpr hbit)]
    congr 1
    funext k
    rw [hfirst, hbit]
    have hcount : (len + 7) / 8 = len / 8 := by omega
    rw [hcount]
    by_cases hk : k.val < len / 8
    · rw [if_pos hk, if_pos hk]
    · rw [if_neg hk, if_neg hk]
      split
      · rw [show (0xff#32 <<< (8 - 0)).setWidth 8 = 0#8 from rfl, BitVec.and_zero]
      · rfl
  · have hcount : (len + 7) / 8 = len / 8 + 1 := by omega
    have hin : len / 8 < 24 := by omega
    rw [if_pos hbit, Bytes.read_of_lt _ hin, Option.bind_some, Bytes.write, if_pos hin]
    congr 1
    funext k
    rw [hfirst, hcount]
    by_cases hk : k.val = len / 8
    · rw [if_pos hk, if_neg (by omega), if_pos hk, Bytes.byteAt, dif_pos hin]
      simp only [Nat.lt_succ_self, if_true, hk]
    · rw [if_neg hk, if_neg hk]
      by_cases hlt : k.val < len / 8
      · rw [if_pos hlt, if_pos (by omega)]
      · rw [if_neg hlt, if_neg (by omega)]

theorem Reads.byte {buf l : OptionBuf} {p i : ℕ} (h : Reads buf p l) (hi : i < l.length) :
    readByte buf (p + i) = some (byteAt l i) := by
  have hlen := h.1
  rw [readByte_of_lt (by omega), h.2 i hi]

theorem Reads.short {p n : ℕ} (h : Reads buf p (shortBytes n))
    (hn : n < 2 ^ 16) : readShort buf p = some n := by
  have hlen : p + 2 ≤ buf.length := h.1
  rw [readShort_of_le hlen, shortAt_shortBytes h hn]

theorem parsePortParams_encode (q : PortParams) (g : MaptData)
    (h : Reads buf p q.encode) : parsePortParams buf p g = some (q.store g) := by
  obtain ⟨hfront, hfield⟩ := reads_append h
  obtain ⟨htypes, hbytes⟩ := reads_append hfront
  obtain ⟨htype, hlen⟩ := reads_append htypes
  have htype' := htype.short (n := 93) (by omega)
  have hlen' : readShort buf (p + 2) = some 4 := hlen.short (by omega)
  have hfield' : readShort buf (p + 6) = some q.psidField.toNat := hfield.short q.psidField.isLt
  have hoffset : readByte buf (p + 4) = some q.offset.toNat := hbytes.byte Nat.two_pos
  have hpsidLen : readByte buf (p + 5) = some q.psidLen.toNat := hbytes.byte Nat.one_lt_two
  have hle := q.psidLen_le
  have hratio : psidRatio g q.psidLen.toNat =
      some (if g.eaLen = 0#16 then 1#32 <<< q.psidLen.toNat else g.ratio) := by
    have hshift : shiftOne (q.psidLen.toNat : ℤ) = some (1#32 <<< q.psidLen.toNat) := by
      rw [shiftOne, if_pos (by omega), Int.toNat_natCast]
    unfold psidRatio
    rw [hshift]
    split <;> rfl
  unfold parsePortParams
  simp only [htype', hlen', hoffset, hpsidLen, hratio, hfield', Option.bind_eq_bind,
    Option.bind_some, and_self, if_true, if_pos hle]
  rfl

theorem parseRule_payload (r : Rule) (g : MaptData)
    (h : Reads buf p r.payload) : parseRule buf p r.payload.length g = some (r.store g) := by
  obtain ⟨hfront, hport⟩ := reads_append h
  obtain ⟨hfixed, hpre⟩ := reads_append hfront
  have hlen8 : p + 8 ≤ buf.length := hfixed.1
  have h0 : byteAt buf p = r.flags.toNat := hfixed.2 0 (by simp)
  have h1 : byteAt buf (p + 1) = r.eaLen.toNat := hfixed.2 1 (by simp)
  have h2 : byteAt buf (p + 2) = r.prefix4Len.toNat := hfixed.2 2 (by simp)
  have h3 : byteAt buf (p + 3) = (r.ipv4Prefix 0).toNat := hfixed.2 3 (by simp)
  have h4 : byteAt buf (p + 4) = (r.ipv4Prefix 1).toNat := hfixed.2 4 (by simp)
  have h5 : byteAt buf (p + 5) = (r.ipv4Prefix 2).toNat := hfixed.2 5 (by simp)
  have h6 : byteAt buf (p + 6) = (r.ipv4Prefix 3).toNat := hfixed.2 6 (by simp)
  have h7 : byteAt buf (p + 7) = r.prefix6Len.toNat := hfixed.2 7 (by simp)
  have haddr : ruleV6Addr buf (p + 8) (r.prefix6Len.toNat / 8) (r.prefix6Len.toNat % 8) =
      some (firstBits r.prefix6Len.toNat r.ipv6Prefix) := ruleV6Addr_eq r.prefix6Len_le hpre
  have hlow := r.eaLen_ge
  have hhigh := r.eaLen_le
  have hfour := r.prefix4Len_le
  have hshift : shiftOne ((r.eaLen.toNat : ℤ) - (32 - r.prefix4Len.toNat)) =
      some (1#32 <<< (r.eaLen.toNat - (32 - r.prefix4Len.toNat))) := by
    unfold shiftOne
    rw [if_pos (by omega)]
    congr 2
    omega
  have hbytes : rulePrefixBytes buf p = r.prefixBytes := by
    rw [rulePrefixBytes, h7, Rule.prefixBytes]
  have hpayload : r.payload.length =
      8 + r.prefixBytes + ((r.portParams.map PortParams.encode).getD []).length := by
    simp only [Rule.payload, List.length_append, List.length_map, List.length_range,
      List.length_cons, List.length_nil]
  rw [parseRule_eq buf p _ g hlen8, h0, h1, h2, h3, h4, h5, h6, h7, haddr, Option.bind_some, hshift,
    Option.bind_some]
  simp only [PortParamsFollow, hbytes]
  unfold Rule.store
  cases hq : r.portParams with
  | none =>
    rw [hq] at hpayload
    simp only [Option.map_none, Option.getD_none, List.length_nil, Nat.add_zero] at hpayload
    rw [if_neg (by rw [hpayload]; omega)]
    rfl
  | some q =>
    have hsize : ((r.portParams.map PortParams.encode).getD []).length = 8 := by
      rw [hq]
      rfl
    rw [hsize] at hpayload
    rw [if_pos (by rw [hpayload]; omega)]
    rw [List.length_append, List.length_map, List.length_range, ← Nat.add_assoc, hq] at hport
    have hat : Reads buf (p + 8 + r.prefixBytes) q.encode := hport
    exact parsePortParams_encode q _ hat

theorem parseDmr_payload (d : Dmr) (g : MaptData)
    (h : Reads buf p d.payload) : parseDmr buf p g = some (d.store g) := by
  obtain ⟨hfront, hpre⟩ := reads_append h
  have hlen : readByte buf p = some d.prefixLen.toNat := hfront.byte Nat.one_pos
  change Reads buf (p + 1) _ at hpre
  have hle := d.prefixLen_le
  have hoctets := d.prefixLen_octets
  have hcount : 8 * (d.prefixLen.toNat / 8) + 0 = d.prefixLen.toNat := by omega
  have hcopy : memcpyS Bytes.zero buf (p + 1) (d.prefixLen.toNat / 8) =
      some (firstBits d.prefixLen.toNat d.ipv6Prefix) := by
    rw [memcpyS_front (by omega) hpre]
    congr 1
    funext k
    have hfirst := firstBits_eq d.ipv6Prefix k 0 (by omega) (d.prefixLen.toNat / 8)
    rw [hcount] at hfirst
    rw [hfirst]
    split
    · rfl
    · split
      · rw [show (0xff#32 <<< (8 - 0)).setWidth 8 = 0#8 from rfl, BitVec.and_zero]
      · rfl
  simp only [parseDmr, hlen, hcopy, Option.bind_eq_bind, Option.bind_some]
  rfl

theorem SubOption.payload_lt : o.payload.length < 2 ^ 16 := by
  cases o with
  | rule r =>
    have hle := r.prefix6Len_le
    have hport : ((r.portParams.map PortParams.encode).getD []).length ≤ 8 := by
      cases r.portParams with
      | none => exact Nat.zero_le _
      | some q => exact Nat.le_refl 8
    simp only [SubOption.payload, Rule.payload, List.length_append, List.length_map,
      List.length_range, List.length_cons, List.length_nil, Rule.prefixBytes]
    omega
  | dmr d =>
    have hle := d.prefixLen_le
    simp only [SubOption.payload, Dmr.payload, List.length_append, List.length_map,
      List.length_range, List.length_cons, List.length_nil]
    omega
  | unknown u => exact u.payload_lt

theorem SubOption.optType_lt : o.optType < 2 ^ 16 := by
  cases o with
  | rule r => exact show 89 < 2 ^ 16 by norm_num
  | dmr d => exact show 91 < 2 ^ 16 by norm_num
  | unknown u => exact u.optType_lt

theorem parseOption_payload (g : MaptData)
    (h : Reads buf p o.payload) :
    parseOption buf g ⟨o.optType, p, o.payload.length⟩ = some (o.store g) := by
  cases o with
  | rule r => exact parseRule_payload r g h
  | dmr d => exact parseDmr_payload d g h
  | unknown u =>
    exact (if_neg u.not_rule).trans (if_neg u.not_dmr)

theorem parseOptions_container (pre : OptionBuf) (g : MaptData) :
    parseOptions (pre ++ container opts) pre.length g =
      some (.STATUS_SUCCESS, opts.foldl SubOption.store g) := by
  induction opts generalizing pre g with
  | nil =>
    rw [parseOptions, if_neg (by simp [container])]
    rfl
  | cons o opts ih =>
    have hbuf : pre ++ container (o :: opts) = pre ++ (o.encode ++ container opts) := by
      rw [container, List.flatMap_cons]
      rfl
    have hreads := reads_self pre o.encode (container opts)
    rw [hbuf]
    generalize hwhole : pre ++ (o.encode ++ container opts) = buf at hreads ⊢
    obtain ⟨hhead, hpayload⟩ := reads_append hreads
    obtain ⟨htype, hlen⟩ := reads_append hhead
    have htype' := htype.short o.optType_lt
    have hlen' : readShort buf (pre.length + 2) = some o.payload.length := hlen.short o.payload_lt
    have hpayload' : Reads buf (pre.length + 4) o.payload := hpayload
    have hfit := hpayload'.1
    have hsize : o.encode.length = 4 + o.payload.length := by
      rw [SubOption.encode, List.length_append]
      rfl
    have hnext := ih (pre ++ o.encode) (o.store g)
    rw [List.append_assoc, hwhole, List.length_append, hsize, ← Nat.add_assoc] at hnext
    rw [parseOptions, if_pos (by omega), htype', hlen']
    simp only [Option.bind_eq_bind, Option.bind_some]
    rw [if_neg (by omega), parseOption_payload o g hpayload', Option.bind_some, hnext]
    rfl

end options

section result

-- No proof about the stored fields depends on how an address is printed.
attribute [local irreducible] inet_ntop6

theorem shiftLeft_one (k : ℕ) : 1#32 <<< k = BitVec.ofNat 32 (2 ^ k) := by
  apply BitVec.eq_of_toNat_eq
  rw [BitVec.toNat_shiftLeft, BitVec.toNat_ofNat, Nat.shiftLeft_eq]
  exact congrArg (· % 2 ^ 32) (Nat.one_mul _)

theorem Rule.store_eq (r : Rule) (g : MaptData) : r.store g =
    { r.fixed g with
      psidOffset := BitVec.ofNat 32 r.psidOffset
      ratio := BitVec.ofNat 32 r.ratio
      psid := if r.portParams = none then g.psid else BitVec.ofNat 16 r.psid
      psidLen := if r.portParams = none then g.psidLen else BitVec.ofNat 16 r.psidLen } := by
  have hfixed : (r.fixed g).ratio = BitVec.ofNat 32 r.eaRatio := shiftLeft_one _
  unfold Rule.store Rule.psidOffset Rule.ratio Rule.psid Rule.psidLen
  cases hq : r.portParams with
  | none =>
    rw [← hfixed]
    rfl
  | some q =>
    have hea : (r.fixed g).eaLen = 0#16 ↔ r.eaLen = 0#8 := by
      change BitVec.ofNat 16 r.eaLen.toNat = 0#16 ↔ _
      rw [← BitVec.toNat_inj, ← BitVec.toNat_inj, BitVec.toNat_ofNat,
        Nat.mod_eq_of_lt (Nat.lt_trans r.eaLen.isLt (by norm_num))]
      rfl
    have hzero : q.offset.toNat ≠ 0 ↔ ¬ q.offset = 0#8 := by
      rw [ne_eq, ← BitVec.toNat_inj]
      rfl
    have hoffset : (if q.offset.toNat ≠ 0 then BitVec.ofNat 32 q.offset.toNat else 6#32) =
        BitVec.ofNat 32 (if q.offset = 0#8 then 6 else q.offset.toNat) := by
      simp only [hzero, ite_not]
      split <;> rfl
    have hratio : (if (r.fixed g).eaLen = 0#16 then 1#32 <<< q.psidLen.toNat
        else (r.fixed g).ratio) =
          BitVec.ofNat 32 (if r.eaLen = 0#8 then 2 ^ q.psidLen.toNat else r.eaRatio) := by
      simp only [hea, hfixed, shiftLeft_one]
      split <;> rfl
    simp only [PortParams.store, hoffset, hratio, Option.map_some, Option.getD_some,
      Nat.shiftRight_eq_div_pow, reduceCtorEq, if_false]

structure Reflects (rs : List Rule) (ds : List Dmr) (g : MaptData) : Prop where
  noRule : rs = [] → g.ruleIPv6PrefixLen = 0#16
  noDmr : ds = [] → g.brIPv6PrefixLen = 0#16
  rule : ∀ r, rs.getLast? = some r → RuleDecoded rs r g
  dmr : ∀ d, ds.getLast? = some d → DmrDecoded d g
  prefixEnd : ∀ n, (∀ r ∈ rs, r.prefixBytes ≤ n) →
    ∀ k : Fin 24, n ≤ k.val → g.ruleIPv6PrefixH k = 0#8
  noPort : (∀ r ∈ rs, r.portParams = none) → g.psid = 0#16 ∧ g.psidLen = 0#16

theorem reflects_nil : Reflects [] [] MaptData.cleared :=
  ⟨fun _ => rfl, fun _ => rfl, fun _ h => absurd h (Option.some_ne_none _).symm,
    fun _ h => absurd h (Option.some_ne_none _).symm, fun _ _ _ _ => rfl, fun _ => ⟨rfl, rfl⟩⟩

variable {r : Rule}

theorem firstBits_end {k : Fin 24} (hk : r.prefixBytes ≤ k.val) :
    (firstBits r.prefix6Len.toNat r.ipv6Prefix : Bytes 24) k = 0#8 := by
  apply BitVec.eq_of_getMsbD_eq
  intro t ht
  unfold Rule.prefixBytes at hk
  rw [firstBits_byte _ _ _ _ ht, decide_eq_false (by omega), Bool.false_and, BitVec.getMsbD_zero]

theorem stringFromHex_firstBits {n : ℕ} (len : ℕ) (b : Bytes n) :
    cosaDmlMaptGetIPv6StringFromHex (firstBits len b) =
      inet_ntop6 (octets (firstBits len b : Bytes 16)) := by
  rw [cosaDmlMaptGetIPv6StringFromHex, octets]
  congr 1

theorem rules_concat :
    rules (opts ++ [o]) = rules opts ++ o.rule?.toList := by
  rw [rules, rules, List.filterMap_append]
  cases o <;> rfl

theorem dmrs_concat :
    dmrs (opts ++ [o]) = dmrs opts ++ o.dmr?.toList := by
  rw [dmrs, dmrs, List.filterMap_append]
  cases o <;> rfl

theorem Rule.store_prefixH (r : Rule) (g : MaptData) (k : Fin 24) :
    (r.store g).ruleIPv6PrefixH k =
      if k.val < r.prefixBytes then (firstBits r.prefix6Len.toNat r.ipv6Prefix : Bytes 24) k
      else g.ruleIPv6PrefixH k := by
  have hle := r.prefix6Len_le
  have hcount : (r.prefix6Len.toNat / 8 + if r.prefix6Len.toNat % 8 ≠ 0 then 1 else 0) =
      r.prefixBytes := by
    unfold Rule.prefixBytes
    split <;> omega
  have hsmall : ¬ 24 < r.prefixBytes := by
    unfold Rule.prefixBytes
    omega
  rw [Rule.store_eq]
  simp only [Rule.fixed, storeRule, hcount, if_neg hsmall]

theorem dotted_firstBits (h : ∀ j, r.prefix4Len.toNat ≤ j → r.ipv4Prefix.bit j = false) :
    dotted r.ipv4Octets =
      dotted (octets (firstBits r.prefix4Len.toNat r.ipv4Prefix : Bytes 4)) := by
  have hsame : (firstBits r.prefix4Len.toNat r.ipv4Prefix : Bytes 4) = r.ipv4Prefix := by
    funext k
    apply BitVec.eq_of_getMsbD_eq
    intro t ht
    have hbyte : r.ipv4Prefix.byteAt k.val = r.ipv4Prefix k := dif_pos k.isLt
    rw [firstBits_byte _ _ _ _ ht, ← hbyte, ← bit_byte _ ht]
    by_cases hlt : 8 * k.val + t < r.prefix4Len.toNat
    · rw [decide_eq_true hlt, Bool.true_and]
    · rw [h _ (Nat.le_of_not_lt hlt), Bool.and_false]
  rw [hsame]
  rfl

variable {g : MaptData} {rs : List Rule} {ds : List Dmr}

theorem ruleDecoded_store (hg : Reflects rs ds g)
    (r : Rule) : RuleDecoded (rs ++ [r]) r (r.store g) := by
  have hflag : (decide (r.flags.toNat % 2 = 1)) = r.flags.getLsbD 0 := by
    rw [BitVec.getLsbD, Nat.testBit_zero]
  have hbyte : ∀ x : BitVec 8, (BitVec.ofNat 16 x.toNat).toNat = x.toNat := by
    intro x
    rw [BitVec.toNat_ofNat, Nat.mod_eq_of_lt (Nat.lt_trans x.isLt (by norm_num))]
  have hpre : (∀ r' ∈ rs ++ [r], r'.prefixBytes ≤ r.prefixBytes) →
      (r.store g).ruleIPv6PrefixH = firstBits r.prefix6Len.toNat r.ipv6Prefix := by
    intro hall
    funext k
    rw [Rule.store_prefixH]
    by_cases hk : k.val < r.prefixBytes
    · rw [if_pos hk]
    · rw [if_neg hk, firstBits_end (Nat.le_of_not_lt hk)]
      exact hg.prefixEnd r.prefixBytes (fun r' hr' => hall r' (List.mem_append_left _ hr')) k
        (Nat.le_of_not_lt hk)
  have htext : (r.store g).ruleIPv6Prefix =
      cosaDmlMaptGetIPv6StringFromHex (r.store g).ruleIPv6PrefixH := by
    rw [Rule.store_eq]
    rfl
  have hoffset : r.psidOffset < 256 := by
    unfold Rule.psidOffset
    cases r.portParams with
    | none => exact (show 6 < 256 by norm_num)
    | some q =>
      have hlt := q.offset.isLt
      change (if q.offset = 0#8 then 6 else q.offset.toNat) < 256
      split <;> omega
  have hratio : r.ratio ≤ 2 ^ 16 := by
    have hea : r.eaRatio ≤ 2 ^ 16 := by
      have hhigh := r.eaLen_le
      exact Nat.pow_le_pow_right Nat.two_pos (by omega)
    unfold Rule.ratio
    cases r.portParams with
    | none => exact hea
    | some q =>
      change (if r.eaLen = 0#8 then 2 ^ q.psidLen.toNat else r.eaRatio) ≤ _
      split
      · exact Nat.pow_le_pow_right Nat.two_pos q.psidLen_le
      · exact hea
  have hport : (r.portParams = none → ∀ r' ∈ rs ++ [r], r'.portParams = none) →
      (r.store g).psidLen.toNat = r.psidLen ∧ (r.store g).psid.toNat = r.psid := by
    intro hown
    rw [Rule.store_eq]
    unfold Rule.psidLen Rule.psid
    cases hq : r.portParams with
    | none =>
      have hnone := hg.noPort (fun r' hr' => hown hq r' (List.mem_append_left _ hr'))
      simp only [if_true, hnone]
      exact ⟨rfl, rfl⟩
    | some q =>
      have hfield : q.psidField.toNat / 2 ^ (16 - q.psidLen.toNat) < 2 ^ 16 :=
        Nat.lt_of_le_of_lt (Nat.div_le_self _ _) q.psidField.isLt
      simp only [reduceCtorEq, if_false, Option.map_some, Option.getD_some]
      exact ⟨hbyte _, Nat.mod_eq_of_lt hfield⟩
  refine ⟨?_, ?_, ?_, fun h4 => ?_, ?_, hpre, fun hall => ?_, ?_, ?_, fun hown => (hport hown).1,
    fun hown => (hport hown).2⟩
  · rw [Rule.store_eq]
    exact hflag
  · rw [Rule.store_eq]
    exact hbyte _
  · rw [Rule.store_eq]
    exact hbyte _
  · rw [Rule.store_eq]
    exact dotted_firstBits h4
  · rw [Rule.store_eq]
    exact hbyte _
  · rw [htext, hpre hall, stringFromHex_firstBits]
  · rw [Rule.store_eq]
    exact Nat.mod_eq_of_lt (by omega)
  · rw [Rule.store_eq]
    exact Nat.mod_eq_of_lt (by omega)

theorem reflects_rule (hg : Reflects rs ds g)
    (r : Rule) : Reflects (rs ++ [r]) ds (r.store g) := by
  have hbr : (r.store g).brIPv6PrefixLen = g.brIPv6PrefixLen ∧
      (r.store g).brIPv6Prefix = g.brIPv6Prefix := by
    rw [Rule.store_eq]
    exact ⟨rfl, rfl⟩
  refine ⟨fun h => ?_, fun h => ?_, fun r' hr' => ?_, fun d hd => ?_, fun n hn k hk => ?_,
    fun h => ?_⟩
  · exact absurd h (List.append_ne_nil_of_right_ne_nil _ (List.cons_ne_nil _ _))
  · rw [hbr.1]
    exact hg.noDmr h
  · rw [List.getLast?_concat, Option.some.injEq] at hr'
    subst hr'
    exact ruleDecoded_store hg r
  · have hold := hg.dmr d hd
    exact ⟨hbr.1 ▸ hold.brIPv6PrefixLen, hbr.2 ▸ hold.brIPv6Prefix⟩
  · have hlast := hn r (List.mem_append_right _ List.mem_cons_self)
    rw [Rule.store_prefixH, if_neg (by omega)]
    exact hg.prefixEnd n (fun r' hr' => hn r' (List.mem_append_left _ hr')) k hk
  · have hnone := h r (List.mem_append_right _ List.mem_cons_self)
    rw [Rule.store_eq]
    simp only [if_pos hnone]
    exact hg.noPort (fun r' hr' => h r' (List.mem_append_left _ hr'))

theorem RuleDecoded.withBr (h : RuleDecoded rs r g)
    (len : BitVec 16) (text : CStr) :
    RuleDecoded rs r { g with brIPv6PrefixLen := len, brIPv6Prefix := text } :=
  ⟨h.bFMR, h.eaLen, h.ruleIPv4PrefixLen, h.ruleIPv4Prefix, h.ruleIPv6PrefixLen, h.ruleIPv6PrefixH,
    h.ruleIPv6Prefix, h.psidOffset, h.ratio, h.psidLen, h.psid⟩

theorem reflects_dmr (hg : Reflects rs ds g)
    (d : Dmr) : Reflects rs (ds ++ [d]) (d.store g) := by
  refine ⟨hg.noRule, fun h => ?_, fun r hr => (hg.rule r hr).withBr _ _, fun d' hd' => ?_,
    hg.prefixEnd, hg.noPort⟩
  · exact absurd h (List.append_ne_nil_of_right_ne_nil _ (List.cons_ne_nil _ _))
  · rw [List.getLast?_concat, Option.some.injEq] at hd'
    subst hd'
    refine ⟨?_, stringFromHex_firstBits _ _⟩
    change (BitVec.ofNat 16 d.prefixLen.toNat).toNat = _
    rw [BitVec.toNat_ofNat, Nat.mod_eq_of_lt (Nat.lt_trans d.prefixLen.isLt (by norm_num))]

theorem reflects_store :
    Reflects (rules opts) (dmrs opts) (opts.foldl SubOption.store MaptData.cleared) := by
  induction opts using List.reverseRecOn with
  | nil => exact reflects_nil
  | append_singleton opts o ih =>
    rw [List.foldl_append, List.foldl_cons, List.foldl_nil, rules_concat, dmrs_concat]
    cases o with
    | rule r =>
      have hstep := reflects_rule ih r
      simpa only [SubOption.rule?, SubOption.dmr?, SubOption.store, Option.toList_none,
        Option.toList_some, List.append_nil] using hstep
    | dmr d =>
      have hstep := reflects_dmr ih d
      simpa only [SubOption.rule?, SubOption.dmr?, SubOption.store, Option.toList_none,
        Option.toList_some, List.append_nil] using hstep
    | unknown u =>
      simpa only [SubOption.rule?, SubOption.dmr?, SubOption.store, Option.toList_none,
        List.append_nil] using ih

theorem cosaDmlMaptParseResponse_cons (rest : List SubOption)
    (hg : (o :: rest).foldl SubOption.store MaptData.cleared = g) :
    cosaDmlMaptParseResponse (some (container (o :: rest))) MaptData.cleared =
      if o.optType % 256 = 0 then some (.STATUS_FAILURE, MaptData.cleared)
      else if g.ruleIPv6PrefixLen = 0#16 ∨ g.brIPv6PrefixLen = 0#16 then some (.STATUS_FAILURE, g)
      else some (.STATUS_SUCCESS, g) := by
  have hbuf : container (o :: rest) = [] ++ (o.encode ++ container rest) := by
    rw [container, List.flatMap_cons]
    rfl
  have hreads := reads_self [] o.encode (container rest)
  rw [← hbuf] at hreads
  obtain ⟨htype, -⟩ := reads_append (reads_append hreads).1
  have hsecond : readByte (container (o :: rest)) 1 = some (o.optType % 256) := by
    have hbyte := htype.byte Nat.one_lt_two
    rw [List.length_nil, Nat.zero_add] at hbyte
    rw [hbyte]
    rfl
  have hall := parseOptions_container (o :: rest) [] MaptData.cleared
  rw [List.nil_append, List.length_nil, hg] at hall
  simp only [cosaDmlMaptParseResponse, hsecond, hall, Option.bind_eq_bind, Option.bind_some]

/-- The parser succeeds exactly when the response is taken as present and has a
rule and a DMR option, and then the last rule and the last DMR are decoded. -/
theorem cosaDmlMaptParseResponse_decodes_last (opts : List SubOption) :
    (opts ≠ [] → ∃ res, cosaDmlMaptParseResponse (some (container opts)) .cleared = some res) ∧
    ((∃ g, cosaDmlMaptParseResponse (some (container opts)) .cleared =
      some (.STATUS_SUCCESS, g)) ↔ Present opts ∧ rules opts ≠ [] ∧ dmrs opts ≠ []) ∧
    ∀ g, cosaDmlMaptParseResponse (some (container opts)) .cleared = some (.STATUS_SUCCESS, g) →
      ∃ r d, (rules opts).getLast? = some r ∧ (dmrs opts).getLast? = some d ∧
        RuleDecoded (rules opts) r g ∧ DmrDecoded d g := by
  cases opts with
  | nil =>
    have hnone : cosaDmlMaptParseResponse (some (container [])) .cleared = none := rfl
    rw [hnone]
    refine ⟨fun h => absurd rfl h, iff_of_false ?_ ?_, fun g h => ?_⟩
    · exact fun ⟨_, h⟩ => absurd h (Option.some_ne_none _).symm
    · exact fun h => h.2.1 rfl
    · exact absurd h (Option.some_ne_none _).symm
  | cons o rest =>
    have hreflects := reflects_store (o :: rest)
    generalize hg : (o :: rest).foldl SubOption.store MaptData.cleared = g at hreflects
    have hparse := cosaDmlMaptParseResponse_cons o rest hg
    have hpresent : Present (o :: rest) ↔ o.optType % 256 ≠ 0 := by
      constructor
      · rintro ⟨o', rest', heq, h⟩
        rwa [(List.cons.inj heq).1]
      · exact fun h => ⟨o, rest, rfl, h⟩
    have hrule : g.ruleIPv6PrefixLen = 0#16 ↔ rules (o :: rest) = [] := by
      refine ⟨fun hzero => ?_, hreflects.noRule⟩
      by_contra hne
      have hlast := List.getLast?_eq_some_getLast hne
      have hlen := (hreflects.rule _ hlast).ruleIPv6PrefixLen
      have hpos := ((rules (o :: rest)).getLast hne).prefix6Len_pos
      rw [hzero] at hlen
      exact absurd hlen (Nat.ne_of_lt hpos)
    have hdmr : g.brIPv6PrefixLen = 0#16 ↔ dmrs (o :: rest) = [] := by
      refine ⟨fun hzero => ?_, hreflects.noDmr⟩
      by_contra hne
      have hlast := List.getLast?_eq_some_getLast hne
      have hlen := (hreflects.dmr _ hlast).brIPv6PrefixLen
      have hpos := ((dmrs (o :: rest)).getLast hne).prefixLen_pos
      rw [hzero] at hlen
      exact absurd hlen (Nat.ne_of_lt hpos)
    rw [hparse, hpresent]
    by_cases hfirst : o.optType % 256 = 0
    · rw [if_pos hfirst]
      refine ⟨fun _ => ⟨_, rfl⟩, iff_of_false ?_ (fun h => h.1 hfirst), fun g' h => ?_⟩
      · exact fun ⟨_, h⟩ => by cases h
      · cases h
    rw [if_neg hfirst]
    by_cases hzero : g.ruleIPv6PrefixLen = 0#16 ∨ g.brIPv6PrefixLen = 0#16
    · rw [if_pos hzero]
      refine ⟨fun _ => ⟨_, rfl⟩, iff_of_false ?_ ?_, fun g' h => ?_⟩
      · exact fun ⟨_, h⟩ => by cases h
      · rintro ⟨-, hr, hd⟩
        exact hzero.elim (fun h => hr (hrule.mp h)) (fun h => hd (hdmr.mp h))
      · cases h
    · rw [if_neg hzero]
      obtain ⟨hr, hd⟩ := not_or.mp hzero
      have hr' := mt hrule.mpr hr
      have hd' := mt hdmr.mpr hd
      refine ⟨fun _ => ⟨_, rfl⟩, iff_of_true ⟨g, rfl⟩ ⟨hfirst, hr', hd'⟩, fun g' h => ?_⟩
      have hg' : g = g' := by
        simpa using h
      subst hg'
      have hlastRule := List.getLast?_eq_some_getLast hr'
      have hlastDmr := List.getLast?_eq_some_getLast hd'
      exact ⟨_, _, hlastRule, hlastDmr, hreflects.rule _ hlastRule, hreflects.dmr _ hlastDmr⟩

def sharedAddress : Rule where
  flags := 1#8
  eaLen := 0#8
  prefix4Len := 32#8
  ipv4Prefix := ofOctets [192, 0, 2, 1]
  prefix6Len := 64#8
  ipv6Prefix := ofOctets [0x20, 1, 0x0d, 0xb8, 0, 1]
  portParams := some ⟨6#8, 8#8, 0x3400#16, by decide⟩
  prefix4Len_le := by decide
  prefix6Len_pos := by decide
  prefix6Len_le := by decide
  eaLen_ge := by decide
  eaLen_le := by decide

def dmr64 : Dmr where
  prefixLen := 64#8
  ipv6Prefix := ofOctets [0x20, 1, 0x0d, 0xb8, 0xff, 0xff]
  prefixLen_pos := by decide
  prefixLen_le := by decide
  prefixLen_octets := by decide

/-- Without EA bits the parser takes the ratio from the PSID length. -/
theorem cosaDmlMaptParseResponse_psid_ratio : ¬ ∀ opts : List SubOption,
    ((∃ g, cosaDmlMaptParseResponse (some (container opts)) .cleared =
      some (.STATUS_SUCCESS, g)) ↔ rules opts ≠ [] ∧ dmrs opts ≠ []) ∧
    ∀ g, cosaDmlMaptParseResponse (some (container opts)) .cleared = some (.STATUS_SUCCESS, g) →
      ∃ r d, (rules opts).getLast? = some r ∧ (dmrs opts).getLast? = some d ∧ Decoded r d g := by
  intro h
  obtain ⟨hsucc, hfields⟩ := h [.rule sharedAddress, .dmr dmr64]
  obtain ⟨g, hg⟩ := hsucc.mpr ⟨List.cons_ne_nil _ _, List.cons_ne_nil _ _⟩
  obtain ⟨r, d, hr, -, hdec⟩ := hfields g hg
  have hlast : r = sharedAddress := (Option.some.inj hr).symm
  have hstate := cosaDmlMaptParseResponse_cons (.rule sharedAddress) [.dmr dmr64] rfl
  have hratio : g.ratio = (dmr64.store (sharedAddress.store MaptData.cleared)).ratio := by
    rw [hg] at hstate
    have hfirst : ¬ (SubOption.rule sharedAddress).optType % 256 = 0 := by decide
    rw [if_neg hfirst] at hstate
    split at hstate
    · cases hstate
    · have hpair := Option.some.inj hstate
      exact congrArg (fun res => res.2.ratio) hpair
  have hvalue := hdec.ratio
  rw [hratio, hlast] at hvalue
  exact absurd hvalue (by decide +kernel)

end result

end CcspPandM.MaptDecode
