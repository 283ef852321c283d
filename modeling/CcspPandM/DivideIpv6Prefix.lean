import CcspPandM.PrefixText
import Mathlib.Data.List.Infix

/-!
The division of the delegated prefix into sub-prefixes and interface /64s. The
prefix and the interfaces come from sysevent; the word arithmetic follows the
source, 64-bit words with 32-bit shifts in between. A shift by 32 or more, a
division by zero and a write past a buffer have no defined result.
-/
namespace CcspPandM.DivideIpv6Prefix

open BitWindow CString HostWords InetText PrefixText

inductive TpMod where
  | TPMOD_UNKNOWN
  | FAVOR_DEPTH
  | FAVOR_WIDTH
  deriving DecidableEq

structure Env where
  commonSyseventGet : CStr → CStr
  lan_pd_interfaces : CStr
  /-- The `_CBR_PRODUCT_REQ_` build, on a little-endian host; others are big-endian. -/
  cbr : Bool

def prefSyseventName : CStr := "tr_erouter0_dhcpv6_client_v6pref".toList
def prefIaidSyseventName : CStr := "tr_erouter0_dhcpv6_client_pref_iaid".toList

def maxLanIfNum : ℕ := 3

/-- `commonSyseventGet` into a buffer of n bytes. -/
def Env.read (env : Env) (name : CStr) (n : ℕ) : CStr := (env.commonSyseventGet name).take (n - 1)

def getIpv6Tpmode (env : Env) : TpMod :=
  match atoi ((env.read prefIaidSyseventName 16).filter (· ≠ '\'')) with
  | 1 => .FAVOR_DEPTH
  | 2 => .FAVOR_WIDTH
  | _ => .TPMOD_UNKNOWN

/-- The text before the last `/` and the number after it. -/
def getPrefixInfo (t : CStr) : Option (CStr × ℤ) :=
  match t.reverse.dropWhile (· ≠ '/') with
  | [] => none
  | _ :: value => some (value.reverse, atoi (t.reverse.takeWhile (· ≠ '/')).reverse)

/-- What `%d` prints. -/
def printInt : ℤ → CStr
  | .ofNat n => decimal n
  | .negSucc n => '-' :: decimal (n + 1)

def strtokSpaces (t : CStr) : List CStr := (t.splitOn ' ').filter (· ≠ [])

def getActiveLanif (env : Env) : List ℤ :=
  let lan_pd_if := env.lan_pd_interfaces.take 127
  if lan_pd_if = [] then []
  else
    ((strtokSpaces (env.read "multinet-instances".toList 32)).filter (fun p =>
      decide
        (env.read (("multinet_".toList ++ p ++ "-name".toList).take 63) 16 <:+: lan_pd_if))).map
        atoi

def shl (x : BitVec 32) (n : ℤ) : Option (BitVec 32) :=
  if 0 ≤ n ∧ n < 32 then some (x <<< n.toNat) else none

def bitBoundary (len delta_bits : ℤ) : TpMod → ℤ
  | .FAVOR_DEPTH => if len > 56 then min delta_bits 2 else min delta_bits 3
  | .FAVOR_WIDTH => if len > 56 then min delta_bits 3 else min delta_bits 4
  | .TPMOD_UNKNOWN => 0

def helperNtoh64 (x : BitVec 64) : BitVec 64 := byteSwap x
def helperHton64 (x : BitVec 64) : BitVec 64 := byteSwap x

def Env.load (env : Env) (addr : List ℕ) : BitVec 64 :=
  if env.cbr then helperNtoh64 (loadWord true (ofOctets addr)) else loadWord false (ofOctets addr)

def Env.print (env : Env) (x : BitVec 64) : CStr :=
  inet_ntop6 (octets (networkAddress (storeWord env.cbr x)))

/-- The events set before the function returns 0. -/
structure Division where
  /-- The event and the value for each interface, in the order they are set. -/
  ifaces : List (CStr × CStr)
  subprefixStart : CStr
  subprefixEnd : CStr
  prefixLength : CStr
  pdLength : CStr
  deriving DecidableEq

def subPrefixes (env : Env) ( tmp_prefix : BitVec 64) (shift : ℤ) (sub_prefix_num : ℕ) :
    Option (List CStr) :=
  (List.range sub_prefix_num).mapM (fun i => do
    let bits ← shl (BitVec.ofNat 32 i) shift
    let sub_prefix := tmp_prefix ||| bits.setWidth 64
    some (env.print (if env.cbr then helperHton64 sub_prefix else sub_prefix)))

/-- The loop over the interfaces; on the little-endian build the word is
converted again in every round. -/
def ifacePrefixes (env : Env) : List ℤ → BitVec 64 → List (CStr × CStr)
  | [], _ => []
  | inst :: insts, tmp_prefix =>
    let tmp_prefix := if env.cbr then helperHton64 tmp_prefix else tmp_prefix
    let iface_name := env.read (("multinet_".toList ++ printInt inst ++ "-name".toList).take 63) 64
    (("ipv6_".toList ++ iface_name ++ "-prefix".toList).take 63,
      env.print tmp_prefix ++ "/64".toList) ::
        ifacePrefixes env insts ( tmp_prefix + 1#64)

def divide (env : Env) (len : ℤ) (addr : List ℕ) (insts : List ℤ) : Option Division := do
  let delta_bits := 64 - len
  let bit_boundary := bitBoundary len delta_bits (getIpv6Tpmode env)
  let sub_prefix_num ← shl 1#32 bit_boundary
  let mask ← shl (BitVec.allOnes 32) delta_bits
  let tmp_prefix := env.load addr &&& mask.signExtend 64
  let sub_prefixes ← subPrefixes env tmp_prefix (delta_bits - bit_boundary) sub_prefix_num.toNat
  let all ← shl 1#32 delta_bits
  let iface_prefix_num := (all / sub_prefix_num).toNat
  if iface_prefix_num = 0 then none
  else
    let first := (inet_pton6 (sub_prefixes.getD 0 [])).getD addr
    let n := insts.length
    let used_sub_prefix_num := n / iface_prefix_num + if n % iface_prefix_num ≠ 0 then 1 else 0
    some {
      ifaces := ifacePrefixes env insts (env.load first)
      subprefixStart :=
        if used_sub_prefix_num < sub_prefix_num.toNat then
          sub_prefixes.getD used_sub_prefix_num []
        else []
      subprefixEnd :=
        if used_sub_prefix_num < sub_prefix_num.toNat then
          sub_prefixes.getD (sub_prefix_num.toNat - 1) []
        else []
      prefixLength := printInt len
      pdLength := printInt (len + bit_boundary) }

/-- The events of a call that returns 0; `some none` is a return of -1. -/
def divideIpv6Prefix (env : Env) : Option (Option Division) :=
  match getPrefixInfo (env.read prefSyseventName 64) with
  | none => some none
  | some (value, len) =>
    if 46 ≤ value.length then none
    else if 64 - len < 0 then some none
    else
      match inet_pton6 value with
      | none => some none
      | some addr =>
        if maxLanIfNum < (getActiveLanif env).length then none
        else if getActiveLanif env = [] then some none
        else do
          let all ← shl 1#32 (64 - len)
          if all.toNat < (getActiveLanif env).length then some none
          else (divide env len addr (getActiveLanif env)).map some

def addressText (w : BitVec 64) : CStr := inet_ntop6 (octets (networkAddress (wordBytes w)))

def prefixWord (addr : List ℕ) : BitVec 64 := bytesWord (ofOctets addr)

def Inside (len : ℕ) (p w : BitVec 64) : Prop :=
  w.toNat / 2 ^ (64 - len) = p.toNat / 2 ^ (64 - len)

def subprefixRange (m : ℕ) (s e : BitVec 64) : Set (BitVec 64) :=
  {v | (∃ k, v.toNat = s.toNat + k * 2 ^ (64 - m)) ∧ v.toNat ≤ e.toNat}

def Delegable (d : Division) (m : ℕ) (subs : Set (BitVec 64)) : Prop :=
  d.pdLength = decimal m ∧
    ((d.subprefixStart = [] ∧ d.subprefixEnd = [] ∧ subs = ∅) ∨
      ∃ s e, d.subprefixStart = addressText s ∧ d.subprefixEnd = addressText e ∧
        subs = subprefixRange m s e)

/-- Interface /64s and sub-prefixes that share p without overlapping. -/
structure Separate (p : BitVec 64) (len : ℕ) (ws : List (BitVec 64)) (m : ℕ)
    (subs : Set (BitVec 64)) : Prop where
  distinct : ws.Nodup
  inside : ∀ w ∈ ws, Inside len p w
  apart : ∀ v ∈ subs, ∀ w ∈ ws, ¬ Inside m v w
  disjoint : ∀ v ∈ subs, ∀ v' ∈ subs, v ≠ v' → ∀ w, ¬ (Inside m v w ∧ Inside m v' w)
  within : ∀ v ∈ subs, ∀ w, Inside m v w → Inside len p w

def Divided (p : BitVec 64) (len : ℕ) (d : Division) : Prop :=
  ∃ ws m subs, d.ifaces.map Prod.snd = ws.map (fun w => addressText w ++ "/64".toList) ∧
    Delegable d m subs ∧ Separate p len ws m subs

section words

theorem ofOctets_networkAddress (b : Bytes 8) :
    (ofOctets (octets (networkAddress b)) : Bytes 8) = b := by
  funext k
  have hk : k.val < 16 := by omega
  simp [ofOctets, octets, networkAddress, Bytes.byteAt, hk]

theorem inet_pton6_addressText (w : BitVec 64) :
    inet_pton6 (addressText w) = some (octets (networkAddress (wordBytes w))) :=
  inet_pton6_ntop6 (wordBytes w)

theorem addressText_injective : Function.Injective addressText := by
  intro w w' h
  have hread := congrArg inet_pton6 h
  rw [inet_pton6_addressText, inet_pton6_addressText, Option.some.injEq] at hread
  have hbytes := congrArg (fun os => bytesWord (ofOctets os)) hread
  simpa only [ofOctets_networkAddress, bytesWord_wordBytes] using hbytes

variable (env : Env)

theorem load_eq (addr : List ℕ) : env.load addr = prefixWord addr := by
  unfold Env.load prefixWord helperNtoh64
  cases env.cbr
  · simp [loadWord]
  · simp [byteSwap_loadWord]

theorem load_printed (w : BitVec 64) (addr : List ℕ) :
    env.load ((inet_pton6 (addressText w)).getD addr) = w := by
  rw [inet_pton6_addressText, Option.getD_some, load_eq, prefixWord, ofOctets_networkAddress,
    bytesWord_wordBytes]

theorem print_converted (w : BitVec 64) :
    env.print (if env.cbr then helperHton64 w else w) = addressText w := by
  unfold Env.print addressText helperHton64
  cases env.cbr
  · rfl
  · simp only [if_true, storeWord_byteSwap]

def ifaceWords (cbr : Bool) : ℕ → BitVec 64 → List (BitVec 64)
  | 0, _ => []
  | n + 1, w => w :: ifaceWords cbr n ((if cbr then helperHton64 w else w) + 1#64)

theorem ifacePrefixes_texts (insts : List ℤ) (w : BitVec 64) :
    (ifacePrefixes env insts w).map Prod.snd =
      (ifaceWords env.cbr insts.length w).map (fun w => addressText w ++ "/64".toList) := by
  induction insts generalizing w with
  | nil => rfl
  | cons inst insts ih =>
    simp only [ifacePrefixes, List.map_cons, List.length_cons, ifaceWords, ih, print_converted]

theorem ifaceWords_false (n : ℕ) (w : BitVec 64) :
    ifaceWords false n w = (List.range n).map (fun k => w + BitVec.ofNat 64 k) := by
  induction n generalizing w with
  | zero => rfl
  | succ n ih =>
    rw [List.range_succ_eq_map, List.map_cons, List.map_map, ifaceWords, ih]
    congr 1
    · simp
    · refine List.map_congr_left (fun k _ => ?_)
      simp only [Function.comp_apply, Bool.false_eq_true, if_false, Nat.succ_eq_add_one,
        BitVec.ofNat_add]
      rw [BitVec.add_assoc, BitVec.add_comm 1#64]

def masked (x : BitVec 64) (delta_bits : ℕ) : BitVec 64 :=
  x &&& (BitVec.allOnes 32 <<< delta_bits).signExtend 64

theorem masked_toNat (x : BitVec 64) {delta_bits : ℕ} (h : delta_bits < 32) :
    (masked x delta_bits).toNat = x.toNat / 2 ^ delta_bits * 2 ^ delta_bits := by
  have hmask : masked x delta_bits = (x >>> delta_bits) <<< delta_bits := by
    apply BitVec.eq_of_getLsbD_eq
    intro j hj
    have hmsb : (BitVec.allOnes 32 <<< delta_bits).msb = true := by
      rw [BitVec.msb_eq_getLsbD_last, BitVec.getLsbD_shiftLeft, BitVec.getLsbD_allOnes]
      simp only [Bool.and_eq_true, Bool.not_eq_true', decide_eq_true_eq, decide_eq_false_iff_not]
      omega
    have hbit : ((BitVec.allOnes 32 <<< delta_bits).signExtend 64).getLsbD j =
        decide (delta_bits ≤ j) := by
      rw [BitVec.getLsbD_signExtend, hmsb, BitVec.getLsbD_shiftLeft, BitVec.getLsbD_allOnes]
      by_cases hj32 : j < 32
      · by_cases hd : j < delta_bits
        · simp [hj32, hj, hd]
        · simp [hj32, hj, hd, show j - delta_bits < 32 by omega, Nat.not_lt.mp hd]
      · simp [hj32, hj, show delta_bits ≤ j by omega]
    rw [masked, BitVec.getLsbD_and, hbit, BitVec.getLsbD_shiftLeft, BitVec.getLsbD_ushiftRight]
    by_cases hd : delta_bits ≤ j
    · simp [hd, hj, Nat.not_lt.mpr hd, Nat.add_sub_cancel' hd]
    · simp [hd, Nat.not_le.mp hd]
  have hle : x.toNat / 2 ^ delta_bits * 2 ^ delta_bits ≤ x.toNat := Nat.div_mul_le_self _ _
  rw [hmask, BitVec.toNat_shiftLeft, BitVec.toNat_ushiftRight, Nat.shiftRight_eq_div_pow,
    Nat.shiftLeft_eq, Nat.mod_eq_of_lt (Nat.lt_of_le_of_lt hle x.isLt)]

def subWord (base : BitVec 64) (shift i : ℕ) : BitVec 64 :=
  base ||| (BitVec.ofNat 32 i <<< shift).setWidth 64

theorem subWord_toNat {base : BitVec 64} {delta_bits shift i : ℕ}
    (hbase : base.toNat % 2 ^ delta_bits = 0) (hdelta : delta_bits < 32)
    (hi : i * 2 ^ shift < 2 ^ delta_bits) :
    (subWord base shift i).toNat = base.toNat + i * 2 ^ shift := by
  have hle : i ≤ i * 2 ^ shift := Nat.le_mul_of_pos_right i (Nat.two_pow_pos shift)
  have hpow : 2 ^ delta_bits ≤ 2 ^ 31 := Nat.pow_le_pow_right (by omega) (by omega)
  have hshift : ((BitVec.ofNat 32 i <<< shift).setWidth 64).toNat = i * 2 ^ shift := by
    rw [BitVec.toNat_setWidth, BitVec.toNat_shiftLeft, BitVec.toNat_ofNat, Nat.shiftLeft_eq,
      Nat.mod_eq_of_lt (a := i) (by omega), Nat.mod_eq_of_lt (a := i * 2 ^ shift) (by omega),
      Nat.mod_eq_of_lt (by omega)]
  obtain ⟨q, hq⟩ := Nat.dvd_of_mod_eq_zero hbase
  rw [subWord, BitVec.toNat_or, hshift, hq, ← Nat.two_pow_add_eq_or_of_lt hi]

theorem subPrefixes_eq (base : BitVec 64) {shift : ℕ} (hshift : shift < 32) (n : ℕ) :
    subPrefixes env base shift n =
      some ((List.range n).map (fun i => addressText (subWord base shift i))) := by
  have hshl : ∀ x, shl x (shift : ℤ) = some (x <<< shift) := by
    intro x
    rw [shl, if_pos (by omega), Int.toNat_natCast]
  unfold subPrefixes
  induction List.range n with
  | nil => rfl
  | cons i is ih =>
    rw [List.mapM_cons, ih, hshl]
    simp only [Option.bind_eq_bind, Option.bind_some, Option.pure_def, List.map_cons,
      print_converted]
    rfl

end words

section blocks

variable {p base : BitVec 64} {len bb n used : ℕ}

theorem block_div (q S I j : ℕ) (hI : 0 < I) : (q * (S * I) + j) / I = q * S + j / I := by
  rw [← Nat.mul_assoc, Nat.mul_comm _ I, Nat.mul_add_div hI]

section interfaces

variable (hbase : base.toNat = p.toNat / 2 ^ (64 - len) * 2 ^ (64 - len))

include hbase

theorem base_add_le :
    base.toNat + 2 ^ (64 - len) ≤ 2 ^ 64 := by
  have hpow : 2 ^ (64 - (64 - len)) * 2 ^ (64 - len) = 2 ^ 64 := by
    rw [← pow_add]
    congr 1
    omega
  have hq : p.toNat / 2 ^ (64 - len) < 2 ^ (64 - (64 - len)) := by
    rw [Nat.div_lt_iff_lt_mul (Nat.two_pow_pos _), hpow]
    exact p.isLt
  calc base.toNat + 2 ^ (64 - len)
      = (p.toNat / 2 ^ (64 - len) + 1) * 2 ^ (64 - len) := by rw [hbase, Nat.add_mul, Nat.one_mul]
    _ ≤ 2 ^ (64 - (64 - len)) * 2 ^ (64 - len) := Nat.mul_le_mul_right _ hq
    _ = 2 ^ 64 := hpow

theorem iface_toNat {k : ℕ}
    (hk : k < 2 ^ (64 - len)) : (base + BitVec.ofNat 64 k).toNat = base.toNat + k := by
  have hroom := base_add_le hbase
  rw [BitVec.toNat_add, BitVec.toNat_ofNat, Nat.mod_eq_of_lt (a := k) (by omega),
    Nat.mod_eq_of_lt (by omega)]

theorem inside_of_block {k : ℕ}
    (hk : k < 2 ^ (64 - len)) {w : BitVec 64} (hw : w.toNat = base.toNat + k) :
    Inside len p w := by
  rw [Inside, hw, hbase, Nat.mul_comm, Nat.mul_add_div (Nat.two_pow_pos _), Nat.div_eq_of_lt hk,
    Nat.add_zero]

theorem ifaces_distinct (hn : n ≤ 2 ^ (64 - len)) :
    ((List.range n).map (fun k => base + BitVec.ofNat 64 k)).Nodup := by
  refine List.Nodup.map_on (fun k hk j hj hkj => ?_) List.nodup_range
  rw [List.mem_range] at hk hj
  have hnat := congrArg BitVec.toNat hkj
  rw [iface_toNat hbase (by omega), iface_toNat hbase (by omega)] at hnat
  omega

theorem ifaces_inside (hn : n ≤ 2 ^ (64 - len)) :
    ∀ w ∈ (List.range n).map (fun k => base + BitVec.ofNat 64 k), Inside len p w := by
  intro w hw
  obtain ⟨k, hk, rfl⟩ := List.mem_map.mp hw
  rw [List.mem_range] at hk
  exact inside_of_block hbase (by omega) (iface_toNat hbase (by omega))

end interfaces

theorem separate_consecutive (hlen : 33 ≤ len) (hlen64 : len ≤ 64) (hbb : bb ≤ 64 - len)
    (hbase : base.toNat = p.toNat / 2 ^ (64 - len) * 2 ^ (64 - len)) (hn : n ≤ 2 ^ (64 - len))
    (hused : n ≤ used * 2 ^ (64 - len - bb)) (hroom : used < 2 ^ bb) :
    Separate p len ((List.range n).map (fun k => base + BitVec.ofNat 64 k)) (len + bb)
      (subprefixRange (len + bb) (subWord base (64 - len - bb) used)
        (subWord base (64 - len - bb) (2 ^ bb - 1))) := by
  have hsize : 2 ^ bb * 2 ^ (64 - len - bb) = 2 ^ (64 - len) := by
    rw [← pow_add]
    congr 1
    omega
  have hpos : 0 < 2 ^ (64 - len - bb) := Nat.two_pow_pos _
  have hzero : base.toNat % 2 ^ (64 - len) = 0 := by rw [hbase, Nat.mul_mod_left]
  have hm : 64 - (len + bb) = 64 - len - bb := by omega
  have hword : ∀ i < 2 ^ bb, (subWord base (64 - len - bb) i).toNat =
      base.toNat + i * 2 ^ (64 - len - bb) := by
    intro i hi
    refine subWord_toNat hzero (by omega) ?_
    rw [← hsize]
    exact Nat.mul_lt_mul_of_pos_right hi hpos
  have hbaseBlock : base.toNat = p.toNat / 2 ^ (64 - len) * (2 ^ bb * 2 ^ (64 - len - bb)) := by
    rw [hsize, hbase]
  have hmem : ∀ v ∈ subprefixRange (len + bb) (subWord base (64 - len - bb) used)
      (subWord base (64 - len - bb) (2 ^ bb - 1)), ∃ i, used ≤ i ∧ i < 2 ^ bb ∧
        v.toNat = base.toNat + i * 2 ^ (64 - len - bb) := by
    rintro v ⟨⟨k, hk⟩, hle⟩
    rw [hword used hroom, hm, Nat.add_assoc, ← Nat.add_mul] at hk
    rw [hk, hword _ (by omega)] at hle
    have hle' : used + k ≤ 2 ^ bb - 1 :=
      Nat.le_of_mul_le_mul_right (Nat.le_of_add_le_add_left hle) hpos
    exact ⟨used + k, Nat.le_add_right _ _, by omega, hk⟩
  have hblock : ∀ i, (base.toNat + i * 2 ^ (64 - len - bb)) / 2 ^ (64 - len - bb) =
      p.toNat / 2 ^ (64 - len) * 2 ^ bb + i := by
    intro i
    rw [hbaseBlock, block_div _ _ _ _ hpos, Nat.mul_div_cancel _ hpos]
  refine ⟨ifaces_distinct hbase hn, ifaces_inside hbase hn, ?_, ?_, ?_⟩
  · intro v hv w hw hin
    obtain ⟨i, hi, -, hvi⟩ := hmem v hv
    obtain ⟨k, hk, rfl⟩ := List.mem_map.mp hw
    rw [List.mem_range] at hk
    rw [Inside, hm, iface_toNat hbase (by omega), hvi, hblock, hbaseBlock,
      block_div _ _ _ _ hpos] at hin
    have hlt : k / 2 ^ (64 - len - bb) < used := by
      rw [Nat.div_lt_iff_lt_mul hpos]
      omega
    omega
  · rintro v hv v' hv' hne w ⟨hin, hin'⟩
    obtain ⟨i, -, -, hvi⟩ := hmem v hv
    obtain ⟨i', -, -, hvi'⟩ := hmem v' hv'
    rw [Inside, hm, hvi, hblock] at hin
    rw [Inside, hm, hvi', hblock] at hin'
    have hii : i = i' := by omega
    exact hne (BitVec.eq_of_toNat_eq (by rw [hvi, hvi', hii]))
  · intro v hv w hin
    obtain ⟨i, -, hi, hvi⟩ := hmem v hv
    rw [Inside, hm, hvi, hblock] at hin
    rw [Inside, ← hsize, Nat.mul_comm (2 ^ bb), ← Nat.div_div_eq_div_mul, hin, Nat.mul_comm,
      Nat.mul_add_div (Nat.two_pow_pos _), Nat.div_eq_of_lt hi, Nat.add_zero, Nat.mul_comm, hsize]

theorem separate_empty (hbase : base.toNat = p.toNat / 2 ^ (64 - len) * 2 ^ (64 - len))
    (hn : n ≤ 2 ^ (64 - len)) (m : ℕ) :
    Separate p len ((List.range n).map (fun k => base + BitVec.ofNat 64 k)) m ∅ :=
  ⟨ifaces_distinct hbase hn, ifaces_inside hbase hn, fun _ hv => absurd hv (Set.notMem_empty _),
    fun _ hv => absurd hv (Set.notMem_empty _), fun _ hv => absurd hv (Set.notMem_empty _)⟩

end blocks

section run

variable (env : Env) (addr : List ℕ) (insts : List ℤ) {len : ℕ}

def boundary (env : Env) (len : ℕ) : ℕ := (bitBoundary len (64 - len) (getIpv6Tpmode env)).toNat

theorem bitBoundary_eq (hlen : len ≤ 64) :
    bitBoundary len (64 - len) (getIpv6Tpmode env) = (boundary env len : ℤ) := by
  have hpos : 0 ≤ bitBoundary len (64 - len) (getIpv6Tpmode env) := by
    unfold bitBoundary
    cases getIpv6Tpmode env
    · exact Int.le_refl 0
    all_goals simp only; split_ifs <;> omega
  exact (Int.toNat_of_nonneg hpos).symm

theorem boundary_le (hlen : len ≤ 64) : boundary env len ≤ 64 - len ∧ boundary env len ≤ 4 := by
  have heq := bitBoundary_eq env hlen
  have hle : bitBoundary len (64 - len) (getIpv6Tpmode env) ≤ 64 - len ∧
      bitBoundary len (64 - len) (getIpv6Tpmode env) ≤ 4 := by
    unfold bitBoundary
    cases getIpv6Tpmode env
    · simp only
      omega
    all_goals simp only; split_ifs <;> omega
  omega

theorem shl_of_lt (x : BitVec 32) {n : ℕ} (h : n < 32) : shl x (n : ℤ) = some (x <<< n) := by
  rw [shl, if_pos (by omega), Int.toNat_natCast]

theorem one_shl_toNat {n : ℕ} (h : n < 32) : (1#32 <<< n).toNat = 2 ^ n := by
  have hlt : 2 ^ n < 2 ^ 32 := Nat.pow_lt_pow_right (by omega) h
  rw [BitVec.toNat_shiftLeft, show (1#32).toNat = 1 from rfl, Nat.shiftLeft_eq, Nat.one_mul,
    Nat.mod_eq_of_lt hlt]

def usedSubPrefixes (n size : ℕ) : ℕ := n / size + if n % size ≠ 0 then 1 else 0

theorem le_usedSubPrefixes_mul {n size : ℕ} (hsize : 0 < size) :
    n ≤ usedSubPrefixes n size * size := by
  have hdiv := Nat.div_add_mod n size
  have hlt := Nat.mod_lt n hsize
  unfold usedSubPrefixes
  split_ifs with h
  · rw [Nat.add_mul, Nat.one_mul, Nat.mul_comm]
    omega
  · rw [Nat.add_zero, Nat.mul_comm]
    omega

theorem divide_eq (hlen : 33 ≤ len) (hlen64 : len ≤ 64) : divide env len addr insts = some
    { ifaces := ifacePrefixes env insts (masked (prefixWord addr) (64 - len))
      subprefixStart :=
        if usedSubPrefixes insts.length (2 ^ (64 - len - boundary env len)) <
            2 ^ boundary env len then
          addressText (subWord (masked (prefixWord addr) (64 - len)) (64 - len - boundary env len)
            (usedSubPrefixes insts.length (2 ^ (64 - len - boundary env len))))
        else []
      subprefixEnd :=
        if usedSubPrefixes insts.length (2 ^ (64 - len - boundary env len)) <
            2 ^ boundary env len then
          addressText (subWord (masked (prefixWord addr) (64 - len)) (64 - len - boundary env len)
            (2 ^ boundary env len - 1))
        else []
      prefixLength := decimal len
      pdLength := decimal (len + boundary env len) } := by
  obtain ⟨hbb, hbb4⟩ := boundary_le env hlen64
  have hdelta : (64 : ℤ) - len = ((64 - len : ℕ) : ℤ) := by omega
  have hshift : ((64 - len : ℕ) : ℤ) - (boundary env len : ℤ) =
      ((64 - len - boundary env len : ℕ) : ℤ) := by omega
  have hprinted : printInt (len + (boundary env len : ℤ)) = decimal (len + boundary env len) := rfl
  have hsize : (1#32 <<< (64 - len) / 1#32 <<< boundary env len).toNat =
      2 ^ (64 - len - boundary env len) := by
    rw [BitVec.toNat_udiv, one_shl_toNat (by omega), one_shl_toNat (by omega),
      Nat.pow_div hbb (by omega)]
  have hne : 2 ^ (64 - len - boundary env len) ≠ 0 := Nat.ne_of_gt (Nat.two_pow_pos _)
  unfold divide
  simp only [bitBoundary_eq env hlen64]
  rw [hdelta, hshift, shl_of_lt _ (by omega), shl_of_lt _ (by omega), shl_of_lt _ (by omega),
    load_eq]
  change (subPrefixes env (masked (prefixWord addr) (64 - len))
    ((64 - len - boundary env len : ℕ) : ℤ) (1#32 <<< boundary env len).toNat).bind _ = _
  have hget : ∀ i < 2 ^ boundary env len, ((List.range (2 ^ boundary env len)).map (fun i =>
      addressText (subWord (masked (prefixWord addr) (64 - len)) (64 - len - boundary env len)
        i))).getD i [] = addressText (subWord (masked (prefixWord addr) (64 - len))
          (64 - len - boundary env len) i) := by
    intro i hi
    rw [List.getD_eq_getElem?_getD, List.getElem?_map, List.getElem?_range hi, Option.map_some,
      Option.getD_some]
  have hfirst : subWord (masked (prefixWord addr) (64 - len)) (64 - len - boundary env len) 0 =
      masked (prefixWord addr) (64 - len) := by simp [subWord]
  have hpos : 0 < 2 ^ boundary env len := Nat.two_pow_pos _
  rw [one_shl_toNat (by omega), subPrefixes_eq env _ (by omega)]
  simp only [Option.bind_eq_bind, Option.bind_some, hsize, if_neg hne, hget 0 hpos, hfirst,
    load_printed, hprinted]
  have hlast : 2 ^ boundary env len - 1 < 2 ^ boundary env len := by omega
  by_cases hroom : usedSubPrefixes insts.length (2 ^ (64 - len - boundary env len)) <
      2 ^ boundary env len
  · have hstart := hget _ hroom
    unfold usedSubPrefixes at hroom hstart ⊢
    simp only [if_pos hroom, hstart, hget _ hlast]
    rfl
  · unfold usedSubPrefixes at hroom ⊢
    simp only [if_neg hroom]
    rfl

theorem getPrefixInfo_eq {addr : CStr} (hlen : len ≤ 64) :
    getPrefixInfo (addr ++ '/' :: decimal len) = some (addr, (len : ℤ)) := by
  have hdigits : ∀ c ∈ (decimal len).reverse, decide (c ≠ '/') = true := by
    intro c hc
    have hdigit := isDigit_of_mem_decimal (List.mem_reverse.mp hc)
    rw [decide_eq_true_eq]
    rintro rfl
    exact absurd hdigit (by decide)
  have hrev : (addr ++ '/' :: decimal len).reverse = (decimal len).reverse ++ '/' :: addr.reverse :=
    by simp
  have hnum : atoi (decimal len) = (len : ℤ) := atoi_decimal (by omega)
  unfold getPrefixInfo
  rw [hrev, List.dropWhile_append_of_pos hdigits, List.takeWhile_append_of_pos hdigits]
  simp [hnum]

/-- The condition on the prefix, the build and the number n of interfaces. -/
def DividesProperly (cbr : Bool) (p : BitVec 64) (len n : ℕ) : Prop :=
  n = 0 ∨ 33 ≤ len ∧ (2 ^ (64 - len) < n ∨ cbr = false ∨ n = 1 ∨
    n = 2 ∧ byteSwap (masked p (64 - len)) = masked p (64 - len))

theorem divideIpv6Prefix_eq {value : CStr} (hlen : len ≤ 64) (haddr : inet_pton6 value = some addr)
    (hevent : env.commonSyseventGet prefSyseventName = value ++ '/' :: decimal len)
    (hifs : (getActiveLanif env).length ≤ maxLanIfNum) : divideIpv6Prefix env =
      if getActiveLanif env = [] then some none
      else if len ≤ 32 then none
      else if 2 ^ (64 - len) < (getActiveLanif env).length then some none
      else (divide env len addr (getActiveLanif env)).map some := by
  have hvalue := inet_pton6_text_le haddr
  have hdigits : (decimal len).length ≤ 2 := (decimal_length_le_iff (by omega)).mpr (by omega)
  have hread : env.read prefSyseventName 64 = value ++ '/' :: decimal len := by
    rw [Env.read, hevent, List.take_of_length_le]
    rw [List.length_append, List.length_cons]
    omega
  have hsmall : ¬ 46 ≤ value.length := by omega
  have hsign : ¬ (64 : ℤ) - len < 0 := by omega
  have hmax : ¬ maxLanIfNum < (getActiveLanif env).length := by omega
  simp only [divideIpv6Prefix, hread, getPrefixInfo_eq hlen, haddr, if_neg hsmall, if_neg hsign,
    if_neg hmax]
  have hdelta : (64 : ℤ) - len = ((64 - len : ℕ) : ℤ) := by omega
  by_cases hnone : getActiveLanif env = []
  · simp only [if_pos hnone]
  · simp only [if_neg hnone]
    by_cases hshort : len ≤ 32
    · have hundef : shl 1#32 (64 - (len : ℤ)) = none := if_neg (by omega)
      rw [if_pos hshort, hundef]
      rfl
    · rw [if_neg hshort, hdelta, shl_of_lt _ (by omega)]
      simp only [Option.bind_eq_bind, Option.bind_some, one_shl_toNat (show 64 - len < 32 by omega)]

theorem ifaceWords_consecutive {cbr : Bool} {n : ℕ} {base : BitVec 64}
    (h : cbr = false ∨ n ≤ 1 ∨ n = 2 ∧ byteSwap base = base) :
    ifaceWords cbr n base = (List.range n).map (fun k => base + BitVec.ofNat 64 k) := by
  rcases h with h | h | ⟨h, hswap⟩
  · rw [h, ifaceWords_false]
  · rw [← ifaceWords_false]
    obtain rfl | rfl : n = 0 ∨ n = 1 := by omega
    · rfl
    · rfl
  · rw [← ifaceWords_false]
    subst h
    cases cbr
    · rfl
    · simp only [ifaceWords, helperHton64, hswap, if_true, Bool.false_eq_true, if_false]

theorem divided_of_consecutive {insts : List ℤ} {d : Division} (hlen : 33 ≤ len)
    (hlen64 : len ≤ 64) (hn : insts.length ≤ 2 ^ (64 - len))
    (hwords : ifaceWords env.cbr insts.length (masked (prefixWord addr) (64 - len)) =
      (List.range insts.length).map (fun k =>
        masked (prefixWord addr) (64 - len) + BitVec.ofNat 64 k))
    (hd : divide env len addr insts = some d) : Divided (prefixWord addr) len d := by
  rw [divide_eq env addr insts hlen hlen64, Option.some.injEq] at hd
  subst hd
  have hbase := masked_toNat (prefixWord addr) (show 64 - len < 32 by omega)
  have hpos : 0 < 2 ^ (64 - len - boundary env len) := Nat.two_pow_pos _
  by_cases hroom : usedSubPrefixes insts.length (2 ^ (64 - len - boundary env len)) <
      2 ^ boundary env len
  · refine ⟨_, len + boundary env len, _, ?_, ⟨rfl, .inr ⟨_, _, if_pos hroom, if_pos hroom, rfl⟩⟩,
      separate_consecutive hlen hlen64 (boundary_le env hlen64).1 hbase hn
        (le_usedSubPrefixes_mul hpos) hroom⟩
    rw [← hwords]
    exact ifacePrefixes_texts env insts _
  · refine ⟨_, len + boundary env len, _, ?_, ⟨rfl, .inl ⟨if_neg hroom, if_neg hroom, rfl⟩⟩,
      separate_empty hbase hn _⟩
    rw [← hwords]
    exact ifacePrefixes_texts env insts _

theorem addressTexts_injective {ws ws' : List (BitVec 64)}
    (h : ws.map (fun w => addressText w ++ "/64".toList) =
      ws'.map (fun w => addressText w ++ "/64".toList)) : ws = ws' :=
  List.map_injective_iff.mpr (fun _ _ hw => addressText_injective (List.append_cancel_right hw)) h

theorem swapped_of_divided {insts : List ℤ} {d : Division} (hlen : 33 ≤ len) (hlen64 : len ≤ 64)
    (hcbr : env.cbr = true) (htwo : 2 ≤ insts.length) (hn : insts.length ≤ 2 ^ (64 - len))
    (hd : divide env len addr insts = some d) (hdiv : Divided (prefixWord addr) len d) :
    insts.length = 2 ∧
      byteSwap (masked (prefixWord addr) (64 - len)) = masked (prefixWord addr) (64 - len) := by
  rw [divide_eq env addr insts hlen hlen64, Option.some.injEq] at hd
  subst hd
  obtain ⟨ws, m, subs, htexts, -, hsep⟩ := hdiv
  rw [ifacePrefixes_texts] at htexts
  have hws := addressTexts_injective htexts
  have hbase := masked_toNat (prefixWord addr) (show 64 - len < 32 by omega)
  have heven : (masked (prefixWord addr) (64 - len)).toNat % 2 = 0 := by
    obtain ⟨k, hk⟩ : ∃ k, 64 - len = k + 1 := by
      refine ⟨64 - len - 1, ?_⟩
      have hne : 64 - len ≠ 0 := by
        intro h0
        rw [h0, pow_zero] at hn
        omega
      omega
    rw [hbase, hk, pow_succ, ← Nat.mul_assoc, Nat.mul_mod_left]
  have hhigh : ∀ w ∈ ws, w.toNat / 2 ^ 32 =
      (masked (prefixWord addr) (64 - len)).toNat / 2 ^ 32 := by
    intro w hw
    have hin := hsep.inside w hw
    have hself := inside_of_block hbase (Nat.two_pow_pos _)
      (w := masked (prefixWord addr) (64 - len))
      (k := 0) rfl
    rw [Inside] at hin hself
    have hpow : 2 ^ 32 = 2 ^ (64 - len) * 2 ^ (32 - (64 - len)) := by
      rw [← pow_add]
      congr 1
      omega
    rw [hpow, ← Nat.div_div_eq_div_mul, ← Nat.div_div_eq_div_mul, hin, hself]
  obtain ⟨k, hk⟩ : ∃ k, insts.length = k + 2 := ⟨insts.length - 2, by omega⟩
  simp only [hcbr, hk, ifaceWords, if_true, helperHton64] at hws
  have hsecond := hhigh (byteSwap (masked (prefixWord addr) (64 - len)) + 1#64)
    (by rw [← hws]; exact List.mem_cons_of_mem _ List.mem_cons_self)
  have hswap := byteSwap_eq_of_high heven hsecond
  refine ⟨?_, hswap⟩
  by_contra hne
  obtain ⟨j, rfl⟩ : ∃ j, k = j + 1 := ⟨k - 1, by omega⟩
  simp only [ifaceWords, if_true, hswap] at hws
  have hthird := hhigh (byteSwap (masked (prefixWord addr) (64 - len) + 1#64) + 1#64)
    (by rw [← hws]; exact List.mem_cons_of_mem _ (List.mem_cons_of_mem _ List.mem_cons_self))
  exact byteSwap_succ_high_ne heven hswap hthird

/-- A call on the delegated prefix divides it without overlap, or returns -1,
exactly under `DividesProperly`. -/
theorem divideIpv6Prefix_divided_iff {value : CStr} (hlen : len ≤ 64)
    (haddr : inet_pton6 value = some addr)
    (hevent : env.commonSyseventGet prefSyseventName = value ++ '/' :: decimal len)
    (hifs : (getActiveLanif env).length ≤ maxLanIfNum) :
    (∃ r, divideIpv6Prefix env = some r ∧ ∀ d, r = some d → Divided (prefixWord addr) len d) ↔
      DividesProperly env.cbr (prefixWord addr) len (getActiveLanif env).length := by
  rw [divideIpv6Prefix_eq env addr hlen haddr hevent hifs]
  unfold DividesProperly
  by_cases hnone : getActiveLanif env = []
  · simp [hnone]
  have hpos : (getActiveLanif env).length ≠ 0 := by
    intro h
    exact hnone (List.length_eq_zero_iff.mp h)
  rw [if_neg hnone]
  by_cases hshort : len ≤ 32
  · rw [if_pos hshort]
    constructor
    · rintro ⟨r, hr, -⟩
      exact absurd hr (Option.some_ne_none r).symm
    · intro h
      omega
  rw [if_neg hshort]
  by_cases hmany : 2 ^ (64 - len) < (getActiveLanif env).length
  · rw [if_pos hmany]
    exact ⟨fun _ => .inr ⟨by omega, .inl hmany⟩, fun _ => ⟨none, rfl, fun d hd =>
      absurd hd (Option.some_ne_none d).symm⟩⟩
  rw [if_neg hmany]
  obtain ⟨d, hd⟩ : ∃ d, divide env len addr (getActiveLanif env) = some d :=
    ⟨_, divide_eq env addr _ (by omega) hlen⟩
  rw [hd, Option.map_some]
  constructor
  · rintro ⟨r, hr, hdiv⟩
    rw [Option.some.injEq] at hr
    have hgood := hdiv d hr.symm
    refine .inr ⟨by omega, .inr ?_⟩
    cases hcbr : env.cbr
    · exact .inl rfl
    · by_cases hone : (getActiveLanif env).length = 1
      · exact .inr (.inl hone)
      · exact .inr (.inr (swapped_of_divided env addr (by omega) hlen hcbr (by omega) (by omega) hd
          hgood))
  · intro h
    refine ⟨some d, rfl, fun d' hd' => ?_⟩
    rw [Option.some.injEq] at hd'
    subst hd'
    refine divided_of_consecutive env addr (by omega) hlen (by omega) (ifaceWords_consecutive ?_) hd
    rcases h with h | ⟨-, h | h | h | h⟩
    · exact absurd h hpos
    · exact absurd h hmany
    · exact .inl h
    · exact .inr (.inl (by omega))
    · exact .inr (.inr h)

end run

def twoBridges (cbr : Bool) : Env where
  commonSyseventGet name :=
    if name = prefSyseventName then "2001:db8:0:10::/60".toList
    else if name = prefIaidSyseventName then "'1'".toList
    else if name = "multinet-instances".toList then "1 2".toList
    else if name = "multinet_1-name".toList then "brlan0".toList
    else if name = "multinet_2-name".toList then "brlan1".toList
    else []
  lan_pd_interfaces := "brlan0 brlan1".toList
  cbr := cbr

theorem twoBridges_address : inet_pton6 "2001:db8:0:10::".toList =
    some [0x20, 1, 0x0d, 0xb8, 0, 0, 0, 0x10, 0, 0, 0, 0, 0, 0, 0, 0] := by decide +kernel

theorem twoBridges_lanif (cbr : Bool) : getActiveLanif (twoBridges cbr) = [1, 2] := by
  cases cbr <;> decide +kernel

theorem divideIpv6Prefix_divided_sixty : ∃ r, divideIpv6Prefix (twoBridges false) = some r ∧
    ∀ d, r = some d →
      Divided (prefixWord [0x20, 1, 0x0d, 0xb8, 0, 0, 0, 0x10, 0, 0, 0, 0, 0, 0, 0, 0]) 60 d :=
  (divideIpv6Prefix_divided_iff (twoBridges false) _ (by omega) twoBridges_address rfl
    (by rw [twoBridges_lanif]; decide)).mpr
    (.inr ⟨by omega, .inr (.inl rfl)⟩)

/-- On the little-endian build the second bridge gets a /64 outside the prefix. -/
theorem divideIpv6Prefix_swapped_words : ¬ ∀ (env : Env) (value : CStr) (addr : List ℕ) (len : ℕ),
    len ≤ 64 → inet_pton6 value = some addr →
      env.commonSyseventGet prefSyseventName = value ++ '/' :: decimal len →
        (getActiveLanif env).length ≤ maxLanIfNum →
          ∀ d, divideIpv6Prefix env = some (some d) → Divided (prefixWord addr) len d := by
  intro h
  have hlen : 60 ≤ 64 := by omega
  have hcall := divideIpv6Prefix_eq (twoBridges true) _ hlen twoBridges_address rfl
    (by rw [twoBridges_lanif]; decide)
  have hdivide := divide_eq (twoBridges true)
    [0x20, 1, 0x0d, 0xb8, 0, 0, 0, 0x10, 0, 0, 0, 0, 0, 0, 0, 0] [1, 2] (by omega : 33 ≤ 60) hlen
  rw [twoBridges_lanif, if_neg (by decide), if_neg (by decide), if_neg (by decide), hdivide,
    Option.map_some] at hcall
  have hgood := h (twoBridges true) _ _ 60 (by omega) twoBridges_address rfl
    (by rw [twoBridges_lanif]; decide) _ hcall
  have hswap := (swapped_of_divided (twoBridges true) _ (by omega) (by omega) rfl (by decide)
    (by decide) hdivide hgood).2
  exact absurd hswap (by decide +kernel)

end CcspPandM.DivideIpv6Prefix
