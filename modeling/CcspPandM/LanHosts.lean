import CcspPandM.PrefixText
import CcspPandM.ScanFields

/-!
The hosts an internet-access policy is about, as the data model keeps them and as the
backend does: there an address is text in a cell of fixed size, the cells of a list in one
block. The writer moves its pointer on from cell to cell. The reader starts anew from the
first cell for every address.
-/
namespace CcspPandM.LanHosts

open CString InetText ScanText ScanFields PrefixText

abbrev ULONG := BitVec 32

abbrev Octet := BitVec 8

abbrev Mac := Fin 6 → Octet

abbrev Ip := Fin 4 → Octet

def COSA_DML_IA_LH_MAX_MAC : ℕ := 10

def COSA_DML_IA_LH_MAX_IP : ℕ := 6

def COSA_DML_IA_LH_MAX_IP_RANGE : ℕ := 4

def MACADDR_SZ : ℕ := 18

/-- The lists are arrays; only the places below their capacity are in them. -/
structure COSA_DML_IA_LH where
  bUseLanHosts : Bool
  MacCount : ℕ
  IpCount : ℕ
  IprCount : ℕ
  MacList : ℕ → Mac
  IpList : ℕ → Ip
  IprList : ℕ → Ip × Ip

structure COSA_DML_IA_POLICY where
  InstanceNumber : ULONG
  Alias : Buf 64
  bEnabled : Bool
  LanHost : COSA_DML_IA_LH

structure lanHosts_t where
  mac_count : ℕ
  maclist : CStr
  ip_count : ℕ
  iplist : CStr
  iprange_count : ℕ
  iprangelist : List (BitVec 32 × BitVec 32)
  deriving DecidableEq

structure timeofday_t where
  day : ℕ
  start_time : CStr
  stop_time : CStr
  all_day : Bool
  deriving DecidableEq

structure iap_entry_t where
  tr_inst_num : ULONG
  policyname : CStr
  enabled : Bool
  allow_access : Bool
  tod : timeofday_t
  lanhosts_set : Bool
  lanhosts : lanHosts_t
  deriving DecidableEq

def cells (size : ℕ) (texts : List CStr) : CStr :=
  texts.flatMap fun t => t ++ List.replicate (size - t.length) '\x00'

def textAt (block : CStr) (p : ℕ) : CStr := (block.drop p).takeWhile (· ≠ '\x00')

/-- What `%02x` prints for an octet. -/
def octetText (o : Octet) : CStr := [(o.toNat / 16).digitChar, (o.toNat % 16).digitChar]

/-- `%02x:%02x:...`, a field for each octet. -/
def octetsText : List Octet → CStr
  | [] => []
  | [o] => octetText o
  | o :: os => octetText o ++ ':' :: octetsText os

/-- The fields are read up to the first that is not there, the others stay 0. -/
def scanOctets : ℕ → CStr → List (BitVec 32)
  | 0, _ => []
  | n + 1, t =>
    match scanHexOf 2 t with
    | none => List.replicate (n + 1) 0
    | some (v, ':' :: rest) => v :: scanOctets n rest
    | some (v, _) => v :: List.replicate n 0

section Conversions

variable (IPADDR_SZ : ℕ) (brlan0 : Ip)

/-- The address of the bridge with another last octet. -/
def hostAddr (d : Octet) : Ip := fun j => if j = 3 then d else brlan0 j

def be_struct_2_middle_layer (p_in : iap_entry_t) (p_out : COSA_DML_IA_POLICY) :
    COSA_DML_IA_POLICY where
  InstanceNumber := p_in.tr_inst_num
  Alias := Buf.sprintf_s p_in.policyname
  bEnabled := p_in.enabled
  LanHost :=
    { bUseLanHosts := p_in.lanhosts_set
      MacCount := p_in.lanhosts.mac_count
      IpCount := p_in.lanhosts.ip_count
      IprCount := p_in.lanhosts.iprange_count
      MacList := fun i =>
        if i < p_in.lanhosts.mac_count ∧ i < COSA_DML_IA_LH_MAX_MAC then
          -- the pointer of this turn is a new one, as is that of the next loop
          let tmp := scanOctets 6 (textAt p_in.lanhosts.maclist 0)
          fun j => (tmp.getD j 0).setWidth 8
        else p_out.LanHost.MacList i
      IpList := fun i =>
        if i < p_in.lanhosts.ip_count ∧ i < COSA_DML_IA_LH_MAX_IP then
          hostAddr brlan0 ((sscanf_d (textAt p_in.lanhosts.iplist 0) 0).setWidth 8)
        else p_out.LanHost.IpList i
      IprList := fun i =>
        if i < p_in.lanhosts.iprange_count ∧ i < COSA_DML_IA_LH_MAX_IP_RANGE then
          let r := p_in.lanhosts.iprangelist.getD i (0, 0)
          (hostAddr brlan0 (r.1.setWidth 8), hostAddr brlan0 (r.2.setWidth 8))
        else p_out.LanHost.IprList i }

def middle_layer_2_be_struct (p_in : COSA_DML_IA_POLICY) (p_out : iap_entry_t) :
    iap_entry_t × Bool :=
  let alias_changed := decide (p_out.policyname ≠ p_in.Alias.text)
  ({ tr_inst_num := p_in.InstanceNumber
     policyname := if alias_changed then p_in.Alias.text else p_out.policyname
     enabled := p_in.bEnabled
     allow_access := p_out.allow_access
     tod := p_out.tod
     lanhosts_set := p_in.LanHost.bUseLanHosts
     lanhosts :=
      { mac_count := p_in.LanHost.MacCount
        maclist := cells MACADDR_SZ ((List.range p_in.LanHost.MacCount).map fun i =>
          octetsText (List.ofFn (p_in.LanHost.MacList i)))
        ip_count := p_in.LanHost.IpCount
        iplist := cells IPADDR_SZ ((List.range p_in.LanHost.IpCount).map fun i =>
          decimal (p_in.LanHost.IpList i 3).toNat)
        iprange_count := p_in.LanHost.IprCount
        iprangelist := (List.range p_in.LanHost.IprCount).map fun i =>
          (((p_in.LanHost.IprList i).1 3).setWidth 32,
            ((p_in.LanHost.IprList i).2 3).setWidth 32) } },
    alias_changed)

structure GivenBack (p out : COSA_DML_IA_POLICY) : Prop where
  number : out.InstanceNumber = p.InstanceNumber
  name : out.Alias = p.Alias
  enabled : out.bEnabled = p.bEnabled
  useLanHosts : out.LanHost.bUseLanHosts = p.LanHost.bUseLanHosts
  macCount : out.LanHost.MacCount = p.LanHost.MacCount
  ipCount : out.LanHost.IpCount = p.LanHost.IpCount
  iprCount : out.LanHost.IprCount = p.LanHost.IprCount
  macs : ∀ i < p.LanHost.MacCount, out.LanHost.MacList i = p.LanHost.MacList i
  ips : ∀ i < p.LanHost.IpCount, out.LanHost.IpList i = p.LanHost.IpList i
  iprs : ∀ i < p.LanHost.IprCount, out.LanHost.IprList i = p.LanHost.IprList i

structure WellFormed (p : COSA_DML_IA_POLICY) : Prop where
  macs : p.LanHost.MacCount ≤ COSA_DML_IA_LH_MAX_MAC
  ips : p.LanHost.IpCount ≤ COSA_DML_IA_LH_MAX_IP
  iprs : p.LanHost.IprCount ≤ COSA_DML_IA_LH_MAX_IP_RANGE
  network : ∀ i < p.LanHost.IpCount, ∀ j, j ≠ 3 → p.LanHost.IpList i j = brlan0 j
  starts : ∀ i < p.LanHost.IprCount, ∀ j, j ≠ 3 → (p.LanHost.IprList i).1 j = brlan0 j
  ends : ∀ i < p.LanHost.IprCount, ∀ j, j ≠ 3 → (p.LanHost.IprList i).2 j = brlan0 j

end Conversions

section Cells

theorem length_cells (size : ℕ) (texts : List CStr) (h : ∀ t ∈ texts, t.length < size) :
    (cells size texts).length = size * texts.length := by
  induction texts with
  | nil => rfl
  | cons t texts ih =>
    have ht := h t List.mem_cons_self
    have hrest := ih fun t' ht' => h t' (List.mem_cons_of_mem t ht')
    rw [cells] at hrest ⊢
    rw [List.flatMap_cons, List.length_append, hrest, List.length_append, List.length_replicate,
      List.length_cons, Nat.mul_succ]
    omega

theorem textAt_cells {size : ℕ} {texts : List CStr}
    (h : ∀ t ∈ texts, t.length < size ∧ '\x00' ∉ t) {i : ℕ} {t : CStr} (ht : texts[i]? = some t) :
    textAt (cells size texts) (size * i) = t := by
  obtain ⟨hi, hget⟩ := List.getElem?_eq_some_iff.mp ht
  have hsplit : texts = texts.take i ++ t :: texts.drop (i + 1) := by
    rw [← hget, List.cons_getElem_drop_succ, List.take_append_drop]
  have hfront : (cells size (texts.take i)).length = size * i := by
    rw [length_cells size _ fun t' ht' => (h t' (List.mem_of_mem_take ht')).1, List.length_take,
      Nat.min_eq_left (Nat.le_of_lt hi)]
  have hmem : t ∈ texts := List.mem_of_getElem? ht
  obtain ⟨hlt, hzero⟩ := h t hmem
  have hcells : cells size texts = cells size (texts.take i) ++
      (t ++ ('\x00' :: (List.replicate (size - t.length - 1) '\x00' ++
        cells size (texts.drop (i + 1))))) := by
    conv_lhs => rw [hsplit]
    rw [cells, List.flatMap_append, List.flatMap_cons, List.append_assoc,
      show size - t.length = size - t.length - 1 + 1 by omega, List.replicate_succ]
    rfl
  rw [textAt, hcells, ← hfront, List.drop_left]
  exact (takeWhile_field (p := (· ≠ '\x00'))
    (fun c hc => decide_eq_true (fun heq => hzero (heq ▸ hc))) (by
      intro c hc
      rw [List.head?_cons, Option.mem_some_iff] at hc
      rw [← hc]
      rfl)).1

variable (o : Octet)

theorem toNat_div_lt : o.toNat / 16 < 16 := by
  have h := o.isLt
  omega

theorem toNat_mod_lt : o.toNat % 16 < 16 := Nat.mod_lt _ (by decide)

theorem isHex_octetText : IsHex (octetText o) := by
  refine ⟨List.cons_ne_nil _ _, ?_⟩
  intro c hc
  rw [isHexDigit]
  rcases List.mem_cons.mp hc with rfl | hc
  · rw [hexValue_digitChar (toNat_div_lt o)]
    rfl
  · rw [List.mem_singleton.mp hc, hexValue_digitChar (toNat_mod_lt o)]
    rfl

theorem hexNat_octetText : hexNat (octetText o) = o.toNat := by
  simp only [hexNat, octetText, List.foldl_cons, List.foldl_nil,
    hexValue_digitChar (toNat_div_lt o), hexValue_digitChar (toNat_mod_lt o), Option.getD_some]
  omega

theorem scanHexOf_octetText (rest : CStr) :
    scanHexOf 2 (octetText o ++ rest) = some (BitVec.ofNat 32 o.toNat, rest) := by
  have hlt : hexNat (octetText o) < 2 ^ 32 := by
    rw [hexNat_octetText]
    have h := o.isLt
    omega
  have hwidth : ∀ c ∈ (rest.take (2 - (octetText o).length)).head?,
      isHexDigit c = false ∧ c ≠ 'x' ∧ c ≠ 'X' := by
    intro c hc
    cases hc
  have hscan := scanHexOf_field gap_nil (isHex_octetText o) (le_refl 2) hlt hwidth
  rw [hexNat_octetText] at hscan
  exact hscan

theorem scanOctets_octetsText (os : List Octet) :
    scanOctets os.length (octetsText os) = os.map fun o => BitVec.ofNat 32 o.toNat := by
  induction os with
  | nil => rfl
  | cons o os ih =>
    cases os with
    | nil =>
      have hscan := scanHexOf_octetText o []
      rw [List.append_nil] at hscan
      simp only [List.length_cons, List.length_nil, octetsText, scanOctets, hscan,
        List.replicate_zero, List.map_cons, List.map_nil]
    | cons o' os =>
      have hscan := scanHexOf_octetText o (':' :: octetsText (o' :: os))
      have htext : octetsText (o :: o' :: os) = octetText o ++ ':' :: octetsText (o' :: os) := rfl
      rw [List.length_cons, scanOctets, htext, hscan]
      change BitVec.ofNat 32 o.toNat :: scanOctets (o' :: os).length (octetsText (o' :: os)) = _
      rw [ih, List.map_cons (a := o)]

theorem zero_notMem_octetText : '\x00' ∉ octetText o := by
  intro h
  exact absurd ((isHex_octetText o).2 _ h) (by decide)

theorem octetsText_bounds (os : List Octet) :
    (octetsText os).length ≤ 3 * os.length ∧
      (os ≠ [] → (octetsText os).length + 1 = 3 * os.length) ∧ '\x00' ∉ octetsText os := by
  induction os with
  | nil => exact ⟨le_refl 0, fun h => absurd rfl h, List.not_mem_nil⟩
  | cons o os ih =>
    cases os with
    | nil => exact ⟨(by decide : 2 ≤ 3), fun _ => rfl, zero_notMem_octetText o⟩
    | cons o' os =>
      obtain ⟨-, hlen, hzero⟩ := ih
      have hlen' := hlen (List.cons_ne_nil o' os)
      have htext : octetsText (o :: o' :: os) = octetText o ++ ':' :: octetsText (o' :: os) := rfl
      have htwo : (octetText o).length = 2 := rfl
      rw [htext, List.length_append, List.length_cons, List.length_cons, htwo]
      refine ⟨by omega, fun _ => by omega, ?_⟩
      rw [List.mem_append, List.mem_cons, not_or, not_or]
      exact ⟨zero_notMem_octetText o, by decide, hzero⟩

end Cells

section RoundTrip

variable {IPADDR_SZ : ℕ} {brlan0 : Ip}

theorem mac_read_back (m : Mac) :
    (fun j : Fin 6 => (((scanOctets 6 (octetsText (List.ofFn m))).getD j 0).setWidth 8 : Octet)) =
      m := by
  have hlen : (List.ofFn m).length = 6 := List.length_ofFn
  have hscan := scanOctets_octetsText (List.ofFn m)
  rw [hlen] at hscan
  funext j
  have hj : j.val < (List.ofFn m).length := by
    rw [hlen]
    exact j.isLt
  rw [hscan, List.getD_eq_getElem?_getD, List.getElem?_map, List.getElem?_eq_getElem hj,
    List.getElem_ofFn, Option.map_some, Option.getD_some, BitVec.ofNat_toNat,
    BitVec.setWidth_setWidth_of_le _ (by decide), BitVec.setWidth_eq]

theorem decimal_octet (hsize : 4 ≤ IPADDR_SZ) (d : Octet) :
    (decimal d.toNat).length < IPADDR_SZ ∧ '\x00' ∉ decimal d.toNat := by
  have hlen : (decimal d.toNat).length ≤ 3 := by
    apply (decimal_length_le_iff (by decide)).mpr
    have h := d.isLt
    omega
  refine ⟨by omega, fun h => ?_⟩
  exact absurd (isDigit_of_mem_decimal h) (by decide)

theorem octet_read_back (d : Octet) : (sscanf_d (decimal d.toNat) 0).setWidth 8 = d := by
  have hlt := d.isLt
  have hwide : (d.setWidth 32).toNat = d.toNat := by
    rw [BitVec.toNat_setWidth]
    omega
  have hread := (sscanf_d_decimal_eq_iff (d.setWidth 32) 0).mpr (by omega)
  rw [hwide] at hread
  rw [hread, BitVec.setWidth_setWidth_of_le _ (by decide), BitVec.setWidth_eq]

theorem hostAddr_eq {a : Ip} (h : ∀ j, j ≠ 3 → a j = brlan0 j) : hostAddr brlan0 (a 3) = a := by
  funext j
  by_cases hj : j = 3
  · rw [hostAddr, if_pos hj, hj]
  · rw [hostAddr, if_neg hj, h j hj]

variable {b : iap_entry_t}

theorem macList_of_lt {i : ℕ} (hi : i < b.lanhosts.mac_count)
    (hcap : i < COSA_DML_IA_LH_MAX_MAC) (old : COSA_DML_IA_POLICY) :
    (be_struct_2_middle_layer brlan0 b old).LanHost.MacList i =
      fun j : Fin 6 =>
        (((scanOctets 6 (textAt b.lanhosts.maclist 0)).getD j 0).setWidth 8 : Octet) :=
  if_pos ⟨hi, hcap⟩

theorem ipList_of_lt {i : ℕ} (hi : i < b.lanhosts.ip_count)
    (hcap : i < COSA_DML_IA_LH_MAX_IP) (old : COSA_DML_IA_POLICY) :
    (be_struct_2_middle_layer brlan0 b old).LanHost.IpList i =
      hostAddr brlan0 ((sscanf_d (textAt b.lanhosts.iplist 0) 0).setWidth 8) :=
  if_pos ⟨hi, hcap⟩

theorem iprList_of_lt {i : ℕ} (hi : i < b.lanhosts.iprange_count)
    (hcap : i < COSA_DML_IA_LH_MAX_IP_RANGE) (old : COSA_DML_IA_POLICY) :
    (be_struct_2_middle_layer brlan0 b old).LanHost.IprList i =
      (hostAddr brlan0 ((b.lanhosts.iprangelist.getD i (0, 0)).1.setWidth 8),
        hostAddr brlan0 ((b.lanhosts.iprangelist.getD i (0, 0)).2.setWidth 8)) :=
  if_pos ⟨hi, hcap⟩

variable {p : COSA_DML_IA_POLICY} (prev : iap_entry_t) (old : COSA_DML_IA_POLICY)

theorem macs_given_back (hp : WellFormed brlan0 p) {i : ℕ} (hi : i < p.LanHost.MacCount) :
    (be_struct_2_middle_layer brlan0 (middle_layer_2_be_struct IPADDR_SZ p prev).1
      old).LanHost.MacList i = p.LanHost.MacList 0 := by
  have hcap := hp.macs
  let texts := (List.range p.LanHost.MacCount).map fun i =>
    octetsText (List.ofFn (p.LanHost.MacList i))
  have hfit : ∀ t ∈ texts, t.length < MACADDR_SZ ∧ '\x00' ∉ t := by
    intro t ht
    obtain ⟨k, -, rfl⟩ := List.mem_map.mp ht
    obtain ⟨-, hlen, hzero⟩ := octetsText_bounds (List.ofFn (p.LanHost.MacList k))
    have htext := hlen (by simp)
    rw [List.length_ofFn] at htext
    exact ⟨by rw [MACADDR_SZ]; omega, hzero⟩
  have hfirst : texts[0]? = some (octetsText (List.ofFn (p.LanHost.MacList 0))) := by
    rw [List.getElem?_map, List.getElem?_range (by omega), Option.map_some]
  have hcell := textAt_cells hfit hfirst
  have hread := @macList_of_lt brlan0 (middle_layer_2_be_struct IPADDR_SZ p prev).1 i hi
    (by omega) old
  rw [hread]
  change (fun j : Fin 6 => (((scanOctets 6 (textAt (cells MACADDR_SZ texts)
    (MACADDR_SZ * 0))).getD j 0).setWidth 8 : Octet)) = _
  rw [hcell]
  exact mac_read_back (p.LanHost.MacList 0)

theorem ips_given_back (hsize : 4 ≤ IPADDR_SZ) (hp : WellFormed brlan0 p) {i : ℕ}
    (hi : i < p.LanHost.IpCount) :
    (be_struct_2_middle_layer brlan0 (middle_layer_2_be_struct IPADDR_SZ p prev).1
      old).LanHost.IpList i = p.LanHost.IpList 0 := by
  have hcap := hp.ips
  let texts := (List.range p.LanHost.IpCount).map fun i => decimal (p.LanHost.IpList i 3).toNat
  have hfit : ∀ t ∈ texts, t.length < IPADDR_SZ ∧ '\x00' ∉ t := by
    intro t ht
    obtain ⟨k, -, rfl⟩ := List.mem_map.mp ht
    exact decimal_octet hsize _
  have hfirst : texts[0]? = some (decimal (p.LanHost.IpList 0 3).toNat) := by
    rw [List.getElem?_map, List.getElem?_range (by omega), Option.map_some]
  have hcell := textAt_cells hfit hfirst
  have hread := @ipList_of_lt brlan0 (middle_layer_2_be_struct IPADDR_SZ p prev).1 i hi
    (by omega) old
  rw [hread]
  change hostAddr brlan0 ((sscanf_d (textAt (cells IPADDR_SZ texts)
    (IPADDR_SZ * 0)) 0).setWidth 8) = _
  rw [hcell, octet_read_back]
  exact hostAddr_eq (hp.network 0 (by omega))

theorem iprs_given_back (hp : WellFormed brlan0 p) {i : ℕ} (hi : i < p.LanHost.IprCount) :
    (be_struct_2_middle_layer brlan0 (middle_layer_2_be_struct IPADDR_SZ p prev).1
      old).LanHost.IprList i = p.LanHost.IprList i := by
  have hcap := hp.iprs
  have hread := @iprList_of_lt brlan0 (middle_layer_2_be_struct IPADDR_SZ p prev).1 i hi
    (by omega) old
  have hcell : (middle_layer_2_be_struct IPADDR_SZ p prev).1.lanhosts.iprangelist.getD i (0, 0) =
      (((p.LanHost.IprList i).1 3).setWidth 32, ((p.LanHost.IprList i).2 3).setWidth 32) := by
    rw [middle_layer_2_be_struct, List.getD_eq_getElem?_getD, List.getElem?_map,
      List.getElem?_range hi]
    rfl
  rw [hread, hcell, BitVec.setWidth_setWidth_of_le _ (by decide), BitVec.setWidth_eq,
    BitVec.setWidth_setWidth_of_le _ (by decide), BitVec.setWidth_eq,
    hostAddr_eq (hp.starts i hi), hostAddr_eq (hp.ends i hi)]

theorem policyname_middle_layer (p : COSA_DML_IA_POLICY) :
    (middle_layer_2_be_struct IPADDR_SZ p prev).1.policyname = p.Alias.text := by
  simp only [middle_layer_2_be_struct, decide_eq_true_eq]
  split
  · rfl
  · next h => exact not_not.mp h

theorem givenBack_iff (hsize : 4 ≤ IPADDR_SZ) (hp : WellFormed brlan0 p) :
    GivenBack p (be_struct_2_middle_layer brlan0
      (middle_layer_2_be_struct IPADDR_SZ p prev).1 old) ↔
      (∀ i < p.LanHost.MacCount, p.LanHost.MacList i = p.LanHost.MacList 0) ∧
      ∀ i < p.LanHost.IpCount, p.LanHost.IpList i = p.LanHost.IpList 0 := by
  constructor
  · intro h
    refine ⟨?_, ?_⟩
    · intro i hi
      rw [← h.macs i hi, macs_given_back prev old hp hi]
    · intro i hi
      rw [← h.ips i hi, ips_given_back prev old hsize hp hi]
  · rintro ⟨hmacs, hips⟩
    refine ⟨rfl, ?_, rfl, rfl, rfl, rfl, rfl, ?_, ?_, ?_⟩
    · apply Buf.text_injective
      change (Buf.sprintf_s (middle_layer_2_be_struct IPADDR_SZ p prev).1.policyname :
        Buf 64).text = p.Alias.text
      rw [policyname_middle_layer, Buf.text_sprintf_s_of_lt p.Alias.text_length_lt]
    · intro i hi
      rw [macs_given_back prev old hp hi, hmacs i hi]
    · intro i hi
      rw [ips_given_back prev old hsize hp hi, hips i hi]
    · exact fun i hi => iprs_given_back prev old hp hi

end RoundTrip

end CcspPandM.LanHosts
