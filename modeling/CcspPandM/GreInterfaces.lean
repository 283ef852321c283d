import CcspPandM.GrePsm
import CcspPandM.TextSearch

/-!
The interfaces of the GRE tunnels. The VLAN, the bridges and the bridges' WiFi ports of an
interface are records whose keys carry the numbers of tunnel and interface. The local
interfaces are what the bridges' ports have as lower layers: they are set through the
configured WiFi ports, and listed by a walk over all ports of all bridges.
-/
namespace CcspPandM.GreInterfaces

open CString KeyStore ScanText GrePsm TextSearch

inductive Attr where
  | vlanId
  | localInterfaces
  | associatedBridges
  | associatedBridgesWiFiPort
  deriving DecidableEq

def Attr.name : Attr → CStr
  | .vlanId => "VLANID".toList
  | .localInterfaces => "LocalInterfaces".toList
  | .associatedBridges => "AssociatedBridges".toList
  | .associatedBridgesWiFiPort => "AssociatedBridgesWiFiPort".toList

/-- The formats `GRETUIF_PARAM_VLANID` and so on, with their two numbers. -/
def record (a : Attr) (tuIns ins : ULONG) : CStr :=
  "dmsb.hotspot.tunnel.".toList ++ (decimal tuIns.toNat ++ '.' :: ("interface.".toList ++
    (decimal ins.toNat ++ '.' :: a.name)))

/-- What the walk reads of the bridges besides the lower layers: the numbers of a table's
rows, with how many there are said to be, and which ports are for management. -/
structure Bridging where
  GetInstanceNumbers : CStr → ℕ → Option (List ℕ) × ℕ
  management : CStr → Bool

structure Gre where
  psm : Psm
  params : Store CStr CStr

def ssid : CStr := "Device.WiFi.SSID".toList

def portParam (br : CStr) (n : ℕ) (param : CStr) : CStr :=
  br ++ ("Port.".toList ++ (decimal n ++ '.' :: param))

/-- `g_GetParamValueString` into `dmval`, whose size is given as 1024. -/
def GetParamValueString (params : Store CStr CStr) (dm : CStr) : Option CStr :=
  (params dm).bind fun v => if v.length < 1024 then some v else none

def dotted (v : CStr) : CStr :=
  if v ≠ [] ∧ v.getLast? ≠ some '.' then v ++ ['.'] else v

section Reading

variable (lib : Bridging) (params : Store CStr CStr) (size : ℕ)

def addPort (br : CStr) (first : Bool) (ifs : CStr) (n : ℕ) : CStr :=
  if lib.management (portParam br n "ManagementPort".toList) then ifs
  else
    match GetParamValueString params (portParam br n "LowerLayers".toList) with
    | none => ifs
    | some dmval =>
      if strstr ssid dmval = none then ifs
      else if first = false ∨ ifs ≠ [] then (ifs ++ ',' :: dotted dmval).take (size - 1)
      else (ifs ++ dotted dmval).take (size - 1)

/-- The loop over the bridges; the count of one bridge's ports is what the next one's list
has room for. -/
def addBridges : ℕ → Bool → CStr → List CStr → CStr
  | _, _, ifs, [] => ifs
  | ptInsCnt, first, ifs, br :: brs =>
    let numbers := lib.GetInstanceNumbers (br ++ "Port.".toList) ptInsCnt
    match numbers.1 with
    | none => addBridges numbers.2 false ifs brs
    | some ptInsList =>
      addBridges numbers.2 false (ptInsList.foldl (addPort lib params size br first) ifs) brs

end Reading

def GetTunnelIfAssoBridge (g : Gre) (tuIns ins : ULONG) : Option CStr :=
  GrePsmGetStr g.psm (record .associatedBridges tuIns ins) 1024

def GetTunnelIfAssoBridgeWiFiPort (g : Gre) (tuIns ins : ULONG) : Option CStr :=
  GrePsmGetStr g.psm (record .associatedBridgesWiFiPort tuIns ins) 1024

def CosaDml_GreTunnelIfGetLocalInterfaces (lib : Bridging) (g : Gre) (tuIns ins : ULONG)
    (size : ℕ) : Option CStr :=
  (GetTunnelIfAssoBridge g tuIns ins).map fun brlist =>
    addBridges lib g.params size 16 true [] (tokens ',' brlist)

def firstTwo (t : CStr) : CStr × Option CStr :=
  (t.takeWhile (· ≠ ','),
    (t.dropWhile (· ≠ ',')).tail?.map fun rest => rest.takeWhile (· ≠ ','))

/-- `if1[strlen(if1) - 1] = 0`, when there is a dot. -/
def withoutDot (t : CStr) : CStr := if t.getLast? = some '.' then t.dropLast else t

/-- Sets the lower layer of a bridge's WiFi port. The format has no text to print when the
port is missing. -/
def setLowerLayers (g : Gre) (br brwfp if_ : Option CStr) : Option Gre :=
  if br.getD [] = [] then some g
  else brwfp.map fun brwfp =>
    { g with params := set g.params (brwfp ++ "LowerLayers".toList) (if_.getD []) }

/-- Whether it succeeds, and what it leaves; all calls of the stores succeed. -/
def CosaDml_GreTunnelIfSetLocalInterfaces (g : Gre) (tuIns ins : ULONG) (ifs : CStr) :
    Option (Bool × Gre) :=
  match GetTunnelIfAssoBridge g tuIns ins with
  | none => some (false, g)
  | some brsBuf =>
    match GetTunnelIfAssoBridgeWiFiPort g tuIns ins with
    | none => some (false, g)
    | some brswfpBuf => do
      let if_ := firstTwo ifs
      let br := firstTwo brsBuf
      let brwfp := firstTwo brswfpBuf
      let g ← setLowerLayers g (some br.1) (some brwfp.1) (some (withoutDot if_.1))
      let g ← setLowerLayers g br.2 brwfp.2 (if_.2.map withoutDot)
      some (true, { g with psm := GrePsmSet g.psm (record .localInterfaces tuIns ins) ifs })

/-- `atoi` of the record. -/
def CosaDml_GreTunnelIfGetVlanId (g : Gre) (tuIns ins : ULONG) : Option (BitVec 32) :=
  (GrePsmGet g.psm (record .vlanId tuIns ins)).map fun val => BitVec.ofInt 32 (atoi val)

def CosaDml_GreTunnelIfSetVlanId (g : Gre) (tuIns ins : ULONG) (vlanId : BitVec 32) :
    Bool × Gre :=
  if tuIns ≠ 1 then (false, g)
  else (true, { g with psm := GrePsmSet g.psm (record .vlanId tuIns ins) (intText vlanId) })

def CosaDml_GreTunnelIfGetAssociatedBridges (g : Gre) (tuIns ins : ULONG) (size : ℕ) :
    Option CStr := GrePsmGetStr g.psm (record .associatedBridges tuIns ins) size

def CosaDml_GreTunnelIfSetAssociatedBridges (g : Gre) (tuIns ins : ULONG) (brs : CStr) : Gre :=
  { g with psm := GrePsmSet g.psm (record .associatedBridges tuIns ins) brs }

def CosaDml_GreTunnelIfGetAssociatedBridgesWiFiPort (g : Gre) (tuIns ins : ULONG) (size : ℕ) :
    Option CStr := GrePsmGetStr g.psm (record .associatedBridgesWiFiPort tuIns ins) size

/-- The numbers are printed into the key the other way round. -/
def CosaDml_GreTunnelIfSetAssociatedBridgesWiFiPort (g : Gre) (tuIns ins : ULONG)
    (brswfp : CStr) : Gre :=
  { g with psm := GrePsmSet g.psm (record .associatedBridgesWiFiPort ins tuIns) brswfp }

/-- Every record but one is as it was. -/
def OthersKept (g g' : Gre) (a : Attr) (tuIns ins : ULONG) : Prop :=
  ∀ b t i, (b, t, i) ≠ (a, tuIns, ins) → g'.psm (record b t i) = g.psm (record b t i)

section Records

theorem record_injective {a b : Attr} {t i t' i' : ULONG} (h : record a t i = record b t' i') :
    a = b ∧ t = t' ∧ i = i' := by
  obtain ⟨ht, hrest⟩ := decimal_cons_inj (by decide) (List.append_cancel_left h)
  obtain ⟨hi, hname⟩ := decimal_cons_inj (by decide) (List.append_cancel_left hrest)
  refine ⟨?_, BitVec.toNat_inj.mp ht, BitVec.toNat_inj.mp hi⟩
  cases a <;> cases b <;> first | rfl | exact absurd hname (by decide)

theorem record_set (psm : Psm) {a b : Attr} {t i t' i' : ULONG}
    (h : (b, t', i') ≠ (a, t, i)) (v : CStr) :
    set psm (record a t i) v (record b t' i') = psm (record b t' i') := by
  apply set_of_ne
  intro heq
  obtain ⟨rfl, rfl, rfl⟩ := record_injective heq
  exact h rfl

theorem getStr_set_iff (psm : Psm) (key v : CStr) :
    (∀ size, v.length < size → GrePsmGetStr (set psm key v) key size = some v) ↔
      v.length < 1024 := by
  have hstored := set_self psm key v
  constructor
  · intro h
    exact ((getStr_eq_stored_iff hstored _).mp (h (v.length + 1) (Nat.lt_succ_self _))).2
  · intro h size hsize
    exact (getStr_eq_stored_iff hstored size).mpr ⟨hsize, h⟩

theorem strtol_intText (x : BitVec 32) : strtol (intText x) = x.toInt := by
  have hlow := x.le_toInt
  have hhigh := x.toInt_lt
  have hnumber := leadingNumber_decimal x.toInt.natAbs
  rw [intText]
  split
  · next hneg =>
    have hminus : strtol ('-' :: decimal x.toInt.natAbs) =
        max (-(leadingNumber (decimal x.toInt.natAbs) : ℤ)) (-(2 ^ 63)) := rfl
    rw [hminus, hnumber]
    omega
  · next hpos =>
    obtain ⟨c, rest, hcons, hc⟩ := decimal_eq_cons x.toInt.natAbs
    have hplain : strtol (decimal x.toInt.natAbs) =
        min (leadingNumber (decimal x.toInt.natAbs) : ℤ) (2 ^ 63 - 1) := by
      have hdrop : (decimal x.toInt.natAbs).dropWhile isspace = decimal x.toInt.natAbs := by
        rw [hcons, List.dropWhile_cons_of_neg (by rw [isspace_of_isDigit hc]; decide)]
      unfold strtol
      rw [hdrop]
      split
      · next h => exact absurd (List.cons.inj (hcons.symm.trans h)).1 (ne_of_isDigit hc rfl)
      · next h => exact absurd (List.cons.inj (hcons.symm.trans h)).1 (ne_of_isDigit hc rfl)
      · rfl
    rw [hplain, hnumber]
    omega

theorem vlanId_set {g g' : Gre} {t i : ULONG} {v : BitVec 32}
    (h : CosaDml_GreTunnelIfSetVlanId g t i v = (true, g')) :
    CosaDml_GreTunnelIfGetVlanId g' t i = some v ∧ OthersKept g g' .vlanId t i ∧
      g'.params = g.params := by
  rw [CosaDml_GreTunnelIfSetVlanId] at h
  split at h
  · cases h
  · cases h
    refine ⟨?_, ?_, rfl⟩
    · have hshort : (Buf.snprintf (intText v) : Buf 1024).text = intText v := by
        apply Buf.text_snprintf_of_lt
        have hlen := length_intText_le v
        omega
      change ((set g.psm (record .vlanId t i) (intText v) (record .vlanId t i)).map
        fun val => (Buf.snprintf val : Buf 1024).text).map
          (fun val => BitVec.ofInt 32 (atoi val)) = some v
      rw [set_self, Option.map_some, Option.map_some, hshort, atoi, strtol_intText,
        BitVec.ofInt_toInt, BitVec.ofInt_toInt]
    · intro b t' i' hne
      exact record_set g.psm hne (intText v)

theorem associatedBridges_set_iff (g : Gre) (t i : ULONG) (brs : CStr) :
    ((∀ size, brs.length < size → CosaDml_GreTunnelIfGetAssociatedBridges
        (CosaDml_GreTunnelIfSetAssociatedBridges g t i brs) t i size = some brs) ∧
      OthersKept g (CosaDml_GreTunnelIfSetAssociatedBridges g t i brs) .associatedBridges t i ∧
      (CosaDml_GreTunnelIfSetAssociatedBridges g t i brs).params = g.params) ↔
      brs.length < 1024 := by
  have hread := getStr_set_iff g.psm (record .associatedBridges t i) brs
  constructor
  · rintro ⟨h, -, -⟩
    exact hread.mp h
  · intro h
    exact ⟨hread.mpr h, fun b t' i' hne => record_set g.psm hne brs, rfl⟩

theorem wiFiPort_set_iff (g : Gre) (t i : ULONG) (brswfp : CStr) :
    ((∀ size, brswfp.length < size → CosaDml_GreTunnelIfGetAssociatedBridgesWiFiPort
        (CosaDml_GreTunnelIfSetAssociatedBridgesWiFiPort g t i brswfp) t i size = some brswfp) ∧
      OthersKept g (CosaDml_GreTunnelIfSetAssociatedBridgesWiFiPort g t i brswfp)
        .associatedBridgesWiFiPort t i ∧
      (CosaDml_GreTunnelIfSetAssociatedBridgesWiFiPort g t i brswfp).params = g.params) ↔
      (t = i ∧ brswfp.length < 1024) ∨
        ((∃ val, g.psm (record .associatedBridgesWiFiPort t i) = some val ∧
            val.take 1023 = brswfp) ∧
          g.psm (record .associatedBridgesWiFiPort i t) = some brswfp) := by
  by_cases hti : t = i
  · subst hti
    have hread := getStr_set_iff g.psm (record .associatedBridgesWiFiPort t t) brswfp
    constructor
    · rintro ⟨h, -, -⟩
      exact Or.inl ⟨rfl, hread.mp h⟩
    · intro h
      have hlen : brswfp.length < 1024 := by
        rcases h with ⟨-, h⟩ | ⟨⟨val, -, htake⟩, -⟩
        · exact h
        · rw [← htake, List.length_take]
          omega
      exact ⟨hread.mpr hlen, fun b t' i' hne => record_set g.psm hne brswfp, rfl⟩
  · have hother : (Attr.associatedBridgesWiFiPort, t, i) ≠ (.associatedBridgesWiFiPort, i, t) := by
      intro heq
      exact hti (congrArg (fun k => k.2.1) heq)
    have hkept := record_set g.psm hother brswfp
    constructor
    · rintro ⟨h, hothers, -⟩
      refine Or.inr ⟨?_, ?_⟩
      · have hget := h (brswfp.length + 1) (Nat.lt_succ_self _)
        rw [CosaDml_GreTunnelIfGetAssociatedBridgesWiFiPort,
          CosaDml_GreTunnelIfSetAssociatedBridgesWiFiPort, GrePsmSet, getStr_congr hkept] at hget
        obtain ⟨val, hval, htake, -⟩ := (getStr_eq_some_iff _ _ _ _).mp hget
        exact ⟨val, hval, htake⟩
      · have hsame := hothers .associatedBridgesWiFiPort i t (Ne.symm hother)
        exact hsame.symm.trans (set_self g.psm _ brswfp)
    · rintro (⟨heq, -⟩ | ⟨⟨val, hval, htake⟩, hswapped⟩)
      · exact absurd heq hti
      · refine ⟨?_, ?_, rfl⟩
        · intro size hsize
          rw [CosaDml_GreTunnelIfGetAssociatedBridgesWiFiPort,
            CosaDml_GreTunnelIfSetAssociatedBridgesWiFiPort, GrePsmSet, getStr_congr hkept]
          exact (getStr_eq_some_iff _ _ _ _).mpr ⟨val, hval, htake, hsize⟩
        · intro b t' i' _
          have hsame : set g.psm (record .associatedBridgesWiFiPort i t) brswfp = g.psm :=
            Function.update_eq_self_iff.mpr hswapped.symm
          rw [CosaDml_GreTunnelIfSetAssociatedBridgesWiFiPort, GrePsmSet, hsame]

end Records

end CcspPandM.GreInterfaces
