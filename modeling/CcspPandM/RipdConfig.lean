import CcspPandM.HostOrder
import CcspPandM.ScanText
import CcspPandM.SubnetMasks
import Mathlib.Data.List.Infix

/-!
The configuration file of the RIP daemon, as the list of its lines, and the length of
a prefix that is read off a subnet mask. One build counts the leading ones of the word;
the other one works on the word with its bytes swapped, where it first guesses from the
magnitude how many bytes the mask has, and so counts a last byte of eight ones together
with the bytes behind it. What the data model reports is a parameter.
-/
namespace CcspPandM.RipdConfig

open CString HostOrder InetText Ipv4Addr ScanText SubnetMasks

abbrev ULONG := BitVec 32

/-- The two builds: big-endian without `_CBR_PRODUCT_REQ_`, little-endian with it. -/
inductive Build where
  | plain
  | cbr
  deriving DecidableEq

/-- The word that `inet_aton` leaves in memory, as the processor reads it; `inet_aton`
of the model reads it with the lowest byte first. -/
def s_addr (b : Build) (addr : Addr) : ULONG :=
  match b with
  | .plain => htonl addr
  | .cbr => addr

/-- The loop `while (ulAddr & 0x80000000)`, which shifts zeros in. -/
def leadingOnes : ℕ → ULONG → ULONG → ULONG
  | 0, _, bits => bits
  | fuel + 1, ulAddr, bits =>
    if ulAddr.msb then leadingOnes fuel (ulAddr <<< 1) (bits + 1) else bits

/-- The word moved to the top by the guess, and the guessed number `mul`. -/
def guess (ulAddr : ULONG) : ULONG × ULONG :=
  if 0xffffff < ulAddr ∧ ulAddr ≤ 0xffffffff then (ulAddr, 1)
  else if 0xffff ≤ ulAddr ∧ ulAddr ≤ 0xffffff then (ulAddr * 0x100, 2)
  else if 0xff ≤ ulAddr ∧ ulAddr < 0xffff then (ulAddr * 0x10000, 3)
  else (ulAddr * 0x1000000, 4)

/-- After 32 shifts the word is zero. -/
def CosaDmlGetBitsNumFromNetMask (b : Build) (Address : CStr) : ULONG :=
  match b, inet_aton Address with
  | .plain, none => 0
  | .plain, some addr => leadingOnes 32 (s_addr .plain addr) 0
  | .cbr, none => 32 - (8 * 0 - 0)
  | .cbr, some addr =>
    let (ulAddr, mul) := guess (s_addr .cbr addr)
    32 - (8 * mul - leadingOnes 32 ulAddr 0)

structure COSA_DML_RIPD_CONF where
  Enable : Bool
  Version : ULONG
  UpdateTime : ULONG
  TimoutTime : ULONG
  CollectionTime : ULONG
  DefaultMetric : ULONG
  If1Enable : Bool
  If1SendEnable : Bool
  If1ReceiveEnable : Bool
  If1Name : Buf 16
  If1Md5KeyValue : Buf 32
  If1SimplePassword : Buf 32
  If1KeyChainName : Buf 16
  If1AuthenticateType : ULONG
  If1KeyID : ULONG
  If1SendVersion : ULONG
  If1ReceiveVersion : ULONG
  If1Neighbor : Addr

/-- A row of AdditionalSubnet; a read that fails gives none. -/
structure AdditionalSubnet where
  instanceNumber : ULONG
  IPAddress : Option CStr
  SubnetMask : Option CStr

structure Reports where
  Enable : Bool
  IPAddress : Option CStr
  SubnetMask : Option CStr
  AdditionalSubnets : List AdditionalSubnet
  staticRoutes : List CStr
  brlan : Option (CStr × CStr)

def versionText (v : ULONG) : CStr :=
  if v = 1 then "1".toList else if v = 2 then "2".toList else "1 2".toList

section File

variable (b : Build) (pConf : COSA_DML_RIPD_CONF) (r : Reports)

def ifOn : Bool := pConf.Enable && pConf.If1Enable

def ifNamed : Bool := ifOn pConf && 0 < pConf.If1Name.text.length

def keyLines : List CStr :=
  if 0 < pConf.If1KeyChainName.text.length ∧ 0 < pConf.If1Md5KeyValue.text.length then
    ["key chain ".toList ++ pConf.If1KeyChainName.text,
      " key ".toList ++ decimal pConf.If1KeyID.toNat,
      "  key-string ".toList ++ pConf.If1Md5KeyValue.text]
  else []

def authenticationLines : List CStr :=
  if pConf.If1AuthenticateType = 3 then
    [" ip rip authentication mode md5 auth-length rfc".toList,
      " ip rip authentication key-chain ".toList ++ pConf.If1KeyChainName.text]
  else if pConf.If1AuthenticateType = 2 then
    [" ip rip authentication mode text".toList,
      " ip rip authentication string ".toList ++ pConf.If1SimplePassword.text]
  else []

def interfaceLines (name : CStr) : List CStr :=
  ["interface ".toList ++ name,
    " ip rip send version ".toList ++ versionText pConf.If1SendVersion,
    " ip rip receive version ".toList ++ versionText pConf.If1ReceiveVersion] ++
  authenticationLines pConf ++ [" ip rip split-horizon".toList, "!".toList]

def headLines : List CStr :=
  ["!".toList, "!log stdout".toList, "!".toList, "! debug rip events".toList,
    "! debug rip packet".toList, "!".toList] ++ keyLines pConf ++ ["!".toList] ++
  (if ifNamed pConf then interfaceLines pConf pConf.If1Name.text else []) ++
  (if r.Enable ∧ ifOn pConf then interfaceLines pConf "brlan0".toList else []) ++
  ["router rip".toList, " version ".toList ++ versionText pConf.Version,
    " timers basic ".toList ++ (decimal pConf.UpdateTime.toNat ++ ' ' ::
      (decimal pConf.TimoutTime.toNat ++ ' ' :: decimal pConf.CollectionTime.toNat)),
    " default-metric ".toList ++ decimal pConf.DefaultMetric.toNat,
    " no redistribute connected".toList] ++
  (if r.Enable then [" passive-interface brlan0".toList] else [])

def network : CStr := " network ".toList

def networkLine (Address : CStr) (bits : ULONG) : CStr :=
  network ++ (Address ++ '/' :: decimal bits.toNat)

/-- The loop over the additional subnets, which a read that fails ends. -/
def subnetLines : List AdditionalSubnet → List CStr
  | [] => []
  | s :: rest =>
    if s.instanceNumber = 0 then subnetLines rest
    else match s.IPAddress, s.SubnetMask with
      | some Address, some SubnetMask =>
        networkLine Address (CosaDmlGetBitsNumFromNetMask b SubnetMask) :: subnetLines rest
      | _, _ => []

def staticIpLines : List CStr :=
  match r.IPAddress, r.SubnetMask with
  | some Address, some SubnetMask =>
    let bits := CosaDmlGetBitsNumFromNetMask b SubnetMask
    (if Address ≠ [] ∧ 0 < bits then [networkLine Address bits] else []) ++
      subnetLines b r.AdditionalSubnets
  | _, _ => []

def tailLines : List CStr :=
  (if ifOn pConf ∧ 0 < pConf.If1Neighbor then
    [" neighbor ".toList ++ dotted (addrOctets pConf.If1Neighbor)] else []) ++
  r.staticRoutes.map (fun t => " route ".toList ++ t) ++
  (if ifNamed pConf ∧ !pConf.If1SendEnable then
    [" distribute-list 1 out ".toList ++ pConf.If1Name.text] else []) ++
  (if ifNamed pConf ∧ !pConf.If1ReceiveEnable then
    [" distribute-list 1 in ".toList ++ pConf.If1Name.text] else []) ++
  (if r.Enable then [" distribute-list 2 in brlan0".toList] else []) ++
  ["!".toList, "access-list 1 deny any".toList] ++
  (match r.Enable, r.brlan with
    | true, some (Address, Netmask) =>
      ["access-list 2 deny ".toList ++ (Address ++ ' ' :: Netmask)]
    | _, _ => []) ++
  ["!".toList, " line vty".toList, " exec-timeout 0 0".toList]

def ifNetworkLines : List CStr := if ifNamed pConf then [network ++ pConf.If1Name.text] else []

def CosaDmlGenerateRipdConfigFile : List CStr :=
  headLines pConf r ++ ifNetworkLines pConf ++
    (if r.Enable then staticIpLines b r else []) ++ tailLines pConf r

end File

section Bits

def oneBits (mask : Addr) : ℕ := (List.range 32).countP fun i => mask.getLsbD i

def cbrBits (n : ℕ) : ℕ := if n = 24 then 40 else if n = 32 then 56 else n

theorem leadingOnes_hostMask : ∀ k < 32,
    oneBits (hostMask 32 k) = 32 - k ∧
      (leadingOnes 32 (s_addr .plain (htonl (hostMask 32 k))) 0).toNat = 32 - k ∧
      (32 - (8 * (guess (s_addr .cbr (htonl (hostMask 32 k)))).2 -
        leadingOnes 32 (guess (s_addr .cbr (htonl (hostMask 32 k)))).1 0)).toNat =
        cbrBits (32 - k) := by
  decide +kernel

structure Network where
  IPAddress : CStr
  SubnetMask : CStr
  mask : Addr
  named : IPAddress ≠ []
  read : inet_aton SubnetMask = some (htonl mask)
  contiguous : Contiguous mask
  nonzero : mask ≠ 0

def printedBits (b : Build) (s : Network) : ℕ :=
  match b with
  | .plain => oneBits s.mask
  | .cbr => cbrBits (oneBits s.mask)

theorem exists_hostMask (s : Network) : ∃ k < 32, s.mask = hostMask 32 k := by
  obtain ⟨k, hk, hmask⟩ := s.contiguous
  refine ⟨k, ?_, hmask⟩
  by_contra hge
  have hk32 : k = 32 := by omega
  apply s.nonzero
  rw [hmask, hk32]
  rfl

theorem bits_of_network (b : Build) (s : Network) :
    (CosaDmlGetBitsNumFromNetMask b s.SubnetMask).toNat = printedBits b s := by
  obtain ⟨k, hk, hmask⟩ := exists_hostMask s
  obtain ⟨hones, hplain, hcbr⟩ := leadingOnes_hostMask k hk
  have hread := s.read
  rw [hmask] at hread
  cases b with
  | plain =>
    simp only [CosaDmlGetBitsNumFromNetMask, hread, printedBits, hmask, hones]
    exact hplain
  | cbr =>
    simp only [CosaDmlGetBitsNumFromNetMask, hread, printedBits, hmask, hones]
    exact hcbr

theorem oneBits_pos (s : Network) : 0 < oneBits s.mask := by
  obtain ⟨k, hk, hmask⟩ := exists_hostMask s
  rw [hmask, (leadingOnes_hostMask k hk).1]
  omega

theorem cbrBits_pos {n : ℕ} (h : 0 < n) : 0 < cbrBits n := by
  unfold cbrBits
  split
  · omega
  · split <;> omega

theorem cbrBits_eq_iff (n : ℕ) : cbrBits n = n ↔ n ≠ 24 ∧ n ≠ 32 := by
  unfold cbrBits
  split
  · omega
  · split <;> omega

theorem printedBits_eq_iff (b : Build) (s : Network) :
    printedBits b s = oneBits s.mask ↔ (b = .cbr → oneBits s.mask ≠ 24 ∧ oneBits s.mask ≠ 32) := by
  cases b with
  | plain => exact ⟨fun _ h => (by cases h), fun _ => rfl⟩
  | cbr =>
    rw [printedBits, cbrBits_eq_iff]
    exact ⟨fun h _ => h, fun h => h rfl⟩

end Bits

section Lines

variable (b : Build) (pConf : COSA_DML_RIPD_CONF) (r : Reports)

def isNetwork (t : CStr) : Bool := network <+: t

/-- No line of the part is a network line. -/
def Quiet (l : List CStr) : Prop := ∀ t ∈ l, isNetwork t = false

theorem quiet_nil : Quiet [] := fun _ ht => absurd ht List.not_mem_nil

theorem quiet_append {l l' : List CStr} (h : Quiet l) (h' : Quiet l') : Quiet (l ++ l') := by
  intro t ht
  exact (List.mem_append.mp ht).elim (h t) (h' t)

theorem quiet_cons {t : CStr} {l : List CStr} (h : isNetwork t = false) (h' : Quiet l) :
    Quiet (t :: l) := List.forall_mem_cons.mpr ⟨h, h'⟩

theorem quiet_ite {p : Prop} [Decidable p] {l : List CStr} (h : Quiet l) :
    Quiet (if p then l else []) := by
  split
  · exact h
  · exact quiet_nil

theorem not_network {h : CStr} (hlen : 4 ≤ h.length) (hhead : h.take 4 ≠ " net".toList)
    (t : CStr) : isNetwork (h ++ t) = false := by
  apply decide_eq_false
  intro hprefix
  apply hhead
  have htake := hprefix.take 4
  have hnet : network.take 4 = " net".toList := by decide
  rw [hnet, List.take_append_of_le_length hlen] at htake
  exact (htake.eq_of_length (by rw [List.length_take, min_eq_left hlen]; rfl)).symm

theorem quiet_interfaceLines (name : CStr) : Quiet (interfaceLines pConf name) := by
  unfold interfaceLines authenticationLines
  refine quiet_append (quiet_append ?_ ?_) ?_
  · exact quiet_cons (not_network (by decide) (by decide) _)
      (quiet_cons (not_network (by decide) (by decide) _)
        (quiet_cons (not_network (by decide) (by decide) _) quiet_nil))
  · split
    · exact quiet_cons (by decide) (quiet_cons (not_network (by decide) (by decide) _) quiet_nil)
    · exact quiet_ite (quiet_cons (by decide)
        (quiet_cons (not_network (by decide) (by decide) _) quiet_nil))
  · exact quiet_cons (by decide) (quiet_cons (by decide) quiet_nil)

theorem quiet_headLines : Quiet (headLines pConf r) := by
  unfold headLines keyLines
  refine quiet_append (quiet_append (quiet_append (quiet_append (quiet_append (quiet_append ?_ ?_)
    ?_) ?_) ?_) ?_) ?_
  · unfold Quiet
    decide
  · exact quiet_ite (quiet_cons (not_network (by decide) (by decide) _)
      (quiet_cons (not_network (by decide) (by decide) _)
        (quiet_cons (not_network (by decide) (by decide) _) quiet_nil)))
  · exact quiet_cons (by decide) quiet_nil
  · exact quiet_ite (quiet_interfaceLines pConf _)
  · exact quiet_ite (quiet_interfaceLines pConf _)
  · exact quiet_cons (by decide) (quiet_cons (not_network (by decide) (by decide) _)
      (quiet_cons (not_network (by decide) (by decide) _)
        (quiet_cons (not_network (by decide) (by decide) _) (quiet_cons (by decide) quiet_nil))))
  · exact quiet_ite (quiet_cons (by decide) quiet_nil)

theorem quiet_tailLines : Quiet (tailLines pConf r) := by
  unfold tailLines
  refine quiet_append (quiet_append (quiet_append (quiet_append (quiet_append (quiet_append
    (quiet_append ?_ ?_) ?_) ?_) ?_) ?_) ?_) ?_
  · exact quiet_ite (quiet_cons (not_network (by decide) (by decide) _) quiet_nil)
  · intro t ht
    obtain ⟨x, -, rfl⟩ := List.mem_map.mp ht
    exact not_network (by decide) (by decide) x
  · exact quiet_ite (quiet_cons (not_network (by decide) (by decide) _) quiet_nil)
  · exact quiet_ite (quiet_cons (not_network (by decide) (by decide) _) quiet_nil)
  · exact quiet_ite (quiet_cons (by decide) quiet_nil)
  · exact quiet_cons (by decide) (quiet_cons (by decide) quiet_nil)
  · split
    · exact quiet_cons (not_network (by decide) (by decide) _) quiet_nil
    · exact quiet_nil
  · exact quiet_cons (by decide) (quiet_cons (by decide) (quiet_cons (by decide) quiet_nil))

theorem filter_of_quiet {l : List CStr} (h : Quiet l) : l.filter isNetwork = [] := by
  apply List.filter_eq_nil_iff.mpr
  intro t ht
  rw [h t ht]
  exact Bool.false_ne_true

theorem isNetwork_network (t : CStr) : isNetwork (network ++ t) = true :=
  decide_eq_true (List.prefix_append _ _)

end Lines

section Networks

variable (b : Build) (pConf : COSA_DML_RIPD_CONF)

def reported (s : {n : ULONG // n ≠ 0} × Network) : AdditionalSubnet :=
  ⟨s.1, some s.2.IPAddress, some s.2.SubnetMask⟩

def reports (primary : Network) (subnets : List ({n : ULONG // n ≠ 0} × Network))
    (staticRoutes : List CStr) (brlan : Option (CStr × CStr)) : Reports :=
  ⟨true, some primary.IPAddress, some primary.SubnetMask, subnets.map reported, staticRoutes, brlan⟩

def wantedLine (s : Network) : CStr := network ++ (s.IPAddress ++ '/' :: decimal (oneBits s.mask))

def writtenLine (s : Network) : CStr := network ++ (s.IPAddress ++ '/' :: decimal (printedBits b s))

theorem subnetLines_eq (subnets : List ({n : ULONG // n ≠ 0} × Network)) :
    subnetLines b (subnets.map reported) = subnets.map fun s => writtenLine b s.2 := by
  induction subnets with
  | nil => rfl
  | cons s subnets ih =>
    rw [List.map_cons, List.map_cons, ← ih, subnetLines]
    simp only [reported, if_neg s.1.property, networkLine, writtenLine, bits_of_network]

theorem staticIpLines_eq (primary : Network) (subnets : List ({n : ULONG // n ≠ 0} × Network))
    (staticRoutes : List CStr) (brlan : Option (CStr × CStr)) :
    staticIpLines b (reports primary subnets staticRoutes brlan) =
      writtenLine b primary :: subnets.map fun s => writtenLine b s.2 := by
  have hpos : 0 < CosaDmlGetBitsNumFromNetMask b primary.SubnetMask := by
    rw [BitVec.lt_def, bits_of_network]
    have hones := oneBits_pos primary
    cases b with
    | plain => exact hones
    | cbr => exact cbrBits_pos hones
  simp only [staticIpLines, reports, subnetLines_eq, hpos, primary.named, ne_eq, not_false_eq_true,
    and_self, if_true, networkLine, writtenLine, bits_of_network, List.singleton_append]

theorem network_lines_eq (primary : Network) (subnets : List ({n : ULONG // n ≠ 0} × Network))
    (staticRoutes : List CStr) (brlan : Option (CStr × CStr)) :
    (CosaDmlGenerateRipdConfigFile b pConf (reports primary subnets staticRoutes brlan)).filter
      isNetwork = ifNetworkLines pConf ++
        writtenLine b primary :: subnets.map fun s => writtenLine b s.2 := by
  have hif : (ifNetworkLines pConf).filter isNetwork = ifNetworkLines pConf := by
    apply List.filter_eq_self.mpr
    intro t ht
    unfold ifNetworkLines at ht
    split at ht
    · rw [List.mem_singleton.mp ht]
      exact isNetwork_network _
    · exact absurd ht List.not_mem_nil
  have hsubnets : (writtenLine b primary :: subnets.map fun s => writtenLine b s.2).filter
      isNetwork = writtenLine b primary :: subnets.map fun s => writtenLine b s.2 := by
    apply List.filter_eq_self.mpr
    intro t ht
    rcases List.mem_cons.mp ht with rfl | ht
    · exact isNetwork_network _
    · obtain ⟨s, -, rfl⟩ := List.mem_map.mp ht
      exact isNetwork_network _
  rw [CosaDmlGenerateRipdConfigFile, List.filter_append, List.filter_append, List.filter_append,
    filter_of_quiet (quiet_headLines _ _), filter_of_quiet (quiet_tailLines _ _), List.nil_append,
    List.append_nil, hif, if_pos (show (reports primary subnets staticRoutes brlan).Enable = true
      from rfl), staticIpLines_eq, hsubnets]

theorem writtenLine_eq_iff (s : Network) :
    writtenLine b s = wantedLine s ↔
      (b = .cbr → oneBits s.mask ≠ 24 ∧ oneBits s.mask ≠ 32) := by
  rw [← printedBits_eq_iff, writtenLine, wantedLine]
  constructor
  · intro h
    have htail := List.append_cancel_left (List.append_cancel_left h)
    exact decimal_injective (List.cons.inj htail).2
  · intro h
    rw [h]

/-- With true static addresses on, the network lines are those of the interface and of
all subnets in order, with the number of ones of each mask, exactly when in the second
build no mask ends with a whole last byte of ones behind two or three others. -/
theorem ripd_networks_iff (primary : Network)
    (subnets : List ({n : ULONG // n ≠ 0} × Network)) (staticRoutes : List CStr)
    (brlan : Option (CStr × CStr)) :
    (CosaDmlGenerateRipdConfigFile b pConf (reports primary subnets staticRoutes brlan)).filter
        isNetwork = ifNetworkLines pConf ++ (primary :: subnets.map Prod.snd).map wantedLine ↔
      (b = .cbr → ∀ s ∈ primary :: subnets.map Prod.snd,
        oneBits s.mask ≠ 24 ∧ oneBits s.mask ≠ 32) := by
  have hwritten : (writtenLine b primary :: subnets.map fun s => writtenLine b s.2) =
      (primary :: subnets.map Prod.snd).map (writtenLine b) := by
    rw [List.map_cons, List.map_map]
    rfl
  rw [network_lines_eq, hwritten, List.append_cancel_left_eq, List.map_inj_left]
  simp only [writtenLine_eq_iff]
  exact ⟨fun h hb s hs => h s hs hb, fun h s hs hb => h hb s hs⟩

def sampleNetwork : Network where
  IPAddress := "10.1.2.0".toList
  SubnetMask := "255.255.255.0".toList
  mask := hostMask 32 8
  named := by decide
  read := by decide +kernel
  contiguous := ⟨8, by decide, rfl⟩
  nonzero := by decide

def sampleConf : COSA_DML_RIPD_CONF :=
  ⟨false, 2, 30, 180, 120, 1, false, false, false, Buf.empty, Buf.empty, Buf.empty, Buf.empty,
    1, 0, 2, 2, 0⟩

theorem ripd_networks_differ :
    (CosaDmlGenerateRipdConfigFile .cbr sampleConf (reports sampleNetwork [] [] none)).filter
      isNetwork ≠ ifNetworkLines sampleConf ++ ([sampleNetwork].map wantedLine) := by
  have hones : oneBits sampleNetwork.mask = 24 := by decide +kernel
  rw [network_lines_eq]
  intro h
  have hline : writtenLine .cbr sampleNetwork = wantedLine sampleNetwork := by
    have htail := List.append_cancel_left h
    exact (List.cons.inj htail).1
  exact ((writtenLine_eq_iff .cbr sampleNetwork).mp hline rfl).1 hones

end Networks

end CcspPandM.RipdConfig
