import CcspPandM.Ipv4Addr
import CcspPandM.SubnetMasks

/-!
The subnet masks of the true static addresses. Two handlers take a mask as text and
test its value in one expression, and a check of its own walks down the bits of a
mask. What the library says of a text is a parameter.
-/
namespace CcspPandM.NetmaskChecks

open CString InetText Ipv4Addr SubnetMasks

structure TextChecks where
  AnscValidStringCheck : CStr → Bool
  AnscIsValidIpString : CStr → Bool
  is_IpAddress : CStr → Bool
  is_PrivateIp : CStr → Bool

structure TsipCfg where
  IPAddress : CStr
  SubnetMask : CStr
  GatewayIPAddress : CStr
  ConfigEncryptKey : CStr
  bIPInfoChanged : Bool

structure SubnetEntry where
  IPAddress : CStr
  SubnetMask : CStr

/-- The object after `STRCPY_S_NOCLOBBER`, which stores the text if it fits. -/
def copyText {α : Type} (size : ℕ) (t : CStr) (old new : α) : Bool × α :=
  if t.length < size then (true, new) else (false, old)

/-- The value of the text in host order has no zero above a one. -/
def consecutive (subnet_addr : Addr) : Bool :=
  let mask := ntohl subnet_addr
  0#32 == (mask &&& (~~~mask >>> 1))

def trueStaticIP_SetParamStringValue (checks : TextChecks) (cfg : TsipCfg)
    (ParamName pString : CStr) : Bool × TsipCfg :=
  if checks.AnscValidStringCheck pString then
    if ParamName = "IPAddress".toList then
      if checks.is_IpAddress pString && !checks.is_PrivateIp pString then
        copyText 16 pString cfg { cfg with IPAddress := pString, bIPInfoChanged := true }
      else (false, cfg)
    else if ParamName = "SubnetMask".toList then
      let subnet_addr := inetAddr 0xffffffff pString
      if subnet_addr != 0 && consecutive subnet_addr then
        copyText 16 pString cfg { cfg with SubnetMask := pString, bIPInfoChanged := true }
      else (false, cfg)
    else if ParamName = "GatewayIPAddress".toList then
      copyText 16 pString cfg { cfg with GatewayIPAddress := pString, bIPInfoChanged := true }
    else if ParamName = "ConfigEncryptKey".toList then
      copyText 17 pString cfg { cfg with ConfigEncryptKey := pString }
    else (false, cfg)
  else (false, cfg)

def subnet_SetParamStringValue (checks : TextChecks) (entry : SubnetEntry)
    (ParamName pString : CStr) : Bool × SubnetEntry :=
  if checks.AnscValidStringCheck pString then
    if ParamName = "IPAddress".toList then
      if checks.is_IpAddress pString && !checks.is_PrivateIp pString then
        copyText 16 pString entry { entry with IPAddress := pString }
      else (false, entry)
    else if ParamName = "SubnetMask".toList then
      let subnet_addr := inetAddr 0xffffffff pString
      if subnet_addr != 0 && checks.AnscIsValidIpString pString && consecutive subnet_addr then
        copyText 16 pString entry { entry with SubnetMask := pString }
      else (false, entry)
    else (false, entry)
  else (false, entry)

section Walk

theorem shiftRight_lt {mask : Addr} (h : mask ≠ 0) : (mask >>> 1).toNat < mask.toNat := by
  have hpos : mask.toNat ≠ 0 := fun h0 => h (BitVec.eq_of_toNat_eq h0)
  rw [BitVec.toNat_ushiftRight, Nat.shiftRight_eq_div_pow]
  omega

def firstZero (hostorder mask : Addr) : Addr :=
  if mask = 0 then mask
  else if hostorder &&& mask = 0 then mask
  else firstZero hostorder (mask >>> 1)
termination_by mask.toNat
decreasing_by exact shiftRight_lt (by assumption)

/-- The second loop: no one from there on. -/
def noneFrom (hostorder mask : Addr) : Bool :=
  if mask = 0 then true
  else if hostorder &&& mask ≠ 0 then false
  else noneFrom hostorder (mask >>> 1)
termination_by mask.toNat
decreasing_by exact shiftRight_lt (by assumption)

/-- `IPv4Addr_IsNetmaskValid` -/
def ipv4AddrIsNetmaskValid (netmask : Addr) : Bool :=
  let hostorder := ntohl netmask
  noneFrom hostorder (firstZero hostorder (1#32 <<< 31))

def maskAt : ℕ → Addr
  | 0 => 0
  | k + 1 => BitVec.twoPow 32 k

variable {k : ℕ}

theorem maskAt_ne_zero (hk : k < 32) : maskAt (k + 1) ≠ 0 := by
  intro h
  have hbit := congrArg (fun x : Addr => x.getLsbD k) h
  simp [maskAt, hk] at hbit

theorem maskAt_shift (hk : k < 32) : maskAt (k + 1) >>> 1 = maskAt k := by
  apply BitVec.eq_of_getLsbD_eq
  intro i hi
  cases k with
  | zero =>
    rw [Nat.zero_add, BitVec.getLsbD_ushiftRight, maskAt, maskAt, BitVec.getLsbD_twoPow]
    simp [show 0 ≠ 1 + i by omega]
  | succ k =>
    rw [BitVec.getLsbD_ushiftRight, maskAt, maskAt, BitVec.getLsbD_twoPow, BitVec.getLsbD_twoPow]
    simp only [hk, show k < 32 by omega, decide_true, Bool.true_and, decide_eq_decide]
    omega

theorem and_maskAt_eq_zero_iff (hostorder : Addr) (hk : k < 32) :
    hostorder &&& maskAt (k + 1) = 0 ↔ hostorder.getLsbD k = false := by
  have hne := maskAt_ne_zero hk
  rw [maskAt] at hne ⊢
  rw [BitVec.and_twoPow]
  cases hbit : hostorder.getLsbD k with
  | false => simp
  | true => simpa using hne

theorem noneFrom_iff (hostorder : Addr) (hk : k ≤ 32) :
    noneFrom hostorder (maskAt k) = true ↔ ∀ i < k, hostorder.getLsbD i = false := by
  induction k with
  | zero => simp [noneFrom, maskAt]
  | succ k ih =>
    rw [noneFrom, if_neg (maskAt_ne_zero (by omega)), maskAt_shift (by omega)]
    have hbit := and_maskAt_eq_zero_iff hostorder (show k < 32 by omega)
    rw [Nat.forall_lt_succ_right, ← hbit, ← ih (by omega)]
    by_cases hzero : hostorder &&& maskAt (k + 1) = 0
    · simp [hzero]
    · simp only [hzero, ne_eq, not_false_eq_true, if_true, and_false, Bool.false_eq_true]

theorem walk_iff (hostorder : Addr) (hk : k ≤ 32) :
    noneFrom hostorder (firstZero hostorder (maskAt k)) = true ↔
      ∀ i, hostorder.getLsbD i = true → i + 1 < k → hostorder.getLsbD (i + 1) = true := by
  induction k with
  | zero => simp [firstZero, noneFrom, maskAt]
  | succ k ih =>
    rw [firstZero, if_neg (maskAt_ne_zero (by omega)), maskAt_shift (by omega)]
    have hbit := and_maskAt_eq_zero_iff hostorder (show k < 32 by omega)
    by_cases hzero : hostorder &&& maskAt (k + 1) = 0
    · rw [if_pos hzero, noneFrom_iff hostorder hk]
      have hk0 := hbit.mp hzero
      constructor
      · intro hnone i hone hi
        rw [hnone i (by omega)] at hone
        contradiction
      · intro hup i hi
        -- going up from a one below `k` would end at a one in `k`
        have hfalse : ∀ n ≤ k, hostorder.getLsbD (k - n) = false := by
          intro n
          induction n with
          | zero => exact fun _ => hk0
          | succ n ihn =>
            intro hn
            rw [Bool.eq_false_iff]
            intro hone
            have habove := hup _ hone (by omega)
            rw [show k - (n + 1) + 1 = k - n by omega, ihn (by omega)] at habove
            contradiction
        simpa [show k - (k - i) = i by omega] using hfalse (k - i) (by omega)
    · rw [if_neg hzero, ih (by omega)]
      have hone : hostorder.getLsbD k = true := by
        simpa using fun h => hzero (hbit.mpr h)
      constructor
      · intro hup i hi hlt
        rcases Nat.lt_or_eq_of_le (Nat.lt_succ_iff.mp hlt) with hlow | heq
        · exact hup i hi hlow
        · rw [heq, hone]
      · intro hup i hi hlt
        exact hup i hi (by omega)

theorem netmaskValid_iff (netmask : Addr) :
    ipv4AddrIsNetmaskValid netmask = true ↔ Contiguous (ntohl netmask) := by
  have hstart : 1#32 <<< 31 = maskAt 32 := by decide
  rw [ipv4AddrIsNetmaskValid, hstart, walk_iff _ le_rfl, contiguous_iff_up]

end Walk

theorem consecutive_iff (subnet_addr : Addr) :
    consecutive subnet_addr = true ↔ Contiguous (ntohl subnet_addr) := by
  rw [consecutive, contiguous_iff_and_shift, beq_iff_eq]
  exact eq_comm

section Handlers

variable (checks : TextChecks)

theorem subnetMask_ne_ipAddress : "SubnetMask".toList ≠ "IPAddress".toList := by
  repeat rw [String.toList_ofList]
  decide

def MaskValue (pString : CStr) : Prop :=
  inetAddr 0xffffffff pString ≠ 0 ∧ Contiguous (ntohl (inetAddr 0xffffffff pString))

variable {pString : CStr}

theorem trueStaticIP_mask_iff (cfg : TsipCfg) (hfits : pString.length < 16) :
    (trueStaticIP_SetParamStringValue checks cfg "SubnetMask".toList pString).1 = true ↔
      checks.AnscValidStringCheck pString = true ∧ MaskValue pString := by
  rw [MaskValue, ← consecutive_iff]
  simp only [trueStaticIP_SetParamStringValue, if_neg subnetMask_ne_ipAddress, if_pos, copyText,
    hfits]
  split_ifs with hvalid hmask
  · simpa [hvalid] using hmask
  · simpa [hvalid] using hmask
  · simp [hvalid]

theorem subnet_mask_iff (entry : SubnetEntry) (hfits : pString.length < 16) :
    (subnet_SetParamStringValue checks entry "SubnetMask".toList pString).1 = true ↔
      checks.AnscValidStringCheck pString = true ∧ checks.AnscIsValidIpString pString = true ∧
        MaskValue pString := by
  rw [MaskValue, ← consecutive_iff]
  simp only [subnet_SetParamStringValue, if_neg subnetMask_ne_ipAddress, if_pos, copyText, hfits]
  split_ifs with hvalid hmask
  · simp only [Bool.and_eq_true, bne_iff_ne] at hmask
    simp only [true_iff]
    exact ⟨hvalid, hmask.1.2, hmask.1.1, hmask.2⟩
  · simp only [Bool.and_eq_true, bne_iff_ne] at hmask
    simp only [false_iff]
    rintro ⟨-, hquad, hzero, hrun⟩
    exact hmask ⟨⟨hzero, hquad⟩, hrun⟩
  · simp [hvalid]

theorem maskValue_of_none (h : inet_pton4 pString = none) : MaskValue pString := by
  have hvalue : inetAddr 0xffffffff pString = 0xffffffff := by rw [inetAddr, h]
  rw [MaskValue, hvalue, ← consecutive_iff]
  decide

/-- A dotted quad whose value is not zero and valid as a mask. -/
def IsMaskText (pString : CStr) : Prop :=
  ∃ octets, inet_pton4 pString = some octets ∧ inetAddr 0xffffffff pString ≠ 0 ∧
    ipv4AddrIsNetmaskValid (inetAddr 0xffffffff pString) = true

theorem isMaskText_iff (pString : CStr) :
    IsMaskText pString ↔ (inet_pton4 pString).isSome ∧ MaskValue pString := by
  rw [IsMaskText, MaskValue, netmaskValid_iff, Option.isSome_iff_exists, exists_and_right]

/-- Both handlers take the text exactly if it is a mask, and the masks are the
contiguous values. -/
def MasksAgree (cfg : TsipCfg) (entry : SubnetEntry) (pString : CStr) : Prop :=
  ((trueStaticIP_SetParamStringValue checks cfg "SubnetMask".toList pString).1 = true ↔
      IsMaskText pString) ∧
    ((subnet_SetParamStringValue checks entry "SubnetMask".toList pString).1 = true ↔
      IsMaskText pString) ∧
    ∀ netmask, ipv4AddrIsNetmaskValid netmask = true ↔ Contiguous (ntohl netmask)

/-- The first handler takes every text that is no address for the mask of ones. -/
theorem mask_handlers_agree_iff
    (hquad : ∀ t, checks.AnscIsValidIpString t = true ↔ (inet_pton4 t).isSome)
    (hvalid : ∀ t, (inet_pton4 t).isSome → checks.AnscValidStringCheck t = true)
    (cfg : TsipCfg) (entry : SubnetEntry) (pString : CStr) (hfits : pString.length < 16) :
    MasksAgree checks cfg entry pString ↔
      (inet_pton4 pString).isSome ∨ checks.AnscValidStringCheck pString = false := by
  rw [MasksAgree, trueStaticIP_mask_iff checks cfg hfits, subnet_mask_iff checks entry hfits,
    isMaskText_iff, hquad]
  constructor
  · rintro ⟨hfirst, -, -⟩
    by_cases hsome : (inet_pton4 pString).isSome = true
    · exact Or.inl hsome
    · right
      have hmask := maskValue_of_none (Option.not_isSome_iff_eq_none.mp hsome)
      rw [Bool.eq_false_iff]
      intro hcheck
      exact hsome (hfirst.mp ⟨hcheck, hmask⟩).1
  · intro h
    have hboth : (checks.AnscValidStringCheck pString = true ↔ (inet_pton4 pString).isSome) := by
      constructor
      · intro hcheck
        rcases h with hsome | hrefused
        · exact hsome
        · rw [hrefused] at hcheck
          contradiction
      · exact hvalid pString
    refine ⟨by rw [hboth], ?_, netmaskValid_iff⟩
    rw [hboth]
    exact and_self_left

/-- A check that refuses white space, and the quads. -/
def someChecks : TextChecks where
  AnscValidStringCheck t := !t.isEmpty && !t.contains ' '
  AnscIsValidIpString t := (inet_pton4 t).isSome
  is_IpAddress t := (inet_pton4 t).isSome
  is_PrivateIp _ := false

def emptyCfg : TsipCfg := ⟨[], [], [], [], false⟩

def emptySubnet : SubnetEntry := ⟨[], []⟩

theorem someChecks_quads (t : CStr) (h : (inet_pton4 t).isSome) :
    someChecks.AnscValidStringCheck t = true := by
  obtain ⟨octets, h⟩ := Option.isSome_iff_exists.mp h
  have hne : t ≠ [] := by
    rintro rfl
    simp [inet_pton4, pton4From] at h
  have hblank : ' ' ∉ t := by
    intro hmem
    have hchar := pton4From_chars h ' ' hmem
    revert hchar
    decide
  simp [someChecks, hne, hblank]

/-- The usual mask of a small network. -/
theorem mask_handlers_agree_24 :
    MasksAgree someChecks emptyCfg emptySubnet "255.255.255.0".toList := by
  apply (mask_handlers_agree_iff someChecks (fun _ => Iff.rfl) someChecks_quads emptyCfg
    emptySubnet _ (by decide)).mpr
  left
  decide +kernel

/-- Any word is taken for a mask by the first handler. -/
theorem mask_handlers_differ :
    (trueStaticIP_SetParamStringValue someChecks emptyCfg "SubnetMask".toList
        "mask".toList).1 = true ∧
      inet_pton4 "mask".toList = none ∧
      ¬ MasksAgree someChecks emptyCfg emptySubnet "mask".toList := by
  have hnone : inet_pton4 "mask".toList = none := by decide +kernel
  have htaken : (trueStaticIP_SetParamStringValue someChecks emptyCfg "SubnetMask".toList
      "mask".toList).1 = true := by
    decide +kernel
  refine ⟨htaken, hnone, ?_⟩
  rintro ⟨hfirst, -, -⟩
  have hmask := (isMaskText_iff _).mp (hfirst.mp htaken)
  rw [hnone] at hmask
  exact absurd hmask.1 (by decide)

end Handlers

end CcspPandM.NetmaskChecks
