import CcspPandM.Dhcpv6Pools
import CcspPandM.ScanText

/-!
Reading the DHCPv6 server pools and their options back from syscfg. Numbers were
written with `%lu` and are read with `atoi`, where only the text of the largest
one is told apart before; a key that is absent leaves its field as it was. The
build has no `_BCI_FEATURE_REQ`, so no stored prefix is replaced on the way.
-/
namespace CcspPandM.PoolReads

open CString KeyStore StoreSlots ScanText Dhcpv6Pools

section Macros

variable (s : Syscfg) (ns parameter : CStr)

/-- `GETS_FROM_UTOPIA` -/
def gets {n : ℕ} [NeZero n] (out : Buf n) : Buf n :=
  ((s (ns, parameter)).map Buf.snprintf).getD out

/-- `GETI_FROM_UTOPIA`, with the conversion to the type of the field; a long has
32 bits. -/
def geti {α : Type} (convert : BitVec 32 → α) (out : α) : α :=
  let Value : Buf 12 := gets s ns parameter Buf.empty
  if Value.text = "4294967295".toList then convert (-1)
  else if Value.text ≠ [] then convert (sscanf_d Value.text 0)
  else out

def getul (out : ULONG) : ULONG := geti s ns parameter id out

/-- A `BOOLEAN` is a byte. -/
def getb (out : Bool) : Bool :=
  geti s ns parameter (fun v => decide (v.setWidth 8 ≠ (0 : BitVec 8))) out

end Macros

/-- `strncmp(value, "true", 4)` on what `SecureWebUI_Enable` holds. -/
def secureWebUI (s : Syscfg) : Bool :=
  let l_cSecWebUI_Enabled : Buf 8 := gets s [] "SecureWebUI_Enable".toList Buf.empty
  decide (l_cSecWebUI_Enabled.text.take 4 = "true".toList)

def getpoolFromUtopia (b : Build) (i : ℕ) (s : Syscfg) (pEntry : PoolFull) : PoolFull :=
  let ns := poolNs i
  let DNSServers := gets s ns "X_RDKCENTRAL_COM_DNSServers".toList
    pEntry.Cfg.X_RDKCENTRAL_COM_DNSServers
  { Cfg :=
      { InstanceNumber := getul s ns "instancenumber".toList pEntry.Cfg.InstanceNumber
        Alias := gets s ns "alias".toList pEntry.Cfg.Alias
        Order := getul s ns "Order".toList pEntry.Cfg.Order
        Interface := gets s ns (if b.prefixDelegation then "IAInterface" else "Interface").toList
          pEntry.Cfg.Interface
        VendorClassID := gets s ns "VendorClassID".toList pEntry.Cfg.VendorClassID
        UserClassID := gets s ns "UserClassID".toList pEntry.Cfg.UserClassID
        SourceAddress := gets s ns "SourceAddress".toList pEntry.Cfg.SourceAddress
        SourceAddressMask := gets s ns "SourceAddressMask".toList pEntry.Cfg.SourceAddressMask
        IANAManualPrefixes := gets s ns "IANAManualPrefixes".toList pEntry.Cfg.IANAManualPrefixes
        IAPDManualPrefixes := gets s ns "IAPDManualPrefixes".toList pEntry.Cfg.IAPDManualPrefixes
        PrefixRangeBegin := gets s ns "PrefixRangeBegin".toList pEntry.Cfg.PrefixRangeBegin
        PrefixRangeEnd := gets s ns "PrefixRangeEnd".toList pEntry.Cfg.PrefixRangeEnd
        StartAddress := gets s ns "StartAddress".toList pEntry.Cfg.StartAddress
        LeaseTime := getul s ns "LeaseTime".toList pEntry.Cfg.LeaseTime
        IAPDAddLength := getul s ns "IAPDAddLength".toList pEntry.Cfg.IAPDAddLength
        IANAAmount := getul s ns "IANAAmount".toList pEntry.Cfg.IANAAmount
        DUID := gets s ns "DUID".toList pEntry.Cfg.DUID
        IAPDEnable := getb s ns "IAPDEnable".toList pEntry.Cfg.IAPDEnable
        SourceAddressExclude :=
          getb s ns "SourceAddressExclude".toList pEntry.Cfg.SourceAddressExclude
        IANAEnable := getb s ns "IANAEnable".toList pEntry.Cfg.IANAEnable
        UserClassIDExclude := getb s ns "UserClassIDExclude".toList pEntry.Cfg.UserClassIDExclude
        VendorClassIDExclude :=
          getb s ns "VendorClassIDExclude".toList pEntry.Cfg.VendorClassIDExclude
        DUIDExclude := getb s ns "DUIDExclude".toList pEntry.Cfg.DUIDExclude
        bEnabled := getb s ns "bEnabled".toList pEntry.Cfg.bEnabled
        UnicastEnable := getb s ns "UnicastEnable".toList pEntry.Cfg.UnicastEnable
        RapidEnable := getb s ns "RapidEnable".toList pEntry.Cfg.RapidEnable
        EUI64Enable := getb s ns "EUI64Enable".toList pEntry.Cfg.EUI64Enable
        X_RDKCENTRAL_COM_DNSServersEnabled :=
          if DNSServers.text = [] then secureWebUI s
          else getb s ns "X_RDKCENTRAL_COM_DNSServersEnabled".toList
            pEntry.Cfg.X_RDKCENTRAL_COM_DNSServersEnabled
        X_RDKCENTRAL_COM_DNSServers := DNSServers }
    Info :=
      { Status := getul s ns "Status".toList pEntry.Info.Status
        IANAPrefixes := gets s ns
          (if b.prefixDelegation then "IANAInterfacePrefixes" else "IANAPrefixes").toList
          pEntry.Info.IANAPrefixes
        IAPDPrefixes := gets s ns "IAPDPrefixes".toList pEntry.Info.IAPDPrefixes } }

def getpooloptionFromUtopia (i k : ℕ) (s : Syscfg) (pEntry : PoolOption) : PoolOption :=
  let ns := optionNs i k
  { InstanceNumber := getul s ns "InstanceNumber".toList pEntry.InstanceNumber
    Alias := gets s ns "alias".toList pEntry.Alias
    Tag := getul s ns "Tag".toList pEntry.Tag
    PassthroughClient := gets s ns "PassthroughClient".toList pEntry.PassthroughClient
    Value := gets s ns "Value".toList pEntry.Value
    bEnabled := getb s ns "bEnabled".toList pEntry.bEnabled }

/-- A number `atoi` reads as it was printed, or the one told apart before. -/
def Readable (v : ULONG) : Prop := v.toNat < 2 ^ 31 ∨ v = 0xffffffff

def throughText (v : ULONG) : ULONG := if v = 0xffffffff then v else sscanf_d (decimal v.toNat) 0

section Fields

variable {s : Syscfg} {ns parameter : CStr}

theorem gets_of_some {n : ℕ} [NeZero n] {v : Buf n} (h : s (ns, parameter) = some v.text)
    (out : Buf n) : gets s ns parameter out = v := by
  rw [gets, h]
  exact Buf.text_injective (Buf.text_snprintf_of_lt v.text_length_lt)

theorem value_of_some {t : CStr} (h : s (ns, parameter) = some t) (hlen : t.length < 12) :
    (gets s ns parameter Buf.empty : Buf 12).text = t := by
  rw [gets, h]
  exact Buf.text_snprintf_of_lt hlen

theorem decimal_eq_max_iff (v : ULONG) :
    decimal v.toNat = "4294967295".toList ↔ v = 0xffffffff := by
  have hmax : "4294967295".toList = decimal (0xffffffff : ULONG).toNat := by decide
  rw [hmax]
  constructor
  · intro h
    exact BitVec.eq_of_toNat_eq (decimal_injective h)
  · intro h
    rw [h]

theorem getul_of_some {v : ULONG} (h : s (ns, parameter) = some (seti v)) (out : ULONG) :
    getul s ns parameter out = throughText v := by
  have hlen : (decimal v.toNat).length < 12 := by
    have hle := (decimal_length_le_iff (n := v.toNat) (k := 10) (by omega)).mpr
      (by have := v.isLt; omega)
    omega
  have hvalue := value_of_some h hlen
  simp only [getul, geti, hvalue, seti, throughText, decimal_eq_max_iff]
  by_cases hmax : v = 0xffffffff
  · rw [if_pos hmax, if_pos hmax, hmax]
    rfl
  · rw [if_neg hmax, if_neg hmax, if_pos (decimal_ne_nil _)]
    rfl

theorem getb_of_some {v : Bool} (h : s (ns, parameter) = some (setb v)) (out : Bool) :
    getb s ns parameter out = v := by
  have hlen : (setb v).length < 12 := by cases v <;> decide
  have hvalue := value_of_some h hlen
  simp only [getb, geti, hvalue]
  revert out
  cases v <;> decide +kernel

theorem throughText_eq_iff (v : ULONG) : throughText v = v ↔ Readable v := by
  unfold throughText Readable
  by_cases hmax : v = 0xffffffff
  · rw [if_pos hmax]
    exact ⟨fun _ => .inr hmax, fun _ => rfl⟩
  · rw [if_neg hmax, sscanf_d_decimal_eq_iff]
    exact ⟨.inl, fun h => h.resolve_right hmax⟩

end Fields

def rereadPool (s : Syscfg) (p : PoolFull) : PoolFull :=
  { Cfg :=
      { p.Cfg with
        InstanceNumber := throughText p.Cfg.InstanceNumber
        Order := throughText p.Cfg.Order
        LeaseTime := throughText p.Cfg.LeaseTime
        IAPDAddLength := throughText p.Cfg.IAPDAddLength
        IANAAmount := throughText p.Cfg.IANAAmount
        X_RDKCENTRAL_COM_DNSServersEnabled :=
          if p.Cfg.X_RDKCENTRAL_COM_DNSServers.text = [] then secureWebUI s
          else p.Cfg.X_RDKCENTRAL_COM_DNSServersEnabled }
    Info := { p.Info with Status := throughText p.Info.Status } }

def rereadOption (o : PoolOption) : PoolOption :=
  { o with InstanceNumber := throughText o.InstanceNumber, Tag := throughText o.Tag }

theorem getpool_of_holds {b : Build} {i : ℕ} {p : PoolFull} {s : Syscfg}
    (h : Holds s (poolNs i) (poolRecord b p)) (old : PoolFull) :
    getpoolFromUtopia b i s old = rereadPool s p := by
  simp only [Holds, poolRecord, List.forall_mem_cons] at h
  obtain ⟨hInstanceNumber, hAlias, hOrder, hInterface, hVendorClassID, hUserClassID,
    hSourceAddress, hSourceAddressMask, hIANAManual, hIAPDManual, hBegin, hEnd, hLeaseTime,
    hIAPDAddLength, hDUID, hIAPDEnable, hSourceExclude, hIANAEnable, hUserExclude, hVendorExclude,
    hDUIDExclude, hbEnabled, hStatus, hIANAPrefixes, hIAPDPrefixes, hRapid, hUnicast, hEUI64,
    hIANAAmount, hStart, hDNSEnabled, hDNS, _⟩ := h
  simp only [getpoolFromUtopia, getul_of_some hInstanceNumber, gets_of_some hAlias,
    getul_of_some hOrder, gets_of_some hInterface, gets_of_some hVendorClassID,
    gets_of_some hUserClassID, gets_of_some hSourceAddress, gets_of_some hSourceAddressMask,
    gets_of_some hIANAManual, gets_of_some hIAPDManual, gets_of_some hBegin, gets_of_some hEnd,
    getul_of_some hLeaseTime, getul_of_some hIAPDAddLength, gets_of_some hDUID,
    getb_of_some hIAPDEnable, getb_of_some hSourceExclude, getb_of_some hIANAEnable,
    getb_of_some hUserExclude, getb_of_some hVendorExclude, getb_of_some hDUIDExclude,
    getb_of_some hbEnabled, getul_of_some hStatus, gets_of_some hIANAPrefixes,
    gets_of_some hIAPDPrefixes, getb_of_some hRapid, getb_of_some hUnicast, getb_of_some hEUI64,
    getul_of_some hIANAAmount, gets_of_some hStart, getb_of_some hDNSEnabled, gets_of_some hDNS]
  rfl

theorem getpooloption_of_holds {i k : ℕ} {o : PoolOption} {s : Syscfg}
    (h : Holds s (optionNs i k) (optionRecord o)) (old : PoolOption) :
    getpooloptionFromUtopia i k s old = rereadOption o := by
  simp only [Holds, optionRecord, List.forall_mem_cons] at h
  obtain ⟨hInstanceNumber, hAlias, hTag, hPassthrough, hValue, hbEnabled, _⟩ := h
  simp only [getpooloptionFromUtopia, getul_of_some hInstanceNumber, gets_of_some hAlias,
    getul_of_some hTag, gets_of_some hPassthrough, gets_of_some hValue, getb_of_some hbEnabled]
  rfl

/-- A pool as it was written; the DNS flag counts only when there are servers. -/
structure SameWritten (q p : PoolFull) : Prop where
  fields : q = { p with Cfg := { p.Cfg with
    X_RDKCENTRAL_COM_DNSServersEnabled := q.Cfg.X_RDKCENTRAL_COM_DNSServersEnabled } }
  dnsEnabled : p.Cfg.X_RDKCENTRAL_COM_DNSServers.text ≠ [] →
    q.Cfg.X_RDKCENTRAL_COM_DNSServersEnabled = p.Cfg.X_RDKCENTRAL_COM_DNSServersEnabled

structure PoolReadable (p : PoolFull) : Prop where
  InstanceNumber : Readable p.Cfg.InstanceNumber
  Order : Readable p.Cfg.Order
  LeaseTime : Readable p.Cfg.LeaseTime
  IAPDAddLength : Readable p.Cfg.IAPDAddLength
  IANAAmount : Readable p.Cfg.IANAAmount
  Status : Readable p.Info.Status

structure OptionReadable (o : PoolOption) : Prop where
  InstanceNumber : Readable o.InstanceNumber
  Tag : Readable o.Tag

theorem sameWritten_reread_iff (s : Syscfg) (p : PoolFull) :
    SameWritten (rereadPool s p) p ↔ PoolReadable p := by
  constructor
  · intro h
    have hCfg := congrArg PoolFull.Cfg h.fields
    have hInfo := congrArg PoolFull.Info h.fields
    refine ⟨?_, ?_, ?_, ?_, ?_, ?_⟩ <;> apply (throughText_eq_iff _).mp
    · exact congrArg PoolCfg.InstanceNumber hCfg
    · exact congrArg PoolCfg.Order hCfg
    · exact congrArg PoolCfg.LeaseTime hCfg
    · exact congrArg PoolCfg.IAPDAddLength hCfg
    · exact congrArg PoolCfg.IANAAmount hCfg
    · exact congrArg PoolInfo.Status hInfo
  · intro h
    have hInstanceNumber := (throughText_eq_iff _).mpr h.InstanceNumber
    have hOrder := (throughText_eq_iff _).mpr h.Order
    have hLeaseTime := (throughText_eq_iff _).mpr h.LeaseTime
    have hIAPDAddLength := (throughText_eq_iff _).mpr h.IAPDAddLength
    have hIANAAmount := (throughText_eq_iff _).mpr h.IANAAmount
    have hStatus := (throughText_eq_iff _).mpr h.Status
    refine ⟨?_, ?_⟩
    · simp only [rereadPool, hInstanceNumber, hOrder, hLeaseTime, hIAPDAddLength, hIANAAmount,
        hStatus]
    · intro hservers
      exact if_neg hservers

theorem rereadOption_eq_iff (o : PoolOption) : rereadOption o = o ↔ OptionReadable o := by
  constructor
  · intro h
    exact ⟨(throughText_eq_iff _).mp (congrArg PoolOption.InstanceNumber h),
      (throughText_eq_iff _).mp (congrArg PoolOption.Tag h)⟩
  · intro h
    have hInstanceNumber := (throughText_eq_iff _).mpr h.InstanceNumber
    have hTag := (throughText_eq_iff _).mpr h.Tag
    simp only [rereadOption, hInstanceNumber, hTag]

section Frame

variable {s t : Syscfg}

theorem getpool_congr {i : ℕ} (h : ∀ k, t (poolNs i, k) = s (poolNs i, k))
    (hglobal : t ([], "SecureWebUI_Enable".toList) = s ([], "SecureWebUI_Enable".toList))
    (b : Build) (old : PoolFull) : getpoolFromUtopia b i t old = getpoolFromUtopia b i s old := by
  have hgets {n : ℕ} [NeZero n] (k : CStr) (out : Buf n) :
      gets t (poolNs i) k out = gets s (poolNs i) k out := by rw [gets, gets, h]
  have hsecure : secureWebUI t = secureWebUI s := by
    rw [secureWebUI, secureWebUI, gets, gets, hglobal]
  simp only [getpoolFromUtopia, getul, getb, geti, hgets, hsecure]

theorem getpooloption_congr {i k : ℕ} (h : ∀ q, t (optionNs i k, q) = s (optionNs i k, q))
    (old : PoolOption) :
    getpooloptionFromUtopia i k t old = getpooloptionFromUtopia i k s old := by
  have hgets {n : ℕ} [NeZero n] (q : CStr) (out : Buf n) :
      gets t (optionNs i k) q out = gets s (optionNs i k) q out := by rw [gets, gets, h]
  simp only [getpooloptionFromUtopia, getul, getb, geti, hgets]

theorem nil_ne_poolNs (i : ℕ) : ([] : CStr) ≠ poolNs i := by
  rw [poolNs_eq]
  exact (List.append_ne_nil_of_left_ne_nil (by decide) _).symm

theorem nil_ne_optionNs (i k : ℕ) : ([] : CStr) ≠ optionNs i k := by
  rw [optionNs_eq]
  exact (List.append_ne_nil_of_left_ne_nil (by decide) _).symm

end Frame

/-- Writing pool i or option (i, k) leaves every other slot as it is read. -/
structure OthersKept (b : Build) (i k : ℕ) (p : PoolFull) (o : PoolOption) (s : Syscfg) :
    Prop where
  poolPool : ∀ j ≠ i, ∀ old,
    getpoolFromUtopia b j (setpoolIntoUtopia b i p s) old = getpoolFromUtopia b j s old
  poolOption : ∀ j l old,
    getpooloptionFromUtopia j l (setpoolIntoUtopia b i p s) old = getpooloptionFromUtopia j l s old
  optionPool : ∀ j old,
    getpoolFromUtopia b j (setpooloptionIntoUtopia i k o s) old = getpoolFromUtopia b j s old
  optionOption : ∀ j l, (j, l) ≠ (i, k) → ∀ old,
    getpooloptionFromUtopia j l (setpooloptionIntoUtopia i k o s) old =
      getpooloptionFromUtopia j l s old

theorem othersKept (b : Build) (i k : ℕ) (p : PoolFull) (o : PoolOption) (s : Syscfg) :
    OthersKept b i k p o s where
  poolPool := by
    intro j hj old
    apply getpool_congr
    · intro q
      exact writeSlot_of_ne (poolNs_injective.ne hj) _ s q
    · exact writeSlot_of_ne (nil_ne_poolNs i) _ s _
  poolOption := by
    intro j l old
    apply getpooloption_congr
    intro q
    exact writeSlot_of_ne (poolNs_ne_optionNs i j l).symm _ s q
  optionPool := by
    intro j old
    apply getpool_congr
    · intro q
      exact writeSlot_of_ne (poolNs_ne_optionNs j i k) _ s q
    · exact writeSlot_of_ne (nil_ne_optionNs i k) _ s _
  optionOption := by
    intro j l hne old
    apply getpooloption_congr
    intro q
    apply writeSlot_of_ne
    intro hns
    obtain ⟨hj, hl⟩ := optionNs_inj hns
    exact hne (Prod.ext hj hl)

/-- A pool and an option written and read back are the same, and nothing else
moved, exactly when no number lies between the signed and the unsigned bound. -/
theorem pools_read_back_iff (b : Build) (i k : ℕ) (p old : PoolFull) (o oldOption : PoolOption)
    (s : Syscfg) :
    (SameWritten (getpoolFromUtopia b i (setpoolIntoUtopia b i p s) old) p ∧
      getpooloptionFromUtopia i k (setpooloptionIntoUtopia i k o s) oldOption = o ∧
      OthersKept b i k p o s) ↔ PoolReadable p ∧ OptionReadable o := by
  have hpool := getpool_of_holds (holds_writeSlot (poolRecord_nodup b p) (poolNs i) s) old
  have hoption :=
    getpooloption_of_holds (holds_writeSlot (optionRecord_nodup o) (optionNs i k) s) oldOption
  rw [setpoolIntoUtopia, hpool, setpooloptionIntoUtopia, hoption, sameWritten_reread_iff,
    rereadOption_eq_iff]
  exact ⟨fun h => ⟨h.1, h.2.1⟩, fun h => ⟨h.1, h.2, othersKept b i k p o s⟩⟩

/-- A lease time of -2 seconds comes back as the largest one. -/
theorem pools_read_back_negative : ¬ ∀ (b : Build) (i : ℕ) (p old : PoolFull) (s : Syscfg),
    SameWritten (getpoolFromUtopia b i (setpoolIntoUtopia b i p s) old) p := by
  intro hall
  have h := hall plainBuild 0
    { PoolFull.zero with Cfg := { PoolFull.zero.Cfg with LeaseTime := -2 } }
    PoolFull.zero (fun _ => none)
  rw [setpoolIntoUtopia, getpool_of_holds (holds_writeSlot (poolRecord_nodup _ _) (poolNs 0) _),
    sameWritten_reread_iff] at h
  rcases h.LeaseTime with hsmall | hmax
  · exact absurd hsmall (by decide)
  · exact absurd hmax (by decide)

end CcspPandM.PoolReads
