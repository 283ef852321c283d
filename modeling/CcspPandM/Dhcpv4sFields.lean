import CcspPandM.Dhcpv4sPools
import Mathlib.Data.List.Forall2

/-!
What the fields of DHCPv4 server pools and their options keep when they are
written and read back. Lists of addresses are kept without gaps and without the
broadcast address only, the time offset and the values of options never are.
-/
namespace CcspPandM.Dhcpv4sFields

open CString InetText ScanText InstanceStore FieldRecords Ipv4Addr Dhcpv4sPools

theorem comma_notMem_addrText (a : Addr) : ',' ∉ addrText a :=
  notMem_dotted_addrOctets rfl (by decide) a

theorem length_addrText (a : Addr) : 7 ≤ (addrText a).length := length_dotted_addrOctets a

theorem setIpaddrFrom_append {t : CStr} (ht : ',' ∉ t) (rest tok : CStr) (done : List Addr) :
    setIpaddrFrom (t ++ rest) tok done = setIpaddrFrom rest (tok ++ t) done := by
  induction t generalizing tok with
  | nil => rw [List.nil_append, List.append_nil]
  | cons c t ih =>
    rw [List.mem_cons, not_or] at ht
    rw [List.cons_append, setIpaddrFrom, if_neg (Ne.symm ht.1), ih ht.2, List.append_assoc]
    rfl

theorem setIpaddrFrom_list {as : List Addr} {done : List Addr}
    (hlen : done.length + as.length ≤ 4) :
    setIpaddrFrom (List.intercalate [','] (as.map addrText)) [] done =
      if 0xffffffff ∈ as then none else some (done ++ as) := by
  induction as generalizing done with
  | nil => simp [List.intercalate, setIpaddrFrom]
  | cons a as ih =>
    have haddr : inet_addr (addrText a) = a := inet_addr_dotted a
    have hscan := setIpaddrFrom_append (comma_notMem_addrText a)
    cases as with
    | nil =>
      have hlast := hscan [] [] done
      rw [List.append_nil, List.nil_append] at hlast
      rw [List.map_singleton, List.intercalate_singleton, hlast, setIpaddrFrom,
        if_pos (length_addrText a), haddr]
      simp only [List.mem_singleton, @eq_comm _ a]
    | cons b as =>
      have hrest := @ih (done ++ [a]) (by simp at hlen ⊢; omega)
      have hcons : List.intercalate [','] ((a :: b :: as).map addrText) =
          addrText a ++ ',' :: List.intercalate [','] ((b :: as).map addrText) := by
        simp [List.intercalate]
      have hfour : ¬4 ≤ done.length + 1 := by simp at hlen; omega
      rw [hcons, hscan, List.nil_append, setIpaddrFrom, if_pos rfl, haddr, if_neg hfour, hrest]
      by_cases ha : a = 0xffffffff
      · rw [if_pos ha, if_pos (by simp [ha])]
      · simp only [if_neg ha, List.mem_cons, Ne.symm ha, false_or, List.append_assoc,
          List.cons_append, List.nil_append]

/-- No gap before an address and no broadcast address. -/
def Listable (l : Addrs) : Prop :=
  0xffffffff ∉ l.val ∧ ∀ a ∈ l.val.dropWhile (· ≠ 0), a = 0

instance (l : Addrs) : Decidable (Listable l) := inferInstanceAs (Decidable (_ ∧ _))

theorem padded_takeWhile_eq_iff (l : Addrs) :
    Addrs.padded (l.val.takeWhile (· ≠ 0)) = l ↔ ∀ a ∈ l.val.dropWhile (· ≠ 0), a = 0 := by
  have hsplit := List.takeWhile_append_dropWhile (p := (· ≠ (0 : Addr))) (l := l.val)
  generalize l.val.takeWhile (· ≠ 0) = front at hsplit ⊢
  generalize l.val.dropWhile (· ≠ 0) = back at hsplit ⊢
  have hlen : front.length + back.length = 4 := by
    rw [← List.length_append, hsplit, l.property]
  have hpadded : (Addrs.padded front).val = front ++ List.replicate back.length 0 := by
    change (front ++ List.replicate 4 0).take 4 = _
    rw [List.take_append, List.take_of_length_le (by omega), List.take_replicate]
    congr 2
    omega
  have hval : Addrs.padded front = l ↔ (Addrs.padded front).val = l.val := Subtype.ext_iff
  rw [hval, hpadded, ← hsplit, List.append_cancel_left_eq, eq_comm, List.eq_replicate_iff]
  simp

theorem setIpaddr_getIpaddrString_iff (l : Addrs) :
    cosaDmlSetIpaddr (cosaDmlGetIpaddrString l) Addrs.zero = l ↔ Listable l := by
  have hlen : ([] : List Addr).length + (l.val.takeWhile (· ≠ 0)).length ≤ 4 := by
    have := (List.takeWhile_sublist (· ≠ (0 : Addr)) (l := l.val)).length_le
    have hl := l.property
    rw [List.length_nil]
    omega
  have hloop := setIpaddrFrom_list hlen
  have hback : 0xffffffff ∈ l.val → 0xffffffff ∉ l.val.takeWhile (· ≠ 0) →
      ¬∀ a ∈ l.val.dropWhile (· ≠ 0), a = 0 := by
    intro hmem hfront hzero
    rw [← List.takeWhile_append_dropWhile (p := (· ≠ (0 : Addr))) (l := l.val),
      List.mem_append] at hmem
    exact absurd (hzero _ (hmem.resolve_left hfront)) (by decide)
  unfold cosaDmlSetIpaddr
  rw [show cosaDmlGetIpaddrString l =
    List.intercalate [','] ((l.val.takeWhile (· ≠ 0)).map addrText) from rfl, hloop]
  by_cases hmem : (0xffffffff : Addr) ∈ l.val.takeWhile (· ≠ 0)
  · rw [if_pos hmem]
    constructor
    · intro h
      change Addrs.zero = l at h
      subst h
      exact absurd hmem (by decide)
    · intro h
      exact absurd ((List.takeWhile_sublist _).subset hmem) h.1
  · rw [if_neg hmem, List.nil_append]
    change Addrs.padded _ = l ↔ _
    rw [padded_takeWhile_eq_iff]
    constructor
    · exact fun h => ⟨fun hb => hback hb hmem h, h⟩
    · exact fun h => h.2

theorem cfgLayout : Layout cfgFields where
  lawful := by
    intro f hf
    simp only [cfgFields, List.mem_cons, List.not_mem_nil, or_false] at hf
    rcases hf with rfl | rfl | rfl | rfl | rfl | rfl | rfl | rfl | rfl | rfl | rfl | rfl <;>
      exact fun _ _ => rfl
  apart := by
    simp only [cfgFields, List.pairwise_cons, List.forall_mem_cons, List.not_mem_nil,
      false_implies, implies_true, and_true, List.Pairwise.nil]
    and_intros <;> exact ⟨fun _ _ => rfl, fun _ _ => rfl⟩
  names := by decide +kernel

theorem cfgReads_perm : cfgReads.Perm cfgFields := by
  have h : [cfgDomainName, cfgDNSServers, cfgIPRouters].Perm
      [cfgDNSServers, cfgIPRouters, cfgDomainName] :=
    @List.perm_append_comm _ [cfgDomainName] _
  exact ((h.append_right [cfgLeaseTime, cfgOrder, cfgTimeOffset]).append_left
    [cfgEnable, cfgAlias, cfgInterface, cfgMinAddress, cfgMaxAddress, cfgSubnetMask])

theorem cfgReadsLayout : Layout cfgReads where
  lawful := fun f hf => cfgLayout.lawful f (cfgReads_perm.subset hf)
  apart := (cfgReads_perm.pairwise_iff fun h => ⟨h.right, h.left⟩).mpr cfgLayout.apart
  names := ((cfgReads_perm.map StoredField.readName).nodup_iff).mpr cfgLayout.names

theorem optionLayout : Layout optionFields where
  lawful := by
    intro f hf
    simp only [optionFields, List.mem_cons, List.not_mem_nil, or_false] at hf
    rcases hf with rfl | rfl | rfl | rfl <;> exact fun _ _ => rfl
  apart := by
    simp only [optionFields, List.pairwise_cons, List.forall_mem_cons, List.not_mem_nil,
      false_implies, implies_true, and_true, List.Pairwise.nil]
    and_intros <;> exact ⟨fun _ _ => rfl, fun _ _ => rfl⟩
  names := by decide +kernel

theorem boolText_true (b : Bool) : (boolText b == "TRUE".toList) = b := by
  cases b with
  | false => decide +kernel
  | true => decide +kernel

theorem strcpyNoclobber_text {n : ℕ} (v old : Buf n) : strcpyNoclobber v.text old = v :=
  dif_pos v.property

theorem sprintf_s_ipInterface (v : Buf 64) (h : ipInterface <+: v.text) :
    (Buf.sprintf_s (ipInterface ++ v.text.drop ipInterface.length) : Buf 64) = v := by
  have htext : ipInterface ++ v.text.drop ipInterface.length = v.text :=
    List.prefix_iff_eq_append.mp h
  apply Buf.text_injective
  rw [htext]
  exact Buf.text_sprintf_s_of_lt v.text_length_lt

/-- What a configuration must share with the old one, or be, to be kept whole. -/
structure CfgKept (new old : PoolCfg) : Prop where
  selection : new.selection = old.selection
  bAllowDelete : new.bAllowDelete = old.bAllowDelete
  timeOffset : new.X_CISCO_COM_TimeOffset = old.X_CISCO_COM_TimeOffset
  DNSServers : new.DNSServers = old.DNSServers ∨ Listable new.DNSServers
  IPRouters : new.IPRouters = old.IPRouters ∨ Listable new.IPRouters

def OptionKept (new old : PoolOption) : Prop := new.Value = old.Value

theorem forall_cfgFields {P : StoredField PoolCfg → Prop} :
    (∀ f ∈ cfgFields, P f) ↔ P cfgEnable ∧ P cfgAlias ∧ P cfgInterface ∧ P cfgMinAddress ∧
      P cfgMaxAddress ∧ P cfgSubnetMask ∧ P cfgDNSServers ∧ P cfgIPRouters ∧ P cfgDomainName ∧
      P cfgLeaseTime ∧ P cfgOrder ∧ P cfgTimeOffset := by
  simp only [cfgFields, List.forall_mem_cons, List.not_mem_nil, false_implies, implies_true,
    and_true]

theorem forall_optionFields {P : StoredField PoolOption → Prop} :
    (∀ f ∈ optionFields, P f) ↔ P optionEnable ∧ P optionAlias ∧ P optionTag ∧ P optionValue := by
  simp only [optionFields, List.forall_mem_cons, List.not_mem_nil, false_implies, implies_true,
    and_true]

theorem cfg_ext {a b : PoolCfg} (hnumber : a.InstanceNumber = b.InstanceNumber)
    (hselection : a.selection = b.selection) (hallow : a.bAllowDelete = b.bAllowDelete)
    (h : ∀ f ∈ cfgFields, f.get a = f.get b) : a = b := by
  obtain ⟨h₁, h₂, h₃, h₄, h₅, h₆, h₇, h₈, h₉, h₁₀, h₁₁, h₁₂⟩ := forall_cfgFields.mp h
  cases a
  cases b
  exact PoolCfg.mk.injEq .. ▸ ⟨hnumber, h₂, h₁, h₁₁, h₃, hselection, h₄, h₅, h₆, h₇, h₉, h₈, h₁₀,
    h₁₂, hallow⟩

theorem option_ext {a b : PoolOption} (hnumber : a.InstanceNumber = b.InstanceNumber)
    (h : ∀ f ∈ optionFields, f.get a = f.get b) : a = b := by
  obtain ⟨h₁, h₂, h₃, h₄⟩ := forall_optionFields.mp h
  cases a
  cases b
  exact PoolOption.mk.injEq .. ▸ ⟨hnumber, h₂, h₃, h₄, h₁⟩

def CfgStored (psm : Tables) (c : PoolCfg) : Prop :=
  ∀ f ∈ cfgFields, f.loaded (poolPath c.InstanceNumber) psm (f.get (defaultCfg 0)) = f.get c

def OptionStored (psm : Tables) (n : ULONG) (o : PoolOption) : Prop :=
  ∀ f ∈ optionFields, f.loaded (optionPath n o.InstanceNumber) psm (f.get (defaultOption 0)) =
    f.get o

theorem cfgFields_keep {new old : PoolCfg} (hiface : ipInterface <+: new.Interface.text)
    (h : CfgKept new old) :
    ∀ f ∈ cfgFields, f.get new = f.get old ∨ f.Keeps (defaultCfg 0) new := by
  rw [forall_cfgFields]
  refine ⟨Or.inr ⟨rfl, rfl, boolText_true _⟩, Or.inr ⟨rfl, rfl, strcpyNoclobber_text _ _⟩,
    Or.inr ⟨rfl, rfl, sprintf_s_ipInterface _ hiface⟩, Or.inr ⟨rfl, rfl, inet_addr_dotted _⟩,
    Or.inr ⟨rfl, rfl, inet_addr_dotted _⟩, Or.inr ⟨rfl, rfl, inet_addr_dotted _⟩,
    h.DNSServers.imp id fun hl => ?_, h.IPRouters.imp id fun hl => ?_,
    Or.inr ⟨rfl, rfl, strcpyNoclobber_text _ _⟩, Or.inr ⟨rfl, rfl, sscanf_d_intText _ _⟩,
    Or.inr ⟨rfl, rfl, sscanf_lu_decimal _ _⟩, Or.inl h.timeOffset⟩
  · exact ⟨rfl, rfl, (setIpaddr_getIpaddrString_iff _).mpr hl⟩
  · exact ⟨rfl, rfl, (setIpaddr_getIpaddrString_iff _).mpr hl⟩

theorem cfg_write_frame (path : CStr) (new : PoolCfg) (s : Saving PoolCfg) :
    (writeAll cfgFields path new s).old.InstanceNumber = s.old.InstanceNumber ∧
      (writeAll cfgFields path new s).old.selection = s.old.selection ∧
      (writeAll cfgFields path new s).old.bAllowDelete = s.old.bAllowDelete := by
  refine ⟨?_, ?_, ?_⟩
  · exact writeAll_keeps PoolCfg.InstanceNumber
      (forall_cfgFields.mpr (by and_intros <;> exact fun _ _ => rfl)) path new s
  · exact writeAll_keeps PoolCfg.selection
      (forall_cfgFields.mpr (by and_intros <;> exact fun _ _ => rfl)) path new s
  · exact writeAll_keeps PoolCfg.bAllowDelete
      (forall_cfgFields.mpr (by and_intros <;> exact fun _ _ => rfl)) path new s

variable {psm : Tables} {r : Bool}

theorem cfg_kept_iff {new old : PoolCfg} (hiface : ipInterface <+: new.Interface.text)
    (hnumber : new.InstanceNumber = old.InstanceNumber)
    (hbefore : CfgStored psm old) :
    ((writeDHCPv4ServerPoolCFGToPSM new ⟨old, psm, r⟩).old = new ∧
      CfgStored (writeDHCPv4ServerPoolCFGToPSM new ⟨old, psm, r⟩).psm new) ↔ CfgKept new old := by
  unfold CfgStored at hbefore
  rw [← hnumber] at hbefore
  obtain ⟨hframe, hselection, hallow⟩ :=
    cfg_write_frame (poolPath new.InstanceNumber) new ⟨old, psm, r⟩
  constructor
  · rintro ⟨hold, hstored⟩
    change (writeAll cfgFields _ new ⟨old, psm, r⟩).old = new at hold
    have hfield : ∀ f ∈ cfgFields,
        (∀ g ∈ cfgFields, g.writeName = f.readName → g.readName = f.readName) →
        f.get new = f.get old ∨ f.Keeps (defaultCfg 0) new := fun f hf honly =>
      keeps_of_holds cfgLayout hf (hbefore f hf) honly ⟨by rw [hold], hstored f hf⟩
    have hmem := forall_cfgFields.mp (fun f (hf : f ∈ cfgFields) => hf)
    rw [hold] at hselection hallow
    refine ⟨hselection, hallow, ?_, ?_, ?_⟩
    · rcases hfield cfgTimeOffset hmem.2.2.2.2.2.2.2.2.2.2.2
        (forall_cfgFields.mpr (by decide +kernel)) with h | h
      · exact h
      · exact absurd h.name (by decide +kernel)
    · exact (hfield cfgDNSServers hmem.2.2.2.2.2.2.1
        (forall_cfgFields.mpr (by decide +kernel))).imp id
        fun h => (setIpaddr_getIpaddrString_iff _).mp h.value
    · exact (hfield cfgIPRouters hmem.2.2.2.2.2.2.2.1
        (forall_cfgFields.mpr (by decide +kernel))).imp id
        fun h => (setIpaddr_getIpaddrString_iff _).mp h.value
  · intro h
    have hholds : ∀ f ∈ cfgFields, Holds f (poolPath new.InstanceNumber) (defaultCfg 0)
        (f.get new) (writeAll cfgFields (poolPath new.InstanceNumber) new ⟨old, psm, r⟩) :=
      fun f hf => holds_writeAll cfgLayout hbefore (cfgFields_keep hiface h) hf
    refine ⟨cfg_ext ?_ ?_ ?_ fun f hf => (hholds f hf).copy, fun f hf => (hholds f hf).store⟩
    · exact hframe.trans hnumber.symm
    · exact hselection.trans h.selection.symm
    · exact hallow.trans h.bAllowDelete.symm

theorem option_write_frame (path : CStr) (new : PoolOption) (s : Saving PoolOption) :
    (writeAll optionFields path new s).old.InstanceNumber = s.old.InstanceNumber :=
  writeAll_keeps PoolOption.InstanceNumber
    (forall_optionFields.mpr (by and_intros <;> exact fun _ _ => rfl)) path new s

theorem optionKept_of_copy {new old : PoolOption} (n : ULONG)
    (h : (writeDHCPv4ServerPoolOptionToPSM n new ⟨old, psm, r⟩).old = new) :
    OptionKept new old := by
  have hmem := forall_optionFields.mp (fun f (hf : f ∈ optionFields) => hf)
  change (writeAll optionFields _ new ⟨old, psm, r⟩).old = new at h
  have hvalue := get_writeAll optionLayout (optionPath n new.InstanceNumber) new
    ⟨old, psm, r⟩ hmem.2.2.2
  rw [h] at hvalue
  exact hvalue

theorem option_kept_iff {new old : PoolOption} (n : ULONG)
    (hnumber : new.InstanceNumber = old.InstanceNumber) (hbefore : OptionStored psm n old) :
    ((writeDHCPv4ServerPoolOptionToPSM n new ⟨old, psm, r⟩).old = new ∧
      OptionStored (writeDHCPv4ServerPoolOptionToPSM n new ⟨old, psm, r⟩).psm n new) ↔
      OptionKept new old := by
  unfold OptionStored at hbefore
  rw [← hnumber] at hbefore
  have hframe := option_write_frame (optionPath n new.InstanceNumber) new ⟨old, psm, r⟩
  constructor
  · exact fun h => optionKept_of_copy n h.1
  · intro h
    have hkeeps : ∀ f ∈ optionFields, f.get new = f.get old ∨ f.Keeps (defaultOption 0) new := by
      rw [forall_optionFields]
      exact ⟨Or.inr ⟨rfl, rfl, boolText_true _⟩, Or.inr ⟨rfl, rfl, strcpyNoclobber_text _ _⟩,
        Or.inr ⟨rfl, rfl, sscanf_lu_decimal _ _⟩, Or.inl h⟩
    have hholds : ∀ f ∈ optionFields, Holds f (optionPath n new.InstanceNumber)
        (defaultOption 0) (f.get new)
        (writeAll optionFields (optionPath n new.InstanceNumber) new ⟨old, psm, r⟩) :=
      fun f hf => holds_writeAll optionLayout hbefore hkeeps hf
    exact ⟨option_ext (hframe.trans hnumber.symm) fun f hf => (hholds f hf).copy,
      fun f hf => (hholds f hf).store⟩

end CcspPandM.Dhcpv4sFields
