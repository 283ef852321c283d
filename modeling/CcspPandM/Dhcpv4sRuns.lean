import CcspPandM.Dhcpv4sFields

/-!
Calls on the DHCPv4 server pools after the first one. After each call memory is
compared with the values given so far, and with what a reader makes of the PSM.
A call keeps both exactly when what it gives is among the values that are kept.
-/
namespace CcspPandM.Dhcpv4sRuns

open CString InstanceStore FieldRecords Ipv4Addr Runs Dhcpv4sPools Dhcpv4sFields

inductive Call where
  | addPool (pEntry : PoolCfg)
  | delPool (n : ULONG)
  | setPoolCfg (pCfg : PoolCfg)
  | addOption (n : ULONG) (pEntry : PoolOption)
  | delOption (n m : ULONG)
  | setOption (n : ULONG) (pEntry : PoolOption)

def onInterface (c : PoolCfg) : Prop := ∃ k, c.Interface.text = ipInterface ++ decimal k

/-- A call on a pool after the first one, with an IP interface. -/
def Call.OnTable : Call → Prop
  | addPool c => 2 ≤ c.InstanceNumber.toNat ∧ onInterface c
  | delPool n => 2 ≤ n.toNat
  | setPoolCfg c => 2 ≤ c.InstanceNumber.toNat ∧ onInterface c
  | addOption n _ => 2 ≤ n.toNat
  | delOption n _ => 2 ≤ n.toNat
  | setOption n _ => 2 ≤ n.toNat

abbrev TableCall := { c : Call // c.OnTable }

def Call.apply : Call → Dhcps → Status × Dhcps
  | addPool c => cosaDmlDhcpsAddPool c
  | delPool n => cosaDmlDhcpsDelPool n
  | setPoolCfg c => cosaDmlDhcpsSetPoolCfg c
  | addOption n o => cosaDmlDhcpsAddOption n o
  | delOption n m => cosaDmlDhcpsDelOption n m
  | setOption n o => cosaDmlDhcpsSetOption n o

def putOption (o : PoolOption) (os : List PoolOption) : List PoolOption :=
  if os.any (PoolOption.hasNumber o.InstanceNumber) then
    os.map (fun p => if p.hasNumber o.InstanceNumber then o else p)
  else os ++ [o]

def changePool (n : ULONG) (f : Pool → Pool) (ps : List Pool) : List Pool :=
  ps.map (fun p => if p.hasNumber n then f p else p)

def Call.give : Call → List Pool → List Pool
  | addPool c, ps =>
    if ps.any (Pool.hasNumber c.InstanceNumber) then
      changePool c.InstanceNumber (fun p => { p with Cfg := c }) ps
    else ps ++ [⟨c, 0, []⟩]
  | delPool n, ps => ps.filter (fun p => !p.hasNumber n)
  | setPoolCfg c, ps => changePool c.InstanceNumber (fun p => { p with Cfg := c }) ps
  | addOption n o, ps =>
    changePool n (fun p => { p with OptionList := putOption o p.OptionList }) ps
  | delOption n m, ps =>
    changePool n (fun p => { p with OptionList := p.OptionList.filter (!PoolOption.hasNumber m ·) })
      ps
  | setOption n o, ps =>
    changePool n
      (fun p => { p with
        OptionList := p.OptionList.map fun q => if q.hasNumber o.InstanceNumber then o else q })
      ps

structure Given where
  w : Dhcps
  given : List Pool

def next (s : Given) (c : TableCall) : Given where
  w := (c.val.apply s.w).2
  given := if (c.val.apply s.w).1 = .SUCCESS then c.val.give s.given else s.given

def step (s : Given) (c : TableCall) : Option Given := some (next s c)

def SameOption (o o' : PoolOption) : Prop :=
  o.InstanceNumber = o'.InstanceNumber ∧ ∀ f ∈ optionFields, f.get o = f.get o'

def SamePool (p p' : Pool) : Prop :=
  p.Cfg.InstanceNumber = p'.Cfg.InstanceNumber ∧ (∀ f ∈ cfgFields, f.get p.Cfg = f.get p'.Cfg) ∧
    List.Forall₂ SameOption p.OptionList p'.OptionList

/-- The reader rebuilds the pools and options with every field that is written. -/
def Rebuilt (w : Dhcps) : Prop :=
  List.Forall₂ SamePool w.g_dhcpv4_server_pool_list (readDHCPv4ServerPoolFromPSM w.psm)

structure Given.Kept (s : Given) : Prop where
  memory : s.w.g_dhcpv4_server_pool_list = s.given
  store : Rebuilt s.w

def publicRange (c : PoolCfg) : Prop :=
  is_a_public_addr (ntohl c.MinAddress) ∨ is_a_public_addr (ntohl c.MaxAddress)

/-- What a call must give for it to be kept. -/
def Ok (s : Given) (c : TableCall) : Prop :=
  match c.val with
  | .addPool e =>
    (∀ p ∈ s.w.g_dhcpv4_server_pool_list, p.Cfg.InstanceNumber ≠ e.InstanceNumber) ∧
      CfgKept e (defaultCfg e.InstanceNumber)
  | .delPool _ => True
  | .setPoolCfg e =>
    ∀ p ∈ s.w.g_dhcpv4_server_pool_list, p.Cfg.InstanceNumber = e.InstanceNumber →
      (e.InstanceNumber = 2 ∧ publicRange e) ∨ CfgKept e p.Cfg
  | .addOption n e =>
    ∀ p ∈ s.w.g_dhcpv4_server_pool_list, p.Cfg.InstanceNumber = n →
      (∀ o ∈ p.OptionList, o.InstanceNumber ≠ e.InstanceNumber) ∧
        OptionKept e (defaultOption e.InstanceNumber) ∧
        (e.bEnabled = true ∨ e.Alias ≠ Buf.empty ∨ e.Tag ≠ 0)
  | .delOption _ _ => True
  | .setOption n e =>
    ∀ p ∈ s.w.g_dhcpv4_server_pool_list, p.Cfg.InstanceNumber = n →
      ∀ o ∈ p.OptionList, o.InstanceNumber = e.InstanceNumber → OptionKept e o

section Reader

theorem forall₂_map_iff {α β : Type} {R : α → β → Prop} {key : α → ULONG} {Q : α → Prop}
    {g : ULONG → β} (h : ∀ a n, R a (g n) ↔ key a = n ∧ Q a) (l : List α) (ns : List ULONG) :
    List.Forall₂ R l (ns.map g) ↔ l.map key = ns ∧ ∀ a ∈ l, Q a := by
  induction l generalizing ns with
  | nil => cases ns <;> simp
  | cons a l ih =>
    cases ns with
    | nil => simp
    | cons n ns =>
      rw [List.map_cons, List.forall₂_cons, h, ih, List.map_cons, List.cons.injEq,
        List.forall_mem_cons]
      tauto

theorem sameOption_read_iff (psm : Tables) (n : ULONG) (o : PoolOption) (m : ULONG) :
    SameOption o (getDHCPv4ServerPoolOptionFromPSM psm n m (defaultOption 0)) ↔
      o.InstanceNumber = m ∧ OptionStored psm n o := by
  have hnumber : (getDHCPv4ServerPoolOptionFromPSM psm n m (defaultOption 0)).InstanceNumber = m :=
    readAll_keeps PoolOption.InstanceNumber
      (forall_optionFields.mpr (by and_intros <;> exact fun _ _ => rfl)) _ psm _
  have hbase : ∀ f ∈ optionFields,
      f.get { defaultOption 0 with InstanceNumber := m } = f.get (defaultOption 0) :=
    forall_optionFields.mpr (by and_intros <;> rfl)
  have hfields : ∀ f ∈ optionFields,
      f.get (getDHCPv4ServerPoolOptionFromPSM psm n m (defaultOption 0)) =
        f.loaded (optionPath n m) psm (f.get (defaultOption 0)) := by
    intro f hf
    unfold getDHCPv4ServerPoolOptionFromPSM
    rw [get_readAll optionLayout _ _ _ hf, hbase f hf]
  unfold SameOption OptionStored
  rw [hnumber]
  constructor
  · rintro ⟨rfl, h⟩
    exact ⟨rfl, fun f hf => ((h f hf).trans (hfields f hf)).symm⟩
  · rintro ⟨rfl, h⟩
    exact ⟨rfl, fun f hf => ((hfields f hf).trans (h f hf)).symm⟩

structure PoolStored (psm : Tables) (p : Pool) : Prop where
  cfg : CfgStored psm p.Cfg
  listed : p.OptionList.map PoolOption.InstanceNumber =
    psmGetNextLevelInstances psm (optionTable p.Cfg.InstanceNumber)
  options : ∀ o ∈ p.OptionList, OptionStored psm p.Cfg.InstanceNumber o

theorem samePool_read_iff (psm : Tables) (p : Pool) (n : ULONG) :
    SamePool p (readPool psm n) ↔ p.Cfg.InstanceNumber = n ∧ PoolStored psm p := by
  have hnumber : (readPool psm n).Cfg.InstanceNumber = n :=
    readAll_keeps PoolCfg.InstanceNumber (fun f hf =>
      (forall_cfgFields (P := fun f => ∀ v c, (f.set v c).InstanceNumber = c.InstanceNumber)).mpr
        (by and_intros <;> exact fun _ _ => rfl) f (cfgReads_perm.subset hf)) _ psm _
  have hfields : ∀ f ∈ cfgFields, f.get (readPool psm n).Cfg =
      f.loaded (poolPath n) psm (f.get (defaultCfg 0)) := by
    intro f hf
    have hread : f.get (readPool psm n).Cfg = _ :=
      get_readAll cfgReadsLayout (poolPath n) psm _ (cfgReads_perm.symm.subset hf)
    have hbase : ∀ f ∈ cfgFields, ∀ b,
        f.get { defaultCfg 0 with InstanceNumber := n, bAllowDelete := b } =
          f.get (defaultCfg 0) :=
      forall_cfgFields.mpr (by and_intros <;> exact fun _ => rfl)
    rw [hbase f hf] at hread
    exact hread
  have hoptions := forall₂_map_iff (sameOption_read_iff psm n) p.OptionList
    (psmGetNextLevelInstances psm (optionTable n))
  unfold SamePool
  rw [hnumber]
  change _ ∧ _ ∧ List.Forall₂ SameOption p.OptionList ((psmGetNextLevelInstances psm _).map _) ↔ _
  rw [hoptions]
  constructor
  · rintro ⟨rfl, hcfg, hlisted, hstored⟩
    exact ⟨rfl, fun f hf => ((hcfg f hf).trans (hfields f hf)).symm, hlisted, hstored⟩
  · rintro ⟨rfl, hcfg, hlisted, hstored⟩
    exact ⟨rfl, fun f hf => ((hfields f hf).trans (hcfg f hf)).symm, hlisted, hstored⟩

abbrev number (p : Pool) : ULONG := p.Cfg.InstanceNumber

def poolNumbers (w : Dhcps) : List ULONG := w.g_dhcpv4_server_pool_list.map number

/-- The instances the reader does not skip. -/
def poolInstances (psm : Tables) : List ULONG :=
  (psmGetNextLevelInstances psm poolTable).filter (· ≠ 1)

theorem rebuilt_iff (w : Dhcps) : Rebuilt w ↔ poolNumbers w = poolInstances w.psm ∧
    ∀ p ∈ w.g_dhcpv4_server_pool_list, PoolStored w.psm p :=
  forall₂_map_iff (samePool_read_iff w.psm) _ _

end Reader

section Lists

variable {α : Type} (key : α → ULONG) {n : ULONG} {l : List α}

theorem updateFirst_eq_map (h : (l.map key).Nodup) (f : α → α) :
    updateFirst (fun a => key a = n) f l = l.map (fun a => if key a = n then f a else a) := by
  induction l with
  | nil => rfl
  | cons a l ih =>
    rw [List.map_cons, List.nodup_cons] at h
    by_cases ha : key a = n
    · have hrest : ∀ b ∈ l, key b ≠ n := fun b hb heq =>
        h.1 (List.mem_map.mpr ⟨b, hb, heq.trans ha.symm⟩)
      have hid : l.map (fun a => if key a = n then f a else a) = l :=
        (List.map_congr_left fun b hb => if_neg (hrest b hb)).trans (List.map_id' l)
      simp [updateFirst, ha, hid]
    · simp [updateFirst, ha, ih h.2]

theorem eraseP_eq_filter (h : (l.map key).Nodup) :
    l.eraseP (fun a => key a = n) = l.filter (fun a => !decide (key a = n)) := by
  induction l with
  | nil => rfl
  | cons a l ih =>
    rw [List.map_cons, List.nodup_cons] at h
    by_cases ha : key a = n
    · have hrest : ∀ b ∈ l, key b ≠ n := fun b hb heq =>
        h.1 (List.mem_map.mpr ⟨b, hb, heq.trans ha.symm⟩)
      rw [List.eraseP_cons_of_pos (by simpa using ha), List.filter_cons_of_neg (by simpa using ha),
        List.filter_eq_self.mpr fun b hb => by simpa using hrest b hb]
    · rw [List.eraseP_cons_of_neg (by simpa using ha), List.filter_cons_of_pos (by simpa using ha),
        ih h.2]

theorem find?_key_eq_none_iff :
    l.find? (fun a => key a = n) = none ↔ ∀ a ∈ l, key a ≠ n := by
  rw [List.find?_eq_none]
  simp

theorem find?_key_eq_some {a : α} (h : l.find? (fun a => key a = n) = some a) :
    a ∈ l ∧ key a = n :=
  ⟨List.mem_of_find?_eq_some h, by simpa using List.find?_some h⟩

theorem eq_of_key (h : (l.map key).Nodup) {a b : α} (ha : a ∈ l) (hb : b ∈ l)
    (hkey : key a = key b) : a = b :=
  List.inj_on_of_nodup_map h ha hb hkey

theorem map_change_eq_iff {f g : α → α} {a : α} (ha : a ∈ l) (hkey : key a = n)
    (h : (l.map key).Nodup) :
    l.map (fun a => if key a = n then f a else a) = l.map (fun a => if key a = n then g a else a) ↔
      f a = g a := by
  rw [List.map_inj_left]
  constructor
  · intro hall
    have := hall a ha
    rwa [if_pos hkey, if_pos hkey] at this
  · intro heq b hb
    by_cases hb' : key b = n
    · have hab := eq_of_key key h hb ha (hb'.trans hkey.symm)
      rw [if_pos hb', if_pos hb', hab, heq]
    · rw [if_neg hb', if_neg hb']

end Lists

section Instances

variable {psm psm' : Tables} {table : CStr} {n : ULONG}

theorem mem_instances_iff :
    n ∈ psmGetNextLevelInstances psm table ↔ n.toNat ∈ psm.listed table := by
  unfold psmGetNextLevelInstances
  rw [List.mem_map]
  constructor
  · rintro ⟨k, hk, rfl⟩
    rw [List.mem_filter, decide_eq_true_eq] at hk
    rw [BitVec.toNat_ofNat, Nat.mod_eq_of_lt hk.2]
    exact hk.1
  · intro hn
    refine ⟨n.toNat, List.mem_filter.mpr ⟨hn, ?_⟩, ?_⟩
    · simpa using n.isLt
    · rw [BitVec.ofNat_toNat, BitVec.setWidth_eq]

theorem instances_nodup (psm : Tables) (table : CStr) :
    (psmGetNextLevelInstances psm table).Nodup := by
  apply List.Nodup.map_on
  · intro a ha b hb heq
    rw [List.mem_filter, decide_eq_true_eq] at ha hb
    have := congrArg BitVec.toNat heq
    rwa [BitVec.toNat_ofNat, BitVec.toNat_ofNat, Nat.mod_eq_of_lt ha.2, Nat.mod_eq_of_lt hb.2]
      at this
  · exact (psm.nodup table).filter _

theorem instances_congr (h : psm'.listed table = psm.listed table) :
    psmGetNextLevelInstances psm' table = psmGetNextLevelInstances psm table := by
  unfold psmGetNextLevelInstances
  rw [h]

theorem instances_append (h : psm'.listed table = psm.listed table ++ [n.toNat]) :
    psmGetNextLevelInstances psm' table = psmGetNextLevelInstances psm table ++ [n] := by
  unfold psmGetNextLevelInstances
  rw [h, List.filter_append, List.map_append, List.filter_cons_of_pos (by simpa using n.isLt)]
  simp

theorem instances_filter (h : psm'.listed table = (psm.listed table).filter (· ≠ n.toNat)) :
    psmGetNextLevelInstances psm' table = (psmGetNextLevelInstances psm table).filter (· ≠ n) := by
  unfold psmGetNextLevelInstances
  rw [h, List.filter_map, List.filter_filter, List.filter_filter]
  congr 1
  apply List.filter_congr
  intro k _
  by_cases hk : k < 2 ^ 32
  · have hne : BitVec.ofNat 32 k = n ↔ k = n.toNat := by
      rw [← BitVec.toNat_inj, BitVec.toNat_ofNat, Nat.mod_eq_of_lt hk]
    rw [Bool.and_comm]
    simp [hne]
  · rw [decide_eq_false hk, Bool.false_and, Bool.and_false]

end Instances

section Names

variable {s : CStr}

theorem poolPath_prefix_iff {n k : ULONG} : poolPath n <+: poolPath k ++ s ↔ n = k := by
  unfold poolPath
  rw [instancePath_prefix_self_iff, BitVec.toNat_inj]

theorem optionPath_eq (n m : ULONG) :
    optionPath n m = poolPath n ++ instancePath "Option.".toList m.toNat := by
  unfold optionPath optionTable instancePath
  simp only [List.append_assoc]

theorem optionPath_prefix_iff {n m k : ULONG} :
    optionPath n m <+: poolPath k ++ s ↔ n = k ∧ instancePath "Option.".toList m.toNat <+: s := by
  rw [optionPath_eq]
  unfold poolPath
  rw [instancePath_prefix_iff, BitVec.toNat_inj]

theorem optionPath_prefix_option_iff {n m k j : ULONG} :
    optionPath n m <+: optionPath k j ++ s ↔ n = k ∧ m = j := by
  rw [optionPath_eq k j, List.append_assoc, optionPath_prefix_iff, instancePath_prefix_self_iff,
    BitVec.toNat_inj]

theorem not_option_prefix (h : ¬"Option.".toList <+: s) (n m k : ULONG) :
    ¬optionPath n m <+: poolPath k ++ s := by
  rw [optionPath_prefix_iff]
  rintro ⟨-, hs⟩
  exact h ((List.prefix_append _ _).trans ((List.prefix_append _ _).trans hs))

theorem cfgNames_plain : ∀ f ∈ cfgFields,
    ¬"Option.".toList <+: f.writeName ∧ ¬"Option.".toList <+: f.readName :=
  forall_cfgFields.mpr (by decide +kernel)

theorem poolPath_prefix_optionPath (n m : ULONG) : poolPath n <+: optionPath n m := by
  rw [optionPath_eq]
  exact List.prefix_append _ _

end Names

variable {p : Pool} {n : ULONG} {psm psm' : Tables}

section Effects

/-- Two stores agree on every pool but one. -/
structure AgreeOff (n : ULONG) (psm psm' : Tables) : Prop where
  value : ∀ k t, k ≠ n → psm'.value (poolPath k ++ t) = psm.value (poolPath k ++ t)
  listed : ∀ k, k ≠ n → psm'.listed (optionTable k) = psm.listed (optionTable k)

theorem cfgStored_congr {c : PoolCfg} (h : CfgStored psm c)
    (hvalue : ∀ f ∈ cfgFields, psm'.value (poolPath c.InstanceNumber ++ f.readName) =
      psm.value (poolPath c.InstanceNumber ++ f.readName)) : CfgStored psm' c :=
  fun f hf => (StoredField.loaded_congr (hvalue f hf) _).trans (h f hf)

theorem optionStored_congr {o : PoolOption}
    (h : OptionStored psm n o)
    (hvalue : ∀ t, psm'.value (optionPath n o.InstanceNumber ++ t) =
      psm.value (optionPath n o.InstanceNumber ++ t)) : OptionStored psm' n o :=
  fun f hf => (StoredField.loaded_congr (hvalue f.readName) _).trans (h f hf)

theorem PoolStored.of_agreeOff (h : AgreeOff n psm psm')
    (hp : PoolStored psm p) (hne : p.Cfg.InstanceNumber ≠ n) : PoolStored psm' p where
  cfg := cfgStored_congr hp.cfg fun f _ => h.value _ f.readName hne
  listed := by rw [hp.listed, instances_congr (h.listed _ hne)]
  options := fun o ho => optionStored_congr (hp.options o ho) fun t => by
    rw [optionPath_eq, List.append_assoc]
    exact h.value _ _ hne

theorem poolPath_append_ne {n k : ULONG} (h : k ≠ n) (s t : CStr) :
    poolPath k ++ s ≠ poolPath n ++ t := by
  intro heq
  have hprefix : poolPath k <+: poolPath n ++ t := ⟨s, heq⟩
  exact h (poolPath_prefix_iff.mp hprefix)

variable (new : PoolCfg) (s : Saving PoolCfg)

/-- What writing a configuration leaves alone. -/
structure CfgFrame (n : ULONG) (psm psm' : Tables) : Prop where
  off : AgreeOff n psm psm'
  options : ∀ m t, psm'.value (optionPath n m ++ t) = psm.value (optionPath n m ++ t)
  listed : psm'.listed (optionTable n) = psm.listed (optionTable n)

theorem cfgWrite_frame :
    CfgFrame new.InstanceNumber s.psm (writeDHCPv4ServerPoolCFGToPSM new s).psm := by
  have hlisted : ∀ k, (writeDHCPv4ServerPoolCFGToPSM new s).psm.listed (optionTable k) =
      s.psm.listed (optionTable k) := by
    intro k
    apply listed_writeAll_of_none cfgLayout
    intro f hf j hprefix
    rw [← List.append_nil (instancePath _ j)] at hprefix
    have hname := (cfgNames_plain f hf).1
    unfold optionTable poolPath at hprefix
    rw [List.append_nil] at hprefix
    have hsplit : instancePath (instancePath poolTable k.toNat ++ "Option.".toList) j =
        instancePath poolTable k.toNat ++ instancePath "Option.".toList j := by
      unfold instancePath
      simp only [List.append_assoc]
    rw [hsplit, instancePath_prefix_iff] at hprefix
    exact hname (((List.prefix_append _ _).trans (List.prefix_append _ _)).trans hprefix.2)
  refine ⟨⟨fun k t hk => ?_, fun k _ => hlisted k⟩, fun m t => ?_, hlisted _⟩
  · apply value_writeAll_of_ne cfgLayout
    exact fun f _ => poolPath_append_ne hk _ _
  · apply value_writeAll_of_ne cfgLayout
    intro f hf heq
    exact not_option_prefix (cfgNames_plain f hf).1 new.InstanceNumber m new.InstanceNumber ⟨t, heq⟩

theorem cfgWrite_instances (psm : Tables) (old : PoolCfg) (r : Bool)
    (hnumber : new.InstanceNumber ∈ psmGetNextLevelInstances psm poolTable) :
    poolInstances (writeDHCPv4ServerPoolCFGToPSM new ⟨old, psm, r⟩).psm = poolInstances psm := by
  unfold poolInstances
  rw [instances_congr]
  have hpath : instancePath poolTable new.InstanceNumber.toNat <+: poolPath new.InstanceNumber :=
    List.prefix_refl _
  unfold writeDHCPv4ServerPoolCFGToPSM
  rw [listed_writeAll_of_under cfgLayout _ new _ hpath,
    addNew_of_mem (mem_instances_iff.mp hnumber), ite_self]

/-- What writing or deleting an option leaves alone. -/
structure OptionFrame (n m : ULONG) (psm psm' : Tables) : Prop where
  off : AgreeOff n psm psm'
  cfg : ∀ f ∈ cfgFields,
    psm'.value (poolPath n ++ f.readName) = psm.value (poolPath n ++ f.readName)
  options : ∀ j t, j ≠ m → psm'.value (optionPath n j ++ t) = psm.value (optionPath n j ++ t)

theorem optionPath_append_ne {n m k : ULONG} {s t : CStr} (h : k ≠ n) :
    poolPath k ++ s ≠ optionPath n m ++ t := by
  rw [optionPath_eq, List.append_assoc]
  exact poolPath_append_ne h _ _

theorem instancePath_optionTable (k : ULONG) (j : ℕ) :
    instancePath (optionTable k) j = poolPath k ++ instancePath "Option.".toList j := by
  unfold optionTable instancePath
  simp only [List.append_assoc]

theorem optionWrite_frame (n : ULONG) (new : PoolOption) (s : Saving PoolOption) :
    OptionFrame n new.InstanceNumber s.psm (writeDHCPv4ServerPoolOptionToPSM n new s).psm := by
  refine ⟨⟨fun k t hk => ?_, fun k hk => ?_⟩, fun f hf => ?_, fun j t hj => ?_⟩
  · apply value_writeAll_of_ne optionLayout
    exact fun f _ => optionPath_append_ne hk
  · apply listed_writeAll_of_none optionLayout
    intro f _ j hprefix
    rw [instancePath_optionTable, optionPath_eq, List.append_assoc] at hprefix
    unfold poolPath at hprefix
    rw [instancePath_prefix_iff, BitVec.toNat_inj] at hprefix
    exact hk hprefix.1
  · apply value_writeAll_of_ne optionLayout
    intro g _ heq
    exact not_option_prefix (cfgNames_plain f hf).2 n new.InstanceNumber n ⟨g.writeName, heq.symm⟩
  · apply value_writeAll_of_ne optionLayout
    intro g _ heq
    have hprefix : optionPath n j <+: optionPath n new.InstanceNumber ++ g.writeName := ⟨t, heq⟩
    exact hj (optionPath_prefix_option_iff.mp hprefix).2

theorem optionWrite_instances (n : ULONG) (new : PoolOption) (psm : Tables) (old : PoolOption)
    (r : Bool) (hnumber : n ∈ psmGetNextLevelInstances psm poolTable) :
    poolInstances (writeDHCPv4ServerPoolOptionToPSM n new ⟨old, psm, r⟩).psm =
      poolInstances psm := by
  unfold poolInstances
  rw [instances_congr]
  unfold writeDHCPv4ServerPoolOptionToPSM
  rw [listed_writeAll_of_under optionLayout _ new _ (poolPath_prefix_optionPath n _),
    addNew_of_mem (mem_instances_iff.mp hnumber), ite_self]

theorem deletePool_agreeOff (n : ULONG) (psm : Tables) :
    AgreeOff n psm (psm.delete (poolPath n)) := by
  constructor
  · intro k t hk
    apply Tables.value_delete_of_not
    rw [poolPath_prefix_iff]
    exact hk.symm
  · intro k hk
    apply Tables.listed_delete_of_ne
    · unfold optionTable
      rw [poolPath_prefix_iff]
      exact hk.symm
    · intro j heq
      rw [instancePath_optionTable, ← List.append_nil (poolPath n)] at heq
      exact poolPath_append_ne hk _ _ heq

theorem deleteOption_frame (n m : ULONG) (psm : Tables) :
    OptionFrame n m psm (psm.delete (optionPath n m)) := by
  refine ⟨⟨fun k t hk => ?_, fun k hk => ?_⟩, fun f hf => ?_, fun j t hj => ?_⟩
  · apply Tables.value_delete_of_not
    rw [optionPath_prefix_iff]
    exact fun h => hk h.1.symm
  · apply Tables.listed_delete_of_ne
    · unfold optionTable
      rw [optionPath_prefix_iff]
      exact fun h => hk h.1.symm
    · intro j heq
      rw [instancePath_optionTable, optionPath_eq] at heq
      exact poolPath_append_ne hk _ _ heq
  · apply Tables.value_delete_of_not
    exact not_option_prefix (cfgNames_plain f hf).2 n m n
  · apply Tables.value_delete_of_not
    rw [optionPath_prefix_option_iff]
    exact fun h => hj h.2.symm

theorem deleteOption_instances (n m : ULONG) (psm : Tables) :
    poolInstances (psm.delete (optionPath n m)) = poolInstances psm := by
  unfold poolInstances
  rw [instances_congr]
  apply Tables.listed_delete_of_ne
  · intro h
    have hlength := h.length_le
    have hpath : (optionPath n m).length = poolTable.length + (decimal n.toNat).length + 1 +
        (instancePath "Option.".toList m.toNat).length := by
      rw [optionPath_eq, List.length_append]
      simp [poolPath, instancePath, Nat.add_assoc]
    omega
  · intro k heq
    rw [optionPath_eq, ← List.append_nil (instancePath poolTable k)] at heq
    unfold poolPath at heq
    have hnil := (instancePath_append_inj.mp heq).2
    simp [instancePath] at hnil

end Effects

section Pools

variable {w : Dhcps}

theorem poolNumbers_nodup (h : Rebuilt w) : (poolNumbers w).Nodup := by
  rw [((rebuilt_iff w).mp h).1]
  exact (instances_nodup _ _).filter _

theorem optionNumbers_nodup (h : Rebuilt w) (hp : p ∈ w.g_dhcpv4_server_pool_list) :
    (p.OptionList.map PoolOption.InstanceNumber).Nodup := by
  rw [(((rebuilt_iff w).mp h).2 p hp).listed]
  exact instances_nodup _ _

theorem mem_poolNumbers_iff (h : Rebuilt w) (hn : 2 ≤ n.toNat) :
    n ∈ poolNumbers w ↔ n ∈ psmGetNextLevelInstances w.psm poolTable := by
  have hne : n ≠ 1 := by
    rintro rfl
    exact absurd hn (by decide)
  rw [((rebuilt_iff w).mp h).1, poolInstances, List.mem_filter, and_iff_left]
  exact decide_eq_true hne

theorem instance_of_mem (h : Rebuilt w) (hp : p ∈ w.g_dhcpv4_server_pool_list) :
    p.Cfg.InstanceNumber ∈ psmGetNextLevelInstances w.psm poolTable := by
  have hmem : p.Cfg.InstanceNumber ∈ poolNumbers w := List.mem_map.mpr ⟨p, hp, rfl⟩
  rw [((rebuilt_iff w).mp h).1, poolInstances, List.mem_filter] at hmem
  exact hmem.1

theorem findPool_eq_some (h : findPool n w = some p) :
    p ∈ w.g_dhcpv4_server_pool_list ∧ p.Cfg.InstanceNumber = n :=
  find?_key_eq_some number h

theorem findPool_eq_none_iff : findPool n w = none ↔
    ∀ p ∈ w.g_dhcpv4_server_pool_list, p.Cfg.InstanceNumber ≠ n :=
  find?_key_eq_none_iff number

theorem eq_of_number (h : Rebuilt w) {p q : Pool} (hp : p ∈ w.g_dhcpv4_server_pool_list)
    (hq : q ∈ w.g_dhcpv4_server_pool_list) (hnumber : q.Cfg.InstanceNumber = p.Cfg.InstanceNumber) :
    q = p :=
  eq_of_key number (poolNumbers_nodup h) hq hp hnumber

theorem changePool_eq (n : ULONG) (f : Pool → Pool) (ps : List Pool) :
    changePool n f ps = ps.map (fun p => if p.Cfg.InstanceNumber = n then f p else p) := by
  simp only [changePool, Pool.hasNumber, decide_eq_true_eq]

theorem updateFirst_pool (h : Rebuilt w) (n : ULONG) (f : Pool → Pool) :
    updateFirst (Pool.hasNumber n) f w.g_dhcpv4_server_pool_list =
      changePool n f w.g_dhcpv4_server_pool_list := by
  rw [changePool_eq]
  exact updateFirst_eq_map number (poolNumbers_nodup h) f

theorem rebuilt_change_iff (h : Rebuilt w) (hp : p ∈ w.g_dhcpv4_server_pool_list)
    {f : Pool → Pool} (hf : ∀ q, q.Cfg.InstanceNumber = p.Cfg.InstanceNumber →
      (f q).Cfg.InstanceNumber = p.Cfg.InstanceNumber)
    {psm' : Tables} (hoff : AgreeOff p.Cfg.InstanceNumber w.psm psm')
    (hinstances : poolInstances psm' = poolInstances w.psm) (r : ℕ) :
    Rebuilt ⟨changePool p.Cfg.InstanceNumber f w.g_dhcpv4_server_pool_list, psm', r⟩ ↔
      PoolStored psm' (f p) := by
  obtain ⟨hnumbers, hstored⟩ := (rebuilt_iff w).mp h
  have hkept :
      poolNumbers ⟨changePool p.Cfg.InstanceNumber f w.g_dhcpv4_server_pool_list, psm', r⟩ =
      poolNumbers w := by
    simp only [poolNumbers, changePool_eq, List.map_map]
    apply List.map_congr_left
    intro q _
    by_cases hq : q.Cfg.InstanceNumber = p.Cfg.InstanceNumber
    · simp [hq, hf q hq]
    · simp [hq]
  rw [rebuilt_iff, hkept, hnumbers, hinstances]
  simp only [changePool_eq, true_and]
  constructor
  · intro hall
    exact hall (f p) (List.mem_map.mpr ⟨p, hp, if_pos rfl⟩)
  · intro hfp q' hq'
    obtain ⟨q, hq, rfl⟩ := List.mem_map.mp hq'
    by_cases hnumber : q.Cfg.InstanceNumber = p.Cfg.InstanceNumber
    · rw [if_pos hnumber, eq_of_number h hp hq hnumber]
      exact hfp
    · rw [if_neg hnumber]
      exact (hstored q hq).of_agreeOff hoff hnumber

theorem changePool_eq_iff (h : Rebuilt w) (hp : p ∈ w.g_dhcpv4_server_pool_list)
    {f g : Pool → Pool} :
    changePool p.Cfg.InstanceNumber f w.g_dhcpv4_server_pool_list =
      changePool p.Cfg.InstanceNumber g w.g_dhcpv4_server_pool_list ↔ f p = g p := by
  rw [changePool_eq, changePool_eq]
  exact map_change_eq_iff number hp rfl (poolNumbers_nodup h)

end Pools

variable {s : Given} {c : TableCall}

theorem kept_of_refused (hs : s.Kept) {st : Status}
    (hcall : c.val.apply s.w = (st, s.w)) (hst : st ≠ .SUCCESS) : (next s c).Kept := by
  have hnext : next s c = s := by
    unfold next
    rw [hcall, if_neg hst]
  rw [hnext]
  exact hs

theorem kept_iff_of_success {w' : Dhcps}
    (hcall : c.val.apply s.w = (.SUCCESS, w')) :
    (next s c).Kept ↔ w'.g_dhcpv4_server_pool_list = c.val.give s.given ∧ Rebuilt w' := by
  have hnext : next s c = ⟨w', c.val.give s.given⟩ := by
    unfold next
    rw [hcall, if_pos rfl]
  rw [hnext]
  exact ⟨fun h => ⟨h.memory, h.store⟩, fun h => ⟨h.1, h.2⟩⟩

theorem ipInterface_prefix {c : PoolCfg} (h : onInterface c) :
    ipInterface <+: c.Interface.text := by
  obtain ⟨k, hk⟩ := h
  exact ⟨decimal k, hk.symm⟩

theorem poolStored_cfg_iff (hp : PoolStored psm p) {c : PoolCfg}
    (hnumber : c.InstanceNumber = p.Cfg.InstanceNumber)
    (hframe : CfgFrame c.InstanceNumber psm psm') :
    PoolStored psm' { p with Cfg := c } ↔ CfgStored psm' c := by
  constructor
  · exact fun h => h.cfg
  · intro h
    refine ⟨h, ?_, fun o ho => ?_⟩
    · change p.OptionList.map _ = psmGetNextLevelInstances psm' (optionTable c.InstanceNumber)
      rw [instances_congr hframe.listed, hnumber]
      exact hp.listed
    · have hstored := hp.options o ho
      rw [← hnumber] at hstored
      exact optionStored_congr hstored (hframe.options _)

variable {e : PoolCfg}

theorem setPoolCfg_kept_iff (hs : s.Kept) (h : (Call.setPoolCfg e).OnTable) :
    (next s ⟨.setPoolCfg e, h⟩).Kept ↔ Ok s ⟨.setPoolCfg e, h⟩ := by
  cases hfind : findPool e.InstanceNumber s.w with
  | none =>
    have hcall : (Call.setPoolCfg e).apply s.w = (.CANT_FIND, s.w) := by
      simp only [Call.apply, cosaDmlDhcpsSetPoolCfg, hfind]
    have hnone := findPool_eq_none_iff.mp hfind
    exact iff_of_true (kept_of_refused hs hcall (by decide))
      fun p hp hnumber => absurd hnumber (hnone p hp)
  | some p =>
    obtain ⟨hp, hnumber⟩ := findPool_eq_some hfind
    have hstored := ((rebuilt_iff s.w).mp hs.store).2 p hp
    have honly : ∀ P : Pool → Prop, (∀ q ∈ s.w.g_dhcpv4_server_pool_list,
        q.Cfg.InstanceNumber = e.InstanceNumber → P q) ↔ P p := fun P =>
      ⟨fun hall => hall p hp hnumber, fun hP q hq hqn =>
        eq_of_number hs.store hp hq (hqn.trans hnumber.symm) ▸ hP⟩
    have hok : Ok s ⟨.setPoolCfg e, h⟩ ↔
        (e.InstanceNumber = 2 ∧ publicRange e) ∨ CfgKept e p.Cfg := honly _
    rw [hok]
    by_cases hpublic : e.InstanceNumber = 2 ∧ publicRange e
    · have hcall : (Call.setPoolCfg e).apply s.w = (.FAILURE, s.w) := by
        simp only [Call.apply, cosaDmlDhcpsSetPoolCfg, hfind]
        exact if_pos hpublic
      exact iff_of_true (kept_of_refused hs hcall (by decide)) (Or.inl hpublic)
    · have hcall := kept_iff_of_success (s := s) (c := ⟨.setPoolCfg e, h⟩)
        (show (Call.setPoolCfg e).apply s.w = _ by
          simp only [Call.apply, cosaDmlDhcpsSetPoolCfg, hfind]
          exact if_neg hpublic)
      have hkept := cfg_kept_iff (r := false) ( ipInterface_prefix h.2) hnumber.symm hstored.cfg
      have hframe := cfgWrite_frame e ⟨p.Cfg, s.w.psm, false⟩
      have hinstances := cfgWrite_instances e s.w.psm p.Cfg false
        (hnumber ▸ instance_of_mem hs.store hp)
      have hold := (cfg_write_frame (poolPath e.InstanceNumber) e ⟨p.Cfg, s.w.psm, false⟩).1
      rw [hcall, or_iff_right hpublic, ← hkept, updateFirst_pool hs.store, ← hs.memory]
      change
        (writeDHCPv4ServerPoolCFGToPSM e ⟨p.Cfg, s.w.psm, false⟩).old.InstanceNumber = _ at hold
      generalize writeDHCPv4ServerPoolCFGToPSM e ⟨p.Cfg, s.w.psm, false⟩ = sv at *
      have hmemory : changePool e.InstanceNumber (fun p => { p with Cfg := sv.old })
          s.w.g_dhcpv4_server_pool_list = (Call.setPoolCfg e).give s.w.g_dhcpv4_server_pool_list ↔
          sv.old = e := by
        change changePool _ _ _ = changePool _ _ _ ↔ _
        rw [← hnumber, changePool_eq_iff hs.store hp]
        simp
      have hrebuilt := rebuilt_change_iff hs.store hp (f := fun p => { p with Cfg := sv.old })
        (fun _ _ => hold) (hnumber ▸ hframe.off) hinstances (s.w.restarts + sv.restart.toNat)
      rw [hnumber] at hrebuilt
      rw [hmemory, hrebuilt]
      apply and_congr_right
      intro heq
      rw [heq]
      exact poolStored_cfg_iff hstored hnumber.symm hframe

theorem rebuilt_append_iff {w : Dhcps} (h : Rebuilt w) {q : Pool} {psm' : Tables}
    (hoff : AgreeOff q.Cfg.InstanceNumber w.psm psm')
    (hnew : ∀ p ∈ w.g_dhcpv4_server_pool_list, p.Cfg.InstanceNumber ≠ q.Cfg.InstanceNumber)
    (hinstances : poolInstances psm' = poolInstances w.psm ++ [q.Cfg.InstanceNumber]) (r : ℕ) :
    Rebuilt ⟨w.g_dhcpv4_server_pool_list ++ [q], psm', r⟩ ↔ PoolStored psm' q := by
  obtain ⟨hnumbers, hstored⟩ := (rebuilt_iff w).mp h
  have hboth : poolNumbers ⟨w.g_dhcpv4_server_pool_list ++ [q], psm', r⟩ = poolInstances psm' := by
    rw [hinstances, ← hnumbers]
    simp [poolNumbers]
  rw [rebuilt_iff, and_iff_right hboth]
  constructor
  · intro hall
    exact hall q (List.mem_append_right _ List.mem_cons_self)
  · intro hq p hp
    rcases List.mem_append.mp hp with hp | hp
    · exact (hstored p hp).of_agreeOff hoff (hnew p hp)
    · rw [List.mem_singleton.mp hp]
      exact hq

theorem default_stored {w : Dhcps} (hn : n ∉ psmGetNextLevelInstances w.psm poolTable) :
    PoolStored w.psm ⟨defaultCfg n, 0, []⟩ := by
  have hlisted : n.toNat ∉ w.psm.listed poolTable := fun h => hn (mem_instances_iff.mpr h)
  have hvalue : ∀ t, w.psm.value (poolPath n ++ t) = none := by
    intro t
    by_contra hne
    exact hlisted (w.psm.holds poolTable _ _ hne (List.prefix_append _ _))
  have hoptions : w.psm.listed (optionTable n) = [] := by
    apply List.eq_nil_iff_forall_not_mem.mpr
    intro k hk
    exact hlisted (w.psm.nested poolTable _ _ k hk (List.prefix_append _ _))
  refine ⟨?_, ?_, fun o ho => absurd ho List.not_mem_nil⟩
  · have habsent : ∀ f ∈ cfgFields, f.absent (f.get (defaultCfg 0)) = f.get (defaultCfg n) :=
      forall_cfgFields.mpr (by and_intros <;> rfl)
    intro f hf
    exact (StoredField.loaded_of_none (hvalue f.readName) _).trans (habsent f hf)
  · change [] = psmGetNextLevelInstances w.psm (optionTable n)
    unfold psmGetNextLevelInstances
    rw [hoptions]
    rfl

theorem interface_ne_empty (h : onInterface e) (n : ULONG) :
    ∃ f ∈ cfgFields, f.get e ≠ f.get (defaultCfg n) := by
  have hmem := forall_cfgFields.mp (fun f (hf : f ∈ cfgFields) => hf)
  refine ⟨cfgInterface, hmem.2.2.1, fun heq => ?_⟩
  obtain ⟨k, hk⟩ := h
  have htext : e.Interface.text = [] := congrArg Buf.text heq
  rw [htext] at hk
  exact absurd hk.symm (List.append_ne_nil_of_left_ne_nil (by decide) _)

theorem addPool_kept_iff (hs : s.Kept) (h : (Call.addPool e).OnTable) :
    (next s ⟨.addPool e, h⟩).Kept ↔ Ok s ⟨.addPool e, h⟩ := by
  have hcall := kept_iff_of_success (s := s) (c := ⟨.addPool e, h⟩)
    (show (Call.addPool e).apply s.w = (.SUCCESS, (cosaDmlDhcpsAddPool e s.w).2) from rfl)
  rw [hcall, ← hs.memory]
  by_cases hnew : ∀ p ∈ s.w.g_dhcpv4_server_pool_list, p.Cfg.InstanceNumber ≠ e.InstanceNumber
  · have hone : e.InstanceNumber ≠ 1 := by
      intro heq
      exact absurd (heq ▸ h.1) (by decide)
    have hmem : e.InstanceNumber ∉ psmGetNextLevelInstances s.w.psm poolTable := by
      rw [← mem_poolNumbers_iff hs.store h.1]
      intro hmem
      obtain ⟨p, hp, hnumber⟩ := List.mem_map.mp hmem
      exact hnew p hp hnumber
    have hdefault := default_stored hmem
    have hkept := cfg_kept_iff (r := false) ( ipInterface_prefix h.2)
      (show e.InstanceNumber = (defaultCfg e.InstanceNumber).InstanceNumber from rfl) hdefault.cfg
    have hframe := cfgWrite_frame e ⟨defaultCfg e.InstanceNumber, s.w.psm, false⟩
    have hold := (cfg_write_frame (poolPath e.InstanceNumber) e
      ⟨defaultCfg e.InstanceNumber, s.w.psm, false⟩).1
    have hlisted := listed_writeAll_of_under cfgLayout (poolPath e.InstanceNumber) e
      ⟨defaultCfg e.InstanceNumber, s.w.psm, false⟩ (List.prefix_refl _)
    rw [if_pos (interface_ne_empty h.2 e.InstanceNumber),
      addNew_of_notMem (fun hl => hmem (mem_instances_iff.mpr hl))] at hlisted
    have hgive : (Call.addPool e).give s.w.g_dhcpv4_server_pool_list =
        s.w.g_dhcpv4_server_pool_list ++ [⟨e, 0, []⟩] := by
      have hany : s.w.g_dhcpv4_server_pool_list.any (Pool.hasNumber e.InstanceNumber) = false := by
        rw [List.any_eq_false]
        exact fun p hp => by simpa [Pool.hasNumber] using hnew p hp
      simp only [Call.give, hany]
      rfl
    have hok : Ok s ⟨.addPool e, h⟩ ↔ CfgKept e (defaultCfg e.InstanceNumber) :=
      and_iff_right hnew
    rw [hok, hgive, ← hkept]
    change (writeDHCPv4ServerPoolCFGToPSM e _).psm.listed poolTable = _ at hlisted
    change (writeDHCPv4ServerPoolCFGToPSM e _).old.InstanceNumber = e.InstanceNumber at hold
    simp only [cosaDmlDhcpsAddPool]
    generalize writeDHCPv4ServerPoolCFGToPSM e ⟨defaultCfg e.InstanceNumber, s.w.psm, false⟩ = sv
      at *
    have hinstances : poolInstances sv.psm = poolInstances s.w.psm ++ [e.InstanceNumber] := by
      unfold poolInstances
      rw [instances_append hlisted, List.filter_append,
        List.filter_cons_of_pos (by simpa using hone)]
      rfl
    have hmemory : s.w.g_dhcpv4_server_pool_list ++ [⟨sv.old, 0, []⟩] =
        s.w.g_dhcpv4_server_pool_list ++ [⟨e, 0, []⟩] ↔ sv.old = e := by
      simp
    rw [hmemory]
    apply and_congr_right
    intro heq
    rw [heq, rebuilt_append_iff hs.store hframe.off hnew hinstances]
    exact poolStored_cfg_iff hdefault rfl hframe
  · have hgive : ((Call.addPool e).give s.w.g_dhcpv4_server_pool_list).length =
        s.w.g_dhcpv4_server_pool_list.length := by
      have hany : s.w.g_dhcpv4_server_pool_list.any (Pool.hasNumber e.InstanceNumber) = true := by
        rw [List.any_eq_true]
        simpa [Pool.hasNumber] using hnew
      simp only [Call.give, hany, if_true, changePool, List.length_map]
    apply iff_of_false
    · rintro ⟨hmemory, -⟩
      rw [← hmemory] at hgive
      simp [cosaDmlDhcpsAddPool] at hgive
    · exact fun hok => hnew hok.1

theorem delPool_kept (hs : s.Kept) (h : (Call.delPool n).OnTable) :
    (next s ⟨.delPool n, h⟩).Kept := by
  have hkeep : (Call.delPool n).apply s.w = (.CANT_FIND, s.w) →
      (next s ⟨.delPool n, h⟩).Kept := fun hcall => kept_of_refused hs hcall (by decide)
  cases hfind : findPool n s.w with
  | none => exact hkeep (by simp only [Call.apply, cosaDmlDhcpsDelPool, hfind])
  | some p =>
    by_cases hstatic : p.StaticAddressList ≠ 0
    · exact hkeep (by simp only [Call.apply, cosaDmlDhcpsDelPool, hfind, if_pos hstatic])
    · by_cases hoptions : p.OptionList ≠ []
      · exact hkeep (by
          simp only [Call.apply, cosaDmlDhcpsDelPool, hfind, if_neg hstatic, if_pos hoptions])
      · have hcall := kept_iff_of_success (s := s) (c := ⟨.delPool n, h⟩)
          (show (Call.delPool n).apply s.w = (.SUCCESS,
              ⟨s.w.g_dhcpv4_server_pool_list.eraseP (Pool.hasNumber n),
                s.w.psm.delete (poolPath n), s.w.restarts + 1⟩) by
            simp only [Call.apply, cosaDmlDhcpsDelPool, hfind, if_neg hstatic, if_neg hoptions])
        obtain ⟨hnumbers, hstored⟩ := (rebuilt_iff s.w).mp hs.store
        have herase : s.w.g_dhcpv4_server_pool_list.eraseP (Pool.hasNumber n) =
            s.w.g_dhcpv4_server_pool_list.filter (fun p => !p.hasNumber n) :=
          eraseP_eq_filter number (poolNumbers_nodup hs.store)
        rw [hcall, herase, ← hs.memory, rebuilt_iff]
        refine ⟨rfl, ?_, fun q hq => ?_⟩
        · have hinstances : poolInstances (s.w.psm.delete (poolPath n)) =
              (poolInstances s.w.psm).filter (· ≠ n) := by
            unfold poolInstances poolPath
            rw [instances_filter (Tables.listed_delete_self s.w.psm poolTable n.toNat),
              List.filter_filter, List.filter_filter]
            apply List.filter_congr
            exact fun k _ => Bool.and_comm _ _
          rw [hinstances, ← hnumbers]
          simp only [poolNumbers]
          rw [List.filter_map]
          congr 1
          apply List.filter_congr
          intro q _
          simp [Pool.hasNumber]
        · rw [List.mem_filter] at hq
          have hne : q.Cfg.InstanceNumber ≠ n := by simpa [Pool.hasNumber] using hq.2
          exact (hstored q hq.1).of_agreeOff (deletePool_agreeOff n s.w.psm) hne

variable {m : ULONG}

section Options

variable {psm psm' : Tables} {p : Pool} {e : PoolOption}

theorem poolStored_frame (hp : PoolStored psm p)
    (hframe : OptionFrame p.Cfg.InstanceNumber m psm psm') :
    CfgStored psm' p.Cfg ∧ ∀ o ∈ p.OptionList, o.InstanceNumber ≠ m →
      OptionStored psm' p.Cfg.InstanceNumber o :=
  ⟨cfgStored_congr hp.cfg hframe.cfg, fun o ho hne =>
    optionStored_congr (hp.options o ho) fun t => hframe.options _ t hne⟩

theorem poolStored_append_iff (hp : PoolStored psm p)
    (hframe : OptionFrame p.Cfg.InstanceNumber e.InstanceNumber psm psm')
    (hnew : ∀ o ∈ p.OptionList, o.InstanceNumber ≠ e.InstanceNumber)
    (hlisted : psmGetNextLevelInstances psm' (optionTable p.Cfg.InstanceNumber) =
      psmGetNextLevelInstances psm (optionTable p.Cfg.InstanceNumber) ++ [e.InstanceNumber]) :
    PoolStored psm' { p with OptionList := p.OptionList ++ [e] } ↔
      OptionStored psm' p.Cfg.InstanceNumber e := by
  obtain ⟨hcfg, hothers⟩ := poolStored_frame hp hframe
  constructor
  · intro h
    exact h.options e (List.mem_append_right _ List.mem_cons_self)
  · intro h
    refine ⟨hcfg, ?_, fun o ho => ?_⟩
    · rw [hlisted, ← hp.listed]
      simp
    · rcases List.mem_append.mp ho with ho | ho
      · exact hothers o ho (hnew o ho)
      · rw [List.mem_singleton.mp ho]
        exact h

theorem poolStored_replace_iff (hp : PoolStored psm p)
    (hframe : OptionFrame p.Cfg.InstanceNumber e.InstanceNumber psm psm')
    {o : PoolOption} (ho : o ∈ p.OptionList) (hnumber : o.InstanceNumber = e.InstanceNumber)
    (hlisted : psmGetNextLevelInstances psm' (optionTable p.Cfg.InstanceNumber) =
      psmGetNextLevelInstances psm (optionTable p.Cfg.InstanceNumber)) :
    PoolStored psm' { p with
        OptionList := p.OptionList.map fun o =>
          if o.InstanceNumber = e.InstanceNumber then e else o } ↔
      OptionStored psm' p.Cfg.InstanceNumber e := by
  obtain ⟨hcfg, hothers⟩ := poolStored_frame hp hframe
  constructor
  · intro h
    exact h.options e (List.mem_map.mpr ⟨o, ho, if_pos hnumber⟩)
  · intro h
    refine ⟨hcfg, ?_, fun o' ho' => ?_⟩
    · rw [hlisted, ← hp.listed, List.map_map]
      apply List.map_congr_left
      intro q _
      by_cases hq : q.InstanceNumber = e.InstanceNumber
      · simp [hq]
      · simp [hq]
    · obtain ⟨q, hq, rfl⟩ := List.mem_map.mp ho'
      by_cases hqn : q.InstanceNumber = e.InstanceNumber
      · rw [if_pos hqn]
        exact h
      · rw [if_neg hqn]
        exact hothers q hq hqn

theorem defaultOption_stored (hp : PoolStored psm p)
    (hnew : ∀ o ∈ p.OptionList, o.InstanceNumber ≠ m) :
    OptionStored psm p.Cfg.InstanceNumber (defaultOption m) := by
  have hlisted : m.toNat ∉ psm.listed (optionTable p.Cfg.InstanceNumber) := by
    rw [← mem_instances_iff, ← hp.listed]
    intro hmem
    obtain ⟨o, ho, hnumber⟩ := List.mem_map.mp hmem
    exact hnew o ho hnumber
  have hvalue : ∀ t, psm.value (optionPath p.Cfg.InstanceNumber m ++ t) = none := by
    intro t
    by_contra hne
    exact hlisted (psm.holds _ _ _ hne (List.prefix_append _ _))
  have habsent : ∀ f ∈ optionFields, f.absent (f.get (defaultOption 0)) = f.get (defaultOption m) :=
    forall_optionFields.mpr (by and_intros <;> rfl)
  intro f hf
  exact (StoredField.loaded_of_none (hvalue f.readName) _).trans (habsent f hf)

theorem option_differs_iff (hvalue : OptionKept e (defaultOption e.InstanceNumber)) :
    (∃ f ∈ optionFields, f.get e ≠ f.get (defaultOption e.InstanceNumber)) ↔
      (e.bEnabled = true ∨ e.Alias ≠ Buf.empty ∨ e.Tag ≠ 0) := by
  have hall := forall_optionFields
    (P := fun f => f.get e = f.get (defaultOption e.InstanceNumber))
  constructor
  · intro hdiffers
    by_contra hnone
    rw [not_or, not_or, not_not, not_not] at hnone
    obtain ⟨f, hf, hne⟩ := hdiffers
    exact hne (hall.mpr ⟨(Bool.not_eq_true _).mp hnone.1, hnone.2.1, hnone.2.2, hvalue⟩ f hf)
  · intro hflags
    by_contra hnone
    have hsame := hall.mp fun f hf => by
      by_contra hne
      exact hnone ⟨f, hf, hne⟩
    rcases hflags with hflag | hflag | hflag
    · exact absurd (show true = false from hflag.symm.trans hsame.1) (by decide)
    · exact hflag hsame.2.1
    · exact hflag hsame.2.2.1

end Options

section OptionCalls

variable {s : Given} {n : ULONG}

theorem noPool_kept (hs : s.Kept) (hcall : c.val.apply s.w = (.CANT_FIND, s.w)) : (next s c).Kept :=
  kept_of_refused hs hcall (by decide)

theorem forall_number_iff (hs : s.Kept) (hp : p ∈ s.w.g_dhcpv4_server_pool_list)
    (P : Pool → Prop) : (∀ q ∈ s.w.g_dhcpv4_server_pool_list,
      q.Cfg.InstanceNumber = p.Cfg.InstanceNumber → P q) ↔ P p :=
  ⟨fun hall => hall p hp rfl, fun hP _ hq hqn => eq_of_number hs.store hp hq hqn ▸ hP⟩

theorem addOption_kept_iff (hs : s.Kept) {e : PoolOption} (h : (Call.addOption n e).OnTable) :
    (next s ⟨.addOption n e, h⟩).Kept ↔ Ok s ⟨.addOption n e, h⟩ := by
  cases hfind : findPool n s.w with
  | none =>
    have hcall : (Call.addOption n e).apply s.w = (.CANT_FIND, s.w) := by
      simp only [Call.apply, cosaDmlDhcpsAddOption, hfind]
    exact iff_of_true (noPool_kept hs hcall)
      fun p hp hnumber => absurd hnumber (findPool_eq_none_iff.mp hfind p hp)
  | some p =>
    obtain ⟨hp, rfl⟩ := findPool_eq_some hfind
    have hstored := ((rebuilt_iff s.w).mp hs.store).2 p hp
    have hcall := kept_iff_of_success (s := s) (c := ⟨.addOption p.Cfg.InstanceNumber e, h⟩)
      (show (Call.addOption p.Cfg.InstanceNumber e).apply s.w = _ by
        simp only [Call.apply, cosaDmlDhcpsAddOption, hfind]
        rfl)
    have hok : Ok s ⟨.addOption p.Cfg.InstanceNumber e, h⟩ ↔
        (∀ o ∈ p.OptionList, o.InstanceNumber ≠ e.InstanceNumber) ∧
          OptionKept e (defaultOption e.InstanceNumber) ∧
          (e.bEnabled = true ∨ e.Alias ≠ Buf.empty ∨ e.Tag ≠ 0) := forall_number_iff hs hp _
    have hframe := optionWrite_frame p.Cfg.InstanceNumber e
      ⟨defaultOption e.InstanceNumber, s.w.psm, false⟩
    have hinstances := optionWrite_instances p.Cfg.InstanceNumber e s.w.psm
      (defaultOption e.InstanceNumber) false (instance_of_mem hs.store hp)
    have hlisted := listed_writeAll_of_under optionLayout
      (optionPath p.Cfg.InstanceNumber e.InstanceNumber) e
      ⟨defaultOption e.InstanceNumber, s.w.psm, false⟩ (List.prefix_refl _)
    have hcopy : (writeDHCPv4ServerPoolOptionToPSM p.Cfg.InstanceNumber e
        ⟨defaultOption e.InstanceNumber, s.w.psm, false⟩).old = e →
        OptionKept e (defaultOption e.InstanceNumber) := optionKept_of_copy p.Cfg.InstanceNumber
    have hkept := fun hnew => option_kept_iff (r := false) p.Cfg.InstanceNumber
      (show e.InstanceNumber = (defaultOption e.InstanceNumber).InstanceNumber from rfl)
      (defaultOption_stored hstored (m := e.InstanceNumber) hnew)
    change (writeDHCPv4ServerPoolOptionToPSM _ e _).psm.listed (optionTable _) = _ at hlisted
    rw [hcall, hok, ← hs.memory]
    generalize writeDHCPv4ServerPoolOptionToPSM p.Cfg.InstanceNumber e
      ⟨defaultOption e.InstanceNumber, s.w.psm, false⟩ = sv at *
    have hmemory : setOptions p.Cfg.InstanceNumber (· ++ [sv.old]) s.w =
        (Call.addOption p.Cfg.InstanceNumber e).give s.w.g_dhcpv4_server_pool_list ↔
        p.OptionList ++ [sv.old] = putOption e p.OptionList := by
      unfold setOptions
      rw [updateFirst_pool hs.store]
      change changePool _ _ _ = changePool _ _ _ ↔ _
      rw [changePool_eq_iff hs.store hp]
      simp
    have hrebuilt := rebuilt_change_iff hs.store hp
      (f := fun p => { p with OptionList := p.OptionList ++ [sv.old] }) (fun _ hq => hq)
      hframe.off hinstances (s.w.restarts + sv.restart.toNat)
    rw [← updateFirst_pool hs.store] at hrebuilt
    change Rebuilt ⟨setOptions p.Cfg.InstanceNumber (· ++ [sv.old]) s.w, _, _⟩ ↔ _ at hrebuilt
    rw [hmemory, hrebuilt]
    by_cases hnew : ∀ o ∈ p.OptionList, o.InstanceNumber ≠ e.InstanceNumber
    · have hput : putOption e p.OptionList = p.OptionList ++ [e] := by
        have hany : p.OptionList.any (PoolOption.hasNumber e.InstanceNumber) = false := by
          rw [List.any_eq_false]
          exact fun o ho => by simpa [PoolOption.hasNumber] using hnew o ho
        simp only [putOption, hany]
        rfl
      have happend : p.OptionList ++ [sv.old] = p.OptionList ++ [e] ↔ sv.old = e := by simp
      have hfresh : e.InstanceNumber.toNat ∉ s.w.psm.listed (optionTable p.Cfg.InstanceNumber) := by
        rw [← mem_instances_iff, ← hstored.listed]
        intro hmem
        obtain ⟨o, ho, hnumber⟩ := List.mem_map.mp hmem
        exact hnew o ho hnumber
      rw [hput, happend, and_iff_right hnew]
      constructor
      · rintro ⟨heq, hpool⟩
        have hvalue := hcopy heq
        refine ⟨hvalue, (option_differs_iff hvalue).mp ?_⟩
        by_contra hsame
        rw [if_neg hsame] at hlisted
        have hnumbers := hpool.listed
        change (p.OptionList ++ [sv.old]).map _ = psmGetNextLevelInstances sv.psm (optionTable _)
          at hnumbers
        rw [instances_congr hlisted, ← hstored.listed] at hnumbers
        simpa using congrArg List.length hnumbers
      · rintro ⟨hvalue, hflags⟩
        rw [if_pos ((option_differs_iff hvalue).mpr hflags), addNew_of_notMem hfresh] at hlisted
        obtain ⟨heq, hoption⟩ := (hkept hnew).mpr hvalue
        refine ⟨heq, ?_⟩
        rw [heq]
        exact (poolStored_append_iff hstored hframe hnew (instances_append hlisted)).mpr hoption
    · apply iff_of_false
      · rintro ⟨hmem, -⟩
        have hany : p.OptionList.any (PoolOption.hasNumber e.InstanceNumber) = true := by
          rw [List.any_eq_true]
          simpa [PoolOption.hasNumber] using hnew
        simp only [putOption, hany, if_true] at hmem
        simpa using congrArg List.length hmem
      · exact fun h => hnew h.1

theorem setOption_kept_iff (hs : s.Kept) {e : PoolOption} (h : (Call.setOption n e).OnTable) :
    (next s ⟨.setOption n e, h⟩).Kept ↔ Ok s ⟨.setOption n e, h⟩ := by
  cases hfind : findPool n s.w with
  | none =>
    have hcall : (Call.setOption n e).apply s.w = (.CANT_FIND, s.w) := by
      simp only [Call.apply, cosaDmlDhcpsSetOption, hfind]
    exact iff_of_true (noPool_kept hs hcall)
      fun p hp hnumber => absurd hnumber (findPool_eq_none_iff.mp hfind p hp)
  | some p =>
    obtain ⟨hp, rfl⟩ := findPool_eq_some hfind
    have hstored := ((rebuilt_iff s.w).mp hs.store).2 p hp
    have hnodup := optionNumbers_nodup hs.store hp
    have hok : Ok s ⟨.setOption p.Cfg.InstanceNumber e, h⟩ ↔ ∀ o ∈ p.OptionList,
        o.InstanceNumber = e.InstanceNumber → OptionKept e o := forall_number_iff hs hp _
    cases hoption : p.OptionList.find? (PoolOption.hasNumber e.InstanceNumber) with
    | none =>
      have hcall : (Call.setOption p.Cfg.InstanceNumber e).apply s.w = (.CANT_FIND, s.w) := by
        simp only [Call.apply, cosaDmlDhcpsSetOption, hfind, hoption]
      have hnone := (find?_key_eq_none_iff PoolOption.InstanceNumber).mp hoption
      exact iff_of_true (noPool_kept hs hcall)
        (hok.mpr fun o ho hnumber => absurd hnumber (hnone o ho))
    | some o =>
      obtain ⟨ho, hnumber⟩ := find?_key_eq_some PoolOption.InstanceNumber hoption
      have hone : (∀ q ∈ p.OptionList, q.InstanceNumber = e.InstanceNumber → OptionKept e q) ↔
          OptionKept e o :=
        ⟨fun hall => hall o ho hnumber, fun hkept q hq hqn =>
          eq_of_key PoolOption.InstanceNumber hnodup hq ho (hqn.trans hnumber.symm) ▸ hkept⟩
      have hcall := kept_iff_of_success (s := s) (c := ⟨.setOption p.Cfg.InstanceNumber e, h⟩)
        (show (Call.setOption p.Cfg.InstanceNumber e).apply s.w = _ by
          simp only [Call.apply, cosaDmlDhcpsSetOption, hfind, hoption]
          rfl)
      have hframe := optionWrite_frame p.Cfg.InstanceNumber e ⟨o, s.w.psm, false⟩
      have hinstances := optionWrite_instances p.Cfg.InstanceNumber e s.w.psm o false
        (instance_of_mem hs.store hp)
      have hlisted := listed_writeAll_of_under optionLayout
        (optionPath p.Cfg.InstanceNumber e.InstanceNumber) e ⟨o, s.w.psm, false⟩
        (List.prefix_refl _)
      have hmem : e.InstanceNumber.toNat ∈ s.w.psm.listed (optionTable p.Cfg.InstanceNumber) := by
        rw [← mem_instances_iff, ← hstored.listed]
        exact List.mem_map.mpr ⟨o, ho, hnumber⟩
      rw [addNew_of_mem hmem, ite_self] at hlisted
      have hkept := option_kept_iff (r := false) p.Cfg.InstanceNumber hnumber.symm
        (hstored.options o ho)
      change (writeDHCPv4ServerPoolOptionToPSM _ e _).psm.listed (optionTable _) = _ at hlisted
      rw [hcall, hok, hone, ← hkept, ← hs.memory]
      generalize writeDHCPv4ServerPoolOptionToPSM p.Cfg.InstanceNumber e ⟨o, s.w.psm, false⟩ = sv
        at *
      have hfirst : updateFirst (PoolOption.hasNumber e.InstanceNumber) (fun _ => sv.old)
          p.OptionList = p.OptionList.map
            fun q => if q.InstanceNumber = e.InstanceNumber then sv.old else q :=
        updateFirst_eq_map PoolOption.InstanceNumber hnodup _
      have hmemory : setOptions p.Cfg.InstanceNumber
          (updateFirst (PoolOption.hasNumber e.InstanceNumber) fun _ => sv.old) s.w =
          (Call.setOption p.Cfg.InstanceNumber e).give s.w.g_dhcpv4_server_pool_list ↔
          sv.old = e := by
        unfold setOptions
        rw [updateFirst_pool hs.store]
        change changePool _ _ _ = changePool _ _ _ ↔ _
        rw [changePool_eq_iff hs.store hp]
        simp only [Pool.mk.injEq, true_and, hfirst, PoolOption.hasNumber, decide_eq_true_eq]
        exact map_change_eq_iff PoolOption.InstanceNumber ho hnumber hnodup
      have hrebuilt := rebuilt_change_iff hs.store hp
        (f := fun p => { p with
          OptionList := updateFirst (PoolOption.hasNumber e.InstanceNumber) (fun _ => sv.old)
            p.OptionList })
        (fun _ hq => hq) hframe.off hinstances (s.w.restarts + sv.restart.toNat)
      rw [← updateFirst_pool hs.store] at hrebuilt
      change Rebuilt ⟨setOptions p.Cfg.InstanceNumber (updateFirst _ fun _ => sv.old) s.w, _, _⟩ ↔ _
        at hrebuilt
      rw [hmemory, hrebuilt]
      apply and_congr_right
      intro heq
      rw [hfirst, heq]
      exact poolStored_replace_iff hstored hframe ho hnumber (instances_congr hlisted)

theorem delOption_kept (hs : s.Kept) (h : (Call.delOption n m).OnTable) :
    (next s ⟨.delOption n m, h⟩).Kept := by
  cases hfind : findPool n s.w with
  | none =>
    exact noPool_kept hs (show (Call.delOption n m).apply s.w = (.CANT_FIND, s.w) by
      simp only [Call.apply, cosaDmlDhcpsDelOption, hfind])
  | some p =>
    obtain ⟨hp, rfl⟩ := findPool_eq_some hfind
    have hstored := ((rebuilt_iff s.w).mp hs.store).2 p hp
    have hnodup := optionNumbers_nodup hs.store hp
    cases hoption : p.OptionList.find? (PoolOption.hasNumber m) with
    | none =>
      exact noPool_kept hs
        (show (Call.delOption p.Cfg.InstanceNumber m).apply s.w = (.CANT_FIND, s.w) by
          simp only [Call.apply, cosaDmlDhcpsDelOption, hfind, hoption])
    | some o =>
      have hcall := kept_iff_of_success (s := s) (c := ⟨.delOption p.Cfg.InstanceNumber m, h⟩)
        (show (Call.delOption p.Cfg.InstanceNumber m).apply s.w = _ by
          simp only [Call.apply, cosaDmlDhcpsDelOption, hfind, hoption]
          rfl)
      have hframe := deleteOption_frame p.Cfg.InstanceNumber m s.w.psm
      have hlisted := Tables.listed_delete_self s.w.psm (optionTable p.Cfg.InstanceNumber) m.toNat
      have herase : p.OptionList.eraseP (PoolOption.hasNumber m) =
          p.OptionList.filter fun o => !PoolOption.hasNumber m o :=
        eraseP_eq_filter PoolOption.InstanceNumber hnodup
      have hmemory : setOptions p.Cfg.InstanceNumber (List.eraseP (PoolOption.hasNumber m)) s.w =
          (Call.delOption p.Cfg.InstanceNumber m).give s.w.g_dhcpv4_server_pool_list := by
        unfold setOptions
        rw [updateFirst_pool hs.store]
        change changePool _ _ _ = changePool _ _ _
        rw [changePool_eq_iff hs.store hp, herase]
      have hrebuilt := rebuilt_change_iff hs.store hp
        (f := fun p => { p with OptionList := p.OptionList.eraseP (PoolOption.hasNumber m) })
        (fun _ hq => hq) hframe.off (deleteOption_instances p.Cfg.InstanceNumber m s.w.psm)
        (s.w.restarts + 1)
      rw [← updateFirst_pool hs.store] at hrebuilt
      change Rebuilt ⟨setOptions p.Cfg.InstanceNumber (List.eraseP _) s.w, _, _⟩ ↔ _ at hrebuilt
      rw [hcall, ← hs.memory]
      refine ⟨hmemory, hrebuilt.mpr ?_⟩
      obtain ⟨hcfg, hothers⟩ := poolStored_frame hstored hframe
      rw [herase]
      refine ⟨hcfg, ?_, fun q hq => ?_⟩
      · change (p.OptionList.filter _).map _ = psmGetNextLevelInstances (s.w.psm.delete _) _
        unfold optionPath
        rw [instances_filter hlisted, ← hstored.listed, List.filter_map]
        congr 1
        apply List.filter_congr
        intro q _
        simp [PoolOption.hasNumber]
      · rw [List.mem_filter] at hq
        exact hothers q hq.1 (by simpa [PoolOption.hasNumber] using hq.2)

end OptionCalls

theorem next_kept_iff (hs : s.Kept) (c : TableCall) : (next s c).Kept ↔ Ok s c := by
  obtain ⟨c, h⟩ := c
  cases c with
  | addPool e => exact addPool_kept_iff hs h
  | delPool n => exact iff_of_true (delPool_kept hs h) trivial
  | setPoolCfg e => exact setPoolCfg_kept_iff hs h
  | addOption n e => exact addOption_kept_iff hs h
  | delOption n m => exact iff_of_true (delOption_kept hs h) trivial
  | setOption n e => exact setOption_kept_iff hs h

/-- Memory and the store hold the values last given after every call of a run
exactly when each call gives values that are kept. -/
theorem poolRun_kept_iff {s : Given} (hs : s.Kept) (calls : List TableCall) :
    Along step (fun _ _ t => t.Kept) s calls ↔ StepsMeet step Ok s calls := by
  have hrun : ∃ t, run step s calls = some t := by
    rw [← Option.isSome_iff_exists]
    have hsafe : ∀ s c, (step s c).isSome ↔ (fun _ : TableCall => True) c :=
      fun _ _ => iff_of_true rfl trivial
    exact (run_isSome_iff step hsafe s calls).mpr fun _ _ => trivial
  obtain ⟨t, ht⟩ := hrun
  refine along_iff step Given.Kept (fun s c u hu hstep => ?_) (fun s c u hu hok hstep => ?_) hs ht
  · rw [← Option.some.inj hstep]
    exact next_kept_iff hu c
  · rw [← Option.some.inj hstep]
    exact (next_kept_iff hu c).mpr hok

def emptyStart : Given := ⟨⟨[], Tables.empty, 0⟩, []⟩

theorem emptyStart_kept : emptyStart.Kept := ⟨rfl, List.Forall₂.nil⟩

def lanCfg (servers : Addrs) (timeOffset : BitVec 32) : PoolCfg :=
  { defaultCfg 2 with
    bEnabled := true
    Interface := ⟨ipInterface ++ decimal 5, by decide⟩
    DNSServers := servers
    LeaseTime := 3600
    X_CISCO_COM_TimeOffset := timeOffset }

def twoServers : Addrs := ⟨[0x0101a8c0, 0x0201a8c0, 0, 0], rfl⟩

theorem lanCfg_range (servers : Addrs) (timeOffset : BitVec 32) :
    2 ≤ (lanCfg servers timeOffset).InstanceNumber.toNat ∧
      onInterface (lanCfg servers timeOffset) :=
  ⟨show 2 ≤ (2 : ULONG).toNat by decide, 5, rfl⟩

theorem listable_servers : Listable twoServers ∧ Listable Addrs.zero := by
  refine ⟨⟨?_, ?_⟩, ?_, ?_⟩
  · simp [twoServers]
  · simp [twoServers]
  · simp [Addrs.zero]
  · simp [Addrs.zero]

/-- An added pool is kept, and kept again after its list is emptied. -/
theorem poolRun_kept_lan :
    Along step (fun _ _ t => t.Kept) emptyStart
      [⟨.addPool (lanCfg twoServers 0), lanCfg_range _ _⟩,
        ⟨.setPoolCfg (lanCfg Addrs.zero 0), lanCfg_range _ _⟩] := by
  have hfirst : Ok emptyStart ⟨.addPool (lanCfg twoServers 0), lanCfg_range _ _⟩ :=
    ⟨fun p hp => absurd hp List.not_mem_nil, rfl, rfl, rfl, Or.inr listable_servers.1, Or.inl rfl⟩
  have hkept := (next_kept_iff emptyStart_kept _).mpr hfirst
  apply (poolRun_kept_iff emptyStart_kept _).mpr
  refine ⟨hfirst, fun s hs => ⟨fun p hp _ => Or.inr ?_, fun _ _ => trivial⟩⟩
  rw [← Option.some.inj hs, hkept.memory] at hp
  have hpool : p = ⟨lanCfg twoServers 0, 0, []⟩ := List.mem_singleton.mp hp
  rw [hpool]
  exact ⟨rfl, rfl, rfl, Or.inr listable_servers.2, Or.inl rfl⟩

/-- An offset of the clock is read back as the lease time, and lost. -/
theorem timeOffset_lost :
    emptyStart.Kept ∧
      (readDHCPv4ServerPoolFromPSM (next emptyStart
        ⟨.addPool (lanCfg Addrs.zero 60), lanCfg_range _ _⟩).w.psm).map
          (fun p => (p.Cfg.LeaseTime, p.Cfg.X_CISCO_COM_TimeOffset)) = [(60, 0)] ∧
      ¬Along step (fun _ _ t => t.Kept) emptyStart
        [⟨.addPool (lanCfg Addrs.zero 60), lanCfg_range _ _⟩] := by
  refine ⟨emptyStart_kept, by decide +kernel, fun h => ?_⟩
  have hok := (next_kept_iff emptyStart_kept _).mp (h _ rfl).1
  have hoffset : (60 : BitVec 32) = 0 := hok.2.timeOffset
  exact absurd hoffset (by decide)

end CcspPandM.Dhcpv4sRuns
