import CcspPandM.BridgingLoads

/-!
The three stores of the bridges over whole runs: the lists, the backend and the folders
of the ports that are not committed. As long as no such port and no bridge with one is
deleted, every port has its one place, a restart gives back the lists in every order of
the folders, and no number is given twice.
-/
namespace CcspPandM.BridgingRuns

open CString Bridging BridgingLoads InitialNumbers KeyedList Registry Runs
open HalfAdded (Entry)
open HalfAddedRuns (entryFolder entryName nextFolder RegAddInfo)
open IpRegistry (ULONG nextAfter nextAfter_ne_zero storedNext folderName)

section Meaning

def storedPorts (ports : Multiset Port) : Multiset BackendPort :=
  (ports.filter (·.bNew = false)).map Port.cfg

def pendingEntry (number : ULONG) (p : Port) : Entry Unit := ⟨.child (), number, p.link, p.Alias⟩

def pendingPorts (number : ULONG) (ports : Multiset Port) : Multiset (Entry Unit) :=
  (ports.filter (·.bNew = true)).map (pendingEntry number)

def storedVlan (w : Vlan) : BackendVlan := ⟨w.InstanceNumber, w.Alias⟩

def storedView (v : View) : BackendView :=
  ⟨v.InstanceNumber, v.Alias, v.bAllowDelete, storedPorts v.ports, v.vlans.map storedVlan⟩

def pending (V : Multiset View) : Multiset (Entry Unit) :=
  V.bind fun v => pendingPorts v.InstanceNumber v.ports

/-- One number stands in the link and in the record; it is not zero, and no two entries of
a list have the same. A port that is not committed can be deleted. -/
structure Sound (v : View) : Prop where
  link : v.link = v.InstanceNumber
  nonzero : v.InstanceNumber ≠ 0
  old : v.bNew = false
  ports : ∀ p ∈ v.ports,
    p.link = p.InstanceNumber ∧ p.InstanceNumber ≠ 0 ∧ (p.bNew = true → p.bAllowDelete = true)
  vlans : ∀ w ∈ v.vlans, w.link = w.InstanceNumber ∧ w.InstanceNumber ≠ 0
  distinct_ports : (v.ports.map Port.InstanceNumber).Nodup
  distinct_vlans : (v.vlans.map Vlan.InstanceNumber).Nodup

/-- The three stores agree: the backend holds the committed entries, and the others have one
folder each, of their own name. -/
structure Agree (V : Multiset View) (backend : Backend) (cosa : Folder) : Prop where
  sound : ∀ v ∈ V, Sound v
  distinct : (V.map View.InstanceNumber).Nodup
  stored : backendViews backend = V.map storedView
  folders : ((haFolder cosa).folders : Multiset (CStr × Folder)) = (pending V).map folderOf
  names : ((pending V).map (entryName layout)).Nodup

/-- A number that is listed was given, and the next one was not. -/
structure PortsFresh (t : State) (b : Bridge) : Prop where
  listed : ∀ p ∈ b.PortList, p.InstanceNumber ∈ t.usedPorts b.InstanceNumber
  nonzero : b.ulNextPortInsNum ≠ 0
  next : b.ulNextPortInsNum ∉ t.usedPorts b.InstanceNumber

structure Fresh (t : State) : Prop where
  listed : ∀ b ∈ t.BridgeList, b.InstanceNumber ∈ t.usedBridges
  nonzero : t.ulNextBridgeInstance ≠ 0
  next : t.ulNextBridgeInstance ∉ t.usedBridges
  ports : ∀ b ∈ t.BridgeList, PortsFresh t b

/-- The stores agree, numbers are not given again, and a restart gives back the same
bridges, ports and VLANs whatever the order of the folders. -/
structure Good (t : State) : Prop where
  agree : Agree (views t.BridgeList) t.backend t.cosa
  fresh : Fresh t
  restores : ∀ order, order.Perm (haFolder t.cosa).folders →
    ∃ t', restart t order = some t' ∧ views t'.BridgeList = views t.BridgeList

/-- Calls name entries that are there, and the folders of a restart are those of before. -/
def Legal (t : State) : Call → Prop
  | .addBridge => True
  | .delBridge k => k < t.BridgeList.length
  | .commitBridge k => k < t.BridgeList.length
  | .addPort k => k < t.BridgeList.length
  | .delPort k j => ∃ b, t.BridgeList[k]? = some b ∧ j < b.PortList.length
  | .commitPort k j => ∃ b, t.BridgeList[k]? = some b ∧ j < b.PortList.length
  | .restart order => order.Perm (haFolder t.cosa).folders

def Covered (next : ULONG) (listed : List ULONG) (n : ULONG) : Prop :=
  n < next ∨ ∃ m ∈ listed, n ≤ m

/-- The condition on a call. A counter is not at its end, a new port has a folder of its own,
no port that is not committed is deleted, alone or with its bridge, and the numbers given
before a restart are covered by what is recorded or listed. -/
def Ok (t : State) : Call → Prop
  | .addBridge => t.ulNextBridgeInstance ≠ 0xFFFFFFFF
  | .delBridge k => ∀ b, t.BridgeList[k]? = some b → b.bAllowDelete = true →
      ∀ p ∈ b.PortList, p.bNew = false
  | .commitBridge _ => True
  | .addPort k => ∀ b, t.BridgeList[k]? = some b → b.ulNextPortInsNum ≠ 0xFFFFFFFF ∧
      ∀ c ∈ t.BridgeList, ∀ p ∈ c.PortList, p.bNew = true →
        decimal c.InstanceNumber.toNat ++ decimal p.InstanceNumber.toNat ≠
          decimal b.InstanceNumber.toNat ++ decimal b.ulNextPortInsNum.toNat
  | .delPort k j => ∀ b p, t.BridgeList[k]? = some b → b.PortList[j]? = some p →
      p.bAllowDelete = true → p.bNew = false
  | .commitPort _ _ => True
  | .restart _ =>
      (∀ n ∈ t.usedBridges, Covered (recordedBridge (brgFolder t.cosa))
        (t.BridgeList.map Bridge.InstanceNumber) n) ∧
      ∀ b ∈ t.BridgeList, ∀ n ∈ t.usedPorts b.InstanceNumber,
        Covered (recordedPort (brgFolder t.cosa) b.InstanceNumber)
          (b.PortList.map Port.InstanceNumber) n

def start (backend : Backend) (cosa : Folder) : Option State :=
  (CosaBridgingInitialize backend cosa).map
    fun (BridgeList, ulNextBridgeInstance, backend, cosa) =>
      { BridgeList := BridgeList
        ulNextBridgeInstance := ulNextBridgeInstance
        backend := backend
        cosa := cosa
        usedBridges := BridgeList.map Bridge.InstanceNumber
        usedPorts := fun n => (BridgeList.filter (·.InstanceNumber = n)).flatMap fun b =>
          b.PortList.map Port.InstanceNumber }

structure Delivers (backend : Backend) : Prop where
  bridges : Delivered (backend.map BackendBridge.InstanceNumber)
  ports : ∀ b ∈ backend, Delivered (b.ports.map BackendPort.InstanceNumber)
  vlans : ∀ b ∈ backend, Delivered (b.vlans.map BackendVlan.InstanceNumber)

/-- The condition on the first start: every VLAN has a number, and the passes over the
bridges and over the ports meet no number that they have given out. -/
structure StartOk (backend : Backend) : Prop where
  vlans : ∀ b ∈ backend, ∀ w ∈ b.vlans, w.InstanceNumber ≠ 0
  bridges : Clear 1 (backend.map BackendBridge.InstanceNumber) ∧
    ¬ Wraps 1 (backend.map BackendBridge.InstanceNumber)
  ports : ∀ b ∈ backend, Clear 1 (b.ports.map BackendPort.InstanceNumber) ∧
    ¬ Wraps 1 (b.ports.map BackendPort.InstanceNumber)

end Meaning

variable {backend : Backend} {l : List Bridge} {α : Type}

section Multisets

variable {k : ℕ}

theorem coe_at {l : List α} {a : α} (h : l[k]? = some a) :
    (l : Multiset α) = a ::ₘ (l.eraseIdx k : Multiset α) :=
  Multiset.coe_eq_coe.mpr (eraseIdx_perm h)

theorem coe_set {l : List α} {a : α} (h : l[k]? = some a) (a' : α) :
    (l.set k a' : Multiset α) = a' ::ₘ (l.eraseIdx k : Multiset α) :=
  Multiset.coe_eq_coe.mpr
    (List.set_perm_cons_eraseIdx (List.getElem?_eq_some_iff.mp h).1 a')

theorem views_at {b : Bridge} (h : l[k]? = some b) :
    views l = Bridge.view b ::ₘ views (l.eraseIdx k) := by
  rw [views, coe_at h, Multiset.map_cons, views]

theorem views_set {b : Bridge} (h : l[k]? = some b) (b' : Bridge) :
    views (l.set k b') = Bridge.view b' ::ₘ views (l.eraseIdx k) := by
  rw [views, coe_set h, Multiset.map_cons, views]

theorem storedPorts_cons (p : Port) (ports : Multiset Port) : storedPorts (p ::ₘ ports) =
    if p.bNew = false then p.cfg ::ₘ storedPorts ports else storedPorts ports := by
  rw [storedPorts, Multiset.filter_cons]
  split
  · simp [storedPorts]
  · simp [storedPorts]

theorem pendingPorts_cons (number : ULONG) (p : Port) (ports : Multiset Port) :
    pendingPorts number (p ::ₘ ports) =
      if p.bNew = true then pendingEntry number p ::ₘ pendingPorts number ports
      else pendingPorts number ports := by
  rw [pendingPorts, Multiset.filter_cons]
  split
  · simp [pendingPorts]
  · simp [pendingPorts]

theorem pending_cons (v : View) (V : Multiset View) :
    pending (v ::ₘ V) = pendingPorts v.InstanceNumber v.ports + pending V :=
  Multiset.cons_bind ..

theorem key_ne_of_nodup {α κ : Type} {key : α → κ} {a : α} {A : Multiset α}
    (h : ((a ::ₘ A).map key).Nodup) : ∀ x ∈ A, key x ≠ key a := by
  rw [Multiset.map_cons, Multiset.nodup_cons] at h
  intro x hx heq
  exact h.1 (heq ▸ Multiset.mem_map_of_mem key hx)

theorem backendViews_atBridge (s : BackendView) {S : Multiset BackendView}
    {number : ULONG} {change : BackendBridge → BackendBridge}
    (changeView : BackendView → BackendView)
    (hview : ∀ b, BackendBridge.view (change b) = changeView (BackendBridge.view b))
    (h : backendViews backend = s ::ₘ S) (hs : s.InstanceNumber = number)
    (hS : ∀ x ∈ S, x.InstanceNumber ≠ number) :
    backendViews (atBridge number change backend) = changeView s ::ₘ S := by
  have hmap : backendViews (atBridge number change backend) =
      (backendViews backend).map fun x =>
        if x.InstanceNumber = number then changeView x else x := by
    rw [backendViews, atBridge, ← Multiset.map_coe, Multiset.map_map, backendViews,
      Multiset.map_map]
    apply Multiset.map_congr rfl
    intro b _
    have hkey : (BackendBridge.view b).InstanceNumber = b.InstanceNumber := rfl
    rw [Function.comp_apply, Function.comp_apply, hkey]
    split
    · exact hview b
    · rfl
  have hrest : S.map (fun x => if x.InstanceNumber = number then changeView x else x) = S := by
    rw [← Multiset.map_id S, Multiset.map_map]
    apply Multiset.map_congr rfl
    intro x hx
    rw [Function.comp_apply, id_eq, if_neg (hS x hx)]
  rw [hmap, h, Multiset.map_cons, if_pos hs, hrest]

theorem map_change_port {Q : Multiset BackendPort} {cfg : BackendPort}
    (h : ∀ q ∈ Q, q.InstanceNumber ≠ cfg.InstanceNumber) :
    (cfg ::ₘ Q).map (fun q => if q.InstanceNumber = cfg.InstanceNumber then cfg else q) =
      cfg ::ₘ Q := by
  rw [Multiset.map_cons, if_pos rfl]
  congr 1
  conv_rhs => rw [← Multiset.map_id Q]
  apply Multiset.map_congr rfl
  intro q hq
  rw [if_neg (h q hq), id_eq]

theorem filter_port {Q : Multiset BackendPort} {number : ULONG}
    (h : ∀ q ∈ Q, q.InstanceNumber ≠ number) : Q.filter (·.InstanceNumber ≠ number) = Q :=
  Multiset.filter_eq_self.mpr h

end Multisets

variable {cosa : Folder} {entries : Multiset (Entry Unit)} {e : Entry Unit} {fo : Folder}
  {n : ULONG}

section Registering

/-- The folders a call relies on: that of the half-added entries is there, and no next
number is recorded as zero. -/
structure Registered (cosa : Folder) : Prop where
  root : cosa.GetFolder layout.halfAdded = none
  opened : (brgFolder cosa).GetFolder layout.halfAdded = some (haFolder cosa)
  recorded : ∀ name number, storedNext (brgFolder cosa) name number ≠ 0

theorem fits (e : Entry Unit) :
    (entryName layout e).length < 32 ∧ (nextFolder layout e).length < 32 := by
  have hupper := decimal_word_length e.upper
  have hnumber := decimal_word_length e.number
  have hpreffix : (layout.preffix e.role).length ≤ 6 := by
    generalize e.role = role
    rcases role with _ | ⟨⟨⟩⟩ | _ <;> decide +kernel
  have hnext : (layout.nextInsNum e.role).length ≤ 21 := by
    generalize e.role = role
    rcases role with _ | ⟨⟨⟩⟩ | _ <;> decide +kernel
  rw [entryName, nextFolder, List.length_append, List.length_append, List.length_append]
  change _ + (decimal e.upper.toNat).length + (decimal e.number.toNat).length < 32 ∧
    _ + (decimal e.upper.toNat).length < 32
  omega

theorem folderName_entryName (e : Entry Unit) :
    folderName (entryName layout e) = entryName layout e :=
  Buf.text_sprintf_s_of_lt (fits e).1

theorem haFolder_RegDelInfo (e : Entry Unit) (cosa : Folder) :
    haFolder (CosaBridgingRegDelInfo e cosa) =
      (haFolder cosa).DelFolder (entryName layout e) := by
  rw [CosaBridgingRegDelInfo, folderName_entryName]
  exact haFolder_AddFolder cosa fun ha => ha.DelFolder (entryName layout e)

theorem Registered.del (h : Registered cosa) (e : Entry Unit) :
    Registered (CosaBridgingRegDelInfo e cosa) := by
  have hbrg : brgFolder (CosaBridgingRegDelInfo e cosa) = (brgFolder cosa).AddFolder
      layout.halfAdded fun ha => ha.DelFolder (folderName (entryName layout e)) :=
    brgFolder_AddFolder cosa _
  refine ⟨root_AddFolder h.root _, ?_, fun name number => ?_⟩
  · rw [haFolder, hbrg, Folder.GetFolder_AddFolder_self, Option.getD_some]
  · rw [hbrg, storedNext_halfAdded]
    exact h.recorded name number

theorem storedNext_RegAddInfo (hn : n ≠ 0)
    (h : ∀ name number, storedNext fo name number ≠ 0) (name : CStr) (number : ULONG) :
    storedNext (RegAddInfo layout (layout.nextInsNum e.role) n (layout.preffix e.role) e.upper
      e.Alias e.number fo) name number ≠ 0 := by
  have hchecks : ∀ k : ℕ, ¬ (layout.checks ∧ 32 ≤ k) := fun k hk => absurd hk.1 (by decide)
  simp only [RegAddInfo, if_neg (hchecks _)]
  rw [storedNext_halfAdded, storedNext, Folder.GetFolder_AddFolder]
  split
  · next heq =>
    have hold := h name number
    rw [storedNext, heq] at hold
    rw [Option.bind_some, Folder.getUint32, Folder.GetRecord_AddRecord]
    by_cases hname : name = layout.nextInsNum e.role
    · rw [if_pos hname]
      exact hn
    · have hother : ∀ fo : Folder, (fo.DelRecord (layout.nextInsNum e.role)).GetRecord name =
          fo.GetRecord name := by
        intro fo
        simp only [Folder.GetRecord, Folder.DelRecord, Folder.records_mk, KeyStore.unset,
          Function.update_apply, if_neg hname]
      rw [if_neg hname, hother]
      cases hget : fo.GetFolder (folderName (layout.nextInsNum e.role ++ layout.print e.upper)) with
      | none => exact (by decide : (1 : ULONG) ≠ 0)
      | some fo' =>
        rw [hget] at hold
        exact hold
  · exact h name number

theorem Registered.add (h : Registered cosa)
    (hn : n ≠ 0) (hfresh : entryName layout e ∉ (haFolder cosa).folders.map Prod.fst) :
    Registered (CosaBridgingRegAddInfo e n cosa) ∧
      (haFolder (CosaBridgingRegAddInfo e n cosa)).folders =
        (haFolder cosa).folders ++ [folderOf e] := by
  have hbrg : brgFolder (CosaBridgingRegAddInfo e n cosa) = RegAddInfo layout
      (layout.nextInsNum e.role) n (layout.preffix e.role) e.upper e.Alias e.number
        (brgFolder cosa) := brgFolder_AddFolder cosa _
  obtain ⟨ha', hget, hlist⟩ := HalfAddedRuns.folders_RegAddInfo (e := e) n h.opened
    (nextName_ne _ _) (fits e).1 (fits e).2 hfresh
  have hha : haFolder (CosaBridgingRegAddInfo e n cosa) = ha' := by
    rw [haFolder, hbrg, hget, Option.getD_some]
  refine ⟨⟨root_AddFolder h.root _, ?_, fun name number => ?_⟩, ?_⟩
  · rw [hha, hbrg]
    exact hget
  · rw [hbrg]
    exact storedNext_RegAddInfo hn h.recorded name number
  · rw [hha]
    exact hlist

theorem names_folders
    (h : ((haFolder cosa).folders : Multiset (CStr × Folder)) = entries.map folderOf)
    (name : CStr) : name ∈ (haFolder cosa).folders.map Prod.fst ↔
      name ∈ entries.map (entryName layout) := by
  rw [← Multiset.mem_coe, ← Multiset.map_coe, h, Multiset.map_map]
  rfl

theorem folders_RegAddInfo (hreg : Registered cosa) (hn : n ≠ 0)
    (h : ((haFolder cosa).folders : Multiset (CStr × Folder)) = entries.map folderOf)
    (hnames : ((e ::ₘ entries).map (entryName layout)).Nodup) :
    Registered (CosaBridgingRegAddInfo e n cosa) ∧
      ((haFolder (CosaBridgingRegAddInfo e n cosa)).folders : Multiset (CStr × Folder)) =
        (e ::ₘ entries).map folderOf := by
  rw [Multiset.map_cons, Multiset.nodup_cons] at hnames
  obtain ⟨hadd, hfolders⟩ := hreg.add hn fun hmem => hnames.1 ((names_folders h _).mp hmem)
  refine ⟨hadd, ?_⟩
  rw [hfolders, ← Multiset.coe_add, h, Multiset.map_cons, Multiset.coe_singleton,
    Multiset.add_comm, Multiset.singleton_add]

theorem folders_RegDelInfo
    (h : ((haFolder cosa).folders : Multiset (CStr × Folder)) = (e ::ₘ entries).map folderOf)
    (hnames : ((e ::ₘ entries).map (entryName layout)).Nodup) :
    ((haFolder (CosaBridgingRegDelInfo e cosa)).folders : Multiset (CStr × Folder)) =
      entries.map folderOf := by
  have hothers := key_ne_of_nodup hnames
  rw [haFolder_RegDelInfo, Folder.DelFolder, Folder.folders_mk, drop, ← Multiset.filter_coe, h,
    Multiset.map_cons, Multiset.filter_cons_of_neg]
  · apply Multiset.filter_eq_self.mpr
    intro x hx
    obtain ⟨e', he', rfl⟩ := Multiset.mem_map.mp hx
    exact hothers e' he'
  · exact fun hne => hne rfl

end Registering

variable {V : Multiset View} {v : View} {t : State}

section Invariant

structure PortsCounted (usedBridges : List ULONG) (usedPorts : ULONG → List ULONG) (b : Bridge) :
    Prop where
  used : b.InstanceNumber ∈ usedBridges
  nonzero : b.ulNextPortInsNum ≠ 0
  below : ∀ n ∈ usedPorts b.InstanceNumber, n < b.ulNextPortInsNum
  listed : ∀ p ∈ b.PortList, p.InstanceNumber ∈ usedPorts b.InstanceNumber

structure Counted (t : State) : Prop where
  nonzero : t.ulNextBridgeInstance ≠ 0
  below : ∀ n ∈ t.usedBridges, n < t.ulNextBridgeInstance
  ports : ∀ b ∈ t.BridgeList, PortsCounted t.usedBridges t.usedPorts b
  unused : ∀ n, n ∉ t.usedBridges → t.usedPorts n = []

structure Kept (t : State) : Prop where
  registered : Registered t.cosa
  agree : Agree (views t.BridgeList) t.backend t.cosa
  counted : Counted t

theorem Counted.fresh (h : Counted t) : Fresh t := by
  refine ⟨fun b hb => (h.ports b hb).used, h.nonzero, fun hmem => ?_, fun b hb => ?_⟩
  · exact absurd (h.below _ hmem) (by simp)
  · obtain ⟨-, hnonzero, hbelow, hlisted⟩ := h.ports b hb
    exact ⟨hlisted, hnonzero, fun hmem => absurd (hbelow _ hmem) (by simp)⟩

theorem Agree.sound_at
    (h : Agree (v ::ₘ V) backend cosa) : Sound v := h.sound v (Multiset.mem_cons_self v V)

theorem Agree.others (h : Agree (v ::ₘ V) backend cosa) :
    ∀ x ∈ V.map storedView, x.InstanceNumber ≠ v.InstanceNumber := by
  intro x hx
  obtain ⟨w, hw, rfl⟩ := Multiset.mem_map.mp hx
  exact key_ne_of_nodup h.distinct w hw

theorem Agree.replace {v v' : View} {backend backend' : Backend}
    {cosa cosa' : Folder} (h : Agree (v ::ₘ V) backend cosa) (hsound : Sound v')
    (hnumber : v'.InstanceNumber = v.InstanceNumber)
    (hstored : backendViews backend' = storedView v' ::ₘ V.map storedView)
    (hfolders : ((haFolder cosa').folders : Multiset (CStr × Folder)) =
      (pending (v' ::ₘ V)).map folderOf)
    (hnames : ((pending (v' ::ₘ V)).map (entryName layout)).Nodup) :
    Agree (v' ::ₘ V) backend' cosa' := by
  have hdistinct := h.distinct
  rw [Multiset.map_cons, ← hnumber, ← Multiset.map_cons] at hdistinct
  refine ⟨fun x hx => ?_, hdistinct, ?_, hfolders, hnames⟩
  · rcases Multiset.mem_cons.mp hx with rfl | hx
    · exact hsound
    · exact h.sound x (Multiset.mem_cons_of_mem hx)
  · rw [hstored, Multiset.map_cons]

variable {ports : Multiset Port}

theorem Sound.ports_change (h : Sound v) (hports : ∀ p ∈ ports,
      p.link = p.InstanceNumber ∧ p.InstanceNumber ≠ 0 ∧ (p.bNew = true → p.bAllowDelete = true))
    (hdistinct : (ports.map Port.InstanceNumber).Nodup) : Sound { v with ports := ports } :=
  ⟨h.link, h.nonzero, h.old, hports, h.vlans, hdistinct, h.distinct_vlans⟩

theorem mem_storedPorts {q : BackendPort} (h : q ∈ storedPorts ports) :
    ∃ p ∈ ports, p.cfg = q := by
  obtain ⟨p, hp, hq⟩ := Multiset.mem_map.mp h
  exact ⟨p, (Multiset.mem_filter.mp hp).1, hq⟩

theorem storedPorts_others {p : Port} (h : ((p ::ₘ ports).map Port.InstanceNumber).Nodup) :
    ∀ q ∈ storedPorts ports, q.InstanceNumber ≠ p.InstanceNumber := by
  intro q hq
  obtain ⟨p', hp', rfl⟩ := mem_storedPorts hq
  exact key_ne_of_nodup h p' hp'

theorem mem_pending :
    e ∈ pending V ↔
      ∃ v ∈ V, ∃ p ∈ v.ports, p.bNew = true ∧ pendingEntry v.InstanceNumber p = e := by
  constructor
  · intro h
    obtain ⟨v, hv, hmem⟩ := Multiset.mem_bind.mp h
    obtain ⟨p, hp, he⟩ := Multiset.mem_map.mp hmem
    obtain ⟨hp, hnew⟩ := Multiset.mem_filter.mp hp
    exact ⟨v, hv, p, hp, hnew, he⟩
  · rintro ⟨v, hv, p, hp, hnew, rfl⟩
    exact Multiset.mem_bind.mpr ⟨v, hv,
      Multiset.mem_map_of_mem _ (Multiset.mem_filter.mpr ⟨hp, hnew⟩)⟩

theorem Agree.erase (h : Agree (v ::ₘ V) backend cosa) (hold : ∀ p ∈ v.ports, p.bNew = false) :
    Agree V (CosaDmlBrgDelEntry v.InstanceNumber backend) cosa := by
  have hnone : pendingPorts v.InstanceNumber v.ports = 0 := by
    rw [pendingPorts, Multiset.filter_eq_nil.mpr, Multiset.map_zero]
    intro p hp
    rw [hold p hp]
    exact Bool.false_ne_true
  have hpending : pending (v ::ₘ V) = pending V := by
    rw [pending_cons, hnone, zero_add]
  have hfolders := h.folders
  have hnames := h.names
  rw [hpending] at hfolders hnames
  refine ⟨fun x hx => h.sound x (Multiset.mem_cons_of_mem hx), ?_, ?_, hfolders, hnames⟩
  · have hdistinct := h.distinct
    rw [Multiset.map_cons, Multiset.nodup_cons] at hdistinct
    exact hdistinct.2
  · have hstored : backendViews backend = storedView v ::ₘ V.map storedView := by
      rw [h.stored, Multiset.map_cons]
    have hfilter : backendViews (CosaDmlBrgDelEntry v.InstanceNumber backend) =
        (backendViews backend).filter (·.InstanceNumber ≠ v.InstanceNumber) := by
      rw [backendViews, CosaDmlBrgDelEntry, ← Multiset.filter_coe, backendViews,
        Multiset.filter_map]
      rfl
    rw [hfilter, hstored, Multiset.filter_cons_of_neg _ (fun hne => hne rfl)]
    exact Multiset.filter_eq_self.mpr h.others

end Invariant

section Changing

variable {v : View} {V : Multiset View} {backend : Backend} {cosa : Folder}

theorem Agree.change_ports (h : Agree (v ::ₘ V) backend cosa) {cosa' : Folder}
    (ports : Multiset Port) {change : BackendBridge → BackendBridge}
    (changePorts : Multiset BackendPort → Multiset BackendPort)
    (hview : ∀ b, BackendBridge.view (change b) =
      { BackendBridge.view b with ports := changePorts (BackendBridge.view b).ports })
    (hstored : changePorts (storedPorts v.ports) = storedPorts ports)
    (hports : ∀ p ∈ ports,
      p.link = p.InstanceNumber ∧ p.InstanceNumber ≠ 0 ∧ (p.bNew = true → p.bAllowDelete = true))
    (hdistinct : (ports.map Port.InstanceNumber).Nodup)
    (hfolders : ((haFolder cosa').folders : Multiset (CStr × Folder)) =
      (pending ({ v with ports := ports } ::ₘ V)).map folderOf)
    (hnames : ((pending ({ v with ports := ports } ::ₘ V)).map (entryName layout)).Nodup) :
    Agree ({ v with ports := ports } ::ₘ V) (atBridge v.InstanceNumber change backend) cosa' := by
  refine h.replace (h.sound_at.ports_change hports hdistinct) rfl ?_ hfolders hnames
  have hbackend : backendViews backend = storedView v ::ₘ V.map storedView := by
    rw [h.stored, Multiset.map_cons]
  have hchange := backendViews_atBridge (storedView v)
    (fun s => { s with ports := changePorts s.ports }) hview hbackend rfl h.others
  have hports' : changePorts (storedView v).ports = storedPorts ports := hstored
  rw [hports'] at hchange
  exact hchange

theorem Agree.setCfg (h : Agree (v ::ₘ V) backend cosa) :
    Agree (v ::ₘ V) (CosaDmlBrgSetCfg v.InstanceNumber v.Alias v.bAllowDelete backend) cosa := by
  refine h.replace h.sound_at rfl ?_ h.folders h.names
  have hbackend : backendViews backend = storedView v ::ₘ V.map storedView := by
    rw [h.stored, Multiset.map_cons]
  exact backendViews_atBridge (storedView v)
    (fun s => { s with Alias := v.Alias, bAllowDelete := v.bAllowDelete }) (fun _ => rfl) hbackend
      rfl h.others

variable {p : Port} {ports : Multiset Port}

theorem Agree.ports_at (h : Agree (v ::ₘ V) backend cosa) (hv : v.ports = p ::ₘ ports) :
    (p.link = p.InstanceNumber ∧ p.InstanceNumber ≠ 0 ∧
        (p.bNew = true → p.bAllowDelete = true)) ∧
      (∀ q ∈ ports, q.link = q.InstanceNumber ∧ q.InstanceNumber ≠ 0 ∧
        (q.bNew = true → q.bAllowDelete = true)) ∧
      ((p ::ₘ ports).map Port.InstanceNumber).Nodup := by
  have hports := h.sound_at.ports
  have hdistinct := h.sound_at.distinct_ports
  rw [hv] at hports hdistinct
  exact ⟨hports p (Multiset.mem_cons_self ..),
    fun q hq => hports q (Multiset.mem_cons_of_mem hq), hdistinct⟩

theorem Agree.portSetCfg (h : Agree (v ::ₘ V) backend cosa) (hv : v.ports = p ::ₘ ports)
    (hold : p.bNew = false) :
    Agree (v ::ₘ V) (CosaDmlBrgPortSetCfg v.InstanceNumber p.cfg backend) cosa := by
  obtain ⟨-, -, hdistinct⟩ := h.ports_at hv
  have hstored : storedPorts v.ports = p.cfg ::ₘ storedPorts ports := by
    rw [hv, storedPorts_cons, if_pos hold]
  refine h.change_ports v.ports (Multiset.map fun q =>
    if q.InstanceNumber = p.cfg.InstanceNumber then p.cfg else q) (fun b => ?_) ?_
    h.sound_at.ports h.sound_at.distinct_ports h.folders h.names
  · simp only [BackendBridge.view, Multiset.map_coe]
  · rw [hstored]
    exact map_change_port (storedPorts_others hdistinct)

theorem Agree.portDel (h : Agree (v ::ₘ V) backend cosa) (hv : v.ports = p ::ₘ ports)
    (hold : p.bNew = false) :
    Agree ({ v with ports := ports } ::ₘ V)
      (CosaDmlBrgPortDelEntry v.InstanceNumber p.InstanceNumber backend) cosa := by
  obtain ⟨-, hports, hdistinct⟩ := h.ports_at hv
  have hstored : storedPorts v.ports = p.cfg ::ₘ storedPorts ports := by
    rw [hv, storedPorts_cons, if_pos hold]
  have hpending : pending ({ v with ports := ports } ::ₘ V) = pending (v ::ₘ V) := by
    rw [pending_cons, pending_cons, hv, pendingPorts_cons, if_neg (by simp [hold])]
  refine h.change_ports ports (Multiset.filter (·.InstanceNumber ≠ p.InstanceNumber)) (fun b => ?_)
    ?_ hports ?_ ?_ ?_
  · simp only [BackendBridge.view, Multiset.filter_coe]
  · rw [hstored, Multiset.filter_cons_of_neg _ (fun hne => hne rfl)]
    exact filter_port (storedPorts_others hdistinct)
  · rw [Multiset.map_cons, Multiset.nodup_cons] at hdistinct
    exact hdistinct.2
  · rw [hpending]
    exact h.folders
  · rw [hpending]
    exact h.names

theorem Agree.portCommit (h : Agree (v ::ₘ V) backend cosa) (hv : v.ports = p ::ₘ ports)
    (hnew : p.bNew = true) :
    Agree ({ v with ports := { p with bNew := false } ::ₘ ports } ::ₘ V)
      (CosaDmlBrgPortAddEntry v.InstanceNumber p.cfg backend)
      (CosaBridgingRegDelInfo (pendingEntry v.InstanceNumber p) cosa) := by
  obtain ⟨hp, hports, hdistinct⟩ := h.ports_at hv
  have hstored : storedPorts v.ports = storedPorts ports := by
    rw [hv, storedPorts_cons, if_neg (by simp [hnew])]
  have hpending : pending (v ::ₘ V) = pendingEntry v.InstanceNumber p ::ₘ
      pending ({ v with ports := { p with bNew := false } ::ₘ ports } ::ₘ V) := by
    rw [pending_cons, pending_cons, hv, pendingPorts_cons, if_pos hnew, pendingPorts_cons,
      if_neg (by simp), Multiset.cons_add]
  have hfolders := h.folders
  have hnames := h.names
  rw [hpending] at hfolders hnames
  refine h.change_ports _ (fun s => s + {p.cfg}) (fun b => ?_) ?_ ?_ ?_
    (folders_RegDelInfo hfolders hnames) ?_
  · simp only [BackendBridge.view, ← Multiset.coe_add, Multiset.coe_singleton]
  · rw [hstored, storedPorts_cons, if_pos rfl, Multiset.add_comm, Multiset.singleton_add]
    rfl
  · intro q hq
    rcases Multiset.mem_cons.mp hq with rfl | hq
    · exact ⟨hp.1, hp.2.1, fun hbad => absurd hbad Bool.false_ne_true⟩
    · exact hports q hq
  · rw [Multiset.map_cons] at hdistinct ⊢
    exact hdistinct
  · rw [Multiset.map_cons, Multiset.nodup_cons] at hnames
    exact hnames.2

theorem Agree.portAdd (h : Agree (v ::ₘ V) backend cosa) (hreg : Registered cosa)
    (hn : n ≠ 0) (hp : p.link = p.InstanceNumber ∧ p.InstanceNumber ≠ 0 ∧ p.bAllowDelete = true)
    (hnew : p.bNew = true) (hfresh : p.InstanceNumber ∉ v.ports.map Port.InstanceNumber)
    (hname : entryName layout (pendingEntry v.InstanceNumber p) ∉
      (pending (v ::ₘ V)).map (entryName layout)) :
    Registered (CosaBridgingRegAddInfo (pendingEntry v.InstanceNumber p) n cosa) ∧
      Agree ({ v with ports := p ::ₘ v.ports } ::ₘ V) backend
        (CosaBridgingRegAddInfo (pendingEntry v.InstanceNumber p) n cosa) := by
  have hpending : pending ({ v with ports := p ::ₘ v.ports } ::ₘ V) =
      pendingEntry v.InstanceNumber p ::ₘ pending (v ::ₘ V) := by
    rw [pending_cons, pending_cons, pendingPorts_cons, if_pos hnew, Multiset.cons_add]
  have hnames : ((pending ({ v with ports := p ::ₘ v.ports } ::ₘ V)).map
      (entryName layout)).Nodup := by
    rw [hpending, Multiset.map_cons, Multiset.nodup_cons]
    exact ⟨hname, h.names⟩
  have hnames' := hnames
  rw [hpending] at hnames'
  obtain ⟨hadd, hfolders⟩ := folders_RegAddInfo hreg hn h.folders hnames'
  rw [← hpending] at hfolders
  refine ⟨hadd, h.replace (h.sound_at.ports_change ?_ ?_) rfl ?_ hfolders hnames⟩
  · intro q hq
    rcases Multiset.mem_cons.mp hq with rfl | hq
    · exact ⟨hp.1, hp.2.1, fun _ => hp.2.2⟩
    · exact h.sound_at.ports q hq
  · rw [Multiset.map_cons, Multiset.nodup_cons]
    exact ⟨hfresh, h.sound_at.distinct_ports⟩
  · rw [h.stored, Multiset.map_cons, storedView, storedView, storedPorts_cons,
      if_neg (by simp [hnew])]

theorem entryName_ne {e e' : Entry Unit} (he : e.role = .child ()) (he' : e'.role = .parent) :
    entryName layout e ≠ entryName layout e' := by
  intro h
  have hhead := congrArg List.head? h
  rw [entryName, entryName, he, he', List.append_assoc, List.append_assoc,
    List.head?_append_of_ne_nil (layout.preffix (.child ())) (by decide),
    List.head?_append_of_ne_nil (layout.preffix .parent) (by decide)] at hhead
  exact absurd hhead (by decide)

theorem Agree.bridgeAdd (h : Agree V backend cosa) (hreg : Registered cosa)
    {number n : ULONG} {pAlias pVlanAlias : CStr} (hnumber : number ≠ 0) (hn : n ≠ 0)
    (hfresh : number ∉ V.map View.InstanceNumber) :
    Registered (CosaBridgingRegDelInfo ⟨.parent, 0, number, pAlias⟩
        (CosaBridgingRegAddInfo ⟨.parent, 0, number, pAlias⟩ n cosa)) ∧
      Agree (⟨number, number, pAlias, false, true, 0, {⟨1, 1, pVlanAlias⟩}⟩ ::ₘ V)
        (CosaDmlBrgVlanAddEntry number ⟨1, pVlanAlias⟩
          (CosaDmlBrgAddEntry number pAlias true backend))
        (CosaBridgingRegDelInfo ⟨.parent, 0, number, pAlias⟩
          (CosaBridgingRegAddInfo ⟨.parent, 0, number, pAlias⟩ n cosa)) := by
  have hname : entryName layout ⟨.parent, 0, number, pAlias⟩ ∉
      (pending V).map (entryName layout) := by
    intro hmem
    obtain ⟨e, he, heq⟩ := Multiset.mem_map.mp hmem
    obtain ⟨v, -, p, -, -, rfl⟩ := mem_pending.mp he
    exact entryName_ne rfl rfl heq
  have hnames : (((⟨.parent, 0, number, pAlias⟩ : Entry Unit) ::ₘ pending V).map
      (entryName layout)).Nodup := by
    rw [Multiset.map_cons, Multiset.nodup_cons]
    exact ⟨hname, h.names⟩
  obtain ⟨hadd, hfolders⟩ := folders_RegAddInfo hreg hn h.folders hnames
  have hpending : pending (⟨number, number, pAlias, false, true, 0,
      {⟨1, 1, pVlanAlias⟩}⟩ ::ₘ V) = pending V := by
    rw [pending_cons]
    exact zero_add _
  refine ⟨hadd.del _, ⟨?_, ?_, ?_, ?_, ?_⟩⟩
  · intro x hx
    rcases Multiset.mem_cons.mp hx with rfl | hx
    · refine ⟨rfl, hnumber, rfl, by simp, ?_, by simp, by simp⟩
      intro w hw
      rw [Multiset.mem_singleton.mp hw]
      exact ⟨rfl, (by decide : (1 : ULONG) ≠ 0)⟩
    · exact h.sound x hx
  · rw [Multiset.map_cons, Multiset.nodup_cons]
    exact ⟨hfresh, h.distinct⟩
  · have hadded : backendViews (CosaDmlBrgAddEntry number pAlias true backend) =
        (⟨number, pAlias, true, 0, 0⟩ : BackendView) ::ₘ V.map storedView := by
      rw [backendViews, CosaDmlBrgAddEntry, ← Multiset.coe_add, Multiset.map_add,
        Multiset.coe_singleton, Multiset.map_singleton, Multiset.add_comm,
        Multiset.singleton_add, ← h.stored]
      rfl
    rw [Multiset.map_cons]
    refine backendViews_atBridge ⟨number, pAlias, true, 0, 0⟩ (fun s =>
      { s with vlans := s.vlans + {⟨1, pVlanAlias⟩} }) (fun b => ?_) hadded rfl ?_
    · simp only [BackendBridge.view, ← Multiset.coe_add, Multiset.coe_singleton]
    · intro x hx heq
      obtain ⟨v, hv, rfl⟩ := Multiset.mem_map.mp hx
      exact hfresh (heq ▸ Multiset.mem_map_of_mem View.InstanceNumber hv)
  · rw [hpending]
    exact folders_RegDelInfo hfolders hnames
  · rw [hpending]
    exact h.names

end Changing

variable {order : List (CStr × Folder)}

section Restarting

theorem covered_lt_counter {next n : ULONG} {xs : List ULONG}
    (hxs : ∀ i ∈ xs, i ≠ 0 ∧ i ≠ 0xFFFFFFFF) (h : Covered next xs n) : n < counter next xs := by
  have hbelow : ∀ i ∈ xs, i ≠ 0xFFFFFFFF := fun i hi => (hxs i hi).2
  have hwraps : ¬ Wraps next xs := not_wraps_of_nonzero next fun i hi => (hxs i hi).1
  rw [BitVec.lt_def]
  rcases h with h | ⟨m, hm, hle⟩
  · rw [BitVec.lt_def] at h
    exact h.trans_le (le_counter hbelow hwraps)
  · have hlt := numbers_lt_counter hbelow hwraps m (mem_numbers_of_mem next hm (hxs m hm).1)
    rw [BitVec.lt_def] at hlt
    rw [BitVec.le_def] at hle
    omega

theorem ne_max_of_lt {n m : ULONG} (h : n < m) : n ≠ 0xFFFFFFFF := by
  rintro rfl
  have hlt := m.isLt
  rw [BitVec.lt_def] at h
  change 2 ^ 32 - 1 < _ at h
  omega

theorem Kept.listed (h : Kept t) (hv : v ∈ views t.BridgeList) :
    (v.InstanceNumber ≠ 0 ∧ v.InstanceNumber ≠ 0xFFFFFFFF) ∧
      ∀ p ∈ v.ports, p.InstanceNumber ≠ 0 ∧ p.InstanceNumber ≠ 0xFFFFFFFF := by
  have hsound := h.agree.sound v hv
  obtain ⟨b, hb, rfl⟩ := Multiset.mem_map.mp hv
  have hcounted := h.counted.ports b hb
  refine ⟨⟨hsound.nonzero, ne_max_of_lt (h.counted.below _ hcounted.used)⟩, fun p hp => ?_⟩
  exact ⟨(hsound.ports p hp).2.1, ne_max_of_lt (hcounted.below _ (hcounted.listed p hp))⟩

theorem Kept.delivered (h : Kept t) {b : BackendBridge} (hb : b ∈ t.backend) :
    (b.InstanceNumber ≠ 0 ∧ b.InstanceNumber ≠ 0xFFFFFFFF) ∧
      (∀ p ∈ b.ports, p.InstanceNumber ≠ 0 ∧ p.InstanceNumber ≠ 0xFFFFFFFF) ∧
      ∀ w ∈ b.vlans, w.InstanceNumber ≠ 0 := by
  have hmem : BackendBridge.view b ∈ backendViews t.backend :=
    Multiset.mem_map_of_mem BackendBridge.view hb
  rw [h.agree.stored] at hmem
  obtain ⟨v, hv, hview⟩ := Multiset.mem_map.mp hmem
  obtain ⟨hnumber, hports⟩ := h.listed hv
  refine ⟨?_, fun p hp => ?_, fun w hw => ?_⟩
  · rw [show b.InstanceNumber = v.InstanceNumber from
      congrArg BackendView.InstanceNumber hview.symm]
    exact hnumber
  · have hp : p ∈ storedPorts v.ports := by
      rw [show storedPorts v.ports = b.ports from congrArg BackendView.ports hview]
      exact hp
    obtain ⟨q, hq, rfl⟩ := mem_storedPorts hp
    exact hports q hq
  · have hw : w ∈ v.vlans.map storedVlan := by
      rw [show v.vlans.map storedVlan = b.vlans from congrArg BackendView.vlans hview]
      exact hw
    obtain ⟨x, hx, rfl⟩ := Multiset.mem_map.mp hw
    exact ((h.agree.sound v hv).vlans x hx).2

theorem Kept.backend_numbers (h : Kept t) :
    (t.backend.map BackendBridge.InstanceNumber : Multiset ULONG) =
      (views t.BridgeList).map View.InstanceNumber := by
  have hmap := congrArg (Multiset.map BackendView.InstanceNumber) h.agree.stored
  rw [backendViews, Multiset.map_map, Multiset.map_map] at hmap
  rw [← Multiset.map_coe]
  exact hmap

theorem Kept.pending_port (h : Kept t)
    (he : e ∈ pending (views t.BridgeList)) : IsPort e ∧ e.number ≠ 0xFFFFFFFF ∧
      e.upper ∈ t.backend.map BackendBridge.InstanceNumber := by
  obtain ⟨v, hv, p, hp, -, rfl⟩ := mem_pending.mp he
  obtain ⟨hnumber, hports⟩ := h.listed hv
  refine ⟨⟨rfl, hnumber.1⟩, ?_, ?_⟩
  · rw [pendingEntry, ((h.agree.sound v hv).ports p hp).1]
    exact (hports p hp).2
  · rw [← Multiset.mem_coe, h.backend_numbers]
    exact Multiset.mem_map_of_mem View.InstanceNumber hv

theorem exists_entries (h : (order : Multiset (CStr × Folder)) = entries.map folderOf) :
    ∃ es : List (Entry Unit), order = es.map folderOf ∧ (es : Multiset (Entry Unit)) = entries := by
  obtain ⟨l, rfl⟩ := Quot.exists_rep entries
  have hperm : order.Perm (l.map folderOf) := Multiset.coe_eq_coe.mp h
  have hcomp := congrFun (congrFun (List.eq_map_comp_perm folderOf) order) l
  obtain ⟨es, hes, hl⟩ := hcomp.mpr hperm
  exact ⟨es, hes, Multiset.coe_eq_coe.mpr hl⟩

theorem map_loadedPort_stored (h : Sound v) :
    (storedPorts v.ports).map loadedPort = v.ports.filter (·.bNew = false) := by
  rw [storedPorts, Multiset.map_map]
  conv_rhs => rw [← Multiset.map_id (v.ports.filter _)]
  apply Multiset.map_congr rfl
  intro p hp
  obtain ⟨hp, hold⟩ := Multiset.mem_filter.mp hp
  have hlink := (h.ports p hp).1
  obtain ⟨link, number, pAlias, bNew, bAllowDelete⟩ := p
  simp only at hlink hold
  subst hlink hold
  rfl

theorem map_addedPort_pending (h : Sound v) :
    (pendingPorts v.InstanceNumber v.ports).map addedPort = v.ports.filter (·.bNew = true) := by
  rw [pendingPorts, Multiset.map_map]
  conv_rhs => rw [← Multiset.map_id (v.ports.filter _)]
  apply Multiset.map_congr rfl
  intro p hp
  obtain ⟨hp, hnew⟩ := Multiset.mem_filter.mp hp
  obtain ⟨hlink, -, hdelete⟩ := h.ports p hp
  obtain ⟨link, number, pAlias, bNew, bAllowDelete⟩ := p
  simp only at hlink hnew hdelete
  subst hlink hnew
  rw [hdelete rfl]
  rfl

theorem folderPorts_pending
    (hdistinct : (V.map View.InstanceNumber).Nodup) (hv : v ∈ V) (hsound : Sound v) :
    folderPorts (pending V) v.InstanceNumber = v.ports.filter (·.bNew = true) := by
  obtain ⟨W, rfl⟩ := Multiset.exists_cons_of_mem hv
  have hothers := key_ne_of_nodup hdistinct
  have hself : (pendingPorts v.InstanceNumber v.ports).filter (·.upper = v.InstanceNumber) =
      pendingPorts v.InstanceNumber v.ports := by
    apply Multiset.filter_eq_self.mpr
    intro e he
    obtain ⟨p, -, rfl⟩ := Multiset.mem_map.mp he
    rfl
  have hrest : (pending W).filter (·.upper = v.InstanceNumber) = 0 := by
    apply Multiset.filter_eq_nil.mpr
    intro e he
    obtain ⟨w, hw, p, -, -, rfl⟩ := mem_pending.mp he
    exact hothers w hw
  rw [folderPorts, pending_cons, Multiset.filter_add, hself, hrest, add_zero,
    map_addedPort_pending hsound]

theorem restored (hdistinct : (V.map View.InstanceNumber).Nodup)
    (hv : v ∈ V) (hsound : Sound v) :
    (loadedView (storedView v)).addPorts (folderPorts (pending V) v.InstanceNumber) = v := by
  have hports : v.ports.filter (·.bNew = true) + v.ports.filter (·.bNew = false) = v.ports := by
    have hnot := Multiset.filter_add_not (fun p : Port => p.bNew = true) v.ports
    simp only [Bool.not_eq_true] at hnot
    exact hnot
  have hvlans : (v.vlans.map storedVlan).map loadedVlan = v.vlans := by
    rw [Multiset.map_map]
    conv_rhs => rw [← Multiset.map_id v.vlans]
    apply Multiset.map_congr rfl
    intro w hw
    have hlink := (hsound.vlans w hw).1
    obtain ⟨link, number, pAlias⟩ := w
    simp only at hlink
    subst hlink
    rfl
  rw [folderPorts_pending hdistinct hv hsound]
  apply View.ext
  · exact hsound.link.symm
  · rfl
  · rfl
  · exact hsound.old.symm
  · rfl
  · change v.ports.filter (·.bNew = true) + (storedPorts v.ports).map loadedPort = v.ports
    rw [map_loadedPort_stored hsound, hports]
  · exact hvlans

theorem forall₂_eq {R : α → α → Prop} {l l' : List α} (h : List.Forall₂ R l l')
    (heq : ∀ a ∈ l, ∀ a', R a a' → a' = a) : l' = l := by
  induction h with
  | nil => rfl
  | cons hab _ ih =>
    rw [heq _ (List.mem_cons_self ..) _ hab,
      ih fun a ha => heq a (List.mem_cons_of_mem _ ha)]

theorem bridgeKept_eq {b b' : BackendBridge} (h : BridgeKept b b') (hb : b.InstanceNumber ≠ 0)
    (hports : ∀ p ∈ b.ports, p.InstanceNumber ≠ 0) (hvlans : ∀ w ∈ b.vlans, w.InstanceNumber ≠ 0) :
    b' = b := by
  obtain ⟨hnumbered, hdelete, hp, hw⟩ := h
  obtain ⟨hnumber, halias⟩ := hnumbered hb
  have hports' := forall₂_eq hp fun p hp p' hkept => hkept.1 (hports p hp)
  have hvlans' := forall₂_eq hw fun w hw w' hkept => hkept (hvlans w hw)
  obtain ⟨number, pAlias, delete, ports, vlans⟩ := b
  obtain ⟨number', pAlias', delete', ports', vlans'⟩ := b'
  simp only at hnumber halias hdelete hports' hvlans'
  subst hnumber halias hdelete hports' hvlans'
  rfl

theorem haFolder_reorder (order : List (CStr × Folder)) (cosa : Folder) :
    (haFolder (reorder order cosa)).folders = order := by
  rw [reorder, haFolder_AddFolder, Folder.folders_mk]

theorem storedNext_reorder (order : List (CStr × Folder)) (cosa : Folder) (name : CStr)
    (number : ULONG) : storedNext (brgFolder (reorder order cosa)) name number =
      storedNext (brgFolder cosa) name number := by
  rw [reorder, brgFolder_AddFolder, storedNext_halfAdded]

theorem covered_lt_next {r : Row} {entries : List (Entry Unit)} {m : ULONG}
    (hloaded : Loaded fo r) (hsame : r.after = r.before)
    (hports : ∀ p ∈ r.before.ports, p.InstanceNumber ≠ 0 ∧ p.InstanceNumber ≠ 0xFFFFFFFF)
    (hentries : ∀ e ∈ entries, e.number ≠ 0xFFFFFFFF)
    (hm : Covered (recordedPort fo (collect entries r.listed).InstanceNumber)
      ((collect entries r.listed).PortList.map Port.InstanceNumber) m) :
    m < (collect entries r.listed).ulNextPortInsNum := by
  have hview := view_collect entries r.listed
  rw [hloaded.view] at hview
  have hnumber : (collect entries r.listed).InstanceNumber = r.before.InstanceNumber := by
    rw [← hsame]
    exact congrArg View.InstanceNumber hview
  have hlisted : r.listed.InstanceNumber = r.before.InstanceNumber := by
    rw [← hsame]
    exact congrArg View.InstanceNumber hloaded.view
  have hlist : ((collect entries r.listed).PortList : Multiset Port) =
      folderPorts entries r.listed.InstanceNumber +
        (r.before.ports : Multiset BackendPort).map loadedPort := by
    rw [← hsame]
    exact congrArg View.ports hview
  obtain ⟨hle, hbehind⟩ := le_next_collect entries r.listed hentries
  have hxs : ∀ i ∈ r.before.ports.map BackendPort.InstanceNumber, i ≠ 0 ∧ i ≠ 0xFFFFFFFF := by
    intro i hi
    obtain ⟨p, hp, rfl⟩ := List.mem_map.mp hi
    exact hports p hp
  have hnext := hloaded.next
  rw [hsame, ← hnumber] at hnext
  have hcommitted : Covered (recordedPort fo (collect entries r.listed).InstanceNumber)
      (r.before.ports.map BackendPort.InstanceNumber) m →
        m < (collect entries r.listed).ulNextPortInsNum := by
    intro hcovered
    have hlt := covered_lt_counter hxs hcovered
    rw [← hnext, BitVec.lt_def] at hlt
    rw [BitVec.lt_def]
    exact hlt.trans_le hle
  rcases hm with hm | ⟨i, hi, hmi⟩
  · exact hcommitted (Or.inl hm)
  · obtain ⟨p, hp, rfl⟩ := List.mem_map.mp hi
    rw [← Multiset.mem_coe, hlist, Multiset.mem_add] at hp
    rcases hp with hp | hp
    · obtain ⟨e, he, rfl⟩ := Multiset.mem_map.mp hp
      obtain ⟨he, hupper⟩ := Multiset.mem_filter.mp he
      have hlt := hbehind e he hupper.symm
      change m ≤ e.number at hmi
      rw [BitVec.le_def] at hmi
      rw [BitVec.lt_def]
      omega
    · obtain ⟨q, hq, rfl⟩ := Multiset.mem_map.mp hp
      exact hcommitted (Or.inr ⟨_, List.mem_map_of_mem hq, hmi⟩)

theorem views_restored (h : Kept t) {rows : List Row}
    {entries : List (Entry Unit)} (hrows : ∀ r ∈ rows, Loaded fo r)
    (hsame : ∀ r ∈ rows, r.after = r.before) (hbefore : rows.map Row.before = t.backend)
    (hentries : (entries : Multiset (Entry Unit)) = pending (views t.BridgeList))
    (hl : (l : Multiset Bridge) = (rows : Multiset Row).map fun r => collect entries r.listed) :
    views l = views t.BridgeList := by
  let back : BackendView → View := fun s =>
    (loadedView s).addPorts (folderPorts (pending (views t.BridgeList)) s.InstanceNumber)
  have hlisted : views l = (backendViews t.backend).map back := by
    rw [views, hl, Multiset.map_map, ← hbefore, backendViews, ← Multiset.map_coe,
      Multiset.map_map, Multiset.map_map]
    apply Multiset.map_congr rfl
    intro r hr
    have hnumber : r.listed.InstanceNumber = r.before.InstanceNumber := by
      rw [← hsame r hr]
      exact congrArg View.InstanceNumber (hrows r hr).view
    rw [Function.comp_apply, view_collect, (hrows r hr).view, hsame r hr, hentries, hnumber]
    rfl
  rw [hlisted, h.agree.stored, Multiset.map_map]
  conv_rhs => rw [← Multiset.map_id (views t.BridgeList)]
  apply Multiset.map_congr rfl
  intro v hv
  exact restored h.agree.distinct hv (h.agree.sound v hv)

theorem restart_spec (h : Kept t)
    (horder : order.Perm (haFolder t.cosa).folders) : ∃ (l : List Bridge) (cosa' : Folder),
    restart t order = some { t with
      BridgeList := l
      ulNextBridgeInstance := counter (recordedBridge (brgFolder t.cosa))
        (t.backend.map BackendBridge.InstanceNumber)
      cosa := cosa' } ∧
    Registered cosa' ∧ (haFolder cosa').folders = order ∧ views l = views t.BridgeList ∧
    ∀ b ∈ l, b.ulNextPortInsNum ≠ 0 ∧
      ∀ m, Covered (recordedPort (brgFolder t.cosa) b.InstanceNumber)
        (b.PortList.map Port.InstanceNumber) m → m < b.ulNextPortInsNum := by
  have hfolders := h.agree.folders
  rw [← Multiset.coe_eq_coe.mpr horder] at hfolders
  obtain ⟨entries, rfl, hentries⟩ := exists_entries hfolders
  have hpending : ∀ e ∈ entries, IsPort e ∧ e.number ≠ 0xFFFFFFFF ∧
      e.upper ∈ t.backend.map BackendBridge.InstanceNumber := by
    intro e he
    apply h.pending_port
    rw [← hentries]
    exact he
  have hnext : ∀ name number,
      storedNext (brgFolder (reorder (entries.map folderOf) t.cosa)) name number =
        storedNext (brgFolder t.cosa) name number := storedNext_reorder _ _
  have hbridge : recordedBridge (brgFolder (reorder (entries.map folderOf) t.cosa)) =
      recordedBridge (brgFolder t.cosa) := hnext _ _
  have hport : ∀ n, recordedPort (brgFolder (reorder (entries.map folderOf) t.cosa)) n =
      recordedPort (brgFolder t.cosa) n := fun n => hnext _ n
  have hself : numbers (recordedBridge (brgFolder (reorder (entries.map folderOf) t.cosa)))
      (t.backend.map BackendBridge.InstanceNumber) =
        t.backend.map BackendBridge.InstanceNumber := by
    apply numbers_eq_self
    intro i hi
    obtain ⟨b, hb, rfl⟩ := List.mem_map.mp hi
    exact (h.delivered hb).1.1
  have hdistinct : (t.backend.map BackendBridge.InstanceNumber).Nodup := by
    rw [← Multiset.coe_nodup, h.backend_numbers]
    exact h.agree.distinct
  have hroot : (reorder (entries.map folderOf) t.cosa).GetFolder layout.halfAdded = none :=
    root_AddFolder h.registered.root _
  obtain ⟨rows, l, cosa', hstart, hregistry, hbefore, hrows, -, hl⟩ :=
    CosaBridgingInitialize_spec hroot (haFolder_reorder (entries.map folderOf) t.cosa)
      (fun e he => (hpending e he).1)
      (fun b hb => (h.delivered hb).2.2) (by rw [hself]; exact hdistinct)
      (fun e he => by rw [hself]; exact (hpending e he).2.2)
  have hmem : ∀ r ∈ rows, r.before ∈ t.backend := by
    intro r hr
    rw [← hbefore]
    exact List.mem_map_of_mem hr
  have hsame : ∀ r ∈ rows, r.after = r.before := by
    intro r hr
    obtain ⟨hnumber, hports, hvlans⟩ := h.delivered (hmem r hr)
    exact bridgeKept_eq (hrows r hr).kept hnumber.1 (fun p hp => (hports p hp).1) hvlans
  have hafter : rows.map Row.after = t.backend := by
    rw [← hbefore]
    exact List.map_congr_left hsame
  rw [hbridge, hafter] at hstart
  have hha : haFolder cosa' = haFolder (reorder (entries.map folderOf) t.cosa) := by
    rw [haFolder, hregistry.opened, Option.getD_some]
  refine ⟨l, cosa', ?_, ⟨hregistry.root, ?_, fun name number => ?_⟩, ?_, ?_, fun b hb => ?_⟩
  · rw [restart, hstart]
    rfl
  · rw [hha]
    exact hregistry.opened
  · rw [hregistry.next, hnext]
    exact h.registered.recorded name number
  · rw [hha, haFolder_reorder]
  · exact views_restored h hrows hsame hbefore hentries hl
  · have hb : b ∈ (l : Multiset Bridge) := hb
    rw [hl] at hb
    obtain ⟨r, hr, rfl⟩ := Multiset.mem_map.mp hb
    have hr : r ∈ rows := hr
    have hmax : ∀ e ∈ entries, e.number ≠ 0xFFFFFFFF := fun e he => (hpending e he).2.1
    refine ⟨fun hzero => ?_, fun m hm => ?_⟩
    · have hle := (le_next_collect entries r.listed hmax).1
      rw [hzero, (hrows r hr).next] at hle
      have hcounter : counter _ (r.before.ports.map BackendPort.InstanceNumber) = (0 : ULONG) :=
        BitVec.eq_of_toNat_eq (Nat.le_zero.mp hle)
      apply h.registered.recorded (layout.nextInsNum (.child ())) r.after.InstanceNumber
      rw [← hnext]
      exact (counter_eq_zero hcounter).2
    · apply covered_lt_next (hrows r hr) (hsame r hr) (h.delivered (hmem r hr)).2.1 hmax
      rw [hport]
      exact hm

end Restarting

section Steps

variable {t : State} {k j : ℕ} {b : Bridge} {p : Port}

theorem Kept.agree_at (h : Kept t) (hb : t.BridgeList[k]? = some b) :
    Agree (Bridge.view b ::ₘ views (t.BridgeList.eraseIdx k)) t.backend t.cosa := by
  rw [← views_at hb]
  exact h.agree

theorem Kept.others_at (h : Kept t) (hb : t.BridgeList[k]? = some b) :
    ∀ c ∈ t.BridgeList.eraseIdx k, c.InstanceNumber ≠ b.InstanceNumber := by
  intro c hc
  exact key_ne_of_nodup (h.agree_at hb).distinct (Bridge.view c)
    (Multiset.mem_map_of_mem Bridge.view hc)

theorem mem_set_iff (hb : l[k]? = some b) (b' c : Bridge) :
    c ∈ l.set k b' ↔ c = b' ∨ c ∈ l.eraseIdx k := by
  rw [← Multiset.mem_coe, coe_set hb, Multiset.mem_cons, Multiset.mem_coe]

theorem Counted.set (h : Counted t) (hb : t.BridgeList[k]? = some b) (b' : Bridge)
    (hnumber : b'.InstanceNumber = b.InstanceNumber)
    (hnext : b'.ulNextPortInsNum = b.ulNextPortInsNum)
    (hports : ∀ p ∈ b'.PortList, p.InstanceNumber ∈ t.usedPorts b.InstanceNumber)
    (backend : Backend)
    (cosa : Folder) :
    Counted { t with BridgeList := t.BridgeList.set k b', backend := backend, cosa := cosa } := by
  refine ⟨h.nonzero, h.below, fun c hc => ?_, h.unused⟩
  rcases (mem_set_iff hb b' c).mp hc with rfl | hc
  · obtain ⟨hused, hnonzero, hbelow, -⟩ := h.ports b (List.mem_of_getElem? hb)
    rw [← hnumber] at hused hbelow hports
    rw [← hnext] at hnonzero hbelow
    exact ⟨hused, hnonzero, hbelow, hports⟩
  · exact h.ports c (List.mem_of_mem_eraseIdx hc)

theorem kept_addBridge (h : Kept t) (hok : t.ulNextBridgeInstance ≠ 0xFFFFFFFF) :
    Kept (Bridge_AddEntry t) := by
  have hunused : t.ulNextBridgeInstance ∉ t.usedBridges := h.counted.fresh.next
  have hlisted : t.ulNextBridgeInstance ∉ (views t.BridgeList).map View.InstanceNumber := by
    intro hmem
    obtain ⟨v, hv, hnumber⟩ := Multiset.mem_map.mp hmem
    obtain ⟨c, hc, rfl⟩ := Multiset.mem_map.mp hv
    exact hunused (hnumber ▸ (h.counted.ports c hc).used)
  obtain ⟨hregistered, hagree⟩ := @Agree.bridgeAdd _ _ _ h.agree h.registered _ _
    ("Bridge".toList ++ decimal t.ulNextBridgeInstance.toNat) "cpe-VLAN1".toList
    h.counted.nonzero (nextAfter_ne_zero t.ulNextBridgeInstance) hlisted
  refine ⟨hregistered, ?_, ?_⟩
  · rw [Bridge_AddEntry, views, push_coe, Multiset.map_cons]
    exact hagree
  · refine ⟨nextAfter_ne_zero _, fun n hn => ?_, fun c hc => ?_, fun n hn => ?_⟩
    · change n < nextAfter t.ulNextBridgeInstance
      rw [BitVec.lt_def, toNat_nextAfter_of_ne hok]
      rcases List.mem_cons.mp hn with rfl | hn
      · omega
      · have hlt := h.counted.below n hn
        rw [BitVec.lt_def] at hlt
        omega
    · have hc : c ∈ ((Bridge_AddEntry t).BridgeList : Multiset Bridge) := hc
      rw [Bridge_AddEntry, push_coe, Multiset.mem_cons] at hc
      rcases hc with rfl | hc
      · have hnone : t.usedPorts t.ulNextBridgeInstance = [] := h.counted.unused _ hunused
        refine ⟨List.mem_cons_self .., (by decide : (1 : ULONG) ≠ 0), fun n hn => ?_,
          fun p hp => ?_⟩
        · change n ∈ t.usedPorts t.ulNextBridgeInstance at hn
          rw [hnone] at hn
          exact absurd hn (List.not_mem_nil)
        · exact absurd hp (List.not_mem_nil)
      · obtain ⟨hused, hnonzero, hbelow, hports⟩ := h.counted.ports c hc
        exact ⟨List.mem_cons_of_mem _ hused, hnonzero, hbelow, hports⟩
    · exact h.counted.unused n fun hmem => hn (List.mem_cons_of_mem _ hmem)

theorem kept_delBridge (h : Kept t) (hb : t.BridgeList[k]? = some b)
    (hok : b.bAllowDelete = true → ∀ p ∈ b.PortList, p.bNew = false) :
    Kept (Bridge_DelEntry t k b) := by
  have hat := h.agree_at hb
  have hold : b.bNew = false := hat.sound_at.old
  rw [Bridge_DelEntry]
  by_cases hdelete : b.bAllowDelete = false
  · rw [if_pos hdelete]
    exact h
  · rw [if_neg hdelete, hold, if_neg Bool.false_ne_true]
    refine ⟨h.registered, hat.erase (hok (Bool.not_eq_false _ ▸ hdelete)), h.counted.nonzero,
      h.counted.below, fun c hc => ?_, h.counted.unused⟩
    exact h.counted.ports c (List.mem_of_mem_eraseIdx hc)

theorem kept_commitBridge (h : Kept t) (hb : t.BridgeList[k]? = some b) :
    Kept (Bridge_Commit t k b) := by
  have hat := h.agree_at hb
  have hold : b.bNew = false := hat.sound_at.old
  rw [Bridge_Commit, hold, if_neg Bool.false_ne_true]
  refine ⟨h.registered, ?_, h.counted.nonzero, h.counted.below, h.counted.ports,
    h.counted.unused⟩
  rw [views_at hb]
  exact hat.setCfg

theorem kept_delPort (h : Kept t) (hb : t.BridgeList[k]? = some b) (hp : b.PortList[j]? = some p)
    (hok : p.bAllowDelete = true → p.bNew = false) : Kept (Port_DelEntry t k b j p) := by
  have hat := h.agree_at hb
  have hold : b.bNew = false := hat.sound_at.old
  have hlink : b.link = b.InstanceNumber := hat.sound_at.link
  rw [Port_DelEntry]
  by_cases hdelete : p.bAllowDelete = false
  · rw [if_pos hdelete]
    exact h
  · have hbackend : CosaDmlBrgPortDelEntry b.link p.InstanceNumber t.backend =
        CosaDmlBrgPortDelEntry b.InstanceNumber p.InstanceNumber t.backend := by
      rw [hlink]
    rw [if_neg hdelete, if_neg (by simp [hold]), hbackend]
    refine ⟨h.registered, ?_, h.counted.set hb { b with PortList := b.PortList.eraseIdx j } rfl
      rfl (fun q hq => ?_) _ _⟩
    · rw [views_set hb]
      exact hat.portDel (coe_at hp) (hok (Bool.not_eq_false _ ▸ hdelete))
    · exact (h.counted.ports b (List.mem_of_getElem? hb)).listed q (List.mem_of_mem_eraseIdx hq)

theorem kept_commitPort (h : Kept t) (hb : t.BridgeList[k]? = some b)
    (hp : b.PortList[j]? = some p) : Kept (Port_Commit t k b j p) := by
  have hat := h.agree_at hb
  have hlisted := (h.counted.ports b (List.mem_of_getElem? hb)).listed
  rw [Port_Commit]
  by_cases hnew : p.bNew = true
  · rw [if_pos hnew]
    refine ⟨h.registered.del _, ?_, h.counted.set hb
      { b with PortList := b.PortList.set j { p with bNew := false } } rfl rfl (fun q hq => ?_) _ _⟩
    · rw [views_set hb]
      have hcommit := hat.portCommit (coe_at hp) hnew
      rw [← coe_set hp] at hcommit
      exact hcommit
    · rcases List.mem_or_eq_of_mem_set hq with hq | rfl
      · exact hlisted q hq
      · exact hlisted p (List.mem_of_getElem? hp)
  · rw [if_neg hnew]
    refine ⟨h.registered, ?_, h.counted.nonzero, h.counted.below, h.counted.ports,
      h.counted.unused⟩
    rw [views_at hb]
    exact hat.portSetCfg (coe_at hp) (Bool.not_eq_true _ ▸ hnew)

theorem Kept.name_fresh (h : Kept t) (hb : t.BridgeList[k]? = some b)
    (hok : ∀ c ∈ t.BridgeList, ∀ p ∈ c.PortList, p.bNew = true →
      decimal c.InstanceNumber.toNat ++ decimal p.InstanceNumber.toNat ≠
        decimal b.InstanceNumber.toNat ++ decimal b.ulNextPortInsNum.toNat)
    (hp : p.link = b.ulNextPortInsNum) :
    entryName layout (pendingEntry b.InstanceNumber p) ∉
      (pending (Bridge.view b ::ₘ views (t.BridgeList.eraseIdx k))).map (entryName layout) := by
  rw [← views_at hb]
  intro hmem
  obtain ⟨e, he, hname⟩ := Multiset.mem_map.mp hmem
  obtain ⟨v, hv, q, hq, hnew, rfl⟩ := mem_pending.mp he
  have hlink := ((h.agree.sound v hv).ports q hq).1
  obtain ⟨c, hc, rfl⟩ := Multiset.mem_map.mp hv
  apply hok c hc q hq hnew
  have hcancel : decimal c.InstanceNumber.toNat ++ decimal q.link.toNat =
      decimal b.InstanceNumber.toNat ++ decimal p.link.toNat := by
    rw [entryName, entryName, List.append_assoc, List.append_assoc] at hname
    exact List.append_cancel_left hname
  rw [hlink, hp] at hcancel
  exact hcancel

theorem kept_addPort (h : Kept t) (hb : t.BridgeList[k]? = some b)
    (hok : b.ulNextPortInsNum ≠ 0xFFFFFFFF ∧ ∀ c ∈ t.BridgeList, ∀ p ∈ c.PortList,
      p.bNew = true → decimal c.InstanceNumber.toNat ++ decimal p.InstanceNumber.toNat ≠
        decimal b.InstanceNumber.toNat ++ decimal b.ulNextPortInsNum.toNat) :
    Kept (Port_AddEntry t k b) := by
  obtain ⟨hused, hnonzero, hbelow, hlisted⟩ := h.counted.ports b (List.mem_of_getElem? hb)
  have hnext : b.ulNextPortInsNum ∉ t.usedPorts b.InstanceNumber :=
    fun hmem => absurd (hbelow _ hmem) (by simp)
  let pPort : Port := ⟨b.ulNextPortInsNum, b.ulNextPortInsNum,
    "Port".toList ++ decimal b.ulNextPortInsNum.toNat, true, true⟩
  have hfresh : pPort.InstanceNumber ∉ (Bridge.view b).ports.map Port.InstanceNumber := by
    intro hmem
    obtain ⟨q, hq, hnumber⟩ := Multiset.mem_map.mp hmem
    have hin := hlisted q hq
    rw [hnumber] at hin
    exact hnext hin
  have hname : entryName layout (pendingEntry b.InstanceNumber pPort) ∉
      (pending (Bridge.view b ::ₘ views (t.BridgeList.eraseIdx k))).map (entryName layout) :=
    h.name_fresh hb hok.2 rfl
  obtain ⟨hregistered, hagree⟩ := (h.agree_at hb).portAdd h.registered
    (nextAfter_ne_zero b.ulNextPortInsNum) (p := pPort) ⟨rfl, hnonzero, rfl⟩ rfl hfresh hname
  refine ⟨hregistered, ?_, h.counted.nonzero, h.counted.below, fun c hc => ?_, fun n hn => ?_⟩
  · rw [Port_AddEntry, views_set hb, Bridge.view, push_coe]
    exact hagree
  · rcases (mem_set_iff hb _ c).mp hc with rfl | hc
    · refine ⟨hused, nextAfter_ne_zero _, fun n hn => ?_, fun q hq => ?_⟩
      · change n ∈ Function.update t.usedPorts b.InstanceNumber _ b.InstanceNumber at hn
        rw [Function.update_self] at hn
        change n < nextAfter b.ulNextPortInsNum
        rw [BitVec.lt_def, toNat_nextAfter_of_ne hok.1]
        rcases List.mem_cons.mp hn with rfl | hn
        · omega
        · have hlt := hbelow n hn
          rw [BitVec.lt_def] at hlt
          omega
      · change q.InstanceNumber ∈
          Function.update t.usedPorts b.InstanceNumber _ b.InstanceNumber
        rw [Function.update_self]
        have hq : q ∈ (IpRegistry.pushEntryByInsNum Port.link b.PortList pPort : Multiset Port) :=
          hq
        rw [push_coe, Multiset.mem_cons] at hq
        rcases hq with rfl | hq
        · exact List.mem_cons_self ..
        · exact List.mem_cons_of_mem _ (hlisted q hq)
    · have hne := h.others_at hb c hc
      have hcounted := h.counted.ports c (List.mem_of_mem_eraseIdx hc)
      have hsame : (Port_AddEntry t k b).usedPorts c.InstanceNumber =
          t.usedPorts c.InstanceNumber := Function.update_of_ne hne _ _
      refine ⟨hcounted.used, hcounted.nonzero, ?_, ?_⟩
      · rw [hsame]
        exact hcounted.below
      · rw [hsame]
        exact hcounted.listed
  · have hne : n ≠ b.InstanceNumber := fun heq => hn (heq ▸ hused)
    exact (Function.update_of_ne hne _ _).trans (h.counted.unused n hn)

theorem kept_restart (h : Kept t)
    (horder : order.Perm (haFolder t.cosa).folders) (hok : Ok t (.restart order)) :
    ∃ t', restart t order = some t' ∧ Kept t' := by
  obtain ⟨l, cosa', hrestart, hregistered, hfolders, hviews, hnext⟩ := restart_spec h horder
  obtain ⟨hbridges, hports⟩ := hok
  have hnumbers : ∀ m, m ∈ t.BridgeList.map Bridge.InstanceNumber ↔
      m ∈ t.backend.map BackendBridge.InstanceNumber := by
    intro m
    have hviewed : (t.BridgeList.map Bridge.InstanceNumber : Multiset ULONG) =
        (views t.BridgeList).map View.InstanceNumber := by
      rw [views, Multiset.map_map, ← Multiset.map_coe]
      rfl
    rw [← Multiset.mem_coe, hviewed, ← h.backend_numbers, Multiset.mem_coe]
  have hdelivered : ∀ i ∈ t.backend.map BackendBridge.InstanceNumber, i ≠ 0 ∧ i ≠ 0xFFFFFFFF := by
    intro i hi
    obtain ⟨c, hc, rfl⟩ := List.mem_map.mp hi
    exact (h.delivered hc).1
  refine ⟨_, hrestart, hregistered, ?_, fun hzero => ?_, fun n hn => ?_, fun c hc => ?_,
    h.counted.unused⟩
  · have hagree := h.agree
    rw [← hviews] at hagree
    refine ⟨hagree.sound, hagree.distinct, hagree.stored, ?_, hagree.names⟩
    rw [hfolders, Multiset.coe_eq_coe.mpr horder]
    exact hagree.folders
  · exact h.registered.recorded _ _ (counter_eq_zero hzero).2
  · apply covered_lt_counter hdelivered
    rcases hbridges n hn with hlt | ⟨m, hm, hle⟩
    · exact Or.inl hlt
    · exact Or.inr ⟨m, (hnumbers m).mp hm, hle⟩
  · have hmem : Bridge.view c ∈ views l := Multiset.mem_map_of_mem Bridge.view hc
    rw [hviews] at hmem
    obtain ⟨b, hb, hview⟩ := Multiset.mem_map.mp hmem
    have hnumber : b.InstanceNumber = c.InstanceNumber := congrArg View.InstanceNumber hview
    have hlist : b.PortList.Perm c.PortList :=
      Multiset.coe_eq_coe.mp (congrArg View.ports hview)
    obtain ⟨hnonzero, hcovered⟩ := hnext c hc
    obtain ⟨hused, -, -, hlisted⟩ := h.counted.ports b hb
    have hgiven := hports b hb
    rw [hnumber] at hused hlisted hgiven
    refine ⟨hused, hnonzero, fun n hn => hcovered n ?_, fun q hq => ?_⟩
    · rcases hgiven n hn with hlt | ⟨m, hm, hle⟩
      · exact Or.inl hlt
      · exact Or.inr ⟨m, (hlist.map _).mem_iff.mp hm, hle⟩
    · exact hlisted q (hlist.mem_iff.mpr hq)

theorem Kept.good (h : Kept t) : Good t := by
  refine ⟨h.agree, h.counted.fresh, fun order horder => ?_⟩
  obtain ⟨l, cosa', hrestart, -, -, hviews, -⟩ := restart_spec h horder
  exact ⟨_, hrestart, hviews⟩

theorem kept_step {c : Call} (h : Kept t) (hlegal : Legal t c) (hok : Ok t c) :
    ∃ t', step t c = some t' ∧ Kept t' := by
  cases c with
  | addBridge => exact ⟨_, rfl, kept_addBridge h hok⟩
  | delBridge k =>
    have hb := List.getElem?_eq_getElem hlegal
    refine ⟨Bridge_DelEntry t k _, ?_, kept_delBridge h hb (hok _ hb)⟩
    simp only [step, hb, Option.map_some]
  | commitBridge k =>
    have hb := List.getElem?_eq_getElem hlegal
    refine ⟨Bridge_Commit t k _, ?_, kept_commitBridge h hb⟩
    simp only [step, hb, Option.map_some]
  | addPort k =>
    have hb := List.getElem?_eq_getElem hlegal
    refine ⟨Port_AddEntry t k _, ?_, kept_addPort h hb (hok _ hb)⟩
    simp only [step, hb, Option.map_some]
  | delPort k j =>
    obtain ⟨b, hb, hj⟩ := hlegal
    have hp := List.getElem?_eq_getElem hj
    refine ⟨Port_DelEntry t k b j _, ?_, kept_delPort h hb hp (hok b _ hb hp)⟩
    simp only [step, hb, hp, Option.bind_some, Option.map_some]
  | commitPort k j =>
    obtain ⟨b, hb, hj⟩ := hlegal
    have hp := List.getElem?_eq_getElem hj
    refine ⟨Port_Commit t k b j _, ?_, kept_commitPort h hb hp⟩
    simp only [step, hb, hp, Option.bind_some, Option.map_some]
  | restart order => exact kept_restart h hlegal hok

end Steps

section Starting

theorem storedView_loadedView (s : BackendView) : storedView (loadedView s) = s := by
  have hports : storedPorts (s.ports.map loadedPort) = s.ports := by
    rw [storedPorts, Multiset.filter_eq_self.mpr, Multiset.map_map]
    · exact Multiset.map_id s.ports
    · intro p hp
      obtain ⟨q, -, rfl⟩ := Multiset.mem_map.mp hp
      rfl
  have hvlans : (s.vlans.map loadedVlan).map storedVlan = s.vlans := by
    rw [Multiset.map_map]
    exact Multiset.map_id s.vlans
  exact BackendView.ext rfl rfl rfl hports hvlans

theorem pending_loaded (h : ∀ v ∈ V, ∃ s, v = loadedView s) :
    pending V = 0 := by
  apply Multiset.eq_zero_of_forall_notMem
  intro e he
  obtain ⟨v, hv, p, hp, hnew, -⟩ := mem_pending.mp he
  obtain ⟨s, rfl⟩ := h v hv
  obtain ⟨q, -, rfl⟩ := Multiset.mem_map.mp hp
  exact Bool.false_ne_true hnew

theorem sound_loaded {r : Row} (hloaded : Loaded fo r)
    (hrecorded : recordedPort fo r.after.InstanceNumber = 1)
    (hnumber : r.after.InstanceNumber ≠ 0)
    (hports : Distinct 1 (r.before.ports.map BackendPort.InstanceNumber))
    (hvlans : ∀ w ∈ r.before.vlans, w.InstanceNumber ≠ 0)
    (hdelivered : Delivered (r.before.vlans.map BackendVlan.InstanceNumber)) :
    Sound (Bridge.view r.listed) := by
  have hnumbers := hloaded.numbers
  rw [hrecorded] at hnumbers
  have hsame : r.after.vlans = r.before.vlans :=
    forall₂_eq hloaded.kept.vlans fun w hw w' hkept => hkept (hvlans w hw)
  rw [hloaded.view]
  refine ⟨rfl, hnumber, rfl, fun p hp => ?_, fun w hw => ?_, ?_, ?_⟩
  · have hp : p ∈ (r.after.ports : Multiset BackendPort).map loadedPort := hp
    obtain ⟨q, hq, rfl⟩ := Multiset.mem_map.mp hp
    have hq : q ∈ r.after.ports := hq
    have hmem : q.InstanceNumber ∈ r.after.ports.map BackendPort.InstanceNumber :=
      List.mem_map_of_mem hq
    rw [hnumbers] at hmem
    exact ⟨rfl, fun hzero => hports.nonzero (hzero ▸ hmem),
      fun hnew => absurd hnew Bool.false_ne_true⟩
  · have hw : w ∈ (r.after.vlans : Multiset BackendVlan).map loadedVlan := hw
    obtain ⟨x, hx, rfl⟩ := Multiset.mem_map.mp hw
    have hx : x ∈ r.after.vlans := hx
    rw [hsame] at hx
    exact ⟨rfl, hvlans x hx⟩
  · have hdistinct := hports.distinct
    rw [← hnumbers] at hdistinct
    change ((r.after.ports : Multiset BackendPort).map loadedPort |>.map Port.InstanceNumber).Nodup
    rw [Multiset.map_map]
    exact hdistinct
  · have hdistinct := hdelivered.distinct
    rw [List.filter_eq_self.mpr] at hdistinct
    · change ((r.after.vlans : Multiset BackendVlan).map loadedVlan |>.map
        Vlan.InstanceNumber).Nodup
      rw [Multiset.map_map, hsame]
      exact hdistinct
    · intro i hi
      obtain ⟨w, hw, rfl⟩ := List.mem_map.mp hi
      exact decide_eq_true (hvlans w hw)

theorem counter_one_ne_zero (xs : List ULONG) : counter 1 xs ≠ 0 :=
  fun hzero => absurd (counter_eq_zero hzero).2 (by decide)

theorem counted_start {backend backend' : Backend} {fo cosa : Folder} {rows : List Row}
    (hdelivers : Delivers backend) (hok : StartOk backend)
    (hdistinct : Distinct 1 (backend.map BackendBridge.InstanceNumber))
    (hport : ∀ n, recordedPort fo n = 1) (hrows : ∀ r ∈ rows, Loaded fo r)
    (hmem : ∀ r ∈ rows, r.before ∈ backend) (hrow : ∀ b ∈ l, ∃ r ∈ rows, r.listed = b)
    (hperm : (l.map Bridge.InstanceNumber).Perm
      (numbers 1 (backend.map BackendBridge.InstanceNumber))) :
    Counted ⟨l, counter 1 (backend.map BackendBridge.InstanceNumber), backend', cosa,
      l.map Bridge.InstanceNumber, fun n => (l.filter (·.InstanceNumber = n)).flatMap fun b =>
        b.PortList.map Port.InstanceNumber⟩ := by
  have hnodup : (l.map Bridge.InstanceNumber).Nodup := hperm.nodup_iff.mpr hdistinct.distinct
  refine ⟨counter_one_ne_zero _, fun n hn => ?_, fun b hb => ?_, fun n hn => ?_⟩
  · exact numbers_lt_counter hdelivers.bridges.below hok.bridges.2 n (hperm.mem_iff.mp hn)
  · refine ⟨List.mem_map_of_mem hb, ?_, fun n hn => ?_, fun p hp => ?_⟩
    · obtain ⟨r, hr, rfl⟩ := hrow b hb
      rw [(hrows r hr).next, hport]
      exact counter_one_ne_zero _
    · obtain ⟨c, hfiltered, hlisted⟩ := List.mem_flatMap.mp hn
      obtain ⟨hc, hnumber⟩ := List.mem_filter.mp hfiltered
      obtain rfl : c = b := eq_of_key hnodup hc hb (of_decide_eq_true hnumber)
      obtain ⟨p, hp, rfl⟩ := List.mem_map.mp hlisted
      obtain ⟨r, hr, rfl⟩ := hrow c hb
      have hlist : (r.listed.PortList : Multiset Port) =
          (r.after.ports : Multiset BackendPort).map loadedPort :=
        congrArg View.ports (hrows r hr).view
      rw [← Multiset.mem_coe, hlist] at hp
      obtain ⟨q, hq, rfl⟩ := Multiset.mem_map.mp hp
      have hin := hmem r hr
      have hnumbers := (hrows r hr).numbers
      rw [hport] at hnumbers
      rw [(hrows r hr).next, hport]
      apply numbers_lt_counter (hdelivers.ports _ hin).below (hok.ports _ hin).2
      rw [← hnumbers]
      exact List.mem_map_of_mem hq
    · exact List.mem_flatMap.mpr
        ⟨b, List.mem_filter.mpr ⟨hb, decide_eq_true rfl⟩, List.mem_map_of_mem hp⟩
  · have hfilter : l.filter (·.InstanceNumber = n) = [] := by
      apply List.filter_eq_nil_iff.mpr
      intro b hb heq
      exact hn (List.mem_map.mpr ⟨b, hb, of_decide_eq_true heq⟩)
    change (l.filter (·.InstanceNumber = n)).flatMap _ = []
    rw [hfilter, List.flatMap_nil]

theorem kept_start (hfolder : cosa.GetFolder layout.folder = none)
    (hroot : cosa.GetFolder layout.halfAdded = none) (hdelivers : Delivers backend)
    (hok : StartOk backend) : ∃ t, start backend cosa = some t ∧
      List.Forall₂ BridgeKept backend t.backend ∧ Kept t := by
  have hempty : brgFolder cosa = Folder.empty := by
    rw [brgFolder, hfolder, Option.getD_none]
  have hnone : haFolder cosa = Folder.empty := by
    rw [haFolder, hempty]
    rfl
  have hbridge : recordedBridge (brgFolder cosa) = 1 := by
    rw [hempty]
    rfl
  have hport : ∀ n, recordedPort (brgFolder cosa) n = 1 := by
    intro n
    rw [hempty]
    rfl
  have hdistinct := (distinct_iff hdelivers.bridges).mpr hok.bridges.1
  obtain ⟨rows, l, cosa', hstart, hregistry, hbefore, hrows, hnumbers, hl⟩ :=
    @CosaBridgingInitialize_spec _ _ [] hroot (by rw [hnone]; rfl) (by simp) hok.vlans
      (by rw [hbridge]; exact hdistinct.distinct) (by simp)
  rw [hbridge] at hstart hnumbers
  have hlisted : (l : Multiset Bridge) = (rows : Multiset Row).map Row.listed := hl
  have hperm := perm_map_listed hrows hlisted
  rw [hnumbers] at hperm
  have hmem : ∀ r ∈ rows, r.before ∈ backend := by
    intro r hr
    rw [← hbefore]
    exact List.mem_map_of_mem hr
  have hrow : ∀ b ∈ l, ∃ r ∈ rows, r.listed = b := by
    intro b hb
    have hb : b ∈ (l : Multiset Bridge) := hb
    rw [hlisted] at hb
    exact Multiset.mem_map.mp hb
  have hsound : ∀ r ∈ rows, Sound (Bridge.view r.listed) := by
    intro r hr
    have hin := hmem r hr
    refine sound_loaded (hrows r hr) (hport _) (fun hzero => ?_)
      ((distinct_iff (hdelivers.ports _ hin)).mpr (hok.ports _ hin).1) (hok.vlans _ hin)
      (hdelivers.vlans _ hin)
    apply hdistinct.nonzero
    rw [← hnumbers, ← hzero]
    exact List.mem_map_of_mem hr
  have hha : haFolder cosa' = Folder.empty := by
    rw [haFolder, hregistry.opened, Option.getD_some, hnone]
  have hviews : ∀ v ∈ views l, ∃ r ∈ rows, Bridge.view r.listed = v := by
    intro v hv
    obtain ⟨b, hb, rfl⟩ := Multiset.mem_map.mp hv
    obtain ⟨r, hr, rfl⟩ := hrow b hb
    exact ⟨r, hr, rfl⟩
  have hpending : pending (views l) = 0 := by
    apply pending_loaded
    intro v hv
    obtain ⟨r, hr, rfl⟩ := hviews v hv
    exact ⟨_, (hrows r hr).view⟩
  have hview : (views l).map View.InstanceNumber = (numbers 1
      (backend.map BackendBridge.InstanceNumber) : Multiset ULONG) := by
    rw [← Multiset.coe_eq_coe.mpr hperm, views, Multiset.map_map, ← Multiset.map_coe]
    rfl
  refine ⟨_, by rw [start, hstart]; rfl, ?_, ⟨hregistry.root, ?_, fun name number => ?_⟩, ?_, ?_⟩
  · rw [← hbefore, List.forall₂_map_left_iff, List.forall₂_map_right_iff]
    exact List.forall₂_same.mpr fun r hr => (hrows r hr).kept
  · rw [hha, ← hnone]
    exact hregistry.opened
  · rw [hregistry.next, hempty]
    exact (by decide : (1 : ULONG) ≠ 0)
  · refine ⟨fun v hv => ?_, ?_, ?_, ?_, ?_⟩
    · obtain ⟨r, hr, rfl⟩ := hviews v hv
      exact hsound r hr
    · rw [hview]
      exact hdistinct.distinct
    · rw [views, hlisted, Multiset.map_map, Multiset.map_map, backendViews, ← Multiset.map_coe,
        Multiset.map_map]
      apply Multiset.map_congr rfl
      intro r hr
      rw [Function.comp_apply, Function.comp_apply, Function.comp_apply, (hrows r hr).view,
        storedView_loadedView]
    · rw [hpending, hha]
      rfl
    · rw [hpending]
      exact Multiset.nodup_zero
  · exact counted_start hdelivers hok hdistinct hport hrows hmem hrow hperm

/-- Behind a first start on an empty registry that meets its condition, every run of legal
calls that meet theirs keeps the three stores in agreement: every port that is not committed
has one folder and every other entry its place in the backend, a restart gives back every
bridge, port and VLAN, and no number is given twice. -/
theorem bridging_agrees {backend : Backend} {cosa : Folder}
    (hfolder : cosa.GetFolder layout.folder = none)
    (hroot : cosa.GetFolder layout.halfAdded = none) (hdelivers : Delivers backend)
    (hok : StartOk backend) : ∃ t, start backend cosa = some t ∧
      List.Forall₂ BridgeKept backend t.backend ∧ Good t ∧
      ∀ calls, StepsMeet step Legal t calls → StepsMeet step Ok t calls →
        Throughout step Good t calls := by
  obtain ⟨t, hstart, hbackend, hkept⟩ := kept_start hfolder hroot hdelivers hok
  refine ⟨t, hstart, hbackend, hkept.good, fun calls hlegal hmeets => ?_⟩
  apply @throughout_of_stepsMeet _ _ step _ (fun t c => Legal t c ∧ Ok t c) Kept
    (fun t ht => ht.good) (fun t c ht hc => kept_step ht hc.1 hc.2) _ _ hkept
  exact StepsMeet.and step hlegal hmeets

def lanBridge : BackendBridge := ⟨1, "lan".toList, true, [], []⟩

theorem bridging_agrees_lan : ∃ t, start [lanBridge] Folder.empty = some t ∧
    List.Forall₂ BridgeKept [lanBridge] t.backend ∧ Good t ∧
    ∀ calls, StepsMeet step Legal t calls → StepsMeet step Ok t calls →
      Throughout step Good t calls := by
  refine bridging_agrees rfl rfl ⟨by decide, ?_, ?_⟩ ⟨?_, ⟨?_, ?_⟩, ?_⟩
  · intro b hb
    rw [List.mem_singleton.mp hb]
    exact ⟨List.nodup_nil, by simp [lanBridge]⟩
  · intro b hb
    rw [List.mem_singleton.mp hb]
    exact ⟨List.nodup_nil, by simp [lanBridge]⟩
  · intro b hb w hw
    rw [List.mem_singleton.mp hb] at hw
    exact absurd hw List.not_mem_nil
  · exact clear_of_notMem 1 (by decide)
  · exact not_wraps_of_nonzero 1 (by simp [lanBridge])
  · intro b hb
    rw [List.mem_singleton.mp hb]
    exact ⟨clear_of_notMem 1 List.not_mem_nil, not_wraps_of_nonzero 1 (by simp [lanBridge])⟩

end Starting

/-- A port that is not committed is deleted: its folder stays, because the mark of the bridge
is looked at, and the next restart brings the port back. -/
theorem deleted_port_returns : ¬ ∀ (backend : Backend) (cosa : Folder) (t : State)
    (calls : List Call), cosa.GetFolder layout.folder = none →
      cosa.GetFolder layout.halfAdded = none → Delivers backend →
      start backend cosa = some t → StepsMeet step Legal t calls →
        Throughout step Good t calls := by
  intro h
  have hdelivers : Delivers [lanBridge] := by
    refine ⟨by decide, fun b hb => ?_, fun b hb => ?_⟩
    · rw [List.mem_singleton.mp hb]
      exact ⟨List.nodup_nil, by simp [lanBridge]⟩
    · rw [List.mem_singleton.mp hb]
      exact ⟨List.nodup_nil, by simp [lanBridge]⟩
  have hlisted : (start [lanBridge] Folder.empty).map (fun t => t.BridgeList.length) = some 1 := by
    decide +kernel
  have hadded : ((start [lanBridge] Folder.empty).bind fun t => step t (.addPort 0)).map
      (fun t => t.BridgeList[0]?.map fun b => b.PortList.length) = some (some 1) := by
    decide +kernel
  have hdeleted : (((start [lanBridge] Folder.empty).bind fun t => step t (.addPort 0)).bind
      fun t => step t (.delPort 0 0)).map (fun t => ((haFolder t.cosa).folders.length,
        t.BridgeList.flatMap fun b => b.PortList)) = some (1, []) := by
    decide +kernel
  cases hstart : start [lanBridge] Folder.empty with
  | none =>
    rw [hstart] at hlisted
    cases hlisted
  | some t =>
    rw [hstart, Option.map_some, Option.some.injEq] at hlisted
    rw [hstart, Option.bind_some] at hadded hdeleted
    have hlegal : StepsMeet step Legal t [.addPort 0, .delPort 0 0] := by
      refine ⟨by rw [Legal, hlisted]; exact Nat.one_pos, fun u hu => ⟨?_, fun _ _ => trivial⟩⟩
      rw [hu, Option.map_some, Option.some.injEq, Option.map_eq_some_iff] at hadded
      obtain ⟨b, hb, hlength⟩ := hadded
      exact ⟨b, hb, by rw [hlength]; exact Nat.one_pos⟩
    obtain ⟨u, hu, -, v, hv, hgood, -⟩ :=
      h [lanBridge] Folder.empty t [.addPort 0, .delPort 0 0] rfl rfl hdelivers hstart hlegal
    rw [hu, Option.bind_some, hv, Option.map_some, Option.some.injEq, Prod.mk.injEq] at hdeleted
    have hpending : pending (views v.BridgeList) = 0 := by
      apply Multiset.eq_zero_of_forall_notMem
      intro e he
      obtain ⟨w, hw, p, hp, -⟩ := mem_pending.mp he
      obtain ⟨b, hb, rfl⟩ := Multiset.mem_map.mp hw
      have hin : p ∈ v.BridgeList.flatMap fun b => b.PortList := List.mem_flatMap.mpr ⟨b, hb, hp⟩
      rw [hdeleted.2] at hin
      exact List.not_mem_nil hin
    have hfolders := congrArg Multiset.card hgood.agree.folders
    rw [hpending, Multiset.map_zero, Multiset.coe_card, hdeleted.1] at hfolders
    cases hfolders

end CcspPandM.BridgingRuns
