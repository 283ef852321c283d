import CcspPandM.Bridging
import CcspPandM.InitialNumbers
import Mathlib.Data.Multiset.Bind

/-!
What the load of the bridges and the walk over the folders leave in the lists. The lists
are compared as multisets, since neither the order of the backend nor that of the folders
is kept. The load numbers the entries in one pass; the walk gives each bridge the ports
of the folders that name it.
-/
namespace CcspPandM.BridgingLoads

open CString Bridging InitialNumbers KeyedList Registry
open HalfAdded (Entry)
open HalfAddedRuns (entryFolder entryName)
open IpRegistry (ULONG advance nextAfter pushEntryByInsNum storedNext)

/-- A bridge without the order of its lists and without its next numbers. -/
@[ext] structure View where
  link : ULONG
  InstanceNumber : ULONG
  Alias : CStr
  bNew : Bool
  bAllowDelete : Bool
  ports : Multiset Port
  vlans : Multiset Vlan

def Bridge.view (b : Bridge) : View :=
  ⟨b.link, b.InstanceNumber, b.Alias, b.bNew, b.bAllowDelete, b.PortList, b.VLANList⟩

def views (BridgeList : List Bridge) : Multiset View :=
  (BridgeList : Multiset Bridge).map Bridge.view

@[ext] structure BackendView where
  InstanceNumber : ULONG
  Alias : CStr
  bAllowDelete : Bool
  ports : Multiset BackendPort
  vlans : Multiset BackendVlan

def BackendBridge.view (b : BackendBridge) : BackendView :=
  ⟨b.InstanceNumber, b.Alias, b.bAllowDelete, b.ports, b.vlans⟩

def backendViews (backend : Backend) : Multiset BackendView :=
  (backend : Multiset BackendBridge).map BackendBridge.view

def loadedPort (p : BackendPort) : Port :=
  ⟨p.InstanceNumber, p.InstanceNumber, p.Alias, false, p.bAllowDelete⟩

def loadedVlan (v : BackendVlan) : Vlan := ⟨v.InstanceNumber, v.InstanceNumber, v.Alias⟩

def loadedView (b : BackendView) : View :=
  ⟨b.InstanceNumber, b.InstanceNumber, b.Alias, false, b.bAllowDelete, b.ports.map loadedPort,
    b.vlans.map loadedVlan⟩

section Loading

def PortKept (p p' : BackendPort) : Prop :=
  (p.InstanceNumber ≠ 0 → p' = p) ∧ p'.bAllowDelete = p.bAllowDelete

def VlanKept (v v' : BackendVlan) : Prop := v.InstanceNumber ≠ 0 → v' = v

structure BridgeKept (b b' : BackendBridge) : Prop where
  numbered : b.InstanceNumber ≠ 0 → b'.InstanceNumber = b.InstanceNumber ∧ b'.Alias = b.Alias
  bAllowDelete : b'.bAllowDelete = b.bAllowDelete
  ports : List.Forall₂ PortKept b.ports b'.ports
  vlans : List.Forall₂ VlanKept b.vlans b'.vlans

theorem push_coe {α : Type} (number : α → ULONG) (l : List α) (a : α) :
    (pushEntryByInsNum number l a : Multiset α) = a ::ₘ (l : Multiset α) :=
  Multiset.coe_eq_coe.mpr (IpRegistry.pushEntry_perm number l a)

theorem loadPort_spec (st : PortLoad) (p : BackendPort) : ∃ p', PortKept p p' ∧
    p'.InstanceNumber =
      (if p.InstanceNumber = 0 then st.ulNextPortInsNum else p.InstanceNumber) ∧
    (loadPort st p).ports = st.ports ++ [p'] ∧
    ((loadPort st p).PortList : Multiset Port) = loadedPort p' ::ₘ (st.PortList : Multiset Port) ∧
    (loadPort st p).ulNextPortInsNum = counterStep st.ulNextPortInsNum p.InstanceNumber := by
  rw [loadPort, counterStep]
  by_cases hp : p.InstanceNumber = 0
  · rw [if_neg (not_not.mpr hp), if_pos hp, if_pos hp]
    refine ⟨⟨st.ulNextPortInsNum, "Port".toList ++ decimal st.ulNextPortInsNum.toNat,
      p.bAllowDelete⟩, ⟨fun h => absurd hp h, rfl⟩, rfl, rfl, push_coe _ _ _, rfl⟩
  · rw [if_pos hp, if_neg hp, if_neg hp]
    exact ⟨p, ⟨fun _ => rfl, rfl⟩, rfl, rfl, push_coe _ _ _, rfl⟩

theorem loadPorts_spec (ports : List BackendPort) (st : PortLoad) : ∃ added,
    List.Forall₂ PortKept ports added ∧
    added.map BackendPort.InstanceNumber =
      numbers st.ulNextPortInsNum (ports.map BackendPort.InstanceNumber) ∧
    (ports.foldl loadPort st).ports = st.ports ++ added ∧
    ((ports.foldl loadPort st).PortList : Multiset Port) =
      (added : Multiset BackendPort).map loadedPort + st.PortList ∧
    (ports.foldl loadPort st).ulNextPortInsNum =
      counter st.ulNextPortInsNum (ports.map BackendPort.InstanceNumber) := by
  induction ports generalizing st with
  | nil => exact ⟨[], List.Forall₂.nil, rfl, by simp, by simp, rfl⟩
  | cons p ports ih =>
    obtain ⟨p', hkept, hnumber, hports, hlist, hnext⟩ := loadPort_spec st p
    obtain ⟨added, hall, hnumbers, hadded, hlists, hcounter⟩ := ih (loadPort st p)
    rw [hnext] at hnumbers hcounter
    refine ⟨p' :: added, hall.cons hkept, ?_, ?_, ?_, hcounter⟩
    · rw [List.map_cons, List.map_cons, numbers, hnumber, hnumbers]
    · rw [List.foldl_cons, hadded, hports, List.append_assoc]
      rfl
    · rw [List.foldl_cons, hlists, hlist, ← Multiset.cons_coe, Multiset.map_cons,
        Multiset.add_cons, Multiset.cons_add]

theorem loadVlans_spec (next : ULONG) (vlans : List BackendVlan) (st : VlanLoad)
    (h : ∀ v ∈ vlans, v.InstanceNumber ≠ 0) :
    (vlans.foldl (loadVlan next) st).vlans = st.vlans ++ vlans ∧
    ((vlans.foldl (loadVlan next) st).VLANList : Multiset Vlan) =
      (vlans : Multiset BackendVlan).map loadedVlan + st.VLANList := by
  induction vlans generalizing st with
  | nil => exact ⟨by simp, by simp⟩
  | cons v vlans ih =>
    have hv : v.InstanceNumber ≠ 0 := h v (List.mem_cons_self ..)
    obtain ⟨hvlans, hlist⟩ := ih (loadVlan next st v) fun x hx => h x (List.mem_cons_of_mem _ hx)
    have hround : loadVlan next st v =
        ⟨advance st.ulNextVLANInsNum v.InstanceNumber,
          pushEntryByInsNum Vlan.link st.VLANList (loadedVlan v), st.vlans ++ [v]⟩ := if_pos hv
    rw [hround] at hvlans hlist
    rw [List.foldl_cons, hround, hvlans, hlist, push_coe, ← Multiset.cons_coe, Multiset.map_cons,
      Multiset.add_cons, Multiset.cons_add]
    exact ⟨by simp, rfl⟩

def recordedBridge (fo : Folder) : ULONG := storedNext fo (layout.nextInsNum .parent) 0

def recordedPort (fo : Folder) (number : ULONG) : ULONG :=
  storedNext fo (layout.nextInsNum (.child ())) number

/-- A bridge before and behind the load, and as it is listed. -/
structure Row where
  before : BackendBridge
  after : BackendBridge
  listed : Bridge

structure Loaded (fo : Folder) (r : Row) : Prop where
  kept : BridgeKept r.before r.after
  view : Bridge.view r.listed = loadedView (BackendBridge.view r.after)
  numbers : r.after.ports.map BackendPort.InstanceNumber =
    InitialNumbers.numbers (recordedPort fo r.after.InstanceNumber)
      (r.before.ports.map BackendPort.InstanceNumber)
  next : r.listed.ulNextPortInsNum = counter (recordedPort fo r.after.InstanceNumber)
    (r.before.ports.map BackendPort.InstanceNumber)

theorem numberBridge_spec (next : ULONG) (b : BackendBridge) :
    (numberBridge next b).1 = (if b.InstanceNumber = 0 then next else b.InstanceNumber) ∧
      (b.InstanceNumber ≠ 0 → (numberBridge next b).2.1 = b.Alias) ∧
      (numberBridge next b).2.2 = counterStep next b.InstanceNumber := by
  rw [numberBridge, counterStep]
  by_cases hb : b.InstanceNumber = 0
  · rw [if_neg (not_not.mpr hb), if_pos hb, if_pos hb]
    exact ⟨rfl, fun h => absurd hb h, rfl⟩
  · rw [if_pos hb, if_neg hb, if_neg hb]
    exact ⟨rfl, fun _ => rfl, rfl⟩

theorem forall₂_vlanKept (vlans : List BackendVlan) : List.Forall₂ VlanKept vlans vlans :=
  List.forall₂_same.mpr fun _ _ _ => rfl

theorem loadBridge_spec (fo : Folder) (st : Load) (b : BackendBridge) (hst : st.crashed = false)
    (hvlans : ∀ v ∈ b.vlans, v.InstanceNumber ≠ 0) : ∃ b' listed,
    Loaded fo ⟨b, b', listed⟩ ∧
    b'.InstanceNumber =
      (if b.InstanceNumber = 0 then st.ulNextBridgeInstance else b.InstanceNumber) ∧
    (loadBridge fo st b).backend = st.backend ++ [b'] ∧
    ((loadBridge fo st b).BridgeList : Multiset Bridge) = listed ::ₘ st.BridgeList ∧
    (loadBridge fo st b).ulNextBridgeInstance =
      counterStep st.ulNextBridgeInstance b.InstanceNumber ∧
    (loadBridge fo st b).crashed = false := by
  obtain ⟨hnumber, halias, hnext⟩ := numberBridge_spec st.ulNextBridgeInstance b
  rw [← hnumber, ← hnext]
  generalize hnumbered : numberBridge st.ulNextBridgeInstance b = numbered at hnumber halias ⊢
  obtain ⟨number, pAlias, next⟩ := numbered
  obtain ⟨added, hkept, hnumbers, hports, hportList, hcounter⟩ :=
    loadPorts_spec b.ports ⟨recordedPort fo number, [], []⟩
  have hany : (b.vlans.any fun v => v.InstanceNumber = 0) = false := by
    simpa using hvlans
  simp only [loadBridge, hst, hnumbered, hany, Bool.false_eq_true, if_false, Bool.false_and]
  rw [recordedPort] at hports hportList hcounter
  generalize b.ports.foldl loadPort
    ⟨storedNext fo (layout.nextInsNum (.child ())) number, [], []⟩ = loaded
    at hports hportList hcounter ⊢
  obtain ⟨hvlan, hvlanList⟩ := loadVlans_spec loaded.ulNextPortInsNum b.vlans
    ⟨storedNext fo COSA_DML_RR_NAME_Bridge_VLAN_NextInsNumber number, [], []⟩ hvlans
  refine ⟨_, _, ⟨?_, ?_, ?_, ?_⟩, ?_, rfl, push_coe _ _ _, trivial, trivial⟩
  · refine ⟨fun hb => ⟨?_, halias hb⟩, rfl, ?_, ?_⟩
    · exact hnumber.trans (if_neg hb)
    · rw [hports]
      exact hkept
    · rw [hvlan]
      exact forall₂_vlanKept b.vlans
  · simp only [Bridge.view, loadedView, BackendBridge.view, hportList, hvlanList, hports, hvlan,
      List.nil_append, Multiset.coe_nil, add_zero]
  · rw [hports]
    exact hnumbers
  · exact hcounter
  · rfl

theorem loadBridges_foldl (fo : Folder) (backend : Backend) (st : Load)
    (hst : st.crashed = false)
    (hvlans : ∀ b ∈ backend, ∀ v ∈ b.vlans, v.InstanceNumber ≠ 0) : ∃ rows : List Row,
    rows.map Row.before = backend ∧ (∀ r ∈ rows, Loaded fo r) ∧
    rows.map (fun r => r.after.InstanceNumber) =
      numbers st.ulNextBridgeInstance (backend.map BackendBridge.InstanceNumber) ∧
    (backend.foldl (loadBridge fo) st).backend = st.backend ++ rows.map Row.after ∧
    ((backend.foldl (loadBridge fo) st).BridgeList : Multiset Bridge) =
      (rows : Multiset Row).map Row.listed + st.BridgeList ∧
    (backend.foldl (loadBridge fo) st).ulNextBridgeInstance =
      counter st.ulNextBridgeInstance (backend.map BackendBridge.InstanceNumber) ∧
    (backend.foldl (loadBridge fo) st).crashed = false := by
  induction backend generalizing st with
  | nil => exact ⟨[], rfl, by simp, rfl, by simp, by simp, rfl, hst⟩
  | cons b backend ih =>
    obtain ⟨b', listed, hloaded, hnumber, hbackend, hlist, hnext, hcrashed⟩ :=
      loadBridge_spec fo st b hst (hvlans b (List.mem_cons_self ..))
    obtain ⟨rows, hbefore, hrows, hnumbers, hafter, hlists, hcounter, hdone⟩ :=
      ih (loadBridge fo st b) hcrashed fun x hx => hvlans x (List.mem_cons_of_mem _ hx)
    rw [hnext] at hnumbers hcounter
    refine ⟨⟨b, b', listed⟩ :: rows, by rw [List.map_cons, hbefore], ?_, ?_, ?_, ?_, hcounter,
      hdone⟩
    · exact List.forall_mem_cons.mpr ⟨hloaded, hrows⟩
    · rw [List.map_cons, List.map_cons, numbers, hnumbers, hnumber]
    · rw [List.foldl_cons, hafter, hbackend, List.append_assoc]
      rfl
    · rw [List.foldl_cons, hlists, hlist, ← Multiset.cons_coe, Multiset.map_cons,
        Multiset.add_cons, Multiset.cons_add]

theorem loadBridges_spec (fo : Folder) (backend : Backend)
    (hvlans : ∀ b ∈ backend, ∀ v ∈ b.vlans, v.InstanceNumber ≠ 0) : ∃ rows : List Row,
    rows.map Row.before = backend ∧ (∀ r ∈ rows, Loaded fo r) ∧
    rows.map (fun r => r.after.InstanceNumber) =
      numbers (recordedBridge fo) (backend.map BackendBridge.InstanceNumber) ∧
    (loadBridges fo backend).backend = rows.map Row.after ∧
    ((loadBridges fo backend).BridgeList : Multiset Bridge) =
      (rows : Multiset Row).map Row.listed ∧
    (loadBridges fo backend).ulNextBridgeInstance =
      counter (recordedBridge fo) (backend.map BackendBridge.InstanceNumber) ∧
    (loadBridges fo backend).crashed = false := by
  obtain ⟨rows, hbefore, hrows, hnumbers, hafter, hlist, hcounter, hcrashed⟩ :=
    loadBridges_foldl fo backend ⟨[], recordedBridge fo, [], none, false⟩ rfl hvlans
  rw [Multiset.coe_nil, add_zero] at hlist
  exact ⟨rows, hbefore, hrows, hnumbers, hafter, hlist, hcounter, hcrashed⟩

end Loading

section Walking

def folderOf (e : Entry Unit) : CStr × Folder := (entryName layout e, entryFolder layout e)

def IsPort (e : Entry Unit) : Prop := e.role = .child () ∧ e.upper ≠ 0

def give (b : Bridge) (e : Entry Unit) : Bridge :=
  if b.InstanceNumber = e.upper then pushPort e.number e.Alias b else b

def collect (entries : List (Entry Unit)) (b : Bridge) : Bridge := entries.foldl give b

def addedPort (e : Entry Unit) : Port := ⟨e.number, e.number, e.Alias, true, true⟩

def folderPorts (entries : Multiset (Entry Unit)) (number : ULONG) : Multiset Port :=
  (entries.filter (·.upper = number)).map addedPort

def View.addPorts (v : View) (ports : Multiset Port) : View := { v with ports := ports + v.ports }

theorem bridge_infix_iff (e : Entry Unit) :
    "Bridge".toList <:+: entryName layout e ↔ "Bridge".toList <:+: layout.preffix e.role := by
  have hmark : "Bridge".toList = "Bridg".toList ++ ['e'] := by decide +kernel
  rw [hmark]
  exact HalfAddedRuns.infix_entryName_iff (x := "Bridg".toList) (e := e) (y := layout) (c := 'e')
    rfl rfl rfl

theorem contains_port {e : Entry Unit} (he : e.role = .child ()) :
    "Port".toList <:+: entryName layout e := by
  rw [entryName, he, List.append_assoc]
  exact (List.prefix_append _ _).isInfix

theorem walkFolder_spec {st : Walk} {i : ℕ} {e : Entry Unit} (hst : st.stopped = false)
    (hget : st.ha.folders[i]? = some (folderOf e)) (he : IsPort e)
    (hdistinct : (st.BridgeList.map Bridge.InstanceNumber).Nodup)
    (hupper : e.upper ∈ st.BridgeList.map Bridge.InstanceNumber) :
    walkFolder st i = ⟨st.BridgeList.map fun b => give b e, st.ha, e.number, e.upper, false⟩ := by
  have hnumber : (entryFolder layout e).getUint32 "InstanceNumber".toList = some e.number :=
    HalfAddedRuns.getUint32_InsNum (y := layout) (by decide) e
  have halias : (entryFolder layout e).getString "Alias".toList = some e.Alias :=
    HalfAddedRuns.getString_Alias (y := layout) e
  have hread : (entryFolder layout e).getUint32 "UpperInstanceNumber".toList = some e.upper :=
    HalfAddedRuns.getUint32_Upper_InsNum (y := layout) (by decide) (by decide) he.2
  have hbridge : ¬ "Bridge".toList <:+: entryName layout e := by
    rw [bridge_infix_iff, he.1]
    decide +kernel
  simp only [walkFolder, hst, hget, folderOf, hnumber, halias, hread, Option.getD_some,
    Bool.false_eq_true, if_false, if_neg hbridge, if_neg he.2, if_pos (contains_port he.1)]
  cases hfind : st.BridgeList.findIdx? fun b => b.InstanceNumber = e.upper with
  | none =>
    rw [List.findIdx?_eq_none_iff] at hfind
    obtain ⟨b, hb, hnum⟩ := List.mem_map.mp hupper
    exact absurd hnum (by simpa using hfind b hb)
  | some k =>
    obtain ⟨hk, hnum, -⟩ := List.findIdx?_eq_some_iff_getElem.mp hfind
    have hnum : st.BridgeList[k].InstanceNumber = e.upper := by simpa using hnum
    have hat : st.BridgeList[k]? = some st.BridgeList[k] := List.getElem?_eq_getElem hk
    have hchange := map_change_eq_set hdistinct hat (pushPort e.number e.Alias)
    rw [hnum, ← modify_of_getElem? hat] at hchange
    exact congrArg (fun l => Walk.mk l st.ha e.number e.upper false) hchange.symm

theorem give_InstanceNumber (b : Bridge) (e : Entry Unit) :
    (give b e).InstanceNumber = b.InstanceNumber := by
  rw [give]
  split
  · rfl
  · rfl

theorem map_give_InstanceNumber (l : List Bridge) (e : Entry Unit) :
    (l.map fun b => give b e).map Bridge.InstanceNumber = l.map Bridge.InstanceNumber := by
  rw [List.map_map]
  exact List.map_congr_left fun b _ => give_InstanceNumber b e

theorem walk_foldl (entries : List (Entry Unit)) (done : List (CStr × Folder)) (st : Walk)
    (hst : st.stopped = false) (hfolders : st.ha.folders = done ++ entries.map folderOf)
    (hports : ∀ e ∈ entries, IsPort e)
    (hdistinct : (st.BridgeList.map Bridge.InstanceNumber).Nodup)
    (hupper : ∀ e ∈ entries, e.upper ∈ st.BridgeList.map Bridge.InstanceNumber) :
    ((List.range' done.length entries.length).foldl walkFolder st).BridgeList =
        st.BridgeList.map (collect entries) ∧
      ((List.range' done.length entries.length).foldl walkFolder st).ha = st.ha := by
  induction entries generalizing done st with
  | nil => exact ⟨(List.map_id _).symm, rfl⟩
  | cons e entries ih =>
    have hget : st.ha.folders[done.length]? = some (folderOf e) := by
      rw [hfolders]
      simp
    have hround := walkFolder_spec hst hget (hports e (List.mem_cons_self ..)) hdistinct
      (hupper e (List.mem_cons_self ..))
    obtain ⟨hlist, hha⟩ := ih (done ++ [folderOf e]) (walkFolder st done.length)
      (by rw [hround]) (by rw [hround, hfolders]; simp)
      (fun x hx => hports x (List.mem_cons_of_mem _ hx))
      (by rw [hround, map_give_InstanceNumber]; exact hdistinct)
      (fun x hx => by
        rw [hround, map_give_InstanceNumber]
        exact hupper x (List.mem_cons_of_mem _ hx))
    rw [List.length_append, List.length_singleton] at hlist hha
    rw [List.length_cons, List.range'_succ, List.foldl_cons, hlist, hha, hround, List.map_map]
    exact ⟨rfl, rfl⟩

theorem CosaBridgingRegGetInfo_spec {ha : Folder} {entries : List (Entry Unit)}
    {l : List Bridge} (hfolders : ha.folders = entries.map folderOf)
    (hports : ∀ e ∈ entries, IsPort e) (hdistinct : (l.map Bridge.InstanceNumber).Nodup)
    (hupper : ∀ e ∈ entries, e.upper ∈ l.map Bridge.InstanceNumber) :
    (CosaBridgingRegGetInfo ha l).BridgeList = l.map (collect entries) ∧
      (CosaBridgingRegGetInfo ha l).ha = ha := by
  have hwalk := walk_foldl entries [] ⟨l, ha, 0, 0, false⟩ rfl hfolders hports hdistinct hupper
  rw [CosaBridgingRegGetInfo, hfolders, List.length_map, List.range_eq_range']
  exact hwalk

theorem folderPorts_cons (e : Entry Unit) (entries : Multiset (Entry Unit)) (number : ULONG) :
    folderPorts (e ::ₘ entries) number =
      if e.upper = number then addedPort e ::ₘ folderPorts entries number
      else folderPorts entries number := by
  rw [folderPorts, Multiset.filter_cons]
  split
  · simp [folderPorts]
  · simp [folderPorts]

theorem view_give (b : Bridge) (e : Entry Unit) : Bridge.view (give b e) =
    if e.upper = b.InstanceNumber then (Bridge.view b).addPorts {addedPort e}
    else Bridge.view b := by
  rw [give]
  by_cases h : b.InstanceNumber = e.upper
  · rw [if_pos h, if_pos h.symm]
    simp only [Bridge.view, pushPort, push_coe]
    rfl
  · rw [if_neg h, if_neg (Ne.symm h)]

theorem view_collect (entries : List (Entry Unit)) (b : Bridge) :
    Bridge.view (collect entries b) =
      (Bridge.view b).addPorts (folderPorts entries b.InstanceNumber) := by
  induction entries generalizing b with
  | nil => exact congrArg (fun ports => { Bridge.view b with ports := ports }) (zero_add _).symm
  | cons e entries ih =>
    have hrest : Bridge.view (collect (e :: entries) b) = _ := ih (give b e)
    rw [hrest, view_give, give_InstanceNumber, ← Multiset.cons_coe, folderPorts_cons]
    split
    · simp only [View.addPorts, Multiset.singleton_add, Multiset.add_cons, Multiset.cons_add]
    · rfl

theorem le_next_give (b : Bridge) {e : Entry Unit} (h : e.number ≠ 0xFFFFFFFF) :
    b.ulNextPortInsNum.toNat ≤ (give b e).ulNextPortInsNum.toNat ∧
      (b.InstanceNumber = e.upper →
        e.number.toNat < (give b e).ulNextPortInsNum.toNat) := by
  have hmax : e.number.toNat ≠ 2 ^ 32 - 1 := fun hn => h (BitVec.eq_of_toNat_eq hn)
  have hlt := e.number.isLt
  have hadd : (e.number + 1).toNat = e.number.toNat + 1 := by
    rw [BitVec.toNat_add]
    exact Nat.mod_eq_of_lt (by change e.number.toNat + 1 < 2 ^ 32; omega)
  rw [give]
  split
  · simp only [pushPort]
    split
    · next hle =>
      rw [BitVec.le_def] at hle
      omega
    · next hle =>
      rw [BitVec.le_def] at hle
      omega
  · next hne => exact ⟨le_refl _, fun heq => absurd heq hne⟩

theorem le_next_collect (entries : List (Entry Unit)) (b : Bridge)
    (h : ∀ e ∈ entries, e.number ≠ 0xFFFFFFFF) :
    b.ulNextPortInsNum.toNat ≤ (collect entries b).ulNextPortInsNum.toNat ∧
      ∀ e ∈ entries, b.InstanceNumber = e.upper →
        e.number.toNat < (collect entries b).ulNextPortInsNum.toNat := by
  induction entries generalizing b with
  | nil => exact ⟨le_refl _, by simp⟩
  | cons e entries ih =>
    obtain ⟨hle, hself⟩ := le_next_give b (h e (List.mem_cons_self ..))
    obtain ⟨hrest, hothers⟩ := ih (give b e) fun x hx => h x (List.mem_cons_of_mem _ hx)
    refine ⟨hle.trans hrest, fun x hx hupper => ?_⟩
    rcases List.mem_cons.mp hx with rfl | hx
    · exact (hself hupper).trans_le hrest
    · exact hothers x hx (by rw [give_InstanceNumber, hupper])

end Walking

section Starting

def brgFolder (cosa : Folder) : Folder := (cosa.GetFolder layout.folder).getD Folder.empty

def haFolder (cosa : Folder) : Folder :=
  ((brgFolder cosa).GetFolder layout.halfAdded).getD Folder.empty

theorem folder_ne : layout.halfAdded ≠ layout.folder := by decide +kernel

theorem brgFolder_AddFolder (cosa : Folder) (change : Folder → Folder) :
    brgFolder (cosa.AddFolder layout.folder change) = change (brgFolder cosa) := by
  rw [brgFolder, Folder.GetFolder_AddFolder_self, Option.getD_some, brgFolder]

theorem haFolder_AddFolder (cosa : Folder) (change : Folder → Folder) :
    haFolder (cosa.AddFolder layout.folder fun fo => fo.AddFolder layout.halfAdded change) =
      change (haFolder cosa) := by
  rw [haFolder, brgFolder_AddFolder, Folder.GetFolder_AddFolder_self, Option.getD_some, haFolder]

theorem root_AddFolder {cosa : Folder} (h : cosa.GetFolder layout.halfAdded = none)
    (change : Folder → Folder) :
    (cosa.AddFolder layout.folder change).GetFolder layout.halfAdded = none := by
  rw [Folder.GetFolder_AddFolder, if_neg folder_ne]
  exact h

theorem nextName_ne (name : CStr) (number : ℕ) : name ++ decimal number ≠ layout.halfAdded := by
  intro h
  have hlast := congrArg List.getLast? h
  rw [List.getLast?_append_of_ne_nil _ (decimal_ne_nil _),
    List.getLast?_eq_getLast_of_ne_nil (decimal_ne_nil _)] at hlast
  have hdigit := isDigit_of_mem_decimal (List.getLast_mem (decimal_ne_nil number))
  have hd : layout.halfAdded.getLast? = some 'd' := by decide +kernel
  rw [hd, Option.some.injEq] at hlast
  rw [hlast] at hdigit
  exact absurd hdigit (by decide)

theorem storedNext_halfAdded (fo : Folder) (change : Folder → Folder) (name : CStr)
    (number : ULONG) :
    storedNext (fo.AddFolder layout.halfAdded change) name number = storedNext fo name number := by
  have hne : IpRegistry.folderName (name ++ decimal number.toNat) ≠ layout.halfAdded :=
    HalfAddedRuns.folderName_ne (nextName_ne name _) (by decide +kernel)
  rw [storedNext, storedNext, Folder.GetFolder_AddFolder, if_neg hne]

/-- What a start leaves of the registry. -/
structure SameRegistry (cosa cosa' : Folder) : Prop where
  root : cosa'.GetFolder layout.halfAdded = none
  opened : (brgFolder cosa').GetFolder layout.halfAdded = some (haFolder cosa)
  next : ∀ name number,
    storedNext (brgFolder cosa') name number = storedNext (brgFolder cosa) name number

theorem perm_map_listed {rows : List Row} {fo : Folder} {l : List Bridge}
    (hrows : ∀ r ∈ rows, Loaded fo r)
    (hl : (l : Multiset Bridge) = (rows : Multiset Row).map Row.listed) :
    (l.map Bridge.InstanceNumber).Perm (rows.map fun r => r.after.InstanceNumber) := by
  rw [← Multiset.coe_eq_coe, ← Multiset.map_coe, hl, Multiset.map_map, ← Multiset.map_coe]
  apply Multiset.map_congr rfl
  intro r hr
  exact congrArg View.InstanceNumber (hrows r hr).view

theorem CosaBridgingInitialize_spec {cosa : Folder} {backend : Backend}
    {entries : List (Entry Unit)} (hroot : cosa.GetFolder layout.halfAdded = none)
    (hfolders : (haFolder cosa).folders = entries.map folderOf)
    (hports : ∀ e ∈ entries, IsPort e)
    (hvlans : ∀ b ∈ backend, ∀ v ∈ b.vlans, v.InstanceNumber ≠ 0)
    (hdistinct : (numbers (recordedBridge (brgFolder cosa))
      (backend.map BackendBridge.InstanceNumber)).Nodup)
    (hupper : ∀ e ∈ entries, e.upper ∈ numbers (recordedBridge (brgFolder cosa))
      (backend.map BackendBridge.InstanceNumber)) :
    ∃ (rows : List Row) (l : List Bridge) (cosa' : Folder),
      CosaBridgingInitialize backend cosa = some (l, counter (recordedBridge (brgFolder cosa))
        (backend.map BackendBridge.InstanceNumber), rows.map Row.after, cosa') ∧
      SameRegistry cosa cosa' ∧
      rows.map Row.before = backend ∧ (∀ r ∈ rows, Loaded (brgFolder cosa) r) ∧
      rows.map (fun r => r.after.InstanceNumber) = numbers (recordedBridge (brgFolder cosa))
        (backend.map BackendBridge.InstanceNumber) ∧
      (l : Multiset Bridge) = (rows : Multiset Row).map fun r => collect entries r.listed := by
  have hopened : ((brgFolder cosa).AddFolder layout.halfAdded id).GetFolder layout.halfAdded =
      some (haFolder cosa) := Folder.GetFolder_AddFolder_self _ _ _
  have hnext : recordedBridge ((brgFolder cosa).AddFolder layout.halfAdded id) =
      recordedBridge (brgFolder cosa) := storedNext_halfAdded _ id _ 0
  obtain ⟨rows, hbefore, hrows, hnumbers, hafter, hlist, hcounter, hcrashed⟩ :=
    loadBridges_spec ((brgFolder cosa).AddFolder layout.halfAdded id) backend hvlans
  rw [hnext] at hnumbers hcounter
  have hperm := perm_map_listed hrows hlist
  rw [hnumbers] at hperm
  obtain ⟨hwalked, hha⟩ := CosaBridgingRegGetInfo_spec hfolders hports
    (hperm.nodup_iff.mpr hdistinct) fun e he => hperm.mem_iff.mpr (hupper e he)
  refine ⟨rows, (CosaBridgingRegGetInfo (haFolder cosa)
    (loadBridges ((brgFolder cosa).AddFolder layout.halfAdded id) backend).BridgeList).BridgeList,
    cosa.AddFolder layout.folder fun _ => ((brgFolder cosa).AddFolder layout.halfAdded id).AddFolder
      layout.halfAdded fun _ => haFolder cosa, ?_, ⟨root_AddFolder hroot _, ?_, ?_⟩, hbefore, ?_,
    hnumbers, ?_⟩
  · have hfolder : (cosa.GetFolder layout.folder).getD Folder.empty = brgFolder cosa := rfl
    simp only [CosaBridgingInitialize, hroot, hfolder, hopened, Option.getD_some, hcrashed,
      Bool.false_eq_true, if_false, hha, hcounter, hafter]
  · rw [brgFolder_AddFolder, Folder.GetFolder_AddFolder_self]
  · intro name number
    rw [brgFolder_AddFolder, storedNext_halfAdded, storedNext_halfAdded]
  · intro r hr
    have hsame : recordedPort ((brgFolder cosa).AddFolder layout.halfAdded id)
        r.after.InstanceNumber = recordedPort (brgFolder cosa) r.after.InstanceNumber :=
      storedNext_halfAdded _ id _ _
    obtain ⟨hkept, hview, hports, hbehind⟩ := hrows r hr
    rw [hsame] at hports hbehind
    exact ⟨hkept, hview, hports, hbehind⟩
  · rw [hwalked, ← Multiset.map_coe, hlist, Multiset.map_map]
    rfl

end Starting

end CcspPandM.BridgingLoads
