import CcspPandM.KeyedList
import CcspPandM.RoutingV4
import CcspPandM.Runs
import Mathlib.Data.List.Perm.Subperm
import Mathlib.Data.List.Perm.Basic

/-!
The four copies of the static routes over whole runs. Beside the state runs the
list of entries as their last Add or Set left them; a step ends well when store,
kernel and reader all show that list. `arrayEntries` is what the two arrays show
instead, and the two lists part at a Del, and at a Set of any new value.
-/
namespace CcspPandM.RoutingV4Runs

open CString KeyedList KeyStore RoutingV4 Runs ScanText

inductive Call where
  | add (pEntry : V4Entry) (rest : CStr)
  | set (pEntry : V4Entry)
  | del (InstanceNumber : ℕ)
  | lanStatus
  deriving DecidableEq, Repr

def call (s : State) : Call → Option State
  | .add pEntry rest => CosaDmlRoutingAddV4Entry pEntry rest s
  | .set pEntry => CosaDmlRoutingSetV4Entry pEntry s
  | .del n => CosaDmlRoutingDelV4Entry n s
  | .lanStatus => AddRouteEntryToKernel s

abbrev numbers (entries : List V4Entry) : List ℕ := entries.map V4Entry.InstanceNumber

abbrev entryOf (entries : List V4Entry) (n : ℕ) : Option V4Entry :=
  find V4Entry.InstanceNumber entries n

abbrev putEntry (entries : List V4Entry) (e : V4Entry) : List V4Entry :=
  put V4Entry.InstanceNumber entries e

def entriesAfter (entries : List V4Entry) : Call → List V4Entry
  | .add e _ => putEntry entries { e with Enable := true }
  | .set e => putEntry entries e
  | .del n => drop V4Entry.InstanceNumber entries n
  | .lanStatus => entries

structure Tracked where
  state : State
  entries : List V4Entry

def step (t : Tracked) (c : Call) : Option Tracked :=
  (call t.state c).map (fun s => ⟨s, entriesAfter t.entries c⟩)

def routeOf (e : V4Entry) : Route :=
  ⟨addrText e.DestIPAddress, Count_NetmaskBitNum e.DestSubnetMask,
    addrText e.GatewayIPAddress, e.Interface, e.ForwardingMetric⟩

def staticRoutes (entries : List V4Entry) : List Route :=
  (entries.filter (·.Enable)).map routeOf

/-- The store holds the keys of the entries, and under 1..256 no other. -/
def Stored (store : Store CStr CStr) (stored : ℕ → Option V4Entry) : Prop :=
  ∀ n, 1 ≤ n → n ≤ 256 → store (aliasKey n) = (stored n).map V4Entry.Alias ∧
    store (nameKey n) = (stored n).map nameText ∧
    store (enabledKey n) = (stored n).map (fun e => flagText e.Enable)

/-- What the reader gives for each of the `Num_V4Entry` indexes. -/
def reported (s : State) (pEntry : V4Entry) : List (Option V4Entry) :=
  (List.range s.sroute.length).map (fun i => CosaDmlRoutingGetV4Entry i pEntry s)

structure Agrees (t : Tracked) : Prop where
  kernel : ∀ r, r ∈ t.state.kernel ↔ r ∈ staticRoutes t.entries
  store : Stored t.state.store (entryOf t.entries)
  reports : ∀ pEntry, (reported t.state pEntry).Perm (t.entries.map some)

def Legal (t : Tracked) : Call → Prop
  | .add e _ => 1 ≤ e.InstanceNumber ∧ e.InstanceNumber ≤ 256 ∧
      e.InstanceNumber ∉ numbers t.entries
  | .set e => 1 ≤ e.InstanceNumber ∧ e.InstanceNumber ≤ 256
  | .del n => 1 ≤ n ∧ n ≤ 256
  | .lanStatus => True

/-- The route `ip route del` names for an entry. -/
def delRouteOf (e : V4Entry) : Route := { routeOf e with metric := 0 }

def bootRouteOf (e : V4Entry) : Route := { routeOf e with dev := [] }

/-- When a call leaves the copies in agreement. -/
def Ok (t : Tracked) : Call → Prop
  | .add e rest => strncpyIntf e.Interface rest = e.Interface ∧
      (e.ForwardingMetric = 0 ∨ (routeOf e ∈ staticRoutes t.entries ∧
        { routeOf e with metric := e.ForwardingMetric + 1 } ∈ staticRoutes t.entries))
  | .set e => ∃ old ∈ t.entries, e = { old with Enable := e.Enable } ∧
      (e.Enable = old.Enable ∨ (e.Enable = false ∧ ∀ other ∈ t.entries, other.Enable = true →
        other.InstanceNumber ≠ e.InstanceNumber →
          routeMatches (delRouteOf e) (routeOf other) = false))
  | .del n => n ∉ numbers t.entries
  | .lanStatus => ∀ e ∈ t.entries, e.Enable = true →
      bootRouteOf e ∈ staticRoutes t.entries

/-- The entries as `sroute` and `Router_Alias` show them after a call. -/
def arrayEntries (entries : List V4Entry) : Call → List V4Entry
  | .add e rest => entries ++
      [{ e with Enable := true, Interface := strncpyIntf e.Interface rest }]
  | .set e => entries.map (fun x =>
      if x.InstanceNumber = e.InstanceNumber then { x with Enable := e.Enable } else x)
  | .del _ => entries
  | .lanStatus => entries

def kernelAfter (entries : List V4Entry) (kernel : List Route) : Call → List Route
  | .add e _ => routeAdd { routeOf e with
      metric := if e.ForwardingMetric ≠ 0 then e.ForwardingMetric + 1 else e.ForwardingMetric }
      kernel
  | .set e =>
    match entryOf entries e.InstanceNumber with
    | none => kernel
    | some old =>
      if e = { old with Alias := e.Alias } then kernel else routeDel (delRouteOf old) kernel
  | .del n =>
    match entryOf entries n with
    | none => kernel
    | some old => routeDel (delRouteOf old) kernel
  | .lanStatus =>
    ((entries.filter (·.Enable)).map bootRouteOf).foldl (fun kernel r => routeAdd r kernel) kernel

def staticRoute (e : V4Entry) : StaticRoute :=
  ⟨addrText e.DestIPAddress, addrText e.DestSubnetMask, addrText e.GatewayIPAddress,
    e.ForwardingMetric, e.Interface⟩

structure Reflects (s : State) (entries : List V4Entry) : Prop where
  nodup : (numbers entries).Nodup
  range : ∀ n ∈ numbers entries, 1 ≤ n ∧ n ≤ 256
  sroute : s.sroute = entries.map staticRoute
  number : s.Router_Alias.map RouterAlias.InstanceNumber = numbers entries
  index : s.Router_Alias.map RouterAlias.Index = List.range entries.length
  enabled : s.Router_Alias.map RouterAlias.Enabled = entries.map V4Entry.Enable
  aliases : s.Router_Alias.map RouterAlias.Alias = entries.map V4Entry.Alias

variable {es : List V4Entry}

theorem stored_saveEntry {store : Store CStr CStr} (h : Stored store (entryOf es)) (e : V4Entry) :
    Stored (saveEntry e store) (entryOf (putEntry es e)) := by
  intro n hlow hhigh
  obtain ⟨halias, hname, henabled⟩ := h n hlow hhigh
  have hput : entryOf (putEntry es e) n = if n = e.InstanceNumber then some e else entryOf es n :=
    find_put e n
  rw [saveEntry_alias, saveEntry_name, saveEntry_enabled, hput]
  split
  · exact ⟨rfl, rfl, rfl⟩
  · exact ⟨halias, hname, henabled⟩

theorem stored_unset {store : Store CStr CStr} (h : Stored store (entryOf es)) (n : ℕ) :
    Stored (unsetAll [aliasKey n, nameKey n, enabledKey n] store)
      (entryOf (drop V4Entry.InstanceNumber es n)) := by
  intro m hlow hhigh
  obtain ⟨halias, hname, henabled⟩ := h m hlow hhigh
  have hdrop : entryOf (drop V4Entry.InstanceNumber es n) m =
      if m = n then none else entryOf es m :=
    find_drop n m
  rw [hdrop]
  by_cases hmn : m = n
  · subst hmn
    rw [if_pos rfl]
    exact ⟨unsetAll_of_mem _ (by simp), unsetAll_of_mem _ (by simp), unsetAll_of_mem _ (by simp)⟩
  · rw [if_neg hmn, unsetAll_of_notMem, unsetAll_of_notMem, unsetAll_of_notMem]
    · exact ⟨halias, hname, henabled⟩
    · simp [hmn, (aliasKey_ne_enabledKey _ _).symm, (nameKey_ne_enabledKey _ _).symm]
    · simp [hmn, (aliasKey_ne_nameKey _ _).symm, nameKey_ne_enabledKey]
    · simp [hmn, aliasKey_ne_nameKey, aliasKey_ne_enabledKey]

variable {e : V4Entry}

section Arrays

variable {s : State} {es : List V4Entry}

theorem Reflects.length_alias (h : Reflects s es) : s.Router_Alias.length = es.length := by
  simpa using congrArg List.length h.index

theorem Reflects.length_lt (h : Reflects s es) {n : ℕ} (hn : 1 ≤ n ∧ n ≤ 256)
    (hnew : n ∉ numbers es) : s.Router_Alias.length < 256 := by
  have hsub : numbers es ⊆ (List.range' 1 256).erase n := by
    intro m hm
    have hmn : m ≠ n := fun hmn => hnew (hmn ▸ hm)
    have hrange := h.range m hm
    exact (List.mem_erase_of_ne hmn).mpr (List.mem_range'_1.mpr (by omega))
  have hle := (List.Nodup.subperm h.nodup hsub).length_le
  have hmem : n ∈ List.range' 1 256 := List.mem_range'_1.mpr (by omega)
  rw [List.length_erase_of_mem hmem, List.length_range', List.length_map] at hle
  rw [h.length_alias]
  omega

theorem Reflects.getElem_alias (h : Reflects s es) {i : ℕ} (he : es[i]? = some e) :
    ∃ a, s.Router_Alias[i]? = some a ∧ a.InstanceNumber = e.InstanceNumber ∧ a.Index = i ∧
      a.Enabled = e.Enable ∧ a.Alias = e.Alias := by
  obtain ⟨hi, -⟩ := List.getElem?_eq_some_iff.mp he
  have hlt : i < s.Router_Alias.length := by rw [h.length_alias]; exact hi
  refine ⟨s.Router_Alias[i], List.getElem?_eq_getElem hlt, ?_, ?_, ?_, ?_⟩
  · have hmap := congrArg (·[i]?) h.number
    simpa [List.getElem?_map, he, List.getElem?_eq_getElem hlt] using hmap
  · have hmap := congrArg (·[i]?) h.index
    simpa [List.getElem?_map, List.getElem?_eq_getElem hlt, List.getElem?_range hi] using hmap
  · have hmap := congrArg (·[i]?) h.enabled
    simpa [List.getElem?_map, he, List.getElem?_eq_getElem hlt] using hmap
  · have hmap := congrArg (·[i]?) h.aliases
    simpa [List.getElem?_map, he, List.getElem?_eq_getElem hlt] using hmap

theorem Reflects.getElem_sroute (h : Reflects s es) {i : ℕ} (he : es[i]? = some e) :
    s.sroute[i]? = some (staticRoute e) := by
  rw [h.sroute, List.getElem?_map, he]
  rfl

theorem Reflects.findIdx (h : Reflects s es) (n : ℕ) :
    s.Router_Alias.findIdx? (·.InstanceNumber = n) = es.findIdx? (·.InstanceNumber = n) := by
  have hmap := congrArg (List.findIdx? (fun m => decide (m = n))) h.number
  simpa only [numbers, List.findIdx?_map, Function.comp_def] using hmap

theorem Reflects.find_index (h : Reflects s es) {i : ℕ} {a : RouterAlias}
    (ha : s.Router_Alias[i]? = some a) : s.Router_Alias.find? (·.Index = i) = some a := by
  obtain ⟨hi, hget⟩ := List.getElem?_eq_some_iff.mp ha
  have hindex : ∀ j (hj : j < s.Router_Alias.length), (s.Router_Alias[j]).Index = j := by
    intro j hj
    have hj' : j < es.length := by rw [← h.length_alias]; exact hj
    obtain ⟨b, hb, -, hidx, -⟩ := h.getElem_alias (List.getElem?_eq_getElem hj')
    rw [List.getElem?_eq_getElem hj, Option.some.injEq] at hb
    rw [hb, hidx]
  rw [List.find?_eq_some_iff_getElem]
  refine ⟨by simpa [hget] using hindex i hi, i, hi, hget, fun j hji => ?_⟩
  have hj := hindex j (by omega)
  simp only [hj, Bool.not_eq_true', decide_eq_false_iff_not]
  omega

theorem Reflects.reported (h : Reflects s es) (pEntry : V4Entry) :
    RoutingV4Runs.reported s pEntry = es.map some := by
  apply List.ext_getElem?
  intro i
  rw [RoutingV4Runs.reported, List.getElem?_map, List.getElem?_map, h.sroute, List.length_map]
  rcases Nat.lt_or_ge i es.length with hi | hi
  · have he := List.getElem?_eq_getElem hi
    obtain ⟨a, ha, hnum, -, henabled, halias⟩ := h.getElem_alias he
    rw [List.getElem?_range hi, he, Option.map_some, Option.map_some, CosaDmlRoutingGetV4Entry,
      h.getElem_sroute he, Option.map_some, h.find_index ha]
    simp only [staticRoute, inet_addr_addrText, hnum, henabled, halias]
  · rw [List.getElem?_eq_none (by simpa using hi), List.getElem?_eq_none hi]
    rfl

theorem reflects_add (h : Reflects s es) (rest : CStr)
    (he : 1 ≤ e.InstanceNumber ∧ e.InstanceNumber ≤ 256 ∧ e.InstanceNumber ∉ numbers es)
    {s' : State} (hs' : CosaDmlRoutingAddV4Entry e rest s = some s') :
    Reflects s' (arrayEntries es (.add e rest)) := by
  rw [CosaDmlRoutingAddV4Entry, if_pos (h.length_lt ⟨he.1, he.2.1⟩ he.2.2),
    Option.some.injEq] at hs'
  subst hs'
  have hlen : s.sroute.length = es.length := by rw [h.sroute, List.length_map]
  constructor
  · rw [arrayEntries, numbers, List.map_append, List.map_singleton]
    apply h.nodup.append (List.nodup_singleton _)
    intro n hn hne
    rw [List.mem_singleton.mp hne] at hn
    exact he.2.2 hn
  · intro n hn
    rw [arrayEntries, numbers, List.map_append, List.mem_append] at hn
    rcases hn with hn | hn
    · exact h.range n hn
    · rw [List.map_singleton, List.mem_singleton] at hn
      rw [hn]
      exact ⟨he.1, he.2.1⟩
  · simp [arrayEntries, h.sroute, staticRoute]
  · simp [arrayEntries, h.number, numbers]
  · simp [arrayEntries, h.index, hlen, List.range_succ]
  · simp [arrayEntries, h.enabled]
  · simp [arrayEntries, h.aliases]

theorem delRoute_staticRoute (e : V4Entry) : delRoute (staticRoute e) = delRouteOf e := by
  simp [delRoute, staticRoute, delRouteOf, routeOf, inet_addr_addrText]

theorem bootRoute_staticRoute (e : V4Entry) :
    bootRoute (staticRoute e) = bootRouteOf e := by
  simp [bootRoute, staticRoute, bootRouteOf, routeOf, inet_addr_addrText]

theorem sameParameters_iff {e old : V4Entry} (hnum : old.InstanceNumber = e.InstanceNumber) :
    sameParameters e (staticRoute old) old.Enable = true ↔ e = { old with Alias := e.Alias } := by
  obtain ⟨n, al, en, dest, mask, gw, intf, metric⟩ := e
  obtain ⟨n', al', en', dest', mask', gw', intf', metric'⟩ := old
  simp only at hnum
  subst hnum
  simp only [sameParameters, staticRoute, inet_addr_addrText, decide_eq_true_eq, V4Entry.mk.injEq,
    true_and]
  tauto

theorem findIdx_eq_some (h : Reflects s es) {n i : ℕ}
    (hi : es.findIdx? (·.InstanceNumber = n) = some i) :
    ∃ old, es[i]? = some old ∧ old.InstanceNumber = n ∧ entryOf es n = some old := by
  obtain ⟨hlt, hnum, -⟩ := List.findIdx?_eq_some_iff_getElem.mp hi
  have hnum' : es[i].InstanceNumber = n := by simpa using hnum
  refine ⟨es[i], List.getElem?_eq_getElem hlt, hnum', ?_⟩
  exact (find_eq_some_iff h.nodup n es[i]).mpr ⟨List.getElem_mem hlt, hnum'⟩

theorem reflects_set (h : Reflects s es) (he : e.InstanceNumber ≠ 0) :
    ∃ s', CosaDmlRoutingSetV4Entry e s = some s' ∧ Reflects s' (arrayEntries es (.set e)) ∧
      s'.store = saveEntry e s.store ∧ s'.kernel = kernelAfter es s.kernel (.set e) := by
  unfold CosaDmlRoutingSetV4Entry
  rw [if_neg he, h.findIdx]
  cases hfind : es.findIdx? (·.InstanceNumber = e.InstanceNumber) with
  | none =>
    have habsent : e.InstanceNumber ∉ numbers es := by
      intro hmem
      obtain ⟨x, hx, hxe⟩ := List.mem_map.mp hmem
      have hnone := List.findIdx?_eq_none_iff.mp hfind x hx
      simp [hxe] at hnone
    have hentry : entryOf es e.InstanceNumber = none := (find_eq_none_iff _).mpr habsent
    refine ⟨_, rfl, ?_, rfl, ?_⟩
    · have harray : arrayEntries es (.set e) = es :=
        map_change_of_notMem habsent (fun x => { x with Enable := e.Enable })
      rw [harray]
      exact ⟨h.nodup, h.range, h.sroute, h.number, h.index, h.enabled, h.aliases⟩
    · simp only [kernelAfter, hentry]
  | some i =>
    obtain ⟨old, hold, hnum, hentry⟩ := findIdx_eq_some h hfind
    obtain ⟨a, ha, hanum, hindex, henabled, halias⟩ := h.getElem_alias hold
    have harray : arrayEntries es (.set e) = es.set i { old with Enable := e.Enable } := by
      rw [arrayEntries, ← hnum]
      exact map_change_eq_set h.nodup hold (fun x => { x with Enable := e.Enable })
    have hself : es.set i old = es := set_of_getElem? hold
    simp only [ha, h.getElem_sroute hold, hindex, henabled, Option.bind_eq_bind,
      Option.bind_some]
    by_cases hsame : e = { old with Alias := e.Alias }
    · rw [if_pos ((sameParameters_iff hnum).mpr hsame)]
      have henable : e.Enable = old.Enable := by rw [hsame]
      refine ⟨_, rfl, ?_, rfl, ?_⟩
      · rw [harray, henable, hself]
        exact ⟨h.nodup, h.range, h.sroute, h.number, h.index, h.enabled, h.aliases⟩
      · simp only [kernelAfter, hentry, if_pos hsame]
    · rw [if_neg (fun hs => hsame ((sameParameters_iff hnum).mp hs))]
      refine ⟨_, rfl, ?_, rfl, ?_⟩
      · rw [harray]
        have hnumbers : numbers (es.set i { old with Enable := e.Enable }) = numbers es := by
          conv_rhs => rw [← hself]
          simp only [numbers, List.map_set]
        constructor
        · rw [hnumbers]
          exact h.nodup
        · rw [hnumbers]
          exact h.range
        · conv_lhs => rw [h.sroute, ← hself]
          simp only [List.map_set, staticRoute]
        · conv_rhs => rw [hnumbers, ← h.number]
          simp only [List.map_set]
          exact set_of_getElem? (by rw [List.getElem?_map, ha]; rfl)
        · rw [List.length_set, ← h.index]
          simp only [List.map_set]
          exact set_of_getElem? (by rw [List.getElem?_map, ha, Option.map_some, hindex])
        · simp only [List.map_set, h.enabled]
        · conv_rhs => rw [List.map_set, ← h.aliases]
          simp only [List.map_set, halias]
      · simp only [kernelAfter, hentry, if_neg hsame, delRoute_staticRoute]

theorem reflects_del (h : Reflects s es) {n : ℕ} (hn : n ≠ 0) :
    ∃ s', CosaDmlRoutingDelV4Entry n s = some s' ∧ Reflects s' es ∧
      s'.store = unsetAll [aliasKey n, nameKey n, enabledKey n] s.store ∧
      s'.kernel = kernelAfter es s.kernel (.del n) := by
  have hkept : ∀ s' : State, s'.Router_Alias = s.Router_Alias → s'.sroute = s.sroute →
      Reflects s' es := by
    intro s' hrouter hsroute
    exact ⟨h.nodup, h.range, hsroute ▸ h.sroute, hrouter ▸ h.number, hrouter ▸ h.index,
      hrouter ▸ h.enabled, hrouter ▸ h.aliases⟩
  have hnd : (s.Router_Alias.map RouterAlias.InstanceNumber).Nodup := h.number ▸ h.nodup
  unfold CosaDmlRoutingDelV4Entry
  rw [if_neg hn]
  cases hentry : entryOf es n with
  | none =>
    have habsent : n ∉ numbers es := (find_eq_none_iff n).mp hentry
    have hnone : s.Router_Alias.find? (·.InstanceNumber = n) = none := by
      apply (@find_eq_none_iff _ _ _ RouterAlias.InstanceNumber _ n).mpr
      rw [h.number]
      exact habsent
    rw [hnone]
    exact ⟨_, rfl, hkept _ rfl rfl, rfl, by simp only [kernelAfter, hentry]⟩
  | some old =>
    obtain ⟨hold, hnum⟩ := (find_eq_some_iff h.nodup n old).mp hentry
    obtain ⟨i, hi, hget⟩ := List.mem_iff_getElem.mp hold
    have hat : es[i]? = some old := by rw [List.getElem?_eq_getElem hi, hget]
    obtain ⟨a, ha, hanum, hindex, -, -⟩ := h.getElem_alias hat
    have hfound : s.Router_Alias.find? (·.InstanceNumber = n) = some a :=
      (find_eq_some_iff hnd n a).mpr ⟨List.mem_of_getElem? ha, hanum.trans hnum⟩
    rw [hfound]
    simp only [hindex, h.getElem_sroute hat, Option.map_some, delRoute_staticRoute]
    exact ⟨_, rfl, hkept _ rfl rfl, rfl, by simp only [kernelAfter, hentry]⟩

theorem bootRoutes_eq {as : List RouterAlias}
    (h : as.map RouterAlias.Enabled = es.map V4Entry.Enable) :
    bootRoutes as (es.map staticRoute) =
      some ((es.filter (·.Enable)).map bootRouteOf) := by
  induction es generalizing as with
  | nil =>
    rw [List.map_nil, List.map_eq_nil_iff] at h
    subst h
    rfl
  | cons e es ih =>
    cases as with
    | nil => cases h
    | cons a as =>
      obtain ⟨hhead, htail⟩ := List.cons.inj h
      rw [List.map_cons, bootRoutes, ih htail, Option.map_some, bootRoute_staticRoute, hhead]
      cases he : e.Enable <;> simp [he]

theorem reflects_lanStatus (h : Reflects s es) :
    ∃ s', AddRouteEntryToKernel s = some s' ∧ Reflects s' es ∧ s'.store = s.store ∧
      s'.kernel = kernelAfter es s.kernel .lanStatus := by
  have hboot : bootRoutes s.Router_Alias s.sroute =
      some ((es.filter (·.Enable)).map bootRouteOf) := by
    rw [h.sroute]
    exact bootRoutes_eq h.enabled
  unfold AddRouteEntryToKernel
  rw [hboot, Option.map_some]
  exact ⟨_, rfl, ⟨h.nodup, h.range, h.sroute, h.number, h.index, h.enabled, h.aliases⟩, rfl, rfl⟩

end Arrays

theorem call_spec {s : State} (h : Reflects s es)
    (hstore : Stored s.store (entryOf es)) {c : Call} (hc : Legal ⟨s, es⟩ c) :
    ∃ s', call s c = some s' ∧ Reflects s' (arrayEntries es c) ∧
      Stored s'.store (entryOf (entriesAfter es c)) ∧ s'.kernel = kernelAfter es s.kernel c := by
  cases c with
  | add e rest =>
    have hadd : call s (.add e rest) = CosaDmlRoutingAddV4Entry e rest s := rfl
    have hlt := h.length_lt ⟨hc.1, hc.2.1⟩ hc.2.2
    have hresult := hadd
    rw [CosaDmlRoutingAddV4Entry, if_pos hlt] at hresult
    refine ⟨_, hresult, reflects_add h rest hc (hadd ▸ hresult), ?_, rfl⟩
    exact stored_saveEntry hstore { e with Enable := true }
  | set e =>
    have he : e.InstanceNumber ≠ 0 := by
      have hlow := hc.1
      omega
    obtain ⟨s', hs', harray, hst, hkernel⟩ := reflects_set h he
    exact ⟨s', hs', harray, hst ▸ stored_saveEntry hstore e, hkernel⟩
  | del n =>
    have hn : n ≠ 0 := by
      have hlow := hc.1
      omega
    obtain ⟨s', hs', harray, hst, hkernel⟩ := reflects_del h hn
    exact ⟨s', hs', harray, hst ▸ stored_unset hstore n, hkernel⟩
  | lanStatus =>
    obtain ⟨s', hs', harray, hst, hkernel⟩ := reflects_lanStatus h
    exact ⟨s', hs', harray, hst ▸ hstore, hkernel⟩

structure Kept (t : Tracked) : Prop where
  arrays : Reflects t.state t.entries
  agrees : Agrees t

theorem mem_staticRoutes {r : Route} :
    r ∈ staticRoutes es ↔ ∃ e ∈ es, e.Enable = true ∧ routeOf e = r := by
  simp [staticRoutes, and_assoc]

theorem mem_foldl_routeAdd (rs : List Route) (kernel : List Route) (r : Route) :
    r ∈ rs.foldl (fun kernel r => routeAdd r kernel) kernel ↔ r ∈ kernel ∨ r ∈ rs := by
  induction rs generalizing kernel with
  | nil => simp
  | cons x rs ih =>
    rw [List.foldl_cons, ih, routeAdd, List.mem_insert_iff, List.mem_cons]
    tauto

theorem routeMatches_delRouteOf (e : V4Entry) : routeMatches (delRouteOf e) (routeOf e) = true := by
  simp [routeMatches, delRouteOf]

/-- The kernel shows the entries a call left. -/
def KernelShows (es : List V4Entry) (kernel : List Route) (c : Call) : Prop :=
  ∀ r, r ∈ kernelAfter es kernel c ↔ r ∈ staticRoutes (entriesAfter es c)

section Agreement

variable {es : List V4Entry} {kernel : List Route}

theorem kernelShows_add (hk : ∀ r, r ∈ kernel ↔ r ∈ staticRoutes es) (rest : CStr)
    (hnew : e.InstanceNumber ∉ numbers es) : KernelShows es kernel (.add e rest) ↔
      e.ForwardingMetric = 0 ∨ (routeOf e ∈ staticRoutes es ∧
        { routeOf e with metric := e.ForwardingMetric + 1 } ∈ staticRoutes es) := by
  have hafter : ∀ r, r ∈ staticRoutes (entriesAfter es (.add e rest)) ↔
      r = routeOf e ∨ r ∈ staticRoutes es := by
    intro r
    have hput : entriesAfter es (.add e rest) = es ++ [{ e with Enable := true }] :=
      put_of_notMem hnew
    rw [hput, staticRoutes, List.filter_append, List.map_append, List.mem_append]
    simp [staticRoutes, routeOf, or_comm]
  have hnext : ∀ x : BitVec 32, x ≠ x + 1 := by
    intro x hx
    bv_omega
  simp only [KernelShows, kernelAfter, routeAdd, List.mem_insert_iff, hafter, hk]
  by_cases hm : e.ForwardingMetric = 0
  · have hsame : { routeOf e with metric := if e.ForwardingMetric ≠ 0 then
        e.ForwardingMetric + 1 else e.ForwardingMetric } = routeOf e := by
      rw [if_neg (by simpa using hm)]
      rfl
    rw [hsame]
    exact ⟨fun _ => Or.inl hm, fun _ r => Iff.rfl⟩
  · rw [if_pos hm]
    have hne : { routeOf e with metric := e.ForwardingMetric + 1 } ≠ routeOf e := by
      intro h
      exact hnext e.ForwardingMetric (congrArg Route.metric h).symm
    constructor
    · intro h
      have h1 := (h { routeOf e with metric := e.ForwardingMetric + 1 }).mp (Or.inl rfl)
      have h2 := (h (routeOf e)).mpr (Or.inl rfl)
      exact Or.inr ⟨h2.resolve_left (fun h' => hne h'.symm), h1.resolve_left hne⟩
    · intro h r
      obtain ⟨h1, h2⟩ := h.resolve_left hm
      constructor
      · intro hr
        rcases hr with rfl | hr
        · exact Or.inr h2
        · exact Or.inr hr
      · intro hr
        rcases hr with rfl | hr
        · exact Or.inr h1
        · exact Or.inr hr

theorem kernelShows_lanStatus (hk : ∀ r, r ∈ kernel ↔ r ∈ staticRoutes es) :
    KernelShows es kernel .lanStatus ↔
      ∀ e ∈ es, e.Enable = true → bootRouteOf e ∈ staticRoutes es := by
  simp only [KernelShows, kernelAfter, entriesAfter, mem_foldl_routeAdd, hk]
  constructor
  · intro h e he hen
    apply (h _).mp
    exact Or.inr (List.mem_map.mpr ⟨e, List.mem_filter.mpr ⟨he, hen⟩, rfl⟩)
  · intro h r
    constructor
    · intro hr
      rcases hr with hr | hr
      · exact hr
      · obtain ⟨e, he, rfl⟩ := List.mem_map.mp hr
        exact h e (List.mem_of_mem_filter he) (List.mem_filter.mp he).2
    · exact Or.inl

theorem kernelShows_set (hk : ∀ r, r ∈ kernel ↔ r ∈ staticRoutes es)
    (hnd : (numbers es).Nodup) {e old : V4Entry} (hold : old ∈ es)
    (he : e = { old with Enable := e.Enable }) : KernelShows es kernel (.set e) ↔
      e.Enable = old.Enable ∨ (e.Enable = false ∧ ∀ other ∈ es, other.Enable = true →
        other.InstanceNumber ≠ e.InstanceNumber →
          routeMatches (delRouteOf e) (routeOf other) = false) := by
  have hnum : old.InstanceNumber = e.InstanceNumber := by rw [he]
  have hentry : entryOf es e.InstanceNumber = some old :=
    (find_eq_some_iff hnd _ old).mpr ⟨hold, hnum⟩
  have hroute : routeOf old = routeOf e := by rw [he]; rfl
  have hafter : ∀ r, r ∈ staticRoutes (entriesAfter es (.set e)) ↔
      (e.Enable = true ∧ routeOf e = r) ∨ ∃ x ∈ es, x.InstanceNumber ≠ e.InstanceNumber ∧
        x.Enable = true ∧ routeOf x = r := by
    intro r
    simp only [mem_staticRoutes, entriesAfter, putEntry, mem_put_iff, or_and_right, exists_or,
      exists_eq_left, and_assoc]
  by_cases hen : e.Enable = old.Enable
  · have hsame : e = old := by rw [he, hen]
    have hkernel : kernelAfter es kernel (.set e) = kernel := by
      have hif : e = { old with Alias := e.Alias } := by rw [hsame]
      simp only [kernelAfter, hentry]
      rw [if_pos hif]
    refine ⟨fun _ => Or.inl hen, fun _ r => ?_⟩
    rw [hkernel, hk, hafter, mem_staticRoutes]
    constructor
    · intro h
      obtain ⟨x, hx, hxen, hxr⟩ := h
      by_cases hxe : x.InstanceNumber = e.InstanceNumber
      · have hxold : x = e := (eq_of_key hnd hx hold (hxe.trans hnum.symm)).trans hsame.symm
        exact Or.inl ⟨hxold ▸ hxen, hxold ▸ hxr⟩
      · exact Or.inr ⟨x, hx, hxe, hxen, hxr⟩
    · intro h
      rcases h with ⟨hxen, hxr⟩ | ⟨x, hx, -, hxen, hxr⟩
      · exact ⟨old, hold, hsame ▸ hxen, hsame ▸ hxr⟩
      · exact ⟨x, hx, hxen, hxr⟩
  · have hdel : delRouteOf old = delRouteOf e := by rw [delRouteOf, delRouteOf, hroute]
    have hkernel : ∀ r, r ∈ kernelAfter es kernel (.set e) ↔
        r ∈ staticRoutes es ∧ routeMatches (delRouteOf e) r = false := by
      intro r
      have hif : ¬e = { old with Alias := e.Alias } := fun h => hen (by rw [h])
      simp only [kernelAfter, hentry]
      rw [if_neg hif, routeDel, List.mem_filter, hk, hdel, Bool.not_eq_true']
    simp only [KernelShows, hkernel, hafter]
    constructor
    · intro h
      have hoff : e.Enable = false := by
        by_contra hon
        have hgone := ((h (routeOf e)).mpr (Or.inl ⟨by simpa using hon, rfl⟩)).2
        rw [routeMatches_delRouteOf] at hgone
        cases hgone
      refine Or.inr ⟨hoff, fun other hother hon hne => ?_⟩
      exact ((h (routeOf other)).mpr (Or.inr ⟨other, hother, hne, hon, rfl⟩)).2
    · intro h r
      obtain ⟨hoff, hothers⟩ := h.resolve_left hen
      rw [mem_staticRoutes]
      constructor
      · intro hr
        obtain ⟨⟨x, hx, hxen, rfl⟩, hnot⟩ := hr
        refine Or.inr ⟨x, hx, fun hxe => ?_, hxen, rfl⟩
        have hxold : x = old := eq_of_key hnd hx hold (hxe.trans hnum.symm)
        rw [hxold, hroute, routeMatches_delRouteOf] at hnot
        cases hnot
      · intro hr
        rcases hr with ⟨hon, -⟩ | ⟨x, hx, hne, hxen, rfl⟩
        · rw [hoff] at hon
          cases hon
        · exact ⟨⟨x, hx, hxen, rfl⟩, hothers x hx hxen hne⟩

end Agreement

theorem perm_add_iff {rest : CStr}
    (hnew : e.InstanceNumber ∉ numbers es) :
    (arrayEntries es (.add e rest)).Perm (entriesAfter es (.add e rest)) ↔
      strncpyIntf e.Interface rest = e.Interface := by
  have hput : entriesAfter es (.add e rest) = es ++ [{ e with Enable := true }] :=
    put_of_notMem hnew
  rw [hput, arrayEntries, List.perm_append_left_iff, List.singleton_perm_singleton,
    V4Entry.mk.injEq]
  simp

theorem array_set (hnd : (numbers es).Nodup) {e old : V4Entry}
    (hold : old ∈ es) (he : e = { old with Enable := e.Enable }) :
    arrayEntries es (.set e) = entriesAfter es (.set e) := by
  have hnum : old.InstanceNumber = e.InstanceNumber := by rw [he]
  have hmem : e.InstanceNumber ∈ numbers es := List.mem_map.mpr ⟨old, hold, hnum⟩
  rw [arrayEntries, entriesAfter, putEntry, put, if_pos hmem]
  apply List.map_congr_left
  intro x hx
  split
  · next hxe =>
    rw [eq_of_key hnd hx hold (hxe.trans hnum.symm)]
    exact he.symm
  · rfl

theorem perm_set_iff (hnd : (numbers es).Nodup) (e : V4Entry) :
    (arrayEntries es (.set e)).Perm (entriesAfter es (.set e)) ↔
      ∃ old ∈ es, e = { old with Enable := e.Enable } := by
  constructor
  · intro h
    have hmem : e ∈ entriesAfter es (.set e) := (mem_put_iff e e).mpr (Or.inl rfl)
    obtain ⟨x, hx, hxe⟩ := List.mem_map.mp (h.mem_iff.mpr hmem)
    split at hxe
    · exact ⟨x, hx, hxe.symm⟩
    · next hne => exact absurd (congrArg V4Entry.InstanceNumber hxe) hne
  · intro h
    obtain ⟨old, hold, he⟩ := h
    rw [array_set hnd hold he]

theorem perm_del_iff (es : List V4Entry) (n : ℕ) :
    (arrayEntries es (.del n)).Perm (entriesAfter es (.del n)) ↔ n ∉ numbers es := by
  constructor
  · intro h hn
    exact Nat.lt_irrefl _ (h.length_eq ▸ length_drop_lt hn)
  · intro h
    rw [entriesAfter, drop_of_notMem h]
    exact List.Perm.refl es

theorem ok_iff {s : State} (h : Kept ⟨s, es⟩) {c : Call}
    (hc : Legal ⟨s, es⟩ c) : Ok ⟨s, es⟩ c ↔
      KernelShows es s.kernel c ∧ (arrayEntries es c).Perm (entriesAfter es c) := by
  have hk : ∀ r, r ∈ s.kernel ↔ r ∈ staticRoutes es := h.agrees.kernel
  have hnd : (numbers es).Nodup := h.arrays.nodup
  cases c with
  | add e rest =>
    have hnew : e.InstanceNumber ∉ numbers es := hc.2.2
    rw [kernelShows_add hk rest hnew, perm_add_iff hnew]
    exact And.comm
  | set e =>
    rw [perm_set_iff hnd]
    constructor
    · intro hok
      obtain ⟨old, hold, he, hflag⟩ := hok
      exact ⟨(kernelShows_set hk hnd hold he).mpr hflag, old, hold, he⟩
    · intro hok
      obtain ⟨hkernel, old, hold, he⟩ := hok
      exact ⟨old, hold, he, (kernelShows_set hk hnd hold he).mp hkernel⟩
  | del n =>
    rw [perm_del_iff]
    constructor
    · intro hn
      have hentry : entryOf es n = none := (find_eq_none_iff n).mpr hn
      refine ⟨fun r => ?_, hn⟩
      rw [kernelAfter, hentry, entriesAfter, drop_of_notMem hn]
      exact hk r
    · exact fun hok => hok.2
  | lanStatus =>
    rw [kernelShows_lanStatus hk]
    exact ⟨fun hok => ⟨hok, List.Perm.refl es⟩, fun hok => hok.1⟩

theorem array_of_ok {s : State} (h : Reflects s es) {c : Call}
    (hc : Legal ⟨s, es⟩ c) (hok : Ok ⟨s, es⟩ c) : arrayEntries es c = entriesAfter es c := by
  cases c with
  | add e rest =>
    have hput : entriesAfter es (.add e rest) = es ++ [{ e with Enable := true }] :=
      put_of_notMem hc.2.2
    rw [hput, arrayEntries, hok.1]
  | set e =>
    obtain ⟨old, hold, he, -⟩ := hok
    exact array_set h.nodup hold he
  | del n => exact (drop_of_notMem hok).symm
  | lanStatus => rfl

theorem agrees_iff {s : State} {es array : List V4Entry} (harray : Reflects s array)
    (hstore : Stored s.store (entryOf es)) : Agrees ⟨s, es⟩ ↔
      (∀ r, r ∈ s.kernel ↔ r ∈ staticRoutes es) ∧ array.Perm es := by
  constructor
  · intro h
    have hreport := h.reports ⟨0, [], false, 0, 0, 0, [], 0⟩
    rw [harray.reported] at hreport
    exact ⟨h.kernel, (List.map_perm_map_iff (Option.some_injective _)).mp hreport⟩
  · intro h
    refine ⟨h.1, hstore, fun pEntry => ?_⟩
    rw [harray.reported]
    exact h.2.map some

theorem step_kept {t : Tracked} (h : Kept t) {c : Call} (hc : Legal t c) :
    ∃ t', step t c = some t' ∧ (Agrees t' ↔ Ok t c) ∧ (Ok t c → Kept t') := by
  obtain ⟨s, es⟩ := t
  obtain ⟨s', hs', harray, hstore, hkernel⟩ := call_spec h.arrays h.agrees.store hc
  have hagrees : Agrees ⟨s', entriesAfter es c⟩ ↔ Ok ⟨s, es⟩ c := by
    rw [agrees_iff harray hstore, ok_iff h hc, hkernel]
    rfl
  refine ⟨⟨s', entriesAfter es c⟩, by rw [step, hs', Option.map_some], hagrees, fun hok => ?_⟩
  exact ⟨array_of_ok h.arrays hc hok ▸ harray, hagrees.mpr hok⟩

def loadedEntries (stored : ℕ → Option V4Entry) : List V4Entry :=
  (List.range 256).filterMap (fun i => stored (i + 1))

def start (store : Store CStr CStr) (kernel : List Route) (stored : ℕ → Option V4Entry) :
    Tracked :=
  ⟨CosaDmlRoutingGetNumberOfV4Entries store kernel, loadedEntries stored⟩

/-- Entries as a store holds them: each under its number, none with a device. -/
def AsStored (stored : ℕ → Option V4Entry) : Prop :=
  ∀ n e, stored n = some e → e.InstanceNumber = n ∧ e.Interface = []

/-- When the load finds kernel and store in agreement. -/
def LoadOk (kernel : List Route) (stored : ℕ → Option V4Entry) : Prop :=
  (∀ r, r ∈ kernel ↔ r ∈ staticRoutes (loadedEntries stored)) ∧
    ∀ e ∈ loadedEntries stored, e.Alias.length < 80

def cutAlias (e : V4Entry) : V4Entry :=
  { e with Alias := (Buf.snprintf e.Alias : Buf 80).text }

section Load

variable {store : Store CStr CStr} {stored : ℕ → Option V4Entry}

theorem loadAlias_eq (hstore : Stored store stored) {n : ℕ} (hn : 1 ≤ n ∧ n ≤ 256) :
    loadAlias store n = (stored n).map (fun e =>
      ⟨n, 0, e.Enable, (cutAlias e).Alias, nameText e⟩) := by
  obtain ⟨halias, hname, henabled⟩ := hstore n hn.1 hn.2
  unfold loadAlias rawGet
  rw [halias, hname, henabled]
  cases he : stored n with
  | none => rfl
  | some e =>
    have hlen := length_nameText_le e
    have hname80 : (Buf.snprintf (nameText e) : Buf 80).text = nameText e :=
      Buf.text_snprintf_of_lt (by omega)
    have hname64 : (Buf.sprintf_s (nameText e) : Buf 64).text = nameText e :=
      Buf.text_sprintf_s_of_lt (by omega)
    have hflag : decide (atoi (Buf.snprintf (flagText e.Enable) : Buf 80).text ≠ 0) = e.Enable := by
      cases e.Enable <;> decide
    simp only [Option.map_some, Option.getD_some, hname80, hname64, hflag, cutAlias]

theorem found_eq (hstore : Stored store stored) (hstored : AsStored stored) :
    (List.range 256).filterMap (fun uIndex => loadAlias store (uIndex + 1)) =
      (loadedEntries stored).map (fun e =>
        ⟨e.InstanceNumber, 0, e.Enable, (cutAlias e).Alias, nameText e⟩) := by
  rw [loadedEntries, List.map_filterMap]
  apply List.filterMap_congr
  intro i hi
  rw [loadAlias_eq hstore (by have hlt := List.mem_range.mp hi; omega)]
  cases he : stored (i + 1) with
  | none => rfl
  | some e => rw [Option.map_some, Option.map_some, (hstored (i + 1) e he).1]

theorem mem_loadedEntries_iff (hstored : AsStored stored) (e : V4Entry) :
    e ∈ loadedEntries stored ↔
      stored e.InstanceNumber = some e ∧ 1 ≤ e.InstanceNumber ∧ e.InstanceNumber ≤ 256 := by
  rw [loadedEntries, List.mem_filterMap]
  constructor
  · intro h
    obtain ⟨i, hi, he⟩ := h
    have hnum := (hstored (i + 1) e he).1
    have hlt := List.mem_range.mp hi
    rw [hnum]
    exact ⟨he, by omega, by omega⟩
  · intro h
    obtain ⟨he, hlow, hhigh⟩ := h
    refine ⟨e.InstanceNumber - 1, List.mem_range.mpr (by omega), ?_⟩
    rw [Nat.sub_add_cancel hlow]
    exact he

theorem loadedEntries_nodup (hstored : AsStored stored) :
    (numbers (loadedEntries stored)).Nodup := by
  rw [numbers, loadedEntries, List.map_filterMap]
  apply List.Nodup.filterMap
  · intro i j n hi hj
    obtain ⟨e, he, hen⟩ := Option.map_eq_some_iff.mp hi
    obtain ⟨f, hf, hfn⟩ := Option.map_eq_some_iff.mp hj
    have hei := (hstored _ e he).1
    have hfj := (hstored _ f hf).1
    omega
  · exact List.nodup_range

theorem entryOf_loadedEntries (hstored : AsStored stored) {n : ℕ} (hn : 1 ≤ n ∧ n ≤ 256) :
    entryOf (loadedEntries stored) n = stored n := by
  apply Option.ext
  intro e
  have hfind := find_eq_some_iff (loadedEntries_nodup hstored) n e
  rw [entryOf, hfind, mem_loadedEntries_iff hstored]
  constructor
  · intro h
    obtain ⟨⟨he, -, -⟩, hnum⟩ := h
    rw [← hnum]
    exact he
  · intro he
    have hnum := (hstored n e he).1
    rw [hnum]
    exact ⟨⟨he, hn⟩, rfl⟩

theorem reflects_load (hstore : Stored store stored) (hstored : AsStored stored)
    (kernel : List Route) : Reflects (CosaDmlRoutingGetNumberOfV4Entries store kernel)
      ((loadedEntries stored).map cutAlias) := by
  have hfound := found_eq hstore hstored
  have hnumbers : numbers ((loadedEntries stored).map cutAlias) =
      numbers (loadedEntries stored) := by
    simp [numbers, cutAlias, Function.comp_def]
  unfold CosaDmlRoutingGetNumberOfV4Entries
  rw [hfound]
  constructor
  · rw [hnumbers]
    exact loadedEntries_nodup hstored
  · intro n hn
    rw [hnumbers] at hn
    obtain ⟨e, he, rfl⟩ := List.mem_map.mp hn
    exact ((mem_loadedEntries_iff hstored e).mp he).2
  · simp only [List.map_map]
    apply List.map_congr_left
    intro e he
    have hnone := (hstored _ e ((mem_loadedEntries_iff hstored e).mp he).1).2
    simp only [Function.comp_def, sscanfName_nameText, staticRoute, cutAlias, hnone, zeroRoute]
  · apply List.ext_getElem?
    intro i
    simp [numbers, cutAlias, Function.comp_def]
  · apply List.ext_getElem?
    intro i
    rcases Nat.lt_or_ge i (loadedEntries stored).length with hi | hi
    · simp [hi]
    · simp [hi]
  · apply List.ext_getElem?
    intro i
    simp [cutAlias, Function.comp_def]
  · apply List.ext_getElem?
    intro i
    simp [cutAlias, Function.comp_def]

theorem cutAlias_eq_iff (e : V4Entry) : cutAlias e = e ↔ e.Alias.length < 80 := by
  obtain ⟨n, al, en, dest, mask, gw, intf, metric⟩ := e
  simp only [cutAlias, V4Entry.mk.injEq, Buf.text_snprintf_eq_iff, true_and, and_true]

theorem perm_cutAlias_iff (hnd : (numbers es).Nodup) :
    (es.map cutAlias).Perm es ↔ ∀ e ∈ es, e.Alias.length < 80 := by
  constructor
  · intro h e he
    have hcut : cutAlias e ∈ es := h.mem_iff.mp (List.mem_map.mpr ⟨e, he, rfl⟩)
    exact (cutAlias_eq_iff e).mp (eq_of_key hnd hcut he rfl)
  · intro h
    have hself : es.map cutAlias = es := by
      conv_rhs => rw [← List.map_id es]
      exact List.map_congr_left (fun e he => (cutAlias_eq_iff e).mpr (h e he))
    rw [hself]

theorem start_kept (hstore : Stored store stored) (hstored : AsStored stored)
    (kernel : List Route) : (Agrees (start store kernel stored) ↔ LoadOk kernel stored) ∧
      (LoadOk kernel stored → Kept (start store kernel stored)) := by
  have hload : Stored store (entryOf (loadedEntries stored)) := by
    intro n hlow hhigh
    rw [entryOf_loadedEntries hstored ⟨hlow, hhigh⟩]
    exact hstore n hlow hhigh
  have harray := reflects_load hstore hstored kernel
  have hagrees : Agrees (start store kernel stored) ↔ LoadOk kernel stored := by
    rw [start, agrees_iff harray hload, perm_cutAlias_iff (loadedEntries_nodup hstored)]
    rfl
  refine ⟨hagrees, fun hok => ⟨?_, hagrees.mpr hok⟩⟩
  have hself : (loadedEntries stored).map cutAlias = loadedEntries stored := by
    conv_rhs => rw [← List.map_id (loadedEntries stored)]
    exact List.map_congr_left (fun e he => (cutAlias_eq_iff e).mpr (hok.2 e he))
  rw [hself] at harray
  exact harray

end Load

/-- From the load on, every state of a run shows the entries in store, kernel
and reader, exactly when the load and each call is Ok where it is made. -/
theorem routes_agree_iff {store : Store CStr CStr} {stored : ℕ → Option V4Entry}
    (hstore : Stored store stored) (hstored : AsStored stored) (kernel : List Route)
    {calls : List Call} (hlegal : StepsMeet step Legal (start store kernel stored) calls) :
    (Agrees (start store kernel stored) ∧
        Throughout step Agrees (start store kernel stored) calls) ↔
      LoadOk kernel stored ∧ StepsMeet step Ok (start store kernel stored) calls := by
  obtain ⟨hagrees, hkept⟩ := start_kept hstore hstored kernel
  rw [hagrees]
  apply and_congr_right
  intro hload
  apply throughout_iff step Kept _ _ (hkept hload) hlegal
  · intro t c ht hc
    obtain ⟨t', ht', hiff, -⟩ := step_kept ht hc
    constructor
    · intro h
      obtain ⟨u, hu, hgood⟩ := h
      rw [ht', Option.some.injEq] at hu
      exact hiff.mp (hu ▸ hgood)
    · exact fun hok => ⟨t', ht', hiff.mpr hok⟩
  · intro t c u ht hc hok hu
    obtain ⟨t', ht', -, hnext⟩ := step_kept ht hc
    rw [ht', Option.some.injEq] at hu
    exact hu ▸ hnext hok

theorem step_entries {t u : Tracked} {c : Call} (h : step t c = some u) :
    u.entries = entriesAfter t.entries c := by
  obtain ⟨s, -, rfl⟩ := Option.map_eq_some_iff.mp h
  rfl

def sampleEntry : V4Entry :=
  { InstanceNumber := 1, Alias := [], Enable := true, DestIPAddress := 0x0000000a#32
    DestSubnetMask := 0x000000ff#32, GatewayIPAddress := 0x0200a8c0#32, Interface := []
    ForwardingMetric := 0 }

/-- A route is added, a lan-status event passes, and the route is turned off. -/
theorem routes_agree_disable :
    Agrees (start (fun _ => none) [] (fun _ => none)) ∧
      Throughout step Agrees (start (fun _ => none) [] (fun _ => none))
        [.add sampleEntry [], .lanStatus, .set { sampleEntry with Enable := false }] := by
  have hnone : loadedEntries (fun _ => none) = [] := by decide
  have hstored : AsStored (fun _ => none) := fun n e h => nomatch h
  apply (routes_agree_iff (fun _ _ _ => ⟨rfl, rfl, rfl⟩) hstored [] ?_).mpr
  · refine ⟨⟨fun r => by rw [hnone]; rfl, fun e he => ?_⟩, ?_, fun t ht => ?_⟩
    · rw [hnone] at he
      cases he
    · exact ⟨rfl, Or.inl rfl⟩
    · have hentries : t.entries = [sampleEntry] := step_entries ht
      refine ⟨fun e he hen => ?_, fun u hu => ⟨?_, fun _ _ => trivial⟩⟩
      · rw [hentries] at he ⊢
        obtain rfl := List.mem_singleton.mp he
        exact List.mem_singleton.mpr rfl
      · have hentries' : u.entries = [sampleEntry] := by rw [step_entries hu, ← hentries]; rfl
        refine ⟨sampleEntry, hentries' ▸ List.mem_singleton.mpr rfl, rfl, Or.inr ⟨rfl, ?_⟩⟩
        intro other hother _ hne
        rw [hentries'] at hother
        exact absurd (congrArg V4Entry.InstanceNumber (List.mem_singleton.mp hother)) hne
  · refine ⟨⟨by decide, by decide, ?_⟩, fun t _ => ⟨trivial, fun u _ => ⟨?_, fun _ _ => trivial⟩⟩⟩
    · rw [start, hnone]
      decide
    · exact ⟨by decide, by decide⟩

/-- Set with another gateway takes the old route out and adds none. -/
theorem changed_gateway_lost :
    let entry := sampleEntry
    let changed := { sampleEntry with GatewayIPAddress := 0x0300a8c0#32 }
    Agrees (start (fun _ => none) [] (fun _ => none)) ∧
      StepsMeet step Legal (start (fun _ => none) [] (fun _ => none))
        [.add entry [], .set changed] ∧
      ¬Throughout step Agrees (start (fun _ => none) [] (fun _ => none))
        [.add entry [], .set changed] := by
  intro entry changed
  have hnone : loadedEntries (fun _ => none) = [] := by decide
  have hload : LoadOk [] (fun _ => none) :=
    ⟨fun r => by rw [hnone]; rfl, fun e he => by rw [hnone] at he; cases he⟩
  obtain ⟨hagrees, hkept⟩ := @start_kept (fun _ => none) (fun _ => none)
    (fun n _ _ => ⟨rfl, rfl, rfl⟩) (fun n e h => nomatch h) []
  have hadd : Legal (start (fun _ => none) [] (fun _ => none)) (.add entry []) :=
    ⟨by decide, by decide, by rw [start, hnone]; decide⟩
  have hset : ∀ t : Tracked, Legal t (.set changed) := fun _ => ⟨by decide, by decide⟩
  refine ⟨hagrees.mpr hload, ⟨hadd, fun t _ => ⟨hset t, fun _ _ => trivial⟩⟩, ?_⟩
  intro hrun
  obtain ⟨t, ht, -, u, hu, hgood, -⟩ := hrun
  obtain ⟨t', ht', -, hnext⟩ := step_kept (hkept hload) hadd
  rw [ht, Option.some.injEq] at ht'
  subst ht'
  have hentries : t.entries = [entry] := step_entries ht
  obtain ⟨u', hu', hiff, -⟩ := step_kept (hnext ⟨rfl, Or.inl rfl⟩) (hset t)
  rw [hu, Option.some.injEq] at hu'
  subst hu'
  obtain ⟨old, hold, he, -⟩ := hiff.mp hgood
  rw [hentries] at hold
  rw [List.mem_singleton.mp hold] at he
  exact absurd he (by decide)

end CcspPandM.RoutingV4Runs
