import CcspPandM.KeyStore
import CcspPandM.ScanText
import Mathlib.Data.List.Nodup
import Mathlib.Data.List.Perm.Subperm

/-!
The IPv6 routes. The kernel's tables are lists of routes as `ip -6 route` prints
them; `canon` stands for how it prints a prefix or an address it was given. The
text fields are shorter than the 64 bytes they are copied into. Instance number,
alias and flag of a route are found again only under its generated name.
-/
namespace CcspPandM.RoutingV6

open CString KeyStore ScanText

abbrev ULONG := BitVec 32

/-- The members of `COSA_DML_ROUTING_V6_ENTRY` that Add and Set read. -/
structure V6Entry where
  InstanceNumber : ULONG
  Alias : CStr
  Enable : Bool
  DestIPPrefix : CStr
  NextHop : CStr
  Interface : CStr
  ForwardingMetric : BitVec 32
  deriving DecidableEq, Repr

structure RouteAlias6 where
  name : CStr
  insNum : ULONG
  alias6 : CStr
  enabled : Bool
  deriving DecidableEq, Repr

structure RouteInfo6 where
  prefix6 : CStr
  gateway : CStr
  interface : CStr
  metric : BitVec 32
  params : RouteAlias6
  deriving DecidableEq, Repr

/-- A route of the kernel; no gateway is the empty text. -/
structure KernelRoute where
  prefix6 : CStr
  gateway : CStr
  dev : CStr
  metric : BitVec 32
  deriving DecidableEq, Repr

/-- Table main, where the calls add their routes, and table erouter. -/
structure Tables6 where
  main : List KernelRoute
  erouter : List KernelRoute

structure State where
  infos : List RouteInfo6
  store : Store CStr CStr
  tables : Tables6

def MAX_RTENTRY : ℕ := 256

/-- A line of `ip -6 route`: its first token and its key/value pairs. -/
structure Line where
  first : CStr
  pairs : List (CStr × CStr)

def routeLine (r : KernelRoute) (withDev : Bool) : Line where
  first := r.prefix6
  pairs := (if r.gateway = [] then [] else [("via".toList, r.gateway)]) ++
    (if withDev then [("dev".toList, r.dev)] else []) ++
    [("metric".toList, intText r.metric)]

def noAlias : RouteAlias6 := ⟨[], 0, [], false⟩

def readPair (info : RouteInfo6) (p : CStr × CStr) : RouteInfo6 :=
  if p.1 = "dev".toList then { info with interface := p.2 }
  else if p.1 = "via".toList then { info with gateway := p.2 }
  else if p.1 = "metric".toList then { info with metric := BitVec.ofInt 32 (atoi p.2) }
  else info

def readLine (ifname : CStr) (line : Line) : RouteInfo6 :=
  line.pairs.foldl readPair
    ⟨if line.first = "default".toList then "::/0".toList else line.first, [], ifname, 0, noAlias⟩

def sameRoute (a b : RouteInfo6) : Bool :=
  a.prefix6 = b.prefix6 ∧ a.gateway = b.gateway ∧ a.interface = b.interface

/-- One loop over the lines of `Route6_GetRouteTable`. The triples of the elements
so far are what `result_arr` holds; `limit` is `*numInfo`. -/
def readLines (limit : ℕ) (ifname : CStr) (skipDefault : Bool) :
    List Line → List RouteInfo6 → List RouteInfo6
  | [], infos => infos
  | line :: lines, infos =>
    if limit ≤ infos.length then infos
    else if skipDefault ∧ line.first = "default".toList then
      readLines limit ifname skipDefault lines infos
    else if infos.any (sameRoute (readLine ifname line)) then
      readLines limit ifname skipDefault lines infos
    else readLines limit ifname skipDefault lines (infos ++ [readLine ifname line])

def Route6_GetRouteTable (tables : Tables6) (ifname : CStr) (limit : ℕ)
    (infos : List RouteInfo6) : List RouteInfo6 :=
  readLines limit ifname false (tables.erouter.map (routeLine · true))
    (readLines limit ifname true
      ((tables.main.filter (·.dev = ifname)).map (routeLine · false)) infos)

/-- `Route6_GetIfNames` without the TR-181 path. -/
def Route6_GetIfNames : List CStr :=
  ["erouter0".toList, "brlan0".toList, "wan0".toList, "lo".toList]

def readInterfaces (tables : Tables6) : List CStr → List RouteInfo6 → List RouteInfo6
  | [], infos => infos
  | ifname :: rest, infos =>
    if MAX_RTENTRY - infos.length = 0 then infos
    else readInterfaces tables rest
      (Route6_GetRouteTable tables ifname (MAX_RTENTRY - infos.length) infos)

def starIfEmpty (t : CStr) : CStr := if t = [] then ['*'] else t

def Route6_GenerateName (prefix6 gateway interface : CStr) : CStr :=
  starIfEmpty prefix6 ++ '_' :: (starIfEmpty gateway ++ '_' :: starIfEmpty interface)

/-- `tr_routing_v6entry.<name>.<field>`. -/
def paramKey (name field : CStr) : CStr := "tr_routing_v6entry.".toList ++ name ++ '.' :: field

def insKey (name : CStr) : CStr := paramKey name "instance".toList

def aliasKey (name : CStr) : CStr := paramKey name "alias".toList

def enabledKey (name : CStr) : CStr := paramKey name "enabled".toList

/-- The parameters of a route as the load finds them under its name. A route that
is in the kernel counts as enabled, and the store is made to say so. -/
def loadParams (store : Store CStr CStr) (info : RouteInfo6) :
    RouteAlias6 × Store CStr CStr :=
  let name := Route6_GenerateName info.prefix6 info.gateway info.interface
  let params : RouteAlias6 :=
    { name
      insNum := ((store (insKey name)).map (fun v => BitVec.ofInt 32 (atoi v))).getD 0
      alias6 := (store (aliasKey name)).getD []
      enabled := (store (enabledKey name)).isSome }
  match store (enabledKey name) with
  | none => (params, store)
  | some v => (params, if atoi v ≠ 1 then KeyStore.set store (enabledKey name) ['1'] else store)

def loadAll : List RouteInfo6 → Store CStr CStr → List RouteInfo6 × Store CStr CStr
  | [], store => ([], store)
  | info :: infos, store =>
    let (params, store) := loadParams store info
    let (infos, store) := loadAll infos store
    ({ info with params } :: infos, store)

/-- `CosaDmlRoutingGetNumberOfV6Entries`: the reload. -/
def Route6_LoadRouteInfo (s : State) : State :=
  let (infos, store) := loadAll (readInterfaces s.tables Route6_GetIfNames []) s.store
  { s with infos, store }

def Route6_GetInfoByInsNum (insNum : ULONG) (s : State) : Option ℕ :=
  s.infos.findIdx? (·.params.insNum = insNum)

def Route6_SaveParams (p : RouteAlias6) (store : Store CStr CStr) : Store CStr CStr :=
  setAll [(insKey p.name, decimal p.insNum.toNat), (aliasKey p.name, p.alias6),
    (enabledKey p.name, if p.enabled then ['1'] else ['0'])] store

section Kernel

variable (canon : CStr → CStr)

/-- `ip -6 route add`; the kernel gives a route without metric the metric 1024. -/
def Route6_Add (prefix6 gw dev : CStr) (metric : BitVec 32) (tables : Tables6) : Tables6 :=
  if prefix6 = [] ∨ dev = [] then tables
  else
    let route : KernelRoute :=
      ⟨canon prefix6, if gw = [] then [] else canon gw, dev, if metric = 0 then 1024 else metric⟩
    { tables with main := tables.main.insert route }

/-- `ip -6 route del`; what is not named matches anything. -/
def delMatches (prefix6 gw dev : CStr) (r : KernelRoute) : Bool :=
  r.prefix6 = canon prefix6 ∧ (gw = [] ∨ r.gateway = canon gw) ∧ (dev = [] ∨ r.dev = dev)

def Route6_Del (prefix6 gw dev : CStr) (tables : Tables6) : Tables6 :=
  if prefix6 = [] then tables
  else { tables with main := tables.main.filter (fun r => !delMatches canon prefix6 gw dev r) }

inductive Status where
  | SUCCESS
  | FAILURE
  deriving DecidableEq, Repr

def infoOf (e : V6Entry) : RouteInfo6 :=
  ⟨e.DestIPPrefix, e.NextHop, e.Interface, e.ForwardingMetric,
    ⟨Route6_GenerateName e.DestIPPrefix e.NextHop e.Interface, e.InstanceNumber, e.Alias, e.Enable⟩⟩

def CosaDmlRoutingAddV6Entry (e : V6Entry) (s : State) : Status × State :=
  if MAX_RTENTRY ≤ s.infos.length then (.FAILURE, s)
  else
    (.SUCCESS,
      { infos := s.infos ++ [infoOf e]
        store := Route6_SaveParams (infoOf e).params s.store
        tables := if e.Enable then
            Route6_Add canon e.DestIPPrefix e.NextHop e.Interface e.ForwardingMetric s.tables
          else s.tables })

def CosaDmlRoutingDelV6Entry (insNum : ULONG) (s : State) : Status × State :=
  match Route6_GetInfoByInsNum insNum s with
  | none => (.FAILURE, s)
  | some index =>
    match s.infos[index]? with
    | none => (.FAILURE, s)
    | some info =>
      (.SUCCESS,
        { infos := s.infos.eraseIdx index
          store := unsetAll
            [insKey info.params.name, aliasKey info.params.name, enabledKey info.params.name]
              s.store
          tables := Route6_Del canon info.prefix6 info.gateway info.interface s.tables })

def CosaDmlRoutingSetV6Entry (e : V6Entry) (s : State) : Status × State :=
  match Route6_GetInfoByInsNum e.InstanceNumber s with
  | none => (.FAILURE, s)
  | some index =>
    match s.infos[index]? with
    | none => (.FAILURE, s)
    | some info =>
      let tables := if info.params.enabled then
          Route6_Del canon info.prefix6 info.gateway info.interface s.tables
        else s.tables
      (.SUCCESS,
        { infos := s.infos.set index (infoOf e)
          store := Route6_SaveParams (infoOf e).params s.store
          tables := if e.Enable then
              Route6_Add canon e.DestIPPrefix e.NextHop e.Interface e.ForwardingMetric tables
            else tables })

end Kernel

def triple (info : RouteInfo6) : CStr × CStr × CStr :=
  (info.prefix6, info.gateway, info.interface)

def routeTriple (r : KernelRoute) : CStr × CStr × CStr :=
  (if r.prefix6 = "default".toList then "::/0".toList else r.prefix6, r.gateway, r.dev)

theorem sameRoute_iff (a b : RouteInfo6) : sameRoute a b = true ↔ triple a = triple b := by
  simp [sameRoute, triple]

theorem readPair_dev (info : RouteInfo6) (t : CStr) :
    readPair info ("dev".toList, t) = { info with interface := t } := if_pos rfl

theorem readPair_via (info : RouteInfo6) (t : CStr) :
    readPair info ("via".toList, t) = { info with gateway := t } := by
  have hdev : "via".toList ≠ "dev".toList := by decide
  exact (if_neg hdev).trans (if_pos rfl)

theorem readPair_metric (info : RouteInfo6) (t : CStr) :
    readPair info ("metric".toList, t) = { info with metric := BitVec.ofInt 32 (atoi t) } := by
  have hdev : "metric".toList ≠ "dev".toList := by decide
  have hvia : "metric".toList ≠ "via".toList := by decide
  exact (if_neg hdev).trans ((if_neg hvia).trans (if_pos rfl))

theorem readLine_routeLine (ifname : CStr) (r : KernelRoute) (withDev : Bool) :
    triple (readLine ifname (routeLine r withDev)) =
        (if r.prefix6 = "default".toList then "::/0".toList else r.prefix6, r.gateway,
          if withDev then r.dev else ifname) ∧
      (readLine ifname (routeLine r withDev)).params = noAlias := by
  unfold readLine routeLine triple
  by_cases hgw : r.gateway = []
  · cases withDev <;>
      simp only [hgw, if_true, List.nil_append, List.foldl_append, List.foldl_cons,
        List.foldl_nil, readPair_dev, readPair_metric, Bool.false_eq_true, if_false, and_self]
  · cases withDev <;>
      simp only [hgw, if_true, List.foldl_append, List.foldl_cons, List.foldl_nil, readPair_dev,
        readPair_via, readPair_metric, Bool.false_eq_true, if_false, and_self]

section Reading

variable {limit : ℕ} {ifname : CStr} {skip : Bool} {lines : List Line} {infos : List RouteInfo6}

theorem subset_readLines : infos ⊆ readLines limit ifname skip lines infos := by
  induction lines generalizing infos with
  | nil => exact fun _ h => h
  | cons line lines ih =>
    rw [readLines]
    split_ifs
    · exact fun _ h => h
    · exact ih
    · exact ih
    · exact fun x hx => ih (List.mem_append_left _ hx)

theorem length_le_readLines : infos.length ≤ (readLines limit ifname skip lines infos).length := by
  induction lines generalizing infos with
  | nil => exact Nat.le_refl _
  | cons line lines ih =>
    rw [readLines]
    split_ifs
    · exact Nat.le_refl _
    · exact ih
    · exact ih
    · have hle := @ih (infos ++ [readLine ifname line])
      rw [List.length_append, List.length_singleton] at hle
      omega

theorem mem_readLines {info : RouteInfo6}
    (h : info ∈ readLines limit ifname skip lines infos) : info ∈ infos ∨
      ∃ line ∈ lines, (skip = true → line.first ≠ "default".toList) ∧
        info = readLine ifname line := by
  induction lines generalizing infos with
  | nil => exact Or.inl h
  | cons line lines ih =>
    have hlater : (∃ l ∈ lines, (skip = true → l.first ≠ "default".toList) ∧
        info = readLine ifname l) → ∃ l ∈ line :: lines, (skip = true →
          l.first ≠ "default".toList) ∧ info = readLine ifname l :=
      fun ⟨l, hl, hrest⟩ => ⟨l, List.mem_cons_of_mem _ hl, hrest⟩
    rw [readLines] at h
    split_ifs at h with hfull hskip hfound
    · exact Or.inl h
    · exact (ih h).imp_right hlater
    · exact (ih h).imp_right hlater
    · rcases ih h with hold | hnew
      · rcases List.mem_append.mp hold with hold | hhere
        · exact Or.inl hold
        · refine Or.inr ⟨line, List.mem_cons_self, fun hs hd => hskip ⟨hs, hd⟩, ?_⟩
          exact List.mem_singleton.mp hhere
      · exact Or.inr (hlater hnew)

theorem nodup_readLines (h : (infos.map triple).Nodup) :
    ((readLines limit ifname skip lines infos).map triple).Nodup := by
  induction lines generalizing infos with
  | nil => exact h
  | cons line lines ih =>
    rw [readLines]
    split_ifs with hfull hskip hfound
    · exact h
    · exact ih h
    · exact ih h
    · apply ih
      rw [List.map_append, List.map_singleton]
      apply h.append (List.nodup_singleton _)
      intro x hx hline
      rw [List.mem_singleton.mp hline] at hx
      obtain ⟨info, hinfo, hsame⟩ := List.mem_map.mp hx
      apply hfound
      exact List.any_eq_true.mpr ⟨info, hinfo, (sameRoute_iff _ _).mpr hsame.symm⟩

theorem covers_readLines (h : (readLines limit ifname skip lines infos).length < limit)
    {line : Line} (hline : line ∈ lines) (hskip : skip = true → line.first ≠ "default".toList) :
    ∃ info ∈ readLines limit ifname skip lines infos,
      triple info = triple (readLine ifname line) := by
  induction lines generalizing infos with
  | nil => cases hline
  | cons l lines ih =>
    rw [readLines] at h ⊢
    split_ifs at h ⊢ with hfull hdefault hfound
    · omega
    · rcases List.mem_cons.mp hline with rfl | hline
      · exact absurd hdefault.2 (hskip hdefault.1)
      · exact ih h hline
    · rcases List.mem_cons.mp hline with rfl | hline
      · obtain ⟨info, hinfo, hsame⟩ := List.any_eq_true.mp hfound
        exact ⟨info, subset_readLines hinfo, ((sameRoute_iff _ _).mp hsame).symm⟩
      · exact ih h hline
    · rcases List.mem_cons.mp hline with rfl | hline
      · exact ⟨_, subset_readLines (List.mem_append_right _ (List.mem_singleton.mpr rfl)), rfl⟩
      · exact ih h hline

end Reading

def Listed (tables : Tables6) (ifnames : List CStr) (t : CStr × CStr × CStr) : Prop :=
  (∃ r ∈ tables.main, r.dev ∈ ifnames ∧ r.prefix6 ≠ "default".toList ∧ routeTriple r = t) ∨
    ∃ r ∈ tables.erouter, routeTriple r = t

def allTriples (tables : Tables6) : List (CStr × CStr × CStr) :=
  tables.main.map routeTriple ++ tables.erouter.map routeTriple

theorem mem_allTriples_of_listed {tables : Tables6} {ifnames : List CStr}
    {t : CStr × CStr × CStr} (h : Listed tables ifnames t) : t ∈ allTriples tables := by
  rw [allTriples, List.mem_append, List.mem_map, List.mem_map]
  rcases h with ⟨r, hr, -, -, ht⟩ | ⟨r, hr, ht⟩
  · exact Or.inl ⟨r, hr, ht⟩
  · exact Or.inr ⟨r, hr, ht⟩

structure ReadFrom (tables : Tables6) (ifnames : List CStr) (infos : List RouteInfo6) : Prop where
  nodup : (infos.map triple).Nodup
  listed : ∀ info ∈ infos, Listed tables ifnames (triple info) ∧ info.params = noAlias

theorem ReadFrom.length_le {tables : Tables6} {ifnames : List CStr} {infos : List RouteInfo6}
    (h : ReadFrom tables ifnames infos) : infos.length ≤ (allTriples tables).length := by
  have hsub : infos.map triple ⊆ allTriples tables := by
    intro t ht
    obtain ⟨info, hinfo, rfl⟩ := List.mem_map.mp ht
    exact mem_allTriples_of_listed (h.listed info hinfo).1
  have hle := (List.Nodup.subperm h.nodup hsub).length_le
  rwa [List.length_map] at hle

section Interfaces

variable {tables : Tables6} {ifname : CStr} {limit : ℕ} {ifnames : List CStr}
  {infos : List RouteInfo6}

theorem subset_getRouteTable : infos ⊆ Route6_GetRouteTable tables ifname limit infos :=
  fun _ h => subset_readLines (subset_readLines h)

theorem readFrom_getRouteTable (hname : ifname ∈ ifnames) (h : ReadFrom tables ifnames infos) :
    ReadFrom tables ifnames (Route6_GetRouteTable tables ifname limit infos) := by
  refine ⟨nodup_readLines (nodup_readLines h.nodup), fun info hinfo => ?_⟩
  rcases mem_readLines hinfo with hfirst | ⟨line, hline, -, rfl⟩
  · rcases mem_readLines hfirst with hold | ⟨line, hline, hskip, rfl⟩
    · exact h.listed info hold
    · obtain ⟨r, hr, rfl⟩ := List.mem_map.mp hline
      obtain ⟨hmem, hdev⟩ := List.mem_filter.mp hr
      have hdev' : r.dev = ifname := by simpa using hdev
      obtain ⟨htriple, hparams⟩ := readLine_routeLine ifname r false
      refine ⟨Or.inl ⟨r, hmem, hdev' ▸ hname, hskip rfl, ?_⟩, hparams⟩
      rw [htriple, routeTriple, hdev']
      rfl
  · obtain ⟨r, hr, rfl⟩ := List.mem_map.mp hline
    obtain ⟨htriple, hparams⟩ := readLine_routeLine ifname r true
    exact ⟨Or.inr ⟨r, hr, htriple.symm⟩, hparams⟩

theorem covers_getRouteTable
    (hroom : (Route6_GetRouteTable tables ifname limit infos).length < limit) :
    (∀ r ∈ tables.main, r.dev = ifname → r.prefix6 ≠ "default".toList →
      routeTriple r ∈ (Route6_GetRouteTable tables ifname limit infos).map triple) ∧
    ∀ r ∈ tables.erouter,
      routeTriple r ∈ (Route6_GetRouteTable tables ifname limit infos).map triple := by
  constructor
  · intro r hr hdev hdefault
    have hfirst := Nat.lt_of_le_of_lt length_le_readLines hroom
    have hline : routeLine r false ∈
        (tables.main.filter (·.dev = ifname)).map (routeLine · false) :=
      List.mem_map.mpr ⟨r, List.mem_filter.mpr ⟨hr, by simpa using hdev⟩, rfl⟩
    obtain ⟨info, hinfo, htriple⟩ := covers_readLines hfirst hline (fun _ => hdefault)
    refine List.mem_map.mpr ⟨info, subset_readLines hinfo, ?_⟩
    rw [htriple, (readLine_routeLine ifname r false).1, routeTriple, hdev]
    rfl
  · intro r hr
    have hline : routeLine r true ∈ tables.erouter.map (routeLine · true) :=
      List.mem_map.mpr ⟨r, hr, rfl⟩
    obtain ⟨info, hinfo, htriple⟩ := covers_readLines hroom hline (fun h => nomatch h)
    refine List.mem_map.mpr ⟨info, hinfo, ?_⟩
    rw [htriple, (readLine_routeLine ifname r true).1]
    rfl

theorem subset_readInterfaces (names : List CStr) (infos : List RouteInfo6) :
    infos ⊆ readInterfaces tables names infos := by
  induction names generalizing infos with
  | nil => exact fun _ h => h
  | cons name names ih =>
    rw [readInterfaces]
    split_ifs
    · exact fun _ h => h
    · exact fun _ h => ih _ (subset_getRouteTable h)

theorem readFrom_readInterfaces {names : List CStr} (hnames : names ⊆ ifnames)
    (h : ReadFrom tables ifnames infos) :
    ReadFrom tables ifnames (readInterfaces tables names infos) := by
  induction names generalizing infos with
  | nil => exact h
  | cons name names ih =>
    rw [readInterfaces]
    split_ifs
    · exact h
    · apply ih (fun _ hn => hnames (List.mem_cons_of_mem _ hn))
      exact readFrom_getRouteTable (hnames List.mem_cons_self) h

theorem covers_interface (hfew : (allTriples tables).length ≤ 128) (hname : ifname ∈ ifnames)
    (h : ReadFrom tables ifnames infos) {t : CStr × CStr × CStr}
    (ht : Listed tables [ifname] t) :
    t ∈ (Route6_GetRouteTable tables ifname (MAX_RTENTRY - infos.length) infos).map triple := by
  have hread := @readFrom_getRouteTable _ _ (MAX_RTENTRY - infos.length) _ _ hname h
  have hlen := hread.length_le
  have hstart := h.length_le
  have hmax : MAX_RTENTRY = 256 := rfl
  rcases Nat.lt_or_ge infos.length 128 with hlt | hge
  · obtain ⟨hmain, herouter⟩ := @covers_getRouteTable tables ifname
      (MAX_RTENTRY - infos.length) infos (by omega)
    rcases ht with ⟨r, hr, hdev, hdefault, rfl⟩ | ⟨r, hr, rfl⟩
    · exact hmain r hr (List.mem_singleton.mp hdev) hdefault
    · exact herouter r hr
  · have hsub : infos.map triple ⊆ allTriples tables := by
      intro t ht
      obtain ⟨info, hinfo, rfl⟩ := List.mem_map.mp ht
      exact mem_allTriples_of_listed (h.listed info hinfo).1
    have hperm := (List.Nodup.subperm h.nodup hsub).perm_of_length_le (by simp; omega)
    obtain ⟨info, hinfo, rfl⟩ :=
      List.mem_map.mp (hperm.mem_iff.mpr (mem_allTriples_of_listed ht))
    exact List.mem_map.mpr ⟨info, subset_getRouteTable hinfo, rfl⟩

theorem covers_readInterfaces (hfew : (allTriples tables).length ≤ 128) {names : List CStr}
    (hnames : names ⊆ ifnames) (h : ReadFrom tables ifnames infos) {name : CStr}
    (hname : name ∈ names) {t : CStr × CStr × CStr} (ht : Listed tables [name] t) :
    t ∈ (readInterfaces tables names infos).map triple := by
  induction names generalizing infos with
  | nil => cases hname
  | cons n names ih =>
    have hn : n ∈ ifnames := hnames List.mem_cons_self
    have hlen := h.length_le
    rw [readInterfaces, if_neg (by have hmax : MAX_RTENTRY = 256 := rfl; omega)]
    rcases List.mem_cons.mp hname with rfl | hname
    · obtain ⟨info, hinfo, rfl⟩ := List.mem_map.mp (covers_interface hfew hn h ht)
      exact List.mem_map.mpr ⟨info, subset_readInterfaces _ _ hinfo, rfl⟩
    · apply ih (fun _ hm => hnames (List.mem_cons_of_mem _ hm)) _ hname
      exact readFrom_getRouteTable hn h

end Interfaces

theorem readInterfaces_spec {tables : Tables6} (hfew : (allTriples tables).length ≤ 128) :
    ReadFrom tables Route6_GetIfNames (readInterfaces tables Route6_GetIfNames []) ∧
      ∀ t, Listed tables Route6_GetIfNames t →
        t ∈ (readInterfaces tables Route6_GetIfNames []).map triple := by
  have hstart : ReadFrom tables Route6_GetIfNames [] :=
    ⟨List.nodup_nil, fun info h => absurd h (List.not_mem_nil)⟩
  refine ⟨readFrom_readInterfaces (List.Subset.refl _) hstart, fun t ht => ?_⟩
  rcases ht with ⟨r, hr, hdev, hdefault, rfl⟩ | ⟨r, hr, rfl⟩
  · exact covers_readInterfaces hfew (List.Subset.refl _) hstart hdev
      (Or.inl ⟨r, hr, List.mem_singleton.mpr rfl, hdefault, rfl⟩)
  · exact covers_readInterfaces hfew (List.Subset.refl _) hstart
      (List.mem_cons_self : "erouter0".toList ∈ Route6_GetIfNames) (Or.inr ⟨r, hr, rfl⟩)

theorem paramKey_inj {a b field : CStr} : paramKey a field = paramKey b field ↔ a = b := by
  constructor
  · intro h
    unfold paramKey at h
    rw [List.append_assoc, List.append_assoc] at h
    exact List.append_cancel_right (List.append_cancel_left h)
  · intro h
    rw [h]

@[simp] theorem insKey_inj {a b : CStr} : insKey a = insKey b ↔ a = b := paramKey_inj

@[simp] theorem aliasKey_inj {a b : CStr} : aliasKey a = aliasKey b ↔ a = b := paramKey_inj

@[simp] theorem enabledKey_inj {a b : CStr} : enabledKey a = enabledKey b ↔ a = b := paramKey_inj

theorem getLast?_paramKey (name field : CStr) (c : Char) :
    (paramKey name (field ++ [c])).getLast? = some c := by
  unfold paramKey
  generalize "tr_routing_v6entry.".toList = front
  rw [← List.cons_append, ← List.append_assoc, List.getLast?_concat]

theorem insKey_ne_aliasKey (a b : CStr) : insKey a ≠ aliasKey b := by
  intro h
  have hlast := congrArg List.getLast? h
  rw [insKey, aliasKey, show "instance".toList = "instanc".toList ++ ['e'] from rfl,
    show "alias".toList = "alia".toList ++ ['s'] from rfl, getLast?_paramKey,
    getLast?_paramKey] at hlast
  exact absurd hlast (by decide)

theorem insKey_ne_enabledKey (a b : CStr) : insKey a ≠ enabledKey b := by
  intro h
  have hlast := congrArg List.getLast? h
  rw [insKey, enabledKey, show "instance".toList = "instanc".toList ++ ['e'] from rfl,
    show "enabled".toList = "enable".toList ++ ['d'] from rfl, getLast?_paramKey,
    getLast?_paramKey] at hlast
  exact absurd hlast (by decide)

theorem aliasKey_ne_enabledKey (a b : CStr) : aliasKey a ≠ enabledKey b := by
  intro h
  have hlast := congrArg List.getLast? h
  rw [aliasKey, enabledKey, show "alias".toList = "alia".toList ++ ['s'] from rfl,
    show "enabled".toList = "enable".toList ++ ['d'] from rfl, getLast?_paramKey,
    getLast?_paramKey] at hlast
  exact absurd hlast (by decide)

theorem saveParams_apply (p : RouteAlias6) (store : Store CStr CStr) (name : CStr) :
    Route6_SaveParams p store (insKey name) =
        (if name = p.name then some (decimal p.insNum.toNat) else store (insKey name)) ∧
      Route6_SaveParams p store (aliasKey name) =
        (if name = p.name then some p.alias6 else store (aliasKey name)) ∧
      Route6_SaveParams p store (enabledKey name) =
        (if name = p.name then some (if p.enabled then ['1'] else ['0'])
          else store (enabledKey name)) := by
  refine ⟨?_, ?_, ?_⟩
  · simp [Route6_SaveParams, setAll, KeyStore.set, Function.update_apply, insKey_ne_aliasKey,
      insKey_ne_enabledKey]
  · simp [Route6_SaveParams, setAll, KeyStore.set, Function.update_apply,
      (insKey_ne_aliasKey _ _).symm, aliasKey_ne_enabledKey]
  · simp [Route6_SaveParams, setAll, KeyStore.set, Function.update_apply,
      (insKey_ne_enabledKey _ _).symm, (aliasKey_ne_enabledKey _ _).symm]

theorem loadAll_eq (infos : List RouteInfo6) (store : Store CStr CStr)
    (h : ∀ info ∈ infos, ∀ v, store (enabledKey
      (Route6_GenerateName info.prefix6 info.gateway info.interface)) = some v → atoi v = 1) :
    loadAll infos store =
      (infos.map (fun info => { info with params := (loadParams store info).1 }), store) := by
  induction infos with
  | nil => rfl
  | cons info infos ih =>
    have hstore : (loadParams store info).2 = store := by
      unfold loadParams
      dsimp only
      split
      · rfl
      · next v hv => simp [h info List.mem_cons_self v hv]
    rw [loadAll]
    simp only [hstore, ih (fun i hi => h i (List.mem_cons_of_mem _ hi)), List.map_cons]

end CcspPandM.RoutingV6
