import CcspPandM.FgetsLines
import CcspPandM.FirstAppearance

/-!
The IPv6 routes that the kernel prints for each interface and, after each of them, for one
routing table, collected without duplicates into two arrays of 256. The caller hands on
how many places are left, and the callee takes that as the number of all routes it may
reach.
-/
namespace CcspPandM.Route6Table

open CString FirstAppearance

abbrev MAX_RTENTRY : ℕ := 256

structure RouteInfo6_KeyParam where
  prefix_ : CStr
  gateway : CStr
  interface : CStr
  deriving DecidableEq

structure RouteAlias6 where
  name : CStr
  insNum : ℤ
  alias_ : CStr
  enabled : Bool

structure RouteInfo6 where
  prefix_ : CStr
  gateway : CStr
  interface : CStr
  proto : CStr
  metric : ℤ
  alias6 : RouteAlias6

def RouteAlias6.zero : RouteAlias6 := ⟨[], 0, [], false⟩

def RouteInfo6.zero : RouteInfo6 := ⟨[], [], [], [], 0, .zero⟩

def RouteInfo6.key (r : RouteInfo6) : RouteInfo6_KeyParam := ⟨r.prefix_, r.gateway, r.interface⟩

/-- The globals; behind `g_numRtInfo6` the arrays hold what was left there. -/
structure Globals where
  g_numRtInfo6 : ℕ
  g_routeInfos6 : ℕ → RouteInfo6
  result_arr : ℕ → RouteInfo6_KeyParam

/-- What the two commands print, and what `Utopia_RawGet` finds. -/
structure Env where
  show_dev : CStr → CStr
  list_table : CStr
  Utopia_RawGet : CStr → Option CStr

def isDelim (c : Char) : Bool := c = ' ' || c = '\t' || c = '\r' || c = '\n'

/-- The successive results of `strtok_r`. -/
def tokens (line : CStr) : List CStr := (line.splitOnP isDelim).filter (· ≠ [])

/-- `snprintf` into 64 bytes. -/
def field (t : CStr) : CStr := t.take 63

def setKey (info6 : RouteInfo6) (key val : CStr) : RouteInfo6 :=
  if key = "dev".toList then { info6 with interface := field val }
  else if key = "via".toList then { info6 with gateway := field val }
  else if key = "proto".toList then { info6 with proto := field val }
  else if key = "metric".toList then { info6 with metric := atoi val }
  else info6

/-- A key without a value is passed over. -/
def setKeys (info6 : RouteInfo6) : List CStr → RouteInfo6
  | key :: val :: rest => setKeys (setKey info6 key val) rest
  | _ => info6

/-- The route of a line; a default route counts only in the table. -/
def lineRoute (table : Bool) (ifname line : CStr) : Option RouteInfo6 :=
  match tokens line with
  | [] => none
  | prefix_ :: rest =>
    if prefix_ = "default".toList then
      if table then
        some (setKeys { RouteInfo6.zero with prefix_ := "::/0".toList, interface := ifname } rest)
      else none
    else some (setKeys { RouteInfo6.zero with prefix_ := field prefix_, interface := ifname } rest)

def readRoutes (table : Bool) (ifname : CStr) (numInfo : ℕ) :
    List CStr → Globals × ℕ → Globals × ℕ
  | [], s => s
  | line :: lines, (g, entryCnt) =>
    if numInfo ≤ entryCnt then (g, entryCnt)
    else if tokens line = [] then readRoutes table ifname numInfo lines (g, entryCnt)
    else
      match lineRoute table ifname line with
      | none =>
        readRoutes table ifname numInfo lines
          ({ g with g_routeInfos6 := Function.update g.g_routeInfos6 entryCnt .zero }, entryCnt)
      | some info6 =>
        let g : Globals :=
          { g with g_routeInfos6 := Function.update g.g_routeInfos6 entryCnt info6 }
        let bFound : Bool :=
          (List.range g.g_numRtInfo6).any fun i => g.result_arr i = info6.key
        if g.g_numRtInfo6 = 0 ∨ bFound = false then
          readRoutes table ifname numInfo lines
            ({ g with
                result_arr := Function.update g.result_arr g.g_numRtInfo6 info6.key
                g_numRtInfo6 := g.g_numRtInfo6 + 1 }, entryCnt + 1)
        else readRoutes table ifname numInfo lines (g, entryCnt)

/-- The new value of `*numInfo` is the number of all routes. -/
def Route6_GetRouteTable (env : Env) (ifname : CStr) (numInfo : ℕ) (g : Globals) : Globals :=
  let s := readRoutes false ifname numInfo (FgetsLines.reads 255 (env.show_dev ifname))
    (g, g.g_numRtInfo6)
  (readRoutes true ifname numInfo (FgetsLines.reads 255 env.list_table) s).1

/-- The calls for the interfaces in turn, until no place is left. -/
def getTables (env : Env) : List (Buf 32) → Globals → Globals
  | [], g => g
  | ifname :: iflist, g =>
    if MAX_RTENTRY ≤ g.g_numRtInfo6 then g
    else getTables env iflist
      (Route6_GetRouteTable env ifname.text (MAX_RTENTRY - g.g_numRtInfo6) g)

def Route6_GenerateName (k : RouteInfo6_KeyParam) : CStr :=
  let text (t : CStr) : CStr := if t = [] then ['*'] else t
  text k.prefix_ ++ '_' :: (text k.gateway ++ '_' :: text k.interface)

def rt6Key (name param : CStr) : CStr :=
  "tr_routing_v6entry.".toList ++ (name ++ '.' :: param)

def loadAlias (env : Env) (info6 : RouteInfo6) : RouteAlias6 :=
  let name := Route6_GenerateName info6.key
  { name
    insNum := ((env.Utopia_RawGet (rt6Key name "instance".toList)).map atoi).getD 0
    alias_ := (env.Utopia_RawGet (rt6Key name "alias".toList)).getD []
    enabled := (env.Utopia_RawGet (rt6Key name "enabled".toList)).isSome }

def Route6_LoadRouteInfo (env : Env) (iflist : List (Buf 32)) (g : Globals) : Globals :=
  let g := getTables env iflist { g with g_numRtInfo6 := 0 }
  { g with
    g_routeInfos6 := fun i =>
      if i < g.g_numRtInfo6 then
        { g.g_routeInfos6 i with alias6 := loadAlias env (g.g_routeInfos6 i) }
      else g.g_routeInfos6 i }

/-- What is asked of an entry: its triple, and where the route comes from. -/
structure Route where
  key : RouteInfo6_KeyParam
  proto : CStr
  metric : ℤ

def RouteInfo6.route (r : RouteInfo6) : Route := ⟨r.key, r.proto, r.metric⟩

def Shows (g : Globals) (es : List Route) : Prop :=
  g.g_numRtInfo6 = es.length ∧ ∀ i r, es[i]? = some r →
    (g.g_routeInfos6 i).route = r ∧ g.result_arr i = r.key

section loops

variable {g : Globals} {es : List Route}

theorem shows_slot (h : Shows g es) (info6 : RouteInfo6) :
    Shows { g with g_routeInfos6 := Function.update g.g_routeInfos6 es.length info6 } es := by
  refine ⟨h.1, fun i r hr => ?_⟩
  have hi : i < es.length := (List.getElem?_eq_some_iff.mp hr).1
  obtain ⟨hinfo, hkey⟩ := h.2 i r hr
  refine ⟨?_, hkey⟩
  change (Function.update g.g_routeInfos6 es.length info6 i).route = r
  rwa [Function.update_of_ne (Nat.ne_of_lt hi)]

theorem shows_added (h : Shows g es) (info6 : RouteInfo6) :
    Shows { g with
      g_routeInfos6 := Function.update g.g_routeInfos6 es.length info6
      result_arr := Function.update g.result_arr es.length info6.key
      g_numRtInfo6 := es.length + 1 } (es ++ [info6.route]) := by
  refine ⟨by rw [List.length_append]; rfl, fun i r hr => ?_⟩
  change (Function.update g.g_routeInfos6 es.length info6 i).route = r ∧
    Function.update g.result_arr es.length info6.key i = r.key
  by_cases hi : i = es.length
  · subst hi
    rw [List.getElem?_concat_length] at hr
    obtain rfl := Option.some.inj hr
    rw [Function.update_self, Function.update_self]
    exact ⟨rfl, rfl⟩
  · have hlt : i < es.length := by
      have hle := (List.getElem?_eq_some_iff.mp hr).1
      rw [List.length_append, List.length_singleton] at hle
      omega
    rw [List.getElem?_append_left hlt] at hr
    rw [Function.update_of_ne hi, Function.update_of_ne hi]
    exact h.2 i r hr

theorem found_iff (h : Shows g es) (key : RouteInfo6_KeyParam) :
    ((List.range es.length).any fun i => g.result_arr i = key) = true ↔
      key ∈ es.map Route.key := by
  rw [List.any_eq_true, List.mem_map]
  constructor
  · rintro ⟨i, hi, hkey⟩
    have hlt := List.mem_range.mp hi
    refine ⟨es[i], List.getElem_mem hlt, ?_⟩
    rw [← (h.2 i es[i] (List.getElem?_eq_getElem hlt)).2]
    exact of_decide_eq_true hkey
  · rintro ⟨r, hr, rfl⟩
    obtain ⟨i, hi, rfl⟩ := List.getElem_of_mem hr
    refine ⟨i, List.mem_range.mpr hi, decide_eq_true ?_⟩
    exact (h.2 i es[i] (List.getElem?_eq_getElem hi)).2

theorem readRoutes_shows (table : Bool) (ifname : CStr) (numInfo : ℕ) (lines : List CStr)
    (h : Shows g es) : ∃ g', Shows g' (addUpTo Route.key numInfo es
        ((lines.filterMap (lineRoute table ifname)).map RouteInfo6.route)) ∧
      readRoutes table ifname numInfo lines (g, es.length) = (g', (addUpTo Route.key numInfo es
        ((lines.filterMap (lineRoute table ifname)).map RouteInfo6.route)).length) := by
  induction lines generalizing g es with
  | nil => exact ⟨g, h, rfl⟩
  | cons line lines ih =>
    by_cases hfull : numInfo ≤ es.length
    · refine ⟨g, ?_, ?_⟩
      · rwa [addUpTo_of_le hfull]
      · rw [addUpTo_of_le hfull, readRoutes, if_pos hfull]
    rw [readRoutes, if_neg hfull]
    by_cases hempty : tokens line = []
    · have hnone : lineRoute table ifname line = none := by rw [lineRoute, hempty]
      rw [if_pos hempty, List.filterMap_cons, hnone]
      exact ih h
    rw [if_neg hempty, List.filterMap_cons]
    cases hroute : lineRoute table ifname line with
    | none => exact ih (shows_slot h .zero)
    | some info6 =>
      have hslot := shows_slot h info6
      have hfound := found_iff hslot info6.key
      dsimp only at hfound ⊢
      rw [h.1] at hslot ⊢
      rw [List.map_cons, addUpTo, if_neg hfull]
      by_cases hmem : info6.key ∈ es.map Route.key
      · have hpos : es.length ≠ 0 := by
          rintro hzero
          rw [List.length_eq_zero_iff.mp hzero] at hmem
          cases hmem
        rw [hfound.mpr hmem, if_neg (by simp [hpos]), addNew_of_mem hmem]
        exact ih hslot
      · have hnew : ((List.range es.length).any fun i => g.result_arr i = info6.key) = false :=
          Bool.eq_false_iff.mpr (mt hfound.mp hmem)
        rw [if_pos (Or.inr hnew), addNew_of_notMem hmem]
        have hrest := ih (shows_added h info6)
        rw [List.length_append, List.length_singleton] at hrest
        exact hrest

variable (env : Env)

def passReads (ifname : Buf 32) : List Route :=
  ((FgetsLines.reads 255 (env.show_dev ifname.text)).filterMap
      (lineRoute false ifname.text)).map RouteInfo6.route ++
    ((FgetsLines.reads 255 env.list_table).filterMap
      (lineRoute true ifname.text)).map RouteInfo6.route

theorem getRouteTable_shows (ifname : Buf 32) (numInfo : ℕ) (h : Shows g es) :
    Shows (Route6_GetRouteTable env ifname.text numInfo g)
      (addUpTo Route.key numInfo es (passReads env ifname)) := by
  obtain ⟨g₁, h₁, hread₁⟩ := readRoutes_shows false ifname.text numInfo
    (FgetsLines.reads 255 (env.show_dev ifname.text)) h
  obtain ⟨g₂, h₂, hread₂⟩ := readRoutes_shows true ifname.text numInfo
    (FgetsLines.reads 255 env.list_table) h₁
  rw [← addUpTo_append] at h₂
  simp only [Route6_GetRouteTable, h.1, hread₁, hread₂]
  exact h₂

def keptFrom (es : List Route) : List (List Route) → List Route
  | [] => es
  | rs :: passes => keptFrom (addUpTo Route.key (MAX_RTENTRY - es.length) es rs) passes

theorem keptFrom_full (hfull : MAX_RTENTRY ≤ es.length + es.length) (passes : List (List Route)) :
    keptFrom es passes = es := by
  induction passes with
  | nil => rfl
  | cons rs passes ih => rw [keptFrom, addUpTo_of_le (by omega), ih]

theorem getTables_shows (iflist : List (Buf 32)) (h : Shows g es) :
    Shows (getTables env iflist g) (keptFrom es (iflist.map (passReads env))) := by
  induction iflist generalizing g es with
  | nil => exact h
  | cons ifname iflist ih =>
    by_cases hfull : MAX_RTENTRY ≤ g.g_numRtInfo6
    · have hes := hfull
      rw [h.1] at hes
      rw [getTables, if_pos hfull, keptFrom_full (by omega)]
      exact h
    · rw [getTables, if_neg hfull, List.map_cons, keptFrom, h.1]
      exact ih (getRouteTable_shows env ifname _ h)

theorem load_shows (iflist : List (Buf 32)) (g : Globals) :
    Shows (Route6_LoadRouteInfo env iflist g) (keptFrom [] (iflist.map (passReads env))) := by
  have hempty : Shows { g with g_numRtInfo6 := 0 } [] :=
    ⟨rfl, fun i r hr => by rw [List.getElem?_nil] at hr; cases hr⟩
  have h := getTables_shows env iflist hempty
  refine ⟨h.1, fun i r hr => ?_⟩
  obtain ⟨hinfo, hkey⟩ := h.2 i r hr
  refine ⟨?_, hkey⟩
  rw [← hinfo]
  simp only [Route6_LoadRouteInfo]
  split <;> rfl

end loops

def counts (es : List Route) : List (List Route) → List ℕ
  | [] => []
  | rs :: passes => (addAll Route.key es rs).length :: counts (addAll Route.key es rs) passes

/-- No pass that brings new routes goes beyond the places left before it. -/
def Fits (n : ℕ) : List ℕ → Prop
  | [] => True
  | m :: ms => (n = m ∨ n + m ≤ MAX_RTENTRY) ∧ Fits m ms

/-- How many routes there is room for: all, or what the first pass that does not fit
leaves. -/
def room (n : ℕ) : List ℕ → ℕ
  | [] => n
  | m :: ms => if n = m ∨ n + m ≤ MAX_RTENTRY then room m ms else max n (MAX_RTENTRY - n)

section capacity

variable {es : List Route}

theorem keptFrom_eq_take (passes : List (List Route)) :
    keptFrom es passes =
      (addAll Route.key es passes.flatten).take (room es.length (counts es passes)) := by
  induction passes generalizing es with
  | nil => exact (List.take_of_length_le le_rfl).symm
  | cons rs passes ih =>
    have hle := (@prefix_addAll _ _ _ Route.key es rs).length_le
    rw [keptFrom, addUpTo_eq_take, counts, room, List.flatten_cons, addAll_append]
    by_cases hfit : es.length = (addAll Route.key es rs).length ∨
        es.length + (addAll Route.key es rs).length ≤ MAX_RTENTRY
    · rw [if_pos hfit, List.take_of_length_le (by omega), ih]
    · obtain ⟨more, hmore⟩ := @prefix_addAll _ _ _ Route.key (addAll Route.key es rs) passes.flatten
      have hshort : max es.length (MAX_RTENTRY - es.length) ≤
          (addAll Route.key es rs).length := by omega
      rw [if_neg hfit, ← hmore, List.take_append_of_le_length hshort]
      apply keptFrom_full
      rw [List.length_take_of_le hshort]
      omega

theorem length_le_room_iff (passes : List (List Route)) :
    (addAll Route.key es passes.flatten).length ≤ room es.length (counts es passes) ↔
      Fits es.length (counts es passes) := by
  induction passes generalizing es with
  | nil => exact iff_of_true le_rfl trivial
  | cons rs passes ih =>
    have hle := (@prefix_addAll _ _ _ Route.key es rs).length_le
    have hmore := (@prefix_addAll _ _ _ Route.key (addAll Route.key es rs)
      passes.flatten).length_le
    rw [counts, room, Fits, List.flatten_cons, addAll_append]
    by_cases hfit : es.length = (addAll Route.key es rs).length ∨
        es.length + (addAll Route.key es rs).length ≤ MAX_RTENTRY
    · rw [if_pos hfit, ih]
      exact ⟨fun h => ⟨hfit, h⟩, fun h => h.2⟩
    · rw [if_neg hfit]
      apply iff_of_false
      · omega
      · exact fun h => hfit h.1

end capacity

def Line := { t : CStr // '\n' ∉ t ∧ ∀ token ∈ tokens t, token.length < 64 }

structure Outputs where
  device : CStr → List Line
  table : List Line

def fileText (lines : List Line) : CStr := lines.flatMap fun l => l.val ++ ['\n']

def envOf (out : Outputs) (Utopia_RawGet : CStr → Option CStr) : Env where
  show_dev := fun ifname => fileText (out.device ifname)
  list_table := fileText out.table
  Utopia_RawGet := Utopia_RawGet

def lastValue (key : CStr) : List CStr → Option CStr
  | k :: v :: rest => (lastValue key rest).or (if k = key then some v else none)
  | _ => none

def routeOf (table : Bool) (ifname : CStr) (line : Line) : Option Route :=
  match tokens line.val with
  | [] => none
  | dest :: rest =>
    if dest = "default".toList ∧ table = false then none
    else some
      { key :=
          { prefix_ := if dest = "default".toList then "::/0".toList else dest
            gateway := (lastValue "via".toList rest).getD []
            interface := (lastValue "dev".toList rest).getD ifname }
        proto := (lastValue "proto".toList rest).getD []
        metric := ((lastValue "metric".toList rest).map atoi).getD 0 }

def passRoutes (out : Outputs) (ifname : Buf 32) : List Route :=
  (out.device ifname.text).filterMap (routeOf false ifname.text) ++
    out.table.filterMap (routeOf true ifname.text)

def routes (out : Outputs) (iflist : List (Buf 32)) : List Route :=
  firsts Route.key (iflist.map (passRoutes out)).flatten

/-- If the routes are not too many, the entries are the different routes in their order,
and both arrays agree. -/
def LoadsRoutes (out : Outputs) (env : Env) (iflist : List (Buf 32)) (g : Globals) : Prop :=
  (routes out iflist).length ≤ MAX_RTENTRY →
    let g' := Route6_LoadRouteInfo env iflist g
    let entries := (List.range g'.g_numRtInfo6).map g'.g_routeInfos6
    entries.map RouteInfo6.route = routes out iflist ∧ (entries.map RouteInfo6.key).Nodup ∧
      ∀ i < g'.g_numRtInfo6, g'.result_arr i = (g'.g_routeInfos6 i).key

section lines

theorem setKey_spec (info6 : RouteInfo6) (key : CStr) {val : CStr} (hval : val.length < 64) :
    setKey info6 key val =
      { info6 with
        interface := (if key = "dev".toList then some val else none).getD info6.interface
        gateway := (if key = "via".toList then some val else none).getD info6.gateway
        proto := (if key = "proto".toList then some val else none).getD info6.proto
        metric := ((if key = "metric".toList then some val else none).map atoi).getD
          info6.metric } := by
  have hfield : field val = val := List.take_of_length_le (by omega)
  rw [setKey, hfield]
  by_cases hdev : key = "dev".toList
  · simp [hdev]
  by_cases hvia : key = "via".toList
  · simp [hvia]
  by_cases hproto : key = "proto".toList
  · simp [hproto]
  by_cases hmetric : key = "metric".toList
  · simp [hmetric]
  · simp only [if_neg hdev, if_neg hvia, if_neg hproto, if_neg hmetric, Option.map_none,
      Option.getD_none]

theorem setKeys_spec (info6 : RouteInfo6) {rest : List CStr}
    (hrest : ∀ token ∈ rest, token.length < 64) :
    setKeys info6 rest =
      { info6 with
        interface := (lastValue "dev".toList rest).getD info6.interface
        gateway := (lastValue "via".toList rest).getD info6.gateway
        proto := (lastValue "proto".toList rest).getD info6.proto
        metric := ((lastValue "metric".toList rest).map atoi).getD info6.metric } := by
  fun_induction setKeys info6 rest with
  | case1 info6 key val rest ih =>
    have hval := hrest val (by simp)
    rw [ih fun token h => hrest token (by simp [h]), setKey_spec info6 key hval]
    simp only [lastValue, Option.getD_or, Option.map_or]
  | case2 toks info6 h =>
    have hnone : ∀ key, lastValue key toks = none := by
      intro key
      unfold lastValue
      split
      · next k v more => exact absurd rfl (h k v more)
      · rfl
    simp only [hnone, Option.map_none, Option.getD_none]

theorem lineRoute_eq (table : Bool) (ifname : CStr) (l : Line) :
    (lineRoute table ifname l.val).map RouteInfo6.route = routeOf table ifname l := by
  have hshort := l.property.2
  rw [lineRoute, routeOf]
  cases hline : tokens l.val with
  | nil => rfl
  | cons dest rest =>
    rw [hline] at hshort
    have hrest : ∀ token ∈ rest, token.length < 64 :=
      fun token h => hshort token (List.mem_cons_of_mem _ h)
    have hfield : field dest = dest :=
      List.take_of_length_le (by have hlt := hshort dest List.mem_cons_self; omega)
    dsimp only
    by_cases hdefault : dest = "default".toList
    · cases table with
      | false => simp [hdefault]
      | true => simp [hdefault, setKeys_spec _ hrest, RouteInfo6.route, RouteInfo6.key,
          RouteInfo6.zero]
    · simp only [hdefault, hfield, setKeys_spec _ hrest, if_false, false_and, Option.map_some]
      rfl

theorem tokens_newline (t : CStr) : tokens (t ++ ['\n']) = tokens t := by
  have hsplit := @List.splitOnP_append_cons _ isDelim t [] '\n' rfl
  rw [tokens, hsplit, List.filter_append]
  simp [tokens]

theorem lineRoute_newline (table : Bool) (ifname t : CStr) :
    lineRoute table ifname (t ++ ['\n']) = lineRoute table ifname t := by
  rw [lineRoute, tokens_newline]
  rfl

theorem reads_fileText {lines : List Line} (hlines : ∀ l ∈ lines, l.val.length < 255) :
    FgetsLines.reads 255 (fileText lines) = lines.map fun l => l.val ++ ['\n'] := by
  induction lines with
  | nil => rfl
  | cons l lines ih =>
    have hline := FgetsLines.reads_line l.property.1 (hlines l List.mem_cons_self)
      (fileText lines)
    rw [ih fun l' h => hlines l' (List.mem_cons_of_mem _ h)] at hline
    have htext : fileText (l :: lines) = l.val ++ '\n' :: fileText lines := by simp [fileText]
    rw [htext, hline]
    rfl

theorem readRoutes_fileText (table : Bool) (ifname : CStr) {lines : List Line}
    (hlines : ∀ l ∈ lines, l.val.length < 255) :
    ((FgetsLines.reads 255 (fileText lines)).filterMap (lineRoute table ifname)).map
      RouteInfo6.route = lines.filterMap (routeOf table ifname) := by
  rw [reads_fileText hlines, List.filterMap_map, List.map_filterMap]
  apply List.filterMap_congr
  intro l _
  rw [← lineRoute_eq, Function.comp_apply, lineRoute_newline]

end lines

section loading

variable {g : Globals} {es : List Route}

theorem entries_eq (h : Shows g es) :
    ((List.range g.g_numRtInfo6).map g.g_routeInfos6).map RouteInfo6.route = es := by
  apply List.ext_getElem
  · rw [List.length_map, List.length_map, List.length_range, h.1]
  · intro i hi hi'
    simp only [List.getElem_map, List.getElem_range]
    exact (h.2 i es[i] (List.getElem?_eq_getElem hi')).1

theorem agree (h : Shows g es) :
    ∀ i < g.g_numRtInfo6, g.result_arr i = (g.g_routeInfos6 i).key := by
  intro i hi
  rw [h.1] at hi
  obtain ⟨hinfo, hkey⟩ := h.2 i es[i] (List.getElem?_eq_getElem hi)
  rw [hkey, ← hinfo]
  rfl

theorem loads_iff_kept (out : Outputs) (env : Env) (iflist : List (Buf 32)) (g : Globals) :
    LoadsRoutes out env iflist g ↔ ((routes out iflist).length ≤ MAX_RTENTRY →
      keptFrom [] (iflist.map (passReads env)) = routes out iflist) := by
  have hshows := load_shows env iflist g
  have hentries := entries_eq hshows
  constructor
  · intro h hcount
    rw [← hentries]
    exact (h hcount).1
  · intro h hcount
    have hkept := h hcount
    rw [hkept] at hentries
    refine ⟨hentries, ?_, agree hshows⟩
    have hkeys := congrArg (List.map Route.key) hentries
    rw [List.map_map] at hkeys
    change List.map RouteInfo6.key _ = _ at hkeys
    rw [hkeys]
    exact firsts_nodup _

/-- No line of an output is longer than the buffer. -/
def ShortLines (out : Outputs) (iflist : List (Buf 32)) : Prop :=
  (∀ ifname ∈ iflist, ∀ l ∈ out.device ifname.text, l.val.length < 255) ∧
    ∀ l ∈ out.table, l.val.length < 255

theorem passReads_eq {out : Outputs} {iflist : List (Buf 32)} (h : ShortLines out iflist)
    (Utopia_RawGet : CStr → Option CStr) :
    iflist.map (passReads (envOf out Utopia_RawGet)) = iflist.map (passRoutes out) := by
  apply List.map_congr_left
  intro ifname hmem
  have hdevice := readRoutes_fileText false ifname.text (h.1 ifname hmem)
  have htable := readRoutes_fileText true ifname.text h.2
  rw [passRoutes, ← hdevice, ← htable]
  rfl

end loading

section crowd

theorem tokens_word {t : CStr} (hne : t ≠ []) (ht : ∀ c ∈ t, isDelim c = false) :
    tokens t = [t] := by
  rw [tokens, List.splitOnP_eq_singleton ht, List.filter_cons_of_pos (by simpa using hne)]
  rfl

def wordLine (t : CStr) (h : t ≠ [] ∧ (∀ c ∈ t, isDelim c = false) ∧ t.length < 64) : Line :=
  ⟨t, fun hmem => absurd (h.2.1 _ hmem) (by decide), by
    rw [tokens_word h.1 h.2.1]
    intro token htoken
    rw [List.mem_singleton.mp htoken]
    exact h.2.2⟩

theorem decimal_word (i : Fin 128) : decimal i.val ≠ [] ∧
    (∀ c ∈ decimal i.val, isDelim c = false) ∧ (decimal i.val).length < 64 := by
  refine ⟨decimal_ne_nil _, fun c hc => ?_, ?_⟩
  · have hdigit := isDigit_of_mem_decimal hc
    have hne (d : Char) (hd : d.isDigit = false) : c ≠ d :=
      fun h => Bool.false_ne_true (hd.symm.trans (h ▸ hdigit))
    simp [isDelim, hne ' ' rfl, hne '\t' rfl, hne '\r' rfl, hne '\n' rfl]
  · have hlen := decimal_word_length (BitVec.ofNat 32 i.val)
    rw [BitVec.toNat_ofNat, Nat.mod_eq_of_lt (by omega)] at hlen
    omega

theorem word_x : ['x'] ≠ [] ∧ (∀ c ∈ ['x'], isDelim c = false) ∧ ['x'].length < 64 :=
  ⟨by decide, forall_false_of_any (by decide), by decide⟩

def crowd : Outputs where
  device := fun ifname =>
    if ifname = ['a'] then (List.finRange 128).map fun i => wordLine _ (decimal_word i)
    else [wordLine ['x'] word_x]
  table := []

def interfaceA : Buf 32 := Buf.snprintf ['a']

def interfaceB : Buf 32 := Buf.snprintf ['b']

def emptyGlobals : Globals := ⟨0, fun _ => .zero, fun _ => ⟨[], [], []⟩⟩

end crowd

end CcspPandM.Route6Table
