import CcspPandM.KeyStore
import CcspPandM.KeyedList
import CcspPandM.Runs
import CcspPandM.ScanText

/-!
The static routes of the router. Utopia keeps the routes in a list, and one more flag of
each under a key that is made of its name. The list answers 0 for a success, the store of
keys answers 1, and both readers take the 1 for a failure.
-/
namespace CcspPandM.StaticRoutes

open CString InetText KeyStore KeyedList Runs ScanText

abbrev ULONG := BitVec 32

structure COSA_DML_STATICROUTE_CFG where
  RIPAdvertise : Bool
  DestIPAddress : ULONG
  DestSubnetMask : ULONG
  GatewayIPAddress : ULONG
  Name : Buf 64
  deriving DecidableEq

structure StaticRoute where
  name : CStr
  dest_lan_ip : CStr
  netmask : CStr
  gateway : CStr

/-- The list of routes, and the store for the name space `cosa_usgv2_`. -/
structure Utopia where
  routes : List StaticRoute
  raw : Store CStr CStr

/-- Which of Utopia's calls succeed: the context, the read of the list and its change. -/
structure Answers where
  init : Bool
  lists : Bool
  changes : Bool

def flagKey (name : CStr) : CStr :=
  (Buf.sprintf_s (name ++ "_RIPAdvertise".toList) : Buf 64).text

def flagText (RIPAdvertise : Bool) : CStr := if RIPAdvertise then ['1'] else ['2']

/-- `inet_ntoa`. -/
def addrText (a : ULONG) : CStr := dotted (addrOctets a)

def routeOf (e : COSA_DML_STATICROUTE_CFG) : StaticRoute where
  name := e.Name.text
  dest_lan_ip := addrText e.DestIPAddress
  netmask := addrText e.DestSubnetMask
  gateway := addrText e.GatewayIPAddress

def entryOf (r : StaticRoute) : COSA_DML_STATICROUTE_CFG where
  RIPAdvertise := false
  DestIPAddress := inet_addr r.dest_lan_ip
  DestSubnetMask := inet_addr r.netmask
  GatewayIPAddress := inet_addr r.gateway
  Name := Buf.sprintf_s r.name

/-- The number of the route of a name, from 1 on. -/
def Utopia_FindStaticRoute (sroutes : List StaticRoute) (name : CStr) : Option ℕ :=
  (sroutes.findIdx? fun r => r.name = name).map (· + 1)

/-- `Utopia_RawGet` into 64 bytes. -/
def Utopia_RawGet (u : Utopia) (name : CStr) : Option CStr :=
  (u.raw name).map fun v => (Buf.snprintf v : Buf 64).text

def Utopia_RawSet (u : Utopia) (name value : CStr) : Utopia :=
  { u with raw := set u.raw name value }

section Calls

variable (ans : Answers) (u : Utopia)

/-- The flag of every route is stored anew before the entries are made. -/
def CosaDmlStaticRouteGetEntries : Option (List COSA_DML_STATICROUTE_CFG) × Utopia :=
  if ans.init = false then (none, u)
  else
    let sroutes := if ans.lists then u.routes else []
    let u := sroutes.foldl (fun u r => Utopia_RawSet u (flagKey r.name) ['2']) u
    if ans.lists then (some (sroutes.map entryOf), u) else (none, u)

/-- Whether the status is success, and the entry. -/
def CosaDmlStaticRouteGetEntryByName (pEntry : COSA_DML_STATICROUTE_CFG) :
    Bool × COSA_DML_STATICROUTE_CFG × Utopia :=
  if ans.init = false ∨ ans.lists = false then (false, pEntry, u)
  else
    match (Utopia_FindStaticRoute u.routes pEntry.Name.text).bind
        fun index => u.routes[index - 1]? with
    | none => (true, pEntry, u)
    | some r =>
      let pEntry := entryOf r
      match Utopia_RawGet u (flagKey pEntry.Name.text) with
      | none => (true, pEntry, u)
      | some value => (true, pEntry, Utopia_RawSet u (flagKey pEntry.Name.text) ('2' :: value.tail))

def CosaDmlStaticRouteDelEntry (pEntry : COSA_DML_STATICROUTE_CFG) : Bool × Utopia :=
  if ans.init = false then (false, u)
  else
    let u := Utopia_RawSet u (flagKey pEntry.Name.text) []
    if ans.changes ∧ pEntry.Name.text ∈ u.routes.map StaticRoute.name then
      (true, { u with routes := drop StaticRoute.name u.routes pEntry.Name.text })
    else (false, u)

/-- A list that is keyed by name takes no second route of a name. -/
def CosaDmlStaticRouteAddEntry (pEntry : COSA_DML_STATICROUTE_CFG) : Bool × Utopia :=
  if ans.init = false then (false, u)
  else
    let rc := decide (ans.changes ∧ pEntry.Name.text ∉ u.routes.map StaticRoute.name)
    let u := if rc then { u with routes := u.routes ++ [routeOf pEntry] } else u
    (rc, Utopia_RawSet u (flagKey pEntry.Name.text) (flagText pEntry.RIPAdvertise))

/-- The result of the edit is not looked at. -/
def CosaDmlStaticRouteSetEntry (pEntry : COSA_DML_STATICROUTE_CFG) : Bool × Utopia :=
  if ans.init = false then (false, u)
  else
    let u :=
      match Utopia_FindStaticRoute u.routes pEntry.Name.text with
      | none => u
      | some index =>
        if ans.lists ∧ ans.changes then
          { u with routes := u.routes.set (index - 1) (routeOf pEntry) }
        else u
    (ans.lists, Utopia_RawSet u (flagKey pEntry.Name.text) (flagText pEntry.RIPAdvertise))

end Calls

inductive Call where
  | getEntries
  | getByName (pEntry : COSA_DML_STATICROUTE_CFG)
  | del (pEntry : COSA_DML_STATICROUTE_CFG)
  | add (pEntry : COSA_DML_STATICROUTE_CFG)
  | set (pEntry : COSA_DML_STATICROUTE_CFG)

def call (u : Utopia) (ans : Answers) : Call → Bool × Utopia
  | .getEntries =>
    ((CosaDmlStaticRouteGetEntries ans u).1.isSome, (CosaDmlStaticRouteGetEntries ans u).2)
  | .getByName e =>
    ((CosaDmlStaticRouteGetEntryByName ans u e).1, (CosaDmlStaticRouteGetEntryByName ans u e).2.2)
  | .del e => CosaDmlStaticRouteDelEntry ans u e
  | .add e => CosaDmlStaticRouteAddEntry ans u e
  | .set e => CosaDmlStaticRouteSetEntry ans u e

def noted (last : CStr → Option COSA_DML_STATICROUTE_CFG) (rc : Bool) :
    Call → CStr → Option COSA_DML_STATICROUTE_CFG
  | .add e => if rc then Function.update last e.Name.text (some e) else last
  | .set e => if rc then Function.update last e.Name.text (some e) else last
  | .del e => if rc then Function.update last e.Name.text none else last
  | _ => last

structure Tracked where
  u : Utopia
  last : CStr → Option COSA_DML_STATICROUTE_CFG

def step (t : Tracked) (op : Answers × Call) : Option Tracked :=
  some ⟨(call t.u op.1 op.2).2, noted t.last (call t.u op.1 op.2).1 op.2⟩

def asked (u : Utopia) (ans : Answers) : Call → Option (List StaticRoute)
  | .add e =>
    if ans.init ∧ ans.changes ∧ e.Name.text ∉ u.routes.map StaticRoute.name then
      some (put StaticRoute.name u.routes (routeOf e))
    else none
  | .set e =>
    if ans.init ∧ ans.lists ∧ ans.changes ∧ e.Name.text ∈ u.routes.map StaticRoute.name then
      some (put StaticRoute.name u.routes (routeOf e))
    else none
  | .del e =>
    if ans.init ∧ ans.changes ∧ e.Name.text ∈ u.routes.map StaticRoute.name then
      some (drop StaticRoute.name u.routes e.Name.text)
    else none
  | _ => none

/-- A read stores nothing and returns the entry that was set last; another call reports
success exactly when the change is made. -/
def Meets (t : Tracked) (op : Answers × Call) (t' : Tracked) : Prop :=
  match op.2 with
  | .getEntries => t'.u = t.u
  | .getByName e => t'.u = t.u ∧ (op.1.init → op.1.lists → ∀ e', t.last e.Name.text = some e' →
      ∃ u, CosaDmlStaticRouteGetEntryByName op.1 t.u e = (true, e', u))
  | c => (call t.u op.1 c).1 = (asked t.u op.1 c).isSome ∧
      t'.u.routes = (asked t.u op.1 c).getD t.u.routes

/-- What is read has no flag set, in the store or by the last call, and a set names a
route that is there and that the list lets be changed. -/
def Sound (t : Tracked) (op : Answers × Call) : Prop :=
  match op.2 with
  | .getEntries => op.1.init → op.1.lists →
      ∀ r ∈ t.u.routes, t.u.raw (flagKey r.name) = some ['2']
  | .getByName e => op.1.init → op.1.lists → e.Name.text ∈ t.u.routes.map StaticRoute.name →
      (∀ v, t.u.raw (flagKey e.Name.text) = some v → v.head? = some '2' ∧ v.length < 64) ∧
        ∀ e', t.last e.Name.text = some e' → e'.RIPAdvertise = false
  | .set e => op.1.init → op.1.lists →
      op.1.changes ∧ e.Name.text ∈ t.u.routes.map StaticRoute.name
  | _ => True

/-- The routes have different names, and the entry set last under a name is its route. -/
structure Kept (t : Tracked) : Prop where
  nodup : (t.u.routes.map StaticRoute.name).Nodup
  last : ∀ n e, t.last n = some e → e.Name.text = n ∧ routeOf e ∈ t.u.routes

section calls

variable {u : Utopia} {ans : Answers} {e : COSA_DML_STATICROUTE_CFG}

theorem findStaticRoute_of_mem {routes : List StaticRoute} {name : CStr}
    (h : name ∈ routes.map StaticRoute.name) :
    ∃ i r, Utopia_FindStaticRoute routes name = some (i + 1) ∧ routes[i]? = some r ∧
      r.name = name := by
  obtain ⟨r, hr, rfl⟩ := List.mem_map.mp h
  cases hfind : routes.findIdx? fun x => x.name = r.name with
  | none =>
    have hnone := List.findIdx?_eq_none_iff.mp hfind r hr
    simp at hnone
  | some i =>
    obtain ⟨hi, hname, -⟩ := List.findIdx?_eq_some_iff_getElem.mp hfind
    refine ⟨i, routes[i], ?_, List.getElem?_eq_getElem hi, of_decide_eq_true hname⟩
    rw [Utopia_FindStaticRoute, hfind]
    rfl

theorem findStaticRoute_of_notMem {routes : List StaticRoute} {name : CStr}
    (h : name ∉ routes.map StaticRoute.name) : Utopia_FindStaticRoute routes name = none := by
  rw [Utopia_FindStaticRoute, Option.map_eq_none_iff]
  apply List.findIdx?_eq_none_iff.mpr
  intro r hr
  have hne : r.name ≠ name := fun heq => h (List.mem_map.mpr ⟨r, hr, heq⟩)
  simpa using hne

theorem entryOf_routeOf (e : COSA_DML_STATICROUTE_CFG) :
    entryOf (routeOf e) = { e with RIPAdvertise := false } := by
  have hname : (Buf.sprintf_s e.Name.text : Buf 64) = e.Name :=
    Buf.text_injective (Buf.text_sprintf_s_of_lt e.Name.text_length_lt)
  simp only [entryOf, routeOf, addrText, inet_addr_dotted, hname]

theorem add_spec : (CosaDmlStaticRouteAddEntry ans u e).1 = (asked u ans (.add e)).isSome ∧
    (CosaDmlStaticRouteAddEntry ans u e).2.routes = (asked u ans (.add e)).getD u.routes := by
  cases hinit : ans.init with
  | false => simp [CosaDmlStaticRouteAddEntry, asked, hinit]
  | true =>
    by_cases hadd : ans.changes ∧ e.Name.text ∉ u.routes.map StaticRoute.name
    · have hput : put StaticRoute.name u.routes (routeOf e) = u.routes ++ [routeOf e] :=
        put_of_notMem hadd.2
      simp only [CosaDmlStaticRouteAddEntry, asked, hinit, hadd, hput, Utopia_RawSet]
      simp
    · simp only [CosaDmlStaticRouteAddEntry, asked, hinit, hadd, Utopia_RawSet]
      simp

theorem del_spec : (CosaDmlStaticRouteDelEntry ans u e).1 = (asked u ans (.del e)).isSome ∧
    (CosaDmlStaticRouteDelEntry ans u e).2.routes = (asked u ans (.del e)).getD u.routes := by
  cases hinit : ans.init with
  | false => simp [CosaDmlStaticRouteDelEntry, asked, hinit]
  | true =>
    by_cases hdel : ans.changes ∧ e.Name.text ∈ u.routes.map StaticRoute.name
    · simp only [CosaDmlStaticRouteDelEntry, asked, hinit, hdel, Utopia_RawSet]
      simp
    · simp only [CosaDmlStaticRouteDelEntry, asked, hinit, hdel, Utopia_RawSet]
      simp

theorem set_spec (hnodup : (u.routes.map StaticRoute.name).Nodup) :
    (CosaDmlStaticRouteSetEntry ans u e).1 = (ans.init && ans.lists) ∧
    (CosaDmlStaticRouteSetEntry ans u e).2.routes = (asked u ans (.set e)).getD u.routes := by
  cases hinit : ans.init with
  | false => simp [CosaDmlStaticRouteSetEntry, asked, hinit]
  | true =>
    by_cases hmem : e.Name.text ∈ u.routes.map StaticRoute.name
    · obtain ⟨i, r, hfind, hr, hname⟩ := findStaticRoute_of_mem hmem
      have hset := set_eq_put (b := routeOf e) hnodup hr hname.symm
      simp only [CosaDmlStaticRouteSetEntry, asked, hinit, hfind, hmem, Utopia_RawSet,
        Nat.add_sub_cancel, hset]
      by_cases hok : ans.lists ∧ ans.changes
      · simp [hok]
      · simp only [true_and, and_true, if_neg hok, Option.getD_none]
        simp
    · have hfind := findStaticRoute_of_notMem hmem
      simp only [CosaDmlStaticRouteSetEntry, asked, hinit, hfind, hmem, Utopia_RawSet]
      simp

theorem foldl_flag_raw (sroutes : List StaticRoute) (u : Utopia) (k : CStr) :
    (sroutes.foldl (fun u r => Utopia_RawSet u (flagKey r.name) ['2']) u).raw k =
      if k ∈ sroutes.map fun r => flagKey r.name then some ['2'] else u.raw k := by
  induction sroutes generalizing u with
  | nil => rfl
  | cons r sroutes ih =>
    simp only [List.foldl_cons, ih, List.map_cons, List.mem_cons]
    by_cases hk : k = flagKey r.name
    · subst hk
      simp [Utopia_RawSet]
    · have hset : (Utopia_RawSet u (flagKey r.name) ['2']).raw k = u.raw k := set_of_ne _ _ hk
      simp only [hset, hk, false_or]

theorem foldl_flag_routes (sroutes : List StaticRoute) (u : Utopia) :
    (sroutes.foldl (fun u r => Utopia_RawSet u (flagKey r.name) ['2']) u).routes = u.routes := by
  induction sroutes generalizing u with
  | nil => rfl
  | cons r sroutes ih => exact ih _

theorem utopia_ext {u v : Utopia} (hroutes : u.routes = v.routes) (hraw : u.raw = v.raw) :
    u = v := by
  cases u
  cases v
  cases hroutes
  cases hraw
  rfl

theorem getEntries_iff : (CosaDmlStaticRouteGetEntries ans u).2 = u ↔
    (ans.init → ans.lists → ∀ r ∈ u.routes, u.raw (flagKey r.name) = some ['2']) := by
  cases hinit : ans.init with
  | false => simp [CosaDmlStaticRouteGetEntries, hinit]
  | true =>
    cases hlists : ans.lists with
    | false => simp [CosaDmlStaticRouteGetEntries, hinit, hlists]
    | true =>
      have hleft : (CosaDmlStaticRouteGetEntries ans u).2 =
          u.routes.foldl (fun u r => Utopia_RawSet u (flagKey r.name) ['2']) u := by
        simp [CosaDmlStaticRouteGetEntries, hinit, hlists]
      rw [hleft]
      constructor
      · intro h _ _ r hr
        have hraw := foldl_flag_raw u.routes u (flagKey r.name)
        rw [h, if_pos (List.mem_map.mpr ⟨r, hr, rfl⟩)] at hraw
        exact hraw
      · intro h
        apply utopia_ext (foldl_flag_routes _ _)
        funext k
        rw [foldl_flag_raw]
        split
        · next hk =>
          obtain ⟨r, hr, rfl⟩ := List.mem_map.mp hk
          exact (h rfl rfl r hr).symm
        · rfl

theorem rewritten_eq_iff (v : CStr) :
    v = '2' :: ((Buf.snprintf v : Buf 64).text).tail ↔ v.head? = some '2' ∧ v.length < 64 := by
  rw [Buf.text_snprintf, eq_comm]
  constructor
  · intro h
    have hlen := congrArg List.length h
    rw [List.length_cons, List.length_tail, List.length_take] at hlen
    rw [← h]
    refine ⟨rfl, ?_⟩
    rw [h]
    omega
  · rintro ⟨hhead, hlen⟩
    obtain ⟨c, cs, rfl⟩ : ∃ c cs, v = c :: cs := by
      cases v with
      | nil => cases hhead
      | cons c cs => exact ⟨c, cs, rfl⟩
    obtain rfl := Option.some.inj hhead
    rw [List.take_of_length_le (by omega)]
    rfl

theorem rawSet_eq_iff (name v : CStr) :
    Utopia_RawSet u name v = u ↔ u.raw name = some v := by
  constructor
  · intro h
    rw [← h]
    exact set_self _ _ _
  · intro h
    have hraw : set u.raw name v = u.raw := by
      funext k
      by_cases hk : k = name
      · subst hk
        rw [h]
        exact set_self _ _ _
      · exact set_of_ne _ _ hk
    rw [Utopia_RawSet, hraw]

theorem getByName_none (h : e.Name.text ∉ u.routes.map StaticRoute.name) :
    (CosaDmlStaticRouteGetEntryByName ans u e).2 = (e, u) := by
  rw [CosaDmlStaticRouteGetEntryByName, findStaticRoute_of_notMem h]
  split <;> rfl

theorem getByName_found (hinit : ans.init = true) (hlists : ans.lists = true)
    (h : e.Name.text ∈ u.routes.map StaticRoute.name) :
    ∃ r ∈ u.routes, r.name = e.Name.text ∧
      (CosaDmlStaticRouteGetEntryByName ans u e).1 = true ∧
      (CosaDmlStaticRouteGetEntryByName ans u e).2.1 = entryOf r ∧
      ((CosaDmlStaticRouteGetEntryByName ans u e).2.2 = u ↔
        ∀ v, u.raw (flagKey e.Name.text) = some v → v.head? = some '2' ∧ v.length < 64) := by
  obtain ⟨i, r, hfind, hr, hname⟩ := findStaticRoute_of_mem h
  have hfound : (Utopia_FindStaticRoute u.routes e.Name.text).bind
      (fun index => u.routes[index - 1]?) = some r := by
    rw [hfind, Option.bind_some, Nat.add_sub_cancel, hr]
  have hkey : (entryOf r).Name.text = e.Name.text := by
    have hshort := e.Name.text_length_lt
    rw [← hname] at hshort ⊢
    exact Buf.text_sprintf_s_of_lt hshort
  refine ⟨r, List.mem_of_getElem? hr, hname, ?_⟩
  simp only [CosaDmlStaticRouteGetEntryByName, hinit, hlists, hfound, hkey, Utopia_RawGet]
  cases hraw : u.raw (flagKey e.Name.text) with
  | none => simp
  | some v =>
    have hset := @rawSet_eq_iff u (flagKey e.Name.text)
      ('2' :: ((Buf.snprintf v : Buf 64).text).tail)
    rw [hraw, Option.some.injEq, rewritten_eq_iff] at hset
    simpa using hset

end calls

section runs

variable {t : Tracked}

theorem meets_iff (h : Kept t) (op : Answers × Call) {t' : Tracked} (hstep : step t op = some t') :
    Meets t op t' ↔ Sound t op := by
  obtain ⟨ans, c⟩ := op
  obtain rfl := Option.some.inj hstep
  cases c with
  | getEntries => exact getEntries_iff
  | add e => exact iff_of_true add_spec trivial
  | del e => exact iff_of_true del_spec trivial
  | set e =>
    obtain ⟨hrc, hroutes⟩ := @set_spec t.u ans e h.nodup
    change (CosaDmlStaticRouteSetEntry ans t.u e).1 = _ ∧ _ ↔ _
    rw [hrc]
    constructor
    · rintro ⟨hdone, -⟩ hinit hlists
      change ans.init = true at hinit
      change ans.lists = true at hlists
      rw [hinit, hlists] at hdone
      simp only [asked] at hdone
      split at hdone
      · next hasked => exact hasked.2.2
      · cases hdone
    · intro hsound
      refine ⟨?_, hroutes⟩
      cases hinit : ans.init with
      | false => simp [asked, hinit]
      | true =>
        cases hlists : ans.lists with
        | false => simp [asked, hlists]
        | true =>
          obtain ⟨hchanges, hmem⟩ := hsound hinit hlists
          change ans.changes = true at hchanges
          simp [asked, hinit, hlists, hchanges, hmem]
  | getByName e =>
    change (CosaDmlStaticRouteGetEntryByName ans t.u e).2.2 = t.u ∧ (ans.init = true →
      ans.lists = true → _) ↔ (ans.init = true → ans.lists = true → _)
    by_cases hread : ans.init = true ∧ ans.lists = true
    · obtain ⟨hinit, hlists⟩ := hread
      by_cases hmem : e.Name.text ∈ t.u.routes.map StaticRoute.name
      · obtain ⟨r, hr, hname, hrc, hentry, hstore⟩ := getByName_found hinit hlists hmem
        have hshows : ∀ e', t.last e.Name.text = some e' →
            entryOf r = { e' with RIPAdvertise := false } := by
          intro e' hlast
          obtain ⟨hname', hroute⟩ := h.last _ _ hlast
          have hsame : (routeOf e').name = r.name := by rw [hname, ← hname']; rfl
          rw [← eq_of_key h.nodup hroute hr hsame, entryOf_routeOf]
        constructor
        · rintro ⟨hsame, hlast⟩ _ _ _
          refine ⟨hstore.mp hsame, fun e' he' => ?_⟩
          obtain ⟨u', hget⟩ := hlast hinit hlists e' he'
          have hflag := hshows e' he'
          rw [hget] at hentry
          rw [← hentry] at hflag
          exact congrArg COSA_DML_STATICROUTE_CFG.RIPAdvertise hflag
        · intro hsound
          obtain ⟨hraw, hflags⟩ := hsound hinit hlists hmem
          refine ⟨hstore.mpr hraw, fun _ _ e' he' => ⟨t.u, ?_⟩⟩
          have hentry' : entryOf r = e' := by
            rw [hshows e' he', ← hflags e' he']
          rw [← hentry', ← hentry]
          exact Prod.ext hrc (Prod.ext rfl (hstore.mpr hraw))
      · have hnone := @getByName_none t.u ans e hmem
        apply iff_of_true
        · refine ⟨by rw [hnone], fun _ _ e' he' => ?_⟩
          obtain ⟨hname', hroute⟩ := h.last _ _ he'
          exact absurd (List.mem_map.mpr ⟨_, hroute, hname'⟩) hmem
        · exact fun _ _ h => absurd h hmem
    · have hsame : (CosaDmlStaticRouteGetEntryByName ans t.u e).2.2 = t.u := by
        have hfail : ans.init = false ∨ ans.lists = false := by
          rcases not_and_or.mp hread with h | h
          · exact Or.inl (Bool.eq_false_iff.mpr h)
          · exact Or.inr (Bool.eq_false_iff.mpr h)
        rw [CosaDmlStaticRouteGetEntryByName, if_pos hfail]
      apply iff_of_true
      · exact ⟨hsame, fun hi hl => absurd ⟨hi, hl⟩ hread⟩
      · exact fun hi hl => absurd ⟨hi, hl⟩ hread

variable {u : Utopia}

theorem kept_put (h : Kept t) (e : COSA_DML_STATICROUTE_CFG)
    (hu : u.routes = put StaticRoute.name t.u.routes (routeOf e)) :
    Kept ⟨u, Function.update t.last e.Name.text (some e)⟩ := by
  constructor
  · change (u.routes.map _).Nodup
    rw [hu]
    exact nodup_put h.nodup _
  · intro n e' hlast
    change Function.update t.last e.Name.text (some e) n = some e' at hlast
    change _ ∧ _ ∈ u.routes
    rw [hu, mem_put_iff]
    by_cases hn : n = e.Name.text
    · subst hn
      rw [Function.update_self] at hlast
      obtain rfl := Option.some.inj hlast
      exact ⟨rfl, Or.inl rfl⟩
    · rw [Function.update_of_ne hn] at hlast
      obtain ⟨hname, hmem⟩ := h.last n e' hlast
      exact ⟨hname, Or.inr ⟨hmem, fun hsame => hn (hname.symm.trans hsame)⟩⟩

theorem kept_drop (h : Kept t) (e : COSA_DML_STATICROUTE_CFG)
    (hu : u.routes = drop StaticRoute.name t.u.routes e.Name.text) :
    Kept ⟨u, Function.update t.last e.Name.text none⟩ := by
  constructor
  · change (u.routes.map _).Nodup
    rw [hu]
    exact nodup_drop h.nodup _
  · intro n e' hlast
    change Function.update t.last e.Name.text none n = some e' at hlast
    change _ ∧ _ ∈ u.routes
    rw [hu, mem_drop_iff]
    by_cases hn : n = e.Name.text
    · subst hn
      rw [Function.update_self] at hlast
      cases hlast
    · rw [Function.update_of_ne hn] at hlast
      obtain ⟨hname, hmem⟩ := h.last n e' hlast
      exact ⟨hname, hmem, fun hsame => hn (hname.symm.trans hsame)⟩

theorem kept_same (h : Kept t) (hu : u.routes = t.u.routes) : Kept ⟨u, t.last⟩ := by
  constructor
  · change (u.routes.map _).Nodup
    rw [hu]
    exact h.nodup
  · intro n e hlast
    change _ ∧ _ ∈ u.routes
    rw [hu]
    exact h.last n e hlast

theorem getEntries_routes (u : Utopia) (ans : Answers) :
    (CosaDmlStaticRouteGetEntries ans u).2.routes = u.routes := by
  rw [CosaDmlStaticRouteGetEntries]
  split
  · rfl
  · split
    · exact foldl_flag_routes _ _
    · exact foldl_flag_routes _ _

theorem getByName_routes (u : Utopia) (ans : Answers) (e : COSA_DML_STATICROUTE_CFG) :
    (CosaDmlStaticRouteGetEntryByName ans u e).2.2.routes = u.routes := by
  rw [CosaDmlStaticRouteGetEntryByName]
  split
  · rfl
  · split
    · rfl
    · dsimp only
      split <;> rfl

theorem kept_step (h : Kept t) (op : Answers × Call) {t' : Tracked} (hsound : Sound t op)
    (hstep : step t op = some t') : Kept t' := by
  have hmeets := (meets_iff h op hstep).mpr hsound
  obtain ⟨ans, c⟩ := op
  obtain rfl := Option.some.inj hstep
  cases c with
  | getEntries => exact kept_same h (getEntries_routes _ _)
  | getByName e => exact kept_same h (getByName_routes _ _ _)
  | add e =>
    obtain ⟨hrc, hroutes⟩ := hmeets
    simp only [noted, hrc]
    cases hasked : asked t.u ans (.add e) with
    | none =>
      rw [hasked] at hroutes
      exact kept_same h hroutes
    | some l =>
      rw [hasked] at hroutes
      simp only [asked, Option.ite_none_right_eq_some, Option.some.injEq] at hasked
      exact kept_put h e (hroutes.trans hasked.2.symm)
  | del e =>
    obtain ⟨hrc, hroutes⟩ := hmeets
    simp only [noted, hrc]
    cases hasked : asked t.u ans (.del e) with
    | none =>
      rw [hasked] at hroutes
      exact kept_same h hroutes
    | some l =>
      rw [hasked] at hroutes
      simp only [asked, Option.ite_none_right_eq_some, Option.some.injEq] at hasked
      exact kept_drop h e (hroutes.trans hasked.2.symm)
  | set e =>
    obtain ⟨hrc, hroutes⟩ := hmeets
    simp only [noted, hrc]
    cases hasked : asked t.u ans (.set e) with
    | none =>
      rw [hasked] at hroutes
      exact kept_same h hroutes
    | some l =>
      rw [hasked] at hroutes
      simp only [asked, Option.ite_none_right_eq_some, Option.some.injEq] at hasked
      exact kept_put h e (hroutes.trans hasked.2.symm)

end runs

/-- In every run of calls on routes with different names, each call does what it should
exactly when each is sound. -/
theorem static_routes_kept_iff (u : Utopia) (hnames : (u.routes.map StaticRoute.name).Nodup)
    (ops : List (Answers × Call)) :
    Along step Meets ⟨u, fun _ => none⟩ ops ↔ StepsMeet step Sound ⟨u, fun _ => none⟩ ops := by
  have hkept : Kept ⟨u, fun _ => none⟩ := ⟨hnames, fun n e h => by cases h⟩
  have hrun : ∀ ops t, ∃ t', run step t ops = some t' := by
    intro ops
    induction ops with
    | nil => exact fun t => ⟨t, rfl⟩
    | cons op ops ih => exact fun t => ih _
  obtain ⟨t', ht'⟩ := hrun ops ⟨u, fun _ => none⟩
  exact along_iff step Kept (fun t op t' h hstep => meets_iff h op hstep)
    (fun t op t' h hsound hstep => kept_step h op hsound hstep) hkept ht'

def homeRoute : COSA_DML_STATICROUTE_CFG where
  RIPAdvertise := false
  DestIPAddress := 0x0a
  DestSubnetMask := 0xff
  GatewayIPAddress := 0x0100000a
  Name := Buf.snprintf ['h']

def emptyUtopia : Utopia := ⟨[], fun _ => none⟩

def allSucceed : Answers := ⟨true, true, true⟩

/-- A route without the flag is added, read and listed. -/
theorem static_routes_kept_home : Along step Meets ⟨emptyUtopia, fun _ => none⟩
    [(allSucceed, .add homeRoute), (allSucceed, .getByName homeRoute)] := by
  apply (static_routes_kept_iff emptyUtopia List.nodup_nil _).mpr
  refine ⟨trivial, fun t ht => ⟨?_, fun _ _ => trivial⟩⟩
  obtain rfl := Option.some.inj ht
  intro _ _ _
  constructor
  · intro v hv
    change some ['2'] = some v at hv
    obtain rfl := Option.some.inj hv
    decide
  · intro e he
    change some homeRoute = some e at he
    obtain rfl := Option.some.inj he
    rfl

def advertisedRoute : COSA_DML_STATICROUTE_CFG := { homeRoute with RIPAdvertise := true }

/-- The flag of a route that was added with it is lost when the route is read. -/
theorem advertised_route_lost : ¬ Along step Meets ⟨emptyUtopia, fun _ => none⟩
    [(allSucceed, .add advertisedRoute), (allSucceed, .getByName advertisedRoute)] := by
  intro h
  obtain ⟨-, hafter⟩ := h _ rfl
  obtain ⟨⟨hsame, -⟩, -⟩ := hafter _ rfl
  have hraw := congrFun (congrArg Utopia.raw hsame) (flagKey ['h'])
  change some ['2'] = some ['1'] at hraw
  exact absurd hraw (by decide)

end CcspPandM.StaticRoutes
