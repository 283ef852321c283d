import CcspPandM.KeyedList
import CcspPandM.RoutingV6
import CcspPandM.Runs

/-!
IPv6 routes over whole runs of Add, Set, Del and reloads. Beside the state runs
the list of entries as the calls gave them. The store finds an entry again only
under the name made of its triple, so a run keeps the entries as long as no Set
moves one to another triple and each enabled one is listed by the kernel.
-/
namespace CcspPandM.RoutingV6Runs

open CString KeyedList KeyStore RoutingV6 Runs ScanText

abbrev Triple := CStr × CStr × CStr

inductive Call where
  | add (pEntry : V6Entry)
  | set (pEntry : V6Entry)
  | del (insNum : ULONG)
  | reload
  deriving DecidableEq, Repr

structure Tracked where
  state : State
  entries : List V6Entry

abbrev numbers (entries : List V6Entry) : List ULONG := entries.map V6Entry.InstanceNumber

def entryTriple (e : V6Entry) : Triple := (e.DestIPPrefix, e.NextHop, e.Interface)

def tripleName (t : Triple) : CStr := Route6_GenerateName t.1 t.2.1 t.2.2

def entryName (e : V6Entry) : CStr := tripleName (entryTriple e)

def entriesAfter (entries : List V6Entry) : Call → List V6Entry
  | .add e => put V6Entry.InstanceNumber entries e
  | .set e => put V6Entry.InstanceNumber entries e
  | .del n => drop V6Entry.InstanceNumber entries n
  | .reload => entries

/-- The store holds the keys of the entries, under their names, and no other. -/
def Stored (store : Store CStr CStr) (entries : List V6Entry) : Prop :=
  ∀ name,
    store (insKey name) = (find entryName entries name).map
      (fun e => decimal e.InstanceNumber.toNat) ∧
    store (aliasKey name) = (find entryName entries name).map V6Entry.Alias ∧
    store (enabledKey name) = (find entryName entries name).map
      (fun e => if e.Enable then ['1'] else ['0'])

/-- Instance numbers other than zero stand at one place only. -/
def Distinct (infos : List RouteInfo6) : Prop :=
  (infos.map (fun info => info.params.insNum)).Pairwise (fun m n => m = n → m = 0)

/-- A loaded route has no number and no alias, or those of the entry on its triple. -/
def Owned (entries : List V6Entry) (infos : List RouteInfo6) : Prop :=
  ∀ info ∈ infos, (info.params.insNum = 0 ∧ info.params.alias6 = []) ∨
    ∃ e ∈ entries, triple info = entryTriple e ∧ info.params = (infoOf e).params

structure Agrees (t : Tracked) : Prop where
  distinct : Distinct t.state.infos ∧ Distinct (Route6_LoadRouteInfo t.state).infos
  owned : Owned t.entries t.state.infos ∧
    Owned t.entries (Route6_LoadRouteInfo t.state).infos
  reloaded : ∀ e ∈ t.entries, e.Enable = true →
    ∃ info ∈ (Route6_LoadRouteInfo t.state).infos, triple info = entryTriple e ∧
      info.params = (infoOf e).params
  stored : Stored t.state.store t.entries

def Short (e : V6Entry) : Prop :=
  e.DestIPPrefix.length < 64 ∧ e.NextHop.length < 64 ∧ e.Interface.length < 64 ∧
    e.Alias.length < 64

def Legal (t : Tracked) : Call → Prop
  | .add e => Short e ∧ e.InstanceNumber ≠ 0 ∧ e.InstanceNumber ∉ numbers t.entries ∧
      ∀ x ∈ t.entries, entryTriple x ≠ entryTriple e
  | .set e => Short e ∧ e.InstanceNumber ∈ numbers t.entries ∧ ∀ x ∈ t.entries,
      x.InstanceNumber ≠ e.InstanceNumber → entryTriple x ≠ entryTriple e
  | .del n => n ∈ numbers t.entries
  | .reload => True

section Conditions

variable (canon : CStr → CStr)

def call (s : State) : Call → State
  | .add e => (CosaDmlRoutingAddV6Entry canon e s).2
  | .set e => (CosaDmlRoutingSetV6Entry canon e s).2
  | .del n => (CosaDmlRoutingDelV6Entry canon n s).2
  | .reload => Route6_LoadRouteInfo s

def step (t : Tracked) (c : Call) : Option Tracked :=
  some ⟨call canon t.state c, entriesAfter t.entries c⟩

/-- The kernel takes the route of the entry and prints it as the entry has it,
under an interface that is listed. -/
def Shown (e : V6Entry) : Prop :=
  e.DestIPPrefix ≠ [] ∧ canon e.DestIPPrefix = e.DestIPPrefix ∧
    e.DestIPPrefix ≠ "default".toList ∧ (e.NextHop = [] ∨ canon e.NextHop = e.NextHop) ∧
    e.Interface ∈ Route6_GetIfNames

/-- Deleting the route of the entry deletes no enabled entry's route beside it. -/
def Unshared (entries : List V6Entry) (e : V6Entry) : Prop :=
  ∀ other ∈ entries, other.Enable = true → other.InstanceNumber ≠ e.InstanceNumber →
    delMatches canon e.DestIPPrefix e.NextHop e.Interface
      ⟨other.DestIPPrefix, other.NextHop, other.Interface, 0⟩ = false

/-- A listed route that prints to the name of the entry is the entry's own. -/
def Clear (tables : Tables6) (e : V6Entry) : Prop :=
  ∀ t, Listed tables Route6_GetIfNames t → tripleName t = entryName e →
    e.Enable = true ∧ t = entryTriple e

def InMemory (s : State) (n : ULONG) : Prop := ∃ info ∈ s.infos, info.params.insNum = n

/-- When a call keeps the entries. -/
def Ok (t : Tracked) : Call → Prop
  | .add e => t.state.infos.length < MAX_RTENTRY ∧ e.InstanceNumber.toNat < 2 ^ 31 ∧
      (∀ x ∈ t.entries, entryName x ≠ entryName e) ∧ Clear t.state.tables e ∧
      (e.Enable = true → Shown canon e ∧ (allTriples t.state.tables).length < 128)
  | .set e => InMemory t.state e.InstanceNumber ∧ ∃ old ∈ t.entries,
      old.InstanceNumber = e.InstanceNumber ∧ entryTriple old = entryTriple e ∧
      (old.Enable = true → Unshared canon t.entries e) ∧
      (e.Enable = true → Shown canon e ∧
        (old.Enable = true ∨ (allTriples t.state.tables).length < 128)) ∧
      (old.Enable = true → e.Enable = false → ∀ r ∈ t.state.tables.erouter,
        tripleName (routeTriple r) ≠ entryName e)
  | .del n => InMemory t.state n ∧ ∀ e ∈ t.entries, e.InstanceNumber = n →
      e.DestIPPrefix = [] ∨ Unshared canon t.entries e
  | .reload => True

structure Kept (t : Tracked) : Prop where
  nodup : (numbers t.entries).Nodup
  range : ∀ e ∈ t.entries, e.InstanceNumber ≠ 0 ∧ e.InstanceNumber.toNat < 2 ^ 31
  names : (t.entries.map entryName).Nodup
  stored : Stored t.state.store t.entries
  shown : ∀ e ∈ t.entries, e.Enable = true → Shown canon e ∧ ∃ r ∈ t.state.tables.main,
    r.prefix6 = e.DestIPPrefix ∧ r.gateway = e.NextHop ∧ r.dev = e.Interface
  clear : ∀ e ∈ t.entries, Clear t.state.tables e
  few : (allTriples t.state.tables).length ≤ 128
  owned : Owned t.entries t.state.infos
  distinct : Distinct t.state.infos

end Conditions

variable {info : RouteInfo6}

section Reload

variable {canon : CStr → CStr} {t : Tracked}

theorem Kept.loadParams (h : Kept canon t)
    (hlisted : Listed t.state.tables Route6_GetIfNames (triple info)) :
    (find entryName t.entries (tripleName (triple info)) = none ∧
        (RoutingV6.loadParams t.state.store info).1 = ⟨tripleName (triple info), 0, [], false⟩) ∨
      ∃ e ∈ t.entries, e.Enable = true ∧ triple info = entryTriple e ∧
        (RoutingV6.loadParams t.state.store info).1 = (infoOf e).params := by
  obtain ⟨hins, halias, henabled⟩ := h.stored (tripleName (triple info))
  have hname : Route6_GenerateName info.prefix6 info.gateway info.interface =
      tripleName (triple info) := rfl
  unfold RoutingV6.loadParams
  simp only [hname, hins, halias, henabled]
  cases hfind : find entryName t.entries (tripleName (triple info)) with
  | none => exact Or.inl ⟨rfl, rfl⟩
  | some e =>
    obtain ⟨he, hen⟩ := (find_eq_some_iff h.names _ e).mp hfind
    obtain ⟨hon, htriple⟩ := h.clear e he (triple info) hlisted hen.symm
    refine Or.inr ⟨e, he, hon, htriple, ?_⟩
    have hnum : BitVec.ofInt 32 (atoi (decimal e.InstanceNumber.toNat)) = e.InstanceNumber := by
      rw [atoi_decimal (h.range e he).2, BitVec.ofInt_natCast, BitVec.ofNat_toNat,
        BitVec.setWidth_eq]
    simp only [Option.map_some, Option.getD_some, hnum, infoOf, hon, if_true]
    simp only [htriple, tripleName, entryTriple, Option.isSome_some]

theorem Kept.loadAll (h : Kept canon t) : Route6_LoadRouteInfo t.state =
    { t.state with
      infos := (readInterfaces t.state.tables Route6_GetIfNames []).map
        (fun info => { info with params := (RoutingV6.loadParams t.state.store info).1 }) } := by
  have hread := (readInterfaces_spec h.few).1
  have hall := loadAll_eq (readInterfaces t.state.tables Route6_GetIfNames [])
    t.state.store (by
      intro info hinfo v hv
      have hname : Route6_GenerateName info.prefix6 info.gateway info.interface =
          tripleName (triple info) := rfl
      rw [hname, (h.stored (tripleName (triple info))).2.2] at hv
      obtain ⟨e, hfind, hflag⟩ := Option.map_eq_some_iff.mp hv
      obtain ⟨he, hen⟩ := (find_eq_some_iff h.names _ e).mp hfind
      have hon := (h.clear e he (triple info) (hread.listed info hinfo).1 hen.symm).1
      rw [hon, if_pos rfl] at hflag
      rw [← hflag]
      decide)
  unfold Route6_LoadRouteInfo
  rw [hall]

theorem Kept.owned_reload (h : Kept canon t) :
    Owned t.entries (Route6_LoadRouteInfo t.state).infos := by
  have hread := (readInterfaces_spec h.few).1
  rw [h.loadAll]
  intro info hinfo
  obtain ⟨raw, hraw, rfl⟩ := List.mem_map.mp hinfo
  rcases h.loadParams (hread.listed raw hraw).1 with ⟨-, hparams⟩ | ⟨e, he, -, htriple, hparams⟩
  · refine Or.inl ⟨?_, ?_⟩
    · simp only [hparams]
    · simp only [hparams]
  · exact Or.inr ⟨e, he, htriple, hparams⟩

theorem Kept.distinct_reload (h : Kept canon t) :
    Distinct (Route6_LoadRouteInfo t.state).infos := by
  have hread := (readInterfaces_spec h.few).1
  rw [h.loadAll, Distinct, List.map_map, List.pairwise_map]
  have hpairs := List.pairwise_map.mp hread.nodup
  apply hpairs.imp_of_mem
  intro a b ha hb hab heq
  simp only [Function.comp_apply] at heq ⊢
  rcases h.loadParams (hread.listed a ha).1 with ⟨-, hpa⟩ | ⟨e, he, -, hae, hpa⟩
  · rw [hpa]
  · rcases h.loadParams (hread.listed b hb).1 with ⟨-, hpb⟩ | ⟨f, hf, -, hbf, hpb⟩
    · rw [heq, hpb]
    · rw [hpa, hpb] at heq
      have hef : e = f := eq_of_key h.nodup he hf heq
      rw [hae, hbf, hef] at hab
      exact absurd rfl hab

theorem Kept.reload (h : Kept canon t) : Kept canon ⟨Route6_LoadRouteInfo t.state, t.entries⟩ := by
  have howned := h.owned_reload
  have hdistinct := h.distinct_reload
  rw [h.loadAll] at howned hdistinct ⊢
  exact ⟨h.nodup, h.range, h.names, h.stored, h.shown, h.clear, h.few, howned, hdistinct⟩

theorem Kept.agrees (h : Kept canon t) : Agrees t := by
  refine ⟨⟨h.distinct, h.distinct_reload⟩, ⟨h.owned, h.owned_reload⟩, fun e he hon => ?_, h.stored⟩
  obtain ⟨hread, hcovers⟩ := readInterfaces_spec h.few
  obtain ⟨⟨-, -, hdefault, -, hdev⟩, r, hr, hp, hg, hd⟩ := h.shown e he hon
  have hroute : routeTriple r = entryTriple e := by
    rw [routeTriple, hp, hg, hd, if_neg hdefault, entryTriple]
  have hlisted : Listed t.state.tables Route6_GetIfNames (entryTriple e) :=
    Or.inl ⟨r, hr, hd ▸ hdev, hp ▸ hdefault, hroute⟩
  obtain ⟨raw, hraw, htriple⟩ := List.mem_map.mp (hcovers _ hlisted)
  rw [h.loadAll]
  refine ⟨_, List.mem_map.mpr ⟨raw, hraw, rfl⟩, htriple, ?_⟩
  rcases h.loadParams (hread.listed raw hraw).1 with ⟨hnone, -⟩ | ⟨f, hf, -, htf, hparams⟩
  · rw [htriple] at hnone
    exact absurd (List.mem_map.mpr ⟨e, he, rfl⟩) ((find_eq_none_iff _).mp hnone)
  · have hname : entryName f = entryName e := by rw [entryName, ← htf, htriple, entryName]
    rw [← eq_of_key h.names hf he hname]
    exact hparams

end Reload

variable {r : KernelRoute} {names : List CStr}

section Tables

variable {canon : CStr → CStr} {tables : Tables6} {e : V6Entry}

theorem route6_add (tables : Tables6) (hs : Shown canon e) :
    ∃ r : KernelRoute, r.prefix6 = e.DestIPPrefix ∧ r.gateway = e.NextHop ∧
      r.dev = e.Interface ∧ routeTriple r = entryTriple e ∧
      Route6_Add canon e.DestIPPrefix e.NextHop e.Interface e.ForwardingMetric tables =
        { tables with main := tables.main.insert r } := by
  obtain ⟨hdest, hcanon, hdefault, hgw, hdev⟩ := hs
  have hdev' : e.Interface ≠ [] := by
    intro hnil
    rw [hnil] at hdev
    exact absurd hdev (by decide)
  have hgw' : (if e.NextHop = [] then [] else canon e.NextHop) = e.NextHop := by
    split
    · next hnil => exact hnil.symm
    · next hne => exact hgw.resolve_left hne
  refine ⟨⟨e.DestIPPrefix, e.NextHop, e.Interface,
    if e.ForwardingMetric = 0 then 1024 else e.ForwardingMetric⟩, rfl, rfl, rfl, ?_, ?_⟩
  · simp only [routeTriple, if_neg hdefault, entryTriple]
  · rw [Route6_Add, if_neg (by simp [hdest, hdev'])]
    simp only [hcanon, hgw']

theorem listed_insert {t : Triple}
    (h : Listed { tables with main := tables.main.insert r } names t) :
    Listed tables names t ∨ t = routeTriple r := by
  rcases h with ⟨x, hx, hdev, hdefault, rfl⟩ | herouter
  · rcases List.mem_insert_iff.mp hx with rfl | hx
    · exact Or.inr rfl
    · exact Or.inl (Or.inl ⟨x, hx, hdev, hdefault, rfl⟩)
  · exact Or.inl (Or.inr herouter)

theorem length_insert (tables : Tables6) (r : KernelRoute) :
    (allTriples { tables with main := tables.main.insert r }).length ≤
      (allTriples tables).length + 1 := by
  have hle : (tables.main.insert r).length ≤ tables.main.length + 1 := by
    by_cases hr : r ∈ tables.main
    · rw [List.length_insert_of_mem hr]
      omega
    · rw [List.length_insert_of_not_mem hr]
  simp only [allTriples, List.length_append, List.length_map]
  omega

theorem route6_del (canon : CStr → CStr) (tables : Tables6) (p gw dev : CStr) :
    (Route6_Del canon p gw dev tables).erouter = tables.erouter ∧
      (∀ r, r ∈ (Route6_Del canon p gw dev tables).main ↔
        r ∈ tables.main ∧ (p = [] ∨ delMatches canon p gw dev r = false)) ∧
      (allTriples (Route6_Del canon p gw dev tables)).length ≤ (allTriples tables).length := by
  unfold Route6_Del
  by_cases hp : p = []
  · simp [hp]
  · rw [if_neg hp]
    refine ⟨rfl, fun r => ?_, ?_⟩
    · simp [hp]
    · simp only [allTriples, List.length_append, List.length_map]
      have hle := List.length_filter_le (fun r => !delMatches canon p gw dev r) tables.main
      omega

theorem listed_del {p gw dev : CStr} {t : Triple}
    (h : Listed (Route6_Del canon p gw dev tables) names t) : Listed tables names t := by
  obtain ⟨herouter, hmain, -⟩ := route6_del canon tables p gw dev
  rcases h with ⟨r, hr, hrest⟩ | ⟨r, hr, ht⟩
  · exact Or.inl ⟨r, ((hmain r).mp hr).1, hrest⟩
  · exact Or.inr ⟨r, herouter ▸ hr, ht⟩

theorem survives_del {p gw dev : CStr} {x : V6Entry} (hr : r ∈ tables.main)
    (hp : r.prefix6 = x.DestIPPrefix) (hgw : r.gateway = x.NextHop) (hdev : r.dev = x.Interface)
    (h : p = [] ∨ delMatches canon p gw dev ⟨x.DestIPPrefix, x.NextHop, x.Interface, 0⟩ = false) :
    r ∈ (Route6_Del canon p gw dev tables).main := by
  apply ((route6_del canon tables p gw dev).2.1 r).mpr
  refine ⟨hr, h.imp_right fun hno => ?_⟩
  rw [← hno, delMatches, delMatches, hp, hgw, hdev]

end Tables

variable {entries : List V6Entry}

theorem stored_put {store : Store CStr CStr} (h : Stored store entries) (e : V6Entry) :
    Stored (Route6_SaveParams (infoOf e).params store) (put entryName entries e) := by
  intro name
  obtain ⟨hins, halias, henabled⟩ := h name
  obtain ⟨hins', halias', henabled'⟩ := saveParams_apply (infoOf e).params store name
  have hname : (infoOf e).params.name = entryName e := rfl
  rw [hins', halias', henabled', find_put, hname]
  split
  · exact ⟨rfl, rfl, rfl⟩
  · exact ⟨hins, halias, henabled⟩

theorem stored_drop {store : Store CStr CStr} (h : Stored store entries) (name : CStr) :
    Stored (unsetAll [insKey name, aliasKey name, enabledKey name] store)
      (drop entryName entries name) := by
  intro other
  obtain ⟨hins, halias, henabled⟩ := h other
  rw [find_drop]
  by_cases hother : other = name
  · subst hother
    rw [if_pos rfl]
    exact ⟨unsetAll_of_mem _ (by simp), unsetAll_of_mem _ (by simp), unsetAll_of_mem _ (by simp)⟩
  · rw [if_neg hother, unsetAll_of_notMem, unsetAll_of_notMem, unsetAll_of_notMem]
    · exact ⟨hins, halias, henabled⟩
    · simp [hother, (insKey_ne_enabledKey _ _).symm, (aliasKey_ne_enabledKey _ _).symm]
    · simp [hother, (insKey_ne_aliasKey _ _).symm, aliasKey_ne_enabledKey]
    · simp [hother, insKey_ne_aliasKey, insKey_ne_enabledKey]

section Calls

variable {canon : CStr → CStr} {t : Tracked} {e : V6Entry}

theorem Kept.owner (h : Kept canon t) (hinfo : info ∈ t.state.infos)
    (hnum : info.params.insNum ≠ 0) :
    ∃ x ∈ t.entries, x.InstanceNumber = info.params.insNum ∧ triple info = entryTriple x ∧
      info.params = (infoOf x).params := by
  rcases h.owned info hinfo with ⟨hzero, -⟩ | ⟨x, hx, htriple, hparams⟩
  · exact absurd hzero hnum
  · exact ⟨x, hx, by rw [hparams]; rfl, htriple, hparams⟩

theorem kept_add (h : Kept canon t) (hl : Legal t (.add e)) (hok : Ok canon t (.add e)) :
    Kept canon ⟨call canon t.state (.add e), entriesAfter t.entries (.add e)⟩ := by
  obtain ⟨-, hzero, hnew, -⟩ := hl
  obtain ⟨hroom, hsmall, hname, hclear, hon⟩ := hok
  have hput : entriesAfter t.entries (.add e) = t.entries ++ [e] := put_of_notMem hnew
  have hfresh : entryName e ∉ t.entries.map entryName := by
    intro hin
    obtain ⟨x, hx, hxe⟩ := List.mem_map.mp hin
    exact hname x hx hxe
  have hputname : put entryName t.entries e = t.entries ++ [e] := put_of_notMem hfresh
  have hcall : call canon t.state (.add e) =
      { infos := t.state.infos ++ [infoOf e]
        store := Route6_SaveParams (infoOf e).params t.state.store
        tables := if e.Enable then
            Route6_Add canon e.DestIPPrefix e.NextHop e.Interface e.ForwardingMetric t.state.tables
          else t.state.tables } := by
    rw [call, CosaDmlRoutingAddV6Entry, if_neg (by omega)]
  rw [hcall, hput]
  refine ⟨?_, ?_, ?_, ?_, ?_, ?_, ?_, ?_, ?_⟩
  · rw [← put_of_notMem hnew]
    exact nodup_put h.nodup e
  · intro x hx
    rcases List.mem_append.mp hx with hx | hx
    · exact h.range x hx
    · rw [List.mem_singleton.mp hx]
      exact ⟨hzero, hsmall⟩
  · rw [← hputname]
    exact nodup_put h.names e
  · rw [← hputname]
    exact stored_put h.stored e
  · intro x hx hxon
    rcases List.mem_append.mp hx with hx | hx
    · obtain ⟨hshown, r, hr, hrest⟩ := h.shown x hx hxon
      refine ⟨hshown, r, ?_, hrest⟩
      by_cases hen : e.Enable = true
      · obtain ⟨q, -, -, -, -, hadd⟩ := route6_add t.state.tables (hon hen).1
        simp only [hen, if_true, hadd]
        exact List.mem_insert_of_mem hr
      · simp only [hen]
        exact hr
    · obtain rfl := List.mem_singleton.mp hx
      obtain ⟨q, hq1, hq2, hq3, -, hadd⟩ := route6_add t.state.tables (hon hxon).1
      refine ⟨(hon hxon).1, q, ?_, hq1, hq2, hq3⟩
      simp only [hxon, if_true, hadd]
      exact List.mem_insert_self
  · intro x hx tr htr hxname
    have hbefore : Listed t.state.tables Route6_GetIfNames tr ∨
        (e.Enable = true ∧ tr = entryTriple e) := by
      by_cases hen : e.Enable = true
      · obtain ⟨q, -, -, -, hq, hadd⟩ := route6_add t.state.tables (hon hen).1
        simp only [hen, if_true, hadd] at htr
        rcases listed_insert htr with hold | hnew
        · exact Or.inl hold
        · exact Or.inr ⟨hen, hnew.trans hq⟩
      · simp only [hen] at htr
        exact Or.inl htr
    rcases List.mem_append.mp hx with hx | hx
    · rcases hbefore with hold | ⟨-, rfl⟩
      · exact h.clear x hx tr hold hxname
      · exact absurd hxname.symm (hname x hx)
    · obtain rfl := List.mem_singleton.mp hx
      rcases hbefore with hold | ⟨hen, htre⟩
      · exact hclear tr hold hxname
      · exact ⟨hen, htre⟩
  · by_cases hen : e.Enable = true
    · obtain ⟨q, -, -, -, -, hadd⟩ := route6_add t.state.tables (hon hen).1
      have hle := length_insert t.state.tables q
      have hlt := (hon hen).2
      simp only [hen, if_true, hadd]
      omega
    · simp only [hen]
      exact h.few
  · intro info hinfo
    rcases List.mem_append.mp hinfo with hinfo | hinfo
    · rcases h.owned info hinfo with hfree | ⟨x, hx, hrest⟩
      · exact Or.inl hfree
      · exact Or.inr ⟨x, List.mem_append_left _ hx, hrest⟩
    · obtain rfl := List.mem_singleton.mp hinfo
      exact Or.inr ⟨e, List.mem_append_right _ (List.mem_singleton.mpr rfl), rfl, rfl⟩
  · rw [Distinct, List.map_append, List.pairwise_append]
    refine ⟨h.distinct, List.pairwise_singleton _ _, fun m hm n hn hmn => ?_⟩
    obtain ⟨info, hinfo, hnum⟩ := List.mem_map.mp hm
    by_contra hne
    obtain ⟨x, hx, hxnum, -⟩ := h.owner hinfo (hnum ▸ hne)
    apply hnew
    rw [List.map_singleton, List.mem_singleton] at hn
    have hxe : x.InstanceNumber = e.InstanceNumber := by
      rw [hxnum, hnum, hmn, hn]
      rfl
    exact List.mem_map.mpr ⟨x, hx, hxe⟩

theorem distinct_pos {infos : List RouteInfo6} (h : Distinct infos) {i j : ℕ}
    {a b : RouteInfo6} (ha : infos[i]? = some a) (hb : infos[j]? = some b)
    (hab : a.params.insNum = b.params.insNum) (hne : a.params.insNum ≠ 0) : i = j := by
  have hpairs := List.pairwise_map.mp h
  rw [List.pairwise_iff_getElem] at hpairs
  obtain ⟨hi, ha'⟩ := List.getElem?_eq_some_iff.mp ha
  obtain ⟨hj, hb'⟩ := List.getElem?_eq_some_iff.mp hb
  rcases Nat.lt_trichotomy i j with hij | hij | hij
  · have hzero := hpairs i j hi hj hij
    rw [ha', hb'] at hzero
    exact absurd (hzero hab) hne
  · exact hij
  · have hzero := hpairs j i hj hi hij
    rw [ha', hb'] at hzero
    exact absurd (hab ▸ hzero hab.symm) hne

theorem Kept.found (h : Kept canon t) {n : ULONG} (hmem : InMemory t.state n)
    (hn : n ∈ numbers t.entries) :
    ∃ i info x, Route6_GetInfoByInsNum n t.state = some i ∧ t.state.infos[i]? = some info ∧
      info.params.insNum = n ∧ x ∈ t.entries ∧ x.InstanceNumber = n ∧
      triple info = entryTriple x ∧ info.params = (infoOf x).params := by
  obtain ⟨y, hy, hyn⟩ := List.mem_map.mp hn
  have hzero : n ≠ 0 := hyn ▸ (h.range y hy).1
  obtain ⟨raw, hraw, hrawn⟩ := hmem
  cases hfind : Route6_GetInfoByInsNum n t.state with
  | none =>
    have hnone := List.findIdx?_eq_none_iff.mp hfind raw hraw
    simp [hrawn] at hnone
  | some i =>
    obtain ⟨hi, hnum, -⟩ := List.findIdx?_eq_some_iff_getElem.mp hfind
    have hnum' : t.state.infos[i].params.insNum = n := by simpa using hnum
    obtain ⟨x, hx, hxn, htriple, hparams⟩ :=
      h.owner (List.getElem_mem hi) (hnum'.symm ▸ hzero)
    exact ⟨i, t.state.infos[i], x, rfl, List.getElem?_eq_getElem hi, hnum', hx,
      hxn.trans hnum', htriple, hparams⟩

theorem Kept.number_iff_name (h : Kept canon t) {x y : V6Entry} (hx : x ∈ t.entries)
    (hy : y ∈ t.entries) :
    y.InstanceNumber = x.InstanceNumber ↔ entryName y = entryName x := by
  constructor
  · intro hnum
    rw [eq_of_key h.nodup hy hx hnum]
  · intro hname
    rw [eq_of_key h.names hy hx hname]

theorem kept_del {n : ULONG} (h : Kept canon t) (hl : Legal t (.del n))
    (hok : Ok canon t (.del n)) :
    Kept canon ⟨call canon t.state (.del n), entriesAfter t.entries (.del n)⟩ := by
  obtain ⟨hmem, hdel⟩ := hok
  obtain ⟨i, info, x, hfind, hat, hnum, hx, hxn, htriple, hparams⟩ := h.found hmem hl
  have hzero : n ≠ 0 := hxn ▸ (h.range x hx).1
  obtain ⟨hp, hgw, hdev⟩ : info.prefix6 = x.DestIPPrefix ∧ info.gateway = x.NextHop ∧
      info.interface = x.Interface := by
    simpa [triple, entryTriple] using htriple
  have hname : info.params.name = entryName x := by rw [hparams]; rfl
  have hcall : call canon t.state (.del n) =
      { infos := t.state.infos.eraseIdx i
        store := unsetAll
          [insKey (entryName x), aliasKey (entryName x), enabledKey (entryName x)] t.state.store
        tables := Route6_Del canon x.DestIPPrefix x.NextHop x.Interface t.state.tables } := by
    rw [call, CosaDmlRoutingDelV6Entry, hfind]
    simp only [hat, hname, hp, hgw, hdev]
  have hdrop : entriesAfter t.entries (.del n) = drop entryName t.entries (entryName x) := by
    apply drop_congr_key
    intro y hy
    rw [← hxn]
    exact h.number_iff_name hx hy
  obtain ⟨-, -, hlen⟩ := route6_del canon t.state.tables
    x.DestIPPrefix x.NextHop x.Interface
  rw [hcall]
  refine ⟨nodup_drop h.nodup n, fun y hy => ?_, nodup_drop h.names n, ?_, fun y hy hyon => ?_,
    fun y hy tr htr => ?_, Nat.le_trans hlen h.few, fun raw hraw => ?_, ?_⟩
  · exact h.range y ((mem_drop_iff n y).mp hy).1
  · rw [hdrop]
    exact stored_drop h.stored (entryName x)
  · obtain ⟨hy, hyn⟩ := (mem_drop_iff n y).mp hy
    obtain ⟨hshown, r, hr, hrp, hrgw, hrdev⟩ := h.shown y hy hyon
    refine ⟨hshown, r, survives_del hr hrp hrgw hrdev ?_, hrp, hrgw, hrdev⟩
    exact (hdel x hx hxn).imp_right (fun hun => hun y hy hyon (hxn.symm ▸ hyn))
  · exact h.clear y ((mem_drop_iff n y).mp hy).1 tr (listed_del htr)
  · obtain ⟨j, hji, hj⟩ := List.mem_eraseIdx_iff_getElem?.mp hraw
    rcases h.owned raw (List.mem_of_getElem? hj) with hfree | ⟨y, hy, hrest⟩
    · exact Or.inl hfree
    · refine Or.inr ⟨y, (mem_drop_iff n y).mpr ⟨hy, fun hyn => ?_⟩, hrest⟩
      have hsame : raw.params.insNum = info.params.insNum := by
        rw [hrest.2, hnum, ← hyn]
        rfl
      exact hji (distinct_pos h.distinct hj hat hsame (by rw [hsame, hnum]; exact hzero))
  · apply List.Pairwise.sublist _ h.distinct
    exact (List.eraseIdx_sublist _ i).map _

def tablesBetween (canon : CStr → CStr) (tables : Tables6) (old e : V6Entry) : Tables6 :=
  if old.Enable then Route6_Del canon e.DestIPPrefix e.NextHop e.Interface tables else tables

def tablesAfterSet (canon : CStr → CStr) (tables : Tables6) (old e : V6Entry) : Tables6 :=
  if e.Enable then
    Route6_Add canon e.DestIPPrefix e.NextHop e.Interface e.ForwardingMetric
      (tablesBetween canon tables old e)
  else tablesBetween canon tables old e

section Between

variable {tables : Tables6} {old : V6Entry}

theorem listed_between {tr : Triple}
    (h : Listed (tablesBetween canon tables old e) names tr) : Listed tables names tr := by
  unfold tablesBetween at h
  split at h
  · exact listed_del h
  · exact h

theorem length_between (canon : CStr → CStr) (tables : Tables6) (old e : V6Entry) :
    (allTriples (tablesBetween canon tables old e)).length ≤ (allTriples tables).length := by
  unfold tablesBetween
  split
  · exact (route6_del canon tables _ _ _).2.2
  · exact Nat.le_refl _

theorem tablesAfterSet_cases (tables : Tables6) (old : V6Entry)
    (hon : e.Enable = true → Shown canon e) :
    (e.Enable = false ∧ tablesAfterSet canon tables old e = tablesBetween canon tables old e) ∨
      (e.Enable = true ∧ ∃ q : KernelRoute, q.prefix6 = e.DestIPPrefix ∧ q.gateway = e.NextHop ∧
        q.dev = e.Interface ∧ routeTriple q = entryTriple e ∧
        tablesAfterSet canon tables old e = ⟨(tablesBetween canon tables old e).main.insert q,
          (tablesBetween canon tables old e).erouter⟩) := by
  cases hen : e.Enable with
  | false => exact Or.inl ⟨rfl, by rw [tablesAfterSet, hen]; rfl⟩
  | true =>
    obtain ⟨q, hq1, hq2, hq3, hq, hadd⟩ :=
      route6_add (tablesBetween canon tables old e) (hon hen)
    exact Or.inr ⟨rfl, q, hq1, hq2, hq3, hq, by rw [tablesAfterSet, if_pos hen, hadd]⟩

theorem listed_afterSet (hon : e.Enable = true → Shown canon e) {tr : Triple}
    (h : Listed (tablesAfterSet canon tables old e) Route6_GetIfNames tr) :
    (e.Enable = true ∧ tr = entryTriple e) ∨
      Listed (tablesBetween canon tables old e) Route6_GetIfNames tr := by
  rcases tablesAfterSet_cases tables old hon with
    ⟨-, heq⟩ | ⟨hen, q, -, -, -, hq, heq⟩
  · exact Or.inr (heq ▸ h)
  · rw [heq] at h
    exact (listed_insert h).elim Or.inr (fun htr => Or.inl ⟨hen, htr.trans hq⟩)

theorem survives_set (hon : e.Enable = true → Shown canon e)
    (hunshared : old.Enable = true → Unshared canon entries e) {y : V6Entry} (hy : y ∈ entries)
    (hyon : y.Enable = true) (hyne : y.InstanceNumber ≠ e.InstanceNumber)
    (hr : r ∈ tables.main) (hp : r.prefix6 = y.DestIPPrefix) (hgw : r.gateway = y.NextHop)
    (hdev : r.dev = y.Interface) : r ∈ (tablesAfterSet canon tables old e).main := by
  have hbetween : r ∈ (tablesBetween canon tables old e).main := by
    unfold tablesBetween
    split
    · next hold => exact survives_del hr hp hgw hdev (Or.inr (hunshared hold y hy hyon hyne))
    · exact hr
  rcases tablesAfterSet_cases tables old hon with
    ⟨-, heq⟩ | ⟨-, q, -, -, -, -, heq⟩
  · rw [heq]
    exact hbetween
  · rw [heq]
    exact List.mem_insert_of_mem hbetween

end Between

theorem mem_set_infos (h : Distinct t.state.infos) {i : ℕ}
    (hat : t.state.infos[i]? = some info) (hnum : info.params.insNum = e.InstanceNumber)
    (hzero : e.InstanceNumber ≠ 0) {raw : RouteInfo6}
    (hraw : raw ∈ t.state.infos.set i (infoOf e)) :
    raw = infoOf e ∨ (raw ∈ t.state.infos ∧ raw.params.insNum ≠ e.InstanceNumber) := by
  obtain ⟨j, hj⟩ := List.mem_iff_getElem?.mp hraw
  rw [List.getElem?_set] at hj
  split at hj
  · next hij =>
    subst hij
    rw [if_pos (List.getElem?_eq_some_iff.mp hat).1, Option.some.injEq] at hj
    exact Or.inl hj.symm
  · next hij =>
    refine Or.inr ⟨List.mem_of_getElem? hj, fun hsame => hij ?_⟩
    exact distinct_pos h hat hj (hnum.trans hsame.symm) (hnum ▸ hzero)

theorem delMatches_own (hs : Shown canon e) (hp : r.prefix6 = e.DestIPPrefix)
    (hgw : r.gateway = e.NextHop) (hdev : r.dev = e.Interface) :
    delMatches canon e.DestIPPrefix e.NextHop e.Interface r = true := by
  simp only [delMatches, hp, hgw, hdev, hs.2.1, decide_eq_true_eq, true_and, or_true, and_true]
  exact hs.2.2.2.1.imp_right Eq.symm

theorem length_del_lt {tables : Tables6} (hs : Shown canon e)
    (hr : r ∈ tables.main) (hp : r.prefix6 = e.DestIPPrefix) (hgw : r.gateway = e.NextHop)
    (hdev : r.dev = e.Interface) :
    (allTriples (Route6_Del canon e.DestIPPrefix e.NextHop e.Interface tables)).length <
      (allTriples tables).length := by
  have hlt : (tables.main.filter
      (fun r => !delMatches canon e.DestIPPrefix e.NextHop e.Interface r)).length <
        tables.main.length := by
    apply List.length_filter_lt_length_iff_exists.mpr
    exact ⟨r, hr, by simp [delMatches_own hs hp hgw hdev]⟩
  rw [Route6_Del, if_neg hs.1]
  simp only [allTriples, List.length_append, List.length_map]
  omega

theorem erouter_of_listed_del {tables : Tables6} (hs : Shown canon e)
    (hl : Listed (Route6_Del canon e.DestIPPrefix e.NextHop e.Interface tables)
      Route6_GetIfNames (entryTriple e)) : ∃ r ∈ tables.erouter, routeTriple r = entryTriple e := by
  obtain ⟨herouter, hmain, -⟩ := route6_del canon tables
    e.DestIPPrefix e.NextHop e.Interface
  rcases hl with ⟨r, hr, -, hdefault, htriple⟩ | ⟨r, hr, htriple⟩
  · have hno := ((hmain r).mp hr).2.resolve_left hs.1
    rw [routeTriple, if_neg hdefault] at htriple
    obtain ⟨hp, hgw, hdev⟩ : r.prefix6 = e.DestIPPrefix ∧ r.gateway = e.NextHop ∧
        r.dev = e.Interface := by
      simpa [entryTriple] using htriple
    rw [delMatches_own hs hp hgw hdev] at hno
    cases hno
  · exact ⟨r, herouter ▸ hr, htriple⟩

theorem kept_set (h : Kept canon t) (hl : Legal t (.set e)) (hok : Ok canon t (.set e)) :
    Kept canon ⟨call canon t.state (.set e), entriesAfter t.entries (.set e)⟩ := by
  obtain ⟨-, hn, -⟩ := hl
  obtain ⟨hmem, old, hold, holdn, hsame, hunshared, hon, hoff⟩ := hok
  obtain ⟨i, info, x, hfind, hat, hnum, hx, hxn, htriple, hparams⟩ := h.found hmem hn
  obtain rfl : x = old := eq_of_key h.nodup hx hold (hxn.trans holdn.symm)
  have hzero : e.InstanceNumber ≠ 0 := hxn ▸ (h.range x hx).1
  have hshown : e.Enable = true → Shown canon e := fun hen => (hon hen).1
  have hname : entryName x = entryName e := by rw [entryName, hsame, entryName]
  have hfields : x.DestIPPrefix = e.DestIPPrefix ∧ x.NextHop = e.NextHop ∧
      x.Interface = e.Interface := by
    simpa [entryTriple] using hsame
  obtain ⟨hp, hgw, hdev⟩ : info.prefix6 = e.DestIPPrefix ∧ info.gateway = e.NextHop ∧
      info.interface = e.Interface := by
    simpa [triple, entryTriple] using htriple.trans hsame
  have henabled : info.params.enabled = x.Enable := by rw [hparams]; rfl
  have hcall : call canon t.state (.set e) =
      { infos := t.state.infos.set i (infoOf e)
        store := Route6_SaveParams (infoOf e).params t.state.store
        tables := tablesAfterSet canon t.state.tables x e } := by
    rw [call, CosaDmlRoutingSetV6Entry, hfind]
    simp only [hat, hp, hgw, hdev, henabled, tablesAfterSet, tablesBetween]
  have hput : entriesAfter t.entries (.set e) = put entryName t.entries e := by
    apply put_congr_key
    intro y hy
    rw [← hxn, ← hname]
    exact h.number_iff_name hx hy
  have hothers : ∀ y, y ∈ entriesAfter t.entries (.set e) ↔
      y = e ∨ (y ∈ t.entries ∧ y.InstanceNumber ≠ e.InstanceNumber) := fun y => mem_put_iff e y
  rw [hcall]
  refine ⟨nodup_put h.nodup e, fun y hy => ?_, ?_, ?_, fun y hy hyon => ?_,
    fun y hy tr htr hyname => ?_, ?_, fun raw hraw => ?_, ?_⟩
  · rcases (hothers y).mp hy with rfl | ⟨hy, -⟩
    · exact hxn ▸ h.range x hx
    · exact h.range y hy
  · change (List.map entryName (entriesAfter t.entries (.set e))).Nodup
    rw [hput]
    exact nodup_put h.names e
  · change Stored _ (entriesAfter t.entries (.set e))
    rw [hput]
    exact stored_put h.stored e
  · rcases (hothers y).mp hy with rfl | ⟨hy, hyne⟩
    · rcases tablesAfterSet_cases t.state.tables x hshown with
        ⟨hoff', -⟩ | ⟨-, q, hq1, hq2, hq3, -, heq⟩
      · rw [hyon] at hoff'
        cases hoff'
      · refine ⟨hshown hyon, q, ?_, hq1, hq2, hq3⟩
        rw [heq]
        exact List.mem_insert_self
    · obtain ⟨hyshown, r, hr, hrp, hrgw, hrdev⟩ := h.shown y hy hyon
      exact ⟨hyshown, r, survives_set hshown hunshared hy hyon hyne hr hrp hrgw hrdev, hrp, hrgw,
        hrdev⟩
  · rcases (hothers y).mp hy with rfl | ⟨hy, hyne⟩
    · rcases listed_afterSet hshown htr with hnew | hbetween
      · exact hnew
      · obtain ⟨hxon, htrx⟩ := h.clear x hx tr (listed_between hbetween) (hyname.trans hname.symm)
        rw [hsame] at htrx
        refine ⟨?_, htrx⟩
        by_contra hyoff
        rw [tablesBetween, if_pos hxon, htrx] at hbetween
        have hshown' := (h.shown x hx hxon).1
        rw [Shown, hfields.1, hfields.2.1, hfields.2.2] at hshown'
        obtain ⟨r, hr, hrt⟩ := erouter_of_listed_del hshown' hbetween
        exact hoff hxon (by simpa using hyoff) r hr (by rw [hrt]; rfl)
    · rcases listed_afterSet hshown htr with ⟨-, rfl⟩ | hbetween
      · have hyx := (h.number_iff_name hx hy).mpr (hyname.symm.trans hname.symm)
        exact absurd (hyx.trans hxn) hyne
      · exact h.clear y hy tr (listed_between hbetween) hyname
  · have hbetween := length_between canon t.state.tables x e
    have hfew := h.few
    change (allTriples (tablesAfterSet canon t.state.tables x e)).length ≤ 128
    rcases tablesAfterSet_cases t.state.tables x hshown with
      ⟨-, heq⟩ | ⟨hen, q, -, -, -, -, heq⟩
    · rw [heq]
      omega
    · have hinsert := length_insert (tablesBetween canon t.state.tables x e) q
      rw [heq]
      rcases (hon hen).2 with hxon | hlt
      · obtain ⟨-, r, hr, hrp, hrgw, hrdev⟩ := h.shown x hx hxon
        have hlt := length_del_lt (hshown hen) hr (hrp.trans hfields.1) (hrgw.trans hfields.2.1)
          (hrdev.trans hfields.2.2)
        have hdel : (allTriples (tablesBetween canon t.state.tables x e)).length = (allTriples
            (Route6_Del canon e.DestIPPrefix e.NextHop e.Interface t.state.tables)).length := by
          rw [tablesBetween, if_pos hxon]
        omega
      · omega
  · rcases mem_set_infos h.distinct hat hnum hzero hraw with rfl | ⟨hraw, hne⟩
    · exact Or.inr ⟨e, (hothers e).mpr (Or.inl rfl), rfl, rfl⟩
    · rcases h.owned raw hraw with hfree | ⟨y, hy, htriple', hparams'⟩
      · exact Or.inl hfree
      · refine Or.inr ⟨y, (hothers y).mpr (Or.inr ⟨hy, fun hyn => hne ?_⟩), htriple', hparams'⟩
        rw [hparams', ← hyn]
        rfl
  · have hmap : (t.state.infos.set i (infoOf e)).map (fun info => info.params.insNum) =
        t.state.infos.map (fun info => info.params.insNum) := by
      rw [List.map_set]
      apply set_of_getElem?
      rw [List.getElem?_map, hat, Option.map_some, hnum]
      rfl
    change ((t.state.infos.set i (infoOf e)).map _).Pairwise _
    rw [hmap]
    exact h.distinct

theorem kept_step {c : Call} (h : Kept canon t) (hl : Legal t c) (hok : Ok canon t c) :
    Kept canon ⟨call canon t.state c, entriesAfter t.entries c⟩ := by
  cases c with
  | add e => exact kept_add h hl hok
  | set e => exact kept_set h hl hok
  | del n => exact kept_del h hl hok
  | reload => exact h.reload

end Calls

/-- From an empty store on, a run whose calls are all Ok keeps every entry: the
store holds its keys and no others, and a reload gives each enabled entry back. -/
theorem routes6_kept (canon : CStr → CStr) {s : State} (hempty : s.infos = [])
    (hstore : Stored s.store []) (hfew : (allTriples s.tables).length ≤ 128) {calls : List Call}
    (hlegal : StepsMeet (step canon) Legal ⟨s, []⟩ calls)
    (hok : StepsMeet (step canon) (Ok canon) ⟨s, []⟩ calls) :
    Agrees ⟨s, []⟩ ∧ Throughout (step canon) Agrees ⟨s, []⟩ calls := by
  have hstart : Kept canon ⟨s, []⟩ := by
    refine ⟨List.nodup_nil, fun e he => ?_, List.nodup_nil, hstore, fun e he => ?_, fun e he => ?_,
      hfew, fun info hinfo => ?_, ?_⟩
    · cases he
    · cases he
    · cases he
    · rw [hempty] at hinfo
      cases hinfo
    · rw [Distinct, hempty]
      exact List.Pairwise.nil
  refine ⟨hstart.agrees, ?_⟩
  apply @throughout_of_stepsMeet _ _ (step canon) _ (fun t c => Legal t c ∧ Ok canon t c)
    (Kept canon) (fun t ht => ht.agrees) (fun t c ht hc => ?_) _ _ hstart
  · exact StepsMeet.and (step canon) hlegal hok
  · exact ⟨_, rfl, kept_step ht hc.1 hc.2⟩

def emptyState : State := ⟨[], fun _ => none, ⟨[], []⟩⟩

def sampleEntry : V6Entry :=
  { InstanceNumber := 1, Alias := "lab".toList, Enable := true
    DestIPPrefix := "2001:db8::/64".toList, NextHop := [], Interface := "brlan0".toList
    ForwardingMetric := 0 }

theorem ok_add_sample : Ok id ⟨emptyState, []⟩ (.add sampleEntry) := by
  refine ⟨by decide, by decide, fun x hx => ?_, fun tr htr => ?_, fun _ => ⟨?_, by decide⟩⟩
  · cases hx
  · rcases htr with ⟨r, hr, -⟩ | ⟨r, hr, -⟩
    · cases hr
    · cases hr
  · exact ⟨by decide, rfl, by decide, Or.inl rfl, by decide⟩

theorem legal_add_sample : Legal ⟨emptyState, []⟩ (.add sampleEntry) :=
  ⟨by unfold Short; decide, by decide, by decide, fun x hx => by cases hx⟩

/-- An entry is added, gets another alias, and is found by a reload. -/
theorem routes6_kept_sample :
    Agrees ⟨emptyState, []⟩ ∧ Throughout (step id) Agrees ⟨emptyState, []⟩
      [.add sampleEntry, .set { sampleEntry with Alias := "guest".toList }, .reload] := by
  apply routes6_kept id rfl (fun name => ⟨rfl, rfl, rfl⟩) (by decide)
  · refine ⟨legal_add_sample, fun t ht => ⟨?_, fun u _ => ⟨trivial, fun _ _ => trivial⟩⟩⟩
    obtain rfl := Option.some.inj ht
    refine ⟨by unfold Short; decide, List.mem_singleton.mpr rfl, fun x hx hne => ?_⟩
    obtain rfl := List.mem_singleton.mp hx
    exact absurd rfl hne
  · refine ⟨ok_add_sample, fun t ht => ⟨?_, fun u _ => ⟨trivial, fun _ _ => trivial⟩⟩⟩
    obtain rfl := Option.some.inj ht
    refine ⟨⟨infoOf sampleEntry, List.mem_singleton.mpr rfl, rfl⟩, sampleEntry,
      List.mem_singleton.mpr rfl, rfl, rfl, fun _ other hother _ hne => ?_, fun _ => ⟨?_, ?_⟩,
      fun _ hoff => ?_⟩
    · obtain rfl := List.mem_singleton.mp hother
      exact absurd rfl hne
    · exact ⟨by decide, rfl, by decide, Or.inl rfl, by decide⟩
    · exact Or.inl rfl
    · cases hoff

/-- A Set that moves an entry to another gateway leaves the keys of the old name. -/
theorem moved_entry_leaves_keys :
    let moved := { sampleEntry with NextHop := "fe80::1".toList }
    StepsMeet (step id) Legal ⟨emptyState, []⟩ [.add sampleEntry, .set moved] ∧
      ¬Throughout (step id) Agrees ⟨emptyState, []⟩ [.add sampleEntry, .set moved] := by
  intro moved
  constructor
  · refine ⟨legal_add_sample, fun t ht => ⟨?_, fun _ _ => trivial⟩⟩
    obtain rfl := Option.some.inj ht
    refine ⟨by unfold Short; decide, List.mem_singleton.mpr rfl, fun x hx hne => ?_⟩
    obtain rfl := List.mem_singleton.mp hx
    exact absurd rfl hne
  · intro hrun
    obtain ⟨t, ht, -, u, hu, hagrees, -⟩ := hrun
    obtain rfl := Option.some.inj ht
    obtain rfl := Option.some.inj hu
    have hkey := (hagrees.stored (entryName sampleEntry)).1
    have hgone : find entryName (entriesAfter (entriesAfter [] (.add sampleEntry)) (.set moved))
        (entryName sampleEntry) = none := by decide
    have hother : entryName sampleEntry ≠ (infoOf moved).params.name := by decide
    have hown : entryName sampleEntry = (infoOf sampleEntry).params.name := rfl
    have hstore : (call id (call id emptyState (.add sampleEntry)) (.set moved)).store =
        Route6_SaveParams (infoOf moved).params
          (Route6_SaveParams (infoOf sampleEntry).params emptyState.store) := rfl
    rw [hstore, (saveParams_apply _ _ _).1, if_neg hother, (saveParams_apply _ _ _).1,
      if_pos hown, hgone] at hkey
    cases hkey

end CcspPandM.RoutingV6Runs
