import CcspPandM.RoutingRegistry

/-!
The registry of the access policies. The committed policies are loaded with their URLs,
keywords and applications; the folders below "InternetAccessHalfAdded" hold what is not
committed. With the routers it is shown what a restart restores of both.
-/
namespace CcspPandM.PolicyRegistry

open CString HalfAdded HalfAddedRuns Registry Runs
open IpRegistry (ULONG pushEntryByInsNum)
open TableLoads (Load SubTable)

def layout : Layout SubTable where
  folder := "InternetAccess".toList
  halfAdded := "InternetAccessHalfAdded".toList
  Upper_InsNum := "UpperInstanceNumber".toList
  InsNum := "InstanceNumber".toList
  Alias := "Alias".toList
  preffix role := match role with
    | .parent => "InternetAccessPolicy".toList
    | .child .url => "BlockedURL".toList
    | .child .keyword => "BlockedKeyword".toList
    | .child .app => "BlockedApp".toList
    | .single => []
  nextInsNum role := match role with
    | .parent => "NextAPInstanceNum".toList
    | .child .url => "NextURLInstanceNum".toList
    | .child .keyword => "NextKeywordInstanceNum".toList
    | .child .app => "NextAppInstanceNum".toList
    | .single => []
  print n := decimal n.toNat
  checks := true

def CosaSecurityIARegAddInfo (pNextInsNumName : CStr) (ulNextInsNum : ULONG) (pPreffix : CStr)
    (ulUpperInsNum : ULONG) (pAlias : CStr) (InstanceNumber : ULONG) (pPoamIrepFoIA : Folder) :
    Folder :=
  RegAddInfo layout pNextInsNumName ulNextInsNum pPreffix ulUpperInsNum pAlias InstanceNumber
    pPoamIrepFoIA

def CosaSecurityIARegDelInfo (name : CStr) (pPoamIrepFoIA : Folder) : Folder :=
  RegDelInfo layout name pPoamIrepFoIA

def pushEntry (pFolderName : CStr) (l : Listing SubTable) (k : ℕ) (number : ULONG) (pAlias : CStr) :
    Listing SubTable :=
  if "URL".toList <:+: pFolderName then l.pushUnder k .url number pAlias
  else if "Keyword".toList <:+: pFolderName then l.pushUnder k .keyword number pAlias
  else if "App".toList <:+: pFolderName then l.pushUnder k .app number pAlias
  else l

/-- An entry without a number above it, or without any policy, is passed over. -/
def scanFolder (st : Scan SubTable) (pFolderName : CStr) (pPoamIrepFoIASp : Folder) :
    Option (Scan SubTable) :=
  let number := (pPoamIrepFoIASp.getUint32 "InstanceNumber".toList).getD st.ulInstanceNumber
  let pAlias := (pPoamIrepFoIASp.getString "Alias".toList).getD []
  if "InternetAccessPolicy".toList <:+: pFolderName then
    some ⟨st.lists.pushParent number pAlias, number, st.ulUpperInstanceNumber⟩
  else
    let upper :=
      (pPoamIrepFoIASp.getUint32 "UpperInstanceNumber".toList).getD st.ulUpperInstanceNumber
    if upper = 0 then some ⟨st.lists, st.ulInstanceNumber, upper⟩
    else
      match parentIndex st.lists.parents upper with
      | none => some ⟨st.lists, st.ulInstanceNumber, upper⟩
      | some k => some ⟨pushEntry pFolderName st.lists k number pAlias, number, upper⟩

structure Backend where
  policies : List (TableLoads.Entry Unit)
  tables : ℕ → SubTable → List (TableLoads.Entry Unit)

def loadedPolicy (e : TableLoads.Entry Unit) (tables : SubTable → Load Unit) : Parent SubTable where
  InstanceNumber := e.InstanceNumber
  Alias := e.Alias
  bNew := false
  list T := RoutingRegistry.committed (tables T)
  ulNextInsNum T := (tables T).ulNextInsNum

def loadPolicies (pPoamIrepFoIA : Folder) (b : Backend) : Listing SubTable × Backend :=
  let security := TableLoads.CosaSecurityInitialize pPoamIrepFoIA b.policies b.tables
  let pushed := (List.zipWith loadedPolicy security.policies.backend security.subTables).foldl
    (pushEntryByInsNum Parent.InstanceNumber) []
  (⟨pushed, [], security.policies.ulNextInsNum, 1⟩,
    { policies := security.policies.backend
      tables := fun ulIndex T =>
        (security.subTables[ulIndex]?.map fun tables => (tables T).backend).getD
          (b.tables ulIndex T) })

def policies : Component SubTable Backend :=
  ⟨layout, false, true, loadPolicies, fun _ _ => true, scanFolder⟩

def CosaSecurityIARegGetInfo (pPoamIrepFoIAHA : Folder) (l : Listing SubTable) : Listing SubTable :=
  RegGetInfo policies pPoamIrepFoIAHA l

def CosaSecurityInitialize (backend : Backend) (pPoamIrepFoCOSA : Folder) :
    Listing SubTable × Backend × Folder :=
  Initialize policies backend pPoamIrepFoCOSA

theorem policy_infix_iff (e : Entry SubTable) :
    "InternetAccessPolicy".toList <:+: entryName layout e ↔ e.role = .parent := by
  have hmark : "InternetAccessPolicy".toList = "InternetAccessPolic".toList ++ ['y'] := by
    decide +kernel
  have hname := infix_entryName_iff (x := "InternetAccessPolic".toList) (e := e) (y := layout)
    (c := 'y') rfl rfl rfl
  rw [hmark, hname, ← hmark]
  generalize e.role = r
  rcases r with _ | (_ | _ | _) | _ <;> decide +kernel

def mark : SubTable → CStr
  | .url => "URL".toList
  | .keyword => "Keyword".toList
  | .app => "App".toList

theorem mark_infix_iff (T c : SubTable) {e : Entry SubTable} (he : e.role = .child c) :
    mark T <:+: entryName layout e ↔ T = c := by
  have hmark : ∃ x a, mark T = x ++ [a] ∧ a.isDigit = false := by
    cases T with
    | url => exact ⟨"UR".toList, 'L', by decide +kernel, rfl⟩
    | keyword => exact ⟨"Keywor".toList, 'd', by decide +kernel, rfl⟩
    | app => exact ⟨"Ap".toList, 'p', by decide +kernel, rfl⟩
  obtain ⟨x, a, hx, ha⟩ := hmark
  have hname := infix_entryName_iff (x := x) (e := e) (y := layout) ha rfl rfl
  rw [hx, hname, ← hx, he]
  cases T <;> cases c <;> decide +kernel

theorem pushEntry_eq (c : SubTable) {e : Entry SubTable} (he : e.role = .child c)
    (l : Listing SubTable) (k : ℕ) (number : ULONG) (pAlias : CStr) :
    pushEntry (entryName layout e) l k number pAlias = l.pushUnder k c number pAlias := by
  have hurl : "URL".toList <:+: entryName layout e ↔ .url = c := mark_infix_iff .url c he
  have hkeyword : "Keyword".toList <:+: entryName layout e ↔ .keyword = c :=
    mark_infix_iff .keyword c he
  have happ : "App".toList <:+: entryName layout e ↔ .app = c := mark_infix_iff .app c he
  simp only [pushEntry, hurl, hkeyword, happ]
  cases c with
  | url => rfl
  | keyword => rfl
  | app => rfl

theorem lawful : Lawful policies := by
  refine ⟨by decide +kernel, ?_, ?_⟩
  · intro role n hhas h
    change layout.nextInsNum role ++ layout.print n = layout.halfAdded at h
    have hsome : role ≠ .single := fun hsingle => absurd (hhas hsingle) (by decide)
    have hne : layout.nextInsNum role ≠ [] := by
      revert hsome
      rcases role with _ | (_ | _ | _) | _ <;> decide +kernel
    have hhead := congrArg List.head? h
    rw [List.head?_append_of_ne_nil _ hne] at hhead
    revert hhead hsome
    rcases role with _ | (_ | _ | _) | _ <;> decide +kernel
  · intro e st hhas _ hupper _ _
    have hnumber : (entryFolder layout e).getUint32 "InstanceNumber".toList = some e.number :=
      getUint32_InsNum (y := layout) (by decide) e
    have halias : (entryFolder layout e).getString "Alias".toList = some e.Alias :=
      getString_Alias (y := layout) e
    change (scanFolder st (entryName layout e) (entryFolder layout e)).map Scan.lists =
      place true st.lists e
    have hmark := policy_infix_iff e
    unfold scanFolder
    cases hrole : e.role with
    | parent =>
      simp only [hnumber, halias, Option.getD_some, if_pos (hmark.mpr hrole), place, hrole,
        Option.map_some]
    | single => exact absurd (hhas hrole) (by decide)
    | child c =>
      have hne := hupper ⟨c, hrole⟩
      have hread : (entryFolder layout e).getUint32 "UpperInstanceNumber".toList =
          some e.upper := getUint32_Upper_InsNum (y := layout) (by decide) (by decide) hne
      have hnot : ¬ "InternetAccessPolicy".toList <:+: entryName layout e := by
        rw [hmark, hrole]
        simp
      simp only [hnumber, halias, if_neg hnot, place, hrole, hread, Option.getD_some,
        if_neg hne, pushEntry_eq c hrole]
      cases parentIndex st.lists.parents e.upper with
      | none => rfl
      | some k => rfl

section Restarts

open RoutingRegistry (Forward routing)

/-- The root folder before the first start of the two components. -/
def Unopened (cosa : Folder) : Prop :=
  (cosa.GetFolder routing.layout.folder = none ∧
    cosa.GetFolder routing.layout.halfAdded = none) ∧
  cosa.GetFolder policies.layout.folder = none ∧ cosa.GetFolder policies.layout.halfAdded = none

/-- In every run whose calls meet their condition a restart of the routers or of the policies
restores, in every state, what was recorded and not deleted. -/
theorem registries_restore {cosa : Folder} {routers : RoutingRegistry.Backend}
    {calls : List (Call Forward RoutingRegistry.Backend)} {security : Backend}
    {calls' : List (Call SubTable Backend)} (hcosa : Unopened cosa)
    (hlegal : StepsMeet (step routing) (Legal routing) (start routing cosa routers) calls)
    (hlegal' : StepsMeet (step policies) (Legal policies) (start policies cosa security) calls')
    (hok : StepsMeet (step routing) (Ok routing) (start routing cosa routers) calls)
    (hok' : StepsMeet (step policies) (Ok policies) (start policies cosa security) calls') :
    (Restores routing (start routing cosa routers) ∧
      Throughout (step routing) (Restores routing) (start routing cosa routers) calls) ∧
    Restores policies (start policies cosa security) ∧
      Throughout (step policies) (Restores policies) (start policies cosa security) calls' := by
  obtain ⟨⟨hrouter, hrouterHa⟩, hpolicy, hpolicyHa⟩ := hcosa
  constructor
  · exact restores_throughout RoutingRegistry.lawful (clear_start rfl) hrouter hrouterHa hlegal hok
  · exact restores_throughout lawful (clear_start rfl) hpolicy hpolicyHa hlegal' hok'

def oneRouter : RoutingRegistry.Backend := ⟨(1, "lan".toList), [], [], []⟩

def noPolicy : Backend := ⟨[], fun _ _ => []⟩

def v4Route : HalfAdded.Entry Forward := ⟨.child .ipv4, 1, 11, "first".toList⟩

def policyEntry : HalfAdded.Entry SubTable := ⟨.parent, 0, 1, "office".toList⟩

theorem registries_restore_route :
    (Restores routing (start routing Folder.empty oneRouter) ∧
      Throughout (step routing) (Restores routing) (start routing Folder.empty oneRouter)
        [.add v4Route 12]) ∧
    Restores policies (start policies Folder.empty noPolicy) ∧
      Throughout (step policies) (Restores policies) (start policies Folder.empty noPolicy)
        [.add policyEntry 2] := by
  apply registries_restore
  · exact ⟨⟨rfl, rfl⟩, rfl, rfl⟩
  · refine ⟨⟨fun _ hx => absurd hx List.not_mem_nil, fun h => absurd h (by decide),
      fun h => absurd ⟨_, rfl⟩ h, fun _ => ?_, by decide, by decide⟩, fun _ _ => trivial⟩
    decide +kernel
  · refine ⟨⟨fun _ hx => absurd hx List.not_mem_nil, fun h => absurd h (by decide),
      fun _ => rfl, fun h => ?_, by decide, by decide⟩, fun _ _ => trivial⟩
    obtain ⟨c, hc⟩ := h
    cases hc
  · refine ⟨⟨rfl, by simp [perform, start], ?_, ?_, ?_⟩, fun _ _ => trivial⟩
    · intro e he
      obtain rfl : e = v4Route := by simpa [perform, start] using he
      decide +kernel
    · intro e he _
      obtain rfl : e = v4Route := by simpa [perform, start] using he
      decide
    · have hmem : (1 : ULONG) ∈ numbers (loaded routing
          (perform routing (start routing Folder.empty oneRouter) (.add v4Route 12))) := by
        decide +kernel
      exact Or.inl ⟨hmem, trivial⟩
  · refine ⟨⟨rfl, by simp [perform, start], ?_, ?_, trivial⟩, fun _ _ => trivial⟩
    · intro e he
      obtain rfl : e = policyEntry := by simpa [perform, start] using he
      decide +kernel
    · intro e he hchild
      obtain rfl : e = policyEntry := by simpa [perform, start] using he
      obtain ⟨c, hc⟩ := hchild
      cases hc

def farRouter : HalfAdded.Entry Forward := ⟨.parent, 0, 11, "far".toList⟩

def farRoute : HalfAdded.Entry Forward := ⟨.child .ipv4, 11, 1, "second".toList⟩

/-- The routes 11 of router 1 and 1 of router 11 share the folder "IPv4Forward111". -/
theorem shared_route_lost : ¬ ∀ (cosa : Folder) (routers : RoutingRegistry.Backend)
    (calls : List (Call Forward RoutingRegistry.Backend)) (security : Backend)
    (calls' : List (Call SubTable Backend)), Unopened cosa →
    StepsMeet (step routing) (Legal routing) (start routing cosa routers) calls →
    StepsMeet (step policies) (Legal policies) (start policies cosa security) calls' →
    Throughout (step routing) (Restores routing) (start routing cosa routers) calls ∧
    Throughout (step policies) (Restores policies) (start policies cosa security) calls' := by
  intro hall
  have hlegal : StepsMeet (step routing) (Legal routing) (start routing Folder.empty oneRouter)
      [.add v4Route 12, .add farRouter 12, .add farRoute 2] := by
    refine ⟨⟨fun _ hx => absurd hx List.not_mem_nil, fun h => absurd h (by decide),
      fun h => absurd ⟨_, rfl⟩ h, fun _ => by decide +kernel, by decide, by decide⟩, ?_⟩
    intro t ht
    obtain rfl := Option.some.inj ht
    refine ⟨⟨fun x hx => ?_, fun h => absurd h (by decide), fun _ => rfl, fun h => ?_, by decide,
      by decide⟩, ?_⟩
    · obtain rfl : x = v4Route := by simpa [perform, start] using hx
      decide
    · obtain ⟨c, hc⟩ := h
      cases hc
    intro t ht
    obtain rfl := Option.some.inj ht
    refine ⟨⟨fun x hx => ?_, fun h => absurd h (by decide), fun h => absurd ⟨_, rfl⟩ h,
      fun _ => by decide +kernel, by decide, by decide⟩, fun _ _ => trivial⟩
    have hx' : x = v4Route ∨ x = farRouter := by simpa [perform, start] using hx
    rcases hx' with rfl | rfl
    · decide
    · decide
  obtain ⟨⟨t, ht, -, u, hu, -, v, hv, hrestores, -⟩, -⟩ := hall Folder.empty oneRouter
    [.add v4Route 12, .add farRouter 12, .add farRoute 2] noPolicy [] ⟨⟨rfl, rfl⟩, rfl, rfl⟩
    hlegal trivial
  obtain rfl := Option.some.inj ht
  obtain rfl := Option.some.inj hu
  obtain rfl := Option.some.inj hv
  have hlength := (hrestores (.child .ipv4)).length_eq
  revert hlength
  decide +kernel

end Restarts

end CcspPandM.PolicyRegistry
