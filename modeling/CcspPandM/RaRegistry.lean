import CcspPandM.HalfAddedRuns
import CcspPandM.InitialNumbers
import CcspPandM.ParentalControlRuns

/-!
The registry of router advertisement. The committed interfaces are loaded with their
options and next numbers, the folders below "RAInterfaceHalfAdded" hold the interfaces and
options that are not committed. A restart restores both; it restores the next numbers
as long as none but 1 is recorded below an interface that is not committed.
-/
namespace CcspPandM.RaRegistry

open CString HalfAdded HalfAddedRuns InitialNumbers Registry Runs ScanText
open IpRegistry (ULONG advance nextAfter pushEntryByInsNum)

def layout : Layout Unit where
  folder := "RAInterface".toList
  halfAdded := "RAInterfaceHalfAdded".toList
  Upper_InsNum := "UpperInstanceNumber".toList
  InsNum := "InstanceNumber".toList
  Alias := "Alias".toList
  preffix role := match role with
    | .parent => "RAInterface".toList
    | .child _ => "RAOption".toList
    | .single => []
  nextInsNum role := match role with
    | .parent => "NextInstanceNumber".toList
    | .child _ => "NextOptionInstanceNum".toList
    | .single => []
  print := intText
  checks := true

def CosaRARegAddInfo (pNextInsNumName : CStr) (ulNextInsNum : ULONG) (pPreffix : CStr)
    (ulUpperInsNum : ULONG) (pAlias : CStr) (InstanceNumber : ULONG) (pPoamIrepFoRAIF : Folder) :
    Folder :=
  RegAddInfo layout pNextInsNumName ulNextInsNum pPreffix ulUpperInsNum pAlias InstanceNumber
    pPoamIrepFoRAIF

def CosaRARegDelInfo (name : CStr) (pPoamIrepFoRAIF : Folder) : Folder :=
  RegDelInfo layout name pPoamIrepFoRAIF

/-- An option without a number above it, or without any interface, ends the walk. -/
def scanFolder (st : Scan Unit) (pFolderName : CStr) (pPoamIrepFoRAIF : Folder) :
    Option (Scan Unit) :=
  let number := (pPoamIrepFoRAIF.getUint32 "InstanceNumber".toList).getD st.ulInstanceNumber
  let pAlias := (pPoamIrepFoRAIF.getString "Alias".toList).getD []
  if "RAInterface".toList <:+: pFolderName then
    some ⟨st.lists.pushParent number pAlias, number, st.ulUpperInstanceNumber⟩
  else
    let upper :=
      (pPoamIrepFoRAIF.getUint32 "UpperInstanceNumber".toList).getD st.ulUpperInstanceNumber
    if upper = 0 then none
    else
      match parentIndex st.lists.parents upper with
      | none => none
      | some k =>
        let lists := if "RAOption".toList <:+: pFolderName then
          st.lists.pushUnder k () number pAlias else st.lists
        some ⟨lists, number, upper⟩

structure BackendInterface where
  InstanceNumber : ULONG
  Alias : CStr
  options : List (ULONG × CStr)

structure OptionLoad where
  ulNextOptionInsNum : ULONG
  OptionList : List Child
  options : List (ULONG × CStr)

def loadOption (st : OptionLoad) (pRAOption : ULONG × CStr) : OptionLoad :=
  let next := st.ulNextOptionInsNum
  if 0 ≠ pRAOption.1 then
    ⟨advance next pRAOption.1, pushEntryByInsNum Child.InstanceNumber st.OptionList
      ⟨pRAOption.1, pRAOption.2, false⟩, st.options ++ [pRAOption]⟩
  else
    let pAlias := "Option".toList ++ intText next
    ⟨nextAfter next, pushEntryByInsNum Child.InstanceNumber st.OptionList ⟨next, pAlias, false⟩,
      st.options ++ [(next, pAlias)]⟩

structure Load where
  lists : Listing Unit
  backend : List BackendInterface
  failed : Bool

def numberInterface (next : ULONG) (b : BackendInterface) : ULONG × CStr × ULONG :=
  if 0 ≠ b.InstanceNumber then (b.InstanceNumber, b.Alias, advance next b.InstanceNumber)
  else (next, "Interface".toList ++ intText (nextAfter next), nextAfter next)

/-- One round of the interfaces. Where the name of the folder with the next option number
does not fit, the load is given up. -/
def loadInterface (pPoamIrepFoRAIF : Folder) (st : Load) (b : BackendInterface) : Load :=
  if st.failed then { st with backend := st.backend ++ [b] }
  else
    let numbered := numberInterface st.lists.ulNextParentInsNum b
    let failed : Bool := 32 ≤ (layout.nextInsNum (.child ()) ++ intText numbered.1).length
    let ulNextOptionInsNum := storedNext layout pPoamIrepFoRAIF (.child ()) numbered.1
    let loaded := if failed then ⟨1, [], b.options⟩
      else b.options.foldl loadOption ⟨ulNextOptionInsNum, [], []⟩
    let pRAInterface : Parent Unit :=
      { InstanceNumber := numbered.1
        Alias := numbered.2.1
        bNew := false
        list := fun _ => loaded.OptionList
        ulNextInsNum := fun _ => loaded.ulNextOptionInsNum }
    let InterfaceList := pushEntryByInsNum Parent.InstanceNumber st.lists.parents pRAInterface
    { lists := ⟨InterfaceList, [], numbered.2.2, 1⟩
      backend := st.backend ++ [⟨numbered.1, numbered.2.1, loaded.options⟩]
      failed := failed }

def loadInterfaces (pPoamIrepFoRAIF : Folder) (backend : List BackendInterface) : Load :=
  backend.foldl (loadInterface pPoamIrepFoRAIF)
    ⟨⟨[], [], storedNext layout pPoamIrepFoRAIF .parent 0, 1⟩, [], false⟩

def ra : Component Unit (List BackendInterface) where
  layout := layout
  singles := false
  skips := false
  load := fun pPoamIrepFoRAIF backend =>
    let loaded := loadInterfaces pPoamIrepFoRAIF backend
    (loaded.lists, loaded.backend)
  whole := fun pPoamIrepFoRAIF backend => !(loadInterfaces pPoamIrepFoRAIF backend).failed
  scanFolder := scanFolder

def CosaRaRegGetInfo (pPoamIrepFoRAHA : Folder) (l : Listing Unit) : Listing Unit :=
  RegGetInfo ra pPoamIrepFoRAHA l

def CosaRAInitialize (backend : List BackendInterface) (pPoamIrepFoCOSA : Folder) :
    Listing Unit × List BackendInterface × Folder :=
  Initialize ra backend pPoamIrepFoCOSA

section Lawful

theorem interface_infix_iff {e : Entry Unit} (hhas : Has ra e.role)
    (hupper : e.upper.toNat < 2 ^ 31) (hnumber : e.number.toNat < 2 ^ 31) :
    "RAInterface".toList <:+: entryName layout e ↔ e.role = .parent := by
  have hmark : "RAInterface".toList = "RAInterfac".toList ++ ['e'] := by decide +kernel
  have hname := infix_entryName_iff (x := "RAInterfac".toList) (e := e) (y := layout)
    (c := 'e') rfl (intText_of_lt hupper) (intText_of_lt hnumber)
  rw [hmark, hname, ← hmark]
  revert hhas
  generalize e.role = r
  rcases r with _ | ⟨⟨⟩⟩ | _
  · exact fun _ => by decide +kernel
  · exact fun _ => by decide +kernel
  · exact fun hhas => absurd (hhas rfl) (by decide)

theorem contains_option {e : Entry Unit} (he : e.role = .child ()) :
    "RAOption".toList <:+: entryName layout e := by
  rw [entryName, he, List.append_assoc]
  exact (List.prefix_append _ _).isInfix

section Scanning

variable {st : Scan Unit} {name pAlias : CStr} {folder : Folder} {number : ULONG}

theorem scanFolder_interface (hmark : "RAInterface".toList <:+: name)
    (hnumber : folder.getUint32 "InstanceNumber".toList = some number)
    (halias : folder.getString "Alias".toList = some pAlias) :
    scanFolder st name folder =
      some ⟨st.lists.pushParent number pAlias, number, st.ulUpperInstanceNumber⟩ := by
  unfold scanFolder
  rw [hnumber, halias]
  exact if_pos hmark

theorem scanFolder_option {upper : ULONG} (hnot : ¬ "RAInterface".toList <:+: name)
    (hmark : "RAOption".toList <:+: name)
    (hnumber : folder.getUint32 "InstanceNumber".toList = some number)
    (halias : folder.getString "Alias".toList = some pAlias)
    (hupper : folder.getUint32 "UpperInstanceNumber".toList = some upper) (hne : upper ≠ 0) :
    scanFolder st name folder = (parentIndex st.lists.parents upper).map
      fun k => ⟨st.lists.pushUnder k () number pAlias, number, upper⟩ := by
  unfold scanFolder
  simp only [hnumber, halias, hupper, Option.getD_some, if_neg hnot, if_neg hne, if_pos hmark]
  cases parentIndex st.lists.parents upper with
  | none => rfl
  | some k => rfl

end Scanning

theorem lawful : Lawful ra := by
  refine ⟨by decide +kernel, ?_, ?_⟩
  · intro role n hhas h
    change layout.nextInsNum role ++ layout.print n = layout.halfAdded at h
    have hsome : role ≠ .single := fun hsingle => absurd (hhas hsingle) (by decide)
    have hne : layout.nextInsNum role ≠ [] := by
      revert hsome
      rcases role with _ | ⟨⟨⟩⟩ | _ <;> decide +kernel
    have hhead := congrArg List.head? h
    rw [List.head?_append_of_ne_nil _ hne] at hhead
    revert hhead hsome
    rcases role with _ | ⟨⟨⟩⟩ | _ <;> decide +kernel
  · intro e st hhas _ hupper hsmall hsmall'
    have hnumber : (entryFolder layout e).getUint32 "InstanceNumber".toList = some e.number :=
      getUint32_InsNum (y := layout) (by decide) e
    have halias : (entryFolder layout e).getString "Alias".toList = some e.Alias :=
      getString_Alias (y := layout) e
    change (scanFolder st (entryName layout e) (entryFolder layout e)).map Scan.lists =
      place false st.lists e
    have hmark := interface_infix_iff hhas hsmall hsmall'
    cases hrole : e.role with
    | parent =>
      rw [scanFolder_interface (hmark.mpr hrole) hnumber halias]
      simp only [place, hrole, Option.map_some]
    | single => exact absurd (hhas hrole) (by decide)
    | child c =>
      have hne := hupper ⟨c, hrole⟩
      have hread : (entryFolder layout e).getUint32 "UpperInstanceNumber".toList =
          some e.upper := getUint32_Upper_InsNum (y := layout) (by decide) (by decide) hne
      have hnot : ¬ "RAInterface".toList <:+: entryName layout e := by
        rw [hmark, hrole]
        simp
      rw [scanFolder_option hnot (contains_option hrole) hnumber halias hread hne]
      simp only [place, hrole]
      cases parentIndex st.lists.parents e.upper with
      | none => rfl
      | some k => rfl

theorem nextsApart : NextsApart ra := by
  refine ⟨by decide +kernel, ?_, ?_⟩
  · intro role hhas
    have hsome : role ≠ .single := fun hsingle => absurd (hhas hsingle) (by decide)
    change layout.nextInsNum role ≠ []
    revert hsome
    rcases role with _ | ⟨⟨⟩⟩ | _ <;> decide +kernel
  · intro role n role' n' hhas hhas' h
    have hsome : role ≠ .single := fun hsingle => absurd (hhas hsingle) (by decide)
    have hsome' : role' ≠ .single := fun hsingle => absurd (hhas' hsingle) (by decide)
    change layout.nextInsNum role ++ intText n = layout.nextInsNum role' ++ intText n' at h
    have hlong : ∀ r : Role Unit, r ≠ .single → 9 ≤ (layout.nextInsNum r).length := by
      intro r hr
      revert hr
      rcases r with _ | ⟨⟨⟩⟩ | _ <;> decide +kernel
    have htake := congrArg (List.take 9) h
    rw [List.take_append_of_le_length (hlong role hsome),
      List.take_append_of_le_length (hlong role' hsome')] at htake
    have hsame : role = role' := by
      revert htake hsome hsome'
      rcases role with _ | ⟨⟨⟩⟩ | _ <;> rcases role' with _ | ⟨⟨⟩⟩ | _ <;> decide +kernel
    subst hsame
    have hnumber := List.append_cancel_left h
    exact ⟨rfl, ParentalControlRuns.intText_injective hnumber⟩

end Lawful

section Loading

def backendItems (role : Role Unit) (backend : List BackendInterface) : List (Entry Unit × Bool) :=
  match role with
  | .parent => backend.map fun b => (⟨.parent, 0, b.InstanceNumber, b.Alias⟩, false)
  | .child c => backend.flatMap fun b =>
      b.options.map fun x => (⟨.child c, b.InstanceNumber, x.1, x.2⟩, false)
  | .single => []

def optionChild (x : ULONG × CStr) : Child := ⟨x.1, x.2, false⟩

theorem loadOption_spec (st : OptionLoad) (x : ULONG × CStr)
    (h : st.OptionList.Perm (st.options.map optionChild)) :
    (loadOption st x).OptionList.Perm ((loadOption st x).options.map optionChild) ∧
      (loadOption st x).ulNextOptionInsNum = counterStep st.ulNextOptionInsNum x.1 := by
  have hpush : ∀ y : ULONG × CStr, (pushEntryByInsNum Child.InstanceNumber st.OptionList
      (optionChild y)).Perm ((st.options ++ [y]).map optionChild) := by
    intro y
    rw [List.map_append]
    exact ((IpRegistry.pushEntry_perm _ _ _).trans (h.cons _)).trans
      (List.perm_append_singleton _ _).symm
  rw [loadOption, counterStep]
  by_cases hx : x.1 = 0
  · rw [if_neg (by simp [hx]), if_pos hx]
    exact ⟨hpush (st.ulNextOptionInsNum, _), rfl⟩
  · rw [if_pos (fun h => hx h.symm), if_neg hx]
    exact ⟨hpush _, rfl⟩

theorem loadOptions_spec (options : List (ULONG × CStr)) (st : OptionLoad)
    (h : st.OptionList.Perm (st.options.map optionChild)) :
    (options.foldl loadOption st).OptionList.Perm
        ((options.foldl loadOption st).options.map optionChild) ∧
      (options.foldl loadOption st).ulNextOptionInsNum =
        counter st.ulNextOptionInsNum (options.map Prod.fst) := by
  induction options generalizing st with
  | nil => exact ⟨h, rfl⟩
  | cons x options ih =>
    obtain ⟨hperm, hnext⟩ := loadOption_spec st x h
    have hrest := ih (loadOption st x) hperm
    rw [hnext] at hrest
    exact hrest

theorem failed_of_failed {fo : Folder} {backend : List BackendInterface} {st : Load}
    (h : st.failed = true) : (backend.foldl (loadInterface fo) st).failed = true := by
  induction backend generalizing st with
  | nil => exact h
  | cons b backend ih =>
    apply ih
    simp only [loadInterface, h, if_true]

def committedNext (fo : Folder) (n : ULONG) (b : BackendInterface) : ULONG × Bool × ULONG :=
  (n, false, counter (storedNext layout fo (.child ()) n) (b.options.map Prod.fst))

theorem numberInterface_spec (next : ULONG) (b : BackendInterface) :
    (numberInterface next b).1 = (if b.InstanceNumber = 0 then next else b.InstanceNumber) ∧
      (numberInterface next b).2.2 = counterStep next b.InstanceNumber := by
  rw [numberInterface, counterStep]
  by_cases hb : b.InstanceNumber = 0
  · rw [if_neg (by simp [hb]), if_pos hb, if_pos hb]
    exact ⟨rfl, rfl⟩
  · rw [if_pos (fun h => hb h.symm), if_neg hb, if_neg hb]
    exact ⟨rfl, rfl⟩

theorem loadInterface_spec (fo : Folder) (st : Load) (b : BackendInterface)
    (hst : st.failed = false) (h : (loadInterface fo st b).failed = false)
    (hlisted : ∀ role, (items role st.lists).Perm (backendItems role st.backend)) :
    (∀ role, (items role (loadInterface fo st b).lists).Perm
        (backendItems role (loadInterface fo st b).backend)) ∧
      (loadInterface fo st b).lists.ulNextParentInsNum =
        counterStep st.lists.ulNextParentInsNum b.InstanceNumber ∧
      (nexts () (loadInterface fo st b).lists).Perm (committedNext fo
        (if b.InstanceNumber = 0 then st.lists.ulNextParentInsNum else b.InstanceNumber) b ::
          nexts () st.lists) := by
  obtain ⟨hnumber, hnext⟩ := numberInterface_spec st.lists.ulNextParentInsNum b
  rw [← hnumber, ← hnext]
  generalize hnumbered : numberInterface st.lists.ulNextParentInsNum b = numbered at h ⊢
  obtain ⟨number, pAlias, next⟩ := numbered
  simp only [loadInterface, hst, hnumbered, Bool.false_eq_true, if_false] at h ⊢
  simp only [h, Bool.false_eq_true, if_false]
  obtain ⟨hoptions, hcounter⟩ := loadOptions_spec b.options
    ⟨storedNext layout fo (.child ()) number, [], []⟩ (List.Perm.refl _)
  generalize b.options.foldl loadOption ⟨storedNext layout fo (.child ()) number, [], []⟩ =
    loaded at hoptions hcounter ⊢
  have hpush := IpRegistry.pushEntry_perm Parent.InstanceNumber st.lists.parents
    ⟨number, pAlias, false, fun _ : Unit => loaded.OptionList,
      fun _ => loaded.ulNextOptionInsNum⟩
  refine ⟨fun role => ?_, trivial, ?_⟩
  · cases role with
    | parent =>
      have hparents := hlisted .parent
      simp only [items, backendItems, List.map_append, List.map_cons, List.map_nil] at hparents ⊢
      exact ((hpush.map _).trans (hparents.cons _)).trans (List.perm_append_singleton _ _).symm
    | child c =>
      have hchildren := hlisted (.child c)
      simp only [items, backendItems, List.flatMap_append, List.flatMap_cons, List.flatMap_nil,
        List.append_nil] at hchildren ⊢
      apply (hpush.flatMap_right _).trans
      rw [List.flatMap_cons]
      have hself := hoptions.map fun a : Child =>
        ((⟨.child c, number, a.InstanceNumber, a.Alias⟩, a.bNew) : Entry Unit × Bool)
      rw [List.map_map] at hself
      exact (hself.append hchildren).trans List.perm_append_comm
    | single => exact List.Perm.refl _
  · have hmap := hpush.map fun p : Parent Unit => (p.InstanceNumber, p.bNew, p.ulNextInsNum ())
    have hself : committedNext fo number b = (number, false, loaded.ulNextOptionInsNum) := by
      rw [committedNext, hcounter]
    rw [hself]
    exact hmap

theorem loadInterfaces_spec (fo : Folder) (backend : List BackendInterface) (st : Load)
    (hst : st.failed = false) (h : (backend.foldl (loadInterface fo) st).failed = false)
    (hlisted : ∀ role, (items role st.lists).Perm (backendItems role st.backend)) :
    (∀ role, (items role (backend.foldl (loadInterface fo) st).lists).Perm
        (backendItems role (backend.foldl (loadInterface fo) st).backend)) ∧
      (backend.foldl (loadInterface fo) st).lists.ulNextParentInsNum =
        counter st.lists.ulNextParentInsNum (backend.map BackendInterface.InstanceNumber) ∧
      (nexts () (backend.foldl (loadInterface fo) st).lists).Perm (List.zipWith (committedNext fo)
        (InitialNumbers.numbers st.lists.ulNextParentInsNum
          (backend.map BackendInterface.InstanceNumber)) backend ++ nexts () st.lists) := by
  induction backend generalizing st with
  | nil => exact ⟨hlisted, rfl, List.Perm.refl _⟩
  | cons b backend ih =>
    rw [List.foldl_cons] at h ⊢
    have hround : (loadInterface fo st b).failed = false := by
      cases hfailed : (loadInterface fo st b).failed with
      | false => rfl
      | true =>
        rw [failed_of_failed hfailed] at h
        exact h
    obtain ⟨hlisted', hnext, hnexts⟩ := loadInterface_spec fo st b hst hround hlisted
    obtain ⟨hall, hcounter, hlater⟩ := ih (loadInterface fo st b) hround h hlisted'
    rw [hnext] at hcounter hlater
    refine ⟨hall, hcounter, ?_⟩
    rw [List.map_cons, InitialNumbers.numbers, List.zipWith_cons_cons]
    exact (hlater.trans (hnexts.append_left _)).trans List.perm_middle

end Loading

section Restarts

abbrev Backend := List BackendInterface

/-- The number of each committed interface, and its next option number: what was recorded last,
moved behind the options of the backend. -/
def committedNexts (t : Tracked Unit Backend) : List (ULONG × Bool × ULONG) :=
  List.zipWith (fun n (b : BackendInterface) =>
      (n, false, counter (t.next (.child ()) n) (b.options.map Prod.fst)))
    (InitialNumbers.numbers (t.next .parent 0) (t.backend.map BackendInterface.InstanceNumber))
    t.backend

structure RaRestores (t : Tracked Unit Backend) : Prop where
  entries : Restores ra t
  committed : ∀ role, (items role (loaded ra t)).Perm
    (backendItems role (CosaRAInitialize t.backend t.cosa).2.1)
  nextInterface : (CosaRAInitialize t.backend t.cosa).1.ulNextParentInsNum =
    counter (t.next .parent 0) (t.backend.map BackendInterface.InstanceNumber)
  nextOptions : (nexts () (CosaRAInitialize t.backend t.cosa).1).Perm (committedNexts t ++
    (parents t.entries).map fun n => (n, true, t.next (.child ()) n))

/-- The condition on a call: what it leaves recorded is clear, and below an interface that is
not committed no next option number but 1 is recorded. -/
def RaOk (t : Tracked Unit Backend) (c : Call Unit Backend) : Prop :=
  Ok ra t c ∧ ∀ n ∈ parents (perform ra t c).entries, (perform ra t c).next (.child ()) n = 1

structure RaKept (t : Tracked Unit Backend) : Prop where
  kept : Kept ra t
  recorded : NextsKept ra t
  ones : ∀ n ∈ parents t.entries, t.next (.child ()) n = 1

theorem RaKept.restores {t : Tracked Unit Backend} (h : RaKept t) : RaRestores t := by
  obtain ⟨fo, hfo, hnext⟩ := h.recorded
  let opened' := fo.AddFolder layout.halfAdded id
  have hopened : opened ra t = opened' := by
    rw [opened]
    exact congrArg (fun fo : Option Folder =>
      (fo.getD Folder.empty).AddFolder layout.halfAdded id) hfo
  have hstored : ∀ role upper, Has ra role →
      storedNext layout opened' role upper = t.next role upper := fun role upper hhas =>
    (storedNext_halfAdded lawful nextsApart fo id role upper hhas).trans (hnext role upper hhas)
  have hchild : ∀ n, storedNext layout opened' (.child ()) n = t.next (.child ()) n :=
    fun n => hstored _ n (fun hrole => absurd hrole (by decide))
  have hparent : storedNext layout opened' .parent 0 = t.next .parent 0 :=
    hstored _ 0 (fun hrole => absurd hrole (by decide))
  have hwhole : (loadInterfaces opened' t.backend).failed = false := by
    have hclear := h.kept.clear.whole
    rw [hopened] at hclear
    simpa [ra] using hclear
  have hloaded : loaded ra t = (loadInterfaces opened' t.backend).lists := by
    rw [loaded, hopened]
    rfl
  obtain ⟨hlisted, hcounter, hnexts⟩ := loadInterfaces_spec opened' t.backend
    ⟨⟨[], [], storedNext layout opened' .parent 0, 1⟩, [], false⟩ rfl hwhole
    (fun role => by cases role <;> exact List.Perm.refl _)
  have hbackend : (CosaRAInitialize t.backend t.cosa).2.1 =
      (loadInterfaces opened' t.backend).backend := by
    obtain ⟨fo', ha, hfo', -, -⟩ := h.kept.folders
    obtain rfl : fo = fo' := Option.some.inj (hfo.symm.trans hfo')
    simp only [CosaRAInitialize, Initialize, h.kept.root, hfo, Option.getD_some]
    rfl
  have hstart := Initialize_eq lawful h.kept
  obtain ⟨hplaced, hsame⟩ := nexts_placeAll h.kept.clear.attached () (loaded ra t)
    (fun n => Iff.rfl)
  refine ⟨h.kept.restores lawful, ?_, ?_, ?_⟩
  · rw [hbackend, hloaded]
    exact hlisted
  · rw [CosaRAInitialize, hstart]
    apply hsame.trans
    rw [hloaded, ← hparent]
    exact hcounter
  · rw [CosaRAInitialize, hstart]
    apply hplaced.trans
    have hones : (parents t.entries).map (fun n => (n, true, (1 : ULONG))) =
        (parents t.entries).map fun n => (n, true, t.next (.child ()) n) := by
      apply List.map_congr_left
      intro n hn
      rw [h.ones n hn]
    have hcommitted : committedNexts t = List.zipWith (committedNext opened')
        (InitialNumbers.numbers (storedNext layout opened' .parent 0)
          (t.backend.map BackendInterface.InstanceNumber)) t.backend := by
      rw [committedNexts, hparent]
      congr 1
      funext n b
      rw [committedNext, hchild]
    rw [hones, hcommitted, hloaded]
    have hnil : nexts () (⟨[], [], storedNext layout opened' .parent 0, 1⟩ : Listing Unit) = [] :=
      rfl
    rw [hnil, List.append_nil] at hnexts
    exact hnexts.append_right _

theorem raKept_step {t : Tracked Unit Backend} {c : Call Unit Backend} (h : RaKept t)
    (hlegal : Legal ra t c) (hok : RaOk t c) : ∃ t', step ra t c = some t' ∧ RaKept t' := by
  obtain ⟨t', ht', hkept⟩ := kept_step lawful h.kept hlegal hok.1
  obtain rfl := Option.some.inj ht'
  exact ⟨_, rfl, hkept, nextsKept_step lawful nextsApart h.kept.root h.recorded hlegal hok.1, hok.2⟩

/-- In every run whose calls meet their condition a restart restores, in every state, the
entries that were recorded and not deleted, the committed ones and the next numbers. -/
theorem ra_restores {cosa : Folder} {backend : Backend} {calls : List (Call Unit Backend)}
    (hfolder : cosa.GetFolder layout.folder = none)
    (hroot : cosa.GetFolder layout.halfAdded = none)
    (hlegal : StepsMeet (step ra) (Legal ra) (start ra cosa backend) calls)
    (hclear : Clear ra (start ra cosa backend))
    (hok : StepsMeet (step ra) RaOk (start ra cosa backend) calls) :
    RaRestores (start ra cosa backend) ∧
      Throughout (step ra) RaRestores (start ra cosa backend) calls := by
  have hkept : RaKept (start ra cosa backend) :=
    ⟨kept_start lawful hclear hfolder hroot, nextsKept_start lawful nextsApart hfolder hroot,
      fun n hn => absurd hn List.not_mem_nil⟩
  refine ⟨hkept.restores, ?_⟩
  apply @throughout_of_stepsMeet _ _ (step ra) _ (fun t c => Legal ra t c ∧ RaOk t c) RaKept
    (fun t ht => ht.restores) (fun t c ht hc => raKept_step ht hc.1 hc.2) _ _ hkept
  exact StepsMeet.and (step ra) hlegal hok

def lanInterface : BackendInterface := ⟨1, "lan".toList, []⟩

def wanInterface : BackendInterface := ⟨11, "wan".toList, []⟩

def lanOption : Entry Unit := ⟨.child (), 1, 11, "first".toList⟩

def wanOption : Entry Unit := ⟨.child (), 11, 1, "second".toList⟩

theorem ra_restores_option : RaRestores (start ra Folder.empty [lanInterface]) ∧
    Throughout (step ra) RaRestores (start ra Folder.empty [lanInterface]) [.add lanOption 12] := by
  apply ra_restores rfl rfl
  · refine ⟨⟨fun _ hx => absurd hx List.not_mem_nil, fun h => absurd h (by decide),
      fun h => absurd ⟨_, rfl⟩ h, fun _ => by decide +kernel, by decide, by decide⟩,
      fun _ _ => trivial⟩
  · apply clear_start
    decide +kernel
  · refine ⟨⟨⟨by decide +kernel, by simp [perform, start], ?_, ?_, ?_⟩, ?_⟩, fun _ _ => trivial⟩
    · intro e he
      obtain rfl : e = lanOption := by simpa [perform, start] using he
      decide +kernel
    · intro e he _
      obtain rfl : e = lanOption := by simpa [perform, start] using he
      decide
    · have hmem : (1 : ULONG) ∈ numbers (loaded ra
          (perform ra (start ra Folder.empty [lanInterface]) (.add lanOption 12))) := by
        decide +kernel
      exact Or.inl ⟨hmem, trivial⟩
    · exact fun n hn => absurd hn List.not_mem_nil

/-- The options 11 of interface 1 and 1 of interface 11 share the folder "RAOption111". -/
theorem shared_option_lost : ¬ ∀ (cosa : Folder) (backend : Backend)
    (calls : List (Call Unit Backend)), cosa.GetFolder layout.folder = none →
    cosa.GetFolder layout.halfAdded = none →
    StepsMeet (step ra) (Legal ra) (start ra cosa backend) calls →
    Throughout (step ra) RaRestores (start ra cosa backend) calls := by
  intro hall
  have hlegal : StepsMeet (step ra) (Legal ra) (start ra Folder.empty [lanInterface, wanInterface])
      [.add lanOption 12, .add wanOption 2] := by
    refine ⟨⟨fun _ hx => absurd hx List.not_mem_nil, fun h => absurd h (by decide),
      fun h => absurd ⟨_, rfl⟩ h, fun _ => by decide +kernel, by decide, by decide⟩, ?_⟩
    intro t ht
    obtain rfl := Option.some.inj ht
    refine ⟨⟨fun x hx => ?_, fun h => absurd h (by decide), fun h => absurd ⟨_, rfl⟩ h,
      fun _ => by decide +kernel, by decide, by decide⟩, fun _ _ => trivial⟩
    obtain rfl : x = lanOption := by simpa [perform, start] using hx
    decide
  obtain ⟨t, ht, -, u, hu, hrestores, -⟩ := hall Folder.empty [lanInterface, wanInterface]
    [.add lanOption 12, .add wanOption 2] rfl rfl hlegal
  obtain rfl := Option.some.inj ht
  obtain rfl := Option.some.inj hu
  have hlength := (hrestores.entries (.child ())).length_eq
  revert hlength
  decide +kernel

end Restarts

end CcspPandM.RaRegistry
