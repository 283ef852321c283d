import CcspPandM.HalfAdded
import CcspPandM.IpRegistryRuns

/-!
The registry of a component with half-added entries. Recording an entry writes the
next number of its table and the folder of the entry, deleting it removes the folder,
and a restart walks the folders. As long as the names stay different and every child has
its parent before it, a restart restores what was recorded and not deleted.
-/
namespace CcspPandM.HalfAddedRuns

open CString HalfAdded IpRegistry KeyedList Registry Runs

/-- The names a component gives its folders and records. Where it checks the printed
names, one that does not fit ends the call. -/
structure Layout (C : Type) where
  folder : CStr
  halfAdded : CStr
  Upper_InsNum : CStr
  InsNum : CStr
  Alias : CStr
  preffix : Role C → CStr
  nextInsNum : Role C → CStr
  print : ULONG → CStr
  checks : Bool

section Recording

variable {C : Type} (y : Layout C)

def entryName (e : Entry C) : CStr := y.preffix e.role ++ y.print e.upper ++ y.print e.number

def nextFolder (e : Entry C) : CStr := y.nextInsNum e.role ++ y.print e.upper

def recordEntry (ulUpperInsNum : ULONG) (pAlias : CStr) (InstanceNumber : ULONG) (fo : Folder) :
    Folder :=
  let upper := if 0 ≠ ulUpperInsNum then
    fo.AddRecord y.Upper_InsNum (.uint32 ulUpperInsNum) else fo
  (upper.AddRecord y.InsNum (.uint32 InstanceNumber)).AddRecord y.Alias (.string pAlias)

def RegAddInfo (pNextInsNumName : CStr) (ulNextInsNum : ULONG) (pPreffix : CStr)
    (ulUpperInsNum : ULONG) (pAlias : CStr) (InstanceNumber : ULONG) (pPoamIrepFo : Folder) :
    Folder :=
  let nextName := pNextInsNumName ++ y.print ulUpperInsNum
  let name := pPreffix ++ y.print ulUpperInsNum ++ y.print InstanceNumber
  if y.checks ∧ 32 ≤ nextName.length then pPoamIrepFo
  else
    let next := pPoamIrepFo.AddFolder (folderName nextName) fun fo =>
      (fo.DelRecord pNextInsNumName).AddRecord pNextInsNumName (.uint32 ulNextInsNum)
    if y.checks ∧ 32 ≤ name.length then next
    else next.AddFolder y.halfAdded fun ha =>
      ha.AddFolder (folderName name) (recordEntry y ulUpperInsNum pAlias InstanceNumber)

def RegDelInfo (name : CStr) (pPoamIrepFo : Folder) : Folder :=
  pPoamIrepFo.AddFolder y.halfAdded fun ha => ha.DelFolder name

def entryFolder (e : Entry C) : Folder := recordEntry y e.upper e.Alias e.number Folder.empty

end Recording

variable {fo ha : Folder}

section Reading

variable {C : Type} {y : Layout C}

theorem getUint32_InsNum (h : y.InsNum ≠ y.Alias) (e : Entry C) :
    (entryFolder y e).getUint32 y.InsNum = some e.number := by
  simp only [Folder.getUint32, entryFolder, recordEntry, Folder.GetRecord_AddRecord, if_neg h,
    if_true]

theorem getString_Alias (e : Entry C) :
    (entryFolder y e).getString y.Alias = some e.Alias := by
  simp only [Folder.getString, entryFolder, recordEntry, Folder.GetRecord_AddRecord, if_true]

theorem getUint32_Upper_InsNum (hnumber : y.Upper_InsNum ≠ y.InsNum)
    (halias : y.Upper_InsNum ≠ y.Alias) {e : Entry C} (h : e.upper ≠ 0) :
    (entryFolder y e).getUint32 y.Upper_InsNum = some e.upper := by
  simp only [Folder.getUint32, entryFolder, recordEntry, if_pos h.symm,
    Folder.GetRecord_AddRecord, if_neg halias, if_neg hnumber, if_true]

theorem infix_entryName_iff {x : CStr} {c : Char} (hc : c.isDigit = false) {e : Entry C}
    (hupper : y.print e.upper = decimal e.upper.toNat)
    (hnumber : y.print e.number = decimal e.number.toNat) :
    x ++ [c] <:+: entryName y e ↔ x ++ [c] <:+: y.preffix e.role := by
  rw [entryName, hupper, hnumber, List.append_assoc]
  exact IpRegistryRuns.infix_append_digits_iff hc (IpRegistryRuns.digits_name _ _)

theorem folders_RegAddInfo {e : Entry C} (n : ULONG)
    (hha : fo.GetFolder y.halfAdded = some ha) (hne : nextFolder y e ≠ y.halfAdded)
    (hfits : (entryName y e).length < 32) (hnext : (nextFolder y e).length < 32)
    (hfresh : entryName y e ∉ ha.folders.map Prod.fst) :
    ∃ ha', (RegAddInfo y (y.nextInsNum e.role) n (y.preffix e.role) e.upper e.Alias e.number
        fo).GetFolder y.halfAdded = some ha' ∧
      ha'.folders = ha.folders ++ [(entryName y e, entryFolder y e)] := by
  have hname : folderName (y.preffix e.role ++ y.print e.upper ++ y.print e.number) =
      entryName y e := Buf.text_sprintf_s_of_lt hfits
  have hnextName : folderName (y.nextInsNum e.role ++ y.print e.upper) = nextFolder y e :=
    Buf.text_sprintf_s_of_lt hnext
  have hfirst : ¬ (y.checks ∧ 32 ≤ (y.nextInsNum e.role ++ y.print e.upper).length) :=
    fun hlong => absurd hnext (Nat.not_lt.mpr hlong.2)
  have hsecond : ¬ (y.checks ∧
      32 ≤ (y.preffix e.role ++ y.print e.upper ++ y.print e.number).length) :=
    fun hlong => absurd hfits (Nat.not_lt.mpr hlong.2)
  simp only [RegAddInfo, if_neg hfirst, if_neg hsecond]
  refine ⟨_, Folder.GetFolder_AddFolder_self _ _ _, ?_⟩
  rw [Folder.GetFolder_AddFolder, hnextName, if_neg hne.symm, hha, Option.getD_some, hname]
  exact Folder.folders_AddFolder_of_notMem _ _ _ hfresh

end Reading

section Scanning

variable {C : Type}

/-- The lists and the two numbers that keep their value when a record is missing. -/
structure Scan (C : Type) where
  lists : Listing C
  ulInstanceNumber : ULONG
  ulUpperInstanceNumber : ULONG

/-- The walk over the folders; a folder without a result ends it. -/
def scanFolders (scanFolder : Scan C → CStr → Folder → Option (Scan C)) :
    Scan C → List (CStr × Folder) → Listing C
  | st, [] => st.lists
  | st, (pFolderName, fo) :: rest =>
    match scanFolder st pFolderName fo with
    | none => st.lists
    | some st' => scanFolders scanFolder st' rest

variable [DecidableEq C]

theorem scanFolders_eq {scanFolder : Scan C → CStr → Folder → Option (Scan C)} {skips : Bool}
    {name : Entry C → CStr} {folder : Entry C → Folder} (entries : List (Entry C))
    (h : ∀ e ∈ entries, ∀ st : Scan C, (scanFolder st (name e) (folder e)).map Scan.lists =
      place skips st.lists e) (st : Scan C) :
    scanFolders scanFolder st (entries.map fun e => (name e, folder e)) =
      placeAll skips st.lists entries := by
  induction entries generalizing st with
  | nil => rfl
  | cons e entries ih =>
    have hfirst := h e (List.mem_cons_self ..) st
    rw [List.map_cons, scanFolders, placeAll, ← hfirst]
    cases hscan : scanFolder st (name e) (folder e) with
    | none => rfl
    | some st' => exact ih (fun x hx => h x (List.mem_cons_of_mem _ hx)) st'

end Scanning

/-- A component: its names, whether it has a list beside the parents, the load of its
committed entries, which may be numbered and given back to the backend, whether the load
comes to its end, and what the walk does with one folder. -/
structure Component (C B : Type) where
  layout : Layout C
  singles : Bool
  skips : Bool
  load : Folder → B → Listing C × B
  whole : Folder → B → Bool
  scanFolder : Scan C → CStr → Folder → Option (Scan C)

section Starting

variable {C B : Type} (k : Component C B)

def Has (role : Role C) : Prop := role = .single → k.singles = true

def RegGetInfo (pPoamIrepFoHA : Folder) (l : Listing C) : Listing C :=
  scanFolders k.scanFolder ⟨l, 0, 0⟩ pPoamIrepFoHA.folders

/-- The folder of the half-added entries is looked up in the wrong folder; adding it
finds it all the same. -/
def Initialize (backend : B) (pPoamIrepFoCOSA : Folder) : Listing C × B × Folder :=
  let pPoamIrepFo := (pPoamIrepFoCOSA.GetFolder k.layout.folder).getD Folder.empty
  let opened := match pPoamIrepFoCOSA.GetFolder k.layout.halfAdded with
    | some _ => pPoamIrepFo
    | none => pPoamIrepFo.AddFolder k.layout.halfAdded id
  let ha := match pPoamIrepFoCOSA.GetFolder k.layout.halfAdded with
    | some ha => ha
    | none => (opened.GetFolder k.layout.halfAdded).getD Folder.empty
  let loaded := k.load opened backend
  (if k.whole opened backend then RegGetInfo k ha loaded.1 else loaded.1, loaded.2,
    pPoamIrepFoCOSA.AddFolder k.layout.folder fun _ => opened)

/-- The registry and the backend, with the entries and next numbers last recorded. -/
structure Tracked (C B : Type) where
  cosa : Folder
  backend : B
  entries : List (Entry C)
  next : Role C → ULONG → ULONG

inductive Call (C B : Type) where
  | add (e : Entry C) (ulNextInsNum : ULONG)
  | del (e : Entry C)
  | commit (backend : B)
  | restart

variable [DecidableEq C]

def setNext (next : Role C → ULONG → ULONG) (role : Role C) (upper n : ULONG) :
    Role C → ULONG → ULONG :=
  fun role' upper' => if role' = role ∧ upper' = upper then n else next role' upper'

def perform (t : Tracked C B) : Call C B → Tracked C B
  | .add e n =>
    let add := RegAddInfo k.layout (k.layout.nextInsNum e.role) n (k.layout.preffix e.role)
      e.upper e.Alias e.number
    { t with
      cosa := t.cosa.AddFolder k.layout.folder add
      entries := t.entries ++ [e]
      next := setNext t.next e.role e.upper n }
  | .del e =>
    let del := RegDelInfo k.layout (folderName (entryName k.layout e))
    { t with
      cosa := t.cosa.AddFolder k.layout.folder del
      entries := drop id t.entries e }
  | .commit backend => { t with backend := backend }
  | .restart =>
    let started := Initialize k t.backend t.cosa
    { t with
      cosa := started.2.2
      backend := started.2.1 }

def step (t : Tracked C B) (c : Call C B) : Option (Tracked C B) := some (perform k t c)

def opened (t : Tracked C B) : Folder :=
  ((t.cosa.GetFolder k.layout.folder).getD Folder.empty).AddFolder k.layout.halfAdded id

def loaded (t : Tracked C B) : Listing C := (k.load (opened k t) t.backend).1

def known (t : Tracked C B) : List ULONG := numbers (loaded k t) ++ parents t.entries

/-- A restart restores exactly the committed entries and those recorded, but for children
whose parent is no more. -/
def Restores (t : Tracked C B) : Prop :=
  ∀ role, (items role (Initialize k t.backend t.cosa).1).Perm
    (items role (loaded k t) ++ newItems role (placed (known k t) t.entries))

/-- The promises of the callers: an entry is recorded once, only a child stands under
another entry, and that one is committed or recorded; numbers are below 2^31. -/
def Legal (t : Tracked C B) : Call C B → Prop
  | .add e _ => (∀ x ∈ t.entries, (x.role, x.upper, x.number) ≠ (e.role, e.upper, e.number)) ∧
      Has k e.role ∧ Rooted e ∧ (e.IsChild → e.upper ∈ known k t) ∧
      e.upper.toNat < 2 ^ 31 ∧ e.number.toNat < 2 ^ 31
  | .del e => e ∈ t.entries
  | .commit _ => True
  | .restart => True

/-- The load comes to its end, the recorded entries print different names, all of which
fit, children have a parent with a number other than zero, and it comes before them. -/
structure Clear (t : Tracked C B) : Prop where
  whole : k.whole (opened k t) t.backend = true
  names : (t.entries.map (entryName k.layout)).Nodup
  fits : ∀ e ∈ t.entries, (entryName k.layout e).length < 32 ∧
    (nextFolder k.layout e).length < 32
  uppers : ∀ e ∈ t.entries, e.IsChild → e.upper ≠ 0
  attached : Attached k.skips (numbers (loaded k t)) t.entries

/-- The condition on a call: what it leaves recorded is clear. -/
def Ok (t : Tracked C B) (c : Call C B) : Prop := Clear k (perform k t c)

/-- What a component must see to for its folders to be told apart: a folder is named
unlike the others, and the walk does with the folder of an entry what places it. -/
structure Lawful : Prop where
  folder : k.layout.folder ≠ k.layout.halfAdded
  next : ∀ role n, Has k role → k.layout.nextInsNum role ++ k.layout.print n ≠ k.layout.halfAdded
  scan : ∀ (e : Entry C) (st : Scan C), Has k e.role → Rooted e → (e.IsChild → e.upper ≠ 0) →
    e.upper.toNat < 2 ^ 31 → e.number.toNat < 2 ^ 31 →
    (k.scanFolder st (entryName k.layout e) (entryFolder k.layout e)).map Scan.lists =
      place k.skips st.lists e

structure Kept (t : Tracked C B) : Prop where
  root : t.cosa.GetFolder k.layout.halfAdded = none
  folders : ∃ fo ha, t.cosa.GetFolder k.layout.folder = some fo ∧
    fo.GetFolder k.layout.halfAdded = some ha ∧
    ha.folders = t.entries.map fun e => (entryName k.layout e, entryFolder k.layout e)
  has : ∀ e ∈ t.entries, Has k e.role
  rooted : ∀ e ∈ t.entries, Rooted e
  small : ∀ e ∈ t.entries, e.upper.toNat < 2 ^ 31 ∧ e.number.toNat < 2 ^ 31
  clear : Clear k t

variable {k} {t : Tracked C B}

theorem Initialize_eq (h : Lawful k) (hkept : Kept k t) :
    (Initialize k t.backend t.cosa).1 = placeAll k.skips (loaded k t) t.entries := by
  obtain ⟨fo, ha, hfo, hha, hfolders⟩ := hkept.folders
  have hopened : (fo.AddFolder k.layout.halfAdded id).GetFolder k.layout.halfAdded = some ha := by
    rw [Folder.GetFolder_AddFolder_self, hha, Option.getD_some, id_eq]
  have hfolder : opened k t = fo.AddFolder k.layout.halfAdded id := by
    rw [opened, hfo, Option.getD_some]
  have hwhole := hkept.clear.whole
  rw [hfolder] at hwhole
  have hstart : (Initialize k t.backend t.cosa).1 = RegGetInfo k ha (loaded k t) := by
    simp only [Initialize, hkept.root, hfo, Option.getD_some, hopened, hwhole, if_true, loaded,
      hfolder]
  rw [hstart, RegGetInfo, hfolders]
  apply scanFolders_eq
  intro e he st
  obtain ⟨hupper, hnumber⟩ := hkept.small e he
  exact h.scan e st (hkept.has e he) (hkept.rooted e he) (hkept.clear.uppers e he) hupper hnumber

theorem Kept.restores (h : Lawful k) (hkept : Kept k t) : Restores k t := by
  intro role
  rw [Initialize_eq h hkept]
  apply items_placeAll hkept.clear.attached hkept.rooted
  · exact fun n => List.mem_append
  · exact fun n => Iff.rfl

omit [DecidableEq C] in
theorem Clear.name_fresh {t t' : Tracked C B} (h : Clear k t') {e : Entry C}
    (ht : t'.entries = t.entries ++ [e]) :
    entryName k.layout e ∉ t.entries.map (entryName k.layout) := by
  have hnodup := h.names
  rw [ht, List.map_append, List.nodup_append] at hnodup
  exact fun hin => hnodup.2.2 _ hin _ (List.mem_singleton.mpr rfl) rfl

theorem regAddInfo_spec (h : Lawful k) {entries : List (Entry C)} {e : Entry C}
    (n : ULONG) (hhas : Has k e.role) (hha : fo.GetFolder k.layout.halfAdded = some ha)
    (hfolders : ha.folders =
      entries.map fun e => (entryName k.layout e, entryFolder k.layout e))
    (hfits : (entryName k.layout e).length < 32) (hnext : (nextFolder k.layout e).length < 32)
    (hfresh : entryName k.layout e ∉ entries.map (entryName k.layout)) :
    ∃ ha', (RegAddInfo k.layout (k.layout.nextInsNum e.role) n (k.layout.preffix e.role) e.upper
        e.Alias e.number fo).GetFolder k.layout.halfAdded = some ha' ∧
      ha'.folders =
        (entries ++ [e]).map fun e => (entryName k.layout e, entryFolder k.layout e) := by
  have hnotMem : entryName k.layout e ∉ ha.folders.map Prod.fst := by
    rw [hfolders, List.map_map]
    exact hfresh
  obtain ⟨ha', hget, hlist⟩ :=
    folders_RegAddInfo n hha (h.next e.role e.upper hhas) hfits hnext hnotMem
  refine ⟨ha', hget, ?_⟩
  rw [hlist, hfolders, List.map_append]
  rfl

theorem regDelInfo_spec {entries : List (Entry C)} {e : Entry C}
    (hha : fo.GetFolder k.layout.halfAdded = some ha)
    (hfolders : ha.folders =
      entries.map fun e => (entryName k.layout e, entryFolder k.layout e))
    (hnames : (entries.map (entryName k.layout)).Nodup) (he : e ∈ entries)
    (hfits : (entryName k.layout e).length < 32) :
    ∃ ha', (RegDelInfo k.layout (folderName (entryName k.layout e)) fo).GetFolder
        k.layout.halfAdded = some ha' ∧
      ha'.folders =
        (drop id entries e).map fun e => (entryName k.layout e, entryFolder k.layout e) := by
  refine ⟨_, Folder.GetFolder_AddFolder_self _ _ _, ?_⟩
  have hkey : drop id entries e = drop (entryName k.layout) entries (entryName k.layout e) := by
    apply drop_congr_key
    intro b hb
    exact ⟨fun h => congrArg _ h, fun h => eq_of_key hnames hb he h⟩
  have hname : folderName (entryName k.layout e) = entryName k.layout e :=
    Buf.text_sprintf_s_of_lt hfits
  rw [hha, Option.getD_some, Folder.DelFolder, Folder.folders_mk, hfolders, hname, hkey, drop, drop,
    List.filter_map]
  rfl

variable {cosa : Folder}

theorem GetFolder_root (h : Lawful k)
    (hroot : cosa.GetFolder k.layout.halfAdded = none) (change : Folder → Folder) :
    (cosa.AddFolder k.layout.folder change).GetFolder k.layout.halfAdded = none := by
  rw [Folder.GetFolder_AddFolder, if_neg h.folder.symm]
  exact hroot

omit [DecidableEq C] in
theorem Initialize_cosa {cosa : Folder} (hroot : cosa.GetFolder k.layout.halfAdded = none)
    (backend : B) : (Initialize k backend cosa).2.2 =
      cosa.AddFolder k.layout.folder fun fo => fo.AddFolder k.layout.halfAdded id := by
  simp only [Initialize, hroot]
  rfl

theorem kept_step (h : Lawful k) {c : Call C B} (hkept : Kept k t)
    (hlegal : Legal k t c) (hok : Ok k t c) : ∃ t', step k t c = some t' ∧ Kept k t' := by
  refine ⟨_, rfl, ?_⟩
  obtain ⟨fo, ha, hfo, hha, hfolders⟩ := hkept.folders
  cases c with
  | add e n =>
    obtain ⟨-, hhas, hrooted, -, hupper, hnumber⟩ := hlegal
    have hmem : e ∈ t.entries ++ [e] := List.mem_append_right _ (List.mem_singleton.mpr rfl)
    obtain ⟨hfits, hnext⟩ := hok.fits e hmem
    obtain ⟨ha', hget, hlist⟩ :=
      regAddInfo_spec h n hhas hha hfolders hfits hnext (hok.name_fresh rfl)
    refine ⟨GetFolder_root h hkept.root _, ⟨_, ha', ?_, hget, hlist⟩, ?_, ?_, ?_, hok⟩
    · rw [perform, Folder.GetFolder_AddFolder_self, hfo, Option.getD_some]
    · intro x hx
      rcases List.mem_append.mp hx with hx | hx
      · exact hkept.has x hx
      · rw [List.mem_singleton.mp hx]
        exact hhas
    · intro x hx
      rcases List.mem_append.mp hx with hx | hx
      · exact hkept.rooted x hx
      · rw [List.mem_singleton.mp hx]
        exact hrooted
    · intro x hx
      rcases List.mem_append.mp hx with hx | hx
      · exact hkept.small x hx
      · rw [List.mem_singleton.mp hx]
        exact ⟨hupper, hnumber⟩
  | del e =>
    obtain ⟨ha', hget, hlist⟩ := regDelInfo_spec hha hfolders hkept.clear.names hlegal
      (hkept.clear.fits e hlegal).1
    refine ⟨GetFolder_root h hkept.root _, ⟨_, ha', ?_, hget, hlist⟩, ?_, ?_, ?_, hok⟩
    · rw [perform, Folder.GetFolder_AddFolder_self, hfo, Option.getD_some]
    · exact fun x hx => hkept.has x ((mem_drop_iff e x).mp hx).1
    · exact fun x hx => hkept.rooted x ((mem_drop_iff e x).mp hx).1
    · exact fun x hx => hkept.small x ((mem_drop_iff e x).mp hx).1
  | commit backend =>
    exact ⟨hkept.root, ⟨fo, ha, hfo, hha, hfolders⟩, hkept.has, hkept.rooted, hkept.small,
      hok⟩
  | restart =>
    have hcosa : (perform k t .restart).cosa = _ := Initialize_cosa hkept.root t.backend
    refine ⟨?_, ⟨fo.AddFolder k.layout.halfAdded id, ha, ?_, ?_, hfolders⟩, hkept.has,
      hkept.rooted, hkept.small, hok⟩
    · rw [hcosa]
      exact GetFolder_root h hkept.root _
    · rw [hcosa, Folder.GetFolder_AddFolder_self, hfo, Option.getD_some]
    · rw [Folder.GetFolder_AddFolder_self, hha, Option.getD_some, id_eq]

variable (k)

/-- The first start on a root folder without the folders of the component. -/
def start (cosa : Folder) (backend : B) : Tracked C B :=
  let started := Initialize k backend cosa
  ⟨started.2.2, started.2.1, [], fun _ _ => 1⟩

variable {k}

omit [DecidableEq C] in
theorem clear_start {cosa : Folder} {backend : B}
    (hwhole : k.whole (opened k (start k cosa backend)) (start k cosa backend).backend = true) :
    Clear k (start k cosa backend) :=
  ⟨hwhole, by simp [start], by simp [start], by simp [start], trivial⟩

variable {backend : B}

theorem kept_start (h : Lawful k)
    (hclear : Clear k (start k cosa backend)) (hfolder : cosa.GetFolder k.layout.folder = none)
    (hroot : cosa.GetFolder k.layout.halfAdded = none) : Kept k (start k cosa backend) := by
  have hcosa : (start k cosa backend).cosa = _ := Initialize_cosa hroot backend
  refine ⟨?_, ⟨Folder.empty.AddFolder k.layout.halfAdded id, Folder.empty, ?_, ?_, rfl⟩,
    by simp [start], by simp [start], by simp [start], hclear⟩
  · rw [hcosa]
    exact GetFolder_root h hroot _
  · rw [hcosa, Folder.GetFolder_AddFolder_self, hfolder, Option.getD_none]
  · exact Folder.GetFolder_AddFolder_self _ _ _

theorem restores_throughout (h : Lawful k)
    {calls : List (Call C B)} (hclear : Clear k (start k cosa backend))
    (hfolder : cosa.GetFolder k.layout.folder = none)
    (hroot : cosa.GetFolder k.layout.halfAdded = none)
    (hlegal : StepsMeet (step k) (Legal k) (start k cosa backend) calls)
    (hok : StepsMeet (step k) (Ok k) (start k cosa backend) calls) :
    Restores k (start k cosa backend) ∧
      Throughout (step k) (Restores k) (start k cosa backend) calls := by
  have hkept := kept_start h hclear hfolder hroot
  refine ⟨hkept.restores h, ?_⟩
  apply @throughout_of_stepsMeet _ _ (step k) _ (fun t c => Legal k t c ∧ Ok k t c) (Kept k)
    (fun t ht => ht.restores h) (fun t c ht hc => kept_step h ht hc.1 hc.2) _ _ hkept
  exact StepsMeet.and (step k) hlegal hok

section NextNumbers

def storedNext (y : Layout C) (fo : Folder) (role : Role C) (upper : ULONG) : ULONG :=
  ((fo.GetFolder (folderName (y.nextInsNum role ++ y.print upper))).bind
    fun fo => fo.getUint32 (y.nextInsNum role)).getD 1

variable (k)

structure NextsApart : Prop where
  named : k.layout.halfAdded ≠ []
  nonempty : ∀ role, Has k role → k.layout.nextInsNum role ≠ []
  apart : ∀ role n role' n', Has k role → Has k role' →
    k.layout.nextInsNum role ++ k.layout.print n = k.layout.nextInsNum role' ++ k.layout.print n' →
    role = role' ∧ n = n'

/-- The folders hold the next numbers that were recorded last. -/
def NextsKept (t : Tracked C B) : Prop :=
  ∃ fo, t.cosa.GetFolder k.layout.folder = some fo ∧
    ∀ role upper, Has k role → storedNext k.layout fo role upper = t.next role upper

variable {k}

theorem folderName_ne {t name : CStr} (h : t ≠ name) (hname : name ≠ []) :
    folderName t ≠ name := by
  rw [folderName, Buf.text_sprintf_s]
  split
  · exact h
  · exact hname.symm

theorem storedNext_halfAdded (h : Lawful k) (hnexts : NextsApart k) (fo : Folder)
    (change : Folder → Folder) (role : Role C) (upper : ULONG) (hhas : Has k role) :
    storedNext k.layout (fo.AddFolder k.layout.halfAdded change) role upper =
      storedNext k.layout fo role upper := by
  have hne : folderName (k.layout.nextInsNum role ++ k.layout.print upper) ≠ k.layout.halfAdded :=
    folderName_ne (h.next role upper hhas) hnexts.named
  rw [storedNext, storedNext, Folder.GetFolder_AddFolder, if_neg hne]

theorem storedNext_regAddInfo (h : Lawful k) (hnexts : NextsApart k) (fo : Folder) (e : Entry C)
    (n : ULONG) (hhas : Has k e.role) (hfits : (nextFolder k.layout e).length < 32)
    (role : Role C) (upper : ULONG) (hrole : Has k role) :
    storedNext k.layout (RegAddInfo k.layout (k.layout.nextInsNum e.role) n
      (k.layout.preffix e.role) e.upper e.Alias e.number fo) role upper =
        setNext (storedNext k.layout fo) e.role e.upper n role upper := by
  have hname : folderName (k.layout.nextInsNum e.role ++ k.layout.print e.upper) =
      k.layout.nextInsNum e.role ++ k.layout.print e.upper := Buf.text_sprintf_s_of_lt hfits
  have hne : k.layout.nextInsNum e.role ++ k.layout.print e.upper ≠ [] :=
    List.append_ne_nil_of_left_ne_nil (hnexts.nonempty e.role hhas) _
  have hfirst : ¬ (k.layout.checks ∧
      32 ≤ (k.layout.nextInsNum e.role ++ k.layout.print e.upper).length) :=
    fun hlong => absurd hfits (Nat.not_lt.mpr hlong.2)
  have hwritten : storedNext k.layout (fo.AddFolder
      (folderName (k.layout.nextInsNum e.role ++ k.layout.print e.upper)) fun fo =>
        (fo.DelRecord (k.layout.nextInsNum e.role)).AddRecord (k.layout.nextInsNum e.role)
          (.uint32 n)) role upper =
        setNext (storedNext k.layout fo) e.role e.upper n role upper := by
    rw [storedNext, Folder.GetFolder_AddFolder, hname, setNext]
    split
    · next heq =>
      have hsame : role = e.role ∧ upper = e.upper := by
        by_contra hother
        exact folderName_ne (fun heq => hother (hnexts.apart _ _ _ _ hrole hhas heq)) hne heq
      obtain ⟨rfl, rfl⟩ := hsame
      rw [if_pos ⟨rfl, rfl⟩, Option.bind_some, Folder.getUint32, Folder.GetRecord_AddRecord,
        if_pos rfl, Option.getD_some]
    · next hdiff =>
      rw [if_neg]
      · rfl
      · rintro ⟨rfl, rfl⟩
        exact hdiff hname
  simp only [RegAddInfo, if_neg hfirst]
  split
  · exact hwritten
  · rw [storedNext_halfAdded h hnexts _ _ _ _ hrole]
    exact hwritten

theorem nextsKept_step (h : Lawful k) (hnexts : NextsApart k) {c : Call C B}
    (hroot : t.cosa.GetFolder k.layout.halfAdded = none) (hkept : NextsKept k t)
    (hlegal : Legal k t c) (hok : Ok k t c) : NextsKept k (perform k t c) := by
  obtain ⟨fo, hfo, hnext⟩ := hkept
  cases c with
  | add e n =>
    obtain ⟨-, hhas, -⟩ := hlegal
    have hmem : e ∈ t.entries ++ [e] := List.mem_append_right _ (List.mem_singleton.mpr rfl)
    refine ⟨_, Folder.GetFolder_AddFolder_self _ _ _, fun role upper hrole => ?_⟩
    rw [hfo, Option.getD_some,
      storedNext_regAddInfo h hnexts fo e n hhas (hok.fits e hmem).2 role upper hrole]
    simp only [setNext, perform, hnext role upper hrole]
  | del e =>
    refine ⟨_, Folder.GetFolder_AddFolder_self _ _ _, fun role upper hrole => ?_⟩
    rw [hfo, Option.getD_some]
    exact (storedNext_halfAdded h hnexts _ _ _ _ hrole).trans (hnext role upper hrole)
  | commit backend => exact ⟨fo, hfo, hnext⟩
  | restart =>
    have hcosa : (perform k t .restart).cosa = _ := Initialize_cosa hroot t.backend
    refine ⟨fo.AddFolder k.layout.halfAdded id, ?_, fun role upper hrole => ?_⟩
    · rw [hcosa, Folder.GetFolder_AddFolder_self, hfo, Option.getD_some]
    · exact (storedNext_halfAdded h hnexts _ _ _ _ hrole).trans (hnext role upper hrole)

theorem nextsKept_start (h : Lawful k) (hnexts : NextsApart k)
    (hfolder : cosa.GetFolder k.layout.folder = none)
    (hroot : cosa.GetFolder k.layout.halfAdded = none) : NextsKept k (start k cosa backend) := by
  have hcosa : (start k cosa backend).cosa = _ := Initialize_cosa hroot backend
  refine ⟨Folder.empty.AddFolder k.layout.halfAdded id, ?_, fun role upper hrole => ?_⟩
  · rw [hcosa, Folder.GetFolder_AddFolder_self, hfolder, Option.getD_none]
  · exact storedNext_halfAdded h hnexts _ _ _ _ hrole

end NextNumbers

end Starting

end CcspPandM.HalfAddedRuns
