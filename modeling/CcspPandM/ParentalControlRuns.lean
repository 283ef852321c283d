import Mathlib.Data.List.Perm.Basic
import CcspPandM.ParentalControl
import CcspPandM.Runs

/-!
Runs of the five tables from empty stores. What is kept: in each table the numbers differ,
every alias is printed from its number, Utopia holds the committed entries, and the
folders are those of the uncommitted entries of all tables together. A restart therefore
keeps the tables exactly when no entry is uncommitted.
-/
namespace CcspPandM.ParentalControlRuns

open CString KeyedList ParentalControl Registry Runs ScanText
open IpRegistry (ULONG advance advance_ne_zero nextAfter nextAfter_ne_zero pushEntryByInsNum
  pushEntry_perm)

inductive Call where
  | addEntry (T : Table)
  | commit (T : Table) (i : ℕ)
  | delEntry (T : Table) (i : ℕ)
  | restart
  deriving DecidableEq, Repr

def step (s : Box) : Call → Option Box
  | .addEntry T => some (T.AddEntry s).2
  | .commit T i => (T.Commit i s).map Prod.snd
  | .delEntry T i => (T.DelEntry i s).map Prod.snd
  | .restart => some (CosaParentalControlInitialize s)

def emptyStores : Box := ⟨fun _ => [], Folder.empty, fun _ => [], fun _ => 1⟩

def start : Box := CosaParentalControlInitialize emptyStores

def Legal (s : Box) : Call → Prop
  | .commit T i => i < (s.list T).length
  | .delEntry T i => i < (s.list T).length
  | _ => True

instance (s : Box) : (c : Call) → Decidable (Legal s c)
  | .addEntry _ => .isTrue trivial
  | .commit T i => inferInstanceAs (Decidable (i < (s.list T).length))
  | .delEntry T i => inferInstanceAs (Decidable (i < (s.list T).length))
  | .restart => .isTrue trivial

def numbers (s : Box) (T : Table) : List ULONG := (s.list T).map ContextLink.InstanceNumber

def shown (l : ContextLink) : ULONG × CStr × Bool := (l.InstanceNumber, l.Alias, l.bNew)

def Behaves (s : Box) : Call → Box → Prop
  | .addEntry T, _ => (T.AddEntry s).1 ≠ 0 ∧ (T.AddEntry s).1 ∉ numbers s T
  | .commit _ _, _ => True
  | .delEntry T i, t => (T.DelEntry i s).map Prod.fst = some true ∧
      t.list = Function.update s.list T ((s.list T).eraseIdx i)
  | .restart, t => ∀ T, ((t.list T).map shown).Perm ((s.list T).map shown)

/-- The next number may have run over, but is not in use; only committed entries are
deleted, and a restart finds no other ones. -/
def Ok (s : Box) : Call → Prop
  | .addEntry T => T.number s ∉ numbers s T
  | .commit _ _ => True
  | .delEntry T i => ∀ l, (s.list T)[i]? = some l → l.bNew = false
  | .restart => ∀ T, ∀ l ∈ s.list T, l.bNew = false

def isCommitted (l : ContextLink) : Bool := !l.bNew

structure TableKept (T : Table) (list : List ContextLink) (utopia : List Entry) : Prop where
  numbers : (list.map ContextLink.InstanceNumber).Nodup
  entry : ∀ l ∈ list, l.InstanceNumber ≠ 0 ∧ l.Alias = aliasOf T l.InstanceNumber ∧
    (l.bNew = true → l.hPoamIrepFo = some l.Alias)
  utopia : ((list.filter isCommitted).map ContextLink.entry).Perm utopia

/-- The folder, with its name, that an uncommitted entry of a list has. -/
def IsFolderOf (T : Table) (list : List ContextLink) (x : CStr × Folder) : Prop :=
  ∃ l ∈ list, l.bNew = true ∧ x = (l.Alias, recordEntry T l Folder.empty)

structure Kept (s : Box) : Prop where
  table : ∀ T, TableKept T (s.list T) (s.utopia T)
  folders : ∀ x, x ∈ (parentalControl s.pPoamIrepFoCOSA).folders ↔
    ∃ T, IsFolderOf T (s.list T) x
  next : ∀ T, s.ulNextInsNum T ≠ 0
  record : (parentalControl s.pPoamIrepFoCOSA).getUint32
    COSA_DML_RR_NAME_PARENTALCONTROL_NextInsNumber ≠ some 0

theorem intText_injective : Function.Injective intText := by
  intro x y h
  have hx := scanNumber_intText x
  rw [h, scanNumber_intText y, Option.some.injEq] at hx
  exact (BitVec.toInt_inj.mp hx).symm

theorem aliasText_take_inj (T T' : Table) (h : T.aliasText.take 8 = T'.aliasText.take 8) :
    T = T' := by
  revert h
  cases T <;> cases T' <;> decide

theorem take_aliasOf (T : Table) (n : ULONG) : (aliasOf T n).take 8 = T.aliasText.take 8 := by
  have hlen : 8 ≤ T.aliasText.length := by cases T <;> decide
  rw [aliasOf, List.take_append_of_le_length hlen]

theorem aliasOf_inj {T T' : Table} {n n' : ULONG} (h : aliasOf T n = aliasOf T' n') :
    T = T' ∧ n = n' := by
  have hT : T = T' := by
    apply aliasText_take_inj
    rw [← take_aliasOf T n, ← take_aliasOf T' n', h]
  subst hT
  exact ⟨rfl, intText_injective (List.append_cancel_left h)⟩

theorem aliasOf_ne_nil (T : Table) (n : ULONG) : aliasOf T n ≠ [] := by
  intro h
  have htake := take_aliasOf T n
  rw [h] at htake
  revert htake
  cases T <;> decide

section Lists

theorem loadEntries_of_numbered (T : Table) (utopia : List Entry) (next : ULONG)
    (list : List ContextLink) (hnumber : ∀ e ∈ utopia, e.InstanceNumber ≠ 0) :
    (loadEntries T utopia next list).1 = utopia ∧
      (loadEntries T utopia next list).2.2.Perm
        (utopia.map (fun e => ⟨e.InstanceNumber, e.Alias, false, none⟩) ++ list) := by
  induction utopia generalizing next list with
  | nil => exact ⟨rfl, List.Perm.refl _⟩
  | cons e rest ih =>
    have hloaded : loadEntry T e next = (e, advance next e.InstanceNumber) :=
      if_pos (hnumber e List.mem_cons_self)
    obtain ⟨hstore, hlist⟩ := ih (advance next e.InstanceNumber)
      (pushEntryByInsNum ContextLink.InstanceNumber list ⟨e.InstanceNumber, e.Alias, false, none⟩)
      (fun e' he' => hnumber e' (List.mem_cons_of_mem e he'))
    simp only [loadEntries, hloaded]
    constructor
    · rw [hstore]
    · apply hlist.trans
      apply ((pushEntry_perm _ list _).append_left _).trans
      exact List.perm_middle

theorem loadEntries_next_ne_zero (T : Table) (utopia : List Entry) {next : ULONG}
    (list : List ContextLink) (h : next ≠ 0) : (loadEntries T utopia next list).2.1 ≠ 0 := by
  induction utopia generalizing next list with
  | nil => exact h
  | cons e rest ih =>
    apply ih
    rw [loadEntry]
    split
    · exact advance_ne_zero h _
    · exact nextAfter_ne_zero next

theorem exists_of_mem_folders (T : Table) {folders : List (CStr × Folder)} {x : CStr × Folder}
    (hx : x ∈ folders) (number : ULONG) (list : List ContextLink) :
    ∃ l ∈ scanFolders T number folders list, l.Alias = (x.2.getString T.rrAlias).getD [] := by
  have hgrow : ∀ folders number (list : List ContextLink), ∀ l ∈ list,
      l ∈ scanFolders T number folders list := by
    intro folders
    induction folders with
    | nil => exact fun _ _ _ hl => hl
    | cons y rest ih =>
      intro number list l hl
      exact ih _ _ l ((pushEntry_perm _ list _).mem_iff.mpr (List.mem_cons_of_mem _ hl))
  induction folders generalizing number list with
  | nil => exact absurd hx List.not_mem_nil
  | cons y rest ih =>
    rcases List.mem_cons.mp hx with rfl | hrest
    · refine ⟨_, hgrow rest _ _ _ ((pushEntry_perm _ list _).mem_iff.mpr List.mem_cons_self), rfl⟩
    · exact ih hrest _ _

end Lists

variable (s : Box)

section Registry

theorem parentalControl_AddFolder (cosa : Folder) (fo : Folder → Folder) :
    parentalControl (cosa.AddFolder COSA_IREP_FOLDER_NAME_PARENTALCONTROL fo) =
      fo (parentalControl cosa) := by
  rw [parentalControl, Folder.GetFolder_AddFolder_self]
  rfl

theorem parentalControl_Initialize :
    parentalControl (CosaParentalControlInitialize s).pPoamIrepFoCOSA =
      parentalControl s.pPoamIrepFoCOSA := by
  cases h : s.pPoamIrepFoCOSA.GetFolder COSA_IREP_FOLDER_NAME_PARENTALCONTROL with
  | some fo => simp only [CosaParentalControlInitialize, h]
  | none =>
    simp only [CosaParentalControlInitialize, h]
    exact parentalControl_AddFolder s.pPoamIrepFoCOSA id

theorem list_Initialize (T : Table) : (CosaParentalControlInitialize s).list T =
    (initializeTable T (parentalControl s.pPoamIrepFoCOSA) (s.utopia T)).2.2 := by
  rw [← parentalControl_Initialize s]
  rfl

theorem utopia_Initialize (T : Table) : (CosaParentalControlInitialize s).utopia T =
    (initializeTable T (parentalControl s.pPoamIrepFoCOSA) (s.utopia T)).1 := by
  rw [← parentalControl_Initialize s]
  rfl

theorem ulNextInsNum_Initialize (T : Table) :
    (CosaParentalControlInitialize s).ulNextInsNum T =
      (initializeTable T (parentalControl s.pPoamIrepFoCOSA) (s.utopia T)).2.1 := by
  rw [← parentalControl_Initialize s]
  rfl

theorem getString_recordEntry (T T' : Table) (l : ContextLink) :
    ((recordEntry T l Folder.empty).getString T'.rrAlias).getD [] = l.Alias ∨
      ((recordEntry T l Folder.empty).getString T'.rrAlias).getD [] = [] := by
  simp only [recordEntry, Folder.getString, Folder.GetRecord_AddRecord]
  split_ifs
  · exact Or.inl rfl
  · exact Or.inr rfl
  · exact Or.inr rfl

end Registry

variable {l : ContextLink}

section Tables

variable {T : Table} {list : List ContextLink} {utopia : List Entry}

theorem TableKept.of_perm {list' : List ContextLink} (h : TableKept T list utopia)
    (hperm : list'.Perm list) : TableKept T list' utopia where
  numbers := (hperm.map _).nodup_iff.mpr h.numbers
  entry l hl := h.entry l (hperm.mem_iff.mp hl)
  utopia := ((hperm.filter _).map _).trans h.utopia

theorem TableKept.add (h : TableKept T list utopia) {number : ULONG} (hzero : number ≠ 0)
    (hfree : number ∉ list.map ContextLink.InstanceNumber) :
    TableKept T (⟨number, aliasOf T number, true, some (aliasOf T number)⟩ :: list) utopia where
  numbers := List.nodup_cons.mpr ⟨hfree, h.numbers⟩
  entry l hl := by
    rcases List.mem_cons.mp hl with rfl | hl
    · exact ⟨hzero, rfl, fun _ => rfl⟩
    · exact h.entry l hl
  utopia := h.utopia

theorem TableKept.commit (h : TableKept T (l :: list) utopia)
    (hnew : l.bNew = true) :
    TableKept T ({ l with bNew := false } :: list) (utopia ++ [l.entry]) where
  numbers := h.numbers
  entry l' hl' := by
    rcases List.mem_cons.mp hl' with rfl | hl'
    · have hentry := h.entry l List.mem_cons_self
      exact ⟨hentry.1, hentry.2.1, fun hfalse => Bool.noConfusion hfalse⟩
    · exact h.entry l' (List.mem_cons_of_mem l hl')
  utopia := by
    have hrest := h.utopia
    rw [List.filter_cons_of_neg (by simp [isCommitted, hnew])] at hrest
    rw [List.filter_cons_of_pos rfl, List.map_cons]
    exact (hrest.cons l.entry).trans (List.perm_append_singleton l.entry utopia).symm

theorem TableKept.present_iff (h : TableKept T list utopia) (hl : l ∈ list) :
    (∃ e ∈ utopia, e.InstanceNumber = l.InstanceNumber) ↔ l.bNew = false := by
  constructor
  · rintro ⟨e, he, hnumber⟩
    obtain ⟨l', hl', rfl⟩ := List.mem_map.mp (h.utopia.mem_iff.mpr he)
    obtain ⟨hmem, hcommitted⟩ := List.mem_filter.mp hl'
    have hsame : l' = l := eq_of_key h.numbers hmem hl hnumber
    rw [← hsame]
    simpa [isCommitted] using hcommitted
  · intro hold
    refine ⟨l.entry, h.utopia.mem_iff.mp ?_, rfl⟩
    exact List.mem_map_of_mem (List.mem_filter.mpr ⟨hl, by simp [isCommitted, hold]⟩)

theorem TableKept.delete (h : TableKept T (l :: list) utopia)
    (hold : l.bNew = false) :
    TableKept T list (utopia.eraseP fun e => e.InstanceNumber = l.InstanceNumber) where
  numbers := (List.nodup_cons.mp h.numbers).2
  entry l' hl' := h.entry l' (List.mem_cons_of_mem l hl')
  utopia := by
    have hall := h.utopia
    rw [List.filter_cons_of_pos (by simp [isCommitted, hold]), List.map_cons] at hall
    have hnumbers : ((l.entry :: (list.filter isCommitted).map ContextLink.entry).map
        Entry.InstanceNumber).Nodup := by
      have hsub : ((l :: list.filter isCommitted).map ContextLink.InstanceNumber).Sublist
          ((l :: list).map ContextLink.InstanceNumber) :=
        (List.filter_sublist.cons_cons l).map _
      have hnodup := h.numbers.sublist hsub
      simpa [List.map_map, Function.comp_def, ContextLink.entry] using hnodup
    have herase := hall.eraseP (fun e : Entry => decide (e.InstanceNumber = l.InstanceNumber))
      (by
        rw [List.Nodup, List.pairwise_map] at hnumbers
        refine hnumbers.imp fun hne ha hb => hne ?_
        rw [of_decide_eq_true ha, of_decide_eq_true hb])
    rwa [List.eraseP_cons_of_pos (by simp [ContextLink.entry])] at herase

theorem TableKept.load (h : TableKept T list utopia)
    (hold : ∀ l ∈ list, l.bNew = false) {loaded : List ContextLink}
    (hloaded : loaded.Perm (utopia.map fun e => ⟨e.InstanceNumber, e.Alias, false, none⟩)) :
    TableKept T loaded utopia ∧ (loaded.map shown).Perm (list.map shown) := by
  have hfilter : list.filter isCommitted = list := by
    rw [List.filter_eq_self]
    intro l hl
    rw [isCommitted, hold l hl]
    rfl
  have hentries : (list.map ContextLink.entry).Perm utopia := by simpa only [hfilter] using h.utopia
  have hlinks : loaded.Perm (list.map fun l => ⟨l.InstanceNumber, l.Alias, false, none⟩) := by
    refine hloaded.trans ((hentries.symm.map _).trans ?_)
    rw [List.map_map]
    exact List.Perm.refl _
  constructor
  · apply TableKept.of_perm _ hlinks
    refine ⟨?_, ?_, ?_⟩
    · rw [List.map_map]
      exact h.numbers
    · intro l hl
      obtain ⟨l', hl', rfl⟩ := List.mem_map.mp hl
      have hentry := h.entry l' hl'
      exact ⟨hentry.1, hentry.2.1, fun hfalse => Bool.noConfusion hfalse⟩
    · rw [List.filter_eq_self.mpr, List.map_map]
      · exact hentries
      · intro l hl
        obtain ⟨l', -, rfl⟩ := List.mem_map.mp hl
        rfl
  · refine (hlinks.map shown).trans ?_
    rw [List.map_map]
    refine List.Perm.of_eq (List.map_congr_left fun l hl => ?_)
    simp only [Function.comp_apply, shown, hold l hl]

end Tables

section Folders

variable {s : Box} {T : Table}

theorem isFolderOf_of_perm {list list' : List ContextLink} (h : list'.Perm list)
    (x : CStr × Folder) : IsFolderOf T list' x ↔ IsFolderOf T list x := by
  constructor
  · rintro ⟨l, hl, hx⟩
    exact ⟨l, h.mem_iff.mp hl, hx⟩
  · rintro ⟨l, hl, hx⟩
    exact ⟨l, h.mem_iff.mpr hl, hx⟩

theorem isFolderOf_cons (l : ContextLink) (list : List ContextLink) (x : CStr × Folder) :
    IsFolderOf T (l :: list) x ↔
      (l.bNew = true ∧ x = (l.Alias, recordEntry T l Folder.empty)) ∨ IsFolderOf T list x := by
  simp only [IsFolderOf, List.mem_cons, exists_eq_or_imp]

theorem exists_isFolderOf_update (lists : Table → List ContextLink) (list : List ContextLink)
    (x : CStr × Folder) : (∃ T', IsFolderOf T' (Function.update lists T list T') x) ↔
      IsFolderOf T list x ∨ ∃ T', T' ≠ T ∧ IsFolderOf T' (lists T') x := by
  constructor
  · rintro ⟨T', h⟩
    by_cases hT : T' = T
    · subst hT
      rw [Function.update_self] at h
      exact Or.inl h
    · rw [Function.update_of_ne hT] at h
      exact Or.inr ⟨T', hT, h⟩
  · rintro (h | ⟨T', hT, h⟩)
    · refine ⟨T, ?_⟩
      rwa [Function.update_self]
    · refine ⟨T', ?_⟩
      rwa [Function.update_of_ne hT]

theorem Kept.mem_folders_iff (h : Kept s) (T : Table) (x : CStr × Folder) :
    x ∈ (parentalControl s.pPoamIrepFoCOSA).folders ↔
      IsFolderOf T (s.list T) x ∨ ∃ T', T' ≠ T ∧ IsFolderOf T' (s.list T') x := by
  rw [h.folders x, ← exists_isFolderOf_update, Function.update_eq_self]

theorem Kept.number_of_name (h : Kept s) {T : Table} {number : ULONG} {x : CStr × Folder}
    (hx : ∃ T', IsFolderOf T' (s.list T') x) (hname : x.1 = aliasOf T number) :
    ∃ l ∈ s.list T, l.InstanceNumber = number ∧
      x = (l.Alias, recordEntry T l Folder.empty) := by
  obtain ⟨T', l, hl, -, rfl⟩ := hx
  have halias := ((h.table T').entry l hl).2.1
  obtain ⟨rfl, hnumber⟩ := aliasOf_inj (halias.symm.trans hname)
  exact ⟨l, hl, hnumber, rfl⟩

theorem Kept.update_table (h : Kept s) {list : List ContextLink} {utopia : List Entry}
    (hT : TableKept T list utopia) (T' : Table) :
    TableKept T' (Function.update s.list T list T') (Function.update s.utopia T utopia T') := by
  by_cases hTT : T' = T
  · subst hTT
    rwa [Function.update_self, Function.update_self]
  · rw [Function.update_of_ne hTT, Function.update_of_ne hTT]
    exact h.table T'

theorem getUint32_AddInfo (T : Table) (next : ULONG) (l : ContextLink) (fo : Folder) :
    (CosaPcRegAddInfo T next l fo).getUint32 COSA_DML_RR_NAME_PARENTALCONTROL_NextInsNumber =
      some next ∨
    (CosaPcRegAddInfo T next l fo).getUint32 COSA_DML_RR_NAME_PARENTALCONTROL_NextInsNumber =
      fo.getUint32 COSA_DML_RR_NAME_PARENTALCONTROL_NextInsNumber := by
  cases T with
  | blkUrl => exact Or.inl rfl
  | trustedUser => exact Or.inl rfl
  | _ => exact Or.inr rfl

theorem folders_AddInfo (h : Kept s) {number next : ULONG} (hfree : number ∉ numbers s T)
    (halias : l.Alias = aliasOf T number) :
    (CosaPcRegAddInfo T next l (parentalControl s.pPoamIrepFoCOSA)).folders =
      (parentalControl s.pPoamIrepFoCOSA).folders ++
        [(l.Alias, recordEntry T l Folder.empty)] := by
  apply Folder.folders_AddFolder_of_notMem
  intro hname
  obtain ⟨x, hx, hxname⟩ := List.mem_map.mp hname
  obtain ⟨l', hl', hnumber, -⟩ := h.number_of_name ((h.folders x).mp hx) (hxname.trans halias)
  apply hfree
  rw [← hnumber]
  exact List.mem_map_of_mem hl'

theorem Kept.addEntry (h : Kept s) (hfree : T.number s ∉ numbers s T) :
    Kept (T.AddEntry s).2 := by
  have hnumber : T.number s ≠ 0 := Table.number_ne_zero (h.next T)
  have hnext : nextAfter (s.ulNextInsNum T) ≠ 0 := nextAfter_ne_zero _
  rw [Table.AddEntry_eq]
  refine ⟨?_, ?_, ?_, ?_⟩
  · apply h.update_table
    apply TableKept.of_perm _ (pushEntry_perm _ (s.list T) _)
    exact (h.table T).add hnumber hfree
  · intro x
    change x ∈ (parentalControl (Folder.AddFolder _ _ _)).folders ↔
      ∃ T', IsFolderOf T' (Function.update s.list T _ T') x
    rw [parentalControl_AddFolder, folders_AddInfo h hfree rfl, List.mem_append,
      List.mem_singleton, h.mem_folders_iff T, exists_isFolderOf_update,
      isFolderOf_of_perm (pushEntry_perm _ (s.list T) _), isFolderOf_cons]
    simp only [true_and]
    rw [or_comm, or_assoc]
  · intro T'
    change Function.update s.ulNextInsNum T _ T' ≠ 0
    by_cases hT : T' = T
    · subst hT
      rwa [Function.update_self]
    · rw [Function.update_of_ne hT]
      exact h.next T'
  · change (parentalControl (Folder.AddFolder _ _ _)).getUint32 _ ≠ some 0
    rw [parentalControl_AddFolder]
    rcases getUint32_AddInfo T (nextAfter (s.ulNextInsNum T))
      ⟨T.number s, aliasOf T (T.number s), true, some (aliasOf T (T.number s))⟩
      (parentalControl s.pPoamIrepFoCOSA) with hsome | hsame
    · rw [hsome]
      simpa using hnext
    · rw [hsame]
      exact h.record

variable {i : ℕ}

theorem commitLink_of_old (h : Kept s) (hl : (s.list T)[i]? = some l)
    (hold : l.bNew = false) : (commitLink T i l s).2 = s := by
  rw [commitLink, if_neg (by simp [hold])]
  split
  · rfl
  · rename_i k hk
    -- the entry in Utopia is the listed one already
    obtain ⟨hlt, hfound, -⟩ := List.findIdx?_eq_some_iff_getElem.mp hk
    have hmem : (s.utopia T)[k] ∈ s.utopia T := List.getElem_mem hlt
    obtain ⟨l', hl', hentry⟩ := List.mem_map.mp ((h.table T).utopia.mem_iff.mpr hmem)
    have hsame : l' = l := by
      apply eq_of_key (h.table T).numbers (List.mem_filter.mp hl').1 (List.mem_of_getElem? hl)
      rw [← of_decide_eq_true hfound, ← hentry]
      rfl
    have hset : (s.utopia T).set k l.entry = s.utopia T := by
      apply set_of_getElem?
      rw [List.getElem?_eq_getElem hlt, ← hentry, hsame]
    rw [hset, Function.update_eq_self]

theorem Kept.commitNew (h : Kept s) (hl : (s.list T)[i]? = some l)
    (hnew : l.bNew = true) : Kept (commitLink T i l s).2 := by
  have hlist := eraseIdx_perm hl
  have hlist' := modify_perm hl (fun l => { l with bNew := false })
  have hall := (h.table T).of_perm hlist.symm
  have hhandle : l.hPoamIrepFo = some l.Alias := (hall.entry l List.mem_cons_self).2.2 hnew
  have hfolder : CosaPcRegDelInfo l = fun fo => fo.DelFolder l.Alias := by
    funext fo
    rw [CosaPcRegDelInfo, hhandle]
  rw [commitLink, if_pos hnew]
  refine ⟨?_, ?_, h.next, ?_⟩
  · apply h.update_table
    apply TableKept.of_perm _ hlist'
    exact hall.commit hnew
  · intro x
    change x ∈ (parentalControl (Folder.AddFolder _ _ _)).folders ↔
      ∃ T', IsFolderOf T' (Function.update s.list T _ T') x
    rw [parentalControl_AddFolder, hfolder, exists_isFolderOf_update,
      isFolderOf_of_perm hlist', isFolderOf_cons]
    simp only [Bool.false_eq_true, false_and, false_or]
    change x ∈ drop Prod.fst _ l.Alias ↔ _
    rw [mem_drop_iff, h.mem_folders_iff T, isFolderOf_of_perm hlist, isFolderOf_cons]
    have halias := (hall.entry l List.mem_cons_self).2.1
    constructor
    · rintro ⟨(⟨-, rfl⟩ | hrest) | hothers, hname⟩
      · exact absurd rfl hname
      · exact Or.inl hrest
      · exact Or.inr hothers
    · rintro (hrest | hothers)
      · refine ⟨Or.inl (Or.inr hrest), fun hname => ?_⟩
        obtain ⟨l', hl', -, rfl⟩ := hrest
        -- two entries of the table would have one number
        have hl'alias := (hall.entry l' (List.mem_cons_of_mem l hl')).2.1
        have hsame := (aliasOf_inj (hl'alias.symm.trans (hname.trans halias))).2
        apply (List.nodup_cons.mp hall.numbers).1
        rw [← hsame]
        exact List.mem_map_of_mem hl'
      · refine ⟨Or.inr hothers, fun hname => ?_⟩
        obtain ⟨T', hT, l', hl', -, rfl⟩ := hothers
        have hl'alias := ((h.table T').entry l' hl').2.1
        exact hT (aliasOf_inj (hl'alias.symm.trans (hname.trans halias))).1
  · change (parentalControl (Folder.AddFolder _ _ _)).getUint32 _ ≠ some 0
    rw [parentalControl_AddFolder, hfolder]
    exact h.record

theorem delLink_succeeds_iff (h : Kept s)
    (hl : (s.list T)[i]? = some l) : (delLink T i l s).1 = true ↔ l.bNew = false := by
  rw [← (h.table T).present_iff (List.mem_of_getElem? hl), delLink]
  split
  · rename_i habsent
    constructor
    · exact fun hfalse => Bool.noConfusion hfalse
    · rintro ⟨e, he, hnumber⟩
      exact absurd hnumber (habsent e he)
  · rename_i hpresent
    push Not at hpresent
    exact ⟨fun _ => hpresent, fun _ => rfl⟩

theorem delLink_of_old (h : Kept s) (hl : (s.list T)[i]? = some l)
    (hold : l.bNew = false) : delLink T i l s =
      (true, change s T ((s.utopia T).eraseP fun e => e.InstanceNumber = l.InstanceNumber)
        ((s.list T).eraseIdx i) id) := by
  have hsuccess := (delLink_succeeds_iff h hl).mpr hold
  rw [delLink] at hsuccess ⊢
  split at hsuccess
  · exact Bool.noConfusion hsuccess
  · rename_i hpresent
    rw [if_neg hpresent, if_neg (by simp [hold])]

theorem Kept.delEntry (h : Kept s) (hl : (s.list T)[i]? = some l)
    (hold : l.bNew = false) : Kept (delLink T i l s).2 := by
  have hlist := eraseIdx_perm hl
  have hall := (h.table T).of_perm hlist.symm
  rw [delLink_of_old h hl hold]
  refine ⟨?_, ?_, h.next, ?_⟩
  · apply h.update_table
    exact hall.delete hold
  · intro x
    change x ∈ (parentalControl (Folder.AddFolder _ _ _)).folders ↔
      ∃ T', IsFolderOf T' (Function.update s.list T _ T') x
    rw [parentalControl_AddFolder, exists_isFolderOf_update, id, h.mem_folders_iff T,
      isFolderOf_of_perm hlist, isFolderOf_cons, hold]
    simp only [Bool.false_eq_true, false_and, false_or]
  · change (parentalControl (Folder.AddFolder _ _ _)).getUint32 _ ≠ some 0
    rw [parentalControl_AddFolder]
    exact h.record

theorem Kept.folders_eq_nil (h : Kept s) (hold : ∀ T, ∀ l ∈ s.list T, l.bNew = false) :
    (parentalControl s.pPoamIrepFoCOSA).folders = [] := by
  apply List.eq_nil_iff_forall_not_mem.mpr
  intro x hx
  obtain ⟨T, l, hl, hnew, -⟩ := (h.folders x).mp hx
  rw [hold T l hl] at hnew
  exact Bool.noConfusion hnew

theorem Kept.utopia_numbered (h : Kept s) (T : Table) :
    ∀ e ∈ s.utopia T, e.InstanceNumber ≠ 0 := by
  intro e he
  obtain ⟨l, hl, rfl⟩ := List.mem_map.mp ((h.table T).utopia.mem_iff.mpr he)
  exact ((h.table T).entry l (List.mem_filter.mp hl).1).1

theorem Kept.restart (h : Kept s) (hold : ∀ T, ∀ l ∈ s.list T, l.bNew = false) :
    Kept (CosaParentalControlInitialize s) ∧
      ∀ T, (((CosaParentalControlInitialize s).list T).map shown).Perm
        ((s.list T).map shown) := by
  have hfolders := h.folders_eq_nil hold
  have hload : ∀ T, TableKept T ((CosaParentalControlInitialize s).list T)
      ((CosaParentalControlInitialize s).utopia T) ∧
      (((CosaParentalControlInitialize s).list T).map shown).Perm ((s.list T).map shown) := by
    intro T
    obtain ⟨hstore, hlist⟩ := loadEntries_of_numbered T (s.utopia T)
      (((parentalControl s.pPoamIrepFoCOSA).getUint32
        COSA_DML_RR_NAME_PARENTALCONTROL_NextInsNumber).getD 1) [] (h.utopia_numbered T)
    rw [List.append_nil] at hlist
    rw [list_Initialize, utopia_Initialize, initializeTable, CosaPcRegGetInfo, hfolders]
    simp only [scanFolders, hstore]
    exact (h.table T).load (hold T) hlist
  refine ⟨⟨fun T => (hload T).1, ?_, ?_, ?_⟩, fun T => (hload T).2⟩
  · intro x
    rw [parentalControl_Initialize, hfolders]
    constructor
    · exact fun hx => absurd hx List.not_mem_nil
    · rintro ⟨T, l, hl, hnew, -⟩
      -- what was loaded shows the same entries, none of them uncommitted
      obtain ⟨l', hl', hsame⟩ := List.mem_map.mp
        ((hload T).2.mem_iff.mp (List.mem_map_of_mem hl))
      have hbNew : l'.bNew = l.bNew := congrArg (fun v => v.2.2) hsame
      rw [← hbNew, hold T l' hl'] at hnew
      exact Bool.noConfusion hnew
  · intro T
    rw [ulNextInsNum_Initialize, initializeTable]
    apply loadEntries_next_ne_zero
    cases hrecord : (parentalControl s.pPoamIrepFoCOSA).getUint32
        COSA_DML_RR_NAME_PARENTALCONTROL_NextInsNumber with
    | none => decide
    | some n =>
      rintro rfl
      exact h.record hrecord
  · rw [parentalControl_Initialize]
    exact h.record

theorem Kept.restart_mixes (h : Kept s) {T : Table} (hl : l ∈ s.list T)
    (hnew : l.bNew = true) {T' : Table} (hT : T' ≠ T) :
    ¬ (((CosaParentalControlInitialize s).list T').map shown).Perm ((s.list T').map shown) := by
  intro hperm
  have hfolder : (l.Alias, recordEntry T l Folder.empty) ∈
      (parentalControl s.pPoamIrepFoCOSA).folders := (h.folders _).mpr ⟨T, l, hl, hnew, rfl⟩
  obtain ⟨loaded, hloaded, halias⟩ := exists_of_mem_folders T' hfolder 0
    (loadEntries T' (s.utopia T') (((parentalControl s.pPoamIrepFoCOSA).getUint32
      COSA_DML_RR_NAME_PARENTALCONTROL_NextInsNumber).getD 1) []).2.2
  have hmem : loaded ∈ (CosaParentalControlInitialize s).list T' := by
    rw [list_Initialize]
    exact hloaded
  obtain ⟨l', hl', hsame⟩ := List.mem_map.mp (hperm.mem_iff.mp (List.mem_map_of_mem hmem))
  have hl'alias := ((h.table T').entry l' hl').2.1
  have hsameAlias : l'.Alias = loaded.Alias := congrArg (fun v => v.2.1) hsame
  rw [hl'alias, halias] at hsameAlias
  rcases getString_recordEntry T T' l with hown | hnone
  · rw [hown, ((h.table T).entry l hl).2.1] at hsameAlias
    exact hT (aliasOf_inj hsameAlias).1
  · rw [hnone] at hsameAlias
    exact aliasOf_ne_nil T' _ hsameAlias

end Folders

theorem kept_start : Kept start := by
  have hempty : Kept emptyStores := by
    refine ⟨fun T => ⟨List.nodup_nil, ?_, List.Perm.refl _⟩, fun x => ?_, ?_, ?_⟩
    · exact fun l hl => absurd hl List.not_mem_nil
    · constructor
      · exact fun hx => absurd hx List.not_mem_nil
      · rintro ⟨T, l, hl, -⟩
        exact absurd hl List.not_mem_nil
    · exact fun _ => show (1 : ULONG) ≠ 0 by decide
    · exact nofun
  exact (hempty.restart fun T l hl => absurd hl List.not_mem_nil).1

theorem other_table (T : Table) : ∃ T' : Table, T' ≠ T := by
  cases T with
  | blkUrl => exact ⟨.trustedUser, by decide⟩
  | _ => exact ⟨.blkUrl, by decide⟩

theorem behaves_step (c : Call) (h : Kept s) (hlegal : Legal s c) :
    ∃ t, step s c = some t ∧ (Behaves s c t ↔ Ok s c) ∧ (Ok s c → Kept t) := by
  cases c with
  | addEntry T =>
    refine ⟨_, rfl, ?_, h.addEntry⟩
    simp only [Behaves, Ok, Table.AddEntry_eq, addLink]
    exact and_iff_right (Table.number_ne_zero (h.next T))
  | commit T i =>
    have hl : (s.list T)[i]? = some (s.list T)[i] := List.getElem?_eq_getElem hlegal
    refine ⟨(commitLink T i (s.list T)[i] s).2, ?_, Iff.rfl, fun _ => ?_⟩
    · rw [step, Table.Commit_eq, onEntry, hl]
      rfl
    · cases hnew : (s.list T)[i].bNew with
      | true => exact h.commitNew hl hnew
      | false =>
        rw [commitLink_of_old h hl hnew]
        exact h
  | delEntry T i =>
    have hl : (s.list T)[i]? = some (s.list T)[i] := List.getElem?_eq_getElem hlegal
    refine ⟨(delLink T i (s.list T)[i] s).2, ?_, ?_, fun hok => h.delEntry hl (hok _ hl)⟩
    · rw [step, Table.DelEntry_eq, onEntry, hl]
      rfl
    · simp only [Behaves, Ok, Table.DelEntry_eq, onEntry, hl, Option.map_some, Option.some.injEq,
        forall_eq', delLink_succeeds_iff h hl]
      apply and_iff_left_of_imp
      intro hold
      rw [delLink_of_old h hl hold]
      rfl
  | restart =>
    refine ⟨_, rfl, ?_, fun hok => (h.restart hok).1⟩
    constructor
    · intro hbehaves T l hl
      by_contra hnew
      obtain ⟨T', hT⟩ := other_table T
      exact h.restart_mixes hl (Bool.eq_true_of_not_eq_false hnew) hT (hbehaves T')
    · exact fun hok => (h.restart hok).2

/-- A run from empty stores does what it should exactly when every number given out is
not in use, only committed entries are deleted and no restart finds another entry. -/
theorem tables_behave_iff (calls : List Call) (hlegal : StepsMeet step Legal start calls) :
    Along step Behaves start calls ↔ StepsMeet step Ok start calls :=
  along_iff_of_legal step Kept (fun s c => behaves_step s c) kept_start hlegal

theorem tables_behave_commit : Along step Behaves start
    [.addEntry .blkUrl, .commit .blkUrl 0, .restart, .addEntry .mdDev, .commit .mdDev 0,
      .delEntry .mdDev 0] ↔ StepsMeet step Ok start
    [.addEntry .blkUrl, .commit .blkUrl 0, .restart, .addEntry .mdDev, .commit .mdDev 0,
      .delEntry .mdDev 0] := by
  apply tables_behave_iff
  refine ⟨trivial, fun s hs => ⟨?_, fun t ht => ⟨trivial, fun u hu => ⟨trivial, fun v hv =>
    ⟨?_, fun w hw => ⟨?_, fun _ _ => trivial⟩⟩⟩⟩⟩⟩
  · obtain rfl := Option.some.inj hs
    decide
  · obtain rfl := Option.some.inj hs
    obtain rfl := Option.some.inj ht
    obtain rfl := Option.some.inj hu
    obtain rfl := Option.some.inj hv
    decide +kernel
  · obtain rfl := Option.some.inj hs
    obtain rfl := Option.some.inj ht
    obtain rfl := Option.some.inj hu
    obtain rfl := Option.some.inj hv
    obtain rfl := Option.some.inj hw
    decide +kernel

/-- A blocked URL that is not committed is a trusted user, too, after a restart; and it
cannot be deleted. -/
theorem uncommitted_url_everywhere :
    StepsMeet step Legal start [.addEntry .blkUrl, .restart] ∧
      ¬ Along step Behaves start [.addEntry .blkUrl, .restart] ∧
      StepsMeet step Legal start [.addEntry .blkUrl, .delEntry .blkUrl 0] ∧
      ¬ Along step Behaves start [.addEntry .blkUrl, .delEntry .blkUrl 0] := by
  refine ⟨⟨trivial, fun _ _ => ⟨trivial, fun _ _ => trivial⟩⟩, ?_,
    ⟨trivial, fun s hs => ⟨?_, fun _ _ => trivial⟩⟩, ?_⟩
  · intro h
    have hrestart := ((h _ rfl).2 _ rfl).1 .trustedUser
    have hlength := hrestart.length_eq
    revert hlength
    decide +kernel
  · obtain rfl := Option.some.inj hs
    decide +kernel
  · intro h
    have hdelete := ((h _ rfl).2 _ rfl).1.1
    revert hdelete
    decide +kernel

end CcspPandM.ParentalControlRuns
