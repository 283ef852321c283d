import CcspPandM.InitialNumbers
import CcspPandM.Runs
import CcspPandM.ScanText

/-!
The clients, host names and servers of Dynamic DNS. Each table is a list of entries
beside those of the backend; an entry that the backend has not accepted yet should
be kept in a folder of the registry. The folder of an entry is added, but its number
and alias are recorded in the folder of the table, so a restart finds none of them.
-/
namespace CcspPandM.DynamicDns

open CString InitialNumbers Registry Runs ScanText
open IpRegistry (ULONG advance nextAfter pushEntryByInsNum pushEntry_perm toNat_nextAfter)

inductive Table where
  | client
  | host
  | server
  deriving DecidableEq

namespace Table

def folderName : Table → CStr
  | client => "DynamicDnsClient".toList
  | host => "DynamicDnsHost".toList
  | server => "DynamicDnsServer".toList

def Alias (T : Table) : CStr := T.folderName ++ "Alias".toList

def InsNum (T : Table) : CStr := T.folderName ++ "InstanceNumber".toList

def NextInsNumber (T : Table) : CStr := T.folderName ++ "NextInstanceNumber".toList

/-- The alias of an entry with a new number, which fits `Alias[64]`. -/
def aliasOf (T : Table) (number : ULONG) : CStr :=
  match T with
  | client => "cpe-ddns-client-".toList ++ intText number
  | host => "cpe-ddns-host-".toList ++ intText number
  | server => "cpe-ddns-server-".toList ++ intText number

end Table

structure Entry where
  InstanceNumber : ULONG
  Alias : CStr
  deriving DecidableEq

/-- `hPoamIrepFo` is the name of the folder it is a handle of. The source has no field
`accepted`: it says whether the backend has taken the entry. -/
structure ContextLink where
  InstanceNumber : ULONG
  Alias : CStr
  bNew : Bool
  hPoamIrepFo : Option CStr
  accepted : Bool
  deriving DecidableEq

def ContextLink.entry (l : ContextLink) : Entry := ⟨l.InstanceNumber, l.Alias⟩

def committed (e : Entry) : ContextLink := ⟨e.InstanceNumber, e.Alias, false, none, true⟩

structure System where
  folder : Folder
  list : List ContextLink
  nextInsNum : ULONG

def push (list : List ContextLink) (l : ContextLink) : List ContextLink :=
  pushEntryByInsNum ContextLink.InstanceNumber list l

section Registry

/-- Number and alias are added to the folder of the table, which is passed as the object
of the calls, and not to the one that was opened for the entry. -/
def AddInfo (T : Table) (nextInsNum : ULONG) (e : Entry) (pPoamIrepFo : Folder) : Folder :=
  let next := (pPoamIrepFo.DelRecord T.NextInsNumber).AddRecord T.NextInsNumber
    (.uint32 nextInsNum)
  ((next.AddFolder e.Alias id).AddRecord T.InsNum (.uint32 e.InstanceNumber)).AddRecord
    T.Alias (.string e.Alias)

/-- Without a handle of a folder nothing is deleted. -/
def DelInfo (l : ContextLink) (pPoamIrepUpperFo : Folder) : Option Folder :=
  l.hPoamIrepFo.map pPoamIrepUpperFo.DelFolder

/-- A folder with a number and an alias becomes a new entry; the alias goes to `Alias[64]`. -/
def restoreFolder (T : Table) (list : List ContextLink) (x : CStr × Folder) :
    List ContextLink :=
  match x.2.getUint32 T.InsNum, x.2.getString T.Alias with
  | some ulInstanceNumber, some pAlias =>
    push list ⟨ulInstanceNumber, (Buf.sprintf_s pAlias : Buf 64).text, true, some x.1, false⟩
  | _, _ => list

def GetInfo (T : Table) (s : System) : System :=
  { s with list := s.folder.folders.foldl (restoreFolder T) s.list }

def CosaDynamicDns_ClientAddInfo : ULONG → Entry → Folder → Folder := AddInfo .client

def CosaDynamicDns_HostAddInfo : ULONG → Entry → Folder → Folder := AddInfo .host

def CosaDynamicDns_ServerAddInfo : ULONG → Entry → Folder → Folder := AddInfo .server

def CosaDynamicDns_ClientGetInfo : System → System := GetInfo .client

def CosaDynamicDns_HostGetInfo : System → System := GetInfo .host

def CosaDynamicDns_ServerGetInfo : System → System := GetInfo .server

end Registry

section Calls

def loadEntry (T : Table) (st : ULONG × List ContextLink) (e : Entry) :
    ULONG × List ContextLink :=
  if e.InstanceNumber ≠ 0 then (advance st.1 e.InstanceNumber, push st.2 (committed e))
  else (nextAfter st.1, push st.2 (committed ⟨st.1, T.aliasOf st.1⟩))

/-- The part of `CosaDynamicDnsInitialize` for a table: its counter, the entries of the
backend, and those of the registry. -/
def CosaDynamicDnsInitialize (T : Table) (folder : Folder) (backend : List Entry) : System :=
  let loaded := backend.foldl (loadEntry T) ((folder.getUint32 T.NextInsNumber).getD 1, [])
  GetInfo T ⟨folder, loaded.2, loaded.1⟩

def addEntry (T : Table) (s : System) : System :=
  let next := nextAfter s.nextInsNum
  let e : Entry := ⟨s.nextInsNum, T.aliasOf s.nextInsNum⟩
  { folder := AddInfo T next e s.folder
    list := push s.list ⟨e.InstanceNumber, e.Alias, true, some e.Alias, false⟩
    nextInsNum := next }

def DDNSClient_AddEntry (s : System) : System := addEntry .client s

/-- There is room for one host name. -/
def DDNSHostname_AddEntry (s : System) : System :=
  if s.list.length = 1 then s else addEntry .host s

def DDNSServer_AddEntry (s : System) : System := addEntry .server s

/-- The commit of an entry that the backend has: when it is not set there, it is read back. -/
def setConf (s : System) (i : ℕ) (accepted : Bool) (conf : Option CStr) : System :=
  if accepted then s
  else { s with list := s.list.modify i fun l => { l with Alias := conf.getD l.Alias } }

def unmark (s : System) (i : ℕ) (accepted : Bool) : System :=
  { s with list := s.list.modify i fun l => { l with bNew := false, accepted := accepted } }

/-- The mark is taken away before the backend is asked. -/
def DDNSClient_Commit (s : System) (i : ℕ) (l : ContextLink) (accepted : Bool)
    (conf : Option CStr) : System :=
  if l.bNew then
    let s := unmark s i accepted
    if accepted then { s with folder := (DelInfo l s.folder).getD s.folder } else s
  else setConf s i accepted conf

def commitEntry (s : System) (i : ℕ) (l : ContextLink) (accepted : Bool)
    (conf : Option CStr) : System :=
  if l.bNew then
    if accepted then unmark { s with folder := (DelInfo l s.folder).getD s.folder } i true else s
  else setConf s i accepted conf

def DDNSHostname_Commit : System → ℕ → ContextLink → Bool → Option CStr → System := commitEntry

def DDNSServer_Commit : System → ℕ → ContextLink → Bool → Option CStr → System := commitEntry

/-- The backend is asked first, and its answer is not looked at. -/
def delEntry (s : System) (i : ℕ) (l : ContextLink) : System :=
  { s with
    folder := if l.bNew then (DelInfo l s.folder).getD s.folder else s.folder
    list := s.list.eraseIdx i }

def DDNSClient_DelEntry : System → ℕ → ContextLink → System := delEntry

def DDNSHostname_DelEntry : System → ℕ → ContextLink → System := delEntry

/-- A server is kept when its folder or the backend's entry is not deleted. -/
def DDNSServer_DelEntry (s : System) (i : ℕ) (l : ContextLink) (deleted : Bool) : System :=
  if l.bNew then
    match DelInfo l s.folder with
    | some folder => { s with folder := folder, list := s.list.eraseIdx i }
    | none => { s with list := s.list.modify i fun l => { l with bNew := false } }
  else if deleted then { s with list := s.list.eraseIdx i } else s

namespace Table

def AddEntry : Table → System → System
  | client => DDNSClient_AddEntry
  | host => DDNSHostname_AddEntry
  | server => DDNSServer_AddEntry

def Commit : Table → System → ℕ → ContextLink → Bool → Option CStr → System
  | client => DDNSClient_Commit
  | host => DDNSHostname_Commit
  | server => DDNSServer_Commit

def DelEntry : Table → System → ℕ → ContextLink → Bool → System
  | client => fun s i l _ => DDNSClient_DelEntry s i l
  | host => fun s i l _ => DDNSHostname_DelEntry s i l
  | server => DDNSServer_DelEntry

end Table

/-- The calls on a table. Entries are named by their place in the list; the answers of the
backend, the alias it reads back and the entries it has at a restart come with the calls. -/
inductive Call where
  | AddEntry
  | Commit (i : ℕ) (accepted : Bool) (conf : Option CStr)
  | DelEntry (i : ℕ) (deleted : Bool)
  | Initialize (backend : List Entry)

def step (T : Table) (s : System) : Call → Option System
  | .AddEntry => some (T.AddEntry s)
  | .Commit i accepted conf => s.list[i]?.map fun l => T.Commit s i l accepted conf
  | .DelEntry i deleted => s.list[i]?.map fun l => T.DelEntry s i l deleted
  | .Initialize backend => some (CosaDynamicDnsInitialize T s.folder backend)

/-- Before the first start: the folder of the table is empty or not there yet. -/
def start : System := ⟨Folder.empty, [], 1⟩

end Calls

variable (T : Table)

section Loading

/-- The entries of the backend after a load: those without a number get the counter. -/
def numbered (T : Table) : ULONG → List Entry → List Entry
  | _, [] => []
  | next, e :: backend =>
    (if e.InstanceNumber = 0 then ⟨next, T.aliasOf next⟩ else e) ::
      numbered T (counterStep next e.InstanceNumber) backend

theorem map_numbered (next : ULONG) (backend : List Entry) :
    (numbered T next backend).map Entry.InstanceNumber =
      numbers next (backend.map Entry.InstanceNumber) := by
  induction backend generalizing next with
  | nil => rfl
  | cons e backend ih =>
    rw [numbered, List.map_cons, List.map_cons, numbers, ih]
    split
    · rfl
    · rfl

theorem forall₂_numbered (next : ULONG) (backend : List Entry) :
    List.Forall₂ (fun e e' => e.InstanceNumber ≠ 0 → e' = e) backend (numbered T next backend) := by
  induction backend generalizing next with
  | nil => exact List.Forall₂.nil
  | cons e backend ih => exact List.Forall₂.cons (fun he => if_neg he) (ih _)

theorem foldl_loadEntry (backend : List Entry) (next : ULONG)
    (list : List ContextLink) :
    (backend.foldl (loadEntry T) (next, list)).1 =
        counter next (backend.map Entry.InstanceNumber) ∧
      (backend.foldl (loadEntry T) (next, list)).2.Perm
        (list ++ (numbered T next backend).map committed) := by
  induction backend generalizing next list with
  | nil => exact ⟨rfl, by simp [numbered]⟩
  | cons e backend ih =>
    have hround : loadEntry T (next, list) e =
        (counterStep next e.InstanceNumber, push list
          (committed (if e.InstanceNumber = 0 then ⟨next, T.aliasOf next⟩ else e))) := by
      unfold loadEntry counterStep
      by_cases he : e.InstanceNumber = 0
      · simp only [he, ne_eq, not_true_eq_false, if_false, if_true]
      · simp only [he, ne_eq, not_false_eq_true, if_false, if_true]
    rw [List.foldl_cons, hround]
    obtain ⟨hcounter, hperm⟩ := ih (counterStep next e.InstanceNumber) (push list
      (committed (if e.InstanceNumber = 0 then ⟨next, T.aliasOf next⟩ else e)))
    refine ⟨hcounter, hperm.trans ?_⟩
    rw [numbered, List.map_cons]
    apply ((pushEntry_perm ContextLink.InstanceNumber list _).append_right _).trans
    exact List.perm_middle.symm

end Loading

section Folders

/-- No folder of an entry holds anything. -/
def Bare (s : System) : Prop := ∀ x ∈ s.folder.folders, x.2 = Folder.empty

theorem restoreFolder_empty (list : List ContextLink) (name : CStr) :
    restoreFolder T list (name, Folder.empty) = list := rfl

theorem foldl_restoreFolder {T : Table} {folders : List (CStr × Folder)}
    (h : ∀ x ∈ folders, x.2 = Folder.empty) (list : List ContextLink) :
    folders.foldl (restoreFolder T) list = list := by
  induction folders with
  | nil => rfl
  | cons x folders ih =>
    obtain ⟨name, fo⟩ := x
    obtain ⟨hfirst, hrest⟩ := List.forall_mem_cons.mp h
    change fo = Folder.empty at hfirst
    rw [List.foldl_cons, hfirst, restoreFolder_empty]
    exact ih hrest

theorem bare_addEntry {s : System} (h : Bare s) : Bare (addEntry T s) := by
  intro x hx
  change x ∈ (s.folder.AddFolder (T.aliasOf s.nextInsNum) id).folders at hx
  rcases (KeyedList.mem_put_iff _ _).mp hx with rfl | ⟨hold, -⟩
  · change (s.folder.GetFolder (T.aliasOf s.nextInsNum)).getD Folder.empty = Folder.empty
    cases hget : s.folder.GetFolder (T.aliasOf s.nextInsNum) with
    | none => rfl
    | some fo =>
      obtain ⟨y, hy, rfl⟩ := Option.map_eq_some_iff.mp hget
      exact h y (List.mem_of_find?_eq_some hy)
  · exact h x hold

theorem list_Initialize {T : Table} {s : System} (h : Bare s) (backend : List Entry) :
    (CosaDynamicDnsInitialize T s.folder backend).list.Perm
      ((numbered T ((s.folder.getUint32 T.NextInsNumber).getD 1) backend).map committed) := by
  have hperm := (foldl_loadEntry T backend ((s.folder.getUint32 T.NextInsNumber).getD 1) []).2
  rw [List.nil_append] at hperm
  change (s.folder.folders.foldl (restoreFolder T) _).Perm _
  rw [foldl_restoreFolder h]
  exact hperm

end Folders

variable {s : System} {list : List ContextLink}

section Marks

theorem mem_push {l l' : ContextLink} :
    l' ∈ push list l ↔ l' = l ∨ l' ∈ list := by
  rw [push, (pushEntry_perm ContextLink.InstanceNumber list l).mem_iff, List.mem_cons]

theorem mem_modify {i : ℕ} {l l' : ContextLink}
    {f : ContextLink → ContextLink} (hl : list[i]? = some l) (h : l' ∈ list.modify i f) :
    l' = f l ∨ l' ∈ list := by
  have hperm := (KeyedList.modify_perm hl f).mem_iff.mp h
  rcases List.mem_cons.mp hperm with h | h
  · exact Or.inl h
  · exact Or.inr (List.mem_of_mem_eraseIdx h)

end Marks

section Lawful

def HasFolder (T : Table) (folder : Folder) (e : Entry) : Prop :=
  ∃ x ∈ folder.folders, x.2.getUint32 T.InsNum = some e.InstanceNumber ∧
    x.2.getString T.Alias = some e.Alias

def newEntries (list : List ContextLink) : List Entry :=
  (list.filter fun l => l.bNew).map ContextLink.entry

def oldEntries (list : List ContextLink) : List Entry :=
  (list.filter fun l => !l.bNew).map ContextLink.entry

/-- The new entries are those that the backend has not accepted, and those with a folder. -/
structure Agrees (T : Table) (s : System) : Prop where
  marks : ∀ l ∈ s.list, l.bNew = true ↔ l.accepted = false
  folders : ∀ l ∈ s.list, l.bNew = true ↔ HasFolder T s.folder l.entry

/-- What a call should do: a failed commit leaves list and folders, and a restart restores
the new entries beside those of the backend, with the counter above all numbers. -/
def Behaves (T : Table) (s : System) (c : Call) (t : System) : Prop :=
  Agrees T t ∧
    match c with
    | .Commit i accepted _ => ∀ l, s.list[i]? = some l → l.bNew = true → accepted = false →
      t.list = s.list ∧ t.folder = s.folder
    | .Initialize backend => (newEntries t.list).Perm (newEntries s.list) ∧
      (∃ es, (oldEntries t.list).Perm es ∧
        List.Forall₂ (fun e e' => e.InstanceNumber ≠ 0 → e' = e) backend es) ∧
      ∀ l ∈ t.list, l.InstanceNumber < t.nextInsNum
    | _ => True

def Legal (s : System) : Call → Prop
  | .Commit i _ _ => i < s.list.length
  | .DelEntry i _ => i < s.list.length
  | _ => True

/-- No entry is made, and the numbers of the backend stay below the largest. -/
def Fit (T : Table) (s : System) : Call → Prop
  | .AddEntry => T = .host ∧ s.list.length = 1
  | .Initialize backend => highest (backend.map Entry.InstanceNumber) < 2 ^ 32 - 1
  | _ => True

/-- While no entry is made: no folders, no counter on record, only entries of the backend. -/
structure Inv (T : Table) (s : System) : Prop where
  folders : s.folder.folders = []
  counter : s.folder.getUint32 T.NextInsNumber = none
  old : ∀ l ∈ s.list, l.bNew = false ∧ l.accepted = true

variable {T : Table}

theorem not_hasFolder {folder : Folder} (h : ∀ x ∈ folder.folders, x.2 = Folder.empty)
    (e : Entry) : ¬ HasFolder T folder e := by
  intro hfo
  obtain ⟨x, hx, hnumber, -⟩ := hfo
  rw [h x hx] at hnumber
  cases hnumber

theorem Inv.bare (h : Inv T s) : Bare s := by
  intro x hx
  rw [h.folders] at hx
  cases hx

theorem Inv.agrees (h : Inv T s) : Agrees T s where
  marks := fun l hl => by simp [h.old l hl]
  folders := fun l hl => by simp [(h.old l hl).1, not_hasFolder h.bare]

theorem not_agrees_addEntry (h : Inv T s) : ¬ Agrees T (addEntry T s) := by
  intro hagrees
  have hmem : (⟨s.nextInsNum, T.aliasOf s.nextInsNum, true, some (T.aliasOf s.nextInsNum), false⟩ :
      ContextLink) ∈ (addEntry T s).list := mem_push.mpr (Or.inl rfl)
  have hfo := (hagrees.folders _ hmem).mp rfl
  exact not_hasFolder (bare_addEntry T h.bare) _ hfo

theorem newEntries_of_old (h : ∀ l ∈ list, l.bNew = false) :
    newEntries list = [] := by
  rw [newEntries, List.filter_eq_nil_iff.mpr, List.map_nil]
  intro l hl
  simp [h l hl]

theorem oldEntries_committed (es : List Entry) : oldEntries (es.map committed) = es := by
  have hall : (es.map committed).filter (fun l => !l.bNew) = es.map committed := by
    apply List.filter_eq_self.mpr
    intro l hl
    obtain ⟨e, -, rfl⟩ := List.mem_map.mp hl
    rfl
  rw [oldEntries, hall, List.map_map]
  exact List.map_id es

theorem inv_Initialize (h : Inv T s) (backend : List Entry) :
    Inv T (CosaDynamicDnsInitialize T s.folder backend) where
  folders := h.folders
  counter := h.counter
  old := fun l hl => by
    obtain ⟨e, -, rfl⟩ := List.mem_map.mp ((list_Initialize h.bare backend).mem_iff.mp hl)
    exact ⟨rfl, rfl⟩

theorem behaves_Initialize_iff (h : Inv T s) (backend : List Entry) :
    Behaves T s (.Initialize backend) (CosaDynamicDnsInitialize T s.folder backend) ↔
      highest (backend.map Entry.InstanceNumber) < 2 ^ 32 - 1 := by
  have hperm := list_Initialize (T := T) h.bare backend
  rw [h.counter, Option.getD_none] at hperm
  have hnext : (CosaDynamicDnsInitialize T s.folder backend).nextInsNum =
      counter 1 (backend.map Entry.InstanceNumber) := by
    have hload := (foldl_loadEntry T backend 1 []).1
    change (backend.foldl (loadEntry T) ((s.folder.getUint32 T.NextInsNumber).getD 1, [])).1 = _
    rw [h.counter]
    exact hload
  have habove : (∀ l ∈ (CosaDynamicDnsInitialize T s.folder backend).list,
      l.InstanceNumber < (CosaDynamicDnsInitialize T s.folder backend).nextInsNum) ↔
      highest (backend.map Entry.InstanceNumber) < 2 ^ 32 - 1 := by
    rw [← numbers_lt_counter_iff, ← map_numbered T, hnext]
    constructor
    · intro hall m hm
      obtain ⟨e, he, rfl⟩ := List.mem_map.mp hm
      exact hall _ (hperm.mem_iff.mpr (List.mem_map_of_mem he))
    · intro hall l hl
      obtain ⟨e, he, rfl⟩ := List.mem_map.mp (hperm.mem_iff.mp hl)
      exact hall _ (List.mem_map_of_mem he)
  have hinv := inv_Initialize h backend
  constructor
  · intro hb
    exact habove.mp hb.2.2.2
  · intro hhigh
    refine ⟨hinv.agrees, ?_, ⟨numbered T 1 backend, ?_, forall₂_numbered T 1 backend⟩,
      habove.mpr hhigh⟩
    · rw [newEntries_of_old (fun l hl => (hinv.old l hl).1),
        newEntries_of_old (fun l hl => (h.old l hl).1)]
    · have hold := (hperm.filter (fun l => !l.bNew)).map ContextLink.entry
      change (oldEntries _).Perm (oldEntries _) at hold
      rwa [oldEntries_committed] at hold

variable {l : ContextLink}

theorem inv_setConf (h : Inv T s) {i : ℕ} (hl : s.list[i]? = some l)
    (accepted : Bool) (conf : Option CStr) : Inv T (setConf s i accepted conf) := by
  unfold setConf
  split
  · exact h
  · refine ⟨h.folders, h.counter, fun l' hl' => ?_⟩
    rcases mem_modify hl hl' with rfl | hl'
    · exact h.old l (List.mem_of_getElem? hl)
    · exact h.old l' hl'

theorem commit_of_old (hold : l.bNew = false) (s : System) (i : ℕ)
    (accepted : Bool) (conf : Option CStr) : T.Commit s i l accepted conf =
      setConf s i accepted conf := by
  have hcommit : commitEntry s i l accepted conf = setConf s i accepted conf := by
    rw [commitEntry, hold]
    rfl
  cases T with
  | client =>
    change DDNSClient_Commit s i l accepted conf = _
    rw [DDNSClient_Commit, hold]
    rfl
  | host => exact hcommit
  | server => exact hcommit

theorem inv_delEntry (h : Inv T s) {i : ℕ} (hl : s.list[i]? = some l)
    (deleted : Bool) : Inv T (T.DelEntry s i l deleted) := by
  have hold := (h.old l (List.mem_of_getElem? hl)).1
  have herase : Inv T { s with list := s.list.eraseIdx i } :=
    ⟨h.folders, h.counter, fun l' hl' => h.old l' (List.mem_of_mem_eraseIdx hl')⟩
  have hdel : Inv T (delEntry s i l) := by
    rw [delEntry, hold]
    exact herase
  cases T with
  | client => exact hdel
  | host => exact hdel
  | server =>
    change Inv .server (DDNSServer_DelEntry s i l deleted)
    rw [DDNSServer_DelEntry, hold, if_neg (by decide)]
    split
    · exact herase
    · exact h

theorem behaves_step {c : Call} (h : Inv T s) (hlegal : Legal s c) :
    ∃ t, step T s c = some t ∧ (Behaves T s c t ↔ Fit T s c) ∧ (Fit T s c → Inv T t) := by
  cases c with
  | AddEntry =>
    refine ⟨T.AddEntry s, rfl, ?_⟩
    by_cases hfull : T = .host ∧ s.list.length = 1
    · have hsame : T.AddEntry s = s := by
        obtain ⟨rfl, hlength⟩ := hfull
        exact if_pos hlength
      rw [hsame]
      exact ⟨⟨fun _ => hfull, fun _ => ⟨h.agrees, trivial⟩⟩, fun _ => h⟩
    · have hadd : T.AddEntry s = addEntry T s := by
        cases T with
        | client => rfl
        | server => rfl
        | host => exact if_neg (fun hlength => hfull ⟨rfl, hlength⟩)
      rw [hadd]
      exact ⟨⟨fun hb => absurd hb.1 (not_agrees_addEntry h), fun hfit => absurd hfit hfull⟩,
        fun hfit => absurd hfit hfull⟩
  | Commit i accepted conf =>
    obtain ⟨l, hl⟩ : ∃ l, s.list[i]? = some l := ⟨_, List.getElem?_eq_getElem hlegal⟩
    have hold := (h.old l (List.mem_of_getElem? hl)).1
    have hinv := inv_setConf h hl accepted conf
    rw [← commit_of_old (T := T) hold s i accepted conf] at hinv
    refine ⟨T.Commit s i l accepted conf, by rw [step, hl, Option.map_some], ?_, fun _ => hinv⟩
    refine ⟨fun _ => trivial, fun _ => ⟨hinv.agrees, fun l' hl' hnew => ?_⟩⟩
    obtain rfl : l = l' := Option.some.inj (hl.symm.trans hl')
    rw [hold] at hnew
    cases hnew
  | DelEntry i deleted =>
    obtain ⟨l, hl⟩ : ∃ l, s.list[i]? = some l := ⟨_, List.getElem?_eq_getElem hlegal⟩
    have hinv := inv_delEntry h hl deleted
    refine ⟨T.DelEntry s i l deleted, by rw [step, hl, Option.map_some], ?_, fun _ => hinv⟩
    exact ⟨fun _ => trivial, fun _ => ⟨hinv.agrees, trivial⟩⟩
  | Initialize backend =>
    exact ⟨_, rfl, behaves_Initialize_iff h backend, fun _ => inv_Initialize h backend⟩

theorem inv_start : Inv T start where
  folders := rfl
  counter := rfl
  old := fun _ hl => absurd hl List.not_mem_nil

/-- From an empty table, a run of the calls behaves exactly when it makes no entry and
each restart finds numbers below the largest. -/
theorem dynamicDns_behaves_iff (T : Table) {calls : List Call}
    (hlegal : StepsMeet (step T) Legal start calls) :
    Along (step T) (Behaves T) start calls ↔ StepsMeet (step T) (Fit T) start calls :=
  along_iff_of_legal (step T) (Inv T) (fun _ _ => behaves_step) inv_start hlegal

theorem dynamicDns_behaves_restart : Along (step .client) (Behaves .client) start
    [.Initialize [⟨0, []⟩, ⟨7, "home".toList⟩], .Commit 1 true none, .DelEntry 0 true] := by
  have hlist : (CosaDynamicDnsInitialize .client Folder.empty
      [⟨0, []⟩, ⟨7, "home".toList⟩]).list.length = 2 := by decide +kernel
  apply (dynamicDns_behaves_iff .client ?_).mpr
  · refine ⟨?_, fun _ _ => ⟨trivial, fun _ _ => ⟨trivial, fun _ _ => trivial⟩⟩⟩
    change highest [0, 7] < 2 ^ 32 - 1
    decide
  · refine ⟨trivial, fun s hs => ?_⟩
    obtain rfl := Option.some.inj hs
    refine ⟨?_, fun t ht => ⟨?_, fun _ _ => trivial⟩⟩
    · change 1 < List.length _
      rw [start, hlist]
      decide
    · obtain rfl := Option.some.inj ht
      change 0 < List.length _
      decide +kernel

/-- A client is added, and its folder is empty. -/
theorem added_client_unrecorded : ¬ ∀ (T : Table) (calls : List Call),
    StepsMeet (step T) Legal start calls → Along (step T) (Behaves T) start calls := by
  intro hall
  have h := hall .client [.AddEntry] ⟨trivial, fun _ _ => trivial⟩
  exact not_agrees_addEntry inv_start (h _ rfl).1.1

end Lawful

end CcspPandM.DynamicDns
