import CcspPandM.CString
import CcspPandM.Runs
import Mathlib.Data.List.Nodup

/-!
The RFC store: one object in memory, its file, and a second object that collects
the sets of a batch. A single set goes to the store and the file at once. The end
of a batch adds the records that WebPA wrote to the collected ones, writes them
to the file and makes them the store.
-/
namespace CcspPandM.RfcStore

open CString Runs

section Json

variable {ν : Type}

abbrev Members (ν : Type) := List (CStr × ν)

def GetObjectItem (object : Option (Members ν)) (string : CStr) : Option ν :=
  object.bind (fun members => members.lookup string)

def AddItemToObject (object : Option (Members ν)) (string : CStr) (item : ν) :
    Option (Members ν) := object.map (fun members => members ++ [(string, item)])

def replaceItem : Members ν → CStr → ν → Members ν
  | [], _, _ => []
  | (key, value) :: members, string, item =>
    if key = string then (string, item) :: members
    else (key, value) :: replaceItem members string item

def ReplaceItemInObject (object : Option (Members ν)) (string : CStr) (item : ν) :
    Option (Members ν) := object.map (fun members => replaceItem members string item)

end Json

inductive Item where
  | string (valuestring : CStr)
  | other (printed : CStr)
  deriving DecidableEq

/-- A record of the store; one that is not an object has no items by name. -/
inductive Record where
  | object (items : Members Item)
  | other (printed : CStr)
  deriving DecidableEq

abbrev JsonObject := Members Record

def Record.UpdateSource : Record → Option Item
  | object items => GetObjectItem (some items) "UpdateSource".toList
  | other _ => none

/-- What `RFC_STORE_FILE` holds; an object stands for its printed text. -/
inductive StoreFile where
  | absent
  | empty
  | unparsable
  | object (members : JsonObject)
  deriving DecidableEq

/-- The object under `pJsonObj` stays when the file is missing or empty. -/
def RfcJsonInit (pJsonObj : Option JsonObject) (jsonFile : StoreFile) : Option JsonObject :=
  match jsonFile with
  | .absent => pJsonObj
  | .empty => pJsonObj
  | .unparsable => none
  | .object members => some members

/-- A null object prints to nothing, and nothing is not written. -/
def writeToJson (data : Option JsonObject) (file : StoreFile) : StoreFile :=
  match data with
  | none => file
  | some members => .object members

structure State where
  file : StoreFile
  pRfcStore : Option JsonObject
  rfcNewJson : Option JsonObject
  deriving DecidableEq

def CosaDmlDiRfcStoreInit (file : StoreFile) : State := ⟨file, RfcJsonInit none file, none⟩

def StartRfcProcessing (s : State) : State := { s with rfcNewJson := some [] }

def paramObj (value pSource pCurrentTime : CStr) : Record :=
  .object [("Value".toList, .string value), ("UpdateTime".toList, .string pCurrentTime),
    ("UpdateSource".toList, .string pSource)]

def setItem (object : Option JsonObject) (string : CStr) (item : Record) : Option JsonObject :=
  if (GetObjectItem object string).isSome then ReplaceItemInObject object string item
  else AddItemToObject object string item

def ProcessRfcSet (s : State) (clearDB : Bool) (paramFullName : CStr) (param : Record) : State :=
  if clearDB = false then
    let pRfcStore := setItem (some (s.pRfcStore.getD [])) paramFullName param
    { s with pRfcStore := pRfcStore, file := writeToJson pRfcStore s.file }
  else { s with rfcNewJson := setItem s.rfcNewJson paramFullName param }

/-- The loop over the store. A source that is not a text is compared as a null pointer. -/
def addWebpaRecords (rfcNewJson : Option JsonObject) :
    JsonObject → Option (Option JsonObject)
  | [] => some rfcNewJson
  | (key, element) :: elements =>
    match element.UpdateSource with
    | none => addWebpaRecords rfcNewJson elements
    | some (.other _) => none
    | some (.string valuestring) =>
      if valuestring = "webpa".toList ∧ GetObjectItem rfcNewJson key = none then
        addWebpaRecords (AddItemToObject rfcNewJson key element) elements
      else addWebpaRecords rfcNewJson elements

def EndRfcProcessing (s : State) : Option State :=
  (addWebpaRecords s.rfcNewJson (s.pRfcStore.getD [])).map (fun rfcNewJson =>
    { file := writeToJson rfcNewJson s.file, pRfcStore := rfcNewJson, rfcNewJson := none })

/-- The calls, and a new start of the process, which reads the file. -/
inductive Op where
  | start
  | set (clearDB : Bool) (paramFullName value pSource pCurrentTime : CStr)
  | done
  | reload

structure Run where
  state : State
  batch : Members Record

def init (file : StoreFile) : Run := ⟨CosaDmlDiRfcStoreInit file, []⟩

def step (r : Run) : Op → Option Run
  | .start => some ⟨StartRfcProcessing r.state, []⟩
  | .set clearDB paramFullName value pSource pCurrentTime =>
    let param := paramObj value pSource pCurrentTime
    some ⟨ProcessRfcSet r.state clearDB paramFullName param,
      if clearDB then r.batch ++ [(paramFullName, param)] else r.batch⟩
  | .done => (EndRfcProcessing r.state).map (fun s => ⟨s, []⟩)
  | .reload => some (init r.state.file)

section Lookups

variable {ν : Type}

def Distinct (members : Members ν) : Prop := (members.map Prod.fst).Nodup

theorem keys_replaceItem (members : Members ν) (key : CStr) (item : ν) :
    (replaceItem members key item).map Prod.fst = members.map Prod.fst := by
  induction members with
  | nil => rfl
  | cons member members ih =>
    obtain ⟨other, value⟩ := member
    rw [replaceItem]
    split
    · next h => simp [h]
    · rw [List.map_cons, ih, List.map_cons]

theorem lookup_replaceItem (members : Members ν) (key : CStr) (item : ν)
    (h : key ∈ members.map Prod.fst) (j : CStr) :
    (replaceItem members key item).lookup j = if j = key then some item else members.lookup j := by
  induction members with
  | nil => simp at h
  | cons member members ih =>
    obtain ⟨other, value⟩ := member
    rw [replaceItem]
    by_cases hother : other = key
    · rw [if_pos hother, List.lookup_cons, List.lookup_cons]
      by_cases hj : j = key
      · simp [hj]
      · have hbeq : (j == key) = false := by simpa using hj
        simp [hj, hother, hbeq]
    · have hmem : key ∈ members.map Prod.fst := by
        rw [List.map_cons, List.mem_cons] at h
        exact h.resolve_left (fun heq => hother heq.symm)
      rw [if_neg hother, List.lookup_cons, List.lookup_cons, ih hmem]
      by_cases hj : j = other
      · simp [hj, hother]
      · have hbeq : (j == other) = false := by simpa using hj
        simp [hbeq]

theorem lookup_isSome_iff_mem (members : Members ν) (key : CStr) :
    (members.lookup key).isSome ↔ key ∈ members.map Prod.fst := by
  rw [List.lookup_isSome_iff, List.mem_map]
  constructor
  · intro h
    obtain ⟨member, hmem, hkey⟩ := h
    have heq : key = member.1 := by simpa using hkey
    exact ⟨member, hmem, heq.symm⟩
  · intro h
    obtain ⟨member, hmem, hkey⟩ := h
    exact ⟨member, hmem, by simp [hkey]⟩

theorem lookup_eq_none_of_notMem {members : Members ν} {key : CStr}
    (h : key ∉ members.map Prod.fst) : members.lookup key = none :=
  Option.not_isSome_iff_eq_none.mp (mt (lookup_isSome_iff_mem members key).mp h)

theorem lookup_single (key : CStr) (item : ν) (j : CStr) :
    [(key, item)].lookup j = if j = key then some item else none := by
  by_cases hj : j = key
  · simp [hj]
  · have hbeq : (j == key) = false := by simpa using hj
    simp [List.lookup_cons, hj, hbeq]

theorem distinct_append {members : Members ν} (h : Distinct members) {key : CStr}
    (hnew : members.lookup key = none) (item : ν) : Distinct (members ++ [(key, item)]) := by
  have hmem : key ∉ members.map Prod.fst := by
    intro hmem
    have hsome := (lookup_isSome_iff_mem members key).mpr hmem
    simp [hnew] at hsome
  unfold Distinct
  rw [List.map_append, List.map_singleton]
  apply List.Nodup.append h (List.nodup_singleton _)
  intro k hk hkey
  rw [List.mem_singleton.mp hkey] at hk
  exact hmem hk

theorem setItem_some (members : JsonObject) (h : Distinct members) (key : CStr) (item : Record) :
    ∃ members', setItem (some members) key item = some members' ∧ Distinct members' ∧
      ∀ j, members'.lookup j = if j = key then some item else members.lookup j := by
  unfold setItem
  change ∃ members', (if (members.lookup key).isSome then _ else _) = some members' ∧ _
  by_cases hmem : key ∈ members.map Prod.fst
  · rw [if_pos ((lookup_isSome_iff_mem members key).mpr hmem)]
    refine ⟨replaceItem members key item, rfl, ?_, lookup_replaceItem members key item hmem⟩
    unfold Distinct
    rw [keys_replaceItem]
    exact h
  · have hnone := lookup_eq_none_of_notMem hmem
    rw [if_neg (by simp [hnone])]
    refine ⟨members ++ [(key, item)], rfl, distinct_append h hnone item, fun j => ?_⟩
    rw [List.lookup_append, lookup_single]
    by_cases hj : j = key
    · simp [hj, hnone]
    · simp [hj]

end Lookups

def Record.FromWebpa (r : Record) : Prop := r.UpdateSource = some (.string "webpa".toList)

instance (r : Record) : Decidable r.FromWebpa :=
  inferInstanceAs (Decidable (_ = _))

/-- What an object has under a key, if it was set by WebPA. -/
def webpaRecord (members : JsonObject) (key : CStr) : Option Record :=
  (members.lookup key).filter (fun r => r.FromWebpa)

/-- No record names as its source something that is not a text. -/
def Readable (members : JsonObject) : Prop :=
  ∀ member ∈ members, ∀ printed, member.2.UpdateSource ≠ some (.other printed)

section Merge

theorem webpaRecord_cons (key : CStr) (element : Record) (elements : JsonObject) (k : CStr) :
    webpaRecord ((key, element) :: elements) k =
      if k = key then (if element.FromWebpa then some element else none)
      else webpaRecord elements k := by
  unfold webpaRecord
  rw [List.lookup_cons]
  by_cases hk : k = key
  · simp [hk, Option.filter]
  · have hbeq : (k == key) = false := by simpa using hk
    simp [hbeq, hk]

theorem webpaRecord_of_notMem {elements : JsonObject} {key : CStr}
    (h : key ∉ elements.map Prod.fst) : webpaRecord elements key = none := by
  unfold webpaRecord
  rw [lookup_eq_none_of_notMem h, Option.filter_none]

theorem addWebpaRecords_isSome_iff (rfcNewJson : Option JsonObject) (elements : JsonObject) :
    (addWebpaRecords rfcNewJson elements).isSome ↔ Readable elements := by
  induction elements generalizing rfcNewJson with
  | nil => simp [addWebpaRecords, Readable]
  | cons member elements ih =>
    obtain ⟨key, element⟩ := member
    unfold addWebpaRecords Readable
    rw [List.forall_mem_cons]
    change _ ↔ _ ∧ Readable elements
    cases hsource : element.UpdateSource with
    | none => simpa using ih rfcNewJson
    | some source =>
      cases source with
      | other printed => simp
      | string valuestring =>
        simp only
        split
        · simpa using ih _
        · simpa using ih _

theorem addWebpaRecords_null {elements : JsonObject} (h : Readable elements) :
    addWebpaRecords none elements = some none := by
  induction elements with
  | nil => rfl
  | cons member elements ih =>
    obtain ⟨key, element⟩ := member
    obtain ⟨hfirst, hrest⟩ := List.forall_mem_cons.mp h
    unfold addWebpaRecords
    cases hsource : element.UpdateSource with
    | none => exact ih hrest
    | some source =>
      cases source with
      | other printed => exact absurd hsource (hfirst printed)
      | string valuestring =>
        simp only [AddItemToObject, Option.map_none, ite_self]
        exact ih hrest

theorem addWebpaRecords_object {elements : JsonObject} (hread : Readable elements)
    (hkeys : Distinct elements) (collected : JsonObject) (h : Distinct collected) :
    ∃ merged, addWebpaRecords (some collected) elements = some (some merged) ∧
      Distinct merged ∧
      ∀ k, merged.lookup k = (collected.lookup k).or (webpaRecord elements k) := by
  induction elements generalizing collected with
  | nil =>
    refine ⟨collected, rfl, h, fun k => ?_⟩
    simp [webpaRecord]
  | cons member elements ih =>
    obtain ⟨key, element⟩ := member
    obtain ⟨hfirst, hrest⟩ := List.forall_mem_cons.mp hread
    obtain ⟨hnew, hlater⟩ := List.nodup_cons.mp hkeys
    -- a record that is not added leaves the others to the later rounds
    have hskip (hnot : ¬ element.FromWebpa ∨ (collected.lookup key).isSome) :
        ∃ merged, addWebpaRecords (some collected) elements = some (some merged) ∧
          Distinct merged ∧ ∀ k, merged.lookup k =
            (collected.lookup k).or (webpaRecord ((key, element) :: elements) k) := by
      obtain ⟨merged, hmerged, hdistinct, hlookup⟩ := ih hrest hlater collected h
      refine ⟨merged, hmerged, hdistinct, fun k => ?_⟩
      rw [hlookup, webpaRecord_cons]
      by_cases hk : k = key
      · rw [if_pos hk, hk, webpaRecord_of_notMem hnew]
        rcases hnot with hnot | hsome
        · rw [if_neg hnot]
        · obtain ⟨r, hr⟩ := Option.isSome_iff_exists.mp hsome
          rw [hr, Option.some_or, Option.some_or]
      · rw [if_neg hk]
    unfold addWebpaRecords
    cases hsource : element.UpdateSource with
    | none => exact hskip (Or.inl (by simp [Record.FromWebpa, hsource]))
    | some source =>
      cases source with
      | other printed => exact absurd hsource (hfirst printed)
      | string valuestring =>
        by_cases hadd : valuestring = "webpa".toList ∧ collected.lookup key = none
        · have hwebpa : element.FromWebpa := by rw [Record.FromWebpa, hsource, hadd.1]
          obtain ⟨merged, hmerged, hdistinct, hlookup⟩ := ih hrest hlater
            (collected ++ [(key, element)]) (distinct_append h hadd.2 element)
          refine ⟨merged, ?_, hdistinct, fun k => ?_⟩
          · exact (if_pos hadd).trans hmerged
          · rw [hlookup, webpaRecord_cons, List.lookup_append, lookup_single]
            by_cases hk : k = key
            · simp [hk, hadd.2, hwebpa]
            · simp [hk]
        · have hnot : ¬ element.FromWebpa ∨ (collected.lookup key).isSome := by
            rw [Record.FromWebpa, hsource, Option.some.injEq, Item.string.injEq]
            by_cases htext : valuestring = "webpa".toList
            · right
              exact Option.isSome_iff_ne_none.mpr (fun hnone => hadd ⟨htext, hnone⟩)
            · exact Or.inl htext
          obtain ⟨merged, hmerged, hrest⟩ := hskip hnot
          exact ⟨merged, (if_neg hadd).trans hmerged, hrest⟩

end Merge

section Runs

/-- What memory holds as a map; no object is as good as an empty one. -/
def State.store (s : State) : JsonObject := s.pRfcStore.getD []

def StoreFile.members : StoreFile → JsonObject
  | object members => members
  | _ => []

/-- File and memory are the same map, and no key comes twice. -/
structure Saved (s : State) : Prop where
  same : s.file.members = s.store
  distinct : Distinct s.store

def lastRecord (batch : Members Record) (key : CStr) : Option Record := batch.reverse.lookup key

/-- What a step should do: a single set changes its own key, the end of a batch leaves the
records of the batch and the other ones of WebPA, and nothing else changes the store. -/
def Good (r : Run) (op : Op) (t : Run) : Prop :=
  Saved t.state ∧
    match op with
    | .start => t.state.store = r.state.store
    | .set true _ _ _ _ => t.state.store = r.state.store
    | .set false paramFullName value pSource pCurrentTime =>
      t.state.store.lookup paramFullName = some (paramObj value pSource pCurrentTime) ∧
        ∀ key, key ≠ paramFullName → t.state.store.lookup key = r.state.store.lookup key
    | .done => ∀ key,
      t.state.store.lookup key = (lastRecord r.batch key).or (webpaRecord r.state.store key)
    | .reload => t.state.store = r.state.store

def Legal (r : Run) : Op → Prop
  | .set true _ _ _ _ => r.state.rfcNewJson.isSome
  | _ => True

/-- An end finds a started batch, or nothing to lose, and sources that are texts. -/
def Fit (r : Run) : Op → Prop
  | .done => (r.state.rfcNewJson.isSome ∨ r.state.store = []) ∧ Readable r.state.store
  | _ => True

structure Inv (r : Run) : Prop where
  saved : Saved r.state
  idle : r.state.rfcNewJson = none → r.batch = []
  collected : ∀ members, r.state.rfcNewJson = some members →
    Distinct members ∧ ∀ key, members.lookup key = lastRecord r.batch key

theorem lastRecord_append (batch : Members Record) (key : CStr) (item : Record) (j : CStr) :
    lastRecord (batch ++ [(key, item)]) j = if j = key then some item else lastRecord batch j := by
  unfold lastRecord
  rw [List.reverse_append, List.reverse_singleton, List.lookup_append, lookup_single]
  by_cases hj : j = key
  · simp [hj]
  · simp [hj]

theorem store_init (file : StoreFile) : (init file).state.store = file.members := by
  cases file with
  | absent => rfl
  | empty => rfl
  | unparsable => rfl
  | object members => rfl

theorem inv_init {file : StoreFile} (h : Distinct file.members) : Inv (init file) where
  saved := ⟨(store_init file).symm, by rw [store_init]; exact h⟩
  idle := fun _ => rfl
  collected := fun members hmembers => by cases hmembers

theorem inv_start {r : Run} (h : Inv r) : Inv ⟨StartRfcProcessing r.state, []⟩ where
  saved := ⟨h.saved.same, h.saved.distinct⟩
  idle := fun _ => rfl
  collected := fun members hmembers => by
    obtain rfl : [] = members := Option.some.inj hmembers
    exact ⟨List.nodup_nil, fun key => rfl⟩

theorem inv_collect {r : Run} (h : Inv r) (hopen : r.state.rfcNewJson.isSome)
    (key : CStr) (item : Record) :
    Inv ⟨ProcessRfcSet r.state true key item, r.batch ++ [(key, item)]⟩ := by
  obtain ⟨members, hmembers⟩ := Option.isSome_iff_exists.mp hopen
  obtain ⟨hdistinct, hlookup⟩ := h.collected members hmembers
  obtain ⟨members', hset, hdistinct', hlookup'⟩ := setItem_some members hdistinct key item
  have hnew : (ProcessRfcSet r.state true key item).rfcNewJson = some members' := by
    simp only [ProcessRfcSet, Bool.true_eq_false, if_false, hmembers]
    exact hset
  refine ⟨⟨h.saved.same, h.saved.distinct⟩, ?_, ?_⟩
  · intro hnone
    rw [hnew] at hnone
    cases hnone
  · intro collected hcollected
    obtain rfl : members' = collected := Option.some.inj (hnew.symm.trans hcollected)
    refine ⟨hdistinct', fun j => ?_⟩
    rw [hlookup', lastRecord_append, hlookup]

theorem inv_set {r : Run} (h : Inv r) (key : CStr) (item : Record) :
    Inv ⟨ProcessRfcSet r.state false key item, r.batch⟩ ∧
      ∀ j, (ProcessRfcSet r.state false key item).store.lookup j =
        if j = key then some item else r.state.store.lookup j := by
  obtain ⟨members, hset, hdistinct, hlookup⟩ :=
    setItem_some r.state.store h.saved.distinct key item
  have hstate : ProcessRfcSet r.state false key item =
      { r.state with pRfcStore := some members, file := .object members } := by
    simp only [ProcessRfcSet, if_true]
    change { r.state with
      pRfcStore := setItem (some r.state.store) key item
      file := writeToJson (setItem (some r.state.store) key item) r.state.file } = _
    rw [hset]
    rfl
  rw [hstate]
  exact ⟨⟨⟨rfl, hdistinct⟩, h.idle, h.collected⟩, hlookup⟩

theorem inv_end {r : Run} (h : Inv r) (hopen : r.state.rfcNewJson.isSome)
    (hread : Readable r.state.store) :
    ∃ s, EndRfcProcessing r.state = some s ∧ Inv ⟨s, []⟩ ∧
      ∀ key, s.store.lookup key = (lastRecord r.batch key).or (webpaRecord r.state.store key) := by
  obtain ⟨members, hmembers⟩ := Option.isSome_iff_exists.mp hopen
  obtain ⟨hdistinct, hlookup⟩ := h.collected members hmembers
  obtain ⟨merged, hmerged, hdistinct', hlookup'⟩ :=
    addWebpaRecords_object hread h.saved.distinct members hdistinct
  refine ⟨⟨.object merged, some merged, none⟩, ?_, ?_, ?_⟩
  · change (addWebpaRecords r.state.rfcNewJson r.state.store).map _ = _
    rw [hmembers, hmerged]
    rfl
  · exact ⟨⟨rfl, hdistinct'⟩, fun _ => rfl, fun _ hnone => by cases hnone⟩
  · intro key
    rw [← hlookup]
    exact hlookup' key

theorem end_of_idle {s : State} (hidle : s.rfcNewJson = none) (hread : Readable s.store) :
    EndRfcProcessing s = some { s with pRfcStore := none } := by
  obtain ⟨file, pRfcStore, rfcNewJson⟩ := s
  obtain rfl : rfcNewJson = none := hidle
  change (addWebpaRecords none (pRfcStore.getD [])).map _ = _
  have hnull : addWebpaRecords none (pRfcStore.getD []) = some none := addWebpaRecords_null hread
  rw [hnull]
  rfl

theorem inv_step {r : Run} {op : Op} (h : Inv r) (hlegal : Legal r op) (hfit : Fit r op) :
    ∃ t, step r op = some t ∧ Inv t ∧ Good r op t := by
  cases op with
  | start => exact ⟨_, rfl, inv_start h, (inv_start h).saved, rfl⟩
  | reload =>
    have hinv : Inv (init r.state.file) := inv_init (by rw [h.saved.same]; exact h.saved.distinct)
    refine ⟨_, rfl, hinv, hinv.saved, ?_⟩
    change (init r.state.file).state.store = r.state.store
    rw [store_init, h.saved.same]
  | set clearDB paramFullName value pSource pCurrentTime =>
    cases clearDB with
    | true =>
      have hinv := inv_collect h hlegal paramFullName (paramObj value pSource pCurrentTime)
      exact ⟨_, rfl, hinv, hinv.saved, rfl⟩
    | false =>
      obtain ⟨hinv, hlookup⟩ := inv_set h paramFullName (paramObj value pSource pCurrentTime)
      refine ⟨_, rfl, hinv, hinv.saved, ?_, ?_⟩
      · exact (hlookup paramFullName).trans (if_pos rfl)
      · intro key hkey
        exact (hlookup key).trans (if_neg hkey)
  | done =>
    obtain ⟨hopen, hread⟩ := hfit
    by_cases hsome : r.state.rfcNewJson.isSome
    · obtain ⟨s, hs, hinv, hlookup⟩ := inv_end h hsome hread
      exact ⟨⟨s, []⟩, by rw [step, hs]; rfl, hinv, hinv.saved, hlookup⟩
    · have hidle : r.state.rfcNewJson = none := Option.not_isSome_iff_eq_none.mp hsome
      have hempty : r.state.store = [] := hopen.resolve_left hsome
      have hsaved : Saved { r.state with pRfcStore := none } :=
        ⟨h.saved.same.trans hempty, List.nodup_nil⟩
      refine ⟨⟨{ r.state with pRfcStore := none }, []⟩, ?_, ?_, hsaved, ?_⟩
      · rw [step, end_of_idle hidle hread]
        rfl
      · refine ⟨hsaved, fun _ => rfl, fun members hmembers => ?_⟩
        change r.state.rfcNewJson = some members at hmembers
        rw [hidle] at hmembers
        cases hmembers
      · intro key
        rw [h.idle hidle, hempty]
        rfl

theorem fit_of_good {r : Run} {op : Op} (h : Inv r) {t : Run} (ht : step r op = some t)
    (hgood : Good r op t) : Fit r op := by
  cases op with
  | start => trivial
  | set clearDB paramFullName value pSource pCurrentTime => trivial
  | reload => trivial
  | done =>
    obtain ⟨s, hs, rfl⟩ := Option.map_eq_some_iff.mp ht
    have hread : Readable r.state.store := by
      apply (addWebpaRecords_isSome_iff r.state.rfcNewJson r.state.store).mp
      obtain ⟨merged, hmerged, -⟩ := Option.map_eq_some_iff.mp hs
      exact Option.isSome_iff_exists.mpr ⟨merged, hmerged⟩
    refine ⟨?_, hread⟩
    by_cases hsome : r.state.rfcNewJson.isSome
    · exact Or.inl hsome
    · have hidle : r.state.rfcNewJson = none := Option.not_isSome_iff_eq_none.mp hsome
      rw [end_of_idle hidle hread, Option.some.injEq] at hs
      subst hs
      have hsame : r.state.file.members = [] := hgood.1.same
      exact Or.inr (h.saved.same.symm.trans hsame)

/-- From any file, a run of the calls does what it should exactly when each end
finds a started batch or an empty store, and only sources that are texts. -/
theorem rfcStore_lawful_iff {file : StoreFile} (hfile : Distinct file.members) {ops : List Op}
    (hlegal : StepsMeet step Legal (init file) ops) :
    Does step Good (init file) ops ↔ StepsMeet step Fit (init file) ops := by
  apply does_iff step Inv ?_ ?_ (inv_init hfile) hlegal
  · intro r op hinv hop
    constructor
    · intro h
      obtain ⟨t, ht, hgood⟩ := h
      exact fit_of_good hinv ht hgood
    · intro hfit
      obtain ⟨t, ht, -, hgood⟩ := inv_step hinv hop hfit
      exact ⟨t, ht, hgood⟩
  · intro r op t hinv hop hfit ht
    obtain ⟨u, hu, hinv', -⟩ := inv_step hinv hop hfit
    obtain rfl : u = t := Option.some.inj (hu.symm.trans ht)
    exact hinv'

/-- A file with the one record that WebPA set. -/
def webpaFile : StoreFile :=
  .object [("Device.A".toList, paramObj "true".toList "webpa".toList "10:00".toList)]

theorem distinct_webpaFile : Distinct webpaFile.members := List.nodup_singleton _

theorem rfcStore_lawful_batch : Does step Good (init webpaFile)
    [.start, .set true "Device.B".toList "1".toList "rfc".toList "11:00".toList, .done] := by
  apply (rfcStore_lawful_iff distinct_webpaFile ?_).mpr
  · refine ⟨trivial, fun r hr => ⟨trivial, fun t ht => ⟨⟨?_, ?_⟩, fun _ _ => trivial⟩⟩⟩
    · obtain rfl := Option.some.inj hr
      obtain rfl := Option.some.inj ht
      exact Or.inl rfl
    · obtain rfl := Option.some.inj hr
      obtain rfl := Option.some.inj ht
      intro member hmem printed
      obtain rfl := List.mem_singleton.mp hmem
      have hsource : (paramObj "true".toList "webpa".toList "10:00".toList).UpdateSource =
          some (.string "webpa".toList) := by decide
      rw [hsource]
      simp
  · refine ⟨trivial, fun r hr => ⟨?_, fun _ _ => ⟨trivial, fun _ _ => trivial⟩⟩⟩
    obtain rfl := Option.some.inj hr
    rfl

/-- An end without a start leaves nothing in memory, and the record in the file. -/
theorem end_without_start : ¬ ∀ (file : StoreFile) (ops : List Op), Distinct file.members →
    StepsMeet step Legal (init file) ops → Does step Good (init file) ops := by
  intro hall
  obtain ⟨t, ht, hgood, -⟩ := hall webpaFile [.done] distinct_webpaFile
    ⟨trivial, fun _ _ => trivial⟩
  obtain rfl := Option.some.inj ht
  exact absurd hgood.1.same (by decide)

end Runs

end CcspPandM.RfcStore
