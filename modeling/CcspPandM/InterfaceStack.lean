import CcspPandM.IpRegistry
import CcspPandM.TextSearch

/-!
The interface stack, built from the LowerLayers of the rows of ten data-model
tables. Nine of the tables stand alone; the ports are one table for each bridge,
and the path of that table is rewritten for every bridge. Each comma-separated
lower layer of a row gives one entry, with the paths and aliases of both rows.
-/
namespace CcspPandM.InterfaceStack

open CString TextSearch
open IpRegistry (ULONG pushEntryByInsNum)

/-- The data model as it is read: counts, instance lookups, texts, and the read of a text
into an array of a given size. -/
structure DataModel where
  getParamValueULong : CStr → ULONG
  getInstanceNumberByIndex : CStr → ℕ → ULONG
  value : CStr → Option CStr
  getParamValueString : CStr → ℕ → Option CStr

structure COSA_DML_IFSTACK_ENTRY where
  HigherLayer : CStr
  LowerLayer : CStr
  HigherAlias : CStr
  LowerAlias : CStr
  deriving DecidableEq

structure COSA_CONTEXT_LINK_OBJECT where
  InstanceNumber : ULONG
  hContext : COSA_DML_IFSTACK_ENTRY
  deriving DecidableEq

structure COSA_DATAMODEL_IFSTACK where
  ulEntryCount : ULONG
  InterfaceStackList : List COSA_CONTEXT_LINK_OBJECT
  deriving DecidableEq

section Code

def CosaIFStackEmptyTable (_ : COSA_DATAMODEL_IFSTACK) : COSA_DATAMODEL_IFSTACK := ⟨0, []⟩

def CosaIFStackAddEntry (o : COSA_DATAMODEL_IFSTACK) (pEntry : COSA_DML_IFSTACK_ENTRY) :
    COSA_DATAMODEL_IFSTACK :=
  let count := o.ulEntryCount + 1
  ⟨if count = 0 then 1 else count,
    pushEntryByInsNum COSA_CONTEXT_LINK_OBJECT.InstanceNumber o.InterfaceStackList
      ⟨count, pEntry⟩⟩

/-- A print into an array of a given size, which fails when the text does not fit. -/
def printed (size : ℕ) (t : CStr) : Option CStr := if t.length < size then some t else none

variable (d : DataModel)

/-- The alias copied for a layer; there is none when its name cannot be printed. -/
def aliasOf (layer : CStr) : Option CStr :=
  (printed 256 (layer ++ ".Alias".toList)).map fun ucEntryParamName =>
    match d.getParamValueString ucEntryParamName 1024 with
    | some v => if v.length = 0 then [] else (Buf.sprintf_s v : Buf 64).text
    | none => []

/-- The copy of a token. The one that leaves out a dot at the end tests no length, and
has no result when it writes past the array. -/
def copyLowerLayer (token : CStr) : Option CStr :=
  let ulLength := token.length - 1
  if token.drop ulLength = ".".toList then
    if ulLength ≤ 256 then some (token.take ulLength) else none
  else some (Buf.sprintf_s token : Buf 256).text

def addToken (higher higherAlias : CStr) (o : COSA_DATAMODEL_IFSTACK) (token : CStr) :
    Option COSA_DATAMODEL_IFSTACK :=
  (copyLowerLayer token).map fun lower =>
    match aliasOf d lower with
    | none => o
    | some lowerAlias => CosaIFStackAddEntry o ⟨higher, lower, higherAlias, lowerAlias⟩

/-- The number of a row; those of WiFi tables are derived from the index. -/
def rowNumber (table : CStr) (k : ℕ) : ULONG :=
  if (strstr ".WiFi.".toList table).isSome then BitVec.ofNat 32 (k + 1)
  else d.getInstanceNumberByIndex table k

def addRow (table : CStr) (o : COSA_DATAMODEL_IFSTACK) (k : ℕ) :
    Option COSA_DATAMODEL_IFSTACK :=
  let ulSubEntryInsNum := rowNumber d table k
  if ulSubEntryInsNum = 0 then some o
  else
    match printed 256 (table ++ decimal ulSubEntryInsNum.toNat) with
    | none => some o
    | some higher =>
      match aliasOf d higher, printed 256 (higher ++ ".LowerLayers".toList) with
      | some higherAlias, some ucEntryParamName =>
        match d.getParamValueString ucEntryParamName 1024 with
        | none => some o
        | some v =>
          if v.length = 0 then some o
          else (tokens ',' v).foldlM (addToken d higher higherAlias) o
      | _, _ => some o

def addRows (table count : CStr) (o : COSA_DATAMODEL_IFSTACK) :
    Option COSA_DATAMODEL_IFSTACK :=
  (List.range (d.getParamValueULong count).toNat).foldlM (addRow d table) o

def addParent (ucTableParam ucEntryFullPath : CStr) (o : COSA_DATAMODEL_IFSTACK) (j : ℕ) :
    Option COSA_DATAMODEL_IFSTACK :=
  let ulEntryInstanceNum := d.getInstanceNumberByIndex ucTableParam j
  if ulEntryInstanceNum = 0 then some o
  else
    match printed 256 (ucTableParam ++ decimal ulEntryInstanceNum.toNat ++ ucEntryFullPath) with
    | none => some o
    | some path => addRows d (path ++ ".".toList) (path ++ "NumberOfEntries".toList) o

def addTable (table : CStr) (o : COSA_DATAMODEL_IFSTACK) : Option COSA_DATAMODEL_IFSTACK :=
  addRows d table (table.dropLast ++ "NumberOfEntries".toList) o

/-- A table below a table, from the place of `.{i}.` in its path. -/
def addParents (table pEnd : CStr) (o : COSA_DATAMODEL_IFSTACK) :
    Option COSA_DATAMODEL_IFSTACK :=
  let upper := table.take (table.length - pEnd.length)
  (List.range (d.getParamValueULong (upper ++ "NumberOfEntries".toList)).toNat).foldlM
    (addParent d (upper ++ ".".toList) (pEnd.drop 4).dropLast) o

/-- The tables in order. `bMultiLayer` is never cleared, and without a `.{i}.` the pointer
it relies on is null. -/
def addTables (bMultiLayer : Bool) (o : COSA_DATAMODEL_IFSTACK) :
    List CStr → Option COSA_DATAMODEL_IFSTACK
  | [] => some o
  | table :: rest =>
    match strstr ".\x7bi\x7d.".toList table with
    | some pEnd => (addParents d table pEnd o).bind fun o' => addTables true o' rest
    | none =>
      if bMultiLayer then none
      else (addTable d table o).bind fun o' => addTables false o' rest

def plainTables : List CStr :=
  ["Device.Ethernet.Link.".toList, "Device.WiFi.SSID.".toList, "Device.IP.Interface.".toList,
    "Device.Ethernet.VLANTermination.".toList, "Device.PPP.Interface.".toList,
    "Device.DSL.Channel.".toList, "Device.DSL.BondingGroup.".toList, "Device.ATM.Link.".toList,
    "Device.PTM.Link.".toList]

def portTable : CStr := "Device.Bridging.Bridge.\x7bi\x7d.Port.".toList

def CosaIFStackCreateAll (o : COSA_DATAMODEL_IFSTACK) : Option COSA_DATAMODEL_IFSTACK :=
  addTables d false (CosaIFStackEmptyTable o) (plainTables ++ [portTable])

end Code

section Stack

variable (d : DataModel)

def portsAt (bridge : ULONG) : CStr :=
  "Device.Bridging.Bridge.".toList ++ decimal bridge.toNat ++ ".Port.".toList

def portsOf (j : ℕ) : CStr :=
  portsAt (d.getInstanceNumberByIndex "Device.Bridging.Bridge.".toList j)

def bridgeCount : ℕ := (d.getParamValueULong "Device.Bridging.BridgeNumberOfEntries".toList).toNat

def tables : List CStr := plainTables ++ (List.range (bridgeCount d)).map (portsOf d)

def rowCount (table : CStr) : ℕ :=
  (d.getParamValueULong (table.dropLast ++ "NumberOfEntries".toList)).toNat

def rowsOf (table : CStr) : List CStr :=
  (List.range (rowCount d table)).map fun k =>
    table ++ decimal (d.getInstanceNumberByIndex table k).toNat

def textOf (row : CStr) (param : String) : CStr := (d.value (row ++ param.toList)).getD []

def layers : List (CStr × CStr) :=
  ((tables d).flatMap (rowsOf d)).flatMap fun row =>
    (tokens ',' (textOf d row ".LowerLayers")).map fun token => (row, token)

def withoutDot (token : CStr) : CStr :=
  if token.getLast? = some '.' then token.dropLast else token

def entryOf (layer : CStr × CStr) : COSA_DML_IFSTACK_ENTRY where
  HigherLayer := layer.1
  LowerLayer := withoutDot layer.2
  HigherAlias := textOf d layer.1 ".Alias"
  LowerAlias := textOf d (withoutDot layer.2) ".Alias"

structure Lists (o : COSA_DATAMODEL_IFSTACK) : Prop where
  entries : o.InterfaceStackList.map (·.hContext) = (layers d).map (entryOf d)
  numbers : o.InterfaceStackList.map (·.InstanceNumber.toNat) = List.range' 1 (layers d).length

/-- Whatever the object held, the stack is written in bounds, is right, and is that of a
fresh object. -/
def Right : Prop :=
  ∀ o, ∃ o', CosaIFStackCreateAll d o = some o' ∧ Lists d o' ∧
    CosaIFStackCreateAll d ⟨0, []⟩ = some o'

structure Fits (layer : CStr × CStr) : Prop where
  lowerLayers : (textOf d layer.1 ".LowerLayers").length < 1024
  higherAlias : (textOf d layer.1 ".Alias").length < 64
  lowerLayer : (withoutDot layer.2).length < 250
  lowerAlias : (textOf d (withoutDot layer.2) ".Alias").length < 64

/-- The lookups of rows succeed, the WiFi rows are numbered in order, and a text is read
when it fits. -/
structure Served : Prop where
  row_found : ∀ table ∈ tables d, ∀ k < rowCount d table, d.getInstanceNumberByIndex table k ≠ 0
  bridge_found : ∀ j < bridgeCount d,
    d.getInstanceNumberByIndex "Device.Bridging.Bridge.".toList j ≠ 0
  wifi : ∀ k < rowCount d "Device.WiFi.SSID.".toList,
    d.getInstanceNumberByIndex "Device.WiFi.SSID.".toList k = BitVec.ofNat 32 (k + 1)
  reads : ∀ name size,
    d.getParamValueString name size = (d.value name).filter fun v => v.length < size

end Stack

section Adding

def numbered (es : List COSA_DML_IFSTACK_ENTRY) : List COSA_CONTEXT_LINK_OBJECT :=
  es.mapIdx fun i e => ⟨BitVec.ofNat 32 (i + 1), e⟩

theorem pushEntry_last {l : List COSA_CONTEXT_LINK_OBJECT} {a : COSA_CONTEXT_LINK_OBJECT}
    (h : ∀ b ∈ l, b.InstanceNumber.toNat ≤ a.InstanceNumber.toNat) :
    pushEntryByInsNum COSA_CONTEXT_LINK_OBJECT.InstanceNumber l a = l ++ [a] := by
  induction l with
  | nil => rfl
  | cons b l ih =>
    have hb : ¬ a.InstanceNumber.toNat < b.InstanceNumber.toNat :=
      Nat.not_lt.mpr (h b List.mem_cons_self)
    have hrest := ih fun c hc => h c (List.mem_cons_of_mem _ hc)
    rw [pushEntryByInsNum] at hrest ⊢
    rw [List.orderedInsert_cons, if_neg hb, hrest, List.cons_append]

theorem foldl_addEntry {es : List COSA_DML_IFSTACK_ENTRY} (h : es.length < 2 ^ 32) :
    es.foldl CosaIFStackAddEntry ⟨0, []⟩ = ⟨BitVec.ofNat 32 es.length, numbered es⟩ := by
  induction es using List.reverseRecOn with
  | nil => rfl
  | append_singleton es e ih =>
    rw [List.length_append, List.length_singleton] at h
    have hcount : BitVec.ofNat 32 es.length + 1 = BitVec.ofNat 32 (es.length + 1) := by
      exact (BitVec.ofNat_add es.length 1).symm
    have hnat : (BitVec.ofNat 32 (es.length + 1)).toNat = es.length + 1 := by
      rw [BitVec.toNat_ofNat, Nat.mod_eq_of_lt h]
    have hne : BitVec.ofNat 32 (es.length + 1) ≠ 0 := by
      intro hzero
      rw [hzero] at hnat
      exact absurd hnat (Nat.succ_ne_zero _).symm
    have hlast : ∀ b ∈ numbered es, b.InstanceNumber.toNat ≤
        (BitVec.ofNat 32 (es.length + 1)).toNat := by
      intro b hb
      obtain ⟨i, hi, rfl⟩ := List.mem_mapIdx.mp hb
      rw [hnat, BitVec.toNat_ofNat, Nat.mod_eq_of_lt (by omega)]
      omega
    rw [List.foldl_append, ih (by omega), List.foldl_cons, List.foldl_nil, CosaIFStackAddEntry]
    simp only [hcount, if_neg hne]
    have hpush := pushEntry_last (a := ⟨BitVec.ofNat 32 (es.length + 1), e⟩) hlast
    rw [hpush, List.length_append, List.length_singleton]
    simp only [numbered, List.mapIdx_append, List.mapIdx_cons, List.mapIdx_nil, Nat.zero_add]

theorem length_foldl_addEntry (es : List COSA_DML_IFSTACK_ENTRY) (o : COSA_DATAMODEL_IFSTACK) :
    (es.foldl CosaIFStackAddEntry o).InterfaceStackList.length =
      o.InterfaceStackList.length + es.length := by
  induction es generalizing o with
  | nil => rfl
  | cons e es ih =>
    have hpush := (IpRegistry.pushEntry_perm COSA_CONTEXT_LINK_OBJECT.InstanceNumber
      o.InterfaceStackList ⟨o.ulEntryCount + 1, e⟩).length_eq
    rw [List.foldl_cons, ih, CosaIFStackAddEntry, hpush, List.length_cons, List.length_cons]
    omega

theorem numbered_entries (es : List COSA_DML_IFSTACK_ENTRY) :
    (numbered es).map (·.hContext) = es := by
  apply List.ext_getElem
  · simp [numbered]
  · intro i _ _
    simp [numbered]

theorem numbered_numbers {es : List COSA_DML_IFSTACK_ENTRY} (h : es.length < 2 ^ 32) :
    (numbered es).map (·.InstanceNumber.toNat) = List.range' 1 es.length := by
  apply List.ext_getElem
  · simp [numbered]
  · intro i hi _
    simp only [numbered, List.length_map, List.length_mapIdx] at hi
    simp only [numbered, List.getElem_map, List.getElem_mapIdx, BitVec.toNat_ofNat,
      List.getElem_range', Nat.one_mul]
    rw [Nat.mod_eq_of_lt (by omega), Nat.add_comm]

end Adding

section Layers

variable {d : DataModel}

/-- What one lower layer of a row adds: no result, nothing, or an entry. -/
def added (d : DataModel) (layer : CStr × CStr) : Option (Option COSA_DML_IFSTACK_ENTRY) :=
  if (textOf d layer.1 ".LowerLayers").length < 1024 then
    (copyLowerLayer layer.2).map fun lower =>
      (aliasOf d lower).map fun lowerAlias =>
        ⟨layer.1, lower, (Buf.sprintf_s (textOf d layer.1 ".Alias") : Buf 64).text, lowerAlias⟩
  else some none

def addLayer (d : DataModel) (o : COSA_DATAMODEL_IFSTACK) (layer : CStr × CStr) :
    Option COSA_DATAMODEL_IFSTACK :=
  (added d layer).map fun e => e.elim o (CosaIFStackAddEntry o)

theorem foldlM_addLayer (ls : List (CStr × CStr)) (o o' : COSA_DATAMODEL_IFSTACK) :
    ls.foldlM (addLayer d) o = some o' ↔ (∀ layer ∈ ls, (added d layer).isSome) ∧
      (ls.filterMap fun layer => (added d layer).join).foldl CosaIFStackAddEntry o = o' := by
  induction ls generalizing o with
  | nil => simp
  | cons layer ls ih =>
    rw [List.foldlM_cons, List.forall_mem_cons, List.filterMap_cons]
    cases hlayer : added d layer with
    | none => simp [addLayer, hlayer]
    | some e =>
      have hstep : addLayer d o layer = some (e.elim o (CosaIFStackAddEntry o)) := by
        rw [addLayer, hlayer, Option.map_some]
      rw [hstep, Option.bind_eq_bind, Option.bind_some, ih]
      cases e with
      | none => simp
      | some e => simp

theorem aliasOf_short (hd : Served d) {layer : CStr} (h : layer.length < 250) :
    aliasOf d layer = some (Buf.sprintf_s (textOf d layer ".Alias") : Buf 64).text := by
  have hname : printed 256 (layer ++ ".Alias".toList) = some (layer ++ ".Alias".toList) := by
    apply if_pos
    rw [List.length_append]
    change layer.length + 6 < 256
    omega
  rw [aliasOf, hname, Option.map_some, hd.reads, textOf]
  cases hv : d.value (layer ++ ".Alias".toList) with
  | none => rfl
  | some v =>
    rw [Option.getD_some]
    by_cases hfits : v.length < 1024
    · rw [Option.filter_some, if_pos (decide_eq_true hfits)]
      by_cases hzero : v.length = 0
      · rw [List.length_eq_zero_iff.mp hzero]
        rfl
      · simp only [if_neg hzero]
    · rw [Option.filter_some, if_neg (by simpa using hfits),
        Buf.text_sprintf_s_of_le (by omega)]

theorem length_of_aliasOf {layer a : CStr} (h : aliasOf d layer = some a) :
    layer.length < 250 := by
  rw [aliasOf, Option.map_eq_some_iff] at h
  obtain ⟨name, hname, -⟩ := h
  rw [printed] at hname
  split at hname
  · rename_i hfits
    rw [List.length_append] at hfits
    change layer.length + 6 < 256 at hfits
    omega
  · cases hname

theorem drop_last_iff (token : CStr) :
    token.drop (token.length - 1) = ".".toList ↔ token.getLast? = some '.' := by
  rcases List.eq_nil_or_concat token with rfl | ⟨front, c, rfl⟩
  · decide
  · rw [List.concat_eq_append, List.length_append, List.length_singleton, Nat.add_sub_cancel,
      List.drop_left, List.getLast?_concat, Option.some.injEq]
    exact List.singleton_inj

theorem copyLowerLayer_short {token : CStr} (h : (withoutDot token).length < 250) :
    copyLowerLayer token = some (withoutDot token) := by
  rw [copyLowerLayer]
  rw [withoutDot] at h ⊢
  by_cases hdot : token.getLast? = some '.'
  · rw [if_pos hdot] at h ⊢
    rw [List.length_dropLast] at h
    simp only [if_pos ((drop_last_iff token).mpr hdot)]
    rw [if_pos (by omega), List.dropLast_eq_take]
  · rw [if_neg hdot] at h ⊢
    simp only [if_neg (mt (drop_last_iff token).mp hdot)]
    rw [Buf.text_sprintf_s_of_lt (by omega)]

theorem sprintf_s_whole_iff {n : ℕ} [NeZero n] (t : CStr) :
    (Buf.sprintf_s t : Buf n).text = t ↔ t.length < n := by
  constructor
  · intro h
    rw [← h]
    exact Buf.text_length_lt _
  · exact Buf.text_sprintf_s_of_lt

theorem added_entry_iff (hd : Served d) (layer : CStr × CStr) :
    added d layer = some (some (entryOf d layer)) ↔ Fits d layer := by
  constructor
  · intro h
    rw [added] at h
    split at h
    · rename_i hlower
      rw [Option.map_eq_some_iff] at h
      obtain ⟨lower, -, h⟩ := h
      rw [Option.map_eq_some_iff] at h
      obtain ⟨lowerAlias, halias, h⟩ := h
      rw [entryOf, COSA_DML_IFSTACK_ENTRY.mk.injEq] at h
      obtain ⟨-, hlayer, hhigher, hlowerAlias⟩ := h
      have hshort := length_of_aliasOf halias
      rw [aliasOf_short hd hshort, Option.some.injEq] at halias
      rw [hlayer] at halias hshort
      exact ⟨hlower, (sprintf_s_whole_iff _).mp hhigher, hshort,
        (sprintf_s_whole_iff _).mp (halias.trans hlowerAlias)⟩
    · cases h
  · intro h
    rw [added, if_pos h.lowerLayers, copyLowerLayer_short h.lowerLayer, Option.map_some,
      aliasOf_short hd h.lowerLayer, Option.map_some, (sprintf_s_whole_iff _).mpr h.higherAlias,
      (sprintf_s_whole_iff _).mpr h.lowerAlias]
    rfl

end Layers

section Walk

variable {d : DataModel}

theorem foldlM_flatMap {α β σ : Type} (f : σ → β → Option σ) (g : α → List β) (l : List α)
    (s : σ) :
    (l.flatMap g).foldlM f s = l.foldlM (fun s a => (g a).foldlM f s) s := by
  induction l generalizing s with
  | nil => rfl
  | cons a l ih =>
    rw [List.flatMap_cons, List.foldlM_append, List.foldlM_cons]
    exact congrArg _ (funext ih)

def rowLayers (d : DataModel) (row : CStr) : List (CStr × CStr) :=
  (tokens ',' (textOf d row ".LowerLayers")).map fun token => (row, token)

theorem layers_eq (d : DataModel) :
    layers d = (tables d).flatMap fun table => (rowsOf d table).flatMap (rowLayers d) :=
  List.flatMap_assoc

theorem portsAt_length (bridge : ULONG) : (portsAt bridge).length ≤ 39 := by
  have hfront : ("Device.Bridging.Bridge.".toList).length = 23 := by decide
  have hback : (".Port.".toList).length = 6 := by decide
  have hdigits := decimal_word_length bridge
  unfold portsAt
  rw [List.length_append, List.length_append, hfront, hback]
  omega

variable {table : CStr}

theorem table_length (h : table ∈ tables d) : table.length ≤ 39 := by
  rw [tables, List.mem_append, List.mem_map] at h
  rcases h with h | ⟨j, -, htable⟩
  · have hplain : ∀ t ∈ plainTables, t.length ≤ 39 := by decide
    exact hplain table h
  · rw [← htable]
    exact portsAt_length _

theorem portsAt_not_wifi (bridge : ULONG) : 'W' ∉ portsAt bridge := by
  have hfront : 'W' ∉ "Device.Bridging.Bridge.".toList := by decide
  have hback : 'W' ∉ ".Port.".toList := by decide
  unfold portsAt
  rw [List.mem_append, List.mem_append]
  rintro ((h | h) | h)
  · exact hfront h
  · exact absurd (isDigit_of_mem_decimal h) (by decide)
  · exact hback h

theorem wifi_table_iff (h : table ∈ tables d) :
    (strstr ".WiFi.".toList table).isSome ↔ table = "Device.WiFi.SSID.".toList := by
  rw [tables, List.mem_append, List.mem_map] at h
  rcases h with h | ⟨j, -, htable⟩
  · have hplain : ∀ t ∈ plainTables,
        (strstr ".WiFi.".toList t).isSome ↔ t = "Device.WiFi.SSID.".toList := by decide
    exact hplain table h
  · have hport : 'W' ∉ table := by
      rw [← htable]
      exact portsAt_not_wifi _
    constructor
    · intro hfound
      have hmem := List.IsInfix.subset ((strstr_isSome _ _).mp hfound)
      exact absurd (hmem (by decide)) hport
    · intro heq
      rw [heq] at hport
      exact absurd (by decide) hport

theorem rowNumber_eq (hd : Served d) (h : table ∈ tables d) {k : ℕ}
    (hk : k < rowCount d table) : rowNumber d table k = d.getInstanceNumberByIndex table k := by
  rw [rowNumber]
  split
  · rename_i hwifi
    rw [(wifi_table_iff h).mp hwifi] at hk ⊢
    exact (hd.wifi k hk).symm
  · rfl

theorem printed_of_lt {size : ℕ} {t : CStr} (h : t.length < size) : printed size t = some t :=
  if_pos h

theorem addRow_eq (hd : Served d) (h : table ∈ tables d) {k : ℕ}
    (hk : k < rowCount d table) (o : COSA_DATAMODEL_IFSTACK) :
    addRow d table o k =
      (rowLayers d (table ++ decimal (d.getInstanceNumberByIndex table k).toNat)).foldlM
        (addLayer d) o := by
  have htable := table_length h
  have hdigits := decimal_word_length (d.getInstanceNumberByIndex table k)
  have hne := hd.row_found table h k hk
  rw [addRow, rowNumber_eq hd h hk]
  simp only [if_neg hne]
  have hlen : (table ++ decimal (d.getInstanceNumberByIndex table k).toNat).length ≤ 50 := by
    rw [List.length_append]
    omega
  generalize table ++ decimal (d.getInstanceNumberByIndex table k).toNat = row at hlen ⊢
  have hname : printed 256 (row ++ ".LowerLayers".toList) =
      some (row ++ ".LowerLayers".toList) := by
    apply printed_of_lt
    rw [List.length_append]
    change row.length + 12 < 256
    omega
  simp only [printed_of_lt (show row.length < 256 by omega), aliasOf_short hd
    (show row.length < 250 by omega), hname, hd.reads]
  rw [rowLayers, List.foldlM_map]
  cases hv : d.value (row ++ ".LowerLayers".toList) with
  | none => simp only [textOf, hv, Option.getD_none]; rfl
  | some v =>
    have htext : textOf d row ".LowerLayers" = v := by rw [textOf, hv, Option.getD_some]
    rw [htext]
    by_cases hfits : v.length < 1024
    · have hstep : addToken d row (Buf.sprintf_s (textOf d row ".Alias") : Buf 64).text =
          fun o token => addLayer d o (row, token) := by
        funext o token
        rw [addToken, addLayer, added, htext, if_pos hfits, Option.map_map]
        congr 1
        funext lower
        rw [Function.comp_apply]
        cases aliasOf d lower with
        | none => rfl
        | some a => rfl
      simp only [Option.filter_some, decide_eq_true hfits, if_true]
      by_cases hzero : v.length = 0
      · rw [if_pos hzero, List.length_eq_zero_iff.mp hzero]
        rfl
      · rw [if_neg hzero, hstep]
    · have hskip : ∀ ts : List CStr, ts.foldlM (fun o token => addLayer d o (row, token)) o =
          some o := by
        intro ts
        induction ts with
        | nil => rfl
        | cons token ts ih =>
          rw [List.foldlM_cons, addLayer, added, htext, if_neg hfits]
          exact ih
      simp only [Option.filter_some, decide_eq_false hfits, hskip]
      rfl

theorem foldlM_congr {α σ : Type} {f g : σ → α → Option σ} {l : List α}
    (h : ∀ a ∈ l, ∀ s, f s a = g s a) (s : σ) : l.foldlM f s = l.foldlM g s := by
  induction l generalizing s with
  | nil => rfl
  | cons a l ih =>
    rw [List.foldlM_cons, List.foldlM_cons, h a List.mem_cons_self]
    exact congrArg _ (funext (ih fun b hb => h b (List.mem_cons_of_mem _ hb)))

theorem addTable_eq (hd : Served d) (h : table ∈ tables d)
    (o : COSA_DATAMODEL_IFSTACK) :
    addTable d table o = ((rowsOf d table).flatMap (rowLayers d)).foldlM (addLayer d) o := by
  rw [foldlM_flatMap, rowsOf, List.foldlM_map, addTable, addRows]
  apply foldlM_congr
  intro k hk o'
  exact addRow_eq hd h (List.mem_range.mp hk) o'

theorem addParent_eq (hd : Served d) {j : ℕ} (hj : j < bridgeCount d)
    (o : COSA_DATAMODEL_IFSTACK) :
    addParent d "Device.Bridging.Bridge.".toList ".Port".toList o j =
      addTable d (portsOf d j) o := by
  have hpath : portsOf d j = "Device.Bridging.Bridge.".toList ++
      decimal (d.getInstanceNumberByIndex "Device.Bridging.Bridge.".toList j).toNat ++
        ".Port".toList ++ ".".toList := by
    unfold portsOf portsAt
    rw [List.append_assoc _ ".Port".toList]
    rfl
  have hlen := portsAt_length (d.getInstanceNumberByIndex "Device.Bridging.Bridge.".toList j)
  change (portsOf d j).length ≤ 39 at hlen
  rw [addParent]
  simp only [if_neg (hd.bridge_found j hj)]
  rw [hpath] at hlen ⊢
  generalize "Device.Bridging.Bridge.".toList ++
    decimal (d.getInstanceNumberByIndex "Device.Bridging.Bridge.".toList j).toNat ++
      ".Port".toList = path at hlen ⊢
  rw [List.length_append] at hlen
  simp only [printed_of_lt (show path.length < 256 by omega)]
  rw [addTable]
  change _ = addRows d (path ++ ['.']) ((path ++ ['.']).dropLast ++ _) o
  rw [List.dropLast_concat]
  rfl

theorem addTables_plain {ts : List CStr} (hts : ∀ t ∈ ts, strstr ".\x7bi\x7d.".toList t = none)
    (rest : List CStr) (o : COSA_DATAMODEL_IFSTACK) :
    addTables d false o (ts ++ rest) =
      (ts.foldlM (fun o t => addTable d t o) o).bind fun o' => addTables d false o' rest := by
  induction ts generalizing o with
  | nil => rfl
  | cons t ts ih =>
    obtain ⟨ht, hts⟩ := List.forall_mem_cons.mp hts
    rw [List.cons_append, addTables, ht, List.foldlM_cons]
    simp only [Bool.false_eq_true, if_false, ih hts, Option.bind_eq_bind, Option.bind_assoc]

theorem addParents_eq (hd : Served d) (o : COSA_DATAMODEL_IFSTACK) :
    addParents d portTable ".\x7bi\x7d.Port.".toList o =
      ((List.range (bridgeCount d)).map (portsOf d)).foldlM (fun o t => addTable d t o) o := by
  have hupper : portTable.take (portTable.length - (".\x7bi\x7d.Port.".toList).length) =
      "Device.Bridging.Bridge".toList := by decide
  have hback : ((".\x7bi\x7d.Port.".toList).drop 4).dropLast = ".Port".toList := by decide
  have hname : "Device.Bridging.Bridge".toList ++ ".".toList =
      "Device.Bridging.Bridge.".toList := by decide
  have hcount : "Device.Bridging.Bridge".toList ++ "NumberOfEntries".toList =
      "Device.Bridging.BridgeNumberOfEntries".toList := by decide
  rw [addParents, List.foldlM_map]
  simp only [hupper, hback, hname, hcount]
  apply foldlM_congr
  intro j hj o'
  exact addParent_eq hd (List.mem_range.mp hj) o'

theorem createAll_eq (hd : Served d) (o : COSA_DATAMODEL_IFSTACK) :
    CosaIFStackCreateAll d o = (layers d).foldlM (addLayer d) ⟨0, []⟩ := by
  have hplain : ∀ t ∈ plainTables, strstr ".\x7bi\x7d.".toList t = none := by decide
  have hport : strstr ".\x7bi\x7d.".toList portTable = some ".\x7bi\x7d.Port.".toList := by
    decide
  have hwalk : CosaIFStackCreateAll d o =
      (tables d).foldlM (fun o t => addTable d t o) ⟨0, []⟩ := by
    rw [CosaIFStackCreateAll, addTables_plain hplain, tables, List.foldlM_append]
    apply congrArg
    funext o'
    rw [addTables, hport]
    simp only [addTables, addParents_eq hd]
    exact Option.bind_fun_some _
  rw [hwalk, layers_eq, foldlM_flatMap]
  apply foldlM_congr
  intro table htable o'
  exact addTable_eq hd htable o'

theorem fits_of_right (hd : Served d) (h : Right d) :
    (layers d).length < 2 ^ 32 ∧ ∀ layer ∈ layers d, Fits d layer := by
  obtain ⟨o', hcreate, ⟨hentries, hnumbers⟩, -⟩ := h ⟨0, []⟩
  rw [createAll_eq hd, foldlM_addLayer] at hcreate
  obtain ⟨hsome, rfl⟩ := hcreate
  have hlength := congrArg List.length hentries
  rw [List.length_map, List.length_map, length_foldl_addEntry, List.length_nil,
    Nat.zero_add] at hlength
  have hcount : (layers d).length < 2 ^ 32 := by
    rcases Nat.eq_zero_or_pos (layers d).length with hzero | hpos
    · rw [hzero]
      decide
    · have hlast : (layers d).length ∈ List.range' 1 (layers d).length :=
        List.mem_range'_1.mpr ⟨hpos, by omega⟩
      rw [← hnumbers, List.mem_map] at hlast
      obtain ⟨context, -, hcontext⟩ := hlast
      rw [← hcontext]
      exact context.InstanceNumber.isLt
  rw [← hlength] at hcount
  rw [foldl_addEntry hcount, numbered_entries,
    List.filterMap_eq_map_iff_forall_eq_some] at hentries
  refine ⟨hlength ▸ hcount, ?_⟩
  intro layer hlayer
  obtain ⟨e, he⟩ := Option.isSome_iff_exists.mp (hsome layer hlayer)
  have hentry := hentries layer hlayer
  rw [he, Option.join_some] at hentry
  rw [← added_entry_iff hd, he, hentry]

theorem right_of_fits (hd : Served d) (hcount : (layers d).length < 2 ^ 32)
    (hfits : ∀ layer ∈ layers d, Fits d layer) : Right d := by
  intro o
  have hadded : ∀ layer ∈ layers d, added d layer = some (some (entryOf d layer)) :=
    fun layer hlayer => (added_entry_iff hd layer).mpr (hfits layer hlayer)
  have hmap : ((layers d).filterMap fun layer => (added d layer).join) =
      (layers d).map (entryOf d) := by
    rw [List.filterMap_eq_map_iff_forall_eq_some]
    intro layer hlayer
    rw [hadded layer hlayer, Option.join_some]
  have hwalk := (foldlM_addLayer (d := d) (layers d) ⟨0, []⟩ _).mpr
    ⟨fun layer hlayer => by rw [hadded layer hlayer]; rfl, rfl⟩
  have hlength : ((layers d).map (entryOf d)).length < 2 ^ 32 := by
    rwa [List.length_map]
  rw [hmap, foldl_addEntry hlength] at hwalk
  refine ⟨_, (createAll_eq hd o).trans hwalk, ⟨numbered_entries _, ?_⟩,
    (createAll_eq hd _).trans hwalk⟩
  change (numbered _).map _ = _
  rw [numbered_numbers hlength, List.length_map]

/-- The stack is right exactly when every layer fits and the count of entries does not wrap. -/
theorem stack_right_iff (hd : Served d) :
    Right d ↔ (layers d).length < 2 ^ 32 ∧ ∀ layer ∈ layers d, Fits d layer :=
  ⟨fits_of_right hd, fun h => right_of_fits hd h.1 h.2⟩

end Walk

section Home

def numberedModel (counts : CStr → ULONG) (value : CStr → Option CStr) : DataModel where
  getParamValueULong := counts
  getInstanceNumberByIndex := fun _ k => BitVec.ofNat 32 (k + 1)
  value := value
  getParamValueString := fun name size => (value name).filter fun v => v.length < size

theorem served_numberedModel (counts : CStr → ULONG) (value : CStr → Option CStr) :
    Served (numberedModel counts value) := by
  have hne : ∀ (n : ULONG), ∀ k < n.toNat, BitVec.ofNat 32 (k + 1) ≠ 0 := by
    intro n k hk hzero
    have hn := n.isLt
    have hnat := congrArg BitVec.toNat hzero
    rw [BitVec.toNat_ofNat, Nat.mod_eq_of_lt (by omega)] at hnat
    exact Nat.succ_ne_zero k hnat
  exact ⟨fun _ _ => hne _, hne _, fun _ _ => rfl, fun _ _ => rfl⟩

def wan (own lowerLayers : CStr) : DataModel :=
  numberedModel (fun name => if name = "Device.IP.InterfaceNumberOfEntries".toList then 1 else 0)
    fun name =>
      if name = "Device.IP.Interface.1.Alias".toList then some own
      else if name = "Device.IP.Interface.1.LowerLayers".toList then some lowerLayers
      else none

variable (own lowerLayers : CStr)

theorem wan_rows :
    (tables (wan own lowerLayers)).flatMap (rowsOf (wan own lowerLayers)) =
      ["Device.IP.Interface.1".toList] := by
  have h : (tables (wan [] [])).flatMap (rowsOf (wan [] [])) =
      ["Device.IP.Interface.1".toList] := by
    decide +kernel
  exact h

theorem wan_alias :
    textOf (wan own lowerLayers) "Device.IP.Interface.1".toList ".Alias" = own := by
  have h : "Device.IP.Interface.1".toList ++ ".Alias".toList =
      "Device.IP.Interface.1.Alias".toList := by
    decide
  rw [textOf, h]
  rfl

theorem wan_lowerLayers :
    textOf (wan own lowerLayers) "Device.IP.Interface.1".toList ".LowerLayers" =
      lowerLayers := by
  have h : "Device.IP.Interface.1".toList ++ ".LowerLayers".toList =
      "Device.IP.Interface.1.LowerLayers".toList := by
    decide
  rw [textOf, h]
  rfl

theorem wan_layers :
    layers (wan own lowerLayers) =
      (tokens ',' lowerLayers).map fun token => ("Device.IP.Interface.1".toList, token) := by
  rw [layers, wan_rows, List.flatMap_singleton, wan_lowerLayers]

theorem stack_right_wan : Right (wan "WAN".toList "Device.Ethernet.Link.1.".toList) := by
  apply (stack_right_iff (served_numberedModel _ _)).mpr
  change (layers (wan "WAN".toList "Device.Ethernet.Link.1.".toList)).length < 2 ^ 32 ∧
    ∀ layer ∈ layers (wan "WAN".toList "Device.Ethernet.Link.1.".toList), Fits (wan _ _) layer
  have htokens : tokens ',' "Device.Ethernet.Link.1.".toList =
      ["Device.Ethernet.Link.1.".toList] := by
    decide
  rw [wan_layers, htokens, List.map_singleton, List.forall_mem_singleton]
  refine ⟨by decide, ?_, ?_, by decide, by decide⟩
  · rw [wan_lowerLayers]
    decide
  · rw [wan_alias]
    decide

/-- A token of 258 characters that ends in a dot is copied past its array, and an alias of
64 characters comes back empty. -/
theorem stack_wrong :
    ¬ Right (wan "WAN".toList (List.replicate 257 'a' ++ ".".toList)) ∧
      ¬ Right (wan (List.replicate 64 'a') "Device.Ethernet.Link.1".toList) := by
  constructor
  · intro h
    have htokens : tokens ',' (List.replicate 257 'a' ++ ".".toList) =
        [List.replicate 257 'a' ++ ".".toList] := by
      decide +kernel
    have hfits := (fits_of_right (served_numberedModel _ _) h).2
    change ∀ layer ∈ layers (wan _ _), _ at hfits
    rw [wan_layers, htokens, List.map_singleton, List.forall_mem_singleton] at hfits
    exact absurd hfits.lowerLayer (by decide +kernel)
  · intro h
    have htokens : tokens ',' "Device.Ethernet.Link.1".toList =
        ["Device.Ethernet.Link.1".toList] := by
      decide
    have hfits := (fits_of_right (served_numberedModel _ _) h).2
    change ∀ layer ∈ layers (wan _ _), Fits (wan _ _) layer at hfits
    rw [wan_layers, htokens, List.map_singleton, List.forall_mem_singleton] at hfits
    have halias := hfits.higherAlias
    rw [wan_alias, List.length_replicate] at halias
    exact absurd halias (by decide)

end Home

end CcspPandM.InterfaceStack
