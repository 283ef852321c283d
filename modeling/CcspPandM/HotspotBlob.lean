import CcspPandM.SubdocHelpers
import CcspPandM.TunnelParams
import CcspPandM.WifiAppenddoc

/-!
The blob of a public hotspot. Its document holds the entries of the tunnels and of the
access points as encoded values; both are decoded, the rows of the tunnels are compared
with the access points, and one request for the two components is pushed.
-/
namespace CcspPandM.HotspotBlob

open CString Msgpack SubdocDecoders SubdocHelpers TunnelParams WifiAppenddoc

section Code

/-- What a union says when it is read as another type than the object has: the count of an
array, its objects, a text, a number. Where nothing can be read there is none. -/
structure Memory where
  size : Obj → BitVec 32
  objects : Obj → Option (List Obj)
  text : Obj → Option (List Byte)
  u64 : Obj → BitVec 64
  /-- The size of a text is a number of 32 bits. -/
  text_lt : ∀ o s, text o = some s → s.length < 2 ^ 32

def hotspotName : Name := ⟨"PublicHotspotData".toList, by decide⟩

def tunnelsName : Name := ⟨"Tunnels".toList, by decide⟩

def wifiName : Name := ⟨"WifiVapConfig".toList, by decide⟩

def chars (bytes : List Byte) : CStr := bytes.map fun b => Char.ofNat b.toNat

def objectType : Obj → MsgpackObjectType
  | .nil => .nil
  | .boolean _ => .boolean
  | .int n => if 0 ≤ n then .positiveInteger else .negativeInteger
  | .float _ => .float
  | .str _ => .str
  | .bin _ => .bin
  | .ext _ => .ext
  | .array _ => .array
  | .map _ => .map

/-- The entry of an outer map, with the bytes that lie behind its key. -/
structure RootKv where
  key : Obj
  behind : List Byte
  val : Obj

def readRootKv (item : Reader Obj) : Reader RootKv :=
  andThen item fun k b => mapResult (fun v => ⟨k, b, v⟩) item b

def readRoot (item : Reader Obj) : Form → Reader (List RootKv)
  | .map size => readMany (readRootKv item) size
  | .sizedMap width => andThen (readSize width) fun size => readMany (readRootKv item) size
  | _ => fun _ => none

/-- `msgpack_unpack_next`, where it gives a map. -/
def unpackedMap : List Byte → Option (List RootKv)
  | [] => none
  | first :: rest => (readRoot (decode (rest.length + 1)) (form first) rest).map Prod.fst

def documentKv (terminator : CStr) (e : RootKv) : DocumentKv Obj :=
  { key := match e.key with
      | .str s => some (chars s)
      | _ => none
    behind := chars e.behind ++ terminator
    val := ⟨objectType e.val, e.val⟩ }

/-- A value was copied with a NUL behind it. -/
def valueKv (e : RootKv) : DocumentKv Obj := documentKv ['\x00'] e

def overruns (name : Name) (expect_type : MsgpackObjectType) (p : DocumentKv Obj) : Bool :=
  match p.key with
  | none => false
  | some key => decide (expect_type ≠ p.val.type) &&
      decide ((key ++ p.behind).length < name.text.length) && (key ++ p.behind).isPrefixOf name.text

/-- The object that is found, and whether it is the last of its map. There is no result where
the comparison leaves the document. -/
def finder_comp (name : Name) (expect_type : MsgpackObjectType) :
    List (DocumentKv Obj) → Option (Option (Obj × Bool))
  | [] => some none
  | p :: ps =>
    if overruns name expect_type p then none
    else if caught name expect_type p then some (some (p.val.via, ps.isEmpty))
    else finder_comp name expect_type ps

variable (mem : Memory)

def arraySize : Obj → ℕ
  | .array objects => objects.length
  | o => (mem.size o).toNat

def arrayObjects : Obj → Option (List Obj)
  | .array objects => some objects
  | o => mem.objects o

/-- `strndup` of a text. -/
def textOfObj : Obj → Option (List Byte)
  | .str s => some (s.takeWhile (· ≠ 0))
  | o => mem.text o

def numberOfObj : Obj → BitVec 64
  | .int n => BitVec.ofInt 64 n
  | o => mem.u64 o

structure Hparam where
  name : Option (List Byte)
  value : Option (List Byte)

structure Hotspotparam where
  entries : List Hparam
  subdoc_name : List Byte
  version : BitVec 32
  transaction_id : BitVec 16

def withName (key val : List Byte) (e : Hparam) : Hparam :=
  if matchKey (chars key) "Name" then { e with name := some (val.takeWhile (· ≠ 0)) } else e

/-- The loop over an entry, which ends at the value: `objects_left` is 2 until then. The byte
behind the value is copied too, so there is no result where the document `ends` with it. -/
def process_hotspotparams (ends : Bool) : Hparam → List (Obj × Obj) → Option (Option Hparam)
  | _, [] => some none
  | e, (.str key, .str val) :: rest =>
    let e := withName key val e
    if matchKey (chars key) "Value" then
      if ends && rest.isEmpty then none else some (some { e with value := some val })
    else process_hotspotparams ends e rest
  | e, _ :: rest => process_hotspotparams ends e rest

def hotspotEntries (ends : Bool) : List Obj → Option (Option (List Hparam))
  | [] => some (some [])
  | .map map :: rest =>
    match process_hotspotparams (ends && rest.isEmpty) ⟨none, none⟩ map with
    | none => none
    | some none => some none
    | some (some e) => (hotspotEntries ends rest).map fun es => es.map fun es => e :: es
  | _ :: _ => some none

/-- Only an array ends where the document ends. -/
def isArray : Obj → Bool
  | .array _ => true
  | _ => false

def process_hotspotdoc (obj : Obj) (ends : Bool) (obj1 obj2 obj3 : Obj) :
    Option (Option Hotspotparam) :=
  (textOfObj mem obj1).bind fun subdoc_name =>
    let version := (numberOfObj mem obj2).setWidth 32
    let transaction_id := (numberOfObj mem obj3).setWidth 16
    if arraySize mem obj = 0 then some (some ⟨[], subdoc_name, version, transaction_id⟩)
    else
      (arrayObjects mem obj).bind fun objects =>
        (hotspotEntries (ends && isArray obj) objects).map fun entries =>
          entries.map fun entries => ⟨entries, subdoc_name, version, transaction_id⟩

/-- `comp_helper_convert` for the document: all four searches are made, and without the first
object the record is left empty. -/
def hotspotdoc_convert (buf : List Byte) : Option (Option Hotspotparam) :=
  match unpackedMap buf with
  | none => some none
  | some entries =>
    let map := entries.map (documentKv [])
    (finder_comp hotspotName .array map).bind fun inner =>
      (finder_comp subdocName .array map).bind fun subdoc_name =>
        (finder_comp version .array map).bind fun version =>
          (finder_comp transactionId .array map).bind fun transaction_id =>
            match inner, subdoc_name, version, transaction_id with
            | none, _, _, _ => some (some ⟨[], [], 0, 0⟩)
            | some inner, some subdoc_name, some version, some transaction_id =>
              process_hotspotdoc mem inner.1 inner.2 subdoc_name.1 version.1 transaction_id.1
            | _, _, _, _ => some none

/-- `comp_helper_convert` for a value: an empty one and one without the wrapper leave the
record empty. -/
def comp_helper_convert {ε : Type} (zero : ε) (buf : List Byte) (wrapper : Name)
    (process : Obj → Option (Option ε)) : Option (Option ε) :=
  if buf = [] then some (some zero)
  else
    match unpackedMap buf with
    | none => some none
    | some entries =>
      (finder_comp wrapper .array (entries.map valueKv)).bind fun inner =>
        match inner with
        | none => some (some zero)
        | some inner => process inner.1

def scalarVal : Obj → MsgpackVal
  | .str s => .str (chars s)
  | .boolean b => .boolean b
  | .int n => if 0 ≤ n then .positiveInteger (BitVec.ofInt 64 n) else .other
  | _ => .other

def keyOf : Obj → Option CStr
  | .str s => some (chars s)
  | _ => none

def rowMap : Obj → Option (List (Kv MsgpackVal))
  | .map map => some (map.map fun p => ⟨keyOf p.1, scalarVal p.2⟩)
  | _ => none

def tunnelVal : Obj → TunnelVal
  | .array objects => .array (objects.map rowMap)
  | o => .scalar (scalarVal o)

def tunnelMap (map : List (Obj × Obj)) : List (Kv TunnelVal) :=
  map.map fun p => ⟨keyOf p.1, tunnelVal p.2⟩

def tunnelEntries : List Obj → Option (List Tdoc)
  | [] => some []
  | .map map :: rest =>
    let r := processTunnelparams Tdoc.zero (tunnelMap map)
    if r.1 = 0 then (tunnelEntries rest).map fun entries => r.2 :: entries else none
  | _ :: _ => none

def process_tunneldoc (obj : Obj) : Option (Option (List Tdoc)) :=
  if arraySize mem obj = 0 then some (some [])
  else (arrayObjects mem obj).map tunnelEntries

def tunneldoc_convert (buf : List Byte) : Option (Option (List Tdoc)) :=
  comp_helper_convert [] buf tunnelsName (process_tunneldoc mem)

def wifi_doc_convert (buf : List Byte) : Option (Option ℕ) :=
  comp_helper_convert 0 buf wifiName fun obj => some (some (arraySize mem obj))

/-- `td_count` after the loop over the tunnels. -/
def tunnelCount (entries : List Tdoc) : ℕ :=
  entries.foldl (fun td_count e =>
    match e.table_param with
    | some table => table.length
    | none => td_count) 0

/-- What `append_wifi_doc` encodes. A failure comes back as the size -1, and more than there
is is encoded. -/
def append_wifi_doc (pk : Packer) (hd : Hotspotparam) (blob_data : List Byte) :
    Option (List Byte) :=
  (wifiPackAppenddoc pk (some ⟨some hd.subdoc_name, hd.version, hd.transaction_id⟩)).bind
    fun pack => appendWifiEncodedData blob_data pack

structure Request where
  tunnels : List Tdoc
  wifi : List Byte
  txid : BitVec 16
  version : BitVec 32
  numOfEntries : ℕ

structure Outcome where
  returned : Bool
  pushed : Option Request

/-- With the document decoded: the two values, the count check and the request. A value that
is missing is a NULL pointer, which counts as empty. -/
def serve (pk : Packer) (hd : Hotspotparam) : Option Outcome :=
  match hd.entries with
  | e0 :: e1 :: _ =>
    (tunneldoc_convert mem (e0.value.getD [])).bind fun td =>
      (wifi_doc_convert mem (e1.value.getD [])).bind fun wd =>
        (append_wifi_doc pk hd (e1.value.getD [])).bind fun wifi =>
          let td_count := (td.map tunnelCount).getD 0
          if wd.any fun n => td_count ≠ n then some ⟨false, none⟩
          else td.map fun td =>
            ⟨true, some ⟨td, wifi, hd.transaction_id, hd.version, td.length⟩⟩
  | _ => none

/-- Outside the MAP-T mode. `b64_decode` is the decoder of the library. -/
def unpackAndProcessHotspotData (pk : Packer) (b64_decode : CStr → List Byte) (pString : CStr) :
    Option Outcome :=
  let decodeMsg := b64_decode pString
  match unpack decodeMsg with
  | none => some ⟨false, none⟩
  | some _ =>
    match hotspotdoc_convert mem decodeMsg with
    | none => none
    | some none => some ⟨true, none⟩
    | some (some hd) => serve mem pk hd

end Code

variable {buf : List Byte} {o : Obj}

section Reading

def RootKv.pair (e : RootKv) : Obj × Obj := (e.key, e.val)

theorem readPair_eq (item : Reader Obj) :
    readPair item = mapResult RootKv.pair (readRootKv item) := by
  funext b
  simp only [readPair, readRootKv, andThen, mapResult, Option.map_bind]
  congr 1
  funext r
  simp [RootKv.pair, Function.comp_def]

theorem readMany_mapResult {α β : Type} (f : α → β) (r : Reader α) (n : ℕ) :
    readMany (mapResult f r) n = mapResult (List.map f) (readMany r n) := by
  induction n with
  | zero => rfl
  | succ n ih =>
    funext b
    simp only [readMany, ih, andThen, mapResult]
    cases r b with
    | none => rfl
    | some x =>
      simp only [Option.map_some, Option.bind_some, Option.map_map]
      rfl

theorem readForm_root {item : Reader Obj} {f : Form} {b rest : List Byte}
    (h : readForm item f b = some (o, rest)) :
    (∀ entries, (readRoot item f b).map Prod.fst = some entries →
      o = .map (entries.map RootKv.pair)) ∧
    ∀ doc, o = .map doc → ∃ entries, (readRoot item f b).map Prod.fst = some entries ∧
      entries.map RootKv.pair = doc := by
  have hmany (n : ℕ) (b' : List Byte) (h' : mapResult .map (readMany (readPair item) n) b' =
      some (o, rest)) : ∃ entries, readMany (readRootKv item) n b' = some (entries, rest) ∧
        o = .map (entries.map RootKv.pair) := by
    rw [readPair_eq, readMany_mapResult] at h'
    obtain ⟨doc, hdoc, rfl⟩ := mapResult_eq_some_iff.mp h'
    obtain ⟨entries, hentries, rfl⟩ := mapResult_eq_some_iff.mp hdoc
    exact ⟨entries, hentries, rfl⟩
  cases f with
  | map size =>
    obtain ⟨entries, hentries, rfl⟩ := hmany size b h
    rw [readRoot, hentries]
    refine ⟨fun entries' h' => ?_, fun doc hdoc => ⟨entries, rfl, Obj.map.inj hdoc⟩⟩
    obtain rfl := Option.some.inj h'
    rfl
  | sizedMap width =>
    rw [readForm, andThen_eq_some_iff] at h
    obtain ⟨size, mid, hsize, hmap⟩ := h
    obtain ⟨entries, hentries, rfl⟩ := hmany size mid hmap
    have hroot : readRoot item (.sizedMap width) b = some (entries, rest) :=
      andThen_eq_some_iff.mpr ⟨size, mid, hsize, hentries⟩
    rw [hroot]
    refine ⟨fun entries' h' => ?_, fun doc hdoc => ⟨entries, rfl, Obj.map.inj hdoc⟩⟩
    obtain rfl := Option.some.inj h'
    rfl
  | _ =>
    refine ⟨fun entries h' => (by cases h'), fun doc hdoc => ?_⟩
    subst hdoc
    have hmap := (readForm_map h).1
    cases hmap

theorem unpackedMap_of_unpack (h : unpack buf = some o) :
    (∀ entries, unpackedMap buf = some entries → o = .map (entries.map RootKv.pair)) ∧
    ∀ doc, o = .map doc → ∃ entries, unpackedMap buf = some entries ∧
      entries.map RootKv.pair = doc := by
  have hdecode := unpack_eq_some_iff.mp h
  cases buf with
  | nil => cases hdecode
  | cons first rest => exact readForm_root hdecode

end Reading

variable {map : List (Obj × Obj)}

section Entries

/-- The text of the first key that is taken for Value, and what comes behind it. -/
def ValueTaken (map : List (Obj × Obj)) (v : List Byte) (after : List (Obj × Obj)) : Prop :=
  ∃ before key, map = before ++ (.str key, .str v) :: after ∧
    matchKey (chars key) "Value" = true ∧
    ∀ k w, (Obj.str k, Obj.str w) ∈ before → matchKey (chars k) "Value" = false

/-- Each object is a map with a value, and the document does not end with the last one. -/
structure EntriesTaken (ends : Bool) (objects : List Obj) (values : List (List Byte)) : Prop where
  values : List.Forall₂ (fun o v => ∃ map after, o = .map map ∧ ValueTaken map v after)
    objects values
  inside : ends = true → ∀ map v, objects.getLast? = some (.map map) → ¬ ValueTaken map v []

variable {v : List Byte}

theorem valueTaken_cons_iff {p : Obj × Obj} {after : List (Obj × Obj)}
    (hp : ∀ k w, p = (.str k, .str w) → matchKey (chars k) "Value" = false) :
    ValueTaken (p :: map) v after ↔ ValueTaken map v after := by
  constructor
  · rintro ⟨before, key, hmap, hkey, hbefore⟩
    cases before with
    | nil =>
      obtain ⟨rfl, -⟩ := List.cons.inj hmap
      rw [hp key v rfl] at hkey
      cases hkey
    | cons q before =>
      obtain ⟨-, hmap⟩ := List.cons.inj hmap
      exact ⟨before, key, hmap, hkey, fun k w hmem => hbefore k w (List.mem_cons_of_mem _ hmem)⟩
  · rintro ⟨before, key, rfl, hkey, hbefore⟩
    refine ⟨p :: before, key, rfl, hkey, fun k w hmem => ?_⟩
    rcases List.mem_cons.mp hmem with heq | hmem
    · exact hp k w heq.symm
    · exact hbefore k w hmem

theorem valueTaken_head {key w : List Byte}
    (hkey : matchKey (chars key) "Value" = true) {after : List (Obj × Obj)} :
    ValueTaken ((.str key, .str w) :: map) v after ↔ v = w ∧ after = map := by
  constructor
  · rintro ⟨before, key', hmap, hkey', hbefore⟩
    cases before with
    | nil =>
      obtain ⟨hhead, htail⟩ := List.cons.inj hmap
      obtain ⟨-, hval⟩ := Prod.mk.inj hhead
      exact ⟨(Obj.str.inj hval).symm, htail.symm⟩
    | cons q before =>
      obtain ⟨rfl, -⟩ := List.cons.inj hmap
      rw [hbefore key w (List.mem_cons_self ..)] at hkey
      cases hkey
  · rintro ⟨rfl, rfl⟩
    exact ⟨[], key, rfl, hkey, fun k w hmem => absurd hmem List.not_mem_nil⟩

variable (ends : Bool)

theorem process_hotspotparams_cases (map : List (Obj × Obj)) : ∀ e : Hparam,
    (∃ v after name, ValueTaken map v after ∧ process_hotspotparams ends e map =
      if ends && after.isEmpty then none else some (some ⟨name, some v⟩)) ∨
    (∀ v after, ¬ ValueTaken map v after) ∧ process_hotspotparams ends e map = some none := by
  induction map with
  | nil =>
    intro e
    refine Or.inr ⟨?_, by rw [process_hotspotparams]⟩
    rintro v after ⟨before, key, hmap, -⟩
    simp at hmap
  | cons p map ih =>
    intro e
    have hskip (e' : Hparam)
        (hp : ∀ k w, p = (.str k, .str w) → matchKey (chars k) "Value" = false)
        (hrun : process_hotspotparams ends e (p :: map) = process_hotspotparams ends e' map) :
        (∃ v after name, ValueTaken (p :: map) v after ∧
          process_hotspotparams ends e (p :: map) =
            if ends && after.isEmpty then none else some (some ⟨name, some v⟩)) ∨
        (∀ v after, ¬ ValueTaken (p :: map) v after) ∧
          process_hotspotparams ends e (p :: map) = some none := by
      simp only [valueTaken_cons_iff hp, hrun]
      exact ih e'
    obtain ⟨k, w⟩ := p
    cases k with
    | str key =>
      cases w with
      | str val =>
        cases hkey : matchKey (chars key) "Value" with
        | false =>
          refine hskip (withName key val e) ?_ ?_
          · intro k w heq
            obtain ⟨hk, -⟩ := Prod.mk.inj heq
            rw [← Obj.str.inj hk]
            exact hkey
          · rw [process_hotspotparams]
            simp only [hkey, Bool.false_eq_true, if_false]
        | true =>
          refine Or.inl ⟨val, map, (withName key val e).name,
            (valueTaken_head hkey).mpr ⟨rfl, rfl⟩, ?_⟩
          rw [process_hotspotparams]
          simp only [hkey, if_true]
      | _ => exact hskip e (fun k w heq => by cases heq) rfl
    | _ => exact hskip e (fun k w heq => by cases heq) rfl

theorem valueTaken_unique {v w : List Byte}
    {after after' : List (Obj × Obj)} (h : ValueTaken map v after)
    (h' : ValueTaken map w after') : v = w ∧ after = after' := by
  obtain ⟨before, key, rfl, hkey, hbefore⟩ := h
  induction before with
  | nil =>
    obtain ⟨hw, hafter⟩ := (valueTaken_head hkey).mp h'
    exact ⟨hw.symm, hafter.symm⟩
  | cons p before ih =>
    have hp : ∀ k u, p = (Obj.str k, Obj.str u) → matchKey (chars k) "Value" = false := by
      intro k u hpu
      exact hbefore k u (by rw [hpu]; exact List.mem_cons_self ..)
    exact ih ((valueTaken_cons_iff hp).mp h')
      fun k u hmem => hbefore k u (List.mem_cons_of_mem _ hmem)

theorem process_hotspotparams_iff (map : List (Obj × Obj)) (e : Hparam)
    (v : List Byte) :
    (∃ name, process_hotspotparams ends e map = some (some ⟨name, some v⟩)) ↔
      ∃ after, ValueTaken map v after ∧ (ends = true → after ≠ []) := by
  rcases process_hotspotparams_cases ends map e with ⟨w, after, name, htaken, hrun⟩ | ⟨hnone, hrun⟩
  · rw [hrun]
    constructor
    · rintro ⟨name', h⟩
      split at h
      · cases h
      · rename_i hends
        obtain ⟨-, hval⟩ := Hparam.mk.inj (Option.some.inj (Option.some.inj h))
        obtain rfl := Option.some.inj hval
        refine ⟨after, htaken, fun htrue hnil => hends ?_⟩
        rw [htrue, hnil]
        rfl
    · rintro ⟨after', htaken', hends⟩
      obtain ⟨rfl, rfl⟩ := valueTaken_unique htaken htaken'
      refine ⟨name, if_neg ?_⟩
      intro hboth
      rw [Bool.and_eq_true, List.isEmpty_iff] at hboth
      exact hends hboth.1 hboth.2
  · rw [hrun]
    constructor
    · rintro ⟨name', h⟩
      cases h
    · rintro ⟨after', htaken', -⟩
      exact absurd htaken' (hnone v after')

theorem entriesTaken_cons_iff {ends : Bool} {rest : List Obj} {vs : List (List Byte)} :
    EntriesTaken ends (.map map :: rest) (v :: vs) ↔
      (∃ after, ValueTaken map v after ∧ ((ends && rest.isEmpty) = true → after ≠ [])) ∧
        EntriesTaken ends rest vs := by
  constructor
  · rintro ⟨hvalues, hinside⟩
    obtain ⟨⟨map', after, hmap, htaken⟩, hrest⟩ := List.forall₂_cons.mp hvalues
    obtain rfl := Obj.map.inj hmap
    refine ⟨⟨after, htaken, fun hends hnil => ?_⟩, hrest, fun hends map' w hlast => ?_⟩
    · rw [Bool.and_eq_true, List.isEmpty_iff] at hends
      obtain ⟨hends, rfl⟩ := hends
      subst hnil
      exact hinside hends map v rfl htaken
    · apply hinside hends map' w
      cases rest with
      | nil => cases hlast
      | cons o rest => exact hlast
  · rintro ⟨⟨after, htaken, hlast⟩, hvalues, hinside⟩
    refine ⟨List.Forall₂.cons ⟨map, after, rfl, htaken⟩ hvalues, fun hends map' w hmap => ?_⟩
    cases rest with
    | nil =>
      obtain rfl := Obj.map.inj (Option.some.inj hmap)
      intro htaken'
      obtain ⟨-, rfl⟩ := valueTaken_unique htaken htaken'
      exact hlast (by rw [hends]; rfl) rfl
    | cons o rest => exact hinside hends map' w hmap

theorem hotspotEntries_cons_iff {ends : Bool} {rest : List Obj}
    {es : List Hparam} :
    hotspotEntries ends (.map map :: rest) = some (some es) ↔
      ∃ e es', es = e :: es' ∧
        process_hotspotparams (ends && rest.isEmpty) ⟨none, none⟩ map = some (some e) ∧
        hotspotEntries ends rest = some (some es') := by
  rw [hotspotEntries]
  cases hrun : process_hotspotparams (ends && rest.isEmpty) ⟨none, none⟩ map with
  | none => simp
  | some r =>
    cases r with
    | none => simp
    | some e =>
      cases hrest : hotspotEntries ends rest with
      | none => simp
      | some r' =>
        cases r' with
        | none => simp
        | some es' =>
          simp only [Option.map_some, Option.some.injEq]
          constructor
          · rintro rfl
            exact ⟨e, es', rfl, rfl, rfl⟩
          · rintro ⟨e', es'', rfl, rfl, rfl⟩
            rfl

theorem hotspotEntries_iff (objects : List Obj) : ∀ values : List (List Byte),
    (∃ es, hotspotEntries ends objects = some (some es) ∧
      es.map Hparam.value = values.map some) ↔ EntriesTaken ends objects values := by
  induction objects with
  | nil =>
    intro values
    rw [hotspotEntries]
    constructor
    · rintro ⟨es, hes, hvalues⟩
      obtain rfl := Option.some.inj (Option.some.inj hes)
      obtain rfl := List.map_eq_nil_iff.mp hvalues.symm
      exact ⟨List.Forall₂.nil, fun _ map v hlast => by cases hlast⟩
    · rintro ⟨hvalues, -⟩
      cases hvalues
      exact ⟨[], rfl, rfl⟩
  | cons o rest ih =>
    intro values
    cases o with
    | map map =>
      cases values with
      | nil =>
        constructor
        · rintro ⟨es, hes, hvalues⟩
          obtain ⟨e, es', rfl, -⟩ := hotspotEntries_cons_iff.mp hes
          cases hvalues
        · rintro ⟨hvalues, -⟩
          cases hvalues
      | cons v vs =>
        rw [entriesTaken_cons_iff, ← process_hotspotparams_iff _ _ ⟨none, none⟩, ← ih vs]
        constructor
        · rintro ⟨es, hes, hvalues⟩
          obtain ⟨⟨name, value⟩, es', rfl, hrun, hrest⟩ := hotspotEntries_cons_iff.mp hes
          obtain ⟨rfl, htail⟩ := List.cons.inj hvalues
          exact ⟨⟨name, hrun⟩, es', hrest, htail⟩
        · rintro ⟨⟨name, hrun⟩, es', hrest, hvalues⟩
          refine ⟨⟨name, some v⟩ :: es', hotspotEntries_cons_iff.mpr ⟨_, _, rfl, hrun, hrest⟩, ?_⟩
          rw [List.map_cons, hvalues, List.map_cons]
    | _ =>
      constructor
      · rintro ⟨es, hes, -⟩
        cases hes
      · rintro ⟨hvalues, -⟩
        cases hvalues with
        | cons h _ =>
          obtain ⟨map, after, hmap, -⟩ := h
          cases hmap

end Entries

variable {values : List (List Byte)} {hd : Hotspotparam} {v1 v2 : List Byte}

section Documents

variable {mem : Memory}

structure Searched (buf : List Byte) (inner : Obj) (last : Bool) (obj1 obj2 obj3 : Obj) :
    Prop where
  found : ∃ entries l1 l2 l3, unpackedMap buf = some entries ∧
    finder_comp hotspotName .array (entries.map (documentKv [])) = some (some (inner, last)) ∧
    finder_comp subdocName .array (entries.map (documentKv [])) = some (some (obj1, l1)) ∧
    finder_comp version .array (entries.map (documentKv [])) = some (some (obj2, l2)) ∧
    finder_comp transactionId .array (entries.map (documentKv [])) = some (some (obj3, l3))

/-- What is taken from a document with two entries or more: the objects of the array, their
values, and the three fields. -/
def DocumentTaken (mem : Memory) (buf : List Byte) (values : List (List Byte))
    (subdoc_name : List Byte) (version : BitVec 32) (transaction_id : BitVec 16) : Prop :=
  ∃ inner last obj1 obj2 obj3 objects, Searched buf inner last obj1 obj2 obj3 ∧
    textOfObj mem obj1 = some subdoc_name ∧ version = (numberOfObj mem obj2).setWidth 32 ∧
    transaction_id = (numberOfObj mem obj3).setWidth 16 ∧ arraySize mem inner ≠ 0 ∧
    arrayObjects mem inner = some objects ∧ EntriesTaken (last && isArray inner) objects values

theorem exists_values {ends : Bool} {objects : List Obj} : ∀ {es : List Hparam},
    hotspotEntries ends objects = some (some es) →
      ∃ values : List (List Byte), es.map Hparam.value = values.map some := by
  induction objects with
  | nil =>
    intro es hes
    obtain rfl := Option.some.inj (Option.some.inj hes)
    exact ⟨[], rfl⟩
  | cons o rest ih =>
    intro es hes
    cases o with
    | map map =>
      obtain ⟨e, es', rfl, hrun, hrest⟩ := hotspotEntries_cons_iff.mp hes
      obtain ⟨values, hvalues⟩ := ih hrest
      rcases process_hotspotparams_cases (ends && rest.isEmpty) map ⟨none, none⟩ with
        ⟨v, after, name, -, hcase⟩ | ⟨-, hcase⟩
      · rw [hcase] at hrun
        split at hrun
        · cases hrun
        · obtain rfl := Option.some.inj (Option.some.inj hrun)
          exact ⟨v :: values, by rw [List.map_cons, hvalues, List.map_cons]⟩
      · rw [hcase] at hrun
        cases hrun
    | _ => cases hes

theorem process_hotspotdoc_iff {inner obj1 obj2 obj3 : Obj} {last : Bool} (hne : hd.entries ≠ []) :
    process_hotspotdoc mem inner last obj1 obj2 obj3 = some (some hd) ↔
      textOfObj mem obj1 = some hd.subdoc_name ∧
        hd.version = (numberOfObj mem obj2).setWidth 32 ∧
        hd.transaction_id = (numberOfObj mem obj3).setWidth 16 ∧ arraySize mem inner ≠ 0 ∧
        ∃ objects, arrayObjects mem inner = some objects ∧
          hotspotEntries (last && isArray inner) objects = some (some hd.entries) := by
  rw [process_hotspotdoc]
  cases textOfObj mem obj1 with
  | none => simp
  | some name =>
    rw [Option.bind_some]
    by_cases hsize : arraySize mem inner = 0
    · rw [if_pos hsize]
      constructor
      · intro h
        obtain rfl := Option.some.inj (Option.some.inj h)
        exact absurd rfl hne
      · intro h
        exact absurd hsize h.2.2.2.1
    · rw [if_neg hsize]
      cases arrayObjects mem inner with
      | none => simp
      | some objects =>
        cases hes : hotspotEntries (last && isArray inner) objects with
        | none => simp [hes]
        | some r =>
          cases r with
          | none => simp [hes]
          | some es =>
            obtain ⟨entries, subdoc, ver, tx⟩ := hd
            simp only [Option.bind_some, hes, Option.map_some, Option.some.injEq,
              Hotspotparam.mk.injEq, exists_eq_left', hsize, ne_eq, not_false_eq_true, true_and]
            constructor
            · rintro ⟨rfl, rfl, rfl, rfl⟩
              exact ⟨rfl, rfl, rfl, rfl⟩
            · rintro ⟨rfl, rfl, rfl, rfl⟩
              exact ⟨rfl, rfl, rfl, rfl⟩

theorem hotspotdoc_convert_iff (hne : hd.entries ≠ []) :
    hotspotdoc_convert mem buf = some (some hd) ↔
      ∃ inner last obj1 obj2 obj3, Searched buf inner last obj1 obj2 obj3 ∧
        process_hotspotdoc mem inner last obj1 obj2 obj3 = some (some hd) := by
  constructor
  · intro h
    rw [hotspotdoc_convert] at h
    cases hmap : unpackedMap buf with
    | none =>
      rw [hmap] at h
      cases h
    | some entries =>
      rw [hmap] at h
      simp only [Option.bind_eq_some_iff] at h
      obtain ⟨r, hr, r1, hr1, r2, hr2, r3, hr3, h⟩ := h
      cases r with
      | none =>
        obtain rfl := Option.some.inj (Option.some.inj h)
        exact absurd rfl hne
      | some r =>
        cases r1 with
        | none => cases h
        | some r1 =>
          cases r2 with
          | none => cases h
          | some r2 =>
            cases r3 with
            | none => cases h
            | some r3 =>
              exact ⟨r.1, r.2, r1.1, r2.1, r3.1,
                ⟨entries, r1.2, r2.2, r3.2, hmap, hr, hr1, hr2, hr3⟩, h⟩
  · rintro ⟨inner, last, obj1, obj2, obj3, ⟨entries, l1, l2, l3, hmap, h0, h1, h2, h3⟩, h⟩
    rw [hotspotdoc_convert, hmap]
    simp only [h0, h1, h2, h3, Option.bind_some]
    exact h

theorem documentTaken_iff {name : List Byte} {ver : BitVec 32} {tx : BitVec 16} :
    DocumentTaken mem buf (v1 :: v2 :: values) name ver tx ↔
      ∃ es, hotspotdoc_convert mem buf = some (some ⟨es, name, ver, tx⟩) ∧
        es.map Hparam.value = (v1 :: v2 :: values).map some := by
  constructor
  · rintro ⟨inner, last, obj1, obj2, obj3, objects, hsearched, hname, hver, htx, hsize, hobjects,
      htaken⟩
    obtain ⟨es, hes, hvalues⟩ := (hotspotEntries_iff _ _ _).mpr htaken
    have hne : es ≠ [] := by
      rintro rfl
      cases hvalues
    refine ⟨es, (hotspotdoc_convert_iff hne).mpr ⟨inner, last, obj1, obj2, obj3, hsearched, ?_⟩,
      hvalues⟩
    exact (process_hotspotdoc_iff hne).mpr ⟨hname, hver, htx, hsize, objects, hobjects, hes⟩
  · rintro ⟨es, h, hvalues⟩
    have hne : es ≠ [] := by
      rintro rfl
      cases hvalues
    obtain ⟨inner, last, obj1, obj2, obj3, hsearched, h⟩ := (hotspotdoc_convert_iff hne).mp h
    obtain ⟨hname, hver, htx, hsize, objects, hobjects, hes⟩ := (process_hotspotdoc_iff hne).mp h
    exact ⟨inner, last, obj1, obj2, obj3, objects, hsearched, hname, hver, htx, hsize, hobjects,
      (hotspotEntries_iff _ _ _).mp ⟨es, hes, hvalues⟩⟩

end Documents

section Values

variable {mem : Memory}

/-- What a value holds under a wrapper: nothing where it is no map, else an object that may be
missing. -/
def underWrapper (wrapper : Name) (buf : List Byte) : Option (Option Obj) :=
  if buf = [] then some none
  else (unpackedMap buf).map fun entries =>
    (finder wrapper .array (entries.map valueKv)).map fun p => p.val.via

theorem valueKv_inside (name : Name) (expect_type : MsgpackObjectType) (e : RootKv) :
    overruns name expect_type (valueKv e) = false := by
  rw [overruns, valueKv, documentKv]
  split
  · rfl
  · rename_i key _
    apply Bool.and_eq_false_imp.mpr
    intro _
    by_contra hprefix
    rw [Bool.not_eq_false, List.isPrefixOf_iff_prefix] at hprefix
    apply name.whole
    apply ( hprefix ).subset
    simp

theorem finder_comp_value (name : Name) (expect_type : MsgpackObjectType)
    (entries : List RootKv) : ∃ found, finder_comp name expect_type (entries.map valueKv) =
      some found ∧ found.map Prod.fst =
        (finder name expect_type (entries.map valueKv)).map fun p => p.val.via := by
  induction entries with
  | nil => exact ⟨none, rfl, rfl⟩
  | cons e entries ih =>
    rw [List.map_cons, finder_comp, valueKv_inside, finder, List.find?_cons]
    cases caught name expect_type (valueKv e) with
    | false => exact ih
    | true => exact ⟨_, rfl, rfl⟩

theorem comp_helper_convert_eq {ε : Type} (zero : ε) (buf : List Byte) (wrapper : Name)
    (process : Obj → Option (Option ε)) :
    comp_helper_convert zero buf wrapper process =
      match underWrapper wrapper buf with
      | none => some none
      | some none => some (some zero)
      | some (some o) => process o := by
  rw [comp_helper_convert, underWrapper]
  split
  · rfl
  · cases unpackedMap buf with
    | none => rfl
    | some entries =>
      obtain ⟨found, hrun, hfound⟩ := finder_comp_value wrapper .array entries
      simp only [Option.map_some, hrun, Option.bind_some, ← hfound]
      cases found <;> rfl

def Accepted (map : List (Obj × Obj)) : Prop :=
  (processTunnelparams Tdoc.zero (tunnelMap map)).1 = 0

def decoded (map : List (Obj × Obj)) : Tdoc := (processTunnelparams Tdoc.zero (tunnelMap map)).2

theorem tunnelEntries_eq_some_iff {objects : List Obj} : ∀ {td : List Tdoc},
    tunnelEntries objects = some td ↔
      ∃ maps : List (List (Obj × Obj)), objects = maps.map Obj.map ∧
        (∀ m ∈ maps, Accepted m) ∧ td = maps.map decoded := by
  induction objects with
  | nil =>
    intro td
    rw [tunnelEntries]
    constructor
    · intro h
      exact ⟨[], rfl, fun m hm => absurd hm List.not_mem_nil, (Option.some.inj h).symm⟩
    · rintro ⟨maps, hmaps, -, rfl⟩
      obtain rfl := List.map_eq_nil_iff.mp hmaps.symm
      rfl
  | cons o rest ih =>
    intro td
    cases o with
    | map map =>
      by_cases hok : Accepted map
      · have hrun : tunnelEntries (.map map :: rest) =
            (tunnelEntries rest).map fun entries => decoded map :: entries := if_pos hok
        rw [hrun, Option.map_eq_some_iff]
        constructor
        · rintro ⟨td', htd', rfl⟩
          obtain ⟨maps, rfl, hall, rfl⟩ := ih.mp htd'
          refine ⟨map :: maps, rfl, fun m hm => ?_, rfl⟩
          rcases List.mem_cons.mp hm with rfl | hm
          · exact hok
          · exact hall m hm
        · rintro ⟨maps, hmaps, hall, rfl⟩
          cases maps with
          | nil => cases hmaps
          | cons m maps =>
            obtain ⟨hm, rfl⟩ := List.cons.inj hmaps
            obtain rfl := Obj.map.inj hm
            exact ⟨maps.map decoded, ih.mpr
              ⟨maps, rfl, fun m hm => hall m (List.mem_cons_of_mem _ hm), rfl⟩, rfl⟩
      · have hrun : tunnelEntries (.map map :: rest) = none := if_neg hok
        rw [hrun]
        constructor
        · intro h
          cases h
        · rintro ⟨maps, hmaps, hall, -⟩
          cases maps with
          | nil => cases hmaps
          | cons m maps =>
            obtain ⟨hm, -⟩ := List.cons.inj hmaps
            obtain rfl := Obj.map.inj hm
            exact absurd (hall map (List.mem_cons_self ..)) hok
    | _ =>
      constructor
      · intro h
        cases h
      · rintro ⟨maps, hmaps, -⟩
        cases maps with
        | nil => cases hmaps
        | cons m maps => cases (List.cons.inj hmaps).1

def Tunnels (mem : Memory) (x : Option Obj) (maps : List (List (Obj × Obj))) : Prop :=
  match x with
  | none => maps = []
  | some o =>
    if arraySize mem o = 0 then maps = []
    else arrayObjects mem o = some (maps.map Obj.map) ∧ ∀ m ∈ maps, Accepted m

/-- No map is there, or an object of the array is none that is accepted. -/
def TunnelsRefused (mem : Memory) (buf : List Byte) : Prop :=
  underWrapper tunnelsName buf = none ∨
    ∃ o objects, underWrapper tunnelsName buf = some (some o) ∧ arraySize mem o ≠ 0 ∧
      arrayObjects mem o = some objects ∧
      ¬ ∃ maps : List (List (Obj × Obj)), objects = maps.map Obj.map ∧ ∀ m ∈ maps, Accepted m

theorem tunneldoc_some_iff {td : List Tdoc} :
    tunneldoc_convert mem buf = some (some td) ↔
      ∃ x maps, underWrapper tunnelsName buf = some x ∧ Tunnels mem x maps ∧
        td = maps.map decoded := by
  rw [tunneldoc_convert, comp_helper_convert_eq]
  cases underWrapper tunnelsName buf with
  | none => simp
  | some x =>
    simp only [Option.some.injEq, exists_and_left, exists_eq_left']
    cases x with
    | none =>
      simp only [Option.some.injEq, Tunnels, exists_eq_left, List.map_nil]
      exact eq_comm
    | some o =>
      simp only [Tunnels, process_tunneldoc]
      split
      · simp only [Option.some.injEq, exists_eq_left, List.map_nil]
        exact eq_comm
      · simp only [Option.map_eq_some_iff, tunnelEntries_eq_some_iff]
        constructor
        · rintro ⟨objects, hobjects, maps, rfl, hall, rfl⟩
          exact ⟨maps, ⟨hobjects, hall⟩, rfl⟩
        · rintro ⟨maps, ⟨hobjects, hall⟩, rfl⟩
          exact ⟨_, hobjects, maps, rfl, hall, rfl⟩

theorem tunneldoc_none_iff :
    tunneldoc_convert mem buf = some none ↔ TunnelsRefused mem buf := by
  rw [tunneldoc_convert, comp_helper_convert_eq, TunnelsRefused]
  cases underWrapper tunnelsName buf with
  | none => simp
  | some x =>
    cases x with
    | none => simp
    | some o =>
      simp only [process_tunneldoc, reduceCtorEq, false_or, Option.some.injEq]
      constructor
      · intro h
        split at h
        · cases h
        · rename_i hsize
          obtain ⟨objects, hobjects, h⟩ := Option.map_eq_some_iff.mp h
          refine ⟨o, objects, rfl, hsize, hobjects, ?_⟩
          rintro ⟨maps, rfl, hall⟩
          rw [tunnelEntries_eq_some_iff.mpr ⟨maps, rfl, hall, rfl⟩] at h
          cases h
      · rintro ⟨o, objects, rfl, hsize, hobjects, hnone⟩
        rw [if_neg hsize, hobjects, Option.map_some]
        cases h : tunnelEntries objects with
        | none => rfl
        | some td =>
          obtain ⟨maps, hmaps, hall, -⟩ := tunnelEntries_eq_some_iff.mp h
          exact absurd ⟨maps, hmaps, hall⟩ hnone

def vapCount (mem : Memory) : Option Obj → ℕ
  | none => 0
  | some o => arraySize mem o

theorem wifi_doc_eq (buf : List Byte) :
    wifi_doc_convert mem buf = some ((underWrapper wifiName buf).map (vapCount mem)) := by
  rw [wifi_doc_convert, comp_helper_convert_eq]
  cases underWrapper wifiName buf with
  | none => rfl
  | some y => cases y <;> rfl

theorem wifi_doc_some_iff {n : ℕ} :
    wifi_doc_convert mem buf = some (some n) ↔
      ∃ y, underWrapper wifiName buf = some y ∧ vapCount mem y = n := by
  rw [wifi_doc_eq, Option.some.injEq, Option.map_eq_some_iff]

end Values

section Law

variable {mem : Memory} {pk : Packer}

def named (name : String) : Obj := .str (token name)

def HasText (name : String) (map : List (Obj × Obj)) : Prop := ∃ s, (named name, Obj.str s) ∈ map

/-- The objects of the array under a name, none where there is no such name. -/
def ListOf (name : String) (map : List (Obj × Obj)) (objects : List Obj) : Prop :=
  (named name, .array objects) ∈ map ∨ objects = [] ∧ ∀ v, (named name, v) ∉ map

/-- The document holds an array of two entries with names, and with these values. -/
def DocumentHolds (doc : List (Obj × Obj)) (v1 v2 : List Byte) : Prop :=
  ∃ a b, (named "PublicHotspotData", .array [.map a, .map b]) ∈ doc ∧ HasText "Name" a ∧
    HasText "Name" b ∧ (named "Value", .str v1) ∈ a ∧ (named "Value", .str v2) ∈ b

def rowCount (td : List Tdoc) : ℕ :=
  (td.map fun e => (e.table_param.map List.length).getD 0).sum

def lastRows (td : List Tdoc) : ℕ :=
  (((td.filterMap Tdoc.table_param).getLast?).map List.length).getD 0

theorem tunnelCount_append (td : List Tdoc) (e : Tdoc) :
    tunnelCount (td ++ [e]) = (e.table_param.map List.length).getD (tunnelCount td) := by
  rw [tunnelCount, List.foldl_append, List.foldl_cons, List.foldl_nil, tunnelCount]
  cases e.table_param <;> rfl

theorem tunnelCount_eq (td : List Tdoc) : tunnelCount td = lastRows td := by
  induction td using List.reverseRecOn with
  | nil => rfl
  | append_singleton td e ih =>
    rw [tunnelCount_append, ih, lastRows, lastRows, List.filterMap_append]
    cases h : e.table_param with
    | none => simp [h]
    | some table => simp [h]

structure Good (doc : List (Obj × Obj)) (v1 v2 : List Byte) (req : Request) : Prop where
  entries : DocumentHolds doc v1 v2
  tunnels : ∃ map objects, unpack v1 = some (.map map) ∧ ListOf "Tunnels" map objects ∧
    List.Forall₂ (fun o e => ∃ m, o = .map m ∧ Stored (tunnelMap m) e) objects req.tunnels
  rows : ∃ map vaps, unpack v2 = some (.map map) ∧ ListOf "WifiVapConfig" map vaps ∧
    rowCount req.tunnels = vaps.length
  wifi : ∃ map name ver tx, unpack v2 = some (.map map) ∧ (named "subdoc_name", .str name) ∈ doc ∧
    (named "version", .int ver) ∈ doc ∧ (named "transaction_id", .int tx) ∈ doc ∧
    unpack req.wifi = some (.map (map ++ [(named "subdoc_name", .str name),
      (named "version", .int ver), (named "transaction_id", .int tx)]))

/-- The two values are counted, and the count of the last tunnel with rows is not that of the
access points. -/
def Mismatch (mem : Memory) (v1 v2 : List Byte) : Prop :=
  (∀ first ∈ v2.head?, first % 0x10 ≠ 15) ∧
    ∃ y, underWrapper wifiName v2 = some y ∧
      (TunnelsRefused mem v1 ∧ vapCount mem y ≠ 0 ∨
        ∃ x maps, underWrapper tunnelsName v1 = some x ∧ Tunnels mem x maps ∧
          vapCount mem y ≠ lastRows (maps.map decoded))

/-- The document holds the two values, each tunnel is read in time, the counts agree, and the
map of the second value has room for the three fields. -/
structure Served (mem : Memory) (doc : List (Obj × Obj)) (v1 v2 name : List Byte)
    (ver : BitVec 32) (tx : BitVec 16) : Prop where
  entries : DocumentHolds doc v1 v2
  tunnels : ∃ x maps map objects, underWrapper tunnelsName v1 = some x ∧
    Tunnels mem x maps ∧ unpack v1 = some (.map map) ∧ ListOf "Tunnels" map objects ∧
    List.Forall₂ (fun o m => ∃ m', o = .map m' ∧ ReadFrom (tunnelMap m') (tunnelMap m))
      objects maps ∧
    ∃ y map vaps, underWrapper wifiName v2 = some y ∧
      vapCount mem y = lastRows (maps.map decoded) ∧ unpack v2 = some (.map map) ∧
      ListOf "WifiVapConfig" map vaps ∧ rowCount (maps.map decoded) = vaps.length
  room : ∀ first ∈ v2.head?, first ≤ 0x8c
  name : (named "subdoc_name", .str name) ∈ doc
  version : (named "version", .int ver.toNat) ∈ doc
  transaction_id : (named "transaction_id", .int tx.toNat) ∈ doc

theorem append_wifi_doc_cons (hd : Hotspotparam) (first : Byte) (body : List Byte) :
    ∃ pack, wifiPackAppenddoc pk (some ⟨some hd.subdoc_name, hd.version, hd.transaction_id⟩) =
        some pack ∧
      append_wifi_doc pk hd (first :: body) = if first % 0x10 = 15 then none
        else some ((first + WIFI_METADATA_MAP_SIZE) :: (body ++ pack)) :=
  ⟨_, rfl, rfl⟩

theorem full_first (first : Byte) (h : first % 0x10 = 15) :
    (form first).isStr = false ∨ form first = .bytes .str 15 ∨ form first = .bytes .str 31 := by
  revert first
  decide

theorem append_wifi_doc_nil (hpk : pk.Documented) (hd : Hotspotparam) :
    (append_wifi_doc pk hd []).isSome = true := by
  have hdecode := hpk.str (token "subdoc_name") (by decide)
  have hlength : (token "subdoc_name").length = 11 := by decide
  cases hpacked : pk.msgpack_pack_str (token "subdoc_name").length ++ token "subdoc_name" with
  | nil =>
    rw [hpacked] at hdecode
    cases hdecode
  | cons first rest =>
    rw [hpacked] at hdecode
    obtain ⟨hstr, hsize⟩ := readForm_str (f := form first) hdecode
    have hnibble : ¬ first % 0x10 = 15 := by
      intro hfull
      rcases full_first first hfull with hnone | h15 | h31
      · rw [hstr] at hnone
        cases hnone
      · have h := hsize 15 h15
        omega
      · have h := hsize 31 h31
        omega
    have hrun : append_wifi_doc pk hd [] = alterWifiMapData
        (((first :: rest) ++ msgpackPackString pk hd.subdoc_name) ++
          (msgpackPackString pk (token "version") ++ pk.msgpack_pack_uint32 hd.version) ++
          (msgpackPackString pk (token "transaction_id") ++
            pk.msgpack_pack_uint16 hd.transaction_id)) := by
      rw [← hpacked]
      rfl
    rw [hrun]
    simp only [List.cons_append, alterWifiMapData, if_neg hnibble, Option.isSome_some]

theorem append_wifi_doc_isSome_iff (hpk : pk.Documented) (hd : Hotspotparam) (v2 : List Byte) :
    (append_wifi_doc pk hd v2).isSome = true ↔ ∀ first ∈ v2.head?, first % 0x10 ≠ 15 := by
  cases v2 with
  | nil => exact iff_of_true (append_wifi_doc_nil hpk hd) fun first h => by cases h
  | cons first body =>
    obtain ⟨pack, -, happend⟩ := @append_wifi_doc_cons pk hd first body
    rw [happend]
    by_cases hfull : first % 0x10 = 15
    · rw [if_pos hfull]
      exact iff_of_false (by simp) fun h => h first rfl hfull
    · rw [if_neg hfull]
      refine iff_of_true rfl fun first' h => ?_
      obtain rfl := Option.some.inj h
      exact hfull

theorem wifi_good_iff (hpk : pk.Documented) {doc map : List (Obj × Obj)}
    {v2 wifi : List Byte} (hname : hd.subdoc_name.length < 2 ^ 32)
    (hunpack : unpack v2 = some (.map map)) (hwifi : append_wifi_doc pk hd v2 = some wifi) :
    (∃ name ver tx, (named "subdoc_name", .str name) ∈ doc ∧ (named "version", .int ver) ∈ doc ∧
      (named "transaction_id", .int tx) ∈ doc ∧
      unpack wifi = some (.map (map ++ [(named "subdoc_name", .str name),
        (named "version", .int ver), (named "transaction_id", .int tx)]))) ↔
    (∀ first ∈ v2.head?, first ≤ 0x8c) ∧ (named "subdoc_name", .str hd.subdoc_name) ∈ doc ∧
      (named "version", .int hd.version.toNat) ∈ doc ∧
      (named "transaction_id", .int hd.transaction_id.toNat) ∈ doc := by
  cases v2 with
  | nil => cases hunpack
  | cons first body =>
    obtain ⟨pack, hpack, happend⟩ := @append_wifi_doc_cons pk hd first body
    rw [happend] at hwifi
    split at hwifi
    · cases hwifi
    rename_i hnibble
    obtain rfl := Option.some.inj hwifi
    have hraised (hroom : first ≤ 0x8c) := unpack_raised hpk hunpack hroom
      (rfl : (⟨some hd.subdoc_name, hd.version, hd.transaction_id⟩ : Appenddoc).subdoc_name =
        some hd.subdoc_name) hname hpack
    constructor
    · rintro ⟨name, ver, tx, hn, hv, ht, hall⟩
      have hroom : first ≤ 0x8c := by
        by_contra hroom
        rcases raised_not_map first (isMap_of_unpack hunpack) hroom with ⟨hfull, -⟩ | ⟨-, hnot⟩
        · exact hnibble hfull
        · rw [isMap_of_unpack hall] at hnot
          cases hnot
      rw [hraised hroom, Option.some.injEq, Obj.map.injEq, List.append_cancel_left_eq] at hall
      simp only [metadata, List.cons.injEq, Prod.mk.injEq, Obj.str.injEq, Obj.int.injEq] at hall
      obtain ⟨⟨-, rfl⟩, ⟨-, rfl⟩, ⟨-, rfl⟩, -⟩ := hall
      refine ⟨fun first' h => ?_, hn, hv, ht⟩
      obtain rfl := Option.some.inj h
      exact hroom
    · rintro ⟨hroom, hn, hv, ht⟩
      exact ⟨_, _, _, hn, hv, ht, hraised (hroom first rfl)⟩

theorem accepted_of_tunnels {x : Option Obj} {maps : List (List (Obj × Obj))}
    (h : Tunnels mem x maps) : ∀ m ∈ maps, Accepted m := by
  cases x with
  | none =>
    rw [Tunnels] at h
    subst h
    exact fun m hm => absurd hm List.not_mem_nil
  | some o =>
    rw [Tunnels] at h
    split at h
    · subst h
      exact fun m hm => absurd hm List.not_mem_nil
    · exact h.2

theorem forall₂_stored_iff {maps : List (List (Obj × Obj))} (h : ∀ m ∈ maps, Accepted m) :
    ∀ objects : List Obj,
    List.Forall₂ (fun o e => ∃ m, o = Obj.map m ∧ Stored (tunnelMap m) e) objects
        (maps.map decoded) ↔
      List.Forall₂ (fun o m => ∃ m', o = Obj.map m' ∧ ReadFrom (tunnelMap m') (tunnelMap m))
        objects maps := by
  induction maps with
  | nil =>
    intro objects
    rw [List.map_nil, List.forall₂_nil_right_iff, List.forall₂_nil_right_iff]
  | cons m maps ih =>
    intro objects
    have hread := ((processTunnelparams_status _).mp (h m (List.mem_cons_self ..))).1
    have hrest := ih fun m hm => h m (List.mem_cons_of_mem _ hm)
    cases objects with
    | nil =>
      constructor
      · intro hnone
        cases hnone
      · intro hnone
        cases hnone
    | cons o objects =>
      rw [List.map_cons, List.forall₂_cons, List.forall₂_cons, hrest objects, decoded]
      simp only [stored_from_iff hread]

theorem wrapper_of_map (wrapper : Name) {v2 : List Byte}
    (hunpack : unpack v2 = some (.map map)) : ∃ y, underWrapper wrapper v2 = some y := by
  obtain ⟨entries, hentries, -⟩ := (unpackedMap_of_unpack hunpack).2 map rfl
  rw [underWrapper, hentries]
  split
  · exact ⟨_, rfl⟩
  · exact ⟨_, rfl⟩

theorem serve_eq (hvalues : hd.entries.map Hparam.value = (v1 :: v2 :: values).map some) :
    serve mem pk hd = (tunneldoc_convert mem v1).bind fun td =>
      (wifi_doc_convert mem v2).bind fun wd => (append_wifi_doc pk hd v2).bind fun wifi =>
        if wd.any fun n => (td.map lastRows).getD 0 ≠ n then some ⟨false, none⟩
        else td.map fun td =>
          ⟨true, some ⟨td, wifi, hd.transaction_id, hd.version, td.length⟩⟩ := by
  obtain ⟨entries, name, ver, tx⟩ := hd
  cases entries with
  | nil => cases hvalues
  | cons e0 entries =>
    cases entries with
    | nil => cases (List.cons.inj hvalues).2
    | cons e1 entries =>
      obtain ⟨h0, htail⟩ := List.cons.inj hvalues
      obtain ⟨h1, -⟩ := List.cons.inj htail
      rw [serve]
      simp only [h0, h1, Option.getD_some, funext tunnelCount_eq]

theorem serve_of_mismatch (hpk : pk.Documented)
    (hvalues : hd.entries.map Hparam.value = (v1 :: v2 :: values).map some)
    (h : Mismatch mem v1 v2) : serve mem pk hd = some ⟨false, none⟩ := by
  obtain ⟨hfirst, y, hy, hcounts⟩ := h
  obtain ⟨wifi, hwifi⟩ :=
    Option.isSome_iff_exists.mp ((append_wifi_doc_isSome_iff hpk hd v2).mpr hfirst)
  have hwd : wifi_doc_convert mem v2 = some (some (vapCount mem y)) :=
    wifi_doc_some_iff.mpr ⟨y, hy, rfl⟩
  have htd : ∃ td, tunneldoc_convert mem v1 = some td ∧
      (td.map lastRows).getD 0 ≠ vapCount mem y := by
    rcases hcounts with ⟨hrefused, hne⟩ | ⟨x, maps, hx, htunnels, hne⟩
    · exact ⟨none, tunneldoc_none_iff.mpr hrefused, fun h => hne h.symm⟩
    · exact ⟨_, tunneldoc_some_iff.mpr ⟨x, maps, hx, htunnels, rfl⟩, fun h => hne h.symm⟩
  obtain ⟨td, htd, hne⟩ := htd
  rw [serve_eq hvalues, htd, hwd, hwifi, Option.bind_some, Option.bind_some, Option.bind_some]
  exact if_pos (decide_eq_true hne)

theorem raisable_of_room {v2 : List Byte}
    (hunpack : unpack v2 = some (.map map)) (hroom : ∀ first ∈ v2.head?, first ≤ 0x8c) :
    ∀ first ∈ v2.head?, first % 0x10 ≠ 15 := by
  intro first h
  have hle := hroom first h
  cases v2 with
  | nil => cases h
  | cons first' body =>
    obtain rfl := Option.some.inj h
    exact (raised_header _ (isMap_of_unpack hunpack) hle).2.2

theorem serve_of_served (hpk : pk.Documented) {doc : List (Obj × Obj)}
    (hname : hd.subdoc_name.length < 2 ^ 32)
    (hvalues : hd.entries.map Hparam.value = (v1 :: v2 :: values).map some)
    (h : Served mem doc v1 v2 hd.subdoc_name hd.version hd.transaction_id) :
    ∃ req, serve mem pk hd = some ⟨true, some req⟩ ∧ Good doc v1 v2 req := by
  obtain ⟨hentries, ⟨x, maps, map, objects, hx, htunnels, hmap, hlist, hread, y, map2, vaps, hy,
    hcount, hmap2, hvaps, hrows⟩, hroom, hn, hv, ht⟩ := h
  obtain ⟨wifi, hwifi⟩ := Option.isSome_iff_exists.mp
    ((append_wifi_doc_isSome_iff hpk hd v2).mpr (raisable_of_room hmap2 hroom))
  have hwd : wifi_doc_convert mem v2 = some (some (vapCount mem y)) :=
    wifi_doc_some_iff.mpr ⟨y, hy, rfl⟩
  have htd : tunneldoc_convert mem v1 = some (some (maps.map decoded)) :=
    tunneldoc_some_iff.mpr ⟨x, maps, hx, htunnels, rfl⟩
  have hequal : ¬ ((some (vapCount mem y)).any fun n =>
      ((some (maps.map decoded)).map lastRows).getD 0 ≠ n) = true := by
    intro h
    exact of_decide_eq_true h hcount.symm
  obtain ⟨name, ver, tx, hfields⟩ := (wifi_good_iff hpk hname hmap2 hwifi).mpr ⟨hroom, hn, hv, ht⟩
  refine ⟨⟨maps.map decoded, wifi, hd.transaction_id, hd.version, (maps.map decoded).length⟩, ?_,
    hentries, ⟨map, objects, hmap, hlist, ?_⟩, ⟨map2, vaps, hmap2, hvaps, hrows⟩,
    ⟨map2, name, ver, tx, hmap2, hfields⟩⟩
  · rw [serve_eq hvalues, htd, hwd, hwifi, Option.bind_some, Option.bind_some, Option.bind_some]
    exact if_neg hequal
  · exact (forall₂_stored_iff (accepted_of_tunnels htunnels) objects).mpr hread

theorem serve_some {r : Outcome} (hpk : pk.Documented)
    (hvalues : hd.entries.map Hparam.value = (v1 :: v2 :: values).map some)
    (h : serve mem pk hd = some r) :
    Mismatch mem v1 v2 ∨
      ∃ x maps wifi, underWrapper tunnelsName v1 = some x ∧ Tunnels mem x maps ∧
        append_wifi_doc pk hd v2 = some wifi ∧
        (∀ y, underWrapper wifiName v2 = some y → vapCount mem y = lastRows (maps.map decoded)) ∧
        r = ⟨true, some ⟨maps.map decoded, wifi, hd.transaction_id, hd.version,
          (maps.map decoded).length⟩⟩ := by
  rw [serve_eq hvalues] at h
  simp only [Option.bind_eq_some_iff] at h
  obtain ⟨td, htd, wd, hwd, wifi, hwifi, h⟩ := h
  have hfirst := (append_wifi_doc_isSome_iff hpk hd v2).mp (by rw [hwifi]; rfl)
  split at h
  · rename_i hdiffer
    left
    cases wd with
    | none => cases hdiffer
    | some n =>
      obtain ⟨y, hy, rfl⟩ := wifi_doc_some_iff.mp hwd
      have hne := of_decide_eq_true hdiffer
      refine ⟨hfirst, y, hy, ?_⟩
      cases td with
      | none => exact Or.inl ⟨tunneldoc_none_iff.mp htd, fun h => hne h.symm⟩
      | some td =>
        obtain ⟨x, maps, hx, htunnels, rfl⟩ := tunneldoc_some_iff.mp htd
        exact Or.inr ⟨x, maps, hx, htunnels, fun h => hne h.symm⟩
  · rename_i hsame
    right
    obtain ⟨td', rfl, rfl⟩ := Option.map_eq_some_iff.mp h
    obtain ⟨x, maps, hx, htunnels, rfl⟩ := tunneldoc_some_iff.mp htd
    refine ⟨x, maps, wifi, hx, htunnels, hwifi, fun y hy => ?_, rfl⟩
    obtain rfl := Option.some.inj (hwd.symm.trans (wifi_doc_some_iff.mpr ⟨y, hy, rfl⟩))
    by_contra hne
    exact hsame (decide_eq_true fun h => hne h.symm)

theorem serve_right_iff (hpk : pk.Documented) {doc : List (Obj × Obj)}
    (hname : hd.subdoc_name.length < 2 ^ 32)
    (hvalues : hd.entries.map Hparam.value = (v1 :: v2 :: values).map some) :
    (∃ r, serve mem pk hd = some r ∧ (r.returned = true ↔ r.pushed.isSome = true) ∧
      ∀ req, r.pushed = some req → Good doc v1 v2 req) ↔
    Mismatch mem v1 v2 ∨
      Served mem doc v1 v2 hd.subdoc_name hd.version hd.transaction_id := by
  constructor
  · rintro ⟨r, hr, -, hgood⟩
    rcases serve_some hpk hvalues hr with hmismatch | ⟨x, maps, wifi, hx, htunnels, hwifi, hcounts,
      rfl⟩
    · exact Or.inl hmismatch
    right
    obtain ⟨hentries, ⟨map, objects, hmap, hlist, hstored⟩, ⟨map2, vaps, hmap2, hvaps, hrows⟩,
      ⟨map3, name, ver, tx, hmap3, hfields⟩⟩ := hgood _ rfl
    obtain ⟨y, hy⟩ := wrapper_of_map wifiName hmap2
    obtain ⟨hroom, hn, hv, ht⟩ := (wifi_good_iff hpk hname hmap3 hwifi).mp
      ⟨name, ver, tx, hfields⟩
    refine ⟨hentries, ⟨x, maps, map, objects, hx, htunnels, hmap, hlist, ?_, y, map2, vaps, hy,
      hcounts y hy, hmap2, hvaps, hrows⟩, hroom, hn, hv, ht⟩
    exact (forall₂_stored_iff (accepted_of_tunnels htunnels) objects).mp hstored
  · rintro (hmismatch | hserved)
    · exact ⟨_, serve_of_mismatch hpk hvalues hmismatch, by simp, fun req h => by cases h⟩
    · obtain ⟨req, hrun, hgood⟩ := serve_of_served hpk hname hvalues hserved
      refine ⟨_, hrun, iff_of_true rfl rfl, fun req' h => ?_⟩
      obtain rfl := Option.some.inj h
      exact hgood

/-- A blob is handled right: nothing outside the document is read, the result tells whether a
request was pushed, and the request is as it should be. -/
def Right (mem : Memory) (pk : Packer) (b64_decode : CStr → List Byte) (pString : CStr) : Prop :=
  ∃ r, unpackAndProcessHotspotData mem pk b64_decode pString = some r ∧
    (r.returned = true ↔ r.pushed.isSome = true) ∧
    ∀ req, r.pushed = some req → ∃ doc hd v1 v2, unpack (b64_decode pString) = some (.map doc) ∧
      hotspotdoc_convert mem (b64_decode pString) = some (some hd) ∧
      (hd.entries.map Hparam.value).take 2 = [some v1, some v2] ∧ Good doc v1 v2 req

/-- The blob is no single object; or it is a document whose entries are taken without leaving
it, with two values whose counts differ or that are served. -/
def Handled (mem : Memory) (b64_decode : CStr → List Byte) (pString : CStr) : Prop :=
  unpack (b64_decode pString) = none ∨
    ∃ doc v1 v2 values name ver tx, unpack (b64_decode pString) = some (.map doc) ∧
      DocumentTaken mem (b64_decode pString) (v1 :: v2 :: values) name ver tx ∧
      (Mismatch mem v1 v2 ∨ Served mem doc v1 v2 name ver tx)

theorem mem_of_finder_comp {name : Name} {τ : MsgpackObjectType} {last : Bool} :
    ∀ {entries : List RootKv},
      finder_comp name τ (entries.map (documentKv [])) = some (some (o, last)) →
        ∃ e ∈ entries, e.val = o := by
  intro entries
  induction entries with
  | nil =>
    intro h
    cases h
  | cons e entries ih =>
    intro h
    rw [List.map_cons, finder_comp] at h
    split at h
    · cases h
    split at h
    · obtain ⟨rfl, -⟩ := Prod.mk.inj (Option.some.inj (Option.some.inj h))
      exact ⟨e, List.mem_cons_self .., rfl⟩
    · obtain ⟨e', he', ho⟩ := ih h
      exact ⟨e', List.mem_cons_of_mem _ he', ho⟩

theorem name_length_lt (hunpack : unpack buf = some o) {name : List Byte}
    {ver : BitVec 32} {tx : BitVec 16}
    (h : DocumentTaken mem buf values name ver tx) : name.length < 2 ^ 32 := by
  obtain ⟨inner, last, obj1, obj2, obj3, objects, ⟨entries, l1, l2, l3, hmap, -, h1, -⟩, hname,
    -⟩ := h
  cases obj1 with
  | str s =>
    obtain ⟨e, he, hval⟩ := mem_of_finder_comp h1
    have hdoc := (unpackedMap_of_unpack hunpack).1 entries hmap
    obtain rfl := Option.some.inj hname
    cases buf with
    | nil => cases hmap
    | cons first body =>
      rw [hdoc] at hunpack
      have hpair : (e.key, Obj.str s) ∈ entries.map RootKv.pair := by
        rw [← hval]
        exact List.mem_map_of_mem he
      have hlt := entry_str_length_lt hunpack hpair
      have hle := (List.takeWhile_sublist (fun b : Byte => decide (b ≠ 0)) (l := s)).length_le
      omega
  | _ => exact mem.text_lt _ _ hname

theorem taken_of_convert {e0 e1 : Hparam}
    {es : List Hparam} (h : hotspotdoc_convert mem buf = some (some hd))
    (hentries : hd.entries = e0 :: e1 :: es) :
    ∃ v1 v2 values, hd.entries.map Hparam.value = (v1 :: v2 :: values).map some ∧
      DocumentTaken mem buf (v1 :: v2 :: values) hd.subdoc_name hd.version hd.transaction_id := by
  have hne : hd.entries ≠ [] := by
    rw [hentries]
    exact List.cons_ne_nil _ _
  obtain ⟨inner, last, obj1, obj2, obj3, -, hprocess⟩ := (hotspotdoc_convert_iff hne).mp h
  obtain ⟨-, -, -, -, objects, -, hes⟩ := (process_hotspotdoc_iff hne).mp hprocess
  obtain ⟨values, hvalues⟩ := exists_values hes
  have htwo : ∃ v1 v2 rest, values = v1 :: v2 :: rest := by
    have hlength := congrArg List.length hvalues
    rw [hentries, List.length_map, List.length_map, List.length_cons, List.length_cons] at hlength
    cases values with
    | nil => simp at hlength
    | cons v1 values =>
      cases values with
      | nil => simp at hlength
      | cons v2 rest => exact ⟨v1, v2, rest, rfl⟩
  obtain ⟨v1, v2, rest, rfl⟩ := htwo
  exact ⟨v1, v2, rest, hvalues, documentTaken_iff.mpr ⟨hd.entries, h, hvalues⟩⟩

/-- A blob is handled right just where nothing is read outside it and its values are refused
by the count check or served. -/
theorem blob_right_iff (mem : Memory) (pk : Packer) (hpk : pk.Documented)
    (b64_decode : CStr → List Byte) (pString : CStr) :
    Right mem pk b64_decode pString ↔ Handled mem b64_decode pString := by
  rw [Right, Handled, unpackAndProcessHotspotData]
  cases hunpack : unpack (b64_decode pString) with
  | none =>
    refine iff_of_true ⟨⟨false, none⟩, rfl, by simp, fun req h => by cases h⟩ (Or.inl rfl)
  | some o =>
    simp only [reduceCtorEq, false_or, Option.some.injEq]
    constructor
    · rintro ⟨r, hr, hreturned, hgood⟩
      split at hr
      · cases hr
      · obtain rfl := Option.some.inj hr
        cases hreturned.mp rfl
      · rename_i hd hconvert
        have htwo : ∃ e0 e1 es, hd.entries = e0 :: e1 :: es := by
          rw [serve] at hr
          split at hr
          · rename_i e0 e1 es hentries
            exact ⟨e0, e1, es, hentries⟩
          · cases hr
        obtain ⟨e0, e1, es, hentries⟩ := htwo
        obtain ⟨v1, v2, values, hvalues, htaken⟩ := taken_of_convert hconvert hentries
        have htaken' := htaken
        obtain ⟨inner, last, obj1, obj2, obj3, objects, ⟨entries, l1, l2, l3, hmap, -⟩, -⟩ :=
          htaken'
        have hdoc := (unpackedMap_of_unpack hunpack).1 entries hmap
        refine ⟨_, v1, v2, values, _, _, _, hdoc, htaken, ?_⟩
        apply (serve_right_iff hpk (name_length_lt hunpack htaken) hvalues).mp
        refine ⟨r, hr, hreturned, fun req hreq => ?_⟩
        obtain ⟨doc, hd', w1, w2, ho, hhd, hpair, hall⟩ := hgood req hreq
        obtain rfl := Option.some.inj (Option.some.inj (hconvert.symm.trans hhd))
        rw [hvalues] at hpair
        obtain ⟨hfirst, htail⟩ := List.cons.inj hpair
        obtain ⟨hsecond, -⟩ := List.cons.inj htail
        obtain rfl := Option.some.inj hfirst
        obtain rfl := Option.some.inj hsecond
        obtain rfl := Obj.map.inj (hdoc.symm.trans ho)
        exact hall
    · rintro ⟨doc, v1, v2, values, name, ver, tx, rfl, htaken, hcase⟩
      obtain ⟨es, hconvert, hvalues⟩ := documentTaken_iff.mp htaken
      have hname : (⟨es, name, ver, tx⟩ : Hotspotparam).subdoc_name.length < 2 ^ 32 :=
        name_length_lt hunpack htaken
      obtain ⟨r, hr, hreturned, hgood⟩ := (serve_right_iff hpk hname hvalues).mpr hcase
      rw [hconvert]
      refine ⟨r, hr, hreturned, fun req hreq => ⟨doc, _, v1, v2, rfl, rfl, ?_, hgood req hreq⟩⟩
      rw [hvalues]
      rfl

end Law

section Example

def Memory.blank : Memory where
  size := fun _ => 0
  objects := fun _ => none
  text := fun _ => none
  u64 := fun _ => 0
  text_lt := fun _ _ h => by cases h

def exampleEntry (name : Byte) : List Byte :=
  [0x82, 0xa4] ++ token "Name" ++ [0xa1, name, 0xa5] ++ token "Value" ++ [0xa1, 0x80]

def exampleBlob : List Byte :=
  [0x84, 0xb1] ++ token "PublicHotspotData" ++ [0x92] ++ exampleEntry 0x74 ++ exampleEntry 0x77 ++
    [0xab] ++ token "subdoc_name" ++ [0xa7] ++ token "hotspot" ++ [0xa7] ++ token "version" ++
    [0x01, 0xae] ++ token "transaction_id" ++ [0x02]

def exampleMap (name : Byte) : List (Obj × Obj) :=
  [(named "Name", .str [name]), (named "Value", .str [0x80])]

def exampleDocument : List (Obj × Obj) :=
  [(named "PublicHotspotData", .array [.map (exampleMap 0x74), .map (exampleMap 0x77)]),
    (named "subdoc_name", .str (token "hotspot")), (named "version", .int 1),
    (named "transaction_id", .int 2)]

theorem unpack_exampleBlob : unpack exampleBlob = some (.map exampleDocument) := rfl

theorem searched_exampleBlob : Searched exampleBlob
    (.array [.map (exampleMap 0x74), .map (exampleMap 0x77)]) false (.str (token "hotspot"))
    (.int 1) (.int 2) :=
  ⟨_, _, _, _, rfl, rfl, rfl, rfl, rfl⟩

def exampleText : CStr :=
  ("hLFQdWJsaWNIb3RzcG90RGF0YZKCpE5hbWWhdKVWYWx1ZaGAgqROYW1loXelVmFsdWWhgK" ++
    "tzdWJkb2NfbmFtZadob3RzcG90p3ZlcnNpb24BrnRyYW5zYWN0aW9uX2lkAg==").toList

theorem blob_right_example :
    Right Memory.blank Packer.shortest (fun _ => exampleBlob) exampleText := by
  apply (blob_right_iff Memory.blank Packer.shortest Packer.shortest_documented _ _).mpr
  have hvalues : EntriesTaken false [.map (exampleMap 0x74), .map (exampleMap 0x77)]
      [[0x80], [0x80]] := by
    have htaken (name : Byte) : ValueTaken (exampleMap name) [0x80] [] := by
      refine ⟨[(named "Name", .str [name])], token "Value", rfl, rfl, fun k w hmem => ?_⟩
      obtain ⟨hk, -⟩ := Prod.mk.inj (List.mem_singleton.mp hmem)
      rw [Obj.str.inj hk]
      rfl
    exact ⟨.cons ⟨_, _, rfl, htaken 0x74⟩ (.cons ⟨_, _, rfl, htaken 0x77⟩ .nil),
      fun h => by cases h⟩
  have htaken : DocumentTaken Memory.blank exampleBlob [[0x80], [0x80]] (token "hotspot") 1 2 :=
    ⟨_, _, _, _, _, _, searched_exampleBlob, rfl, rfl, rfl, by decide, rfl, hvalues⟩
  refine Or.inr ⟨_, _, _, _, _, _, _, unpack_exampleBlob, htaken, Or.inr ?_⟩
  have hlist (name : String) : ListOf name [] [] := Or.inr ⟨rfl, fun v h => by cases h⟩
  have hnamed (name : Byte) : HasText "Name" (exampleMap name) := ⟨[name], List.mem_cons_self ..⟩
  have hvalue (name : Byte) : (named "Value", .str [0x80]) ∈ exampleMap name :=
    List.mem_cons_of_mem _ (List.mem_cons_self ..)
  exact {
    entries := ⟨exampleMap 0x74, exampleMap 0x77, List.mem_cons_self .., hnamed 0x74, hnamed 0x77,
      hvalue 0x74, hvalue 0x77⟩
    tunnels := ⟨none, [], [], [], rfl, rfl, rfl, hlist "Tunnels", .nil, none, [], [], rfl, rfl, rfl,
      hlist "WifiVapConfig", rfl⟩
    room := by decide
    name := by simp [exampleDocument]
    version := by simp [exampleDocument]
    transaction_id := by simp [exampleDocument] }

/-- For an empty array nothing is pushed and TRUE is returned. -/
theorem array_returned :
    ¬ Right Memory.blank Packer.shortest (fun _ => [0x90]) "kA==".toList := by
  rintro ⟨r, hr, hreturned, -⟩
  obtain rfl : (⟨true, none⟩ : Outcome) = r := Option.some.inj hr
  cases hreturned.mp rfl

end Example

end CcspPandM.HotspotBlob
