import CcspPandM.InstanceStore

/-!
Records stored field by field. A writer stores the fields in which a new record
differs from the old copy and brings the copy in step; a reader sets each field
from its record, or leaves a default. The two agree exactly when every changed
field is copied, is stored under the name it is read from, and reads back.
-/
namespace CcspPandM.FieldRecords

open CString KeyStore InstanceStore

variable {σ : Type}

structure StoredField (σ : Type) where
  Value : Type
  [decEq : DecidableEq Value]
  get : σ → Value
  set : Value → σ → σ
  writeName : CStr
  readName : CStr := writeName
  text : Value → CStr
  load : CStr → Value → Value
  absent : Value → Value := id
  copies : Bool := true
  restarts : Bool := true

attribute [instance] StoredField.decEq

/-- The old copy, the store, and whether a restart has been asked for. -/
structure Saving (σ : Type) where
  old : σ
  psm : Tables
  restart : Bool

namespace StoredField

def write (f : StoredField σ) (path : CStr) (new : σ) (s : Saving σ) : Saving σ :=
  if f.get new = f.get s.old then s
  else
    { old := if f.copies then f.set (f.get new) s.old else s.old
      psm := s.psm.put (path ++ f.writeName) (f.text (f.get new))
      restart := s.restart || f.restarts }

/-- What a reader makes of the record of a field that held `v`. -/
def loaded (f : StoredField σ) (path : CStr) (psm : Tables) (v : f.Value) : f.Value :=
  match psm.value (path ++ f.readName) with
  | some t => f.load t v
  | none => f.absent v

def read (f : StoredField σ) (path : CStr) (psm : Tables) (c : σ) : σ :=
  f.set (f.loaded path psm (f.get c)) c

/-- A written value is copied, and read back over a default. -/
structure Keeps (f : StoredField σ) (dflt new : σ) : Prop where
  copied : f.copies = true
  name : f.writeName = f.readName
  value : f.load (f.text (f.get new)) (f.get dflt) = f.get new

structure Apart (f g : StoredField σ) : Prop where
  left : ∀ v c, f.get (g.set v c) = f.get c
  right : ∀ v c, g.get (f.set v c) = g.get c

end StoredField

def writeAll (fields : List (StoredField σ)) (path : CStr) (new : σ) (s : Saving σ) : Saving σ :=
  fields.foldl (fun s f => f.write path new s) s

def readAll (fields : List (StoredField σ)) (path : CStr) (psm : Tables) (c : σ) : σ :=
  fields.foldl (fun c f => f.read path psm c) c

/-- Each field holds what is put into it and no other does, and each is read
from a name of its own. -/
structure Layout (fields : List (StoredField σ)) : Prop where
  lawful : ∀ f ∈ fields, ∀ v c, f.get (f.set v c) = v
  apart : fields.Pairwise StoredField.Apart
  names : (fields.map StoredField.readName).Nodup

variable {f : StoredField σ} {fields : List (StoredField σ)}

theorem Layout.tail (h : Layout (f :: fields)) :
    Layout fields where
  lawful := fun g hg => h.lawful g (List.mem_cons_of_mem f hg)
  apart := (List.pairwise_cons.mp h.apart).2
  names := (List.nodup_cons.mp h.names).2

theorem get_write_of_apart {f g : StoredField σ} (h : f.Apart g) (path : CStr) (new : σ)
    (s : Saving σ) : g.get (f.write path new s).old = g.get s.old := by
  unfold StoredField.write
  split
  · rfl
  · cases f.copies with
    | true => exact h.right _ _
    | false => rfl

theorem writeAll_keeps {β : Type} (view : σ → β)
    (h : ∀ f ∈ fields, ∀ v c, view (f.set v c) = view c) (path : CStr) (new : σ)
    (s : Saving σ) : view (writeAll fields path new s).old = view s.old := by
  induction fields generalizing s with
  | nil => rfl
  | cons f fields ih =>
    have hwrite : view (f.write path new s).old = view s.old := by
      unfold StoredField.write
      split
      · rfl
      · cases f.copies with
        | true => exact h f List.mem_cons_self _ _
        | false => rfl
    exact (ih (fun g hg => h g (List.mem_cons_of_mem f hg)) _).trans hwrite

def writes (fields : List (StoredField σ)) (path : CStr) (new old : σ) : List (CStr × CStr) :=
  (fields.filter (fun f => f.get new ≠ f.get old)).map
    (fun f => (path ++ f.writeName, f.text (f.get new)))

variable {path : CStr}

theorem mem_writes {new old : σ} {w : CStr × CStr} :
    w ∈ writes fields path new old ↔
      ∃ f ∈ fields, f.get new ≠ f.get old ∧ w = (path ++ f.writeName, f.text (f.get new)) := by
  simp only [writes, List.mem_map, List.mem_filter, decide_eq_true_eq, and_assoc,
    @eq_comm (CStr × CStr) w]

theorem writes_congr {new old old' : σ}
    (h : ∀ f ∈ fields, f.get old = f.get old') :
    writes fields path new old = writes fields path new old' := by
  unfold writes
  congr 1
  apply List.filter_congr
  intro f hf
  rw [h f hf]

theorem readAll_keeps {β : Type} (view : σ → β)
    (h : ∀ f ∈ fields, ∀ v c, view (f.set v c) = view c) (path : CStr) (psm : Tables) (c : σ) :
    view (readAll fields path psm c) = view c := by
  induction fields generalizing c with
  | nil => rfl
  | cons f fields ih =>
    exact (ih (fun g hg => h g (List.mem_cons_of_mem f hg)) _).trans (h f List.mem_cons_self _ c)

theorem StoredField.loaded_congr {psm psm' : Tables}
    (h : psm'.value (path ++ f.readName) = psm.value (path ++ f.readName)) (v : f.Value) :
    f.loaded path psm' v = f.loaded path psm v := by
  unfold StoredField.loaded
  rw [h]

theorem StoredField.loaded_of_none {psm : Tables}
    (h : psm.value (path ++ f.readName) = none) (v : f.Value) :
    f.loaded path psm v = f.absent v := by
  unfold StoredField.loaded
  rw [h]

/-- One field before and after a write: the copy and the store hold a value. -/
structure Holds (f : StoredField σ) (path : CStr) (dflt : σ) (v : f.Value) (s : Saving σ) :
    Prop where
  copy : f.get s.old = v
  store : f.loaded path s.psm (f.get dflt) = v

variable {fields : List (StoredField σ)} (h : Layout fields)

include h

theorem Layout.eq_of_readName {f g : StoredField σ} (hf : f ∈ fields) (hg : g ∈ fields)
    (hname : f.readName = g.readName) : f = g :=
  List.inj_on_of_nodup_map h.names hf hg hname

theorem get_writeAll (path : CStr) (new : σ)
    (s : Saving σ) (hf : f ∈ fields) :
    f.get (writeAll fields path new s).old = if f.copies then f.get new else f.get s.old := by
  induction fields generalizing s with
  | nil => cases hf
  | cons g fields ih =>
    have hapart := (List.pairwise_cons.mp h.apart).1
    change f.get (writeAll fields path new (g.write path new s)).old = _
    rcases List.mem_cons.mp hf with rfl | hf
    · have hrest : f.get (writeAll fields path new (f.write path new s)).old =
          f.get (f.write path new s).old :=
        writeAll_keeps f.get (fun k hk => (hapart k hk).left) path new _
      rw [hrest]
      unfold StoredField.write
      split
      · next heq =>
        rw [heq, ite_self]
      · cases f.copies with
        | true => exact h.lawful f List.mem_cons_self _ _
        | false => rfl
    · rw [ih h.tail _ hf, get_write_of_apart (hapart f hf)]

theorem psm_writeAll (path : CStr) (new : σ)
    (s : Saving σ) :
    (writeAll fields path new s).psm = Tables.putAll (writes fields path new s.old) s.psm := by
  induction fields generalizing s with
  | nil => rfl
  | cons f fields ih =>
    have hapart := (List.pairwise_cons.mp h.apart).1
    have hrest : writes fields path new (f.write path new s).old = writes fields path new s.old :=
      writes_congr fun g hg => get_write_of_apart (hapart g hg) path new s
    change (writeAll fields path new (f.write path new s)).psm = _
    rw [ih h.tail, hrest]
    unfold StoredField.write
    by_cases heq : f.get new = f.get s.old
    · have hwrites : writes (f :: fields) path new s.old = writes fields path new s.old := by
        unfold writes
        rw [List.filter_cons_of_neg (by simpa using heq)]
      rw [if_pos heq, hwrites]
    · have hwrites : writes (f :: fields) path new s.old =
          (path ++ f.writeName, f.text (f.get new)) :: writes fields path new s.old := by
        unfold writes
        rw [List.filter_cons_of_pos (by simpa using heq), List.map_cons]
      rw [if_neg heq, hwrites]
      rfl

theorem get_readAll (path : CStr) (psm : Tables)
    (c : σ) (hf : f ∈ fields) :
    f.get (readAll fields path psm c) = f.loaded path psm (f.get c) := by
  induction fields generalizing c with
  | nil => cases hf
  | cons g fields ih =>
    have hapart := (List.pairwise_cons.mp h.apart).1
    change f.get (readAll fields path psm (g.read path psm c)) = _
    rcases List.mem_cons.mp hf with rfl | hf
    · have hrest : f.get (readAll fields path psm (f.read path psm c)) =
          f.get (f.read path psm c) :=
        readAll_keeps f.get (fun k hk => (hapart k hk).left) path psm _
      rw [hrest]
      exact h.lawful f List.mem_cons_self _ _
    · rw [ih h.tail _ hf]
      have hkept : f.get (g.read path psm c) = f.get c := (hapart f hf).right _ _
      rw [hkept]

theorem value_writeAll (path : CStr) (new : σ)
    (s : Saving σ) (name : CStr) :
    (writeAll fields path new s).psm.value name =
      (lastValue name (writes fields path new s.old)).or (s.psm.value name) := by
  rw [psm_writeAll h, Tables.value_putAll]

theorem value_writeAll_of_ne (path : CStr)
    (new : σ) (s : Saving σ) {name : CStr} (hname : ∀ f ∈ fields, name ≠ path ++ f.writeName) :
    (writeAll fields path new s).psm.value name = s.psm.value name := by
  have hnone : lastValue name (writes fields path new s.old) = none := by
    apply (lastValue_eq_none_iff _ _).mpr
    intro hmem
    obtain ⟨w, hw, rfl⟩ := List.mem_map.mp hmem
    obtain ⟨f, hf, -, rfl⟩ := mem_writes.mp hw
    exact hname f hf rfl
  rw [value_writeAll h, hnone, Option.none_or]

theorem listed_writeAll_of_none (path : CStr)
    (new : σ) (s : Saving σ) {table : CStr}
    (htable : ∀ f ∈ fields, ∀ n, ¬instancePath table n <+: path ++ f.writeName) :
    (writeAll fields path new s).psm.listed table = s.psm.listed table := by
  rw [psm_writeAll h]
  apply Tables.listed_putAll_of_none
  intro w hw n
  obtain ⟨f, hf, -, rfl⟩ := mem_writes.mp hw
  exact htable f hf n

/-- Fields stored inside an instance create it when one of them differs. -/
theorem listed_writeAll_of_under (path : CStr)
    (new : σ) (s : Saving σ) {table : CStr} {n : ℕ} (hpath : instancePath table n <+: path) :
    (writeAll fields path new s).psm.listed table =
      if ∃ f ∈ fields, f.get new ≠ f.get s.old then addNew n (s.psm.listed table)
      else s.psm.listed table := by
  have hunder : ∀ w ∈ writes fields path new s.old, instancePath table n <+: w.1 := by
    intro w hw
    obtain ⟨f, hf, -, rfl⟩ := mem_writes.mp hw
    exact hpath.trans (List.prefix_append _ _)
  rw [psm_writeAll h, Tables.listed_putAll_of_under hunder]
  by_cases hnil : writes fields path new s.old = []
  · have hsame : ¬∃ f ∈ fields, f.get new ≠ f.get s.old := by
      rintro ⟨f, hf, hne⟩
      have hmem : (path ++ f.writeName, f.text (f.get new)) ∈ writes fields path new s.old :=
        mem_writes.mpr ⟨f, hf, hne, rfl⟩
      rw [hnil] at hmem
      exact absurd hmem List.not_mem_nil
    rw [if_pos hnil, if_neg hsame]
  · obtain ⟨w, hw⟩ := List.exists_mem_of_ne_nil _ hnil
    obtain ⟨f, hf, hne, -⟩ := mem_writes.mp hw
    rw [if_neg hnil, if_pos ⟨f, hf, hne⟩]

theorem lastValue_writes (path : CStr)
    {new old : σ} (hf : f ∈ fields)
    (honly : ∀ g ∈ fields, g.get new ≠ g.get old → g.writeName = f.readName →
      g.readName = f.readName) :
    lastValue (path ++ f.readName) (writes fields path new old) =
      if f.get new ≠ f.get old ∧ f.writeName = f.readName then some (f.text (f.get new))
      else none := by
  have hsame : ∀ g ∈ fields, g.get new ≠ g.get old → path ++ g.writeName = path ++ f.readName →
      g = f := fun g hg hne hname =>
    h.eq_of_readName hg hf (honly g hg hne (List.append_cancel_left hname))
  split
  · next hwritten =>
    have hmem : path ++ f.readName ∈ keys (writes fields path new old) := by
      apply List.mem_map.mpr
      exact ⟨_, mem_writes.mpr ⟨f, hf, hwritten.1, rfl⟩, by rw [hwritten.2]⟩
    cases hlast : lastValue (path ++ f.readName) (writes fields path new old) with
    | none => exact absurd hmem ((lastValue_eq_none_iff _ _).mp hlast)
    | some v =>
      obtain ⟨g, hg, hne, heq⟩ := mem_writes.mp (mem_of_lastValue hlast)
      have hgf := hsame g hg hne (congrArg Prod.fst heq).symm
      subst hgf
      exact congrArg some (congrArg Prod.snd heq)
  · next hnot =>
    apply (lastValue_eq_none_iff _ _).mpr
    intro hmem
    obtain ⟨w, hw, hname⟩ := List.mem_map.mp hmem
    obtain ⟨g, hg, hne, rfl⟩ := mem_writes.mp hw
    have hgf := hsame g hg hne hname
    subst hgf
    exact hnot ⟨hne, List.append_cancel_left hname⟩

theorem holds_writeAll {dflt new : σ} {s : Saving σ}
    (hbefore : ∀ f ∈ fields, f.loaded path s.psm (f.get dflt) = f.get s.old)
    (hkeeps : ∀ f ∈ fields, f.get new = f.get s.old ∨ f.Keeps dflt new) (hf : f ∈ fields) :
    Holds f path dflt (f.get new) (writeAll fields path new s) := by
  have honly : ∀ g ∈ fields, g.get new ≠ g.get s.old → g.writeName = f.readName →
      g.readName = f.readName := fun g hg hne hname =>
    ((hkeeps g hg).resolve_left hne).name.symm.trans hname
  have hlast := lastValue_writes h path hf honly
  constructor
  · rw [get_writeAll h path new s hf]
    rcases hkeeps f hf with heq | hkeep
    · rw [heq, ite_self]
    · rw [hkeep.copied]
      rfl
  · unfold StoredField.loaded
    rw [value_writeAll h, hlast]
    by_cases heq : f.get new = f.get s.old
    · rw [if_neg (fun hw => hw.1 heq), Option.none_or, heq]
      exact hbefore f hf
    · have hkeep := (hkeeps f hf).resolve_left heq
      rw [if_pos ⟨heq, hkeep.name⟩, Option.some_or]
      exact hkeep.value

theorem keeps_of_holds {dflt new : σ} {s : Saving σ} (hf : f ∈ fields)
    (hbefore : f.loaded path s.psm (f.get dflt) = f.get s.old)
    (honly : ∀ g ∈ fields, g.writeName = f.readName → g.readName = f.readName)
    (hafter : Holds f path dflt (f.get new) (writeAll fields path new s)) :
    f.get new = f.get s.old ∨ f.Keeps dflt new := by
  rw [or_iff_not_imp_left]
  intro hne
  have hcopy := hafter.copy
  have hstore := hafter.store
  have hothers : ∀ g ∈ fields, g.get new ≠ g.get s.old → g.writeName = f.readName →
      g.readName = f.readName := fun g hg _ hname => honly g hg hname
  have hlast := lastValue_writes h path hf hothers
  rw [get_writeAll h path new s hf] at hcopy
  unfold StoredField.loaded at hstore hbefore
  rw [value_writeAll h, hlast] at hstore
  refine ⟨?_, ?_, ?_⟩
  · by_contra hcopies
    rw [if_neg hcopies] at hcopy
    exact hne hcopy.symm
  · by_contra hname
    rw [if_neg (fun hw => hname hw.2), Option.none_or] at hstore
    exact hne (hstore.symm.trans hbefore)
  · by_cases hname : f.writeName = f.readName
    · rw [if_pos ⟨hne, hname⟩, Option.some_or] at hstore
      exact hstore
    · rw [if_neg (fun hw => hname hw.2), Option.none_or] at hstore
      exact absurd (hstore.symm.trans hbefore) hne

end CcspPandM.FieldRecords
