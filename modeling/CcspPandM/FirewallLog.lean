import CcspPandM.TextSearch
import Mathlib.Data.List.Count

/-!
The firewall log. The lines of the sorted file become entries where the four
attributes are found one behind the other, and the entries are printed to a buffer
whose size is compared with an estimate. Sizes are those of a machine of 32 bits.
-/
namespace CcspPandM.FirewallLog

open CString TextSearch

section Code

abbrev ULONG := BitVec 32

/-- The fields of an entry that the log fills in. -/
structure COSA_DML_IA_LOG_ENTRY where
  OccuranceTime : Buf 32
  Action : Buf 256
  Count : ULONG
  Description : Buf 64

def sizeofEntry : ℕ := 428

def countFormat : CStr := "Count=\"".toList

def timeFormat : CStr := "Time=\"".toList

def actionFormat : CStr := "Action=\"".toList

def despFormat : CStr := "Desp=\"".toList

/-- The value up to the next quote, which is not empty and shorter than `count`. -/
def _memcpy_2_chr (s : CStr) (count : ℕ) : Option CStr :=
  let d := s.takeWhile (· ≠ '"')
  if '"' ∈ s ∧ d ≠ [] ∧ d.length < count then some d else none

/-- The value of an attribute, and the line from the quote behind it on. -/
def _get_value (line format : CStr) (val_size : ℕ) : Option (CStr × CStr) := do
  let found ← strstr format line
  let s := found.drop format.length
  let val ← _memcpy_2_chr s val_size
  some (val, s.drop val.length)

def values (line : CStr) : Option (CStr × CStr × CStr × CStr) := do
  let (tmp, pos) ← _get_value line countFormat 20
  let (OccuranceTime, pos) ← _get_value pos timeFormat 32
  let (Action, pos) ← _get_value pos actionFormat 256
  let (Description, _) ← _get_value pos despFormat 64
  some (tmp, OccuranceTime, Action, Description)

def beforeNul (line : CStr) : CStr := line.takeWhile (· ≠ '\x00')

def entryOf (v : CStr × CStr × CStr × CStr) : COSA_DML_IA_LOG_ENTRY where
  OccuranceTime := Buf.snprintf v.2.1
  Action := Buf.snprintf v.2.2.1
  Count := BitVec.ofInt 32 (atoi v.1)
  Description := Buf.snprintf v.2.2.2

def anlz_line (line : CStr) : Option COSA_DML_IA_LOG_ENTRY :=
  (values (beforeNul line)).map entryOf

/-- The lines that `getline` returns, each with its newline. -/
def linesFrom (cur : CStr) : CStr → List CStr
  | [] => if cur = [] then [] else [cur]
  | c :: rest =>
    if c = '\n' then (cur ++ [c]) :: linesFrom [] rest else linesFrom (cur ++ [c]) rest

def getlines (file : CStr) : List CStr := linesFrom [] file

def allocated (line_num : ℕ) : ℕ := sizeofEntry * (line_num + 4) % 2 ^ 32 / sizeofEntry

/-- Each line is written to the next entry; one that is refused leaves it to the next
line. There is no result where that entry is not allocated. -/
def fillEntries (room : ℕ) (entry : List COSA_DML_IA_LOG_ENTRY) :
    List CStr → Option (List COSA_DML_IA_LOG_ENTRY)
  | [] => some entry
  | line :: lines =>
    if room ≤ entry.length then none
    else
      match anlz_line line with
      | some e => fillEntries room (entry ++ [e]) lines
      | none => fillEntries room entry lines

def get_log_entry (file : CStr) : Option (List COSA_DML_IA_LOG_ENTRY) :=
  let line_num := file.count '\n'
  if 2 ^ 31 ≤ line_num then none
  else if 0 < line_num then fillEntries (allocated line_num) [] (getlines file)
  else some []

def entryText (e : COSA_DML_IA_LOG_ENTRY) : CStr :=
  '\n' :: (decimal e.Count.toNat ++ '\n' :: '\n' :: '\n' :: '\n' :: (e.Action.text ++
    '\n' :: (e.OccuranceTime.text ++ '\n' :: e.Description.text)))

def printEntries (pUlSize tmpsize : ℕ) (pValue : CStr) :
    List COSA_DML_IA_LOG_ENTRY → CStr × ℕ
  | [] => (pValue, tmpsize)
  | e :: log =>
    if tmpsize + 1 < pUlSize then
      printEntries pUlSize (tmpsize + (entryText e).length)
        (pValue ++ (entryText e).take (pUlSize - 1 - tmpsize - 1)) log
    else (pValue, tmpsize)

inductive Outcome where
  | asks (pUlSize : ℕ)
  | writes (pValue : CStr)
  | outside

def needed (FWLogNum : ℕ) : ℕ := FWLogNum * (20 + sizeofEntry) % 2 ^ 32

def asked (FWLogNum : ℕ) : ℕ := (FWLogNum + 20) * (20 + sizeofEntry) % 2 ^ 32

def CosaDmlIaGetALLLogEntries (log : List COSA_DML_IA_LOG_ENTRY) (pUlSize : ℕ) : Outcome :=
  if log.length = 0 then
    if 0 < pUlSize then .writes [] else .outside
  else if pUlSize < needed log.length then .asks (asked log.length)
  else
    let printed := printEntries pUlSize 0 [] log
    if printed.2 < pUlSize then .writes printed.1 else .outside

end Code

section Purpose

structure Values where
  Count : ℤ
  OccuranceTime : CStr
  Action : CStr
  Description : CStr

def number (t : CStr) : ℤ :=
  match t.dropWhile isspace with
  | '-' :: rest => -(leadingNumber rest : ℤ)
  | '+' :: rest => leadingNumber rest
  | rest => leadingNumber rest

/-- The attribute comes first at `name`, and its value is closed, not empty and shorter than
its field. -/
def HasValue (line name : CStr) (size : ℕ) (v rest : CStr) : Prop :=
  FirstPlace name line (name ++ (v ++ rest)) ∧ rest.head? = some '"' ∧ v ≠ [] ∧ '"' ∉ v ∧
    v.length < size

def Attributes (line : CStr) (v : Values) : Prop :=
  ∃ count rest₁ rest₂ rest₃ rest₄, HasValue line countFormat 20 count rest₁ ∧
    v.Count = number count ∧ HasValue rest₁ timeFormat 32 v.OccuranceTime rest₂ ∧
    HasValue rest₂ actionFormat 256 v.Action rest₃ ∧
    HasValue rest₃ despFormat 64 v.Description rest₄

inductive Lists : List CStr → List Values → Prop where
  | nil : Lists [] []
  | entry {line : CStr} {v : Values} {lines : List CStr} {vs : List Values}
      (hline : Attributes line v) (hrest : Lists lines vs) : Lists (line :: lines) (v :: vs)
  | other {line : CStr} {lines : List CStr} {vs : List Values}
      (hline : ∀ v, ¬ Attributes line v) (hrest : Lists lines vs) : Lists (line :: lines) vs

def valuesOf (e : COSA_DML_IA_LOG_ENTRY) : Values :=
  ⟨e.Count.toNat, e.OccuranceTime.text, e.Action.text, e.Description.text⟩

def ListsFile (file : CStr) : Prop :=
  ∃ log, get_log_entry file = some log ∧ Lists (getlines file) (log.map valuesOf)

/-- A size that is asked for is larger, and accepted; a text that is written is whole, and
in the buffer. -/
def Prints (log : List COSA_DML_IA_LOG_ENTRY) (pUlSize : ℕ) : Prop :=
  match CosaDmlIaGetALLLogEntries log pUlSize with
  | .asks size => pUlSize < size ∧ ∀ again, CosaDmlIaGetALLLogEntries log size ≠ .asks again
  | .writes pValue => pValue = log.flatMap entryText ∧ pValue.length < pUlSize
  | .outside => False

/-- What a file needs: without a newline no line with the attributes, else memory for the
entries, and values that stand before any NUL, with a number that its field holds. -/
def FileFits (file : CStr) : Prop :=
  file.count '\n' = 0 ∧ (∀ line ∈ getlines file, ∀ v, ¬ Attributes line v) ∨
    0 < file.count '\n' ∧ file.count '\n' < 2 ^ 31 ∧
      ((getlines file).dropLast.filterMap anlz_line).length < allocated (file.count '\n') ∧
      ∀ line ∈ getlines file, ∀ v, Attributes line v →
        Attributes (beforeNul line) v ∧ 0 ≤ v.Count ∧ v.Count < 2 ^ 32

def BufferFits (log : List COSA_DML_IA_LOG_ENTRY) (pUlSize : ℕ) : Prop :=
  if log = [] then 0 < pUlSize
  else if pUlSize < needed log.length then
    pUlSize < asked log.length ∧ needed log.length ≤ asked log.length
  else (log.flatMap entryText).length + 2 ≤ pUlSize

end Purpose

section Scanning

theorem takeWhile_quoted {v : CStr} (hv : '"' ∉ v) (rest : CStr) :
    (v ++ '"' :: rest).takeWhile (· ≠ '"') = v := by
  have hall : ∀ c ∈ v, decide (c ≠ '"') = true := by
    intro c hc
    rw [decide_eq_true_eq]
    rintro rfl
    exact hv hc
  rw [List.takeWhile_append_of_pos hall]
  simp

variable {size : ℕ}

theorem memcpy_iff {s v : CStr} :
    _memcpy_2_chr s size = some v ↔
      ∃ rest, s = v ++ rest ∧ rest.head? = some '"' ∧ v ≠ [] ∧ '"' ∉ v ∧ v.length < size := by
  rw [_memcpy_2_chr]
  constructor
  · intro h
    split at h
    · rename_i hcopy
      obtain ⟨hquote, hne, hlen⟩ := hcopy
      obtain ⟨front, rest, rfl, hfront⟩ := List.eq_append_cons_of_mem hquote
      rw [takeWhile_quoted hfront] at h hne hlen
      obtain rfl := Option.some.inj h
      exact ⟨'"' :: rest, rfl, rfl, hne, hfront, hlen⟩
    · cases h
  · intro h
    obtain ⟨rest, rfl, hhead, hne, hv, hlen⟩ := h
    cases rest with
    | nil => cases hhead
    | cons c rest =>
      obtain rfl : c = '"' := Option.some.inj hhead
      rw [takeWhile_quoted hv, if_pos ⟨List.mem_append_right v (List.mem_cons_self ..), hne, hlen⟩]

theorem getValue_iff {line format v rest : CStr} :
    _get_value line format size = some (v, rest) ↔ HasValue line format size v rest := by
  rw [_get_value, HasValue]
  constructor
  · intro h
    obtain ⟨found, hfound, h⟩ := Option.bind_eq_some_iff.mp h
    obtain ⟨val, hval, h⟩ := Option.bind_eq_some_iff.mp h
    obtain ⟨rfl, rfl⟩ := Prod.mk.inj (Option.some.inj h)
    obtain ⟨after, hafter, hhead, hne, hv, hlen⟩ := memcpy_iff.mp hval
    have hplace := strstr_eq_some_iff.mp hfound
    obtain ⟨front, -, hprefix, -⟩ := id hplace
    have hfull : found = format ++ (val ++ after) := by
      rw [← hafter]
      exact (List.prefix_iff_eq_append.mp hprefix).symm
    rw [hafter, List.drop_left, ← hfull]
    exact ⟨hplace, hhead, hne, hv, hlen⟩
  · intro h
    obtain ⟨hplace, hhead, hne, hv, hlen⟩ := h
    have hval := memcpy_iff.mpr ⟨rest, rfl, hhead, hne, hv, hlen⟩
    rw [strstr_eq_some_iff.mpr hplace]
    simp only [Option.bind_eq_bind, Option.bind_some, List.drop_left, hval]

theorem strstr_append {pat t found : CStr} (h : strstr pat t = some found) (more : CStr) :
    strstr pat (t ++ more) = some (found ++ more) := by
  induction t with
  | nil =>
    rw [strstr] at h
    split at h
    · rename_i hpat
      obtain rfl := Option.some.inj h
      exact strstr_of_prefix (hpat ▸ List.nil_prefix)
    · cases h
  | cons c t ih =>
    by_cases hhere : pat <+: c :: t
    · rw [ strstr_of_prefix hhere] at h
      obtain rfl := Option.some.inj h
      exact strstr_of_prefix (hhere.trans (List.prefix_append _ _))
    · rw [strstr, if_neg hhere] at h
      have hlong : ¬ pat <+: c :: (t ++ more) := by
        intro hpat
        apply hhere
        obtain ⟨front, rfl, hfound, -⟩ := strstr_eq_some_iff.mp h
        have hlen := hfound.length_le
        refine List.prefix_of_prefix_length_le hpat (List.prefix_append (c :: _) more) ?_
        rw [List.length_cons, List.length_append]
        omega
      rw [List.cons_append, strstr, if_neg hlong, ih h]

theorem getValue_append {line format v rest : CStr}
    (h : _get_value line format size = some (v, rest)) (more : CStr) :
    _get_value (line ++ more) format size = some (v, rest ++ more) := by
  obtain ⟨hplace, hhead, hne, hv, hlen⟩ := getValue_iff.mp h
  have hfound := strstr_append (strstr_eq_some_iff.mpr hplace) more
  have hhead' : (rest ++ more).head? = some '"' := by
    cases rest with
    | nil => cases hhead
    | cons c rest => exact hhead
  rw [List.append_assoc, List.append_assoc] at hfound
  exact getValue_iff.mpr ⟨strstr_eq_some_iff.mp hfound, hhead', hne, hv, hlen⟩

theorem values_append {line : CStr} {v : CStr × CStr × CStr × CStr} (h : values line = some v)
    (more : CStr) : values (line ++ more) = some v := by
  obtain ⟨⟨count, rest₁⟩, hcount, h⟩ := Option.bind_eq_some_iff.mp h
  obtain ⟨⟨time, rest₂⟩, htime, h⟩ := Option.bind_eq_some_iff.mp h
  obtain ⟨⟨action, rest₃⟩, haction, h⟩ := Option.bind_eq_some_iff.mp h
  obtain ⟨⟨desp, rest₄⟩, hdesp, h⟩ := Option.bind_eq_some_iff.mp h
  rw [values, getValue_append hcount more]
  simp only [Option.bind_eq_bind, Option.bind_some, getValue_append htime more,
    getValue_append haction more, getValue_append hdesp more]
  exact h

def toValues (v : CStr × CStr × CStr × CStr) : Values := ⟨number v.1, v.2.1, v.2.2.1, v.2.2.2⟩

def attributesOf (line : CStr) : Option Values := (values line).map toValues

theorem attributes_iff (line : CStr) (v : Values) :
    Attributes line v ↔ attributesOf line = some v := by
  rw [attributesOf, Option.map_eq_some_iff]
  constructor
  · intro h
    obtain ⟨count, rest₁, rest₂, rest₃, rest₄, hcount, hnumber, htime, haction, hdesp⟩ := h
    refine ⟨(count, v.OccuranceTime, v.Action, v.Description), ?_, ?_⟩
    · rw [values, getValue_iff.mpr hcount]
      simp only [Option.bind_eq_bind, Option.bind_some, getValue_iff.mpr htime,
        getValue_iff.mpr haction, getValue_iff.mpr hdesp]
    · rw [toValues, ← hnumber]
  · intro h
    obtain ⟨w, h, rfl⟩ := h
    obtain ⟨⟨count, rest₁⟩, hcount, h⟩ := Option.bind_eq_some_iff.mp h
    obtain ⟨⟨time, rest₂⟩, htime, h⟩ := Option.bind_eq_some_iff.mp h
    obtain ⟨⟨action, rest₃⟩, haction, h⟩ := Option.bind_eq_some_iff.mp h
    obtain ⟨⟨desp, rest₄⟩, hdesp, h⟩ := Option.bind_eq_some_iff.mp h
    obtain rfl := Option.some.inj h
    exact ⟨count, rest₁, rest₂, rest₃, rest₄, getValue_iff.mp hcount, rfl, getValue_iff.mp htime,
      getValue_iff.mp haction, getValue_iff.mp hdesp⟩

end Scanning

variable (lines : List CStr)

section Lines

variable {α β : Type*}

theorem filterMap_eq_iff {f g : α → Option β} {l : List α}
    (hsub : ∀ a ∈ l, (f a).isSome → (g a).isSome) :
    l.filterMap f = l.filterMap g ↔ ∀ a ∈ l, f a = g a := by
  have hlen : ∀ l : List α, (∀ a ∈ l, (f a).isSome → (g a).isSome) →
      (l.filterMap f).length ≤ (l.filterMap g).length := by
    intro l hl
    induction l with
    | nil => exact le_refl _
    | cons a l ih =>
      have hrest := ih (fun a h => hl a (List.mem_cons_of_mem _ h))
      have ha := hl a (List.mem_cons_self ..)
      rw [List.filterMap_cons, List.filterMap_cons]
      cases hf : f a with
      | none =>
        cases g a with
        | none => exact hrest
        | some b => exact Nat.le_succ_of_le hrest
      | some b =>
        cases hg : g a with
        | none =>
          rw [hf, hg] at ha
          exact absurd (ha rfl) (by simp)
        | some b' => exact Nat.succ_le_succ hrest
  induction l with
  | nil => simp
  | cons a l ih =>
    have hrest : ∀ a ∈ l, (f a).isSome → (g a).isSome :=
      fun a h => hsub a (List.mem_cons_of_mem _ h)
    have ha := hsub a (List.mem_cons_self ..)
    have hle := hlen l hrest
    have hih := ih hrest
    rw [List.forall_mem_cons]
    refine Iff.trans ?_ (and_congr_right' hih)
    rw [List.filterMap_cons, List.filterMap_cons]
    cases hf : f a with
    | none =>
      cases hg : g a with
      | none => simp
      | some b =>
        refine iff_of_false (fun h => ?_) (fun h => absurd h.1 (by simp))
        have hlen := congrArg List.length h
        simp only [List.length_cons] at hlen
        omega
    | some b =>
      cases hg : g a with
      | none =>
        rw [hf, hg] at ha
        exact absurd (ha rfl) (by simp)
      | some b' => simp

theorem lists_iff (vs : List Values) :
    Lists lines vs ↔ vs = lines.filterMap attributesOf := by
  constructor
  · intro h
    induction h with
    | nil => rfl
    | entry hline _ ih =>
      rw [List.filterMap_cons_some ((attributes_iff _ _).mp hline), ← ih]
    | other hline _ ih =>
      have hnone : attributesOf _ = none :=
        Option.eq_none_iff_forall_ne_some.mpr (fun v h => hline v ((attributes_iff _ v).mpr h))
      rw [List.filterMap_cons_none hnone, ← ih]
  · rintro rfl
    induction lines with
    | nil => exact .nil
    | cons l lines ih =>
      cases hl : attributesOf l with
      | none =>
        rw [List.filterMap_cons_none hl]
        exact .other (fun v h => by
          rw [(attributes_iff l v).mp h] at hl
          cases hl) ih
      | some v =>
        rw [List.filterMap_cons_some hl]
        exact .entry ((attributes_iff l v).mpr hl) ih

theorem count_eq_iff (t : CStr) :
    ((BitVec.ofInt 32 (atoi t)).toNat : ℤ) = number t ↔ 0 ≤ number t ∧ number t < 2 ^ 32 := by
  have hword : BitVec.ofInt 32 (atoi t) = BitVec.ofInt 32 (strtol t) := by
    rw [atoi, BitVec.ofInt_toInt]
  rw [hword]
  constructor
  · intro h
    have hlt := (BitVec.ofInt 32 (strtol t)).isLt
    omega
  · intro h
    have hstrtol : strtol t = number t := by
      unfold strtol
      unfold number at h ⊢
      split
      · simp only [*] at h ⊢
        omega
      · simp only [*] at h ⊢
        omega
      · simp only [*] at h ⊢
        omega
    rw [hstrtol, BitVec.toNat_ofInt]
    omega

end Lines

section Filling

theorem line_split (line : CStr) : ∃ more, line = beforeNul line ++ more :=
  ⟨line.dropWhile (· ≠ '\x00'), (List.takeWhile_append_dropWhile ..).symm⟩

theorem line_iff (line : CStr) :
    (anlz_line line).map valuesOf = attributesOf line ↔
      ∀ v, Attributes line v → Attributes (beforeNul line) v ∧ 0 ≤ v.Count ∧ v.Count < 2 ^ 32 := by
  obtain ⟨more, hline⟩ := line_split line
  cases hvalues : values (beforeNul line) with
  | none =>
    have hnone (v : Values) : ¬ Attributes (beforeNul line) v := by
      rw [attributes_iff, attributesOf, hvalues]
      simp
    rw [anlz_line, hvalues, Option.map_none, Option.map_none]
    constructor
    · intro h v hv
      rw [attributes_iff, ← h] at hv
      cases hv
    · intro h
      apply Eq.symm
      rw [Option.eq_none_iff_forall_ne_some]
      intro v hv
      exact hnone v (h v ((attributes_iff line v).mpr hv)).1
  | some w =>
    have hfull : values line = some w := by
      rw [hline]
      exact values_append hvalues more
    have hbefore : Attributes (beforeNul line) (toValues w) := by
      rw [attributes_iff, attributesOf, hvalues, Option.map_some]
    have hall : (∀ v, Attributes line v → Attributes (beforeNul line) v ∧ 0 ≤ v.Count ∧
        v.Count < 2 ^ 32) ↔ 0 ≤ number w.1 ∧ number w.1 < 2 ^ 32 := by
      have hline' (v : Values) : Attributes line v ↔ toValues w = v := by
        rw [attributes_iff, attributesOf, hfull, Option.map_some, Option.some.injEq]
      constructor
      · intro h
        exact (h (toValues w) ((hline' _).mpr rfl)).2
      · intro h v hv
        obtain rfl := (hline' v).mp hv
        exact ⟨hbefore, h⟩
    obtain ⟨count, r₁, r₂, r₃, r₄, -, -, htime, haction, hdesp⟩ := hbefore
    have htext : (Buf.snprintf w.2.1 : Buf 32).text = w.2.1 :=
      Buf.text_snprintf_of_lt htime.2.2.2.2
    have hact : (Buf.snprintf w.2.2.1 : Buf 256).text = w.2.2.1 :=
      Buf.text_snprintf_of_lt haction.2.2.2.2
    have hdes : (Buf.snprintf w.2.2.2 : Buf 64).text = w.2.2.2 :=
      Buf.text_snprintf_of_lt hdesp.2.2.2.2
    rw [hall, anlz_line, hvalues, attributesOf, hfull, Option.map_some, Option.map_some,
      Option.map_some, Option.some.injEq, ← count_eq_iff, valuesOf, entryOf, toValues]
    dsimp only
    rw [htext, hact, hdes]
    constructor
    · intro h
      exact congrArg Values.Count h
    · intro h
      rw [h]

theorem fill_eq (room : ℕ) (entry : List COSA_DML_IA_LOG_ENTRY) (lines : List CStr) :
    fillEntries room entry lines =
      if lines = [] ∨ entry.length + (lines.dropLast.filterMap anlz_line).length < room then
        some (entry ++ lines.filterMap anlz_line)
      else none := by
  induction lines generalizing entry with
  | nil => rw [fillEntries, if_pos (Or.inl rfl), List.filterMap_nil, List.append_nil]
  | cons line lines ih =>
    rw [fillEntries]
    cases lines with
    | nil =>
      have hlast : ([line] : List CStr).dropLast.filterMap anlz_line = [] := rfl
      rw [hlast]
      by_cases hroom : room ≤ entry.length
      · rw [if_pos hroom, if_neg (by simpa using hroom)]
      · rw [if_neg hroom, if_pos (Or.inr (by simpa using hroom))]
        cases hline : anlz_line line with
        | none => rw [List.filterMap_cons_none hline, List.filterMap_nil, List.append_nil]; rfl
        | some e => rw [List.filterMap_cons_some hline]; rfl
    | cons next lines =>
      have hlast : (line :: next :: lines).dropLast = line :: (next :: lines).dropLast := rfl
      rw [hlast]
      cases hline : anlz_line line with
      | none =>
        rw [List.filterMap_cons_none hline, List.filterMap_cons_none hline]
        simp only [ih, List.cons_ne_nil, false_or]
        by_cases hroom : room ≤ entry.length
        · rw [if_pos hroom, if_neg (by omega)]
        · rw [if_neg hroom]
      | some e =>
        rw [List.filterMap_cons_some hline, List.filterMap_cons_some hline]
        simp only [ih, List.cons_ne_nil, false_or, List.length_append, List.length_cons,
          List.length_nil, List.append_assoc, List.singleton_append]
        by_cases hroom : room ≤ entry.length
        · rw [if_pos hroom, if_neg (by omega)]
        · rw [if_neg hroom]
          congr 1
          rw [eq_iff_iff]
          omega

theorem fill_start (room : ℕ) {lines : List CStr} (hne : lines ≠ []) :
    fillEntries room [] lines =
      if (lines.dropLast.filterMap anlz_line).length < room then
        some (lines.filterMap anlz_line)
      else none := by
  rw [fill_eq]
  simp only [hne, false_or, List.length_nil, Nat.zero_add, List.nil_append]

theorem linesFrom_ne_nil {cur t : CStr} (h : cur ++ t ≠ []) : linesFrom cur t ≠ [] := by
  induction t generalizing cur with
  | nil =>
    rw [List.append_nil] at h
    rw [linesFrom, if_neg h]
    exact List.cons_ne_nil _ _
  | cons c t ih =>
    rw [linesFrom]
    split
    · exact List.cons_ne_nil _ _
    · exact ih (by simp)

theorem none_iff :
    Lists lines [] ↔ ∀ line ∈ lines, ∀ v, ¬ Attributes line v := by
  rw [lists_iff, eq_comm, List.filterMap_eq_nil_iff]
  apply forall₂_congr
  intro line _
  rw [Option.eq_none_iff_forall_ne_some]
  exact forall_congr' fun v => not_congr (attributes_iff line v).symm

theorem kept_iff :
    Lists lines ((lines.filterMap anlz_line).map valuesOf) ↔
      ∀ line ∈ lines, ∀ v, Attributes line v →
        Attributes (beforeNul line) v ∧ 0 ≤ v.Count ∧ v.Count < 2 ^ 32 := by
  have hsub : ∀ line ∈ lines, ((anlz_line line).map valuesOf).isSome →
      (attributesOf line).isSome := by
    intro line _ h
    obtain ⟨more, hline⟩ := line_split line
    rw [anlz_line, Option.isSome_map, Option.isSome_map] at h
    obtain ⟨w, hw⟩ := Option.isSome_iff_exists.mp h
    rw [attributesOf, Option.isSome_map, hline, values_append hw]
    rfl
  rw [lists_iff, List.map_filterMap, filterMap_eq_iff hsub]
  apply forall₂_congr
  intro line _
  exact line_iff line

theorem listsFile_iff (file : CStr) : ListsFile file ↔ FileFits file := by
  rw [ListsFile, get_log_entry]
  by_cases hmany : 2 ^ 31 ≤ file.count '\n'
  · rw [if_pos hmany]
    refine iff_of_false (fun h => ?_) (fun h => ?_)
    · obtain ⟨log, hlog, -⟩ := h
      cases hlog
    · rcases h with h | h
      · omega
      · omega
  · rw [if_neg hmany]
    by_cases hlines : 0 < file.count '\n'
    · have hne : getlines file ≠ [] := by
        apply linesFrom_ne_nil
        rw [List.nil_append]
        intro hnil
        rw [hnil] at hlines
        exact absurd hlines (by decide)
      have hsome : ¬ file.count '\n' = 0 := Nat.pos_iff_ne_zero.mp hlines
      rw [if_pos hlines, fill_start _ hne, FileFits, or_iff_right (fun h => hsome h.1),
        and_iff_right hlines, and_iff_right (Nat.lt_of_not_le hmany), ← kept_iff]
      by_cases hroom : ((getlines file).dropLast.filterMap anlz_line).length <
          allocated (file.count '\n')
      · rw [if_pos hroom, and_iff_right hroom]
        constructor
        · intro h
          obtain ⟨log, hlog, hlists⟩ := h
          obtain rfl := Option.some.inj hlog
          exact hlists
        · intro h
          exact ⟨_, rfl, h⟩
      · rw [if_neg hroom]
        refine iff_of_false (fun h => ?_) (fun h => hroom h.1)
        obtain ⟨log, hlog, -⟩ := h
        cases hlog
    · have hzero : file.count '\n' = 0 := by omega
      rw [if_neg hlines, FileFits, or_iff_left (fun h => hlines h.1), and_iff_right hzero,
        ← none_iff]
      constructor
      · intro h
        obtain ⟨log, hlog, hlists⟩ := h
        obtain rfl := Option.some.inj hlog
        exact hlists
      · intro h
        exact ⟨[], rfl, h⟩

end Filling

section Printing

variable {log : List COSA_DML_IA_LOG_ENTRY} {pUlSize tmpsize : ℕ} {pValue : CStr}

theorem entryText_length (e : COSA_DML_IA_LOG_ENTRY) :
    0 < (entryText e).length ∧ (entryText e).length ≤ 400 := by
  have hcount : (decimal e.Count.toNat).length ≤ 10 :=
    (decimal_length_le_iff (by decide)).mpr (by have h := e.Count.isLt; omega)
  have haction := e.Action.text_length_lt
  have htime := e.OccuranceTime.text_length_lt
  have hdesp := e.Description.text_length_lt
  unfold entryText
  simp only [List.length_cons, List.length_append]
  omega

theorem print_whole (h : tmpsize + (log.flatMap entryText).length + 2 ≤ pUlSize) :
    printEntries pUlSize tmpsize pValue log =
      (pValue ++ log.flatMap entryText, tmpsize + (log.flatMap entryText).length) := by
  induction log generalizing tmpsize pValue with
  | nil =>
    rw [printEntries, List.flatMap_nil, List.append_nil, List.length_nil, Nat.add_zero]
  | cons e log ih =>
    rw [List.flatMap_cons, List.length_append] at h ⊢
    rw [printEntries, if_pos (by omega), List.take_of_length_le (by omega), ih (by omega),
      List.append_assoc, Nat.add_assoc]

theorem print_length (hpos : pValue.length ≤ tmpsize) (hroom : pValue.length + 2 ≤ pUlSize) :
    (printEntries pUlSize tmpsize pValue log).1.length + 2 ≤ pUlSize := by
  induction log generalizing tmpsize pValue with
  | nil => exact hroom
  | cons e log ih =>
    rw [printEntries]
    split
    · apply ih
      · rw [List.length_append, List.length_take]
        omega
      · rw [List.length_append, List.length_take]
        omega
    · exact hroom

theorem outcome_of_ne (hlog : log ≠ []) (size : ℕ) :
    CosaDmlIaGetALLLogEntries log size =
      if size < needed log.length then .asks (asked log.length)
      else if (printEntries size 0 [] log).2 < size then .writes (printEntries size 0 [] log).1
      else .outside := by
  rw [CosaDmlIaGetALLLogEntries, if_neg (fun h => hlog (List.length_eq_zero_iff.mp h))]

theorem prints_iff (log : List COSA_DML_IA_LOG_ENTRY) (pUlSize : ℕ) :
    Prints log pUlSize ↔ BufferFits log pUlSize := by
  rw [BufferFits]
  by_cases hlog : log = []
  · subst hlog
    rw [if_pos rfl, Prints, CosaDmlIaGetALLLogEntries, if_pos List.length_nil]
    by_cases hsize : 0 < pUlSize
    · rw [if_pos hsize]
      exact iff_of_true ⟨rfl, hsize⟩ hsize
    · rw [if_neg hsize]
      exact iff_of_false id hsize
  · rw [if_neg hlog, Prints, outcome_of_ne hlog]
    by_cases hask : pUlSize < needed log.length
    · rw [if_pos hask, if_pos hask]
      dsimp only
      apply and_congr_right'
      rw [outcome_of_ne hlog]
      constructor
      · intro h
        by_contra hless
        rw [if_pos (by omega)] at h
        exact h _ rfl
      · intro h again
        rw [if_neg (by omega)]
        split
        · exact fun heq => nomatch heq
        · exact fun heq => nomatch heq
    · rw [if_neg hask, if_neg hask]
      by_cases hfits : (log.flatMap entryText).length + 2 ≤ pUlSize
      · rw [print_whole (by omega)]
        dsimp only
        rw [if_pos (by omega), List.nil_append]
        exact iff_of_true ⟨rfl, by omega⟩ hfits
      · refine iff_of_false (fun h => hfits ?_) hfits
        by_cases hin : (printEntries pUlSize 0 [] log).2 < pUlSize
        · rw [if_pos hin] at h
          obtain ⟨hwhole, hlen⟩ := h
          have hpos : 0 < (log.flatMap entryText).length := by
            cases log with
            | nil => exact absurd rfl hlog
            | cons e log =>
              rw [List.flatMap_cons, List.length_append]
              have he := (entryText_length e).1
              omega
          rw [hwhole] at hlen
          have hroom := @print_length log pUlSize 0 [] (le_refl _) (by
            rw [List.length_nil]
            omega)
          rw [hwhole] at hroom
          exact hroom
        · rw [if_neg hin] at h
          exact h.elim

end Printing

def oneLine : CStr :=
  "Count=\"3\" Time=\"Jan 01 00:00:00\" Action=\"DROP\" Desp=\"Flood\"".toList

end CcspPandM.FirewallLog
