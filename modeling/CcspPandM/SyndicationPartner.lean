import CcspPandM.FgetsLines
import CcspPandM.TextSearch

/-!
The partner of a device. It is taken from syscfg, else from the properties of the build, else
it is "comcast", and is written back. One variable is the size of the buffer and the length of
the text in it: the default lowers it before the properties are copied over the default.
-/
namespace CcspPandM.SyndicationPartner

open CString FgetsLines TextSearch

section Code

inductive ANSC_STATUS where
  | SUCCESS
  | FAILURE
  deriving DecidableEq

def PARTNER_ID_LEN : ℕ := 64

def partnerStr : CStr := "PARTNER_ID".toList

def comcast : CStr := "comcast".toList

def textFrom (buf : List Char) (k : ℕ) : CStr := (buf.drop k).takeWhile (· ≠ '\x00')

/-- What `fgets` leaves in its buffer. -/
def fgetsInto (buf piece : List Char) : List Char := piece ++ '\x00' :: buf.drop (piece.length + 1)

def scan : List CStr → List Char → Option CStr
  | [], _ => none
  | piece :: rest, fileContent =>
    let fileContent := fgetsInto fileContent piece
    match strstr partnerStr (textFrom fileContent 0) with
    | none => scan rest fileContent
    | some found =>
      let offset := (textFrom fileContent 0).length - found.length
      -- The size of the array counts its NUL, which skips the character behind the name.
      some (textFrom fileContent (offset + (partnerStr.length + 1)))

/-- `strcpy_s` of a text into a buffer that is said to have `dmax` bytes. -/
def strcpy_s (dmax : ℕ) (t : CStr) : Buf 64 := Buf.sprintf_s (if t.length < dmax then t else [])

/-- The text and the size after the call; `none` is a file that cannot be opened. -/
def CosaDmlDiGetSyndicationPartnerId (deviceFile : Option CStr) (pValue : Buf 64)
    (pulSize : ℕ) : ANSC_STATUS × Buf 64 × ℕ :=
  if PARTNER_ID_LEN ≤ pulSize then (.FAILURE, pValue, pulSize)
  else if pulSize ≤ comcast.length then (.FAILURE, pValue, pulSize)
  else
    let pValue := strcpy_s pulSize comcast
    let pulSize := pValue.text.length
    match deviceFile with
    | none => (.SUCCESS, pValue, pulSize)
    | some file =>
      match scan (reads 255 file) (List.replicate 256 '\x00') with
      | none => (.SUCCESS, pValue, pulSize)
      | some t =>
        let pValue := strcpy_s pulSize t
        (.SUCCESS, pValue, pValue.text.length)

/-- `strncpy` of the stored text over the buffer writes no NUL behind it. -/
def fillCurrentPartnerId (PartnerID : Option (Buf 64)) (pValue : Buf 64) (pulSize : ℕ) :
    ANSC_STATUS × Buf 64 × ℕ :=
  match PartnerID with
  | some buf =>
    let pValue : Buf 64 := Buf.snprintf (buf.text ++ pValue.text.drop buf.text.length)
    (.SUCCESS, pValue, pValue.text.length)
  | none => (.FAILURE, pValue, pulSize)

/-- The platform has no factory partner. -/
def getFactoryPartnerId (pValue : Buf 64) (pulSize : ℕ) : ANSC_STATUS × Buf 64 × ℕ :=
  (.FAILURE, pValue, pulSize)

def setPartnerId (pValue : Buf 64) : ANSC_STATUS × Option (Buf 64) := (.SUCCESS, some pValue)

/-- The text that is returned, and what syscfg holds afterwards. -/
def CosaDeriveSyndicationPartnerID (deviceFile : Option CStr) (stored : Option (Buf 64)) :
    Buf 64 × Option (Buf 64) :=
  let size := PARTNER_ID_LEN - 1
  let current := fillCurrentPartnerId stored Buf.empty size
  if current.1 = .SUCCESS then (current.2.1, stored)
  else
    let factory := getFactoryPartnerId current.2.1 current.2.2
    if factory.1 = .SUCCESS then (factory.2.1, (setPartnerId factory.2.1).2)
    else
      let build := CosaDmlDiGetSyndicationPartnerId deviceFile factory.2.1 factory.2.2
      if build.1 = .FAILURE then (build.2.1, stored)
      else (build.2.1, (setPartnerId build.2.1).2)

end Code

section Properties

/-- A line without its end, short enough to be read at once. -/
def Line (t : CStr) : Prop := '\n' ∉ t ∧ '\x00' ∉ t ∧ t.length ≤ 254

/-- The lines of a file, and what follows the last line end. -/
structure Properties where
  lines : List CStr
  last : CStr
  lines_line : ∀ t ∈ lines, Line t
  last_line : Line last

def Properties.file (props : Properties) : CStr :=
  (props.lines.flatMap fun t => t ++ ['\n']) ++ props.last

def propertyName : CStr := "PARTNER_ID=".toList

def propertyValue (line : CStr) : Option CStr :=
  if propertyName <+: line then some (line.drop propertyName.length) else none

def Usable (v : CStr) : Prop := 1 ≤ v.length ∧ v.length ≤ 62

instance : DecidablePred Usable := fun _ => inferInstanceAs (Decidable (_ ∧ _))

def partnerOf : Option Properties → CStr
  | none => comcast
  | some props =>
    (((props.lines ++ [props.last]).filterMap propertyValue).find? (Usable ·)).getD comcast

def partner (props : Option Properties) (stored : Option (Buf 64)) : CStr :=
  match stored with
  | some buf => buf.text
  | none => partnerOf props

def derive (props : Option Properties) (stored : Option (Buf 64)) : Buf 64 × Option (Buf 64) :=
  CosaDeriveSyndicationPartnerID (props.map Properties.file) stored

/-- The partner is the one asked for, is not empty unless an empty one is stored, is stored, and
is the same when asked for again. -/
structure Right (props : Option Properties) (stored : Option (Buf 64)) : Prop where
  returned : (derive props stored).1.text = partner props stored
  nonempty : stored ≠ some Buf.empty → (derive props stored).1.text ≠ []
  kept : (derive props stored).2 = some (derive props stored).1
  again : (derive props (derive props stored).2).1 = (derive props stored).1

/-- No line names the partner, or only an unended last line, by a short value. -/
def Fits (props : Properties) : Prop :=
  (∀ t ∈ props.lines, ¬ partnerStr <:+: t) ∧
    (¬ partnerStr <:+: props.last ∨
      ∃ v, props.last = propertyName ++ v ∧ 1 ≤ v.length ∧ v.length ≤ 6)

end Properties

section Scanning

variable {piece : CStr}

theorem textFrom_piece (h : '\x00' ∉ piece) (buf : List Char) {k : ℕ}
    (hk : k ≤ piece.length) : textFrom (fgetsInto buf piece) k = piece.drop k := by
  have hall : ∀ c ∈ piece.drop k, (decide (c ≠ '\x00')) = true := by
    intro c hc
    apply decide_eq_true
    rintro rfl
    exact h (List.mem_of_mem_drop hc)
  rw [textFrom, fgetsInto, List.drop_append_of_le_length hk, List.takeWhile_append_of_pos hall,
    List.takeWhile_cons_of_neg (by simp), List.append_nil]

theorem scan_cons (h : '\x00' ∉ piece) (rest : List CStr) (buf : List Char) :
    scan (piece :: rest) buf =
      match strstr partnerStr piece with
      | none => scan rest (fgetsInto buf piece)
      | some found => some (textFrom (fgetsInto buf piece)
          (piece.length - found.length + (partnerStr.length + 1))) := by
  rw [scan]
  dsimp only
  rw [textFrom_piece h buf (Nat.zero_le _), List.drop_zero]

theorem scan_cons_of_not (h : '\x00' ∉ piece) (hnot : ¬ partnerStr <:+: piece)
    (rest : List CStr) (buf : List Char) :
    scan (piece :: rest) buf = scan rest (fgetsInto buf piece) := by
  have hnone : strstr partnerStr piece = none := by
    apply Option.not_isSome_iff_eq_none.mp
    rw [strstr_isSome]
    exact hnot
  rw [scan_cons h, hnone]

theorem scan_cons_found (h : '\x00' ∉ piece) (hname : partnerStr <:+: piece)
    (rest : List CStr) (buf : List Char) :
    ∃ front found, strstr partnerStr piece = some found ∧ piece = front ++ found ∧
      partnerStr <+: found ∧
      scan (piece :: rest) buf =
        some (textFrom (fgetsInto buf piece) (front.length + (partnerStr.length + 1))) := by
  obtain ⟨found, hfound⟩ := Option.isSome_iff_exists.mp ((strstr_isSome _ _).mpr hname)
  obtain ⟨front, hpiece, hstart, -⟩ := strstr_eq_some_iff.mp hfound
  refine ⟨front, found, hfound, hpiece, hstart, ?_⟩
  have hlen : piece.length - found.length = front.length := by
    rw [hpiece, List.length_append, Nat.add_sub_cancel]
  rw [scan_cons h, hfound]
  dsimp only
  rw [hlen]

variable {props : Properties}

theorem reads_file (props : Properties) :
    reads 255 props.file =
      (props.lines.map fun t => t ++ ['\n']) ++ if props.last = [] then [] else [props.last] := by
  have hlast : reads 255 props.last = if props.last = [] then [] else [props.last] := by
    obtain ⟨hnl, -, hfit⟩ := props.last_line
    exact reads_last hnl (by omega)
  have hall : ∀ ts : List CStr, (∀ t ∈ ts, Line t) →
      reads 255 ((ts.flatMap fun t => t ++ ['\n']) ++ props.last) =
        (ts.map fun t => t ++ ['\n']) ++ if props.last = [] then [] else [props.last] := by
    intro ts hts
    induction ts with
    | nil => exact hlast
    | cons t ts ih =>
      obtain ⟨⟨hnl, -, hfit⟩, hts⟩ := List.forall_mem_cons.mp hts
      rw [List.flatMap_cons, List.append_assoc, List.append_assoc, List.singleton_append,
        reads_line hnl (by omega), ih hts, List.map_cons, List.cons_append]
  exact hall props.lines props.lines_line

theorem scan_pass {ts : List CStr} (h : ∀ t ∈ ts, Line t ∧ ¬ partnerStr <:+: t)
    (rest : List CStr) (buf : List Char) :
    ∃ buf', scan ((ts.map fun t => t ++ ['\n']) ++ rest) buf = scan rest buf' := by
  induction ts generalizing buf with
  | nil => exact ⟨buf, rfl⟩
  | cons t ts ih =>
    obtain ⟨⟨⟨-, hnul, -⟩, hnot⟩, hts⟩ := List.forall_mem_cons.mp h
    have hnul' : '\x00' ∉ t ++ ['\n'] := by simpa using hnul
    have hnot' : ¬ partnerStr <:+: t ++ ['\n'] := by
      rw [infix_terminated_iff (by decide) (by decide)]
      exact fun hor => hor.elim hnot (by decide)
    rw [List.map_cons, List.cons_append, scan_cons_of_not hnul' hnot']
    exact ih hts _

end Scanning

section Deriving

variable (props : Option Properties)

theorem derive_stored (buf : Buf 64) :
    derive props (some buf) = (buf, some buf) := by
  have hsame : (Buf.snprintf (buf.text ++ (Buf.empty : Buf 64).text.drop buf.text.length) :
      Buf 64) = buf := by
    apply Buf.text_injective
    rw [Buf.text_empty, List.drop_nil, List.append_nil, Buf.text_snprintf_of_lt buf.text_length_lt]
  rw [derive, CosaDeriveSyndicationPartnerID]
  dsimp only [fillCurrentPartnerId]
  rw [hsame]
  rfl

theorem text_strcpy_s {dmax : ℕ} (hdmax : dmax ≤ 64) (t : CStr) :
    (strcpy_s dmax t).text = if t.length < dmax then t else [] := by
  apply Buf.text_sprintf_s_of_lt
  split
  · omega
  · exact Nat.zero_lt_succ _

def built : Option Properties → Buf 64
  | none => strcpy_s 63 comcast
  | some props =>
    match scan (reads 255 props.file) (List.replicate 256 '\x00') with
    | none => strcpy_s 63 comcast
    | some t => strcpy_s 7 t

theorem derive_none :
    derive props none = (built props, some (built props)) := by
  cases props with
  | none => rfl
  | some props =>
    rw [built, derive, CosaDeriveSyndicationPartnerID]
    dsimp only [fillCurrentPartnerId, getFactoryPartnerId, CosaDmlDiGetSyndicationPartnerId,
      Option.map_some]
    cases scan (reads 255 props.file) (List.replicate 256 '\x00') with
    | none => rfl
    | some t => rfl

theorem find_value_cases (lines : List CStr) :
    ((lines.filterMap propertyValue).find? (Usable ·)).getD comcast = comcast ∨
      ∃ v, ((lines.filterMap propertyValue).find? (Usable ·)).getD comcast = v ∧
        propertyName ++ v ∈ lines ∧ Usable v := by
  cases hfind : (lines.filterMap propertyValue).find? (Usable ·) with
  | none => exact Or.inl rfl
  | some v =>
    have husable : Usable v := by simpa using List.find?_some hfind
    obtain ⟨line, hline, hvalue⟩ := List.mem_filterMap.mp (List.mem_of_find?_eq_some hfind)
    rw [propertyValue] at hvalue
    split at hvalue
    · rename_i hstart
      obtain ⟨rest, rfl⟩ := hstart
      rw [List.drop_left] at hvalue
      obtain rfl := Option.some.inj hvalue
      exact Or.inr ⟨rest, rfl, hline, husable⟩
    · cases hvalue

theorem partnerOf_spec (props : Properties) :
    partnerOf (some props) ≠ [] ∧ '\n' ∉ partnerOf (some props) := by
  rcases find_value_cases (props.lines ++ [props.last]) with h | ⟨v, h, hmem, husable⟩
  · rw [partnerOf, h]
    exact ⟨by decide, by decide⟩
  · rw [partnerOf, h]
    have hline : Line (propertyName ++ v) := by
      rcases List.mem_append.mp hmem with hmem | hmem
      · exact props.lines_line _ hmem
      · rw [List.mem_singleton.mp hmem]
        exact props.last_line
    refine ⟨?_, fun hnl => hline.1 (List.mem_append_right _ hnl)⟩
    rintro rfl
    exact absurd husable.1 (by decide)

theorem partnerOf_ne : partnerOf props ≠ [] := by
  cases props with
  | none => rw [partnerOf]; decide
  | some props => exact (partnerOf_spec props).1

theorem right_stored (buf : Buf 64) : Right props (some buf) := by
  have hderive := derive_stored props buf
  refine ⟨by rw [hderive]; rfl, fun hne hnil => hne ?_, by rw [hderive], by rw [hderive, hderive]⟩
  rw [hderive] at hnil
  exact congrArg some (Buf.text_injective hnil)

theorem right_none_iff :
    Right props none ↔ (built props).text = partnerOf props := by
  have hderive := derive_none props
  constructor
  · intro h
    have hreturned := h.returned
    rw [hderive] at hreturned
    exact hreturned
  · intro h
    refine ⟨by rw [hderive]; exact h, fun _ => ?_, by rw [hderive], ?_⟩
    · rw [hderive]
      dsimp only
      rw [h]
      exact partnerOf_ne props
    · rw [hderive]
      dsimp only
      rw [derive_stored]

end Deriving

section Lines

variable {props : Properties}

theorem infix_of_property {t : CStr} (h : propertyName <+: t) : partnerStr <:+: t :=
  ((show partnerStr <+: propertyName from ⟨['='], rfl⟩).trans h).isInfix

theorem filterMap_property_nil {ts : List CStr} (h : ∀ t ∈ ts, ¬ partnerStr <:+: t) :
    ts.filterMap propertyValue = [] := by
  apply List.filterMap_eq_nil_iff.mpr
  intro t ht
  exact if_neg fun hstart => h t ht (infix_of_property hstart)

theorem built_ended (h : ∃ t ∈ props.lines, partnerStr <:+: t) :
    (built (some props)).text ≠ partnerOf (some props) := by
  obtain ⟨hne, hnl⟩ := partnerOf_spec props
  have hsome : (props.lines.find? fun t => decide (partnerStr <:+: t)).isSome :=
    List.find?_isSome.mpr (by simpa using h)
  obtain ⟨t, hfind⟩ := Option.isSome_iff_exists.mp hsome
  obtain ⟨hname, before, after, hlines, hbefore⟩ := List.find?_eq_some_iff_append.mp hfind
  have hname : partnerStr <:+: t := of_decide_eq_true hname
  have hline : ∀ t' ∈ before ++ t :: after, Line t' := hlines ▸ props.lines_line
  have ht : Line t := hline t (List.mem_append_right _ List.mem_cons_self)
  have hnul : '\x00' ∉ t ++ ['\n'] := by simpa using ht.2.1
  have hname' : partnerStr <:+: t ++ ['\n'] := hname.trans (List.prefix_append _ _).isInfix
  have hpass : ∀ t' ∈ before, Line t' ∧ ¬ partnerStr <:+: t' := by
    intro t' ht'
    refine ⟨hline t' (List.mem_append_left _ ht'), ?_⟩
    have hnot := hbefore t' ht'
    simpa using hnot
  have hreads := reads_file props
  rw [hlines, List.map_append, List.map_cons, List.append_assoc, List.cons_append] at hreads
  obtain ⟨buf, hscan⟩ := scan_pass hpass ((t ++ ['\n']) :: ((after.map fun t => t ++ ['\n']) ++
    if props.last = [] then [] else [props.last])) (List.replicate 256 '\x00')
  obtain ⟨front, found, -, hpiece, hstart, hfound⟩ := scan_cons_found hnul hname'
    ((after.map fun t => t ++ ['\n']) ++ if props.last = [] then [] else [props.last]) buf
  -- The name has no line end, so that something stands behind it.
  obtain ⟨more, rfl⟩ := hstart
  have hmore : more ≠ [] := by
    rintro rfl
    have hlast : front ++ "PARTNER_I".toList ++ ['D'] = t ++ ['\n'] := by
      rw [hpiece, List.append_nil, List.append_assoc]
      rfl
    exact absurd (List.append_inj' hlast rfl).2 (by decide)
  have hlen : front.length + (partnerStr.length + 1) ≤ (t ++ ['\n']).length := by
    have hpos := List.length_pos_iff.mpr hmore
    rw [hpiece, List.length_append, List.length_append]
    omega
  rw [textFrom_piece hnul buf hlen] at hfound
  rw [built, hreads, hscan, hfound]
  dsimp only
  rw [text_strcpy_s (by decide)]
  split
  · intro heq
    rw [← heq] at hne hnl
    rcases Nat.lt_or_ge t.length (front.length + (partnerStr.length + 1)) with hout | hin
    · apply hne
      apply List.drop_eq_nil_of_le
      rw [List.length_append, List.length_singleton]
      omega
    · rw [List.drop_append_of_le_length hin] at hnl
      exact hnl (List.mem_append_right _ (List.mem_singleton.mpr rfl))
  · exact fun heq => hne heq.symm

theorem built_last_iff (h : ∀ t ∈ props.lines, ¬ partnerStr <:+: t) :
    (built (some props)).text = partnerOf (some props) ↔
      ¬ partnerStr <:+: props.last ∨
        ∃ v, props.last = propertyName ++ v ∧ 1 ≤ v.length ∧ v.length ≤ 6 := by
  obtain ⟨buf, hscan⟩ := scan_pass (fun t ht => ⟨props.lines_line t ht, h t ht⟩)
    (if props.last = [] then [] else [props.last]) (List.replicate 256 '\x00')
  obtain ⟨hnl, hnul, -⟩ := props.last_line
  have hpartner : partnerOf (some props) =
      (((propertyValue props.last).toList).find? (Usable ·)).getD comcast := by
    rw [partnerOf, List.filterMap_append, filterMap_property_nil h, List.nil_append]
    cases hvalue : propertyValue props.last <;> simp [hvalue]
  rw [built, reads_file, hscan]
  by_cases hname : partnerStr <:+: props.last
  · have hsome : props.last ≠ [] := by
      intro hnil
      rw [hnil] at hname
      exact absurd hname (by decide)
    obtain ⟨front, found, hfound, hpiece, hstart, hscan'⟩ := scan_cons_found hnul hname [] buf
    rw [if_neg hsome, hscan', or_iff_right (not_not_intro hname)]
    dsimp only
    rw [text_strcpy_s (by decide)]
    constructor
    · intro heq
      have hshort : (partnerOf (some props)).length ≤ 6 := by
        rw [← heq]
        split
        · omega
        · exact Nat.zero_le _
      rcases find_value_cases (props.lines ++ [props.last]) with hnone | ⟨v, hv, hmem, husable⟩
      · rw [partnerOf, hnone] at hshort
        exact absurd hshort (by decide)
      · rw [partnerOf, hv] at hshort
        rcases List.mem_append.mp hmem with hmem | hmem
        · exact absurd (infix_of_property (List.prefix_append _ _)) (h _ hmem)
        · exact ⟨v, (List.mem_singleton.mp hmem).symm, husable.1, hshort⟩
    · rintro ⟨v, hlast, hpos, hle⟩
      have hfront : front = [] := by
        have hwhole : strstr partnerStr props.last = some props.last := by
          apply strstr_of_prefix
          rw [hlast]
          exact ⟨'=' :: v, rfl⟩
        rw [hwhole] at hfound
        rw [← Option.some.inj hfound] at hpiece
        exact List.append_left_eq_self.mp hpiece.symm
      have hvalue : propertyValue props.last = some v := by
        rw [propertyValue, hlast, if_pos (List.prefix_append _ _), List.drop_left]
      have htext : textFrom (fgetsInto buf props.last) (front.length + (partnerStr.length + 1)) =
          v := by
        have hlen : front.length + (partnerStr.length + 1) ≤ props.last.length := by
          rw [hfront, hlast, List.length_append]
          exact Nat.le_add_right 11 v.length
        rw [textFrom_piece hnul buf hlen, hfront, hlast]
        exact @List.drop_left _ propertyName v
      have husable : decide (Usable v) = true := decide_eq_true ⟨hpos, by omega⟩
      rw [htext, if_pos (by omega), hpartner, hvalue, Option.toList_some,
        List.find?_cons, husable]
      rfl
  · have hnone : scan (if props.last = [] then [] else [props.last]) buf = none := by
      split
      · rfl
      · rw [scan_cons_of_not hnul hname]
        rfl
    have hvalue : propertyValue props.last = none :=
      if_neg fun hstart => hname (infix_of_property hstart)
    refine iff_of_true ?_ (Or.inl hname)
    rw [hnone, hpartner, hvalue]
    rfl

theorem built_iff (props : Properties) :
    (built (some props)).text = partnerOf (some props) ↔ Fits props := by
  by_cases h : ∀ t ∈ props.lines, ¬ partnerStr <:+: t
  · rw [built_last_iff h, Fits, and_iff_right h]
  · have hex : ∃ t ∈ props.lines, partnerStr <:+: t := by
      simpa using h
    exact iff_of_false (built_ended hex) fun hfits => h hfits.1

end Lines

/-- The partner is right just where one is stored, the properties are absent, or they fit. -/
theorem partner_right_iff (props : Option Properties) (stored : Option (Buf 64)) :
    Right props stored ↔ stored ≠ none ∨ ∀ p, props = some p → Fits p := by
  cases stored with
  | some buf => exact iff_of_true (right_stored props buf) (Or.inl nofun)
  | none =>
    rw [right_none_iff, or_iff_right (not_not_intro rfl)]
    cases props with
    | none => exact iff_of_true rfl nofun
    | some p =>
      rw [built_iff]
      exact ⟨fun h q hq => Option.some.inj hq ▸ h, fun h => h p rfl⟩

def coxProperties : Properties where
  lines := [propertyName ++ "cox".toList]
  last := []
  lines_line := by
    intro t ht
    rw [List.mem_singleton.mp ht]
    exact ⟨by decide, by decide, by decide⟩
  last_line := ⟨List.not_mem_nil, List.not_mem_nil, Nat.zero_le _⟩

def skyProperties : Properties where
  lines := [propertyName ++ "sky-italia".toList]
  last := []
  lines_line := by
    intro t ht
    rw [List.mem_singleton.mp ht]
    exact ⟨by decide, by decide, by decide⟩
  last_line := ⟨List.not_mem_nil, List.not_mem_nil, Nat.zero_le _⟩

/-- A short partner is stored with the line end, a longer one is lost. -/
theorem partner_cut :
    (derive (some coxProperties) none).1.text = "cox\n".toList ∧
      (derive (some skyProperties) none).1.text = [] ∧
      partner (some coxProperties) none = "cox".toList ∧
      partner (some skyProperties) none = "sky-italia".toList ∧
      ¬ Right (some coxProperties) none ∧ ¬ Right (some skyProperties) none := by
  have hcox : (derive (some coxProperties) none).1.text = "cox\n".toList := by decide
  have hsky : (derive (some skyProperties) none).1.text = [] := by decide
  have hcox' : partner (some coxProperties) none = "cox".toList := by decide
  refine ⟨hcox, hsky, hcox', by decide, fun hright => ?_, fun hright => ?_⟩
  · have hreturned := hright.returned
    rw [hcox, hcox'] at hreturned
    exact absurd hreturned (by decide)
  · exact hright.nonempty nofun hsky

end CcspPandM.SyndicationPartner
