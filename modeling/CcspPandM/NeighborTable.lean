import CcspPandM.FgetsLines
import CcspPandM.TextSearch
import Mathlib.Data.List.Infix

/-!
The neighbour table, read from the lines of a command. The table has room for the
lines with an lladdr, which are counted in another file. Address and interface are
written to the next entry of the table before it is known whether the line is kept,
and the first line that is not kept ends the scan.
-/
namespace CcspPandM.NeighborTable

open CString TextSearch FgetsLines

section Code

inductive NEIGHBOR_STATUS where
  | INCOMPLETE
  | REACHABLE
  | STALE
  | DELAY
  | PROBE
  deriving DecidableEq

open NEIGHBOR_STATUS

/-- An entry with the texts that its fields `[64]`, `[32]` and `[16]` hold. -/
structure COSA_DML_NEIGHTABLE_INFO where
  Address : CStr
  MACAddress : CStr
  Interface : CStr
  Status : NEIGHBOR_STATUS
  deriving DecidableEq

def statusName : NEIGHBOR_STATUS → CStr
  | INCOMPLETE => "INCOMPLETE".toList
  | REACHABLE => "REACHABLE".toList
  | STALE => "STALE".toList
  | DELAY => "DELAY".toList
  | PROBE => "PROBE".toList

def statuses : List NEIGHBOR_STATUS := [INCOMPLETE, REACHABLE, STALE, DELAY, PROBE]

def status (p : CStr) : Option NEIGHBOR_STATUS :=
  statuses.find? fun s => (strstr (statusName s) p).isSome

/-- The word up to the next blank, and what follows the blank. Without a blank the loop
leaves the line. -/
def word (p : CStr) : Option (CStr × CStr) :=
  if ' ' ∈ p then some (p.takeWhile (· ≠ ' '), (p.dropWhile (· ≠ ' ')).tail) else none

/-- `strcpy` to a field of an entry. -/
def strcpy (size : ℕ) (t : CStr) : Option CStr := if t.length < size then some t else none

def behind (pat p : CStr) : Option CStr :=
  (strstr pat p).map fun found => (found.drop pat.length).dropWhile (· = ' ')

def devWord : CStr := "dev ".toList

def lladdrWord : CStr := "lladdr ".toList

/-- The MAC and the state. A line that ends the scan gives no entry. -/
def readMac (address interface p : CStr) : Option (Option COSA_DML_NEIGHTABLE_INFO) :=
  match behind lladdrWord p with
  | none => some none
  | some p => do
    let (mac, p) ← word p
    let mac ← strcpy 32 mac
    some ((status p).map fun s => ⟨address, mac, interface, s⟩)

def readInterface (address p : CStr) : Option (Option COSA_DML_NEIGHTABLE_INFO) :=
  match behind devWord p with
  | none => some none
  | some p => do
    let (interface, p) ← word p
    let interface ← strcpy 16 interface
    readMac address interface p

/-- One line. There is no result where something is written past the table or past a
field. -/
def readLine (counter : ℤ) (i : ℕ) (buf : CStr) :
    Option (Option COSA_DML_NEIGHTABLE_INFO) := do
  let (address, p) ← word buf
  if counter ≤ i then none
  else
    let address ← strcpy 64 address
    readInterface address p

def scan (counter : ℤ) (tbl : List COSA_DML_NEIGHTABLE_INFO) :
    List CStr → Option (List COSA_DML_NEIGHTABLE_INFO × List CStr)
  | [] => some (tbl, [])
  | buf :: bufs =>
    match readLine counter tbl.length buf with
    | none => none
    | some none => some (tbl, bufs)
    | some (some e) => scan counter (tbl ++ [e]) bufs

/-- The table for the two files. -/
def CosaDmlNeighborTableGetEntry (linenumber result : CStr) :
    Option (List COSA_DML_NEIGHTABLE_INFO × List CStr) :=
  let counter := atoi ((reads 127 linenumber).headD [])
  if counter ≤ 0 then some ([], reads 127 result)
  else scan counter [] (reads 127 result)

end Code

section Lines

structure Line where
  address : CStr
  interface : CStr
  lladdr : Option CStr
  router : Bool
  state : CStr

def routerText (router : Bool) : CStr := if router then "router ".toList else []

def lladdrText : Option CStr → CStr
  | some mac => lladdrWord ++ (mac ++ [' '])
  | none => []

def Line.text (l : Line) : CStr :=
  l.address ++ ' ' :: (devWord ++ (l.interface ++ ' ' :: (lladdrText l.lladdr ++
    (routerText l.router ++ l.state))))

def IsWord (t : CStr) : Prop := t ≠ [] ∧ ' ' ∉ t ∧ '\n' ∉ t

instance (t : CStr) : Decidable (IsWord t) := inferInstanceAs (Decidable (_ ∧ _ ∧ _))

/-- A line of words, which is shorter than 128 bytes with its end. -/
structure Line.WellFormed (l : Line) : Prop where
  address : IsWord l.address
  interface : IsWord l.interface
  lladdr : ∀ mac, l.lladdr = some mac → IsWord mac
  state : IsWord l.state
  short : l.text.length + 1 < 128

def resultFile (lines : List Line) : CStr := lines.flatMap fun l => l.text ++ ['\n']

def linenumberFile (lines : List Line) : CStr :=
  decimal (lines.countP fun l => l.lladdr.isSome) ++ ['\n']

def known (state : CStr) : Option NEIGHBOR_STATUS := statuses.find? fun s => statusName s = state

def Line.entry (l : Line) : Option COSA_DML_NEIGHTABLE_INFO :=
  l.lladdr.bind fun mac => (known l.state).map fun s => ⟨l.address, mac, l.interface, s⟩

/-- The table lists the lines that should give an entry, and none of these is left unread. -/
def ListsNeighbors (lines : List Line) : Prop :=
  ∃ unread, CosaDmlNeighborTableGetEntry (linenumberFile lines) (resultFile lines) =
      some (lines.filterMap Line.entry, unread.map fun l => l.text ++ ['\n']) ∧
    unread <:+ lines ∧ ∀ l ∈ unread, l.entry = none

def Line.FitsFields (l : Line) : Prop :=
  l.address.length < 64 ∧ l.interface.length < 16 ∧ ∀ mac, l.lladdr = some mac → mac.length < 32

instance (l : Line) : Decidable l.FitsFields :=
  inferInstanceAs (Decidable (_ ∧ _ ∧ ∀ mac, l.lladdr = some mac → mac.length < 32))

/-- A line that ends the scan: without an lladdr, or with a state in which no known one
occurs. -/
def Line.Ends (l : Line) : Prop := l.lladdr ≠ none → ∀ s, ¬ statusName s <:+: l.state

/-- The lines up to the first one that ends the scan are kept, there are no lines to keep
behind it, and it has an entry of the table to write to. -/
def Scanned (counter : ℤ) (lines : List Line) : Prop :=
  ∃ front rest, lines = front ++ rest ∧ (∀ l ∈ front, l.entry ≠ none ∧ l.FitsFields) ∧
    front.length ≤ counter ∧
    ∀ l ∈ rest.head?, l.Ends ∧ l.FitsFields ∧ front.length < counter ∧
      ∀ later ∈ rest, later.entry = none

end Lines

variable {e : COSA_DML_NEIGHTABLE_INFO} {t : CStr}

section Reading

variable {l : Line} {counter : ℤ} {i : ℕ}

theorem word_blank {a : CStr} (ha : ' ' ∉ a) (t : CStr) : word (a ++ ' ' :: t) = some (a, t) := by
  have hmem : ' ' ∈ a ++ ' ' :: t := List.mem_append_right a (List.mem_cons_self ..)
  have hall : ∀ c ∈ a, decide (c ≠ ' ') = true := by
    intro c hc
    rw [decide_eq_true_eq]
    rintro rfl
    exact ha hc
  rw [word, if_pos hmem, List.takeWhile_append_of_pos hall, List.dropWhile_append_of_pos hall]
  simp

theorem behind_here {pat t : CStr} (ht : t.head? ≠ some ' ') : behind pat (pat ++ t) = some t := by
  rw [behind, strstr_of_prefix (List.prefix_append pat t), Option.map_some, List.drop_left]
  cases t with
  | nil => rfl
  | cons c t =>
    have hc : ¬ c = ' ' := fun h => ht (congrArg some h)
    rw [List.dropWhile_cons_of_neg (by simpa using hc)]

theorem head_append {a : CStr} (ha : IsWord a) (t : CStr) : (a ++ t).head? ≠ some ' ' := by
  obtain ⟨hne, hblank, -⟩ := ha
  cases a with
  | nil => exact absurd rfl hne
  | cons c a =>
    intro h
    obtain rfl : c = ' ' := Option.some.inj h
    exact hblank (List.mem_cons_self ..)

theorem suffix_of_found {pat a t : CStr} (ha : ' ' ∉ a) (ht : ' ' ∉ t)
    (h : pat ++ [' '] <:+: a ++ ' ' :: t) : pat <:+ a := by
  obtain ⟨front, back, heq⟩ := h
  have hsplit : front ++ pat ++ ' ' :: back = a ++ ' ' :: t := by
    rw [← heq]
    simp only [List.append_assoc, List.singleton_append]
  rcases List.append_eq_append_iff.mp hsplit with ⟨more, hmore, hrest⟩ | ⟨more, hmore, hrest⟩
  · cases more with
    | nil => exact ⟨front, by rw [hmore, List.append_nil]⟩
    | cons c more =>
      obtain rfl : ' ' = c := (List.cons.inj hrest).1
      exact absurd (hmore ▸ List.mem_append_right _ (List.mem_cons_self ..)) ha
  · cases more with
    | nil => exact ⟨front, by rw [hmore, List.append_nil]⟩
    | cons c more =>
      have htail := (List.cons.inj hrest).2
      exact absurd (htail ▸ List.mem_append_right _ (List.mem_cons_self ..)) ht

theorem no_lladdr (hstate : IsWord l.state) :
    behind lladdrWord (routerText l.router ++ (l.state ++ ['\n'])) = none := by
  have hblank : ' ' ∉ l.state ++ ['\n'] := by
    intro h
    rcases List.mem_append.mp h with h | h
    · exact hstate.2.1 h
    · exact absurd h (by decide)
  have hno : ¬ lladdrWord <:+: routerText l.router ++ (l.state ++ ['\n']) := by
    intro h
    cases hrouter : l.router with
    | false =>
      rw [hrouter] at h
      exact hblank (List.IsInfix.subset h (by decide))
    | true =>
      rw [hrouter] at h
      exact absurd (@suffix_of_found "lladdr".toList "router".toList _ (by decide) hblank h)
        (by decide)
  cases hfound : strstr lladdrWord (routerText l.router ++ (l.state ++ ['\n'])) with
  | none => rw [behind, hfound, Option.map_none]
  | some t => exact absurd ((strstr_isSome _ _).mp (by rw [hfound]; rfl)) hno

theorem status_isSome_iff (s : NEIGHBOR_STATUS) :
    (strstr (statusName s) (routerText l.router ++ (l.state ++ ['\n']))).isSome ↔
      statusName s <:+: l.state := by
  have hne : statusName s ≠ [] := by cases s <;> decide
  have hblank : ' ' ∉ statusName s := by cases s <;> decide
  have hend : '\n' ∉ statusName s := by cases s <;> decide
  have hrouter : ¬ statusName s <:+: "router".toList := by cases s <;> decide
  have hline : statusName s <:+: l.state ++ ['\n'] ↔ statusName s <:+: l.state := by
    rw [infix_terminated_iff hne hend, or_iff_left]
    intro h
    exact hne (List.infix_nil.mp h)
  rw [strstr_isSome]
  cases l.router with
  | false => exact hline
  | true =>
    have hsplit : routerText true ++ (l.state ++ ['\n']) =
        "router".toList ++ ' ' :: (l.state ++ ['\n']) := rfl
    rw [hsplit, infix_terminated_iff hne hblank, or_iff_right hrouter, hline]

theorem status_none_iff :
    status (routerText l.router ++ (l.state ++ ['\n'])) = none ↔
      ∀ s, ¬ statusName s <:+: l.state := by
  rw [status, List.find?_eq_none]
  constructor
  · intro h s hs
    exact h s (by cases s <;> decide) ((@status_isSome_iff l s).mpr hs)
  · intro h s _ hs
    exact h s ((@status_isSome_iff l s).mp hs)

theorem status_known {s : NEIGHBOR_STATUS} (hs : known l.state = some s) :
    status (routerText l.router ++ (l.state ++ ['\n'])) = some s := by
  have hname : statusName s = l.state := by simpa using List.find?_some hs
  have hfound (t : NEIGHBOR_STATUS) := @status_isSome_iff l t
  have hsame : status (routerText l.router ++ (l.state ++ ['\n'])) =
      statuses.find? fun t => decide (statusName t <:+: l.state) := by
    rw [status]
    congr 1
    funext t
    exact Bool.eq_iff_iff.mpr ((hfound t).trans (decide_eq_true_iff).symm)
  rw [hsame, ← hname]
  cases s <;> decide

def Line.taken (l : Line) : Option COSA_DML_NEIGHTABLE_INFO :=
  l.lladdr.bind fun mac => (status (routerText l.router ++ (l.state ++ ['\n']))).map fun s =>
    ⟨l.address, mac, l.interface, s⟩

theorem strcpy_fits {size : ℕ} (h : t.length < size) : strcpy size t = some t :=
  if_pos h

theorem strcpy_long {size : ℕ} (h : ¬ t.length < size) : strcpy size t = none :=
  if_neg h

def Line.rest (l : Line) : CStr :=
  lladdrText l.lladdr ++ (routerText l.router ++ (l.state ++ ['\n']))

theorem text_end (l : Line) :
    l.text ++ ['\n'] = l.address ++ ' ' :: (devWord ++ (l.interface ++ ' ' :: l.rest)) := by
  simp only [Line.text, Line.rest, List.append_assoc, List.cons_append]

theorem readMac_eq (hwf : l.WellFormed) :
    readMac l.address l.interface l.rest =
      if ∀ mac, l.lladdr = some mac → mac.length < 32 then some l.taken else none := by
  cases hlladdr : l.lladdr with
  | none =>
    have hnone : behind lladdrWord l.rest = none := by
      rw [Line.rest, hlladdr]
      exact no_lladdr hwf.state
    rw [readMac, hnone, if_pos (fun mac h => absurd h.symm (Option.some_ne_none mac)), Line.taken,
      hlladdr]
    rfl
  | some mac =>
    have hword := hwf.lladdr mac hlladdr
    have hfound : behind lladdrWord l.rest =
        some (mac ++ ' ' :: (routerText l.router ++ (l.state ++ ['\n']))) := by
      have hsplit : l.rest =
          lladdrWord ++ (mac ++ ' ' :: (routerText l.router ++ (l.state ++ ['\n']))) := by
        simp only [Line.rest, hlladdr, lladdrText, List.append_assoc, List.singleton_append]
      rw [hsplit]
      exact behind_here (head_append hword _)
    rw [readMac, hfound]
    dsimp only
    rw [word_blank hword.2.1, Option.bind_eq_bind, Option.bind_some]
    dsimp only
    by_cases hlen : mac.length < 32
    · rw [strcpy_fits hlen, if_pos (fun m h => Option.some.inj h ▸ hlen), Line.taken, hlladdr]
      rfl
    · rw [strcpy_long hlen, if_neg (fun h => hlen (h mac rfl))]
      rfl

theorem readLine_eq (hwf : l.WellFormed) :
    readLine counter i (l.text ++ ['\n']) =
      if ¬ counter ≤ i ∧ l.FitsFields then some l.taken else none := by
  have hdev : behind devWord (devWord ++ (l.interface ++ ' ' :: l.rest)) =
      some (l.interface ++ ' ' :: l.rest) := behind_here (head_append hwf.interface _)
  rw [text_end, readLine, word_blank hwf.address.2.1, Option.bind_eq_bind, Option.bind_some]
  dsimp only
  by_cases hroom : counter ≤ i
  · rw [if_pos hroom, if_neg (fun h => h.1 hroom)]
  · rw [if_neg hroom]
    by_cases haddress : l.address.length < 64
    · rw [strcpy_fits haddress, Option.bind_eq_bind, Option.bind_some, readInterface, hdev]
      dsimp only
      rw [word_blank hwf.interface.2.1, Option.bind_eq_bind, Option.bind_some]
      dsimp only
      by_cases hinterface : l.interface.length < 16
      · rw [strcpy_fits hinterface, Option.bind_eq_bind, Option.bind_some, readMac_eq hwf]
        by_cases hmac : ∀ mac, l.lladdr = some mac → mac.length < 32
        · rw [if_pos hmac, if_pos ⟨hroom, haddress, hinterface, hmac⟩]
        · rw [if_neg hmac, if_neg (fun h => hmac h.2.2.2)]
      · rw [strcpy_long hinterface, if_neg (fun h => hinterface h.2.2.1)]
        rfl
    · rw [strcpy_long haddress, if_neg (fun h => haddress h.2.1)]
      rfl

theorem taken_none_iff (l : Line) : l.taken = none ↔ l.Ends := by
  rw [Line.taken, Line.Ends]
  cases l.lladdr with
  | none => exact iff_of_true rfl (fun h => absurd rfl h)
  | some mac =>
    rw [Option.bind_some, Option.map_eq_none_iff, status_none_iff]
    exact ⟨fun h _ => h, fun h => h (Option.some_ne_none mac)⟩

theorem taken_of_entry (he : l.entry = some e) :
    l.taken = some e := by
  rw [Line.entry] at he
  rw [Line.taken]
  cases hlladdr : l.lladdr with
  | none =>
    rw [hlladdr] at he
    cases he
  | some mac =>
    rw [hlladdr, Option.bind_some] at he
    obtain ⟨s, hs, heq⟩ := Option.map_eq_some_iff.mp he
    rw [Option.bind_some, status_known hs, Option.map_some, heq]

end Reading

section Scanning

variable {counter : ℤ} {tbl : List COSA_DML_NEIGHTABLE_INFO} {lines : List Line} {l : Line}

def Line.buf (l : Line) : CStr := l.text ++ ['\n']

def ScansFrom (counter : ℤ) (tbl : List COSA_DML_NEIGHTABLE_INFO) (lines : List Line) : Prop :=
  ∃ unread, scan counter tbl (lines.map Line.buf) =
      some (tbl ++ lines.filterMap Line.entry, unread.map Line.buf) ∧
    unread <:+ lines ∧ ∀ l ∈ unread, l.entry = none

theorem scan_stop (hwf : l.WellFormed) (h : ¬ (¬ counter ≤ tbl.length ∧ l.FitsFields)) :
    scan counter tbl ((l :: lines).map Line.buf) = none := by
  rw [List.map_cons, scan, Line.buf, readLine_eq hwf, if_neg h]

theorem scan_end (hwf : l.WellFormed) (h : ¬ counter ≤ tbl.length ∧ l.FitsFields)
    (hends : l.Ends) :
    scan counter tbl ((l :: lines).map Line.buf) = some (tbl, lines.map Line.buf) := by
  rw [List.map_cons, scan, Line.buf, readLine_eq hwf, if_pos h, (taken_none_iff l).mpr hends]

theorem scan_take (hwf : l.WellFormed) (h : ¬ counter ≤ tbl.length ∧ l.FitsFields)
    (he : l.taken = some e) :
    scan counter tbl ((l :: lines).map Line.buf) =
      scan counter (tbl ++ [e]) (lines.map Line.buf) := by
  rw [List.map_cons, scan, Line.buf, readLine_eq hwf, if_pos h, he]

theorem scan_count (hwf : ∀ l ∈ lines, l.WellFormed) {res : List COSA_DML_NEIGHTABLE_INFO}
    {unread : List CStr} (h : scan counter tbl (lines.map Line.buf) = some (res, unread)) :
    ∃ left, unread = left.map Line.buf ∧ left <:+ lines ∧
      tbl.length + (lines.filterMap Line.entry).length ≤
        res.length + (left.filterMap Line.entry).length := by
  induction lines generalizing tbl with
  | nil =>
    obtain ⟨rfl, rfl⟩ := Prod.mk.inj (Option.some.inj h)
    exact ⟨[], rfl, List.suffix_refl _, le_refl _⟩
  | cons l lines ih =>
    have hl := hwf l (List.mem_cons_self ..)
    have hlater : ∀ l ∈ lines, l.WellFormed := fun l h => hwf l (List.mem_cons_of_mem _ h)
    by_cases hread : ¬ counter ≤ tbl.length ∧ l.FitsFields
    · cases htaken : l.taken with
      | none =>
        have hentry : l.entry = none := by
          cases he : l.entry with
          | none => rfl
          | some e => exact absurd (htaken.symm.trans (taken_of_entry he)) (by simp)
        rw [scan_end hl hread ((taken_none_iff l).mp htaken)] at h
        obtain ⟨rfl, rfl⟩ := Prod.mk.inj (Option.some.inj h)
        refine ⟨lines, rfl, List.suffix_cons _ _, ?_⟩
        rw [List.filterMap_cons_none hentry]
      | some e =>
        rw [scan_take hl hread htaken] at h
        obtain ⟨left, hunread, hleft, hcount⟩ := ih hlater h
        refine ⟨left, hunread, hleft.trans (List.suffix_cons _ _), ?_⟩
        rw [List.length_append, List.length_singleton] at hcount
        cases he : l.entry with
        | none =>
          rw [List.filterMap_cons_none he]
          omega
        | some e' =>
          rw [List.filterMap_cons_some he, List.length_cons]
          omega
    · rw [scan_stop hl hread] at h
      cases h

theorem scanned_cons_kept (c : ℤ) (hkept : l.entry ≠ none) (hends : ¬ l.Ends) :
    Scanned c (l :: lines) ↔ l.FitsFields ∧ Scanned (c - 1) lines := by
  constructor
  · intro h
    obtain ⟨front, rest, heq, hfront, hroom, hrest⟩ := h
    cases front with
    | nil =>
      rw [List.nil_append] at heq
      subst heq
      exact absurd (hrest l rfl).1 hends
    | cons l' front =>
      obtain ⟨rfl, rfl⟩ := List.cons.inj heq
      rw [List.length_cons, Nat.cast_succ] at hroom hrest
      refine ⟨(hfront l (List.mem_cons_self ..)).2, front, rest, rfl,
        fun l h => hfront l (List.mem_cons_of_mem _ h), by omega, fun l h => ?_⟩
      obtain ⟨hl, hfits, hlt, hlater⟩ := hrest l h
      exact ⟨hl, hfits, by omega, hlater⟩
  · intro h
    obtain ⟨hfits, front, rest, rfl, hfront, hroom, hrest⟩ := h
    refine ⟨l :: front, rest, rfl, fun l' h => ?_, ?_, fun l h => ?_⟩
    · rcases List.mem_cons.mp h with rfl | h
      · exact ⟨hkept, hfits⟩
      · exact hfront l' h
    · rw [List.length_cons, Nat.cast_succ]
      omega
    · obtain ⟨hl, hfits, hlt, hlater⟩ := hrest l h
      rw [List.length_cons, Nat.cast_succ]
      exact ⟨hl, hfits, by omega, hlater⟩

theorem scanned_cons_other (c : ℤ) (hnone : l.entry = none) :
    Scanned c (l :: lines) ↔ l.Ends ∧ l.FitsFields ∧ 0 < c ∧ ∀ l ∈ lines, l.entry = none := by
  constructor
  · intro h
    obtain ⟨front, rest, heq, hfront, hroom, hrest⟩ := h
    cases front with
    | nil =>
      rw [List.nil_append] at heq
      subst heq
      obtain ⟨hl, hfits, hlt, hlater⟩ := hrest l rfl
      exact ⟨hl, hfits, hlt, fun l h => hlater l (List.mem_cons_of_mem _ h)⟩
    | cons l' front =>
      obtain ⟨rfl, -⟩ := List.cons.inj heq
      exact absurd hnone (hfront l (List.mem_cons_self ..)).1
  · intro h
    obtain ⟨hends, hfits, hroom, hlater⟩ := h
    refine ⟨[], l :: lines, rfl, fun l h => absurd h (by simp), hroom.le, fun l' h => ?_⟩
    obtain rfl : l = l' := Option.some.inj h
    refine ⟨hends, hfits, hroom, fun later h => ?_⟩
    rcases List.mem_cons.mp h with rfl | h
    · exact hnone
    · exact hlater later h

theorem scanned_nonneg {c : ℤ} (h : Scanned c lines) : 0 ≤ c := by
  obtain ⟨front, rest, -, -, hroom, -⟩ := h
  omega

theorem suffix_eq {a b : List Line} (ha : a <:+ lines) (hb : b <:+ lines)
    (hsame : a.map Line.buf = b.map Line.buf) : a = b := by
  have hlen : a.length = b.length := by
    have h := congrArg List.length hsame
    rwa [List.length_map, List.length_map] at h
  exact (List.suffix_of_suffix_length_le ha hb hlen.le).eq_of_length hlen

theorem not_scansFrom (h : scan counter tbl (lines.map Line.buf) = none) :
    ¬ ScansFrom counter tbl lines := by
  intro hscan
  obtain ⟨unread, hsome, -⟩ := hscan
  rw [h] at hsome
  cases hsome

theorem scansFrom_kept (hwf : ∀ l' ∈ l :: lines, l'.WellFormed) (he : l.entry = some e)
    (hread : ¬ counter ≤ tbl.length ∧ l.FitsFields) :
    ScansFrom counter tbl (l :: lines) ↔ ScansFrom counter (tbl ++ [e]) lines := by
  have hl := hwf l (List.mem_cons_self ..)
  have htable : tbl ++ (l :: lines).filterMap Line.entry =
      tbl ++ [e] ++ lines.filterMap Line.entry := by
    rw [List.filterMap_cons_some he, List.append_assoc, List.singleton_append]
  rw [ScansFrom, ScansFrom, scan_take hl hread (taken_of_entry he), htable]
  constructor
  · intro h
    obtain ⟨unread, hscan, hsuffix, hnone⟩ := h
    rcases List.suffix_cons_iff.mp hsuffix with rfl | hsuffix
    · have hlnone := hnone l (List.mem_cons_self ..)
      rw [he] at hlnone
      cases hlnone
    · exact ⟨unread, hscan, hsuffix, hnone⟩
  · intro h
    obtain ⟨unread, hscan, hsuffix, hnone⟩ := h
    exact ⟨unread, hscan, hsuffix.trans (List.suffix_cons _ _), hnone⟩

theorem scansFrom_other (hwf : ∀ l' ∈ l :: lines, l'.WellFormed) (he : l.entry = none)
    (hread : ¬ counter ≤ tbl.length ∧ l.FitsFields) :
    ScansFrom counter tbl (l :: lines) ↔ l.Ends ∧ ∀ l ∈ lines, l.entry = none := by
  have hl := hwf l (List.mem_cons_self ..)
  have hlater : ∀ l' ∈ lines, l'.WellFormed := fun l' h => hwf l' (List.mem_cons_of_mem _ h)
  cases htaken : l.taken with
  | none =>
    have hends := (taken_none_iff l).mp htaken
    rw [and_iff_right hends, ScansFrom, scan_end hl hread hends, List.filterMap_cons_none he]
    constructor
    · intro h
      obtain ⟨unread, hscan, -⟩ := h
      have htable := (Prod.mk.inj (Option.some.inj hscan)).1
      have hnil := List.append_right_eq_self.mp htable.symm
      exact fun l h => List.filterMap_eq_nil_iff.mp hnil l h
    · intro hnone
      refine ⟨lines, ?_, List.suffix_cons _ _, hnone⟩
      rw [List.filterMap_eq_nil_iff.mpr hnone, List.append_nil]
  | some e =>
    have hends : ¬ l.Ends := fun h => by
      rw [(taken_none_iff l).mpr h] at htaken
      cases htaken
    refine iff_of_false ?_ (fun h => hends h.1)
    intro h
    obtain ⟨unread, hscan, hsuffix, hnone⟩ := h
    rw [scan_take hl hread htaken, List.filterMap_cons_none he] at hscan
    obtain ⟨left, hsame, hleft, hcount⟩ := scan_count hlater hscan
    obtain rfl := suffix_eq hsuffix (hleft.trans (List.suffix_cons _ _)) hsame
    rw [List.filterMap_eq_nil_iff.mpr hnone] at hcount
    simp only [List.length_append, List.length_singleton, List.length_nil] at hcount
    omega

theorem scansFrom_iff (hwf : ∀ l ∈ lines, l.WellFormed) (hroom : (tbl.length : ℤ) ≤ counter) :
    ScansFrom counter tbl lines ↔ Scanned (counter - tbl.length) lines := by
  induction lines generalizing tbl with
  | nil =>
    refine iff_of_true ⟨[], ?_, List.suffix_refl _, by simp⟩ ⟨[], [], rfl, by simp, ?_, by simp⟩
    · rw [List.filterMap_nil, List.append_nil]
      rfl
    · rw [List.length_nil]
      omega
  | cons l lines ih =>
    have hlater : ∀ l ∈ lines, l.WellFormed := fun l h => hwf l (List.mem_cons_of_mem _ h)
    have hstop (h : ¬ (¬ counter ≤ tbl.length ∧ l.FitsFields)) :
        ¬ ScansFrom counter tbl (l :: lines) :=
      not_scansFrom (scan_stop (hwf l (List.mem_cons_self ..)) h)
    cases he : l.entry with
    | none =>
      rw [scanned_cons_other _ he]
      by_cases hread : ¬ counter ≤ tbl.length ∧ l.FitsFields
      · rw [scansFrom_other hwf he hread]
        exact ⟨fun h => ⟨h.1, hread.2, by omega, h.2⟩, fun h => ⟨h.1, h.2.2.2⟩⟩
      · refine iff_of_false (hstop hread) (fun h => hread ⟨?_, h.2.1⟩)
        have hlt := h.2.2.1
        omega
    | some e =>
      have hends : ¬ l.Ends := fun h => by
        have hnone := (taken_none_iff l).mpr h
        rw [taken_of_entry he] at hnone
        cases hnone
      have hkept : l.entry ≠ none := by
        rw [he]
        exact Option.some_ne_none e
      rw [scanned_cons_kept _ hkept hends]
      by_cases hread : ¬ counter ≤ tbl.length ∧ l.FitsFields
      · have hnext : ((tbl ++ [e]).length : ℤ) = tbl.length + 1 := by
          rw [List.length_append, List.length_singleton, Nat.cast_add, Nat.cast_one]
        rw [scansFrom_kept hwf he hread, ih hlater (by omega), hnext, and_iff_right hread.2,
          sub_add_eq_sub_sub]
      · refine iff_of_false (hstop hread) (fun h => hread ⟨?_, h.1⟩)
        have hnonneg := scanned_nonneg h.2
        omega

end Scanning

section Files

variable {lines : List Line}

theorem newline_not_mem (ht : IsWord t) : '\n' ∉ t := ht.2.2

theorem newline_not_mem_text {l : Line} (hwf : l.WellFormed) : '\n' ∉ l.text := by
  have haddress := newline_not_mem hwf.address
  have hinterface := newline_not_mem hwf.interface
  have hstate := newline_not_mem hwf.state
  have hdev : '\n' ∉ devWord := by decide
  have hrouter : '\n' ∉ routerText l.router := by cases l.router <;> decide
  have hlladdr : '\n' ∉ lladdrText l.lladdr := by
    cases hmac : l.lladdr with
    | none => exact List.not_mem_nil
    | some mac =>
      have hword := newline_not_mem (hwf.lladdr mac hmac)
      have hname : '\n' ∉ lladdrWord := by decide
      simp [lladdrText, hword, hname]
  simp [Line.text, haddress, hinterface, hstate, hdev, hrouter, hlladdr]

theorem reads_resultFile (hwf : ∀ l ∈ lines, l.WellFormed) :
    reads 127 (resultFile lines) = lines.map Line.buf := by
  induction lines with
  | nil => rfl
  | cons l lines ih =>
    have hl := hwf l (List.mem_cons_self ..)
    have hshort := hl.short
    have hfile : resultFile (l :: lines) = l.text ++ '\n' :: resultFile lines := by
      simp only [resultFile, List.flatMap_cons, List.append_assoc, List.singleton_append]
    rw [hfile, reads_line (newline_not_mem_text hl) (by omega), List.map_cons, Line.buf,
      ih (fun l h => hwf l (List.mem_cons_of_mem _ h))]

def counterOf (lines : List Line) : ℤ := atoi ((reads 127 (linenumberFile lines)).headD [])

end Files

/-- When the table lists the neighbours: where nothing is counted and nothing is to list, or
where the scan is not ended early and everything it writes fits. -/
theorem listsNeighbors_iff (lines : List Line) (hwf : ∀ l ∈ lines, l.WellFormed) :
    ListsNeighbors lines ↔
      (counterOf lines ≤ 0 ∧ ∀ l ∈ lines, l.entry = none) ∨
        (0 < counterOf lines ∧ Scanned (counterOf lines) lines) := by
  by_cases hcounter : counterOf lines ≤ 0
  · rw [or_iff_left (fun h => absurd h.1 (by omega)), and_iff_right hcounter]
    have hnone : CosaDmlNeighborTableGetEntry (linenumberFile lines) (resultFile lines) =
        some ([], lines.map Line.buf) := by
      rw [CosaDmlNeighborTableGetEntry, reads_resultFile hwf]
      exact if_pos hcounter
    rw [ListsNeighbors, hnone]
    constructor
    · intro h
      obtain ⟨unread, hsome, -⟩ := h
      have hnil := (Prod.mk.inj (Option.some.inj hsome)).1
      exact List.filterMap_eq_nil_iff.mp hnil.symm
    · intro hall
      refine ⟨lines, ?_, List.suffix_refl _, hall⟩
      rw [List.filterMap_eq_nil_iff.mpr hall]
      rfl
  · rw [or_iff_right (fun h => hcounter h.1), and_iff_right (by omega)]
    have hscan : CosaDmlNeighborTableGetEntry (linenumberFile lines) (resultFile lines) =
        scan (counterOf lines) [] (lines.map Line.buf) := by
      rw [CosaDmlNeighborTableGetEntry, reads_resultFile hwf]
      exact if_neg hcounter
    have hfrom := @scansFrom_iff (counterOf lines) [] lines hwf (by
      rw [List.length_nil, Nat.cast_zero]
      omega)
    rw [List.length_nil, Nat.cast_zero, sub_zero] at hfrom
    rw [ListsNeighbors, hscan, ← hfrom]
    rfl

def stale : Line where
  address := "fe80::1".toList
  interface := "brlan0".toList
  lladdr := some "3c:97:0e:44:50:95".toList
  router := false
  state := "STALE".toList

def failed : Line where
  address := "fe80::2".toList
  interface := "brlan0".toList
  lladdr := none
  router := false
  state := "FAILED".toList

theorem wellFormed_pair : ∀ l ∈ [failed, stale], l.WellFormed := by
  intro l hl
  rcases List.mem_pair.mp hl with rfl | rfl
  · exact ⟨by decide, by decide, fun mac h => absurd h.symm (Option.some_ne_none mac), by decide,
      by decide⟩
  · refine ⟨by decide, by decide, fun mac h => ?_, by decide, by decide⟩
    rw [← Option.some.inj h]
    decide

theorem listsNeighbors_pair :
    ListsNeighbors [failed, stale] ↔
      (counterOf [failed, stale] ≤ 0 ∧ ∀ l ∈ [failed, stale], l.entry = none) ∨
        (0 < counterOf [failed, stale] ∧ Scanned (counterOf [failed, stale]) [failed, stale]) :=
  listsNeighbors_iff _ wellFormed_pair

/-- A line without an lladdr hides the lines behind it. -/
theorem failed_ends_scan : ¬ ListsNeighbors [failed, stale] := by
  intro h
  obtain ⟨unread, hsome, -⟩ := h
  have htable := congrArg (Option.map fun r => r.1.length) hsome
  have hempty : (CosaDmlNeighborTableGetEntry (linenumberFile [failed, stale])
      (resultFile [failed, stale])).map (fun r => r.1.length) = some 0 := by decide
  have hone : ([failed, stale].filterMap Line.entry).length = 1 := by decide
  rw [hempty, Option.map_some] at htable
  exact absurd ((Option.some.inj htable).trans hone) (by decide)

end CcspPandM.NeighborTable
