import CcspPandM.FgetsLines
import CcspPandM.Ipv6Text
import CcspPandM.TextSearch

/-!
The active ports of a saved `netstat` listing. A line has three columns that are
passed over, the local and the remote address with its port, and a state. An
address is cut at its last colon, which is searched only where a second colon
stands in the column. None stands for an access outside a buffer or the line.
-/
namespace CcspPandM.ActivePorts

open CString FgetsLines InetText Ipv6Text PrefixText ScanText TextSearch

section Code

inductive COSA_DML_IP_PORT_STATUS where
  | zero
  | Listen
  | Established
  deriving DecidableEq

/-- The address fields are the bytes that were copied to them. -/
structure COSA_DML_IP_ACTIVE_PORT where
  LocalIPAddress : CStr
  RemoteIPAddress : CStr
  LocalPort : BitVec 16
  RemotePort : BitVec 16
  Status : COSA_DML_IP_PORT_STATUS
  deriving DecidableEq

def COSA_DML_IPV6_ADDR_LENGTH : ℕ := 128

def sizeofEntry : ℕ := 264

def established : CStr := "ESTABLISHED".toList

def listen : CStr := "LISTEN".toList

def word (t : CStr) : CStr := t.takeWhile (· ≠ ' ')

def skip (t : CStr) : CStr := (t.dropWhile (· ≠ ' ')).dropWhile (· = ' ')

/-- The digits that `atoi` reads end before the text does. -/
def atoiStops (t : CStr) : Bool :=
  match t.dropWhile isspace with
  | '-' :: rest => !rest.all Char.isDigit
  | '+' :: rest => !rest.all Char.isDigit
  | rest => !rest.all Char.isDigit

/-- The port in a text that is copied to `ucTempBuf`. -/
def portOf (t : CStr) : Option (BitVec 16) :=
  if t.length < 128 ∨ t.length = 128 ∧ atoiStops t = true then
    some (BitVec.ofInt 16 (atoi t))
  else none

/-- `ulSubLength` for the address, from the first colon of the line left or from the last
one of the column. -/
def subLength (pBegin : CStr) : Option ℕ :=
  let ulLength := (word pBegin).length
  let pEnd := pBegin.idxOf ':'
  let pEnd2 := pEnd + 1 + (pBegin.drop (pEnd + 1)).idxOf ':'
  if ':' ∈ pBegin.drop (pEnd + 1) ∧ pEnd2 < ulLength then
    if ulLength < 128 then (afterLast ':' (word pBegin) ulLength).map (· - 1) else none
  else some pEnd

/-- What is stored for a column, nothing where the line left has no colon. -/
def column (pBegin : CStr) : Option (Option (CStr × BitVec 16)) :=
  let ulLength := (word pBegin).length
  if ':' ∉ pBegin then some none
  else
    match subLength pBegin with
    | none => none
    | some ulSubLength =>
      -- Behind the end of the column the length of the port wraps.
      if COSA_DML_IPV6_ADDR_LENGTH < ulSubLength ∨ ulLength < ulSubLength + 1 then none
      else (portOf ((pBegin.drop (ulSubLength + 1)).take (ulLength - ulSubLength - 1))).map
        fun port => some (pBegin.take ulSubLength, port)

def statusOf (pBegin : CStr) : COSA_DML_IP_PORT_STATUS :=
  if strneq pBegin established (word pBegin).length then .Established
  else if strneq pBegin listen (word pBegin).length then .Listen
  else .zero

def activePort (ucLineBuf : CStr) : Option COSA_DML_IP_ACTIVE_PORT :=
  let pBegin := skip (skip (skip (ucLineBuf.takeWhile (· ≠ '\x00'))))
  match column pBegin, column (skip pBegin) with
  | some loc, some rem => some
    { LocalIPAddress := (loc.map Prod.fst).getD []
      RemoteIPAddress := (rem.map Prod.fst).getD []
      LocalPort := (loc.map Prod.snd).getD 0
      RemotePort := (rem.map Prod.snd).getD 0
      Status := statusOf (skip (skip pBegin)) }
  | _, _ => none

def allocated (ulCount : ℕ) : ℕ := sizeofEntry * ulCount % 2 ^ 32 / sizeofEntry

/-- The second pass; the lines have `room` entries left to be stored in. -/
def fill (room : ℕ) : List CStr → Option (List COSA_DML_IP_ACTIVE_PORT)
  | [] => some []
  | line :: lines =>
    if room = 0 then none
    else
      match activePort line, fill (room - 1) lines with
      | some e, some es => some (e :: es)
      | _, _ => none

/-- `pFile` is none where the file does not open. -/
def CosaDmlIpGetActivePorts (pFile : Option CStr) : Option (List COSA_DML_IP_ACTIVE_PORT) :=
  match pFile with
  | none => some []
  | some file => fill (allocated (reads 255 file).length) (reads 255 file)

end Code

section Purpose

/-- What is copied for a column and read back of it stays inside. -/
def ColumnFits (pBegin : CStr) : Prop :=
  ':' ∉ pBegin ∨ ∃ addr port, word pBegin = addr ++ ':' :: port ∧ ':' ∉ port ∧
    addr.length ≤ 128 ∧ (':' ∈ addr → (word pBegin).length < 128) ∧
      (port.length < 128 ∨ port.length = 128 ∧ atoiStops port = true)

def LineFits (line : CStr) : Prop :=
  let pBegin := skip (skip (skip (line.takeWhile (· ≠ '\x00'))))
  ColumnFits pBegin ∧ ColumnFits (skip pBegin)

structure Word where
  text : CStr
  hne : text ≠ []
  hchars : ' ' ∉ text ∧ '\n' ∉ text ∧ '\x00' ∉ text

/-- An address with its port, none standing for `*`. -/
structure Endpoint where
  addr : CStr
  port : Option ℕ
  haddr : (inet_pton4 addr).isSome ∨ (inet_pton6 addr).isSome

namespace Endpoint

def portText (e : Endpoint) : CStr :=
  match e.port with
  | none => ['*']
  | some n => decimal n

def text (e : Endpoint) : CStr := e.addr ++ ':' :: e.portText

end Endpoint

inductive State where
  | established
  | listen

namespace State

def text : State → CStr
  | established => ActivePorts.established
  | listen => ActivePorts.listen

def status : State → COSA_DML_IP_PORT_STATUS
  | established => .Established
  | listen => .Listen

end State

def padded (t : CStr) (gap : ℕ) (rest : CStr) : CStr := t ++ ' ' :: (List.replicate gap ' ' ++ rest)

def lineText (lead : Word × Word × Word) (loc rem : Endpoint) (state : State)
    (gaps : ℕ × ℕ × ℕ × ℕ × ℕ) (trail : ℕ) : CStr :=
  padded lead.1.text gaps.1 (padded lead.2.1.text gaps.2.1 (padded lead.2.2.text gaps.2.2.1
    (padded loc.text gaps.2.2.2.1 (padded rem.text gaps.2.2.2.2
      (state.text ++ List.replicate trail ' ')))))

structure Line where
  lead : Word × Word × Word
  loc : Endpoint
  rem : Endpoint
  state : State
  gaps : ℕ × ℕ × ℕ × ℕ × ℕ
  trail : ℕ
  hfit : (lineText lead loc rem state gaps trail).length < 255

def Line.text (l : Line) : CStr := lineText l.lead l.loc l.rem l.state l.gaps l.trail

def listing (ls : List Line) : CStr := ls.flatMap fun l => l.text ++ ['\n']

structure Shows (l : Line) (e : COSA_DML_IP_ACTIVE_PORT) : Prop where
  localAddress : e.LocalIPAddress = l.loc.addr ∧ l.loc.addr.length < COSA_DML_IPV6_ADDR_LENGTH
  remoteAddress : e.RemoteIPAddress = l.rem.addr ∧ l.rem.addr.length < COSA_DML_IPV6_ADDR_LENGTH
  localPort : e.LocalPort.toNat = l.loc.port.getD 0
  remotePort : e.RemotePort.toNat = l.rem.port.getD 0
  status : e.Status = l.state.status

def Line.Served (l : Line) : Prop :=
  0 < l.trail ∧ l.loc.port.getD 0 < 2 ^ 16 ∧ l.rem.port.getD 0 < 2 ^ 16

end Purpose

variable {t : CStr}

section Columns

theorem word_append {t rest : CStr} (ht : ' ' ∉ t) (hrest : ∀ c ∈ rest.head?, c = ' ') :
    word (t ++ rest) = t := by
  refine (ScanFields.takeWhile_field ?_ ?_).1
  · intro c hc
    rw [decide_eq_true_eq]
    rintro rfl
    exact ht hc
  · intro c hc
    rw [hrest c hc]
    rfl

theorem exists_rest (t : CStr) : ∃ rest, t = word t ++ rest ∧ ' ' ∉ word t ∧
    ∀ c ∈ rest.head?, c = ' ' := by
  refine ⟨t.dropWhile (· ≠ ' '), List.takeWhile_append_dropWhile.symm, ?_, ?_⟩
  · intro hmem
    have hne := List.mem_takeWhile_imp hmem
    rw [decide_eq_true_eq] at hne
    exact hne rfl
  · intro c hc
    have hhead := List.head?_dropWhile_not (fun c : Char => decide (c ≠ ' ')) t
    rw [Option.mem_def.mp hc] at hhead
    simpa using hhead

theorem portOf_isSome_iff (t : CStr) :
    (portOf t).isSome ↔ t.length < 128 ∨ t.length = 128 ∧ atoiStops t = true := by
  rw [portOf]
  split
  · next h => exact iff_of_true rfl h
  · next h => exact iff_of_false Bool.false_ne_true h

theorem subLength_far (hword : ':' ∉ word t) : subLength t = some (t.idxOf ':') := by
  obtain ⟨rest, ht, -, -⟩ := exists_rest t
  have hfar : (word t).length ≤ t.idxOf ':' := by
    conv_rhs => rw [ht]
    rw [List.idxOf_append_of_notMem hword]
    omega
  simp only [subLength]
  rw [if_neg]
  omega

theorem column_far (hcolon : ':' ∈ t) (hword : ':' ∉ word t) : column t = none := by
  obtain ⟨rest, ht, -, -⟩ := exists_rest t
  have hfar : (word t).length ≤ t.idxOf ':' := by
    conv_rhs => rw [ht]
    rw [List.idxOf_append_of_notMem hword]
    omega
  simp only [column]
  rw [if_neg (not_not.mpr hcolon), subLength_far hword]
  dsimp only
  rw [if_pos (Or.inr (by omega))]

theorem idxOf_first {a : CStr} (ha : ':' ∉ a) (t : CStr) :
    (a ++ ':' :: t).idxOf ':' = a.length := by
  rw [List.idxOf_append_of_notMem ha, List.idxOf_cons_self, Nat.add_zero]

theorem subLength_colon {addr port rest : CStr} (hport : ':' ∉ port)
    (hword : word (addr ++ ':' :: (port ++ rest)) = addr ++ ':' :: port) :
    subLength (addr ++ ':' :: (port ++ rest)) =
      if ':' ∈ addr ∧ 128 ≤ (addr ++ ':' :: port).length then none else some addr.length := by
  have hlen : (addr ++ ':' :: port).length = addr.length + 1 + port.length := by
    rw [List.length_append, List.length_cons]
    omega
  simp only [subLength]
  rw [hword]
  by_cases haddr : ':' ∈ addr
  · obtain ⟨front, back, rfl, hfront⟩ := List.eq_append_cons_of_mem haddr
    have hfirst : (front ++ ':' :: back ++ ':' :: (port ++ rest)).idxOf ':' = front.length := by
      rw [List.append_assoc, List.cons_append, idxOf_first hfront]
    have hdrop : (front ++ ':' :: back ++ ':' :: (port ++ rest)).drop (front.length + 1) =
        back ++ ':' :: (port ++ rest) := by
      rw [List.append_assoc, List.cons_append, List.append_cons, List.drop_left' (by simp)]
    have hmem : ':' ∈ back ++ ':' :: (port ++ rest) :=
      List.mem_append_right _ List.mem_cons_self
    have hsecond : (back ++ ':' :: (port ++ rest)).idxOf ':' ≤ back.length := by
      by_cases hback : ':' ∈ back
      · rw [List.idxOf_append_of_mem hback]
        exact (List.idxOf_lt_length_of_mem hback).le
      · rw [idxOf_first hback]
    have hlast := afterLast_append hport (front ++ ':' :: back)
    have hback : (front ++ ':' :: back).length = front.length + 1 + back.length := by
      rw [List.length_append, List.length_cons]
      omega
    rw [hfirst, hdrop, if_pos ⟨hmem, by omega⟩, hlast]
    by_cases hfit : (front ++ ':' :: back ++ ':' :: port).length < 128
    · rw [if_pos hfit, if_neg fun h => absurd hfit (Nat.not_lt.mpr h.2)]
      rfl
    · rw [if_neg hfit, if_pos ⟨haddr, Nat.le_of_not_lt hfit⟩]
  · have hdrop : (addr ++ ':' :: (port ++ rest)).drop (addr.length + 1) = port ++ rest := by
      rw [List.append_cons, List.drop_left' (by simp)]
    have hsecond : port.length ≤ (port ++ rest).idxOf ':' := by
      rw [List.idxOf_append_of_notMem hport]
      omega
    rw [idxOf_first haddr, hdrop, if_neg (by omega), if_neg fun h => haddr h.1]

theorem column_colon {addr port rest : CStr} (hport : ':' ∉ port)
    (hword : word (addr ++ ':' :: (port ++ rest)) = addr ++ ':' :: port) :
    column (addr ++ ':' :: (port ++ rest)) =
      if addr.length ≤ 128 ∧ (':' ∈ addr → (addr ++ ':' :: port).length < 128) then
        (portOf port).map fun n => some (addr, n)
      else none := by
  have hlen : (addr ++ ':' :: port).length = addr.length + 1 + port.length := by
    rw [List.length_append, List.length_cons]
    omega
  have hmem : ':' ∈ addr ++ ':' :: (port ++ rest) := List.mem_append_right _ List.mem_cons_self
  have hdrop : (addr ++ ':' :: (port ++ rest)).drop (addr.length + 1) = port ++ rest := by
    rw [List.append_cons, List.drop_left' (by simp)]
  have hleft : addr.length + 1 + port.length - addr.length - 1 = port.length := by omega
  simp only [column]
  rw [if_neg (not_not.mpr hmem), subLength_colon hport hword, hword]
  by_cases hlong : ':' ∈ addr ∧ 128 ≤ (addr ++ ':' :: port).length
  · have hnot : ¬(addr.length ≤ 128 ∧ (':' ∈ addr → (addr ++ ':' :: port).length < 128)) := by
      intro h
      exact absurd (h.2 hlong.1) (Nat.not_lt.mpr hlong.2)
    rw [if_pos hlong, if_neg hnot]
  · have hshort : ':' ∈ addr → (addr ++ ':' :: port).length < 128 := fun h =>
      Nat.lt_of_not_le fun hle => hlong ⟨h, hle⟩
    rw [if_neg hlong]
    dsimp only
    rw [hdrop, hlen, hleft, List.take_left, List.take_left]
    by_cases hfit : addr.length ≤ 128
    · have hin : ¬(COSA_DML_IPV6_ADDR_LENGTH < addr.length ∨
          addr.length + 1 + port.length < addr.length + 1) := by
        rw [COSA_DML_IPV6_ADDR_LENGTH]
        omega
      rw [if_neg hin, if_pos ⟨hfit, hlen ▸ hshort⟩]
    · have hout : COSA_DML_IPV6_ADDR_LENGTH < addr.length := Nat.lt_of_not_le hfit
      rw [if_pos (Or.inl hout), if_neg fun h => hfit h.1]

theorem column_of_word {pBegin addr port : CStr} (hword : word pBegin = addr ++ ':' :: port)
    (hport : ':' ∉ port) :
    column pBegin =
      if addr.length ≤ 128 ∧ (':' ∈ addr → (word pBegin).length < 128) then
        (portOf port).map fun n => some (addr, n)
      else none := by
  obtain ⟨rest, hsplit, -, -⟩ := exists_rest pBegin
  have htext : pBegin = addr ++ ':' :: (port ++ rest) := by
    rw [hsplit, hword, List.append_assoc, List.cons_append]
  have hcut := hword
  rw [htext] at hcut
  have h := column_colon hport hcut
  rwa [← htext, ← hword] at h

theorem column_isSome_iff (pBegin : CStr) : (column pBegin).isSome ↔ ColumnFits pBegin := by
  rw [ColumnFits]
  by_cases hcolon : ':' ∈ pBegin
  · rw [or_iff_right (not_not.mpr hcolon)]
    by_cases hword : ':' ∈ word pBegin
    · constructor
      · intro hsome
        obtain ⟨back, front, hrev, hport⟩ :=
          List.eq_append_cons_of_mem (List.mem_reverse.mpr hword)
        have hcol : word pBegin = front.reverse ++ ':' :: back.reverse := by
          have h := congrArg List.reverse hrev
          simpa using h
        have hport' : ':' ∉ back.reverse := by simpa using hport
        rw [column_of_word hcol hport'] at hsome
        split at hsome
        · next hfit =>
          rw [Option.isSome_map, portOf_isSome_iff] at hsome
          exact ⟨_, _, hcol, hport', hfit.1, hfit.2, hsome⟩
        · cases hsome
      · rintro ⟨addr, port, hcol, hport, haddr, hlong, hfit⟩
        rw [column_of_word hcol hport, if_pos ⟨haddr, hlong⟩, Option.isSome_map]
        exact (portOf_isSome_iff port).mpr hfit
    · rw [column_far hcolon hword]
      refine iff_of_false Bool.false_ne_true ?_
      rintro ⟨addr, port, hcol, -⟩
      apply hword
      rw [hcol]
      exact List.mem_append_right _ List.mem_cons_self
  · simp only [column]
    rw [if_pos hcolon]
    exact iff_of_true rfl (Or.inl hcolon)

end Columns

section Lines

theorem activePort_isSome_iff (line : CStr) : (activePort line).isSome ↔ LineFits line := by
  rw [LineFits, ← column_isSome_iff, ← column_isSome_iff, activePort]
  cases column (skip (skip (skip (line.takeWhile (· ≠ '\x00'))))) with
  | none => exact iff_of_false Bool.false_ne_true fun h => Bool.false_ne_true h.1
  | some loc =>
    cases column (skip (skip (skip (skip (line.takeWhile (· ≠ '\x00')))))) with
    | none => exact iff_of_false Bool.false_ne_true fun h => Bool.false_ne_true h.2
    | some rem => exact iff_of_true rfl ⟨rfl, rfl⟩

theorem skip_padded (ht : ' ' ∉ t) (gap : ℕ) {rest : CStr}
    (hrest : ∀ c ∈ rest.head?, c ≠ ' ') : skip (padded t gap rest) = rest := by
  have hdrop : (padded t gap rest).dropWhile (· ≠ ' ') =
      ' ' :: (List.replicate gap ' ' ++ rest) := by
    rw [padded, List.dropWhile_append_of_pos, List.dropWhile_cons_of_neg (by simp)]
    intro c hc
    rw [decide_eq_true_eq]
    rintro rfl
    exact ht hc
  have hblank : (' ' :: (List.replicate gap ' ' ++ rest)).dropWhile (· = ' ') = rest := by
    refine (ScanFields.takeWhile_field (w := List.replicate (gap + 1) ' ') ?_ ?_).2
    · intro c hc
      rw [List.eq_of_mem_replicate hc]
      rfl
    · intro c hc
      rw [decide_eq_false_iff_not]
      exact hrest c hc
  rw [skip, hdrop, hblank]

theorem word_padded (ht : ' ' ∉ t) (gap : ℕ) (rest : CStr) :
    word (padded t gap rest) = t := by
  apply word_append ht
  intro c hc
  exact (Option.some.inj hc).symm

theorem padded_append (t : CStr) (gap : ℕ) (rest s : CStr) :
    padded t gap rest ++ s = padded t gap (rest ++ s) := by
  simp [padded]

theorem head_padded (hne : t ≠ []) (ht : ' ' ∉ t) (gap : ℕ) (rest : CStr) :
    ∀ c ∈ (padded t gap rest).head?, c ≠ ' ' := by
  obtain ⟨d, ds, rfl⟩ := List.exists_cons_of_ne_nil hne
  intro c hc
  obtain rfl := Option.some.inj hc
  rintro rfl
  exact ht List.mem_cons_self

variable (e : Endpoint)

theorem isAddressChar_addr : ∀ c ∈ e.addr, IsAddressChar c := by
  intro c hc
  rcases e.haddr with h | h
  · obtain ⟨octets, hoctets⟩ := Option.isSome_iff_exists.mp h
    rcases pton4From_chars hoctets c hc with hdigit | hdot
    · exact Or.inl (by rw [hexValue_of_isDigit hdigit]; rfl)
    · exact Or.inr (Or.inr hdot)
  · obtain ⟨octets, hoctets⟩ := Option.isSome_iff_exists.mp h
    exact inet_pton6_chars hoctets c hc

variable {c : Char}

theorem notMem_addr (hhex : hexValue c = none) (hcolon : c ≠ ':')
    (hdot : c ≠ '.') : c ∉ e.addr := by
  intro hmem
  rcases isAddressChar_addr e c hmem with hsome | heq | heq
  · rw [hhex] at hsome
    cases hsome
  · exact hcolon heq
  · exact hdot heq

theorem length_addr_lt : e.addr.length < 46 := by
  rcases e.haddr with h | h
  · obtain ⟨octets, hoctets⟩ := Option.isSome_iff_exists.mp h
    have hle := @pton4From_text_le e.addr [] octets none (Nat.zero_le 3) hoctets
    change e.addr.length ≤ 15 at hle
    omega
  · obtain ⟨octets, hoctets⟩ := Option.isSome_iff_exists.mp h
    exact inet_pton6_text_le hoctets

theorem notMem_portText (hdigit : c.isDigit = false) (hstar : c ≠ '*') :
    c ∉ e.portText := by
  intro hmem
  rw [Endpoint.portText] at hmem
  cases hport : e.port with
  | none =>
    rw [hport] at hmem
    exact hstar (List.mem_singleton.mp hmem)
  | some n =>
    rw [hport] at hmem
    rw [isDigit_of_mem_decimal hmem] at hdigit
    cases hdigit

theorem notMem_text (hhex : hexValue c = none)
    (hdigit : c.isDigit = false) (hcolon : c ≠ ':') (hdot : c ≠ '.') (hstar : c ≠ '*') :
    c ∉ e.text := by
  simp only [Endpoint.text, List.mem_append, List.mem_cons, not_or]
  exact ⟨notMem_addr e hhex hcolon hdot, hcolon, notMem_portText e hdigit hstar⟩

def Line.stateText (l : Line) : CStr := l.state.text ++ (List.replicate l.trail ' ' ++ ['\n'])

theorem head_state (s : State) (t : CStr) : ∀ c ∈ (s.text ++ t).head?, c ≠ ' ' := by
  intro c hc
  cases s with
  | established =>
    obtain rfl : 'E' = c := Option.some.inj hc
    decide
  | listen =>
    obtain rfl : 'L' = c := Option.some.inj hc
    decide

theorem blank_notMem_text : ' ' ∉ e.text :=
  notMem_text e rfl rfl (by decide) (by decide) (by decide)

theorem text_ne_nil : e.text ≠ [] :=
  List.append_ne_nil_of_right_ne_nil _ (List.cons_ne_nil _ _)

variable (l : Line)

theorem text_newline : l.text ++ ['\n'] =
    padded l.lead.1.text l.gaps.1 (padded l.lead.2.1.text l.gaps.2.1
      (padded l.lead.2.2.text l.gaps.2.2.1 (padded l.loc.text l.gaps.2.2.2.1
        (padded l.rem.text l.gaps.2.2.2.2 l.stateText)))) := by
  rw [Line.text, lineText, padded_append, padded_append, padded_append, padded_append,
    padded_append, List.append_assoc]
  rfl

theorem notMem_padded (hc : c ≠ ' ') {t rest : CStr} (ht : c ∉ t) (gap : ℕ)
    (hrest : c ∉ rest) : c ∉ padded t gap rest := by
  have hblank : c ∉ List.replicate gap ' ' := fun h => hc (List.eq_of_mem_replicate h)
  simp only [padded, List.mem_append, List.mem_cons, not_or]
  exact ⟨ht, hc, hblank, hrest⟩

theorem notMem_line (hc : c ≠ ' ')
    (hword : ∀ w : Word, c ∉ w.text) (hend : ∀ e : Endpoint, c ∉ e.text)
    (hstate : ∀ s : State, c ∉ s.text) (l : Line) : c ∉ l.text :=
  notMem_padded hc (hword _) _ (notMem_padded hc (hword _) _ (notMem_padded hc (hword _) _
    (notMem_padded hc (hend _) _ (notMem_padded hc (hend _) _ fun h =>
      (List.mem_append.mp h).elim (hstate _) fun h => hc (List.eq_of_mem_replicate h)))))

theorem newline_notMem_text : '\n' ∉ l.text := by
  refine notMem_line (by decide) (fun w => w.hchars.2.1) ?_ ?_ l
  · exact fun e => notMem_text e rfl rfl (by decide) (by decide) (by decide)
  · intro s
    cases s <;> decide

theorem nul_notMem_text : '\x00' ∉ l.text := by
  refine notMem_line (by decide) (fun w => w.hchars.2.2) ?_ ?_ l
  · exact fun e => notMem_text e rfl rfl (by decide) (by decide) (by decide)
  · intro s
    cases s <;> decide

theorem skip_lead :
    skip (skip (skip ((l.text ++ ['\n']).takeWhile (· ≠ '\x00')))) =
      padded l.loc.text l.gaps.2.2.2.1 (padded l.rem.text l.gaps.2.2.2.2 l.stateText) := by
  have hall : (l.text ++ ['\n']).takeWhile (· ≠ '\x00') = l.text ++ ['\n'] := by
    rw [List.takeWhile_eq_self_iff]
    intro c hc
    rw [decide_eq_true_eq]
    rintro rfl
    rcases List.mem_append.mp hc with h | h
    · exact nul_notMem_text l h
    · exact absurd h (by decide)
  rw [hall, text_newline, skip_padded l.lead.1.hchars.1, skip_padded l.lead.2.1.hchars.1,
    skip_padded l.lead.2.2.hchars.1]
  · exact head_padded (text_ne_nil l.loc) (blank_notMem_text l.loc) _ _
  · exact head_padded l.lead.2.2.hne l.lead.2.2.hchars.1 _ _
  · exact head_padded l.lead.2.1.hne l.lead.2.1.hchars.1 _ _

theorem skip_loc :
    skip (padded l.loc.text l.gaps.2.2.2.1 (padded l.rem.text l.gaps.2.2.2.2 l.stateText)) =
      padded l.rem.text l.gaps.2.2.2.2 l.stateText :=
  skip_padded (blank_notMem_text l.loc) _
    (head_padded (text_ne_nil l.rem) (blank_notMem_text l.rem) _ _)

theorem skip_rem : skip (padded l.rem.text l.gaps.2.2.2.2 l.stateText) = l.stateText :=
  skip_padded (blank_notMem_text l.rem) _ (head_state l.state _)

theorem column_endpoint (gap : ℕ) (rest : CStr) :
    column (padded e.text gap rest) =
      if ':' ∈ e.addr → e.text.length < 128 then
        (portOf e.portText).map fun n => some (e.addr, n)
      else none := by
  have hword := word_padded (blank_notMem_text e) gap rest
  have haddr := length_addr_lt e
  have hport : ':' ∉ e.portText := notMem_portText e rfl (by decide)
  rw [column_of_word hword hport, hword]
  by_cases hlong : ':' ∈ e.addr → e.text.length < 128
  · rw [if_pos hlong, if_pos ⟨by omega, hlong⟩]
  · rw [if_neg hlong, if_neg fun h => hlong h.2]

theorem portOf_of_lt {e : Endpoint} (h : e.port.getD 0 < 2 ^ 16) :
    e.portText.length ≤ 5 ∧ portOf e.portText = some (BitVec.ofNat 16 (e.port.getD 0)) := by
  cases hport : e.port with
  | none =>
    rw [Endpoint.portText, hport]
    exact ⟨by decide, rfl⟩
  | some n =>
    rw [hport] at h
    change n < 2 ^ 16 at h
    have hlen : (decimal n).length ≤ 5 := (decimal_length_le_iff (by omega)).mpr (by omega)
    rw [Endpoint.portText, hport]
    refine ⟨hlen, ?_⟩
    dsimp only
    rw [portOf, if_pos (Or.inl (by omega)), atoi_decimal (by omega), BitVec.ofInt_natCast]
    rfl

theorem column_shows_iff (gap : ℕ) (rest : CStr) :
    (∃ n, column (padded e.text gap rest) = some (some (e.addr, n)) ∧ n.toNat = e.port.getD 0) ↔
      e.port.getD 0 < 2 ^ 16 := by
  constructor
  · rintro ⟨n, -, hn⟩
    rw [← hn]
    exact n.isLt
  · intro h
    obtain ⟨hlen, hport⟩ := portOf_of_lt h
    have haddr := length_addr_lt e
    have hfit : e.text.length < 128 := by
      rw [Endpoint.text, List.length_append, List.length_cons]
      omega
    refine ⟨BitVec.ofNat 16 (e.port.getD 0), ?_, ?_⟩
    · rw [column_endpoint, if_pos fun _ => hfit, hport]
      rfl
    · rw [BitVec.toNat_ofNat, Nat.mod_eq_of_lt h]

theorem strneq_append (a rest : CStr) : strneq (a ++ rest) a a.length = true := by
  induction a with
  | nil => rfl
  | cons c a ih =>
    rw [List.cons_append, List.length_cons, strneq]
    simp [ih]

theorem statusOf_line :
    statusOf l.stateText = if 0 < l.trail then l.state.status else .zero := by
  cases htrail : l.trail with
  | zero =>
    rw [Line.stateText, htrail, if_neg (Nat.lt_irrefl 0)]
    cases l.state <;> rfl
  | succ n =>
    rw [Line.stateText, htrail, if_pos (Nat.succ_pos n), List.replicate_succ, List.cons_append]
    have hblank : ∀ c ∈ (' ' :: (List.replicate n ' ' ++ ['\n'])).head?, c = ' ' := by
      intro c hc
      exact (Option.some.inj hc).symm
    cases l.state with
    | established =>
      rw [State.text, statusOf, word_append (by decide) hblank, strneq_append]
      rfl
    | listen =>
      rw [State.text, statusOf, word_append (by decide) hblank, strneq_append]
      rfl

theorem activePort_shows_iff :
    (∃ e, activePort (l.text ++ ['\n']) = some e ∧ Shows l e) ↔ l.Served := by
  have hne : ∀ s : State, COSA_DML_IP_PORT_STATUS.zero ≠ s.status := by
    intro s
    cases s <;> exact COSA_DML_IP_PORT_STATUS.noConfusion
  rw [activePort, skip_lead, skip_loc, skip_rem, statusOf_line]
  constructor
  · rintro ⟨e, he, hshows⟩
    have hloc : l.loc.port.getD 0 < 2 ^ 16 := hshows.localPort ▸ e.LocalPort.isLt
    have hrem : l.rem.port.getD 0 < 2 ^ 16 := hshows.remotePort ▸ e.RemotePort.isLt
    refine ⟨?_, hloc, hrem⟩
    by_contra htrail
    split at he
    · have hstatus := hshows.status
      rw [← Option.some.inj he] at hstatus
      dsimp only at hstatus
      rw [if_neg htrail] at hstatus
      exact hne _ hstatus
    · cases he
  · rintro ⟨htrail, hloc, hrem⟩
    obtain ⟨m, hm, hmport⟩ := (column_shows_iff l.loc l.gaps.2.2.2.1
      (padded l.rem.text l.gaps.2.2.2.2 l.stateText)).mpr hloc
    obtain ⟨n, hn, hnport⟩ := (column_shows_iff l.rem l.gaps.2.2.2.2 l.stateText).mpr hrem
    have hlocal := length_addr_lt l.loc
    have hremote := length_addr_lt l.rem
    rw [hm, hn, if_pos htrail]
    refine ⟨_, rfl, ⟨⟨rfl, ?_⟩, ⟨rfl, ?_⟩, hmport, hnport, rfl⟩⟩
    · rw [COSA_DML_IPV6_ADDR_LENGTH]
      omega
    · rw [COSA_DML_IPV6_ADDR_LENGTH]
      omega

end Lines

section Listing

theorem fill_iff (room : ℕ) (lines : List CStr) (es : List COSA_DML_IP_ACTIVE_PORT) :
    fill room lines = some es ↔
      lines.length ≤ room ∧ List.Forall₂ (fun line e => activePort line = some e) lines es := by
  induction lines generalizing room es with
  | nil =>
    rw [fill, Option.some.injEq, List.forall₂_nil_left_iff]
    constructor
    · exact fun h => ⟨Nat.zero_le _, h.symm⟩
    · exact fun h => h.2.symm
  | cons line lines ih =>
    rw [fill, List.length_cons]
    split
    · next hroom =>
      refine iff_of_false nofun ?_
      rintro ⟨hle, -⟩
      omega
    · next hroom =>
      have hrest := ih (room - 1)
      constructor
      · intro h
        split at h
        · next e es' he hes =>
          rw [← Option.some.inj h]
          obtain ⟨hle, hall⟩ := (hrest es').mp hes
          exact ⟨by omega, List.Forall₂.cons he hall⟩
        · cases h
      · rintro ⟨hle, hall⟩
        cases hall with
        | cons he hall =>
          rw [he, (hrest _).mpr ⟨by omega, hall⟩]

variable (ls : List Line)

theorem reads_listing :
    reads 255 (listing ls) = ls.map fun l => l.text ++ ['\n'] := by
  have hlines : ∀ t ∈ ls.map Line.text, '\n' ∉ t ∧ t.length < 255 := by
    intro t ht
    obtain ⟨l, -, rfl⟩ := List.mem_map.mp ht
    exact ⟨newline_notMem_text l, l.hfit⟩
  have h := reads_lines hlines
  rwa [List.flatMap_map, List.map_map] at h

theorem length_le_allocated_iff (n : ℕ) : n ≤ allocated n ↔ sizeofEntry * n < 2 ^ 32 := by
  rw [allocated, sizeofEntry]
  constructor
  · intro h
    by_contra hwrap
    have hlt : 264 * n % 2 ^ 32 < 2 ^ 32 := Nat.mod_lt _ (Nat.two_pow_pos 32)
    omega
  · intro h
    rw [Nat.mod_eq_of_lt h, Nat.mul_div_cancel_left n (by omega)]

def Right (ls : List Line) (res : Option (List COSA_DML_IP_ACTIVE_PORT)) : Prop :=
  ∃ es, res = some es ∧ List.Forall₂ Shows ls es

theorem right_iff :
    Right ls (CosaDmlIpGetActivePorts (some (listing ls))) ↔
      sizeofEntry * ls.length < 2 ^ 32 ∧ ∀ l ∈ ls, l.Served := by
  have hall (ls : List Line) : (∃ es, List.Forall₂ (fun line e => activePort line = some e)
      (ls.map fun l => l.text ++ ['\n']) es ∧ List.Forall₂ Shows ls es) ↔
        ∀ l ∈ ls, l.Served := by
    induction ls with
    | nil => simp
    | cons l ls ih =>
      rw [List.forall_mem_cons, ← ih, ← activePort_shows_iff, List.map_cons]
      constructor
      · rintro ⟨es, hes, hshows⟩
        cases hshows with
        | cons hs hshows =>
          cases hes with
          | cons he hes => exact ⟨⟨_, he, hs⟩, _, hes, hshows⟩
      · rintro ⟨⟨e, he, hs⟩, es, hes, hshows⟩
        exact ⟨e :: es, List.Forall₂.cons he hes, List.Forall₂.cons hs hshows⟩
  rw [Right, CosaDmlIpGetActivePorts, reads_listing, List.length_map, ← length_le_allocated_iff,
    ← hall]
  simp only [fill_iff, List.length_map]
  constructor
  · rintro ⟨es, ⟨hle, hes⟩, hshows⟩
    exact ⟨hle, es, hes, hshows⟩
  · rintro ⟨hle, es, hes, hshows⟩
    exact ⟨es, ⟨hle, hes⟩, hshows⟩

/-- A listing is returned right just where a blank stands behind each state and the ports fit;
the accesses for any content stay inside just where its columns fit. -/
theorem active_ports_iff (ls : List Line) (file : CStr) :
    (Right ls (CosaDmlIpGetActivePorts (some (listing ls))) ↔
      sizeofEntry * ls.length < 2 ^ 32 ∧ ∀ l ∈ ls, l.Served) ∧
    ((∀ line ∈ reads 255 file, (activePort line).isSome) ↔
      ∀ line ∈ reads 255 file, LineFits line) := by
  refine ⟨right_iff ls, ?_⟩
  simp only [activePort_isSome_iff]

def zeroQueue : Word := ⟨['0'], by decide, by decide⟩

def listening : Line where
  lead := (⟨"tcp".toList, by decide, by decide⟩, zeroQueue, zeroQueue)
  loc := ⟨"0.0.0.0".toList, some 22, Or.inl (by decide)⟩
  rem := ⟨"0.0.0.0".toList, none, Or.inl (by decide)⟩
  state := .listen
  gaps := (0, 0, 0, 0, 0)
  trail := 0
  hfit := by decide

/-- The status is missed, and a line without a colon in its first column leaves `ucTempBuf`. -/
theorem listen_missed :
    ¬ Right [listening] (CosaDmlIpGetActivePorts (some (listing [listening]))) ∧
      ¬ ∀ line ∈ reads 255 "tcp 0 0 any 10.0.0.1:80 LISTEN\n".toList,
        (activePort line).isSome := by
  constructor
  · rw [right_iff]
    rintro ⟨-, h⟩
    exact absurd (h listening List.mem_cons_self).1 (by decide)
  · intro h
    exact absurd (h "tcp 0 0 any 10.0.0.1:80 LISTEN\n".toList (by decide)) (by decide)

end Listing

end CcspPandM.ActivePorts
