import CcspPandM.FgetsLines
import CcspPandM.Ipv6Text
import CcspPandM.TextSearch

/-!
The lifetimes of an address, looked up in what `ip -6 addr show dev` prints. An
entry takes two lines, the address with its length and the two lifetimes. A
second line with one lifetime that ends and one that does not fits neither of
the two formats the code knows, and the lookup then goes on to the next entry.
-/
namespace CcspPandM.AddressLifetimes

open CString FgetsLines InetText Ipv6Text ScanFields ScanText TextSearch

structure ipv6_addr_info_t where
  v6addr : Buf 64
  v6pre : Buf 64
  deriving DecidableEq

/-- The two outputs, as they are before and after a call. -/
structure Lfts where
  p_valid : BitVec 32
  p_prefer : BitVec 32
  deriving DecidableEq

def isblank (c : Char) : Bool := c = ' ' || c = '\t'

def inet6 : CStr := "inet6".toList

def scope : CStr := "scope".toList

def valid_lft : CStr := "valid_lft".toList

def preferred_lft : CStr := "preferred_lft".toList

def seconds : CStr := "sec".toList

def unlimited : CStr := "forever".toList

/-- The second line of an entry whose lifetimes do not end. -/
def foreverLine : CStr := "valid_lft forever preferred_lft forever".toList

/-- `sscanf(p, "valid_lft %dsec preferred_lft %dsec", p_valid, p_prefer)`: how many numbers
are read, and the outputs behind it. -/
def sscanf_lfts (p : CStr) (out : Lfts) : ℕ × Lfts :=
  match (scanLiteral valid_lft p).bind scanInt with
  | none => (0, out)
  | some (v, t) =>
    match (scanLiteral seconds t).bind fun t =>
        (scanLiteral preferred_lft (t.dropWhile isspace)).bind scanInt with
    | none => (1, { out with p_valid := v })
    | some (w, _) => (2, ⟨v, w⟩)

def lifetimes (buf : CStr) (out : Lfts) : Bool × Lfts :=
  let p := buf.dropWhile isblank
  if strneq p foreverLine foreverLine.length then (true, ⟨0xffffffff, 0xffffffff⟩)
  else ((sscanf_lfts p out).1 == 2, (sscanf_lfts p out).2)

/-- The text that entries are compared with. -/
def addr_str (addr : List ℕ) (p : CStr) : CStr := inet_ntop6 addr ++ '/' :: intText (sscanf_d p 0)

/-- `found` behind the first line of an entry; there is no result where the word does not fit
`file_str`. -/
def foundIn (addr_str : CStr) (found : Bool) (buf : CStr) : Option Bool :=
  match (scanLiteral inet6 (buf.dropWhile isblank)).bind scanWord with
  | none => some found
  | some (file_str, _) =>
    if file_str.length < 128 then some (found || strneq file_str addr_str 128) else none

/-- The loop over the lines. `addr` is read uninitialised where the text is no address. -/
def scan (p_addr : ipv6_addr_info_t) (found : Bool) (out : Lfts) : List CStr → Option Lfts
  | [] => some out
  | buf :: lines =>
    if (strstr inet6 buf).isSome ∧ (strstr scope buf).isSome then
      match inet_pton6 p_addr.v6addr.text, p_addr.v6pre.text.dropWhile (· ≠ '/') with
      | none, _ => none
      | some _, [] => scan p_addr found out lines
      | some addr, _ :: p =>
        match foundIn (addr_str addr p) found buf, lines with
        | none, _ => none
        | some false, lines => scan p_addr false out lines
        | some true, [] => some (lifetimes [] out).2
        | some true, next :: lines =>
          if (lifetimes next out).1 then some (lifetimes next out).2
          else scan p_addr true (lifetimes next out).2 lines
    else scan p_addr found out lines

/-- The return value and the outputs; `fn` is none where the file does not open. -/
def _get_2_lfts (fn : Option CStr) (p_addr : ipv6_addr_info_t) (out : Lfts) : Option (ℤ × Lfts) :=
  match fn with
  | none => some (-1, out)
  | some file => (scan p_addr false out (reads 255 file)).map fun out => (0, out)

section output

inductive Lifetime where
  | forever
  | sec (n : ℕ)
  deriving DecidableEq

namespace Lifetime

def text : Lifetime → CStr
  | forever => unlimited
  | sec n => decimal n ++ seconds

/-- The value that stands for it in an output, where all ones are `-1`. -/
def value : Lifetime → ℤ
  | forever => -1
  | sec n => n

end Lifetime

def addressLine (indent : CStr) (addr : List ℕ) (len : ℕ) (more : CStr) : CStr :=
  indent ++ (inet6 ++ ' ' :: (inet_ntop6 addr ++ '/' :: decimal len ++ ' ' :: (scope ++ more)))

def lifetimesLine (indent : CStr) (valid preferred : Lifetime) : CStr :=
  indent ++ (valid_lft ++ ' ' :: (valid.text ++ ' ' :: (preferred_lft ++ ' ' :: preferred.text)))

structure Entry where
  indent : CStr
  addr : List ℕ
  len : ℕ
  more : CStr
  indent' : CStr
  valid : Lifetime
  preferred : Lifetime
  hindent : ∀ c ∈ indent, isblank c = true
  haddr : addr.length = 16 ∧ ∀ o ∈ addr, o < 256
  hlen : len ≤ 128
  hmore : '\n' ∉ more ∧ '\x00' ∉ more
  hindent' : ∀ c ∈ indent', isblank c = true
  hfirst : (addressLine indent addr len more).length < 255
  hsecond : (lifetimesLine indent' valid preferred).length < 255

def Entry.lines (e : Entry) : List CStr :=
  [addressLine e.indent e.addr e.len e.more, lifetimesLine e.indent' e.valid e.preferred]

structure Output where
  link : List CStr
  entries : List Entry
  hlink : ∀ t ∈ link, '\n' ∉ t ∧ t.length < 255 ∧ ¬ inet6 <:+: t

def Output.file (o : Output) : CStr :=
  (o.link ++ o.entries.flatMap Entry.lines).flatMap fun t => t ++ ['\n']

structure Record where
  info : ipv6_addr_info_t
  addr : List ℕ
  len : ℕ
  haddr : inet_pton6 info.v6addr.text = some addr
  hpre : ∃ front digits, info.v6pre.text = front ++ '/' :: digits ∧ '/' ∉ front ∧ digits ≠ [] ∧
    (∀ c ∈ digits, c.isDigit = true) ∧ leadingNumber digits = len
  hlen : len ≤ 128

def Entry.Of (r : Record) (e : Entry) : Prop := e.addr = r.addr ∧ e.len = r.len

instance (r : Record) : DecidablePred (Entry.Of r) := fun _ => instDecidableAnd

end output

variable {c : Char} (e : Entry)

section lines

theorem notMem_blanks {gap : CStr} (h : ∀ c ∈ gap, isblank c = true)
    (hc : isblank c = false) : c ∉ gap := by
  intro hmem
  rw [h c hmem] at hc
  cases hc

theorem dropWhile_blanks {gap : CStr} (h : ∀ c ∈ gap, isblank c = true)
    (hc : isblank c = false) (t : CStr) : (gap ++ c :: t).dropWhile isblank = c :: t := by
  rw [List.dropWhile_append_of_pos h, List.dropWhile_cons_of_neg (by simp [hc])]

theorem notMem_text (hdigit : c.isDigit = false) (hfix : c ∉ unlimited ++ seconds)
    (l : Lifetime) : c ∉ l.text := by
  obtain ⟨hforever, hsec⟩ := not_or.mp (mt List.mem_append.mpr hfix)
  cases l with
  | forever => exact hforever
  | sec n =>
    rw [Lifetime.text, List.mem_append, not_or]
    refine ⟨?_, hsec⟩
    intro hmem
    rw [isDigit_of_mem_decimal hmem] at hdigit
    cases hdigit

theorem notMem_lifetimesLine (hdigit : c.isDigit = false) (hblank : isblank c = false)
    (hfix : c ∉ unlimited ++ seconds) (hwords : c ∉ valid_lft ++ preferred_lft) (e : Entry) :
    c ∉ lifetimesLine e.indent' e.valid e.preferred := by
  obtain ⟨hvalid, hpreferred⟩ := not_or.mp (mt List.mem_append.mpr hwords)
  have hspace : c ≠ ' ' := by
    rintro rfl
    cases hblank
  simp only [lifetimesLine, List.mem_append, List.mem_cons, not_or]
  exact ⟨notMem_blanks e.hindent' hblank, hvalid, hspace, notMem_text hdigit hfix e.valid, hspace,
    hpreferred, hspace, notMem_text hdigit hfix e.preferred⟩

def Entry.word (e : Entry) : CStr := inet_ntop6 e.addr ++ '/' :: decimal e.len

theorem isAddressChar_ntop6 {addr : List ℕ} (h : addr.length = 16 ∧ ∀ o ∈ addr, o < 256) :
    ∀ c ∈ inet_ntop6 addr, IsAddressChar c :=
  inet_pton6_chars (inet_pton6_inet_ntop6 h.1 h.2)

theorem notMem_ntop6 {addr : List ℕ} (h : addr.length = 16 ∧ ∀ o ∈ addr, o < 256)
    (hhex : hexValue c = none) (hcolon : c ≠ ':') (hdot : c ≠ '.') : c ∉ inet_ntop6 addr := by
  intro hmem
  rcases isAddressChar_ntop6 h c hmem with hsome | heq | heq
  · rw [hhex] at hsome
    cases hsome
  · exact hcolon heq
  · exact hdot heq

theorem notMem_word (hhex : hexValue c = none) (hcolon : c ≠ ':')
    (hdot : c ≠ '.') (hslash : c ≠ '/') : c ∉ e.word := by
  have hdigit : c ∉ decimal e.len := by
    intro hmem
    rw [hexValue_of_isDigit (isDigit_of_mem_decimal hmem)] at hhex
    cases hhex
  simp only [Entry.word, List.mem_append, List.mem_cons, not_or]
  exact ⟨notMem_ntop6 e.haddr hhex hcolon hdot, hslash, hdigit⟩

theorem not_isspace_word : ∀ c ∈ e.word, isspace c = false := by
  intro c hc
  cases hspace : isspace c with
  | false => rfl
  | true =>
    exfalso
    simp only [isspace, Bool.or_eq_true, decide_eq_true_eq] at hspace
    rcases hspace with ((((rfl | rfl) | rfl) | rfl) | rfl) | rfl <;>
      exact notMem_word e rfl (by decide) (by decide) (by decide) hc

theorem length_word_lt : e.word.length < 128 := by
  have haddr := length_inet_ntop6_le e.haddr.1 e.haddr.2
  have hlen : (decimal e.len).length ≤ 3 :=
    (decimal_length_le_iff (by omega)).mpr (Nat.lt_of_le_of_lt e.hlen (by omega))
  rw [Entry.word, List.length_append, List.length_cons]
  omega

theorem newline_notMem_addressLine :
    '\n' ∉ addressLine e.indent e.addr e.len e.more := by
  have hword := notMem_word e (c := '\n') rfl (by decide) (by decide) (by decide)
  rw [Entry.word] at hword
  simp only [addressLine, List.mem_append, List.mem_cons, not_or] at hword ⊢
  exact ⟨notMem_blanks e.hindent rfl, by decide, by decide, hword, by decide, by decide,
    e.hmore.1⟩

end lines

variable (r : Record) (out : Lfts)

section scanning

/-- A number above the range of an `int` is cut down. -/
def cut (n : ℕ) : BitVec 32 := BitVec.ofInt 32 (min (n : ℤ) (2 ^ 31 - 1))

theorem toInt_cut (n : ℕ) : (cut n).toInt = min (n : ℤ) (2 ^ 31 - 1) := by
  rw [cut, BitVec.toInt_ofInt]
  apply Int.bmod_eq_of_le <;> omega

def settle (out : Lfts) : List Entry → Lfts
  | [] => out
  | e :: rest =>
    match e.valid, e.preferred with
    | .forever, .forever => ⟨0xffffffff, 0xffffffff⟩
    | .sec m, .sec n => ⟨cut m, cut n⟩
    | .sec m, .forever => settle { out with p_valid := cut m } rest
    | .forever, .sec _ => settle out rest

def readLines (es : List Entry) : List CStr :=
  (es.flatMap Entry.lines).map fun t => t ++ ['\n']

theorem readLines_cons (es : List Entry) : readLines (e :: es) =
    (addressLine e.indent e.addr e.len e.more ++ ['\n']) ::
      (lifetimesLine e.indent' e.valid e.preferred ++ ['\n']) :: readLines es := rfl

theorem dropWhile_lifetimesLine (t : CStr) :
    (lifetimesLine e.indent' e.valid e.preferred ++ t).dropWhile isblank =
      valid_lft ++ (' ' :: (e.valid.text ++ ' ' ::
        (preferred_lft ++ ' ' :: (e.preferred.text ++ t)))) := by
  rw [lifetimesLine, List.append_assoc]
  have hcons : ∀ u, valid_lft ++ u = 'v' :: ("alid_lft".toList ++ u) := fun u => rfl
  rw [hcons, List.cons_append, dropWhile_blanks e.hindent' rfl]
  simp only [hcons, List.append_assoc, List.cons_append]

theorem scanInt_forever (t : CStr) : scanInt (' ' :: (unlimited ++ t)) = none := rfl

theorem scanInt_seconds (n : ℕ) (t : CStr) :
    scanInt (' ' :: ((Lifetime.sec n).text ++ t)) = some (cut n, seconds ++ t) := by
  have hend : ∀ c ∈ (seconds ++ t).head?, c.isDigit = false := by
    intro c hc
    rw [← Option.some.inj hc]
    rfl
  have htext : ' ' :: ((Lifetime.sec n).text ++ t) = [' '] ++ (decimal n ++ (seconds ++ t)) := by
    rw [Lifetime.text, List.append_assoc]
    rfl
  rw [htext, scanInt_number n gap_blank hend]
  rfl

theorem not_unlimited_seconds (n : ℕ) (s t : CStr) :
    ¬ unlimited ++ s <+: (Lifetime.sec n).text ++ t := by
  obtain ⟨c, cs, hcs, hc⟩ := decimal_eq_cons n
  have hcons : unlimited ++ s = 'f' :: ("orever".toList ++ s) := rfl
  rw [Lifetime.text, hcs, hcons, List.cons_append, List.cons_append, List.cons_prefix_cons]
  intro h
  rw [← h.1] at hc
  cases hc

theorem foreverLine_prefix_iff (v p : Lifetime) (t : CStr) :
    foreverLine <+: valid_lft ++ (' ' :: (v.text ++ ' ' ::
      (preferred_lft ++ ' ' :: (p.text ++ t)))) ↔ v = .forever ∧ p = .forever := by
  have hline : foreverLine = valid_lft ++ (' ' :: (unlimited ++ ' ' ::
      (preferred_lft ++ ' ' :: (unlimited ++ [])))) := rfl
  rw [hline, List.prefix_append_right_inj, List.cons_prefix_cons]
  cases v with
  | sec m => simpa using not_unlimited_seconds m _ _
  | forever =>
    have hv : Lifetime.text .forever = unlimited := rfl
    rw [hv, List.prefix_append_right_inj, List.cons_prefix_cons, List.prefix_append_right_inj,
      List.cons_prefix_cons]
    cases p with
    | sec n => simpa using not_unlimited_seconds n [] t
    | forever => simp [Lifetime.text]

theorem sscanf_lfts_line (v p : Lifetime) (t : CStr) (out : Lfts) :
    sscanf_lfts (valid_lft ++ (' ' :: (v.text ++ ' ' ::
      (preferred_lft ++ ' ' :: (p.text ++ t))))) out =
      match v, p with
      | .forever, _ => (0, out)
      | .sec m, .forever => (1, { out with p_valid := cut m })
      | .sec m, .sec n => (2, ⟨cut m, cut n⟩) := by
  cases v with
  | forever =>
    rw [sscanf_lfts, scanLiteral_append, Option.bind_some, Lifetime.text, scanInt_forever]
  | sec m =>
    have hgap : ∀ u, (' ' :: (preferred_lft ++ u)).dropWhile isspace = preferred_lft ++ u :=
      fun u => rfl
    rw [sscanf_lfts, scanLiteral_append, Option.bind_some, scanInt_seconds]
    dsimp only
    rw [scanLiteral_append, Option.bind_some, hgap, scanLiteral_append, Option.bind_some]
    cases p with
    | forever => rw [Lifetime.text, scanInt_forever]
    | sec n => rw [scanInt_seconds]

theorem lifetimes_line (t : CStr) (out : Lfts) :
    lifetimes (lifetimesLine e.indent' e.valid e.preferred ++ t) out =
      match e.valid, e.preferred with
      | .forever, .forever => (true, ⟨0xffffffff, 0xffffffff⟩)
      | .sec m, .sec n => (true, ⟨cut m, cut n⟩)
      | .sec m, .forever => (false, { out with p_valid := cut m })
      | .forever, .sec _ => (false, out) := by
  have hnul : '\x00' ∉ foreverLine := by decide
  have hstart := foreverLine_prefix_iff e.valid e.preferred t
  rw [lifetimes, dropWhile_lifetimesLine, sscanf_lfts_line]
  cases hv : e.valid with
  | forever =>
    cases hp : e.preferred with
    | forever =>
      rw [hv, hp] at hstart
      rw [if_pos ((strneq_name_iff hnul).mpr (hstart.mpr ⟨rfl, rfl⟩))]
    | sec n =>
      rw [hv, hp] at hstart
      rw [if_neg]
      · rfl
      · rw [strneq_name_iff hnul, hstart]
        simp
  | sec m =>
    rw [hv] at hstart
    rw [if_neg]
    · cases e.preferred <;> rfl
    · rw [strneq_name_iff hnul, hstart]
      simp

theorem isSome_strstr_of_notMem {pat t : CStr} (hc : c ∈ pat) (ht : c ∉ t) :
    ¬ (strstr pat t).isSome := by
  rw [strstr_isSome]
  exact fun h => ht (h.subset hc)

theorem lifetimesLine_passed :
    ¬ (strstr inet6 (lifetimesLine e.indent' e.valid e.preferred ++ ['\n'])).isSome := by
  refine isSome_strstr_of_notMem (c := 'n') (by decide) ?_
  have hline := notMem_lifetimesLine (c := 'n') rfl rfl (by decide) (by decide) e
  rw [List.mem_append, not_or]
  exact ⟨hline, by decide⟩

theorem addressLine_found :
    (strstr inet6 (addressLine e.indent e.addr e.len e.more ++ ['\n'])).isSome ∧
      (strstr scope (addressLine e.indent e.addr e.len e.more ++ ['\n'])).isSome := by
  rw [strstr_isSome, strstr_isSome]
  constructor
  · refine ⟨e.indent, ' ' :: (e.word ++ ' ' :: (scope ++ (e.more ++ ['\n']))), ?_⟩
    simp [addressLine, Entry.word]
  · refine ⟨e.indent ++ (inet6 ++ ' ' :: (e.word ++ [' '])), e.more ++ ['\n'], ?_⟩
    simp [addressLine, Entry.word]

theorem word_scanned :
    (scanLiteral inet6 ((addressLine e.indent e.addr e.len e.more ++ ['\n']).dropWhile
      isblank)).bind scanWord = some (e.word, ' ' :: (scope ++ (e.more ++ ['\n']))) := by
  have hcons : ∀ u, inet6 ++ u = 'i' :: ("net6".toList ++ u) := fun u => rfl
  have hdrop : (addressLine e.indent e.addr e.len e.more ++ ['\n']).dropWhile isblank =
      inet6 ++ ([' '] ++ (e.word ++ ' ' :: (scope ++ (e.more ++ ['\n'])))) := by
    rw [addressLine, List.append_assoc, hcons, List.cons_append, dropWhile_blanks e.hindent rfl]
    simp [hcons, Entry.word]
  have hne : e.word ≠ [] := List.append_ne_nil_of_right_ne_nil _ (List.cons_ne_nil _ _)
  rw [hdrop, scanLiteral_append, Option.bind_some]
  exact scanWord_field gap_blank hne (not_isspace_word e) (ended_cons rfl _)

theorem sscanf_digits {digits : CStr} (hne : digits ≠ [])
    (hdigits : ∀ c ∈ digits, c.isDigit = true) (hle : leadingNumber digits ≤ 128) :
    intText (sscanf_d digits 0) = decimal (leadingNumber digits) := by
  have htake : digits.takeWhile Char.isDigit = digits := List.takeWhile_eq_self_iff.mpr hdigits
  obtain ⟨c, cs, rfl⟩ := List.exists_cons_of_ne_nil hne
  have hc := hdigits c List.mem_cons_self
  have hscan : scanNumber (c :: cs) = some (leadingNumber (c :: cs) : ℤ) := by
    unfold scanNumber
    rw [List.dropWhile_cons_of_neg (by rw [isspace_of_isDigit hc]; exact Bool.false_ne_true)]
    split
    · next h => exact absurd (List.cons.inj h).1 (ne_of_isDigit hc rfl)
    · next h => exact absurd (List.cons.inj h).1 (ne_of_isDigit hc rfl)
    · rw [scanDigits, htake, if_neg hne]
      rfl
  have hvalue : (sscanf_d (c :: cs) 0).toInt = leadingNumber (c :: cs) := by
    rw [sscanf_d, hscan]
    dsimp only
    rw [BitVec.toInt_ofInt, max_eq_right (by omega), min_eq_left (by omega)]
    apply Int.bmod_eq_of_le <;> omega
  rw [intText, hvalue, if_neg (by omega)]
  rfl

theorem word_eq_iff (e : Entry) :
    e.word = inet_ntop6 r.addr ++ '/' :: decimal r.len ↔ e.Of r := by
  have hr := inet_pton6_bytes r.haddr
  have hslash : ∀ {addr : List ℕ}, addr.length = 16 ∧ (∀ o ∈ addr, o < 256) →
      '/' ∉ inet_ntop6 addr := fun h => notMem_ntop6 h rfl (by decide) (by decide)
  have hlen : '/' ∉ decimal e.len := by
    intro hmem
    cases isDigit_of_mem_decimal hmem
  rw [Entry.word, List.append_cons_inj_of_notMem (hslash e.haddr) hlen, Entry.Of]
  constructor
  · rintro ⟨haddr, -, hnumber⟩
    have hread := congrArg inet_pton6 haddr
    rw [inet_pton6_inet_ntop6 e.haddr.1 e.haddr.2, inet_pton6_inet_ntop6 hr.1 hr.2] at hread
    exact ⟨Option.some.inj hread, decimal_injective hnumber⟩
  · rintro ⟨haddr, hnumber⟩
    rw [haddr, hnumber]
    exact ⟨rfl, rfl, rfl⟩

theorem foundIn_line (found : Bool) (e : Entry) :
    foundIn (inet_ntop6 r.addr ++ '/' :: decimal r.len) found
      (addressLine e.indent e.addr e.len e.more ++ ['\n']) =
        some (found || decide (e.Of r)) := by
  have hr := inet_pton6_bytes r.haddr
  have hnul : '\x00' ∉ e.word := notMem_word e rfl (by decide) (by decide) (by decide)
  have hnul' : '\x00' ∉ inet_ntop6 r.addr ++ '/' :: decimal r.len := by
    simp only [List.mem_append, List.mem_cons, not_or]
    refine ⟨notMem_ntop6 hr rfl (by decide) (by decide), by decide, ?_⟩
    intro hmem
    cases isDigit_of_mem_decimal hmem
  have heq := (strneq_eq_iff hnul hnul' (length_word_lt e)).trans (word_eq_iff r e)
  have hbool : strneq e.word (inet_ntop6 r.addr ++ '/' :: decimal r.len) 128 =
      decide (e.Of r) := by
    rw [Bool.eq_iff_iff, heq, decide_eq_true_eq]
  rw [foundIn, word_scanned]
  dsimp only
  rw [if_pos (length_word_lt e), hbool]

theorem scan_entry (found : Bool) (out : Lfts) (e : Entry) (es : List Entry) :
    scan r.info found out (readLines (e :: es)) =
      if found || decide (e.Of r) then
        if (lifetimes (lifetimesLine e.indent' e.valid e.preferred ++ ['\n']) out).1 then
          some (lifetimes (lifetimesLine e.indent' e.valid e.preferred ++ ['\n']) out).2
        else scan r.info true
          (lifetimes (lifetimesLine e.indent' e.valid e.preferred ++ ['\n']) out).2 (readLines es)
      else scan r.info false out (readLines es) := by
  obtain ⟨front, digits, hpre, hfront, hne, hdigits, hvalue⟩ := r.hpre
  have hslash : r.info.v6pre.text.dropWhile (· ≠ '/') = '/' :: digits := by
    rw [hpre, List.dropWhile_append_of_pos, List.dropWhile_cons_of_neg (by simp)]
    intro c hc
    rw [decide_eq_true_eq]
    rintro rfl
    exact hfront hc
  have hstr : addr_str r.addr digits = inet_ntop6 r.addr ++ '/' :: decimal r.len := by
    rw [addr_str, sscanf_digits hne hdigits (hvalue ▸ r.hlen), hvalue]
  rw [readLines_cons, scan, if_pos (addressLine_found e), r.haddr, hslash]
  dsimp only
  rw [hstr, foundIn_line]
  cases found || decide (e.Of r) with
  | true => rfl
  | false =>
    rw [if_neg Bool.false_ne_true]
    dsimp only
    rw [scan, if_neg fun h => lifetimesLine_passed e h.1]

theorem scan_found (es : List Entry) :
    scan r.info true out (readLines es) = some (settle out es) := by
  induction es generalizing out with
  | nil => rfl
  | cons e es ih =>
    rw [scan_entry, Bool.true_or, if_pos rfl, lifetimes_line, settle]
    cases e.valid with
    | forever =>
      cases e.preferred with
      | forever => rfl
      | sec n =>
        rw [if_neg Bool.false_ne_true]
        exact ih _
    | sec m =>
      cases e.preferred with
      | forever =>
        rw [if_neg Bool.false_ne_true]
        exact ih _
      | sec n => rfl

def fromEntry (r : Record) (es : List Entry) : List Entry :=
  es.dropWhile fun e => !decide (e.Of r)

theorem scan_entries (es : List Entry) :
    scan r.info false out (readLines es) = some (settle out (fromEntry r es)) := by
  induction es with
  | nil => rfl
  | cons e es ih =>
    by_cases he : e.Of r
    · have hfrom : fromEntry r (e :: es) = e :: es :=
        List.dropWhile_cons_of_neg (by simp [he])
      have hsame : scan r.info false out (readLines (e :: es)) =
          scan r.info true out (readLines (e :: es)) := by
        rw [scan_entry, scan_entry, decide_eq_true he, Bool.or_true, Bool.or_true]
      rw [hfrom, hsame, scan_found]
    · have hfrom : fromEntry r (e :: es) = fromEntry r es :=
        List.dropWhile_cons_of_pos (by simp [he])
      rw [scan_entry, decide_eq_false he, Bool.or_false, if_neg Bool.false_ne_true, hfrom, ih]

theorem scan_link {link : List CStr}
    (h : ∀ t ∈ link, ¬ inet6 <:+: t) (lines : List CStr) :
    scan r.info false out (link.map (fun t => t ++ ['\n']) ++ lines) =
      scan r.info false out lines := by
  induction link with
  | nil => rfl
  | cons t link ih =>
    obtain ⟨ht, hlink⟩ := List.forall_mem_cons.mp h
    have hnot : ¬ (strstr inet6 (t ++ ['\n'])).isSome := by
      rw [strstr_isSome, infix_terminated_iff (by decide) (by decide)]
      rintro (hin | hin)
      · exact ht hin
      · exact absurd (List.infix_nil.mp hin) (by decide)
    rw [List.map_cons, List.cons_append, scan, if_neg fun h => hnot h.1, ih hlink]

theorem get_2_lfts_eq (o : Output) (out : Lfts) :
    _get_2_lfts (some o.file) r.info out = some (0, settle out (fromEntry r o.entries)) := by
  have hlines : ∀ t ∈ o.link ++ o.entries.flatMap Entry.lines, '\n' ∉ t ∧ t.length < 255 := by
    intro t ht
    rcases List.mem_append.mp ht with hlink | hentry
    · exact ⟨(o.hlink t hlink).1, (o.hlink t hlink).2.1⟩
    · obtain ⟨e, -, hline⟩ := List.mem_flatMap.mp hentry
      rcases List.mem_cons.mp hline with rfl | hline
      · exact ⟨newline_notMem_addressLine e, e.hfirst⟩
      · rw [List.mem_singleton.mp hline]
        exact ⟨notMem_lifetimesLine rfl rfl (by decide) (by decide) e, e.hsecond⟩
  have hread : reads 255 o.file = o.link.map (fun t => t ++ ['\n']) ++ readLines o.entries := by
    rw [Output.file, reads_lines hlines, List.map_append, readLines]
  rw [_get_2_lfts, hread, scan_link r out (fun t ht => (o.hlink t ht).2.2), scan_entries]
  rfl

end scanning

section lookup

/-- A call does its work: the outputs are the lifetimes of the entry of the record, and are left
alone where there is none. -/
def Right (r : Record) (o : Output) (out : Lfts) (res : Option (ℤ × Lfts)) : Prop :=
  ∃ out', res = some (0, out') ∧
    match o.entries.find? fun e => decide (e.Of r) with
    | none => out' = out
    | some e => out'.p_valid.toInt = e.valid.value ∧ out'.p_prefer.toInt = e.preferred.value

/-- Both lifetimes do not end, or both end and fit an `int`. -/
def Entry.Uniform (e : Entry) : Prop :=
  match e.valid, e.preferred with
  | .forever, .forever => True
  | .sec m, .sec n => m < 2 ^ 31 ∧ n < 2 ^ 31
  | _, _ => False

/-- One lifetime ends and the other does not. -/
def Entry.Mixed (e : Entry) : Prop := (e.valid = .forever) ≠ (e.preferred = .forever)

/-- The valid lifetime that is left behind by entries whose second line does not fit. -/
def lastValid (v : BitVec 32) : List Entry → BitVec 32
  | [] => v
  | e :: rest =>
    match e.valid with
    | .forever => lastValid v rest
    | .sec n => lastValid (cut n) rest

/-- No entry from a mixed one on ends the lookup, and what is left behind is just what that
entry says. -/
def LeftRight (out : Lfts) (e : Entry) (rest : List Entry) : Prop :=
  (∀ f ∈ e :: rest, f.Mixed) ∧ (lastValid out.p_valid (e :: rest)).toInt = e.valid.value ∧
    out.p_prefer.toInt = e.preferred.value

/-- The condition on the entry of the record, if there is one, and on those behind it. -/
def Served (r : Record) (o : Output) (out : Lfts) : Prop :=
  match fromEntry r o.entries with
  | [] => True
  | e :: rest => e.Uniform ∨ LeftRight out e rest

theorem find?_eq_head?_fromEntry (es : List Entry) :
    es.find? (fun e => decide (e.Of r)) = (fromEntry r es).head? := by
  induction es with
  | nil => rfl
  | cons e es ih =>
    by_cases he : e.Of r
    · rw [List.find?_cons_of_pos (by simpa using he), fromEntry,
        List.dropWhile_cons_of_neg (by simp [he]), List.head?_cons]
    · rw [List.find?_cons_of_neg (by simpa using he), ih, fromEntry, fromEntry,
        List.dropWhile_cons_of_pos (by simp [he])]

theorem settle_of_mixed {es : List Entry} (h : ∀ e ∈ es, e.Mixed) :
    settle out es = ⟨lastValid out.p_valid es, out.p_prefer⟩ := by
  induction es generalizing out with
  | nil => rfl
  | cons e es ih =>
    obtain ⟨he, hes⟩ := List.forall_mem_cons.mp h
    rw [settle, lastValid]
    rw [Entry.Mixed] at he
    cases hv : e.valid with
    | forever =>
      cases hp : e.preferred with
      | forever => exact absurd (by rw [hv, hp]) he
      | sec n => exact ih out hes
    | sec m =>
      cases hp : e.preferred with
      | forever => exact ih { out with p_valid := cut m } hes
      | sec n => exact absurd (by simp [hv, hp]) he

theorem settle_sign {es : List Entry} (h : ¬ ∀ e ∈ es, e.Mixed) :
    (settle out es).p_valid.toInt < 0 ↔ (settle out es).p_prefer.toInt < 0 := by
  induction es generalizing out with
  | nil => exact absurd (List.forall_mem_nil _) h
  | cons e es ih =>
    rw [settle]
    cases hv : e.valid with
    | forever =>
      cases hp : e.preferred with
      | forever => exact Iff.rfl
      | sec n =>
        apply ih
        intro hes
        apply h
        rw [List.forall_mem_cons]
        refine ⟨?_, hes⟩
        simp [Entry.Mixed, hv, hp]
    | sec m =>
      cases hp : e.preferred with
      | forever =>
        apply ih
        intro hes
        apply h
        rw [List.forall_mem_cons]
        refine ⟨?_, hes⟩
        simp [Entry.Mixed, hv, hp]
      | sec n =>
        dsimp only
        rw [toInt_cut, toInt_cut]
        omega

theorem settle_mixed_iff {e : Entry} (he : e.Mixed) (rest : List Entry) :
    (settle out (e :: rest)).p_valid.toInt = e.valid.value ∧
      (settle out (e :: rest)).p_prefer.toInt = e.preferred.value ↔ LeftRight out e rest := by
  by_cases hall : ∀ f ∈ e :: rest, f.Mixed
  · rw [settle_of_mixed out hall, LeftRight]
    exact ⟨fun h => ⟨hall, h⟩, fun h => h.2⟩
  · have hsign := settle_sign out hall
    constructor
    · rintro ⟨hvalid, hprefer⟩
      rw [hvalid, hprefer] at hsign
      rw [Entry.Mixed] at he
      exfalso
      cases hv : e.valid with
      | forever =>
        cases hp : e.preferred with
        | forever => exact he (by rw [hv, hp])
        | sec n =>
          rw [hv, hp] at hsign
          simp only [Lifetime.value] at hsign
          omega
      | sec m =>
        cases hp : e.preferred with
        | forever =>
          rw [hv, hp] at hsign
          simp only [Lifetime.value] at hsign
          omega
        | sec n => exact he (by simp [hv, hp])
    · intro h
      exact absurd h.1 hall

theorem settle_right_iff (e : Entry) (rest : List Entry) :
    (settle out (e :: rest)).p_valid.toInt = e.valid.value ∧
      (settle out (e :: rest)).p_prefer.toInt = e.preferred.value ↔
        e.Uniform ∨ LeftRight out e rest := by
  by_cases hmixed : e.Mixed
  · have hnot : ¬ e.Uniform := by
      intro h
      rw [Entry.Uniform] at h
      rw [Entry.Mixed] at hmixed
      split at h
      · next hv hp => exact hmixed (by rw [hv, hp])
      · next hv hp => exact hmixed (by simp [hv, hp])
      · exact h
    rw [settle_mixed_iff out hmixed]
    constructor
    · exact Or.inr
    · exact fun h => h.resolve_left hnot
  · have hnot : ¬ LeftRight out e rest := fun h => hmixed (h.1 e List.mem_cons_self)
    rw [or_iff_left hnot, settle, Entry.Uniform]
    rw [Entry.Mixed] at hmixed
    cases hv : e.valid with
    | forever =>
      cases hp : e.preferred with
      | forever => exact iff_of_true ⟨rfl, rfl⟩ trivial
      | sec n => exact absurd (by simp [hv, hp]) hmixed
    | sec m =>
      cases hp : e.preferred with
      | forever => exact absurd (by simp [hv, hp]) hmixed
      | sec n =>
        dsimp only
        rw [toInt_cut, toInt_cut, Lifetime.value, Lifetime.value]
        omega

/-- The lifetimes of an address are found just where its entry has two that end or two that do
not, or where mixed ones leave the right values behind. -/
theorem lifetimes_right_iff (r : Record) (o : Output) (out : Lfts) :
    Right r o out (_get_2_lfts (some o.file) r.info out) ↔ Served r o out := by
  rw [Right, Served, find?_eq_head?_fromEntry, get_2_lfts_eq]
  simp only [Option.some.injEq, Prod.mk.injEq, true_and, exists_eq_left']
  cases fromEntry r o.entries with
  | nil => simp [settle]
  | cons e rest => exact settle_right_iff out e rest

def documentation (n : ℕ) : List ℕ := [0x20, 1, 0x0d, 0xb8, 0, 0, 0, 0, 0, 0, 0, 0, 0, 0, 0, n]

def blanks (n : ℕ) : CStr := List.replicate n ' '

/-- An address whose prefix is still valid for a while and preferred without end. -/
def ending : Entry where
  indent := blanks 4
  addr := documentation 1
  len := 64
  more := " global dynamic ".toList
  indent' := blanks 7
  valid := .sec 100
  preferred := .forever
  hindent := List.all_eq_true.mp (by decide)
  haddr := by decide
  hlen := by decide
  hmore := by decide
  hindent' := List.all_eq_true.mp (by decide)
  hfirst := by decide
  hsecond := by decide

def staying : Entry :=
  { ending with
    addr := documentation 2
    valid := .forever
    haddr := by decide
    hfirst := by decide
    hsecond := by decide }

def endingRecord : Record where
  info := ⟨Buf.snprintf "2001:db8::1".toList, Buf.snprintf "2001:db8::/64".toList⟩
  addr := documentation 1
  len := 64
  haddr := by decide
  hpre := ⟨"2001:db8::".toList, "64".toList, rfl, by decide, by decide,
    List.all_eq_true.mp (by decide), by decide⟩
  hlen := by decide

def twoAddresses : Output where
  link := ["3: eth1: <BROADCAST,MULTICAST,UP,LOWER_UP> mtu 1500 qlen 1000".toList]
  entries := [ending, staying]
  hlink := by decide

/-- The lifetimes of the address behind are taken. -/
theorem lifetimes_of_other : ¬ Right endingRecord twoAddresses ⟨0, 0⟩
    (_get_2_lfts (some twoAddresses.file) endingRecord.info ⟨0, 0⟩) := by
  rw [get_2_lfts_eq]
  rintro ⟨out', hout, hright⟩
  rw [← (Prod.mk.inj (Option.some.inj hout)).2] at hright
  exact absurd hright.1 (by decide)

end lookup

end CcspPandM.AddressLifetimes
