import CcspPandM.FgetsLines
import CcspPandM.ScanText
import CcspPandM.TextSearch
import CcspPandM.WordSplit

/-!
The counters of an interface, read from `/proc/net/dev`. Every line in which the
name occurs is read, each over the one before, so that the last of them counts;
its own line is any of them. Interfaces report the numbers less a baseline.
-/
namespace CcspPandM.NetDev

open CString FgetsLines InetText ScanText TextSearch WordSplit

abbrev ULONG := BitVec 32

/-- The members of `COSA_DML_ETH_STATS`. -/
inductive Counter where
  | BytesSent
  | BytesReceived
  | PacketsSent
  | PacketsReceived
  | ErrorsSent
  | ErrorsReceived
  | UnicastPacketsSent
  | UnicastPacketsReceived
  | DiscardPacketsSent
  | DiscardPacketsReceived
  | MulticastPacketsSent
  | MulticastPacketsReceived
  | BroadcastPacketsSent
  | BroadcastPacketsReceived
  | UnknownProtoPacketsReceived
  deriving DecidableEq

abbrev EthStats := Counter → ULONG

/-- The member that takes the token with the given number. -/
def memberOf : ℕ → Option Counter
  | 2 => some .BytesReceived
  | 3 => some .PacketsReceived
  | 4 => some .ErrorsReceived
  | 5 => some .DiscardPacketsReceived
  | 10 => some .BytesSent
  | 11 => some .PacketsSent
  | 12 => some .ErrorsSent
  | 13 => some .DiscardPacketsSent
  | _ => none

def delim (c : Char) : Bool := c = ':' || c = ' ' || c = '\t' || c = '\r' || c = '\n'

def atol (tok : CStr) : ULONG := sscanf_d tok 0

def takeToken (idx : ℕ) (tok : CStr) (pStats : EthStats) : EthStats :=
  match memberOf idx with
  | some c => Function.update pStats c (atol tok)
  | none => pStats

/-- The tokens of a line, from number idx on. -/
def readTokens (idx : ℕ) : List CStr → EthStats → EthStats
  | [], pStats => pStats
  | tok :: toks, pStats => readTokens (idx + 1) toks (takeToken idx tok pStats)

def readLine (pName : CStr) (pStats : EthStats) (buf : CStr) : EthStats :=
  if (strstr pName buf).isSome then readTokens 1 (words delim buf) pStats else pStats

/-- The file is `none` when it does not open. -/
def getIfStats2 (procNetDev : Option CStr) (pName : CStr) (pStats : EthStats) : ℤ × EthStats :=
  match procNetDev.map (reads 511) with
  | none => (-1, pStats)
  | some [] => (-1, pStats)
  | some (_ :: bufs) => (0, bufs.foldl (readLine pName) pStats)

def less (pStats LastStats : EthStats) : EthStats := fun c => pStats c - LastStats c

/-- `CosaDmlEthPortGetStats` of a port whose statistics come from the kernel. -/
def CosaDmlEthPortGetStats (procNetDev : Option CStr) (name : CStr) (LastStats : EthStats) :
    EthStats :=
  less (getIfStats2 procNetDev name fun _ => 0).2 LastStats

section Tokens

/-- The number of the token that a member takes. -/
def numberOf : Counter → Option ℕ
  | .BytesReceived => some 2
  | .PacketsReceived => some 3
  | .ErrorsReceived => some 4
  | .DiscardPacketsReceived => some 5
  | .BytesSent => some 10
  | .PacketsSent => some 11
  | .ErrorsSent => some 12
  | .DiscardPacketsSent => some 13
  | _ => none

variable {c : Counter}

theorem memberOf_iff {i : ℕ} : memberOf i = some c ↔ numberOf c = some i := by
  constructor
  · intro h
    unfold memberOf at h
    split at h <;> first | (obtain rfl := Option.some.inj h; rfl) | cases h
  · intro h
    cases c <;> first | (obtain rfl := Option.some.inj h; rfl) | cases h

theorem memberOf_inj {i j : ℕ} (hi : memberOf i = some c) (hj : memberOf j = some c) :
    i = j :=
  Option.some.inj ((memberOf_iff.mp hi).symm.trans (memberOf_iff.mp hj))

variable {idx : ℕ}

theorem takeToken_of_ne (h : memberOf idx ≠ some c) (tok : CStr)
    (pStats : EthStats) : takeToken idx tok pStats c = pStats c := by
  unfold takeToken
  cases hm : memberOf idx with
  | none => rfl
  | some d =>
    rw [hm] at h
    exact Function.update_of_ne (fun hcd => h (by rw [hcd])) _ _

theorem readTokens_of_ne (h : ∀ i, idx ≤ i → memberOf i ≠ some c)
    (toks : List CStr) (pStats : EthStats) : readTokens idx toks pStats c = pStats c := by
  induction toks generalizing idx pStats with
  | nil => rfl
  | cons tok toks ih =>
    rw [readTokens, ih fun i hi => h i (by omega)]
    exact takeToken_of_ne (h idx (Nat.le_refl idx)) tok pStats

theorem readTokens_apply {i : ℕ} (hc : memberOf i = some c)
    (hle : idx ≤ i) (toks : List CStr) (pStats : EthStats) :
    readTokens idx toks pStats c = (toks[i - idx]?.map atol).getD (pStats c) := by
  induction toks generalizing idx pStats with
  | nil => rfl
  | cons tok toks ih =>
    rw [readTokens]
    rcases hle.eq_or_lt with rfl | hlt
    · have hlater : ∀ j, idx + 1 ≤ j → memberOf j ≠ some c := by
        intro j hj hjc
        have hsame := memberOf_inj hc hjc
        omega
      rw [readTokens_of_ne hlater, takeToken, hc, Nat.sub_self]
      exact Function.update_self ..
    · have hplace : i - idx = i - (idx + 1) + 1 := by omega
      have hother : memberOf idx ≠ some c := fun h => hlt.ne (memberOf_inj h hc)
      rw [ih hlt, hplace, List.getElem?_cons_succ, takeToken_of_ne hother]

end Tokens

/-- A line of the file: a name behind blanks, a colon, and sixteen numbers behind
blanks, of which the first may stick to the colon. -/
structure Line where
  lead : CStr
  name : CStr
  gap : CStr
  first : ℕ
  others : List (CStr × ℕ)
  trail : CStr
  lead_blank : ∀ c ∈ lead, c = ' ' ∨ c = '\t'
  name_word : Word delim name
  gap_blank : ∀ c ∈ gap, c = ' ' ∨ c = '\t'
  others_apart : ∀ f ∈ others, f.1 ≠ [] ∧ ∀ c ∈ f.1, c = ' ' ∨ c = '\t'
  others_length : others.length = 15
  trail_blank : ∀ c ∈ trail, c = ' ' ∨ c = '\t'

namespace Line

variable (l : Line)

def pieces : List (CStr × CStr) :=
  (':' :: l.gap, decimal l.first) :: l.others.map fun f => (f.1, decimal f.2)

def text : CStr := l.lead ++ l.name ++ spaced l.pieces ++ l.trail

def numbers : List ℕ := l.first :: l.others.map Prod.snd

/-- What the line says of a member: its first number is token two. -/
def counter (c : Counter) : Option ℕ := (numberOf c).bind fun i => l.numbers[i - 2]?

variable {l}

theorem delim_blank {b : CStr} (h : ∀ c ∈ b, c = ' ' ∨ c = '\t') : ∀ c ∈ b, delim c = true := by
  intro c hc
  rcases h c hc with rfl | rfl
  · rfl
  · rfl

theorem word_decimal (n : ℕ) : Word delim (decimal n) := by
  refine ⟨decimal_ne_nil n, fun c hc => ?_⟩
  have hdigit := isDigit_of_mem_decimal hc
  have hne (d : Char) (hd : d.isDigit = false) : c ≠ d := ne_of_isDigit hdigit hd
  simp [delim, hne ':' rfl, hne ' ' rfl, hne '\t' rfl, hne '\r' rfl, hne '\n' rfl]

theorem pieces_good : ∀ q ∈ l.pieces, Gap delim q.1 ∧ Word delim q.2 := by
  intro q hq
  rcases List.mem_cons.mp hq with rfl | hq
  · refine ⟨⟨List.cons_ne_nil _ _, ?_⟩, word_decimal l.first⟩
    exact List.forall_mem_cons.mpr ⟨rfl, delim_blank l.gap_blank⟩
  · obtain ⟨f, hf, rfl⟩ := List.mem_map.mp hq
    obtain ⟨hne, hblank⟩ := l.others_apart f hf
    exact ⟨⟨hne, delim_blank hblank⟩, word_decimal f.2⟩

theorem words_text : words delim (l.text ++ ['\n']) = l.name :: l.numbers.map decimal := by
  have hend : Gap delim (l.trail ++ ['\n']) := by
    refine ⟨by simp, fun c hc => ?_⟩
    rcases List.mem_append.mp hc with hc | hc
    · exact delim_blank l.trail_blank c hc
    · rw [List.mem_singleton.mp hc]
      rfl
  obtain ⟨d, r, hstart, hd⟩ := spaced_starts (fun q hq => (pieces_good (l := l) q hq).1) hend
  have htext : l.text ++ ['\n'] = l.lead ++ (l.name ++ d :: r) := by
    rw [← hstart]
    simp [text]
  rw [htext, words_append (delim_blank l.lead_blank), words_word l.name_word hd, ← hstart,
    words_spaced pieces_good hend, pieces, numbers, List.map_cons, List.map_cons, List.map_map,
    List.map_map]
  rfl

/-- The name occurs in the line. -/
def mentions (name : CStr) (l : Line) : Bool := (strstr name (l.text ++ ['\n'])).isSome

/-- What `getIfStats2` takes from the line. -/
def read (l : Line) (pStats : EthStats) : EthStats := fun c =>
  ((l.counter c).map fun n => BitVec.ofNat 32 (min n (2 ^ 31 - 1))).getD (pStats c)

theorem atol_decimal (n : ℕ) : atol (decimal n) = BitVec.ofNat 32 (min n (2 ^ 31 - 1)) := by
  have hcap : max (-(2 ^ 31)) (min (n : ℤ) (2 ^ 31 - 1)) = (min n (2 ^ 31 - 1) : ℕ) := by omega
  rw [atol, sscanf_d, scanNumber_decimal]
  exact congrArg (BitVec.ofInt 32) hcap

theorem readTokens_words (pStats : EthStats) :
    readTokens 1 (words delim (l.text ++ ['\n'])) pStats = l.read pStats := by
  funext c
  rw [words_text, read, counter]
  cases hc : numberOf c with
  | none =>
    refine readTokens_of_ne (fun i _ hi => ?_) _ _
    rw [memberOf_iff.mp hi] at hc
    cases hc
  | some i =>
    have hmember := memberOf_iff.mpr hc
    have htwo : 2 ≤ i := by
      cases c <;> cases hc <;> decide
    rw [readTokens_apply hmember (by omega), show i - 1 = i - 2 + 1 by omega,
      List.getElem?_cons_succ, List.getElem?_map, Option.map_map, Option.bind_some]
    simp only [Function.comp_def, atol_decimal]

theorem counter_isSome (c : Counter) : (l.counter c).isSome = (numberOf c).isSome := by
  have hlen : l.numbers.length = 16 := by simp [numbers, l.others_length]
  rw [counter]
  cases hc : numberOf c with
  | none => rfl
  | some i =>
    have hlt : i - 2 < l.numbers.length := by
      rw [hlen]
      cases c <;> cases hc <;> decide
    rw [Option.bind_some, List.getElem?_eq_getElem hlt]
    rfl

/-- A later line takes back what an earlier one wrote. -/
theorem read_read (m : Line) (pStats : EthStats) : l.read (m.read pStats) = l.read pStats := by
  funext c
  have hsame : (l.counter c).isSome = (m.counter c).isSome := by
    rw [counter_isSome, counter_isSome]
  unfold read
  cases hl : l.counter c with
  | some n => rfl
  | none =>
    rw [hl, eq_comm, Option.isSome_none, Option.isSome_eq_false_iff, Option.isNone_iff_eq_none]
      at hsame
    rw [hsame]
    rfl

end Line

/-- The head line and the lines of different interfaces, each short enough for
the buffer. -/
structure File where
  head : CStr
  lines : List Line
  head_line : '\n' ∉ head ∧ head.length < 511
  distinct : (lines.map Line.name).Nodup
  fits : ∀ l ∈ lines, l.text.length < 511

section Files

variable (file : File) (name : CStr) (pStats : EthStats)

def File.text : CStr := (file.head :: file.lines.map Line.text).flatMap fun t => t ++ ['\n']

/-- The last line in which the name occurs. -/
def File.last : Option Line := (file.lines.filter (Line.mentions name)).getLast?

def File.own : Option Line := file.lines.find? fun l => l.name = name

/-- The counters of the interface's own line, or the old ones when it has none. -/
def File.wanted (c : Counter) : ℕ :=
  ((file.own name).bind fun l => l.counter c).getD (pStats c).toNat

variable {file name pStats}

theorem newline_notMem (l : Line) : '\n' ∉ l.text := by
  have hblank {b : CStr} (h : ∀ c ∈ b, c = ' ' ∨ c = '\t') : '\n' ∉ b := fun hmem =>
    absurd (h _ hmem) (by decide)
  have hdecimal (n : ℕ) : '\n' ∉ decimal n := fun hmem =>
    absurd (isDigit_of_mem_decimal hmem) (by decide)
  have hname : '\n' ∉ l.name := fun hmem => absurd (l.name_word.2 _ hmem) (by decide)
  have hothers : '\n' ∉ spaced (l.others.map fun f => (f.1, decimal f.2)) := by
    intro hmem
    obtain ⟨q, hq, hc⟩ := List.mem_flatMap.mp hmem
    obtain ⟨f, hf, rfl⟩ := List.mem_map.mp hq
    rcases List.mem_append.mp hc with hc | hc
    · exact hblank (l.others_apart f hf).2 hc
    · exact hdecimal f.2 hc
  have hpieces : '\n' ∉ spaced l.pieces := by
    intro hmem
    rcases List.mem_append.mp hmem with hc | hc
    · simp [hblank l.gap_blank, hdecimal] at hc
    · exact hothers hc
  simp [Line.text, hblank l.lead_blank, hname, hpieces, hblank l.trail_blank]

theorem reads_text : reads 511 file.text =
    (file.head ++ ['\n']) :: file.lines.map fun l => l.text ++ ['\n'] := by
  rw [File.text, reads_lines, List.map_cons, List.map_map]
  · rfl
  · refine List.forall_mem_cons.mpr ⟨file.head_line, fun t ht => ?_⟩
    obtain ⟨l, hl, rfl⟩ := List.mem_map.mp ht
    exact ⟨newline_notMem l, file.fits l hl⟩

/-- The last line that the name occurs in decides, whosever it is. -/
theorem foldl_readLine (ls : List Line) (pStats : EthStats) :
    (ls.map fun l => l.text ++ ['\n']).foldl (readLine name) pStats =
      ((ls.filter (Line.mentions name)).getLast?.map fun l => l.read pStats).getD pStats := by
  induction ls generalizing pStats with
  | nil => rfl
  | cons l ls ih =>
    rw [List.map_cons, List.foldl_cons, ih, readLine, Line.readTokens_words]
    by_cases h : Line.mentions name l = true
    · have hfound : (strstr name (l.text ++ ['\n'])).isSome = true := h
      rw [if_pos hfound, List.filter_cons_of_pos h, List.getLast?_cons]
      cases (ls.filter (Line.mentions name)).getLast? with
      | none => rfl
      | some m => exact Line.read_read l pStats
    · have hfound : ¬(strstr name (l.text ++ ['\n'])).isSome = true := h
      rw [if_neg hfound, List.filter_cons_of_neg h]

theorem getIfStats2_eq : getIfStats2 (some file.text) name pStats =
    (0, ((file.last name).map fun l => l.read pStats).getD pStats) := by
  rw [getIfStats2, Option.map_some, reads_text]
  exact congrArg (Prod.mk 0) (foldl_readLine file.lines pStats)

theorem own_none (h : file.last name = none) : file.own name = none := by
  rw [File.last, List.getLast?_eq_none_iff, List.filter_eq_nil_iff] at h
  refine List.find?_eq_none.mpr fun l hl hname => h l hl ?_
  rw [Line.mentions, strstr_isSome, ← of_decide_eq_true hname]
  exact ⟨l.lead, spaced l.pieces ++ l.trail ++ ['\n'], by simp [Line.text]⟩

theorem counter_eq_none_iff (l m : Line) (c : Counter) :
    l.counter c = none ↔ m.counter c = none := by
  rw [← Option.isNone_iff_eq_none, ← Option.isNone_iff_eq_none, ← Option.not_isSome,
    ← Option.not_isSome, Line.counter_isSome, Line.counter_isSome]

/-- The counters are those of the interface's own line, and unchanged without one,
exactly when the last line in which the name occurs says the same: its numbers,
cut off at `LONG_MAX`, are the own ones. A port reports them less its baseline. -/
theorem getIfStats2_right_iff (file : File) (name : CStr) (pStats LastStats : EthStats) :
    ((∀ c, ((getIfStats2 (some file.text) name pStats).2 c).toNat = file.wanted name pStats c) ↔
      ∀ l, file.last name = some l → ∀ c n, l.counter c = some n →
        min n (2 ^ 31 - 1) = file.wanted name pStats c) ∧
    ((∀ l, file.last name = some l → ∀ c n, l.counter c = some n →
        min n (2 ^ 31 - 1) = file.wanted name (fun _ => 0) c) → ∀ c,
      CosaDmlEthPortGetStats (some file.text) name LastStats c =
        BitVec.ofNat 32 (file.wanted name (fun _ => 0) c) - LastStats c) := by
  have hiff (pStats : EthStats) :
      (∀ c, ((getIfStats2 (some file.text) name pStats).2 c).toNat = file.wanted name pStats c) ↔
        ∀ l, file.last name = some l → ∀ c n, l.counter c = some n →
          min n (2 ^ 31 - 1) = file.wanted name pStats c := by
    rw [getIfStats2_eq]
    cases hlast : file.last name with
    | none =>
      have hown := own_none hlast
      refine iff_of_true (fun c => ?_) fun l hl => by cases hl
      rw [File.wanted, hown]
      rfl
    | some l =>
      have hcap (n : ℕ) : (BitVec.ofNat 32 (min n (2 ^ 31 - 1))).toNat = min n (2 ^ 31 - 1) := by
        rw [BitVec.toNat_ofNat, Nat.mod_eq_of_lt (by omega)]
      change (∀ c, (l.read pStats c).toNat = _) ↔ _
      constructor
      · intro h m hm c n hn
        obtain rfl := Option.some.inj hm
        rw [← h c, Line.read, hn]
        exact (hcap n).symm
      · intro h c
        rw [Line.read]
        cases hc : l.counter c with
        | some n => exact (hcap n).trans (h l rfl c n hc)
        | none =>
          have hwanted : (file.own name).bind (fun m => m.counter c) = none := by
            cases file.own name with
            | none => rfl
            | some m => exact (counter_eq_none_iff l m c).mp hc
          rw [File.wanted, hwanted]
          rfl
  refine ⟨hiff pStats, fun h c => ?_⟩
  have hvalue := (hiff fun _ => 0).mpr h c
  rw [← hvalue, BitVec.ofNat_toNat, BitVec.setWidth_eq]
  rfl

end Files

end CcspPandM.NetDev
