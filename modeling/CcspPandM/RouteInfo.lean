import CcspPandM.FgetsLines
import CcspPandM.Ipv6Text
import CcspPandM.TextSearch

/-!
The route information options that the kernel lists, one to a line. The bytes of a
prefix are stored into an address that is not cleared before, its text is printed, and
the length is appended with the bound `sizeof(out_size) - strlen(out)`, an unsigned
difference of 4 and the length of the text. `size_t` has 32 bits here.
-/
namespace CcspPandM.RouteInfo

open BitWindow CString InetText PrefixText ScanText ScanFields TextSearch

inductive PrfType
  | High
  | Medium
  | Low
  deriving DecidableEq

inductive StatusType
  | ForwardingEntryCreated
  | NoForwardingEntry
  deriving DecidableEq

structure RouteInfoIf where
  SourceRouter : Buf 64
  Prefix : CStr
  RouteLifetime : Option CStr
  PreferredRouteFlag : PrfType
  Status : StatusType

/-- What the function finds outside of it: the lifetime that the routing table has for a
prefix, and what the address holds at the start of each of its calls. -/
structure Env where
  _routeinfo_get_lft : CStr → Option CStr
  addr6 : ℕ → Bytes 16

/-- The bytes stored for the tokens; `val` keeps its value where no number is found. -/
def tokenBytes (val : BitVec 32) : List CStr → List ℕ
  | [] => []
  | p_token :: rest =>
    let val' := ((scanHexOf 2 p_token).map Prod.fst).getD val
    val'.toNat % 256 :: tokenBytes val' rest

def byteCount (pref_len : BitVec 32) : ℕ :=
  let p := pref_len.toInt
  (min (if p.tmod 8 ≠ 0 then p.tdiv 8 + 1 else p.tdiv 8) 16).toNat

/-- `sizeof(out_size) - strlen(out)`. -/
def suffixBound (out : CStr) : ℕ := (4 - BitVec.ofNat 32 out.length : BitVec 32).toNat

def _routeinfo_get_prefix (addr6 : Bytes 16) (bytesText : CStr) (pref_len : BitVec 32) : CStr :=
  let vals := tokenBytes 0 ((tokens ':' bytesText).take (byteCount pref_len))
  let out := inet_ntop6 (vals ++ (octets addr6).drop vals.length)
  out ++ ('/' :: intText pref_len).take (suffixBound out - 1)

/-- What `sscanf` finds in a line. -/
structure Fields where
  route_addr : CStr
  pref_len : BitVec 32
  pref_route_flag : BitVec 32
  bytesText : CStr

def scanFields (line : CStr) : Option Fields := do
  let (route_addr, line) ← scanWord line
  let (pref_len, line) ← scanInt line
  let (pref_route_flag, line) ← scanHexOf 2 line
  let (bytesText, _) ← scanWord line
  return { route_addr, pref_len, pref_route_flag, bytesText }

/-- The fields of a line that is not passed over. -/
def lineFields (line : CStr) : Option Fields :=
  if ' ' ∉ line then none
  else if 64 ≤ (line.takeWhile (· ≠ ' ')).length then none
  else if 64 ≤ (line.reverse.takeWhile (· ≠ ' ')).length + 1 then none
  else (scanFields line).filter fun f => f.pref_route_flag ≠ 0x10

def entry (env : Env) (call : ℕ) (f : Fields) : RouteInfoIf :=
  let pfx := _routeinfo_get_prefix (env.addr6 call) f.bytesText f.pref_len
  { SourceRouter := Buf.sprintf_s f.route_addr
    Prefix := pfx
    RouteLifetime := env._routeinfo_get_lft pfx
    PreferredRouteFlag :=
      if f.pref_route_flag = 0 then .Medium else if f.pref_route_flag = 1 then .High else .Low
    Status :=
      if (env._routeinfo_get_lft pfx).isSome then .ForwardingEntryCreated else .NoForwardingEntry }

def entries (env : Env) (num : ℕ) : List CStr → List RouteInfoIf
  | [] => []
  | line :: lines =>
    match lineFields line with
    | none => entries env num lines
    | some f => entry env num f :: entries env (num + 1) lines

def CosaDmlRoutingGetRouteInfoIf (env : Env) (file : CStr) : List RouteInfoIf :=
  entries env 0 (FgetsLines.reads 1022 file)

/-- A line of the file: `source length flag b0:b1:...:`. -/
structure Line where
  source : CStr
  length : ℕ
  flag : CStr
  bytes : List CStr
  source_address : (inet_pton6 source).isSome
  length_le : length ≤ 128
  flag_hex : IsHex flag ∧ flag.length = 2
  bytes_hex : ∀ b ∈ bytes, IsHex b ∧ b.length = 2
  enough : length ≤ 8 * bytes.length

namespace Line

variable (l : Line)

def bytesText : CStr := l.bytes.flatMap fun b => b ++ [':']

def text : CStr :=
  l.source ++ (' ' :: (decimal l.length ++ (' ' :: (l.flag ++ (' ' :: (l.bytesText ++ ['\n']))))))

def count : ℕ := (l.length + 7) / 8

def address : List ℕ :=
  (l.bytes.take l.count).map hexNat ++ List.replicate (16 - l.count) 0

def Wanted : Prop := hexNat l.flag ≠ 0x10

instance : Decidable l.Wanted := inferInstanceAs (Decidable (_ ≠ _))

def fields : Fields where
  route_addr := l.source
  pref_len := BitVec.ofNat 32 l.length
  pref_route_flag := BitVec.ofNat 32 (hexNat l.flag)
  bytesText := l.bytesText

def Readable : Prop := l.bytes ≠ [] ∧ l.bytes.length ≤ 20

instance : Decidable l.Readable := inferInstanceAs (Decidable (_ ∧ _))

end Line

def fileText (lines : List Line) : CStr := lines.flatMap Line.text

/-- The entry is the one of the line, and its prefix text is right and within its field. -/
def Describes (l : Line) (e : RouteInfoIf) : Prop :=
  e.SourceRouter.text = l.source ∧ e.Prefix.length < 64 ∧
    ∃ p, e.Prefix = p ++ '/' :: decimal l.length ∧ inet_pton6 p = some l.address

def ListsRoutes (env : Env) (lines : List Line) : Prop :=
  List.Forall₂ Describes (lines.filter (fun l => l.Wanted))
    (CosaDmlRoutingGetRouteInfoIf env (fileText lines))

/-- The line is read, the address holds zeros behind the listed bytes, and its text is
long enough for the length to be written. -/
def Fits (l : Line) (addr6 : Bytes 16) : Prop :=
  l.Readable ∧ (octets addr6).drop l.count = List.replicate (16 - l.count) 0 ∧
    4 < (inet_ntop6 l.address).length

section scanning

variable (l : Line)

theorem isspace_of_addressChar {c : Char} (h : Ipv6Text.IsAddressChar c) : isspace c = false := by
  rcases h with h | rfl | rfl
  · exact isspace_of_isHexDigit h
  · rfl
  · rfl

theorem source_chars : ∀ c ∈ l.source, isspace c = false := by
  intro c hc
  obtain ⟨os, hos⟩ := Option.isSome_iff_exists.mp l.source_address
  exact isspace_of_addressChar (Ipv6Text.inet_pton6_chars hos c hc)

theorem source_ne_nil : l.source ≠ [] := by
  intro h
  have hsome := l.source_address
  rw [h] at hsome
  cases hsome

theorem source_length : l.source.length < 46 := by
  obtain ⟨os, hos⟩ := Option.isSome_iff_exists.mp l.source_address
  exact inet_pton6_text_le hos

theorem decimal_chars (n : ℕ) : ∀ c ∈ decimal n, isspace c = false :=
  fun _ hc => isspace_of_isDigit (isDigit_of_mem_decimal hc)

theorem flag_chars : ∀ c ∈ l.flag, isspace c = false :=
  fun c hc => isspace_of_isHexDigit (l.flag_hex.1.2 c hc)

theorem bytesText_chars : ∀ c ∈ l.bytesText, isspace c = false := by
  intro c hc
  obtain ⟨b, hb, hcb⟩ := List.mem_flatMap.mp hc
  rcases List.mem_append.mp hcb with hcb | hcb
  · exact isspace_of_isHexDigit ((l.bytes_hex b hb).1.2 c hcb)
  · rw [List.mem_singleton.mp hcb]
    rfl

theorem length_bytesText : l.bytesText.length = 3 * l.bytes.length := by
  have hall : ∀ bs : List CStr, (∀ b ∈ bs, b.length = 2) →
      (bs.flatMap fun b => b ++ [':']).length = 3 * bs.length := by
    intro bs hbs
    induction bs with
    | nil => rfl
    | cons b bs ih =>
      have hb := hbs b List.mem_cons_self
      rw [List.flatMap_cons, List.length_append, ih fun d hd => hbs d (List.mem_cons_of_mem _ hd),
        List.length_append, List.length_singleton, List.length_cons, hb]
      omega
  exact hall l.bytes fun b hb => (l.bytes_hex b hb).2

theorem length_decimal : (decimal l.length).length ≤ 3 :=
  (decimal_length_le_iff (by decide)).mpr (by have hle := l.length_le; omega)

theorem scanFields_text :
    scanFields l.text = if l.bytes = [] then none else some l.fields := by
  have hblank : ∀ t, Ended (' ' :: t) := ended_cons rfl
  have hflag : hexNat l.flag < 16 ^ 2 := by
    have hlt := hexNat_lt l.flag
    rwa [l.flag_hex.2] at hlt
  have hsource := scanWord_field gap_nil (source_ne_nil l) (source_chars l) (hblank
    (decimal l.length ++ (' ' :: (l.flag ++ (' ' :: (l.bytesText ++ ['\n']))))))
  have hlength := scanInt_decimal (n := l.length) (by have hle := l.length_le; omega) gap_blank
    (hblank (l.flag ++ (' ' :: (l.bytesText ++ ['\n']))))
  have hhex := @scanHexOf_field 2 [' '] l.flag (' ' :: (l.bytesText ++ ['\n'])) gap_blank
    l.flag_hex.1 (by rw [l.flag_hex.2]) (by omega) (by
      rw [l.flag_hex.2]
      intro c hc
      cases hc)
  rw [List.nil_append] at hsource
  rw [List.singleton_append] at hlength hhex
  simp only [scanFields, Line.text, hsource, hlength, hhex, Option.bind_eq_bind, Option.bind_some]
  by_cases hne : l.bytes = []
  · rw [if_pos hne, Line.bytesText, hne]
    rfl
  · have hbytes : l.bytesText ≠ [] := by
      intro h
      have hlen := length_bytesText l
      rw [h, List.length_nil] at hlen
      exact hne (List.length_eq_zero_iff.mp (by omega))
    have hword := scanWord_field gap_blank hbytes (bytesText_chars l) (@ended_cons '\n' rfl [])
    rw [List.singleton_append] at hword
    rw [if_neg hne, hword]
    rfl

def Line.head : CStr :=
  l.source ++ (' ' :: (decimal l.length ++ (' ' :: l.flag)))

theorem text_eq : l.text = l.head ++ (' ' :: (l.bytesText ++ ['\n'])) := by
  simp [Line.text, Line.head]

theorem length_head : l.head.length ≤ 52 := by
  have hsource := source_length l
  have hlen := length_decimal l
  have hflag := l.flag_hex.2
  simp only [Line.head, List.length_append, List.length_cons]
  omega

theorem notMem_of_isspace {c : Char} (hc : isspace c = true) {t : CStr}
    (ht : ∀ d ∈ t, isspace d = false) : c ∉ t := by
  intro hmem
  rw [ht c hmem] at hc
  cases hc

theorem newline_notMem : '\n' ∉ l.head ++ (' ' :: l.bytesText) := by
  have hsource := notMem_of_isspace (c := '\n') rfl (source_chars l)
  have hlen := notMem_of_isspace (c := '\n') rfl (decimal_chars l.length)
  have hflag := notMem_of_isspace (c := '\n') rfl (flag_chars l)
  have hbytes := notMem_of_isspace (c := '\n') rfl (bytesText_chars l)
  simp [Line.head, hsource, hlen, hflag, hbytes]

theorem takeWhile_head (tail : CStr) :
    (l.head ++ tail).takeWhile (· ≠ ' ') = l.source := by
  have hblank := notMem_of_isspace (c := ' ') rfl (source_chars l)
  rw [Line.head, List.append_assoc, List.takeWhile_append_of_pos (fun c hc => by
    rw [decide_eq_true_eq]
    rintro rfl
    exact hblank hc)]
  simp

theorem takeWhile_last (front : CStr) {tail : CStr} (htail : ' ' ∉ tail) :
    (front ++ ' ' :: tail).reverse.takeWhile (· ≠ ' ') = tail.reverse := by
  rw [List.reverse_append, List.reverse_cons, List.append_assoc,
    List.takeWhile_append_of_pos (fun c hc => by
      rw [decide_eq_true_eq]
      rintro rfl
      exact htail (List.mem_reverse.mp hc))]
  simp

theorem lineFields_head {tail : CStr} (htail : ' ' ∉ tail) :
    lineFields (l.head ++ ' ' :: tail) = if 63 ≤ tail.length then none else
      (scanFields (l.head ++ ' ' :: tail)).filter fun f => f.pref_route_flag ≠ 0x10 := by
  have hsource := source_length l
  have hmem : ¬ ' ' ∉ l.head ++ ' ' :: tail := fun h => h (by simp)
  rw [lineFields, if_neg hmem, takeWhile_head, if_neg (by omega), takeWhile_last _ htail,
    List.length_reverse]
  congr 1
  rw [Nat.succ_le_succ_iff]

theorem blank_notMem_bytes : ' ' ∉ l.bytesText := notMem_of_isspace rfl (bytesText_chars l)

theorem blank_notMem_tail : ' ' ∉ l.bytesText ++ ['\n'] := by
  have h := blank_notMem_bytes l
  simp [h]

theorem flag_eq_iff : BitVec.ofNat 32 (hexNat l.flag) = 0x10 ↔ hexNat l.flag = 0x10 := by
  have hlt := hexNat_lt l.flag
  rw [l.flag_hex.2] at hlt
  constructor
  · intro h
    have hval := congrArg BitVec.toNat h
    rw [BitVec.toNat_ofNat, Nat.mod_eq_of_lt (by omega)] at hval
    exact hval
  · intro h
    rw [h]
    rfl

theorem filter_fields : (some l.fields).filter (fun f => f.pref_route_flag ≠ 0x10) =
    if l.Wanted then some l.fields else none := by
  have hflag : decide (l.fields.pref_route_flag ≠ 0x10) = decide l.Wanted :=
    decide_eq_decide.mpr (not_congr (flag_eq_iff l))
  rw [Option.filter_some, hflag]
  by_cases hwanted : l.Wanted <;> simp [hwanted]

theorem lineFields_text :
    lineFields l.text = if l.Readable ∧ l.Wanted then some l.fields else none := by
  have hlen := length_bytesText l
  rw [text_eq, lineFields_head l (blank_notMem_tail l), List.length_append, hlen,
    List.length_singleton, ← text_eq, scanFields_text]
  by_cases hne : l.bytes = []
  · have hread : ¬ (l.Readable ∧ l.Wanted) := fun h => h.1.1 hne
    rw [if_pos hne, if_neg hread, Option.filter_none, ite_self]
  · rw [if_neg hne, filter_fields]
    by_cases hmany : l.bytes.length ≤ 20
    · have hshort : ¬ 63 ≤ 3 * l.bytes.length + 1 := by omega
      have hread : l.Readable := ⟨hne, hmany⟩
      rw [if_neg hshort]
      simp only [hread, true_and]
    · have hread : ¬ (l.Readable ∧ l.Wanted) := fun h => hmany h.1.2
      have hlong : 63 ≤ 3 * l.bytes.length + 1 := by omega
      rw [if_pos hlong, if_neg hread]

variable (env : Env) (num : ℕ)

theorem entries_none {line : CStr} (h : lineFields line = none) (lines : List CStr) :
    entries env num (line :: lines) = entries env num lines := by
  rw [entries, h]

theorem entries_blankless {t : CStr} (hnl : '\n' ∉ t) (hblank : ' ' ∉ t) (rest : CStr) :
    entries env num (FgetsLines.reads 1022 (t ++ '\n' :: rest)) =
      entries env num (FgetsLines.reads 1022 rest) := by
  induction hlen : t.length using Nat.strongRecOn generalizing t with
  | _ n ih =>
    have hnone : ∀ u : CStr, ' ' ∉ u → lineFields u = none := fun u hu => if_pos hu
    by_cases hfit : t.length < 1022
    · rw [FgetsLines.reads_line hnl hfit, entries_none]
      apply hnone
      simp [hblank]
    · rw [FgetsLines.reads_piece hnl (by omega) (by omega), entries_none]
      · exact ih (t.drop 1022).length (by rw [List.length_drop]; omega)
          (fun h => hnl (List.mem_of_mem_drop h)) (fun h => hblank (List.mem_of_mem_drop h)) rfl
      · exact hnone _ fun h => hblank (List.mem_of_mem_take h)

theorem entries_text (rest : CStr) :
    entries env num (FgetsLines.reads 1022 (l.text ++ rest)) =
      if l.Readable ∧ l.Wanted then
        entry env num l.fields :: entries env (num + 1) (FgetsLines.reads 1022 rest)
      else entries env num (FgetsLines.reads 1022 rest) := by
  have htext : l.text ++ rest = (l.head ++ ' ' :: l.bytesText) ++ '\n' :: rest := by
    rw [text_eq]
    simp
  have hline : (l.head ++ ' ' :: l.bytesText) ++ ['\n'] = l.text := by
    rw [text_eq]
    simp
  have hhead := length_head l
  have hbytes := length_bytesText l
  rw [htext]
  by_cases hfit : (l.head ++ ' ' :: l.bytesText).length < 1022
  · rw [FgetsLines.reads_line (newline_notMem l) hfit, hline, entries, lineFields_text]
    by_cases h : l.Readable ∧ l.Wanted
    · rw [if_pos h, if_pos h]
    · rw [if_neg h, if_neg h]
  · have hlong := hfit
    rw [List.length_append, List.length_cons] at hlong
    have hmany : ¬ (l.Readable ∧ l.Wanted) := fun h => by
      have hle := h.1.2
      omega
    have htake : (l.head ++ ' ' :: l.bytesText).take 1022 =
        l.head ++ ' ' :: l.bytesText.take (1021 - l.head.length) := by
      rw [List.take_append, List.take_of_length_le (by omega),
        show 1022 - l.head.length = 1021 - l.head.length + 1 by omega, List.take_succ_cons]
    have hdrop : (l.head ++ ' ' :: l.bytesText).drop 1022 =
        l.bytesText.drop (1021 - l.head.length) := by
      rw [List.drop_append, List.drop_eq_nil_of_le (by omega), List.nil_append,
        show 1022 - l.head.length = 1021 - l.head.length + 1 by omega, List.drop_succ_cons]
    have hblank := blank_notMem_bytes l
    rw [FgetsLines.reads_piece (newline_notMem l) (by omega) (by omega), if_neg hmany, htake, hdrop,
      entries_none, entries_blankless]
    · exact fun h => newline_notMem l
        (List.mem_append_right _ (List.mem_cons_of_mem _ (List.mem_of_mem_drop h)))
    · exact fun h => hblank (List.mem_of_mem_drop h)
    · rw [lineFields_head l (fun h => hblank (List.mem_of_mem_take h)), List.length_take,
        if_pos (by omega)]

theorem entries_fileText (lines : List Line) :
    entries env num (FgetsLines.reads 1022 (fileText lines)) =
      ((lines.filter fun l => l.Wanted).filter fun l => l.Readable).mapIdx
        fun i l => entry env (num + i) l.fields := by
  induction lines generalizing num with
  | nil => rfl
  | cons l lines ih =>
    rw [fileText, List.flatMap_cons, entries_text]
    change (if _ then _ :: entries env (num + 1) (FgetsLines.reads 1022 (fileText lines)) else
      entries env num (FgetsLines.reads 1022 (fileText lines))) = _
    rw [ih, ih]
    by_cases hwanted : l.Wanted
    · by_cases hread : l.Readable
      · rw [if_pos ⟨hread, hwanted⟩, List.filter_cons_of_pos (by simpa using hwanted),
          List.filter_cons_of_pos (by simpa using hread), List.mapIdx_cons]
        simp only [Nat.add_zero, Nat.add_assoc, Nat.add_comm 1]
      · rw [if_neg (fun h => hread h.1), List.filter_cons_of_pos (by simpa using hwanted),
          List.filter_cons_of_neg (by simpa using hread)]
    · rw [if_neg (fun h => hwanted h.2), List.filter_cons_of_neg (by simpa using hwanted)]

end scanning

section prefixes

variable (l : Line) (addr6 : Bytes 16)

theorem count_le : l.count ≤ 16 ∧ l.count ≤ l.bytes.length := by
  have hle := l.length_le
  have henough := l.enough
  rw [Line.count]
  omega

theorem byteCount_length : byteCount (BitVec.ofNat 32 l.length) = l.count := by
  have hle := l.length_le
  have hint : (BitVec.ofNat 32 l.length).toInt = (l.length : ℤ) := by
    rw [BitVec.toInt_eq_toNat_of_lt (by rw [BitVec.toNat_ofNat]; omega), BitVec.toNat_ofNat,
      Nat.mod_eq_of_lt (by omega)]
  rw [byteCount, hint, Line.count, Int.tmod_eq_emod_of_nonneg (by omega),
    Int.tdiv_eq_ediv_of_nonneg (by omega)]
  split <;> omega

theorem tokenBytes_hex (val : BitVec 32) {ts : List CStr}
    (hts : ∀ t ∈ ts, IsHex t ∧ t.length = 2) : tokenBytes val ts = ts.map hexNat := by
  induction ts generalizing val with
  | nil => rfl
  | cons t ts ih =>
    obtain ⟨hhex, hlen⟩ := hts t List.mem_cons_self
    have hlt := hexNat_lt t
    rw [hlen] at hlt
    have hscan := @scanHexOf_field 2 [] t [] gap_nil hhex (by rw [hlen]) (by omega) (by simp)
    rw [List.nil_append, List.append_nil] at hscan
    rw [tokenBytes, hscan, ih _ fun u hu => hts u (List.mem_cons_of_mem _ hu)]
    simp only [Option.map_some, Option.getD_some, List.map_cons, BitVec.toNat_ofNat]
    rw [Nat.mod_eq_of_lt (show hexNat t < 2 ^ 32 by omega), Nat.mod_eq_of_lt (by omega)]

def stored : List ℕ := (l.bytes.take l.count).map hexNat ++ (octets addr6).drop l.count

theorem tokens_bytesText : tokens ':' l.bytesText = l.bytes := by
  apply tokens_terminated
  intro t ht
  obtain ⟨hhex, -⟩ := l.bytes_hex t ht
  exact ⟨hhex.1, fun h => absurd (hhex.2 ':' h) (by decide)⟩

theorem get_prefix_eq :
    _routeinfo_get_prefix addr6 l.bytesText (BitVec.ofNat 32 l.length) =
      inet_ntop6 (stored l addr6) ++ ('/' :: decimal l.length).take
        (suffixBound (inet_ntop6 (stored l addr6)) - 1) := by
  have hle := l.length_le
  have hnat : (BitVec.ofNat 32 l.length).toNat = l.length :=
    (BitVec.toNat_ofNat ..).trans (Nat.mod_eq_of_lt (by omega))
  have htext : intText (BitVec.ofNat 32 l.length) = decimal l.length := by
    rw [intText_of_lt (by omega), hnat]
  have hvals := @tokenBytes_hex 0 (l.bytes.take l.count)
    fun t ht => l.bytes_hex t (List.mem_of_mem_take ht)
  have hcount : ((l.bytes.take l.count).map hexNat).length = l.count := by
    rw [List.length_map, List.length_take, Nat.min_eq_left (count_le l).2]
  simp only [tokens_bytesText, _routeinfo_get_prefix, byteCount_length, hvals, hcount, htext]
  rfl

theorem stored_bytes : (stored l addr6).length = 16 ∧ ∀ o ∈ stored l addr6, o < 256 := by
  have hcount := count_le l
  constructor
  · rw [stored, List.length_append, List.length_map, List.length_take, List.length_drop,
      show (octets addr6).length = 16 from rfl]
    omega
  · intro o ho
    rcases List.mem_append.mp ho with ho | ho
    · obtain ⟨b, hb, rfl⟩ := List.mem_map.mp ho
      have hlt := hexNat_lt b
      rw [(l.bytes_hex b (List.mem_of_mem_take hb)).2] at hlt
      exact hlt
    · obtain ⟨i, -, rfl⟩ := List.mem_map.mp (List.mem_of_mem_drop ho)
      exact BitVec.isLt _

theorem stored_eq_iff : stored l addr6 = l.address ↔
    (octets addr6).drop l.count = List.replicate (16 - l.count) 0 := List.append_right_inj _

theorem suffixBound_of_lt {out : CStr} (hlong : 4 < out.length) (hlt : out.length < 46) :
    4 ≤ suffixBound out - 1 := by
  have hfour : (4 : BitVec 32).toNat = 4 := rfl
  rw [suffixBound, BitVec.toNat_sub, BitVec.toNat_ofNat, hfour]
  omega

theorem suffixBound_of_le {out : CStr} (hge : 2 ≤ out.length) (hle : out.length ≤ 4) :
    suffixBound out - 1 ≤ 1 := by
  have hfour : (4 : BitVec 32).toNat = 4 := rfl
  rw [suffixBound, BitVec.toNat_sub, BitVec.toNat_ofNat, hfour]
  omega

theorem describes_iff (env : Env) (num : ℕ) : Describes l (entry env num l.fields) ↔
    (octets (env.addr6 num)).drop l.count = List.replicate (16 - l.count) 0 ∧
      4 < (inet_ntop6 l.address).length := by
  obtain ⟨hlen, hbyte⟩ := stored_bytes l (env.addr6 num)
  have hread := Ipv6Text.inet_pton6_inet_ntop6 hlen hbyte
  have hge := Ipv6Text.inet_pton6_length_ge hread
  have hlt := inet_pton6_text_le hread
  have hslash : ∀ {t os}, inet_pton6 t = some os → '/' ∉ t := by
    intro t os h hmem
    rcases Ipv6Text.inet_pton6_chars h '/' hmem with h | h | h <;> cases h
  have hprefix : (entry env num l.fields).Prefix = inet_ntop6 (stored l (env.addr6 num)) ++
      ('/' :: decimal l.length).take (suffixBound (inet_ntop6 (stored l (env.addr6 num))) - 1) :=
    get_prefix_eq l (env.addr6 num)
  have hshort := length_decimal l
  rw [Describes, hprefix, ← stored_eq_iff]
  constructor
  · rintro ⟨-, -, p, htext, hp⟩
    by_cases hlong : 4 < (inet_ntop6 (stored l (env.addr6 num))).length
    · have hbound := suffixBound_of_lt hlong hlt
      rw [List.take_of_length_le (by rw [List.length_cons]; omega)] at htext
      rw [← List.append_cancel_right htext, hread] at hp
      have hstored := Option.some.inj hp
      exact ⟨hstored, by rwa [hstored] at hlong⟩
    · have hbound := suffixBound_of_le hge (by omega)
      exfalso
      rcases Nat.le_one_iff_eq_zero_or_eq_one.mp hbound with hnone | hone
      · -- Nothing is written behind the address.
        rw [hnone, List.take_zero, List.append_nil] at htext
        apply hslash hread
        rw [htext]
        exact List.mem_append_right _ List.mem_cons_self
      · -- Only the slash is written.
        rw [hone, List.take_succ_cons, List.take_zero] at htext
        have hparts := (List.append_cons_inj_of_notMem (hslash hread) List.not_mem_nil).mp htext
        exact decimal_ne_nil _ hparts.2.2.symm
  · rintro ⟨hstored, hlong⟩
    rw [hstored] at hread hlt ⊢
    have hbound := suffixBound_of_lt hlong hlt
    rw [List.take_of_length_le (by rw [List.length_cons]; omega)]
    refine ⟨Buf.text_sprintf_s_of_lt ?_, ?_, _, rfl, hread⟩
    · have hsource := source_length l
      change l.source.length < 64
      omega
    · rw [List.length_append, List.length_cons]
      omega

end prefixes

theorem forall₂_mapIdx_iff {α β : Type*} {R : α → β → Prop} {f : ℕ → α → β} {as : List α} :
    List.Forall₂ R as (as.mapIdx f) ↔ ∀ i a, as[i]? = some a → R a (f i a) := by
  induction as generalizing f with
  | nil => simp
  | cons a as ih =>
    rw [List.mapIdx_cons, List.forall₂_cons, ih]
    constructor
    · rintro ⟨hhead, htail⟩ i b hb
      cases i with
      | zero =>
        obtain rfl := Option.some.inj hb
        exact hhead
      | succ i => exact htail i b hb
    · intro h
      exact ⟨h 0 a rfl, fun i b hb => h (i + 1) b hb⟩

/-- The routes are listed right exactly when every line that is wanted has at most twenty
bytes, finds zeros behind the bytes it lists and has an address text of more than four
characters. -/
theorem lists_routes_iff (env : Env) (lines : List Line) : ListsRoutes env lines ↔
    ∀ i l, (lines.filter fun l => l.Wanted)[i]? = some l → Fits l (env.addr6 i) := by
  have hentries := entries_fileText env 0 lines
  simp only [Nat.zero_add] at hentries
  rw [ListsRoutes, CosaDmlRoutingGetRouteInfoIf, hentries]
  generalize lines.filter (fun l => decide l.Wanted) = wanted
  constructor
  · intro h i l hl
    have hall : wanted.filter (fun l => l.Readable) = wanted := by
      have hlen := h.length_eq
      rw [List.length_mapIdx] at hlen
      exact List.filter_sublist.eq_of_length hlen.symm
    rw [hall, forall₂_mapIdx_iff] at h
    have hread := List.filter_eq_self.mp hall l (List.mem_of_getElem? hl)
    exact ⟨of_decide_eq_true hread, (describes_iff l env i).mp (h i l hl)⟩
  · intro h
    have hall : wanted.filter (fun l => l.Readable) = wanted := by
      apply List.filter_eq_self.mpr
      intro l hl
      obtain ⟨i, hi⟩ := List.mem_iff_getElem?.mp hl
      exact decide_eq_true (h i l hi).1
    rw [hall, forall₂_mapIdx_iff]
    exact fun i l hl => (describes_iff l env i).mpr (h i l hl).2

def defaultRoute : Line where
  source := "fe80::1".toList
  length := 0
  flag := ['0', '0']
  bytes := List.replicate 16 ['0', '0']
  source_address := by
    rw [String.toList_ofList]
    decide
  length_le := by decide
  flag_hex := by decide
  bytes_hex := by
    intro b hb
    rw [List.eq_of_mem_replicate hb]
    decide
  enough := by decide

def clearEnv : Env where
  _routeinfo_get_lft := fun _ => none
  addr6 := fun _ _ => 0

/-- The length of a default route is lost, also when the address is cleared. -/
theorem default_route_without_length : ¬ ListsRoutes clearEnv [defaultRoute] := by
  have hwanted : [defaultRoute].filter (fun l => l.Wanted) = [defaultRoute] :=
    List.filter_cons_of_pos (by decide)
  have hread : [defaultRoute].filter (fun l => l.Readable) = [defaultRoute] :=
    List.filter_cons_of_pos (by decide)
  have hshort : ¬ 4 < (inet_ntop6 defaultRoute.address).length := by decide
  have hentries := entries_fileText clearEnv 0 [defaultRoute]
  rw [hwanted, hread] at hentries
  rw [ListsRoutes, CosaDmlRoutingGetRouteInfoIf, hentries, hwanted, forall₂_mapIdx_iff]
  intro h
  exact hshort ((describes_iff defaultRoute clearEnv (0 + 0)).mp (h 0 defaultRoute rfl)).2

end CcspPandM.RouteInfo
