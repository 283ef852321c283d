import CcspPandM.ServerClients
import Mathlib.Data.List.Forall2
import Mathlib.Data.List.TakeWhile

/-!
The server-client file as dibbler writes it: the number of clients, then a block
of lines for each. A line too long for the buffer comes in pieces, and what
follows the first is passed over, because no name is spelled in hexadecimal
digits. Reading the file back puts each block into its own client.
-/
namespace CcspPandM.ServerClientFile

open CString ScanText InetText FgetsLines ServerClients

def Clean (v : CStr) : Prop := ∀ c ∈ v, c ≠ '\n' ∧ c ≠ '\r' ∧ c ≠ '\x00'

def hexColon (c : Char) : Bool := (hexValue c).isSome || c = ':'

structure AddrText where
  text : Buf 40
  clean : Clean text.text

structure DuidText where
  text : CStr
  digits : ∀ c ∈ text, hexColon c = true

structure HexText where
  text : CStr
  digits : ∀ c ∈ text, (hexValue c).isSome = true

inductive Item where
  | addr (address : AddrText) (timestamp prefered valid : ULONG)
  | pdPrefix (prefixText : AddrText) (timestamp prefered valid : ULONG)
  | option (tag : BitVec 16) (value : HexText)

structure ClientBlock where
  duid : DuidText
  unicast : AddrText
  items : List Item

def Item.lines : Item → List (Key × CStr)
  | .addr a t p v => [(.Addr, a.text.text), (.Timestamp, decimal t.toNat),
      (.Prefered, decimal p.toNat), (.Valid, decimal v.toNat)]
  | .pdPrefix a t p v => [(.pdPrefix, a.text.text), (.pdTimestamp, decimal t.toNat),
      (.pdPrefered, decimal p.toNat), (.pdValid, decimal v.toNat)]
  | .option tag value => [(.option, decimal tag.toNat ++ ':' :: value.text)]

def ClientBlock.lines (b : ClientBlock) : List (Key × CStr) :=
  (.DUID, b.duid.text) :: (.Unicast, b.unicast.text.text) :: b.items.flatMap Item.lines

def fileLines (bs : List ClientBlock) : List (Key × CStr) :=
  (.ClientNum, decimal bs.length) :: bs.flatMap ClientBlock.lines

def lineText (line : Key × CStr) : CStr := line.1.name ++ ':' :: line.2 ++ ['\n']

def fileText (bs : List ClientBlock) : CStr := (fileLines bs).flatMap lineText

def cut (line : Key × CStr) : Key × CStr := (line.1, line.2.take (254 - line.1.name.length))

section Lexing

theorem forall_of_all {p : Char → Prop} [DecidablePred p] {t : CStr}
    (h : t.all (fun c => decide (p c)) = true) : ∀ c ∈ t, p c :=
  fun c hc => of_decide_eq_true (List.all_eq_true.mp h c hc)

theorem name_clean (k : Key) : ∀ c ∈ k.name, c ≠ '\n' ∧ c ≠ '\x00' ∧ c ≠ ':' := by
  apply forall_of_all
  cases k <;> decide +kernel

theorem name_length (k : Key) : k.name.length ≤ 11 := by
  cases k <;> decide +kernel

theorem keyOf_name (k : Key) : keyOf k.name = some k := by
  cases k <;> decide +kernel

theorem name_letter (k : Key) : ∃ c ∈ k.name, ¬(hexColon c = true ∨ c = '\n') := by
  have hany : (k.name.any fun c => decide ¬(hexColon c = true ∨ c = '\n')) = true := by
    cases k <;> decide +kernel
  obtain ⟨c, hc, hletter⟩ := List.any_eq_true.mp hany
  exact ⟨c, hc, of_decide_eq_true hletter⟩

theorem clean_of_hexColon {v : CStr} (h : ∀ c ∈ v, hexColon c = true) : Clean v := by
  have hnone : hexColon '\n' = false ∧ hexColon '\r' = false ∧ hexColon '\x00' = false := by
    decide +kernel
  intro c hc
  have hin := h c hc
  refine ⟨?_, ?_, ?_⟩
  · intro hce
    rw [hce, hnone.1] at hin
    cases hin
  · intro hce
    rw [hce, hnone.2.1] at hin
    cases hin
  · intro hce
    rw [hce, hnone.2.2] at hin
    cases hin

theorem parseLine_named (k : Key) {w tail : CStr} (hw : Clean w) (htail : tail = [] ∨ tail = ['\n'])
    (hsome : w ++ tail ≠ []) : parseLine (k.name ++ ':' :: (w ++ tail)) = some (k, w) := by
  have hnul : (k.name ++ ':' :: (w ++ tail)).takeWhile (· ≠ '\x00') =
      k.name ++ ':' :: (w ++ tail) := by
    apply List.takeWhile_eq_self_iff.mpr
    intro c hc
    rw [decide_eq_true_eq]
    rcases List.mem_append.mp hc with hname | hrest
    · exact (name_clean k c hname).2.1
    rcases List.mem_cons.mp hrest with hcolon | hrest
    · rw [hcolon]
      decide
    rcases List.mem_append.mp hrest with hmem | hmem
    · exact (hw c hmem).2.2
    · rcases htail with hnil | hnl
      · rw [hnil] at hmem
        cases hmem
      · rw [hnl, List.mem_singleton] at hmem
        rw [hmem]
        decide
  have hname : ∀ c ∈ k.name, decide (c ≠ ':') = true := by
    intro c hc
    rw [decide_eq_true_eq]
    exact (name_clean k c hc).2.2
  have hvalue : (w ++ tail).takeWhile (fun c => c ≠ '\n' ∧ c ≠ '\r') = w := by
    rw [List.takeWhile_append_of_pos]
    · rcases htail with hnil | hnl
      · rw [hnil]
        simp
      · rw [hnl]
        simp
    · intro c hc
      rw [decide_eq_true_eq]
      exact ⟨(hw c hc).1, (hw c hc).2.1⟩
  simp only [parseLine]
  rw [hnul, List.dropWhile_append_of_pos hname, List.dropWhile_cons_of_neg (by simp),
    List.takeWhile_append_of_pos hname, List.takeWhile_cons_of_neg (by simp), List.append_nil]
  simp only [if_neg hsome, hvalue, keyOf_name, Option.map_some]

theorem parseLine_ignored {t : CStr} (h : ∀ c ∈ t, hexColon c = true ∨ c = '\n') :
    parseLine t = none := by
  have hkey : keyOf ((t.takeWhile (· ≠ '\x00')).takeWhile (· ≠ ':')) = none := by
    apply List.find?_eq_none.mpr
    intro k _
    rw [decide_eq_true_eq]
    intro hname
    obtain ⟨c, hc, hletter⟩ := name_letter k
    rw [hname] at hc
    exact hletter (h c (List.takeWhile_subset _ (List.takeWhile_subset _ hc)))
  simp only [parseLine, hkey, Option.map_none, ite_self]
  split <;> rfl

theorem lex_ignored (n : ℕ) {r : CStr} (hn : r.length ≤ n) (h : ∀ c ∈ r, hexColon c = true)
    (rest : CStr) : lex (r ++ '\n' :: rest) = lex rest := by
  induction n using Nat.strong_induction_on generalizing r with
  | _ n ih =>
    have hclean := clean_of_hexColon h
    have hnl : '\n' ∉ r := fun hmem => (hclean _ hmem).1 rfl
    by_cases hshort : r.length < 255
    · rw [lex, reads_line hnl hshort, List.filterMap_cons_none, lex]
      apply parseLine_ignored
      intro c hc
      rcases List.mem_append.mp hc with hmem | hmem
      · exact .inl (h c hmem)
      · exact .inr (List.mem_singleton.mp hmem)
    · have hdrop : (r.drop 255).length ≤ r.length - 255 := by rw [List.length_drop]
      rw [lex, reads_piece hnl (by omega) (by omega), List.filterMap_cons_none]
      · exact ih (r.length - 255) (by omega) hdrop fun c hc => h c (List.mem_of_mem_drop hc)
      · apply parseLine_ignored
        intro c hc
        exact .inl (h c (List.mem_of_mem_take hc))

/-- A line that can be told from the rest of one: nothing in it ends it, and what
does not fit the buffer spells no name. -/
def Legible (line : Key × CStr) : Prop :=
  Clean line.2 ∧ ∀ c ∈ line.2.drop (254 - line.1.name.length), hexColon c = true

theorem lex_line {line : Key × CStr} (h : Legible line) (rest : CStr) :
    lex (lineText line ++ rest) = cut line :: lex rest := by
  obtain ⟨k, v⟩ := line
  obtain ⟨hclean, hdrop⟩ := h
  have hname := name_length k
  have hnl : '\n' ∉ k.name ++ ':' :: v := by
    intro hmem
    rcases List.mem_append.mp hmem with hin | hin
    · exact (name_clean k _ hin).1 rfl
    · rcases List.mem_cons.mp hin with hcolon | hin
      · exact absurd hcolon (by decide)
      · exact (hclean _ hin).1 rfl
  have hlen : (k.name ++ ':' :: v).length = k.name.length + 1 + v.length := by
    rw [List.length_append, List.length_cons]
    omega
  have htext : lineText (k, v) ++ rest = (k.name ++ ':' :: v) ++ '\n' :: rest := by
    simp [lineText]
  rw [htext, cut]
  dsimp only at hdrop ⊢
  by_cases hshort : (k.name ++ ':' :: v).length < 255
  · have hline : (k.name ++ ':' :: v) ++ ['\n'] = k.name ++ ':' :: (v ++ ['\n']) := by simp
    have hparse := parseLine_named k hclean (.inr rfl) (by simp)
    rw [lex, reads_line hnl hshort, hline, List.filterMap_cons_some hparse,
      List.take_of_length_le (by omega), lex]
  · have htake : (k.name ++ ':' :: v).take 255 =
        k.name ++ ':' :: (v.take (254 - k.name.length) ++ []) := by
      have hsplit : 255 - k.name.length = (254 - k.name.length) + 1 := by omega
      rw [List.take_append, List.take_of_length_le (by omega), hsplit, List.take_succ_cons,
        List.append_nil]
    have hrest : (k.name ++ ':' :: v).drop 255 = v.drop (254 - k.name.length) := by
      have hsplit : 255 - k.name.length = (254 - k.name.length) + 1 := by omega
      rw [List.drop_append, List.drop_of_length_le (by omega), hsplit, List.drop_succ_cons,
        List.nil_append]
    have hcleanTake : Clean (v.take (254 - k.name.length)) :=
      fun c hc => hclean c (List.mem_of_mem_take hc)
    have hsome : v.take (254 - k.name.length) ++ [] ≠ [] := by
      rw [List.append_nil, ← List.length_pos_iff, List.length_take]
      omega
    have hparse := parseLine_named k hcleanTake (.inl rfl) hsome
    rw [lex, reads_piece hnl (by omega) (by omega), htake, List.filterMap_cons_some hparse, hrest]
    exact congrArg _ (lex_ignored _ le_rfl hdrop rest)

theorem lex_lines {lines : List (Key × CStr)} (h : ∀ line ∈ lines, Legible line) :
    lex (lines.flatMap lineText) = lines.map cut := by
  induction lines with
  | nil => rfl
  | cons line lines ih =>
    rw [List.flatMap_cons, lex_line (h line List.mem_cons_self),
      ih fun l hl => h l (List.mem_cons_of_mem line hl), List.map_cons]

end Lexing

section Legibility

theorem hexColon_decimal (n : ℕ) : ∀ c ∈ decimal n, hexColon c = true := by
  intro c hc
  rw [hexColon, hexValue_of_isDigit (isDigit_of_mem_decimal hc)]
  rfl

theorem legible_of_hexColon {k : Key} {v : CStr} (h : ∀ c ∈ v, hexColon c = true) :
    Legible (k, v) :=
  ⟨clean_of_hexColon h, fun c hc => h c (List.mem_of_mem_drop hc)⟩

theorem legible_addr (k : Key) (a : AddrText) : Legible (k, a.text.text) := by
  refine ⟨a.clean, ?_⟩
  have hname := name_length k
  have hlen := a.text.text_length_lt
  dsimp only
  rw [List.drop_of_length_le (by omega)]
  intro c hc
  cases hc

theorem hexColon_option (tag : BitVec 16) (value : HexText) :
    ∀ c ∈ decimal tag.toNat ++ ':' :: value.text, hexColon c = true := by
  intro c hc
  rcases List.mem_append.mp hc with hmem | hmem
  · exact hexColon_decimal _ c hmem
  · rcases List.mem_cons.mp hmem with hcolon | hmem
    · rw [hcolon]
      decide
    · rw [hexColon, value.digits c hmem]
      rfl

theorem legible_item (item : Item) : ∀ line ∈ item.lines, Legible line := by
  cases item with
  | addr a t p v | pdPrefix a t p v =>
    simp only [Item.lines, List.forall_mem_cons]
    exact ⟨legible_addr _ a, legible_of_hexColon (hexColon_decimal _),
      legible_of_hexColon (hexColon_decimal _), legible_of_hexColon (hexColon_decimal _),
      List.forall_mem_nil _⟩
  | option tag value =>
    simp only [Item.lines, List.forall_mem_cons]
    exact ⟨legible_of_hexColon (hexColon_option tag value), List.forall_mem_nil _⟩

theorem legible_file (bs : List ClientBlock) : ∀ line ∈ fileLines bs, Legible line := by
  intro line hline
  rcases List.mem_cons.mp hline with hnum | hline
  · rw [hnum]
    exact legible_of_hexColon (hexColon_decimal _)
  obtain ⟨b, _, hline⟩ := List.mem_flatMap.mp hline
  rcases List.mem_cons.mp hline with hduid | hline
  · rw [hduid]
    exact legible_of_hexColon b.duid.digits
  rcases List.mem_cons.mp hline with hunicast | hline
  · rw [hunicast]
    exact legible_addr _ b.unicast
  obtain ⟨item, _, hline⟩ := List.mem_flatMap.mp hline
  exact legible_item item line hline

theorem lex_fileText (bs : List ClientBlock) : lex (fileText bs) = (fileLines bs).map cut :=
  lex_lines (legible_file bs)

end Legibility

section Numbers

theorem number_digits {t : CStr} (h : ∀ c ∈ t, c.isDigit = true) : (number t).toNat < 2 ^ 31 := by
  have hclamp (m : ℕ) : (BitVec.ofInt 32 (max (-(2 ^ 31)) (min (m : ℤ) (2 ^ 31 - 1)))).toNat
      < 2 ^ 31 := by
    have hmax : max (-(2 ^ 31)) (min (m : ℤ) (2 ^ 31 - 1)) = ((min m (2 ^ 31 - 1) : ℕ) : ℤ) := by
      omega
    rw [hmax, BitVec.ofInt_natCast, BitVec.toNat_ofNat]
    omega
  cases t with
  | nil => decide
  | cons c t =>
    have hc := h c List.mem_cons_self
    have hdrop : (c :: t).dropWhile isspace = c :: t :=
      List.dropWhile_cons_of_neg (by simp [isspace_of_isDigit hc])
    have hminus := ne_of_isDigit hc (show '-'.isDigit = false by decide)
    have hplus := ne_of_isDigit hc (show '+'.isDigit = false by decide)
    have hscan : scanNumber (c :: t) = (scanDigits (c :: t)).map (fun m => (m : ℤ)) := by
      rw [scanNumber, hdrop]
      split
      · next heq => exact absurd (List.cons.inj heq).1 hminus
      · next heq => exact absurd (List.cons.inj heq).1 hplus
      · rfl
    rw [number, sscanf_d, hscan]
    cases scanDigits (c :: t) with
    | none => decide
    | some m => exact hclamp m

theorem decimal_length_small {n : ℕ} (hn : n < 2 ^ 32) : (decimal n).length ≤ 10 :=
  (decimal_length_le_iff (by omega)).mpr (by omega)

theorem number_decimal {n : ℕ} (hn : n < 2 ^ 31) : number (decimal n) = BitVec.ofNat 32 n := by
  have hnat : (BitVec.ofNat 32 n).toNat = n := by
    rw [BitVec.toNat_ofNat, Nat.mod_eq_of_lt (by omega)]
  have h := (sscanf_d_decimal_eq_iff (BitVec.ofNat 32 n) 0).mpr (by omega)
  rwa [hnat] at h

end Numbers

section Meaning

variable (localtime_r : BitVec 32 → Tm)

def leased (a : AddrText) (timestamp prefered valid : ULONG) : COSA_DML_DHCPSV6_CLIENT_IPV6 where
  IPAddress := a.text
  PreferredLifetime := strcpyNoclobber
    (lifetimeText localtime_r (number (decimal timestamp.toNat)) (decimal prefered.toNat)) Buf.empty
  ValidLifetime := strcpyNoclobber
    (lifetimeText localtime_r (number (decimal timestamp.toNat)) (decimal valid.toNat)) Buf.empty

def ClientBlock.addresses (b : ClientBlock) : List COSA_DML_DHCPSV6_CLIENT_IPV6 :=
  b.items.filterMap fun
    | .addr a t p v => some (leased localtime_r a t p v)
    | _ => none

def ClientBlock.prefixes (b : ClientBlock) : List COSA_DML_DHCPSV6_CLIENT_IPV6 :=
  b.items.filterMap fun
    | .pdPrefix a t p v => some (leased localtime_r a t p v)
    | _ => none

def ClientBlock.options (b : ClientBlock) : List (ULONG × CStr) :=
  b.items.filterMap fun
    | .option tag value => some (tag.setWidth 32, value.text)
    | _ => none

structure HasContent (c : COSA_DML_DHCPSV6_CLIENTCONTENT) (b : ClientBlock) : Prop where
  addresses : c.pIPv6Address = b.addresses localtime_r
  prefixes : c.pIPv6Prefix = b.prefixes localtime_r
  options : c.pOption.map (fun o => (o.Tag, o.Value.text)) = b.options

def clientsFrom : ℕ → List ClientBlock → List COSA_DML_DHCPSV6_CLIENT
  | _, [] => []
  | i, b :: bs => { newClient i with SourceAddress := b.unicast.text } :: clientsFrom (i + 1) bs

/-- The file yields its clients, in order, each with the content of its block. -/
def Yields (result : Option State) (bs : List ClientBlock) : Prop :=
  ∃ st, result = some st ∧ st.g_dhcps6v_client_num.toNat = bs.length ∧
    st.g_dhcps6v_client.getD [] = clientsFrom 0 bs ∧
    List.Forall₂ (HasContent localtime_r) (st.g_dhcps6v_clientcontent.getD []) bs

end Meaning

section Running

variable (localtime_r : BitVec 32 → Tm)

theorem runLines_next (line : Key × CStr) {st st' : State}
    (h : step localtime_r line st = some (.next st')) (rest : List (Key × CStr)) :
    runLines localtime_r (line :: rest) st = runLines localtime_r rest st' := by
  rw [runLines, h]

theorem access_at {α : Type} (A C : List α) (x : α) (hA : A.length < 2 ^ 32) (f : α → α) :
    access (some (A ++ x :: C)) (BitVec.ofNat 32 A.length) f = some (A ++ f x :: C) := by
  have hindex : (BitVec.ofNat 32 A.length).toNat = A.length := by
    rw [BitVec.toNat_ofNat, Nat.mod_eq_of_lt hA]
  simp [access, hindex]

theorem cut_short {k : Key} {v : CStr} (h : v.length ≤ 243) : cut (k, v) = (k, v) := by
  have hname := name_length k
  rw [cut]
  dsimp only
  rw [List.take_of_length_le (by omega)]

theorem cut_decimal (k : Key) (x : ULONG) : cut (k, decimal x.toNat) = (k, decimal x.toNat) := by
  have hlen := decimal_length_small x.isLt
  exact cut_short (by omega)

theorem cut_addr (k : Key) (a : AddrText) : cut (k, a.text.text) = (k, a.text.text) := by
  have hlen := a.text.text_length_lt
  exact cut_short (by omega)

def addItem (c : COSA_DML_DHCPSV6_CLIENTCONTENT) : Item → COSA_DML_DHCPSV6_CLIENTCONTENT
  | .addr a t p v => { c with pIPv6Address := c.pIPv6Address ++ [leased localtime_r a t p v] }
  | .pdPrefix a t p v => { c with pIPv6Prefix := c.pIPv6Prefix ++ [leased localtime_r a t p v] }
  | .option tag _ => { c with pOption := c.pOption ++ [⟨tag.setWidth 32, Buf.empty⟩] }

theorem strcpyNoclobber_text {n : ℕ} (b old : Buf n) : strcpyNoclobber b.text old = b :=
  dif_pos b.text_length_lt

variable {A C : List COSA_DML_DHCPSV6_CLIENTCONTENT}

theorem contentStep_reached (hA : A.length < 2 ^ 32)
    (num : ULONG) (clients : Option (List COSA_DML_DHCPSV6_CLIENT))
    (c : COSA_DML_DHCPSV6_CLIENTCONTENT) (ts : ULONG) (line : Key × CStr) :
    contentStep localtime_r line ⟨num, clients, some (A ++ c :: C), BitVec.ofNat 32 A.length, ts⟩ =
      some (.next ⟨num, clients, some (A ++ changeContent localtime_r ts c line :: C),
        BitVec.ofNat 32 A.length, ts⟩) := by
  rw [contentStep]
  dsimp only
  rw [access_at A C c hA]
  rfl

theorem run_item (hA : A.length < 2 ^ 32)
    (num : ULONG) (clients : Option (List COSA_DML_DHCPSV6_CLIENT))
    (c : COSA_DML_DHCPSV6_CLIENTCONTENT) (ts : ULONG) (item : Item) (rest : List (Key × CStr)) :
    ∃ ts', runLines localtime_r (item.lines.map cut ++ rest)
        ⟨num, clients, some (A ++ c :: C), BitVec.ofNat 32 A.length, ts⟩ =
      runLines localtime_r rest
        ⟨num, clients, some (A ++ addItem localtime_r c item :: C),
          BitVec.ofNat 32 A.length, ts'⟩ := by
  have hstep := contentStep_reached localtime_r (C := C) hA num clients
  have hprefered (c : COSA_DML_DHCPSV6_CLIENTCONTENT) (ts : ULONG) (v : CStr) :
      step localtime_r (.Prefered, v)
        ⟨num, clients, some (A ++ c :: C), BitVec.ofNat 32 A.length, ts⟩ =
      some (.next ⟨num, clients, some (A ++ changeContent localtime_r ts c (.Prefered, v) :: C),
        BitVec.ofNat 32 A.length, ts⟩) := by
    rw [step, if_neg (by simp), hstep]
  cases item with
  | addr a t p v =>
    refine ⟨number (decimal t.toNat), ?_⟩
    simp only [Item.lines, List.map_cons, List.map_nil, cut_decimal, cut_addr, List.cons_append,
      List.nil_append]
    rw [runLines_next localtime_r (.Addr, a.text.text) (hstep c ts _),
      runLines_next localtime_r (.Timestamp, decimal t.toNat) rfl,
      runLines_next localtime_r (.Prefered, decimal p.toNat) (hprefered _ _ _),
      runLines_next localtime_r (.Valid, decimal v.toNat) (hstep _ _ _)]
    simp only [changeContent, newIPv6, strcpyNoclobber_text, setPreferred, setValid,
      List.modifyLast_concat, addItem, leased]
  | pdPrefix a t p v =>
    refine ⟨number (decimal t.toNat), ?_⟩
    simp only [Item.lines, List.map_cons, List.map_nil, cut_decimal, cut_addr, List.cons_append,
      List.nil_append]
    rw [runLines_next localtime_r (.pdPrefix, a.text.text) (hstep c ts _),
      runLines_next localtime_r (.pdTimestamp, decimal t.toNat) rfl,
      runLines_next localtime_r (.pdPrefered, decimal p.toNat) (hstep _ _ _),
      runLines_next localtime_r (.pdValid, decimal v.toNat) (hstep _ _ _)]
    simp only [changeContent, newIPv6, strcpyNoclobber_text, setPreferred, setValid,
      List.modifyLast_concat, addItem, leased]
  | option tag value =>
    refine ⟨ts, ?_⟩
    have hlen := decimal_length_small (n := tag.toNat) (by have := tag.isLt; omega)
    have hroom : 254 - (Key.option.name).length - (decimal tag.toNat).length =
        (247 - (decimal tag.toNat).length) + 1 := by
      have hname : (Key.option.name).length = 6 := by decide
      omega
    have hcut : cut (.option, decimal tag.toNat ++ ':' :: value.text) =
        (.option, decimal tag.toNat ++ ':' ::
          value.text.take (247 - (decimal tag.toNat).length)) := by
      rw [cut]
      dsimp only
      rw [List.take_append, List.take_of_length_le, hroom, List.take_succ_cons]
      have hname : (Key.option.name).length = 6 := by decide
      omega
    have hdigits : ∀ d ∈ decimal tag.toNat, decide (d ≠ ':') = true := by
      intro d hd
      rw [decide_eq_true_eq]
      exact ne_of_isDigit (isDigit_of_mem_decimal hd) (by decide)
    have htag : number ((decimal tag.toNat ++ ':' ::
        value.text.take (247 - (decimal tag.toNat).length)).takeWhile (· ≠ ':')) =
          tag.setWidth 32 := by
      rw [List.takeWhile_append_of_pos hdigits, List.takeWhile_cons_of_neg (by simp),
        List.append_nil, number_decimal (by have := tag.isLt; omega), BitVec.ofNat_toNat]
    have hline : step localtime_r (cut (.option, decimal tag.toNat ++ ':' :: value.text))
        ⟨num, clients, some (A ++ c :: C), BitVec.ofNat 32 A.length, ts⟩ =
          some (.next ⟨num, clients, some (A ++ addItem localtime_r c (.option tag value) :: C),
            BitVec.ofNat 32 A.length, ts⟩) := by
      rw [hcut, step, if_pos (by simp), hstep, changeContent, htag]
      rfl
    exact runLines_next localtime_r _ hline rest

theorem run_items (hA : A.length < 2 ^ 32)
    (num : ULONG) (clients : Option (List COSA_DML_DHCPSV6_CLIENT)) (items : List Item)
    (c : COSA_DML_DHCPSV6_CLIENTCONTENT) (ts : ULONG) (rest : List (Key × CStr)) :
    ∃ ts', runLines localtime_r ((items.flatMap Item.lines).map cut ++ rest)
        ⟨num, clients, some (A ++ c :: C), BitVec.ofNat 32 A.length, ts⟩ =
      runLines localtime_r rest
        ⟨num, clients, some (A ++ items.foldl (addItem localtime_r) c :: C),
          BitVec.ofNat 32 A.length, ts'⟩ := by
  induction items generalizing c ts with
  | nil => exact ⟨ts, rfl⟩
  | cons item items ih =>
    obtain ⟨ts', hitem⟩ := run_item localtime_r (C := C) hA num clients c ts item
      ((items.flatMap Item.lines).map cut ++ rest)
    obtain ⟨ts'', hitems⟩ := ih (addItem localtime_r c item) ts'
    refine ⟨ts'', ?_⟩
    rw [List.flatMap_cons, List.map_append, List.append_assoc, hitem, hitems, List.foldl_cons]

def ClientBlock.content (b : ClientBlock) : COSA_DML_DHCPSV6_CLIENTCONTENT :=
  b.items.foldl (addItem localtime_r) newContent

theorem run_block {A' C' : List COSA_DML_DHCPSV6_CLIENT}
    (hA : A.length < 2 ^ 32) (hA' : A'.length = A.length) (num : ULONG)
    (client : COSA_DML_DHCPSV6_CLIENT) (ts : ULONG) (b : ClientBlock) (rest : List (Key × CStr)) :
    ∃ ts', runLines localtime_r (b.lines.map cut ++ rest)
        ⟨num, some (A' ++ client :: C'), some (A ++ newContent :: C),
          BitVec.ofNat 32 A.length - 1, ts⟩ =
      runLines localtime_r rest
        ⟨num, some (A' ++ { client with SourceAddress := b.unicast.text } :: C'),
          some (A ++ b.content localtime_r :: C), BitVec.ofNat 32 A.length, ts'⟩ := by
  have hindex : (if BitVec.ofNat 32 A.length - 1 = 0xffffffff then (0 : ULONG)
      else BitVec.ofNat 32 A.length - 1 + 1) = BitVec.ofNat 32 A.length := by
    split
    · next hlast =>
      have hzero : BitVec.ofNat 32 A.length = 0xffffffff + 1 := by
        rw [← hlast, BitVec.sub_add_cancel]
      rw [hzero]
      rfl
    · exact BitVec.sub_add_cancel _ _
  have hduid : step localtime_r (cut (.DUID, b.duid.text))
      ⟨num, some (A' ++ client :: C'), some (A ++ newContent :: C),
        BitVec.ofNat 32 A.length - 1, ts⟩ =
      some (.next ⟨num, some (A' ++ client :: C'), some (A ++ newContent :: C),
        BitVec.ofNat 32 A.length, ts⟩) := by
    rw [cut, step]
    dsimp only
    rw [hindex]
  have hunicast : step localtime_r (cut (.Unicast, b.unicast.text.text))
      ⟨num, some (A' ++ client :: C'), some (A ++ newContent :: C),
        BitVec.ofNat 32 A.length, ts⟩ =
      some (.next ⟨num, some (A' ++ { client with SourceAddress := b.unicast.text } :: C'),
        some (A ++ newContent :: C), BitVec.ofNat 32 A.length, ts⟩) := by
    have haccess := access_at A' C' client (by omega)
      (fun c => { c with SourceAddress := strcpyNoclobber b.unicast.text.text c.SourceAddress })
    rw [hA'] at haccess
    rw [cut_addr, step]
    dsimp only
    rw [if_neg (by simp), haccess, strcpyNoclobber_text]
    rfl
  obtain ⟨ts', hitems⟩ := run_items localtime_r (C := C) hA num
    (some (A' ++ { client with SourceAddress := b.unicast.text } :: C')) b.items newContent ts rest
  refine ⟨ts', ?_⟩
  rw [ClientBlock.lines, List.map_cons, List.map_cons, List.cons_append, List.cons_append,
    runLines_next localtime_r _ hduid, runLines_next localtime_r _ hunicast, hitems]
  rfl

theorem run_blocks {A : List COSA_DML_DHCPSV6_CLIENTCONTENT} {A' : List COSA_DML_DHCPSV6_CLIENT}
    (bs : List ClientBlock) (hA : A.length + bs.length < 2 ^ 32) (hA' : A'.length = A.length)
    (num ts : ULONG) :
    ∃ Index ts', runLines localtime_r ((bs.flatMap ClientBlock.lines).map cut)
        ⟨num, some (A' ++ (List.range' A.length bs.length).map newClient),
          some (A ++ List.replicate bs.length newContent), BitVec.ofNat 32 A.length - 1, ts⟩ =
      some ⟨num, some (A' ++ clientsFrom A.length bs),
        some (A ++ bs.map (ClientBlock.content localtime_r)), Index, ts'⟩ := by
  induction bs generalizing A A' ts with
  | nil => exact ⟨_, ts, rfl⟩
  | cons b bs ih =>
    rw [List.length_cons] at hA
    obtain ⟨ts', hblock⟩ := @run_block localtime_r A (List.replicate bs.length newContent) A'
      ((List.range' (A.length + 1) bs.length).map newClient) (by omega) hA' num
      (newClient A.length) ts b ((bs.flatMap ClientBlock.lines).map cut)
    have hlen : (A ++ [b.content localtime_r]).length = A.length + 1 := by simp
    have hindex : BitVec.ofNat 32 (A.length + 1) - 1 = BitVec.ofNat 32 A.length := by
      rw [BitVec.ofNat_add]
      exact BitVec.add_sub_cancel _ _
    obtain ⟨Index, ts'', hrest⟩ := @ih (A ++ [b.content localtime_r])
      (A' ++ [{ newClient A.length with SourceAddress := b.unicast.text }])
      (by rw [hlen]; omega) (by simp [hA']) ts'
    refine ⟨Index, ts'', ?_⟩
    rw [hlen, hindex] at hrest
    simp only [List.append_assoc, List.singleton_append] at hrest
    rw [List.flatMap_cons, List.map_append, List.length_cons, List.range'_succ, List.map_cons,
      List.replicate_succ, hblock, hrest, clientsFrom, List.map_cons]

end Running

section Result

variable (localtime_r : BitVec 32 → Tm)

theorem foldl_addItem (items : List Item) (c : COSA_DML_DHCPSV6_CLIENTCONTENT)
    (duid : DuidText) (unicast : AddrText) :
    items.foldl (addItem localtime_r) c =
      ⟨c.pIPv6Address ++ (ClientBlock.mk duid unicast items).addresses localtime_r,
        c.pIPv6Prefix ++ (ClientBlock.mk duid unicast items).prefixes localtime_r,
        c.pOption ++ (ClientBlock.mk duid unicast items).options.map
          (fun o => ⟨o.1, Buf.empty⟩)⟩ := by
  induction items generalizing c with
  | nil => simp [ClientBlock.addresses, ClientBlock.prefixes, ClientBlock.options]
  | cons item items ih =>
    rw [List.foldl_cons, ih]
    cases item with
    | addr a t p v | pdPrefix a t p v | option tag value =>
      simp [addItem, ClientBlock.addresses, ClientBlock.prefixes, ClientBlock.options]

theorem hasContent_iff (b : ClientBlock) :
    HasContent localtime_r (b.content localtime_r) b ↔ ∀ o ∈ b.options, o.2 = [] := by
  have hcontent : b.content localtime_r = ⟨b.addresses localtime_r, b.prefixes localtime_r,
      b.options.map (fun o => ⟨o.1, Buf.empty⟩)⟩ := by
    rw [ClientBlock.content, foldl_addItem localtime_r b.items newContent b.duid b.unicast]
    simp [newContent]
  have hoptions : (b.options.map (fun o => (⟨o.1, Buf.empty⟩ :
      COSA_DML_DHCPSV6_CLIENT_OPTION))).map (fun o => (o.Tag, o.Value.text)) = b.options ↔
        ∀ o ∈ b.options, o.2 = [] := by
    rw [List.map_map]
    nth_rewrite 2 [← List.map_id b.options]
    rw [List.map_inj_left]
    constructor
    · intro h o ho
      exact (congrArg Prod.snd (h o ho)).symm
    · intro h o ho
      exact Prod.ext rfl (h o ho).symm
  rw [← hoptions]
  constructor
  · intro h
    rw [hcontent] at h
    exact h.options
  · intro h
    rw [hcontent]
    exact ⟨rfl, rfl, h⟩

theorem step_num {line : Key × CStr} (hline : line.1 ≠ .ClientNum) {st st' : State}
    (h : step localtime_r line st = some (.next st')) :
    st'.g_dhcps6v_client_num = st.g_dhcps6v_client_num := by
  have hcontent {l : Key × CStr} (h : contentStep localtime_r l st = some (.next st')) :
      st'.g_dhcps6v_client_num = st.g_dhcps6v_client_num := by
    rw [contentStep, Option.map_eq_some_iff] at h
    obtain ⟨_, _, hst⟩ := h
    cases hst
    rfl
  obtain ⟨key, v⟩ := line
  cases key with
  | ClientNum => exact absurd rfl hline
  | DUID | Timestamp | pdTimestamp =>
    cases h
    rfl
  | option | Prefered =>
    simp only [step] at h
    split at h
    · first
        | exact hcontent h
        | (cases h; rfl)
    · first
        | exact hcontent h
        | (cases h; rfl)
  | Unicast =>
    simp only [step] at h
    split at h
    · cases h
      rfl
    · rw [Option.map_eq_some_iff] at h
      obtain ⟨_, _, hst⟩ := h
      cases hst
      rfl
  | Addr | Valid | pdPrefix | pdPrefered | pdValid => exact hcontent h

theorem runLines_num {lines : List (Key × CStr)} (hlines : ∀ line ∈ lines, line.1 ≠ .ClientNum)
    {st st' : State} (h : runLines localtime_r lines st = some st') :
    st'.g_dhcps6v_client_num = st.g_dhcps6v_client_num := by
  induction lines generalizing st with
  | nil =>
    cases h
    rfl
  | cons line lines ih =>
    rw [runLines] at h
    have hline := hlines line List.mem_cons_self
    cases hstep : step localtime_r line st with
    | none =>
      rw [hstep] at h
      cases h
    | some flow =>
      rw [hstep] at h
      cases flow with
      | exit u =>
        obtain ⟨key, v⟩ := line
        exfalso
        cases key with
        | ClientNum => exact hline rfl
        | DUID | Timestamp | pdTimestamp => cases hstep
        | option | Unicast | Prefered =>
          simp only [step, contentStep] at hstep
          split at hstep <;> simp at hstep
        | Addr | Valid | pdPrefix | pdPrefered | pdValid => simp [step, contentStep] at hstep
      | next u =>
        rw [ih (fun l hl => hlines l (List.mem_cons_of_mem line hl)) h]
        exact step_num localtime_r hline hstep

theorem item_keys (item : Item) : ∀ line ∈ item.lines, line.1 ≠ .ClientNum := by
  cases item with
  | addr a t p v | pdPrefix a t p v | option tag value => simp [Item.lines]

theorem block_keys (bs : List ClientBlock) :
    ∀ line ∈ (bs.flatMap ClientBlock.lines).map cut, line.1 ≠ .ClientNum := by
  intro line hline
  obtain ⟨whole, hwhole, hcut⟩ := List.mem_map.mp hline
  obtain ⟨b, _, hb⟩ := List.mem_flatMap.mp hwhole
  have hkey : whole.1 ≠ .ClientNum := by
    rcases List.mem_cons.mp hb with hduid | hb
    · simp [hduid]
    rcases List.mem_cons.mp hb with hunicast | hb
    · simp [hunicast]
    obtain ⟨item, _, hitem⟩ := List.mem_flatMap.mp hb
    exact item_keys item whole hitem
  rw [← hcut]
  exact hkey

theorem yields_iff (bs : List ClientBlock) :
    Yields localtime_r (_cosa_dhcpsv6_get_client localtime_r (fileText bs)) bs ↔
      bs.length < 2 ^ 31 ∧ ∀ b ∈ bs, ∀ o ∈ b.options, o.2 = [] := by
  have hlines : lex (fileText bs) =
      cut (.ClientNum, decimal bs.length) :: (bs.flatMap ClientBlock.lines).map cut := by
    rw [lex_fileText, fileLines, List.map_cons]
  rw [_cosa_dhcpsv6_get_client, hlines]
  by_cases hlen : bs.length < 2 ^ 31
  swap
  · -- the announced number is cut to an int
    constructor
    · intro hyields
      exfalso
      obtain ⟨st, hrun, hnum, _⟩ := hyields
      have hdigits : ∀ c ∈ (decimal bs.length).take (254 - (Key.ClientNum.name).length),
          c.isDigit = true := fun c hc => isDigit_of_mem_decimal (List.mem_of_mem_take hc)
      have hsmall := number_digits hdigits
      have hst : st.g_dhcps6v_client_num =
          number ((decimal bs.length).take (254 - (Key.ClientNum.name).length)) := by
        simp only [cut, runLines, step] at hrun
        by_cases hzero : number ((decimal bs.length).take (254 - (Key.ClientNum.name).length)) = 0
        · rw [if_pos hzero] at hrun
          obtain rfl := Option.some.inj hrun
          rfl
        · rw [if_neg hzero] at hrun
          exact runLines_num localtime_r (block_keys bs) hrun
      rw [hst] at hnum
      omega
    · intro hboth
      exact absurd hboth.1 hlen
  rw [and_iff_right hlen]
  have hcut : cut (.ClientNum, decimal bs.length) = (.ClientNum, decimal bs.length) := by
    have hdecimal := decimal_length_small (n := bs.length) (by omega)
    exact cut_short (by omega)
  have hnumber := number_decimal hlen
  have hnat : (BitVec.ofNat 32 bs.length).toNat = bs.length := by
    rw [BitVec.toNat_ofNat, Nat.mod_eq_of_lt (by omega)]
  rw [hcut]
  cases bs with
  | nil =>
    have hrun : runLines localtime_r [(.ClientNum, decimal 0)] State.start =
        some State.start := by
      have hzero : number (decimal 0) = 0 := hnumber
      simp only [runLines, step, hzero, if_true]
      rfl
    constructor
    · intro _ b hb
      cases hb
    · intro _
      exact ⟨State.start, hrun, rfl, rfl, List.Forall₂.nil⟩
  | cons b bs =>
    have hnonzero : BitVec.ofNat 32 (b :: bs).length ≠ 0 := by
      intro hzero
      have htoNat := congrArg BitVec.toNat hzero
      rw [hnat] at htoNat
      exact absurd htoNat (Nat.succ_ne_zero _)
    obtain ⟨Index, ts', hblocks⟩ := @run_blocks localtime_r [] [] (b :: bs)
      (by simp only [List.length_nil]; omega) rfl (BitVec.ofNat 32 (b :: bs).length) 0
    have hrun : runLines localtime_r
        ((.ClientNum, decimal (b :: bs).length) ::
          ((b :: bs).flatMap ClientBlock.lines).map cut) State.start =
        some ⟨BitVec.ofNat 32 (b :: bs).length, some (clientsFrom 0 (b :: bs)),
          some ((b :: bs).map (ClientBlock.content localtime_r)), Index, ts'⟩ := by
      have hstart : step localtime_r (.ClientNum, decimal (b :: bs).length) State.start =
          some (.next ⟨BitVec.ofNat 32 (b :: bs).length,
            some ((List.range' 0 (b :: bs).length).map newClient),
            some (List.replicate (b :: bs).length newContent), 0xffffffff, 0⟩) := by
        rw [step, hnumber, if_neg hnonzero, hnat, List.range_eq_range']
        rfl
      rw [runLines_next localtime_r _ hstart]
      exact hblocks
    rw [hrun]
    have hcontents : List.Forall₂ (HasContent localtime_r)
        ((b :: bs).map (ClientBlock.content localtime_r)) (b :: bs) ↔
          ∀ c ∈ b :: bs, ∀ o ∈ c.options, o.2 = [] := by
      rw [List.forall₂_map_left_iff, List.forall₂_same]
      exact forall₂_congr fun c _ => hasContent_iff localtime_r c
    rw [← hcontents]
    constructor
    · intro hyields
      obtain ⟨st, hst, _, _, hall⟩ := hyields
      obtain rfl := Option.some.inj hst
      exact hall
    · intro hall
      exact ⟨_, rfl, hnat, rfl, hall⟩

end Result

/-- A file is read within its arrays exactly when each line stands where it
belongs, and one in the documented format is read as what it says exactly when
no option in it has a value. -/
theorem clients_read_iff (localtime_r : BitVec 32 → Tm) (file : CStr) (bs : List ClientBlock) :
    ((_cosa_dhcpsv6_get_client localtime_r file).isSome ∧
      Yields localtime_r (_cosa_dhcpsv6_get_client localtime_r (fileText bs)) bs) ↔
    (Orderly ⟨none, 0⟩ (lex file) ∧
      bs.length < 2 ^ 31 ∧ ∀ b ∈ bs, ∀ o ∈ b.options, o.2 = []) :=
  and_congr (runLines_isSome tracks_start (lex file)) (yields_iff localtime_r bs)

def sampleBlock : ClientBlock where
  duid := ⟨"00:01".toList, forall_of_all (by decide +kernel)⟩
  unicast := ⟨Buf.snprintf "fe80::1".toList, forall_of_all (by decide +kernel)⟩
  items := [.option 6 ⟨"0017".toList, forall_of_all (by decide +kernel)⟩]

/-- The value of the one option of a file is lost. -/
theorem clients_read_lost_value : ¬ ∀ (localtime_r : BitVec 32 → Tm) (file : CStr)
    (bs : List ClientBlock), (_cosa_dhcpsv6_get_client localtime_r file).isSome ∧
      Yields localtime_r (_cosa_dhcpsv6_get_client localtime_r (fileText bs)) bs := by
  intro hall
  have hyields := (hall (fun _ => ⟨0, 0, 0, 0, 0, 0⟩) [] [sampleBlock]).2
  have hlost := ((yields_iff _ _).mp hyields).2 sampleBlock List.mem_cons_self
    (6, "0017".toList) List.mem_cons_self
  exact absurd hlost (by decide)

end CcspPandM.ServerClientFile
