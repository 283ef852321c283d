import CcspPandM.MaptConfigure

/-!
The conversion of the option-95 text in its own storage. The bytes that are
written stay behind the place that is read, so the result is that of a scan over
the text; what the scan may not do is to leave the storage, and it does so for
the empty text and when a colon stands before a last single character.
-/
namespace CcspPandM.HexStream

open CString MaptConfigure MaptOptions MaptEaBits

abbrev Byte := BitVec 8

def byteOf (c : Char) : Byte := BitVec.ofNat 8 c.toNat

structure Storage where
  size : ℕ
  cell : ℕ → Byte

def Storage.read (s : Storage) (i : ℕ) : Option Byte := if i < s.size then some (s.cell i) else none

def Storage.write (s : Storage) (i : ℕ) (v : Byte) : Option Storage :=
  if i < s.size then some { s with cell := Function.update s.cell i v } else none

def Storage.ofBytes (l : List Byte) : Storage := ⟨l.length, fun i => l.getD i 0⟩

/-- The NUL-terminated string t. -/
def Storage.ofString (t : List Byte) : Storage := Storage.ofBytes (t ++ [0])

/-- `STRING_TO_HEX` of a byte. -/
def digit (c : Byte) : ℤ := stringToHex (Char.ofNat c.toNat)

def hexOf (hi lo : Byte) : Byte := BitVec.ofInt 8 (digit hi) <<< 4 ||| BitVec.ofInt 8 (digit lo)

/-- `strlen` of what starts at r: the place of the first NUL. -/
def strlen (s : Storage) (r : ℕ) : Option ℕ :=
  (List.range (s.size - r)).find? (fun n => s.cell (r + n) = 0)

def convertLoop (s : Storage) (r w : ℕ) (uiOptionBufLen : BitVec 16) :
    Option (Storage × ℕ × BitVec 16) :=
  if hr : r < s.size then
    if s.cell r = 0 then some (s, w, uiOptionBufLen)
    else if r + 1 < s.size then
      if s.cell (r + 1) = 0 then some (s, w, uiOptionBufLen)
      else
        let r' := if s.cell r = byteOf ':' then r + 1 else r
        let cell := Function.update s.cell w (hexOf (s.cell r') (s.cell (r' + 1)))
        if r' + 1 < s.size ∧ w < s.size then
          convertLoop ⟨s.size, cell⟩ (r' + 2) (w + 1) (uiOptionBufLen + 1)
        else none
    else none
  else none
termination_by s.size - r
decreasing_by
  split
  · omega
  · omega

/-- `CosaDmlMaptConvertStringToHexStream` on the storage of its string. -/
def convertStringToHexStream (s : Storage) (uiOptionBufLen : BitVec 16) :
    Option (Storage × BitVec 16) := do
  let first ← s.read 0
  let r := if first = byteOf '\'' then 1 else 0
  let n ← strlen s r
  if r + n = 0 then none
  else
    let last ← s.read (r + n - 1)
    let s ← (if last = byteOf '\'' then s.write (r + n - 1) 0 else some s)
    let (s, w, uiOptionBufLen) ← convertLoop s r 0 uiOptionBufLen
    let s ← s.write w 0
    some (s, uiOptionBufLen)

def scan : List Byte → Option (List Byte)
  | [] => none
  | c :: rest =>
    if c = 0 then some []
    else match rest with
      | [] => none
      | d :: rest =>
        if d = 0 then some []
        else if c = byteOf ':' then
          match rest with
          | [] => none
          | e :: rest => (scan rest).map (hexOf d e :: ·)
        else (scan rest).map (hexOf c d :: ·)

theorem scan_zero (rest : List Byte) : scan (0 :: rest) = some [] := by
  rw [scan.eq_def]
  exact if_pos rfl

variable {c : Byte}

theorem scan_single (hc : c ≠ 0) : scan [c] = none := by
  rw [scan.eq_def]
  exact if_neg hc

theorem scan_last (hc : c ≠ 0) (rest : List Byte) : scan (c :: 0 :: rest) = some [] := by
  rw [scan.eq_def]
  exact (if_neg hc).trans (if_pos rfl)

theorem scan_colon_end {d : Byte} (hd : d ≠ 0) : scan [byteOf ':', d] = none := by
  rw [scan.eq_def]
  exact (if_neg hd).trans (if_pos rfl)

theorem scan_colon {d : Byte} (hd : d ≠ 0) (e : Byte) (rest : List Byte) :
    scan (byteOf ':' :: d :: e :: rest) = (scan rest).map (hexOf d e :: ·) := by
  rw [scan.eq_def]
  exact (if_neg hd).trans (if_pos rfl)

theorem scan_pair {c d : Byte} (hc : c ≠ 0) (hd : d ≠ 0) (hcolon : c ≠ byteOf ':')
    (rest : List Byte) : scan (c :: d :: rest) = (scan rest).map (hexOf c d :: ·) := by
  rw [scan.eq_def]
  exact (if_neg hc).trans ((if_neg hd).trans (if_neg hcolon))

def Storage.after (s : Storage) (r : ℕ) : List Byte := (List.range' r (s.size - r)).map s.cell

variable {s : Storage}

theorem after_of_lt {r : ℕ} (h : r < s.size) :
    s.after r = s.cell r :: s.after (r + 1) := by
  rw [Storage.after, show s.size - r = (s.size - (r + 1)) + 1 by omega, List.range'_succ,
    List.map_cons]
  rfl

theorem after_of_le {r : ℕ} (h : s.size ≤ r) : s.after r = [] := by
  rw [Storage.after, Nat.sub_eq_zero_of_le h]
  rfl

theorem after_update {r w : ℕ} (v : Byte) (h : w < r) :
    (Storage.mk s.size (Function.update s.cell w v)).after r = s.after r := by
  refine List.map_congr_left (fun i hi => ?_)
  have hle := (List.mem_range'_1.mp hi).1
  exact Function.update_of_ne (by omega) _ _

/-- What a run of the loop leaves: its bytes from w on, everything before as it
was, and the length and the place behind them. -/
structure Wrote (s : Storage) (w : ℕ) (uiOptionBufLen : BitVec 16) (out : List Byte)
    (res : Storage × ℕ × BitVec 16) : Prop where
  size : res.1.size = s.size
  before : ∀ i < w, res.1.cell i = s.cell i
  written : ∀ (i : ℕ) v, out[i]? = some v → res.1.cell (w + i) = v
  place : res.2.1 = w + out.length
  length : res.2.2 = uiOptionBufLen + BitVec.ofNat 16 out.length

theorem wrote_nil (s : Storage) (w : ℕ) (uiOptionBufLen : BitVec 16) :
    Wrote s w uiOptionBufLen [] (s, w, uiOptionBufLen) where
  size := rfl
  before _ _ := rfl
  written _ _ h := by cases h
  place := rfl
  length := by simp

theorem wrote_cons {w : ℕ} {uiOptionBufLen : BitVec 16} {v : Byte} {out : List Byte}
    {res : Storage × ℕ × BitVec 16}
    (h : Wrote ⟨s.size, Function.update s.cell w v⟩ (w + 1) (uiOptionBufLen + 1) out res) :
    Wrote s w uiOptionBufLen (v :: out) res where
  size := h.size
  before i hi := by
    rw [h.before i (by omega)]
    exact Function.update_of_ne (by omega) _ _
  written i u hu := by
    cases i with
    | zero =>
      rw [List.getElem?_cons_zero, Option.some.injEq] at hu
      rw [Nat.add_zero, h.before w (by omega), ← hu]
      exact Function.update_self _ _ _
    | succ i =>
      rw [List.getElem?_cons_succ] at hu
      rw [← h.written i u hu, Nat.add_right_comm, Nat.add_assoc]
  place := by
    rw [h.place, List.length_cons]
    omega
  length := by
    rw [h.length, List.length_cons, BitVec.ofNat_add, BitVec.add_assoc, BitVec.add_comm 1]
    rfl

theorem convertLoop_scan (s : Storage) (r w : ℕ) (uiOptionBufLen : BitVec 16) (hw : w ≤ r) :
    (scan (s.after r) = none ∧ convertLoop s r w uiOptionBufLen = none) ∨
      ∃ out res, scan (s.after r) = some out ∧ convertLoop s r w uiOptionBufLen = some res ∧
        Wrote s w uiOptionBufLen out res ∧ res.2.1 < s.size := by
  induction hn : s.size - r using Nat.strong_induction_on generalizing s r w uiOptionBufLen with
  | _ n ih =>
  rw [convertLoop]
  by_cases hr : r < s.size
  swap
  · left
    rw [dif_neg hr, after_of_le (by omega)]
    exact ⟨rfl, rfl⟩
  rw [dif_pos hr, after_of_lt hr]
  by_cases hzero : s.cell r = 0
  · right
    rw [if_pos hzero, hzero, scan_zero]
    exact ⟨[], _, rfl, rfl, wrote_nil s w uiOptionBufLen, Nat.lt_of_le_of_lt hw hr⟩
  rw [if_neg hzero]
  by_cases hr1 : r + 1 < s.size
  swap
  · left
    rw [if_neg hr1, after_of_le (by omega), scan_single hzero]
    exact ⟨rfl, rfl⟩
  rw [if_pos hr1, after_of_lt hr1]
  by_cases hzero1 : s.cell (r + 1) = 0
  · right
    rw [if_pos hzero1, hzero1, scan_last hzero]
    exact ⟨[], _, rfl, rfl, wrote_nil s w uiOptionBufLen, Nat.lt_of_le_of_lt hw hr⟩
  rw [if_neg hzero1]
  dsimp only
  by_cases hcolon : s.cell r = byteOf ':'
  · rw [if_pos hcolon, hcolon]
    by_cases hr2 : r + 1 + 1 < s.size
    · rw [if_pos ⟨hr2, by omega⟩, after_of_lt hr2, scan_colon hzero1]
      have hrest := ih (s.size - (r + 1 + 2)) (by omega) ⟨s.size, Function.update s.cell w
        (hexOf (s.cell (r + 1)) (s.cell (r + 1 + 1)))⟩ (r + 1 + 2) (w + 1) (uiOptionBufLen + 1)
        (by omega) rfl
      rw [after_update _ (by omega)] at hrest
      rcases hrest with ⟨hscan, hloop⟩ | ⟨out, res, hscan, hloop, hwrote, hlt⟩
      · exact Or.inl ⟨by rw [hscan]; rfl, hloop⟩
      · exact Or.inr ⟨_, res, by rw [hscan]; rfl, hloop, wrote_cons hwrote, hlt⟩
    · left
      rw [if_neg (fun h => hr2 h.1), after_of_le (by omega), scan_colon_end hzero1]
      exact ⟨rfl, rfl⟩
  · rw [if_neg hcolon, if_pos ⟨hr1, by omega⟩, scan_pair hzero hzero1 hcolon]
    have hrest := ih (s.size - (r + 2)) (by omega) ⟨s.size, Function.update s.cell w
      (hexOf (s.cell r) (s.cell (r + 1)))⟩ (r + 2) (w + 1) (uiOptionBufLen + 1) (by omega) rfl
    rw [after_update _ (by omega)] at hrest
    rcases hrest with ⟨hscan, hloop⟩ | ⟨out, res, hscan, hloop, hwrote, hlt⟩
    · exact Or.inl ⟨by rw [hscan]; rfl, hloop⟩
    · exact Or.inr ⟨_, res, by rw [hscan]; rfl, hloop, wrote_cons hwrote, hlt⟩

theorem after_ofBytes (l : List Byte) (r : ℕ) : (Storage.ofBytes l).after r = l.drop r := by
  apply List.ext_getElem
  · simp [Storage.after, Storage.ofBytes]
  · intro i h1 h2
    rw [List.length_drop] at h2
    simp [Storage.after, Storage.ofBytes, List.getD_eq_getElem?_getD,
      List.getElem?_eq_getElem (show r + i < l.length by omega)]

theorem read_ofBytes (l : List Byte) (i : ℕ) : (Storage.ofBytes l).read i = l[i]? := by
  unfold Storage.read Storage.ofBytes
  by_cases hi : i < l.length
  · rw [if_pos hi, List.getElem?_eq_getElem hi]
    simp [List.getD_eq_getElem?_getD, hi]
  · rw [if_neg hi, List.getElem?_eq_none (by omega)]

theorem write_ofBytes {l : List Byte} {i : ℕ} (hi : i < l.length) (v : Byte) :
    (Storage.ofBytes l).write i v = some (Storage.ofBytes (l.set i v)) := by
  have hsize : i < (Storage.ofBytes l).size := hi
  unfold Storage.write
  rw [if_pos hsize]
  simp only [Storage.ofBytes, List.length_set, Option.some.injEq, Storage.mk.injEq, true_and]
  funext j
  by_cases hj : j = i
  · subst hj
    simp [List.getD_eq_getElem?_getD, hi]
  · rw [Function.update_of_ne hj, List.getD_eq_getElem?_getD, List.getD_eq_getElem?_getD,
      List.getElem?_set_ne (Ne.symm hj)]

variable {t : List Byte}

theorem strlen_ofString (hnul : 0 ∉ t) {r : ℕ} (hr : r ≤ t.length) :
    strlen (Storage.ofString t) r = some (t.length - r) := by
  rw [strlen, List.find?_range_eq_some]
  have hsize : (Storage.ofString t).size = t.length + 1 := by
    simp [Storage.ofString, Storage.ofBytes]
  refine ⟨?_, ?_, fun j hj => ?_⟩
  · simp [Storage.ofString, Storage.ofBytes, List.getD_eq_getElem?_getD,
      show r + (t.length - r) = t.length by omega]
  · rw [List.mem_range, hsize]
    omega
  · have hlt : r + j < t.length := by omega
    simp only [Storage.ofString, Storage.ofBytes, List.getD_eq_getElem?_getD,
      List.getElem?_append_left hlt, List.getElem?_eq_getElem hlt, Option.getD_some,
      Bool.not_eq_true', decide_eq_false_iff_not]
    intro hzero
    exact hnul (hzero ▸ List.getElem_mem hlt)

def quote : Byte := byteOf '\''

def start (t : List Byte) : ℕ := if t.head? = some quote then 1 else 0

/-- The storage of the text, a closing quote being a NUL. -/
def closed (t : List Byte) : List Byte :=
  if t.getLast? = some quote then t.dropLast ++ [0, 0] else t ++ [0]

def scanText (t : List Byte) : List Byte := (closed t).drop (start t)

theorem set_last (ht : t ≠ []) :
    t.dropLast ++ [0, 0] = (t ++ [0]).set (t.length - 1) 0 := by
  have hlen : t.dropLast.length = t.length - 1 := List.length_dropLast
  rw [← hlen]
  conv_rhs => rw [← List.dropLast_append_getLast ht, List.append_assoc]
  rw [List.dropLast_append_getLast ht, List.set_append_right _ _ (Nat.le_refl _), Nat.sub_self]
  rfl

theorem start_le (ht : t ≠ []) : start t ≤ t.length := by
  have hpos := List.length_pos_iff.mpr ht
  unfold start
  split
  · omega
  · omega

theorem convert_scan (hnul : 0 ∉ t) (ht : t ≠ []) (uiOptionBufLen : BitVec 16) :
    (scan (scanText t) = none ∧
      convertStringToHexStream (Storage.ofString t) uiOptionBufLen = none) ∨
    ∃ out s, scan (scanText t) = some out ∧
      convertStringToHexStream (Storage.ofString t) uiOptionBufLen =
        some (s, uiOptionBufLen + BitVec.ofNat 16 out.length) ∧
      ∀ (i : ℕ) v, out[i]? = some v → s.cell i = v := by
  have hfirst : (Storage.ofString t).read 0 = some (t.head ht) := by
    rw [Storage.ofString, read_ofBytes]
    cases t with
    | nil => exact absurd rfl ht
    | cons c t => rfl
  have hstart : (if t.head ht = byteOf '\'' then 1 else 0) = start t := by
    simp only [start, List.head?_eq_some_head ht, Option.some.injEq]
    rfl
  have hle := start_le ht
  have hpos := List.length_pos_iff.mpr ht
  have hlast : (Storage.ofString t).read (t.length - 1) = some (t.getLast ht) := by
    rw [Storage.ofString, read_ofBytes, List.getElem?_append_left (by omega),
      List.getElem?_eq_getElem (by omega), List.getLast_eq_getElem]
  have hlastIndex : t.length - 1 < (t ++ [0]).length := by
    rw [List.length_append]
    omega
  have hclose : (if t.getLast ht = byteOf '\'' then
      (Storage.ofString t).write (t.length - 1) 0 else some (Storage.ofString t)) =
      some (Storage.ofBytes (closed t)) := by
    unfold closed
    by_cases hq : t.getLast ht = quote
    · have hq' : t.getLast? = some quote := by rw [List.getLast?_eq_some_getLast ht, hq]
      rw [if_pos hq', set_last ht]
      exact (if_pos hq).trans (write_ofBytes hlastIndex 0)
    · have hq' : t.getLast? ≠ some quote := by
        rw [List.getLast?_eq_some_getLast ht]
        exact fun h => hq (Option.some.inj h)
      rw [if_neg hq']
      exact if_neg hq
  have hrun : convertStringToHexStream (Storage.ofString t) uiOptionBufLen =
      (convertLoop (Storage.ofBytes (closed t)) (start t) 0 uiOptionBufLen).bind
        (fun r => (r.1.write r.2.1 0).bind (fun s => some (s, r.2.2))) := by
    rw [convertStringToHexStream, hfirst]
    simp only [Option.bind_eq_bind, Option.bind_some, hstart, strlen_ofString hnul hle]
    rw [if_neg (by omega), show start t + (t.length - start t) - 1 = t.length - 1 by omega, hlast]
    simp only [Option.bind_some]
    rw [hclose]
    rfl
  rw [hrun, scanText, ← after_ofBytes]
  rcases convertLoop_scan (Storage.ofBytes (closed t)) (start t) 0 uiOptionBufLen (Nat.zero_le _)
    with ⟨hscan, hloop⟩ | ⟨out, res, hscan, hloop, hwrote, hlt⟩
  · exact Or.inl ⟨hscan, by rw [hloop]; rfl⟩
  · right
    have hwrite : res.1.write res.2.1 0 =
        some { res.1 with cell := Function.update res.1.cell res.2.1 0 } := by
      rw [Storage.write, if_pos (by rw [hwrote.size]; exact hlt)]
    refine ⟨out, { res.1 with cell := Function.update res.1.cell res.2.1 0 }, hscan, ?_,
      fun i v hv => ?_⟩
    · rw [hloop, Option.bind_some, hwrite, Option.bind_some, hwrote.length]
    · have hi := (List.getElem?_eq_some_iff.mp hv).1
      have hat := hwrote.written i v hv
      rw [Nat.zero_add] at hat
      rw [← hat]
      exact Function.update_of_ne (by rw [hwrote.place]; omega) _ _

def stepsOver : List Byte → Bool
  | c :: _ :: rest =>
    if c = byteOf ':' then
      match rest with
      | [] => true
      | _ :: rest => stepsOver rest
    else stepsOver rest
  | _ => false

theorem exists_map {α β : Type} (f : α → β) (o : Option α) :
    (∃ b, o.map f = some b) ↔ ∃ a, o = some a := by
  cases o <;> simp

theorem scan_iff {x : List Byte} (hx : 0 ∉ x) {z : List Byte} (hz : z = [] ∨ z = [0]) :
    (∃ out, scan (x ++ 0 :: z) = some out) ↔ z = [0] ∨ stepsOver x = false := by
  fun_induction stepsOver x with
  | case1 d =>
    have hd : d ≠ 0 := by
      rintro rfl
      simp at hx
    rw [List.cons_append, List.cons_append, List.nil_append, scan_colon hd, exists_map]
    rcases hz with rfl | rfl
    · rw [show scan [] = none from rfl]
      simp
    · rw [scan_zero]
      simp
  | case2 d e rest ih =>
    have hd : d ≠ 0 := by
      rintro rfl
      simp at hx
    rw [List.cons_append, List.cons_append, List.cons_append, scan_colon hd, exists_map]
    exact ih (fun h => hx (List.mem_cons_of_mem _ (List.mem_cons_of_mem _
      (List.mem_cons_of_mem _ h))))
  | case3 c d rest hcolon ih =>
    have hc : c ≠ 0 := by
      rintro rfl
      simp at hx
    have hd : d ≠ 0 := by
      rintro rfl
      simp at hx
    rw [List.cons_append, List.cons_append, scan_pair hc hd hcolon, exists_map]
    exact ih (fun h => hx (List.mem_cons_of_mem _ (List.mem_cons_of_mem _ h)))
  | case4 x hshort =>
    refine iff_of_true ?_ (Or.inr rfl)
    cases x with
    | nil => exact ⟨[], scan_zero z⟩
    | cons c x =>
      cases x with
      | nil => exact ⟨[], scan_last (fun h => hx (by simp [h])) z⟩
      | cons d x => exact absurd rfl (hshort c d x)

theorem scanText_open (ht : t ≠ []) (hlast : t.getLast? ≠ some quote) :
    scanText t = t.drop (start t) ++ [0] := by
  rw [scanText, closed, if_neg hlast, List.drop_append_of_le_length (start_le ht)]

theorem scanText_closed (hlast : t.getLast? = some quote) :
    scanText t = t.dropLast.drop (start t) ++ [0, 0] ∨ scanText t = [0] := by
  rw [scanText, closed, if_pos hlast]
  by_cases hle : start t ≤ t.dropLast.length
  · exact Or.inl (List.drop_append_of_le_length hle)
  · right
    have hstart : start t ≤ 1 := by
      unfold start
      split
      · exact Nat.le_refl 1
      · exact Nat.zero_le 1
    have hnil : t.dropLast = [] := List.length_eq_zero_iff.mp (by omega)
    rw [hnil, show start t = 1 by omega]
    rfl

theorem convert_inStorage_iff (hnul : 0 ∉ t) (uiOptionBufLen : BitVec 16) :
    (∃ res, convertStringToHexStream (Storage.ofString t) uiOptionBufLen = some res) ↔
      t ≠ [] ∧ (t.getLast? = some quote ∨ stepsOver (t.drop (start t)) = false) := by
  by_cases ht : t = []
  · subst ht
    exact iff_of_false (by rintro ⟨res, h⟩; cases h) (fun h => h.1 rfl)
  rw [and_iff_right ht]
  have hscan : (∃ res, convertStringToHexStream (Storage.ofString t) uiOptionBufLen = some res) ↔
      ∃ out, scan (scanText t) = some out := by
    rcases convert_scan hnul ht uiOptionBufLen with ⟨hscan, hrun⟩ | ⟨out, s, hscan, hrun, -⟩
    · rw [hscan, hrun]
      simp
    · exact iff_of_true ⟨_, hrun⟩ ⟨out, hscan⟩
  rw [hscan]
  by_cases hlast : t.getLast? = some quote
  · refine iff_of_true ?_ (Or.inl hlast)
    rcases scanText_closed hlast with htext | htext
    · rw [htext]
      have hmem : 0 ∉ t.dropLast.drop (start t) := fun h =>
        hnul (List.dropLast_subset t (List.mem_of_mem_drop h))
      exact (scan_iff hmem (Or.inr rfl)).mpr (Or.inl rfl)
    · rw [htext]
      exact ⟨[], scan_zero []⟩
  · rw [or_iff_right hlast, scanText_open ht hlast,
      scan_iff (fun h => hnul (List.mem_of_mem_drop h)) (Or.inl rfl)]
    simp

section Text

/-- The characters of a text are bytes other than NUL. -/
def Bytes (text : CStr) : Prop := ∀ c ∈ text, 0 < c.toNat ∧ c.toNat < 256

variable {c : Char}

theorem byteOf_toNat (h : c.toNat < 256) : (byteOf c).toNat = c.toNat := by
  rw [byteOf, BitVec.toNat_ofNat, Nat.mod_eq_of_lt h]

theorem byteOf_eq_iff {c d : Char} (hc : c.toNat < 256) (hd : d.toNat < 256) :
    byteOf c = byteOf d ↔ c = d := by
  refine ⟨fun h => ?_, fun h => by rw [h]⟩
  have hnat := congrArg BitVec.toNat h
  rw [byteOf_toNat hc, byteOf_toNat hd] at hnat
  exact Char.toNat_inj.mp hnat

theorem byteOf_ne_zero (h : 0 < c.toNat ∧ c.toNat < 256) : byteOf c ≠ 0 := by
  intro hzero
  have hnat := congrArg BitVec.toNat hzero
  rw [byteOf_toNat h.2] at hnat
  exact absurd hnat (by simp; omega)

theorem digit_byteOf (h : c.toNat < 256) : digit (byteOf c) = stringToHex c := by
  rw [digit, byteOf_toNat h, Char.ofNat_toNat]

theorem hexOf_byteOf {hi lo : Char} (hhi : hi.toNat < 256) (hlo : lo.toNat < 256) :
    hexOf (byteOf hi) (byteOf lo) = hexByte hi lo := by
  rw [hexOf, digit_byteOf hhi, digit_byteOf hlo, hexByte]

variable {x : CStr}

theorem scan_byteOf (hx : Bytes x) (isClosed : Bool) :
    scan (x.map byteOf ++ 0 :: if isClosed then [0] else []) = hexPairs isClosed x := by
  fun_induction hexPairs isClosed x with
  | case1 hi lo rest ih =>
    simp only [Bytes, List.forall_mem_cons] at hx
    rw [← ih hx.2.2.2, ← hexOf_byteOf hx.2.1.2 hx.2.2.1.2]
    exact scan_colon (byteOf_ne_zero hx.2.1) _ _
  | case2 hi hclosed =>
    simp only [Bytes, List.forall_mem_cons] at hx
    rw [hclosed, ← hexOf_byteOf hx.2.1.2 (by decide)]
    exact scan_colon (byteOf_ne_zero hx.2.1) _ _
  | case3 hi hopen =>
    simp only [Bytes, List.forall_mem_cons] at hx
    rw [if_neg hopen]
    exact scan_colon (byteOf_ne_zero hx.2.1) _ _
  | case4 hi lo rest h1 h2 ih =>
    simp only [Bytes, List.forall_mem_cons] at hx
    have hcolon : hi ≠ ':' := by
      rintro rfl
      cases rest with
      | nil => exact h2 rfl rfl
      | cons c rest => exact h1 c rest rfl rfl
    rw [← ih hx.2.2, ← hexOf_byteOf hx.1.2 hx.2.1.2]
    exact scan_pair (byteOf_ne_zero hx.1) (byteOf_ne_zero hx.2.1)
      (fun h => hcolon ((byteOf_eq_iff hx.1.2 (by decide)).mp h)) _
  | case5 x h1 h2 h3 =>
    cases x with
    | nil => exact scan_zero _
    | cons c x =>
      cases x with
      | nil =>
        simp only [Bytes, List.forall_mem_cons] at hx
        exact scan_last (byteOf_ne_zero hx.1) _
      | cons d x => exact absurd rfl (h3 c d x)

theorem getLast?_byteOf (hx : Bytes x) :
    (x.map byteOf).getLast? = some quote ↔ x.getLast? = some '\'' := by
  rw [List.getLast?_map, Option.map_eq_some_iff]
  constructor
  · rintro ⟨c, hc, hq⟩
    rw [hc, (byteOf_eq_iff (hx c (List.mem_of_mem_getLast? hc)).2 (by decide)).mp hq]
  · intro h
    exact ⟨_, h, rfl⟩

theorem bytes_stripClosing (hx : Bytes x) :
    Bytes (if decide (x.getLast? = some '\'') then x.dropLast else x) := by
  intro c hc
  split at hc
  · exact hx c (List.dropLast_subset x hc)
  · exact hx c hc

theorem closed_byteOf (hx : Bytes x) : closed (x.map byteOf) =
    (if decide (x.getLast? = some '\'') then x.dropLast else x).map byteOf ++
      0 :: if decide (x.getLast? = some '\'') then [0] else [] := by
  unfold closed
  by_cases hlast : x.getLast? = some '\''
  · rw [if_pos ((getLast?_byteOf hx).mpr hlast), decide_eq_true hlast, if_pos rfl, if_pos rfl,
      List.map_dropLast]
  · rw [if_neg (fun h => hlast ((getLast?_byteOf hx).mp h)), decide_eq_false hlast]
    rfl

theorem scanText_byteOf {text : CStr} (hx : Bytes text) :
    scanText (text.map byteOf) =
      closed ((if text.head? = some '\'' then text.tail else text).map byteOf) := by
  cases text with
  | nil => rfl
  | cons c rest =>
    rw [Bytes, List.forall_mem_cons] at hx
    by_cases hc : c = '\''
    · subst hc
      rw [scanText, show start (('\'' :: rest).map byteOf) = 1 from if_pos rfl]
      cases rest with
      | nil => rfl
      | cons d rest =>
        unfold closed
        simp only [List.map_cons, List.getLast?_cons_cons, List.head?_cons, List.tail_cons,
          if_true]
        split
        · rfl
        · rfl
    · have hstart : start ((c :: rest).map byteOf) = 0 :=
        if_neg (fun h => hc ((byteOf_eq_iff hx.1.2 (by decide)).mp (Option.some.inj h)))
      have hhead : (c :: rest).head? ≠ some '\'' := fun h => hc (Option.some.inj h)
      rw [scanText, hstart, if_neg hhead]
      rfl

/-- The reading of the text is what the conversion leaves in its own storage, and
neither has a result when the storage is left. -/
theorem cosaDmlMaptConvertStringToHexStream_eq {text : CStr} (hx : Bytes text) :
    cosaDmlMaptConvertStringToHexStream (some text) =
      (convertStringToHexStream (Storage.ofString (text.map byteOf)) 0).map
        (fun res => (.STATUS_SUCCESS, (List.range res.2.toNat).map res.1.cell)) := by
  by_cases htext : text = []
  · subst htext
    rfl
  have hnul : 0 ∉ text.map byteOf := by
    intro h
    obtain ⟨c, hc, hzero⟩ := List.mem_map.mp h
    exact byteOf_ne_zero (hx c hc) hzero
  have hopened : Bytes (if text.head? = some '\'' then text.tail else text) := by
    intro c hc
    split at hc
    · exact hx c (List.mem_of_mem_tail hc)
    · exact hx c hc
  have hscan := scan_byteOf (bytes_stripClosing hopened)
    (decide ((if text.head? = some '\'' then text.tail else text).getLast? = some '\''))
  rw [← closed_byteOf hopened, ← scanText_byteOf hx] at hscan
  simp only [cosaDmlMaptConvertStringToHexStream, if_neg htext]
  rw [← hscan]
  rcases convert_scan hnul (fun h => htext (List.map_eq_nil_iff.mp h)) 0 with
    ⟨hnone, hrun⟩ | ⟨out, s, hout, hrun, hcells⟩
  · rw [hnone, hrun]
    rfl
  · have hcount : (0 + BitVec.ofNat 16 out.length).toNat = out.length % 2 ^ 16 := by simp
    rw [hout, hrun, Option.map_some, Option.map_some, hcount]
    refine congrArg (fun hex => some (ReturnStatus.STATUS_SUCCESS, hex)) ?_
    apply List.ext_getElem
    · rw [List.length_take, List.length_map, List.length_range]
      exact Nat.min_eq_left (Nat.mod_le _ _)
    · intro i h1 h2
      rw [List.length_take] at h1
      rw [List.getElem_take, List.getElem_map, List.getElem_range]
      exact (hcells i _ (List.getElem?_eq_getElem (by omega))).symm

theorem cosaDmlMaptConvertStringToHexStream_quoted :
    cosaDmlMaptConvertStringToHexStream (some "'0a:1F'".toList) =
      (convertStringToHexStream (Storage.ofString ("'0a:1F'".toList.map byteOf)) 0).map
        (fun res => (.STATUS_SUCCESS, (List.range res.2.toNat).map res.1.cell)) :=
  cosaDmlMaptConvertStringToHexStream_eq
    (fun c hc => of_decide_eq_true (List.all_eq_true.mp (by decide +kernel :
      "'0a:1F'".toList.all (fun c => decide (0 < c.toNat ∧ c.toNat < 256)) = true) c hc))

end Text

section Renderings

def IsHexDigit (n : ℕ) (c : Byte) : Prop :=
  c = byteOf (Nat.digitChar n) ∨ c = byteOf (Nat.digitChar n).toUpper

def IsHexByte (v hi lo : Byte) : Prop := IsHexDigit (v.toNat / 16) hi ∧ IsHexDigit (v.toNat % 16) lo

/-- Two digits for each byte, with or without a colon between two bytes. -/
inductive Renders : List Byte → List Byte → Prop where
  | nil : Renders [] []
  | single {v hi lo : Byte} : IsHexByte v hi lo → Renders [v] [hi, lo]
  | cons {v hi lo : Byte} {b ts : List Byte} : IsHexByte v hi lo → b ≠ [] → Renders b ts →
      Renders (v :: b) (hi :: lo :: ts)
  | colon {v hi lo : Byte} {b ts : List Byte} : IsHexByte v hi lo → b ≠ [] → Renders b ts →
      Renders (v :: b) (hi :: lo :: byteOf ':' :: ts)

def RendersText (b t : List Byte) : Prop :=
  Renders b t ∨ ∃ ts, Renders b ts ∧ t = quote :: ts ++ [quote]

theorem digit_of_isHexDigit {n : ℕ} (hn : n < 16) (h : IsHexDigit n c) :
    digit c = n ∧ c ≠ 0 ∧ c ≠ byteOf ':' ∧ c ≠ quote := by
  have hall : ∀ n < 16, (digit (byteOf (Nat.digitChar n)) = (n : ℤ) ∧
      byteOf (Nat.digitChar n) ≠ 0 ∧ byteOf (Nat.digitChar n) ≠ byteOf ':' ∧
      byteOf (Nat.digitChar n) ≠ quote) ∧ (digit (byteOf (Nat.digitChar n).toUpper) = (n : ℤ) ∧
      byteOf (Nat.digitChar n).toUpper ≠ 0 ∧ byteOf (Nat.digitChar n).toUpper ≠ byteOf ':' ∧
      byteOf (Nat.digitChar n).toUpper ≠ quote) := by
    decide +kernel
  rcases h with rfl | rfl
  · exact (hall n hn).1
  · exact (hall n hn).2

theorem hexOf_of_isHexByte {v hi lo : Byte} (h : IsHexByte v hi lo) : hexOf hi lo = v := by
  have hlt := v.isLt
  have hhi := (digit_of_isHexDigit (by omega) h.1).1
  have hlo := (digit_of_isHexDigit (Nat.mod_lt _ (by decide)) h.2).1
  have hall : ∀ n < 256, BitVec.ofNat 8 (n / 16) <<< 4 ||| BitVec.ofNat 8 (n % 16) =
      BitVec.ofNat 8 n := by
    decide +kernel
  rw [hexOf, hhi, hlo, BitVec.ofInt_natCast, BitVec.ofInt_natCast, hall v.toNat hlt,
    BitVec.ofNat_toNat, BitVec.setWidth_eq]

variable {b ts : List Byte}

theorem scan_byte {v hi lo : Byte} (h : IsHexByte v hi lo) (rest : List Byte) :
    scan (hi :: lo :: rest) = (scan rest).map (v :: ·) ∧
      scan (byteOf ':' :: hi :: lo :: rest) = (scan rest).map (v :: ·) := by
  have hlt := v.isLt
  obtain ⟨-, hhi, hcolon, -⟩ := digit_of_isHexDigit (by omega) h.1
  obtain ⟨-, hlo, -, -⟩ := digit_of_isHexDigit (Nat.mod_lt _ (by decide)) h.2
  rw [scan_pair hhi hlo hcolon, scan_colon hhi, hexOf_of_isHexByte h]
  exact ⟨rfl, rfl⟩

theorem scan_renders (h : Renders b ts) (z : List Byte) :
    scan (ts ++ 0 :: z) = some b ∧ (b ≠ [] → scan (byteOf ':' :: ts ++ 0 :: z) = some b) := by
  induction h with
  | nil => exact ⟨scan_zero z, fun h => absurd rfl h⟩
  | single hv =>
    obtain ⟨hpair, hcolon⟩ := scan_byte hv (0 :: z)
    rw [scan_zero] at hpair hcolon
    exact ⟨hpair, fun _ => hcolon⟩
  | cons hv _ _ ih =>
    obtain ⟨hpair, hcolon⟩ := scan_byte hv (_ ++ 0 :: z)
    rw [ih.1] at hpair hcolon
    exact ⟨hpair, fun _ => hcolon⟩
  | colon hv hb _ ih =>
    obtain ⟨hpair, hcolon⟩ := scan_byte hv (byteOf ':' :: _ ++ 0 :: z)
    rw [ih.2 hb] at hpair hcolon
    exact ⟨hpair, fun _ => hcolon⟩

theorem Renders.no_quote (h : Renders b ts) : quote ∉ ts := by
  have hpair : ∀ {v hi lo : Byte}, IsHexByte v hi lo → quote ≠ hi ∧ quote ≠ lo := by
    intro v hi lo hv
    have hlt := v.isLt
    exact ⟨(digit_of_isHexDigit (by omega) hv.1).2.2.2.symm,
      (digit_of_isHexDigit (Nat.mod_lt _ (by decide)) hv.2).2.2.2.symm⟩
  induction h with
  | nil => exact List.not_mem_nil
  | single hv => simp [hpair hv]
  | cons hv _ _ ih => simp [hpair hv, ih]
  | colon hv _ _ ih =>
    have hcolon : quote ≠ byteOf ':' := by decide
    simp [hpair hv, hcolon, ih]

theorem scan_rendersText {b t : List Byte} (h : RendersText b t) (ht : t ≠ []) :
    scan (scanText t) = some b := by
  rcases h with h | ⟨ts, h, rfl⟩
  · have hlast : t.getLast? ≠ some quote := fun hq =>
      h.no_quote (List.mem_of_mem_getLast? hq)
    have hfirst : start t = 0 := if_neg (fun hq => h.no_quote (List.mem_of_mem_head? hq))
    rw [scanText_open ht hlast, hfirst]
    exact (scan_renders h []).1
  · have hlast : (quote :: ts ++ [quote]).getLast? = some quote := List.getLast?_concat
    rw [scanText, closed, if_pos hlast, List.dropLast_concat,
      show start (quote :: ts ++ [quote]) = 1
      from if_pos rfl]
    exact (scan_renders h [0]).1

/-- The conversion leaves exactly b at the start of the buffer and counts its
bytes. -/
def Converts (b t : List Byte) (uiOptionBufLen : BitVec 16) : Prop :=
  ∃ s, convertStringToHexStream (Storage.ofString t) uiOptionBufLen =
    some (s, uiOptionBufLen + BitVec.ofNat 16 b.length) ∧
      ∀ (i : ℕ) v, b[i]? = some v → s.cell i = v

theorem converts_iff {b t : List Byte} (hnul : 0 ∉ t) (uiOptionBufLen : BitVec 16)
    (h : RendersText b t) : Converts b t uiOptionBufLen ↔ t ≠ [] := by
  constructor
  · rintro ⟨s, hrun, -⟩
    exact ((convert_inStorage_iff hnul uiOptionBufLen).mp ⟨_, hrun⟩).1
  · intro ht
    rcases convert_scan hnul ht uiOptionBufLen with ⟨hscan, -⟩ | ⟨out, s, hscan, hrun, hcells⟩
    · rw [scan_rendersText h ht] at hscan
      cases hscan
    · rw [scan_rendersText h ht, Option.some.injEq] at hscan
      subst hscan
      exact ⟨s, hrun, hcells⟩

/-- A rendering is converted, unless it is empty; any string is converted inside
its storage, unless it is empty or the loop steps over its NUL. -/
theorem convertStringToHexStream_iff (t : List Byte) (uiOptionBufLen : BitVec 16)
    (hnul : 0 ∉ t) :
    ((∃ res, convertStringToHexStream (Storage.ofString t) uiOptionBufLen = some res) ↔
      t ≠ [] ∧ (t.getLast? = some quote ∨ stepsOver (t.drop (start t)) = false)) ∧
    ∀ b, b.length < 65536 → RendersText b t →
      (Converts b t uiOptionBufLen ↔ t ≠ []) :=
  ⟨convert_inStorage_iff hnul uiOptionBufLen, fun _ _ h => converts_iff hnul uiOptionBufLen h⟩

theorem convertStringToHexStream_colons :
    0 ∉ "0a:1F".toList.map byteOf ∧ Converts [0x0a, 0x1f] ("0a:1F".toList.map byteOf) 0 := by
  have hnul : 0 ∉ "0a:1F".toList.map byteOf := by decide +kernel
  have hrenders : Renders [0x0a, 0x1f] ("0a:1F".toList.map byteOf) := by
    apply Renders.colon ⟨Or.inl (by decide +kernel), Or.inl (by decide +kernel)⟩ (by decide)
    exact Renders.single ⟨Or.inl (by decide +kernel), Or.inr (by decide +kernel)⟩
  exact ⟨hnul, ((convertStringToHexStream_iff _ 0 hnul).2 _ (by decide)
    (Or.inl hrenders)).mpr (by decide +kernel)⟩

/-- A colon and one more character: the read place passes the NUL. -/
theorem convertStringToHexStream_odd_colon :
    ¬ ∀ (t : List Byte) (uiOptionBufLen : BitVec 16), 0 ∉ t →
      (∃ res, convertStringToHexStream (Storage.ofString t) uiOptionBufLen = some res) ∧
      ∀ b, b.length < 65536 → RendersText b t → Converts b t uiOptionBufLen := by
  intro hclaim
  have hnul : 0 ∉ "00:1".toList.map byteOf := by decide +kernel
  have hin := (convert_inStorage_iff hnul 0).mp (hclaim _ 0 hnul).1
  revert hin
  decide +kernel

end Renderings

end CcspPandM.HexStream
