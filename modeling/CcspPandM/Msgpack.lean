import Mathlib.Data.List.Induction
import Mathlib.Tactic.NormNum

/-!
The MessagePack format: the first byte of an object says its kind and either its
size or how many bytes of its size follow. A decoder reads one object and leaves
the rest, and what it reads does not depend on what comes behind.
-/
namespace CcspPandM.Msgpack

abbrev Byte := BitVec 8

inductive Obj where
  | nil
  | boolean (b : Bool)
  | int (n : ℤ)
  | float (bytes : List Byte)
  | str (bytes : List Byte)
  | bin (bytes : List Byte)
  | ext (bytes : List Byte)
  | array (objects : List Obj)
  | map (entries : List (Obj × Obj))

inductive Kind where
  | unsigned
  | signed
  | float
  | str
  | bin
  | ext
  deriving DecidableEq

def bigEndian (bytes : List Byte) : ℕ := bytes.foldl (fun n b => n * 256 + b.toNat) 0

def Kind.object (kind : Kind) (bytes : List Byte) : Obj :=
  match kind with
  | .unsigned => .int (bigEndian bytes)
  | .signed =>
    let n := bigEndian bytes
    .int (if 2 * n < 256 ^ bytes.length then n else n - 256 ^ bytes.length)
  | .float => .float bytes
  | .str => .str bytes
  | .bin => .bin bytes
  | .ext => .ext bytes

/-- What a first byte announces. A size of `width` bytes comes before the bytes
or the objects it counts. -/
inductive Form where
  | nil
  | boolean (b : Bool)
  | fixint (n : ℤ)
  | bytes (kind : Kind) (size : ℕ)
  | sizedBytes (kind : Kind) (width : ℕ)
  | array (size : ℕ)
  | sizedArray (width : ℕ)
  | map (size : ℕ)
  | sizedMap (width : ℕ)
  | never
  deriving DecidableEq

def form (first : Byte) : Form :=
  let n := first.toNat
  if n < 0x80 then .fixint n
  else if n < 0x90 then .map (n - 0x80)
  else if n < 0xa0 then .array (n - 0x90)
  else if n < 0xc0 then .bytes .str (n - 0xa0)
  else if 0xe0 ≤ n then .fixint (n - 256)
  else match n with
    | 0xc0 => .nil
    | 0xc2 => .boolean false
    | 0xc3 => .boolean true
    | 0xc4 => .sizedBytes .bin 1
    | 0xc5 => .sizedBytes .bin 2
    | 0xc6 => .sizedBytes .bin 4
    | 0xc7 => .sizedBytes .ext 1
    | 0xc8 => .sizedBytes .ext 2
    | 0xc9 => .sizedBytes .ext 4
    | 0xca => .bytes .float 4
    | 0xcb => .bytes .float 8
    | 0xcc => .bytes .unsigned 1
    | 0xcd => .bytes .unsigned 2
    | 0xce => .bytes .unsigned 4
    | 0xcf => .bytes .unsigned 8
    | 0xd0 => .bytes .signed 1
    | 0xd1 => .bytes .signed 2
    | 0xd2 => .bytes .signed 4
    | 0xd3 => .bytes .signed 8
    | 0xd4 => .bytes .ext 2
    | 0xd5 => .bytes .ext 3
    | 0xd6 => .bytes .ext 5
    | 0xd7 => .bytes .ext 9
    | 0xd8 => .bytes .ext 17
    | 0xd9 => .sizedBytes .str 1
    | 0xda => .sizedBytes .str 2
    | 0xdb => .sizedBytes .str 4
    | 0xdc => .sizedArray 2
    | 0xdd => .sizedArray 4
    | 0xde => .sizedMap 2
    | 0xdf => .sizedMap 4
    | _ => .never

/-- The size of an extension does not count its type byte. -/
def Kind.payload (kind : Kind) (size : ℕ) : ℕ := if kind = .ext then size + 1 else size

section Readers

variable {α β : Type}

abbrev Reader (α : Type) := List Byte → Option (α × List Byte)

def readBytes (n : ℕ) : Reader (List Byte) :=
  fun b => if n ≤ b.length then some (b.take n, b.drop n) else none

def andThen (r : Reader α) (f : α → Reader β) : Reader β := fun b => (r b).bind (fun x => f x.1 x.2)

def mapResult (f : α → β) (r : Reader α) : Reader β := fun b => (r b).map (fun x => (f x.1, x.2))

def readSize (width : ℕ) : Reader ℕ := mapResult bigEndian (readBytes width)

def readPair (item : Reader α) : Reader (α × α) :=
  andThen item (fun k => mapResult (fun v => (k, v)) item)

def readMany (item : Reader α) : ℕ → Reader (List α)
  | 0 => fun b => some ([], b)
  | n + 1 => andThen item (fun x => mapResult (fun xs => x :: xs) (readMany item n))

end Readers

def readForm (item : Reader Obj) : Form → Reader Obj
  | .nil => fun b => some (.nil, b)
  | .boolean v => fun b => some (.boolean v, b)
  | .fixint n => fun b => some (.int n, b)
  | .bytes kind size => mapResult kind.object (readBytes size)
  | .sizedBytes kind width =>
    andThen (readSize width) (fun size => mapResult kind.object (readBytes (kind.payload size)))
  | .array size => mapResult .array (readMany item size)
  | .sizedArray width =>
    andThen (readSize width) (fun size => mapResult .array (readMany item size))
  | .map size => mapResult .map (readMany (readPair item) size)
  | .sizedMap width =>
    andThen (readSize width) (fun size => mapResult .map (readMany (readPair item) size))
  | .never => fun _ => none

/-- Reads an object whose nesting is below `depth`. -/
def decode : ℕ → Reader Obj
  | 0 => fun _ => none
  | depth + 1 => fun b =>
    match b with
    | [] => none
    | first :: rest => readForm (decode depth) (form first) rest

def unpack (buf : List Byte) : Option Obj :=
  match decode (buf.length + 1) buf with
  | some (o, []) => some o
  | _ => none

example : unpack [0x82, 0xa1, 0x61, 0x01, 0xa1, 0x62, 0xc3] =
    some (.map [(.str [0x61], .int 1), (.str [0x62], .boolean true)]) := by rfl

section Extends

variable {α β : Type}

/-- What the first reader takes from the front, the second takes from the same
bytes with more behind them. -/
def Extends (r r' : Reader α) : Prop :=
  ∀ b x rest tail, r b = some (x, rest) → r' (b ++ tail) = some (x, rest ++ tail)

theorem readBytes_extends (n : ℕ) : Extends (readBytes n) (readBytes n) := by
  intro b x rest tail h
  simp only [readBytes, Option.ite_none_right_eq_some, Option.some.injEq, Prod.mk.injEq] at h ⊢
  obtain ⟨hle, rfl, rfl⟩ := h
  refine ⟨by rw [List.length_append]; omega, List.take_append_of_le_length hle,
    List.drop_append_of_le_length hle⟩

variable {r r' : Reader α}

theorem mapResult_extends (h : Extends r r') (f : α → β) :
    Extends (mapResult f r) (mapResult f r') := by
  intro b y rest tail hread
  obtain ⟨⟨x, rest⟩, hx, heq⟩ := Option.map_eq_some_iff.mp hread
  obtain ⟨rfl, rfl⟩ := Prod.mk.inj heq
  rw [mapResult, h b x rest tail hx]
  rfl

theorem andThen_extends {f f' : α → Reader β} (h : Extends r r')
    (hf : ∀ x, Extends (f x) (f' x)) : Extends (andThen r f) (andThen r' f') := by
  intro b y rest tail hread
  obtain ⟨⟨x, mid⟩, hx, hy⟩ := Option.bind_eq_some_iff.mp hread
  rw [andThen, h b x mid tail hx]
  exact hf x mid y rest tail hy

theorem readSize_extends (width : ℕ) : Extends (readSize width) (readSize width) :=
  mapResult_extends (readBytes_extends width) bigEndian

theorem readPair_extends (h : Extends r r') :
    Extends (readPair r) (readPair r') := andThen_extends h (fun _ => mapResult_extends h _)

theorem readMany_extends (h : Extends r r') (n : ℕ) :
    Extends (readMany r n) (readMany r' n) := by
  induction n with
  | zero =>
    intro b xs rest tail hread
    obtain ⟨rfl, rfl⟩ := Prod.mk.inj (Option.some.inj hread)
    rfl
  | succ n ih => exact andThen_extends h (fun x => mapResult_extends ih _)

theorem readForm_extends {item item' : Reader Obj} (h : Extends item item') (f : Form) :
    Extends (readForm item f) (readForm item' f) := by
  have hconst : ∀ o : Obj, Extends (fun b => some (o, b)) (fun b => some (o, b)) := by
    intro o b x rest tail hread
    obtain ⟨rfl, rfl⟩ := Prod.mk.inj (Option.some.inj hread)
    rfl
  cases f with
  | nil => exact hconst .nil
  | boolean v => exact hconst (.boolean v)
  | fixint n => exact hconst (.int n)
  | bytes kind size => exact mapResult_extends (readBytes_extends size) _
  | sizedBytes kind width =>
    exact andThen_extends (readSize_extends width)
      (fun size => mapResult_extends (readBytes_extends _) _)
  | array size => exact mapResult_extends (readMany_extends h size) _
  | sizedArray width =>
    exact andThen_extends (readSize_extends width)
      (fun size => mapResult_extends (readMany_extends h size) _)
  | map size => exact mapResult_extends (readMany_extends (readPair_extends h) size) _
  | sizedMap width =>
    exact andThen_extends (readSize_extends width)
      (fun size => mapResult_extends (readMany_extends (readPair_extends h) size) _)
  | never =>
    intro b x rest tail hread
    cases hread

theorem decode_extends {depth depth' : ℕ} (h : depth ≤ depth') :
    Extends (decode depth) (decode depth') := by
  induction depth generalizing depth' with
  | zero =>
    intro b x rest tail hread
    cases hread
  | succ depth ih =>
    cases depth' with
    | zero => omega
    | succ depth' =>
      intro b x rest tail hread
      cases b with
      | nil => cases hread
      | cons first b => exact readForm_extends (ih (by omega)) (form first) b x rest tail hread

end Extends

variable {b rest : List Byte}

section Results

variable {α β : Type} {r : Reader α}

theorem mapResult_eq_some_iff {f : α → β} {y : β} :
    mapResult f r b = some (y, rest) ↔ ∃ x, r b = some (x, rest) ∧ f x = y := by
  simp [mapResult]

theorem andThen_eq_some_iff {f : α → Reader β} {y : β} :
    andThen r f b = some (y, rest) ↔
      ∃ x mid, r b = some (x, mid) ∧ f x mid = some (y, rest) := by
  simp [andThen, Option.bind_eq_some_iff]

theorem readMany_succ_iff {n : ℕ} {ys : List α} :
    readMany r (n + 1) b = some (ys, rest) ↔
      ∃ x mid xs, r b = some (x, mid) ∧ readMany r n mid = some (xs, rest) ∧ x :: xs = ys := by
  simp only [readMany, andThen_eq_some_iff, mapResult_eq_some_iff]
  constructor
  · rintro ⟨x, mid, hx, xs, hxs, rfl⟩
    exact ⟨x, mid, xs, hx, hxs, rfl⟩
  · rintro ⟨x, mid, xs, hx, hxs, rfl⟩
    exact ⟨x, mid, hx, xs, hxs, rfl⟩

theorem readMany_append {m n : ℕ} {b mid rest : List Byte} {xs ys : List α}
    (hxs : readMany r m b = some (xs, mid)) (hys : readMany r n mid = some (ys, rest)) :
    readMany r (m + n) b = some (xs ++ ys, rest) := by
  induction m generalizing b xs with
  | zero =>
    obtain ⟨rfl, rfl⟩ := Prod.mk.inj (Option.some.inj hxs)
    rwa [Nat.zero_add]
  | succ m ih =>
    obtain ⟨x, next, zs, hx, hzs, rfl⟩ := readMany_succ_iff.mp hxs
    rw [Nat.succ_add]
    exact readMany_succ_iff.mpr ⟨x, next, zs ++ ys, hx, ih hzs, rfl⟩

theorem readPair_eq_some_iff {p : α × α} :
    readPair r b = some (p, rest) ↔
      ∃ mid, r b = some (p.1, mid) ∧ r mid = some (p.2, rest) := by
  obtain ⟨k, v⟩ := p
  simp only [readPair, andThen_eq_some_iff, mapResult_eq_some_iff, Prod.mk.injEq]
  constructor
  · rintro ⟨x, mid, hx, y, hy, rfl, rfl⟩
    exact ⟨mid, hx, hy⟩
  · rintro ⟨mid, hk, hv⟩
    exact ⟨k, mid, hk, v, hv, rfl, rfl⟩

theorem mem_readMany {n : ℕ} {xs : List α}
    (h : readMany r n b = some (xs, rest)) {x : α} (hx : x ∈ xs) :
    ∃ b' rest', r b' = some (x, rest') := by
  induction n generalizing b xs with
  | zero =>
    obtain ⟨rfl, rfl⟩ := Prod.mk.inj (Option.some.inj h)
    simp at hx
  | succ n ih =>
    obtain ⟨y, mid, ys, hy, hys, rfl⟩ := readMany_succ_iff.mp h
    rcases List.mem_cons.mp hx with rfl | hx
    · exact ⟨b, mid, hy⟩
    · exact ih hys hx

end Results

section Strings

theorem bigEndian_append (l : List Byte) (b : Byte) :
    bigEndian (l ++ [b]) = bigEndian l * 256 + b.toNat := by
  rw [bigEndian, bigEndian, List.foldl_append]
  rfl

theorem bigEndian_lt (l : List Byte) : bigEndian l < 256 ^ l.length := by
  induction l using List.reverseRecOn with
  | nil => simp [bigEndian]
  | append_singleton l b ih =>
    have hb := b.isLt
    rw [bigEndian_append, List.length_append, List.length_singleton, Nat.pow_succ]
    omega

theorem readBytes_length {n : ℕ} {b x rest : List Byte} (h : readBytes n b = some (x, rest)) :
    x.length = n := by
  simp only [readBytes, Option.ite_none_right_eq_some, Option.some.injEq, Prod.mk.injEq] at h
  obtain ⟨hle, rfl, -⟩ := h
  rw [List.length_take]
  omega

def Form.strFits : Form → Bool
  | .bytes .str size => decide (size < 32)
  | .sizedBytes .str width => decide (width ≤ 4)
  | _ => true

theorem form_strFits (first : Byte) : (form first).strFits = true := by
  revert first
  decide

theorem readForm_str_cases {item : Reader Obj} {f : Form} {b s rest : List Byte}
    (h : readForm item f b = some (.str s, rest)) :
    (∃ size, f = .bytes .str size ∧ readBytes size b = some (s, rest)) ∨
      ∃ width size mid, f = .sizedBytes .str width ∧ readSize width b = some (size, mid) ∧
        readBytes size mid = some (s, rest) := by
  cases f with
  | bytes kind size =>
    obtain ⟨x, hx, hobj⟩ := mapResult_eq_some_iff.mp h
    cases kind with
    | str =>
      obtain rfl := Obj.str.inj hobj
      exact .inl ⟨size, rfl, hx⟩
    | _ => cases hobj
  | sizedBytes kind width =>
    rw [readForm, andThen_eq_some_iff] at h
    obtain ⟨size, mid, hsize, hmap⟩ := h
    obtain ⟨x, hx, hobj⟩ := mapResult_eq_some_iff.mp hmap
    cases kind with
    | str =>
      obtain rfl := Obj.str.inj hobj
      exact .inr ⟨width, size, mid, rfl, hsize, hx⟩
    | _ => cases hobj
  | array size =>
    obtain ⟨x, -, hobj⟩ := mapResult_eq_some_iff.mp h
    cases hobj
  | sizedArray width =>
    rw [readForm, andThen_eq_some_iff] at h
    obtain ⟨size, mid, -, hmap⟩ := h
    obtain ⟨x, -, hobj⟩ := mapResult_eq_some_iff.mp hmap
    cases hobj
  | map size =>
    obtain ⟨x, -, hobj⟩ := mapResult_eq_some_iff.mp h
    cases hobj
  | sizedMap width =>
    rw [readForm, andThen_eq_some_iff] at h
    obtain ⟨size, mid, -, hmap⟩ := h
    obtain ⟨x, -, hobj⟩ := mapResult_eq_some_iff.mp hmap
    cases hobj
  | _ => cases h

theorem str_length_lt {depth : ℕ} {b s rest : List Byte}
    (h : decode depth b = some (.str s, rest)) : s.length < 2 ^ 32 := by
  cases depth with
  | zero => cases h
  | succ depth =>
    cases b with
    | nil => cases h
    | cons first b =>
      have hfits := form_strFits first
      rcases readForm_str_cases h with ⟨size, hform, hx⟩ | ⟨width, size, mid, hform, hsz, hx⟩
      · rw [hform] at hfits
        have hsize := of_decide_eq_true hfits
        rw [readBytes_length hx]
        omega
      · rw [hform] at hfits
        obtain ⟨l, hl, rfl⟩ := mapResult_eq_some_iff.mp hsz
        have hwidth := of_decide_eq_true hfits
        have hlt := bigEndian_lt l
        have hpow : 256 ^ l.length ≤ 256 ^ 4 := by
          rw [readBytes_length hl]
          exact Nat.pow_le_pow_right (by omega) hwidth
        rw [readBytes_length hx]
        change bigEndian l < 2 ^ 32
        omega

def Form.isStr : Form → Bool
  | .bytes .str _ => true
  | .sizedBytes .str _ => true
  | _ => false

theorem readForm_str {item : Reader Obj} {f : Form} {b s rest : List Byte}
    (h : readForm item f b = some (.str s, rest)) :
    f.isStr = true ∧ ∀ size, f = .bytes .str size → s.length = size := by
  rcases readForm_str_cases h with ⟨size, rfl, hx⟩ | ⟨width, size, mid, rfl, -, -⟩
  · refine ⟨rfl, fun size' hsize => ?_⟩
    obtain ⟨-, rfl⟩ := Form.bytes.inj hsize
    exact readBytes_length hx
  · exact ⟨rfl, fun size' hsize => by cases hsize⟩

end Strings

section Maps

def Form.isMap : Form → Bool
  | .map _ => true
  | .sizedMap _ => true
  | _ => false

variable {entries : List (Obj × Obj)}

theorem readForm_map {item : Reader Obj} {f : Form}
    (h : readForm item f b = some (.map entries, rest)) :
    f.isMap = true ∧ ∃ n b', readMany (readPair item) n b' = some (entries, rest) := by
  cases f with
  | map size =>
    obtain ⟨x, hx, hobj⟩ := mapResult_eq_some_iff.mp h
    obtain rfl := Obj.map.inj hobj
    exact ⟨rfl, size, b, hx⟩
  | sizedMap width =>
    rw [readForm, andThen_eq_some_iff] at h
    obtain ⟨size, mid, -, hmap⟩ := h
    obtain ⟨x, hx, hobj⟩ := mapResult_eq_some_iff.mp hmap
    obtain rfl := Obj.map.inj hobj
    exact ⟨rfl, size, mid, hx⟩
  | bytes kind size =>
    obtain ⟨x, -, hobj⟩ := mapResult_eq_some_iff.mp h
    cases kind <;> cases hobj
  | sizedBytes kind width =>
    rw [readForm, andThen_eq_some_iff] at h
    obtain ⟨size, mid, -, hmap⟩ := h
    obtain ⟨x, -, hobj⟩ := mapResult_eq_some_iff.mp hmap
    cases kind <;> cases hobj
  | array size =>
    obtain ⟨x, -, hobj⟩ := mapResult_eq_some_iff.mp h
    cases hobj
  | sizedArray width =>
    rw [readForm, andThen_eq_some_iff] at h
    obtain ⟨size, mid, -, hmap⟩ := h
    obtain ⟨x, -, hobj⟩ := mapResult_eq_some_iff.mp hmap
    cases hobj
  | _ => cases h

theorem unpack_eq_some_iff {buf : List Byte} {o : Obj} :
    unpack buf = some o ↔ decode (buf.length + 1) buf = some (o, []) := by
  unfold unpack
  split
  · rename_i o' heq
    rw [heq]
    simp
  · rename_i hne
    constructor
    · intro h
      cases h
    · intro h
      exact absurd h (hne o)

theorem isMap_of_unpack {first : Byte} {body : List Byte}
    (h : unpack (first :: body) = some (.map entries)) : (form first).isMap = true :=
  (readForm_map (unpack_eq_some_iff.mp h)).1

theorem entry_str_length_lt {first : Byte} {body : List Byte}
    (h : unpack (first :: body) = some (.map entries)) {k : Obj} {s : List Byte}
    (hmem : (k, .str s) ∈ entries) : s.length < 2 ^ 32 := by
  obtain ⟨-, n, b, hread⟩ := readForm_map (unpack_eq_some_iff.mp h)
  obtain ⟨b', rest', hpair⟩ := mem_readMany hread hmem
  obtain ⟨mid, -, hv⟩ := readPair_eq_some_iff.mp hpair
  exact str_length_lt hv

end Maps

end CcspPandM.Msgpack
