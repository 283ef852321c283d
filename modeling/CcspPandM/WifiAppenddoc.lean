import CcspPandM.Msgpack

/-!
Appending the three metadata entries to an encoded map: their encodings are put
behind the buffer and the first byte is raised by three, which is right for a
short map only. The packing functions of the library are parameters.
-/
namespace CcspPandM.WifiAppenddoc

open Msgpack

structure Packer where
  msgpack_pack_str : ℕ → List Byte
  msgpack_pack_uint32 : BitVec 32 → List Byte
  msgpack_pack_uint16 : BitVec 16 → List Byte

structure Packer.Documented (pk : Packer) : Prop where
  str : ∀ s : List Byte, s.length < 2 ^ 32 →
    decode 1 (pk.msgpack_pack_str s.length ++ s) = some (.str s, [])
  uint32 : ∀ v, decode 1 (pk.msgpack_pack_uint32 v) = some (.int v.toNat, [])
  uint16 : ∀ v, decode 1 (pk.msgpack_pack_uint16 v) = some (.int v.toNat, [])

structure Appenddoc where
  subdoc_name : Option (List Byte)
  version : BitVec 32
  transaction_id : BitVec 16

def token (name : String) : List Byte := name.toList.map (fun c => BitVec.ofNat 8 c.toNat)

section Code

variable (pk : Packer)

def msgpackPackString (string : List Byte) : List Byte :=
  pk.msgpack_pack_str string.length ++ string

def msgpackPackStringNvp (name : List Byte) (val : Option (List Byte)) : List Byte :=
  match val with
  | some val => msgpackPackString pk name ++ msgpackPackString pk val
  | none => []

def wifiPackAppenddoc (appenddocData : Option Appenddoc) : Option (List Byte) :=
  match appenddocData with
  | some d => some (msgpackPackStringNvp pk (token "subdoc_name") d.subdoc_name ++
      (msgpackPackString pk (token "version") ++ pk.msgpack_pack_uint32 d.version) ++
      (msgpackPackString pk (token "transaction_id") ++ pk.msgpack_pack_uint16 d.transaction_id))
  | none => none

def WIFI_METADATA_MAP_SIZE : Byte := 3

def alterWifiMapData (buf : List Byte) : Option (List Byte) :=
  match buf with
  | byte :: rest =>
    if byte % 0x10 = 15 then none else some ((byte + WIFI_METADATA_MAP_SIZE) :: rest)
  | [] => none

/-- No result stands for a failure. -/
def appendWifiEncodedData (encodedBuffer metadataPack : List Byte) : Option (List Byte) :=
  alterWifiMapData (encodedBuffer ++ metadataPack)

end Code

def metadata (name : List Byte) (d : Appenddoc) : List (Obj × Obj) :=
  [(.str (token "subdoc_name"), .str name), (.str (token "version"), .int d.version.toNat),
    (.str (token "transaction_id"), .int d.transaction_id.toNat)]

/-- A result decodes to the entries of the map followed by the metadata. -/
def Lawful (entries : List (Obj × Obj)) (d : Appenddoc) (result : Option (List Byte)) : Prop :=
  ∀ out, result = some out → ∃ name, d.subdoc_name = some name ∧
    unpack out = some (.map (entries ++ metadata name d))

/-- The header announces more entries than a short map can take, so the code
refuses it, or leaves room for three more and the document has its name. -/
def Extensible (first : Byte) (d : Appenddoc) : Prop :=
  first = 0xdf ∨ first = 0x8f ∨
    (first ≤ 0x8c ∧ ∃ name, d.subdoc_name = some name ∧ name.length < 2 ^ 32)

theorem raised_header (first : Byte) (hmap : (form first).isMap = true) (hroom : first ≤ 0x8c) :
    form first = .map (first.toNat - 0x80) ∧
      form (first + WIFI_METADATA_MAP_SIZE) = .map (first.toNat - 0x80 + 3) ∧
      first % 0x10 ≠ 15 := by
  revert first
  decide

theorem raised_not_map (first : Byte) (hmap : (form first).isMap = true) (hroom : ¬ first ≤ 0x8c) :
    (first % 0x10 = 15 ∧ (first = 0xdf ∨ first = 0x8f)) ∨
      (first % 0x10 ≠ 15 ∧ (form (first + WIFI_METADATA_MAP_SIZE)).isMap = false) := by
  revert first
  decide

variable {first : Byte}

section Metadata

variable {pk : Packer} (hpk : pk.Documented)

include hpk

theorem decode_packString {depth : ℕ} (hdepth : 1 ≤ depth) {s : List Byte}
    (hs : s.length < 2 ^ 32) (tail : List Byte) :
    decode depth (msgpackPackString pk s ++ tail) = some (.str s, tail) :=
  decode_extends hdepth _ _ _ tail (hpk.str s hs)

variable {d : Appenddoc}

theorem readMany_metadata {depth : ℕ} (hdepth : 1 ≤ depth) {name : List Byte}
    (hname : d.subdoc_name = some name) (hlen : name.length < 2 ^ 32) {pack : List Byte}
    (hpack : wifiPackAppenddoc pk (some d) = some pack) :
    readMany (readPair (decode depth)) 3 pack = some (metadata name d, []) := by
  obtain rfl := Option.some.inj hpack
  simp only [msgpackPackStringNvp, hname, List.append_assoc]
  have htoken : ∀ t : String, t.toList.length < 2 ^ 32 → (token t).length < 2 ^ 32 := by
    intro t ht
    rwa [token, List.length_map]
  have hversion := decode_extends hdepth _ _ _ (msgpackPackString pk (token "transaction_id") ++
    pk.msgpack_pack_uint16 d.transaction_id) (hpk.uint32 d.version)
  have hid := decode_extends hdepth _ _ _ [] (hpk.uint16 d.transaction_id)
  rw [List.append_nil] at hid
  refine readMany_succ_iff.mpr ⟨_, _, _, readPair_eq_some_iff.mpr
    ⟨_, decode_packString hpk hdepth (htoken "subdoc_name" (by decide)) _,
      decode_packString hpk hdepth hlen _⟩, ?_, rfl⟩
  refine readMany_succ_iff.mpr ⟨_, _, _, readPair_eq_some_iff.mpr
    ⟨_, decode_packString hpk hdepth (htoken "version" (by decide)) _, hversion⟩, ?_, rfl⟩
  exact readMany_succ_iff.mpr ⟨_, _, _, readPair_eq_some_iff.mpr
    ⟨_, decode_packString hpk hdepth (htoken "transaction_id" (by decide)) _, hid⟩, rfl, rfl⟩

theorem unpack_raised {body pack : List Byte} {entries : List (Obj × Obj)} {name : List Byte}
    (hbuf : unpack (first :: body) = some (.map entries))
    (hroom : first ≤ 0x8c) (hname : d.subdoc_name = some name) (hlen : name.length < 2 ^ 32)
    (hpack : wifiPackAppenddoc pk (some d) = some pack) :
    unpack ((first + WIFI_METADATA_MAP_SIZE) :: (body ++ pack)) =
      some (.map (entries ++ metadata name d)) := by
  have hmap := isMap_of_unpack hbuf
  rw [unpack_eq_some_iff] at hbuf ⊢
  obtain ⟨hform, hraised, -⟩ := raised_header first hmap hroom
  change readForm (decode _) (form first) body = _ at hbuf
  change readForm (decode _) (form (first + WIFI_METADATA_MAP_SIZE)) (body ++ pack) = _
  rw [hform] at hbuf
  rw [hraised]
  obtain ⟨xs, hread, hobj⟩ := mapResult_eq_some_iff.mp hbuf
  obtain rfl := Obj.map.inj hobj
  refine mapResult_eq_some_iff.mpr ⟨xs ++ metadata name d, ?_, rfl⟩
  have hdepth : (first :: body).length ≤
      ((first + WIFI_METADATA_MAP_SIZE) :: (body ++ pack)).length := by
    simp only [List.length_cons, List.length_append]
    omega
  have hxs := readMany_extends (readPair_extends (decode_extends hdepth)) _ _ _ _ pack hread
  exact readMany_append hxs (readMany_metadata hpk (by simp) hname hlen hpack)

end Metadata

/-- What is appended to a map is the map with the metadata exactly for the
headers and documents of `Extensible`. -/
theorem append_lawful_iff {pk : Packer} (hpk : pk.Documented) {first : Byte}
    {body pack : List Byte} {entries : List (Obj × Obj)} {d : Appenddoc}
    (hbuf : unpack (first :: body) = some (.map entries))
    (hpack : wifiPackAppenddoc pk (some d) = some pack) :
    Lawful entries d (appendWifiEncodedData (first :: body) pack) ↔ Extensible first d := by
  have hmap := isMap_of_unpack hbuf
  have hresult : appendWifiEncodedData (first :: body) pack = if first % 0x10 = 15 then none
      else some ((first + WIFI_METADATA_MAP_SIZE) :: (body ++ pack)) := rfl
  rw [hresult]
  constructor
  · intro h
    by_cases hroom : first ≤ 0x8c
    · obtain ⟨-, -, hne⟩ := raised_header first hmap hroom
      obtain ⟨name, hname, hunpack⟩ := h _ (if_neg hne)
      exact Or.inr (Or.inr ⟨hroom, name, hname, entry_str_length_lt hunpack
        (List.mem_append_right _ (List.mem_cons_self ..))⟩)
    · rcases raised_not_map first hmap hroom with ⟨-, hfull⟩ | ⟨hne, hnot⟩
      · exact hfull.elim Or.inl (fun hfull => Or.inr (Or.inl hfull))
      · obtain ⟨name, -, hunpack⟩ := h _ (if_neg hne)
        rw [isMap_of_unpack hunpack] at hnot
        cases hnot
  · rintro (rfl | rfl | ⟨hroom, name, hname, hlen⟩) out hout
    · cases hout
    · cases hout
    · obtain ⟨-, -, hne⟩ := raised_header first hmap hroom
      rw [if_neg hne] at hout
      obtain rfl := Option.some.inj hout
      exact ⟨name, hname, unpack_raised hpk hbuf hroom hname hlen hpack⟩

section Shortest

def sizeBytes (width n : ℕ) : List Byte :=
  (List.range width).map (fun i => BitVec.ofNat 8 (n / 256 ^ (width - 1 - i)))

def Packer.shortest : Packer where
  msgpack_pack_str n :=
    if n < 32 then [BitVec.ofNat 8 (0xa0 + n)]
    else if n < 256 then 0xd9 :: sizeBytes 1 n
    else if n < 65536 then 0xda :: sizeBytes 2 n
    else 0xdb :: sizeBytes 4 n
  msgpack_pack_uint32 v :=
    if v < 128 then sizeBytes 1 v.toNat
    else if v < 256 then 0xcc :: sizeBytes 1 v.toNat
    else if v < 65536 then 0xcd :: sizeBytes 2 v.toNat
    else 0xce :: sizeBytes 4 v.toNat
  msgpack_pack_uint16 v :=
    if v < 128 then sizeBytes 1 v.toNat
    else if v < 256 then 0xcc :: sizeBytes 1 v.toNat
    else 0xcd :: sizeBytes 2 v.toNat

theorem bigEndian_sizeBytes {width n : ℕ} (hwidth : width = 1 ∨ width = 2 ∨ width = 4)
    (hn : n < 256 ^ width) : bigEndian (sizeBytes width n) = n := by
  rcases hwidth with rfl | rfl | rfl
  · simp [bigEndian, sizeBytes, List.range_succ]
    omega
  · simp [bigEndian, sizeBytes, List.range_succ]
    omega
  · simp [bigEndian, sizeBytes, List.range_succ]
    omega

theorem readBytes_append {n : ℕ} {b tail : List Byte} (h : b.length = n) :
    readBytes n (b ++ tail) = some (b, tail) := by
  subst h
  simp [readBytes]

theorem readSize_append {width n : ℕ} (hwidth : width = 1 ∨ width = 2 ∨ width = 4)
    (hn : n < 256 ^ width) (tail : List Byte) :
    readSize width (sizeBytes width n ++ tail) = some (n, tail) :=
  mapResult_eq_some_iff.mpr ⟨_, readBytes_append (by simp [sizeBytes]),
    bigEndian_sizeBytes hwidth hn⟩

theorem decode_sizedStr {width : ℕ} (hform : form first = .sizedBytes .str width)
    (hwidth : width = 1 ∨ width = 2 ∨ width = 4) {s : List Byte} (hs : s.length < 256 ^ width) :
    decode 1 (first :: (sizeBytes width s.length ++ s)) = some (.str s, []) := by
  change readForm _ (form first) _ = _
  rw [hform, readForm, andThen_eq_some_iff]
  refine ⟨s.length, s, readSize_append hwidth hs s, mapResult_eq_some_iff.mpr ⟨s, ?_, rfl⟩⟩
  have hread : readBytes s.length (s ++ []) = some (s, []) := readBytes_append rfl
  rwa [List.append_nil] at hread

theorem decode_uint {width : ℕ} (hform : form first = .bytes .unsigned width)
    (hwidth : width = 1 ∨ width = 2 ∨ width = 4) {n : ℕ} (hn : n < 256 ^ width) :
    decode 1 (first :: sizeBytes width n) = some (.int n, []) := by
  change readForm _ (form first) _ = _
  rw [hform]
  refine mapResult_eq_some_iff.mpr ⟨sizeBytes width n, ?_, ?_⟩
  · have hread : readBytes width (sizeBytes width n ++ []) = some (sizeBytes width n, []) :=
      readBytes_append (by simp [sizeBytes])
    rwa [List.append_nil] at hread
  · rw [Kind.object, bigEndian_sizeBytes hwidth hn]

theorem decode_fixint {n : ℕ} (hn : n < 128) : decode 1 (sizeBytes 1 n) = some (.int n, []) := by
  have hform : ∀ n < 128, form (BitVec.ofNat 8 n) = .fixint n := by decide
  change readForm _ (form (BitVec.ofNat 8 (n / 256 ^ 0))) [] = _
  rw [pow_zero, Nat.div_one, hform n hn]
  rfl

theorem Packer.shortest_documented : Packer.shortest.Documented where
  str := by
    intro s hs
    simp only [Packer.shortest]
    split
    · rename_i hshort
      have hform : ∀ n < 32, form (BitVec.ofNat 8 (0xa0 + n)) = .bytes .str n := by decide
      have hread : readBytes s.length (s ++ []) = some (s, []) := readBytes_append rfl
      rw [List.append_nil] at hread
      change readForm _ (form _) s = _
      rw [hform s.length hshort]
      exact mapResult_eq_some_iff.mpr ⟨s, hread, rfl⟩
    split
    · rename_i hlt
      exact decode_sizedStr rfl (by omega) hlt
    split
    · rename_i hlt
      exact decode_sizedStr rfl (by omega) hlt
    · exact decode_sizedStr rfl (by omega) hs
  uint32 := by
    intro v
    have hv := v.isLt
    simp only [Packer.shortest, BitVec.lt_def]
    split
    · rename_i hlt
      exact decode_fixint hlt
    split
    · rename_i hlt
      exact decode_uint rfl (by omega) hlt
    split
    · rename_i hlt
      exact decode_uint rfl (by omega) hlt
    · exact decode_uint rfl (by omega) hv
  uint16 := by
    intro v
    have hv := v.isLt
    simp only [Packer.shortest, BitVec.lt_def]
    split
    · rename_i hlt
      exact decode_fixint hlt
    split
    · rename_i hlt
      exact decode_uint rfl (by omega) hlt
    · exact decode_uint rfl (by omega) hv

end Shortest

def exampleDoc : Appenddoc := ⟨some (token "hotspot"), 42, 7⟩

theorem append_lawful_short :
    Lawful [(.str [0x61], .nil)] exampleDoc (appendWifiEncodedData [0x81, 0xa1, 0x61, 0xc0]
      ((wifiPackAppenddoc Packer.shortest (some exampleDoc)).getD [])) :=
  (append_lawful_iff Packer.shortest_documented rfl rfl).mpr
    (Or.inr (Or.inr ⟨by decide, token "hotspot", rfl, by decide⟩))

/-- A map of one entry with the header of a longer map, and a short map of
thirteen entries. -/
theorem appended_unlawful :
    (unpack [0xde, 0x00, 0x01, 0xa1, 0x61, 0xc0] = some (.map [(.str [0x61], .nil)]) ∧
      ¬ Lawful [(.str [0x61], .nil)] exampleDoc
        (appendWifiEncodedData [0xde, 0x00, 0x01, 0xa1, 0x61, 0xc0]
          ((wifiPackAppenddoc Packer.shortest (some exampleDoc)).getD []))) ∧
    unpack (0x8d :: (List.replicate 13 [0xc2, 0xc0]).flatten) =
        some (.map (List.replicate 13 (.boolean false, .nil))) ∧
      ¬ Lawful (List.replicate 13 (.boolean false, .nil)) exampleDoc
        (appendWifiEncodedData (0x8d :: (List.replicate 13 [0xc2, 0xc0]).flatten)
          ((wifiPackAppenddoc Packer.shortest (some exampleDoc)).getD [])) := by
  refine ⟨⟨rfl, fun h => ?_⟩, rfl, fun h => ?_⟩
  · obtain ⟨name, -, hunpack⟩ := h _ rfl
    have hmap := isMap_of_unpack hunpack
    revert hmap
    decide
  · obtain ⟨name, -, hunpack⟩ := h _ rfl
    have hmap := isMap_of_unpack hunpack
    revert hmap
    decide

end CcspPandM.WifiAppenddoc
