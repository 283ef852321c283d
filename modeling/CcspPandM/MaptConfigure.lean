import CcspPandM.MaptDecode

/-!
From the option-95 text and the delegated prefix to a MAP-T configuration: the
hexadecimal text becomes the option buffer, the options are parsed, the prefix
is split into an IPv4 suffix and a PSID, and the two addresses are printed. A
read past a buffer has no result.
-/
namespace CcspPandM.MaptConfigure

open BitWindow CString InetText MaptEaBits MaptOptions

/-- `g_stMaptData`. -/
structure MaptConfig extends MaptData where
  iPv4AddrString : CStr
  iPv6AddrString : CStr
  pdIPv6Prefix : CStr
  pdIPv6PrefixLen : BitVec 16
  iPv4Suffix : BitVec 32

def MaptConfig.zero : MaptConfig := ⟨MaptData.cleared, [], [], [], 0#16, 0#32⟩

/-- `STRING_TO_HEX`, which checks nothing. -/
def stringToHex (c : Char) : ℤ :=
  if (c.toNat : ℤ) - 'a'.toNat < 0 then
    if (c.toNat : ℤ) - 'A'.toNat < 0 then (c.toNat : ℤ) - '0'.toNat
    else (c.toNat : ℤ) - 'A'.toNat + 10
  else (c.toNat : ℤ) - 'a'.toNat + 10

def hexByte (hi lo : Char) : BitVec 8 :=
  BitVec.ofInt 8 (stringToHex hi) <<< 4 ||| BitVec.ofInt 8 (stringToHex lo)

/-- The loop over the text. A colon before a last single character makes it
step over the end, behind which only a closing quote leaves another NUL. -/
def hexPairs (closed : Bool) : CStr → Option OptionBuf
  | ':' :: hi :: lo :: rest => (hexPairs closed rest).map (hexByte hi lo :: ·)
  | ':' :: hi :: [] => if closed then some [hexByte hi (Char.ofNat 0)] else none
  | hi :: lo :: rest => (hexPairs closed rest).map (hexByte hi lo :: ·)
  | _ => some []

def cosaDmlMaptConvertStringToHexStream (pWriteBf : Option CStr) :
    Option (ReturnStatus × OptionBuf) :=
  match pWriteBf with
  | none => some (.STATUS_FAILURE, [])
  | some text =>
    let pReadBf := if text.head? = some '\'' then text.tail else text
    let closed := decide (pReadBf.getLast? = some '\'')
    let pReadBf := if closed then pReadBf.dropLast else pReadBf
    if text = [] then none
    -- `uiOptionBufLen` is a short.
    else (hexPairs closed pReadBf).map
      (fun hex => (.STATUS_SUCCESS, hex.take (hex.length % 2 ^ 16)))

/-- The prefix up to its `/` and the length after it; `memcpy_s` clears the
field when the prefix is too long for it. -/
def storePdPrefix (pPdIPv6Prefix : CStr) (g : MaptConfig) : Option MaptConfig :=
  if '/' ∈ pPdIPv6Prefix then
    let text := pPdIPv6Prefix.takeWhile (· ≠ '/')
    some { g with
      pdIPv6Prefix := if 40 < text.length then [] else text
      pdIPv6PrefixLen := BitVec.ofInt 16 (strtol (pPdIPv6Prefix.dropWhile (· ≠ '/')).tail) }
  else none

/-- The stored prefix as a text, when its NUL has room. -/
def MaptConfig.pdText (g : MaptConfig) : Option CStr :=
  if g.pdIPv6Prefix.length < 40 then some g.pdIPv6Prefix else none

/-- The parser on a converted text. With less than two bytes its guard finds the
NUL, or the loop no option. -/
def parseResponse (hex : OptionBuf) (g : MaptConfig) : Option (ReturnStatus × MaptConfig) :=
  if hex.length < 2 then some (.STATUS_FAILURE, g)
  else (cosaDmlMaptParseResponse (some hex) g.toMaptData).map
    (fun res => (res.1, { g with toMaptData := res.2 }))

def computePsidAndIPv4Suffix (g : MaptConfig) : Option (ReturnStatus × MaptConfig) := do
  let pd ← g.pdText
  let (ret, out) ← cosaDmlMaptComputePsidAndIPv4Suffix pd g.pdIPv6PrefixLen g.ruleIPv6PrefixLen
    g.ruleIPv4PrefixLen ⟨g.psid, g.psidLen, g.iPv4Suffix⟩
  some (ret, { g with psid := out.pPsid, psidLen := out.pPsidLen, iPv4Suffix := out.pIPv4Suffix })

/-- The suffix is added to the address byte by byte, without carries. -/
def addSuffix (octets : List ℕ) (ipv4Suffix : BitVec 32) : List ℕ :=
  octets.zipWith (fun octet k => (octet + ipv4Suffix.toNat / 2 ^ k) % 256) [24, 16, 8, 0]

def cosaDmlMaptFormulateIPv4Address (g : MaptConfig) : ReturnStatus × MaptConfig :=
  match inet_pton4 g.ruleIPv4Prefix with
  | none => (.STATUS_FAILURE, g)
  | some octets =>
    (.STATUS_SUCCESS, { g with iPv4AddrString := dotted (addSuffix octets g.iPv4Suffix) })

/-- What `%02x` prints for a byte. -/
def hexOctet (n : ℕ) : CStr := [(n / 16).digitChar, (n % 16).digitChar]

def hexGroups : List ℕ → CStr
  | a :: b :: c :: rest => hexOctet a ++ hexOctet b ++ ':' :: hexGroups (c :: rest)
  | rest => rest.flatMap hexOctet

def cosaDmlMaptFormulateIPv6Address (g : MaptConfig) : Option (ReturnStatus × MaptConfig) := do
  let pd ← g.pdText
  match inet_pton4 g.iPv4AddrString, inet_pton6 pd with
  | some ipv4, some ipv6 =>
    let psid := g.psid.toNat
    some (.STATUS_SUCCESS, { g with
      iPv6AddrString :=
        hexGroups (ipv6.take 8 ++ [0, 0] ++ ipv4 ++ [psid / 256 % 256, psid % 256]) })
  | _, _ => some (.STATUS_FAILURE, g)

/-- A stage that is skipped after a failure and clears everything when it fails. -/
def stage (f : MaptConfig → Option (ReturnStatus × MaptConfig)) (r : ReturnStatus × MaptConfig) :
    Option (ReturnStatus × MaptConfig) :=
  if r.1 = .STATUS_SUCCESS then
    (f r.2).map (fun res =>
      if res.1 = .STATUS_SUCCESS then res else (.STATUS_FAILURE, MaptConfig.zero))
  else some r

/-- The first two checks, which leave the stored prefix when they fail. -/
def received (pPdIPv6Prefix : CStr) (ret : ReturnStatus) : Option (ReturnStatus × MaptConfig) :=
  (storePdPrefix pPdIPv6Prefix MaptConfig.zero).map (fun g =>
    (if ret = .STATUS_SUCCESS ∧ g.pdIPv6Prefix = [] then .STATUS_FAILURE else ret, g))

def configure (pPdIPv6Prefix : CStr) (pOptionBuf : Option CStr) :
    Option (ReturnStatus × MaptConfig) := do
  let (ret, hex) ← cosaDmlMaptConvertStringToHexStream pOptionBuf
  let r ← received pPdIPv6Prefix ret
  let r ← stage (parseResponse hex) r
  let r ← stage computePsidAndIPv4Suffix r
  let r ← stage (fun g => some (cosaDmlMaptFormulateIPv4Address g)) r
  stage cosaDmlMaptFormulateIPv6Address r

example : hexPairs false "00:59:0a1".toList = some [0x00#8, 0x59#8, 0x0a#8] := by decide
example : hexPairs false "59:0".toList = none := by decide

theorem stage_failure (f : MaptConfig → Option (ReturnStatus × MaptConfig)) (g : MaptConfig) :
    stage f (.STATUS_FAILURE, g) = some (.STATUS_FAILURE, g) :=
  if_neg (fun h => by cases h)

theorem stage_failed {f : MaptConfig → Option (ReturnStatus × MaptConfig)}
    {r res : ReturnStatus × MaptConfig} (h : stage f r = some res)
    (hres : res.1 = .STATUS_FAILURE) :
    res.2 = MaptConfig.zero ∨ (r.1 = .STATUS_FAILURE ∧ res = r) := by
  unfold stage at h
  split at h
  · rw [Option.map_eq_some_iff] at h
    obtain ⟨out, -, hout⟩ := h
    split at hout
    · next hsucc =>
      rw [← hout, hsucc] at hres
      cases hres
    · rw [← hout]
      exact .inl rfl
  · next hne =>
    rw [Option.some.injEq] at h
    subst h
    exact .inr ⟨hres, rfl⟩

theorem configure_failed {pPdIPv6Prefix : CStr} {pOptionBuf : Option CStr} {g : MaptConfig}
    (h : configure pPdIPv6Prefix pOptionBuf = some (.STATUS_FAILURE, g)) :
    g = MaptConfig.zero ∨ (storePdPrefix pPdIPv6Prefix MaptConfig.zero = some g ∧
      (pOptionBuf = none ∨ g.pdIPv6Prefix = [])) := by
  simp only [configure, Option.bind_eq_bind, Option.bind_eq_some_iff] at h
  obtain ⟨⟨ret, hex⟩, hconv, r0, h0, r1, h1, r2, h2, r3, h3, h4⟩ := h
  rcases stage_failed h4 rfl with hzero | ⟨hf3, rfl⟩
  · exact .inl hzero
  rcases stage_failed h3 hf3 with hzero | ⟨hf2, rfl⟩
  · exact .inl hzero
  rcases stage_failed h2 hf2 with hzero | ⟨hf1, rfl⟩
  · exact .inl hzero
  rcases stage_failed h1 hf1 with hzero | ⟨hf0, rfl⟩
  · exact .inl hzero
  right
  unfold received at h0
  rw [Option.map_eq_some_iff] at h0
  obtain ⟨g', hstore, hpair⟩ := h0
  rw [Prod.mk.injEq] at hpair
  obtain ⟨hret, rfl⟩ := hpair
  refine ⟨hstore, ?_⟩
  split at hret
  · next hempty => exact .inr hempty.2
  · left
    cases pOptionBuf with
    | none => rfl
    | some text =>
      simp only [cosaDmlMaptConvertStringToHexStream] at hconv
      split at hconv
      · cases hconv
      · rw [Option.map_eq_some_iff] at hconv
        obtain ⟨hex', -, hpair⟩ := hconv
        rw [← (Prod.mk.inj hpair).1] at hret
        cases hret

theorem configure_empty {pPdIPv6Prefix : CStr} {pOptionBuf : Option CStr} {g : MaptConfig}
    {r : ReturnStatus × MaptConfig} (hstore : storePdPrefix pPdIPv6Prefix MaptConfig.zero = some g)
    (hempty : g.pdIPv6Prefix = []) (h : configure pPdIPv6Prefix pOptionBuf = some r) :
    r = (.STATUS_FAILURE, g) := by
  simp only [configure, Option.bind_eq_bind, Option.bind_eq_some_iff] at h
  obtain ⟨⟨ret, hex⟩, -, r0, h0, r1, h1, r2, h2, r3, h3, h4⟩ := h
  have hfail : r0 = (.STATUS_FAILURE, g) := by
    unfold received at h0
    rw [hstore, Option.map_some, Option.some.injEq] at h0
    rw [← h0]
    cases ret with
    | STATUS_SUCCESS => rw [if_pos ⟨rfl, hempty⟩]
    | STATUS_FAILURE => rw [if_neg (fun hs => by cases hs.1)]
  subst hfail
  rw [stage_failure, Option.some.injEq] at h1
  subst h1
  rw [stage_failure, Option.some.injEq] at h2
  subst h2
  rw [stage_failure, Option.some.injEq] at h3
  subst h3
  rw [stage_failure, Option.some.injEq] at h4
  exact h4.symm

end CcspPandM.MaptConfigure
