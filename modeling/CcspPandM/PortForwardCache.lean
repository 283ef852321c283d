import CcspPandM.Syscfg
import CcspPandM.CacheRecords
import CcspPandM.InetText
import CcspPandM.SubdocDecoders

/-!
How a port-forwarding document is printed into the cache of syscfg records. A
key goes into 32 bytes, a value into 129. `snprintf` cuts what does not fit,
`sprintf_s` leaves an empty text, so the numbers of the entries and the lengths
of the suffixes decide whether a record keeps its name.
-/
namespace CcspPandM.PortForwardCache

open CString KeyStore Syscfg InetText SubdocDecoders CacheRecords

def checkIfIpIsValid (ipAddress : CStr) : Bool :=
  (inet_pton4 ipAddress).isSome || (inet_pton6 ipAddress).isSome

def checkIfPortsAreValid (port port_end_range : CStr) : Bool :=
  port.all Char.isDigit && port_end_range.all Char.isDigit &&
    !(decide (atoi port ≤ 0) || decide (65535 < atoi port) || decide (atoi port_end_range ≤ 0) ||
      decide (65535 < atoi port_end_range) || decide (atoi port_end_range < atoi port))

def protocolText (protocol : CStr) : Option CStr :=
  if strcaseeq protocol "TCP/UDP".toList || strcaseeq protocol "UDP/TCP".toList ||
      strcaseeq protocol "BOTH".toList then some "both".toList
  else if strcaseeq protocol "TCP".toList then some "tcp".toList
  else if strcaseeq protocol "UDP".toList then some "udp".toList
  else none

def aliasSpf (i : ℕ) : CStr := "spf_".toList ++ decimal i

def aliasPfr (i : ℕ) : CStr := "pfr_".toList ++ decimal i

/-- The first records of a single-port entry, the i-th of the document and the
k-th of its kind. -/
def singleHead (i k : ℕ) (external_port : CStr) : List Printed :=
  [⟨false, "SinglePortForward_".toList ++ decimal k, aliasSpf i⟩,
    ⟨true, aliasSpf i ++ "::external_port".toList, external_port⟩]

def rangeHead (i k : ℕ) (external_port external_port_end_range : CStr) : List Printed :=
  [⟨false, "PortRangeForward_".toList ++ decimal k, aliasPfr i⟩,
    ⟨true, aliasPfr i ++ "::external_port_range".toList,
      external_port ++ ' ' :: external_port_end_range⟩,
    ⟨false, aliasPfr i ++ "::public_ip".toList, "0.0.0.0".toList⟩,
    ⟨true, aliasPfr i ++ "::internal_port_range_size".toList, "0".toList⟩]

def clientRecords (alias_ internal_client description enable : CStr) : List Printed :=
  [⟨false, alias_ ++ "::to_ip".toList, internal_client⟩,
    ⟨false, alias_ ++ "::name".toList, description⟩,
    ⟨false, alias_ ++ "::enabled".toList, enable⟩]

def ruleRecords (alias_ protocol : CStr) : List Printed :=
  [⟨false, alias_ ++ "::protocol".toList, protocol⟩,
    ⟨true, alias_ ++ "::internal_port".toList, "0".toList⟩,
    ⟨false, alias_ ++ "::to_ipv6".toList, "x".toList⟩,
    ⟨true, alias_ ++ "::prev_rule_enabled_state".toList, "1".toList⟩]

def countRecords (spf_count pfr_count : ℕ) : List Printed :=
  [⟨false, "SinglePortForwardCount".toList, decimal spf_count⟩,
    ⟨false, "PortRangeForwardCount".toList, decimal pfr_count⟩]

/-- What one or several entries write: whole records, then possibly a key whose
value is not written, the return value (none for 0) and the two counters. -/
structure EntryWrites where
  records : List Printed
  half : Option CStr
  ret : Option ErrCode
  spf_count : ℕ
  pfr_count : ℕ

def portmapEntry (i spf_count pfr_count : ℕ) (e : Portdoc) : Option EntryWrites := do
  let internal_client ← e.internal_client
  if ¬ checkIfIpIsValid internal_client then
    some ⟨[], none, some .INVALID_IP, spf_count, pfr_count⟩
  else do
    let external_port ← e.external_port
    if external_port = [] then some ⟨[], none, some .INVALID_PORT, spf_count, pfr_count⟩
    else do
      let external_port_end_range ← e.external_port_end_range
      if external_port_end_range = [] ∨
          ¬ checkIfPortsAreValid external_port external_port_end_range then
        some ⟨[], none, some .INVALID_PORT, spf_count, pfr_count⟩
      else do
        let description ← e.description
        let enable ← e.enable
        let protocol ← e.protocol
        let single := decide (external_port = external_port_end_range)
        let alias_ := if single then aliasSpf i else aliasPfr i
        let spf_count := if single then spf_count + 1 else spf_count
        let pfr_count := if single then pfr_count else pfr_count + 1
        let head := (if single then singleHead i spf_count external_port
          else rangeHead i pfr_count external_port external_port_end_range) ++
          clientRecords alias_ internal_client description enable
        match protocolText protocol with
        | none => some ⟨head, some (alias_ ++ "::protocol".toList), some .INVALID_PROTOCOL,
            spf_count, pfr_count⟩
        | some text => some ⟨head ++ ruleRecords alias_ text, none, none, spf_count, pfr_count⟩

def portmapEntries : ℕ → ℕ → ℕ → List Portdoc → Option EntryWrites
  | _, spf_count, pfr_count, [] => some ⟨[], none, none, spf_count, pfr_count⟩
  | i, spf_count, pfr_count, e :: rest => do
    let w ← portmapEntry i spf_count pfr_count e
    if w.ret = none then do
      let ws ← portmapEntries (i + 1) w.spf_count w.pfr_count rest
      some { ws with records := w.records ++ ws.records }
    else some w

def setPortmapConf (rpm : List Portdoc) (pf_cache : Cache) (pf_cache_size : ℕ) :
    Option (Option ErrCode × Cache × ℕ) := do
  let w ← portmapEntries 1 0 0 rpm
  match w.ret with
  | none =>
    let recs := (w.records ++ countRecords w.spf_count w.pfr_count).map Printed.print
    let pf_cache ← putRecords pf_cache 0 recs
    some (none, pf_cache, recs.length)
  | some ret =>
    let pf_cache ← putRecords pf_cache 0 (w.records.map Printed.print)
    match w.half with
    | none => some (some ret, pf_cache, pf_cache_size)
    | some cmd =>
      let pf_cache ← putRecords pf_cache w.records.length
        [⟨Buf.snprintf cmd, (pf_cache w.records.length).val⟩]
      some (some ret, pf_cache, pf_cache_size)

def isSingle (e : Portdoc) : Bool := decide (e.external_port = e.external_port_end_range)

def attributeSuffixes (single : Bool) : List CStr :=
  (if single then ["::external_port"]
    else
      ["::external_port_range", "::public_ip", "::internal_port_range_size"]).map String.toList ++
  ["::to_ip", "::name", "::enabled", "::protocol", "::internal_port", "::to_ipv6",
    "::prev_rule_enabled_state"].map String.toList

def aliasOf (single : Bool) (i : ℕ) : CStr := if single then aliasSpf i else aliasPfr i

def aliasKey (single : Bool) (k : ℕ) : CStr :=
  (if single then "SinglePortForward_".toList else "PortRangeForward_".toList) ++ decimal k

def entryKeys (i k : ℕ) (single : Bool) : List CStr :=
  aliasKey single k :: (attributeSuffixes single).map (fun suffix => aliasOf single i ++ suffix)

def entriesKeys : ℕ → ℕ → ℕ → List Bool → List CStr
  | _, _, _, [] => []
  | i, spf, pfr, single :: kinds =>
    entryKeys i (if single then spf + 1 else pfr + 1) single ++
      entriesKeys (i + 1) (if single then spf + 1 else spf) (if single then pfr else pfr + 1) kinds

def documentKeys (kinds : List Bool) : List CStr :=
  entriesKeys 1 0 0 kinds ++ ["SinglePortForwardCount".toList, "PortRangeForwardCount".toList]

def keyIndex (key : CStr) : CStr := (key.drop 4).takeWhile Char.isDigit

theorem aliasOf_length_four (single : Bool) (i : ℕ) :
    aliasOf single i = (if single then "spf_".toList else "pfr_".toList) ++ decimal i := by
  cases single <;> rfl

theorem keyIndex_attribute (single : Bool) (i : ℕ) (rest : CStr) :
    keyIndex (aliasOf single i ++ ':' :: rest) = decimal i := by
  have hdrop : (aliasOf single i ++ ':' :: rest).drop 4 = decimal i ++ ':' :: rest := by
    cases single <;> rfl
  rw [keyIndex, hdrop, List.takeWhile_append_of_pos (fun c hc => isDigit_of_mem_decimal hc)]
  simp

theorem suffix_colon {single : Bool} {suffix : CStr} (h : suffix ∈ attributeSuffixes single) :
    ∃ rest, suffix = ':' :: rest := by
  have hall : ∀ single, ∀ suffix ∈ attributeSuffixes single, suffix.head? = some ':' := by
    decide
  have hhead := hall single suffix h
  cases suffix with
  | nil => cases hhead
  | cons c rest =>
    rw [List.head?_cons, Option.some.injEq] at hhead
    exact ⟨rest, by rw [hhead]⟩

theorem attributeSuffixes_nodup (single : Bool) : (attributeSuffixes single).Nodup := by
  revert single
  decide

/-- Where a name in later entries comes from. -/
def KeyOf (i spf pfr : ℕ) (key : CStr) : Prop :=
  (∃ single i' rest, i ≤ i' ∧ key = aliasOf single i' ++ ':' :: rest) ∨
    (∃ k, spf < k ∧ key = aliasKey true k) ∨ ∃ k, pfr < k ∧ key = aliasKey false k

variable {i spf pfr : ℕ} {key : CStr}

theorem keyOf_of_mem {kinds : List Bool}
    (h : key ∈ entriesKeys i spf pfr kinds) : KeyOf i spf pfr key := by
  induction kinds generalizing i spf pfr with
  | nil => cases h
  | cons single kinds ih =>
    rw [entriesKeys, List.mem_append, entryKeys, List.mem_cons, List.mem_map] at h
    rcases h with (rfl | ⟨suffix, hs, rfl⟩) | h
    · cases single
      · exact Or.inr (Or.inr ⟨_, Nat.lt_succ_self pfr, rfl⟩)
      · exact Or.inr (Or.inl ⟨_, Nat.lt_succ_self spf, rfl⟩)
    · obtain ⟨rest, rfl⟩ := suffix_colon hs
      exact Or.inl ⟨single, i, rest, Nat.le_refl i, rfl⟩
    · have hle : spf ≤ (if single then spf + 1 else spf) := by split <;> omega
      have hle' : pfr ≤ (if single then pfr else pfr + 1) := by split <;> omega
      rcases ih h with ⟨single', i', rest, hi, rfl⟩ | ⟨k, hk, rfl⟩ | ⟨k, hk, rfl⟩
      · exact Or.inl ⟨single', i', rest, by omega, rfl⟩
      · exact Or.inr (Or.inl ⟨k, hle.trans_lt hk, rfl⟩)
      · exact Or.inr (Or.inr ⟨k, hle'.trans_lt hk, rfl⟩)

private theorem attribute_ne_alias (single single' : Bool) (i k : ℕ) (rest : CStr) :
    aliasOf single i ++ rest ≠ aliasKey single' k := by
  intro h
  have hhead := congrArg List.head? h
  cases single <;> cases single' <;> cases hhead

private theorem aliasKey_injective {single single' : Bool} {k k' : ℕ}
    (h : aliasKey single k = aliasKey single' k') : single = single' ∧ k = k' := by
  cases single <;> cases single'
  · exact ⟨rfl, decimal_injective (List.append_cancel_left h)⟩
  · have hhead := congrArg List.head? h
    cases hhead
  · have hhead := congrArg List.head? h
    cases hhead
  · exact ⟨rfl, decimal_injective (List.append_cancel_left h)⟩

theorem entryKeys_nodup (i k : ℕ) (single : Bool) : (entryKeys i k single).Nodup := by
  rw [entryKeys, List.nodup_cons]
  constructor
  · intro h
    obtain ⟨suffix, -, heq⟩ := List.mem_map.mp h
    exact attribute_ne_alias single single i k suffix heq
  · exact (attributeSuffixes_nodup single).map (fun a b h => List.append_cancel_left h)

private theorem entryKeys_disjoint (i spf pfr : ℕ) (single : Bool)
    (h : key ∈ entryKeys i (if single then spf + 1 else pfr + 1) single) :
    ¬ KeyOf (i + 1) (if single then spf + 1 else spf) (if single then pfr else pfr + 1) key := by
  rw [entryKeys, List.mem_cons, List.mem_map] at h
  rintro (⟨single', i', rest, hi, hkey⟩ | ⟨k, hk, hkey⟩ | ⟨k, hk, hkey⟩)
  · rcases h with rfl | ⟨suffix, hs, rfl⟩
    · exact attribute_ne_alias single' single i' _ _ hkey.symm
    · obtain ⟨rest', rfl⟩ := suffix_colon hs
      have hindex := congrArg keyIndex hkey
      rw [keyIndex_attribute, keyIndex_attribute] at hindex
      have hii := decimal_injective hindex
      omega
  · rcases h with rfl | ⟨suffix, hs, rfl⟩
    · obtain ⟨rfl, rfl⟩ := aliasKey_injective hkey
      simp at hk
    · exact attribute_ne_alias single true i k suffix hkey
  · rcases h with rfl | ⟨suffix, hs, rfl⟩
    · obtain ⟨rfl, rfl⟩ := aliasKey_injective hkey
      simp at hk
    · exact attribute_ne_alias single false i k suffix hkey

theorem entriesKeys_nodup (i spf pfr : ℕ) (kinds : List Bool) :
    (entriesKeys i spf pfr kinds).Nodup := by
  induction kinds generalizing i spf pfr with
  | nil => exact List.nodup_nil
  | cons single kinds ih =>
    rw [entriesKeys]
    refine (entryKeys_nodup i _ single).append (ih _ _ _) (fun key h h' => ?_)
    exact entryKeys_disjoint i spf pfr single h (keyOf_of_mem h')

private theorem count_ne_of_keyOf (h : KeyOf i spf pfr key) :
    key ≠ "SinglePortForwardCount".toList ∧ key ≠ "PortRangeForwardCount".toList := by
  rcases h with ⟨single, i', rest, -, rfl⟩ | ⟨k, -, rfl⟩ | ⟨k, -, rfl⟩
  · constructor <;> intro h <;> have hhead := congrArg List.head? h <;> cases single <;>
      cases hhead
  · constructor <;> intro h
    · have hmark := congrArg (fun t => (t.drop 17).head?) h
      cases hmark
    · have hhead := congrArg List.head? h
      cases hhead
  · constructor <;> intro h
    · have hhead := congrArg List.head? h
      cases hhead
    · have hmark := congrArg (fun t => (t.drop 16).head?) h
      cases hmark

theorem documentKeys_nodup (kinds : List Bool) : (documentKeys kinds).Nodup := by
  refine (entriesKeys_nodup 1 0 0 kinds).append (by decide) (fun key h h' => ?_)
  obtain ⟨h1, h2⟩ := count_ne_of_keyOf (keyOf_of_mem h)
  rcases List.mem_cons.mp h' with rfl | h'
  · exact h1 rfl
  · exact h2 (List.mem_singleton.mp h')

structure PortRule where
  internal_client : CStr
  external_port : CStr
  external_port_end_range : CStr
  description : CStr
  enable : CStr
  protocol : CStr

def PortRule.single (r : PortRule) : Bool := decide (r.external_port = r.external_port_end_range)

def PortRule.records (i k : ℕ) (r : PortRule) : List Printed :=
  (if r.single then singleHead i k r.external_port
    else rangeHead i k r.external_port r.external_port_end_range) ++
    clientRecords (aliasOf r.single i) r.internal_client r.description r.enable ++
    ruleRecords (aliasOf r.single i) r.protocol

structure Accepts (e : Portdoc) (r : PortRule) : Prop where
  internal_client : e.internal_client = some r.internal_client
  external_port : e.external_port = some r.external_port
  external_port_end_range : e.external_port_end_range = some r.external_port_end_range
  enable : e.enable = some r.enable
  protocol : e.protocol.bind protocolText = some r.protocol

def rulesRecords : ℕ → ℕ → ℕ → List PortRule → List Printed
  | _, _, _, [] => []
  | i, spf, pfr, r :: rules =>
    r.records i (if r.single then spf + 1 else pfr + 1) ++
      rulesRecords (i + 1) (if r.single then spf + 1 else spf) (if r.single then pfr else pfr + 1)
        rules

variable {e : Portdoc}

theorem Accepts.single {r : PortRule} (h : Accepts e r) : isSingle e = r.single := by
  rw [isSingle, PortRule.single, h.external_port, h.external_port_end_range, decide_eq_decide,
    Option.some.injEq]

def ruleWrites (i spf pfr : ℕ) (client port last desc enable protocol : CStr) : EntryWrites :=
  let single := decide (port = last)
  let alias_ := if single then aliasSpf i else aliasPfr i
  let spf := if single then spf + 1 else spf
  let pfr := if single then pfr else pfr + 1
  let head := (if single then singleHead i spf port else rangeHead i pfr port last) ++
    clientRecords alias_ client desc enable
  match protocolText protocol with
  | none => ⟨head, some (alias_ ++ "::protocol".toList), some .INVALID_PROTOCOL, spf, pfr⟩
  | some text => ⟨head ++ ruleRecords alias_ text, none, none, spf, pfr⟩

/-- How an entry is left: at its address, at its ports, or behind them. -/
inductive EntryCase (i spf pfr : ℕ) (e : Portdoc) : EntryWrites → Prop
  | address (client : CStr) (hclient : e.internal_client = some client)
      (hip : ¬ checkIfIpIsValid client) :
      EntryCase i spf pfr e ⟨[], none, some .INVALID_IP, spf, pfr⟩
  | noPort (hport : e.external_port = some []) :
      EntryCase i spf pfr e ⟨[], none, some .INVALID_PORT, spf, pfr⟩
  | ports (port last : CStr) (hport : e.external_port = some port)
      (hlast : e.external_port_end_range = some last)
      (hinvalid : last = [] ∨ ¬ checkIfPortsAreValid port last) :
      EntryCase i spf pfr e ⟨[], none, some .INVALID_PORT, spf, pfr⟩
  | rule (client port last desc enable protocol : CStr) (hclient : e.internal_client = some client)
      (hip : checkIfIpIsValid client) (hport : e.external_port = some port) (hne : port ≠ [])
      (hlast : e.external_port_end_range = some last)
      (hvalid : ¬(last = [] ∨ ¬ checkIfPortsAreValid port last)) (henable : e.enable = some enable)
      (hprotocol : e.protocol = some protocol) :
      EntryCase i spf pfr e (ruleWrites i spf pfr client port last desc enable protocol)

variable {w : EntryWrites}

theorem portmapEntry_cases (h : portmapEntry i spf pfr e = some w) : EntryCase i spf pfr e w := by
  rw [portmapEntry] at h
  obtain ⟨client, hclient, h⟩ := Option.bind_eq_some_iff.mp h
  by_cases hip : ¬ checkIfIpIsValid client
  · rw [if_pos hip, Option.some.injEq] at h
    exact h ▸ .address client hclient hip
  rw [if_neg hip] at h
  obtain ⟨port, hport, h⟩ := Option.bind_eq_some_iff.mp h
  by_cases hempty : port = []
  · rw [if_pos hempty, Option.some.injEq] at h
    exact h ▸ .noPort (hempty ▸ hport)
  rw [if_neg hempty] at h
  obtain ⟨last, hlast, h⟩ := Option.bind_eq_some_iff.mp h
  by_cases hinvalid : last = [] ∨ ¬ checkIfPortsAreValid port last
  · rw [if_pos hinvalid, Option.some.injEq] at h
    exact h ▸ .ports port last hport hlast hinvalid
  rw [if_neg hinvalid] at h
  obtain ⟨desc, -, h⟩ := Option.bind_eq_some_iff.mp h
  obtain ⟨enable, henable, h⟩ := Option.bind_eq_some_iff.mp h
  obtain ⟨protocol, hprotocol, h⟩ := Option.bind_eq_some_iff.mp h
  have hw : w = ruleWrites i spf pfr client port last desc enable protocol := by
    unfold ruleWrites
    cases htext : protocolText protocol with
    | none =>
      simp only [htext, Option.some.injEq] at h
      exact h.symm
    | some text =>
      simp only [htext, Option.some.injEq] at h
      exact h.symm
  exact hw ▸ .rule client port last desc enable protocol hclient (not_not.mp hip) hport hempty
    hlast hinvalid henable hprotocol

theorem portmapEntry_accepted (h : portmapEntry i spf pfr e = some w) (hret : w.ret = none) :
    ∃ r, Accepts e r ∧ w = ⟨r.records i (if r.single then spf + 1 else pfr + 1), none, none,
      if r.single then spf + 1 else spf, if r.single then pfr else pfr + 1⟩ := by
  cases portmapEntry_cases h with
  | address | noPort | ports => cases hret
  | rule client port last desc enable protocol hclient _ hport _ hlast _ henable hprotocol =>
    unfold ruleWrites at hret ⊢
    cases htext : protocolText protocol with
    | none =>
      simp only [htext] at hret
      cases hret
    | some text =>
      refine ⟨⟨client, port, last, desc, enable, text⟩,
        ⟨hclient, hport, hlast, henable, by rw [hprotocol]; exact htext⟩, ?_⟩
      by_cases hs : port = last
      · simp [PortRule.records, PortRule.single, aliasOf, hs]
      · simp [PortRule.records, PortRule.single, aliasOf, hs]

variable {rpm : List Portdoc}

theorem portmapEntries_accepted (h : portmapEntries i spf pfr rpm = some w) (hret : w.ret = none) :
    ∃ rules, List.Forall₂ Accepts rpm rules ∧ w.records = rulesRecords i spf pfr rules ∧
      w.spf_count = spf + rules.countP PortRule.single ∧
      w.pfr_count = pfr + rules.countP (fun r => !r.single) := by
  induction rpm generalizing i spf pfr w with
  | nil =>
    rw [portmapEntries, Option.some.injEq] at h
    rw [← h]
    exact ⟨[], List.Forall₂.nil, rfl, rfl, rfl⟩
  | cons e rest ih =>
    simp only [portmapEntries, Option.bind_eq_bind, Option.bind_eq_some_iff] at h
    obtain ⟨w₁, hw₁, h⟩ := h
    split at h
    · next hnone =>
      simp only [Option.bind_eq_some_iff] at h
      obtain ⟨ws, hws, h⟩ := h
      rw [Option.some.injEq] at h
      subst h
      obtain ⟨r, hr, rfl⟩ := portmapEntry_accepted hw₁ hnone
      obtain ⟨rules, hrules, hrecs, hspf, hpfr⟩ := ih hws hret
      refine ⟨r :: rules, List.Forall₂.cons hr hrules, ?_, ?_, ?_⟩
      · change r.records i _ ++ ws.records = _
        rw [hrecs, rulesRecords]
      · change ws.spf_count = _
        rw [hspf, List.countP_cons]
        cases r.single
        · simp
        · simp only [if_true]
          omega
      · change ws.pfr_count = _
        rw [hpfr, List.countP_cons]
        cases r.single
        · simp only [Bool.not_false, if_true, Bool.false_eq_true, if_false]
          omega
        · simp
    · next hsome =>
      rw [Option.some.injEq] at h
      rw [h] at hsome
      exact absurd hret hsome

theorem PortRule.records_keys (i k : ℕ) (r : PortRule) :
    (r.records i k).map Printed.cmd = entryKeys i k r.single := by
  rw [PortRule.records]
  cases r.single <;> rfl

theorem rulesRecords_keys (i spf pfr : ℕ) (rules : List PortRule) :
    (rulesRecords i spf pfr rules).map Printed.cmd =
      entriesKeys i spf pfr (rules.map PortRule.single) := by
  induction rules generalizing i spf pfr with
  | nil => rfl
  | cons r rules ih =>
    rw [rulesRecords, List.map_append, PortRule.records_keys, ih, List.map_cons, entriesKeys]

def documentRecords (rules : List PortRule) : List Printed :=
  rulesRecords 1 0 0 rules ++
    countRecords (rules.countP PortRule.single) (rules.countP (fun r => !r.single))

theorem documentRecords_keys (rules : List PortRule) :
    (documentRecords rules).map Printed.cmd = documentKeys (rules.map PortRule.single) := by
  rw [documentRecords, List.map_append, rulesRecords_keys, documentKeys]
  rfl

theorem setPortmapConf_accepted {c c' : Cache} {size size' : ℕ}
    (h : setPortmapConf rpm c size = some (none, c', size')) :
    ∃ rules, List.Forall₂ Accepts rpm rules ∧ cached c' size' =
      (documentRecords rules).map (fun p => (p.print.cmd.text, p.print.val.text)) := by
  simp only [setPortmapConf, Option.bind_eq_bind, Option.bind_eq_some_iff] at h
  obtain ⟨w, hw, h⟩ := h
  split at h
  · next hret =>
    simp only [Option.bind_eq_some_iff, Option.some.injEq, Prod.mk.injEq, true_and] at h
    obtain ⟨c₁, hc₁, rfl, rfl⟩ := h
    obtain ⟨rules, hrules, hrecs, hspf, hpfr⟩ := portmapEntries_accepted hw hret
    refine ⟨rules, hrules, ?_⟩
    rw [cached_putRecords hc₁, hrecs, hspf, hpfr, Nat.zero_add, Nat.zero_add, ← documentRecords,
      List.map_map]
    rfl
  · simp only [Option.bind_eq_some_iff] at h
    obtain ⟨c₁, hc₁, h⟩ := h
    split at h
    · cases h
    · simp only [Option.bind_eq_some_iff] at h
      obtain ⟨c₂, hc₂, h⟩ := h
      cases h

/-- What a reader of the store finds for the i-th entry, the k-th of its kind. -/
def EntryRecorded (store : Store CStr CStr) (i k : ℕ) (e : Portdoc) : Prop :=
  store (aliasKey (isSingle e) k) = some (aliasOf (isSingle e) i) ∧
    (if isSingle e then
      store (aliasOf true i ++ "::external_port".toList) = e.external_port
    else store (aliasOf false i ++ "::external_port_range".toList) =
      e.external_port.bind (fun port => e.external_port_end_range.map (fun last =>
        port ++ ' ' :: last))) ∧
    store (aliasOf (isSingle e) i ++ "::to_ip".toList) = e.internal_client ∧
    store (aliasOf (isSingle e) i ++ "::enabled".toList) = e.enable ∧
    store (aliasOf (isSingle e) i ++ "::protocol".toList) = e.protocol.bind protocolText

def EntriesRecorded (store : Store CStr CStr) : ℕ → ℕ → ℕ → List Portdoc → Prop
  | _, _, _, [] => True
  | i, spf, pfr, e :: rest =>
    EntryRecorded store i (if isSingle e then spf + 1 else pfr + 1) e ∧
      EntriesRecorded store (i + 1) (if isSingle e then spf + 1 else spf)
        (if isSingle e then pfr else pfr + 1) rest

/-- The used part of a cache holds the document: all full names in order, no
name twice, the numbers of entries, and every entry readable under its names. -/
structure Recorded (rpm : List Portdoc) (pf_cache : Cache) (size : ℕ) : Prop where
  names : keys (cached pf_cache size) = documentKeys (rpm.map isSingle)
  distinct : (keys (cached pf_cache size)).Nodup
  spf_count : setAll (cached pf_cache size) (fun _ => none) "SinglePortForwardCount".toList =
    some (decimal (rpm.countP isSingle))
  pfr_count : setAll (cached pf_cache size) (fun _ => none) "PortRangeForwardCount".toList =
    some (decimal (rpm.countP (fun e => !isSingle e)))
  entries : EntriesRecorded (setAll (cached pf_cache size) (fun _ => none)) 1 0 0 rpm

def NamesFit (i : ℕ) (e : Portdoc) : Prop := i ≤ 99 ∧ (isSingle e = false → i ≤ 9)

def textLen (t : Option CStr) : ℕ := (t.getD []).length

def TextsFit (e : Portdoc) : Prop :=
  (if isSingle e then textLen e.external_port ≤ 128
    else textLen e.external_port + 1 + textLen e.external_port_end_range ≤ 128) ∧
    textLen e.internal_client ≤ 128 ∧ textLen e.enable ≤ 128

instance (i : ℕ) (e : Portdoc) : Decidable (NamesFit i e) := inferInstanceAs (Decidable (_ ∧ _))

instance (e : Portdoc) : Decidable (TextsFit e) := by
  unfold TextsFit
  infer_instance

theorem entryKeys_fit_iff {i k : ℕ} (single : Bool) (hk : k ≤ i) :
    (∀ key ∈ entryKeys i k single, key.length < 32) ↔ i ≤ 99 ∧ (single = false → i ≤ 9) := by
  have h2 : (decimal i).length ≤ 2 ↔ i < 10 ^ 2 := decimal_length_le_iff (by omega)
  have h1 : (decimal i).length ≤ 1 ↔ i < 10 ^ 1 := decimal_length_le_iff (by omega)
  have hk2 : (decimal k).length ≤ 2 ↔ k < 10 ^ 2 := decimal_length_le_iff (by omega)
  cases single with
  | true =>
    simp [entryKeys, attributeSuffixes, aliasOf, aliasSpf, aliasKey]
    omega
  | false =>
    simp [entryKeys, attributeSuffixes, aliasOf, aliasPfr, aliasKey]
    omega

theorem protocolText_length {t u : CStr} (h : protocolText t = some u) : u.length < 129 := by
  unfold protocolText at h
  split at h
  · rw [Option.some.injEq] at h
    rw [← h]
    decide
  · split at h
    · rw [Option.some.injEq] at h
      rw [← h]
      decide
    · split at h
      · rw [Option.some.injEq] at h
        rw [← h]
        decide
      · cases h

section Read

variable {recs : List Printed} (hfit : ∀ p ∈ recs, p.cmd.length < 32)
  (hnodup : (recs.map Printed.cmd).Nodup)

include hfit hnodup

theorem entryRecorded_iff {r : PortRule} (he : Accepts e r) {i k : ℕ}
    (hmem : ∀ p ∈ r.records i k, p ∈ recs) (hi : i ≤ 99) :
    EntryRecorded (setAll (recs.map (fun p => (p.print.cmd.text, p.print.val.text)))
      (fun _ => none)) i k e ↔ TextsFit e := by
  have hread := fun p (hp : p ∈ r.records i k) => store_eq_val_iff hfit hnodup (hmem p hp)
  have hdigits : (decimal i).length ≤ 2 := (decimal_length_le_iff (by omega)).mpr (by omega)
  have hproto : r.protocol.length < 129 := by
    have h := he.protocol
    rw [Option.bind_eq_some_iff] at h
    obtain ⟨t, -, ht⟩ := h
    exact protocolText_length ht
  unfold EntryRecorded TextsFit textLen
  rw [he.single, he.internal_client, he.enable, he.protocol, he.external_port,
    he.external_port_end_range]
  have halias : ∀ single, (aliasOf single i).length < 129 := by
    intro single
    rw [aliasOf_length_four, List.length_append]
    have h4 : (if single then "spf_".toList else "pfr_".toList).length = 4 := by
      cases single <;> rfl
    omega
  cases hs : r.single with
  | true =>
    simp only [PortRule.records, hs, if_true, singleHead, clientRecords, ruleRecords,
      List.cons_append, List.nil_append, List.forall_mem_cons] at hread
    obtain ⟨hal, hport, hclient, -, henable, hprotocol, -⟩ := hread
    have hal' := hal.mpr (halias true)
    have hprotocol' := hprotocol.mpr hproto
    simp only [if_true, Option.getD_some]
    constructor
    · rintro ⟨-, h1, h2, h3, -⟩
      exact ⟨Nat.le_of_lt_succ (hport.mp h1), Nat.le_of_lt_succ (hclient.mp h2),
        Nat.le_of_lt_succ (henable.mp h3)⟩
    · rintro ⟨h1, h2, h3⟩
      exact ⟨hal', hport.mpr (Nat.lt_succ_of_le h1), hclient.mpr (Nat.lt_succ_of_le h2),
        henable.mpr (Nat.lt_succ_of_le h3), hprotocol'⟩
  | false =>
    simp only [PortRule.records, hs, Bool.false_eq_true, if_false, rangeHead, clientRecords,
      ruleRecords, List.cons_append, List.nil_append, List.forall_mem_cons] at hread
    obtain ⟨hal, hport, -, -, hclient, -, henable, hprotocol, -⟩ := hread
    have hal' := hal.mpr (halias false)
    have hprotocol' := hprotocol.mpr hproto
    have hlen : (r.external_port ++ ' ' :: r.external_port_end_range).length =
        r.external_port.length + 1 + r.external_port_end_range.length := by
      rw [List.length_append, List.length_cons]
      omega
    rw [hlen] at hport
    simp only [Bool.false_eq_true, if_false, Option.getD_some, Option.bind_some, Option.map_some]
    constructor
    · rintro ⟨-, h1, h2, h3, -⟩
      exact ⟨Nat.le_of_lt_succ (hport.mp h1), Nat.le_of_lt_succ (hclient.mp h2),
        Nat.le_of_lt_succ (henable.mp h3)⟩
    · rintro ⟨h1, h2, h3⟩
      exact ⟨hal', hport.mpr (Nat.lt_succ_of_le h1), hclient.mpr (Nat.lt_succ_of_le h2),
        henable.mpr (Nat.lt_succ_of_le h3), hprotocol'⟩

theorem entriesRecorded_iff {rules : List PortRule}
    (h : List.Forall₂ Accepts rpm rules)
    (hmem : ∀ p ∈ rulesRecords i spf pfr rules, p ∈ recs) (hspf : spf < i) (hpfr : pfr < i) :
    EntriesRecorded (setAll (recs.map (fun p => (p.print.cmd.text, p.print.val.text)))
      (fun _ => none)) i spf pfr rpm ↔ ∀ e ∈ rpm, TextsFit e := by
  induction h generalizing i spf pfr with
  | nil => simp [EntriesRecorded]
  | @cons e r rpm rules he _ ih =>
    rw [rulesRecords] at hmem
    have hk : (if r.single then spf + 1 else pfr + 1) ≤ i := by split <;> omega
    have hr := fun p hp => hmem p (List.mem_append_left _ hp)
    have hi : i ≤ 99 := by
      refine ((entryKeys_fit_iff r.single hk).mp ?_).1
      rw [← r.records_keys, List.forall_mem_map]
      exact fun p hp => hfit p (hr p hp)
    rw [EntriesRecorded, he.single, List.forall_mem_cons,
      entryRecorded_iff hfit hnodup he hr hi]
    refine and_congr_right (fun _ => ih (fun p hp => hmem p (List.mem_append_right _ hp)) ?_ ?_)
    · split <;> omega
    · split <;> omega

end Read

theorem kinds_eq {rules : List PortRule}
    (h : List.Forall₂ Accepts rpm rules) : rpm.map isSingle = rules.map PortRule.single := by
  induction h with
  | nil => rfl
  | cons he _ ih => rw [List.map_cons, List.map_cons, he.single, ih]

theorem entriesKeys_fit_iff (hspf : spf < i) (hpfr : pfr < i) :
    (∀ key ∈ entriesKeys i spf pfr (rpm.map isSingle), key.length < 32) ↔
      ∀ (j : ℕ) e, rpm[j]? = some e → NamesFit (i + j) e := by
  induction rpm generalizing i spf pfr with
  | nil => simp [entriesKeys]
  | cons e rest ih =>
    have hk : (if isSingle e then spf + 1 else pfr + 1) ≤ i := by split <;> omega
    have hspf' : (if isSingle e then spf + 1 else spf) < i + 1 := by split <;> omega
    have hpfr' : (if isSingle e then pfr else pfr + 1) < i + 1 := by split <;> omega
    rw [List.map_cons, entriesKeys, List.forall_mem_append, entryKeys_fit_iff _ hk,
      ih hspf' hpfr']
    constructor
    · rintro ⟨h0, hrest⟩ j e' hj
      cases j with
      | zero =>
        rw [List.getElem?_cons_zero, Option.some.injEq] at hj
        rw [← hj]
        exact h0
      | succ j =>
        rw [show i + (j + 1) = i + 1 + j by omega]
        exact hrest j e' hj
    · intro h
      refine ⟨h 0 e rfl, fun j e' hj => ?_⟩
      rw [show i + 1 + j = i + (j + 1) by omega]
      exact h (j + 1) e' hj

/-- An accepted document is recorded faithfully exactly when it has at most 99
entries, only single-port ones after the ninth, and texts that fit. -/
theorem setPortmapConf_recorded_iff (rpm : List Portdoc) (pf_cache pf_cache' : Cache)
    (size size' : ℕ) (h : setPortmapConf rpm pf_cache size = some (none, pf_cache', size')) :
    Recorded rpm pf_cache' size' ↔
      ∀ (j : ℕ) e, rpm[j]? = some e → NamesFit (1 + j) e ∧ TextsFit e := by
  obtain ⟨rules, hrules, hcached⟩ := setPortmapConf_accepted h
  have hkinds := kinds_eq hrules
  have hnames : keys (cached pf_cache' size') = documentKeys (rpm.map isSingle) ↔
      ∀ (j : ℕ) e, rpm[j]? = some e → NamesFit (1 + j) e := by
    rw [hcached, hkinds, ← documentRecords_keys, printed_keys_iff, ← List.forall_mem_map
      (f := Printed.cmd) (P := fun key => key.length < 32), documentRecords_keys, ← hkinds,
      documentKeys, List.forall_mem_append, entriesKeys_fit_iff (by omega) (by omega)]
    exact and_iff_left (by decide)
  constructor
  · intro hrec j e hj
    have hfitAll := hnames.mp hrec.names
    have hfit : ∀ p ∈ documentRecords rules, p.cmd.length < 32 := by
      rw [← printed_keys_iff, ← hcached, hrec.names, documentRecords_keys, hkinds]
    have hnodup : ((documentRecords rules).map Printed.cmd).Nodup := by
      rw [documentRecords_keys]
      exact documentKeys_nodup _
    have hentries := hrec.entries
    rw [hcached, entriesRecorded_iff hfit hnodup hrules
      (fun p hp => List.mem_append_left _ hp) (by omega) (by omega)] at hentries
    exact ⟨hfitAll j e hj, hentries e (List.mem_of_getElem? hj)⟩
  · intro hall
    have hfitAll := hnames.mpr (fun j e hj => (hall j e hj).1)
    have hfit : ∀ p ∈ documentRecords rules, p.cmd.length < 32 := by
      rw [← printed_keys_iff, ← hcached, hfitAll, documentRecords_keys, hkinds]
    have hnodup : ((documentRecords rules).map Printed.cmd).Nodup := by
      rw [documentRecords_keys]
      exact documentKeys_nodup _
    have hlen : rules.length ≤ 99 := by
      by_contra hmany
      have hrpm : rpm.length = rules.length := hrules.length_eq
      have hlast := hall 99 _ (List.getElem?_eq_getElem (by omega))
      exact absurd hlast.1.1 (by omega)
    have hcount : ∀ q : PortRule → Bool, (decimal (rules.countP q)).length < 129 := by
      intro q
      have hle := List.countP_le_length (p := q) (l := rules)
      have h2 := (decimal_length_le_iff (n := rules.countP q) (k := 2) (by omega)).mpr (by omega)
      omega
    have hcounts : ∀ p ∈ countRecords (rules.countP PortRule.single)
        (rules.countP (fun r => !r.single)), p.val.length < 129 →
        setAll (cached pf_cache' size') (fun _ => none) p.cmd = some p.val := by
      intro p hp hval
      rw [hcached]
      exact (store_eq_val_iff hfit hnodup (List.mem_append_right _ hp)).mpr hval
    have hsingle : rpm.countP isSingle = rules.countP PortRule.single := by
      have h := congrArg (List.countP id) hkinds
      rwa [List.countP_map, List.countP_map] at h
    have hrange : rpm.countP (fun e => !isSingle e) = rules.countP (fun r => !r.single) := by
      have h := congrArg (List.countP not) hkinds
      rwa [List.countP_map, List.countP_map] at h
    refine ⟨hfitAll, ?_, ?_, ?_, ?_⟩
    · rw [hfitAll]
      exact documentKeys_nodup _
    · rw [hsingle]
      exact hcounts _ (List.mem_cons_self) (hcount _)
    · rw [hrange]
      exact hcounts _ (List.mem_cons_of_mem _ (List.mem_cons_self)) (hcount _)
    · rw [hcached, entriesRecorded_iff hfit hnodup hrules
        (fun p hp => List.mem_append_left _ hp) (by omega) (by omega)]
      intro e he
      obtain ⟨j, hj⟩ := List.getElem?_of_mem he
      exact (hall j e hj).2

def portdoc (external_port external_port_end_range : String) : Portdoc where
  internal_client := some "10.0.0.7".toList
  enable := some "1".toList
  external_port_end_range := some external_port_end_range.toList
  protocol := some "both".toList
  description := some "game".toList
  external_port := some external_port.toList

theorem setPortmapConf_recorded_pair : ∃ pf_cache' size',
    setPortmapConf [portdoc "80" "80", portdoc "90" "99"] (fun _ => TCache.zero) 0 =
      some (none, pf_cache', size') ∧
    Recorded [portdoc "80" "80", portdoc "90" "99"] pf_cache' size' := by
  have hret : (setPortmapConf [portdoc "80" "80", portdoc "90" "99"] (fun _ => TCache.zero) 0).map
      Prod.fst = some none := by
    decide +kernel
  obtain ⟨⟨ret, pf_cache', size'⟩, hrun, hnone⟩ := Option.map_eq_some_iff.mp hret
  change ret = none at hnone
  subst hnone
  refine ⟨pf_cache', size', hrun, (setPortmapConf_recorded_iff _ _ _ _ _ hrun).mpr ?_⟩
  rintro (_ | _ | j) e he
  · cases he
    decide
  · cases he
    decide
  · cases he

/-- Ten entries, the last one a range: the key for its range size is empty. -/
theorem setPortmapConf_tenth_range :
    ¬ ∀ (rpm : List Portdoc) (pf_cache pf_cache' : Cache) (size size' : ℕ),
      setPortmapConf rpm pf_cache size = some (none, pf_cache', size') →
      Recorded rpm pf_cache' size' := by
  intro h
  have hret : (setPortmapConf (List.replicate 9 (portdoc "80" "80") ++ [portdoc "90" "99"])
      (fun _ => TCache.zero) 0).map (fun r => (r.1, (keys (cached r.2.1 r.2.2))[84]?)) =
        some (none, some []) := by
    decide +kernel
  obtain ⟨⟨ret, pf_cache', size'⟩, hrun, hval⟩ := Option.map_eq_some_iff.mp hret
  rw [Prod.mk.injEq] at hval
  change ret = none ∧ (keys (cached pf_cache' size'))[84]? = some [] at hval
  obtain ⟨rfl, hempty⟩ := hval
  have hnames := (h _ _ _ _ _ hrun).names
  rw [hnames] at hempty
  revert hempty
  decide +kernel

end CcspPandM.PortForwardCache
