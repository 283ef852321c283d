import CcspPandM.PortForwardRequest
import CcspPandM.Dhcpv4Webconfig

/-!
How many records the webconfig caches receive. No function compares its index
with the size of the array: a document brings nine or eleven records for each
port-forwarding entry and three for each static host, the stored counts bring
as many at boot, and a backup keeps every stored text that is not empty.
-/
namespace CcspPandM.CacheCapacity

open CString KeyStore FaultyStore Syscfg SubdocDecoders CacheRecords PortForwardCache
open PortForwardRequest Dhcpv4Cache Dhcpv4Webconfig

/-- The function comes to its end, so that no record was written behind the
array, and leaves fewer records than the array has. -/
def Within {α : Type} (result : Option α) (count : α → ℕ) (capacity : ℕ) : Prop :=
  ∃ a, result = some a ∧ count a < capacity

section Document

def entrySize (single : Bool) : ℕ := (attributeSuffixes single).length + 1

def documentSize (rpm : List Portdoc) : ℕ := (rpm.map (fun e => entrySize (isSingle e))).sum + 2

/-- The texts of an entry that no check looks at. -/
def TextsPresent (e : Portdoc) : Prop := e.description.isSome ∧ e.enable.isSome

theorem records_length (i k : ℕ) (r : PortRule) : (r.records i k).length = entrySize r.single := by
  have hkeys := congrArg List.length (r.records_keys i k)
  rw [List.length_map] at hkeys
  rw [hkeys, entryKeys, List.length_cons, List.length_map, entrySize]

theorem portmapEntry_accepted_iff {e : Portdoc} (i spf pfr : ℕ) (he : entryAccepted e = true) :
    (∃ w, portmapEntry i spf pfr e = some w) ↔ TextsPresent e := by
  simp only [entryAccepted, Bool.and_eq_true, Option.any_eq_true, decide_eq_true_eq] at he
  obtain ⟨⟨⟨client, hclient, hip⟩, port, hport, last, hlast, ⟨hne, hlast'⟩, hports⟩, protocol,
    hprotocol, htext⟩ := he
  obtain ⟨text, htext⟩ := Option.isSome_iff_exists.mp htext
  have hvalid : ¬(last = [] ∨ ¬ checkIfPortsAreValid port last = true) := by
    simp [hlast', hports]
  simp only [portmapEntry, hclient, hport, hlast, hprotocol, htext, Option.bind_eq_bind,
    Option.bind_some, hip, hne, not_true_eq_false, if_false, if_neg hvalid,
    Option.bind_eq_some_iff, TextsPresent, Option.isSome_iff_exists]
  constructor
  · rintro ⟨w, description, hdescription, enable, henable, -⟩
    exact ⟨⟨description, hdescription⟩, enable, henable⟩
  · rintro ⟨⟨description, hdescription⟩, enable, henable⟩
    exact ⟨_, description, hdescription, enable, henable, rfl⟩

variable {rpm : List Portdoc}

theorem portmapEntries_accepted_iff (i spf pfr : ℕ)
    (hok : documentAccepted rpm = true) :
    (∃ w, portmapEntries i spf pfr rpm = some w) ↔ ∀ e ∈ rpm, TextsPresent e := by
  induction rpm generalizing i spf pfr with
  | nil => simp [portmapEntries]
  | cons e rest ih =>
    rw [documentAccepted, List.all_cons, Bool.and_eq_true, ← documentAccepted] at hok
    rw [List.forall_mem_cons, ← portmapEntry_accepted_iff i spf pfr hok.1]
    simp only [portmapEntries, Option.bind_eq_bind, Option.bind_eq_some_iff]
    constructor
    · rintro ⟨w, w₁, hw₁, h⟩
      rw [if_pos ((portmapEntry_ret hw₁).1.mpr hok.1)] at h
      obtain ⟨ws, hws, -⟩ := Option.bind_eq_some_iff.mp h
      exact ⟨⟨w₁, hw₁⟩, (ih _ _ _ hok.2).mp ⟨ws, hws⟩⟩
    · rintro ⟨⟨w₁, hw₁⟩, hrest⟩
      obtain ⟨ws, hws⟩ := (ih (i + 1) w₁.spf_count w₁.pfr_count hok.2).mpr hrest
      refine ⟨{ ws with records := w₁.records ++ ws.records }, w₁, hw₁, ?_⟩
      rw [if_pos ((portmapEntry_ret hw₁).1.mpr hok.1), hws]
      rfl

theorem rulesRecords_length {rules : List PortRule}
    (h : List.Forall₂ Accepts rpm rules) (i spf pfr : ℕ) :
    (rulesRecords i spf pfr rules).length =
      (rpm.map (fun e => entrySize (isSingle e))).sum := by
  induction h generalizing i spf pfr with
  | nil => rfl
  | cons he _ ih =>
    rw [rulesRecords, List.length_append, records_length, ih, List.map_cons, List.sum_cons,
      he.single]

theorem portmapEntries_length {w : EntryWrites}
    (h : portmapEntries 1 0 0 rpm = some w) (hok : documentAccepted rpm = true) :
    w.records.length + 2 = documentSize rpm := by
  obtain ⟨rules, hrules, hrecs, -⟩ := portmapEntries_accepted h ((portmapEntries_ret h).1.mpr hok)
  rw [hrecs, rulesRecords_length hrules, documentSize]

theorem setPortmapConf_within_iff (pf_cache : Cache) (pf_cache_size : ℕ)
    (hok : documentAccepted rpm = true) :
    Within (setPortmapConf rpm pf_cache pf_cache_size) (fun r => r.2.2) portmapCacheSize ↔
      (∀ e ∈ rpm, TextsPresent e) ∧ documentSize rpm < portmapCacheSize := by
  rw [← portmapEntries_accepted_iff 1 0 0 hok]
  constructor
  · rintro ⟨⟨ret, c, n⟩, hr, hlt⟩
    obtain ⟨w, hw, -⟩ := Option.bind_eq_some_iff.mp hr
    obtain ⟨-, hsize, -⟩ := setPortmapConf_of_accepted hr hw ((portmapEntries_ret hw).1.mpr hok)
    refine ⟨⟨w, hw⟩, ?_⟩
    rw [← portmapEntries_length hw hok, ← hsize]
    exact hlt
  · rintro ⟨⟨w, hw⟩, hlt⟩
    have hret := (portmapEntries_ret hw).1.mpr hok
    have hlen := portmapEntries_length hw hok
    have hrecs : ((w.records ++ countRecords w.spf_count w.pfr_count).map Printed.print).length =
        documentSize rpm := by
      rw [List.length_map, List.length_append, ← hlen]
      rfl
    obtain ⟨c, hc⟩ : ∃ c, putRecords pf_cache 0
        ((w.records ++ countRecords w.spf_count w.pfr_count).map Printed.print) = some c :=
      ⟨_, if_pos (by omega)⟩
    refine ⟨(none, c, documentSize rpm), ?_, hlt⟩
    simp only [setPortmapConf, hw, hret, hc, hrecs, Option.bind_eq_bind, Option.bind_some]

end Document

section Boot

/-- A count read at boot: how many records it is kept in, and how many entries
follow from it. -/
def storedCount (faults : Faults) (key : CStr) (sc : SyscfgState) : ℕ × ℕ :=
  let r := syscfg_get (n := 129) faults key sc
  if r.1 then (1, (atoi r.2.1.text).toNat) else (0, 0)

/-- The alias texts of n entries, read one call after the other, fit the eight
bytes they are copied into. -/
def AliasesFit (faults : Faults) (single : Bool) (j n : ℕ) (sc : SyscfgState) : Prop :=
  ∀ m < n, (syscfg_get (n := 129) faults (aliasKey single (j + m))
    ⟨sc.db, sc.calls + m⟩).2.1.text.length < 8

def later (sc : SyscfgState) (n : ℕ) : SyscfgState := ⟨sc.db, sc.calls + n⟩

def spfStored (faults : Faults) (s : PfState) : ℕ × ℕ :=
  storedCount faults "SinglePortForwardCount".toList (later s.sc 1)

def pfrStored (faults : Faults) (s : PfState) : ℕ × ℕ :=
  storedCount faults "PortRangeForwardCount".toList (later s.sc 2)

def storedSize (faults : Faults) (s : PfState) : ℕ :=
  (spfStored faults s).1 + (pfrStored faults s).1 + (spfStored faults s).2 * entrySize true +
    (pfrStored faults s).2 * entrySize false

def StoredAliasesFit (faults : Faults) (s : PfState) : Prop :=
  AliasesFit faults true 1 (spfStored faults s).2 (later s.sc 3) ∧
    AliasesFit faults false 1 (pfrStored faults s).2 (later s.sc (3 + (spfStored faults s).2))

theorem later_later (sc : SyscfgState) (m n : ℕ) : later (later sc m) n = later sc (m + n) := by
  rw [later, later, later, Nat.add_assoc]

variable (faults : Faults)

theorem aliasesFit_succ (single : Bool) (j n : ℕ) (sc : SyscfgState) :
    AliasesFit faults single j (n + 1) sc ↔
      (syscfg_get (n := 129) faults (aliasKey single j) sc).2.1.text.length < 8 ∧
        AliasesFit faults single (j + 1) n (later sc 1) := by
  constructor
  · intro h
    refine ⟨h 0 (Nat.succ_pos n), fun m hm => ?_⟩
    have hat := h (m + 1) (by omega)
    rw [show j + (m + 1) = j + 1 + m by omega,
      show sc.calls + (m + 1) = sc.calls + 1 + m by omega] at hat
    exact hat
  · rintro ⟨hfirst, hrest⟩ m hm
    cases m with
    | zero => exact hfirst
    | succ m =>
      have hat := hrest m (by omega)
      rw [show j + (m + 1) = j + 1 + m by omega,
        show sc.calls + (m + 1) = sc.calls + 1 + m by omega]
      exact hat

theorem initEntry_iff (single : Bool) (j i : ℕ) (cache : Cache)
    (sc sc' : SyscfgState) : (∃ c, initEntry faults single j i cache sc = some (c, sc')) ↔
      ((syscfg_get (n := 129) faults (aliasKey single j) sc).2.1.text.length < 8 ∧
        i + entrySize single ≤ portmapCacheSize) ∧ sc' = later sc 1 := by
  simp only [initEntry, Option.ite_none_right_eq_some, Option.bind_eq_bind,
    Option.bind_eq_some_iff, putRecords, Option.some.injEq, Prod.mk.injEq, syscfg_get_db,
    List.length_cons, List.length_mapIdx]
  constructor
  · rintro ⟨c, hfit, c', ⟨hroom, -⟩, -, rfl⟩
    exact ⟨⟨hfit, hroom⟩, rfl⟩
  · rintro ⟨⟨hfit, hroom⟩, rfl⟩
    exact ⟨_, hfit, _, ⟨hroom, rfl⟩, rfl, rfl⟩

theorem initEntries_iff (single : Bool) (j i n i' : ℕ) (cache : Cache)
    (sc sc' : SyscfgState) :
    (∃ c, initEntries faults single j i n cache sc = some (i', c, sc')) ↔
      (AliasesFit faults single j n sc ∧ (n = 0 ∨ i' ≤ portmapCacheSize)) ∧
        i' = i + n * entrySize single ∧ sc' = later sc n := by
  induction n generalizing j i cache sc with
  | zero =>
    simp only [initEntries, Option.some.injEq, Prod.mk.injEq, Nat.zero_mul, Nat.add_zero, true_or,
      and_true, later]
    constructor
    · rintro ⟨c, rfl, -, rfl⟩
      exact ⟨fun m hm => absurd hm (Nat.not_lt_zero m), rfl, rfl⟩
    · rintro ⟨-, rfl, rfl⟩
      exact ⟨cache, rfl, rfl, rfl⟩
  | succ n ih =>
    have hnext : i + 1 + (attributeSuffixes single).length = i + entrySize single := by
      rw [entrySize]
      omega
    have hsum : i + (n + 1) * entrySize single = i + entrySize single + n * entrySize single := by
      rw [Nat.succ_mul]
      omega
    rw [aliasesFit_succ, hsum]
    simp only [initEntries, hnext, Option.bind_eq_bind, Option.bind_eq_some_iff]
    constructor
    · rintro ⟨c, ⟨c₁, sc₁⟩, hfirst, hrest⟩
      obtain ⟨⟨hfit, hroom⟩, rfl⟩ := (initEntry_iff faults single j i cache sc sc₁).mp ⟨c₁, hfirst⟩
      obtain ⟨⟨hfits, hrooms⟩, rfl, rfl⟩ := (ih (j + 1) _ c₁ (later sc 1)).mp ⟨c, hrest⟩
      refine ⟨⟨⟨hfit, hfits⟩, Or.inr ?_⟩, rfl, ?_⟩
      · rcases hrooms with rfl | hrooms
        · omega
        · exact hrooms
      · rw [later_later, Nat.add_comm]
    · rintro ⟨⟨⟨hfit, hfits⟩, hroom⟩, rfl, rfl⟩
      have hle : i + entrySize single ≤ portmapCacheSize := by
        rcases hroom with hzero | hroom
        · cases hzero
        · omega
      obtain ⟨c₁, hfirst⟩ := (initEntry_iff faults single j i cache sc (later sc 1)).mpr
        ⟨⟨hfit, hle⟩, rfl⟩
      obtain ⟨c, hrest⟩ := (ih (j + 1) (i + entrySize single) c₁ (later sc 1)).mpr
        ⟨⟨hfits, Or.inr (hroom.resolve_left (Nat.succ_ne_zero n))⟩, rfl, by
          rw [later_later, Nat.add_comm]⟩
      exact ⟨c, ⟨c₁, later sc 1⟩, hfirst, hrest⟩

theorem initCount_eq (key : CStr) (i : ℕ) (cache : Cache) (sc : SyscfgState) :
    ∃ c n, initCount faults key i cache sc =
      (i + (storedCount faults key sc).1, n, c, later sc 1) ∧
        n.toNat = (storedCount faults key sc).2 := by
  simp only [initCount, storedCount, syscfg_get_db, later]
  split
  · exact ⟨_, _, rfl, rfl⟩
  · exact ⟨_, 0, rfl, rfl⟩

theorem initPfCache_within_iff (s : PfState) :
    Within (initPfCache faults s) PfState.pf_cache_size portmapCacheSize ↔
      StoredAliasesFit faults s ∧ storedSize faults s < portmapCacheSize := by
  obtain ⟨c₁, n₁, hspf, hn₁⟩ := initCount_eq faults "SinglePortForwardCount".toList 0 s.pf_cache
    (later s.sc 1)
  obtain ⟨c₂, n₂, hpfr, hn₂⟩ := initCount_eq faults "PortRangeForwardCount".toList
    (spfStored faults s).1 c₁ (later s.sc 2)
  have hboot : initPfCache faults s =
      (initEntries faults true 1 ((spfStored faults s).1 + (pfrStored faults s).1) n₁.toNat c₂
        (later s.sc 3)).bind (fun r => (initEntries faults false 1 r.1 n₂.toNat r.2.1 r.2.2).bind
          (fun r => some { s with
            pf_cache := r.2.1
            pf_cache_size := r.1
            gpfEnable := if (syscfg_get (n := 8) faults pfParamName s.sc).1 ∧
              (syscfg_get (n := 8) faults pfParamName s.sc).2.1.text ≠ [] then
              atoi (syscfg_get (n := 8) faults pfParamName s.sc).2.1.text else s.gpfEnable
            sc := r.2.2 })) := by
    have hstart : (syscfg_get (n := 8) faults pfParamName s.sc).2.2 = later s.sc 1 :=
      syscfg_get_db faults pfParamName s.sc
    rw [Nat.zero_add, later_later] at hspf
    rw [later_later] at hpfr
    rw [spfStored] at hpfr
    simp only [initPfCache, hstart, hspf, hpfr]
    rfl
  rw [← spfStored] at hn₁
  rw [← pfrStored] at hn₂
  rw [hboot, hn₁, hn₂]
  constructor
  · rintro ⟨s', hs', hlt⟩
    obtain ⟨⟨i, c, sc⟩, h₁, h₂⟩ := Option.bind_eq_some_iff.mp hs'
    obtain ⟨⟨i', c', sc'⟩, h₂, h₃⟩ := Option.bind_eq_some_iff.mp h₂
    obtain ⟨⟨hfit₁, -⟩, rfl, rfl⟩ := (initEntries_iff ..).mp ⟨c, h₁⟩
    obtain ⟨⟨hfit₂, -⟩, rfl, rfl⟩ := (initEntries_iff ..).mp ⟨c', h₂⟩
    rw [← Option.some.inj h₃] at hlt
    rw [later_later] at hfit₂
    exact ⟨⟨hfit₁, hfit₂⟩, hlt⟩
  · rintro ⟨⟨hfit₁, hfit₂⟩, hlt⟩
    obtain ⟨c, h₁⟩ := (initEntries_iff faults true 1
      ((spfStored faults s).1 + (pfrStored faults s).1) (spfStored faults s).2 _ c₂ (later s.sc 3)
      _).mpr ⟨⟨hfit₁, Or.inr (by rw [storedSize] at hlt; omega)⟩, rfl, rfl⟩
    rw [later_later] at h₁
    obtain ⟨c', h₂⟩ := (initEntries_iff faults false 1 _ (pfrStored faults s).2 _ c
      (later s.sc (3 + (spfStored faults s).2)) _).mpr
      ⟨⟨hfit₂, Or.inr (Nat.le_of_lt hlt)⟩, rfl, rfl⟩
    rw [h₁, Option.bind_some]
    dsimp only
    rw [h₂]
    exact ⟨_, rfl, hlt⟩

end Boot

section StaticHosts

variable (faults : Faults)

def readParam (cmd : Buf 32) (sc : SyscfgState) : CStr :=
  (syscfg_get (n := 256) faults cmd.text sc).2.1.text

def hostCmds (i : ℕ) (sc : SyscfgState) : List (Buf 32) :=
  [Buf.snprintf (dhcpv4StaticHost i), Buf.sprintf_s (dhcpv4StaticHostsInsNum i),
    Buf.sprintf_s (dhcpv4StaticHostAlias i), Buf.snprintf (dhcpv4CommentsLanClients i),
    Buf.sprintf_s ("lan_clients_mac_".toList ++
      (readParam faults (Buf.snprintf (dhcpv4StaticHost i)) sc).takeWhile (· ≠ ','))]

def hostsCmds (i : ℕ) : ℕ → SyscfgState → List (Buf 32)
  | 0, _ => []
  | n + 1, sc => hostCmds faults i sc ++ hostsCmds (i + 1) n (later sc 5)

def backupCmds (sc : SyscfgState) : List (Buf 32) :=
  Buf.snprintf dhcpv4NumStaticHosts ::
    (hostsCmds faults 1 (atoi (readParam faults (Buf.snprintf dhcpv4NumStaticHosts) sc)).toNat
      (later sc 1) ++ [Buf.snprintf "lan_clients_count".toList])

/-- How many of these keys have a text that is not empty. -/
def keptParams : List (Buf 32) → SyscfgState → ℕ
  | [], _ => 0
  | cmd :: cmds, sc => (if readParam faults cmd sc = [] then 0 else 1) +
      keptParams cmds (later sc 1)

variable {faults}

theorem backupParam_eq_some_iff {cmd : Buf 32} {pCache pCache' : List CacheParam}
    {sc sc' : SyscfgState} {val : CStr} :
    backupParam faults cmd pCache sc = some (val, pCache', sc') ↔
      pCache.length < dhcpv4CacheMaxNumOfParam ∧ val = readParam faults cmd sc ∧
        pCache' = (if readParam faults cmd sc = [] then pCache
          else pCache ++ [⟨cmd, (syscfg_get (n := 256) faults cmd.text sc).2.1⟩]) ∧
        sc' = later sc 1 := by
  simp only [backupParam, Option.ite_none_right_eq_some, Option.some.injEq, Prod.mk.injEq,
    syscfg_get_db]
  exact and_congr_right (fun _ => and_congr eq_comm (and_congr eq_comm eq_comm))

theorem backupParams_append (cmds cmds' : List (Buf 32)) (pCache : List CacheParam)
    (sc : SyscfgState) : backupParams faults (cmds ++ cmds') pCache sc =
      (backupParams faults cmds pCache sc).bind (fun r => backupParams faults cmds' r.1 r.2) := by
  induction cmds generalizing pCache sc with
  | nil => rfl
  | cons cmd cmds ih =>
    simp only [List.cons_append, backupParams, Option.bind_eq_bind, Option.bind_assoc, ih]

theorem backupParams_length {cmds : List (Buf 32)} {pCache pCache' : List CacheParam}
    {sc sc' : SyscfgState} (h : backupParams faults cmds pCache sc = some (pCache', sc')) :
    pCache'.length = pCache.length + keptParams faults cmds sc ∧ sc' = later sc cmds.length := by
  induction cmds generalizing pCache sc with
  | nil =>
    rw [backupParams, Option.some.injEq, Prod.mk.injEq] at h
    rw [← h.1, ← h.2]
    exact ⟨rfl, rfl⟩
  | cons cmd cmds ih =>
    simp only [backupParams, Option.bind_eq_bind, Option.bind_eq_some_iff] at h
    obtain ⟨⟨val, pCache₁, sc₁⟩, h₁, h⟩ := h
    obtain ⟨-, -, rfl, rfl⟩ := backupParam_eq_some_iff.mp h₁
    obtain ⟨hlen, hsc⟩ := ih h
    dsimp only at hlen hsc
    rw [hsc, later_later, List.length_cons, Nat.add_comm 1]
    refine ⟨?_, rfl⟩
    rw [hlen, keptParams]
    split
    · omega
    · rw [List.length_append, List.length_singleton, Nat.add_assoc]

theorem backupParams_exists {cmds : List (Buf 32)} {pCache : List CacheParam} {sc : SyscfgState}
    (hroom : pCache.length + keptParams faults cmds sc < dhcpv4CacheMaxNumOfParam) :
    ∃ r, backupParams faults cmds pCache sc = some r := by
  induction cmds generalizing pCache sc with
  | nil => exact ⟨_, rfl⟩
  | cons cmd cmds ih =>
    rw [keptParams] at hroom
    have hfirst : backupParam faults cmd pCache sc = some (_, _, _) :=
      backupParam_eq_some_iff.mpr ⟨by omega, rfl, rfl, rfl⟩
    simp only [backupParams, hfirst, Option.bind_eq_bind, Option.bind_some]
    apply ih
    split at hroom
    · next hnil =>
      rw [if_pos hnil]
      omega
    · next hne =>
      rw [if_neg hne, List.length_append, List.length_singleton]
      omega

theorem backupHost_eq (i : ℕ) (pCache : List CacheParam) (sc : SyscfgState) :
    backupHost faults i pCache sc = backupParams faults (hostCmds faults i sc) pCache sc := by
  by_cases hroom : pCache.length < dhcpv4CacheMaxNumOfParam
  · have hfirst : backupParam faults (Buf.snprintf (dhcpv4StaticHost i)) pCache sc =
        some (_, _, _) := backupParam_eq_some_iff.mpr ⟨hroom, rfl, rfl, rfl⟩
    rw [hostCmds, backupParams, backupHost, hfirst]
    rfl
  · have hnone : backupParam faults (Buf.snprintf (dhcpv4StaticHost i)) pCache sc = none :=
      if_neg hroom
    rw [hostCmds, backupParams, backupHost, hnone]
    rfl

theorem backupHosts_eq (i n : ℕ) (pCache : List CacheParam) (sc : SyscfgState) :
    backupHosts faults i n pCache sc = backupParams faults (hostsCmds faults i n sc) pCache sc := by
  induction n generalizing i pCache sc with
  | zero => rfl
  | succ n ih =>
    rw [hostsCmds, backupParams_append, backupHosts, backupHost_eq]
    refine Option.bind_congr (fun r hr => ?_)
    obtain ⟨pCache', sc'⟩ := r
    obtain ⟨-, rfl⟩ := backupParams_length hr
    exact ih (i + 1) pCache' _

theorem dhcpv4StaticClientsBackupFromDb_eq (sc : SyscfgState) :
    dhcpv4StaticClientsBackupFromDb faults sc =
      backupParams faults (backupCmds faults sc) [] sc := by
  have hfirst : backupParam faults (Buf.snprintf dhcpv4NumStaticHosts) [] sc =
      some (_, _, _) := backupParam_eq_some_iff.mpr ⟨by decide, rfl, rfl, rfl⟩
  rw [backupCmds, backupParams, dhcpv4StaticClientsBackupFromDb, hfirst]
  simp only [Option.bind_eq_bind, Option.bind_some, backupParams_append, backupHosts_eq]

theorem dhcpv4StaticClientsBackupFromDb_within_iff (sc : SyscfgState) :
    Within (dhcpv4StaticClientsBackupFromDb faults sc) (fun r => r.1.length)
        dhcpv4CacheMaxNumOfParam ↔
      keptParams faults (backupCmds faults sc) sc < dhcpv4CacheMaxNumOfParam := by
  rw [dhcpv4StaticClientsBackupFromDb_eq]
  constructor
  · rintro ⟨⟨pCache, sc'⟩, h, hlt⟩
    have hlen := (backupParams_length h).1
    rw [List.length_nil, Nat.zero_add] at hlen
    rw [← hlen]
    exact hlt
  · intro hlt
    obtain ⟨⟨pCache, sc'⟩, h⟩ := @backupParams_exists faults _ [] _ (by simpa using hlt)
    refine ⟨_, h, ?_⟩
    have hlen := (backupParams_length h).1
    rw [List.length_nil, Nat.zero_add] at hlen
    simpa [hlen] using hlt

variable {pConf : List Macdoc}

theorem hostsParams_exists (h : ∀ e ∈ pConf, e.chaddr.isSome ∧ e.yiaddr.isSome) (i : ℕ) :
    ∃ hosts, hostsParams i pConf = some hosts ∧ hosts.length = 3 * pConf.length := by
  induction pConf generalizing i with
  | nil => exact ⟨[], rfl, rfl⟩
  | cons e rest ih =>
    rw [List.forall_mem_cons, Option.isSome_iff_exists, Option.isSome_iff_exists] at h
    obtain ⟨⟨⟨chaddr, hchaddr⟩, yiaddr, hyiaddr⟩, hrest⟩ := h
    obtain ⟨hosts, hhosts, hlen⟩ := ih hrest (i + 1)
    simp only [hostsParams, hostParams, hchaddr, hyiaddr, hhosts, Option.bind_eq_bind,
      Option.bind_some, Option.some.injEq, exists_eq_left', List.length_append, List.length_cons,
      List.length_nil, hlen]
    omega

theorem texts_of_validateHosts {ansc_inet_addr : CStr → Ipv4Addr.Addr}
    {sc : SyscfgState} (h : (validateHosts ansc_inet_addr faults pConf sc).1 = .zero) :
    ∀ e ∈ pConf, e.chaddr.isSome ∧ e.yiaddr.isSome := by
  induction pConf generalizing sc with
  | nil => simp
  | cons e rest ih =>
    rw [validateHosts] at h
    split at h
    · next hip =>
      split at h
      · next hmac =>
        rw [List.forall_mem_cons]
        refine ⟨⟨?_, ?_⟩, ih h⟩
        · cases hc : e.chaddr with
          | none =>
            rw [hc] at hmac
            cases hmac
          | some chaddr => rfl
        · cases hy : e.yiaddr with
          | none =>
            rw [hy] at hip
            cases hip
          | some yiaddr => rfl
      · cases h
    · next hip => exact absurd h hip

theorem dhcpv4StaticClientsUpdateConfToCache_within_iff {ansc_inet_addr : CStr → Ipv4Addr.Addr}
    {sc : SyscfgState}
    (hok : (dhcpv4StaticClientsValidate ansc_inet_addr faults pConf sc).1 = .zero) :
    Within (dhcpv4StaticClientsUpdateConfToCache pConf) List.length dhcpv4CacheMaxNumOfParam ↔
      3 * pConf.length + 1 < dhcpv4CacheMaxNumOfParam := by
  rw [dhcpv4StaticClientsValidate] at hok
  split at hok
  · cases hok
  obtain ⟨hosts, hhosts, hlen⟩ := hostsParams_exists (texts_of_validateHosts hok) 1
  rw [dhcpv4StaticClientsUpdateConfToCache, hhosts]
  simp only [Within, Option.bind_eq_bind, Option.bind_some, Option.ite_none_right_eq_some,
    Option.some.injEq, List.length_cons, hlen]
  constructor
  · rintro ⟨a, ⟨-, rfl⟩, hlt⟩
    rwa [List.length_cons, hlen] at hlt
  · intro hlt
    exact ⟨_, ⟨by omega, rfl⟩, by rwa [List.length_cons, hlen]⟩

end StaticHosts

/-- No cache is written past its end exactly as long as the entries of the
document, the stored counts, the stored texts and the static hosts are few. -/
theorem caches_within_iff (ansc_inet_addr : CStr → Ipv4Addr.Addr) (faults : Faults)
    (rpm : List Portdoc) (pf_cache : Cache) (pf_cache_size : ℕ) (s : PfState)
    (pConf : List Macdoc) (sc : SyscfgState) (hrpm : documentAccepted rpm = true)
    (hconf : (dhcpv4StaticClientsValidate ansc_inet_addr faults pConf sc).1 = .zero) :
    (Within (setPortmapConf rpm pf_cache pf_cache_size) (fun r => r.2.2) portmapCacheSize ↔
      (∀ e ∈ rpm, TextsPresent e) ∧ documentSize rpm < portmapCacheSize) ∧
    (Within (initPfCache faults s) PfState.pf_cache_size portmapCacheSize ↔
      StoredAliasesFit faults s ∧ storedSize faults s < portmapCacheSize) ∧
    (Within (dhcpv4StaticClientsBackupFromDb faults sc) (fun r => r.1.length)
        dhcpv4CacheMaxNumOfParam ↔
      keptParams faults (backupCmds faults sc) sc < dhcpv4CacheMaxNumOfParam) ∧
    (Within (dhcpv4StaticClientsUpdateConfToCache pConf) List.length dhcpv4CacheMaxNumOfParam ↔
      3 * pConf.length + 1 < dhcpv4CacheMaxNumOfParam) :=
  ⟨setPortmapConf_within_iff pf_cache pf_cache_size hrpm, initPfCache_within_iff faults s,
    dhcpv4StaticClientsBackupFromDb_within_iff sc,
    dhcpv4StaticClientsUpdateConfToCache_within_iff hconf⟩

theorem caches_within_small :
    documentAccepted [portdoc "80" "80"] = true ∧
      (dhcpv4StaticClientsValidate (fun _ => 0) noFaults [macdoc] ⟨fun _ => none, 0⟩).1 = .zero ∧
      Within (setPortmapConf [portdoc "80" "80"] (fun _ => TCache.zero) 0) (fun r => r.2.2)
        portmapCacheSize := by
  have hrpm : documentAccepted [portdoc "80" "80"] = true := by decide +kernel
  have hconf : (dhcpv4StaticClientsValidate (fun _ => 0) noFaults [macdoc]
      ⟨fun _ => none, 0⟩).1 = .zero := by
    decide +kernel
  refine ⟨hrpm, hconf, ?_⟩
  refine (caches_within_iff (fun _ => 0) noFaults _ (fun _ => TCache.zero) 0
    (PfState.boot (fun _ => none)) _ _ hrpm hconf).1.mpr ⟨?_, by decide +kernel⟩
  simp [TextsPresent, portdoc]

/-- One hundred and fourteen single ports need 1028 records. -/
theorem caches_within_many_ports :
    ¬ ∀ (ansc_inet_addr : CStr → Ipv4Addr.Addr) (faults : Faults) (rpm : List Portdoc)
      (pf_cache : Cache) (pf_cache_size : ℕ) (s : PfState) (pConf : List Macdoc)
      (sc : SyscfgState), documentAccepted rpm = true →
      (dhcpv4StaticClientsValidate ansc_inet_addr faults pConf sc).1 = .zero →
      Within (setPortmapConf rpm pf_cache pf_cache_size) (fun r => r.2.2) portmapCacheSize ∧
      Within (initPfCache faults s) PfState.pf_cache_size portmapCacheSize ∧
      Within (dhcpv4StaticClientsBackupFromDb faults sc) (fun r => r.1.length)
        dhcpv4CacheMaxNumOfParam ∧
      Within (dhcpv4StaticClientsUpdateConfToCache pConf) List.length
        dhcpv4CacheMaxNumOfParam := by
  intro hclaim
  have hrpm : documentAccepted (List.replicate 114 (portdoc "80" "80")) = true := by
    decide +kernel
  have hconf : (dhcpv4StaticClientsValidate (fun _ => 0) noFaults [macdoc]
      ⟨fun _ => none, 0⟩).1 = .zero := by
    decide +kernel
  have hwithin := (hclaim (fun _ => 0) noFaults _ (fun _ => TCache.zero) 0
    (PfState.boot (fun _ => none)) _ _ hrpm hconf).1
  have hsize := ((setPortmapConf_within_iff _ _ hrpm).mp hwithin).2
  revert hsize
  decide +kernel

end CcspPandM.CacheCapacity
