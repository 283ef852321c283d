import CcspPandM.FreeSearch
import CcspPandM.ScanText
import Mathlib.Data.List.Infix

/-!
The VLAN id and the device name of a new bridge. Both are searched from a hint on, with
one try more than there are bridges. An id is taken when a bridge has it, so this is
enough. A name is taken when the name of a bridge contains it, and then one bridge may
take several: the ninth of brlan2 to brlan10 takes brlan1 as well.
-/
namespace CcspPandM.BridgeAllocation

open CString FreeSearch ScanText

abbrev ULONG := BitVec 32

structure BRIDGE where
  vlanid : BitVec 32
  name : Buf 512
  deriving DecidableEq

/-- `bridgeNamePrefix` stands without the `%d` that is put behind it. -/
structure COSA_DML_BRIDGE_PSM_INFO where
  vlanLowBound : ULONG
  vlanHighBound : ULONG
  nxtVid : BitVec 32
  nxtBrId : BitVec 32
  bridgeNamePrefix : CStr

variable (g_brInfo : COSA_DML_BRIDGE_PSM_INFO) (bridgeList : List BRIDGE)

def resetVid (vid : BitVec 32) : BitVec 32 :=
  if g_brInfo.vlanHighBound ≤ vid then g_brInfo.vlanLowBound else vid

def vidFree (vid : BitVec 32) : Bool := bridgeList.all fun b => b.vlanid ≠ vid

/-- The id for the bridge, and the hint for the next one. -/
def _COSA_GetNextVlanId : Option (BitVec 32 × COSA_DML_BRIDGE_PSM_INFO) :=
  (firstFree (fun vid => resetVid g_brInfo (vid + 1)) (vidFree bridgeList)
    (bridgeList.length + 1) (resetVid g_brInfo g_brInfo.nxtVid)).map
    fun vid => (vid, { g_brInfo with nxtVid := vid + 1 })

def param_name (brId : BitVec 32) : Buf 256 :=
  Buf.sprintf_s (g_brInfo.bridgeNamePrefix ++ intText brId)

def nameFree (brId : BitVec 32) : Bool :=
  bridgeList.all fun b => ¬ (param_name g_brInfo brId).text <:+: b.name.text

/-- The name for the bridge, and the hint for the next one. -/
def _COSA_GetNewBrName : Option (Buf 512 × COSA_DML_BRIDGE_PSM_INFO) :=
  (firstFree (· + 1) (nameFree g_brInfo bridgeList) (bridgeList.length + 1)
    g_brInfo.nxtBrId).map
    fun brId => (Buf.sprintf_s (param_name g_brInfo brId).text,
      { g_brInfo with nxtBrId := brId + 1 })

def initHint (nxtVid vlanid : BitVec 32) : BitVec 32 :=
  if nxtVid.sle vlanid ∧ vlanid < g_brInfo.vlanHighBound then vlanid + 1 else nxtVid

def initVid (vlanids : List (BitVec 32)) : BitVec 32 :=
  vlanids.foldl (initHint g_brInfo) g_brInfo.vlanLowBound

def initBrId (brIds : List (BitVec 32)) : BitVec 32 :=
  brIds.foldl (fun nxtBrId brId => if nxtBrId.sle brId then brId + 1 else nxtBrId) 64

/-- The settings that the start leaves, and those that allocations leave. -/
inductive Reached (low high : ULONG) : COSA_DML_BRIDGE_PSM_INFO → Prop
  | init (g : COSA_DML_BRIDGE_PSM_INFO) (vlanids brIds : List (BitVec 32))
      (hlow : g.vlanLowBound = low) (hhigh : g.vlanHighBound = high) :
      Reached low high { g with nxtVid := initVid g vlanids, nxtBrId := initBrId brIds }
  | nextVid {g g' : COSA_DML_BRIDGE_PSM_INFO} (bridgeList : List BRIDGE) {vid : BitVec 32}
      (h : Reached low high g) (hnext : _COSA_GetNextVlanId g bridgeList = some (vid, g')) :
      Reached low high g'
  | newName {g g' : COSA_DML_BRIDGE_PSM_INFO} (bridgeList : List BRIDGE) {name : Buf 512}
      (h : Reached low high g) (hnew : _COSA_GetNewBrName g bridgeList = some (name, g')) :
      Reached low high g'

/-- The ids of a range, as numbers that an `int` can hold. -/
structure VlanRange (low high : ULONG) : Prop where
  low_lt : low < high
  high_int : high.toNat < 2 ^ 31

section Ids

variable {g_brInfo bridgeList} {low high : ULONG}

structure Between (g : COSA_DML_BRIDGE_PSM_INFO) (low high : ULONG) : Prop where
  lowBound : g.vlanLowBound = low
  highBound : g.vlanHighBound = high
  low_le : low ≤ g.nxtVid
  le_high : g.nxtVid ≤ high

theorem toNat_succ_of_lt {v n : BitVec 32} (h : v < n) : (v + 1).toNat = v.toNat + 1 := by
  have hn := n.isLt
  rw [BitVec.lt_def] at h
  rw [BitVec.toNat_add, show (1 : BitVec 32).toNat = 1 from rfl, Nat.mod_eq_of_lt (by omega)]

theorem initHint_between (hrange : VlanRange low high) (hhigh : g_brInfo.vlanHighBound = high)
    {nxtVid : BitVec 32} (h : low ≤ nxtVid ∧ nxtVid ≤ high) (vlanid : BitVec 32) :
    low ≤ initHint g_brInfo nxtVid vlanid ∧ initHint g_brInfo nxtVid vlanid ≤ high := by
  have hint := hrange.high_int
  rw [initHint, hhigh]
  by_cases hgo : nxtVid.sle vlanid ∧ vlanid < high
  · rw [if_pos hgo]
    obtain ⟨hle, hlt⟩ := hgo
    have hsucc := toNat_succ_of_lt hlt
    rw [BitVec.le_def, BitVec.le_def] at h
    rw [BitVec.lt_def] at hlt
    have hnxt : nxtVid.toInt = nxtVid.toNat := BitVec.toInt_eq_toNat_of_lt (by omega)
    have hvlan : vlanid.toInt = vlanid.toNat := BitVec.toInt_eq_toNat_of_lt (by omega)
    rw [BitVec.sle_iff_toInt_le, hnxt, hvlan] at hle
    rw [BitVec.le_def, BitVec.le_def, hsucc]
    omega
  · rw [if_neg hgo]
    exact h

theorem initVid_between (hrange : VlanRange low high) (hlow : g_brInfo.vlanLowBound = low)
    (hhigh : g_brInfo.vlanHighBound = high) (vlanids : List (BitVec 32)) :
    low ≤ initVid g_brInfo vlanids ∧ initVid g_brInfo vlanids ≤ high := by
  have hstep : ∀ (l : List (BitVec 32)) (nxt : BitVec 32), low ≤ nxt ∧ nxt ≤ high →
      low ≤ l.foldl (initHint g_brInfo) nxt ∧ l.foldl (initHint g_brInfo) nxt ≤ high := by
    intro l
    induction l with
    | nil => exact fun nxt h => h
    | cons v l ih => exact fun nxt h => ih _ (initHint_between hrange hhigh h v)
  apply hstep
  rw [hlow]
  exact ⟨BitVec.le_refl _, BitVec.le_of_lt hrange.low_lt⟩

theorem resetVid_between (h : Between g_brInfo low high) (hrange : VlanRange low high)
    {vid : BitVec 32} (hlow : low ≤ vid) :
    low ≤ resetVid g_brInfo vid ∧ resetVid g_brInfo vid < high := by
  rw [resetVid, h.lowBound, h.highBound]
  by_cases htop : high ≤ vid
  · rw [if_pos htop]
    exact ⟨BitVec.le_refl _, hrange.low_lt⟩
  · rw [if_neg htop]
    exact ⟨hlow, BitVec.not_le.mp htop⟩

theorem resetVid_succ (h : Between g_brInfo low high) (hrange : VlanRange low high)
    {vid : BitVec 32} (hvid : low ≤ vid ∧ vid < high) :
    low ≤ resetVid g_brInfo (vid + 1) ∧ resetVid g_brInfo (vid + 1) < high := by
  apply resetVid_between h hrange
  have hsucc := toNat_succ_of_lt hvid.2
  rw [BitVec.le_def, hsucc]
  have hle := BitVec.le_def.mp hvid.1
  omega

theorem nextVlanId_between (h : Between g_brInfo low high) (hrange : VlanRange low high)
    {vid : BitVec 32} {g' : COSA_DML_BRIDGE_PSM_INFO}
    (hnext : _COSA_GetNextVlanId g_brInfo bridgeList = some (vid, g')) :
    (low ≤ vid ∧ vid < high) ∧ (∀ b ∈ bridgeList, b.vlanid ≠ vid) ∧
      g' = { g_brInfo with nxtVid := vid + 1 } := by
  obtain ⟨v, hv, hsame⟩ := Option.map_eq_some_iff.mp hnext
  obtain ⟨rfl, rfl⟩ := Prod.mk.inj hsame
  refine ⟨?_, ?_, rfl⟩
  · apply firstFree_holds (p := fun vid => low ≤ vid ∧ vid < high) ?_ ?_ hv
    · exact fun vid hvid => resetVid_succ h hrange hvid
    · exact resetVid_between h hrange h.low_le
  · simpa [vidFree] using (of_firstFree hv).1

theorem between_of_reached (hrange : VlanRange low high) (h : Reached low high g_brInfo) :
    Between g_brInfo low high := by
  induction h with
  | init g vlanids brIds hlow hhigh =>
    obtain ⟨hle, hge⟩ := initVid_between hrange hlow hhigh vlanids
    exact ⟨hlow, hhigh, hle, hge⟩
  | nextVid bridgeList _ hnext ih =>
    obtain ⟨⟨hle, hlt⟩, -, rfl⟩ := nextVlanId_between ih hrange hnext
    have hsucc := toNat_succ_of_lt hlt
    rw [BitVec.le_def] at hle
    rw [BitVec.lt_def] at hlt
    refine ⟨ih.lowBound, ih.highBound, ?_, ?_⟩
    · rw [BitVec.le_def, hsucc]
      omega
    · rw [BitVec.le_def, hsucc]
      omega
  | newName bridgeList _ hnew ih =>
    obtain ⟨brId, -, hsame⟩ := Option.map_eq_some_iff.mp hnew
    obtain ⟨-, rfl⟩ := Prod.mk.inj hsame
    exact ⟨ih.lowBound, ih.highBound, ih.low_le, ih.le_high⟩

theorem toNat_firstFree (h : Between g_brInfo low high) (hrange : VlanRange low high) (k : ℕ) :
    (firstFree (fun vid => resetVid g_brInfo (vid + 1)) (vidFree bridgeList) k
      (resetVid g_brInfo g_brInfo.nxtVid)).map BitVec.toNat =
      firstFree (nextIn low.toNat high.toNat) (fun n => bridgeList.all fun b => b.vlanid.toNat ≠ n)
        k (resetVid g_brInfo g_brInfo.nxtVid).toNat := by
  apply firstFree_map (p := fun vid => low ≤ vid ∧ vid < high)
  · intro vid hvid
    refine ⟨resetVid_succ h hrange hvid, ?_⟩
    have hsucc := toNat_succ_of_lt hvid.2
    rw [resetVid, h.lowBound, h.highBound, nextIn]
    by_cases htop : high ≤ vid + 1
    · have hle := BitVec.le_def.mp htop
      rw [if_pos htop, if_neg (by omega)]
    · have hlt := BitVec.lt_def.mp (BitVec.not_le.mp htop)
      rw [if_neg htop, if_pos (by omega), hsucc]
  · intro vid _
    rw [vidFree]
    congr 1
    funext b
    simp only [ne_eq, BitVec.toNat_inj]
  · exact resetVid_between h hrange h.low_le

theorem nextVlanId_found_iff (h : Between g_brInfo low high) (hrange : VlanRange low high) :
    (∃ r, _COSA_GetNextVlanId g_brInfo bridgeList = some r) ↔
      ∃ id, low ≤ id ∧ id < high ∧ ∀ b ∈ bridgeList, b.vlanid ≠ id := by
  have hreset := resetVid_between h hrange h.low_le
  have hcycle := @firstFree_cycle_iff low.toNat high.toNat
    (fun n => bridgeList.all fun b => b.vlanid.toNat ≠ n)
    (resetVid g_brInfo g_brInfo.nxtVid).toNat (bridgeList.map fun b => b.vlanid.toNat) (by
      intro n hn
      simpa using hn) (BitVec.le_def.mp hreset.1) (BitVec.lt_def.mp hreset.2)
  rw [List.length_map, ← toNat_firstFree h hrange] at hcycle
  have hsome : (∃ r, _COSA_GetNextVlanId g_brInfo bridgeList = some r) ↔
      (firstFree (fun vid => resetVid g_brInfo (vid + 1)) (vidFree bridgeList)
        (bridgeList.length + 1) (resetVid g_brInfo g_brInfo.nxtVid)).map BitVec.toNat ≠ none := by
    rw [← Option.ne_none_iff_exists', _COSA_GetNextVlanId, ne_eq, ne_eq, Option.map_eq_none_iff,
      Option.map_eq_none_iff]
  rw [hsome, hcycle]
  constructor
  · intro hfree
    obtain ⟨n, hlow, hhigh, hn⟩ := hfree
    have hlt := high.isLt
    have htoNat : (BitVec.ofNat 32 n).toNat = n := by
      rw [BitVec.toNat_ofNat, Nat.mod_eq_of_lt (by omega)]
    refine ⟨BitVec.ofNat 32 n, ?_, ?_, ?_⟩
    · rw [BitVec.le_def, htoNat]
      exact hlow
    · rw [BitVec.lt_def, htoNat]
      exact hhigh
    · intro b hb hsame
      have hne := of_decide_eq_true (List.all_eq_true.mp hn b hb)
      rw [hsame, htoNat] at hne
      exact hne rfl
  · intro hfree
    obtain ⟨id, hlow, hhigh, hid⟩ := hfree
    refine ⟨id.toNat, BitVec.le_def.mp hlow, BitVec.lt_def.mp hhigh, ?_⟩
    apply List.all_eq_true.mpr
    intro b hb
    apply decide_eq_true
    rw [ne_eq, BitVec.toNat_inj]
    exact hid b hb

end Ids

section Names

variable {g_brInfo bridgeList}

theorem iterate_succ (k : ℕ) (a : BitVec 32) : (· + 1)^[k] a = a + BitVec.ofNat 32 k := by
  induction k with
  | zero => exact (BitVec.add_zero a).symm
  | succ k ih =>
    rw [Function.iterate_succ_apply', ih, BitVec.add_assoc, BitVec.ofNat_add]
    rfl

theorem nameFree_iff (brId : BitVec 32) : nameFree g_brInfo bridgeList brId = true ↔
    ∀ b ∈ bridgeList, ¬ (param_name g_brInfo brId).text <:+: b.name.text := by
  simp [nameFree]

theorem newBrName_found_iff : (∃ r, _COSA_GetNewBrName g_brInfo bridgeList = some r) ↔
    ∃ k ≤ bridgeList.length, ∀ b ∈ bridgeList,
      ¬ (param_name g_brInfo (g_brInfo.nxtBrId + BitVec.ofNat 32 k)).text <:+: b.name.text := by
  rw [← Option.ne_none_iff_exists', _COSA_GetNewBrName, ne_eq, Option.map_eq_none_iff,
    firstFree_eq_none_iff]
  simp only [iterate_succ, ← nameFree_iff, not_forall, Bool.not_eq_false, exists_prop,
    Nat.lt_succ_iff]

theorem newBrName_ne {name : Buf 512} {g' : COSA_DML_BRIDGE_PSM_INFO}
    (hnew : _COSA_GetNewBrName g_brInfo bridgeList = some (name, g')) :
    ∀ b ∈ bridgeList, b.name ≠ name := by
  obtain ⟨brId, hfirst, hsame⟩ := Option.map_eq_some_iff.mp hnew
  obtain ⟨rfl, -⟩ := Prod.mk.inj hsame
  intro b hb hname
  apply (nameFree_iff brId).mp (of_firstFree hfirst).1 b hb
  have hfits := (param_name g_brInfo brId).text_length_lt
  rw [hname, Buf.text_sprintf_s_of_lt (by omega)]

end Names

section Allocation

variable {low high : ULONG}

def Numbered (b : BRIDGE) : Prop :=
  ∃ n : ℕ, b.name.text = g_brInfo.bridgeNamePrefix ++ decimal n

structure Allocates (low high : ULONG) : Prop where
  vlan_found : (∃ r, _COSA_GetNextVlanId g_brInfo bridgeList = some r) ↔
    ∃ id, low ≤ id ∧ id < high ∧ ∀ b ∈ bridgeList, b.vlanid ≠ id
  vlan_free : ∀ vid g', _COSA_GetNextVlanId g_brInfo bridgeList = some (vid, g') →
    (low ≤ vid ∧ vid < high) ∧ ∀ b ∈ bridgeList, b.vlanid ≠ vid
  name_new : ∀ name g', _COSA_GetNewBrName g_brInfo bridgeList = some (name, g') →
    ∀ b ∈ bridgeList, b.name ≠ name
  name_found : (∀ b ∈ bridgeList, Numbered g_brInfo b) →
    ∃ r, _COSA_GetNewBrName g_brInfo bridgeList = some r

/-- Of the numbers from the hint on, one more than there are bridges, one gives a text
that is part of no name. -/
def RoomForName : Prop :=
  (∀ b ∈ bridgeList, Numbered g_brInfo b) → ∃ k ≤ bridgeList.length, ∀ b ∈ bridgeList,
    ¬ (param_name g_brInfo (g_brInfo.nxtBrId + BitVec.ofNat 32 k)).text <:+: b.name.text

variable {g_brInfo bridgeList}

theorem room_of_lt (hint : 0 ≤ g_brInfo.nxtBrId.toInt)
    (hfits : (g_brInfo.bridgeNamePrefix ++ intText g_brInfo.nxtBrId).length < 256)
    (hlt : ∀ b ∈ bridgeList, ∃ n : ℕ, (n : ℤ) < g_brInfo.nxtBrId.toInt ∧
      b.name.text = g_brInfo.bridgeNamePrefix ++ decimal n) : RoomForName g_brInfo bridgeList := by
  intro _
  refine ⟨0, Nat.zero_le _, fun b hb hinfix => ?_⟩
  obtain ⟨n, hn, hname⟩ := hlt b hb
  obtain ⟨m, hm⟩ := Int.eq_ofNat_of_zero_le hint
  have hhint : intText g_brInfo.nxtBrId = decimal m := by
    rw [intText, if_neg (by omega), hm]
    rfl
  have hzero : g_brInfo.nxtBrId + BitVec.ofNat 32 0 = g_brInfo.nxtBrId := BitVec.add_zero _
  rw [hzero, param_name, Buf.text_sprintf_s_of_lt hfits, hname, hhint] at hinfix
  have hlen := hinfix.length_le
  rw [List.length_append, List.length_append] at hlen
  -- the smaller number has no more digits, so the texts are the same
  have hdigits : (decimal n).length ≤ (decimal m).length := by
    have hpos : 0 < (decimal m).length := List.length_pos_iff.mpr (decimal_ne_nil m)
    rw [decimal_length_le_iff hpos]
    have hm := (decimal_length_le_iff hpos).mp (le_refl _)
    omega
  have hsame := hinfix.eq_of_length (by
    rw [List.length_append, List.length_append]
    omega)
  have hmn := decimal_injective (List.append_cancel_left hsame)
  omega

/-- For every bridge list and every hint that was reached, the searches do what they are
to do exactly when there is room for a name. -/
theorem bridge_allocation_iff (hrange : VlanRange low high) (h : Reached low high g_brInfo)
    (bridgeList : List BRIDGE) :
    Allocates g_brInfo bridgeList low high ↔ RoomForName g_brInfo bridgeList := by
  have hbetween := between_of_reached hrange h
  constructor
  · intro halloc hnumbered
    exact newBrName_found_iff.mp (halloc.name_found hnumbered)
  · intro hroom
    refine ⟨nextVlanId_found_iff hbetween hrange, ?_, fun name g' => newBrName_ne, ?_⟩
    · intro vid g' hnext
      obtain ⟨hin, hfree, -⟩ := nextVlanId_between hbetween hrange hnext
      exact ⟨hin, hfree⟩
    · intro hnumbered
      exact newBrName_found_iff.mpr (hroom hnumbered)

def defaultInfo : COSA_DML_BRIDGE_PSM_INFO := ⟨164, 400, 164, 64, "br".toList⟩

theorem reached_defaultInfo : Reached 164 400 defaultInfo := Reached.init defaultInfo [] [] rfl rfl

theorem vlanRange_default : VlanRange 164 400 := ⟨by decide, by decide⟩

theorem bridge_allocation_first :
    Allocates defaultInfo [⟨164, Buf.snprintf "br0".toList⟩] 164 400 := by
  apply (bridge_allocation_iff vlanRange_default reached_defaultInfo _).mpr
  apply room_of_lt (by decide) (by decide)
  intro b hb
  rw [List.mem_singleton.mp hb]
  exact ⟨0, by decide, by decide +kernel⟩

/-- The bridges br65 to br640, of which the last takes br64 too. -/
def crowd : List BRIDGE :=
  (List.range 576).map fun i => ⟨0, Buf.sprintf_s ("br".toList ++ decimal (65 + i))⟩

theorem text_crowd : ∀ i < 576,
    (Buf.sprintf_s ("br".toList ++ decimal (65 + i)) : Buf 512).text =
      "br".toList ++ decimal (65 + i) := by
  decide +kernel

theorem mem_crowd {i : ℕ} (hi : i < 576) :
    (⟨0, Buf.sprintf_s ("br".toList ++ decimal (65 + i))⟩ : BRIDGE) ∈ crowd :=
  List.mem_map.mpr ⟨i, List.mem_range.mpr hi, rfl⟩

theorem text_param_name : ∀ k ≤ 576, (param_name defaultInfo (64 + BitVec.ofNat 32 k)).text =
    "br".toList ++ decimal (64 + k) := by
  decide +kernel

/-- With the hint at its first value none of the 577 tries gives a name. -/
theorem bridge_allocation_crowd : ¬ Allocates defaultInfo crowd 164 400 := by
  intro halloc
  have hnumbered : ∀ b ∈ crowd, Numbered defaultInfo b := by
    intro b hb
    obtain ⟨i, hi, rfl⟩ := List.mem_map.mp hb
    exact ⟨65 + i, text_crowd i (List.mem_range.mp hi)⟩
  obtain ⟨k, hk, hfree⟩ := newBrName_found_iff.mp (halloc.name_found hnumbered)
  have hlen : k ≤ 576 := by simpa [crowd] using hk
  have hname := text_param_name k hlen
  cases k with
  | zero =>
    -- br640 begins with br64
    apply hfree _ (mem_crowd (i := 575) (by decide))
    rw [show defaultInfo.nxtBrId = 64 from rfl, hname, text_crowd 575 (by decide)]
    exact ⟨[], ['0'], by decide +kernel⟩
  | succ j =>
    apply hfree _ (mem_crowd (i := j) (by omega))
    rw [show defaultInfo.nxtBrId = 64 from rfl, hname, text_crowd j (by omega),
      show 65 + j = 64 + (j + 1) by omega]

end Allocation

end CcspPandM.BridgeAllocation
