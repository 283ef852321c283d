import CcspPandM.CString
import CcspPandM.KeyStore
import CcspPandM.Runs

/-!
The interface of neighbour discovery. A new setting is stored field by field, where it
differs from memory. The reader has one buffer for all keys and does not clear it
before the three timers, so that a timer without a key is read from what the buffer
holds: an earlier timer, or the name of the interface.
-/
namespace CcspPandM.NeighdiscInterface

open CString KeyStore Runs

abbrev ULONG := BitVec 32

inductive Timer where
  | RetransTimer
  | RtrSolicitationInterval
  | MaxRtrSolicitations
  deriving DecidableEq

open Timer

/-- The keys, all of which start with `tr_Neighdisc_If_`. -/
inductive Key where
  | inst_num
  | aliasText
  | enable
  | interface
  | timer (k : Timer)
  deriving DecidableEq

structure COSA_DML_NEIGHDISC_IF_CFG where
  InstanceNumber : ULONG
  Alias : CStr
  bEnabled : Bool
  Interface : CStr
  RetransTimer : ULONG
  RtrSolicitationInterval : ULONG
  MaxRtrSolicitations : ULONG
  bNUDEnable : Bool
  bRSEnable : Bool

namespace COSA_DML_NEIGHDISC_IF_CFG

def timer (c : COSA_DML_NEIGHDISC_IF_CFG) : Timer → ULONG
  | .RetransTimer => c.RetransTimer
  | .RtrSolicitationInterval => c.RtrSolicitationInterval
  | .MaxRtrSolicitations => c.MaxRtrSolicitations

end COSA_DML_NEIGHDISC_IF_CFG

section Code

/-- A read into `out`, which has 256 bytes; an absent key leaves it as it is. -/
def Utopia_RawGet (utctx : Store Key CStr) (k : Key) (out : CStr) : CStr :=
  match utctx k with
  | some t => t.take 255
  | none => out

/-- A text that is written with its default where it is missing. -/
def orDefault (utctx : Store Key CStr) (k : Key) (missing : CStr → Bool) (default : CStr) :
    CStr × Store Key CStr :=
  let out := Utopia_RawGet utctx k []
  if missing out then (default, set utctx k default) else (out, utctx)

def timerOf (out : CStr) (default : ULONG) : ULONG :=
  if out = [] ∨ atoi out = 0 then default else BitVec.ofInt 32 (atoi out)

def defaultTimer : Timer → ULONG
  | RetransTimer => 1000
  | RtrSolicitationInterval => 4000
  | MaxRtrSolicitations => 3

def CosaDmlNeighdiscIfGetEntry (utctx : Store Key CStr) :
    COSA_DML_NEIGHDISC_IF_CFG × Store Key CStr :=
  let num := orDefault utctx .inst_num (fun out => out = [] ∨ atoi out = 0) "1".toList
  let name := orDefault num.2 .aliasText (fun out => out = []) "InterfaceSetting1".toList
  let enable := Utopia_RawGet name.2 .enable []
  let interface := orDefault name.2 .interface (fun out => out = []) "erouter0".toList
  let out := Utopia_RawGet interface.2 (.timer RetransTimer) interface.1
  let out' := Utopia_RawGet interface.2 (.timer RtrSolicitationInterval) out
  let out'' := Utopia_RawGet interface.2 (.timer MaxRtrSolicitations) out'
  (⟨BitVec.ofInt 32 (atoi num.1), name.1, if enable = [] then true else atoi enable ≠ 0,
    interface.1, timerOf out (defaultTimer RetransTimer),
    timerOf out' (defaultTimer RtrSolicitationInterval),
    timerOf out'' (defaultTimer MaxRtrSolicitations), true, true⟩, interface.2)

inductive Status where
  | SUCCESS
  | CANT_FIND
  deriving DecidableEq

def setChanged (changed : Bool) (k : Key) (t : CStr) (utctx : Store Key CStr) :
    Store Key CStr :=
  if changed then set utctx k t else utctx

def flagText (b : Bool) : CStr := if b then "1".toList else "0".toList

def CosaDmlNeighdiscIfSetCfg (g : COSA_DML_NEIGHDISC_IF_CFG) (utctx : Store Key CStr)
    (pCfg : COSA_DML_NEIGHDISC_IF_CFG) :
    Status × COSA_DML_NEIGHDISC_IF_CFG × Store Key CStr :=
  if g.InstanceNumber ≠ pCfg.InstanceNumber then (.CANT_FIND, g, utctx)
  else
    let utctx := setChanged (pCfg.bEnabled ≠ g.bEnabled) .enable (flagText pCfg.bEnabled) utctx
    let utctx := setChanged (pCfg.Interface ≠ g.Interface) .interface pCfg.Interface utctx
    let utctx := setChanged (pCfg.Alias ≠ g.Alias) .aliasText pCfg.Alias utctx
    let utctx := setChanged (pCfg.RetransTimer ≠ g.RetransTimer) (.timer RetransTimer)
      (decimal pCfg.RetransTimer.toNat) utctx
    let utctx := setChanged (pCfg.RtrSolicitationInterval ≠ g.RtrSolicitationInterval)
      (.timer RtrSolicitationInterval) (decimal pCfg.RtrSolicitationInterval.toNat) utctx
    let utctx := setChanged (pCfg.MaxRtrSolicitations ≠ g.MaxRtrSolicitations)
      (.timer MaxRtrSolicitations) (decimal pCfg.MaxRtrSolicitations.toNat) utctx
    (.SUCCESS, pCfg, utctx)

end Code

section Calls

inductive Call where
  | setCfg (pCfg : COSA_DML_NEIGHDISC_IF_CFG)
  | reboot

/-- Memory and store, and beside them the last setting. -/
structure History where
  memory : COSA_DML_NEIGHDISC_IF_CFG
  utctx : Store Key CStr
  setting : COSA_DML_NEIGHDISC_IF_CFG

def loaded (utctx : Store Key CStr) : COSA_DML_NEIGHDISC_IF_CFG :=
  (CosaDmlNeighdiscIfGetEntry utctx).1

def step (h : History) : Call → Option History
  | .setCfg pCfg =>
    let set := CosaDmlNeighdiscIfSetCfg h.memory h.utctx pCfg
    some ⟨set.2.1, set.2.2, pCfg⟩
  | .reboot => some ⟨loaded h.utctx, (CosaDmlNeighdiscIfGetEntry h.utctx).2, h.setting⟩

def defaults : COSA_DML_NEIGHDISC_IF_CFG where
  InstanceNumber := 1
  Alias := "InterfaceSetting1".toList
  bEnabled := true
  Interface := "erouter0".toList
  RetransTimer := 1000
  RtrSolicitationInterval := 4000
  MaxRtrSolicitations := 3
  bNUDEnable := true
  bRSEnable := true

def boot : History :=
  ⟨loaded (fun _ => none), (CosaDmlNeighdiscIfGetEntry fun _ => none).2, defaults⟩

def SameSettings (a b : COSA_DML_NEIGHDISC_IF_CFG) : Prop :=
  a.bEnabled = b.bEnabled ∧ a.Interface = b.Interface ∧ a.Alias = b.Alias ∧
    ∀ k, a.timer k = b.timer k

/-- Memory, and what a reboot would load, are the last setting. -/
def Right (h : History) : Prop :=
  SameSettings h.memory h.setting ∧ SameSettings (loaded h.utctx) h.setting

/-- The calls for the one interface: texts that are not empty and fit, numbers from 1. -/
def Legal : Call → Prop
  | .setCfg c => c.InstanceNumber = 1 ∧ c.Alias ≠ [] ∧ c.Alias.length < 512 ∧
      c.Interface ≠ [] ∧ c.Interface.length < 512 ∧
      ∀ k, 1 ≤ (c.timer k).toNat ∧ (c.timer k).toNat < 2 ^ 31
  | .reboot => True

/-- Stored before, or by the call. -/
def Stored (h : History) (c : COSA_DML_NEIGHDISC_IF_CFG) (k : Timer) : Prop :=
  h.utctx (.timer k) ≠ none ∨ c.timer k ≠ h.memory.timer k

instance (h : History) (c : COSA_DML_NEIGHDISC_IF_CFG) (k : Timer) : Decidable (Stored h c k) :=
  inferInstanceAs (Decidable (_ ∨ _))

/-- The number that the buffer holds when a timer without a key is read. -/
def leftover (h : History) (c : COSA_DML_NEIGHDISC_IF_CFG) : Timer → ℤ
  | RetransTimer => atoi c.Interface
  | RtrSolicitationInterval =>
    if Stored h c RetransTimer then c.RetransTimer.toNat else atoi c.Interface
  | MaxRtrSolicitations =>
    if Stored h c RtrSolicitationInterval then c.RtrSolicitationInterval.toNat
    else if Stored h c RetransTimer then c.RetransTimer.toNat else atoi c.Interface

/-- The texts fit the buffer, and what a timer without a key finds there is no number,
or its default. -/
def Fits (h : History) : Call → Prop
  | .setCfg c => c.Alias.length < 256 ∧ c.Interface.length < 256 ∧
      ∀ k, ¬ Stored h c k → leftover h c k = 0 ∨ leftover h c k = (defaultTimer k).toNat
  | .reboot => True

end Calls

variable {k : Timer}

section Reading

variable {utctx : Store Key CStr} {c : COSA_DML_NEIGHDISC_IF_CFG}

/-- A store that holds a configuration, where keys may be absent for defaults. -/
structure Kept (utctx : Store Key CStr) (c : COSA_DML_NEIGHDISC_IF_CFG) : Prop where
  instNum : utctx .inst_num = some "1".toList
  aliasText : utctx .aliasText = some c.Alias
  interface : utctx .interface = some c.Interface
  enable : utctx .enable = some (flagText c.bEnabled) ∨
    utctx .enable = none ∧ c.bEnabled = true
  timer : ∀ k, utctx (.timer k) = some (decimal (c.timer k).toNat) ∨
    utctx (.timer k) = none ∧ c.timer k = defaultTimer k
  aliasNe : c.Alias ≠ []
  interfaceNe : c.Interface ≠ []
  numbers : ∀ k, 1 ≤ (c.timer k).toNat ∧ (c.timer k).toNat < 2 ^ 31

variable {t : CStr}

theorem rawGet_some {k : Key} (h : utctx k = some t) (out : CStr) :
    Utopia_RawGet utctx k out = t.take 255 := by
  rw [Utopia_RawGet, h]

theorem rawGet_none {k : Key} (h : utctx k = none) (out : CStr) :
    Utopia_RawGet utctx k out = out := by
  rw [Utopia_RawGet, h]

theorem take_ne_nil (h : t ≠ []) : t.take 255 ≠ [] := by
  cases t with
  | nil => exact absurd rfl h
  | cons c t => exact List.cons_ne_nil _ _

theorem orDefault_text {k : Key} (default : CStr) (h : utctx k = some t) (ht : t ≠ []) :
    orDefault utctx k (fun out => out = []) default = (t.take 255, utctx) := by
  have hne := take_ne_nil ht
  simp only [orDefault, rawGet_some h, hne, decide_false, Bool.false_eq_true, if_false]

theorem orDefault_one (h : utctx .inst_num = some "1".toList) :
    orDefault utctx .inst_num (fun out => out = [] ∨ atoi out = 0) "1".toList =
      ("1".toList, utctx) := by
  have hone : (decide (("1".toList).take 255 = [] ∨ atoi (("1".toList).take 255) = 0)) = false := by
    decide
  rw [orDefault, rawGet_some h]
  simp only [hone, Bool.false_eq_true, if_false]
  rfl

def buffer (utctx : Store Key CStr) (start : CStr) : Timer → CStr
  | RetransTimer => Utopia_RawGet utctx (.timer RetransTimer) start
  | RtrSolicitationInterval => Utopia_RawGet utctx (.timer RtrSolicitationInterval)
      (Utopia_RawGet utctx (.timer RetransTimer) start)
  | MaxRtrSolicitations => Utopia_RawGet utctx (.timer MaxRtrSolicitations)
      (Utopia_RawGet utctx (.timer RtrSolicitationInterval)
        (Utopia_RawGet utctx (.timer RetransTimer) start))

theorem enable_kept (hkept : Kept utctx c) :
    (if Utopia_RawGet utctx .enable [] = [] then true
      else decide (atoi (Utopia_RawGet utctx .enable []) ≠ 0)) = c.bEnabled := by
  rcases hkept.enable with h | ⟨h, htrue⟩
  · rw [rawGet_some h]
    cases c.bEnabled <;> decide
  · rw [rawGet_none h, htrue]
    rfl

theorem getEntry_kept (hkept : Kept utctx c) :
    CosaDmlNeighdiscIfGetEntry utctx =
      (⟨1, c.Alias.take 255, c.bEnabled, c.Interface.take 255,
        timerOf (buffer utctx (c.Interface.take 255) RetransTimer) 1000,
        timerOf (buffer utctx (c.Interface.take 255) RtrSolicitationInterval) 4000,
        timerOf (buffer utctx (c.Interface.take 255) MaxRtrSolicitations) 3, true, true⟩,
        utctx) := by
  have hnum : BitVec.ofInt 32 (atoi "1".toList) = 1 := by decide
  unfold CosaDmlNeighdiscIfGetEntry
  simp only [orDefault_one hkept.instNum, orDefault_text _ hkept.aliasText hkept.aliasNe,
    orDefault_text _ hkept.interface hkept.interfaceNe, enable_kept hkept, hnum]
  rfl

theorem take_decimal {n : ℕ} (hn : n < 2 ^ 31) : (decimal n).take 255 = decimal n := by
  have hlen : (decimal n).length ≤ 10 := (decimal_length_le_iff (by decide)).mpr (by omega)
  exact List.take_of_length_le (by omega)

theorem timerOf_decimal {v default : ULONG} (hpos : 1 ≤ v.toNat) (hlt : v.toNat < 2 ^ 31) :
    timerOf (decimal v.toNat) default = v := by
  rw [timerOf, atoi_decimal hlt, if_neg]
  · rw [BitVec.ofInt_natCast, BitVec.ofNat_toNat, BitVec.setWidth_eq]
  · have hne := decimal_ne_nil v.toNat
    simp only [hne, false_or]
    omega

theorem timerOf_default_iff {out : CStr} {default : ULONG} (hlt : default.toNat < 2 ^ 31) :
    timerOf out default = default ↔ atoi out = 0 ∨ atoi out = default.toNat := by
  have hnil : out = [] → atoi out = 0 := by
    intro h
    rw [h]
    decide
  have hatoi : BitVec.ofInt 32 (atoi out) = default ↔ atoi out = default.toNat := by
    have hback : (BitVec.ofInt 32 (atoi out)).toInt = atoi out := by
      rw [atoi, BitVec.ofInt_toInt]
    have hdefault : default.toInt = default.toNat := BitVec.toInt_eq_toNat_of_lt (by omega)
    rw [← BitVec.toInt_inj, hback, hdefault]
  rw [timerOf]
  split
  · rename_i h
    have hzero : atoi out = 0 := h.elim hnil id
    exact iff_of_true rfl (Or.inl hzero)
  · rename_i h
    have hzero : ¬ atoi out = 0 := fun hzero => h (Or.inr hzero)
    rw [hatoi, or_iff_right hzero]

theorem buffer_stored {start : CStr} (hkept : Kept utctx c)
    (hk : utctx (.timer k) ≠ none) : buffer utctx start k = decimal (c.timer k).toNat := by
  have hsome := (hkept.timer k).resolve_right (fun h => hk h.1)
  have hread (out : CStr) : Utopia_RawGet utctx (.timer k) out = decimal (c.timer k).toNat := by
    rw [rawGet_some hsome, take_decimal (hkept.numbers k).2]
  cases k with
  | RetransTimer => exact hread _
  | RtrSolicitationInterval => exact hread _
  | MaxRtrSolicitations => exact hread _

theorem atoi_stored {start : CStr} (hkept : Kept utctx c)
    (hk : utctx (.timer k) ≠ none) : atoi (buffer utctx start k) = (c.timer k).toNat := by
  rw [buffer_stored hkept hk, atoi_decimal (hkept.numbers k).2]

theorem timer_loaded_iff (hkept : Kept utctx c) (start : CStr) (k : Timer) :
    timerOf (buffer utctx start k) (defaultTimer k) = c.timer k ↔
      (utctx (.timer k) = none → atoi (buffer utctx start k) = 0 ∨
        atoi (buffer utctx start k) = (defaultTimer k).toNat) := by
  have hsmall : (defaultTimer k).toNat < 2 ^ 31 := by cases k <;> decide
  by_cases hk : utctx (.timer k) = none
  · have hdefault : c.timer k = defaultTimer k := by
      rcases hkept.timer k with h | h
      · rw [hk] at h
        cases h
      · exact h.2
    rw [hdefault, timerOf_default_iff hsmall]
    exact ⟨fun h _ => h, fun h => h hk⟩
  · rw [buffer_stored hkept hk, timerOf_decimal (hkept.numbers k).1 (hkept.numbers k).2]
    exact iff_of_true rfl (fun h => absurd h hk)

theorem take_eq_iff (t : CStr) : t.take 255 = t ↔ t.length < 256 := by
  constructor
  · intro h
    have hlen := congrArg List.length h
    rw [List.length_take] at hlen
    omega
  · intro h
    exact List.take_of_length_le (by omega)

theorem loaded_timer (hkept : Kept utctx c) (k : Timer) :
    (loaded utctx).timer k = timerOf (buffer utctx (c.Interface.take 255) k) (defaultTimer k) := by
  rw [loaded, getEntry_kept hkept]
  cases k <;> rfl

theorem loaded_iff (hkept : Kept utctx c) :
    SameSettings (loaded utctx) c ↔ c.Alias.length < 256 ∧ c.Interface.length < 256 ∧
      ∀ k, utctx (.timer k) = none → atoi (buffer utctx c.Interface k) = 0 ∨
        atoi (buffer utctx c.Interface k) = (defaultTimer k).toNat := by
  have hflag : (loaded utctx).bEnabled = c.bEnabled := by rw [loaded, getEntry_kept hkept]
  have halias : (loaded utctx).Alias = c.Alias.take 255 := by rw [loaded, getEntry_kept hkept]
  have hinterface : (loaded utctx).Interface = c.Interface.take 255 := by
    rw [loaded, getEntry_kept hkept]
  have htimers : (∀ k, (loaded utctx).timer k = c.timer k) ↔
      ∀ k, utctx (.timer k) = none → atoi (buffer utctx (c.Interface.take 255) k) = 0 ∨
        atoi (buffer utctx (c.Interface.take 255) k) = (defaultTimer k).toNat := by
    apply forall_congr'
    intro k
    rw [loaded_timer hkept, timer_loaded_iff hkept]
  rw [SameSettings, hflag, halias, hinterface, htimers, take_eq_iff, take_eq_iff]
  constructor
  · intro h
    obtain ⟨-, hlen, hname, hall⟩ := h
    rw [(take_eq_iff _).mpr hlen] at hall
    exact ⟨hname, hlen, hall⟩
  · intro h
    obtain ⟨hname, hlen, hall⟩ := h
    rw [(take_eq_iff _).mpr hlen]
    exact ⟨rfl, hlen, hname, hall⟩

end Reading

section Writing

theorem setChanged_apply (changed : Bool) (k a : Key) (t : CStr) (utctx : Store Key CStr) :
    setChanged changed k t utctx a = if changed = true ∧ a = k then some t else utctx a := by
  cases changed with
  | false => rfl
  | true =>
    by_cases ha : a = k
    · subst ha
      rw [if_pos ⟨rfl, rfl⟩]
      exact set_self utctx a t
    · rw [if_neg (fun h => ha h.2)]
      exact set_of_ne utctx t ha

variable {h : History} {c : COSA_DML_NEIGHDISC_IF_CFG}

/-- Memory holds the last setting, and so does the store. -/
structure Settled (h : History) : Prop where
  kept : Kept h.utctx h.setting
  number : h.memory.InstanceNumber = 1
  right : Right h

def written (h : History) (c : COSA_DML_NEIGHDISC_IF_CFG) : Store Key CStr :=
  (CosaDmlNeighdiscIfSetCfg h.memory h.utctx c).2.2

section Numbered

variable (hnumber : h.memory.InstanceNumber = c.InstanceNumber)

include hnumber

theorem setCfg_eq :
    CosaDmlNeighdiscIfSetCfg h.memory h.utctx c = (.SUCCESS, c, written h c) := by
  unfold written CosaDmlNeighdiscIfSetCfg
  rw [if_neg (not_not.mpr hnumber)]

theorem written_timer (k : Timer) :
    written h c (.timer k) =
      if c.timer k = h.memory.timer k then h.utctx (.timer k)
      else some (decimal (c.timer k).toNat) := by
  unfold written CosaDmlNeighdiscIfSetCfg
  rw [if_neg (not_not.mpr hnumber)]
  dsimp only
  simp only [setChanged_apply]
  cases k with
  | RetransTimer =>
    simp [COSA_DML_NEIGHDISC_IF_CFG.timer]
    rfl
  | RtrSolicitationInterval =>
    simp [COSA_DML_NEIGHDISC_IF_CFG.timer]
    rfl
  | MaxRtrSolicitations =>
    simp [COSA_DML_NEIGHDISC_IF_CFG.timer]
    rfl

theorem written_instNum :
    written h c .inst_num = h.utctx .inst_num := by
  unfold written CosaDmlNeighdiscIfSetCfg
  rw [if_neg (not_not.mpr hnumber)]
  simp [setChanged_apply]

theorem written_aliasText :
    written h c .aliasText =
      if c.Alias = h.memory.Alias then h.utctx .aliasText else some c.Alias := by
  unfold written CosaDmlNeighdiscIfSetCfg
  rw [if_neg (not_not.mpr hnumber)]
  simp [setChanged_apply]

theorem written_interface :
    written h c .interface =
      if c.Interface = h.memory.Interface then h.utctx .interface else some c.Interface := by
  unfold written CosaDmlNeighdiscIfSetCfg
  rw [if_neg (not_not.mpr hnumber)]
  simp [setChanged_apply]

theorem written_enable :
    written h c .enable =
      if c.bEnabled = h.memory.bEnabled then h.utctx .enable
      else some (flagText c.bEnabled) := by
  unfold written CosaDmlNeighdiscIfSetCfg
  rw [if_neg (not_not.mpr hnumber)]
  simp [setChanged_apply]

end Numbered

theorem kept_written (hs : Settled h) (hlegal : Legal (.setCfg c)) : Kept (written h c) c := by
  obtain ⟨hone, haliasNe, -, hinterfaceNe, -, hnumbers⟩ := hlegal
  obtain ⟨hflag, hinterface, halias, htimers⟩ := hs.right.1
  have hnumber := hs.number.trans hone.symm
  have hkept := hs.kept
  refine ⟨?_, ?_, ?_, ?_, fun k => ?_, haliasNe, hinterfaceNe, hnumbers⟩
  · rw [written_instNum hnumber]
    exact hkept.instNum
  · rw [written_aliasText hnumber]
    split
    · rename_i hsame
      rw [hkept.aliasText, ← halias, hsame]
    · rfl
  · rw [written_interface hnumber]
    split
    · rename_i hsame
      rw [hkept.interface, ← hinterface, hsame]
    · rfl
  · rw [written_enable hnumber]
    split
    · rename_i hsame
      rw [hsame, hflag]
      exact hkept.enable
    · exact Or.inl rfl
  · rw [written_timer hnumber]
    split
    · rename_i hsame
      rw [hsame, htimers k]
      exact hkept.timer k
    · exact Or.inl rfl

theorem written_none_iff (hnumber : h.memory.InstanceNumber = c.InstanceNumber) (k : Timer) :
    written h c (.timer k) = none ↔ ¬ Stored h c k := by
  rw [written_timer hnumber, Stored]
  split
  · rename_i hsame
    rw [or_iff_left (not_not.mpr hsame), not_not]
  · rename_i hne
    exact iff_of_false (Option.some_ne_none _) (fun hnot => hnot (Or.inr hne))

theorem atoi_buffer (hs : Settled h) (hlegal : Legal (.setCfg c))
    (hk : ¬ Stored h c k) : atoi (buffer (written h c) c.Interface k) = leftover h c k := by
  have hnumber := hs.number.trans hlegal.1.symm
  have hkept := kept_written hs hlegal
  have hpass {k : Timer} (hk : ¬ Stored h c k) (out : CStr) :
      Utopia_RawGet (written h c) (.timer k) out = out :=
    rawGet_none ((written_none_iff hnumber k).mpr hk) out
  have hstored {k : Timer} (hk : Stored h c k) :
      atoi (buffer (written h c) c.Interface k) = (c.timer k).toNat :=
    atoi_stored hkept (fun h => (written_none_iff hnumber k).mp h hk)
  have hfirst : atoi (buffer (written h c) c.Interface RetransTimer) =
      if Stored h c RetransTimer then (c.RetransTimer.toNat : ℤ) else atoi c.Interface := by
    split
    · rename_i hstore
      exact hstored hstore
    · rename_i hstore
      rw [buffer, hpass hstore]
  cases k with
  | RetransTimer => rw [hfirst, if_neg hk, leftover]
  | RtrSolicitationInterval =>
    rw [leftover, ← hfirst]
    exact congrArg atoi (hpass hk _)
  | MaxRtrSolicitations =>
    have hlast : buffer (written h c) c.Interface MaxRtrSolicitations =
        buffer (written h c) c.Interface RtrSolicitationInterval := hpass hk _
    rw [leftover, ← hfirst, hlast]
    split
    · rename_i hstore
      exact hstored hstore
    · rename_i hstore
      exact congrArg atoi (hpass hstore _)

theorem right_setCfg (hs : Settled h) (hlegal : Legal (.setCfg c)) :
    Right ⟨c, written h c, c⟩ ↔ Fits h (.setCfg c) := by
  have hnumber := hs.number.trans hlegal.1.symm
  have hself : SameSettings c c := ⟨rfl, rfl, rfl, fun _ => rfl⟩
  rw [Right, and_iff_right hself, loaded_iff (kept_written hs hlegal), Fits]
  apply and_congr_right'
  apply and_congr_right'
  apply forall_congr'
  intro k
  rw [written_none_iff hnumber]
  apply imp_congr_right
  intro hk
  rw [atoi_buffer hs hlegal hk]

theorem step_setCfg (hs : Settled h) (hlegal : Legal (.setCfg c)) :
    step h (.setCfg c) = some ⟨c, written h c, c⟩ := by
  have hset := setCfg_eq (hs.number.trans hlegal.1.symm)
  rw [step, hset]

end Writing

section Runs

variable {h : History}

def firstStore : Store Key CStr :=
  set (set (set (fun _ => none) .inst_num "1".toList) .aliasText "InterfaceSetting1".toList)
    .interface "erouter0".toList

theorem getEntry_empty : CosaDmlNeighdiscIfGetEntry (fun _ => none) = (defaults, firstStore) := by
  have hzero : atoi ['e', 'r', 'o', 'u', 't', 'e', 'r', '0'] = 0 := by decide
  have hone : BitVec.ofInt 32 (atoi ['1']) = 1#32 := by decide
  unfold CosaDmlNeighdiscIfGetEntry
  simp [orDefault, Utopia_RawGet, set_of_ne, timerOf, hzero, hone, defaults, defaultTimer,
    firstStore]

theorem kept_first : Kept firstStore defaults where
  instNum := rfl
  aliasText := rfl
  interface := rfl
  enable := Or.inr ⟨rfl, rfl⟩
  timer k := Or.inr ⟨by cases k <;> rfl, by cases k <;> rfl⟩
  aliasNe := by decide
  interfaceNe := by decide
  numbers k := by cases k <;> decide

theorem settled_boot : Settled boot := by
  have hself : SameSettings defaults defaults := ⟨rfl, rfl, rfl, fun _ => rfl⟩
  have hzero : atoi "erouter0".toList = 0 := by decide
  have hboot : boot = ⟨defaults, firstStore, defaults⟩ := by
    rw [boot, loaded, getEntry_empty]
  rw [hboot]
  refine ⟨kept_first, rfl, hself, (loaded_iff kept_first).mpr ⟨by decide, by decide, ?_⟩⟩
  intro k _
  exact Or.inl (by cases k <;> exact hzero)

theorem right_reboot (hs : Settled h) :
    ∃ h', step h .reboot = some h' ∧ Right h' ∧ Settled h' := by
  have hsame := hs.right.2
  have hentry := getEntry_kept hs.kept
  have hstore : (CosaDmlNeighdiscIfGetEntry h.utctx).2 = h.utctx := by rw [hentry]
  have hnumber : (loaded h.utctx).InstanceNumber = 1 := by rw [loaded, hentry]
  refine ⟨⟨loaded h.utctx, h.utctx, h.setting⟩, ?_, ⟨hsame, hsame⟩, hs.kept, hnumber, hsame, hsame⟩
  rw [step, hstore]

theorem good_step (hs : Settled h) {c : Call} (hlegal : Legal c) :
    (∃ h', step h c = some h' ∧ Right h') ↔ Fits h c := by
  cases c with
  | setCfg c =>
    rw [← right_setCfg hs hlegal, step_setCfg hs hlegal]
    constructor
    · intro hgood
      obtain ⟨h', heq, hright⟩ := hgood
      obtain rfl := Option.some.inj heq
      exact hright
    · intro hright
      exact ⟨_, rfl, hright⟩
  | reboot =>
    obtain ⟨h', hstep, hright, -⟩ := right_reboot hs
    exact iff_of_true ⟨h', hstep, hright⟩ trivial

theorem settled_step (hs : Settled h) {c : Call} (hlegal : Legal c) (hfits : Fits h c)
    {h' : History} (hstep : step h c = some h') : Settled h' := by
  cases c with
  | setCfg c =>
    rw [step_setCfg hs hlegal] at hstep
    obtain rfl := Option.some.inj hstep
    exact ⟨kept_written hs hlegal, hlegal.1, (right_setCfg hs hlegal).mpr hfits⟩
  | reboot =>
    obtain ⟨h'', hstep', -, hs''⟩ := right_reboot hs
    obtain rfl := Option.some.inj (hstep.symm.trans hstep')
    exact hs''

end Runs

/-- When memory and store hold the last settings throughout a run. -/
theorem neighdisc_right_iff (calls : List Call) (hcalls : ∀ c ∈ calls, Legal c) :
    Throughout step Right boot calls ↔ StepsMeet step Fits boot calls :=
  throughout_iff step Settled (fun _ _ hs hlegal => good_step hs hlegal)
    (fun _ _ _ hs hlegal hfits hstep => settled_step hs hlegal hfits hstep) settled_boot
    (stepsMeet_of_forall step boot hcalls)

def timerSetting : COSA_DML_NEIGHDISC_IF_CFG := { defaults with RetransTimer := 500 }

theorem legal_timerSetting : Legal (.setCfg timerSetting) :=
  ⟨rfl, by decide, by decide, by decide, by decide, fun k => by cases k <;> decide⟩

theorem neighdisc_timer :
    Throughout step Right boot [.setCfg timerSetting] ↔
      StepsMeet step Fits boot [.setCfg timerSetting] :=
  neighdisc_right_iff _ (fun c hc => by
    rw [List.mem_singleton.mp hc]
    exact legal_timerSetting)

/-- The two other timers are loaded from the buffer that holds the first one. -/
theorem timer_leaks : ¬ Throughout step Right boot [.setCfg timerSetting] := by
  intro hright
  obtain ⟨h', hstep, hgood, -⟩ := hright
  have hfits := (good_step settled_boot legal_timerSetting).mp ⟨h', hstep, hgood⟩
  have hstored : ¬ Stored boot timerSetting RtrSolicitationInterval := by decide
  rcases hfits.2.2 RtrSolicitationInterval hstored with hzero | hdefault
  · exact absurd hzero (by decide)
  · exact absurd hdefault (by decide)

end CcspPandM.NeighdiscInterface
