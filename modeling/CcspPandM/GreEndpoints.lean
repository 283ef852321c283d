import CcspPandM.GrePsm
import CcspPandM.Runs
import CcspPandM.TextSearch

/-!
The endpoints of the first GRE tunnel. Each has a record of its own; an older record holds
both, with a comma between them. A read that finds 0.0.0.0 imports its half of the older
record and puts 0.0.0.0 in its place, and so does an endpoint that is set to 0.0.0.0.
-/
namespace CcspPandM.GreEndpoints

open CString KeyStore ScanText GrePsm Runs TextSearch

def GRETU_PARAM_PRI_ENDPOINT (tuIns : ULONG) : CStr :=
  "dmsb.hotspot.tunnel.".toList ++ decimal tuIns.toNat ++ ".PrimaryRemoteEndpoint".toList

def GRETU_PARAM_SEC_ENDPOINT (tuIns : ULONG) : CStr :=
  "dmsb.hotspot.tunnel.".toList ++ decimal tuIns.toNat ++ ".SecondaryRemoteEndpoint".toList

def oldRecord : CStr := "dmsb.hotspot.gre.1.Endpoints".toList

def noEndpoint : CStr := "0.0.0.0".toList

def halves (endpoints : CStr) : Option (CStr × CStr) :=
  match endpoints.dropWhile (· ≠ ',') with
  | [] => none
  | _ :: second => some (endpoints.takeWhile (· ≠ ','), second)

/-- The older record, unless it is unset, too long, spent, or has no comma. -/
def oldEndpoints (psm : Psm) : Option (CStr × CStr) :=
  (GrePsmGetStr psm oldRecord 64).bind fun endpoints =>
    if endpoints = "0.0.0.0,0.0.0.0".toList then none else halves endpoints

/-- `strncmp("0.0.0.0", endpoints, pt - endpoints) != 0`. -/
def firstHolds (first second : CStr) : Bool :=
  !strneq noEndpoint (first ++ ',' :: second) first.length

/-- `strcmp("0.0.0.0", pt + 1) != 0`. -/
def secondHolds (second : CStr) : Bool := decide (second ≠ noEndpoint)

/-- `strncat` of the comma and what follows it, 50 characters at most. -/
def withoutFirst (second : CStr) : Buf 64 :=
  ⟨noEndpoint ++ (',' :: second).take 50, by
    rw [List.length_append, List.length_take, show noEndpoint.length = 7 from rfl]
    omega⟩

/-- `snprintf` after the comma, in the buffer that holds the record. -/
def withoutSecond (first : CStr) : Option (Buf 64) :=
  if h : (first ++ ',' :: noEndpoint).length < 64 then some ⟨_, h⟩ else none

def CosaDml_GreTunnelSetPrimaryEndpoints (psm : Psm) (tuIns : ULONG) (pri : CStr) : Psm :=
  let psm := GrePsmSet psm (GRETU_PARAM_PRI_ENDPOINT tuIns) pri
  if tuIns = 1 ∧ pri = noEndpoint then
    match oldEndpoints psm with
    | none => psm
    | some (first, second) =>
      if firstHolds first second then GrePsmSet psm oldRecord (withoutFirst second).text else psm
  else psm

/-- No result where a write leaves its buffer. -/
def CosaDml_GreTunnelSetSecondaryEndpoints (psm : Psm) (tuIns : ULONG) (sec : CStr) :
    Option Psm :=
  let psm := GrePsmSet psm (GRETU_PARAM_SEC_ENDPOINT tuIns) sec
  if tuIns = 1 ∧ sec = noEndpoint then
    match oldEndpoints psm with
    | none => some psm
    | some (first, second) =>
      if secondHolds second then
        (withoutSecond first).map fun endpoints => GrePsmSet psm oldRecord endpoints.text
      else some psm
  else some psm

/-- The endpoint, if the read succeeds, and what the read leaves. -/
def CosaDml_GreTunnelGetPrimaryEndpoint (psm : Psm) (tuIns : ULONG) (size : ℕ) :
    Option (Option CStr × Psm) :=
  match GrePsmGetStr psm (GRETU_PARAM_PRI_ENDPOINT tuIns) size with
  | none => some (none, psm)
  | some eps =>
    if tuIns = 1 ∧ eps = noEndpoint then
      match oldEndpoints psm with
      | none => some (some eps, psm)
      | some (first, second) =>
        if firstHolds first second then
          if first.length < size then
            let psm := CosaDml_GreTunnelSetPrimaryEndpoints psm 1 first
            some (some first, GrePsmSet psm oldRecord (withoutFirst second).text)
          else none
        else some (some eps, psm)
    else some (some eps, psm)

/-- A second half that fills the caller's buffer is not terminated in it. -/
def CosaDml_GreTunnelGetSecondaryEndpoint (psm : Psm) (tuIns : ULONG) (size : ℕ) :
    Option (Option CStr × Psm) :=
  match GrePsmGetStr psm (GRETU_PARAM_SEC_ENDPOINT tuIns) size with
  | none => some (none, psm)
  | some eps =>
    if tuIns = 1 ∧ eps = noEndpoint then
      match oldEndpoints psm with
      | none => some (some eps, psm)
      | some (first, second) =>
        if secondHolds second then
          if second.length < size then
            (CosaDml_GreTunnelSetSecondaryEndpoints psm 1 second).bind fun psm =>
              (withoutSecond first).map fun endpoints =>
                (some second, GrePsmSet psm oldRecord endpoints.text)
          else none
        else some (some eps, psm)
    else some (some eps, psm)

inductive End where
  | primary
  | secondary
  deriving DecidableEq

inductive Call where
  | get (e : End) (size : ℕ)
  | set (e : End) (value : CStr)

def Call.endpoint : Call → End
  | .get e _ => e
  | .set e _ => e

def call (psm : Psm) : Call → Option (Option CStr × Psm)
  | .get .primary size => CosaDml_GreTunnelGetPrimaryEndpoint psm 1 size
  | .get .secondary size => CosaDml_GreTunnelGetSecondaryEndpoint psm 1 size
  | .set .primary value => some (none, CosaDml_GreTunnelSetPrimaryEndpoints psm 1 value)
  | .set .secondary value =>
    (CosaDml_GreTunnelSetSecondaryEndpoints psm 1 value).map fun psm => (none, psm)

def record : End → CStr
  | .primary => GRETU_PARAM_PRI_ENDPOINT 1
  | .secondary => GRETU_PARAM_SEC_ENDPOINT 1

def half : End → CStr × CStr → CStr
  | .primary, old => old.1
  | .secondary, old => old.2

def oldHalf (psm : Psm) (e : End) : Option CStr := ((psm oldRecord).bind halves).map (half e)

def holds : End → CStr × CStr → Bool
  | .primary, old => firstHolds old.1 old.2
  | .secondary, old => secondHolds old.2

/-- The older record without an endpoint's half, if it stays in its buffer. -/
def without : End → CStr × CStr → Option (Buf 64)
  | .primary, old => some (withoutFirst old.2)
  | .secondary, old => withoutSecond old.1

def Spends (psm : Psm) (c : Call) (old : CStr × CStr) : Prop :=
  oldEndpoints psm = some old ∧ holds c.endpoint old = true ∧
    match c with
    | .get e size => GrePsmGetStr psm (record e) size = some noEndpoint
    | .set _ value => value = noEndpoint

def given (old : CStr × CStr) : Call → CStr
  | .get e _ => half e old
  | .set _ value => value

def imported (old : CStr × CStr) : Call → Option CStr
  | .get e _ => some (half e old)
  | .set _ _ => none

def holdsHalf (old : CStr × CStr) : Call → Bool
  | .get e size => decide ((half e old).length < size)
  | .set _ _ => true

variable {old : CStr × CStr} {c : Call} {e : End} (psm : Psm)

variable {e e' : End}

section Calls

theorem record_ne (e : End) : record e ≠ oldRecord := by
  cases e <;> decide

theorem record_injective (h : record e = record e') : e = e' := by
  cases e <;> cases e' <;> first | rfl | exact absurd h (by decide)

theorem oldEndpoints_congr {psm psm' : Psm} (h : psm' oldRecord = psm oldRecord) :
    oldEndpoints psm' = oldEndpoints psm := by
  rw [oldEndpoints, oldEndpoints, getStr_congr h]

theorem oldEndpoints_set (e : End) (value : CStr) :
    oldEndpoints (set psm (record e) value) = oldEndpoints psm :=
  oldEndpoints_congr (set_of_ne psm value (Ne.symm (record_ne e)))

theorem strneq_append (a b rest : CStr) :
    strneq a (b ++ rest) b.length = strneq a b b.length := by
  induction b generalizing a with
  | nil => rfl
  | cons c b ih =>
    rw [List.cons_append, List.length_cons, strneq, strneq, List.headD_cons, List.headD_cons,
      List.tail_cons, List.tail_cons, ih]

theorem firstHolds_eq (first second : CStr) :
    firstHolds first second = !strneq noEndpoint first first.length := by
  rw [firstHolds, strneq_append]

theorem firstHolds_noEndpoint (second : CStr) : firstHolds noEndpoint second = false := by
  rw [firstHolds_eq]
  decide

theorem half_ne (h : holds e old = true) :
    half e old ≠ noEndpoint := by
  obtain ⟨first, second⟩ := old
  cases e with
  | primary =>
    intro (heq : first = noEndpoint)
    rw [heq] at h
    exact absurd h (by rw [holds, firstHolds_noEndpoint]; decide)
  | secondary => exact of_decide_eq_true h

theorem call_set (e : End) (value : CStr) :
    call psm (.set e value) =
      if value = noEndpoint then
        match oldEndpoints psm with
        | none => some (none, set psm (record e) value)
        | some old =>
          if holds e old then
            (without e old).map fun endpoints =>
              (none, set (set psm (record e) value) oldRecord endpoints.text)
          else some (none, set psm (record e) value)
      else some (none, set psm (record e) value) := by
  cases e with
  | primary =>
    have hold := oldEndpoints_set psm .primary value
    simp only [record] at hold
    simp only [call, CosaDml_GreTunnelSetPrimaryEndpoints, GrePsmSet, true_and, hold, record]
    by_cases hvalue : value = noEndpoint
    · rw [if_pos hvalue, if_pos hvalue]
      cases oldEndpoints psm with
      | none => rfl
      | some old =>
        by_cases hholds : holds .primary old = true
        · have hfirst : firstHolds old.1 old.2 = true := hholds
          simp only [if_pos hfirst, if_pos hholds, without, Option.map_some]
        · have hfirst : ¬ firstHolds old.1 old.2 = true := hholds
          simp only [if_neg hfirst, if_neg hholds]
    · rw [if_neg hvalue, if_neg hvalue]
  | secondary =>
    have hold := oldEndpoints_set psm .secondary value
    simp only [record] at hold
    simp only [call, CosaDml_GreTunnelSetSecondaryEndpoints, GrePsmSet, true_and, hold, record]
    by_cases hvalue : value = noEndpoint
    · rw [if_pos hvalue, if_pos hvalue]
      cases oldEndpoints psm with
      | none => rfl
      | some old =>
        by_cases hholds : holds .secondary old = true
        · have hsecond : secondHolds old.2 = true := hholds
          simp only [if_pos hsecond, if_pos hholds, without, Option.map_map, Function.comp_def]
        · have hsecond : ¬ secondHolds old.2 = true := hholds
          simp only [if_neg hsecond, if_neg hholds, Option.map_some]
    · rw [if_neg hvalue, if_neg hvalue, Option.map_some]

theorem call_get (e : End) (size : ℕ) :
    call psm (.get e size) =
      match GrePsmGetStr psm (record e) size with
      | none => some (none, psm)
      | some eps =>
        if eps = noEndpoint then
          match oldEndpoints psm with
          | none => some (some eps, psm)
          | some old =>
            if holds e old then
              if (half e old).length < size then
                (without e old).map fun endpoints =>
                  (some (half e old),
                    set (set psm (record e) (half e old)) oldRecord endpoints.text)
              else none
            else some (some eps, psm)
        else some (some eps, psm) := by
  cases e with
  | primary =>
    simp only [call, CosaDml_GreTunnelGetPrimaryEndpoint, true_and, record]
    cases GrePsmGetStr psm (GRETU_PARAM_PRI_ENDPOINT 1) size with
    | none => rfl
    | some eps =>
      by_cases heps : eps = noEndpoint
      · simp only [if_pos heps]
        cases oldEndpoints psm with
        | none => rfl
        | some old =>
          by_cases hholds : holds .primary old = true
          · have hfirst : firstHolds old.1 old.2 = true := hholds
            have hne : old.1 ≠ noEndpoint := half_ne hholds
            simp only [if_pos hfirst, if_pos hholds, half, without, Option.map_some,
              CosaDml_GreTunnelSetPrimaryEndpoints, true_and, if_neg hne, GrePsmSet]
            rfl
          · have hfirst : ¬ firstHolds old.1 old.2 = true := hholds
            simp only [if_neg hfirst, if_neg hholds]
      · simp only [if_neg heps]
  | secondary =>
    simp only [call, CosaDml_GreTunnelGetSecondaryEndpoint, true_and, record]
    cases GrePsmGetStr psm (GRETU_PARAM_SEC_ENDPOINT 1) size with
    | none => rfl
    | some eps =>
      by_cases heps : eps = noEndpoint
      · simp only [if_pos heps]
        cases oldEndpoints psm with
        | none => rfl
        | some old =>
          by_cases hholds : holds .secondary old = true
          · have hsecond : secondHolds old.2 = true := hholds
            have hne : old.2 ≠ noEndpoint := half_ne hholds
            simp only [if_pos hsecond, if_pos hholds, half, without, Option.bind_some,
              CosaDml_GreTunnelSetSecondaryEndpoints, true_and, if_neg hne, GrePsmSet]
            rfl
          · have hsecond : ¬ secondHolds old.2 = true := hholds
            simp only [if_neg hsecond, if_neg hholds]
      · simp only [if_neg heps]

theorem call_quiet {psm : Psm} (h : ∀ old, ¬ Spends psm c old) :
    call psm c = match c with
      | .get e size => some (GrePsmGetStr psm (record e) size, psm)
      | .set e value => some (none, set psm (record e) value) := by
  cases c with
  | get e size =>
    change _ = some (GrePsmGetStr psm (record e) size, psm)
    rw [call_get]
    cases hget : GrePsmGetStr psm (record e) size with
    | none => rfl
    | some eps =>
      by_cases heps : eps = noEndpoint
      · cases hold : oldEndpoints psm with
        | none => simp only [ite_self]
        | some old =>
          have hholds : ¬ holds e old = true := by
            intro hholds
            exact h old ⟨hold, hholds, by rw [← heps]; exact hget⟩
          simp only [if_neg hholds, ite_self]
      · simp only [if_neg heps]
  | set e value =>
    rw [call_set]
    by_cases hvalue : value = noEndpoint
    · cases hold : oldEndpoints psm with
      | none => simp only [ite_self]
      | some old =>
        have hholds : ¬ holds e old = true := fun hholds => h old ⟨hold, hholds, hvalue⟩
        simp only [if_neg hholds, ite_self]
    · simp only [if_neg hvalue]

theorem call_spends {psm : Psm} (h : Spends psm c old) :
    call psm c =
      if holdsHalf old c then
        (without c.endpoint old).map fun endpoints =>
          (imported old c, set (set psm (record c.endpoint) (given old c)) oldRecord endpoints.text)
      else none := by
  obtain ⟨hold, hholds, hc⟩ := h
  cases c with
  | get e size =>
    change GrePsmGetStr psm (record e) size = some noEndpoint at hc
    change holds e old = true at hholds
    rw [call_get, hc]
    simp only [hold, if_pos hholds, if_true, holdsHalf, decide_eq_true_eq]
    rfl
  | set e value =>
    change value = noEndpoint at hc
    change holds e old = true at hholds
    rw [call_set, if_pos hc, hold]
    simp only [if_pos hholds]
    rfl

end Calls

variable {endpoints : Buf 64}

section Halves

theorem halves_append {first : CStr} (hfirst : ',' ∉ first) (second : CStr) :
    halves (first ++ ',' :: second) = some (first, second) := by
  have hall : ∀ c ∈ first, decide (c ≠ ',') = true := by
    intro c hc
    apply decide_eq_true
    rintro rfl
    exact hfirst hc
  rw [halves, List.dropWhile_append_of_pos hall, List.takeWhile_append_of_pos hall]
  simp

theorem halves_eq_some {t : CStr} (h : halves t = some old) :
    t = old.1 ++ ',' :: old.2 ∧ ',' ∉ old.1 := by
  have hsplit := List.takeWhile_append_dropWhile (p := fun c : Char => decide (c ≠ ',')) (l := t)
  rw [halves] at h
  cases hdrop : t.dropWhile (· ≠ ',') with
  | nil =>
    rw [hdrop] at h
    cases h
  | cons c second =>
    rw [hdrop] at h
    cases h
    have hc : c = ',' := by
      have hhead := List.head?_dropWhile_not (fun c : Char => decide (c ≠ ',')) t
      rw [hdrop] at hhead
      simpa using hhead
    rw [hdrop, hc] at hsplit
    refine ⟨hsplit.symm, fun hmem => ?_⟩
    have htake := List.mem_takeWhile_imp hmem
    simp at htake

theorem oldEndpoints_eq_some_iff (old : CStr × CStr) :
    oldEndpoints psm = some old ↔
      ∃ t, psm oldRecord = some t ∧ t.length < 64 ∧ t ≠ "0.0.0.0,0.0.0.0".toList ∧
        halves t = some old := by
  rw [oldEndpoints, Option.bind_eq_some_iff]
  constructor
  · rintro ⟨t, ht, hold⟩
    have hlt : t.length < 64 := ((getStr_eq_some_iff _ _ _ _).mp ht).choose_spec.2.2
    have hstored := ((getStr_short (by omega)).mp ht).1
    by_cases hspent : t = "0.0.0.0,0.0.0.0".toList
    · rw [if_pos hspent] at hold
      cases hold
    · rw [if_neg hspent] at hold
      exact ⟨t, hstored, hlt, hspent, hold⟩
  · rintro ⟨t, hstored, hlt, hspent, hold⟩
    refine ⟨t, (getStr_short (by omega)).mpr ⟨hstored, hlt⟩, ?_⟩
    rw [if_neg hspent]
    exact hold

theorem holds_congr {old old' : CStr × CStr} (h : half e old' = half e old) :
    holds e old' = holds e old := by
  cases e with
  | primary =>
    change old'.1 = old.1 at h
    rw [holds, holds, firstHolds_eq, firstHolds_eq, h]
  | secondary =>
    change old'.2 = old.2 at h
    rw [holds, holds, h]

/-- The older record fits its buffers when an endpoint's half is replaced. -/
def Room : End → CStr × CStr → Prop
  | .primary, old => old.2.length < 50
  | .secondary, old => old.1.length < 56

def spent : End → CStr × CStr → CStr × CStr
  | .primary, old => (noEndpoint, old.2)
  | .secondary, old => (old.1, noEndpoint)

theorem holds_spent (e : End) (old : CStr × CStr) : holds e (spent e old) = false := by
  cases e with
  | primary => exact firstHolds_noEndpoint old.2
  | secondary => rfl

theorem half_spent_of_ne (h : e' ≠ e) (old : CStr × CStr) :
    half e' (spent e old) = half e' old := by
  cases e <;> cases e' <;> first | rfl | exact absurd rfl h

theorem without_room (hcomma : ',' ∉ old.1) (h : Room e old) :
    ∃ endpoints, without e old = some endpoints ∧
      halves endpoints.text = some (spent e old) := by
  cases e with
  | primary =>
    change old.2.length < 50 at h
    refine ⟨withoutFirst old.2, rfl, ?_⟩
    have htext : (withoutFirst old.2).text = noEndpoint ++ ',' :: old.2 := by
      change noEndpoint ++ (',' :: old.2).take 50 = _
      rw [List.take_of_length_le (by rw [List.length_cons]; omega)]
    rw [htext]
    exact halves_append (by decide) old.2
  | secondary =>
    change old.1.length < 56 at h
    have hlen : (old.1 ++ ',' :: noEndpoint).length < 64 := by
      rw [List.length_append, List.length_cons, show noEndpoint.length = 7 from rfl]
      omega
    refine ⟨⟨_, hlen⟩, dif_pos hlen, ?_⟩
    exact halves_append hcomma noEndpoint

theorem without_no_room (hne : e' ≠ e) (h : ¬ Room e old) (hw : without e old = some endpoints) :
    (halves endpoints.text).map (half e') ≠ some (half e' old) := by
  cases e with
  | primary =>
    change ¬ old.2.length < 50 at h
    cases e' with
    | primary => exact absurd rfl hne
    | secondary =>
      cases hw
      have htext : (withoutFirst old.2).text = noEndpoint ++ ',' :: old.2.take 49 := rfl
      rw [htext, halves_append (by decide)]
      intro heq
      have hlen := congrArg List.length (Option.some.inj heq)
      simp only [half, List.length_take] at hlen
      omega
  | secondary =>
    change ¬ old.1.length < 56 at h
    have hlen : ¬ (old.1 ++ ',' :: noEndpoint).length < 64 := by
      rw [List.length_append, List.length_cons, show noEndpoint.length = 7 from rfl]
      omega
    rw [without, withoutSecond, dif_neg hlen] at hw
    cases hw

end Halves

/-- The records, the last answer, the value each endpoint was last set to, and how often
its half was imported. -/
structure History where
  psm : Psm
  answer : Option CStr
  lastSet : End → Option CStr
  imports : End → ℕ

def History.note (h : History) (psm : Psm) : Call → (End → Option CStr) × (End → ℕ)
  | .get e _ =>
    (h.lastSet, if psm (record e) = h.psm (record e) then h.imports
      else Function.update h.imports e (h.imports e + 1))
  | .set e value => (Function.update h.lastSet e (some value), h.imports)

def step (h : History) (c : Call) : Option History :=
  (call h.psm c).map fun r =>
    { psm := r.2, answer := r.1, lastSet := (h.note r.2 c).1, imports := (h.note r.2 c).2 }

def start (psm : Psm) : History where
  psm := psm
  answer := none
  lastSet := fun _ => none
  imports := fun _ => 0

/-- What a call should do, none of its writes leaving a buffer. -/
structure Right (h : History) (c : Call) (h' : History) : Prop where
  returned : ∀ e size value, c = .get e size → h.lastSet e = some value → h'.answer = some value
  onlyUnset : ∀ e size, c = .get e size → h'.psm (record e) ≠ h.psm (record e) →
    h.psm (record e) = some noEndpoint ∧ h'.psm (record e) = oldHalf h.psm e
  once : ∀ e, h'.imports e ≤ 1
  others : ∀ e, e ≠ c.endpoint →
    h'.psm (record e) = h.psm (record e) ∧ oldHalf h'.psm e = oldHalf h.psm e

/-- The buffer of a read holds what was set and what is imported, and what stays of the
older record fits where it is put together. -/
def Fits (h : History) (c : Call) : Prop :=
  (∀ e size value, c = .get e size → h.lastSet e = some value →
    value.length < size ∧ value.length < 1024) ∧
  ∀ old, Spends h.psm c old → holdsHalf old c = true ∧ Room c.endpoint old

/-- An endpoint whose half of the older record can still be imported. -/
def Importable (psm : Psm) (e : End) : Prop :=
  ∃ old, oldEndpoints psm = some old ∧ holds e old = true

structure Settled (h : History) : Prop where
  set : ∀ e value, h.lastSet e = some value →
    h.psm (record e) = some value ∧ (value = noEndpoint → ¬ Importable h.psm e)
  once : ∀ e, h.imports e ≤ 1
  spent : ∀ e, h.imports e ≠ 0 → ¬ Importable h.psm e

section Runs

theorem settled_start : Settled (start psm) := by
  refine ⟨?_, fun e => Nat.zero_le 1, fun e h => absurd rfl h⟩
  intro e value h
  cases h

theorem spent_psm {psm : Psm} (hspends : Spends psm c old)
    (hroom : Room c.endpoint old) (hw : without c.endpoint old = some endpoints) (value : CStr) :
    let psm' := set (set psm (record c.endpoint) value) oldRecord endpoints.text
    psm' (record c.endpoint) = some value ∧
    (∀ e, e ≠ c.endpoint →
      psm' (record e) = psm (record e) ∧ oldHalf psm' e = oldHalf psm e) ∧
    (∀ e, Importable psm' e → e ≠ c.endpoint ∧ Importable psm e) := by
  intro psm'
  obtain ⟨t, ht, hlt, hspent, hhalves⟩ := (oldEndpoints_eq_some_iff _ _).mp hspends.1
  obtain ⟨endpoints', hw', hhalves'⟩ := without_room (halves_eq_some hhalves).2 hroom
  obtain rfl : endpoints = endpoints' := Option.some.inj (hw.symm.trans hw')
  have hold : psm' oldRecord = some endpoints.text := set_self _ _ _
  have hrecord : ∀ e, psm' (record e) = set psm (record c.endpoint) value (record e) := by
    intro e
    exact set_of_ne _ _ (record_ne e)
  refine ⟨?_, ?_, ?_⟩
  · rw [hrecord, set_self]
  · intro e he
    refine ⟨?_, ?_⟩
    · rw [hrecord, set_of_ne]
      intro heq
      exact he (record_injective heq)
    · rw [oldHalf, oldHalf, hold, ht, Option.bind_some, Option.bind_some, hhalves, hhalves',
        Option.map_some, Option.map_some, half_spent_of_ne he]
  · rintro e ⟨old', hold', hholds⟩
    obtain ⟨t', ht', -, -, hhalves''⟩ := (oldEndpoints_eq_some_iff _ _).mp hold'
    rw [hold] at ht'
    cases ht'
    rw [hhalves'] at hhalves''
    cases hhalves''
    have hne : e ≠ c.endpoint := by
      rintro rfl
      rw [holds_spent] at hholds
      cases hholds
    refine ⟨hne, old, hspends.1, ?_⟩
    rw [← hholds]
    exact (holds_congr (half_spent_of_ne hne old)).symm

variable {h : History}

theorem step_get_quiet {size : ℕ}
    (hquiet : ∀ old, ¬ Spends h.psm (.get e size) old) :
    step h (.get e size) = some { h with answer := GrePsmGetStr h.psm (record e) size } := by
  rw [step, call_quiet hquiet, Option.map_some, Option.some.injEq]
  simp only [History.note, if_true]

theorem step_set_quiet {value : CStr}
    (hquiet : ∀ old, ¬ Spends h.psm (.set e value) old) :
    step h (.set e value) = some
      { h with
        psm := set h.psm (record e) value, answer := none
        lastSet := Function.update h.lastSet e (some value) } := by
  rw [step, call_quiet hquiet, Option.map_some]
  rfl

theorem not_importable_set {psm : Psm} {value : CStr} :
    Importable (set psm (record e) value) e' ↔ Importable psm e' := by
  rw [Importable, Importable, oldEndpoints_set]

theorem oldHalf_set (e e' : End) (value : CStr) :
    oldHalf (set psm (record e) value) e' = oldHalf psm e' := by
  rw [oldHalf, oldHalf, set_of_ne psm value (Ne.symm (record_ne e))]

theorem lastSet_of_spends (hs : Settled h) {size : ℕ}
    (hspends : Spends h.psm (.get e size) old) : h.lastSet e = none := by
  cases hlast : h.lastSet e with
  | none => rfl
  | some value =>
    obtain ⟨hstored, hunset⟩ := hs.set e value hlast
    have hread := ((getStr_short (by decide)).mp hspends.2.2).1
    rw [hstored, Option.some.injEq] at hread
    exact absurd ⟨old, hspends.1, hspends.2.1⟩ (hunset hread)

theorem step_spends
    (hspends : Spends h.psm c old) (hholds : holdsHalf old c = true)
    (hw : without c.endpoint old = some endpoints) :
    let psm' := set (set h.psm (record c.endpoint) (given old c)) oldRecord endpoints.text
    step h c = some
      { psm := psm', answer := imported old c
        lastSet := (h.note psm' c).1, imports := (h.note psm' c).2 } := by
  intro psm'
  rw [step, call_spends hspends, if_pos hholds, hw, Option.map_some, Option.map_some]

theorem oldHalf_of_spends {psm : Psm} (h : Spends psm c old)
    (e : End) : oldHalf psm e = some (half e old) := by
  obtain ⟨t, ht, -, -, hhalves⟩ := (oldEndpoints_eq_some_iff _ _).mp h.1
  rw [oldHalf, ht, Option.bind_some, hhalves, Option.map_some]

theorem note_imports_le (h : History) (psm : Psm) (c : Call) :
    (h.note psm c).2 c.endpoint ≤ h.imports c.endpoint + 1 := by
  cases c with
  | set e value => exact Nat.le_succ _
  | get e size =>
    simp only [History.note, Call.endpoint]
    split
    · exact Nat.le_succ _
    · rw [Function.update_self]

theorem note_imports_of_ne (h : History) (psm : Psm)
    (he : e ≠ c.endpoint) : (h.note psm c).2 e = h.imports e := by
  cases c with
  | set e' value => rfl
  | get e' size =>
    simp only [History.note]
    split
    · rfl
    · exact Function.update_of_ne he _ _

theorem note_lastSet_of_ne (h : History) (psm : Psm)
    (he : e ≠ c.endpoint) : (h.note psm c).1 e = h.lastSet e := by
  cases c with
  | set e' value => exact Function.update_of_ne he _ _
  | get e' size => rfl

variable {h h' : History}

theorem right_of_spends (hs : Settled h)
    (hspends : Spends h.psm c old) (hholds : holdsHalf old c = true)
    (hroom : Room c.endpoint old) (hstep : step h c = some h') : Right h c h' ∧ Settled h' := by
  obtain ⟨t, -, -, -, hhalves⟩ := (oldEndpoints_eq_some_iff _ _).mp hspends.1
  obtain ⟨endpoints, hw, -⟩ := without_room (halves_eq_some hhalves).2 hroom
  obtain ⟨hself, hothers, hlater⟩ := spent_psm hspends hroom hw (given old c)
  have himportable : Importable h.psm c.endpoint := ⟨old, hspends.1, hspends.2.1⟩
  have hzero : h.imports c.endpoint = 0 := by
    by_contra hne
    exact hs.spent c.endpoint hne himportable
  rw [step_spends hspends hholds hw, Option.some.injEq] at hstep
  have hpsm := congrArg History.psm hstep
  have himports := congrArg History.imports hstep
  have hlastSet := congrArg History.lastSet hstep
  dsimp only at hpsm himports hlastSet
  rw [hpsm] at hself hothers hlater
  have honce : ∀ e, h'.imports e ≤ 1 := by
    intro e
    rw [← himports]
    by_cases he : e = c.endpoint
    · have hle := note_imports_le h h'.psm c
      rw [hzero] at hle
      rw [he, hpsm]
      exact hle
    · rw [note_imports_of_ne _ _ he]
      exact hs.once e
  have hlast : ∀ e value, h'.lastSet e = some value →
      h'.psm (record e) = some value ∧ (value = noEndpoint → ¬ Importable h'.psm e) := by
    intro e value hvalue
    rw [← hlastSet] at hvalue
    by_cases he : e = c.endpoint
    · refine ⟨?_, fun _ hlaterImport => (hlater e hlaterImport).1 he⟩
      subst he
      rw [hself, ← hvalue]
      cases c with
      | get e size =>
        change h.lastSet e = some value at hvalue
        rw [lastSet_of_spends hs hspends] at hvalue
        cases hvalue
      | set e value' => exact (Function.update_self e (some value') h.lastSet).symm
    · rw [note_lastSet_of_ne _ _ he] at hvalue
      obtain ⟨hstored, hunset⟩ := hs.set e value hvalue
      refine ⟨(hothers e he).1.trans hstored, fun hzero hlaterImport => ?_⟩
      exact hunset hzero (hlater e hlaterImport).2
  refine ⟨⟨?_, ?_, honce, hothers⟩, ⟨hlast, honce, ?_⟩⟩
  · rintro e size value rfl hvalue
    rw [lastSet_of_spends hs hspends] at hvalue
    cases hvalue
  · rintro e size rfl -
    exact ⟨((getStr_short (by decide)).mp hspends.2.2).1,
      hself.trans (oldHalf_of_spends hspends e).symm⟩
  · intro e hcount hlaterImport
    obtain ⟨hne, hbefore⟩ := hlater e hlaterImport
    rw [← himports, note_imports_of_ne _ _ hne] at hcount
    exact hs.spent e hcount hbefore

theorem room_of_right
    (hspends : Spends h.psm c old) (hstep : step h c = some h') (hright : Right h c h') :
    holdsHalf old c = true ∧ Room c.endpoint old := by
  rw [step, call_spends hspends, Option.map_eq_some_iff] at hstep
  obtain ⟨r, hr, rfl⟩ := hstep
  by_cases hholds : holdsHalf old c = true
  · rw [if_pos hholds, Option.map_eq_some_iff] at hr
    obtain ⟨endpoints, hw, rfl⟩ := hr
    refine ⟨hholds, ?_⟩
    by_contra hroom
    obtain ⟨e, he⟩ : ∃ e, e ≠ c.endpoint := by
      cases c.endpoint with
      | primary => exact ⟨.secondary, by decide⟩
      | secondary => exact ⟨.primary, by decide⟩
    have hkept := (hright.others e he).2
    rw [oldHalf_of_spends hspends, oldHalf] at hkept
    simp only [set_self, Option.bind_some] at hkept
    exact without_no_room he hroom hw hkept
  · rw [if_neg hholds] at hr
    cases hr

theorem does_step (hs : Settled h) (c : Call) :
    (∃ h', step h c = some h' ∧ Right h c h') ↔ Fits h c := by
  by_cases hquiet : ∀ old, ¬ Spends h.psm c old
  · cases c with
    | get e size =>
      rw [step_get_quiet hquiet]
      constructor
      · rintro ⟨h', hstep, hright⟩
        refine ⟨?_, fun old hold => absurd hold (hquiet old)⟩
        intro e' size' value heq hvalue
        cases heq
        have hanswer := hright.returned e size value rfl hvalue
        rw [← Option.some.inj hstep] at hanswer
        exact (getStr_eq_stored_iff (hs.set e value hvalue).1 size).mp hanswer
      · rintro ⟨hsize, -⟩
        refine ⟨_, rfl, ⟨?_, fun _ _ _ hne => absurd rfl hne, hs.once, fun _ _ => ⟨rfl, rfl⟩⟩⟩
        intro e' size' value heq hvalue
        cases heq
        exact (getStr_eq_stored_iff (hs.set e value hvalue).1 size).mpr
          (hsize e size value rfl hvalue)
    | set e value =>
      rw [step_set_quiet hquiet]
      constructor
      · intro _
        refine ⟨?_, fun old hold => absurd hold (hquiet old)⟩
        intro e' size value' heq
        cases heq
      · intro _
        refine ⟨_, rfl, ⟨?_, ?_, hs.once, ?_⟩⟩
        · intro e' size value' heq
          cases heq
        · intro e' size heq
          cases heq
        · intro e' he
          refine ⟨set_of_ne _ _ ?_, oldHalf_set _ _ _ _⟩
          intro heq
          exact he (record_injective heq)
  · obtain ⟨old, hspends⟩ := not_forall_not.mp hquiet
    constructor
    · rintro ⟨h', hstep, hright⟩
      refine ⟨?_, ?_⟩
      · rintro e size value rfl hvalue
        rw [lastSet_of_spends hs hspends] at hvalue
        cases hvalue
      · intro old' hold'
        obtain rfl : old = old' := Option.some.inj (hspends.1.symm.trans hold'.1)
        exact room_of_right hspends hstep hright
    · rintro ⟨-, hfits⟩
      obtain ⟨hholds, hroom⟩ := hfits old hspends
      obtain ⟨t, -, -, -, hhalves⟩ := (oldEndpoints_eq_some_iff _ _).mp hspends.1
      obtain ⟨endpoints, hw, -⟩ := without_room (halves_eq_some hhalves).2 hroom
      have hstep := step_spends hspends hholds hw
      exact ⟨_, hstep, (right_of_spends hs hspends hholds hroom hstep).1⟩

theorem settled_step (hs : Settled h) (hfits : Fits h c)
    (hstep : step h c = some h') : Settled h' := by
  by_cases hquiet : ∀ old, ¬ Spends h.psm c old
  · cases c with
    | get e size =>
      rw [step_get_quiet hquiet, Option.some.injEq] at hstep
      rw [← hstep]
      exact ⟨hs.set, hs.once, hs.spent⟩
    | set e value =>
      rw [step_set_quiet hquiet, Option.some.injEq] at hstep
      rw [← hstep]
      refine ⟨?_, hs.once, ?_⟩
      · intro e' value' hvalue
        change Function.update h.lastSet e (some value) e' = some value' at hvalue
        change set h.psm (record e) value (record e') = some value' ∧ (value' = noEndpoint →
          ¬ Importable (set h.psm (record e) value) e')
        rw [not_importable_set]
        by_cases he : e' = e
        · subst he
          rw [Function.update_self, Option.some.injEq] at hvalue
          refine ⟨by rw [set_self, hvalue], ?_⟩
          rintro rfl ⟨old, hold, hholds⟩
          exact hquiet old ⟨hold, hholds, hvalue⟩
        · rw [Function.update_of_ne he] at hvalue
          rw [set_of_ne _ _ fun heq => he (record_injective heq)]
          exact hs.set e' value' hvalue
      · intro e' hcount
        rw [not_importable_set]
        exact hs.spent e' hcount
  · obtain ⟨old, hspends⟩ := not_forall_not.mp hquiet
    obtain ⟨hholds, hroom⟩ := hfits.2 old hspends
    exact (right_of_spends hs hspends hholds hroom hstep).2

/-- Every call of a run does what it should exactly when everything fits at every call. -/
theorem endpoints_right_iff (psm : Psm) (calls : List Call) :
    Does step Right (start psm) calls ↔ StepsMeet step Fits (start psm) calls := by
  apply does_iff step Settled (fun h c hs _ => does_step hs c)
    (fun h c h' hs _ hfits hstep => settled_step hs hfits hstep) (settled_start psm)
  exact stepsMeet_true step (start psm) calls

def twoHosts : Psm :=
  set (set (set (fun _ => none) (record .primary) noEndpoint) (record .secondary) noEndpoint)
    oldRecord "gre1.lab.net,gre2-endpoint.hotspot-tunnels.region-e.example.net".toList

/-- Importing the first host cuts the name of the second. -/
theorem second_host_cut : ¬ Does step Right (start twoHosts) [.get .primary 64] := by
  rintro ⟨h', hstep, hright, -⟩
  have hfits := (does_step (settled_start twoHosts) _).mp ⟨h', hstep, hright⟩
  have hspends : Spends twoHosts (.get .primary 64)
      ("gre1.lab.net".toList, "gre2-endpoint.hotspot-tunnels.region-e.example.net".toList) :=
    ⟨by decide, by decide, by decide⟩
  exact absurd (hfits.2 _ hspends).2 (by decide : ¬ 50 < 50)

end Runs

end CcspPandM.GreEndpoints
