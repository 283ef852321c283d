import CcspPandM.CString
import CcspPandM.Runs
import CcspPandM.TicketQueue

/-!
Changes of the LAN mode and the threads that tell them to WiFi, in any order of
their steps. A request draws a ticket in `configBridgeMode` and then creates the
task of its notifier; a notifier waits for its ticket, reads the stored mode,
sends the values and moves `curticket` on. A ticket whose task is not created
keeps all notifiers behind it waiting.
-/
namespace CcspPandM.BridgeModeNotifiers

open CString Runs TicketQueue

section Code

inductive COSA_DML_LanMode where
  | BridgeDHCP
  | BridgeStatic
  | Router
  | FullBridgeStatic
  deriving DecidableEq

inductive BRIDGE_MODE where
  | OFF
  | STATIC
  | FULL_STATIC
  deriving DecidableEq

/-- The mode that `CosaDmlLanMngm_SetConf` stores. -/
def modeOf : COSA_DML_LanMode → BRIDGE_MODE
  | .BridgeStatic => .STATIC
  | .FullBridgeStatic => .FULL_STATIC
  | .Router => .OFF
  | .BridgeDHCP => .OFF

/-- The mode that `_Get_LanMngm_Setting` reads. -/
def lanModeOf : BRIDGE_MODE → COSA_DML_LanMode
  | .STATIC => .BridgeStatic
  | .FULL_STATIC => .FullBridgeStatic
  | .OFF => .Router

def acSetRadioString : BRIDGE_MODE → CStr
  | .STATIC => "true".toList
  | .FULL_STATIC => "false".toList
  | .OFF => "true".toList

def acSetSSIDString : BRIDGE_MODE → CStr
  | .STATIC => "false".toList
  | .FULL_STATIC => "false".toList
  | .OFF => "true".toList

/-- The radio values; the last one is left out where there are fewer than three radios. -/
def val (ulNumOfEntries : ℤ) (value : CStr) : List (CStr × CStr) :=
  let names := ["Device.WiFi.Radio.1.Enable".toList, "Device.WiFi.Radio.2.Enable".toList,
    "Device.WiFi.SSID.3.Enable".toList, "Device.WiFi.Radio.3.Enable".toList]
  (names.take (if ulNumOfEntries < 3 then 3 else 4)).map fun name => (name, value)

def val2 (ulNumOfEntries : ℤ) (value : CStr) : List (CStr × CStr) :=
  let names := ["Device.WiFi.SSID.1.Enable".toList, "Device.WiFi.SSID.2.Enable".toList,
    "Device.WiFi.SSID.17.Enable".toList]
  (names.take (if ulNumOfEntries < 3 then 2 else 3)).map fun name => (name, value)

/-- How far a call of `CosaDmlLanMngm_SetConf` or `CosaDmlDcSetErouterEnabled` has come. -/
inductive Request where
  | setConf (LanMode orgLanMode : COSA_DML_LanMode)
  | configBridgeMode
  | component
  | drawn (ticket : ℕ)
  | returned

inductive Phase where
  | waiting
  | checked
  | read (mode : BRIDGE_MODE) (ulNumOfEntries : ℤ)
  | sentRadio (mode : BRIDGE_MODE) (ulNumOfEntries : ℤ)
  | sentSSID (mode : BRIDGE_MODE) (ulNumOfEntries : ℤ)
  | done

structure Notifier where
  ticket : ℕ
  phase : Phase

/-- The store, the counters, the calls and threads, and the values last sent. `passed` records the
tickets that passed `checkTicket`, and `notified` that a notifier was created since the stored
mode was changed. -/
structure State where
  bridge_mode : BRIDGE_MODE
  totalticket : ℕ
  curticket : ℕ
  ppComponents : Bool
  requests : List Request
  notifiers : List Notifier
  radio : Option (List (CStr × CStr))
  ssid : Option (List (CStr × CStr))
  passed : List ℕ
  notified : Bool

inductive Step where
  | setConf (LanMode : COSA_DML_LanMode)
  | setErouterEnabled
  | store (i : ℕ)
  | lookup (i : ℕ) (found : Bool)
  | draw (i : ℕ)
  | create (i : ℕ) (made : Bool)
  | checkTicket (i : ℕ)
  | readMode (i : ℕ) (ulNumOfEntries : ℤ)
  | sendRadio (i : ℕ)
  | sendSSID (i : ℕ)
  | release (i : ℕ)

/-- One step of a call or a thread. A counter that is at the largest `int` has no next value. -/
def step (s : State) : Step → Option State
  | .setConf LanMode =>
    some { s with requests := s.requests ++ [.setConf LanMode (lanModeOf s.bridge_mode)] }
  | .setErouterEnabled => some { s with requests := s.requests ++ [.configBridgeMode] }
  | .store i =>
    match s.requests[i]? with
    | some (.setConf LanMode orgLanMode) =>
      some
        { s with
          bridge_mode := modeOf LanMode
          requests := s.requests.set i
            (if LanMode = orgLanMode then .returned else .configBridgeMode)
          notified := s.notified && modeOf LanMode = s.bridge_mode }
    | _ => none
  | .lookup i found =>
    match s.requests[i]? with
    | some .configBridgeMode =>
      if s.ppComponents || found then
        some { s with ppComponents := true, requests := s.requests.set i .component }
      else some { s with requests := s.requests.set i .returned }
    | _ => none
  | .draw i =>
    match s.requests[i]? with
    | some .component =>
      if s.totalticket + 1 < 2 ^ 31 then
        some
          { s with
            totalticket := s.totalticket + 1
            requests := s.requests.set i (.drawn (s.totalticket + 1)) }
      else none
    | _ => none
  | .create i made =>
    match s.requests[i]? with
    | some (.drawn ticket) =>
      if made then
        some
          { s with
            requests := s.requests.set i .returned
            notifiers := s.notifiers ++ [⟨ticket, .waiting⟩]
            notified := true }
      else some { s with requests := s.requests.set i .returned }
    | _ => none
  | .checkTicket i =>
    match s.notifiers[i]? with
    | some ⟨ticket, .waiting⟩ =>
      if ticket = s.curticket then
        some
          { s with
            notifiers := s.notifiers.set i ⟨ticket, .checked⟩
            passed := s.passed ++ [ticket] }
      else none
    | _ => none
  | .readMode i ulNumOfEntries =>
    match s.notifiers[i]? with
    | some ⟨ticket, .checked⟩ =>
      some { s with notifiers := s.notifiers.set i ⟨ticket, .read s.bridge_mode ulNumOfEntries⟩ }
    | _ => none
  | .sendRadio i =>
    match s.notifiers[i]? with
    | some ⟨ticket, .read mode n⟩ =>
      some
        { s with
          notifiers := s.notifiers.set i ⟨ticket, .sentRadio mode n⟩
          radio := some (val n (acSetRadioString mode)) }
    | _ => none
  | .sendSSID i =>
    match s.notifiers[i]? with
    | some ⟨ticket, .sentRadio mode n⟩ =>
      some
        { s with
          notifiers := s.notifiers.set i ⟨ticket, .sentSSID mode n⟩
          ssid := some (val2 n (acSetSSIDString mode)) }
    | _ => none
  | .release i =>
    match s.notifiers[i]? with
    | some ⟨ticket, .sentSSID _ _⟩ =>
      if s.curticket + 1 < 2 ^ 31 then
        some
          { s with
            curticket := s.curticket + 1
            notifiers := s.notifiers.set i ⟨ticket, .done⟩ }
      else none
    | _ => none

def start (bridge_mode : BRIDGE_MODE) (ppComponents : Bool) : State where
  bridge_mode := bridge_mode
  totalticket := 0
  curticket := 1
  ppComponents := ppComponents
  requests := []
  notifiers := []
  radio := none
  ssid := none
  passed := []
  notified := false

end Code

section Purpose

/-- The call or thread stands before this step. -/
def Enabled (s : State) : Step → Prop
  | .setConf _ => True
  | .setErouterEnabled => True
  | .store i => ∃ LanMode orgLanMode, s.requests[i]? = some (.setConf LanMode orgLanMode)
  | .lookup i _ => s.requests[i]? = some .configBridgeMode
  | .draw i => s.requests[i]? = some .component
  | .create i _ => ∃ ticket, s.requests[i]? = some (.drawn ticket)
  | .checkTicket i => s.notifiers[i]? = some ⟨s.curticket, .waiting⟩
  | .readMode i _ => ∃ ticket, s.notifiers[i]? = some ⟨ticket, .checked⟩
  | .sendRadio i => ∃ ticket mode n, s.notifiers[i]? = some ⟨ticket, .read mode n⟩
  | .sendSSID i => ∃ ticket mode n, s.notifiers[i]? = some ⟨ticket, .sentRadio mode n⟩
  | .release i => ∃ ticket mode n, s.notifiers[i]? = some ⟨ticket, .sentSSID mode n⟩

def kindOf : Phase → Kind
  | .waiting => .waiting
  | .done => .done
  | _ => .running

/-- The notifier is between `checkTicket` and its `curticket++`. -/
def Notifier.Between (n : Notifier) : Prop := kindOf n.phase = .running

/-- WiFi was last sent the values of the stored mode. -/
def Sent (s : State) : Prop :=
  ∃ n n', s.radio = some (val n (acSetRadioString s.bridge_mode)) ∧
    s.ssid = some (val2 n' (acSetSSIDString s.bridge_mode))

structure Good (s : State) : Prop where
  exclusive : ∀ (i j : ℕ) (n n' : Notifier), s.notifiers[i]? = some n →
    s.notifiers[j]? = some n' → n.Between → n'.Between → i = j
  ordered : s.passed.Pairwise (· < ·)
  progress : (∃ n ∈ s.notifiers, n.phase = .waiting) → (∀ n ∈ s.notifiers, ¬ n.Between) →
    ∃ n ∈ s.notifiers, n.phase = .waiting ∧ n.ticket = s.curticket
  sent : s.notified = true → (∀ n ∈ s.notifiers, n.phase = .done) → Sent s

/-- A task is created only once those of all tickets before its own are, as far as these are still
due, and the tickets stay below the largest `int`. -/
def Fits (s : State) : Step → Prop
  | .draw _ => s.totalticket + 2 < 2 ^ 31
  | .create i true => ∀ ticket, s.requests[i]? = some (.drawn ticket) →
      ∀ k, s.curticket ≤ k → k < ticket → ∃ n ∈ s.notifiers, n.ticket = k
  | _ => True

end Purpose

variable {n : Notifier} {i : ℕ}

section Queues

def holds : Request → Option ℕ
  | .drawn ticket => some ticket
  | _ => none

def view (n : Notifier) : ℕ × Kind := (n.ticket, kindOf n.phase)

def queueOf (s : State) : Queue where
  total := s.totalticket
  cur := s.curticket
  drawn := s.requests.map holds
  tasks := s.notifiers.map view
  passed := s.passed

def moveOf : Step → Option Move
  | .setConf _ => some .enter
  | .setErouterEnabled => some .enter
  | .draw i => some (.draw i)
  | .create i made => some (if made then .start i else .drop i)
  | .checkTicket i => some (.pass i)
  | .release i => some (.finish i)
  | _ => none

variable {s t : State}

theorem map_set_same {α β : Type*} {f : α → β} {l : List α} {a a' : α} (hi : l[i]? = some a)
    (hf : f a' = f a) : (l.set i a').map f = l.map f := by
  apply List.ext_getElem?
  intro j
  rw [List.getElem?_map, List.getElem?_map]
  by_cases hj : j = i
  · subst hj
    rw [List.getElem?_set_self (List.getElem?_eq_some_iff.mp hi).1, hi, Option.map_some,
      Option.map_some, hf]
  · rw [List.getElem?_set_ne (Ne.symm hj)]

theorem holds_request {r : Request} (hi : s.requests[i]? = some r) :
    (queueOf s).drawn[i]? = some (holds r) := by
  rw [queueOf, List.getElem?_map, hi]
  rfl

theorem task_notifier (hi : s.notifiers[i]? = some n) :
    (queueOf s).Task i n.ticket (kindOf n.phase) := by
  rw [Queue.Task, queueOf, List.getElem?_map, hi]
  rfl

theorem exists_notifier {i k : ℕ} {c : Kind} (hi : (queueOf s).Task i k c) :
    ∃ n, s.notifiers[i]? = some n ∧ n.ticket = k ∧ kindOf n.phase = c := by
  rw [Queue.Task, queueOf, List.getElem?_map] at hi
  obtain ⟨n, hn, heq⟩ := Option.map_eq_some_iff.mp hi
  obtain ⟨hk, hc⟩ := Prod.mk.inj heq
  exact ⟨n, hn, hk, hc⟩

theorem move_step {a : Step} (ht : step s a = some t) :
    match moveOf a with
    | some m => move (queueOf s) m = some (queueOf t)
    | none => queueOf t = queueOf s := by
  cases a with
  | setConf LanMode =>
    rw [← Option.some.inj ht]
    simp [moveOf, move, queueOf, holds]
  | setErouterEnabled =>
    rw [← Option.some.inj ht]
    simp [moveOf, move, queueOf, holds]
  | store i =>
    simp only [step] at ht
    split at ht
    · next LanMode orgLanMode hi =>
      rw [← Option.some.inj ht]
      have hsame : holds (if LanMode = orgLanMode then .returned else .configBridgeMode) =
          holds (.setConf LanMode orgLanMode) := by
        split <;> rfl
      simp only [moveOf, queueOf, map_set_same hi hsame]
    · cases ht
  | lookup i found =>
    simp only [step] at ht
    split at ht
    · next hi =>
      split at ht
      · have hsame := map_set_same hi (show holds .component = holds .configBridgeMode from rfl)
        rw [← Option.some.inj ht]
        simp only [moveOf, queueOf, hsame]
      · have hsame := map_set_same hi (show holds .returned = holds .configBridgeMode from rfl)
        rw [← Option.some.inj ht]
        simp only [moveOf, queueOf, hsame]
    · cases ht
  | draw i =>
    simp only [step] at ht
    split at ht
    · next hi =>
      split at ht
      · rw [← Option.some.inj ht]
        simp only [moveOf, move, holds_request hi, holds]
        simp only [queueOf, List.map_set, holds]
      · cases ht
    · cases ht
  | create i made =>
    simp only [step] at ht
    split at ht
    · next ticket hi =>
      cases made with
      | true =>
        rw [if_pos rfl] at ht
        rw [← Option.some.inj ht]
        simp only [moveOf, if_true, move, holds_request hi, holds]
        simp only [queueOf, List.map_set, holds, List.map_append, List.map_cons, List.map_nil,
          view, kindOf]
      | false =>
        rw [if_neg Bool.false_ne_true] at ht
        rw [← Option.some.inj ht]
        simp only [moveOf, if_neg Bool.false_ne_true, move, holds_request hi, holds]
        simp only [queueOf, List.map_set, holds]
    · cases ht
  | checkTicket i =>
    simp only [step] at ht
    split at ht
    · next ticket hi =>
      split at ht
      · next hk =>
        have htask : (queueOf s).tasks[i]? = some (ticket, Kind.waiting) := task_notifier hi
        rw [← Option.some.inj ht]
        simp only [moveOf, move, htask]
        rw [if_pos (show ticket = (queueOf s).cur from hk)]
        simp only [queueOf, List.map_set, view, kindOf]
      · cases ht
    · cases ht
  | readMode i n =>
    simp only [step] at ht
    split at ht
    · next ticket hi =>
      have hview : view ⟨ticket, .read s.bridge_mode n⟩ = view ⟨ticket, .checked⟩ := rfl
      have hsame := map_set_same hi hview
      rw [← Option.some.inj ht]
      simp only [moveOf, queueOf, hsame]
    · cases ht
  | sendRadio i =>
    simp only [step] at ht
    split at ht
    · next ticket mode n hi =>
      have hview : view ⟨ticket, .sentRadio mode n⟩ = view ⟨ticket, .read mode n⟩ := rfl
      have hsame := map_set_same hi hview
      rw [← Option.some.inj ht]
      simp only [moveOf, queueOf, hsame]
    · cases ht
  | sendSSID i =>
    simp only [step] at ht
    split at ht
    · next ticket mode n hi =>
      have hview : view ⟨ticket, .sentSSID mode n⟩ = view ⟨ticket, .sentRadio mode n⟩ := rfl
      have hsame := map_set_same hi hview
      rw [← Option.some.inj ht]
      simp only [moveOf, queueOf, hsame]
    · cases ht
  | release i =>
    simp only [step] at ht
    split at ht
    · next ticket mode n hi =>
      split at ht
      · have htask : (queueOf s).tasks[i]? = some (ticket, Kind.running) := task_notifier hi
        rw [← Option.some.inj ht]
        simp only [moveOf, move, htask]
        simp only [queueOf, List.map_set, view, kindOf]
      · cases ht
    · cases ht

end Queues

section Freshness

/-- The notifier has still to send the values of the stored mode, or has sent them so far. -/
def Pending (s : State) (n : Notifier) : Prop :=
  match n.phase with
  | .waiting => True
  | .checked => True
  | .read mode _ => mode = s.bridge_mode
  | .sentRadio mode c => mode = s.bridge_mode ∧ s.radio = some (val c (acSetRadioString mode))
  | .sentSSID mode c => mode = s.bridge_mode ∧
      (∃ c', s.radio = some (val c' (acSetRadioString mode))) ∧
      s.ssid = some (val2 c (acSetSSIDString mode))
  | .done => False

def Fresh (s : State) : Prop :=
  s.notified = true →
    (∃ (i : ℕ) (n : Notifier), s.notifiers[i]? = some n ∧ Pending s n) ∨
    ((∀ n ∈ s.notifiers, n.phase = .done) ∧ Sent s)

variable {s t : State}

theorem pending_waiting (hn : n.phase = .waiting) : Pending s n := by
  rw [Pending, hn]
  trivial

theorem between_iff : n.Between ↔ n.phase ≠ .waiting ∧ n.phase ≠ .done := by
  rw [Notifier.Between]
  cases n.phase <;> simp [kindOf]

variable {n n' : Notifier}

theorem between_inj (h : Sound (queueOf s)) {i j : ℕ}
    (hi : s.notifiers[i]? = some n) (hj : s.notifiers[j]? = some n') (hn : n.Between)
    (hn' : n'.Between) : i = j := by
  have htask := task_notifier hi
  have htask' := task_notifier hj
  rw [Notifier.Between] at hn hn'
  rw [hn] at htask
  rw [hn'] at htask'
  exact h.exclusive htask htask'

theorem waiting_of_pending (h : Sound (queueOf s)) {i j : ℕ}
    (hi : s.notifiers[i]? = some n) (hn : n.Between) (hj : s.notifiers[j]? = some n')
    (hne : j ≠ i) (hpending : Pending s n') : n'.phase = .waiting := by
  by_contra hwaiting
  have hdone : n'.phase ≠ .done := by
    intro hdone
    rw [Pending, hdone] at hpending
    exact hpending
  exact hne (between_inj h hj hi (between_iff.mpr ⟨hwaiting, hdone⟩) hn)

theorem fresh_same (h : Fresh s) (hmode : t.bridge_mode = s.bridge_mode)
    (hnotifiers : t.notifiers = s.notifiers) (hradio : t.radio = s.radio) (hssid : t.ssid = s.ssid)
    (hnotified : t.notified = true → s.notified = true) : Fresh t := by
  intro ht
  rcases h (hnotified ht) with ⟨i, n, hi, hn⟩ | ⟨hdone, hsent⟩
  · left
    refine ⟨i, n, by rw [hnotifiers]; exact hi, ?_⟩
    rw [Pending] at hn ⊢
    rw [hmode, hradio, hssid]
    exact hn
  · right
    refine ⟨by rw [hnotifiers]; exact hdone, ?_⟩
    rw [Sent] at hsent ⊢
    rw [hmode, hradio, hssid]
    exact hsent

theorem fresh_of_pending (hi : t.notifiers[i]? = some n)
    (hn : Pending t n) : Fresh t := fun _ => Or.inl ⟨i, n, hi, hn⟩

theorem fresh_advance (h : Sound (queueOf s)) (hfresh : Fresh s)
    (hi : s.notifiers[i]? = some n) (hn : n.Between)
    (hnotifiers : t.notifiers = s.notifiers.set i n') (hnotified : t.notified = s.notified)
    (hpending : Pending s n → Pending t n') : Fresh t := by
  intro ht
  rw [hnotified] at ht
  left
  rw [hnotifiers]
  rcases hfresh ht with ⟨j, p, hj, hp⟩ | ⟨hdone, -⟩
  · by_cases hji : j = i
    · subst hji
      obtain rfl := Option.some.inj (hi.symm.trans hj)
      exact ⟨j, n', (getElem?_set_iff hi).mpr (Or.inl ⟨rfl, rfl⟩), hpending hp⟩
    · have hwaiting := waiting_of_pending h hi hn hj hji hp
      exact ⟨j, p, (getElem?_set_iff hi).mpr (Or.inr ⟨hji, hj⟩), pending_waiting hwaiting⟩
  · have hphase := hdone n (List.mem_of_getElem? hi)
    rw [Notifier.Between, hphase] at hn
    cases hn

theorem fresh_release (h : Sound (queueOf s)) (hfresh : Fresh s) {i ticket : ℕ}
    {mode : BRIDGE_MODE} {c : ℤ} (hi : s.notifiers[i]? = some ⟨ticket, .sentSSID mode c⟩)
    (hnotifiers : t.notifiers = s.notifiers.set i ⟨ticket, .done⟩)
    (hnotified : t.notified = s.notified) (hmode : t.bridge_mode = s.bridge_mode)
    (hradio : t.radio = s.radio) (hssid : t.ssid = s.ssid) : Fresh t := by
  intro ht
  rw [hnotified] at ht
  have hbetween : Notifier.Between ⟨ticket, .sentSSID mode c⟩ := rfl
  by_cases hothers : ∃ j n, s.notifiers[j]? = some n ∧ j ≠ i ∧ n.phase = .waiting
  · obtain ⟨j, n, hj, hji, hn⟩ := hothers
    left
    rw [hnotifiers]
    exact ⟨j, n, (getElem?_set_iff hi).mpr (Or.inr ⟨hji, hj⟩), pending_waiting hn⟩
  right
  -- with no other one waiting, the notifier that ends is the pending one
  rcases hfresh ht with ⟨j, p, hj, hp⟩ | ⟨hdone, -⟩
  · by_cases hji : j = i
    · subst hji
      obtain rfl := Option.some.inj (hi.symm.trans hj)
      obtain ⟨rfl, ⟨c', hsentRadio⟩, hsentSSID⟩ := hp
      refine ⟨?_, c', c, ?_, ?_⟩
      · intro n hn
        rw [hnotifiers] at hn
        obtain ⟨k, hk⟩ := List.mem_iff_getElem?.mp hn
        rcases (getElem?_set_iff hi).mp hk with ⟨-, rfl⟩ | ⟨hkj, hold⟩
        · rfl
        · by_contra hdone
          have hwaiting : n.phase ≠ .waiting := fun hw => hothers ⟨k, n, hold, hkj, hw⟩
          have hn' : n.Between := between_iff.mpr ⟨hwaiting, hdone⟩
          exact hkj (between_inj h hold hi hn' hbetween)
      · rw [hradio, hmode, hsentRadio]
      · rw [hssid, hmode, hsentSSID]
    · have hwaiting := waiting_of_pending h hi hbetween hj hji hp
      exact absurd ⟨j, p, hj, hji, hwaiting⟩ hothers
  · have hphase := hdone _ (List.mem_of_getElem? hi)
    cases hphase

end Freshness

section Runs

structure Inv (s : State) : Prop where
  sound : Sound (queueOf s)
  closed : Closed (queueOf s)
  fresh : Fresh s
  bound : s.totalticket + 1 < 2 ^ 31

variable {s t : State} {a : Step}

theorem inv_start (bridge_mode : BRIDGE_MODE) (ppComponents : Bool) :
    Inv (start bridge_mode ppComponents) where
  sound := sound_empty
  closed := closed_empty
  fresh := nofun
  bound := by
    change 0 + 1 < 2 ^ 31
    omega

theorem Inv.good (h : Inv s) : Good s where
  exclusive := fun _ _ _ _ hi hj hn hn' => between_inj h.sound hi hj hn hn'
  ordered := h.sound.passed_lt
  progress := by
    rintro ⟨n, hn, hwaiting⟩ hnone
    obtain ⟨i, hi⟩ := List.mem_iff_getElem?.mp hn
    have htask := task_notifier hi
    rw [hwaiting] at htask
    have hidle : ∀ j k, ¬ (queueOf s).Task j k .running := by
      intro j k hj
      obtain ⟨n', hn', -, hrunning⟩ := exists_notifier hj
      exact hnone n' (List.mem_of_getElem? hn') hrunning
    obtain ⟨j, hj⟩ := h.sound.progress h.closed htask hidle
    obtain ⟨n', hn', hticket, hkind⟩ := exists_notifier hj
    refine ⟨n', List.mem_of_getElem? hn', ?_, hticket⟩
    cases hphase : n'.phase with
    | waiting => rfl
    | _ =>
      rw [hphase] at hkind
      cases hkind
  sent := by
    intro hnotified hdone
    rcases h.fresh hnotified with ⟨i, n, hi, hn⟩ | ⟨-, hsent⟩
    · rw [Pending, hdone n (List.mem_of_getElem? hi)] at hn
      exact absurd hn id
    · exact hsent

theorem inOrder_of_fits (hfits : Fits s a) {m : Move} (hm : moveOf a = some m) :
    InOrder (queueOf s) m := by
  cases a with
  | create i made =>
    obtain rfl := Option.some.inj hm
    cases made with
    | false => trivial
    | true =>
      intro k hk k' hle hlt
      rw [Queue.Holds, queueOf, List.getElem?_map] at hk
      obtain ⟨r, hr, hholds⟩ := Option.map_eq_some_iff.mp hk
      cases r with
      | drawn ticket =>
        obtain rfl := Option.some.inj hholds
        obtain ⟨n, hn, rfl⟩ := hfits ticket hr k' hle hlt
        obtain ⟨j, hj⟩ := List.mem_iff_getElem?.mp hn
        exact ⟨j, kindOf n.phase, task_notifier hj⟩
      | _ => cases hholds
  | setConf LanMode =>
    obtain rfl := Option.some.inj hm
    trivial
  | setErouterEnabled =>
    obtain rfl := Option.some.inj hm
    trivial
  | draw i =>
    obtain rfl := Option.some.inj hm
    trivial
  | checkTicket i =>
    obtain rfl := Option.some.inj hm
    trivial
  | release i =>
    obtain rfl := Option.some.inj hm
    trivial
  | _ => cases hm

theorem step_defined (h : Inv s) (ha : Enabled s a) (hfits : Fits s a) :
    ∃ t, step s a = some t := by
  cases a with
  | setConf LanMode => exact ⟨_, rfl⟩
  | setErouterEnabled => exact ⟨_, rfl⟩
  | store i =>
    obtain ⟨LanMode, orgLanMode, hi⟩ := ha
    rw [step, hi]
    exact ⟨_, rfl⟩
  | lookup i found =>
    have hi : s.requests[i]? = some .configBridgeMode := ha
    simp only [step, hi]
    split
    · exact ⟨_, rfl⟩
    · exact ⟨_, rfl⟩
  | draw i =>
    have hi : s.requests[i]? = some .component := ha
    simp only [step, hi]
    rw [if_pos h.bound]
    exact ⟨_, rfl⟩
  | create i made =>
    obtain ⟨ticket, hi⟩ := ha
    simp only [step, hi]
    split
    · exact ⟨_, rfl⟩
    · exact ⟨_, rfl⟩
  | checkTicket i =>
    have hi : s.notifiers[i]? = some ⟨s.curticket, .waiting⟩ := ha
    simp only [step, hi]
    rw [if_pos trivial]
    exact ⟨_, rfl⟩
  | readMode i n =>
    obtain ⟨ticket, hi⟩ := ha
    simp only [step, hi]
    exact ⟨_, rfl⟩
  | sendRadio i =>
    obtain ⟨ticket, mode, n, hi⟩ := ha
    simp only [step, hi]
    exact ⟨_, rfl⟩
  | sendSSID i =>
    obtain ⟨ticket, mode, n, hi⟩ := ha
    simp only [step, hi]
    exact ⟨_, rfl⟩
  | release i =>
    obtain ⟨ticket, mode, n, hi⟩ := ha
    have htask := task_notifier hi
    have hdue := h.sound.running i ticket htask
    have hle := h.sound.task_le i ticket _ htask
    have hbound : s.curticket + 1 < 2 ^ 31 := by
      have htotal := h.bound
      change ticket = s.curticket at hdue
      change ticket ≤ s.totalticket at hle
      omega
    simp only [step, hi]
    rw [if_pos hbound]
    exact ⟨_, rfl⟩

theorem fresh_step (h : Inv s) (ht : step s a = some t) : Fresh t := by
  cases a with
  | setConf LanMode =>
    rw [← Option.some.inj ht]
    exact fresh_same h.fresh rfl rfl rfl rfl id
  | setErouterEnabled =>
    rw [← Option.some.inj ht]
    exact fresh_same h.fresh rfl rfl rfl rfl id
  | store i =>
    simp only [step] at ht
    split at ht
    · next LanMode orgLanMode hi =>
      rw [← Option.some.inj ht]
      -- a change of the stored mode leaves nothing to show
      by_cases hmode : modeOf LanMode = s.bridge_mode
      · exact fresh_same h.fresh hmode rfl rfl rfl fun hn => (Bool.and_eq_true_iff.mp hn).1
      · intro hn
        exact absurd (of_decide_eq_true (Bool.and_eq_true_iff.mp hn).2) hmode
    · cases ht
  | lookup i found =>
    simp only [step] at ht
    split at ht
    · split at ht
      · rw [← Option.some.inj ht]
        exact fresh_same h.fresh rfl rfl rfl rfl id
      · rw [← Option.some.inj ht]
        exact fresh_same h.fresh rfl rfl rfl rfl id
    · cases ht
  | draw i =>
    simp only [step] at ht
    split at ht
    · split at ht
      · rw [← Option.some.inj ht]
        exact fresh_same h.fresh rfl rfl rfl rfl id
      · cases ht
    · cases ht
  | create i made =>
    simp only [step] at ht
    split at ht
    · next ticket hi =>
      split at ht
      · rw [← Option.some.inj ht]
        exact fresh_of_pending (getElem?_concat_iff.mpr (Or.inr ⟨rfl, rfl⟩)) (pending_waiting rfl)
      · rw [← Option.some.inj ht]
        exact fresh_same h.fresh rfl rfl rfl rfl id
    · cases ht
  | checkTicket i =>
    simp only [step] at ht
    split at ht
    · next ticket hi =>
      split at ht
      · rw [← Option.some.inj ht]
        exact fresh_of_pending ((getElem?_set_iff hi).mpr (Or.inl ⟨rfl, rfl⟩)) trivial
      · cases ht
    · cases ht
  | readMode i n =>
    simp only [step] at ht
    split at ht
    · next ticket hi =>
      rw [← Option.some.inj ht]
      exact fresh_of_pending ((getElem?_set_iff hi).mpr (Or.inl ⟨rfl, rfl⟩)) rfl
    · cases ht
  | sendRadio i =>
    simp only [step] at ht
    split at ht
    · next ticket mode n hi =>
      rw [← Option.some.inj ht]
      exact fresh_advance h.sound h.fresh hi rfl rfl rfl fun hmode => ⟨hmode, rfl⟩
    · cases ht
  | sendSSID i =>
    simp only [step] at ht
    split at ht
    · next ticket mode n hi =>
      rw [← Option.some.inj ht]
      refine fresh_advance h.sound h.fresh hi rfl rfl rfl ?_
      rintro ⟨hmode, hradio⟩
      exact ⟨hmode, ⟨n, hradio⟩, rfl⟩
    · cases ht
  | release i =>
    simp only [step] at ht
    split at ht
    · next ticket mode n hi =>
      split at ht
      · rw [← Option.some.inj ht]
        exact fresh_release h.sound h.fresh hi rfl rfl rfl rfl rfl
      · cases ht
    · cases ht

theorem inv_step (h : Inv s) (hfits : Fits s a) (ht : step s a = some t) : Inv t := by
  have hmove := move_step ht
  cases hm : moveOf a with
  | none =>
    rw [hm] at hmove
    have hqueue : queueOf t = queueOf s := hmove
    refine ⟨by rw [hqueue]; exact h.sound, by rw [hqueue]; exact h.closed, fresh_step h ht, ?_⟩
    have htotal : t.totalticket = s.totalticket := congrArg Queue.total hqueue
    rw [htotal]
    exact h.bound
  | some m =>
    rw [hm] at hmove
    have hqueue : move (queueOf s) m = some (queueOf t) := hmove
    refine ⟨sound_move h.sound hqueue, closed_move h.closed (inOrder_of_fits hfits hm) hqueue,
      fresh_step h ht, ?_⟩
    have hbound := h.bound
    rcases total_move hqueue with htotal | ⟨⟨i, rfl⟩, htotal⟩
    · change t.totalticket = s.totalticket at htotal
      omega
    · change t.totalticket = s.totalticket + 1 at htotal
      cases a with
      | draw j =>
        have hlast : s.totalticket + 2 < 2 ^ 31 := hfits
        omega
      | create j made => cases made <;> cases hm
      | _ => cases hm

/-- If tasks are created in the order of their tickets, with none left out while a later one is
created, every state of the run is as it should be. -/
theorem notifiers_in_order (bridge_mode : BRIDGE_MODE) (ppComponents : Bool) (ops : List Step)
    (henabled : StepsMeet step Enabled (start bridge_mode ppComponents) ops)
    (hfits : StepsMeet step Fits (start bridge_mode ppComponents) ops) :
    Throughout step Good (start bridge_mode ppComponents) ops := by
  apply throughout_of_stepsMeet step Inv _ _ (inv_start bridge_mode ppComponents)
    (henabled.and step hfits)
  · exact fun s h => h.good
  · intro s a h ha
    obtain ⟨t, ht⟩ := step_defined h ha.1 ha.2
    exact ⟨t, ht, inv_step h ha.2 ht⟩

def modeChange : List Step :=
  [.setConf .BridgeStatic, .store 0, .lookup 0 true, .draw 0, .create 0 true, .checkTicket 0,
    .readMode 0 3, .sendRadio 0, .sendSSID 0, .release 0]

theorem notifiers_in_order_modeChange : Throughout step Good (start .OFF true) modeChange := by
  apply notifiers_in_order .OFF true modeChange
  · apply stepsMeet_cons step trivial rfl
    apply stepsMeet_cons step ⟨.BridgeStatic, .Router, rfl⟩ rfl
    apply stepsMeet_cons step rfl rfl
    apply stepsMeet_cons step rfl rfl
    apply stepsMeet_cons step ⟨1, rfl⟩ rfl
    apply stepsMeet_cons step rfl rfl
    apply stepsMeet_cons step ⟨1, rfl⟩ rfl
    apply stepsMeet_cons step ⟨1, .STATIC, 3, rfl⟩ rfl
    apply stepsMeet_cons step ⟨1, .STATIC, 3, rfl⟩ rfl
    exact stepsMeet_cons step ⟨1, .STATIC, 3, rfl⟩ rfl trivial
  · apply stepsMeet_cons step trivial rfl
    apply stepsMeet_cons step trivial rfl
    apply stepsMeet_cons step trivial rfl
    apply stepsMeet_cons step (by decide : 0 + 2 < 2 ^ 31) rfl
    refine stepsMeet_cons step ?_ rfl ?_
    · intro ticket hi k hle hlt
      cases hi
      have hlast : k < 1 := hlt
      exact absurd hle (Nat.not_le.mpr hlast)
    apply stepsMeet_cons step trivial rfl
    apply stepsMeet_cons step trivial rfl
    apply stepsMeet_cons step trivial rfl
    apply stepsMeet_cons step trivial rfl
    exact stepsMeet_cons step trivial rfl trivial

/-- The task of the first request is not created, and that of the second waits for good. -/
theorem ticket_lost :
    ¬ ∀ ops : List Step, StepsMeet step Enabled (start .OFF true) ops →
      Throughout step Good (start .OFF true) ops := by
  intro h
  have henabled : StepsMeet step Enabled (start .OFF true)
      [.setConf .BridgeStatic, .setErouterEnabled, .store 0, .lookup 0 true, .draw 0,
        .create 0 false, .lookup 1 true, .draw 1, .create 1 true] := by
    apply stepsMeet_cons step trivial rfl
    apply stepsMeet_cons step trivial rfl
    apply stepsMeet_cons step ⟨.BridgeStatic, .Router, rfl⟩ rfl
    apply stepsMeet_cons step rfl rfl
    apply stepsMeet_cons step rfl rfl
    apply stepsMeet_cons step ⟨1, rfl⟩ rfl
    apply stepsMeet_cons step rfl rfl
    apply stepsMeet_cons step rfl rfl
    exact stepsMeet_cons step ⟨2, rfl⟩ rfl trivial
  have hgood := good_of_throughout step (h _ henabled) rfl
  obtain ⟨n, hn, -, hticket⟩ := hgood.progress ⟨_, List.mem_singleton_self _, rfl⟩ (by
    intro n hn hbetween
    rw [List.mem_singleton.mp hn] at hbetween
    cases hbetween)
  rw [List.mem_singleton.mp hn] at hticket
  cases hticket

end Runs

end CcspPandM.BridgeModeNotifiers
