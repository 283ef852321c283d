import Mathlib.Data.List.Basic

/-!
Runs of a partial step function over a list of operations. A step that has no
defined result ends the run. Invariants, conditions on every step and views of
the state are carried from one step to a whole run by induction on the list.
-/
namespace CcspPandM.Runs

variable {σ α β : Type*} (step : σ → α → Option σ)

def run (s : σ) : List α → Option σ
  | [] => some s
  | a :: ops => (step s a).bind (fun t => run t ops)

/-- Every step of the run is taken in a state where the condition holds. -/
def StepsMeet (ok : σ → α → Prop) : σ → List α → Prop
  | _, [] => True
  | s, a :: ops => ok s a ∧ ∀ t, step s a = some t → StepsMeet ok t ops

@[simp] theorem run_nil (s : σ) : run step s [] = some s := rfl

theorem run_cons (s : σ) (a : α) (ops : List α) :
    run step s (a :: ops) = (step s a).bind (fun t => run step t ops) := rfl

theorem run_invariant {ok : σ → α → Prop} {inv : σ → Prop}
    (hstep : ∀ s a t, inv s → ok s a → step s a = some t → inv t)
    {s t : σ} {ops : List α} (hs : inv s) (hok : StepsMeet step ok s ops)
    (hrun : run step s ops = some t) : inv t := by
  induction ops generalizing s with
  | nil =>
    rw [run_nil, Option.some.injEq] at hrun
    rw [← hrun]
    exact hs
  | cons a ops ih =>
    rw [run_cons, Option.bind_eq_some_iff] at hrun
    obtain ⟨u, hu, hrest⟩ := hrun
    exact ih (hstep s a u hs hok.1 hu) (hok.2 u hu) hrest

theorem stepsMeet_true (s : σ) (ops : List α) : StepsMeet step (fun _ _ => True) s ops := by
  induction ops generalizing s with
  | nil => trivial
  | cons a ops ih => exact ⟨trivial, fun t _ => ih t⟩

theorem stepsMeet_of_forall {ok : α → Prop} (s : σ) {ops : List α} (h : ∀ a ∈ ops, ok a) :
    StepsMeet step (fun _ a => ok a) s ops := by
  induction ops generalizing s with
  | nil => trivial
  | cons a ops ih =>
    exact ⟨h a (List.mem_cons_self ..), fun t _ => ih t fun b hb => h b (List.mem_cons_of_mem a hb)⟩

theorem StepsMeet.and {ok ok' : σ → α → Prop} {s : σ} {ops : List α}
    (h : StepsMeet step ok s ops) (h' : StepsMeet step ok' s ops) :
    StepsMeet step (fun s a => ok s a ∧ ok' s a) s ops := by
  induction ops generalizing s with
  | nil => trivial
  | cons a ops ih => exact ⟨⟨h.1, h'.1⟩, fun t ht => ih (h.2 t ht) (h'.2 t ht)⟩

theorem stepsMeet_cons {ok : σ → α → Prop} {s t : σ} {a : α} {ops : List α} (ha : ok s a)
    (ht : step s a = some t) (h : StepsMeet step ok t ops) : StepsMeet step ok s (a :: ops) := by
  refine ⟨ha, fun u hu => ?_⟩
  obtain rfl := Option.some.inj (ht.symm.trans hu)
  exact h

theorem run_isSome_iff {safe : α → Prop} (hsafe : ∀ s a, (step s a).isSome ↔ safe a)
    (s : σ) (ops : List α) : (run step s ops).isSome ↔ ∀ a ∈ ops, safe a := by
  induction ops generalizing s with
  | nil => simp
  | cons a ops ih =>
    rw [run_cons, List.forall_mem_cons, ← hsafe s a]
    cases hstep : step s a with
    | none => simp
    | some t => simpa using ih t

theorem run_view {view : σ → β} {update : β → α → β}
    (hview : ∀ s a t, step s a = some t → view t = update (view s) a)
    {s t : σ} {ops : List α} (hrun : run step s ops = some t) :
    view t = ops.foldl update (view s) := by
  induction ops generalizing s with
  | nil =>
    rw [run_nil, Option.some.injEq] at hrun
    rw [hrun, List.foldl_nil]
  | cons a ops ih =>
    rw [run_cons, Option.bind_eq_some_iff] at hrun
    obtain ⟨u, hu, hrest⟩ := hrun
    rw [ih hrest, hview s a u hu, List.foldl_cons]

def Along (q : σ → α → σ → Prop) : σ → List α → Prop
  | _, [] => True
  | s, a :: ops => ∀ t, step s a = some t → q s a t ∧ Along q t ops

variable {q : σ → α → σ → Prop}

/-- If under an invariant a step does what it should exactly when a condition
holds, and the condition keeps the invariant, the same is true of a run. -/
theorem along_iff {ok : σ → α → Prop} (inv : σ → Prop)
    (hq : ∀ s a t, inv s → step s a = some t → (q s a t ↔ ok s a))
    (hstep : ∀ s a t, inv s → ok s a → step s a = some t → inv t)
    {s t : σ} {ops : List α} (hs : inv s) (hrun : run step s ops = some t) :
    Along step q s ops ↔ StepsMeet step ok s ops := by
  induction ops generalizing s with
  | nil => exact Iff.rfl
  | cons a ops ih =>
    rw [run_cons, Option.bind_eq_some_iff] at hrun
    obtain ⟨u, hu, hrest⟩ := hrun
    constructor
    · intro h
      obtain ⟨hqu, hlater⟩ := h u hu
      have hok := (hq s a u hs hu).mp hqu
      refine ⟨hok, fun v hv => ?_⟩
      rw [hu, Option.some.injEq] at hv
      rw [← hv]
      exact (ih (hstep s a u hs hok hu) hrest).mp hlater
    · rintro ⟨hok, hlater⟩ v hv
      rw [hu, Option.some.injEq] at hv
      rw [← hv]
      exact ⟨(hq s a u hs hu).mpr hok, (ih (hstep s a u hs hok hu) hrest).mpr (hlater u hu)⟩

variable {legal ok : σ → α → Prop}

/-- The same for steps that are legal and then have a result. -/
theorem along_iff_of_legal (inv : σ → Prop)
    (hstep : ∀ s a, inv s → legal s a →
      ∃ t, step s a = some t ∧ (q s a t ↔ ok s a) ∧ (ok s a → inv t))
    {s : σ} {ops : List α} (hs : inv s) (hlegal : StepsMeet step legal s ops) :
    Along step q s ops ↔ StepsMeet step ok s ops := by
  induction ops generalizing s with
  | nil => exact Iff.rfl
  | cons a ops ih =>
    obtain ⟨ha, hlater⟩ := hlegal
    obtain ⟨t, ht, hq, hinv⟩ := hstep s a hs ha
    constructor
    · intro h
      obtain ⟨hqt, hrest⟩ := h t ht
      have hok := hq.mp hqt
      refine ⟨hok, fun u hu => ?_⟩
      obtain rfl : t = u := Option.some.inj (ht.symm.trans hu)
      exact (ih (hinv hok) (hlater t ht)).mp hrest
    · rintro ⟨hok, hrest⟩ u hu
      obtain rfl : t = u := Option.some.inj (ht.symm.trans hu)
      exact ⟨hq.mpr hok, (ih (hinv hok) (hlater t ht)).mpr (hrest t ht)⟩

theorem along_of_stepsMeet {ok : σ → α → Prop} (inv : σ → Prop)
    (hstep : ∀ s a t, inv s → ok s a → step s a = some t → q s a t ∧ inv t)
    {s : σ} {ops : List α} (hs : inv s) (hok : StepsMeet step ok s ops) :
    Along step q s ops := by
  induction ops generalizing s with
  | nil => trivial
  | cons a ops ih =>
    intro t ht
    obtain ⟨hq, hinv⟩ := hstep s a t hs hok.1 ht
    exact ⟨hq, ih hinv (hok.2 t ht)⟩

def Throughout (good : σ → Prop) : σ → List α → Prop
  | _, [] => True
  | s, a :: ops => ∃ t, step s a = some t ∧ good t ∧ Throughout good t ops

theorem good_of_throughout {good : σ → Prop} {s t : σ} {a : α} {ops : List α}
    (h : Throughout step good s (a :: ops)) (hrun : run step s (a :: ops) = some t) : good t := by
  induction ops generalizing s a with
  | nil =>
    obtain ⟨u, hu, hgood, -⟩ := h
    rw [run_cons, hu, Option.bind_some, run_nil] at hrun
    rw [← Option.some.inj hrun]
    exact hgood
  | cons b ops ih =>
    obtain ⟨u, hu, -, hrest⟩ := h
    rw [run_cons, hu, Option.bind_some] at hrun
    exact ih hrest hrun

/-- If under an invariant a legal step ends well exactly when a condition holds,
and the condition keeps the invariant, the same is true of a legal run. -/
theorem throughout_iff {good : σ → Prop} (inv : σ → Prop)
    (hgood : ∀ s a, inv s → legal s a → ((∃ t, step s a = some t ∧ good t) ↔ ok s a))
    (hstep : ∀ s a t, inv s → legal s a → ok s a → step s a = some t → inv t)
    {s : σ} {ops : List α} (hs : inv s) (hlegal : StepsMeet step legal s ops) :
    Throughout step good s ops ↔ StepsMeet step ok s ops := by
  induction ops generalizing s with
  | nil => exact Iff.rfl
  | cons a ops ih =>
    obtain ⟨ha, hlater⟩ := hlegal
    constructor
    · intro h
      obtain ⟨t, ht, hgood_t, hrest⟩ := h
      have hok := (hgood s a hs ha).mp ⟨t, ht, hgood_t⟩
      refine ⟨hok, fun u hu => ?_⟩
      have htu : t = u := Option.some.inj (ht.symm.trans hu)
      rw [← htu]
      exact (ih (hstep s a t hs ha hok ht) (hlater t ht)).mp hrest
    · intro h
      obtain ⟨hok, hrest⟩ := h
      obtain ⟨t, ht, hgood_t⟩ := (hgood s a hs ha).mpr hok
      refine ⟨t, ht, hgood_t, ?_⟩
      exact (ih (hstep s a t hs ha hok ht) (hlater t ht)).mpr (hrest t ht)

/-- One direction of it, when the condition is enough to keep the invariant. -/
theorem throughout_of_stepsMeet {good : σ → Prop} {ok : σ → α → Prop} (inv : σ → Prop)
    (hgood : ∀ s, inv s → good s)
    (hstep : ∀ s a, inv s → ok s a → ∃ t, step s a = some t ∧ inv t)
    {s : σ} {ops : List α} (hs : inv s) (hok : StepsMeet step ok s ops) :
    Throughout step good s ops := by
  induction ops generalizing s with
  | nil => trivial
  | cons a ops ih =>
    obtain ⟨ha, hlater⟩ := hok
    obtain ⟨t, ht, hinv⟩ := hstep s a hs ha
    exact ⟨t, ht, hgood t hinv, ih hinv (hlater t ht)⟩

def Does (q : σ → α → σ → Prop) : σ → List α → Prop
  | _, [] => True
  | s, a :: ops => ∃ t, step s a = some t ∧ q s a t ∧ Does q t ops

theorem does_iff (inv : σ → Prop)
    (hdoes : ∀ s a, inv s → legal s a → ((∃ t, step s a = some t ∧ q s a t) ↔ ok s a))
    (hstep : ∀ s a t, inv s → legal s a → ok s a → step s a = some t → inv t)
    {s : σ} {ops : List α} (hs : inv s) (hlegal : StepsMeet step legal s ops) :
    Does step q s ops ↔ StepsMeet step ok s ops := by
  induction ops generalizing s with
  | nil => exact Iff.rfl
  | cons a ops ih =>
    obtain ⟨ha, hlater⟩ := hlegal
    constructor
    · intro h
      obtain ⟨t, ht, hq, hrest⟩ := h
      have hok := (hdoes s a hs ha).mp ⟨t, ht, hq⟩
      refine ⟨hok, fun u hu => ?_⟩
      have htu : t = u := Option.some.inj (ht.symm.trans hu)
      rw [← htu]
      exact (ih (hstep s a t hs ha hok ht) (hlater t ht)).mp hrest
    · intro h
      obtain ⟨hok, hrest⟩ := h
      obtain ⟨t, ht, hq⟩ := (hdoes s a hs ha).mpr hok
      refine ⟨t, ht, hq, ?_⟩
      exact (ih (hstep s a t hs ha hok ht) (hlater t ht)).mpr (hrest t ht)

theorem does_of_stepsMeet {ok : σ → α → Prop} (inv : σ → Prop)
    (hstep : ∀ s a, inv s → ok s a → ∃ t, step s a = some t ∧ q s a t ∧ inv t)
    {s : σ} {ops : List α} (hs : inv s) (hok : StepsMeet step ok s ops) : Does step q s ops := by
  induction ops generalizing s with
  | nil => trivial
  | cons a ops ih =>
    obtain ⟨ha, hlater⟩ := hok
    obtain ⟨t, ht, hq, hinv⟩ := hstep s a hs ha
    exact ⟨t, ht, hq, ih hinv (hlater t ht)⟩

end CcspPandM.Runs
