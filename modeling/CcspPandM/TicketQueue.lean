import Mathlib.Data.List.Basic

/-!
A queue of tickets. A caller draws the next ticket from a counter and then starts
a task that holds it; a task passes when a second counter shows its ticket, and
moves that counter on when it ends. The tasks that are between the two are
exclusive and pass in the order of their tickets. A ticket that no task holds
stops the queue, unless the tasks are started in the order of their tickets.
-/
namespace CcspPandM.TicketQueue

inductive Kind where
  | waiting
  | running
  | done
  deriving DecidableEq

/-- The two counters, the callers with the tickets they hold for a task that is not started, the
tasks with their tickets, and the tickets that have passed, in this order. -/
structure Queue where
  total : ℕ
  cur : ℕ
  drawn : List (Option ℕ)
  tasks : List (ℕ × Kind)
  passed : List ℕ

inductive Move where
  | enter
  | draw (i : ℕ)
  | start (i : ℕ)
  | drop (i : ℕ)
  | pass (i : ℕ)
  | finish (i : ℕ)

def move (q : Queue) : Move → Option Queue
  | .enter => some { q with drawn := q.drawn ++ [none] }
  | .draw i =>
    match q.drawn[i]? with
    | some none =>
      some { q with total := q.total + 1, drawn := q.drawn.set i (some (q.total + 1)) }
    | _ => none
  | .start i =>
    match q.drawn[i]? with
    | some (some k) =>
      some { q with drawn := q.drawn.set i none, tasks := q.tasks ++ [(k, .waiting)] }
    | _ => none
  | .drop i =>
    match q.drawn[i]? with
    | some (some _) => some { q with drawn := q.drawn.set i none }
    | _ => none
  | .pass i =>
    match q.tasks[i]? with
    | some (k, .waiting) =>
      if k = q.cur then
        some { q with tasks := q.tasks.set i (k, .running), passed := q.passed ++ [k] }
      else none
    | _ => none
  | .finish i =>
    match q.tasks[i]? with
    | some (k, .running) =>
      some { q with cur := q.cur + 1, tasks := q.tasks.set i (k, .done) }
    | _ => none

section lists

variable {α : Type*} {l : List α} {i j : ℕ} {a b : α}

theorem getElem?_set_iff (h : l[i]? = some a) {a' : α} :
    (l.set i a')[j]? = some b ↔ j = i ∧ b = a' ∨ j ≠ i ∧ l[j]? = some b := by
  have hlt := (List.getElem?_eq_some_iff.mp h).1
  by_cases hj : j = i
  · subst hj
    rw [List.getElem?_set_self hlt, Option.some.injEq]
    simp only [true_and, ne_eq, not_true_eq_false, false_and, or_false]
    exact eq_comm
  · rw [List.getElem?_set_ne (Ne.symm hj)]
    simp [hj]

theorem getElem?_concat_iff :
    (l ++ [a])[j]? = some b ↔ l[j]? = some b ∨ j = l.length ∧ b = a := by
  rcases Nat.lt_trichotomy j l.length with hlt | heq | hgt
  · rw [List.getElem?_append_left hlt]
    simp [Nat.ne_of_lt hlt]
  · subst heq
    rw [List.getElem?_concat_length, List.getElem?_eq_none (Nat.le_refl _)]
    simp [eq_comm]
  · have hnone : (l ++ [a])[j]? = none := by
      apply List.getElem?_eq_none
      rw [List.length_append, List.length_singleton]
      omega
    rw [hnone, List.getElem?_eq_none (Nat.le_of_lt hgt)]
    simp [Nat.ne_of_gt hgt]

end lists

/-- The caller at i holds the ticket k. -/
abbrev Queue.Holds (q : Queue) (i k : ℕ) : Prop := q.drawn[i]? = some (some k)

/-- The task at i has the ticket k. -/
abbrev Queue.Task (q : Queue) (i k : ℕ) (c : Kind) : Prop := q.tasks[i]? = some (k, c)

structure Sound (q : Queue) : Prop where
  drawn_le : ∀ i k, q.Holds i k → q.cur ≤ k ∧ k ≤ q.total
  drawn_inj : ∀ i j k, q.Holds i k → q.Holds j k → i = j
  task_le : ∀ i k c, q.Task i k c → k ≤ q.total
  task_fresh : ∀ i j k c, q.Task i k c → ¬ q.Holds j k
  task_inj : ∀ i j k c c', q.Task i k c → q.Task j k c' → i = j
  done_iff : ∀ i k c, q.Task i k c → (c = .done ↔ k < q.cur)
  running : ∀ i k, q.Task i k .running → k = q.cur
  cur_le : q.cur ≤ q.total + 1
  passed_lt : q.passed.Pairwise (· < ·)
  passed_le : ∀ k ∈ q.passed, k < q.cur ∨ k = q.cur ∧ ∃ i, q.Task i k .running

/-- Every ticket from the one that is due up to one with a task has a task. -/
def Closed (q : Queue) : Prop :=
  ∀ i k c, q.Task i k c → ∀ k', q.cur ≤ k' → k' < k → ∃ j c', q.Task j k' c'

/-- A task is started only behind those of all tickets before its own. -/
def InOrder (q : Queue) : Move → Prop
  | .start i => ∀ k, q.Holds i k → ∀ k', q.cur ≤ k' → k' < k → ∃ j c', q.Task j k' c'
  | _ => True

def empty : Queue := ⟨0, 1, [], [], []⟩

theorem sound_empty : Sound empty where
  drawn_le := nofun
  drawn_inj := nofun
  task_le := nofun
  task_fresh := nofun
  task_inj := nofun
  done_iff := nofun
  running := nofun
  cur_le := Nat.le_refl 1
  passed_lt := List.Pairwise.nil
  passed_le := nofun

theorem closed_empty : Closed empty := nofun

variable {q r : Queue}

theorem sound_enter (h : Sound q) : Sound { q with drawn := q.drawn ++ [none] } where
  drawn_le := by
    intro i k hi
    rcases getElem?_concat_iff.mp hi with hi | ⟨-, hi⟩
    · exact h.drawn_le i k hi
    · cases hi
  drawn_inj := by
    intro i j k hi hj
    rcases getElem?_concat_iff.mp hi with hi | ⟨-, hi⟩
    · rcases getElem?_concat_iff.mp hj with hj | ⟨-, hj⟩
      · exact h.drawn_inj i j k hi hj
      · cases hj
    · cases hi
  task_le := h.task_le
  task_fresh := by
    intro i j k c hi hj
    rcases getElem?_concat_iff.mp hj with hj | ⟨-, hj⟩
    · exact h.task_fresh i j k c hi hj
    · cases hj
  task_inj := h.task_inj
  done_iff := h.done_iff
  running := h.running
  cur_le := h.cur_le
  passed_lt := h.passed_lt
  passed_le := h.passed_le

theorem sound_draw (h : Sound q) {i : ℕ} (hi : q.drawn[i]? = some none) :
    Sound { q with total := q.total + 1, drawn := q.drawn.set i (some (q.total + 1)) } where
  drawn_le := by
    intro j k hj
    rcases (getElem?_set_iff hi).mp hj with ⟨-, hk⟩ | ⟨-, hold⟩
    · obtain rfl := Option.some.inj hk
      exact ⟨h.cur_le, Nat.le_refl _⟩
    · have hk := h.drawn_le j k hold
      exact ⟨hk.1, Nat.le_succ_of_le hk.2⟩
  drawn_inj := by
    intro j j' k hj hj'
    rcases (getElem?_set_iff hi).mp hj with ⟨hji, hk⟩ | ⟨-, hold⟩
    · rcases (getElem?_set_iff hi).mp hj' with ⟨hji', -⟩ | ⟨-, hold'⟩
      · rw [hji, hji']
      · have hle := (h.drawn_le j' k hold').2
        obtain rfl := Option.some.inj hk
        omega
    · rcases (getElem?_set_iff hi).mp hj' with ⟨-, hk⟩ | ⟨-, hold'⟩
      · have hle := (h.drawn_le j k hold).2
        obtain rfl := Option.some.inj hk
        omega
      · exact h.drawn_inj j j' k hold hold'
  task_le := fun j k c hj => Nat.le_succ_of_le (h.task_le j k c hj)
  task_fresh := by
    intro j j' k c hj hj'
    rcases (getElem?_set_iff hi).mp hj' with ⟨-, hk⟩ | ⟨-, hold⟩
    · have hle := h.task_le j k c hj
      obtain rfl := Option.some.inj hk
      omega
    · exact h.task_fresh j j' k c hj hold
  task_inj := h.task_inj
  done_iff := h.done_iff
  running := h.running
  cur_le := Nat.le_succ_of_le h.cur_le
  passed_lt := h.passed_lt
  passed_le := h.passed_le

variable {i k : ℕ}

theorem sound_drop (h : Sound q) (hi : q.drawn[i]? = some (some k)) :
    Sound { q with drawn := q.drawn.set i none } where
  drawn_le := by
    intro j k' hj
    rcases (getElem?_set_iff hi).mp hj with ⟨-, hk⟩ | ⟨-, hj⟩
    · cases hk
    · exact h.drawn_le j k' hj
  drawn_inj := by
    intro j j' k' hj hj'
    rcases (getElem?_set_iff hi).mp hj with ⟨-, hk⟩ | ⟨-, hj⟩
    · cases hk
    · rcases (getElem?_set_iff hi).mp hj' with ⟨-, hk⟩ | ⟨-, hj'⟩
      · cases hk
      · exact h.drawn_inj j j' k' hj hj'
  task_le := h.task_le
  task_fresh := by
    intro j j' k' c hj hj'
    rcases (getElem?_set_iff hi).mp hj' with ⟨-, hk⟩ | ⟨-, hj'⟩
    · cases hk
    · exact h.task_fresh j j' k' c hj hj'
  task_inj := h.task_inj
  done_iff := h.done_iff
  running := h.running
  cur_le := h.cur_le
  passed_lt := h.passed_lt
  passed_le := h.passed_le

theorem sound_start (h : Sound q) (hi : q.Holds i k) :
    Sound { q with drawn := q.drawn.set i none, tasks := q.tasks ++ [(k, .waiting)] } where
  drawn_le := (sound_drop h hi).drawn_le
  drawn_inj := (sound_drop h hi).drawn_inj
  task_le := by
    intro j k' c hj
    rcases getElem?_concat_iff.mp hj with hold | ⟨-, hnew⟩
    · exact h.task_le j k' c hold
    · obtain ⟨rfl, -⟩ := Prod.mk.inj hnew
      exact (h.drawn_le i k' hi).2
  task_fresh := by
    intro j j' k' c hj hj'
    rcases (getElem?_set_iff hi).mp hj' with ⟨-, hk⟩ | ⟨hne, hold'⟩
    · cases hk
    · rcases getElem?_concat_iff.mp hj with hold | ⟨-, hnew⟩
      · exact h.task_fresh j j' k' c hold hold'
      · obtain ⟨rfl, -⟩ := Prod.mk.inj hnew
        exact hne (h.drawn_inj j' i k' hold' hi)
  task_inj := by
    intro j j' k' c c' hj hj'
    rcases getElem?_concat_iff.mp hj with hold | ⟨hlast, hnew⟩
    · rcases getElem?_concat_iff.mp hj' with hold' | ⟨-, hnew⟩
      · exact h.task_inj j j' k' c c' hold hold'
      · obtain ⟨rfl, -⟩ := Prod.mk.inj hnew
        exact absurd hi (h.task_fresh j i k' c hold)
    · rcases getElem?_concat_iff.mp hj' with hold' | ⟨hlast', -⟩
      · obtain ⟨rfl, -⟩ := Prod.mk.inj hnew
        exact absurd hi (h.task_fresh j' i k' c' hold')
      · rw [hlast, hlast']
  done_iff := by
    intro j k' c hj
    rcases getElem?_concat_iff.mp hj with hold | ⟨-, hnew⟩
    · exact h.done_iff j k' c hold
    · obtain ⟨rfl, rfl⟩ := Prod.mk.inj hnew
      have hle := (h.drawn_le i k' hi).1
      exact iff_of_false nofun (Nat.not_lt.mpr hle)
  running := by
    intro j k' hj
    rcases getElem?_concat_iff.mp hj with hold | ⟨-, hnew⟩
    · exact h.running j k' hold
    · cases (Prod.mk.inj hnew).2
  cur_le := h.cur_le
  passed_lt := h.passed_lt
  passed_le := by
    intro k' hk'
    rcases h.passed_le k' hk' with hlt | ⟨heq, j, hj⟩
    · exact Or.inl hlt
    · exact Or.inr ⟨heq, j, getElem?_concat_iff.mpr (Or.inl hj)⟩

variable {i j k k' : ℕ}

theorem task_of_set {c c₀ c₁ : Kind} (hi : q.Task i k c₀)
    (hj : (q.tasks.set i (k, c₁))[j]? = some (k', c)) : ∃ c', q.Task j k' c' := by
  rcases (getElem?_set_iff hi).mp hj with ⟨rfl, hk⟩ | ⟨-, hold⟩
  · obtain ⟨rfl, -⟩ := Prod.mk.inj hk
    exact ⟨c₀, hi⟩
  · exact ⟨c, hold⟩

theorem sound_pass (h : Sound q) {i : ℕ} (hi : q.Task i q.cur .waiting) :
    Sound { q with tasks := q.tasks.set i (q.cur, .running), passed := q.passed ++ [q.cur] } where
  drawn_le := h.drawn_le
  drawn_inj := h.drawn_inj
  task_le := by
    intro j k' c hj
    obtain ⟨c', hold⟩ := task_of_set hi hj
    exact h.task_le j k' c' hold
  task_fresh := by
    intro j j' k' c hj
    obtain ⟨c', hold⟩ := task_of_set hi hj
    exact h.task_fresh j j' k' c' hold
  task_inj := by
    intro j j' k' c c' hj hj'
    obtain ⟨d, hold⟩ := task_of_set hi hj
    obtain ⟨d', hold'⟩ := task_of_set hi hj'
    exact h.task_inj j j' k' d d' hold hold'
  done_iff := by
    intro j k c hj
    rcases (getElem?_set_iff hi).mp hj with ⟨-, hk⟩ | ⟨-, hold⟩
    · obtain ⟨rfl, rfl⟩ := Prod.mk.inj hk
      exact iff_of_false nofun (Nat.lt_irrefl _)
    · exact h.done_iff j k c hold
  running := by
    intro j k hj
    rcases (getElem?_set_iff hi).mp hj with ⟨-, hk⟩ | ⟨-, hold⟩
    · exact (Prod.mk.inj hk).1
    · exact h.running j k hold
  cur_le := h.cur_le
  passed_lt := by
    rw [List.pairwise_append]
    refine ⟨h.passed_lt, List.pairwise_singleton _ _, ?_⟩
    intro k hk k' hk'
    rw [List.mem_singleton.mp hk']
    rcases h.passed_le k hk with hlt | ⟨rfl, j, hj⟩
    · exact hlt
    · obtain rfl := h.task_inj i j _ _ _ hi hj
      cases (Prod.mk.inj (Option.some.inj (hi.symm.trans hj))).2
  passed_le := by
    intro k hk
    rcases List.mem_append.mp hk with hold | hnew
    · rcases h.passed_le k hold with hlt | ⟨rfl, j, hj⟩
      · exact Or.inl hlt
      · obtain rfl := h.task_inj i j _ _ _ hi hj
        cases (Prod.mk.inj (Option.some.inj (hi.symm.trans hj))).2
    · exact Or.inr ⟨List.mem_singleton.mp hnew, i, (getElem?_set_iff hi).mpr
        (Or.inl ⟨rfl, by rw [List.mem_singleton.mp hnew]⟩)⟩

theorem sound_finish (h : Sound q) (hi : q.Task i k .running) :
    Sound { q with cur := q.cur + 1, tasks := q.tasks.set i (k, .done) } where
  drawn_le := by
    intro j k' hj
    obtain ⟨hle, hle'⟩ := h.drawn_le j k' hj
    have hne : k' ≠ q.cur := by
      rintro rfl
      rw [h.running i k hi] at hi
      exact h.task_fresh i j _ _ hi hj
    exact ⟨by change q.cur + 1 ≤ k'; omega, hle'⟩
  drawn_inj := h.drawn_inj
  task_le := by
    intro j k' c hj
    obtain ⟨c', hold⟩ := task_of_set hi hj
    exact h.task_le j k' c' hold
  task_fresh := by
    intro j j' k' c hj
    obtain ⟨c', hold⟩ := task_of_set hi hj
    exact h.task_fresh j j' k' c' hold
  task_inj := by
    intro j j' k' c c' hj hj'
    obtain ⟨d, hold⟩ := task_of_set hi hj
    obtain ⟨d', hold'⟩ := task_of_set hi hj'
    exact h.task_inj j j' k' d d' hold hold'
  done_iff := by
    intro j k' c hj
    have hk := h.running i k hi
    change c = .done ↔ k' < q.cur + 1
    rcases (getElem?_set_iff hi).mp hj with ⟨-, hnew⟩ | ⟨hne, hold⟩
    · obtain ⟨rfl, rfl⟩ := Prod.mk.inj hnew
      exact iff_of_true rfl (by omega)
    · have hother : k' ≠ q.cur := by
        rintro rfl
        rw [hk] at hi
        exact hne (h.task_inj j i _ _ _ hold hi)
      rw [h.done_iff j k' c hold]
      omega
  running := by
    intro j k' hj
    rcases (getElem?_set_iff hi).mp hj with ⟨-, hnew⟩ | ⟨hne, hold⟩
    · cases (Prod.mk.inj hnew).2
    · have hk := h.running j k' hold
      rw [hk] at hold
      rw [h.running i k hi] at hi
      exact absurd (h.task_inj j i _ _ _ hold hi) hne
  cur_le := by
    have hle := h.task_le i k _ hi
    have hk := h.running i k hi
    change q.cur + 1 ≤ q.total + 1
    omega
  passed_lt := h.passed_lt
  passed_le := by
    intro k' hk'
    left
    change k' < q.cur + 1
    rcases h.passed_le k' hk' with hlt | ⟨heq, -⟩
    · omega
    · omega

variable {m : Move}

theorem sound_move (h : Sound q) (hm : move q m = some r) : Sound r := by
  cases m with
  | enter =>
    rw [← Option.some.inj hm]
    exact sound_enter h
  | draw i =>
    simp only [move] at hm
    split at hm
    · next hi =>
      rw [← Option.some.inj hm]
      exact sound_draw h hi
    · cases hm
  | start i =>
    simp only [move] at hm
    split at hm
    · next k hi =>
      rw [← Option.some.inj hm]
      exact sound_start h hi
    · cases hm
  | drop i =>
    simp only [move] at hm
    split at hm
    · next k hi =>
      rw [← Option.some.inj hm]
      exact sound_drop h hi
    · cases hm
  | pass i =>
    simp only [move] at hm
    split at hm
    · next k hi =>
      split at hm
      · next hk =>
        subst hk
        rw [← Option.some.inj hm]
        exact sound_pass h hi
      · cases hm
    · cases hm
  | finish i =>
    simp only [move] at hm
    split at hm
    · next k hi =>
      rw [← Option.some.inj hm]
      exact sound_finish h hi
    · cases hm

theorem total_move {q r : Queue} (hm : move q m = some r) :
    r.total = q.total ∨ (∃ i, m = .draw i) ∧ r.total = q.total + 1 := by
  cases m with
  | draw i =>
    right
    simp only [move] at hm
    split at hm
    · rw [← Option.some.inj hm]
      exact ⟨⟨i, rfl⟩, rfl⟩
    · cases hm
  | enter =>
    rw [← Option.some.inj hm]
    exact Or.inl rfl
  | pass i =>
    simp only [move] at hm
    split at hm
    · split at hm
      · rw [← Option.some.inj hm]
        exact Or.inl rfl
      · cases hm
    · cases hm
  | _ =>
    simp only [move] at hm
    split at hm
    · rw [← Option.some.inj hm]
      exact Or.inl rfl
    · cases hm

theorem task_set {c c₀ c₁ : Kind} (hi : q.Task i k c₀) (hj : q.Task j k' c) :
    ∃ c', (q.tasks.set i (k, c₁))[j]? = some (k', c') := by
  by_cases hij : j = i
  · subst hij
    obtain ⟨rfl, -⟩ := Prod.mk.inj (Option.some.inj (hi.symm.trans hj))
    exact ⟨c₁, (getElem?_set_iff hi).mpr (Or.inl ⟨rfl, rfl⟩)⟩
  · exact ⟨c, (getElem?_set_iff hi).mpr (Or.inr ⟨hij, hj⟩)⟩

theorem closed_move (h : Closed q) (hin : InOrder q m) (hm : move q m = some r) :
    Closed r := by
  cases m with
  | enter =>
    rw [← Option.some.inj hm]
    exact h
  | draw i =>
    simp only [move] at hm
    split at hm
    · rw [← Option.some.inj hm]
      exact h
    · cases hm
  | start i =>
    simp only [move] at hm
    split at hm
    · next k hi =>
      rw [← Option.some.inj hm]
      intro j k' c hj k'' hle hlt
      have hold : ∃ j c', q.Task j k'' c' := by
        rcases getElem?_concat_iff.mp hj with hold | ⟨-, hnew⟩
        · exact h j k' c hold k'' hle hlt
        · obtain ⟨rfl, -⟩ := Prod.mk.inj hnew
          exact hin k' hi k'' hle hlt
      obtain ⟨j', c', hold⟩ := hold
      exact ⟨j', c', getElem?_concat_iff.mpr (Or.inl hold)⟩
    · cases hm
  | drop i =>
    simp only [move] at hm
    split at hm
    · rw [← Option.some.inj hm]
      exact h
    · cases hm
  | pass i =>
    simp only [move] at hm
    split at hm
    · next k hi =>
      split at hm
      · rw [← Option.some.inj hm]
        intro j k' c hj k'' hle hlt
        obtain ⟨c', hold⟩ := task_of_set hi hj
        obtain ⟨j', d, hold'⟩ := h j k' c' hold k'' hle hlt
        obtain ⟨d', hnew⟩ := task_set hi hold'
        exact ⟨j', d', hnew⟩
      · cases hm
    · cases hm
  | finish i =>
    simp only [move] at hm
    split at hm
    · next k hi =>
      rw [← Option.some.inj hm]
      intro j k' c hj k'' hle hlt
      obtain ⟨c', hold⟩ := task_of_set hi hj
      obtain ⟨j', d, hold'⟩ := h j k' c' hold k'' (Nat.le_of_succ_le hle) hlt
      obtain ⟨d', hnew⟩ := task_set hi hold'
      exact ⟨j', d', hnew⟩
    · cases hm

theorem Sound.exclusive (h : Sound q) (hi : q.Task i k .running)
    (hj : q.Task j k' .running) : i = j := by
  have hk := h.running i k hi
  have hk' := h.running j k' hj
  rw [hk] at hi
  rw [hk'] at hj
  exact h.task_inj i j _ _ _ hi hj

theorem Sound.progress (h : Sound q) (hclosed : Closed q) (hi : q.Task i k .waiting)
    (hnone : ∀ j k', ¬ q.Task j k' .running) : ∃ j, q.Task j q.cur .waiting := by
  have hle : q.cur ≤ k := by
    by_contra hlt
    have hdone := (h.done_iff i k _ hi).mpr (Nat.lt_of_not_le hlt)
    cases hdone
  rcases Nat.eq_or_lt_of_le hle with heq | hlt
  · rw [heq]
    exact ⟨i, hi⟩
  · obtain ⟨j, c, hj⟩ := hclosed i k _ hi q.cur (Nat.le_refl _) hlt
    cases c with
    | waiting => exact ⟨j, hj⟩
    | running => exact absurd hj (hnone j q.cur)
    | done => exact absurd ((h.done_iff j _ _ hj).mp rfl) (Nat.lt_irrefl _)

end CcspPandM.TicketQueue
