import Mathlib.Algebra.Group.Nat.Defs

/-!
Loops that may run forever, given by one step: it goes on in a new state or ends
with a result. A run is the same from every state it reaches, and it has no result
if its states can be kept in a set that no step leaves and none ends in. A loop over
a list that does not stop at a match finds the last one.
-/
namespace CcspPandM.LoopRuns

variable {σ ρ : Type*}

def runFor (step : σ → σ ⊕ ρ) : ℕ → σ → Option ρ
  | 0, _ => none
  | n + 1, s => match step s with
    | .inl s' => runFor step n s'
    | .inr r => some r

def Ends (step : σ → σ ⊕ ρ) (s : σ) (r : ρ) : Prop := ∃ n, runFor step n s = some r

variable {step : σ → σ ⊕ ρ} {s s' : σ} {r r' : ρ}

theorem ends_inl (h : step s = .inl s') : Ends step s r ↔ Ends step s' r := by
  constructor
  · rintro ⟨n, hn⟩
    cases n with
    | zero => cases hn
    | succ n =>
      rw [runFor, h] at hn
      exact ⟨n, hn⟩
  · rintro ⟨n, hn⟩
    refine ⟨n + 1, ?_⟩
    rw [runFor, h]
    exact hn

theorem ends_inr (h : step s = .inr r') : Ends step s r ↔ r = r' := by
  constructor
  · rintro ⟨n, hn⟩
    cases n with
    | zero => cases hn
    | succ n =>
      rw [runFor, h] at hn
      exact (Option.some.inj hn).symm
  · rintro rfl
    refine ⟨1, ?_⟩
    rw [runFor, h]

theorem not_ends {P : σ → Prop} (hP : ∀ s, P s → ∃ s', step s = .inl s' ∧ P s') (hs : P s)
    (r : ρ) : ¬ Ends step s r := by
  rintro ⟨n, hn⟩
  induction n generalizing s with
  | zero => cases hn
  | succ n ih =>
    obtain ⟨t, hstep, ht⟩ := hP s hs
    rw [runFor, hstep] at hn
    exact ih ht hn

section LastMatch

variable {α β : Type*} {f : α → Option β}

def lastMatch {α β : Type*} (f : α → Option β) (matched : Option β) (l : List α) : Option β :=
  l.foldl (fun matched a => (f a).or matched) matched

theorem lastMatch_eq (l : List α) (matched : Option β) :
    (lastMatch f matched l = matched ∧ ∀ a ∈ l, f a = none) ∨
      ∃ a ∈ l, f a ≠ none ∧ lastMatch f matched l = f a := by
  induction l generalizing matched with
  | nil => exact Or.inl ⟨rfl, by simp⟩
  | cons a l ih =>
    rw [lastMatch, List.foldl_cons]
    rcases ih ((f a).or matched) with ⟨heq, hnone⟩ | ⟨b, hb, hsome, heq⟩
    · cases ha : f a with
      | none =>
        left
        refine ⟨?_, List.forall_mem_cons.mpr ⟨ha, hnone⟩⟩
        rw [ha, Option.none_or] at heq
        exact heq
      | some v =>
        right
        refine ⟨a, List.mem_cons_self .., by simp [ha], ?_⟩
        rw [ha, Option.some_or] at heq
        rw [ha, Option.some_or]
        exact heq
    · exact Or.inr ⟨b, List.mem_cons_of_mem _ hb, hsome, heq⟩

theorem lastMatch_eq_findSome_iff {l : List α} (hnodup : l.Nodup)
    (hinj : ∀ a ∈ l, ∀ b ∈ l, f a ≠ none → f a = f b → a = b) :
    lastMatch f none l = l.findSome? f ↔ ∀ a ∈ l, ∀ b ∈ l, f a ≠ none → f b ≠ none → a = b := by
  induction l with
  | nil => simp [lastMatch]
  | cons a l ih =>
    obtain ⟨hnotMem, hl⟩ := List.nodup_cons.mp hnodup
    rw [List.findSome?_cons, lastMatch, List.foldl_cons]
    change lastMatch f ((f a).or none) l = _ ↔ _
    cases ha : f a with
    | none =>
      rw [Option.none_or, ih hl fun b hb c hc =>
        hinj b (List.mem_cons_of_mem _ hb) c (List.mem_cons_of_mem _ hc)]
      simp [ha]
    | some v =>
      rw [Option.some_or]
      rcases lastMatch_eq (f := f) l (some v) with ⟨heq, hnone⟩ | ⟨b, hb, hsome, heq⟩
      · have honly : ∀ c ∈ a :: l, f c ≠ none → c = a := by
          intro c hc hcsome
          rcases List.mem_cons.mp hc with rfl | hc
          · rfl
          · exact absurd (hnone c hc) hcsome
        rw [heq]
        simp only [true_iff]
        intro c hc d hd hcsome hdsome
        rw [honly c hc hcsome, honly d hd hdsome]
      · have hne : f b ≠ some v := by
          intro h
          have hab := hinj a (List.mem_cons_self ..) b (List.mem_cons_of_mem _ hb) (by simp [ha])
            (ha.trans h.symm)
          exact hnotMem (hab ▸ hb)
        rw [heq]
        constructor
        · intro h
          exact absurd h hne
        · intro h
          have hab := h a (List.mem_cons_self ..) b (List.mem_cons_of_mem _ hb) (by simp [ha]) hsome
          exact absurd (hab ▸ hb) hnotMem

end LastMatch

end CcspPandM.LoopRuns
