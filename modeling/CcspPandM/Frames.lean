import Mathlib.Order.Defs.Unbundled

/-!
State programs and the relations they respect. A program respects a relation
when every state is related to the one the program leaves, whatever it returns.
For a reflexive and transitive relation this is closed under sequencing and
branching, so a frame is shown part by part.
-/
namespace CcspPandM.Frames

variable {σ α β : Type}

def Respects (R : σ → σ → Prop) (m : StateM σ α) : Prop := ∀ s, R s (m s).2

variable {R : σ → σ → Prop}

theorem respects_pure [Std.Refl R] (a : α) : Respects R (pure a : StateM σ α) :=
  fun s => Std.Refl.refl s

theorem respects_bind [IsTrans σ R] {m : StateM σ α} {f : α → StateM σ β} (hm : Respects R m)
    (hf : ∀ a, Respects R (f a)) : Respects R (m >>= f) :=
  fun s => IsTrans.trans _ _ _ (hm s) (hf (m s).1 (m s).2)

theorem respects_ite {p : Prop} [Decidable p] {m m' : StateM σ α} (hm : Respects R m)
    (hm' : Respects R m') : Respects R (if p then m else m') := by
  split
  · exact hm
  · exact hm'

theorem respects_get [Std.Refl R] : Respects R (get : StateM σ σ) := fun s => Std.Refl.refl s

theorem respects_modify {f : σ → σ} (h : ∀ s, R s (f s)) :
    Respects R (modify f : StateM σ PUnit) := h

theorem after_bind {m : StateM σ α} {f : α → StateM σ β} (hf : ∀ a, Respects R (f a)) (s : σ) :
    R (m s).2 ((m >>= f) s).2 := hf (m s).1 (m s).2

end CcspPandM.Frames
