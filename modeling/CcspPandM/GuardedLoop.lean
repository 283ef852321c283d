import Mathlib.Data.BitVec

/-!
A loop over entries that stops when its mask of awaited objects is zero, and
whose body may refuse an entry, which ends the loop with an error. Without a
refusal its result is a fold over the entries it has read, and a field holds
what was read for it last.
-/
namespace CcspPandM.GuardedLoop

variable {α β ε : Type*}

/-- An error carries the record as the refused entry leaves it. -/
def guardedLoop (body : α → ε × BitVec 8 → Except ε (ε × BitVec 8)) :
    List α → ε × BitVec 8 → Except ε (ε × BitVec 8)
  | [], s => .ok s
  | a :: rest, s => if 0#8 < s.2 then (body a s).bind (guardedLoop body rest) else .ok s

/-- The entries read before the mask is zero, had none of them been refused. -/
def entriesRead (shift : α → BitVec 8 → BitVec 8) : List α → BitVec 8 → List α
  | [], _ => []
  | a :: rest, left => if 0#8 < left then a :: entriesRead shift rest (shift a left) else []

structure EntryBody (body : α → ε × BitVec 8 → Except ε (ε × BitVec 8)) (refused : α → Bool)
    (store : α → ε → ε) (shift : α → BitVec 8 → BitVec 8) : Prop where
  refuse : ∀ a s, refused a = true → ∃ e, body a s = .error e
  accept : ∀ a s, refused a = false → body a s = .ok (store a s.1, shift a s.2)

section Loop

variable {body : α → ε × BitVec 8 → Except ε (ε × BitVec 8)} {refused : α → Bool}
  {store : α → ε → ε} {shift : α → BitVec 8 → BitVec 8}

theorem guardedLoop_of_refused (hbody : EntryBody body refused store shift) (l : List α)
    (s : ε × BitVec 8) (h : ∃ a ∈ entriesRead shift l s.2, refused a = true) :
    ∃ e, guardedLoop body l s = .error e := by
  induction l generalizing s with
  | nil => simp [entriesRead] at h
  | cons a rest ih =>
    rw [entriesRead] at h
    rw [guardedLoop]
    by_cases hleft : 0#8 < s.2
    · rw [if_pos hleft] at h ⊢
      cases hr : refused a with
      | true =>
        obtain ⟨e, he⟩ := hbody.refuse a s hr
        exact ⟨e, by rw [he]; rfl⟩
      | false =>
        rw [hbody.accept a s hr]
        apply ih
        obtain ⟨b, hb, hbr⟩ := h
        rcases List.mem_cons.mp hb with rfl | hb
        · rw [hr] at hbr
          cases hbr
        · exact ⟨b, hb, hbr⟩
    · simp [if_neg hleft] at h

theorem guardedLoop_of_accepted (hbody : EntryBody body refused store shift) (l : List α)
    (s : ε × BitVec 8) (h : ∀ a ∈ entriesRead shift l s.2, refused a = false) :
    guardedLoop body l s = .ok ((entriesRead shift l s.2).foldl (fun e a => store a e) s.1,
      (entriesRead shift l s.2).foldl (fun left a => shift a left) s.2) := by
  induction l generalizing s with
  | nil => rfl
  | cons a rest ih =>
    rw [entriesRead] at h ⊢
    rw [guardedLoop]
    by_cases hleft : 0#8 < s.2
    · rw [if_pos hleft] at h ⊢
      rw [if_pos hleft, hbody.accept a s (h a (List.mem_cons_self ..))]
      exact ih _ (fun b hb => h b (List.mem_cons_of_mem _ hb))
    · rw [if_neg hleft, if_neg hleft]
      rfl

end Loop

theorem mem_of_mem_entriesRead {shift : α → BitVec 8 → BitVec 8} {l : List α} {left : BitVec 8}
    {a : α} (h : a ∈ entriesRead shift l left) : a ∈ l := by
  induction l generalizing left with
  | nil => simp [entriesRead] at h
  | cons b rest ih =>
    rw [entriesRead] at h
    split at h
    · rcases List.mem_cons.mp h with rfl | h
      · exact List.mem_cons_self ..
      · exact List.mem_cons_of_mem _ (ih h)
    · simp at h

theorem entriesRead_eq_of_left {shift : α → BitVec 8 → BitVec 8} {l : List α} {left : BitVec 8}
    (h : (entriesRead shift l left).foldl (fun left a => shift a left) left ≠ 0#8) :
    entriesRead shift l left = l := by
  induction l generalizing left with
  | nil => rfl
  | cons a rest ih =>
    rw [entriesRead] at h ⊢
    by_cases hleft : 0#8 < left
    · rw [if_pos hleft] at h ⊢
      rw [ih h]
    · rw [if_neg hleft] at h
      have hpos : 0#8 < left := by
        rw [BitVec.lt_def]
        exact Nat.pos_of_ne_zero (fun hz => h (BitVec.eq_of_toNat_eq hz))
      exact absurd hpos hleft

theorem foldl_field (get : ε → β) (store : α → ε → ε) (read : α → Option β)
    (hget : ∀ a e, get (store a e) = (read a).getD (get e)) (l : List α) (e : ε) :
    get (l.foldl (fun e a => store a e) e) = (l.filterMap read).getLast?.getD (get e) := by
  induction l generalizing e with
  | nil => rfl
  | cons a rest ih =>
    rw [List.foldl_cons, ih, hget]
    cases hr : read a with
    | none => rw [List.filterMap_cons_none hr, Option.getD_none]
    | some v =>
      rw [List.filterMap_cons_some hr, List.getLast?_cons, Option.getD_some, Option.getD_some]

end CcspPandM.GuardedLoop
