import Mathlib.Data.BitVec
import Mathlib.Data.List.Nodup

/-!
A loop that reads keyed entries into a record and stops as soon as a mask of
awaited bits is empty. Each entry sets its own field and clears its own bit.
Awaited fields are always read; the others only if they come early enough, so
the order of the entries matters exactly when one of them has something to say.
-/
namespace CcspPandM.MaskedLoop

variable {α ε κ ν : Type*}

def maskedLoop (body : α → ε × BitVec 8 → ε × BitVec 8) : List α → ε × BitVec 8 → ε × BitVec 8
  | [], s => s
  | a :: rest, s => if 0#8 < s.2 then maskedLoop body rest (body a s) else s

structure FieldBody (body : α → ε × BitVec 8 → ε × BitVec 8) (key : α → κ) (bit : κ → ℕ)
    (get : ε → κ → ν) (stored : α → ν) (doc : α → Prop) : Prop where
  mask : ∀ a s, doc a → (body a s).2 = s.2 &&& ~~~(1#8 <<< bit (key a))
  hit : ∀ a s, doc a → get (body a s).1 (key a) = stored a
  frame : ∀ a s k, doc a → k ≠ key a → get (body a s).1 k = get s.1 k
  ext : ∀ e e', (∀ k, get e k = get e' k) → e = e'
  bit_inj : ∀ a b, doc a → doc b → bit (key a) = bit (key b) → key a = key b
  bit_lt : ∀ a, doc a → bit (key a) < 8

def clearMask (key : α → κ) (bit : κ → ℕ) (left : BitVec 8) (l : List α) : BitVec 8 :=
  l.foldl (fun m a => m &&& ~~~(1#8 <<< bit (key a))) left

theorem pos_iff_ne_zero (left : BitVec 8) : 0#8 < left ↔ left ≠ 0#8 := by
  rw [BitVec.lt_def, ne_eq, ← BitVec.toNat_inj]
  exact Nat.pos_iff_ne_zero

theorem maskedLoop_of_zero (body : α → ε × BitVec 8 → ε × BitVec 8) (l : List α) (e : ε) :
    maskedLoop body l (e, 0#8) = (e, 0#8) := by
  cases l with
  | nil => rfl
  | cons a rest => rfl

theorem maskedLoop_append (body : α → ε × BitVec 8 → ε × BitVec 8) (l l' : List α)
    (s : ε × BitVec 8) :
    maskedLoop body (l ++ l') s = maskedLoop body l' (maskedLoop body l s) := by
  induction l generalizing s with
  | nil => rfl
  | cons a rest ih =>
    rw [List.cons_append, maskedLoop, maskedLoop]
    by_cases hs : 0#8 < s.2
    · rw [if_pos hs, if_pos hs, ih]
    · rw [if_neg hs, if_neg hs]
      rw [pos_iff_ne_zero, not_not] at hs
      obtain ⟨e, left⟩ := s
      subst hs
      rw [maskedLoop_of_zero]

inductive Inserted (extra : List α) : List α → List α → Prop
  | nil : Inserted extra [] []
  | keep (a : α) {l l' : List α} : Inserted extra l l' → Inserted extra (a :: l) (a :: l')
  | insert {a : α} {l l' : List α} : a ∈ extra → Inserted extra l l' → Inserted extra l (a :: l')

theorem inserted_refl (extra l : List α) : Inserted extra l l := by
  induction l with
  | nil => exact Inserted.nil
  | cons a l ih => exact ih.keep a

variable {a : α}

theorem inserted_append_singleton {extra : List α} (h : a ∈ extra) (l : List α) :
    Inserted extra l (l ++ [a]) := by
  induction l with
  | nil => exact Inserted.insert h Inserted.nil
  | cons b l ih => exact ih.keep b

theorem maskedLoop_inserted {body : α → ε × BitVec 8 → ε × BitVec 8} {extra l l' : List α}
    (h : ∀ a ∈ extra, ∀ s, body a s = s) (hl : Inserted extra l l') (s : ε × BitVec 8) :
    maskedLoop body l' s = maskedLoop body l s := by
  induction hl generalizing s with
  | nil => rfl
  | keep a _ ih =>
    rw [maskedLoop, maskedLoop]
    split
    · exact ih _
    · rfl
  | insert ha _ ih =>
    rw [maskedLoop, h _ ha s, ih]
    split
    · rfl
    · next hs =>
      rw [pos_iff_ne_zero, not_not] at hs
      obtain ⟨e, left⟩ := s
      subst hs
      rw [maskedLoop_of_zero]

variable (key : α → κ)

theorem clearMask_zero (bit : κ → ℕ) (l : List α) :
    clearMask key bit 0#8 l = 0#8 := by
  induction l with
  | nil => rfl
  | cons a rest ih =>
    rw [clearMask, List.foldl_cons, BitVec.zero_and]
    exact ih

theorem clear_getLsbD (left : BitVec 8) {n i : ℕ} (hi : i < 8) :
    (left &&& ~~~(1#8 <<< n)).getLsbD i = (left.getLsbD i && decide (i ≠ n)) := by
  rw [BitVec.getLsbD_and, BitVec.getLsbD_not, BitVec.getLsbD_shiftLeft, BitVec.getLsbD_one]
  by_cases hin : i = n
  · subst hin
    simp [hi]
  · rcases Nat.lt_or_ge i n with h | h
    · simp [hi, h, hin]
    · have hsub : ¬ i - n = 0 := by omega
      simp [hi, hin, hsub]

theorem clearMask_getLsbD (bit : κ → ℕ) (left : BitVec 8) (l : List α) {i : ℕ}
    (hi : i < 8) :
    (clearMask key bit left l).getLsbD i = true ↔
      left.getLsbD i = true ∧ ∀ a ∈ l, i ≠ bit (key a) := by
  induction l generalizing left with
  | nil => simp [clearMask]
  | cons a rest ih =>
    rw [clearMask, List.foldl_cons, ← clearMask, ih, clear_getLsbD left hi, Bool.and_eq_true,
      decide_eq_true_eq, List.forall_mem_cons, and_assoc]

theorem clearMask_eq_zero_iff (bit : κ → ℕ) (left : BitVec 8) (l : List α) :
    clearMask key bit left l = 0#8 ↔
      ∀ i < 8, left.getLsbD i = true → ∃ a ∈ l, bit (key a) = i := by
  constructor
  · intro h i hi hleft
    by_contra hno
    have hbit := (clearMask_getLsbD key bit left l hi).mpr
      ⟨hleft, fun a ha hia => hno ⟨a, ha, hia.symm⟩⟩
    rw [h, BitVec.getLsbD_zero] at hbit
    cases hbit
  · intro h
    apply BitVec.eq_of_getLsbD_eq
    intro i hi
    rw [BitVec.getLsbD_zero, Bool.eq_false_iff]
    intro hbit
    obtain ⟨hleft, hno⟩ := (clearMask_getLsbD key bit left l hi).mp hbit
    obtain ⟨a, ha, hia⟩ := h i hi hleft
    exact hno a ha hia.symm

section Body

variable {body : α → ε × BitVec 8 → ε × BitVec 8} {key : α → κ} {bit : κ → ℕ}
  {get : ε → κ → ν} {stored : α → ν} {doc : α → Prop}
  (hbody : FieldBody body key bit get stored doc)

include hbody

variable {l : List α}

theorem maskedLoop_mask (hl : ∀ a ∈ l, doc a) (s : ε × BitVec 8) :
    (maskedLoop body l s).2 = clearMask key bit s.2 l := by
  induction l generalizing s with
  | nil => rfl
  | cons a rest ih =>
    rw [List.forall_mem_cons] at hl
    rw [maskedLoop, clearMask, List.foldl_cons, ← clearMask]
    by_cases hs : 0#8 < s.2
    · rw [if_pos hs, ih hl.2, hbody.mask a s hl.1]
    · rw [if_neg hs]
      rw [pos_iff_ne_zero, not_not] at hs
      rw [hs, BitVec.zero_and, clearMask_zero]

theorem maskedLoop_get_of_notMem (hl : ∀ a ∈ l, doc a) {k : κ}
    (hk : ∀ a ∈ l, key a ≠ k) (s : ε × BitVec 8) :
    get (maskedLoop body l s).1 k = get s.1 k := by
  induction l generalizing s with
  | nil => rfl
  | cons a rest ih =>
    rw [List.forall_mem_cons] at hl hk
    rw [maskedLoop]
    by_cases hs : 0#8 < s.2
    · rw [if_pos hs, ih hl.2 hk.2, hbody.frame a s k hl.1 hk.1.symm]
    · rw [if_neg hs]

theorem maskedLoop_get_or (hl : ∀ a ∈ l, doc a) (hnodup : (l.map key).Nodup) (ha : a ∈ l)
    (s : ε × BitVec 8) :
    get (maskedLoop body l s).1 (key a) = stored a ∨
      get (maskedLoop body l s).1 (key a) = get s.1 (key a) := by
  induction l generalizing s with
  | nil => cases ha
  | cons b rest ih =>
    rw [List.forall_mem_cons] at hl
    rw [List.map_cons, List.nodup_cons, List.mem_map, not_exists] at hnodup
    rw [maskedLoop]
    by_cases hs : 0#8 < s.2
    · rw [if_pos hs]
      rcases List.mem_cons.mp ha with hab | ha'
      · subst hab
        left
        rw [maskedLoop_get_of_notMem hbody hl.2 (fun b hb hbk => hnodup.1 b ⟨hb, hbk⟩),
          hbody.hit a s hl.1]
      · have hne : key a ≠ key b := fun h => hnodup.1 a ⟨ha', h⟩
        rw [← hbody.frame b s (key a) hl.1 hne]
        exact ih hl.2 hnodup.2 ha' _
    · rw [if_neg hs]
      exact Or.inr rfl

theorem maskedLoop_get_of_awaited (hl : ∀ a ∈ l, doc a)
    (hnodup : (l.map key).Nodup) (ha : a ∈ l) (s : ε × BitVec 8)
    (hleft : s.2.getLsbD (bit (key a)) = true ∨ clearMask key bit s.2 l ≠ 0#8) :
    get (maskedLoop body l s).1 (key a) = stored a := by
  induction l generalizing s with
  | nil => cases ha
  | cons b rest ih =>
    rw [List.forall_mem_cons] at hl
    rw [List.map_cons, List.nodup_cons, List.mem_map, not_exists] at hnodup
    have hs : 0#8 < s.2 := by
      rw [pos_iff_ne_zero]
      intro h0
      rw [h0, BitVec.getLsbD_zero, clearMask_zero] at hleft
      exact hleft.elim (fun h => by cases h) (fun h => h rfl)
    rw [maskedLoop, if_pos hs]
    rcases List.mem_cons.mp ha with hab | ha'
    · subst hab
      rw [maskedLoop_get_of_notMem hbody hl.2 (fun b hb hbk => hnodup.1 b ⟨hb, hbk⟩),
        hbody.hit a s hl.1]
    · have hda := hl.2 a ha'
      refine ih hl.2 hnodup.2 ha' _ ?_
      rw [hbody.mask b s hl.1, clear_getLsbD _ (hbody.bit_lt a hda), Bool.and_eq_true,
        decide_eq_true_eq]
      refine hleft.imp (fun h => ⟨h, fun hbit => ?_⟩) (fun h => h)
      exact hnodup.1 a ⟨ha', hbody.bit_inj a b hda hl.1 hbit⟩

end Body

def decode (body : α → ε × BitVec 8 → ε × BitVec 8) (objects_left : BitVec 8) (e : ε)
    (l : List α) : ℤ × ε :=
  let s := maskedLoop body l (e, objects_left)
  (if s.2 = 0#8 then 0 else -1, s.1)

def OrderFree {ρ : Type*} (f : List α → ρ) (l : List α) : Prop := ∀ l', l'.Perm l → f l' = f l

theorem clearMask_eq_zero_of_perm (bit : κ → ℕ) (left : BitVec 8) {l l' : List α}
    (h : l'.Perm l) : clearMask key bit left l' = 0#8 ↔ clearMask key bit left l = 0#8 := by
  simp only [clearMask_eq_zero_iff, h.mem_iff]

section Order

variable {body : α → ε × BitVec 8 → ε × BitVec 8} {key : α → κ} {bit : κ → ℕ}
  {get : ε → κ → ν} {stored : α → ν} {doc : α → Prop}
  (hbody : FieldBody body key bit get stored doc) (left : BitVec 8) (e : ε)
  {l : List α} (hl : ∀ a ∈ l, doc a)

include hbody hl

theorem decode_status :
    (decode body left e l).1 = if clearMask key bit left l = 0#8 then 0 else -1 := by
  rw [decode, maskedLoop_mask hbody hl]

private theorem get_awaited_first (hmask : clearMask key bit left l = 0#8) {k : κ}
    (hk : left.getLsbD (bit k) = false) :
    get (decode body left e (l.filter (fun a => left.getLsbD (bit (key a))) ++
      l.filter (fun a => !left.getLsbD (bit (key a))))).2 k = get e k := by
  have hfirst : ∀ a ∈ l.filter (fun a => left.getLsbD (bit (key a))), doc a :=
    fun a ha => hl a (List.mem_of_mem_filter ha)
  have hzero : (maskedLoop body (l.filter (fun a => left.getLsbD (bit (key a)))) (e, left)).2 =
      0#8 := by
    rw [maskedLoop_mask hbody hfirst, clearMask_eq_zero_iff]
    intro i hi hbit
    obtain ⟨a, ha, hai⟩ := (clearMask_eq_zero_iff key bit left l).mp hmask i hi hbit
    refine ⟨a, List.mem_filter.mpr ⟨ha, ?_⟩, hai⟩
    rw [hai]
    exact hbit
  have hstop : maskedLoop body (l.filter (fun a => left.getLsbD (bit (key a)))) (e, left) =
      ((maskedLoop body (l.filter (fun a => left.getLsbD (bit (key a)))) (e, left)).1, 0#8) := by
    rw [← hzero]
  rw [decode, maskedLoop_append, hstop, maskedLoop_of_zero]
  refine maskedLoop_get_of_notMem hbody hfirst (fun a ha hak => ?_) _
  have haw := (List.mem_filter.mp ha).2
  rw [hak, hk] at haw
  cases haw

variable (hnodup : (l.map key).Nodup)

include hnodup

private theorem get_awaited_last (hleft : left ≠ 0#8) (ha : a ∈ l)
    (haw : left.getLsbD (bit (key a)) = false) :
    get (decode body left e (l.filter (fun a => !left.getLsbD (bit (key a))) ++
      l.filter (fun a => left.getLsbD (bit (key a))))).2 (key a) = stored a := by
  have hmem : a ∈ l.filter (fun a => !left.getLsbD (bit (key a))) := by
    rw [List.mem_filter, haw]
    exact ⟨ha, rfl⟩
  have hawaits : clearMask key bit left (l.filter (fun a => !left.getLsbD (bit (key a)))) ≠
      0#8 := by
    intro h0
    apply hleft
    apply BitVec.eq_of_getLsbD_eq
    intro i hi
    rw [BitVec.getLsbD_zero, Bool.eq_false_iff]
    intro hbit
    obtain ⟨b, hb, hbi⟩ := (clearMask_eq_zero_iff key bit left _).mp h0 i hi hbit
    have hbaw := (List.mem_filter.mp hb).2
    rw [hbi, hbit] at hbaw
    cases hbaw
  rw [decode, maskedLoop_append, maskedLoop_get_of_notMem hbody
    (fun b hb => hl b (List.mem_of_mem_filter hb)) (fun b hb hbk => ?_)]
  · exact maskedLoop_get_of_awaited hbody (fun b hb => hl b (List.mem_of_mem_filter hb))
      (hnodup.sublist ((List.filter_sublist).map key)) hmem _ (Or.inr hawaits)
  · have hbaw := (List.mem_filter.mp hb).2
    rw [hbk, haw] at hbaw
    cases hbaw

theorem stored_of_orderFree (hleft : left ≠ 0#8) (h : OrderFree (decode body left e) l)
    (hmask : clearMask key bit left l = 0#8) (ha : a ∈ l)
    (haw : left.getLsbD (bit (key a)) = false) : stored a = get e (key a) := by
  have hfirst := h _ (List.filter_append_perm (fun a => left.getLsbD (bit (key a))) l)
  have hlast := h _ (List.perm_append_comm.trans
    (List.filter_append_perm (fun a => left.getLsbD (bit (key a))) l))
  rw [← get_awaited_last hbody left e hl hnodup hleft ha haw,
    hlast, ← hfirst, get_awaited_first hbody left e hl hmask haw]

theorem decode_get (hlost : clearMask key bit left l ≠ 0#8 ∨
      ∀ a ∈ l, left.getLsbD (bit (key a)) = false → stored a = get e (key a))
    (ha : a ∈ l) : get (decode body left e l).2 (key a) = stored a := by
  cases haw : left.getLsbD (bit (key a)) with
  | true => exact maskedLoop_get_of_awaited hbody hl hnodup ha _ (Or.inl haw)
  | false =>
    rcases hlost with hmask | hzero
    · exact maskedLoop_get_of_awaited hbody hl hnodup ha _ (Or.inr hmask)
    · rcases maskedLoop_get_or hbody hl hnodup ha (e, left) with h | h
      · exact h
      · rw [hzero a ha haw]
        exact h

theorem orderFree_decode_iff (hleft : left ≠ 0#8) : OrderFree (decode body left e) l ↔
    clearMask key bit left l ≠ 0#8 ∨
      ∀ a ∈ l, left.getLsbD (bit (key a)) = false → stored a = get e (key a) := by
  constructor
  · intro h
    by_cases hmask : clearMask key bit left l = 0#8
    · exact Or.inr (fun a ha haw => stored_of_orderFree hbody left e hl hnodup hleft h hmask ha haw)
    · exact Or.inl hmask
  · intro hlost l' hperm
    have hl' : ∀ a ∈ l', doc a := fun a ha => hl a (hperm.mem_iff.mp ha)
    have hlost' : clearMask key bit left l' ≠ 0#8 ∨
        ∀ a ∈ l', left.getLsbD (bit (key a)) = false → stored a = get e (key a) := by
      refine hlost.imp (fun hmask h0 => ?_) (fun hzero a ha => hzero a (hperm.mem_iff.mp ha))
      exact hmask ((clearMask_eq_zero_of_perm key bit left hperm).mp h0)
    have hnodup' : (l'.map key).Nodup := (hperm.map key).nodup_iff.mpr hnodup
    refine Prod.ext ?_ (hbody.ext _ _ (fun k => ?_))
    · simp only [decode_status hbody left e hl, decode_status hbody left e hl',
        clearMask_eq_zero_of_perm key bit left hperm]
    · by_cases hk : ∃ a ∈ l, key a = k
      · obtain ⟨a, ha, rfl⟩ := hk
        rw [decode_get hbody left e hl hnodup hlost ha,
          decode_get hbody left e hl' hnodup' hlost' (hperm.mem_iff.mpr ha)]
      · rw [decode, decode, maskedLoop_get_of_notMem hbody hl (fun a ha hak => hk ⟨a, ha, hak⟩),
          maskedLoop_get_of_notMem hbody hl'
            (fun a ha hak => hk ⟨a, hperm.mem_iff.mp ha, hak⟩)]

end Order

end CcspPandM.MaskedLoop
