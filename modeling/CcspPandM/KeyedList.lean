import Mathlib.Data.List.Nodup
import Mathlib.Data.List.Perm.Basic

/-!
Lists of records that carry their own key. While the keys are distinct a list
is a finite map that also keeps the order of its records: `find` reads it, `put`
changes a record where it stands or adds it at the end, `drop` takes one out.
-/
namespace CcspPandM.KeyedList

variable {α κ : Type*} [DecidableEq κ] (key : α → κ)

def find (l : List α) (k : κ) : Option α := l.find? (fun a => key a = k)

def put (l : List α) (a : α) : List α :=
  if key a ∈ l.map key then l.map (fun b => if key b = key a then a else b) else l ++ [a]

def drop (l : List α) (k : κ) : List α := l.filter (fun a => key a ≠ k)

variable {key} {l : List α}

omit [DecidableEq κ] in
theorem eq_of_key (h : (l.map key).Nodup) {a b : α} (ha : a ∈ l) (hb : b ∈ l)
    (hab : key a = key b) : a = b := List.inj_on_of_nodup_map h ha hb hab

theorem find_eq_some_iff (h : (l.map key).Nodup) (k : κ) (a : α) :
    find key l k = some a ↔ a ∈ l ∧ key a = k := by
  constructor
  · intro hf
    exact ⟨List.mem_of_find?_eq_some hf, by simpa using List.find?_some hf⟩
  · intro ha
    obtain ⟨hmem, hkey⟩ := ha
    cases hf : find key l k with
    | none =>
      have hnone := List.find?_eq_none.mp hf a hmem
      simp [hkey] at hnone
    | some b =>
      have hb := List.mem_of_find?_eq_some hf
      have hbkey : key b = k := by simpa using List.find?_some hf
      rw [eq_of_key h hb hmem (hbkey.trans hkey.symm)]

theorem find_eq_none_iff (k : κ) : find key l k = none ↔ k ∉ l.map key := by
  simp [find]

theorem keys_put (a : α) : (put key l a).map key =
    if key a ∈ l.map key then l.map key else l.map key ++ [key a] := by
  unfold put
  split
  · rw [List.map_map]
    apply List.map_congr_left
    intro b _
    by_cases hb : key b = key a
    · simp [hb]
    · simp [hb]
  · simp

variable {a : α}

theorem put_of_notMem (h : key a ∉ l.map key) : put key l a = l ++ [a] := if_neg h

theorem put_of_mem (h : (l.map key).Nodup) (ha : a ∈ l) : put key l a = l := by
  rw [put, if_pos (List.mem_map_of_mem ha)]
  refine (List.map_congr_left fun b hb => ?_).trans (List.map_id' l)
  split
  · rename_i hkey
    exact eq_of_key h ha hb hkey.symm
  · rfl

theorem mem_insert_iff_put {keys : List κ} (h : ∀ i, i ∈ keys ↔ i ∈ l.map key) (a : α) (i : κ) :
    i ∈ keys.insert (key a) ↔ i ∈ (put key l a).map key := by
  rw [List.mem_insert_iff, h i, keys_put]
  split
  · rename_i hmem
    constructor
    · rintro (rfl | hi)
      · exact hmem
      · exact hi
    · exact Or.inr
  · rw [List.mem_append, List.mem_singleton, or_comm]

theorem nodup_put (h : (l.map key).Nodup) (a : α) : ((put key l a).map key).Nodup := by
  rw [keys_put]
  split
  · exact h
  · next hnew =>
    apply h.append (List.nodup_singleton _)
    intro k hk hka
    rw [List.mem_singleton.mp hka] at hk
    exact hnew hk

theorem mem_put_iff (a b : α) : b ∈ put key l a ↔ b = a ∨ (b ∈ l ∧ key b ≠ key a) := by
  unfold put
  split
  · next h =>
    obtain ⟨old, hold, hkey⟩ := List.mem_map.mp h
    rw [List.mem_map]
    constructor
    · intro hb
      obtain ⟨c, hc, hcb⟩ := hb
      by_cases hca : key c = key a
      · rw [if_pos hca] at hcb
        exact Or.inl hcb.symm
      · rw [if_neg hca] at hcb
        exact Or.inr ⟨hcb ▸ hc, hcb ▸ hca⟩
    · intro hb
      rcases hb with rfl | ⟨hb, hne⟩
      · exact ⟨old, hold, if_pos hkey⟩
      · exact ⟨b, hb, if_neg hne⟩
  · next h =>
    have hfresh : ∀ c ∈ l, key c ≠ key a := fun c hc hca => h (List.mem_map.mpr ⟨c, hc, hca⟩)
    rw [List.mem_append, List.mem_singleton]
    constructor
    · intro hb
      exact hb.elim (fun hb => Or.inr ⟨hb, hfresh b hb⟩) Or.inl
    · intro hb
      exact hb.elim Or.inr (fun hb => Or.inl hb.1)

theorem find_put (a : α) (k : κ) :
    find key (put key l a) k = if k = key a then some a else find key l k := by
  unfold find put
  split
  · next hmem =>
    have hkey : (fun b => decide (key b = k)) ∘ (fun b => if key b = key a then a else b) =
        fun b => decide (key b = k) := by
      funext b
      by_cases hb : key b = key a
      · simp [hb]
      · simp [hb]
    rw [List.find?_map, hkey]
    cases hfind : l.find? (fun b => decide (key b = k)) with
    | none =>
      have hne : k ≠ key a := by
        intro hk
        obtain ⟨b, hb, hba⟩ := List.mem_map.mp hmem
        simpa [hk, hba] using List.find?_eq_none.mp hfind b hb
      rw [if_neg hne, Option.map_none]
    | some b =>
      have hb : key b = k := by simpa using List.find?_some hfind
      simp [hb]
      split <;> rfl
  · next hmem =>
    rw [List.find?_append]
    split
    · next hk =>
      have hnone : l.find? (fun b => decide (key b = k)) = none := by
        apply List.find?_eq_none.mpr
        intro b hb hbk
        exact hmem (List.mem_map.mpr ⟨b, hb, (of_decide_eq_true hbk).trans hk⟩)
      rw [hnone, Option.none_or]
      simp [hk]
    · next hk =>
      have hne : key a ≠ k := fun h => hk h.symm
      simp [hne]

theorem find_drop (k j : κ) :
    find key (drop key l k) j = if j = k then none else find key l j := by
  unfold find drop
  rw [List.find?_filter]
  split
  · next h =>
    apply List.find?_eq_none.mpr
    intro a _
    simp [h]
  · next h =>
    congr 1
    funext a
    by_cases ha : key a = j
    · simp [ha, h]
    · simp [ha]

theorem put_congr_key {κ' : Type*} [DecidableEq κ'] {key' : α → κ'}
    (h : ∀ b ∈ l, key b = key a ↔ key' b = key' a) : put key l a = put key' l a := by
  have hmem : key a ∈ l.map key ↔ key' a ∈ l.map key' := by
    simp only [List.mem_map]
    exact exists_congr (fun b => and_congr_right (fun hb => h b hb))
  unfold put
  by_cases hin : key a ∈ l.map key
  · rw [if_pos hin, if_pos (hmem.mp hin)]
    apply List.map_congr_left
    intro b hb
    simp only [h b hb]
  · rw [if_neg hin, if_neg (fun hin' => hin (hmem.mpr hin'))]

theorem drop_congr_key {κ' : Type*} [DecidableEq κ'] {key' : α → κ'} {k : κ} {k' : κ'}
    (h : ∀ b ∈ l, key b = k ↔ key' b = k') : drop key l k = drop key' l k' := by
  apply List.filter_congr
  intro b hb
  simp only [ne_eq, decide_not, h b hb]

theorem mem_drop_iff (k : κ) (a : α) : a ∈ drop key l k ↔ a ∈ l ∧ key a ≠ k := by
  simp [drop]

theorem nodup_drop {β : Type*} {f : α → β} (h : (l.map f).Nodup) (k : κ) :
    ((drop key l k).map f).Nodup := h.sublist (List.filter_sublist.map f)

theorem drop_of_notMem {k : κ} (h : k ∉ l.map key) : drop key l k = l := by
  apply List.filter_eq_self.mpr
  intro a ha
  have hne : key a ≠ k := fun hk => h (List.mem_map.mpr ⟨a, ha, hk⟩)
  simpa using hne

theorem length_drop_lt {k : κ} (h : k ∈ l.map key) : (drop key l k).length < l.length := by
  obtain ⟨a, ha, hk⟩ := List.mem_map.mp h
  apply List.length_filter_lt_length_iff_exists.mpr
  exact ⟨a, ha, by simp [hk]⟩

omit [DecidableEq κ] in
theorem set_of_getElem? {i : ℕ} {a : α} (h : l[i]? = some a) : l.set i a = l := by
  obtain ⟨hi, hget⟩ := List.getElem?_eq_some_iff.mp h
  rw [← hget, List.set_getElem_self]

omit [DecidableEq κ] in
theorem modify_of_getElem? {i : ℕ} {a : α} (h : l[i]? = some a) (f : α → α) :
    l.modify i f = l.set i (f a) := by
  obtain ⟨hi, -⟩ := List.getElem?_eq_some_iff.mp h
  apply List.ext_getElem?
  intro j
  rw [List.getElem?_modify]
  by_cases hij : i = j
  · rw [← hij, List.getElem?_set_self hi, h]
    simp
  · rw [List.getElem?_set_ne hij]
    simp [hij]

theorem eraseIdx_perm {i : ℕ} (h : l[i]? = some a) : l.Perm (a :: l.eraseIdx i) := by
  obtain ⟨hi, rfl⟩ := List.getElem?_eq_some_iff.mp h
  exact (List.getElem_cons_eraseIdx_perm hi).symm

theorem modify_perm {i : ℕ} (h : l[i]? = some a) (f : α → α) :
    (l.modify i f).Perm (f a :: l.eraseIdx i) := by
  have hi : i < l.length := (List.getElem?_eq_some_iff.mp h).1
  rw [modify_of_getElem? h]
  exact List.set_perm_cons_eraseIdx hi (f a)

omit [DecidableEq κ] in
theorem map_modify {β : Type*} {f : α → α} {g : α → β} (h : ∀ a, g (f a) = g a)
    (l : List α) (k : ℕ) : (l.modify k f).map g = l.map g := by
  induction l generalizing k with
  | nil => simp
  | cons a l ih =>
    cases k with
    | zero => simp [h]
    | succ k => simp [ih]

omit [DecidableEq κ] in
theorem forall_mem_modify {q : α → Prop} {i : ℕ} {f : α → α} (h : ∀ a ∈ l, q a) :
    (∀ a ∈ l.modify i f, q a) ↔ ∀ a ∈ l[i]?, q (f a) := by
  cases ha : l[i]? with
  | none =>
    rw [List.modify_eq_self (List.getElem?_eq_none_iff.mp ha)]
    exact iff_of_true h nofun
  | some a =>
    have hperm := modify_perm ha f
    constructor
    · intro hall b hb
      cases hb
      exact hall _ (hperm.mem_iff.mpr List.mem_cons_self)
    · intro hnew b hb
      rcases List.mem_cons.mp (hperm.mem_iff.mp hb) with rfl | hb
      · exact hnew a rfl
      · exact h b (List.eraseIdx_subset hb)

omit [DecidableEq κ] in
theorem nodup_modify (h : (l.map key).Nodup) {i : ℕ} {f : α → α} :
    ((l.modify i f).map key).Nodup ↔
      ∀ a ∈ l[i]?, ∀ b ∈ l.eraseIdx i, key b ≠ key (f a) := by
  cases ha : l[i]? with
  | none =>
    rw [List.modify_eq_self (List.getElem?_eq_none_iff.mp ha)]
    exact iff_of_true h nofun
  | some a =>
    have hrest : ((l.eraseIdx i).map key).Nodup :=
      h.sublist ((List.eraseIdx_sublist l i).map key)
    rw [((modify_perm ha f).map key).nodup_iff, List.map_cons, List.nodup_cons, and_iff_left hrest,
      List.mem_map]
    simp

theorem map_change_eq_set (h : (l.map key).Nodup) {i : ℕ} (ha : l[i]? = some a)
    (f : α → α) : l.map (fun b => if key b = key a then f b else b) = l.set i (f a) := by
  obtain ⟨hi, hget⟩ := List.getElem?_eq_some_iff.mp ha
  apply List.ext_getElem?
  intro j
  rw [List.getElem?_map, List.getElem?_set]
  by_cases hij : i = j
  · subst hij
    simp [hi, hget]
  · rw [if_neg hij]
    cases hb : l[j]? with
    | none => rfl
    | some b =>
      have hne : key b ≠ key a := by
        intro hba
        apply hij
        apply (List.getElem?_inj (l := l.map key) (by simpa using hi) h).mp
        rw [List.getElem?_map, List.getElem?_map, ha, hb, Option.map_some, Option.map_some, hba]
      simp [hne]

theorem set_eq_put (h : (l.map key).Nodup) {i : ℕ} {a b : α} (ha : l[i]? = some a)
    (hb : key b = key a) : l.set i b = put key l b := by
  have hmem : key b ∈ l.map key := by
    rw [hb]
    exact List.mem_map_of_mem (List.mem_of_getElem? ha)
  rw [put, if_pos hmem, hb]
  exact (map_change_eq_set h ha fun _ => b).symm

theorem findIdx_of_getElem? (h : (l.map key).Nodup) {i : ℕ} (ha : l[i]? = some a) :
    l.findIdx? (fun b => key b = key a) = some i := by
  obtain ⟨hi, hget⟩ := List.getElem?_eq_some_iff.mp ha
  rw [List.findIdx?_eq_some_iff_getElem]
  refine ⟨hi, decide_eq_true (by rw [hget]), ?_⟩
  intro j hj hkey
  have hb : l[j]? = some (l.get ⟨j, by omega⟩) := List.getElem?_eq_getElem (by omega)
  have hsame : key (l.get ⟨j, by omega⟩) = key a := of_decide_eq_true hkey
  have hindex : j = i := by
    apply (List.getElem?_inj (l := l.map key) (by rw [List.length_map]; omega) h).mp
    rw [List.getElem?_map, List.getElem?_map, ha, hb, Option.map_some, Option.map_some, hsame]
  omega

omit [DecidableEq κ] in
theorem nodup_map_set {β : Type*} {f : α → β} (h : (l.map f).Nodup) {i : ℕ} {a : α}
    (hother : ∀ j b, l[j]? = some b → j ≠ i → f b ≠ f a) : ((l.set i a).map f).Nodup := by
  rw [List.map_set]
  by_cases hmem : f a ∈ l.map f
  · obtain ⟨j, hj⟩ := List.mem_iff_getElem?.mp hmem
    have hji : j = i := by
      by_contra hne
      rw [List.getElem?_map, Option.map_eq_some_iff] at hj
      obtain ⟨b, hb, hfb⟩ := hj
      exact hother j b hb hne hfb
    rw [hji] at hj
    rw [set_of_getElem? hj]
    exact h
  · exact h.set hmem

theorem drop_eq_eraseIdx (h : (l.map key).Nodup) {i : ℕ} (ha : l[i]? = some a) :
    drop key l (key a) = l.eraseIdx i := by
  induction l generalizing i with
  | nil => cases ha
  | cons b l ih =>
    obtain ⟨hb, hl⟩ := List.nodup_cons.mp h
    cases i with
    | zero =>
      obtain rfl : b = a := by simpa using ha
      have htail : drop key l (key b) = l := drop_of_notMem hb
      rw [drop, List.filter_cons_of_neg (by simp), List.eraseIdx_cons_zero]
      exact htail
    | succ i =>
      have hal : l[i]? = some a := by simpa using ha
      have hne : key b ≠ key a := fun hk => hb (hk ▸ List.mem_map_of_mem (List.mem_of_getElem? hal))
      rw [drop, List.filter_cons_of_pos (by simpa using hne), List.eraseIdx_cons_succ, ← ih hl hal]
      rfl

theorem map_change_of_notMem {k : κ} (h : k ∉ l.map key) (f : α → α) :
    l.map (fun b => if key b = k then f b else b) = l := by
  conv_rhs => rw [← List.map_id l]
  apply List.map_congr_left
  intro b hb
  have hne : key b ≠ k := fun hk => h (List.mem_map.mpr ⟨b, hb, hk⟩)
  rw [if_neg hne, id_eq]

theorem nodup_map_put_iff {β : Type*} {f : α → β} (h : (l.map key).Nodup) (hf : (l.map f).Nodup)
    (a : α) : ((put key l a).map f).Nodup ↔ ∀ b ∈ l, key b ≠ key a → f b ≠ f a := by
  have hput : (put key l a).Nodup := (nodup_put h a).of_map key
  rw [List.nodup_map_iff_inj_on hput]
  constructor
  · intro hinj b hb hba hfb
    have hab := hinj b ((mem_put_iff a b).mpr (.inr ⟨hb, hba⟩)) a
      ((mem_put_iff a a).mpr (.inl rfl)) hfb
    exact hba (by rw [hab])
  · intro hne b hb c hc hbc
    rcases (mem_put_iff a b).mp hb with hba | ⟨hbl, hba⟩
    · rcases (mem_put_iff a c).mp hc with hca | ⟨hcl, hca⟩
      · rw [hba, hca]
      · exact absurd (hbc.symm.trans (by rw [hba])) (hne c hcl hca)
    · rcases (mem_put_iff a c).mp hc with hca | ⟨hcl, hca⟩
      · exact absurd (hbc.trans (by rw [hca])) (hne b hbl hba)
      · exact List.inj_on_of_nodup_map hf hbl hcl hbc

theorem filterMap_find_perm {ks : List κ} (h : (l.map key).Nodup) (hks : ks.Nodup)
    (hcover : ∀ a ∈ l, key a ∈ ks) : (ks.filterMap (find key l)).Perm l := by
  have hfound : (ks.filterMap (find key l)).Nodup := by
    apply hks.filterMap
    intro k k' a hk hk'
    have hak := ((find_eq_some_iff h k a).mp hk).2
    have hak' := ((find_eq_some_iff h k' a).mp hk').2
    rw [← hak, ← hak']
  apply (List.perm_ext_iff_of_nodup hfound (h.of_map key)).mpr
  intro a
  rw [List.mem_filterMap]
  constructor
  · intro hex
    obtain ⟨k, hk, hfind⟩ := hex
    exact ((find_eq_some_iff h k a).mp hfind).1
  · intro ha
    exact ⟨key a, hcover a ha, (find_eq_some_iff h (key a) a).mpr ⟨ha, rfl⟩⟩

theorem replaceF_eq_put (h : (l.map key).Nodup) (ha : key a ∈ l.map key) :
    l.replaceF (fun b => if key b = key a then some a else none) = put key l a := by
  rw [put, if_pos ha]
  induction l with
  | nil => rfl
  | cons b l ih =>
    obtain ⟨hb, hl⟩ := List.nodup_cons.mp h
    by_cases hba : key b = key a
    · have hsame : l.map (fun c => if key c = key a then a else c) = l := by
        refine (List.map_congr_left fun c hc => ?_).trans (List.map_id' l)
        apply if_neg
        intro hca
        exact hb (hba.trans hca.symm ▸ List.mem_map_of_mem hc)
      rw [List.replaceF_cons_of_some _ (by rw [if_pos hba]), List.map_cons, if_pos hba, hsame]
    · have hrest : key a ∈ l.map key := by
        rcases List.mem_cons.mp ha with hhead | htail
        · exact absurd hhead.symm hba
        · exact htail
      rw [List.replaceF_cons_of_none _ (by rw [if_neg hba]), List.map_cons, if_neg hba,
        ih hl hrest]

theorem eraseP_eq_drop (h : (l.map key).Nodup) (k : κ) :
    l.eraseP (fun a => key a = k) = drop key l k := by
  induction l with
  | nil => rfl
  | cons b l ih =>
    obtain ⟨hb, hl⟩ := List.nodup_cons.mp h
    by_cases hbk : key b = k
    · have hgone : k ∉ l.map key := by
        rw [← hbk]
        exact hb
      have htail := drop_of_notMem hgone
      simp only [drop, ne_eq, decide_not] at htail
      simp [drop, hbk, htail]
    · simp only [drop] at ih
      simp [drop, hbk, ih hl]

omit [DecidableEq κ] in
theorem listing_perm_iff {β : Type*} {ks : List κ} (hks : ks.Nodup) (h : (l.map key).Nodup)
    (hsame : ∀ k, k ∈ ks ↔ k ∈ l.map key) {f : κ → β} {g : α → β} {keyOf : β → κ}
    (hf : ∀ k, keyOf (f k) = k) (hg : ∀ a, keyOf (g a) = key a) :
    (ks.map f).Perm (l.map g) ↔ ∀ a ∈ l, f (key a) = g a := by
  constructor
  · intro hperm a ha
    obtain ⟨k, -, hk⟩ := List.mem_map.mp (hperm.mem_iff.mpr (List.mem_map_of_mem ha))
    have hkey : k = key a := by rw [← hf k, hk, hg a]
    rw [← hkey, hk]
  · intro hread
    have hkeys : ks.Perm (l.map key) := (List.perm_ext_iff_of_nodup hks h).mpr hsame
    have hmap : (l.map key).map f = l.map g := by
      rw [List.map_map]
      exact List.map_congr_left hread
    rw [← hmap]
    exact hkeys.map f

end CcspPandM.KeyedList
