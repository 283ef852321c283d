import Mathlib.Data.List.TakeWhile
import CcspPandM.TextSearch

/-!
The search for a key in a text of fields between separators. The characters of
the text are folded before they are compared. A key without separators is found
in the first field that holds it, wherever it stands there.
-/
namespace CcspPandM.FieldSearch

open CString TextSearch

variable (fold : Char → Char)

def search (pat : CStr) : CStr → Option CStr
  | [] => none
  | c :: t => if pat <+: (c :: t).map fold then some (c :: t) else search pat t

def behind (pat t : CStr) : Option CStr := (search fold pat t).map (List.drop pat.length)

variable {fold} {pat : CStr} {sep : Char}

theorem search_opening {t found : CStr} (h : search fold pat t = some found) :
    pat <+: found.map fold ∧ found <:+ t := by
  induction t with
  | nil => cases h
  | cons c t ih =>
    rw [search] at h
    split at h
    · obtain rfl := Option.some.inj h
      exact ⟨by assumption, List.suffix_rfl⟩
    · exact ⟨(ih h).1, (ih h).2.trans (List.suffix_cons c t)⟩

theorem search_terminated (hfold : fold sep = sep) (hne : pat ≠ []) (hsep : sep ∉ pat)
    (f t : CStr) : search fold pat (f ++ sep :: t) =
      ((search fold pat f).map (· ++ sep :: t)).or (search fold pat t) := by
  have hpre (a : CStr) : pat <+: (a ++ sep :: t).map fold ↔ pat <+: a.map fold := by
    rw [List.map_append, List.map_cons, hfold]
    exact prefix_terminated_iff hsep _ _
  induction f with
  | nil =>
    have hnot : ¬ pat <+: (sep :: t).map fold := fun h => hne (List.prefix_nil.mp ((hpre []).mp h))
    exact if_neg hnot
  | cons c f ih =>
    have hhere := hpre (c :: f)
    rw [List.cons_append] at hhere ⊢
    rw [search, search]
    by_cases h : pat <+: (c :: f).map fold
    · rw [if_pos h, if_pos (hhere.mpr h)]
      rfl
    · rw [if_neg h, if_neg (mt hhere.mp h), ih]

theorem fields_induction {P : CStr → Prop} (last : ∀ f, sep ∉ f → P f)
    (cons : ∀ f t, sep ∉ f → P t → P (f ++ sep :: t)) (s : CStr) : P s := by
  have hall : ∀ f, sep ∉ f → P (f ++ s) := by
    induction s with
    | nil => simpa using last
    | cons c s ih =>
      intro f hf
      by_cases hc : c = sep
      · subst hc
        exact cons f s hf (ih [] List.not_mem_nil)
      · have h := ih (f ++ [c]) (by simp [hf, Ne.symm hc])
        rwa [List.append_assoc] at h
  exact hall [] List.not_mem_nil

theorem splitOn_last {f : CStr} (hf : sep ∉ f) : f.splitOn sep = [f] := by
  rw [List.splitOn_eq_splitOnP]
  exact List.splitOnP_eq_singleton fun c hc => beq_false_of_ne fun h => hf (h ▸ hc)

theorem splitOn_field {f : CStr} (hf : sep ∉ f) (t : CStr) :
    (f ++ sep :: t).splitOn sep = f :: t.splitOn sep := by
  have hfree : ∀ c ∈ f, (c == sep) = false := fun c hc => beq_false_of_ne fun h => hf (h ▸ hc)
  rw [List.splitOn_eq_splitOnP, List.splitOn_eq_splitOnP]
  exact List.splitOnP_append_cons_of_forall_mem hfree sep (beq_self_eq_true sep) t

theorem behind_fields (hfold : fold sep = sep) (hne : pat ≠ []) (hsep : sep ∉ pat) (s : CStr) :
    (behind fold pat s).map (List.takeWhile (· ≠ sep)) =
      (s.splitOn sep).findSome? (behind fold pat) := by
  have hfree {f b : CStr} (hf : sep ∉ f) (hb : behind fold pat f = some b) (t : CStr) :
      (b ++ sep :: t).takeWhile (· ≠ sep) = b ∧ b.takeWhile (· ≠ sep) = b := by
    obtain ⟨found, hfound, rfl⟩ := Option.map_eq_some_iff.mp hb
    have hall : ∀ c ∈ found.drop pat.length, decide (c ≠ sep) = true := by
      intro c hc
      apply decide_eq_true
      rintro rfl
      exact hf ((search_opening hfound).2.subset (List.mem_of_mem_drop hc))
    refine ⟨?_, List.takeWhile_eq_self_iff.mpr hall⟩
    rw [List.takeWhile_append_of_pos hall, List.takeWhile_cons_of_neg (by simp), List.append_nil]
  induction s using @fields_induction sep with
  | last f hf =>
    rw [splitOn_last hf, List.findSome?_singleton]
    cases hb : behind fold pat f with
    | none => rfl
    | some b => exact congrArg some (hfree hf hb []).2
  | cons f t hf ih =>
    rw [splitOn_field hf, List.findSome?_cons]
    cases hfound : search fold pat f with
    | none =>
      rw [behind, search_terminated hfold hne hsep, behind, hfound]
      exact ih
    | some found =>
      have hb : behind fold pat f = some (found.drop pat.length) := by rw [behind, hfound]; rfl
      have hlen := (search_opening hfound).1.length_le
      rw [List.length_map] at hlen
      rw [hb, behind, search_terminated hfold hne hsep, hfound]
      change some (((found ++ sep :: t).drop pat.length).takeWhile _) = _
      rw [List.drop_append_of_le_length hlen, (hfree hf hb t).1]

end CcspPandM.FieldSearch
