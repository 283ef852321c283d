import Mathlib.Data.List.Infix
import CcspPandM.CString

/-!
Searches in texts: the first occurrence of a pattern, the last occurrence of a
character, which is searched for backwards from the end, the comparison of two
texts over the length of one, and the tokens between separators.
-/
namespace CcspPandM.TextSearch

open CString

/-- `strstr`: the text from the first occurrence on. -/
def strstr (pat : CStr) : CStr → Option CStr
  | [] => if pat = [] then some [] else none
  | c :: t => if pat <+: c :: t then some (c :: t) else strstr pat t

theorem strstr_isSome (pat t : CStr) : (strstr pat t).isSome ↔ pat <:+: t := by
  induction t with
  | nil => by_cases h : pat = [] <;> simp [strstr, h]
  | cons c t ih =>
    rw [strstr, List.infix_cons_iff, ← ih]
    by_cases h : pat <+: c :: t <;> simp [h]

theorem strstr_of_prefix {pat t : CStr} (h : pat <+: t) : strstr pat t = some t := by
  cases t with
  | nil => rw [strstr, if_pos (List.prefix_nil.mp h)]
  | cons c t => rw [strstr, if_pos h]

theorem strstr_first {pat front : CStr} (h : ¬ pat <:+: front ++ pat.dropLast) (rest : CStr) :
    strstr pat (front ++ (pat ++ rest)) = some (pat ++ rest) := by
  induction front with
  | nil => exact strstr_of_prefix (List.prefix_append pat rest)
  | cons c front ih =>
    have hne : pat ≠ [] := by
      rintro rfl
      exact h List.nil_infix
    have hnot : ¬ pat <+: c :: (front ++ (pat ++ rest)) := by
      intro hpat
      apply h
      have hshort : c :: front ++ pat.dropLast <+: c :: (front ++ (pat ++ rest)) := by
        refine ⟨[pat.getLast hne] ++ rest, ?_⟩
        rw [List.append_assoc, ← List.append_assoc pat.dropLast, List.dropLast_concat_getLast]
        rfl
      have hlen : pat.length ≤ (c :: front ++ pat.dropLast).length := by
        rw [List.length_append, List.length_dropLast, List.length_cons]
        omega
      exact (List.prefix_of_prefix_length_le hpat hshort hlen).isInfix
    rw [List.cons_append, strstr, if_neg hnot]
    apply ih
    intro hinfix
    exact h (List.infix_cons hinfix)

/-- A text from the first place of a pattern on. -/
def FirstPlace (pat t found : CStr) : Prop :=
  ∃ front, t = front ++ found ∧ pat <+: found ∧
    ∀ front' back, t = front' ++ back → pat <+: back → front.length ≤ front'.length

theorem strstr_eq_some_iff {pat t found : CStr} :
    strstr pat t = some found ↔ FirstPlace pat t found := by
  induction t with
  | nil =>
    rw [strstr]
    constructor
    · intro h
      split at h
      · rename_i hpat
        obtain rfl := Option.some.inj h
        exact ⟨[], rfl, hpat ▸ List.prefix_rfl, fun _ _ _ _ => Nat.zero_le _⟩
      · cases h
    · intro h
      obtain ⟨front, heq, hpat, -⟩ := h
      obtain ⟨-, rfl⟩ := List.append_eq_nil_iff.mp heq.symm
      rw [if_pos (List.prefix_nil.mp hpat)]
  | cons c t ih =>
    rw [strstr]
    by_cases hhere : pat <+: c :: t
    · rw [if_pos hhere]
      constructor
      · intro h
        obtain rfl := Option.some.inj h
        exact ⟨[], rfl, hhere, fun _ _ _ _ => Nat.zero_le _⟩
      · intro h
        obtain ⟨front, heq, -, hfirst⟩ := h
        have hlen := hfirst [] (c :: t) rfl hhere
        obtain rfl := List.length_eq_zero_iff.mp (Nat.le_zero.mp hlen)
        exact congrArg some heq
    · rw [if_neg hhere, ih]
      constructor
      · intro h
        obtain ⟨front, rfl, hpat, hfirst⟩ := h
        refine ⟨c :: front, rfl, hpat, fun front' back heq hback => ?_⟩
        cases front' with
        | nil => exact absurd (heq ▸ hback) hhere
        | cons d front' =>
          exact Nat.succ_le_succ (hfirst front' back (List.cons.inj heq).2 hback)
      · intro h
        obtain ⟨front, heq, hpat, hfirst⟩ := h
        cases front with
        | nil => exact absurd (heq ▸ hpat) hhere
        | cons d front =>
          obtain ⟨rfl, rfl⟩ := List.cons.inj heq
          refine ⟨front, rfl, hpat, fun front' back heq' hback => ?_⟩
          have hlen := hfirst (c :: front') back (congrArg (List.cons c) heq') hback
          exact Nat.le_of_succ_le_succ hlen

/-- The place after the last `c` among the first characters of a text. -/
def afterLast (c : Char) (t : CStr) : ℕ → Option ℕ
  | 0 => none
  | i + 1 => if t[i]? = some c then some (i + 1) else afterLast c t i

theorem afterLast_append {c : Char} {back : CStr} (h : c ∉ back) (front : CStr) :
    afterLast c (front ++ c :: back) (front ++ c :: back).length = some (front.length + 1) := by
  have hscan : ∀ j ≤ back.length,
      afterLast c (front ++ c :: back) (front.length + 1 + j) = some (front.length + 1) := by
    intro j hj
    induction j with
    | zero => simp [afterLast]
    | succ j ih =>
      have hback : (front ++ c :: back)[front.length + 1 + j]? = back[j]? := by
        rw [List.getElem?_append_right (by omega),
          show front.length + 1 + j - front.length = j + 1 by omega, List.getElem?_cons_succ]
      have hne : (front ++ c :: back)[front.length + 1 + j]? ≠ some c := by
        rw [hback]
        intro hc
        exact h (List.mem_of_getElem? hc)
      rw [← Nat.add_assoc, afterLast, if_neg hne]
      exact ih (by omega)
  have hlen : (front ++ c :: back).length = front.length + 1 + back.length := by
    rw [List.length_append, List.length_cons]
    omega
  rw [hlen]
  exact hscan _ le_rfl

section Comparing

theorem strneq_key_iff {key name : CStr} (hname : '\x00' ∉ name) :
    strneq key name key.length = true ↔ key <+: name ∨ name ++ ['\x00'] <+: key := by
  induction key generalizing name with
  | nil => simp [strneq]
  | cons c key ih =>
    cases name with
    | nil =>
      rw [List.length_cons, strneq, List.headD_cons, List.headD_nil, Bool.and_eq_true,
        Bool.or_eq_true, beq_iff_eq, List.nil_append, List.prefix_nil, List.cons_prefix_cons]
      constructor
      · exact fun h => Or.inr ⟨h.1.symm, List.nil_prefix⟩
      · rintro (h | ⟨h, -⟩)
        · cases h
        · exact ⟨h.symm, Or.inl h.symm⟩
    | cons d name =>
      rw [List.mem_cons, not_or] at hname
      have hrest := ih hname.2
      rw [List.length_cons, strneq, List.headD_cons, List.headD_cons, List.tail_cons,
        List.tail_cons, Bool.and_eq_true, Bool.or_eq_true, hrest, beq_iff_eq, beq_iff_eq,
        List.cons_append, List.cons_prefix_cons, List.cons_prefix_cons]
      constructor
      · rintro ⟨rfl, hzero | hkey⟩
        · exact absurd hzero.symm hname.1
        · exact hkey.imp (fun h => ⟨rfl, h⟩) fun h => ⟨rfl, h⟩
      · rintro (⟨rfl, h⟩ | ⟨rfl, h⟩)
        · exact ⟨rfl, Or.inr (Or.inl h)⟩
        · exact ⟨rfl, Or.inr (Or.inr h)⟩

theorem strneq_name_iff {t name : CStr} (hname : '\x00' ∉ name) :
    strneq t name name.length = true ↔ name <+: t := by
  induction name generalizing t with
  | nil => simp [strneq]
  | cons d name ih =>
    rw [List.mem_cons, not_or] at hname
    cases t with
    | nil => simp [strneq, hname.1]
    | cons c t =>
      rw [List.length_cons, strneq, List.headD_cons, List.headD_cons, List.tail_cons,
        List.tail_cons, Bool.and_eq_true, Bool.or_eq_true, ih hname.2, beq_iff_eq, beq_iff_eq,
        List.cons_prefix_cons]
      constructor
      · rintro ⟨rfl, hzero | h⟩
        · exact absurd hzero.symm hname.1
        · exact ⟨rfl, h⟩
      · rintro ⟨rfl, h⟩
        exact ⟨rfl, Or.inr h⟩

theorem strneq_eq_iff {a b : CStr} {n : ℕ} (ha : '\x00' ∉ a) (hb : '\x00' ∉ b)
    (hfit : a.length < n) : strneq a b n = true ↔ a = b := by
  induction a generalizing b n with
  | nil =>
    obtain ⟨k, rfl⟩ := Nat.exists_eq_add_of_lt hfit
    cases b with
    | nil => simp [strneq]
    | cons d b => simpa [strneq] using fun h : '\x00' = d => hb (h ▸ List.mem_cons_self)
  | cons c a ih =>
    obtain ⟨hc, ha'⟩ := not_or.mp (mt List.mem_cons.mpr ha)
    rw [List.length_cons] at hfit
    obtain ⟨k, rfl⟩ : ∃ k, n = k + 1 := ⟨n - 1, by omega⟩
    cases b with
    | nil =>
      have hne : c ≠ '\x00' := Ne.symm hc
      simp [strneq, hne]
    | cons d b =>
      obtain ⟨hd, hb'⟩ := not_or.mp (mt List.mem_cons.mpr hb)
      have hrest := ih ha' hb' (n := k) (by omega)
      rw [strneq, List.headD_cons, List.headD_cons, List.tail_cons, List.tail_cons,
        Bool.and_eq_true, Bool.or_eq_true, hrest, beq_iff_eq, beq_iff_eq, List.cons.injEq]
      constructor
      · intro h
        exact ⟨h.1, h.2.resolve_left fun hzero => hc hzero.symm⟩
      · intro h
        exact ⟨h.1, Or.inr h.2⟩

end Comparing

section Tokens

/-- The successive results of `strtok_r`, which skips separators that follow each other. -/
def tokensFrom (sep : Char) (cur : CStr) : CStr → List CStr
  | [] => if cur = [] then [] else [cur]
  | c :: t =>
    if c = sep then if cur = [] then tokensFrom sep [] t else cur :: tokensFrom sep [] t
    else tokensFrom sep (cur ++ [c]) t

def tokens (sep : Char) (t : CStr) : List CStr := tokensFrom sep [] t

variable {sep : Char}

theorem tokensFrom_token {cur token : CStr} (htoken : sep ∉ token) (hne : cur ++ token ≠ [])
    (t : CStr) : tokensFrom sep cur (token ++ sep :: t) = (cur ++ token) :: tokens sep t := by
  induction token generalizing cur with
  | nil =>
    rw [List.append_nil] at hne ⊢
    rw [List.nil_append, tokensFrom, if_pos rfl, if_neg hne]
    rfl
  | cons c token ih =>
    obtain ⟨hc, htoken'⟩ := not_or.mp (mt List.mem_cons.mpr htoken)
    rw [List.cons_append, tokensFrom, if_neg (Ne.symm hc), ih htoken' (by simp),
      List.append_assoc, List.singleton_append]

theorem tokens_terminated {ts : List CStr} (hts : ∀ t ∈ ts, t ≠ [] ∧ sep ∉ t) :
    tokens sep (ts.flatMap (fun t => t ++ [sep])) = ts := by
  induction ts with
  | nil => rfl
  | cons t ts ih =>
    obtain ⟨hne, hsep⟩ := hts t List.mem_cons_self
    have htext : (t :: ts).flatMap (fun t => t ++ [sep]) =
        t ++ sep :: ts.flatMap (fun t => t ++ [sep]) := by simp
    rw [htext, tokens, tokensFrom_token hsep (by simpa using hne), List.nil_append,
      ih (fun u hu => hts u (List.mem_cons_of_mem _ hu))]

theorem tokensFrom_last {cur token : CStr} (htoken : sep ∉ token) (hne : cur ++ token ≠ []) :
    tokensFrom sep cur token = [cur ++ token] := by
  induction token generalizing cur with
  | nil =>
    rw [List.append_nil] at hne ⊢
    rw [tokensFrom, if_neg hne]
  | cons c token ih =>
    obtain ⟨hc, htoken'⟩ := not_or.mp (mt List.mem_cons.mpr htoken)
    rw [tokensFrom, if_neg (Ne.symm hc), ih htoken' (by simp), List.append_assoc,
      List.singleton_append]

def separated (sep : Char) : List CStr → CStr
  | [] => []
  | t :: ts => t ++ ts.flatMap fun t => sep :: t

theorem tokens_separated {ts : List CStr} (hts : ∀ t ∈ ts, t ≠ [] ∧ sep ∉ t) :
    tokens sep (separated sep ts) = ts := by
  induction ts with
  | nil => rfl
  | cons t ts ih =>
    obtain ⟨hne, hsep⟩ := hts t List.mem_cons_self
    have hrest := ih fun u hu => hts u (List.mem_cons_of_mem _ hu)
    cases ts with
    | nil =>
      have htext : separated sep [t] = t := List.append_nil t
      rw [htext, tokens, tokensFrom_last hsep (by simpa using hne), List.nil_append]
    | cons u ts =>
      have htext : separated sep (t :: u :: ts) = t ++ sep :: separated sep (u :: ts) := rfl
      rw [htext, tokens, tokensFrom_token hsep (by simpa using hne), List.nil_append, hrest]

variable {pat : CStr}

theorem prefix_terminated_iff (hsep : sep ∉ pat) (a t : CStr) :
    pat <+: a ++ sep :: t ↔ pat <+: a := by
  induction pat generalizing a with
  | nil => simp
  | cons c pat ih =>
    obtain ⟨hc, hsep'⟩ := not_or.mp (mt List.mem_cons.mpr hsep)
    cases a with
    | nil =>
      rw [List.nil_append, List.cons_prefix_cons, List.prefix_nil]
      constructor
      · intro h
        exact absurd h.1.symm hc
      · intro h
        cases h
    | cons d a => rw [List.cons_append, List.cons_prefix_cons, List.cons_prefix_cons, ih hsep']

theorem infix_terminated_iff (hne : pat ≠ []) (hsep : sep ∉ pat) (a t : CStr) :
    pat <:+: a ++ sep :: t ↔ pat <:+: a ∨ pat <:+: t := by
  induction a with
  | nil =>
    have hstart : ¬ pat <+: sep :: t := by
      intro h
      have h' := (prefix_terminated_iff hsep [] t).mp h
      exact hne (List.prefix_nil.mp h')
    rw [List.nil_append, List.infix_cons_iff, List.infix_nil]
    simp only [hstart, hne, false_or]
  | cons c a ih =>
    rw [List.cons_append, List.infix_cons_iff, ih, List.infix_cons_iff, ← List.cons_append,
      prefix_terminated_iff hsep, or_assoc]

theorem infix_flatMap_terminated_iff (hne : pat ≠ []) (hsep : sep ∉ pat)
    (ts : List CStr) :
    pat <:+: ts.flatMap (fun t => t ++ [sep]) ↔ ∃ t ∈ ts, pat <:+: t := by
  induction ts with
  | nil => simp [hne]
  | cons t ts ih =>
    have htext : (t :: ts).flatMap (fun t => t ++ [sep]) =
        t ++ sep :: ts.flatMap (fun t => t ++ [sep]) := by simp
    rw [htext, infix_terminated_iff hne hsep, ih, List.exists_mem_cons_iff]

end Tokens

end CcspPandM.TextSearch
