import CcspPandM.CString
import Mathlib.Data.List.Induction

/-!
A text cut into its words by a set of delimiters, as repeated calls of `strtok_r`
cut it. Delimiters in front, at the end or in a row leave no words, so a text of
words, each behind at least one delimiter, gives the words back.
-/
namespace CcspPandM.WordSplit

open CString

variable (p : Char → Bool)

/-- The successive results of `strtok_r`. -/
def words (t : CStr) : List CStr := (t.splitOnP p).filter (· ≠ [])

/-- Words with the delimiters in front of each. -/
def spaced (qs : List (CStr × CStr)) : CStr := qs.flatMap fun q => q.1 ++ q.2

def Word (w : CStr) : Prop := w ≠ [] ∧ ∀ c ∈ w, p c = false

def Gap (b : CStr) : Prop := b ≠ [] ∧ ∀ c ∈ b, p c = true

variable {p}

theorem words_cons {d : Char} (hd : p d = true) (t : CStr) : words p (d :: t) = words p t := by
  rw [words, List.splitOnP_cons_eq_if_modifyHead, if_pos hd]
  rfl

theorem words_append {b : CStr} (hb : ∀ c ∈ b, p c = true) (t : CStr) :
    words p (b ++ t) = words p t := by
  induction b with
  | nil => rfl
  | cons c b ih =>
    rw [List.cons_append, words_cons (hb c List.mem_cons_self)]
    exact ih fun x hx => hb x (List.mem_cons_of_mem c hx)

theorem words_blank {b : CStr} (hb : ∀ c ∈ b, p c = true) : words p b = [] := by
  have h := words_append hb []
  rwa [List.append_nil] at h

theorem words_word {w : CStr} (hw : Word p w) {d : Char} (hd : p d = true) (t : CStr) :
    words p (w ++ d :: t) = w :: words p (d :: t) := by
  rw [words_cons hd, words, List.splitOnP_append_cons_of_forall_mem hw.2 d hd,
    List.filter_cons_of_pos (by simpa using hw.1), words]

theorem words_last {w : CStr} (hw : Word p w) : words p w = [w] := by
  rw [words, List.splitOnP_eq_singleton hw.2, List.filter_cons_of_pos (by simpa using hw.1)]
  rfl

theorem spaced_starts {qs : List (CStr × CStr)} (h : ∀ q ∈ qs, Gap p q.1) {t : CStr}
    (ht : Gap p t) : ∃ d r, spaced qs ++ t = d :: r ∧ p d = true := by
  cases qs with
  | nil =>
    obtain ⟨d, r, rfl⟩ := List.exists_cons_of_ne_nil ht.1
    exact ⟨d, r, rfl, ht.2 d List.mem_cons_self⟩
  | cons q qs =>
    obtain ⟨hne, hall⟩ := h q List.mem_cons_self
    obtain ⟨d, r, hq⟩ := List.exists_cons_of_ne_nil hne
    refine ⟨d, r ++ q.2 ++ spaced qs ++ t, ?_, hall d (by rw [hq]; exact List.mem_cons_self)⟩
    simp [spaced, hq]

/-- The words behind their gaps come back, whatever delimiters end the text. -/
theorem words_spaced {qs : List (CStr × CStr)} (h : ∀ q ∈ qs, Gap p q.1 ∧ Word p q.2) {t : CStr}
    (ht : Gap p t) : words p (spaced qs ++ t) = qs.map Prod.snd := by
  induction qs with
  | nil => exact words_blank ht.2
  | cons q qs ih =>
    obtain ⟨⟨hgap, hword⟩, hrest⟩ := List.forall_mem_cons.mp h
    obtain ⟨d, r, hstart, hd⟩ := spaced_starts (fun x hx => (hrest x hx).1) ht
    have htext : spaced (q :: qs) ++ t = q.1 ++ (q.2 ++ d :: r) := by
      rw [← hstart]
      simp [spaced]
    rw [htext, words_append hgap.2, words_word hword hd, ← hstart, ih hrest, List.map_cons]

theorem word_of_mem_splitOnP {t w : CStr} (h : w ∈ t.splitOnP p) : ∀ c ∈ w, p c = false := by
  induction t generalizing w with
  | nil =>
    rw [List.splitOnP_nil, List.mem_singleton] at h
    simp [h]
  | cons x t ih =>
    rw [List.splitOnP_cons_eq_if_modifyHead] at h
    split at h
    · rcases List.mem_cons.mp h with rfl | h
      · simp
      · exact ih h
    · rename_i hx
      obtain ⟨v, vs, hsplit⟩ := List.exists_cons_of_ne_nil (List.splitOnP_ne_nil p t)
      rw [hsplit] at h ih
      rcases List.mem_cons.mp h with rfl | h
      · exact List.forall_mem_cons.mpr ⟨by simpa using hx, ih List.mem_cons_self⟩
      · exact ih (List.mem_cons_of_mem v h)

theorem word_of_mem_words {t w : CStr} (h : w ∈ words p t) : Word p w := by
  obtain ⟨hmem, hne⟩ := List.mem_filter.mp h
  exact ⟨of_decide_eq_true hne, word_of_mem_splitOnP hmem⟩

theorem words_snoc {d : Char} (hd : p d = true) {w : CStr} (hw : Word p w) (t : CStr) :
    words p (t ++ d :: w) = words p t ++ [w] := by
  rw [words, List.splitOnP_append_cons t w hd, List.filter_append]
  exact congrArg (words p t ++ ·) (words_last hw)

theorem words_flatMap {d : Char} (hd : p d = true) {ws : List CStr} (h : ∀ w ∈ ws, Word p w) :
    words p (ws.flatMap fun w => d :: w) = ws := by
  induction ws using List.reverseRecOn with
  | nil => rfl
  | append_singleton ws w ih =>
    have hrest := ih fun x hx => h x (List.mem_append_left [w] hx)
    rw [List.flatMap_append, List.flatMap_singleton, words_snoc hd (h w (by simp)), hrest]

end CcspPandM.WordSplit
