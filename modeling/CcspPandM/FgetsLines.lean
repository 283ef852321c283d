import CcspPandM.CString

/-!
A file read with `fgets` into a buffer that has room for a given number of
characters. A line that fits is read at once with its newline; a longer one
comes in pieces, the last of which may be the newline alone.
-/
namespace CcspPandM.FgetsLines

open CString

def readFrom (room : ℕ) (cur : CStr) : CStr → List CStr
  | [] => if cur = [] then [] else [cur]
  | c :: rest =>
    if c = '\n' ∨ cur.length + 1 = room then (cur ++ [c]) :: readFrom room [] rest
    else readFrom room (cur ++ [c]) rest

def reads (room : ℕ) (file : CStr) : List CStr := readFrom room [] file

variable {room : ℕ}

@[simp] theorem reads_nil : reads room [] = [] := rfl

variable {cur t : CStr}

theorem readFrom_line (ht : '\n' ∉ t) (hfit : cur.length + t.length < room)
    (rest : CStr) :
    readFrom room cur (t ++ '\n' :: rest) = (cur ++ t ++ ['\n']) :: reads room rest := by
  induction t generalizing cur with
  | nil =>
    rw [List.nil_append, readFrom, if_pos (.inl rfl), List.append_nil]
    rfl
  | cons c t ih =>
    obtain ⟨hc, ht'⟩ := not_or.mp (mt List.mem_cons.mpr ht)
    rw [List.length_cons] at hfit
    have hgo : ¬(c = '\n' ∨ cur.length + 1 = room) := by
      intro h
      rcases h with hnl | hfull
      · exact hc hnl.symm
      · omega
    have hlen : (cur ++ [c]).length + t.length < room := by
      rw [List.length_append, List.length_singleton]
      omega
    rw [List.cons_append, readFrom, if_neg hgo, ih ht' hlen, List.append_cons cur c t]

theorem readFrom_piece (ht : '\n' ∉ t) (hcur : cur.length < room)
    (hlong : room ≤ cur.length + t.length) (rest : CStr) :
    readFrom room cur (t ++ rest) =
      (cur ++ t.take (room - cur.length)) :: reads room (t.drop (room - cur.length) ++ rest) := by
  induction t generalizing cur with
  | nil =>
    rw [List.length_nil] at hlong
    omega
  | cons c t ih =>
    obtain ⟨hc, ht'⟩ := not_or.mp (mt List.mem_cons.mpr ht)
    rw [List.length_cons] at hlong
    by_cases hfull : cur.length + 1 = room
    · have hroom : room - cur.length = 1 := by omega
      rw [List.cons_append, readFrom, if_pos (.inr hfull), hroom]
      rfl
    · have hgo : ¬(c = '\n' ∨ cur.length + 1 = room) := by
        intro h
        rcases h with hnl | hfull'
        · exact hc hnl.symm
        · exact hfull hfull'
      have hlen : (cur ++ [c]).length = cur.length + 1 := by simp
      have hroom : room - cur.length = (room - (cur ++ [c]).length) + 1 := by omega
      rw [List.cons_append, readFrom, if_neg hgo, ih ht' (by omega) (by omega), hroom,
        List.take_succ_cons, List.drop_succ_cons, List.append_assoc, List.singleton_append]

variable {t : CStr}

theorem reads_line (ht : '\n' ∉ t) (hfit : t.length < room) (rest : CStr) :
    reads room (t ++ '\n' :: rest) = (t ++ ['\n']) :: reads room rest := by
  have h := @readFrom_line room [] t ht (by simpa using hfit) rest
  rwa [List.nil_append] at h

theorem reads_lines {ts : List CStr} (h : ∀ t ∈ ts, '\n' ∉ t ∧ t.length < room) :
    reads room (ts.flatMap fun t => t ++ ['\n']) = ts.map fun t => t ++ ['\n'] := by
  induction ts with
  | nil => rfl
  | cons t ts ih =>
    obtain ⟨ht, hts⟩ := List.forall_mem_cons.mp h
    rw [List.flatMap_cons, List.append_assoc, List.singleton_append, reads_line ht.1 ht.2, ih hts,
      List.map_cons]

theorem readFrom_last (ht : '\n' ∉ t) (hfit : cur.length + t.length < room) :
    readFrom room cur t = if cur ++ t = [] then [] else [cur ++ t] := by
  induction t generalizing cur with
  | nil => rw [readFrom, List.append_nil]
  | cons c t ih =>
    obtain ⟨hc, ht'⟩ := not_or.mp (mt List.mem_cons.mpr ht)
    rw [List.length_cons] at hfit
    have hgo : ¬(c = '\n' ∨ cur.length + 1 = room) := by
      rintro (hnl | hfull)
      · exact hc hnl.symm
      · omega
    have hlen : (cur ++ [c]).length + t.length < room := by
      rw [List.length_append, List.length_singleton]
      omega
    rw [readFrom, if_neg hgo, ih ht' hlen, List.append_assoc, List.singleton_append]

theorem reads_last (ht : '\n' ∉ t) (hfit : t.length < room) :
    reads room t = if t = [] then [] else [t] := by
  have h := @readFrom_last room [] t ht (by simpa using hfit)
  rwa [List.nil_append] at h

theorem reads_piece (ht : '\n' ∉ t) (hroom : 0 < room) (hlong : room ≤ t.length)
    (rest : CStr) : reads room (t ++ rest) = t.take room :: reads room (t.drop room ++ rest) := by
  have h := @readFrom_piece room [] t ht hroom (by simpa using hlong) rest
  rwa [List.nil_append, List.length_nil, Nat.sub_zero] at h

theorem readFrom_more {cur : CStr} (hcur : cur ≠ []) (file : CStr) :
    ∃ more after, readFrom room cur file = (cur ++ more) :: after := by
  induction file generalizing cur with
  | nil => exact ⟨[], [], by rw [readFrom, if_neg hcur, List.append_nil]⟩
  | cons c file ih =>
    by_cases hstop : c = '\n' ∨ cur.length + 1 = room
    · exact ⟨[c], readFrom room [] file, by rw [readFrom, if_pos hstop]⟩
    · obtain ⟨more, after, h⟩ := @ih (cur ++ [c]) (by simp)
      refine ⟨c :: more, after, ?_⟩
      rw [readFrom, if_neg hstop, h, List.append_assoc, List.singleton_append]

theorem readFrom_start (ht : '\n' ∉ t) (hne : cur ++ t ≠ [])
    (hfit : cur.length + t.length ≤ room) (rest : CStr) :
    ∃ more after, readFrom room cur (t ++ rest) = (cur ++ t ++ more) :: after := by
  induction t generalizing cur with
  | nil =>
    rw [List.append_nil] at hne ⊢
    exact readFrom_more hne rest
  | cons c t ih =>
    obtain ⟨hc, ht'⟩ := not_or.mp (mt List.mem_cons.mpr ht)
    rw [List.length_cons] at hfit
    by_cases hstop : c = '\n' ∨ cur.length + 1 = room
    · have hnil : t = [] := by
        rcases hstop with hnl | hfull
        · exact absurd hnl.symm hc
        · exact List.length_eq_zero_iff.mp (by omega)
      subst hnil
      exact ⟨[], readFrom room [] rest, by
        rw [List.singleton_append, readFrom, if_pos hstop, List.append_nil]⟩
    · have hlen : (cur ++ [c]).length + t.length ≤ room := by
        rw [List.length_append, List.length_singleton]
        omega
      have h := ih ht' (by simp) hlen
      rwa [← List.append_cons, ← show readFrom room cur (c :: t ++ rest) =
        readFrom room (cur ++ [c]) (t ++ rest) by
          rw [List.cons_append, readFrom, if_neg hstop]] at h

theorem reads_start (ht : '\n' ∉ t) (hne : t ≠ []) (hfit : t.length ≤ room)
    (rest : CStr) : ∃ more after, reads room (t ++ rest) = (t ++ more) :: after := by
  have h := @readFrom_start room [] t ht (by simpa using hne) (by simpa using hfit) rest
  rwa [List.nil_append] at h

end CcspPandM.FgetsLines
