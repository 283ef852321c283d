import CcspPandM.ScanText

/-!
Lists of IPv4 addresses as comma-separated text. The reader cuts the caller's
string at each comma while it reads the address before it, counts the
addresses, and judges what follows the last comma by its length alone; the
array of the caller is written at the end. `ULONG` has 32 bits.
-/
namespace CcspPandM.IpaddrText

open CString InetText ScanText

abbrev Addr := BitVec 32

/-- `COSA_DML_DHCP_MAX_ENTRIES` -/
def maxEntries : ℕ := 4

def INADDR_NONE : Addr := 0xffffffff

/-- `_ansc_inet_addr(&pTmpString[j])`, which reads up to the first NUL. -/
def inetAddrAt (pTmpString : CStr) (j : ℕ) : Addr :=
  inet_addr ((pTmpString.drop j).takeWhile (· ≠ '\x00'))

structure Walk where
  pTmpString : CStr
  i : ℕ
  j : ℕ
  n : ℕ
  pIPAddr2 : List Addr

/-- The loop, and whether it came to its end rather than to `EXIT`. Its first
argument bounds the rounds. -/
def walk (MaxNumber : ℕ) : ℕ → Walk → Walk × Bool
  | 0, w => (w, true)
  | rounds + 1, w =>
    match w.pTmpString[w.i]? with
    | none => (w, true)
    | some c =>
      if c = ',' then
        let cut := w.pTmpString.set w.i '\x00'
        let addr := inetAddrAt cut w.j
        let restored := cut.set w.i ','
        if addr = INADDR_NONE then
          ({ w with pTmpString := restored, n := MaxNumber }, false)
        else
          let w := { w with
            pTmpString := restored, j := w.i + 1, n := w.n + 1,
            pIPAddr2 := w.pIPAddr2.set w.n addr }
          if MaxNumber ≤ w.n then (w, true) else walk MaxNumber rounds { w with i := w.i + 1 }
      else walk MaxNumber rounds { w with i := w.i + 1 }

/-- The result, the caller's array and the caller's string afterwards. -/
def CosaDmlSetIpaddr (pIPAddr : List Addr) (pString : CStr) (MaxNumber : ℕ) :
    Bool × List Addr × CStr :=
  if MaxNumber = 0 then (false, pIPAddr, pString)
  else
    let start := ⟨pString, 0, 0, 0, List.replicate maxEntries 0⟩
    let (w, ended) := walk MaxNumber (pString.length + 1) start
    let rest := (BitVec.ofNat 32 w.i - BitVec.ofNat 32 w.j).toNat
    let commit (pIPAddr2 : List Addr) := pIPAddr2.take MaxNumber ++ pIPAddr.drop MaxNumber
    if ¬ ended then (false, pIPAddr, w.pTmpString)
    else if w.n < MaxNumber ∧ 7 ≤ rest then
      let addr := inetAddrAt w.pTmpString w.j
      if addr = INADDR_NONE then (false, pIPAddr, w.pTmpString)
      else (true, commit (w.pIPAddr2.set w.n addr), w.pTmpString)
    else if 1 < rest then (false, pIPAddr, w.pTmpString)
    else (true, commit w.pIPAddr2, w.pTmpString)

def addrText (a : Addr) : CStr := dotted (addrOctets a)

/-- The result and the text; `ulStrLength` is the size of the caller's buffer. -/
def CosaDmlGetIpaddrString (ulStrLength : ℕ) (pIPAddr : List Addr) (MaxNumber : ℕ) : Bool × CStr :=
  if ulStrLength < MaxNumber * 16 + 1 then (false, [])
  else (true, (((pIPAddr.take MaxNumber).takeWhile (· ≠ 0)).flatMap
    (fun a => addrText a ++ [','])).dropLast)

section Pieces

def pieces : CStr → List CStr × CStr
  | [] => ([], [])
  | c :: t =>
    if c = ',' then ([] :: (pieces t).1, (pieces t).2)
    else match pieces t with
      | ([], last) => ([], c :: last)
      | (p :: ps, last) => ((c :: p) :: ps, last)

def joined (ps : List CStr) (last : CStr) : CStr := ps.flatMap (fun p => p ++ [',']) ++ last

theorem joined_cons (p : CStr) (ps : List CStr) (last : CStr) :
    joined (p :: ps) last = p ++ ',' :: joined ps last := by
  simp [joined]

theorem pieces_join (t : CStr) : joined (pieces t).1 (pieces t).2 = t := by
  induction t with
  | nil => rfl
  | cons c t ih =>
    rw [pieces]
    by_cases hc : c = ','
    · rw [if_pos hc, joined_cons, ih, hc]
      rfl
    · rw [if_neg hc]
      match hp : pieces t with
      | ([], last) =>
        rw [hp] at ih
        exact congrArg (List.cons c) ih
      | (p :: ps, last) =>
        rw [hp] at ih
        rw [joined_cons] at ih ⊢
        exact congrArg (List.cons c) ih

theorem comma_notMem_pieces (t : CStr) : (∀ p ∈ (pieces t).1, ',' ∉ p) ∧ ',' ∉ (pieces t).2 := by
  induction t with
  | nil => exact ⟨fun p hp => absurd hp List.not_mem_nil, List.not_mem_nil⟩
  | cons c t ih =>
    rw [pieces]
    by_cases hc : c = ','
    · rw [if_pos hc]
      exact ⟨List.forall_mem_cons.mpr ⟨List.not_mem_nil, ih.1⟩, ih.2⟩
    · rw [if_neg hc]
      match hp : pieces t with
      | ([], last) =>
        rw [hp] at ih
        refine ⟨fun p hp => absurd hp List.not_mem_nil, ?_⟩
        exact List.not_mem_cons_of_ne_of_not_mem (Ne.symm hc) ih.2
      | (p :: ps, last) =>
        rw [hp] at ih
        obtain ⟨hp, hps⟩ := List.forall_mem_cons.mp ih.1
        exact ⟨List.forall_mem_cons.mpr
          ⟨List.not_mem_cons_of_ne_of_not_mem (Ne.symm hc) hp, hps⟩, ih.2⟩

theorem pieces_append {p : CStr} (hp : ',' ∉ p) (t : CStr) :
    pieces (p ++ ',' :: t) = (p :: (pieces t).1, (pieces t).2) := by
  induction p with
  | nil => rw [List.nil_append, pieces, if_pos rfl]
  | cons c p ih =>
    obtain ⟨hc, hp'⟩ := not_or.mp (mt List.mem_cons.mpr hp)
    rw [List.cons_append, pieces, if_neg (Ne.symm hc), ih hp']

theorem pieces_last {p : CStr} (hp : ',' ∉ p) : pieces p = ([], p) := by
  induction p with
  | nil => rfl
  | cons c p ih =>
    obtain ⟨hc, hp'⟩ := not_or.mp (mt List.mem_cons.mpr hp)
    rw [pieces, if_neg (Ne.symm hc), ih hp']

theorem pieces_joined {ps : List CStr} (hps : ∀ p ∈ ps, ',' ∉ p) {last : CStr}
    (hlast : ',' ∉ last) : pieces (joined ps last) = (ps, last) := by
  induction ps with
  | nil => exact pieces_last hlast
  | cons p ps ih =>
    obtain ⟨hp, hps'⟩ := List.forall_mem_cons.mp hps
    rw [joined_cons, pieces_append hp, ih hps']

end Pieces

section Walking

variable {MaxNumber : ℕ}

theorem walk_skip {piece : CStr} (hpiece : ',' ∉ piece) (pre post : CStr) (rounds : ℕ) {w : Walk}
    (htext : w.pTmpString = pre ++ piece ++ post) (hi : w.i = pre.length) :
    walk MaxNumber (piece.length + rounds) w =
      walk MaxNumber rounds { w with i := pre.length + piece.length } := by
  induction piece generalizing pre w with
  | nil =>
    rw [List.length_nil, Nat.zero_add, Nat.add_zero, ← hi]
  | cons c piece ih =>
    obtain ⟨hc, hpiece'⟩ := not_or.mp (mt List.mem_cons.mpr hpiece)
    have hat : w.pTmpString[w.i]? = some c := by
      rw [htext, hi, List.append_assoc, List.getElem?_append_right (le_refl _), Nat.sub_self]
      rfl
    have hstep := @ih hpiece' (pre ++ [c]) { w with i := w.i + 1 } (by simp [htext]) (by simp [hi])
    rw [List.length_cons, Nat.add_right_comm, walk, hat]
    simp only [if_neg (Ne.symm hc)]
    rw [hstep, List.length_append, List.length_singleton, Nat.add_assoc, Nat.add_comm 1]

theorem walk_piece {piece : CStr} (hpiece : ',' ∉ piece) (hnul : '\x00' ∉ piece) (pre rest : CStr)
    (rounds : ℕ) {w : Walk} (htext : w.pTmpString = pre ++ piece ++ ',' :: rest)
    (hi : w.i = pre.length) (hj : w.j = pre.length) :
    walk MaxNumber (piece.length + (rounds + 1)) w =
      if inet_addr piece = INADDR_NONE then
        ({ w with i := pre.length + piece.length, n := MaxNumber }, false)
      else
        let w := { w with
          i := pre.length + piece.length, j := pre.length + piece.length + 1, n := w.n + 1,
          pIPAddr2 := w.pIPAddr2.set w.n (inet_addr piece) }
        if MaxNumber ≤ w.n then (w, true)
        else walk MaxNumber rounds { w with i := w.i + 1 } := by
  have hat : w.pTmpString[pre.length + piece.length]? = some ',' := by
    rw [htext, ← List.length_append, List.getElem?_append_right (le_refl _), Nat.sub_self]
    rfl
  have hset : ∀ c d : Char, (pre ++ piece ++ c :: rest).set (pre.length + piece.length) d =
      pre ++ piece ++ d :: rest := by
    intro c d
    rw [← List.length_append, List.set_append_right _ _ (le_refl _), Nat.sub_self]
    rfl
  have hread : inetAddrAt (pre ++ piece ++ '\x00' :: rest) pre.length = inet_addr piece := by
    rw [inetAddrAt, List.append_assoc, List.drop_left, List.takeWhile_append_of_pos]
    · simp
    · intro c hc
      simp only [ne_eq, decide_not, Bool.not_eq_true', decide_eq_false_iff_not]
      rintro rfl
      exact hnul hc
  rw [walk_skip hpiece pre (',' :: rest) (rounds + 1) htext hi, walk]
  rw [htext] at hat
  simp only [hat, if_true, htext, hset, hj, hread]

theorem walk_read {ps : List CStr} {last : CStr} (hps : ∀ p ∈ ps, ',' ∉ p ∧ '\x00' ∉ p)
    (hlast : ',' ∉ last) (hread : ∀ p ∈ ps, inet_addr p ≠ INADDR_NONE) (pre : CStr)
    (done : List Addr) (hroom : done.length + ps.length < MaxNumber) (hmax : MaxNumber ≤ maxEntries)
    {w : Walk} (htext : w.pTmpString = pre ++ joined ps last) (hi : w.i = pre.length)
    (hj : w.j = pre.length) (hn : w.n = done.length)
    (harray : w.pIPAddr2 = done ++ List.replicate (maxEntries - done.length) 0) :
    walk MaxNumber ((joined ps last).length + 1) w =
      ({ pTmpString := w.pTmpString
         i := w.pTmpString.length
         j := w.pTmpString.length - last.length
         n := done.length + ps.length
         pIPAddr2 := done ++ ps.map inet_addr ++
           List.replicate (maxEntries - (done.length + ps.length)) 0 }, true) := by
  induction ps generalizing pre done w with
  | nil =>
    have hend : w.pTmpString[pre.length + last.length]? = none := by
      rw [htext, ← List.length_append]
      exact List.getElem?_eq_none (le_refl _)
    have hskip := @walk_skip MaxNumber last hlast pre [] 1 w (by simpa [joined] using htext) hi
    have hlen : w.pTmpString.length = pre.length + last.length := by
      rw [htext, List.length_append]
      rfl
    change walk MaxNumber (last.length + 1) w = _
    rw [hskip, walk]
    simp only [hend, hlen, hj, hn, harray, Nat.add_sub_cancel, List.length_nil, Nat.add_zero,
      List.map_nil, List.append_nil]
  | cons p ps ih =>
    obtain ⟨hp, hps'⟩ := List.forall_mem_cons.mp hps
    obtain ⟨hreadp, hread'⟩ := List.forall_mem_cons.mp hread
    rw [List.length_cons] at hroom
    have hnext := @ih hps' hread' (pre ++ p ++ [',']) (done ++ [inet_addr p])
      (by rw [List.length_append, List.length_singleton]; omega)
      { w with
        i := pre.length + p.length + 1, j := pre.length + p.length + 1, n := w.n + 1,
        pIPAddr2 := w.pIPAddr2.set w.n (inet_addr p) }
      (by rw [htext, joined_cons]; simp)
      (by simp only [List.length_append, List.length_singleton])
      (by simp only [List.length_append, List.length_singleton]) (by simp [hn])
      (by
        rw [harray, hn, List.set_append_right _ _ (le_refl _), Nat.sub_self,
          show maxEntries - done.length = maxEntries - (done.length + 1) + 1 by omega,
          List.replicate_succ, List.set_cons_zero, List.length_append, List.length_singleton]
        simp)
    have hlen : (joined (p :: ps) last).length + 1 =
        p.length + ((joined ps last).length + 1 + 1) := by
      rw [joined_cons, List.length_append, List.length_cons]
      omega
    rw [hlen, walk_piece hp.1 hp.2 pre (joined ps last) _ (by rw [htext, joined_cons]; simp) hi hj,
      if_neg hreadp]
    simp only [hn, if_neg (show ¬ MaxNumber ≤ done.length + 1 by omega)]
    have hcount : (done ++ [inet_addr p]).length + ps.length = done.length + (p :: ps).length := by
      rw [List.length_append, List.length_singleton, List.length_cons]
      omega
    rw [hn, hcount, ← List.append_cons] at hnext
    exact hnext

theorem walk_refused {ps : List CStr} {last : CStr} (hps : ∀ p ∈ ps, ',' ∉ p ∧ '\x00' ∉ p)
    (pre : CStr) {n : ℕ} (hn : n < MaxNumber)
    (hbad : MaxNumber ≤ n + ps.length ∨ ∃ p ∈ ps, inet_addr p = INADDR_NONE) {w : Walk}
    (htext : w.pTmpString = pre ++ joined ps last) (hi : w.i = pre.length) (hj : w.j = pre.length)
    (hw : w.n = n) :
    ∃ t ended, walk MaxNumber ((joined ps last).length + 1) w = (t, ended) ∧
      t.pTmpString = w.pTmpString ∧ (ended = true → t.n = MaxNumber ∧ t.j = t.i + 1 ∧
        t.i < w.pTmpString.length) := by
  induction ps generalizing pre n w with
  | nil =>
    rcases hbad with hbad | ⟨p, hp, -⟩
    · exact absurd hbad (Nat.not_le.mpr hn)
    · exact absurd hp List.not_mem_nil
  | cons p ps ih =>
    obtain ⟨hp, hps'⟩ := List.forall_mem_cons.mp hps
    have hlen : (joined (p :: ps) last).length + 1 =
        p.length + ((joined ps last).length + 1 + 1) := by
      rw [joined_cons, List.length_append, List.length_cons]
      omega
    have hsize : pre.length + p.length < w.pTmpString.length := by
      rw [htext, joined_cons]
      simp only [List.length_append, List.length_cons]
      omega
    rw [hlen, walk_piece hp.1 hp.2 pre (joined ps last) _ (by rw [htext, joined_cons]; simp) hi hj]
    by_cases hread : inet_addr p = INADDR_NONE
    · rw [if_pos hread]
      exact ⟨_, false, rfl, rfl, fun h => by cases h⟩
    · rw [if_neg hread]
      by_cases hfull : MaxNumber ≤ w.n + 1
      · simp only [if_pos hfull]
        exact ⟨_, true, rfl, rfl, fun _ => ⟨by dsimp only; omega, rfl, hsize⟩⟩
      · have hbad' : MaxNumber ≤ n + 1 + ps.length ∨ ∃ p ∈ ps, inet_addr p = INADDR_NONE := by
          rcases hbad with hbad | ⟨q, hq, hnone⟩
          · rw [List.length_cons] at hbad
            exact Or.inl (by omega)
          · rcases List.mem_cons.mp hq with rfl | hq
            · exact absurd hnone hread
            · exact Or.inr ⟨q, hq, hnone⟩
        simp only [if_neg hfull]
        exact ih hps' (pre ++ p ++ [',']) (by omega) hbad' (by rw [htext, joined_cons]; simp)
          (by simp only [List.length_append, List.length_singleton])
          (by simp only [List.length_append, List.length_singleton]) (by dsimp only; omega)

end Walking

section Setting

/-- The texts that pass: few commas, `inet_addr` reads what stands before each, and what
stands after the last is at most one character, or seven or more that it reads. -/
def Passes (t : CStr) (MaxNumber : ℕ) : Prop :=
  (pieces t).1.length < MaxNumber ∧ (∀ p ∈ (pieces t).1, inet_addr p ≠ INADDR_NONE) ∧
    ((pieces t).2.length ≤ 1 ∨
      7 ≤ (pieces t).2.length ∧ inet_addr (pieces t).2 ≠ INADDR_NONE)

def taken (t : CStr) : List Addr :=
  (pieces t).1.map inet_addr ++
    if 7 ≤ (pieces t).2.length then [inet_addr (pieces t).2] else []

variable {MaxNumber : ℕ} {t : CStr}

theorem nul_notMem_pieces (hnul : '\x00' ∉ t) :
    (∀ p ∈ (pieces t).1, '\x00' ∉ p) ∧ '\x00' ∉ (pieces t).2 := by
  rw [← pieces_join t, joined] at hnul
  refine ⟨fun p hp hmem => hnul ?_, fun hmem => hnul (List.mem_append_right _ hmem)⟩
  exact List.mem_append_left _ (List.mem_flatMap.mpr ⟨p, hp, List.mem_append_left _ hmem⟩)

theorem length_pieces_last (t : CStr) : (pieces t).2.length ≤ t.length := by
  have h := congrArg List.length (pieces_join t)
  rw [joined, List.length_append] at h
  omega

theorem inetAddrAt_last (hnul : '\x00' ∉ t) :
    inetAddrAt t (t.length - (pieces t).2.length) = inet_addr (pieces t).2 := by
  have hsplit : ∃ front, t = front ++ (pieces t).2 := ⟨_, (pieces_join t).symm⟩
  have hdrop : t.drop (t.length - (pieces t).2.length) = (pieces t).2 := by
    obtain ⟨front, hfront⟩ := hsplit
    generalize (pieces t).2 = last at hfront ⊢
    rw [hfront, List.length_append, Nat.add_sub_cancel, List.drop_left]
  rw [inetAddrAt, hdrop, List.takeWhile_eq_self_iff.mpr]
  intro c hc
  simp only [ne_eq, decide_not, Bool.not_eq_true', decide_eq_false_iff_not]
  rintro rfl
  exact (nul_notMem_pieces hnul).2 hc

theorem rest_length {i j : ℕ} (hj : j ≤ i) (hi : i < 2 ^ 32) :
    (BitVec.ofNat 32 i - BitVec.ofNat 32 j).toNat = i - j := by
  rw [BitVec.toNat_sub, BitVec.toNat_ofNat, BitVec.toNat_ofNat]
  omega

theorem rest_wrapped (i : ℕ) :
    1 < (BitVec.ofNat 32 i - BitVec.ofNat 32 (i + 1)).toNat := by
  rw [BitVec.toNat_sub, BitVec.toNat_ofNat, BitVec.toNat_ofNat]
  omega

theorem setIpaddr_eq (hnul : '\x00' ∉ t) (hsize : t.length < 2 ^ 32) (hpos : 0 < MaxNumber)
    (hmax : MaxNumber ≤ maxEntries) (pIPAddr : List Addr) :
    (Passes t MaxNumber ∧ CosaDmlSetIpaddr pIPAddr t MaxNumber =
      (true, (taken t ++ List.replicate (maxEntries - (taken t).length) 0).take MaxNumber ++
        pIPAddr.drop MaxNumber, t)) ∨
    (¬ Passes t MaxNumber ∧ CosaDmlSetIpaddr pIPAddr t MaxNumber = (false, pIPAddr, t)) := by
  have hcommas := comma_notMem_pieces t
  have hnuls := nul_notMem_pieces hnul
  have hps : ∀ p ∈ (pieces t).1, ',' ∉ p ∧ '\x00' ∉ p := fun p hp => ⟨hcommas.1 p hp, hnuls.1 p hp⟩
  have hjoin := pieces_join t
  have hlast := length_pieces_last t
  unfold CosaDmlSetIpaddr
  rw [if_neg (by omega)]
  by_cases hgood : (pieces t).1.length < MaxNumber ∧ ∀ p ∈ (pieces t).1, inet_addr p ≠ INADDR_NONE
  · have hwalk := @walk_read MaxNumber (pieces t).1 (pieces t).2 hps hcommas.2 hgood.2 [] []
      (by simpa using hgood.1) hmax ⟨t, 0, 0, 0, List.replicate maxEntries 0⟩ hjoin.symm rfl rfl
      rfl rfl
    rw [hjoin] at hwalk
    have hrest : (BitVec.ofNat 32 t.length -
        BitVec.ofNat 32 (t.length - (pieces t).2.length)).toNat = (pieces t).2.length := by
      rw [rest_length (by omega) hsize]
      omega
    have hset : ((pieces t).1.map inet_addr ++
        List.replicate (maxEntries - (pieces t).1.length) 0).set (pieces t).1.length
          (inet_addr (pieces t).2) = (pieces t).1.map inet_addr ++ [inet_addr (pieces t).2] ++
            List.replicate (maxEntries - ((pieces t).1.length + 1)) 0 := by
      rw [List.set_append_right _ _ (by rw [List.length_map]), List.length_map, Nat.sub_self,
        show maxEntries - (pieces t).1.length = maxEntries - ((pieces t).1.length + 1) + 1 by omega,
        List.replicate_succ, List.set_cons_zero, List.append_cons]
    simp only [hwalk, hrest, List.length_nil, Nat.zero_add, List.nil_append, hgood.1, true_and,
      inetAddrAt_last hnul, not_true_eq_false, if_false, hset]
    by_cases hlong : 7 ≤ (pieces t).2.length
    · rw [if_pos hlong]
      by_cases hnone : inet_addr (pieces t).2 = INADDR_NONE
      · refine Or.inr ⟨?_, if_pos hnone⟩
        rintro ⟨-, -, hshort | ⟨-, hread⟩⟩
        · omega
        · exact hread hnone
      · refine Or.inl ⟨⟨hgood.1, hgood.2, Or.inr ⟨hlong, hnone⟩⟩, ?_⟩
        rw [if_neg hnone, taken, if_pos hlong, List.length_append, List.length_map,
          List.length_singleton]
    · rw [if_neg hlong]
      by_cases hshort : 1 < (pieces t).2.length
      · refine Or.inr ⟨?_, if_pos hshort⟩
        rintro ⟨-, -, h | h⟩
        · omega
        · exact hlong h.1
      · refine Or.inl ⟨⟨hgood.1, hgood.2, Or.inl (by omega)⟩, ?_⟩
        rw [if_neg hshort, taken, if_neg hlong, List.append_nil, List.length_map]
  · have hbad : MaxNumber ≤ 0 + (pieces t).1.length ∨
        ∃ p ∈ (pieces t).1, inet_addr p = INADDR_NONE := by
      by_contra hnot
      rw [not_or] at hnot
      exact hgood ⟨by omega, fun p hp hnone => hnot.2 ⟨p, hp, hnone⟩⟩
    obtain ⟨u, ended, hwalk, htext, hended⟩ := @walk_refused MaxNumber (pieces t).1 (pieces t).2 hps
      [] 0 hpos hbad ⟨t, 0, 0, 0, List.replicate maxEntries 0⟩ hjoin.symm rfl rfl rfl
    rw [hjoin] at hwalk
    refine Or.inr ⟨fun h => hgood ⟨h.1, h.2.1⟩, ?_⟩
    simp only [hwalk]
    change u.pTmpString = t at htext
    cases ended with
    | false => rw [if_pos (by decide), htext]
    | true =>
      obtain ⟨hn, hj, hi⟩ := hended rfl
      change u.i < t.length at hi
      have hwrapped := rest_wrapped u.i
      rw [← hj] at hwrapped
      rw [if_neg (by decide), if_neg (by omega), if_pos hwrapped, htext]

end Setting

section Lists

def listText (as : List Addr) : CStr := [','].intercalate (as.map addrText)

def IsList (t : CStr) (MaxNumber : ℕ) : Prop :=
  (pieces t).1.length + 1 ≤ MaxNumber ∧ (∀ p ∈ (pieces t).1, ∃ a, p = addrText a) ∧
    ∃ a, (pieces t).2 = addrText a

theorem listText_concat (front : List Addr) (a : Addr) :
    listText (front ++ [a]) = joined (front.map addrText) (addrText a) := by
  induction front with
  | nil => exact List.intercalate_singleton
  | cons b front ih =>
    rw [List.map_cons, joined_cons, ← ih]
    cases front with
    | nil => simp [listText, List.intercalate]
    | cons b' front => simp [listText, List.intercalate]

theorem pieces_listText (front : List Addr) (a : Addr) :
    pieces (listText (front ++ [a])) = (front.map addrText, addrText a) := by
  have hcomma : ∀ a, ',' ∉ addrText a := notMem_dotted_addrOctets rfl (by decide)
  rw [listText_concat]
  apply pieces_joined
  · intro p hp
    obtain ⟨b, -, rfl⟩ := List.mem_map.mp hp
    exact hcomma b
  · exact hcomma a

theorem nul_notMem_listText (as : List Addr) : '\x00' ∉ listText as := by
  rcases List.eq_nil_or_concat as with rfl | ⟨front, a, rfl⟩
  · exact List.not_mem_nil
  · have hnul : ∀ a, '\x00' ∉ addrText a := notMem_dotted_addrOctets rfl (by decide)
    rw [List.concat_eq_append, listText_concat, joined]
    simp [hnul]

theorem length_listText_le (as : List Addr) : (listText as).length ≤ 16 * as.length := by
  rcases List.eq_nil_or_concat as with rfl | ⟨front, a, rfl⟩
  · exact Nat.le_refl 0
  · have hjoined : (joined (front.map addrText) (addrText a)).length ≤ 16 * front.length + 15 := by
      induction front with
      | nil => exact length_dotted_addrOctets_le a
      | cons b front ih =>
        have hb := length_dotted_addrOctets_le b
        rw [List.map_cons, joined_cons, List.length_append, List.length_cons, List.length_cons]
        change (addrText b).length ≤ 15 at hb
        omega
    rw [List.concat_eq_append, listText_concat, List.length_append, List.length_singleton]
    omega

theorem passes_listText {as : List Addr} (hne : as ≠ []) {MaxNumber : ℕ}
    (hlen : as.length ≤ MaxNumber) (has : INADDR_NONE ∉ as) :
    Passes (listText as) MaxNumber ∧ taken (listText as) = as := by
  have hread : ∀ a, inet_addr (addrText a) = a := inet_addr_dotted
  rcases List.eq_nil_or_concat as with rfl | ⟨front, a, rfl⟩
  · exact absurd rfl hne
  · have hlong : 7 ≤ (addrText a).length := length_dotted_addrOctets a
    rw [List.concat_eq_append] at hlen has ⊢
    rw [List.length_append, List.length_singleton] at hlen
    rw [List.mem_append, not_or, List.mem_singleton] at has
    rw [Passes, taken, pieces_listText]
    dsimp only
    refine ⟨⟨by rw [List.length_map]; omega, ?_, Or.inr ⟨hlong, ?_⟩⟩, ?_⟩
    · intro p hp
      obtain ⟨b, hb, rfl⟩ := List.mem_map.mp hp
      rw [hread]
      rintro rfl
      exact has.1 hb
    · rw [hread]
      exact Ne.symm has.2
    · have hmap : front.map (inet_addr ∘ addrText) = front := by
        conv_rhs => rw [← List.map_id front]
        exact List.map_congr_left (fun b _ => hread b)
      rw [if_pos hlong, List.map_map, hmap, hread]

theorem getIpaddrString_eq {as array : List Addr} (has : 0 ∉ as) {MaxNumber k : ℕ}
    (harray : array.take MaxNumber = as ++ List.replicate k 0) {ulStrLength : ℕ}
    (hroom : MaxNumber * 16 + 1 ≤ ulStrLength) :
    CosaDmlGetIpaddrString ulStrLength array MaxNumber = (true, listText as) := by
  have htaken : (as ++ List.replicate k 0).takeWhile (· ≠ (0 : Addr)) = as := by
    rw [List.takeWhile_append_of_pos]
    · cases k <;> simp [List.replicate_succ]
    · intro a ha
      have hne : a ≠ 0 := fun h => has (h ▸ ha)
      simpa using hne
  rw [CosaDmlGetIpaddrString, if_neg (by omega), harray, htaken]
  congr 1
  rcases List.eq_nil_or_concat as with rfl | ⟨front, a, rfl⟩
  · rfl
  · rw [List.concat_eq_append, listText_concat, List.flatMap_append, List.flatMap_singleton,
      ← List.append_assoc, List.dropLast_concat, joined, List.flatMap_map]

theorem take_committed {as : List Addr} {MaxNumber : ℕ} (hlen : as.length ≤ MaxNumber)
    (hmax : MaxNumber ≤ maxEntries) (pIPAddr : List Addr) :
    ((as ++ List.replicate (maxEntries - as.length) 0).take MaxNumber ++
      pIPAddr.drop MaxNumber).take MaxNumber = as ++ List.replicate (MaxNumber - as.length) 0 := by
  have hcut : (as ++ List.replicate (maxEntries - as.length) (0 : Addr)).take MaxNumber =
      as ++ List.replicate (MaxNumber - as.length) 0 := by
    rw [List.take_append, List.take_of_length_le hlen, List.take_replicate]
    congr 2
    omega
  rw [hcut]
  apply List.take_left'
  rw [List.length_append, List.length_replicate]
  omega

/-- The addresses of a list come back as its text; a text is taken only if it is a list, the
target is kept if it is not taken, and the text is left as it was. -/
def Reads (as : List Addr) (t : CStr) (MaxNumber ulStrLength : ℕ) (pIPAddr : List Addr) : Prop :=
  (∃ array, CosaDmlSetIpaddr pIPAddr (listText as) MaxNumber = (true, array, listText as) ∧
    array.take MaxNumber = as ++ List.replicate (MaxNumber - as.length) 0 ∧
    CosaDmlGetIpaddrString ulStrLength array MaxNumber = (true, listText as)) ∧
  ((CosaDmlSetIpaddr pIPAddr t MaxNumber).1 = true → IsList t MaxNumber) ∧
  ((CosaDmlSetIpaddr pIPAddr t MaxNumber).1 = false →
    (CosaDmlSetIpaddr pIPAddr t MaxNumber).2.1 = pIPAddr) ∧
  (CosaDmlSetIpaddr pIPAddr t MaxNumber).2.2 = t

/-- The reader and the printer keep their promises exactly for the texts that are refused
or are lists of dotted quads. -/
theorem ipaddr_lists_iff (MaxNumber : ℕ) (hmax : MaxNumber ≤ maxEntries) (as : List Addr)
    (hne : as ≠ []) (hlen : as.length ≤ MaxNumber) (hzero : 0 ∉ as) (hnone : INADDR_NONE ∉ as)
    (t : CStr) (hnul : '\x00' ∉ t) (hsize : t.length < 2 ^ 32) (ulStrLength : ℕ)
    (hroom : MaxNumber * 16 + 1 ≤ ulStrLength) (pIPAddr : List Addr) :
    Reads as t MaxNumber ulStrLength pIPAddr ↔ (Passes t MaxNumber → IsList t MaxNumber) := by
  have hpos : 0 < MaxNumber := lt_of_lt_of_le (List.length_pos_of_ne_nil hne) hlen
  have hlist : ∃ array, CosaDmlSetIpaddr pIPAddr (listText as) MaxNumber =
      (true, array, listText as) ∧
      array.take MaxNumber = as ++ List.replicate (MaxNumber - as.length) 0 ∧
      CosaDmlGetIpaddrString ulStrLength array MaxNumber = (true, listText as) := by
    obtain ⟨hpasses, htaken⟩ := passes_listText hne hlen hnone
    have hshort := length_listText_le as
    have hcut := take_committed hlen hmax pIPAddr
    have hfour : maxEntries = 4 := rfl
    rcases setIpaddr_eq (nul_notMem_listText as) (by omega) hpos hmax pIPAddr with
      ⟨-, hset⟩ | ⟨hnot, -⟩
    · rw [htaken] at hset
      exact ⟨_, hset, hcut, getIpaddrString_eq hzero hcut hroom⟩
    · exact absurd hpasses hnot
  rw [Reads, and_iff_right hlist]
  rcases setIpaddr_eq hnul hsize hpos hmax pIPAddr with ⟨hpasses, hset⟩ | ⟨hnot, hset⟩
  · rw [hset]
    constructor
    · exact fun h _ => h.1 rfl
    · exact fun h => ⟨fun _ => h hpasses, fun hfalse => (by cases hfalse), rfl⟩
  · rw [hset]
    refine iff_of_true ⟨fun htrue => (by cases htrue), fun _ => rfl, rfl⟩ (fun h => absurd h hnot)

theorem ipaddr_lists_one : Reads [0x0100000a] "10.0.0.1".toList 4 65 [0, 0, 0, 0] ↔
    (Passes "10.0.0.1".toList 4 → IsList "10.0.0.1".toList 4) :=
  ipaddr_lists_iff 4 (by decide) [0x0100000a] (by decide) (by decide) (by decide) (by decide)
    "10.0.0.1".toList (by decide) (by decide) 65 (by decide) [0, 0, 0, 0]

/-- A character behind a comma is not noticed. -/
theorem ipaddr_lists_tail : CosaDmlSetIpaddr [0, 0, 0, 0] "1.2.3.4,x".toList 4 =
      (true, [0x04030201, 0, 0, 0], "1.2.3.4,x".toList) ∧
    ¬ Reads [0x0100000a] "1.2.3.4,x".toList 4 65 [0, 0, 0, 0] := by
  have hset : CosaDmlSetIpaddr [0, 0, 0, 0] "1.2.3.4,x".toList 4 =
      (true, [0x04030201, 0, 0, 0], "1.2.3.4,x".toList) := by decide +kernel
  refine ⟨hset, ?_⟩
  rintro ⟨-, hlist, -⟩
  rw [hset] at hlist
  obtain ⟨-, -, a, ha⟩ := hlist rfl
  have hlong : 7 ≤ (addrText a).length := length_dotted_addrOctets a
  have hlast : (pieces "1.2.3.4,x".toList).2 = ['x'] := by decide
  rw [← ha, hlast] at hlong
  exact absurd hlong (by decide)

end Lists

end CcspPandM.IpaddrText
