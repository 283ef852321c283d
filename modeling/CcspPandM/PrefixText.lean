import CcspPandM.HostWords
import CcspPandM.InetText

/-!
Addresses whose low 64 bits are zero, as `inet_ntop` prints them and `inet_pton`
reads them back. The longest run of zero groups of such an address always
reaches its end, so its text is the groups before that run and then `::`.
-/
namespace CcspPandM.PrefixText

open BitWindow CString InetText

def octets {n : ℕ} (b : Bytes n) : List ℕ := (List.range n).map (fun i => (b.byteAt i).toNat)

def ofOctets {n : ℕ} (os : List ℕ) : Bytes n := fun k => BitVec.ofNat 8 (os.getD k.val 0)

def networkAddress (b : Bytes 8) : Bytes 16 := fun k => b.byteAt k.val

variable (b : Bytes 8)

theorem octets_networkAddress : octets (networkAddress b) =
    [(b 0).toNat, (b 1).toNat, (b 2).toNat, (b 3).toNat, (b 4).toNat, (b 5).toNat, (b 6).toNat,
      (b 7).toNat, 0, 0, 0, 0, 0, 0, 0, 0] := rfl

theorem hexValue_digitChar {d : ℕ} (h : d < 16) : hexValue d.digitChar = some d := by
  revert d
  decide

theorem hexValue_isSome_of_mem {w : ℕ} {c : Char} (h : c ∈ hexText w) : (hexValue c).isSome := by
  induction w using Nat.strongRecOn with
  | _ w ih =>
    by_cases hsmall : w < 16
    · have htext : hexText w = [w.digitChar] := Nat.toDigits_of_lt_base hsmall
      rw [htext, List.mem_singleton] at h
      simp [h, hexValue_digitChar hsmall]
    · have htext : hexText w = hexText (w / 16) ++ [(w % 16).digitChar] :=
        Nat.toDigits_of_base_le (by omega) (by omega)
      rw [htext, List.mem_append, List.mem_singleton] at h
      rcases h with h | h
      · exact ih (w / 16) (by omega) h
      · simp [h, hexValue_digitChar (Nat.mod_lt w (show 0 < 16 by omega))]

theorem pton6From_digit {d seen : ℕ} (hd : d < 16) (hseen : seen ≠ 4) (rest tok : CStr)
    (out : List ℕ) (colon : Option ℕ) (val : ℕ) :
    pton6From (d.digitChar :: rest) tok out colon seen val =
      pton6From rest tok out colon (seen + 1) (val * 16 + d) := by
  simp only [pton6From, hexValue_digitChar hd, if_neg hseen]

theorem pton6From_hexText (w : ℕ) (hw : (hexText w).length ≤ 4) (rest tok : CStr) (out : List ℕ)
    (colon : Option ℕ) : pton6From (hexText w ++ rest) tok out colon 0 0 =
      pton6From rest tok out colon (hexText w).length w := by
  induction w using Nat.strongRecOn generalizing rest with
  | _ w ih =>
    by_cases hsmall : w < 16
    · have htext : hexText w = [w.digitChar] := Nat.toDigits_of_lt_base hsmall
      rw [htext, List.singleton_append, pton6From_digit hsmall (by omega)]
      simp only [Nat.zero_mul, Nat.zero_add, List.length_singleton]
    · have htext : hexText w = hexText (w / 16) ++ [(w % 16).digitChar] :=
        Nat.toDigits_of_base_le (by omega) (by omega)
      rw [htext, List.length_append, List.length_singleton] at hw
      have hhead := ih (w / 16) (by omega) (by omega) ((w % 16).digitChar :: rest)
      have hseen : (hexText (w / 16)).length ≠ 4 := by omega
      have hval : w / 16 * 16 + w % 16 = w := by omega
      rw [htext, List.append_assoc, List.singleton_append, hhead,
        pton6From_digit (Nat.mod_lt _ (by omega)) hseen, hval, List.length_append,
        List.length_singleton]

theorem hexText_length_le {w : ℕ} (h : w < 2 ^ 16) : (hexText w).length ≤ 4 :=
  (Nat.length_toDigits_le_iff (by omega) (by omega)).mpr h

def groupOctets (w : ℕ) : List ℕ := [w / 256, w % 256]

def groupsText (ws : List ℕ) : CStr := ws.flatMap (fun w => hexText w ++ [':'])

variable (ws : List ℕ)

theorem pton6From_groupsText (hws : ∀ w ∈ ws, w < 2 ^ 16) (tok : CStr)
    (out : List ℕ) (hroom : out.length + 2 * ws.length < 16) :
    pton6From (groupsText ws ++ [':']) tok out none 0 0 =
      some (out ++ ws.flatMap groupOctets ++
        List.replicate (16 - (out.length + 2 * ws.length)) 0) := by
  induction ws generalizing out tok with
  | nil =>
    have hlt : out.length < 16 := by simpa using hroom
    simp [groupsText, pton6From, hexValue, pton6Finish, pton6Expand, hlt]
  | cons w ws ih =>
    have hlen := hexText_length_le (hws w List.mem_cons_self)
    have hne : (hexText w).length ≠ 0 := by
      have hpos := Nat.length_toDigits_pos (b := 16) (n := w)
      exact Nat.pos_iff_ne_zero.mp hpos
    have hfit : out.length + 2 ≤ 16 := by
      rw [List.length_cons] at hroom
      omega
    have hrest : groupsText ws ++ [':'] ≠ [] := by simp
    have htext : groupsText (w :: ws) ++ [':'] = hexText w ++ ':' :: (groupsText ws ++ [':']) := by
      simp [groupsText]
    have htail := ih (fun v hv => hws v (List.mem_cons_of_mem _ hv)) (groupsText ws ++ [':'])
      (out ++ groupOctets w) (by simp only [List.length_append, List.length_cons, groupOctets,
        List.length_nil] at hroom ⊢; omega)
    have hcount : (out ++ groupOctets w).length + 2 * ws.length =
        out.length + 2 * (w :: ws).length := by
      simp only [List.length_append, groupOctets, List.length_cons, List.length_nil]
      omega
    rw [hcount] at htail
    rw [htext, pton6From_hexText w hlen, pton6From]
    simp only [show hexValue ':' = none from rfl, if_true, if_neg hne, if_neg hrest, if_pos hfit]
    simpa [groupOctets] using htail

/-- The text of an address of whole groups and `::`. -/
def networkText : List ℕ → CStr
  | [] => [':', ':']
  | w :: ws => groupsText (w :: ws) ++ [':']

theorem inet_pton6_hexText (w : ℕ) (rest : CStr) : inet_pton6 (hexText w ++ rest) =
    pton6From (hexText w ++ rest) (hexText w ++ rest) [] none 0 0 := by
  obtain ⟨c, cs, hc⟩ := List.exists_cons_of_ne_nil
    (Nat.toDigits_ne_nil : Nat.toDigits 16 w ≠ [])
  have htext : hexText w = c :: cs := hc
  have hcolon : c ≠ ':' := by
    rintro rfl
    have hmem : ':' ∈ hexText w := by
      rw [htext]
      exact List.mem_cons_self
    exact absurd (hexValue_isSome_of_mem hmem) (by decide)
  rw [htext, List.cons_append, inet_pton6]
  · exact List.cons_ne_nil _ _
  · intro rest h
    exact hcolon (List.cons.inj h).1

theorem inet_pton6_networkText (hws : ∀ w ∈ ws, w < 2 ^ 16)
    (hlen : ws.length ≤ 7) : inet_pton6 (networkText ws) =
      some (ws.flatMap groupOctets ++ List.replicate (16 - 2 * ws.length) 0) := by
  cases ws with
  | nil => rfl
  | cons w ws =>
    have hscan := pton6From_groupsText (w :: ws) hws (networkText (w :: ws)) []
      (by rw [List.length_nil]; omega)
    have htext : networkText (w :: ws) = hexText w ++ (':' :: (groupsText ws ++ [':'])) := by
      simp [networkText, groupsText]
    have hread : inet_pton6 (networkText (w :: ws)) =
        pton6From (networkText (w :: ws)) (networkText (w :: ws)) [] none 0 0 := by
      rw [htext]
      exact inet_pton6_hexText w _
    rw [hread]
    simpa [networkText] using hscan

def leadingGroups : List ℕ → List ℕ
  | [] => []
  | w :: ws => if w = 0 ∧ leadingGroups ws = [] then [] else w :: leadingGroups ws

theorem bestRun_host (w0 w1 w2 w3 : ℕ) : bestRun [w0, w1, w2, w3, 0, 0, 0, 0] =
    ((leadingGroups [w0, w1, w2, w3]).length, 8 - (leadingGroups [w0, w1, w2, w3]).length) := by
  change List.foldl _ (0, 0) [0, 1, 2, 3, 4, 5, 6, 7] = _
  rcases w0 with _ | w0 <;> rcases w1 with _ | w1 <;> rcases w2 with _ | w2 <;>
    rcases w3 with _ | w3 <;> simp [zeroRun, leadingGroups]

theorem ntop6From_host (w0 w1 w2 w3 : ℕ) (os : List ℕ) :
    ntop6From [w0, w1, w2, w3, 0, 0, 0, 0] os (leadingGroups [w0, w1, w2, w3]).length
      (8 - (leadingGroups [w0, w1, w2, w3]).length) 0 8 =
        networkText (leadingGroups [w0, w1, w2, w3]) := by
  rcases w0 with _ | w0 <;> rcases w1 with _ | w1 <;> rcases w2 with _ | w2 <;>
    rcases w3 with _ | w3 <;>
    simp [leadingGroups, networkText, groupsText, ntop6From]

theorem leadingGroups_append : leadingGroups ws ++
    List.replicate (ws.length - (leadingGroups ws).length) 0 = ws := by
  induction ws with
  | nil => rfl
  | cons w ws ih =>
    by_cases h : w = 0 ∧ leadingGroups ws = []
    · rw [h.2] at ih
      simp only [leadingGroups, if_pos h, List.nil_append, List.length_nil, Nat.sub_zero,
        List.length_cons, List.replicate_succ] at ih ⊢
      rw [ih, h.1]
    · simp only [leadingGroups, if_neg h, List.length_cons, Nat.add_sub_add_right,
        List.cons_append, ih]

theorem mem_of_mem_leadingGroups {w : ℕ} {ws : List ℕ} (h : w ∈ leadingGroups ws) : w ∈ ws := by
  rw [← leadingGroups_append ws]
  exact List.mem_append_left _ h

theorem flatMap_groupOctets_replicate (n : ℕ) :
    (List.replicate n 0).flatMap groupOctets = List.replicate (2 * n) 0 := by
  induction n with
  | zero => rfl
  | succ n ih =>
    rw [List.replicate_succ, List.flatMap_cons, ih, Nat.mul_succ, Nat.add_comm,
      List.replicate_add]
    rfl

def groups (b : Bytes 8) : List ℕ :=
  (List.range 4).map (fun k => (b.byteAt (2 * k)).toNat * 256 + (b.byteAt (2 * k + 1)).toNat)

theorem groups_lt : ∀ w ∈ groups b, w < 2 ^ 16 := by
  intro w hw
  obtain ⟨k, -, rfl⟩ := List.mem_map.mp hw
  have hhigh := (b.byteAt (2 * k)).isLt
  have hlow := (b.byteAt (2 * k + 1)).isLt
  omega

theorem flatMap_groups :
    (groups b).flatMap groupOctets ++ List.replicate 8 0 = octets (networkAddress b) := by
  have hgroup : ∀ k j, groupOctets ((b k).toNat * 256 + (b j).toNat) =
      [(b k).toNat, (b j).toNat] := by
    intro k j
    have hlow := (b j).isLt
    rw [groupOctets, show ((b k).toNat * 256 + (b j).toNat) / 256 = (b k).toNat by omega,
      show ((b k).toNat * 256 + (b j).toNat) % 256 = (b j).toNat by omega]
  have hgroups : groups b = [(b 0).toNat * 256 + (b 1).toNat, (b 2).toNat * 256 + (b 3).toNat,
      (b 4).toNat * 256 + (b 5).toNat, (b 6).toNat * 256 + (b 7).toNat] := rfl
  simp only [hgroups, List.flatMap_cons, hgroup, octets_networkAddress]
  rfl

theorem inet_ntop6_networkAddress :
    inet_ntop6 (octets (networkAddress b)) = networkText (leadingGroups (groups b)) := by
  have hwords : (List.range 8).map (fun i => (octets (networkAddress b)).getD (2 * i) 0 * 256 +
      (octets (networkAddress b)).getD (2 * i + 1) 0) = groups b ++ [0, 0, 0, 0] := by
    rw [octets_networkAddress]
    have hrange : List.range 8 = [0, 1, 2, 3, 4, 5, 6, 7] := rfl
    simp only [hrange, List.map_cons, List.map_nil, List.getD_cons_zero, List.getD_cons_succ,
      Nat.mul_zero, Nat.zero_add, Nat.mul_one, Nat.reduceMul]
    rfl
  have hfour : ∃ w0 w1 w2 w3, groups b = [w0, w1, w2, w3] := ⟨_, _, _, _, rfl⟩
  obtain ⟨w0, w1, w2, w3, hgroups⟩ := hfour
  rw [inet_ntop6]
  simp only [hwords, hgroups, List.cons_append, List.nil_append, bestRun_host]
  exact ntop6From_host w0 w1 w2 w3 _

theorem inet_pton6_ntop6 :
    inet_pton6 (inet_ntop6 (octets (networkAddress b))) = some (octets (networkAddress b)) := by
  have hsplit := leadingGroups_append (groups b)
  have hlen : (leadingGroups (groups b)).length ≤ 4 := by
    have hsum := congrArg List.length hsplit
    have hfour : (groups b).length = 4 := rfl
    rw [List.length_append] at hsum
    omega
  have hoctets := flatMap_groups b
  rw [← hsplit, List.flatMap_append, flatMap_groupOctets_replicate, List.append_assoc,
    ← List.replicate_add] at hoctets
  have hzeros : 2 * ((groups b).length - (leadingGroups (groups b)).length) + 8 =
      16 - 2 * (leadingGroups (groups b)).length := by
    have hfour : (groups b).length = 4 := rfl
    omega
  rw [hzeros] at hoctets
  rw [inet_ntop6_networkAddress, inet_pton6_networkText _
    (fun w hw => groups_lt b w (mem_of_mem_leadingGroups hw)) (by omega), hoctets]

def digitsLeft (v : ℕ) : ℕ := if v = 0 then 0 else if v < 10 then 2 else if v < 100 then 1 else 0

theorem pton4From_text_le {t : CStr} {done os : List ℕ} {cur : Option ℕ}
    (hdone : done.length ≤ 3) (h : pton4From t done cur = some os) :
    t.length ≤ 4 * (3 - done.length) + (match cur with | none => 3 | some v => digitsLeft v) := by
  induction t generalizing done cur with
  | nil => exact Nat.zero_le _
  | cons c rest ih =>
    rw [List.length_cons]
    simp only [pton4From] at h
    split at h
    · cases cur with
      | none =>
        simp only [Option.ite_none_right_eq_some] at h
        have hrest := ih hdone h.2
        have htwo : digitsLeft (digitValue c) ≤ 2 := by
          unfold digitsLeft
          split_ifs <;> omega
        change rest.length ≤ 4 * (3 - done.length) + digitsLeft (digitValue c) at hrest
        change rest.length + 1 ≤ 4 * (3 - done.length) + 3
        omega
      | some v =>
        simp only [Option.ite_none_left_eq_some] at h
        have hrest := ih hdone h.2.2
        have hnext : digitsLeft (v * 10 + digitValue c) + 1 ≤ digitsLeft v := by
          unfold digitsLeft
          split_ifs <;> omega
        change rest.length ≤ 4 * (3 - done.length) + digitsLeft (v * 10 + digitValue c) at hrest
        change rest.length + 1 ≤ 4 * (3 - done.length) + digitsLeft v
        omega
    · split at h
      · cases cur with
        | none => exact absurd h (Option.some_ne_none _).symm
        | some v =>
          simp only [Option.ite_none_left_eq_some] at h
          have hrest := ih (by rw [List.length_append, List.length_singleton]; omega) h.2
          simp only [List.length_append, List.length_singleton] at hrest
          change rest.length + 1 ≤ 4 * (3 - done.length) + digitsLeft v
          omega
      · exact absurd h (Option.some_ne_none _).symm

/-- The longest text that can still follow after o bytes of the address. -/
def textLeft (o : ℕ) (colon : Option ℕ) : ℕ := 5 * ((16 - o) / 2) + if colon.isSome then 0 else 5

variable {out os : List ℕ}

theorem pton6Expand_room {at_ : ℕ} (h : pton6Expand out (some at_) = some os) :
    out.length < 16 := by
  simp only [pton6Expand, Option.ite_none_right_eq_some] at h
  exact h.1

theorem pton6Finish_text_le {colon : Option ℕ} {seen val : ℕ}
    (hseen : seen ≤ 4) (h : pton6Finish out colon seen val = some os) :
    seen ≤ textLeft out.length colon := by
  unfold pton6Finish at h
  split at h
  · simp only [Option.ite_none_right_eq_some] at h
    cases colon with
    | none => simp only [textLeft, Option.isSome_none, Bool.false_eq_true, if_false]; omega
    | some k =>
      have hroom := pton6Expand_room h.2
      rw [List.length_append] at hroom
      simp only [List.length_cons, List.length_nil] at hroom
      simp only [textLeft, Option.isSome_some, if_true]
      omega
  · omega

theorem pton6From_text_le {t tok : CStr} {colon : Option ℕ} {seen val : ℕ}
    (heven : out.length % 2 = 0) (hout : out.length ≤ 16) (hseen : seen ≤ 4)
    (htok : tok.length = t.length + seen) (h : pton6From t tok out colon seen val = some os) :
    tok.length ≤ textLeft out.length colon := by
  induction t generalizing tok out colon seen val with
  | nil =>
    have hend := pton6Finish_text_le hseen h
    rw [List.length_nil] at htok
    omega
  | cons c rest ih =>
    rw [List.length_cons] at htok
    simp only [pton6From] at h
    cases hc : hexValue c with
    | some d =>
      simp only [hc, Option.ite_none_left_eq_some] at h
      exact ih heven hout (by omega) (by omega) h.2
    | none =>
      simp only [hc] at h
      split at h
      · split at h
        · cases colon with
          | some k => exact absurd h (Option.some_ne_none _).symm
          | none =>
            have hrest := ih heven hout (Nat.zero_le _) rfl h
            simp only [textLeft, Option.isSome_some, Option.isSome_none, if_true,
              Bool.false_eq_true, if_false] at hrest ⊢
            omega
        · simp only [Option.ite_none_left_eq_some, Option.ite_none_right_eq_some] at h
          have hlen : (out ++ [val / 256, val % 256]).length = out.length + 2 := by simp
          have hrest := ih (by omega) (by omega) (Nat.zero_le _) rfl h.2.2
          simp only [textLeft, hlen] at hrest ⊢
          omega
      · simp only [Option.ite_none_right_eq_some] at h
        obtain ⟨⟨-, hroom⟩, h⟩ := h
        split at h
        · next octets hoctets =>
          have hfour := pton4From_length hoctets
          have htext := pton4From_text_le (Nat.zero_le _) hoctets
          change tok.length ≤ 4 * (3 - 0) + 3 at htext
          cases colon with
          | none =>
            simp only [textLeft, Option.isSome_none, Bool.false_eq_true, if_false]
            omega
          | some k =>
            simp only [pton6Finish, Nat.lt_irrefl, if_false] at h
            have hexpand := pton6Expand_room h
            rw [List.length_append] at hexpand
            simp only [textLeft, Option.isSome_some, if_true]
            omega
        · exact absurd h (Option.some_ne_none _).symm

theorem inet_pton6_text_le {t : CStr} {os : List ℕ} (h : inet_pton6 t = some os) :
    t.length < 46 := by
  unfold inet_pton6 at h
  split at h
  · exact absurd h (Option.some_ne_none _).symm
  · next rest =>
    split at h
    · next rest' =>
      change pton6From rest' rest' [] (some 0) 0 0 = some os at h
      have hrest := pton6From_text_le rfl (Nat.zero_le _) (Nat.zero_le _) rfl h
      change rest'.length ≤ 40 at hrest
      simp only [List.length_cons]
      omega
    · exact absurd h (Option.some_ne_none _).symm
  · have hall := pton6From_text_le rfl (Nat.zero_le _) (Nat.zero_le _) rfl h
    change _ ≤ 45 at hall
    omega

end CcspPandM.PrefixText
