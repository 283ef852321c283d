import CcspPandM.PrefixText
import CcspPandM.ScanFields

/-!
Every IPv6 address is read back from its own text. The text that `inet_ntop` prints is
the groups joined by colons, or the groups before a run of zeros, `::` and the groups
behind it, or `::` and an IPv4 address, with or without `ffff` before it.
-/
namespace CcspPandM.Ipv6Text

open CString InetText PrefixText ScanFields

section runs

theorem zeroRun_le (ws : List ℕ) : zeroRun ws ≤ ws.length := by
  induction ws with
  | nil => exact le_rfl
  | cons w ws ih =>
    cases w with
    | zero => exact Nat.succ_le_succ ih
    | succ w => exact Nat.zero_le _

theorem take_zeroRun (ws : List ℕ) : ws.take (zeroRun ws) = List.replicate (zeroRun ws) 0 := by
  induction ws with
  | nil => rfl
  | cons w ws ih =>
    cases w with
    | zero => exact congrArg (List.cons 0) ih
    | succ w => rfl

def ZerosAt (ws : List ℕ) (best : ℕ × ℕ) : Prop :=
  best.1 + best.2 ≤ ws.length ∧ (ws.drop best.1).take best.2 = List.replicate best.2 0

theorem bestRun_zeros (ws : List ℕ) : ZerosAt ws (bestRun ws) := by
  have hfold : ∀ (l : List ℕ) (best : ℕ × ℕ), (∀ i ∈ l, i < ws.length) → ZerosAt ws best →
      ZerosAt ws (l.foldl (fun best i => if best.2 < zeroRun (ws.drop i) then
        (i, zeroRun (ws.drop i)) else best) best) := by
    intro l
    induction l with
    | nil => exact fun best _ h => h
    | cons i l ih =>
      intro best hl h
      rw [List.foldl_cons]
      apply ih _ (fun j hj => hl j (List.mem_cons_of_mem _ hj))
      split
      · have hi := hl i List.mem_cons_self
        have hle := zeroRun_le (ws.drop i)
        rw [List.length_drop] at hle
        exact ⟨by dsimp only; omega, take_zeroRun _⟩
      · exact h
  exact hfold _ (0, 0) (fun i hi => List.mem_range.mp hi) ⟨Nat.zero_le _, rfl⟩

end runs

section groups

def joined : List CStr → CStr
  | [] => []
  | [g] => g
  | g :: g' :: gs => g ++ ':' :: joined (g' :: gs)

def terminated (gs : List CStr) : CStr := gs.flatMap fun g => g ++ [':']

def runOf (before behind : List CStr) : CStr :=
  (if before = [] then [':'] else terminated before) ++ ':' :: joined behind

def joinText (ws : List ℕ) : CStr := joined (ws.map hexText)

def colonText (ws : List ℕ) : CStr := ws.flatMap fun w => ':' :: hexText w

theorem joinText_cons (w : ℕ) (ws : List ℕ) : joinText (w :: ws) = hexText w ++ colonText ws := by
  induction ws generalizing w with
  | nil => exact (List.append_nil _).symm
  | cons w' ws ih => exact congrArg (fun t => hexText w ++ ':' :: t) (ih w')

theorem groupsText_eq_terminated (ws : List ℕ) : groupsText ws = terminated (ws.map hexText) := by
  rw [groupsText, terminated, List.flatMap_map]

theorem colonText_eq {ws : List ℕ} (h : ws ≠ []) : colonText ws = ':' :: joinText ws := by
  cases ws with
  | nil => exact absurd rfl h
  | cons w ws => rw [joinText_cons]; rfl

theorem groupsText_eq (w : ℕ) (ws : List ℕ) :
    groupsText (w :: ws) = hexText w ++ (colonText ws ++ [':']) := by
  induction ws generalizing w with
  | nil => simp [groupsText, colonText]
  | cons w' ws ih =>
    have hcons : groupsText (w :: w' :: ws) = hexText w ++ ':' :: groupsText (w' :: ws) := by
      simp [groupsText]
    rw [hcons, ih w']
    simp [colonText]

variable {octets words : List ℕ} {base len : ℕ}

def Mapped (words : List ℕ) (base len : ℕ) : Prop :=
  base = 0 ∧ (len = 6 ∨ len = 5 ∧ words.getD 5 0 = 0xffff)

theorem drop_of_lt {i : ℕ} (hi : i < words.length) :
    words.drop i = words.getD i 0 :: words.drop (i + 1) := by
  rw [List.drop_eq_getElem_cons hi, List.getD_eq_getElem?_getD, List.getElem?_eq_getElem hi,
    Option.getD_some]

theorem ntop6From_group (hmapped : ¬ Mapped words base len) {i : ℕ} (hi : 0 < i)
    (hrun : len < 2 ∨ i < base ∨ base + len ≤ i) (fuel : ℕ) :
    ntop6From words octets base len i (fuel + 1) =
      colonText [words.getD i 0] ++ ntop6From words octets base len (i + 1) fuel := by
  have hout : ¬ (2 ≤ len ∧ base ≤ i ∧ i < base + len) := by omega
  have hplain : ¬ (i = 6 ∧ base = 0 ∧ (len = 6 ∨ (len = 5 ∧ words.getD 5 0 = 0xffff))) :=
    fun h => hmapped h.2
  rw [ntop6From, if_neg hout, if_neg hplain, if_neg (Nat.pos_iff_ne_zero.mp hi)]
  simp [colonText]

theorem ntop6From_groups (hmapped : ¬ Mapped words base len) {i : ℕ} (n : ℕ) (hi : 0 < i)
    (hrun : len < 2 ∨ i + n ≤ base ∨ base + len ≤ i) (hwords : i + n ≤ words.length) (fuel : ℕ) :
    ntop6From words octets base len i (fuel + n) =
      colonText ((words.drop i).take n) ++ ntop6From words octets base len (i + n) fuel := by
  induction n generalizing i with
  | zero => rw [List.take_zero]; rfl
  | succ n ih =>
    have hlt : i < words.length := by omega
    rw [← Nat.add_assoc, ntop6From_group hmapped hi (by omega),
      ih (by omega) (by omega) (by omega), drop_of_lt hlt, List.take_succ_cons,
      show i + 1 + n = i + (n + 1) by omega]
    simp [colonText]

theorem ntop6From_run (hlen : 2 ≤ len) (n fuel : ℕ) (hn : n < len) :
    ntop6From words octets base len (base + (len - n)) (fuel + n) =
      ntop6From words octets base len (base + len) fuel := by
  induction n with
  | zero => rfl
  | succ n ih =>
    have hin : 2 ≤ len ∧ base ≤ base + (len - (n + 1)) ∧ base + (len - (n + 1)) < base + len := by
      omega
    have hfirst : base + (len - (n + 1)) ≠ base := by omega
    rw [← Nat.add_assoc, ntop6From, if_pos hin, if_neg hfirst, List.nil_append,
      show base + (len - (n + 1)) + 1 = base + (len - n) by omega]
    exact ih (by omega)

theorem ntop6From_colon (hlen : 2 ≤ len) (fuel : ℕ) :
    ntop6From words octets base len base (fuel + len) =
      ':' :: ntop6From words octets base len (base + len) fuel := by
  have hin : 2 ≤ len ∧ base ≤ base ∧ base < base + len := by omega
  obtain ⟨n, rfl⟩ : ∃ n, len = n + 1 := ⟨len - 1, by omega⟩
  have hrest := @ntop6From_run octets words base _ hlen n fuel (by omega)
  rw [show n + 1 - n = 1 by omega] at hrest
  rw [← Nat.add_assoc, ntop6From, if_pos hin, if_pos rfl, hrest]
  rfl

def runText (before behind : List ℕ) : CStr := runOf (before.map hexText) (behind.map hexText)

theorem runText_eq (before behind : List ℕ) : runText before behind =
    (if before = [] then [':'] else groupsText before) ++ ':' :: joinText behind := by
  rw [runText, runOf, groupsText_eq_terminated]
  cases before <;> rfl

theorem ntop6From_noRun (hwords : words.length = 8) (hlen : len < 2) :
    ntop6From words octets base len 0 8 = joinText words := by
  obtain ⟨w, ws, rfl⟩ := List.exists_cons_of_length_eq_add_one hwords
  have hws : ws.length = 7 := by simpa using hwords
  have hmapped : ¬ Mapped (w :: ws) base len := by
    intro h
    rcases h.2 with h | h <;> omega
  have hrest := @ntop6From_groups octets _ _ _ hmapped 1 7 (by omega) (Or.inl hlen)
    (by omega) 0
  have hnone : ¬ (base + len = 8 ∧ 2 ≤ len) := by omega
  rw [ntop6From, if_neg (by omega), if_neg (by omega), if_pos rfl, hrest, ntop6From,
    if_neg hnone, joinText_cons, List.drop_one, List.tail_cons,
    List.take_of_length_le (by omega)]
  simp

theorem ntop6From_behind (hwords : words.length = 8) (hlen : 2 ≤ len) (hfit : base + len ≤ 8)
    (hmapped : ¬ Mapped words base len) :
    ntop6From words octets base len (base + len) (8 - (base + len)) =
      ':' :: joinText (words.drop (base + len)) := by
  have hgroups := @ntop6From_groups octets _ _ _ hmapped (base + len)
    (8 - (base + len)) (by omega) (Or.inr (Or.inr le_rfl)) (by omega) 0
  rw [Nat.zero_add] at hgroups
  rw [hgroups, List.take_of_length_le (by rw [List.length_drop]; omega), ntop6From]
  by_cases hend : base + len = 8
  · have hdrop : words.drop (base + len) = [] := List.drop_eq_nil_of_le (by omega)
    rw [if_pos ⟨hend, hlen⟩, hdrop]
    rfl
  · have hdrop : words.drop (base + len) ≠ [] := by
      intro h
      have hle := List.drop_eq_nil_iff.mp h
      omega
    rw [if_neg (fun h => hend h.1), List.append_nil, colonText_eq hdrop]

theorem ntop6From_runText (hwords : words.length = 8) (hlen : 2 ≤ len) (hfit : base + len ≤ 8)
    (hmapped : ¬ Mapped words base len) :
    ntop6From words octets base len 0 8 =
      runText (words.take base) (words.drop (base + len)) := by
  have hcolon := @ntop6From_colon octets words base _ hlen (8 - (base + len))
  rw [ntop6From_behind hwords hlen hfit hmapped] at hcolon
  cases base with
  | zero =>
    rw [show 8 - (0 + len) + len = 8 by omega] at hcolon
    rw [hcolon]
    rfl
  | succ n =>
    obtain ⟨w, ws, rfl⟩ := List.exists_cons_of_length_eq_add_one hwords
    have hout : ¬ (2 ≤ len ∧ n + 1 ≤ 0 ∧ 0 < n + 1 + len) := by omega
    have hgroups := @ntop6From_groups octets _ _ _ hmapped 1 n (by omega)
      (Or.inr (Or.inl (by omega))) (by omega) (8 - (n + 1 + len) + len)
    rw [show 8 - (n + 1 + len) + len + n = 7 by omega, Nat.add_comm 1 n, hcolon, List.drop_one,
      List.tail_cons] at hgroups
    rw [ntop6From, if_neg hout, if_neg (by omega), if_pos rfl, hgroups, runText_eq,
      if_neg (by simp), List.take_succ_cons, groupsText_eq]
    simp

theorem ntop6From_mapped (hwords : words.length = 8) (h : Mapped words base len) :
    ntop6From words octets base len 0 8 =
      ':' :: ':' :: (groupsText (words.drop len |>.take (6 - len)) ++ dotted (octets.drop 12)) := by
  obtain ⟨rfl, hcase⟩ := h
  have hlen : 2 ≤ len := by rcases hcase with h | h <;> omega
  have hcolon := @ntop6From_colon octets words 0 _ hlen (8 - len)
  rw [show 8 - len + len = 8 by rcases hcase with h | h <;> omega] at hcolon
  rw [hcolon]
  rcases hcase with rfl | ⟨rfl, hffff⟩
  · rw [ntop6From, if_neg (by omega), if_pos ⟨rfl, rfl, Or.inl rfl⟩]
    simp [groupsText]
  · have hsix : ntop6From words octets 0 5 6 2 = ':' :: dotted (octets.drop 12) := by
      rw [ntop6From, if_neg (by omega), if_pos ⟨rfl, rfl, Or.inr ⟨rfl, hffff⟩⟩]
    have hfive : words.drop 5 = words.getD 5 0 :: words.drop 6 := drop_of_lt (by omega)
    rw [ntop6From, if_neg (by omega), if_neg (by omega), if_neg (by omega), hsix, hfive]
    simp [groupsText]

end groups

variable {t : CStr}

section reading

variable {ws : List ℕ} {gs : List CStr} {out : List ℕ} {colon : Option ℕ}

theorem length_flatMap_groupOctets (ws : List ℕ) :
    (ws.flatMap groupOctets).length = 2 * ws.length := by
  induction ws with
  | nil => rfl
  | cons w ws ih =>
    rw [List.flatMap_cons, List.length_append, ih, List.length_cons]
    simp only [groupOctets, List.length_cons, List.length_nil]
    omega

def IsGroup (g : CStr) (w : ℕ) : Prop :=
  g ≠ [] ∧ ':' ∉ g ∧ ∀ rest tok out colon,
    pton6From (g ++ rest) tok out colon 0 0 = pton6From rest tok out colon g.length w

theorem isGroup_hexText {w : ℕ} (hw : w < 2 ^ 16) : IsGroup (hexText w) w :=
  ⟨Nat.toDigits_ne_nil, fun h => absurd (hexValue_isSome_of_mem h) (by decide),
    pton6From_hexText w (hexText_length_le hw)⟩

theorem pton6From_hexDigits (ht : ∀ c ∈ t, isHexDigit c = true) {seen : ℕ}
    (hseen : seen + t.length ≤ 4) (rest tok : CStr) (out : List ℕ) (colon : Option ℕ) (val : ℕ) :
    pton6From (t ++ rest) tok out colon seen val =
      pton6From rest tok out colon (seen + t.length)
        (t.foldl (fun acc c => acc * 16 + (hexValue c).getD 0) val) := by
  induction t generalizing seen val with
  | nil => rfl
  | cons c t ih =>
    rw [List.length_cons] at hseen
    obtain ⟨d, hd⟩ := Option.isSome_iff_exists.mp (ht c List.mem_cons_self)
    have hcount : seen + (t.length + 1) = seen + 1 + t.length := by omega
    have hne : seen ≠ 4 := by omega
    have htail := @ih (fun x hx => ht x (List.mem_cons_of_mem _ hx)) (seen + 1) (by omega)
      (val * 16 + d)
    rw [List.cons_append, List.length_cons, hcount, List.foldl_cons, hd, Option.getD_some, ← htail]
    simp only [pton6From, hd, if_neg hne]

variable {g : CStr}

theorem isGroup_hex (hg : IsHex g) (hlen : g.length ≤ 4) : IsGroup g (hexNat g) := by
  refine ⟨hg.1, fun h => absurd (hg.2 ':' h) (by decide), ?_⟩
  intro rest tok out colon
  rw [pton6From_hexDigits hg.2 (by omega), Nat.zero_add]
  rfl

theorem pton6From_group {w : ℕ} (hg : IsGroup g w) {rest : CStr} (hrest : rest ≠ [])
    (hroom : out.length + 2 ≤ 16) (tok : CStr) :
    pton6From (g ++ ':' :: rest) tok out colon 0 0 =
      pton6From rest rest (out ++ groupOctets w) colon 0 0 := by
  have hne : g.length ≠ 0 := mt List.length_eq_zero_iff.mp hg.1
  rw [hg.2.2]
  simp only [pton6From, show hexValue ':' = none from rfl, if_true, if_neg hne, if_neg hrest,
    if_pos hroom]
  rfl

theorem pton6From_terminated (hgs : List.Forall₂ IsGroup gs ws) {rest : CStr} (hrest : rest ≠ [])
    (hroom : out.length + 2 * ws.length ≤ 16) :
    pton6From (terminated gs ++ rest) (terminated gs ++ rest) out colon 0 0 =
      pton6From rest rest (out ++ ws.flatMap groupOctets) colon 0 0 := by
  induction hgs generalizing out with
  | nil => simp [terminated]
  | @cons g w gs ws hg hgs ih =>
    rw [List.length_cons] at hroom
    have htext : terminated (g :: gs) ++ rest = g ++ ':' :: (terminated gs ++ rest) := by
      simp [terminated]
    have hout : (out ++ groupOctets w).length = out.length + 2 := List.length_append
    rw [htext, pton6From_group hg (by simp [hrest]) (by omega), ih (by omega)]
    simp

theorem pton6From_joined (hgs : List.Forall₂ IsGroup gs ws)
    (hroom : out.length + 2 * ws.length ≤ 16) (tok : CStr) :
    pton6From (joined gs) tok out colon 0 0 =
      pton6Expand (out ++ ws.flatMap groupOctets) colon := by
  induction hgs generalizing out tok with
  | nil => simp [joined, pton6From, pton6Finish]
  | @cons g w gs ws hg hgs ih =>
    rw [List.length_cons] at hroom
    have hout : (out ++ groupOctets w).length = out.length + 2 := List.length_append
    cases hgs with
    | nil =>
      have hread := hg.2.2 [] tok out colon
      have hpos : 0 < g.length := List.length_pos_iff.mpr hg.1
      rw [List.append_nil] at hread
      rw [joined, hread, pton6From, pton6Finish, if_pos hpos, if_pos (by omega),
        List.flatMap_singleton]
      rfl
    | @cons g' w' gs ws hg' hgs =>
      have hne : joined (g' :: gs) ≠ [] := by
        cases gs with
        | nil => exact hg'.1
        | cons g'' gs => exact List.append_ne_nil_of_left_ne_nil hg'.1 _
      rw [joined, pton6From_group hg hne (by omega), ih (by omega)]
      simp

theorem pton6Expand_some {n : ℕ} {bytes : List ℕ} (at_ : ℕ) (hlen : bytes.length + n = 16)
    (hn : 0 < n) :
    pton6Expand bytes (some at_) =
      some (bytes.take at_ ++ List.replicate n 0 ++ bytes.drop at_) := by
  rw [pton6Expand, if_pos (by omega), show 16 - bytes.length = n by omega]

theorem inet_pton6_group {w : ℕ} (hg : IsGroup g w) (rest : CStr) :
    inet_pton6 (g ++ rest) = pton6From (g ++ rest) (g ++ rest) [] none 0 0 := by
  obtain ⟨c, cs, rfl⟩ := List.exists_cons_of_ne_nil hg.1
  have hcolon : c ≠ ':' := by
    rintro rfl
    exact hg.2.1 List.mem_cons_self
  rw [List.cons_append, inet_pton6]
  · exact List.cons_ne_nil _ _
  · intro rest h
    exact hcolon (List.cons.inj h).1

theorem inet_pton6_runOf {gs' : List CStr} {ws' : List ℕ} (hbefore : List.Forall₂ IsGroup gs ws)
    (hbehind : List.Forall₂ IsGroup gs' ws') {n : ℕ} (hn : 0 < n)
    (hlen : ws.length + ws'.length + n = 8) :
    inet_pton6 (runOf gs gs') = some (ws.flatMap groupOctets ++
      List.replicate (2 * n) 0 ++ ws'.flatMap groupOctets) := by
  have hfront := length_flatMap_groupOctets ws
  have hback := length_flatMap_groupOctets ws'
  have htail : pton6From (joined gs') (joined gs') (ws.flatMap groupOctets)
      (some (2 * ws.length)) 0 0 = some (ws.flatMap groupOctets ++
        List.replicate (2 * n) 0 ++ ws'.flatMap groupOctets) := by
    rw [pton6From_joined hbehind (by omega),
      pton6Expand_some (n := 2 * n) _ (by rw [List.length_append]; omega) (by omega),
      List.take_left' hfront, List.drop_left' hfront]
  have hcolon : ∀ tok, pton6From (':' :: joined gs') tok (ws.flatMap groupOctets) none 0 0 =
      pton6From (joined gs') (joined gs') (ws.flatMap groupOctets) (some (2 * ws.length)) 0 0 := by
    intro tok
    rw [pton6From]
    simp only [show hexValue ':' = none from rfl, if_true, hfront]
  rw [runOf]
  cases hbefore with
  | nil => exact (hcolon (':' :: joined gs')).trans htail
  | @cons g w gs ws hg hgs =>
    have hread := @pton6From_terminated _ _ [] none (List.Forall₂.cons hg hgs) _
      (List.cons_ne_nil ':' (joined gs')) (by rw [List.length_nil]; omega)
    have hfirst : terminated (g :: gs) ++ ':' :: joined gs' =
        g ++ (':' :: (terminated gs ++ ':' :: joined gs')) := by simp [terminated]
    rw [List.nil_append, hcolon, htail] at hread
    rw [if_neg (List.cons_ne_nil g gs), hfirst, inet_pton6_group hg, ← hfirst]
    exact hread

theorem inet_pton6_joined (hgs : List.Forall₂ IsGroup gs ws) (hlen : ws.length = 8) :
    inet_pton6 (joined gs) = some (ws.flatMap groupOctets) := by
  have hread := @pton6From_joined _ _ [] none hgs (by rw [List.length_nil]; omega) (joined gs)
  have hcount := length_flatMap_groupOctets ws
  rw [List.nil_append, pton6Expand, if_pos (by omega)] at hread
  cases hgs with
  | nil => cases hlen
  | @cons g w gs ws hg hgs =>
    cases hgs with
    | nil => cases hlen
    | cons hg' hgs =>
      rw [joined] at hread ⊢
      rw [inet_pton6_group hg]
      exact hread

theorem forall₂_isGroup (hws : ∀ w ∈ ws, w < 2 ^ 16) :
    List.Forall₂ IsGroup (ws.map hexText) ws := by
  rw [List.forall₂_map_left_iff]
  exact List.forall₂_same.mpr fun w hw => isGroup_hexText (hws w hw)

end reading

section ending

theorem digit_digitChar {d : ℕ} (h : d < 10) :
    d.digitChar.isDigit = true ∧ digitValue d.digitChar = d := by
  revert d
  decide

theorem pton4From_first {d : ℕ} (hd : d < 10) (rest : CStr) {done : List ℕ}
    (hdone : done.length < 4) :
    pton4From (d.digitChar :: rest) done none = pton4From rest done (some d) := by
  obtain ⟨hdigit, hval⟩ := digit_digitChar hd
  simp only [pton4From, hdigit, hval, if_true, if_pos hdone]

theorem pton4From_next {v d : ℕ} (hd : d < 10) (hv : 0 < v) (hle : v * 10 + d ≤ 255)
    (rest : CStr) (done : List ℕ) :
    pton4From (d.digitChar :: rest) done (some v) = pton4From rest done (some (v * 10 + d)) := by
  obtain ⟨hdigit, hval⟩ := digit_digitChar hd
  simp only [pton4From, hdigit, hval, if_true, if_neg (Nat.pos_iff_ne_zero.mp hv),
    if_neg (Nat.not_lt.mpr hle)]

theorem pton4From_decimal {v : ℕ} (hv : v ≤ 255) (rest : CStr) {done : List ℕ}
    (hdone : done.length < 4) :
    pton4From (decimal v ++ rest) done none = pton4From rest done (some v) := by
  induction v using Nat.strongRecOn generalizing rest with
  | _ v ih =>
    by_cases hsmall : v < 10
    · have htext : decimal v = [v.digitChar] := Nat.toDigits_of_lt_base hsmall
      rw [htext, List.singleton_append, pton4From_first hsmall rest hdone]
    · have htext : decimal v = decimal (v / 10) ++ [(v % 10).digitChar] :=
        Nat.toDigits_of_base_le (by omega) (by omega)
      have hval : v / 10 * 10 + v % 10 = v := by omega
      rw [htext, List.append_assoc, List.singleton_append, ih (v / 10) (by omega) (by omega),
        pton4From_next (Nat.mod_lt _ (by omega)) (by omega) (by omega), hval]

theorem pton4From_dot {v : ℕ} (rest : CStr) {done : List ℕ} (hdone : done.length ≠ 3) :
    pton4From ('.' :: rest) done (some v) = pton4From rest (done ++ [v]) none := by
  simp [pton4From, hdone]

theorem dotted_singleton (o : ℕ) : dotted [o] = decimal o := by simp [dotted]

variable {a b c d : ℕ}

theorem inet_pton4_dotted (ha : a ≤ 255) (hb : b ≤ 255) (hc : c ≤ 255)
    (hd : d ≤ 255) : inet_pton4 (dotted [a, b, c, d]) = some [a, b, c, d] := by
  have hlast := @pton4From_decimal d hd [] [a, b, c] (Nat.lt_succ_self 3)
  rw [List.append_nil] at hlast
  have hdot : ∀ {v : ℕ} (rest : CStr) {done : List ℕ}, v ≤ 255 → done.length < 3 →
      pton4From (decimal v ++ '.' :: rest) done none = pton4From rest (done ++ [v]) none := by
    intro v rest done hv hdone
    rw [pton4From_decimal hv _ (by omega), pton4From_dot _ (by omega)]
  rw [dotted_cons, dotted_cons, dotted_cons, inet_pton4, hdot _ ha (by rw [List.length_nil]; omega),
    hdot _ hb (by simp), hdot _ hc (by simp), dotted_singleton]
  exact hlast

theorem isHexDigit_decimal (n : ℕ) : ∀ c ∈ decimal n, isHexDigit c = true := by
  intro c hc
  simp [isHexDigit, hexValue, isDigit_of_mem_decimal hc]

theorem pton6From_dotted (ha : a ≤ 255) (hb : b ≤ 255) (hc : c ≤ 255) (hd : d ≤ 255)
    {out : List ℕ} {colon : Option ℕ} (hroom : out.length + 4 ≤ 16) :
    pton6From (dotted [a, b, c, d]) (dotted [a, b, c, d]) out colon 0 0 =
      pton6Expand (out ++ [a, b, c, d]) colon := by
  have hfour := inet_pton4_dotted ha hb hc hd
  have hshort : (decimal a).length ≤ 3 := (decimal_length_le_iff (by decide)).mpr (by omega)
  have hv := @pton6From_hexDigits _ (isHexDigit_decimal a) 0 (by omega) ('.' :: dotted [b, c, d])
    (dotted [a, b, c, d]) out colon 0
  rw [← dotted_cons] at hv
  rw [inet_pton4] at hfour
  rw [hv]
  simp only [pton6From, show hexValue '.' = none from rfl, show '.' ≠ ':' by decide, if_false,
    hroom, and_self, if_true, hfour, pton6Finish, Nat.lt_irrefl]

theorem inet_pton6_mapped {ws : List ℕ} (hws : ∀ w ∈ ws, w < 2 ^ 16) (hlen : ws.length ≤ 5)
    (ha : a ≤ 255) (hb : b ≤ 255) (hc : c ≤ 255) (hd : d ≤ 255) :
    inet_pton6 (':' :: ':' :: (groupsText ws ++ dotted [a, b, c, d])) =
      some (List.replicate (12 - 2 * ws.length) 0 ++ ws.flatMap groupOctets ++ [a, b, c, d]) := by
  have hcount := length_flatMap_groupOctets ws
  have hne : dotted [a, b, c, d] ≠ [] := by
    rw [dotted_cons]
    exact List.append_ne_nil_of_left_ne_nil (decimal_ne_nil a) _
  have hread := @pton6From_terminated _ _ [] (some 0) (forall₂_isGroup hws) _ hne
    (by rw [List.length_nil]; omega)
  rw [← groupsText_eq_terminated, List.nil_append, pton6From_dotted ha hb hc hd (by omega),
    pton6Expand_some (n := 12 - 2 * ws.length) 0
      (by rw [List.length_append]; simp only [List.length_cons, List.length_nil]; omega)
      (by omega), List.take_zero, List.drop_zero, List.nil_append, ← List.append_assoc] at hread
  exact hread

end ending

section chars

def IsAddressChar (c : Char) : Prop := (hexValue c).isSome ∨ c = ':' ∨ c = '.'

theorem pton6From_chars {t pre : CStr} {out os : List ℕ} {colon : Option ℕ} {seen val : ℕ}
    (h : pton6From t (pre ++ t) out colon seen val = some os) : ∀ c ∈ t, IsAddressChar c := by
  induction t generalizing pre out colon seen val with
  | nil => simp
  | cons c rest ih =>
    have hnext : ∀ {out colon seen val}, pton6From rest (pre ++ c :: rest) out colon seen val =
        some os → ∀ d ∈ rest, IsAddressChar d := by
      intro out colon seen val h
      rw [List.append_cons] at h
      exact ih h
    rw [List.forall_mem_cons]
    simp only [pton6From] at h
    cases hc : hexValue c with
    | some d =>
      simp only [hc, Option.ite_none_left_eq_some] at h
      exact ⟨Or.inl (by rw [hc]; rfl), hnext h.2⟩
    | none =>
      simp only [hc] at h
      split at h
      · next hcolon =>
        refine ⟨Or.inr (Or.inl hcolon), ?_⟩
        split at h
        · cases colon with
          | some k => cases h
          | none => exact @ih [] _ _ _ _ h
        · simp only [Option.ite_none_left_eq_some, Option.ite_none_right_eq_some] at h
          exact @ih [] _ _ _ _ h.2.2
      · simp only [Option.ite_none_right_eq_some] at h
        obtain ⟨⟨hdot, -⟩, h⟩ := h
        refine ⟨Or.inr (Or.inr hdot), ?_⟩
        split at h
        · next octets hoctets =>
          intro d hd
          have hchar := pton4From_chars hoctets d
            (List.mem_append_right _ (List.mem_cons_of_mem _ hd))
          rcases hchar with hdigit | hdot
          · exact Or.inl (by simp [hexValue, hdigit])
          · exact Or.inr (Or.inr hdot)
        · cases h

variable {os : List ℕ}

theorem inet_pton6_chars (h : inet_pton6 t = some os) :
    ∀ c ∈ t, IsAddressChar c := by
  unfold inet_pton6 at h
  split at h
  · cases h
  · next rest =>
    split at h
    · next rest' =>
      have hrest := @pton6From_chars _ [] _ _ _ _ _ h
      intro c hc
      rcases List.mem_cons.mp hc with rfl | hc
      · exact Or.inr (Or.inl rfl)
      · exact hrest c hc
    · cases h
  · exact @pton6From_chars _ [] _ _ _ _ _ h

theorem inet_pton6_length_ge (h : inet_pton6 t = some os) :
    2 ≤ t.length := by
  match t with
  | [] => cases h
  | [c] =>
    have hfinish : ∀ v, pton6Finish [] none 1 v = none := fun v => rfl
    have hcolon : inet_pton6 [':'] = none := rfl
    by_cases hc : c = ':'
    · rw [hc, hcolon] at h
      cases h
    · have hread : inet_pton6 [c] = pton6From [c] [c] [] none 0 0 := by
        rw [inet_pton6]
        · exact List.cons_ne_nil _ _
        · intro rest h
          exact hc (List.cons.inj h).1
      rw [hread] at h
      simp only [pton6From] at h
      cases hv : hexValue c with
      | some d =>
        simp only [hv, hfinish, ite_self] at h
        cases h
      | none =>
        simp only [hv, if_neg hc, Option.ite_none_right_eq_some] at h
        obtain ⟨⟨rfl, -⟩, h⟩ := h
        cases h
  | _ :: _ :: _ => exact Nat.le_add_left 2 _

theorem pton4From_bytes {done octets : List ℕ} {cur : Option ℕ}
    (hdone : ∀ o ∈ done, o < 256) (hcur : ∀ v ∈ cur, v < 256)
    (h : pton4From t done cur = some octets) : ∀ o ∈ octets, o < 256 := by
  induction t generalizing done cur with
  | nil =>
    cases cur with
    | none => cases h
    | some v =>
      simp only [pton4From, Option.ite_none_right_eq_some, Option.some.injEq] at h
      rw [← h.2, List.forall_mem_append]
      exact ⟨hdone, List.forall_mem_singleton.mpr (hcur v rfl)⟩
  | cons c rest ih =>
    simp only [pton4From] at h
    split at h
    · next hdigit =>
      cases cur with
      | none =>
        simp only [Option.ite_none_right_eq_some] at h
        refine ih hdone ?_ h.2
        intro v hv
        have hvalue : hexValue c = some (digitValue c) := ScanText.hexValue_of_isDigit hdigit
        have hlt := hexValue_lt hvalue
        obtain rfl := Option.some.inj hv
        omega
      | some v =>
        simp only [Option.ite_none_left_eq_some] at h
        refine ih hdone ?_ h.2.2
        intro w hw
        obtain rfl := Option.some.inj hw
        omega
    · split at h
      · cases cur with
        | none => cases h
        | some v =>
          simp only [Option.ite_none_left_eq_some] at h
          refine ih ?_ ?_ h.2
          · rw [List.forall_mem_append]
            exact ⟨hdone, List.forall_mem_singleton.mpr (hcur v rfl)⟩
          · intro w hw
            cases hw
      · cases h

theorem pton6Expand_bytes {out os : List ℕ} {colon : Option ℕ} (hout : ∀ o ∈ out, o < 256)
    (h : pton6Expand out colon = some os) : os.length = 16 ∧ ∀ o ∈ os, o < 256 := by
  cases colon with
  | none =>
    simp only [pton6Expand, Option.ite_none_right_eq_some, Option.some.injEq] at h
    rw [← h.2]
    exact ⟨h.1, hout⟩
  | some at_ =>
    simp only [pton6Expand, Option.ite_none_right_eq_some, Option.some.injEq] at h
    obtain ⟨hlen, rfl⟩ := h
    constructor
    · simp only [List.length_append, List.length_take, List.length_replicate, List.length_drop]
      omega
    · intro o ho
      simp only [List.mem_append, List.mem_replicate] at ho
      rcases ho with (ho | ho) | ho
      · exact hout o (List.mem_of_mem_take ho)
      · omega
      · exact hout o (List.mem_of_mem_drop ho)

theorem pton6Finish_bytes {out os : List ℕ} {colon : Option ℕ} {seen val : ℕ}
    (hout : ∀ o ∈ out, o < 256) (hval : val < 2 ^ 16)
    (h : pton6Finish out colon seen val = some os) : os.length = 16 ∧ ∀ o ∈ os, o < 256 := by
  rw [pton6Finish] at h
  split at h
  · rw [Option.ite_none_right_eq_some] at h
    refine pton6Expand_bytes ?_ h.2
    simp only [List.forall_mem_append, List.forall_mem_cons]
    exact ⟨hout, by omega, by omega, List.forall_mem_nil _⟩
  · exact pton6Expand_bytes hout h

theorem pton6From_bytes {t tok : CStr} {out os : List ℕ} {colon : Option ℕ} {seen val : ℕ}
    (hout : ∀ o ∈ out, o < 256) (hseen : seen ≤ 4) (hval : val < 16 ^ seen)
    (h : pton6From t tok out colon seen val = some os) :
    os.length = 16 ∧ ∀ o ∈ os, o < 256 := by
  have hword : val < 2 ^ 16 := lt_of_lt_of_le hval (Nat.pow_le_pow_right (by omega) hseen)
  induction t generalizing tok out colon seen val with
  | nil => exact pton6Finish_bytes hout hword h
  | cons c rest ih =>
    simp only [pton6From] at h
    cases hc : hexValue c with
    | some d =>
      simp only [hc, Option.ite_none_left_eq_some] at h
      have hd := hexValue_lt hc
      have hnext : val * 16 + d < 16 ^ (seen + 1) := by
        rw [pow_succ]
        omega
      have hle : seen + 1 ≤ 4 := by omega
      exact ih hout hle hnext h.2
        (lt_of_lt_of_le hnext (Nat.pow_le_pow_right (by omega) hle))
    | none =>
      simp only [hc] at h
      split at h
      · split at h
        · cases colon with
          | some k => cases h
          | none => exact ih hout (Nat.zero_le 4) Nat.one_pos h (Nat.two_pow_pos 16)
        · simp only [Option.ite_none_left_eq_some, Option.ite_none_right_eq_some] at h
          refine ih ?_ (Nat.zero_le 4) Nat.one_pos h.2.2 (Nat.two_pow_pos 16)
          simp only [List.forall_mem_append, List.forall_mem_cons]
          exact ⟨hout, by omega, by omega, List.forall_mem_nil _⟩
      · simp only [Option.ite_none_right_eq_some] at h
        replace h := h.2
        split at h
        · next octets hoctets =>
          refine pton6Finish_bytes ?_ (Nat.two_pow_pos 16) h
          rw [List.forall_mem_append]
          refine ⟨hout, pton4From_bytes (List.forall_mem_nil _) ?_ hoctets⟩
          intro v hv
          cases hv
        · cases h

theorem inet_pton6_bytes (h : inet_pton6 t = some os) :
    os.length = 16 ∧ ∀ o ∈ os, o < 256 := by
  unfold inet_pton6 at h
  split at h
  · cases h
  · split at h
    · exact pton6From_bytes (List.forall_mem_nil _) (Nat.zero_le 4) Nat.one_pos h
    · cases h
  · exact pton6From_bytes (List.forall_mem_nil _) (Nat.zero_le 4) Nat.one_pos h

end chars

section roundTrip

def wordsOf (octets : List ℕ) : List ℕ :=
  (List.range 8).map fun i => octets.getD (2 * i) 0 * 256 + octets.getD (2 * i + 1) 0

variable {octets : List ℕ}

theorem getD_lt (h : ∀ o ∈ octets, o < 256) (i : ℕ) : octets.getD i 0 < 256 := by
  rw [List.getD_eq_getElem?_getD]
  cases hi : octets[i]? with
  | none => exact Nat.zero_lt_succ _
  | some o => exact h o (List.mem_of_getElem? hi)

theorem wordsOf_lt (h : ∀ o ∈ octets, o < 256) :
    ∀ w ∈ wordsOf octets, w < 2 ^ 16 := by
  intro w hw
  obtain ⟨i, -, rfl⟩ := List.mem_map.mp hw
  have hhigh := getD_lt h (2 * i)
  have hlow := getD_lt h (2 * i + 1)
  omega

theorem flatMap_pairs (n : ℕ) (l : List ℕ) (hlen : l.length = 2 * n) :
    ((List.range n).flatMap fun i => [l.getD (2 * i) 0, l.getD (2 * i + 1) 0]) = l := by
  induction n generalizing l with
  | zero => exact (List.length_eq_zero_iff.mp hlen).symm
  | succ n ih =>
    obtain ⟨x, l, rfl⟩ := List.exists_cons_of_length_eq_add_one hlen
    obtain ⟨y, l, rfl⟩ := List.exists_cons_of_length_eq_add_one (l := l) (n := 2 * n)
      (by rw [List.length_cons] at hlen; omega)
    have htail := ih l (by simp only [List.length_cons] at hlen; omega)
    rw [List.range_succ_eq_map, List.flatMap_cons, List.flatMap_map]
    exact congrArg (fun t => x :: y :: t) htail

theorem flatMap_wordsOf (hlen : octets.length = 16)
    (h : ∀ o ∈ octets, o < 256) : (wordsOf octets).flatMap groupOctets = octets := by
  have hgroup : ∀ k l, groupOctets (octets.getD k 0 * 256 + octets.getD l 0) =
      [octets.getD k 0, octets.getD l 0] := by
    intro k l
    have hlow := getD_lt h l
    have hhigh : (octets.getD k 0 * 256 + octets.getD l 0) / 256 = octets.getD k 0 := by omega
    have hrest : (octets.getD k 0 * 256 + octets.getD l 0) % 256 = octets.getD l 0 := by omega
    rw [groupOctets, hhigh, hrest]
  rw [wordsOf, List.flatMap_map]
  simp only [hgroup]
  exact flatMap_pairs 8 octets hlen

theorem wordsOf_split (octets : List ℕ) : wordsOf octets =
    (wordsOf octets).take (bestRun (wordsOf octets)).1 ++
      List.replicate (bestRun (wordsOf octets)).2 0 ++
      (wordsOf octets).drop ((bestRun (wordsOf octets)).1 + (bestRun (wordsOf octets)).2) := by
  rw [← (bestRun_zeros (wordsOf octets)).2, ← List.drop_drop, List.append_assoc,
    List.take_append_drop, List.take_append_drop]

theorem inet_pton6_inet_ntop6 (hlen : octets.length = 16)
    (h : ∀ o ∈ octets, o < 256) : inet_pton6 (inet_ntop6 octets) = some octets := by
  have hwords : (wordsOf octets).length = 8 := rfl
  have hsplit := wordsOf_split octets
  have hflat := flatMap_wordsOf hlen h
  have hlt := wordsOf_lt h
  have hfit := (bestRun_zeros (wordsOf octets)).1
  change inet_pton6 (ntop6From (wordsOf octets) octets (bestRun (wordsOf octets)).1
    (bestRun (wordsOf octets)).2 0 8) = some octets
  generalize bestRun (wordsOf octets) = run at *
  obtain ⟨base, len⟩ := run
  dsimp only at *
  rw [hwords] at hfit
  by_cases hshort : len < 2
  · rw [ntop6From_noRun hwords hshort, joinText, inet_pton6_joined (forall₂_isGroup hlt) hwords,
      hflat]
  by_cases hmapped : Mapped (wordsOf octets) base len
  · obtain ⟨rfl, hcase⟩ := hmapped
    have hsix : len ≤ 6 ∧ 5 ≤ len := by rcases hcase with h | h <;> omega
    have hparts : octets = List.replicate (2 * len) 0 ++
        (((wordsOf octets).drop len).take (6 - len)).flatMap groupOctets ++
        (((wordsOf octets).drop len).drop (6 - len)).flatMap groupOctets := by
      rw [List.append_assoc, ← List.flatMap_append, List.take_append_drop,
        ← flatMap_groupOctets_replicate, ← List.flatMap_append]
      rw [List.take_zero, List.nil_append, Nat.zero_add] at hsplit
      rw [← hsplit, hflat]
    have hfront : (List.replicate (2 * len) 0 ++
        (((wordsOf octets).drop len).take (6 - len)).flatMap groupOctets).length = 12 := by
      rw [List.length_append, List.length_replicate, length_flatMap_groupOctets, List.length_take,
        List.length_drop]
      omega
    have hback : octets.drop 12 =
        (((wordsOf octets).drop len).drop (6 - len)).flatMap groupOctets := by
      conv_lhs => rw [hparts]
      exact List.drop_left' hfront
    obtain ⟨a, b, c, d, hfour⟩ := List.length_eq_four.mp
      (show (octets.drop 12).length = 4 by rw [List.length_drop, hlen])
    have hbyte : ∀ o ∈ octets.drop 12, o ≤ 255 := fun o ho =>
      Nat.le_of_lt_succ (h o (List.mem_of_mem_drop ho))
    simp only [hfour, List.mem_cons, List.not_mem_nil, or_false, forall_eq_or_imp, forall_eq]
      at hbyte
    rw [ntop6From_mapped hwords ⟨rfl, hcase⟩, hfour, inet_pton6_mapped
      (fun w hw => hlt w (List.mem_of_mem_drop (List.mem_of_mem_take hw)))
      (by rw [List.length_take]; omega) hbyte.1 hbyte.2.1 hbyte.2.2.1 hbyte.2.2.2, ← hfour, hback,
      show 12 - 2 * (((wordsOf octets).drop len).take (6 - len)).length = 2 * len by
        rw [List.length_take, List.length_drop]; omega, ← hparts]
  · rw [ntop6From_runText hwords (by omega) hfit hmapped,
      runText, inet_pton6_runOf (forall₂_isGroup fun w hw => hlt w (List.mem_of_mem_take hw))
        (forall₂_isGroup fun w hw => hlt w (List.mem_of_mem_drop hw)) (n := len) (by omega)
        (by rw [List.length_take, List.length_drop]; omega),
      ← flatMap_groupOctets_replicate, ← List.flatMap_append, ← List.flatMap_append, ← hsplit,
      hflat]

theorem length_ntop6From_le {words octets : List ℕ} (hwords : ∀ w ∈ words, w < 2 ^ 16)
    (hlen : octets.length = 16) (h : ∀ o ∈ octets, o < 256) (base len i fuel : ℕ) :
    (ntop6From words octets base len i fuel).length ≤ 5 * fuel + 16 := by
  induction fuel generalizing i with
  | zero =>
    rw [ntop6From]
    split <;> simp
  | succ fuel ih =>
    have hnext := ih (i + 1)
    rw [ntop6From]
    split
    · rw [List.length_append]
      split <;> simp only [List.length_cons, List.length_nil] <;> omega
    · split
      · obtain ⟨a, b, c, d, hfour⟩ := List.length_eq_four.mp
          (show (octets.drop 12).length = 4 by rw [List.length_drop, hlen])
        have hpart : ∀ o ∈ octets.drop 12, (decimal o).length ≤ 3 := fun o ho =>
          (decimal_length_le_iff (by omega)).mpr
            (Nat.lt_of_lt_of_le (h o (List.mem_of_mem_drop ho)) (by omega))
        rw [hfour] at hpart ⊢
        simp only [List.mem_cons, List.not_mem_nil, or_false, forall_eq_or_imp, forall_eq] at hpart
        simp only [dotted_cons, dotted_singleton, List.length_cons, List.length_append]
        omega
      · have hword : words.getD i 0 < 2 ^ 16 := by
          rw [List.getD_eq_getElem?_getD]
          cases hi : words[i]? with
          | none => exact Nat.two_pow_pos 16
          | some w => exact hwords w (List.mem_of_getElem? hi)
        have hgroup := hexText_length_le hword
        rw [List.length_append, List.length_append]
        split <;> simp only [List.length_cons, List.length_nil] <;> omega

theorem length_inet_ntop6_le (hlen : octets.length = 16)
    (h : ∀ o ∈ octets, o < 256) : (inet_ntop6 octets).length ≤ 56 :=
  length_ntop6From_le (wordsOf_lt h) hlen h _ _ 0 8

end roundTrip

end CcspPandM.Ipv6Text
