import CcspPandM.PrefixText
import CcspPandM.DnsText
import CcspPandM.FgetsLines
import CcspPandM.TextSearch

/-!
The address that is given to an interface out of a delegated prefix: the text
of the prefix up to its `::`, and after it the modified EUI-64 of the hardware
address that `ifconfig` shows, regrouped by fours. What a run would read or
write outside its buffers has no result.
-/
namespace CcspPandM.AssignGlobalIp

open BitWindow CString InetText PrefixText DnsText FgetsLines TextSearch

/-- `_get_shell_output`: the first line of an output, without its newline. -/
def get_shell_output (len : ℕ) (output : CStr) : CStr :=
  ((reads (len - 2) output).headD []).takeWhile (· ≠ '\n')

def switch7bit (c : Char) : Char :=
  let k := ((hexValue c).getD 0) ^^^ 2
  if k < 10 then Char.ofNat (k + '0'.toNat) else Char.ofNat (k + 'A'.toNat - 10)

/-- The text in `out` in front of the loop: what lies behind the text at `pMac`
is zero, and `pMac[17]` ends it. -/
def interfacePart (pMac : CStr) : CStr :=
  let mac := pMac ++ List.replicate 18 '\x00'
  let mac := (mac.set 1 (switch7bit (mac.getD 1 '\x00'))).take 17
  (mac.take 9).takeWhile (· ≠ '\x00') ++ "FF:FE:".toList ++
    (mac.drop 9).takeWhile (· ≠ '\x00')

/-- The strings that are copied inside `out` do not overlap. -/
def Apart (offset : ℕ) (pMac : CStr) : Prop := 9 ≤ offset ∧ 7 + min 8 (pMac.length - 9) ≤ offset

instance (offset : ℕ) (pMac : CStr) : Decidable (Apart offset pMac) :=
  inferInstanceAs (Decidable (_ ∧ _))

def regroup : CStr → ℕ → CStr → Option CStr
  | [], _, globalIP => some globalIP
  | c :: out, k, globalIP =>
    if c = ':' then regroup out k globalIP
    else do
      let globalIP ← store 64 globalIP c
      if k + 1 = 4 then
        let globalIP ← store 64 globalIP ':'
        regroup out 0 globalIP
      else regroup out (k + 1) globalIP

/-- `prepare second part`: the status and the text for `ipAddr`. -/
def secondPart (globalIP out : CStr) : Option (ℕ × Option CStr) :=
  match strstr "HWaddr".toList out with
  | none => some (1, none)
  | some found =>
    let pMac := (found.drop 6).dropWhile (· = ' ')
    let offset := out.length - pMac.length
    if 256 ≤ offset + 17 ∨ ¬ Apart offset pMac then none
    else do
      let globalIP ← regroup (interfacePart pMac) 0 globalIP
      some (0, some globalIP.dropLast)

/-- The colons in front of the last two characters are counted; when there are
three, one of the two at the end goes. -/
def firstPart (globalIP : CStr) : CStr :=
  if (globalIP.take (globalIP.length - 2)).count ':' = 3 then globalIP.dropLast else globalIP

/-- `hwaddr` is what `ifconfig .. | grep HWaddr` prints for an interface. -/
def dhcpv6_assign_global_ip (hwaddr : CStr → CStr) (v6pref intfName : CStr) :
    Option (ℕ × Option CStr) :=
  if 64 ≤ v6pref.length then some (1, none)
  else do
    let i ← afterLast '/' v6pref v6pref.length
    let length := BitVec.ofInt 32 (atoi (v6pref.drop i))
    if 64 < length.toNat then some (1, none)
    else
      let globalIP := v6pref.take (i - 1)
      if globalIP.length < 2 then none
      else if globalIP[globalIP.length - 1]? ≠ some ':' ∧
          globalIP[globalIP.length - 2]? ≠ some ':' then some (1, none)
      else secondPart (firstPart globalIP) (get_shell_output 256 (hwaddr intfName))

variable {gs : List (Char × Char)} {ws : List ℕ} {os : List ℕ}

section Reading

def IsHexByte (g : Char × Char) (o : ℕ) : Prop :=
  o < 256 ∧ hexValue g.1 = some (o / 16) ∧ hexValue g.2 = some (o % 16)

def quad (g g' : Char × Char) : CStr := [g.1, g.2, g'.1, g'.2]

variable {g g' : Char × Char} {o o' : ℕ}

theorem pton6From_quad (hg : IsHexByte g o) (hg' : IsHexByte g' o') (rest tok : CStr)
    (out : List ℕ) (colon : Option ℕ) : pton6From (quad g g' ++ rest) tok out colon 0 0 =
      pton6From rest tok out colon 4 (o * 256 + o') := by
  have hval : (((0 * 16 + o / 16) * 16 + o % 16) * 16 + o' / 16) * 16 + o' % 16 =
      o * 256 + o' := by omega
  simp only [quad, List.cons_append, List.nil_append, pton6From, hg.2.1, hg.2.2, hg'.2.1, hg'.2.2,
    OfNat.zero_ne_ofNat, OfNat.one_ne_ofNat, if_false, Nat.zero_add, Nat.reduceAdd,
    Nat.reduceEqDiff, hval]

theorem octets_of_value (hg' : IsHexByte g' o') :
    [(o * 256 + o') / 256, (o * 256 + o') % 256] = [o, o'] := by
  have hlow := hg'.1
  rw [show (o * 256 + o') / 256 = o by omega, show (o * 256 + o') % 256 = o' by omega]

theorem pton6From_quad_colon (hg : IsHexByte g o) (hg' : IsHexByte g' o') {rest : CStr}
    (hrest : rest ≠ []) (tok : CStr) {out : List ℕ} (hroom : out.length + 2 ≤ 16)
    (colon : Option ℕ) : pton6From (quad g g' ++ ':' :: rest) tok out colon 0 0 =
      pton6From rest rest (out ++ [o, o']) colon 0 0 := by
  rw [pton6From_quad hg hg']
  simp only [pton6From, show hexValue ':' = none from rfl, if_true, OfNat.ofNat_ne_zero, if_false,
    if_neg hrest, if_pos hroom, octets_of_value hg']

theorem pton6From_quad_end (hg : IsHexByte g o) (hg' : IsHexByte g' o') (tok : CStr)
    {out : List ℕ} (hroom : out.length + 2 ≤ 16) (colon : Option ℕ) :
    pton6From (quad g g') tok out colon 0 0 = pton6Expand (out ++ [o, o']) colon := by
  have h := pton6From_quad hg hg' [] tok out colon
  rw [List.append_nil] at h
  rw [h]
  change pton6Finish out colon 4 (o * 256 + o') = _
  rw [pton6Finish, if_pos (show 0 < 4 by omega), if_pos hroom, octets_of_value hg']

theorem pton6From_groups (hws : ∀ w ∈ ws, w < 2 ^ 16) {rest : CStr}
    (hrest : rest ≠ []) {out : List ℕ} (hroom : out.length + 2 * ws.length ≤ 16) :
    pton6From (groupsText ws ++ rest) (groupsText ws ++ rest) out none 0 0 =
      pton6From rest rest (out ++ ws.flatMap groupOctets) none 0 0 := by
  induction ws generalizing out with
  | nil => simp [groupsText]
  | cons w ws ih =>
    have hlen := hexText_length_le (hws w List.mem_cons_self)
    have hne : (hexText w).length ≠ 0 := by
      have hpos := Nat.length_toDigits_pos (b := 16) (n := w)
      exact Nat.pos_iff_ne_zero.mp hpos
    rw [List.length_cons] at hroom
    have hcount : (out ++ groupOctets w).length = out.length + 2 := by
      rw [List.length_append]
      rfl
    have htail := @ih (fun v hv => hws v (List.mem_cons_of_mem _ hv)) (out ++ groupOctets w)
      (by omega)
    have hmore : groupsText ws ++ rest ≠ [] := by simp [hrest]
    have htext : groupsText (w :: ws) ++ rest = hexText w ++ ':' :: (groupsText ws ++ rest) := by
      simp [groupsText]
    rw [htext, pton6From_hexText w hlen, pton6From]
    simp only [show hexValue ':' = none from rfl, if_true, if_neg hne, if_neg hmore,
      if_pos (show out.length + 2 ≤ 16 by omega)]
    simpa [groupOctets] using htail

def hostText : List (Char × Char) → CStr
  | [g, g'] => quad g g'
  | g :: g' :: gs => quad g g' ++ ':' :: hostText gs
  | _ => []

theorem hostText_cons (g g' : Char × Char) (hgs : gs ≠ []) :
    hostText (g :: g' :: gs) = quad g g' ++ ':' :: hostText gs := by
  cases gs with
  | nil => exact absurd rfl hgs
  | cons g'' gs => rfl

theorem hostText_ne_nil (hlen : 2 ≤ gs.length) : hostText gs ≠ [] := by
  match gs, hlen with
  | [g, g'], _ => exact List.cons_ne_nil _ _
  | g :: g' :: g'' :: gs, _ =>
    rw [hostText_cons g g' (List.cons_ne_nil _ _)]
    exact List.cons_ne_nil _ _

theorem pton6From_hostText
    (h : List.Forall₂ IsHexByte gs os) {k : ℕ} (hlen : gs.length = 2 * (k + 1)) (tok : CStr)
    {out : List ℕ} (hroom : out.length + os.length ≤ 16) (colon : Option ℕ) :
    pton6From (hostText gs) tok out colon 0 0 = pton6Expand (out ++ os) colon := by
  induction k generalizing gs os tok out with
  | zero =>
    obtain ⟨g, g', rfl⟩ := List.length_eq_two.mp hlen
    cases h with
    | cons hg h =>
      cases h with
      | cons hg' h =>
        cases h
        exact pton6From_quad_end hg hg' tok hroom colon
  | succ k ih =>
    cases h with
    | nil => cases hlen
    | @cons g o gs os hg h =>
      cases h with
      | nil => simp only [List.length_cons, List.length_nil] at hlen; omega
      | @cons g' o' gs os hg' h =>
        simp only [List.length_cons] at hlen hroom
        have hgs : 2 ≤ gs.length := by omega
        rw [hostText_cons _ _ (List.ne_nil_of_length_pos (by omega)),
          pton6From_quad_colon hg hg' (hostText_ne_nil hgs) tok (by omega)]
        have hroom' : (out ++ [o, o']).length + os.length ≤ 16 := by
          simp only [List.length_append, List.length_cons, List.length_nil]
          omega
        rw [ih h (by omega) (hostText gs) hroom', List.append_assoc]
        rfl

theorem inet_pton6_assigned (hws : ∀ w ∈ ws, w < 2 ^ 16) (h : List.Forall₂ IsHexByte gs os)
    (hos : os.length = 8)
    (hlen : ws.length ≤ 4) :
    inet_pton6 ((if ws.length = 4 then groupsText ws else networkText ws) ++ hostText gs) =
      some (ws.flatMap groupOctets ++ List.replicate (8 - 2 * ws.length) 0 ++ os) := by
  have hgs : gs.length = 2 * (3 + 1) := by rw [h.length_eq, hos]
  have hne : hostText gs ≠ [] := hostText_ne_nil (by omega)
  have hcount : (ws.flatMap groupOctets).length = 2 * ws.length := by
    simp [List.length_flatMap, groupOctets, Nat.mul_comm]
  by_cases hfour : ws.length = 4
  · obtain ⟨w, ws', rfl⟩ := List.exists_cons_of_length_eq_add_one hfour
    have htext : groupsText (w :: ws') ++ hostText gs =
        hexText w ++ (':' :: (groupsText ws' ++ hostText gs)) := by
      simp [groupsText]
    rw [if_pos hfour, htext, inet_pton6_hexText, ← htext,
      pton6From_groups hws hne (by rw [List.length_nil]; omega), List.nil_append,
      pton6From_hostText h hgs _ (by omega), pton6Expand, if_pos (by
        rw [List.length_append]
        omega), hfour]
    simp
  · have hcolon : ':' :: hostText gs ≠ [] := List.cons_ne_nil _ _
    have hfold : (ws.flatMap groupOctets ++ os).length < 16 := by
      rw [List.length_append]
      omega
    have hzeros : 16 - (ws.flatMap groupOctets ++ os).length = 8 - 2 * ws.length := by
      rw [List.length_append]
      omega
    have hexpand : pton6Expand (ws.flatMap groupOctets ++ os)
        (some (ws.flatMap groupOctets).length) =
          some (ws.flatMap groupOctets ++ List.replicate (8 - 2 * ws.length) 0 ++ os) := by
      rw [pton6Expand, if_pos hfold, hzeros, List.take_left, List.drop_left]
    have hcolon_read : ∀ (tok : CStr) (out : List ℕ),
        pton6From (':' :: hostText gs) tok out none 0 0 =
          pton6From (hostText gs) (hostText gs) out (some out.length) 0 0 := fun tok out => rfl
    rw [if_neg hfour, ← hexpand]
    cases ws with
    | nil =>
      change pton6From (':' :: hostText gs) (':' :: hostText gs) [] none 0 0 = _
      rw [hcolon_read, pton6From_hostText h hgs _ (by rw [List.length_nil]; omega)]
      rfl
    | cons w ws =>
      have htext : networkText (w :: ws) ++ hostText gs =
          groupsText (w :: ws) ++ ':' :: hostText gs := by
        simp [networkText]
      have hhead : groupsText (w :: ws) ++ ':' :: hostText gs =
          hexText w ++ (':' :: (groupsText ws ++ ':' :: hostText gs)) := by
        simp [groupsText]
      rw [htext, hhead, inet_pton6_hexText, ← hhead,
        pton6From_groups hws hcolon (by rw [List.length_nil]; omega), List.nil_append,
        hcolon_read, pton6From_hostText h hgs _ (by omega)]

end Reading

section Prefix

theorem count_hexText (w : ℕ) : (hexText w).count ':' = 0 := by
  apply List.count_eq_zero.mpr
  intro hmem
  exact absurd (hexValue_isSome_of_mem hmem) (by decide)

theorem count_groupsText (ws : List ℕ) : (groupsText ws).count ':' = ws.length := by
  induction ws with
  | nil => rfl
  | cons w ws ih =>
    have htext : groupsText (w :: ws) = hexText w ++ ':' :: groupsText ws := by simp [groupsText]
    rw [htext, List.count_append, count_hexText, List.count_cons_self, ih, Nat.zero_add,
      List.length_cons]

theorem length_groupsText (hws : ∀ w ∈ ws, w < 2 ^ 16) :
    (groupsText ws).length ≤ 5 * ws.length := by
  induction ws with
  | nil => rfl
  | cons w ws ih =>
    have hhead := hexText_length_le (hws w List.mem_cons_self)
    have htail := ih (fun v hv => hws v (List.mem_cons_of_mem _ hv))
    have htext : groupsText (w :: ws) = hexText w ++ ':' :: groupsText ws := by simp [groupsText]
    rw [htext, List.length_append, List.length_cons, List.length_cons]
    omega

theorem networkText_eq (ws : List ℕ) : ∃ body, networkText ws = body ++ [':', ':'] ∧
    body.count ':' = ws.length - 1 ∧ (ws ≠ [] → groupsText ws = body ++ [':']) := by
  rcases List.eq_nil_or_concat ws with rfl | ⟨vs, v, rfl⟩
  · exact ⟨[], rfl, rfl, fun h => absurd rfl h⟩
  · rw [List.concat_eq_append]
    have hgroups : groupsText (vs ++ [v]) = groupsText vs ++ hexText v ++ [':'] := by
      simp [groupsText]
    have hnetwork : networkText (vs ++ [v]) = groupsText (vs ++ [v]) ++ [':'] := by
      cases vs <;> rfl
    refine ⟨groupsText vs ++ hexText v, ?_, ?_, fun _ => hgroups⟩
    · rw [hnetwork, hgroups, List.append_assoc]
      rfl
    · rw [List.count_append, count_groupsText, count_hexText, List.length_append,
        List.length_singleton, Nat.add_zero, Nat.add_sub_cancel]

theorem firstPart_networkText (ws : List ℕ) : firstPart (networkText ws) =
    if ws.length = 4 then groupsText ws else networkText ws := by
  obtain ⟨body, htext, hcount, hgroups⟩ := networkText_eq ws
  have hbody : (networkText ws).take ((networkText ws).length - 2) = body := by
    rw [htext, List.length_append]
    exact List.take_left
  rw [firstPart, hbody, hcount]
  by_cases hfour : ws.length = 4
  · have hne : ws ≠ [] := by
      rintro rfl
      cases hfour
    rw [if_pos (by omega), if_pos hfour, htext, hgroups hne, List.append_cons,
      List.dropLast_concat]
  · rw [if_neg (by omega), if_neg hfour]

end Prefix

variable {globalIP : CStr}

section Interface

theorem regroup_filter (out : CStr) (k : ℕ) (globalIP : CStr) :
    regroup out k globalIP = regroup (out.filter (· ≠ ':')) k globalIP := by
  induction out generalizing k globalIP with
  | nil => rfl
  | cons c out ih =>
    by_cases hc : c = ':'
    · rw [regroup, if_pos hc, ih, List.filter_cons_of_neg (by simp [hc])]
    · rw [List.filter_cons_of_pos (by simp [hc]), regroup, regroup, if_neg hc, if_neg hc]
      simp only [ih]

theorem regroup_quad {g g' : Char × Char} {o o' : ℕ} (hg : IsHexByte g o) (hg' : IsHexByte g' o')
    (out : CStr) (hroom : globalIP.length + 5 ≤ 64) :
    regroup (quad g g' ++ out) 0 globalIP = regroup out 0 (globalIP ++ quad g g' ++ [':']) := by
  have hcolon : hexValue ':' = none := rfl
  obtain ⟨a, b⟩ := g
  obtain ⟨c, d⟩ := g'
  have hstore : ∀ (t : CStr), t.length ≤ 4 → ∀ c, store 64 (globalIP ++ t) c =
      some (globalIP ++ (t ++ [c])) := by
    intro t ht c
    rw [store_of_lt (by rw [List.length_append]; omega), List.append_assoc]
  have h1 := hstore [] (by decide) a
  rw [List.append_nil] at h1
  simp only [quad, List.cons_append, List.nil_append, regroup, hexValue_ne hg.2.1 hcolon,
    hexValue_ne hg.2.2 hcolon, hexValue_ne hg'.2.1 hcolon, hexValue_ne hg'.2.2 hcolon, if_false,
    h1, hstore [a] (show 1 ≤ 4 by omega) b, hstore [a, b] (show 2 ≤ 4 by omega) c,
    hstore [a, b, c] (show 3 ≤ 4 by omega) d, hstore [a, b, c, d] (show 4 ≤ 4 by omega) ':',
    Option.bind_eq_bind, Option.bind_some, Nat.reduceAdd, Nat.reduceEqDiff,
    OfNat.one_ne_ofNat, if_true, List.append_assoc]

theorem regroup_hostText (h : List.Forall₂ IsHexByte gs os) {k : ℕ} (hlen : gs.length = 2 * (k + 1))
    (hroom : globalIP.length + 5 * (k + 1) ≤ 64) :
    regroup (gs.flatMap (fun g => [g.1, g.2])) 0 globalIP =
      some (globalIP ++ hostText gs ++ [':']) := by
  induction k generalizing gs os globalIP with
  | zero =>
    obtain ⟨g, g', rfl⟩ := List.length_eq_two.mp hlen
    cases h with
    | cons hg h =>
      cases h with
      | cons hg' h =>
        have hquad := regroup_quad hg hg' [] hroom
        rwa [List.append_nil, regroup] at hquad
  | succ k ih =>
    cases h with
    | nil => cases hlen
    | @cons g o gs os hg h =>
      cases h with
      | nil => simp only [List.length_cons, List.length_nil] at hlen; omega
      | @cons g' o' gs os hg' h =>
        simp only [List.length_cons] at hlen
        have hroom' : (globalIP ++ quad g g' ++ [':']).length + 5 * (k + 1) ≤ 64 := by
          simp only [List.length_append, quad, List.length_cons, List.length_nil]
          omega
        have hdigits : (g :: g' :: gs).flatMap (fun g => [g.1, g.2]) =
            quad g g' ++ gs.flatMap (fun g => [g.1, g.2]) := rfl
        rw [hdigits, regroup_quad hg hg' _ (by omega), ih h (by omega) hroom',
          hostText_cons _ _ (List.ne_nil_of_length_pos (by omega))]
        simp only [List.append_assoc, List.singleton_append]

end Interface

section Eui64

def macText (d : Fin 6 → Char × Char) : CStr :=
  [':'].intercalate (List.ofFn (fun k => [(d k).1, (d k).2]))

/-- The output starts with at least nine characters, then comes the first `HWaddr`
and, after blanks, the hardware address, all of it among what is read. -/
def Shows (output mac : CStr) : Prop :=
  ∃ front gap rest, output =
    front ++ ("HWaddr".toList ++ (List.replicate gap ' ' ++ (mac ++ rest))) ∧
    9 ≤ front.length ∧ front.length + gap + 23 ≤ 254 ∧ '\n' ∉ front ∧
    ¬ "HWaddr".toList <:+: front ++ "HWaddr".toList.dropLast

def eui64 (mac : Bytes 6) : List ℕ :=
  [(mac 0 ^^^ 2#8).toNat, (mac 1).toNat, (mac 2).toNat, 0xFF, 0xFE, (mac 3).toNat, (mac 4).toNat,
    (mac 5).toNat]

def hostDigits (d : Fin 6 → Char × Char) : List (Char × Char) :=
  [((d 0).1, switch7bit (d 0).2), d 1, d 2, ('F', 'F'), ('F', 'E'), d 3, d 4, d 5]

def IsMacText (d : Fin 6 → Char × Char) (mac : Bytes 6) : Prop :=
  ∀ k, hexValue (d k).1 = some ((mac k).toNat / 16) ∧ hexValue (d k).2 = some ((mac k).toNat % 16)

variable {d : Fin 6 → Char × Char} {mac : Bytes 6}

theorem hexValue_switch7bit {c : Char} {v : ℕ} (h : hexValue c = some v) (hv : v < 16) :
    hexValue (switch7bit c) = some (v ^^^ 2) := by
  have hall : ∀ v < 16, hexValue (if v ^^^ 2 < 10 then Char.ofNat ((v ^^^ 2) + '0'.toNat)
      else Char.ofNat ((v ^^^ 2) + 'A'.toNat - 10)) = some (v ^^^ 2) := by decide
  simpa only [switch7bit, h, Option.getD_some] using hall v hv

theorem xor_digits {o : ℕ} (ho : o < 256) :
    (o ^^^ 2) < 256 ∧ (o ^^^ 2) / 16 = o / 16 ∧ (o ^^^ 2) % 16 = o % 16 ^^^ 2 := by
  have hdiv : (o ^^^ 2) / 2 ^ 4 = o / 2 ^ 4 ^^^ 2 / 2 ^ 4 := Nat.xor_div_two_pow
  have hmod : (o ^^^ 2) % 2 ^ 4 = o % 2 ^ 4 ^^^ 2 % 2 ^ 4 := Nat.xor_mod_two_pow
  refine ⟨Nat.xor_lt_two_pow (n := 8) ho (by omega), ?_, hmod⟩
  simpa using hdiv

theorem hostDigits_octets (hd : IsMacText d mac) :
    List.Forall₂ IsHexByte (hostDigits d) (eui64 mac) := by
  have hbyte : ∀ k, IsHexByte (d k) (mac k).toNat := fun k => ⟨(mac k).isLt, hd k⟩
  have hfirst : IsHexByte ((d 0).1, switch7bit (d 0).2) (mac 0 ^^^ 2#8).toNat := by
    obtain ⟨hlt, hhigh, hlow⟩ := xor_digits (mac 0).isLt
    have hxor : (mac 0 ^^^ 2#8).toNat = (mac 0).toNat ^^^ 2 := BitVec.toNat_xor _ _
    rw [hxor]
    refine ⟨hlt, ?_, ?_⟩
    · rw [hhigh]
      exact (hd 0).1
    · rw [hlow]
      exact hexValue_switch7bit (hd 0).2 (Nat.mod_lt _ (by omega))
  have hFF : IsHexByte ('F', 'F') 0xFF := ⟨by decide, rfl, rfl⟩
  have hFE : IsHexByte ('F', 'E') 0xFE := ⟨by decide, rfl, rfl⟩
  exact .cons hfirst (.cons (hbyte 1) (.cons (hbyte 2) (.cons hFF (.cons hFE
    (.cons (hbyte 3) (.cons (hbyte 4) (.cons (hbyte 5) .nil)))))))

theorem macText_eq (d : Fin 6 → Char × Char) : macText d =
    [(d 0).1, (d 0).2, ':', (d 1).1, (d 1).2, ':', (d 2).1, (d 2).2, ':', (d 3).1, (d 3).2, ':',
      (d 4).1, (d 4).2, ':', (d 5).1, (d 5).2] := rfl

theorem interfacePart_macText (hd : IsMacText d mac) (more : CStr) :
    (interfacePart (macText d ++ more)).filter (· ≠ ':') =
      (hostDigits d).flatMap (fun g => [g.1, g.2]) := by
  have h7 := hexValue_switch7bit (hd 0).2 (Nat.mod_lt _ (by omega))
  have hne : ∀ c, hexValue c = none → switch7bit (d 0).2 ≠ c ∧
      ∀ k, (d k).1 ≠ c ∧ (d k).2 ≠ c := fun c hc =>
    ⟨hexValue_ne h7 hc, fun k => ⟨hexValue_ne (hd k).1 hc, hexValue_ne (hd k).2 hc⟩⟩
  obtain ⟨hnul0, hnul⟩ := hne '\x00' rfl
  obtain ⟨hcolon0, hcolon⟩ := hne ':' rfl
  have hFF : "FF:FE:".toList = ['F', 'F', ':', 'F', 'E', ':'] := rfl
  have htext : interfacePart (macText d ++ more) =
      [(d 0).1, switch7bit (d 0).2, ':', (d 1).1, (d 1).2, ':', (d 2).1, (d 2).2, ':', 'F', 'F',
        ':', 'F', 'E', ':', (d 3).1, (d 3).2, ':', (d 4).1, (d 4).2, ':', (d 5).1, (d 5).2] := by
    simp [interfacePart, macText_eq, hFF, hnul0, hnul]
  rw [htext]
  simp [hostDigits, hcolon0, hcolon]

theorem get_shell_output_start {t : CStr} (ht : '\n' ∉ t) (hne : t ≠ []) (hfit : t.length ≤ 254)
    (rest : CStr) : ∃ more, get_shell_output 256 (t ++ rest) = t ++ more := by
  obtain ⟨more, after, hreads⟩ := reads_start ht hne hfit rest
  refine ⟨more.takeWhile (· ≠ '\n'), ?_⟩
  rw [get_shell_output, hreads, List.headD_cons, List.takeWhile_append_of_pos]
  intro c hc
  simp only [ne_eq, decide_not, Bool.not_eq_true', decide_eq_false_iff_not]
  rintro rfl
  exact ht hc

theorem secondPart_shows (hd : IsMacText d mac) {output : CStr} (hshows : Shows output (macText d))
    (hroom : globalIP.length + 20 ≤ 64) :
    secondPart globalIP (get_shell_output 256 output) =
      some (0, some (globalIP ++ hostText (hostDigits d))) := by
  obtain ⟨front, gap, rest, rfl, hfront, hfit, hnl, hfirst⟩ := hshows
  have hHW : "HWaddr".toList.length = 6 := rfl
  have hmac : (macText d).length = 17 := rfl
  have hread : ∃ more, get_shell_output 256
      (front ++ ("HWaddr".toList ++ (List.replicate gap ' ' ++ (macText d ++ rest)))) =
      front ++ ("HWaddr".toList ++ (List.replicate gap ' ' ++ (macText d ++ more))) := by
    have hnlMac : '\n' ∉ macText d := by
      have hnone : hexValue '\n' = none := rfl
      have hne := fun k => And.intro (hexValue_ne (hd k).1 hnone).symm
        (hexValue_ne (hd k).2 hnone).symm
      simp [macText_eq, hne]
    have hnl' : '\n' ∉ front ++ ("HWaddr".toList ++ (List.replicate gap ' ' ++ macText d)) := by
      simp [hnl, hnlMac, List.mem_replicate]
    have hlen : (front ++ ("HWaddr".toList ++ (List.replicate gap ' ' ++ macText d))).length ≤
        254 := by
      simp only [List.length_append, List.length_replicate, hHW, hmac]
      omega
    obtain ⟨more, h⟩ := get_shell_output_start hnl' (by simp) hlen rest
    exact ⟨more, by simpa only [List.append_assoc] using h⟩
  obtain ⟨more, hout⟩ := hread
  have hblank : (List.replicate gap ' ' ++ (macText d ++ more)).dropWhile (· = ' ') =
      macText d ++ more := by
    have hspace : (d 0).1 ≠ ' ' := hexValue_ne (hd 0).1 rfl
    rw [List.dropWhile_append_of_pos (fun c hc => by simp [List.eq_of_mem_replicate hc]),
      macText_eq, List.cons_append, List.dropWhile_cons_of_neg (by simp [hspace])]
  have hoffset : (front ++ ("HWaddr".toList ++ (List.replicate gap ' ' ++
      (macText d ++ more)))).length - (macText d ++ more).length = front.length + 6 + gap := by
    simp only [List.length_append, List.length_replicate, hHW]
    omega
  have hok : ¬(256 ≤ front.length + 6 + gap + 17 ∨
      ¬ Apart (front.length + 6 + gap) (macText d ++ more)) := by
    simp only [Apart, not_or, not_not]
    omega
  have hregroup := regroup_hostText (k := 3) (hostDigits_octets hd) rfl hroom
  rw [hout, secondPart, strstr_first hfirst]
  simp only [List.drop_left' hHW, hblank, hoffset, if_neg hok]
  rw [regroup_filter, interfacePart_macText hd more, hregroup]
  simp only [Option.bind_eq_bind, Option.bind_some, List.dropLast_concat]

end Eui64

theorem networkText_length (hws : ∀ w ∈ ws, w < 2 ^ 16) (hlen : ws.length ≤ 4) :
    (networkText ws).length ≤ 21 := by
  have hgroups := length_groupsText hws
  cases ws with
  | nil => exact (by omega : 2 ≤ 21)
  | cons w ws =>
    rw [networkText, List.length_append, List.length_singleton]
    omega

theorem assign_networkText (hws : ∀ w ∈ ws, w < 2 ^ 16) (hlen : ws.length ≤ 4)
    {len : ℕ} (hlen64 : len ≤ 64) (hwaddr : CStr → CStr) (intfName : CStr) :
    dhcpv6_assign_global_ip hwaddr (networkText ws ++ '/' :: decimal len) intfName =
      secondPart (if ws.length = 4 then groupsText ws else networkText ws)
        (get_shell_output 256 (hwaddr intfName)) := by
  obtain ⟨body, htext, -⟩ := networkText_eq ws
  have htwo : 2 ≤ (networkText ws).length := by
    rw [htext, List.length_append]
    exact Nat.le_add_left 2 _
  have hlong := networkText_length hws hlen
  have hdigits : (decimal len).length ≤ 2 := (decimal_length_le_iff (by omega)).mpr (by omega)
  have hslash : '/' ∉ decimal len := fun h => absurd (isDigit_of_mem_decimal h) (by decide)
  have hshort : ¬ 64 ≤ (networkText ws ++ '/' :: decimal len).length := by
    rw [List.length_append, List.length_cons]
    omega
  have hdrop : (networkText ws ++ '/' :: decimal len).drop ((networkText ws).length + 1) =
      decimal len := by
    rw [List.append_cons]
    exact List.drop_left' (by rw [List.length_append, List.length_singleton])
  have hsize : (BitVec.ofInt 32 (atoi (decimal len))).toNat = len := by
    rw [atoi_decimal (by omega), BitVec.ofInt_natCast, BitVec.toNat_ofNat]
    omega
  have hlast : (networkText ws)[(networkText ws).length - 1]? = some ':' := by
    rw [htext]
    simp
  rw [dhcpv6_assign_global_ip, if_neg hshort, afterLast_append hslash]
  simp only [Option.bind_eq_bind, Option.bind_some, hdrop, hsize, if_neg (show ¬ 64 < len by omega),
    Nat.add_sub_cancel, List.take_left, if_neg (show ¬ (networkText ws).length < 2 by omega), hlast,
    ne_eq, not_true_eq_false, false_and, if_false, firstPart_networkText]

/-- Any /64 network and any hardware address give the address of the interface. -/
theorem global_ip_eui64 (p : Bytes 16) (hp : ∀ k : Fin 16, 8 ≤ k.val → p k = 0#8) (len : ℕ)
    (hlen : len ≤ 64) (mac : Bytes 6) (d : Fin 6 → Char × Char) (hd : IsMacText d mac)
    (hwaddr : CStr → CStr) (intfName : CStr) (hshows : Shows (hwaddr intfName) (macText d)) :
    ∃ t, dhcpv6_assign_global_ip hwaddr (inet_ntop6 (octets p) ++ '/' :: decimal len) intfName =
      some (0, some t) ∧ inet_pton6 t = some ((octets p).take 8 ++ eui64 mac) := by
  have hnetwork : ∃ b : Bytes 8, networkAddress b = p := by
    refine ⟨fun k => p.byteAt k.val, ?_⟩
    funext k
    by_cases hk : k.val < 8
    · simp [networkAddress, Bytes.byteAt, hk]
    · simp [networkAddress, Bytes.byteAt, hk, hp k (by omega)]
  obtain ⟨b, rfl⟩ := hnetwork
  have hsplit := leadingGroups_append (groups b)
  have hfour : (groups b).length = 4 := rfl
  have hws : ∀ w ∈ leadingGroups (groups b), w < 2 ^ 16 := fun w hw =>
    groups_lt b w (mem_of_mem_leadingGroups hw)
  have hcount : (leadingGroups (groups b)).length ≤ 4 := by
    have hsum := congrArg List.length hsplit
    rw [List.length_append] at hsum
    omega
  have hoctets : (leadingGroups (groups b)).flatMap groupOctets ++
      List.replicate (8 - 2 * (leadingGroups (groups b)).length) 0 =
        (octets (networkAddress b)).take 8 := by
    have hfirst : (groups b).flatMap groupOctets = (octets (networkAddress b)).take 8 := by
      rw [← flatMap_groups]
      exact (List.take_left' rfl).symm
    rw [← hfirst]
    conv_rhs => rw [← hsplit]
    rw [List.flatMap_append, flatMap_groupOctets_replicate, hfour, Nat.mul_sub]
  have hroom : (if (leadingGroups (groups b)).length = 4 then groupsText (leadingGroups (groups b))
      else networkText (leadingGroups (groups b))).length + 20 ≤ 64 := by
    have hlong := networkText_length hws hcount
    have hgroups := length_groupsText hws
    split <;> omega
  rw [inet_ntop6_networkAddress, assign_networkText hws hcount hlen,
    secondPart_shows hd hshows hroom, ← hoctets]
  exact ⟨_, rfl, inet_pton6_assigned hws (hostDigits_octets hd) rfl hcount⟩

section Shown

def shownDigits (k : Fin 6) : Char × Char :=
  [('0', '0'), ('5', '0'), ('5', '6'), ('9', '2'), ('a', 'B'), ('2', '2')].getD k.val ('0', '0')

def shownMac : Bytes 6 := ofOctets [0x00, 0x50, 0x56, 0x92, 0xAB, 0x22]

def shownOutput : CStr :=
  "brlan0    Link encap:".toList ++ ("HWaddr".toList ++ (List.replicate 1 ' ' ++
    (macText shownDigits ++ "  \n".toList)))

theorem global_ip_eui64_shown : ∃ t, dhcpv6_assign_global_ip (fun _ => shownOutput)
      (inet_ntop6 (octets (networkAddress (ofOctets [0x20, 0x18, 0xCA, 0xFE]))) ++
        '/' :: decimal 64) "brlan0".toList = some (0, some t) ∧
    inet_pton6 t = some ((octets (networkAddress (ofOctets [0x20, 0x18, 0xCA, 0xFE]))).take 8 ++
      eui64 shownMac) := by
  refine global_ip_eui64 _ (by decide) 64 le_rfl shownMac shownDigits (by unfold IsMacText; decide)
    _ _ ⟨_, _, _, rfl, ?_⟩
  repeat rw [String.toList_ofList]
  decide

end Shown

end CcspPandM.AssignGlobalIp
