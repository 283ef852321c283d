import CcspPandM.FieldSearch

/-!
The request to reboot, a text of fields between blanks. The validator and the
thread that carries the request out both search all of it for the names of the
devices and for the keys of the delay and of the source, so a name within a
source counts as a device, and a key is found within any field.
-/
namespace CcspPandM.RebootRequest

open CString TextSearch FieldSearch

/-- What the names in a request stand for; the last is all of the device. -/
inductive Target where
  | Router | Wifi | VoIP | Dect | MoCA | Device
  deriving DecidableEq

def Target.name : Target → CStr
  | Router => "router".toList
  | Wifi => "wifi".toList
  | VoIP => "voip".toList
  | Dect => "dect".toList
  | MoCA => "moca".toList
  | Device => "device".toList

def parts : List Target := [.Router, .Wifi, .VoIP, .Dect, .MoCA]

def delayKey : CStr := "delay=".toList

def sourceKey : CStr := "source=".toList

/-- `strcasestr(t, pat) + strlen(pat)` for a pattern in small letters. -/
def strcasestr (t pat : CStr) : Option CStr := behind Char.toLower pat t

def has (t pat : CStr) : Bool := (strcasestr t pat).isSome

/-- The results of `strtok_r` with a blank. -/
def strtok (t : CStr) : List CStr := (t.splitOn ' ').filter (· ≠ [])

def CosaDmlDi_ValidateRebootDeviceParam (pValue : CStr) : Bool :=
  let IsDelayValid := has pValue delayKey
  let IsSourceValid := has pValue sourceKey
  let IsActionValid := (.Device :: parts).any fun d => has pValue d.name
  if pValue = [] then true
  else if IsActionValid then true
  else if 256 ≤ pValue.length then false
  else match IsSourceValid, IsDelayValid, strtok pValue with
    | false, true, [delay] => has delay delayKey
    | true, false, [source] => has source sourceKey
    | true, true, [first, second] => (has first delayKey || has first sourceKey) &&
        (has second delayKey || has second sourceKey)
    | _, _, _ => false

/-- What is rebooted, and after which time: the parts, or all of the device. -/
structure Reboot where
  delay_time : ℤ
  source_str : CStr
  parts : Option (Target → Bool)

def all (named : Target → Bool) : Bool :=
  named .Device || !parts.any named || parts.all named

def partsOf (named : Target → Bool) : Option (Target → Bool) :=
  if all named then none else some named

def webpaReboot : CStr := "webpa-reboot".toList

/-- A text that `strcpy_s` puts into `pValue`. -/
def kept (buff : CStr) : CStr := if buff.length < 128 then buff else []

/-- There is no result when `source_str` is overrun. -/
def RebootDevice_thread (buff : CStr) : Option Reboot :=
  let pValue := kept buff
  let source := ((strcasestr pValue sourceKey).map (List.takeWhile (· ≠ ' '))).getD webpaReboot
  if 64 ≤ source.length then none
  else some ⟨((strcasestr pValue delayKey).map atoi).getD 0, source,
    partsOf fun d => has pValue d.name⟩

def CosaDmlDiSet_RebootDevice (pValue : CStr) : Option Reboot := RebootDevice_thread pValue

section Meaning

def value (key field : CStr) : Option CStr :=
  if key <+: field.map Char.toLower then some (field.drop key.length) else none

def given (key s : CStr) : Option CStr := (s.splitOn ' ').findSome? (value key)

def found (key s : CStr) : Option CStr := (s.splitOn ' ').findSome? fun f => strcasestr f key

def isOther (field : CStr) : Bool :=
  (value delayKey field).isNone && (value sourceKey field).isNone

def namedIn (fields : List CStr) (d : Target) : Bool := fields.any fun f => has f d.name

def numberOf (t : Option CStr) : ℤ := (t.map atoi).getD 0

def Right (s : CStr) : Prop :=
  ∃ r, CosaDmlDiSet_RebootDevice s = some r ∧ r.delay_time = numberOf (given delayKey s) ∧
    r.source_str = (given sourceKey s).getD webpaReboot ∧
    r.parts = partsOf (namedIn ((s.splitOn ' ').filter isOther))

/-- The source fits, and a `source=` within an earlier field has the same text. -/
def SourceFits (s : CStr) : Prop :=
  ((found sourceKey s).getD webpaReboot).length < 64 ∧
    (found sourceKey s).getD webpaReboot = (given sourceKey s).getD webpaReboot

/-- The first `delay=` begins its field and, with nothing behind it there, no number follows;
or it stands within a field and has the same number. -/
def DelayFits (s : CStr) : Prop :=
  if found delayKey s = given delayKey s then
    ∀ b ∈ strcasestr s delayKey, (b.takeWhile (· ≠ ' ')).all isspace = true → atoi b = 0
  else numberOf (strcasestr s delayKey) = numberOf (given delayKey s)

/-- The fields of the delay and the source name nothing new, or all is asked for anyway. -/
def NamesFit (s : CStr) : Prop :=
  (∀ d, namedIn (s.splitOn ' ') d = true → namedIn ((s.splitOn ' ').filter isOther) d = true) ∨
    all (namedIn (s.splitOn ' ')) = true ∧ all (namedIn ((s.splitOn ' ').filter isOther)) = true

/-- All of the device is asked for, at once and without another source. -/
def Plain (s : CStr) : Prop :=
  numberOf (given delayKey s) = 0 ∧ (given sourceKey s).getD webpaReboot = webpaReboot ∧
    all (namedIn ((s.splitOn ' ').filter isOther)) = true

structure Request where
  pValue : CStr
  accepted : CosaDmlDi_ValidateRebootDeviceParam pValue = true

end Meaning

section Reading

variable {key : CStr}

/-- The keys and the names: texts without a blank. -/
def Word (key : CStr) : Prop := key ≠ [] ∧ ' ' ∉ key

theorem word_delayKey : Word delayKey := ⟨by decide, by decide⟩

theorem word_sourceKey : Word sourceKey := ⟨by decide, by decide⟩

theorem word_name (d : Target) : Word d.name := by
  cases d <;> exact ⟨by decide, by decide⟩

theorem strcasestr_field (h : Word key) (s : CStr) :
    (strcasestr s key).map (List.takeWhile (· ≠ ' ')) = found key s :=
  behind_fields rfl h.1 h.2 s

theorem has_eq_namedIn (s : CStr) (d : Target) : has s d.name = namedIn (s.splitOn ' ') d := by
  have h := congrArg Option.isSome (strcasestr_field (word_name d) s)
  rwa [Option.isSome_map, found, List.isSome_findSome?] at h

theorem partsOf_eq_iff {f g : Target → Bool} :
    partsOf f = partsOf g ↔ f = g ∨ all f = true ∧ all g = true := by
  unfold partsOf
  constructor
  · intro h
    split at h
    · split at h
      · exact Or.inr ⟨by assumption, by assumption⟩
      · cases h
    · split at h
      · cases h
      · exact Or.inl (Option.some.inj h)
  · rintro (rfl | ⟨hf, hg⟩)
    · rfl
    · rw [if_pos hf, if_pos hg]

theorem namesFit_iff (s : CStr) : NamesFit s ↔
    partsOf (fun d => has s d.name) = partsOf (namedIn ((s.splitOn ' ').filter isOther)) := by
  rw [funext (has_eq_namedIn s), partsOf_eq_iff, NamesFit]
  apply or_congr_left
  constructor
  · intro h
    funext d
    apply Bool.eq_iff_iff.mpr ⟨h d, fun hd => ?_⟩
    obtain ⟨f, hf, hname⟩ := List.any_eq_true.mp hd
    exact List.any_eq_true.mpr ⟨f, (List.mem_filter.mp hf).1, hname⟩
  · exact fun h d hd => h ▸ hd

theorem takeWhile_space (x r : CStr) (p : Char → Bool) (hr : r = [] ∨ ∃ t, r = ' ' :: t)
    (hp : p ' ' = false) : (x ++ r).takeWhile p = x.takeWhile p := by
  have hnil : r.takeWhile p = [] := by
    rcases hr with rfl | ⟨t, rfl⟩
    · rfl
    · exact List.takeWhile_cons_of_neg (by simp [hp])
  rw [List.takeWhile_append, hnil, List.append_nil]
  split
  · exact (List.IsPrefix.eq_of_length (List.takeWhile_prefix p) (by assumption)).symm
  · rfl

theorem atoi_field {b : CStr} (h : ¬ (b.takeWhile (· ≠ ' ')).all isspace = true) :
    atoi b = atoi (b.takeWhile (· ≠ ' ')) := by
  obtain ⟨v, r, hr, hv, rfl⟩ : ∃ v r : CStr, (r = [] ∨ ∃ t, r = ' ' :: t) ∧
      b.takeWhile (· ≠ ' ') = v ∧ b = v ++ r := by
    refine ⟨_, b.dropWhile (· ≠ ' '), ?_, rfl, List.takeWhile_append_dropWhile.symm⟩
    cases hdrop : b.dropWhile (· ≠ ' ') with
    | nil => exact Or.inl rfl
    | cons c t =>
      have hc := List.head?_dropWhile_not (· ≠ ' ') b
      rw [hdrop] at hc
      exact Or.inr ⟨t, by simpa using hc⟩
  have hnumber (x : CStr) : leadingNumber (x ++ r) = leadingNumber x := by
    rw [leadingNumber, takeWhile_space x r _ hr rfl]
    rfl
  rw [hv] at h ⊢
  have hne : v.dropWhile isspace ≠ [] := by simpa using h
  have hdrop : (v ++ r).dropWhile isspace = v.dropWhile isspace ++ r := by
    rw [List.dropWhile_append, if_neg (by simpa using hne)]
  obtain ⟨c, t, hfirst⟩ := List.exists_cons_of_ne_nil hne
  have hsame : strtol (v ++ r) = strtol v := by
    unfold strtol
    rw [hdrop, hfirst, List.cons_append]
    by_cases hminus : c = '-'
    · subst hminus
      exact congrArg (fun n : ℕ => max (-(n : ℤ)) (-(2 ^ 63))) (hnumber t)
    by_cases hplus : c = '+'
    · subst hplus
      exact congrArg (fun n : ℕ => min (n : ℤ) (2 ^ 63 - 1)) (hnumber t)
    · have hplain := hnumber (c :: t)
      rw [List.cons_append] at hplain
      split
      · exact absurd (List.cons.inj (by assumption)).1 hminus
      · exact absurd (List.cons.inj (by assumption)).1 hplus
      · simp [hplain, hminus, hplus]
  rw [atoi, atoi, hsame]

theorem atoi_blank {t : CStr} (h : t.all isspace = true) : atoi t = 0 := by
  have hdrop : t.dropWhile isspace = [] := by simpa using h
  rw [atoi, strtol, hdrop]
  rfl

theorem delayFits_iff (s : CStr) : DelayFits s ↔
    numberOf (strcasestr s delayKey) = numberOf (given delayKey s) := by
  rw [DelayFits]
  split
  · rename_i hsame
    rw [← hsame, ← strcasestr_field word_delayKey s]
    cases strcasestr s delayKey with
    | none => simp
    | some b =>
      change (∀ b' ∈ some b, _) ↔ atoi b = atoi (b.takeWhile (· ≠ ' '))
      simp only [Option.mem_def, Option.some.injEq, forall_eq']
      by_cases hblank : (b.takeWhile (· ≠ ' ')).all isspace = true
      · rw [atoi_blank hblank]
        exact ⟨fun h => h hblank, fun h _ => h⟩
      · exact ⟨fun _ => atoi_field hblank, fun _ h => absurd h hblank⟩
  · rfl

end Reading

section Settled

theorem thread_short {s : CStr} (h : s.length < 128) : Right s ↔
    SourceFits s ∧ DelayFits s ∧ NamesFit s := by
  have hkept : kept s = s := if_pos h
  rw [delayFits_iff, namesFit_iff, SourceFits, Right]
  unfold CosaDmlDiSet_RebootDevice RebootDevice_thread
  rw [hkept]
  dsimp only
  rw [strcasestr_field word_sourceKey s]
  split
  · constructor
    · rintro ⟨r, hr, -⟩
      cases hr
    · intro hfits
      omega
  · constructor
    · rintro ⟨r, hr, hdelay, hsource, hnames⟩
      obtain rfl := Option.some.inj hr
      exact ⟨⟨by omega, hsource⟩, hdelay, hnames⟩
    · intro hfits
      exact ⟨_, rfl, hfits.2.1, hfits.1.2, hfits.2.2⟩

theorem thread_long {s : CStr} (h : ¬ s.length < 128) : Right s ↔ Plain s := by
  have hkept : kept s = [] := if_neg h
  have hthread : CosaDmlDiSet_RebootDevice s = some ⟨0, webpaReboot, none⟩ := by
    unfold CosaDmlDiSet_RebootDevice RebootDevice_thread
    rw [hkept]
    rfl
  have hparts (named : Target → Bool) : none = partsOf named ↔ all named = true := by
    unfold partsOf
    split <;> simp_all
  rw [Right, Plain, hthread, ← hparts]
  constructor
  · rintro ⟨r, hr, hdelay, hsource, hnames⟩
    obtain rfl := Option.some.inj hr
    exact ⟨hdelay.symm, hsource.symm, hnames⟩
  · rintro ⟨hdelay, hsource, hnames⟩
    exact ⟨_, rfl, hdelay.symm, hsource.symm, hnames⟩

end Settled

end CcspPandM.RebootRequest
