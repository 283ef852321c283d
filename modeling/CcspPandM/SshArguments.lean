import CcspPandM.TextSearch

/-!
The arguments of the reverse SSH tunnel, made from a text of fields between
semicolons. The login is searched for in the whole text and the options in the
whole of each field; what does not fit its buffer on the way is left out.
-/
namespace CcspPandM.SshArguments

open CString TextSearch

section Source

def behind (key t : CStr) : Option CStr := (strstr key t).map (List.drop key.length)

def idletimeout : CStr := "idletimeout=".toList

def sshport : CStr := "sshport=".toList

def revsshport : CStr := "revsshport=".toList

/-- The options of the build without `ENABLE_SHORTS`. -/
def mapArgsToSSHOption (revSSHConfig : CStr) : Option (Buf 125) :=
  match behind idletimeout revSSHConfig, behind sshport revSSHConfig,
    behind revsshport revSSHConfig with
  | some value, _, _ => some (Buf.sprintf_s (" -I ".toList ++ value ++ " -f -N -y -T".toList))
  | none, some value, none => some (Buf.sprintf_s (" -p ".toList ++ value))
  | none, _, some value => some (Buf.sprintf_s (" -R ".toList ++ value ++ ":[CM_IP]:22".toList))
  | none, none, none => none

def findUntilFirstDelimiter (input : CStr) : Buf 125 :=
  if input.length < 512 then Buf.sprintf_s ((tokens ';' input).headD input) else Buf.empty

def getHostLogin (tempStr : CStr) : Option (Buf 255) :=
  if 512 ≤ tempStr.length then none
  else match behind "host=".toList tempStr, behind "user=".toList tempStr with
    | some host, some user =>
      let user := findUntilFirstDelimiter (Buf.snprintf user : Buf 125).text
      let hostIp := findUntilFirstDelimiter (Buf.sprintf_s host : Buf 256).text
      some (Buf.sprintf_s (' ' :: user.text ++ '@' :: hostIp.text))
    | _, _ => none

/-- `strncat` behind the check that what is appended fits. -/
def strncat (reverseSSHArgs : Buf 256) (option : CStr) : Buf 256 :=
  if h : (reverseSSHArgs.text ++ option).length < 256 then ⟨reverseSSHArgs.text ++ option, h⟩
  else reverseSSHArgs

/-- The result and the text that `reverseSSHArgs` holds afterwards. -/
def setXOpsReverseSshArgs (pString : CStr) : ℕ × Buf 256 :=
  match getHostLogin pString with
  | none => (1, Buf.empty)
  | some hostLogin =>
    if 512 ≤ pString.length then (1, Buf.empty)
    else
      let options := (tokens ';' pString).filterMap mapArgsToSSHOption
      let reverseSSHArgs := options.foldl (fun args option => strncat args option.text) Buf.empty
      (0, strncat reverseSSHArgs hostLogin.text)

end Source

section Meaning

structure Field where
  key : CStr
  value : CStr
  hkey : '=' ∉ key ∧ ';' ∉ key
  hvalue : ';' ∉ value

def Field.text (f : Field) : CStr := f.key ++ '=' :: f.value

def textOf (fields : List Field) : CStr := separated ';' (fields.map Field.text)

def given (key : String) (fields : List Field) : Option CStr :=
  (fields.find? fun f => f.key = key.toList).map Field.value

def optionOf (f : Field) : CStr :=
  if f.key = "idletimeout".toList then " -I ".toList ++ f.value ++ " -f -N -y -T".toList
  else if f.key = "sshport".toList then " -p ".toList ++ f.value
  else if f.key = "revsshport".toList then " -R ".toList ++ f.value ++ ":[CM_IP]:22".toList
  else []

def login (user host : CStr) : CStr := ' ' :: user ++ '@' :: host

/-- The arguments are those of the fields, or there are none and the result says so. -/
def Right (fields : List Field) : Prop :=
  let r := setXOpsReverseSshArgs (textOf fields)
  r.1 ≠ 0 ∧ r.2.text = [] ∨
    r.1 = 0 ∧ ∃ user host, given "user" fields = some user ∧ given "host" fields = some host ∧
      r.2.text = fields.flatMap optionOf ++ login user host

/-- The text is too long, or there is no host or no user in it. -/
def Refused (t : CStr) : Prop :=
  512 ≤ t.length ∨ ¬ "host=".toList <:+: t ∨ ¬ "user=".toList <:+: t

/-- What is found first for a key of the login is the value of its field, up to a semicolon. -/
structure Taken (key : String) (fields : List Field) (value rest : CStr) : Prop where
  found : behind (key.toList ++ ['=']) (textOf fields) = some (value ++ rest)
  given : given key fields = some value
  ends : rest = [] ∨ ∃ t, rest = ';' :: t
  nonempty : value ≠ [] ∨ rest = []
  fits : value.length < 125

/-- No key is found in another one's field, and the option fits. -/
structure Plain (f : Field) : Prop where
  idle : f.key ≠ "idletimeout".toList → ¬ idletimeout <:+: f.text
  port : f.key = "sshport".toList → ¬ revsshport <:+: f.text
  other : f.key ≠ "idletimeout".toList → f.key ≠ "sshport".toList →
    f.key ≠ "revsshport".toList → ¬ sshport <:+: f.text
  fits : (optionOf f).length < 125

/-- Nothing is cut off or left out on the way. -/
structure Clean (fields : List Field) (user host : CStr) : Prop where
  userTaken : ∃ rest, Taken "user" fields user rest
  hostTaken : ∃ rest, Taken "host" fields host rest ∧ (host ++ rest).length < 256
  options : ∀ f ∈ fields, Plain f
  fits : (fields.flatMap optionOf ++ login user host).length < 256

end Meaning

section Login

theorem tokens_headD {value rest : CStr} (hvalue : ';' ∉ value)
    (hends : rest = [] ∨ ∃ t, rest = ';' :: t) (hne : value ≠ [] ∨ rest = []) :
    (tokens ';' (value ++ rest)).headD (value ++ rest) = value := by
  rcases hends with rfl | ⟨t, rfl⟩
  · rw [List.append_nil]
    by_cases h : value = []
    · rw [h]
      rfl
    · rw [tokens, tokensFrom_last hvalue (by simpa using h)]
      rfl
  · have h : value ≠ [] := hne.resolve_right (List.cons_ne_nil _ _)
    rw [tokens, tokensFrom_token hvalue (by simpa using h)]
    rfl

theorem find_until {value rest : CStr} (hvalue : ';' ∉ value)
    (hends : rest = [] ∨ ∃ t, rest = ';' :: t) (hne : value ≠ [] ∨ rest = [])
    (hfits : value.length < 125) (hshort : (value ++ rest).length < 512) :
    (findUntilFirstDelimiter (value ++ rest)).text = value := by
  rw [findUntilFirstDelimiter, if_pos hshort, tokens_headD hvalue hends hne,
    Buf.text_sprintf_s_of_lt hfits]

variable {fields : List Field} {user host : CStr}

theorem given_free {key : String} {value : CStr} (h : given key fields = some value) :
    ';' ∉ value := by
  obtain ⟨f, -, rfl⟩ := Option.map_eq_some_iff.mp h
  exact f.hvalue

theorem getHostLogin_clean (h : Clean fields user host) (hshort : (textOf fields).length < 512) :
    ∃ l, getHostLogin (textOf fields) = some l ∧ l.text = login user host := by
  obtain ⟨rest, huser⟩ := h.userTaken
  obtain ⟨rest', hhost, hroom⟩ := h.hostTaken
  have hends : rest.take (124 - user.length) = [] ∨
      ∃ t, rest.take (124 - user.length) = ';' :: t := by
    rcases huser.ends with rfl | ⟨t, rfl⟩
    · exact Or.inl List.take_nil
    · cases 124 - user.length with
      | zero => exact Or.inl rfl
      | succ n => exact Or.inr ⟨_, rfl⟩
  have hne : user ≠ [] ∨ rest.take (124 - user.length) = [] :=
    huser.nonempty.imp_right fun hrest => by rw [hrest, List.take_nil]
  have hcut : (Buf.snprintf (user ++ rest) : Buf 125).text =
      user ++ rest.take (124 - user.length) := by
    have hfits := huser.fits
    rw [Buf.text_snprintf, List.take_append, List.take_of_length_le (by omega)]
  have huser' : (findUntilFirstDelimiter
      (Buf.snprintf (user ++ rest) : Buf 125).text).text = user := by
    have hlen := Buf.text_length_lt (Buf.snprintf (user ++ rest) : Buf 125)
    rw [hcut] at hlen ⊢
    exact find_until (given_free huser.given) hends hne huser.fits (by omega)
  have hhost' : (findUntilFirstDelimiter
      (Buf.sprintf_s (host ++ rest') : Buf 256).text).text = host := by
    rw [Buf.text_sprintf_s_of_lt hroom]
    exact find_until (given_free hhost.given) hhost.ends hhost.nonempty hhost.fits (by omega)
  refine ⟨Buf.sprintf_s (login user host), ?_, Buf.text_sprintf_s_of_lt ?_⟩
  · have hkey : behind "host=".toList (textOf fields) = some (host ++ rest') := hhost.found
    have hkey' : behind "user=".toList (textOf fields) = some (user ++ rest) := huser.found
    rw [getHostLogin, if_neg (by omega), hkey, hkey']
    dsimp only
    rw [huser', hhost']
    rfl
  · have hlen := huser.fits
    have hlen' := hhost.fits
    simp only [login, List.length_append, List.length_cons]
    omega

theorem behind_none {key t : CStr} (h : ¬ key <:+: t) : behind key t = none := by
  have hsome := mt (strstr_isSome key t).mp h
  rw [behind, Option.not_isSome_iff_eq_none.mp hsome]
  rfl

theorem getHostLogin_refused {t : CStr} (h : Refused t) : getHostLogin t = none := by
  rw [getHostLogin]
  split
  · rfl
  · rcases h with h | h | h
    · omega
    · rw [behind_none h]
    · rw [behind_none h]
      split
      · rename_i huser
        cases huser
      · rfl

end Login

section Options

theorem mapArgs_plain {f : Field} (h : Plain f) :
    ((mapArgsToSSHOption f.text).map Buf.text).getD [] = optionOf f := by
  have hfits := h.fits
  have hsome {key name : CStr} (hname : name ++ ['='] = key) (hkey : f.key = name) :
      behind key f.text = some f.value := by
    have htext : f.text = key ++ f.value := by
      rw [Field.text, hkey, ← hname, List.append_assoc, List.singleton_append]
    rw [behind, htext, strstr_of_prefix (List.prefix_append _ _), Option.map_some,
      List.drop_left]
  rw [mapArgsToSSHOption]
  by_cases hidle : f.key = "idletimeout".toList
  · rw [optionOf, if_pos hidle] at hfits ⊢
    rw [@hsome idletimeout _ rfl hidle]
    exact Buf.text_sprintf_s_of_lt hfits
  rw [behind_none (h.idle hidle)]
  by_cases hport : f.key = "sshport".toList
  · rw [optionOf, if_neg hidle, if_pos hport] at hfits ⊢
    rw [@hsome sshport _ rfl hport, behind_none (h.port hport)]
    exact Buf.text_sprintf_s_of_lt hfits
  by_cases hrev : f.key = "revsshport".toList
  · rw [optionOf, if_neg hidle, if_neg hport, if_pos hrev] at hfits ⊢
    rw [@hsome revsshport _ rfl hrev]
    cases behind sshport f.text with
    | none => exact Buf.text_sprintf_s_of_lt hfits
    | some value => exact Buf.text_sprintf_s_of_lt hfits
  · have hnot := h.other hidle hport hrev
    have hnot' : ¬ revsshport <:+: f.text := fun hin => hnot (List.IsInfix.trans (by decide) hin)
    rw [optionOf, if_neg hidle, if_neg hport, if_neg hrev, behind_none hnot, behind_none hnot']
    rfl

theorem options_plain {fields : List Field} (h : ∀ f ∈ fields, Plain f) :
    ((fields.map Field.text).filterMap mapArgsToSSHOption).flatMap Buf.text =
      fields.flatMap optionOf := by
  induction fields with
  | nil => rfl
  | cons f fields ih =>
    have hfirst := mapArgs_plain (h f List.mem_cons_self)
    rw [List.map_cons, List.filterMap_cons, List.flatMap_cons, ← hfirst,
      ← ih fun g hg => h g (List.mem_cons_of_mem _ hg)]
    cases mapArgsToSSHOption f.text with
    | none => rfl
    | some option => rfl

theorem strncat_text {args : Buf 256} {option : CStr} (h : (args.text ++ option).length < 256) :
    (strncat args option).text = args.text ++ option := by
  have hfits : strncat args option = ⟨args.text ++ option, h⟩ := dif_pos h
  rw [hfits]
  rfl

theorem strncat_all (options : List (Buf 125)) (args : Buf 256)
    (h : (args.text ++ options.flatMap Buf.text).length < 256) :
    (options.foldl (fun args option => strncat args option.text) args).text =
      args.text ++ options.flatMap Buf.text := by
  induction options generalizing args with
  | nil => exact (List.append_nil _).symm
  | cons option options ih =>
    rw [List.flatMap_cons, ← List.append_assoc] at h ⊢
    have hfirst : (strncat args option.text).text = args.text ++ option.text := by
      apply strncat_text
      rw [List.length_append] at h
      omega
    rw [List.foldl_cons, ih, hfirst]
    rwa [hfirst]

end Options

/-- The arguments are those of the fields when the text is refused, or nothing is found in
another place and all of it fits. -/
theorem ssh_arguments_right (fields : List Field)
    (h : Refused (textOf fields) ∨ ∃ user host, Clean fields user host) : Right fields := by
  by_cases hrefused : Refused (textOf fields)
  · refine Or.inl ?_
    rw [setXOpsReverseSshArgs, getHostLogin_refused hrefused]
    exact ⟨Nat.one_ne_zero, rfl⟩
  obtain ⟨user, host, hclean⟩ := h.resolve_left hrefused
  have hshort : (textOf fields).length < 512 := Nat.lt_of_not_le fun hle => hrefused (Or.inl hle)
  obtain ⟨l, hlogin, htext⟩ := getHostLogin_clean hclean hshort
  have htokens : tokens ';' (textOf fields) = fields.map Field.text := by
    apply tokens_separated
    intro t ht
    obtain ⟨f, -, rfl⟩ := List.mem_map.mp ht
    refine ⟨by simp [Field.text], ?_⟩
    simp [Field.text, f.hkey.2, f.hvalue]
  have hoptions := strncat_all ((fields.map Field.text).filterMap mapArgsToSSHOption) Buf.empty
  have hfits := hclean.fits
  rw [Buf.text_empty, List.nil_append, options_plain hclean.options] at hoptions
  have hall := hoptions (by rw [List.length_append] at hfits; omega)
  obtain ⟨rest, huser⟩ := hclean.userTaken
  obtain ⟨rest', hhost, -⟩ := hclean.hostTaken
  refine Or.inr ⟨?_, user, host, huser.given, hhost.given, ?_⟩
  · rw [setXOpsReverseSshArgs, hlogin]
    exact congrArg Prod.fst (if_neg (by omega))
  · rw [setXOpsReverseSshArgs, hlogin, htokens]
    dsimp only
    rw [if_neg (by omega)]
    dsimp only
    rw [strncat_text, hall, htext]
    rwa [hall, htext]

def field (key value : String) (h : '=' ∉ key.toList ∧ ';' ∉ key.toList ∧ ';' ∉ value.toList) :
    Field :=
  ⟨key.toList, value.toList, ⟨h.1, h.2.1⟩, h.2.2⟩

def loginFields : List Field :=
  [field "host" "10.0.0.1" (by decide), field "user" "me" (by decide)]

theorem ssh_arguments_login : Right (loginFields ++ [field "idletimeout" "60" (by decide)]) := by
  have hplain : ∀ f ∈ loginFields ++ [field "idletimeout" "60" (by decide)],
      (f.key ≠ "idletimeout".toList → ¬ idletimeout <:+: f.text) ∧ f.key ≠ "sshport".toList ∧
        ¬ sshport <:+: f.text ∧ (optionOf f).length < 125 := by
    decide
  apply ssh_arguments_right
  refine Or.inr ⟨"me".toList, "10.0.0.1".toList, ⟨";idletimeout=60".toList, by decide, rfl,
    Or.inr ⟨_, rfl⟩, by decide, by decide⟩, ⟨";user=me;idletimeout=60".toList, ⟨by decide, rfl,
    Or.inr ⟨_, rfl⟩, by decide, by decide⟩, by decide⟩, fun f hf => ?_, by decide⟩
  obtain ⟨hidle, hport, hother, hfits⟩ := hplain f hf
  exact ⟨hidle, fun h => absurd h hport, fun _ _ _ => hother, hfits⟩

/-- A key with the name of another at its end gives an option of that one. -/
theorem other_key_taken : ¬ ∀ fields, Right fields := by
  intro h
  rcases h (loginFields ++ [field "xsshport" "1" (by decide)]) with ⟨hresult, -⟩ |
    ⟨-, user, host, huser, hhost, htext⟩
  · exact hresult (by decide)
  · obtain rfl := Option.some.inj huser
    obtain rfl := Option.some.inj hhost
    revert htext
    decide

end CcspPandM.SshArguments
