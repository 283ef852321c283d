import CcspPandM.Ipv6Text
import CcspPandM.KeyStore
import CcspPandM.Runs

/-!
The redirect addresses of managed devices: three servers, each with an IPv4 and an
IPv6 address. A setting is kept in memory in single quotes and reaches the store with
a commit. The IPv4 addresses are read from the store and the IPv6 ones from memory,
where the reader of one of them looks at another one.
-/
namespace CcspPandM.RedirectAddresses

open CString InetText Ipv6Text KeyStore Runs

/-- The parameters, each of which is stored under its own name. -/
inductive Param where
  | HTTP_Server_IP
  | HTTPS_Server_IP
  | Default_Server_IP
  | HTTP_Server_IPv6
  | HTTPS_Server_IPv6
  | Default_Server_IPv6
  deriving DecidableEq

open Param

namespace Param

def isV6 : Param → Bool
  | HTTP_Server_IP | HTTPS_Server_IP | Default_Server_IP => false
  | HTTP_Server_IPv6 | HTTPS_Server_IPv6 | Default_Server_IPv6 => true

/-- The bytes of the field in `COSA_DML_MD_RED`. -/
def size (p : Param) : ℕ := if p.isV6 then 64 else 17

instance (p : Param) : NeZero p.size := ⟨by cases p <;> decide⟩

def default (p : Param) : Buf p.size :=
  Buf.snprintf (if p.isV6 then "::1".toList else "127.0.0.1".toList)

end Param

structure System where
  MDRedirect : (p : Param) → Buf p.size
  syscfg : Store Param CStr

section Code

def ANSC_STATUS_SUCCESS : ℕ := 0

def ANSC_STATUS_FAILURE : ℕ := 0xffffffff

def quoted (t : CStr) : CStr := '\x27' :: t ++ ['\x27']

def isValidIP (isV6 : Bool) (ipAddress : CStr) : ℕ × CStr :=
  if (if isV6 then (inet_pton6 ipAddress).isSome else (inet_pton4 ipAddress).isSome) = false then
    (ANSC_STATUS_FAILURE, [])
  else if '\x27' ∈ ipAddress then (ANSC_STATUS_FAILURE, [])
  else if (quoted ipAddress).length < 256 then (ANSC_STATUS_SUCCESS, quoted ipAddress)
  else (ANSC_STATUS_FAILURE, [])

/-- One parameter is refused unless the status is 1, the others unless it is success. -/
def refused : Param → ℕ → Bool
  | HTTP_Server_IPv6, ret => ret ≠ 1
  | _, ret => ret ≠ ANSC_STATUS_SUCCESS

/-- The copy, where the text fits with its NUL. -/
def STRCPY_S_NOCLOBBER (n : ℕ) (t : CStr) : Option (Buf n) :=
  if h : t.length < n then some ⟨t, h⟩ else none

def MDRed_SetParamStringValue (s : System) (p : Param) (strValue : CStr) : Bool × System :=
  let checked := isValidIP p.isV6 strValue
  if refused p checked.1 then (false, s)
  else
    match STRCPY_S_NOCLOBBER p.size checked.2 with
    | some value => (true, { s with MDRedirect := Function.update s.MDRedirect p value })
    | none => (false, s)

/-- A text that is read from the store, and `IPv4[17]` when there is none. -/
def storedIPv4 (s : System) (p : Param) : Buf 17 :=
  match s.syscfg p with
  | some t => Buf.snprintf t
  | none => Buf.snprintf "0".toList

/-- The text that is copied to a value of a given size. -/
def MDRed_GetParamStringValue (s : System) (p : Param) (pUlSize : ℕ) : Option CStr :=
  let source :=
    match p with
    | HTTP_Server_IPv6 => (s.MDRedirect HTTP_Server_IPv6).text
    | HTTPS_Server_IPv6 => (s.MDRedirect HTTP_Server_IPv6).text
    | Default_Server_IPv6 => (s.MDRedirect Default_Server_IPv6).text
    | p => (storedIPv4 s p).text
  if source.length < pUlSize then some source else none

/-- One parameter: a text that is stored and not empty, and else the default, which is
stored. -/
def confText (p : Param) (stored : Option CStr) : Buf p.size :=
  match stored.map (Buf.snprintf (n := p.size)) with
  | some value => if value.text = [] then p.default else value
  | none => p.default

def confStored (p : Param) (stored : Option CStr) : CStr :=
  match stored with
  | some t => if (Buf.snprintf t : Buf p.size).text = [] then p.default.text else t
  | none => p.default.text

def CosaDmlMDRed_GetConf (s : System) : System :=
  ⟨fun p => confText p (s.syscfg p), fun p => some (confStored p (s.syscfg p))⟩

def CosaDmlMDRed_SetConf (s : System) : System :=
  { s with syscfg := fun p => some (s.MDRedirect p).text }

def MDRed_Commit (s : System) : System := CosaDmlMDRed_SetConf s

def MDRed_Rollback (s : System) : System := CosaDmlMDRed_GetConf s

end Code

section Settings

inductive Call where
  | set (p : Param) (strValue : CStr)
  | commit
  | rollback
  | restart

/-- The system, and beside it the last setting and the last committed text of each
parameter. -/
structure History where
  system : System
  setting : Param → CStr
  committed : Param → CStr

def Valid (p : Param) (t : CStr) : Prop :=
  if p.isV6 then (inet_pton6 t).isSome else (inet_pton4 t).isSome

instance (p : Param) (t : CStr) : Decidable (Valid p t) :=
  decidable_of_iff ((if p.isV6 then (inet_pton6 t).isSome else (inet_pton4 t).isSome) = true)
    (by unfold Valid; split <;> rfl)

/-- The system does the call; a valid address becomes the setting, a commit takes the
settings over, and the other calls go back to what was committed. -/
def step (h : History) : Call → Option History
  | .set p t => some
    ⟨(MDRed_SetParamStringValue h.system p t).2,
      if Valid p t then Function.update h.setting p (quoted t) else h.setting, h.committed⟩
  | .commit => some ⟨MDRed_Commit h.system, h.setting, h.setting⟩
  | .rollback => some ⟨MDRed_Rollback h.system, h.committed, h.committed⟩
  | .restart => some ⟨CosaDmlMDRed_GetConf h.system, h.committed, h.committed⟩

def boot (syscfg : Store Param CStr) : History :=
  ⟨CosaDmlMDRed_GetConf ⟨Param.default, syscfg⟩, fun p => confStored p (syscfg p),
    fun p => confStored p (syscfg p)⟩

def ReadsCommitted (h : History) : Prop :=
  ∀ p size, 64 ≤ size → MDRed_GetParamStringValue h.system p size = some (h.committed p)

def Right (h : History) (c : Call) (h' : History) : Prop :=
  match c with
  | .set p t => ((MDRed_SetParamStringValue h.system p t).1 = true ↔ Valid p t) ∧
      ∀ q, q ≠ p → ∀ size, MDRed_GetParamStringValue h'.system q size =
        MDRed_GetParamStringValue h.system q size
  | .commit => ReadsCommitted h'
  | .rollback => ∀ p, (h'.system.MDRedirect p).text = h.committed p
  | .restart => ReadsCommitted h'

def Fits (h : History) : Call → Prop
  | .set p t => Valid p t → p ≠ HTTP_Server_IPv6 ∧ (quoted t).length < p.size
  | .commit => h.setting HTTPS_Server_IPv6 = h.setting HTTP_Server_IPv6
  | .rollback => True
  | .restart => h.committed HTTPS_Server_IPv6 = h.committed HTTP_Server_IPv6

end Settings

section Calls

variable {h : History}

structure Agree (h : History) : Prop where
  memory : ∀ p, (h.system.MDRedirect p).text = h.setting p
  stored : ∀ p, h.system.syscfg p = some (h.committed p)
  settingNe : ∀ p, h.setting p ≠ []
  committedNe : ∀ p, h.committed p ≠ []
  committedFits : ∀ p, (h.committed p).length < p.size

theorem default_ne_nil (p : Param) : p.default.text ≠ [] := by
  cases p <;> decide

theorem quoted_ne_nil (t : CStr) : quoted t ≠ [] := List.cons_ne_nil _ _

variable {p : Param} {t : CStr}

theorem quote_not_mem (hvalid : Valid p t) : '\x27' ∉ t := by
  intro hmem
  unfold Valid at hvalid
  split at hvalid
  · obtain ⟨os, hos⟩ := Option.isSome_iff_exists.mp hvalid
    rcases inet_pton6_chars hos _ hmem with h | h | h
    · exact absurd h (by decide)
    · exact absurd h (by decide)
    · exact absurd h (by decide)
  · obtain ⟨os, hos⟩ := Option.isSome_iff_exists.mp hvalid
    rcases pton4From_chars hos _ hmem with h | h
    · exact absurd h (by decide)
    · exact absurd h (by decide)

theorem valid_iff (p : Param) (t : CStr) :
    (if p.isV6 then (inet_pton6 t).isSome else (inet_pton4 t).isSome) = true ↔ Valid p t := by
  unfold Valid
  split <;> rfl

theorem isValidIP_valid (hvalid : Valid p t)
    (hlen : (quoted t).length < 256) :
    isValidIP p.isV6 t = (ANSC_STATUS_SUCCESS, quoted t) := by
  have hsome := (valid_iff p t).mpr hvalid
  rw [isValidIP, if_neg (fun h => absurd (hsome.symm.trans h) (by decide)),
    if_neg (quote_not_mem hvalid), if_pos hlen]

theorem isValidIP_failure (h : ¬ (Valid p t ∧ (quoted t).length < 256)) :
    (isValidIP p.isV6 t).1 = ANSC_STATUS_FAILURE := by
  by_cases hvalid : Valid p t
  · have hsome := (valid_iff p t).mpr hvalid
    have hlen : ¬ (quoted t).length < 256 := fun hlen => h ⟨hvalid, hlen⟩
    rw [isValidIP, if_neg (fun h => absurd (hsome.symm.trans h) (by decide)),
      if_neg (quote_not_mem hvalid), if_neg hlen]
  · have hnone := mt (valid_iff p t).mp hvalid
    rw [isValidIP, if_pos (Bool.eq_false_of_not_eq_true hnone)]

theorem size_le (p : Param) : p.size ≤ 64 := by
  cases p <;> decide

theorem refused_success (hp : p ≠ HTTP_Server_IPv6) :
    refused p ANSC_STATUS_SUCCESS = false := by
  cases p <;> first | rfl | exact absurd rfl hp

theorem refused_failure (p : Param) : refused p ANSC_STATUS_FAILURE = true := by
  cases p <;> rfl

theorem refused_other (t : CStr) :
    refused HTTP_Server_IPv6 (isValidIP true t).1 = true := by
  by_cases h : Valid HTTP_Server_IPv6 t ∧ (quoted t).length < 256
  · have hchecked := isValidIP_valid h.1 h.2
    change isValidIP true t = _ at hchecked
    rw [hchecked]
    rfl
  · have hfailure := isValidIP_failure h
    change (isValidIP true t).1 = _ at hfailure
    rw [hfailure]
    decide

theorem noclobber_of_lt {n : ℕ} (h : t.length < n) :
    ∃ value : Buf n, STRCPY_S_NOCLOBBER n t = some value ∧ value.text = t :=
  ⟨⟨t, h⟩, dif_pos h, rfl⟩

theorem set_accepted (s : System) (hvalid : Valid p t)
    (hp : p ≠ HTTP_Server_IPv6) (hlen : (quoted t).length < p.size) :
    ∃ value : Buf p.size, value.text = quoted t ∧ MDRed_SetParamStringValue s p t =
      (true, { s with MDRedirect := Function.update s.MDRedirect p value }) := by
  have hsize := size_le p
  obtain ⟨value, hcopy, htext⟩ := noclobber_of_lt hlen
  refine ⟨value, htext, ?_⟩
  unfold MDRed_SetParamStringValue
  rw [isValidIP_valid hvalid (by omega)]
  dsimp only
  rw [if_neg (by rw [refused_success hp]; decide), hcopy]

theorem set_refused (s : System)
    (h : ¬ (Valid p t ∧ p ≠ HTTP_Server_IPv6 ∧ (quoted t).length < p.size)) :
    MDRed_SetParamStringValue s p t = (false, s) := by
  unfold MDRed_SetParamStringValue
  dsimp only
  by_cases hp : p = HTTP_Server_IPv6
  · subst hp
    exact if_pos (refused_other t)
  · by_cases hsome : Valid p t ∧ (quoted t).length < 256
    · have hlen : ¬ (quoted t).length < p.size := fun hlen => h ⟨hsome.1, hp, hlen⟩
      have hcopy : STRCPY_S_NOCLOBBER p.size (quoted t) = none := dif_neg hlen
      rw [isValidIP_valid hsome.1 hsome.2, if_neg (by rw [refused_success hp]; decide), hcopy]
    · rw [isValidIP_failure hsome, if_pos (refused_failure p)]

theorem storedIPv4_text (hagree : Agree h) (hp : p.isV6 = false) :
    (storedIPv4 h.system p).text = h.committed p := by
  have hfits := hagree.committedFits p
  rw [Param.size, hp] at hfits
  have hlen : (h.committed p).length ≤ 16 := by simpa using Nat.lt_succ_iff.mp hfits
  rw [storedIPv4, hagree.stored p]
  exact List.take_of_length_le hlen

variable {size : ℕ}

theorem get_v4 (hagree : Agree h) (hp : p.isV6 = false) (hsize : 64 ≤ size) :
    MDRed_GetParamStringValue h.system p size = some (h.committed p) := by
  have htext := storedIPv4_text hagree hp
  have hfits := hagree.committedFits p
  have hbound := size_le p
  have hroom : (h.committed p).length < size := by omega
  cases p <;> first
    | exact absurd hp (by decide)
    | (unfold MDRed_GetParamStringValue
       dsimp only
       rw [htext, if_pos hroom])

theorem get_memory {s : System} {p q : Param} (hsize : 64 ≤ size)
    (hread : MDRed_GetParamStringValue s p size =
      if (s.MDRedirect q).text.length < size then some (s.MDRedirect q).text else none) :
    MDRed_GetParamStringValue s p size = some (s.MDRedirect q).text := by
  have hlt := (s.MDRedirect q).text_length_lt
  have hbound := size_le q
  rw [hread, if_pos (by omega)]

theorem readsCommitted_iff (hagree : Agree h) (hsame : ∀ p, h.setting p = h.committed p) :
    ReadsCommitted h ↔ h.committed HTTPS_Server_IPv6 = h.committed HTTP_Server_IPv6 := by
  have hmemory (p : Param) : (h.system.MDRedirect p).text = h.committed p :=
    (hagree.memory p).trans (hsame p)
  constructor
  · intro hreads
    have hread := hreads HTTPS_Server_IPv6 64 le_rfl
    rw [get_memory (q := HTTP_Server_IPv6) le_rfl rfl, hmemory] at hread
    exact (Option.some.inj hread).symm
  · intro heq p size hsize
    cases hp : p.isV6 with
    | false => exact get_v4 hagree hp hsize
    | true =>
      cases p with
      | HTTP_Server_IP => exact absurd hp (by decide)
      | HTTPS_Server_IP => exact absurd hp (by decide)
      | Default_Server_IP => exact absurd hp (by decide)
      | HTTP_Server_IPv6 =>
        rw [get_memory (q := HTTP_Server_IPv6) hsize rfl, hmemory]
      | HTTPS_Server_IPv6 =>
        rw [get_memory (q := HTTP_Server_IPv6) hsize rfl, hmemory, heq]
      | Default_Server_IPv6 =>
        rw [get_memory (q := Default_Server_IPv6) hsize rfl, hmemory]

theorem getConf_memory (hagree : Agree h) (p : Param) :
    ((CosaDmlMDRed_GetConf h.system).MDRedirect p).text = h.committed p := by
  have htext := Buf.text_snprintf_of_lt (hagree.committedFits p)
  change (confText p (h.system.syscfg p)).text = h.committed p
  rw [hagree.stored p, confText, Option.map_some]
  dsimp only
  rw [if_neg (by rw [htext]; exact hagree.committedNe p), htext]

theorem getConf_stored (hagree : Agree h) (p : Param) :
    (CosaDmlMDRed_GetConf h.system).syscfg p = some (h.committed p) := by
  have htext := Buf.text_snprintf_of_lt (hagree.committedFits p)
  change some (confStored p (h.system.syscfg p)) = some (h.committed p)
  rw [hagree.stored p, confStored, if_neg (by rw [htext]; exact hagree.committedNe p)]

theorem agree_getConf (hagree : Agree h) :
    Agree ⟨CosaDmlMDRed_GetConf h.system, h.committed, h.committed⟩ where
  memory := getConf_memory hagree
  stored := getConf_stored hagree
  settingNe := hagree.committedNe
  committedNe := hagree.committedNe
  committedFits := hagree.committedFits

theorem agree_commit (hagree : Agree h) :
    Agree ⟨MDRed_Commit h.system, h.setting, h.setting⟩ where
  memory := hagree.memory
  stored p := congrArg some (hagree.memory p)
  settingNe := hagree.settingNe
  committedNe := hagree.settingNe
  committedFits p := by
    have hlt := (h.system.MDRedirect p).text_length_lt
    rw [hagree.memory p] at hlt
    exact hlt

theorem agree_set (hagree : Agree h) (hfits : Fits h (.set p t)) :
    Agree ⟨(MDRed_SetParamStringValue h.system p t).2,
      if Valid p t then Function.update h.setting p (quoted t) else h.setting,
      h.committed⟩ := by
  by_cases hvalid : Valid p t
  · obtain ⟨hp, hlen⟩ := hfits hvalid
    obtain ⟨value, htext, hset⟩ := set_accepted h.system hvalid hp hlen
    rw [hset, if_pos hvalid]
    refine ⟨fun q => ?_, hagree.stored, fun q => ?_, hagree.committedNe, hagree.committedFits⟩
    · by_cases hq : q = p
      · subst hq
        dsimp only
        rw [Function.update_self, Function.update_self, htext]
      · dsimp only
        rw [Function.update_of_ne hq, Function.update_of_ne hq]
        exact hagree.memory q
    · by_cases hq : q = p
      · subst hq
        dsimp only
        rw [Function.update_self]
        exact quoted_ne_nil t
      · dsimp only
        rw [Function.update_of_ne hq]
        exact hagree.settingNe q
  · rw [set_refused _ (fun h => hvalid h.1), if_neg hvalid]
    exact ⟨hagree.memory, hagree.stored, hagree.settingNe, hagree.committedNe,
      hagree.committedFits⟩

theorem get_other {s : System} {p q : Param} {value : Buf p.size}
    (hp : p ≠ HTTP_Server_IPv6) (hq : q ≠ p) :
    MDRed_GetParamStringValue
        { s with MDRedirect := Function.update s.MDRedirect p value } q size =
      MDRed_GetParamStringValue s q size := by
  cases q with
  | HTTP_Server_IP => rfl
  | HTTPS_Server_IP => rfl
  | Default_Server_IP => rfl
  | HTTP_Server_IPv6 =>
    unfold MDRed_GetParamStringValue
    dsimp only
    rw [Function.update_of_ne hq]
  | HTTPS_Server_IPv6 =>
    unfold MDRed_GetParamStringValue
    dsimp only
    rw [Function.update_of_ne hp.symm]
  | Default_Server_IPv6 =>
    unfold MDRed_GetParamStringValue
    dsimp only
    rw [Function.update_of_ne hq]

theorem right_set (p : Param) (t : CStr) :
    (∃ h', step h (.set p t) = some h' ∧ Right h (.set p t) h') ↔ Fits h (.set p t) := by
  constructor
  · intro hdoes hvalid
    obtain ⟨h', hstep, haccept, hothers⟩ := hdoes
    by_contra hfits
    have hrefused := set_refused h.system (t := t) (fun hall => hfits hall.2)
    have htrue := haccept.mpr hvalid
    rw [hrefused] at htrue
    exact Bool.false_ne_true htrue
  · intro hfits
    refine ⟨_, rfl, ?_, ?_⟩
    · by_cases hvalid : Valid p t
      · obtain ⟨hp, hlen⟩ := hfits hvalid
        obtain ⟨value, -, hset⟩ := set_accepted h.system hvalid hp hlen
        rw [hset]
        exact iff_of_true rfl hvalid
      · rw [set_refused _ (fun h => hvalid h.1)]
        exact iff_of_false Bool.false_ne_true hvalid
    · intro q hq size
      by_cases hvalid : Valid p t
      · obtain ⟨hp, hlen⟩ := hfits hvalid
        obtain ⟨value, -, hset⟩ := set_accepted h.system hvalid hp hlen
        rw [hset]
        exact get_other hp hq
      · rw [set_refused _ (fun h => hvalid h.1)]

theorem right_iff (hagree : Agree h) (c : Call) :
    (∃ h', step h c = some h' ∧ Right h c h') ↔ Fits h c := by
  cases c with
  | set p t => exact right_set p t
  | commit =>
    have hreads := readsCommitted_iff (agree_commit hagree) (fun _ => rfl)
    constructor
    · intro hdoes
      obtain ⟨h', hstep, hright⟩ := hdoes
      obtain rfl := Option.some.inj hstep
      exact hreads.mp hright
    · intro hfits
      exact ⟨_, rfl, hreads.mpr hfits⟩
  | rollback => exact iff_of_true ⟨_, rfl, getConf_memory hagree⟩ trivial
  | restart =>
    have hreads := readsCommitted_iff (agree_getConf hagree) (fun _ => rfl)
    constructor
    · intro hdoes
      obtain ⟨h', hstep, hright⟩ := hdoes
      obtain rfl := Option.some.inj hstep
      exact hreads.mp hright
    · intro hfits
      exact ⟨_, rfl, hreads.mpr hfits⟩

theorem agree_step {h' : History} {c : Call} (hagree : Agree h) (hfits : Fits h c)
    (hstep : step h c = some h') : Agree h' := by
  cases c with
  | set p t =>
    obtain rfl := Option.some.inj hstep
    exact agree_set hagree hfits
  | commit =>
    obtain rfl := Option.some.inj hstep
    exact agree_commit hagree
  | rollback =>
    obtain rfl := Option.some.inj hstep
    exact agree_getConf hagree
  | restart =>
    obtain rfl := Option.some.inj hstep
    exact agree_getConf hagree

theorem confStored_fits (p : Param) {stored : Option CStr}
    (hfits : ∀ t, stored = some t → t.length < p.size) :
    confStored p stored ≠ [] ∧ (confStored p stored).length < p.size ∧
      (confText p stored).text = confStored p stored := by
  have hdefault := p.default.text_length_lt
  cases stored with
  | none => exact ⟨default_ne_nil p, hdefault, rfl⟩
  | some t =>
    have htext := Buf.text_snprintf_of_lt (hfits t rfl)
    rw [confStored, confText, Option.map_some, htext]
    dsimp only
    by_cases hnil : t = []
    · rw [if_pos hnil, if_pos (htext.trans hnil)]
      exact ⟨default_ne_nil p, hdefault, rfl⟩
    · rw [if_neg hnil, if_neg (by rw [htext]; exact hnil)]
      exact ⟨hnil, hfits t rfl, htext⟩

theorem agree_boot {db : Store Param CStr} (hdb : ∀ p t, db p = some t → t.length < p.size) :
    Agree (boot db) where
  memory p := (confStored_fits p (hdb p)).2.2
  stored _ := rfl
  settingNe p := (confStored_fits p (hdb p)).1
  committedNe p := (confStored_fits p (hdb p)).1
  committedFits p := (confStored_fits p (hdb p)).2.1

end Calls

/-- When every call of a run does what it should, after a start on stored texts that the
fields hold. -/
theorem redirects_right_iff (db : Store Param CStr)
    (hdb : ∀ p t, db p = some t → t.length < p.size) (calls : List Call) :
    Does step Right (boot db) calls ↔ StepsMeet step Fits (boot db) calls :=
  @does_iff _ _ step Right (fun _ _ => True) Fits Agree
    (fun _ c hagree _ => right_iff hagree c)
    (fun _ _ _ hagree _ hfits hstep => agree_step hagree hfits hstep)
    _ _ (agree_boot hdb) (stepsMeet_true _ _ _)

theorem redirects_default :
    Does step Right (boot fun _ => none)
        [.set HTTPS_Server_IP "10.0.0.7".toList, .commit, .restart, .rollback] ↔
      StepsMeet step Fits (boot fun _ => none)
        [.set HTTPS_Server_IP "10.0.0.7".toList, .commit, .restart, .rollback] :=
  redirects_right_iff _ (fun _ _ h => absurd h.symm (Option.some_ne_none _)) _

/-- An address of 15 characters does not fit its field with the quotes. -/
theorem long_address_refused :
    ¬ Does step Right (boot fun _ => none)
      [.set HTTP_Server_IP "192.168.100.100".toList] := by
  intro hdoes
  obtain ⟨h', hstep, hright, -⟩ := hdoes
  have hfits := (right_set (h := boot fun _ => none) HTTP_Server_IP _).mp ⟨h', hstep, hright⟩
  exact absurd (hfits (by decide)).2 (by decide)

end CcspPandM.RedirectAddresses
