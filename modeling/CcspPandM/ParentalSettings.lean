import CcspPandM.Ipv6Text
import CcspPandM.Runs
import CcspPandM.TextSearch

/-!
The settings of an entry of parental control: a blocked site, a managed service, a
managed device or a trusted user. Each parameter is checked when it is set, most of
them alone, and a text that is accepted is printed to its field.
-/
namespace CcspPandM.ParentalSettings

open CString InetText Runs ScanFields TextSearch

section Code

abbrev ULONG := BitVec 32

/-- The parameters of the four tables; `DeviceType` is the one called `Type`. -/
inductive ParamName where
  | Site
  | StartTime
  | EndTime
  | BlockDays
  | Description
  | MACAddress
  | HostDescription
  | IPAddress
  | BlockMethod
  | Protocol
  | StartPort
  | EndPort
  | DeviceType
  | IPAddressType
  | AlwaysBlock
  | Trusted
  deriving DecidableEq

structure COSA_DML_BLOCKEDURL where
  BlockMethod : ULONG
  Site : Buf 1025
  AlwaysBlock : Bool
  StartTime : Buf 64
  EndTime : Buf 64
  StartTimeFlg : Bool
  EndTimeFlg : Bool
  BlockDays : Buf 64

structure COSA_DML_MS_SERV where
  Description : Buf 64
  Protocol : ULONG
  StartPort : ULONG
  EndPort : ULONG
  AlwaysBlock : Bool
  StartTime : Buf 64
  EndTime : Buf 64
  BlockDays : Buf 64

structure COSA_DML_MD_DEV where
  DeviceType : ULONG
  Description : Buf 64
  MACAddress : Buf 64
  AlwaysBlock : Bool
  StartTime : Buf 64
  EndTime : Buf 64
  BlockDays : Buf 64

structure COSA_DML_TRUSTEDUSER where
  HostDescription : Buf 64
  IPAddressType : ULONG
  IPAddress : Buf 64
  Trusted : Bool

/-- Whether a setting is accepted, the entry behind it, and whether the character before
the text was read. -/
structure Setting (α : Type) where
  accepted : Bool
  entry : α
  readsBefore : Bool

namespace Setting

variable {α β : Type}

def refuse (e : α) : Setting α := ⟨false, e, false⟩

def check (ok : Bool) (e e' : α) : Setting α := if ok then ⟨true, e', false⟩ else refuse e

def map (f : α → β) (s : Setting α) : Setting β := ⟨s.accepted, f s.entry, s.readsBefore⟩

end Setting

def BLOCK_METHOD_KEYWORD : ULONG := 2

def IPADDR_IPV4 : ULONG := 1

def IPADDR_IPV6 : ULONG := 2

def BUFF_SIZE : ℕ := 2048

def ValidateTime (hh mm : ℤ) : Bool :=
  if hh < 0 ∨ 23 < hh then false else if mm < 0 ∨ 59 < mm then false else true

/-- `sscanf(t, "%d:%d %c", &HH, &MM, &dump) == 2`. -/
def readTime (t : CStr) : Option (ℤ × ℤ) :=
  match scanInt t with
  | some (hh, ':' :: rest) =>
    match scanInt rest with
    | some (mm, rest) => if rest.dropWhile isspace = [] then some (hh.toInt, mm.toInt) else none
    | none => none
  | _ => none

def startTimeOk (t : CStr) : Bool := (readTime t).any fun time => ValidateTime time.1 time.2

def endTimeOk (t : CStr) : Bool :=
  (readTime t).any fun time => (time.2 = 59 ∧ time.1 ≤ 23) ∨ ValidateTime time.1 time.2

def day : List CStr :=
  ["Mon".toList, "Tue".toList, "Wed".toList, "Thu".toList, "Fri".toList, "Sat".toList,
    "Sun".toList]

def is_valid_day (str : CStr) : Bool := str ∈ day

/-- The loop over the days. There is no result where `arr[7]` would be written. -/
def checkDays (arr : List CStr) : List CStr → Option Bool
  | [] => some true
  | token :: tokens =>
    if !is_valid_day token then some false
    else if arr.any fun a => strneq a token token.length then some false
    else if 7 ≤ arr.length then none
    else checkDays (arr ++ [token]) tokens

/-- `BlockDays`: with a token in the text, `strValue[len-1]` with a `len` of 0 is the
character `before` it. -/
def setBlockDays {α : Type} (before : Char) (strValue : CStr) (e e' : α) :
    Option (Setting α) :=
  match tokens ',' strValue with
  | [] => some (Setting.refuse e)
  | ts =>
    if before = ',' then some ⟨false, e, true⟩
    else (checkDays [] ts).map fun ok => ⟨ok, if ok then e' else e, true⟩

def is_url (buff : CStr) : Bool :=
  let spl := "-._~:/?#[]@!$&'()*+,;%=".toList
  if buff.any fun c => !(decide (c ∈ spl) || c.isAlphanum) then false
  else if !strcaseeq (buff.take 7) "http://".toList &&
      !strcaseeq (buff.take 8) "https://".toList then false
  else if buff.getLast? = some '.' then false
  else 2 ≤ (tokens '.' buff).length

def siteOk (e : COSA_DML_BLOCKEDURL) (t : CStr) : Bool :=
  t.length ≤ BUFF_SIZE && (is_url t || e.BlockMethod = BLOCK_METHOD_KEYWORD)

/-- No character of some, and one that is no blank. -/
def descriptionOk (t : CStr) : Bool :=
  !t.any (fun c => c ∈ ['<', '>', '&', '\x27', '"', '|']) && t.any (fun c => c ≠ ' ')

/-- `%02X`, and the colon behind it. -/
def scanOctets : ℕ → CStr → Option CStr
  | 0, t => some t
  | n + 1, t =>
    match scanHexOf 2 t with
    | some (_, rest) =>
      if n = 0 then some rest
      else
        match rest with
        | ':' :: rest => scanOctets n rest
        | _ => none
    | none => none

def macOk (t : CStr) : Bool := t.length = 17 && scanOctets 6 t = some []

def addressOk (IPAddressType : ULONG) (t : CStr) : Bool :=
  (IPAddressType = IPADDR_IPV4 && (inet_pton4 t).isSome) ||
    (IPAddressType = IPADDR_IPV6 && (inet_pton6 t).isSome)

variable (AnscValidStringCheck : CStr → Bool) (before : Char)

def PcBlkURL_SetParamStringValue (e : COSA_DML_BLOCKEDURL) (p : ParamName) (strValue : CStr) :
    Option (Setting COSA_DML_BLOCKEDURL) :=
  if AnscValidStringCheck strValue = false then some (Setting.refuse e)
  else
    match p with
    | .Site => some (Setting.check (siteOk e strValue) e
        { e with Site := Buf.snprintf strValue })
    | .StartTime => some (Setting.check (startTimeOk strValue) e
        { e with StartTime := Buf.snprintf strValue, StartTimeFlg := true })
    | .EndTime => some (Setting.check (endTimeOk strValue) e
        { e with EndTime := Buf.snprintf strValue, EndTimeFlg := true })
    | .BlockDays => setBlockDays before strValue e { e with BlockDays := Buf.snprintf strValue }
    | _ => some (Setting.refuse e)

def MSServ_SetParamStringValue (e : COSA_DML_MS_SERV) (p : ParamName) (strValue : CStr) :
    Option (Setting COSA_DML_MS_SERV) :=
  if p = .Description then some (Setting.check (descriptionOk strValue) e
    { e with Description := Buf.snprintf strValue })
  else if AnscValidStringCheck strValue = false then some (Setting.refuse e)
  else
    match p with
    | .StartTime => some (Setting.check (startTimeOk strValue) e
        { e with StartTime := Buf.snprintf strValue })
    | .EndTime => some (Setting.check (endTimeOk strValue) e
        { e with EndTime := Buf.snprintf strValue })
    | .BlockDays => setBlockDays before strValue e { e with BlockDays := Buf.snprintf strValue }
    | _ => some (Setting.refuse e)

def MDDev_SetParamStringValue (e : COSA_DML_MD_DEV) (p : ParamName) (strValue : CStr) :
    Option (Setting COSA_DML_MD_DEV) :=
  if p = .Description then some (Setting.check (descriptionOk strValue) e
    { e with Description := Buf.snprintf strValue })
  else if AnscValidStringCheck strValue = false then some (Setting.refuse e)
  else
    match p with
    | .MACAddress => some (Setting.check (macOk strValue) e
        { e with MACAddress := Buf.snprintf strValue })
    | .StartTime => some (Setting.check (startTimeOk strValue) e
        { e with StartTime := Buf.snprintf strValue })
    | .EndTime => some (Setting.check (endTimeOk strValue) e
        { e with EndTime := Buf.snprintf strValue })
    | .BlockDays => setBlockDays before strValue e { e with BlockDays := Buf.snprintf strValue }
    | _ => some (Setting.refuse e)

def PcTrustedUser_SetParamStringValue (e : COSA_DML_TRUSTEDUSER) (p : ParamName)
    (strValue : CStr) : Setting COSA_DML_TRUSTEDUSER :=
  if AnscValidStringCheck strValue = false then Setting.refuse e
  else
    match p with
    | .HostDescription => Setting.check true e { e with HostDescription := Buf.snprintf strValue }
    | .IPAddress => Setting.check (addressOk e.IPAddressType strValue) e
        { e with IPAddress := Buf.snprintf strValue }
    | _ => Setting.refuse e

def PcBlkURL_SetParamUlongValue (e : COSA_DML_BLOCKEDURL) (p : ParamName) (ulValue : ULONG) :
    Setting COSA_DML_BLOCKEDURL :=
  match p with
  | .BlockMethod => Setting.check true e { e with BlockMethod := ulValue }
  | _ => Setting.refuse e

def MSServ_SetParamUlongValue (e : COSA_DML_MS_SERV) (p : ParamName) (ulValue : ULONG) :
    Setting COSA_DML_MS_SERV :=
  match p with
  | .Protocol => Setting.check true e { e with Protocol := ulValue }
  | .StartPort => Setting.check (1 ≤ ulValue.toNat ∧ ulValue.toNat ≤ 65535) e
      { e with StartPort := ulValue }
  | .EndPort => Setting.check (e.StartPort.toNat ≤ ulValue.toNat ∧ ulValue.toNat ≤ 65535) e
      { e with EndPort := ulValue }
  | _ => Setting.refuse e

def MDDev_SetParamUlongValue (e : COSA_DML_MD_DEV) (p : ParamName) (ulValue : ULONG) :
    Setting COSA_DML_MD_DEV :=
  match p with
  | .DeviceType => Setting.check true e { e with DeviceType := ulValue }
  | _ => Setting.refuse e

def PcTrustedUser_SetParamUlongValue (e : COSA_DML_TRUSTEDUSER) (p : ParamName)
    (ulValue : ULONG) : Setting COSA_DML_TRUSTEDUSER :=
  match p with
  | .IPAddressType => Setting.check true e { e with IPAddressType := ulValue }
  | _ => Setting.refuse e

def PcBlkURL_SetParamBoolValue (e : COSA_DML_BLOCKEDURL) (p : ParamName) (bValue : Bool) :
    Setting COSA_DML_BLOCKEDURL :=
  Setting.check (p = .AlwaysBlock) e { e with AlwaysBlock := bValue }

def MSServ_SetParamBoolValue (e : COSA_DML_MS_SERV) (p : ParamName) (bValue : Bool) :
    Setting COSA_DML_MS_SERV :=
  Setting.check (p = .AlwaysBlock) e { e with AlwaysBlock := bValue }

def MDDev_SetParamBoolValue (e : COSA_DML_MD_DEV) (p : ParamName) (bValue : Bool) :
    Setting COSA_DML_MD_DEV :=
  Setting.check (p = .AlwaysBlock) e { e with AlwaysBlock := bValue }

def PcTrustedUser_SetParamBoolValue (e : COSA_DML_TRUSTEDUSER) (p : ParamName) (bValue : Bool) :
    Setting COSA_DML_TRUSTEDUSER :=
  Setting.check (p = .Trusted) e { e with Trusted := bValue }

end Code

section Entries

inductive Entry where
  | url (e : COSA_DML_BLOCKEDURL)
  | serv (e : COSA_DML_MS_SERV)
  | dev (e : COSA_DML_MD_DEV)
  | user (e : COSA_DML_TRUSTEDUSER)

/-- A call; a text comes with the character before it. -/
inductive Call where
  | setString (p : ParamName) (before : Char) (strValue : CStr)
  | setUlong (p : ParamName) (ulValue : ULONG)
  | setBool (p : ParamName) (bValue : Bool)
  | validate

def setString (check : CStr → Bool) (before : Char) (p : ParamName) (t : CStr) :
    Entry → Option (Setting Entry)
  | .url e => (PcBlkURL_SetParamStringValue check before e p t).map (Setting.map .url)
  | .serv e => (MSServ_SetParamStringValue check before e p t).map (Setting.map .serv)
  | .dev e => (MDDev_SetParamStringValue check before e p t).map (Setting.map .dev)
  | .user e => some ((PcTrustedUser_SetParamStringValue check e p t).map .user)

def setUlong (p : ParamName) (v : ULONG) : Entry → Setting Entry
  | .url e => (PcBlkURL_SetParamUlongValue e p v).map .url
  | .serv e => (MSServ_SetParamUlongValue e p v).map .serv
  | .dev e => (MDDev_SetParamUlongValue e p v).map .dev
  | .user e => (PcTrustedUser_SetParamUlongValue e p v).map .user

def setBool (p : ParamName) (b : Bool) : Entry → Setting Entry
  | .url e => (PcBlkURL_SetParamBoolValue e p b).map .url
  | .serv e => (MSServ_SetParamBoolValue e p b).map .serv
  | .dev e => (MDDev_SetParamBoolValue e p b).map .dev
  | .user e => (PcTrustedUser_SetParamBoolValue e p b).map .user

def textOf (p : ParamName) : Entry → Option CStr
  | .url e =>
    match p with
    | .Site => some e.Site.text
    | .StartTime => some e.StartTime.text
    | .EndTime => some e.EndTime.text
    | .BlockDays => some e.BlockDays.text
    | _ => none
  | .serv e =>
    match p with
    | .Description => some e.Description.text
    | .StartTime => some e.StartTime.text
    | .EndTime => some e.EndTime.text
    | .BlockDays => some e.BlockDays.text
    | _ => none
  | .dev e =>
    match p with
    | .Description => some e.Description.text
    | .MACAddress => some e.MACAddress.text
    | .StartTime => some e.StartTime.text
    | .EndTime => some e.EndTime.text
    | .BlockDays => some e.BlockDays.text
    | _ => none
  | .user e =>
    match p with
    | .HostDescription => some e.HostDescription.text
    | .IPAddress => some e.IPAddress.text
    | _ => none

/-- An entry, and which ports have been set. -/
structure History where
  entry : Entry
  startSet : Bool
  endSet : Bool

def IsTime (t : CStr) : Prop :=
  ∃ hh mm, readTime t = some (hh, mm) ∧ 0 ≤ hh ∧ hh ≤ 23 ∧ 0 ≤ mm ∧ mm ≤ 59

def IsDays (t : CStr) : Prop :=
  ∃ days, days ≠ [] ∧ days.length ≤ 7 ∧ days.Nodup ∧ (∀ d ∈ days, d ∈ day) ∧
    t = separated ',' days

/-- The times and the days of an entry, where they are set. -/
def GoodTimes (startTime endTime blockDays : CStr) : Prop :=
  (startTime ≠ [] → IsTime startTime) ∧ (endTime ≠ [] → IsTime endTime) ∧
    (blockDays ≠ [] → IsDays blockDays)

def Good (h : History) : Prop :=
  match h.entry with
  | .url e => GoodTimes e.StartTime.text e.EndTime.text e.BlockDays.text
  | .serv e => GoodTimes e.StartTime.text e.EndTime.text e.BlockDays.text ∧
      (h.endSet → e.EndPort.toNat ≤ 65535) ∧
      (h.startSet → h.endSet → e.StartPort.toNat ≤ e.EndPort.toNat)
  | .dev e => GoodTimes e.StartTime.text e.EndTime.text e.BlockDays.text
  | .user e => e.IPAddress.text ≠ [] → addressOk e.IPAddressType e.IPAddress.text

/-- The calls; a setting of a text has no result where it leaves `arr`. -/
def step (check : CStr → Bool) (h : History) : Call → Option History
  | .setString p before t => (setString check before p t h.entry).map fun r =>
      ⟨r.entry, h.startSet, h.endSet⟩
  | .setUlong p v =>
    let r := setUlong p v h.entry
    some ⟨r.entry, h.startSet || (r.accepted && p = .StartPort),
      h.endSet || (r.accepted && p = .EndPort)⟩
  | .setBool p b => some ⟨(setBool p b h.entry).entry, h.startSet, h.endSet⟩
  | .validate => some h

/-- An accepted text is stored whole, a refused one changes nothing, and nothing before it is
read. -/
def TextRight (h : History) (p : ParamName) (t : CStr) (r : Setting Entry) : Prop :=
  r.readsBefore = false ∧ (r.accepted = false → r.entry = h.entry) ∧
    (r.accepted = true → textOf p r.entry = some t)

def Right (check : CStr → Bool) (h : History) (c : Call) (h' : History) : Prop :=
  Good h' ∧
    match c with
    | .setString p before t => ∀ r, setString check before p t h.entry = some r →
        TextRight h p t r
    | .setUlong p v => (setUlong p v h.entry).accepted = false → h'.entry = h.entry
    | .setBool p b => (setBool p b h.entry).accepted = false → h'.entry = h.entry
    | .validate => h' = h

/-- The call ends, and rightly. -/
abbrev EndsRight (check : CStr → Bool) (h : History) (c : Call) : Prop :=
  ∃ h', step check h c = some h' ∧ Right check h c h'

/-- The texts that pass the checks of their parameter, except for the days. -/
def Passes (check : CStr → Bool) (p : ParamName) (t : CStr) : Entry → Prop
  | .url e => check t = true ∧ (p = .Site ∧ siteOk e t = true ∨
      p = .StartTime ∧ startTimeOk t = true ∨ p = .EndTime ∧ endTimeOk t = true)
  | .serv _ => p = .Description ∧ descriptionOk t = true ∨ check t = true ∧
      (p = .StartTime ∧ startTimeOk t = true ∨ p = .EndTime ∧ endTimeOk t = true)
  | .dev _ => p = .Description ∧ descriptionOk t = true ∨ check t = true ∧
      (p = .MACAddress ∧ macOk t = true ∨
        p = .StartTime ∧ startTimeOk t = true ∨ p = .EndTime ∧ endTimeOk t = true)
  | .user e => check t = true ∧ (p = .HostDescription ∨
      p = .IPAddress ∧ addressOk e.IPAddressType t = true)

def size (p : ParamName) : ℕ := if p = .Site then 1025 else 64

def Entry.hasTimes : Entry → Bool
  | .user _ => false
  | _ => true

/-- What a call needs: a text that passes fits its field, and as an end is a time; no text of
days has a day; a start is not above an end that is set; and the type of an address that is
set is its own. -/
def Fits (check : CStr → Bool) (h : History) : Call → Prop
  | .setString p _ t =>
    (Passes check p t h.entry → t.length < size p ∧ (p = .EndTime → IsTime t)) ∧
      (p = .BlockDays → h.entry.hasTimes = true → check t = true → tokens ',' t = [])
  | .setUlong p v =>
    match h.entry with
    | .serv e => p = .StartPort → 1 ≤ v.toNat → v.toNat ≤ 65535 → h.endSet = true →
        v.toNat ≤ e.EndPort.toNat
    | .user e => p = .IPAddressType → e.IPAddress.text ≠ [] →
        addressOk v e.IPAddress.text = true
    | _ => True
  | .setBool _ _ => True
  | .validate => True

end Entries

section Days

end Days

section Calls

variable {check : CStr → Bool} {h : History} {p : ParamName} {before : Char} {t : CStr}

theorem isTime_of_startTimeOk (htime : startTimeOk t = true) : IsTime t := by
  rw [startTimeOk, Option.any_eq_true] at htime
  obtain ⟨time, hread, hvalid⟩ := htime
  rw [ValidateTime] at hvalid
  refine ⟨time.1, time.2, hread, ?_⟩
  split at hvalid
  · cases hvalid
  split at hvalid
  · cases hvalid
  · omega

variable {α : Type} {e e' : α} (mk : α → Entry)

variable {ok : Bool}

theorem exists_right_iff (hgood : Good h)
    (hentry : h.entry = mk e)
    (hset : setString check before p t h.entry = some ((Setting.check ok e e').map mk)) :
    EndsRight check h (.setString p before t) ↔
      (ok = true → textOf p (mk e') = some t ∧ Good ⟨mk e', h.startSet, h.endSet⟩) := by
  have hstep : step check h (.setString p before t) =
      some ⟨((Setting.check ok e e').map mk).entry, h.startSet, h.endSet⟩ := by
    rw [step, hset, Option.map_some]
  have hright (h' : History) : Right check h (.setString p before t) h' ↔
      Good h' ∧ TextRight h p t ((Setting.check ok e e').map mk) := by
    simp only [Right, hset, Option.some.injEq, forall_eq']
  cases ok with
  | false =>
    have hsame : h = ⟨mk e, h.startSet, h.endSet⟩ := by rw [← hentry]
    refine iff_of_true ⟨_, hstep, (hright _).mpr ⟨?_, rfl, fun _ => hentry.symm, ?_⟩⟩ ?_
    · rw [hsame] at hgood
      exact hgood
    · intro haccepted
      cases haccepted
    · intro hfalse
      cases hfalse
  | true =>
    constructor
    · intro hdone _
      obtain ⟨h', hh', hr⟩ := hdone
      obtain rfl := Option.some.inj (hstep.symm.trans hh')
      obtain ⟨hgood', -, -, hread⟩ := (hright _).mp hr
      exact ⟨hread rfl, hgood'⟩
    · intro hdone
      obtain ⟨hread, hgood'⟩ := hdone rfl
      refine ⟨_, hstep, (hright _).mpr ⟨hgood', rfl, ?_, fun _ => hread⟩⟩
      intro hrefused
      cases hrefused

theorem exists_right_of_refuse {e : α} (hgood : Good h)
    (hentry : h.entry = mk e)
    (hset : setString check before p t h.entry = some ((Setting.refuse e).map mk)) :
    EndsRight check h (.setString p before t) := by
  have hcheck : setString check before p t h.entry = some ((Setting.check false e e).map mk) :=
    hset
  apply (exists_right_iff mk hgood hentry hcheck).mpr
  intro hfalse
  cases hfalse

theorem exists_right_days_iff (hgood : Good h)
    (hentry : h.entry = mk e)
    (hset : setString check before p t h.entry =
      (setBlockDays before t e e').map (Setting.map mk)) :
    EndsRight check h (.setString p before t) ↔ tokens ',' t = [] := by
  cases htokens : tokens ',' t with
  | nil =>
    rw [setBlockDays, htokens] at hset
    exact iff_of_true (exists_right_of_refuse mk hgood hentry hset) rfl
  | cons token ts =>
    apply iff_of_false
    · intro hdone
      obtain ⟨h', hstep, -, hright⟩ := hdone
      have hreads : ∀ r, setBlockDays before t e e' = some r → r.readsBefore = true := by
        intro r hr
        rw [setBlockDays, htokens] at hr
        dsimp only at hr
        split at hr
        · obtain rfl := Option.some.inj hr
          rfl
        · obtain ⟨ok, -, rfl⟩ := Option.map_eq_some_iff.mp hr
          rfl
      rw [step, hset] at hstep
      cases hdays : setBlockDays before t e e' with
      | none =>
        rw [hdays] at hstep
        cases hstep
      | some r =>
        obtain ⟨hunread, -⟩ := hright (r.map mk) (by rw [hset, hdays, Option.map_some])
        have hread := hreads r hdays
        rw [Setting.map] at hunread
        rw [hunread] at hread
        cases hread
    · exact List.cons_ne_nil _ _


theorem exists_right_stored_iff (n : ℕ)
    [NeZero n] (hgood : Good h) (hentry : h.entry = mk e)
    (hset : setString check before p t h.entry = some ((Setting.check ok e e').map mk))
    (htext : textOf p (mk e') = some (Buf.snprintf t : Buf n).text)
    (hkept : ok = true → (Buf.snprintf t : Buf n).text = t →
      Good ⟨mk e', h.startSet, h.endSet⟩) :
    EndsRight check h (.setString p before t) ↔ (ok = true → t.length < n) := by
  rw [exists_right_iff mk hgood hentry hset, htext, Option.some.injEq]
  constructor
  · intro hstored hok
    exact (Buf.text_snprintf_eq_iff t).mp (hstored hok).1
  · intro hlt hok
    have hsame := (Buf.text_snprintf_eq_iff t).mpr (hlt hok)
    exact ⟨hsame, hkept hok hsame⟩

theorem exists_right_end_iff (hgood : Good h)
    (hentry : h.entry = mk e)
    (hset : setString check before .EndTime t h.entry =
      some ((Setting.check (endTimeOk t) e e').map mk))
    (htext : textOf .EndTime (mk e') = some (Buf.snprintf t : Buf 64).text)
    (hkept : endTimeOk t = true → (Buf.snprintf t : Buf 64).text = t →
      (Good ⟨mk e', h.startSet, h.endSet⟩ ↔ IsTime t)) :
    EndsRight check h (.setString .EndTime before t) ↔
      (endTimeOk t = true → t.length < 64 ∧ IsTime t) := by
  rw [exists_right_iff mk hgood hentry hset, htext, Option.some.injEq]
  refine forall_congr' fun hok => ?_
  rw [← @Buf.text_snprintf_eq_iff 64 _ t]
  exact and_congr_right (hkept hok)

theorem goodTimes_start {s f d : CStr} (hgood : GoodTimes s f d) (htime : startTimeOk t = true) :
    GoodTimes t f d := ⟨fun _ => isTime_of_startTimeOk htime, hgood.2⟩

theorem goodTimes_end_iff {s f d : CStr} (hgood : GoodTimes s f d) (htime : endTimeOk t = true) :
    GoodTimes s t d ↔ IsTime t := by
  have hne : t ≠ [] := by
    intro hnil
    rw [hnil] at htime
    revert htime
    decide
  exact ⟨fun h => h.2.1 hne, fun h => ⟨hgood.1, fun _ => h, hgood.2.2⟩⟩

variable {s f : Bool}

theorem url_right_iff {e : COSA_DML_BLOCKEDURL} (hgood : Good ⟨.url e, s, f⟩) :
    EndsRight check ⟨.url e, s, f⟩ (.setString p before t) ↔
      Fits check ⟨.url e, s, f⟩ (.setString p before t) := by
  cases hcheck : check t with
  | false =>
    have hset : setString check before p t (.url e) = some ((Setting.refuse e).map .url) := by
      unfold setString PcBlkURL_SetParamStringValue
      simp only [hcheck, if_true, Option.map_some]
    refine iff_of_true (exists_right_of_refuse .url hgood rfl hset) ?_
    simp [Fits, Passes, hcheck]
  | true =>
    have hset : setString check before p t (.url e) =
        (PcBlkURL_SetParamStringValue check before e p t).map (Setting.map .url) := rfl
    unfold PcBlkURL_SetParamStringValue at hset
    rw [if_neg (by simp [hcheck])] at hset
    cases p with
    | Site =>
      have hdone := exists_right_stored_iff .url 1025 hgood rfl hset rfl fun _ _ => hgood
      simpa [Fits, Passes, hcheck, size] using hdone
    | StartTime =>
      have hdone := exists_right_stored_iff .url 64 hgood rfl hset rfl fun hok hsame => by
        change GoodTimes (Buf.snprintf t : Buf 64).text _ _
        rw [hsame]
        exact goodTimes_start hgood hok
      simpa [Fits, Passes, hcheck, size] using hdone
    | EndTime =>
      have hdone := exists_right_end_iff .url hgood rfl hset rfl fun hok hsame => by
        change GoodTimes _ (Buf.snprintf t : Buf 64).text _ ↔ _
        rw [hsame]
        exact goodTimes_end_iff hgood hok
      simpa [Fits, Passes, hcheck, size] using hdone
    | BlockDays =>
      have hdone := exists_right_days_iff .url hgood rfl hset
      simpa [Fits, Passes, hcheck, size, Entry.hasTimes] using hdone
    | _ =>
      refine iff_of_true (exists_right_of_refuse .url hgood rfl hset) ?_
      simp [Fits, Passes]

theorem serv_right_iff {e : COSA_DML_MS_SERV} (hgood : Good ⟨.serv e, s, f⟩) :
    EndsRight check ⟨.serv e, s, f⟩ (.setString p before t) ↔
      Fits check ⟨.serv e, s, f⟩ (.setString p before t) := by
  have hset : setString check before p t (.serv e) =
      (MSServ_SetParamStringValue check before e p t).map (Setting.map .serv) := rfl
  unfold MSServ_SetParamStringValue at hset
  by_cases hp : p = .Description
  · subst hp
    have hdone := exists_right_stored_iff .serv 64 hgood rfl hset rfl fun _ _ => hgood
    simpa [Fits, Passes, size] using hdone
  rw [if_neg hp] at hset
  cases hcheck : check t with
  | false =>
    rw [if_pos hcheck] at hset
    refine iff_of_true (exists_right_of_refuse .serv hgood rfl hset) ?_
    simp [Fits, Passes, hcheck, hp]
  | true =>
    rw [if_neg (by simp [hcheck])] at hset
    cases p with
    | StartTime =>
      have hdone := exists_right_stored_iff .serv 64 hgood rfl hset rfl fun hok hsame => by
        change GoodTimes (Buf.snprintf t : Buf 64).text _ _ ∧ _
        rw [hsame]
        exact ⟨goodTimes_start hgood.1 hok, hgood.2⟩
      simpa [Fits, Passes, hcheck, size] using hdone
    | EndTime =>
      have hdone := exists_right_end_iff .serv hgood rfl hset rfl fun hok hsame => by
        change GoodTimes _ (Buf.snprintf t : Buf 64).text _ ∧ _ ↔ _
        rw [hsame]
        exact (and_iff_left hgood.2).trans (goodTimes_end_iff hgood.1 hok)
      simpa [Fits, Passes, hcheck, size] using hdone
    | BlockDays =>
      have hdone := exists_right_days_iff .serv hgood rfl hset
      simpa [Fits, Passes, hcheck, size, Entry.hasTimes] using hdone
    | Description => exact absurd rfl hp
    | _ =>
      refine iff_of_true (exists_right_of_refuse .serv hgood rfl hset) ?_
      simp [Fits, Passes]

theorem dev_right_iff {e : COSA_DML_MD_DEV} (hgood : Good ⟨.dev e, s, f⟩) :
    EndsRight check ⟨.dev e, s, f⟩ (.setString p before t) ↔
      Fits check ⟨.dev e, s, f⟩ (.setString p before t) := by
  have hset : setString check before p t (.dev e) =
      (MDDev_SetParamStringValue check before e p t).map (Setting.map .dev) := rfl
  unfold MDDev_SetParamStringValue at hset
  by_cases hp : p = .Description
  · subst hp
    have hdone := exists_right_stored_iff .dev 64 hgood rfl hset rfl fun _ _ => hgood
    simpa [Fits, Passes, size] using hdone
  rw [if_neg hp] at hset
  cases hcheck : check t with
  | false =>
    rw [if_pos hcheck] at hset
    refine iff_of_true (exists_right_of_refuse .dev hgood rfl hset) ?_
    simp [Fits, Passes, hcheck, hp]
  | true =>
    rw [if_neg (by simp [hcheck])] at hset
    cases p with
    | MACAddress =>
      have hdone := exists_right_stored_iff .dev 64 hgood rfl hset rfl fun _ _ => hgood
      simpa [Fits, Passes, hcheck, size] using hdone
    | StartTime =>
      have hdone := exists_right_stored_iff .dev 64 hgood rfl hset rfl fun hok hsame => by
        change GoodTimes (Buf.snprintf t : Buf 64).text _ _
        rw [hsame]
        exact goodTimes_start hgood hok
      simpa [Fits, Passes, hcheck, size] using hdone
    | EndTime =>
      have hdone := exists_right_end_iff .dev hgood rfl hset rfl fun hok hsame => by
        change GoodTimes _ (Buf.snprintf t : Buf 64).text _ ↔ _
        rw [hsame]
        exact goodTimes_end_iff hgood hok
      simpa [Fits, Passes, hcheck, size] using hdone
    | BlockDays =>
      have hdone := exists_right_days_iff .dev hgood rfl hset
      simpa [Fits, Passes, hcheck, size, Entry.hasTimes] using hdone
    | Description => exact absurd rfl hp
    | _ =>
      refine iff_of_true (exists_right_of_refuse .dev hgood rfl hset) ?_
      simp [Fits, Passes]

theorem user_right_iff {e : COSA_DML_TRUSTEDUSER} (hgood : Good ⟨.user e, s, f⟩) :
    EndsRight check ⟨.user e, s, f⟩ (.setString p before t) ↔
      Fits check ⟨.user e, s, f⟩ (.setString p before t) := by
  have hset : setString check before p t (.user e) =
      some ((PcTrustedUser_SetParamStringValue check e p t).map .user) := rfl
  unfold PcTrustedUser_SetParamStringValue at hset
  cases hcheck : check t with
  | false =>
    rw [if_pos hcheck] at hset
    refine iff_of_true (exists_right_of_refuse .user hgood rfl hset) ?_
    simp [Fits, Passes, hcheck, Entry.hasTimes]
  | true =>
    rw [if_neg (by simp [hcheck])] at hset
    cases p with
    | HostDescription =>
      have hdone := exists_right_stored_iff .user 64 hgood rfl hset rfl fun _ _ => hgood
      simpa [Fits, Passes, hcheck, size] using hdone
    | IPAddress =>
      have hdone := exists_right_stored_iff .user 64 hgood rfl hset rfl fun hok hsame => by
        change (Buf.snprintf t : Buf 64).text ≠ [] →
          addressOk e.IPAddressType (Buf.snprintf t : Buf 64).text = true
        rw [hsame]
        exact fun _ => hok
      simpa [Fits, Passes, hcheck, size] using hdone
    | _ =>
      refine iff_of_true (exists_right_of_refuse .user hgood rfl hset) ?_
      simp [Fits, Passes, Entry.hasTimes]

variable {v : ULONG}

theorem exists_right_number_iff (hgood : Good h) (hentry : h.entry = mk e)
    (hset : setUlong p v h.entry = (Setting.check ok e e').map mk) :
    EndsRight check h (.setUlong p v) ↔
      (ok = true →
        Good ⟨mk e', h.startSet || p = .StartPort, h.endSet || p = .EndPort⟩) := by
  simp only [EndsRight, step, Option.some.injEq, exists_eq_left', Right, hset]
  cases ok with
  | false =>
    refine iff_of_true ⟨?_, fun _ => hentry.symm⟩ fun hfalse => by cases hfalse
    simp only [Setting.map, Setting.check, Setting.refuse, Bool.false_eq_true, if_false,
      Bool.false_and, Bool.or_false, ← hentry]
    exact hgood
  | true =>
    constructor
    · intro hright _
      simpa [Setting.map, Setting.check] using hright.1
    · intro hgood'
      refine ⟨by simpa [Setting.map, Setting.check] using hgood' rfl, ?_⟩
      intro hrefused
      cases hrefused

theorem exists_right_number_of_refuse {e : α}
    (hgood : Good h) (hentry : h.entry = mk e)
    (hset : setUlong p v h.entry = (Setting.refuse e).map mk) :
    EndsRight check h (.setUlong p v) := by
  have hcheck : setUlong p v h.entry = (Setting.check false e e).map mk := hset
  apply (exists_right_number_iff mk hgood hentry hcheck).mpr
  intro hfalse
  cases hfalse

theorem serv_number_right_iff {e : COSA_DML_MS_SERV} (hgood : Good ⟨.serv e, s, f⟩) :
    EndsRight check ⟨.serv e, s, f⟩ (.setUlong p v) ↔
      Fits check ⟨.serv e, s, f⟩ (.setUlong p v) := by
  have hset : setUlong p v (.serv e) = (MSServ_SetParamUlongValue e p v).map .serv := rfl
  unfold MSServ_SetParamUlongValue at hset
  cases p with
  | Protocol =>
    refine iff_of_true ((exists_right_number_iff .serv hgood rfl hset).mpr fun _ => ?_) ?_
    · simpa [Good] using hgood
    · simp [Fits]
  | StartPort =>
    apply (exists_right_number_iff .serv hgood rfl hset).trans
    obtain ⟨htimes, hend, -⟩ := hgood
    simp only [decide_eq_true_eq, and_imp, Fits, true_imp_iff]
    refine forall₂_congr fun _ _ => ?_
    simp only [Good, Bool.or_true, decide_true, true_imp_iff, reduceCtorEq, decide_false,
      Bool.or_false]
    exact ⟨fun h => h.2.2, fun h => ⟨htimes, hend, h⟩⟩
  | EndPort =>
    refine iff_of_true ((exists_right_number_iff .serv hgood rfl hset).mpr fun hok => ?_) ?_
    · obtain ⟨hstart, hmax⟩ := of_decide_eq_true hok
      exact ⟨hgood.1, fun _ => hmax, fun _ _ => hstart⟩
    · simp [Fits]
  | _ =>
    refine iff_of_true (exists_right_number_of_refuse .serv hgood rfl hset) ?_
    simp [Fits]

theorem user_number_right_iff {e : COSA_DML_TRUSTEDUSER} (hgood : Good ⟨.user e, s, f⟩) :
    EndsRight check ⟨.user e, s, f⟩ (.setUlong p v) ↔
      Fits check ⟨.user e, s, f⟩ (.setUlong p v) := by
  have hset : setUlong p v (.user e) = (PcTrustedUser_SetParamUlongValue e p v).map .user := rfl
  unfold PcTrustedUser_SetParamUlongValue at hset
  cases p with
  | IPAddressType =>
    apply (exists_right_number_iff .user hgood rfl hset).trans
    simp [Good, Fits]
  | _ =>
    refine iff_of_true (exists_right_number_of_refuse .user hgood rfl hset) ?_
    simp [Fits]

theorem url_number_right {e : COSA_DML_BLOCKEDURL} (hgood : Good ⟨.url e, s, f⟩) :
    EndsRight check ⟨.url e, s, f⟩ (.setUlong p v) := by
  have hset : setUlong p v (.url e) = (PcBlkURL_SetParamUlongValue e p v).map .url := rfl
  unfold PcBlkURL_SetParamUlongValue at hset
  cases p with
  | BlockMethod => exact (exists_right_number_iff .url hgood rfl hset).mpr fun _ => hgood
  | _ => exact exists_right_number_of_refuse .url hgood rfl hset

theorem dev_number_right {e : COSA_DML_MD_DEV} (hgood : Good ⟨.dev e, s, f⟩) :
    EndsRight check ⟨.dev e, s, f⟩ (.setUlong p v) := by
  have hset : setUlong p v (.dev e) = (MDDev_SetParamUlongValue e p v).map .dev := rfl
  unfold MDDev_SetParamUlongValue at hset
  cases p with
  | DeviceType => exact (exists_right_number_iff .dev hgood rfl hset).mpr fun _ => hgood
  | _ => exact exists_right_number_of_refuse .dev hgood rfl hset

theorem exists_right_bool {ok b : Bool} (hgood : Good h)
    (hentry : h.entry = mk e) (hset : setBool p b h.entry = (Setting.check ok e e').map mk)
    (hgood' : Good ⟨mk e', h.startSet, h.endSet⟩) :
    EndsRight check h (.setBool p b) := by
  simp only [EndsRight, step, Option.some.injEq, exists_eq_left', Right, hset]
  cases ok with
  | false =>
    refine ⟨?_, fun _ => hentry.symm⟩
    simp only [Setting.map, Setting.check, Setting.refuse, Bool.false_eq_true, if_false, ← hentry]
    exact hgood
  | true =>
    refine ⟨hgood', fun hrefused => ?_⟩
    cases hrefused

theorem bool_right {e : Entry} {s f b : Bool} (hgood : Good ⟨e, s, f⟩) :
    EndsRight check ⟨e, s, f⟩ (.setBool p b) := by
  cases e with
  | url e => exact exists_right_bool .url hgood rfl rfl hgood
  | serv e => exact exists_right_bool .serv hgood rfl rfl hgood
  | dev e => exact exists_right_bool .dev hgood rfl rfl hgood
  | user e => exact exists_right_bool .user hgood rfl rfl hgood

theorem call_right_iff (check : CStr → Bool) {h : History} (hgood : Good h) (c : Call) :
    (∃ h', step check h c = some h' ∧ Right check h c h') ↔ Fits check h c := by
  obtain ⟨e, s, f⟩ := h
  cases c with
  | setString p before t =>
    cases e with
    | url e => exact url_right_iff hgood
    | serv e => exact serv_right_iff hgood
    | dev e => exact dev_right_iff hgood
    | user e => exact user_right_iff hgood
  | setUlong p v =>
    cases e with
    | url e => exact iff_of_true (url_number_right hgood) trivial
    | serv e => exact serv_number_right_iff hgood
    | dev e => exact iff_of_true (dev_number_right hgood) trivial
    | user e => exact user_number_right_iff hgood
  | setBool p b => exact iff_of_true (bool_right hgood) trivial
  | validate => exact iff_of_true ⟨_, rfl, hgood, rfl⟩ trivial

end Calls

section Runs

/-- Every setting of an entry goes right just where every call fits. -/
theorem settings_right_iff (check : CStr → Bool) (start : History) (hgood : Good start)
    (calls : List Call) :
    Does (step check) (Right check) start calls ↔
      StepsMeet (step check) (Fits check) start calls := by
  apply @does_iff _ _ (step check) (Right check) (fun _ _ => True) (Fits check) Good
  · intro h c hg _
    exact call_right_iff check hg c
  · intro h c h' hg _ hfits hstep
    obtain ⟨h'', hstep', hright⟩ := (call_right_iff check hg c).mpr hfits
    obtain rfl := Option.some.inj (hstep.symm.trans hstep')
    exact hright.1
  · exact hgood
  · exact stepsMeet_true _ _ _

/-- A checker that refuses the characters of a script. -/
def plainCheck (t : CStr) : Bool := !t.any fun c => c ∈ ['<', '>', '&', '\x27', '"', '|']

theorem plainCheck_of_plain {t : CStr}
    (ht : ∀ c ∈ t, c.isAlphanum = true ∨ c ∈ [':', ',', '+', '-']) : plainCheck t = true := by
  rw [plainCheck, Bool.not_eq_true', List.any_eq_false]
  intro c hc hbad
  have hnone : (['<', '>', '&', '\x27', '"', '|'].any fun d =>
      d.isAlphanum || [':', ',', '+', '-'].contains d) = false := by decide
  apply List.any_eq_false.mp hnone c (of_decide_eq_true hbad)
  simpa [List.contains_iff_mem] using ht c hc

def freshServ : COSA_DML_MS_SERV :=
  ⟨Buf.empty, 3, 0, 0, false, Buf.empty, Buf.empty, Buf.empty⟩

def fresh : History := ⟨.serv freshServ, false, false⟩

theorem good_fresh : Good fresh := by
  have hnil : ([] : CStr) ≠ [] → False := fun h => h rfl
  refine ⟨⟨fun h => (hnil h).elim, fun h => (hnil h).elim, fun h => (hnil h).elim⟩, ?_, ?_⟩
  · intro h
    cases h
  · intro h
    cases h

def nine : CStr := "09:00".toList

def negative : CStr := "-5:59".toList

theorem nine_fits :
    StepsMeet (step plainCheck) (Fits plainCheck) fresh [.setString .StartTime '\x00' nine] := by
  refine ⟨⟨fun _ => ⟨by decide, ?_⟩, ?_⟩, fun _ _ => trivial⟩
  · intro h
    cases h
  · intro h
    cases h

theorem settings_of_nine :
    Does (step plainCheck) (Right plainCheck) fresh [.setString .StartTime '\x00' nine] :=
  (settings_right_iff plainCheck fresh good_fresh _).mpr nine_fits

theorem readTime_negative : readTime negative = some (-5, 59) := by decide

/-- A negative hour with the minute 59 becomes the end of a service. -/
theorem negative_end_accepted :
    (∀ t : CStr, (∀ c ∈ t, c.isAlphanum = true ∨ c ∈ [':', ',', '+', '-']) →
      plainCheck t = true) ∧
    (setString plainCheck '\x00' .EndTime negative fresh.entry).map
      (fun r => (r.accepted, textOf .EndTime r.entry)) = some (true, some negative) ∧
    ¬ IsTime negative ∧
    ¬ Does (step plainCheck) (Right plainCheck) fresh
      [.setString .EndTime '\x00' negative, .validate] := by
  have hnot : ¬ IsTime negative := by
    rintro ⟨hh, mm, hread, hlow, -⟩
    rw [readTime_negative, Option.some.injEq, Prod.mk.injEq] at hread
    omega
  refine ⟨fun t => plainCheck_of_plain, by decide, hnot, ?_⟩
  rintro ⟨h', hstep, hright, -⟩
  have hfits := (call_right_iff plainCheck good_fresh _).mp ⟨h', hstep, hright⟩
  exact hnot ((hfits.1 (Or.inr ⟨by decide, Or.inr ⟨rfl, by decide⟩⟩)).2 rfl)

end Runs

end CcspPandM.ParentalSettings
