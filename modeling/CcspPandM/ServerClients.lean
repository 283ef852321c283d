import CcspPandM.FgetsLines
import CcspPandM.ScanText
import Mathlib.Data.List.ModifyLast

/-!
The clients of the DHCPv6 server, read line by line from the file dibbler
leaves. Two arrays are allocated when the number of clients is announced; each
`DUID` line goes on to the next client, and every other line is about the
client reached. An access through a null array or past its end has no defined
result. Allocations succeed and give zeroed memory, and `time_t` has 32 bits.
-/
namespace CcspPandM.ServerClients

open CString ScanText InetText FgetsLines

abbrev ULONG := BitVec 32

structure COSA_DML_DHCPSV6_CLIENT where
  Alias : Buf 64
  SourceAddress : Buf 40
  Active : Bool
  deriving DecidableEq

/-- `COSA_DML_DHCPSV6_CLIENT_IPV6ADDRESS` and `..._IPV6PREFIX`, which differ in
the name of their first field. -/
structure COSA_DML_DHCPSV6_CLIENT_IPV6 where
  IPAddress : Buf 40
  PreferredLifetime : Buf 32
  ValidLifetime : Buf 32
  deriving DecidableEq

structure COSA_DML_DHCPSV6_CLIENT_OPTION where
  Tag : ULONG
  Value : Buf 255
  deriving DecidableEq

structure COSA_DML_DHCPSV6_CLIENTCONTENT where
  pIPv6Address : List COSA_DML_DHCPSV6_CLIENT_IPV6
  pIPv6Prefix : List COSA_DML_DHCPSV6_CLIENT_IPV6
  pOption : List COSA_DML_DHCPSV6_CLIENT_OPTION
  deriving DecidableEq

/-- What `localtime_r` fills in. -/
structure Tm where
  tm_year : BitVec 32
  tm_mon : BitVec 32
  tm_mday : BitVec 32
  tm_hour : BitVec 32
  tm_min : BitVec 32
  tm_sec : BitVec 32

inductive Key where
  | ClientNum
  | DUID
  | option
  | Unicast
  | Addr
  | Timestamp
  | Prefered
  | Valid
  | pdPrefix
  | pdTimestamp
  | pdPrefered
  | pdValid
  deriving DecidableEq

def Key.all : List Key :=
  [.ClientNum, .DUID, .option, .Unicast, .Addr, .Timestamp, .Prefered, .Valid, .pdPrefix,
    .pdTimestamp, .pdPrefered, .pdValid]

def Key.name : Key → CStr
  | .ClientNum => "ClientNum".toList
  | .DUID => "DUID".toList
  | .option => "option".toList
  | .Unicast => "Unicast".toList
  | .Addr => "Addr".toList
  | .Timestamp => "Timestamp".toList
  | .Prefered => "Prefered".toList
  | .Valid => "Valid".toList
  | .pdPrefix => "pdPrefix".toList
  | .pdTimestamp => "pdTimestamp".toList
  | .pdPrefered => "pdPrefered".toList
  | .pdValid => "pdValid".toList

def keyOf (pTmp1 : CStr) : Option Key := Key.all.find? (fun k => k.name = pTmp1)

/-- The two scans over one line. A line without a colon, with nothing at all
after it, or with another name is passed over. -/
def parseLine (oneLine : CStr) : Option (Key × CStr) :=
  let t := oneLine.takeWhile (· ≠ '\x00')
  match t.dropWhile (· ≠ ':') with
  | [] => none
  | _ :: pTmp3 =>
    if pTmp3 = [] then none
    else (keyOf (t.takeWhile (· ≠ ':'))).map
      (fun k => (k, pTmp3.takeWhile (fun c => c ≠ '\n' ∧ c ≠ '\r')))

/-- The lines of the file as `CHAR oneLine[256]` receives them. -/
def lex (file : CStr) : List (Key × CStr) := (reads 255 file).filterMap parseLine

structure State where
  g_dhcps6v_client_num : ULONG
  g_dhcps6v_client : Option (List COSA_DML_DHCPSV6_CLIENT)
  g_dhcps6v_clientcontent : Option (List COSA_DML_DHCPSV6_CLIENTCONTENT)
  Index : ULONG
  timeStamp : ULONG

def State.start : State := ⟨0, none, none, 0xffffffff, 0⟩

/-- After a line the loop goes on, or leaves through `EXIT`. -/
inductive Flow where
  | next (st : State)
  | exit (st : State)

/-- Changes the element at an index of an array that may not be allocated. -/
def access {α : Type} (array : Option (List α)) (Index : ULONG) (f : α → α) :
    Option (List α) := do
  let l ← array
  let x ← l[Index.toNat]?
  pure (l.set Index.toNat (f x))

/-- `atoi`, a long of 32 bits. -/
def number (t : CStr) : ULONG := sscanf_d t 0

def strcpyNoclobber {n : ℕ} (t : CStr) (old : Buf n) : Buf n :=
  if h : t.length < n then ⟨t, h⟩ else old

def newClient (i : ℕ) : COSA_DML_DHCPSV6_CLIENT :=
  ⟨Buf.sprintf_s ("Client".toList ++ decimal (i + 1)), Buf.empty, false⟩

def newContent : COSA_DML_DHCPSV6_CLIENTCONTENT := ⟨[], [], []⟩

def newIPv6 (pTmp3 : CStr) : COSA_DML_DHCPSV6_CLIENT_IPV6 :=
  ⟨strcpyNoclobber pTmp3 Buf.empty, Buf.empty, Buf.empty⟩

/-- `%02d` -/
def twoDigits (x : BitVec 32) : CStr :=
  if (intText x).length < 2 then '0' :: intText x else intText x

def tmText (t2 : Tm) : CStr :=
  intText (1900 + t2.tm_year) ++ '-' :: (intText (t2.tm_mon + 1) ++ '-' :: (intText t2.tm_mday ++
    'T' :: (twoDigits t2.tm_hour ++ ':' :: (twoDigits t2.tm_min ++ ':' ::
      (twoDigits t2.tm_sec ++ ['Z'])))))

section Steps

-- the time zone is not part of the code
variable (localtime_r : BitVec 32 → Tm)

def lifetimeText (timeStamp : ULONG) (pTmp3 : CStr) : CStr :=
  let t1 := timeStamp + number pTmp3
  if t1 = 0xffffffff then "9999-12-31T23:59:59Z".toList else tmText (localtime_r t1)

def setPreferred (text : CStr) (l : List COSA_DML_DHCPSV6_CLIENT_IPV6) :
    List COSA_DML_DHCPSV6_CLIENT_IPV6 :=
  l.modifyLast (fun a => { a with PreferredLifetime := strcpyNoclobber text a.PreferredLifetime })

def setValid (text : CStr) (l : List COSA_DML_DHCPSV6_CLIENT_IPV6) :
    List COSA_DML_DHCPSV6_CLIENT_IPV6 :=
  l.modifyLast (fun a => { a with ValidLifetime := strcpyNoclobber text a.ValidLifetime })

/-- What a line does to the content of the client reached. The text of an option
begins where its colon was: `pTmp1` is not moved past the NUL that replaced it. -/
def changeContent (timeStamp : ULONG) (c : COSA_DML_DHCPSV6_CLIENTCONTENT) :
    Key × CStr → COSA_DML_DHCPSV6_CLIENTCONTENT
  | (.option, pTmp3) =>
    let pTmp1 : CStr := []
    { c with pOption := c.pOption ++
        [⟨number (pTmp3.takeWhile (· ≠ ':')), strcpyNoclobber pTmp1 Buf.empty⟩] }
  | (.Addr, pTmp3) => { c with pIPv6Address := c.pIPv6Address ++ [newIPv6 pTmp3] }
  | (.Prefered, pTmp3) =>
    { c with
      pIPv6Address := setPreferred (lifetimeText localtime_r timeStamp pTmp3) c.pIPv6Address }
  | (.Valid, pTmp3) =>
    { c with pIPv6Address := setValid (lifetimeText localtime_r timeStamp pTmp3) c.pIPv6Address }
  | (.pdPrefix, pTmp3) => { c with pIPv6Prefix := c.pIPv6Prefix ++ [newIPv6 pTmp3] }
  | (.pdPrefered, pTmp3) =>
    { c with pIPv6Prefix := setPreferred (lifetimeText localtime_r timeStamp pTmp3) c.pIPv6Prefix }
  | (.pdValid, pTmp3) =>
    { c with pIPv6Prefix := setValid (lifetimeText localtime_r timeStamp pTmp3) c.pIPv6Prefix }
  | _ => c

def contentStep (line : Key × CStr) (st : State) : Option Flow :=
  (access st.g_dhcps6v_clientcontent st.Index
    (fun c => changeContent localtime_r st.timeStamp c line)).map
    (fun l => .next { st with g_dhcps6v_clientcontent := some l })

def step : Key × CStr → State → Option Flow
  | (.ClientNum, pTmp3), st =>
    let num := number pTmp3
    if num = 0 then some (.exit { st with g_dhcps6v_client_num := num })
    else some (.next
      { st with
        g_dhcps6v_client_num := num
        g_dhcps6v_client := some ((List.range num.toNat).map newClient)
        g_dhcps6v_clientcontent := some (List.replicate num.toNat newContent)
        Index := 0xffffffff })
  | (.DUID, _), st =>
    some (.next { st with Index := if st.Index = 0xffffffff then 0 else st.Index + 1 })
  | (.Unicast, pTmp3), st =>
    if st.g_dhcps6v_client.isNone then some (.next st)
    else
      (access st.g_dhcps6v_client st.Index
        (fun c => { c with SourceAddress := strcpyNoclobber pTmp3 c.SourceAddress })).map
        (fun l => .next { st with g_dhcps6v_client := some l })
  | (.Timestamp, pTmp3), st => some (.next { st with timeStamp := number pTmp3 })
  | (.pdTimestamp, pTmp3), st => some (.next { st with timeStamp := number pTmp3 })
  | (.option, pTmp3), st =>
    if ':' ∈ pTmp3 then contentStep localtime_r (.option, pTmp3) st else some (.next st)
  | (.Prefered, pTmp3), st =>
    if st.g_dhcps6v_clientcontent.isNone then some (.next st)
    else contentStep localtime_r (.Prefered, pTmp3) st
  | (.Addr, pTmp3), st => contentStep localtime_r (.Addr, pTmp3) st
  | (.Valid, pTmp3), st => contentStep localtime_r (.Valid, pTmp3) st
  | (.pdPrefix, pTmp3), st => contentStep localtime_r (.pdPrefix, pTmp3) st
  | (.pdPrefered, pTmp3), st => contentStep localtime_r (.pdPrefered, pTmp3) st
  | (.pdValid, pTmp3), st => contentStep localtime_r (.pdValid, pTmp3) st

def runLines : List (Key × CStr) → State → Option State
  | [], st => some st
  | line :: rest, st =>
    match step localtime_r line st with
    | none => none
    | some (.exit st') => some st'
    | some (.next st') => runLines rest st'

def _cosa_dhcpsv6_get_client (file : CStr) : Option State :=
  runLines localtime_r (lex file) State.start

end Steps

/-- What has been announced and reached before a line. -/
structure Position where
  announced : Option ℕ
  duids : ℕ

def Position.advance (p : Position) : Key × CStr → Position
  | (.ClientNum, v) => ⟨some (number v).toNat, 0⟩
  | (.DUID, _) => { p with duids := p.duids + 1 }
  | _ => p

/-- The `DUID` lines since the last announcement are no more than it announced,
counted as an index of 32 bits counts them. -/
def Position.InBlock (p : Position) : Prop :=
  ∃ n, p.announced = some n ∧ 1 ≤ p.duids % 2 ^ 32 ∧ p.duids % 2 ^ 32 ≤ n

/-- The line belongs to a client, or is about none. -/
def Position.Fits (p : Position) : Key × CStr → Prop
  | (.option, v) => ':' ∈ v → p.InBlock
  | (.Unicast, _) => p.announced ≠ none → p.InBlock
  | (.Prefered, _) => p.announced ≠ none → p.InBlock
  | (.Addr, _) => p.InBlock
  | (.Valid, _) => p.InBlock
  | (.pdPrefix, _) => p.InBlock
  | (.pdPrefered, _) => p.InBlock
  | (.pdValid, _) => p.InBlock
  | _ => True

/-- The announcement of no client, which ends the reading. -/
def Stops (line : Key × CStr) : Prop := line.1 = .ClientNum ∧ number line.2 = 0

/-- Every line up to the end of the reading belongs where it stands. -/
def Orderly : Position → List (Key × CStr) → Prop
  | _, [] => True
  | p, line :: rest => p.Fits line ∧ (¬Stops line → Orderly (p.advance line) rest)

section Safety

variable {localtime_r : BitVec 32 → Tm} {st : State} {p : Position}

theorem access_isSome {α : Type} (l : List α) (Index : ULONG) (f : α → α) :
    (access (some l) Index f).isSome ↔ Index.toNat < l.length := by
  simp only [access, Option.bind_eq_bind, Option.bind_some, Option.pure_def]
  by_cases h : Index.toNat < l.length
  · rw [List.getElem?_eq_getElem h]
    simp [h]
  · rw [List.getElem?_eq_none (by omega)]
    simp [h]

theorem access_length {α : Type} {l l' : List α} {Index : ULONG} {f : α → α}
    (h : access (some l) Index f = some l') : l'.length = l.length := by
  simp only [access, Option.bind_eq_bind, Option.bind_some, Option.bind_eq_some_iff,
    Option.pure_def, Option.some.injEq] at h
  obtain ⟨x, _, hl'⟩ := h
  rw [← hl', List.length_set]

structure Tracks (st : State) (p : Position) : Prop where
  index : st.Index = BitVec.ofNat 32 p.duids - 1
  none : p.announced = none → st.g_dhcps6v_client = none ∧ st.g_dhcps6v_clientcontent = none
  some : ∀ n, p.announced = some n → n < 2 ^ 32 ∧ ∃ clients contents,
    st.g_dhcps6v_client = some clients ∧ st.g_dhcps6v_clientcontent = some contents ∧
      clients.length = n ∧ contents.length = n

theorem Tracks.index_lt_iff (h : Tracks st p) {n : ℕ} (hn : p.announced = Option.some n) :
    st.Index.toNat < n ↔ p.InBlock := by
  have hbound := (h.some n hn).1
  have hInBlock : p.InBlock ↔ 1 ≤ p.duids % 2 ^ 32 ∧ p.duids % 2 ^ 32 ≤ n := by
    rw [Position.InBlock, hn]
    simp
  rw [hInBlock, h.index, BitVec.toNat_sub, BitVec.toNat_ofNat]
  have hone : (1 : BitVec 32).toNat = 1 := rfl
  rw [hone]
  omega

theorem contentStep_isSome (h : Tracks st p) (line : Key × CStr) :
    (contentStep localtime_r line st).isSome ↔ p.InBlock := by
  rw [contentStep, Option.isSome_map]
  cases hp : p.announced with
  | none =>
    rw [(h.none hp).2]
    have hout : ¬p.InBlock := by
      intro hin
      obtain ⟨n, hn, _⟩ := hin
      rw [hp] at hn
      cases hn
    exact ⟨fun hsome => absurd hsome (by simp [access]), fun hin => absurd hin hout⟩
  | some n =>
    obtain ⟨_, _, contents, _, hcontents, _, hlen⟩ := h.some n hp
    rw [hcontents, access_isSome, hlen, h.index_lt_iff hp]

theorem contentStep_tracks (h : Tracks st p) {line : Key × CStr} {flow : Flow}
    (hstep : contentStep localtime_r line st = some flow) :
    ∃ st', flow = .next st' ∧ Tracks st' p := by
  rw [contentStep, Option.map_eq_some_iff] at hstep
  obtain ⟨l, hl, hflow⟩ := hstep
  refine ⟨_, hflow.symm, h.index, ?_, ?_⟩
  · intro hp
    rw [(h.none hp).2] at hl
    cases hl
  · intro n hp
    obtain ⟨hn, clients, contents, hclients, hcontents, hlen, hlen'⟩ := h.some n hp
    rw [hcontents] at hl
    exact ⟨hn, clients, l, hclients, rfl, hlen, (access_length hl).trans hlen'⟩

theorem step_isSome (h : Tracks st p) (line : Key × CStr) :
    (step localtime_r line st).isSome ↔ p.Fits line := by
  obtain ⟨key, v⟩ := line
  cases key with
  | ClientNum =>
    simp only [step, Position.Fits, iff_true]
    split <;> rfl
  | DUID | Timestamp | pdTimestamp => simp [step, Position.Fits]
  | option =>
    simp only [step, Position.Fits]
    by_cases hv : ':' ∈ v
    · rw [if_pos hv, contentStep_isSome h, imp_iff_right hv]
    · rw [if_neg hv]
      simp [hv]
  | Unicast =>
    simp only [step, Position.Fits]
    cases hp : p.announced with
    | none =>
      rw [(h.none hp).1]
      simp
    | some n =>
      obtain ⟨_, clients, _, hclients, _, hlen, _⟩ := h.some n hp
      rw [hclients, if_neg (by simp), Option.isSome_map, access_isSome, hlen, h.index_lt_iff hp]
      simp
  | Prefered =>
    simp only [step, Position.Fits]
    cases hp : p.announced with
    | none =>
      rw [(h.none hp).2]
      simp
    | some n =>
      obtain ⟨_, _, contents, _, hcontents, _, _⟩ := h.some n hp
      have hsome : ¬st.g_dhcps6v_clientcontent.isNone := by
        rw [hcontents]
        simp
      rw [if_neg hsome, contentStep_isSome h]
      simp
  | Addr | Valid | pdPrefix | pdPrefered | pdValid => exact contentStep_isSome h _

theorem step_tracks (h : Tracks st p) {line : Key × CStr} {flow : Flow}
    (hstep : step localtime_r line st = some flow) :
    (Stops line ∧ ∃ st', flow = .exit st') ∨
      (¬Stops line ∧ ∃ st', flow = .next st' ∧ Tracks st' (p.advance line)) := by
  obtain ⟨key, v⟩ := line
  have hnotStops (hkey : key ≠ .ClientNum) : ¬Stops (key, v) := fun hstops => hkey hstops.1
  cases key with
  | ClientNum =>
    simp only [step] at hstep
    by_cases hzero : number v = 0
    · rw [if_pos hzero, Option.some.injEq] at hstep
      exact .inl ⟨⟨rfl, hzero⟩, _, hstep.symm⟩
    · rw [if_neg hzero, Option.some.injEq] at hstep
      refine .inr ⟨fun hstops => hzero hstops.2, _, hstep.symm, rfl, (fun hp => nomatch hp), ?_⟩
      intro n hn
      obtain rfl := Option.some.inj hn
      exact ⟨(number v).isLt, _, _, rfl, rfl, by simp, by simp⟩
  | DUID =>
    simp only [step, Option.some.injEq] at hstep
    refine .inr ⟨hnotStops (by simp), _, hstep.symm, ?_, h.none, h.some⟩
    change (if st.Index = 0xffffffff then 0 else st.Index + 1) =
      BitVec.ofNat 32 (p.duids + 1) - 1
    rw [BitVec.ofNat_add]
    have hone : BitVec.ofNat 32 1 = 1 := rfl
    rw [hone, BitVec.add_sub_cancel]
    by_cases hlast : st.Index = 0xffffffff
    · rw [if_pos hlast]
      have hindex := h.index
      rw [hlast] at hindex
      have hduids : BitVec.ofNat 32 p.duids = 0xffffffff + 1 := by
        rw [hindex, BitVec.sub_add_cancel]
      rw [hduids]
      rfl
    · rw [if_neg hlast, h.index, BitVec.sub_add_cancel]
  | Timestamp | pdTimestamp =>
    simp only [step, Option.some.injEq] at hstep
    exact .inr ⟨hnotStops (by simp), _, hstep.symm, h.index, h.none, h.some⟩
  | option =>
    simp only [step] at hstep
    refine .inr ⟨hnotStops (by simp), ?_⟩
    split at hstep
    · exact contentStep_tracks h hstep
    · exact ⟨st, (Option.some.inj hstep).symm, h⟩
  | Unicast =>
    simp only [step] at hstep
    refine .inr ⟨hnotStops (by simp), ?_⟩
    split at hstep
    · exact ⟨st, (Option.some.inj hstep).symm, h⟩
    · rw [Option.map_eq_some_iff] at hstep
      obtain ⟨l, hl, hflow⟩ := hstep
      refine ⟨_, hflow.symm, h.index, ?_, ?_⟩
      · intro hp
        rw [(h.none hp).1] at hl
        cases hl
      · intro n hp
        obtain ⟨hn, clients, contents, hclients, hcontents, hlen, hlen'⟩ := h.some n hp
        rw [hclients] at hl
        exact ⟨hn, l, contents, rfl, hcontents, (access_length hl).trans hlen, hlen'⟩
  | Prefered =>
    simp only [step] at hstep
    refine .inr ⟨hnotStops (by simp), ?_⟩
    split at hstep
    · exact ⟨st, (Option.some.inj hstep).symm, h⟩
    · exact contentStep_tracks h hstep
  | Addr | Valid | pdPrefix | pdPrefered | pdValid =>
    exact .inr ⟨hnotStops (by simp), contentStep_tracks h hstep⟩

theorem runLines_isSome (h : Tracks st p) (lines : List (Key × CStr)) :
    (runLines localtime_r lines st).isSome ↔ Orderly p lines := by
  induction lines generalizing st p with
  | nil => simp [runLines, Orderly]
  | cons line rest ih =>
    rw [runLines, Orderly, ← step_isSome h line]
    cases hstep : step localtime_r line st with
    | none => simp
    | some flow =>
      rcases step_tracks h hstep with ⟨hstops, st', hflow⟩ | ⟨hgoes, st', hflow, htracks⟩
      · rw [hflow]
        simp [hstops]
      · rw [hflow]
        simpa [hgoes] using ih htracks

theorem tracks_start : Tracks State.start ⟨none, 0⟩ where
  index := by decide
  none := fun _ => ⟨rfl, rfl⟩
  some := by
    intro n hn
    cases hn

end Safety

end CcspPandM.ServerClients
