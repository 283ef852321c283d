import CcspPandM.CString
import CcspPandM.KeyStore
import CcspPandM.PackedArray

/-!
The internet-access policies. A policy holds its blocked URLs, keywords and
applications in packed arrays next to their counts. The stored copy of a policy
stands under its name; opening the store and storing are calls of a library and
may fail. Texts are taken to fit their cells. Reading or writing a cell behind
the end of an array has no result.
-/
namespace CcspPandM.PolicyLists

open CString KeyStore PackedArray

abbrev ULONG := BitVec 32

inductive AnscStatus where
  | success
  | failure
  | cantFind
  deriving DecidableEq, Repr

/-- What the data model passes in and out: the members of `COSA_DML_IA_POLICY_URL`,
`COSA_DML_IA_POLICY_KEYWORD` and `COSA_DML_IA_POLICY_APP`, the value standing for
the URL, for the keyword and for the settings of the application. -/
structure Entry (ν : Type) where
  InstanceNumber : ULONG
  Alias : CStr
  value : ν
  deriving DecidableEq, Repr

structure AppSettings where
  IsWellKnown : Bool
  Protocol : ℤ
  StartPortNumber : BitVec 16
  EndPortNumber : BitVec 16
  deriving DecidableEq, Repr

abbrev COSA_DML_IA_POLICY_URL := Entry CStr

abbrev COSA_DML_IA_POLICY_KEYWORD := Entry CStr

abbrev COSA_DML_IA_POLICY_APP := Entry AppSettings

/-- The arrays of the URLs (`url_count`, `url_tr_inst_num`, `url_tr_alias`,
`url_list`) and those of the keywords. -/
structure TextArrays where
  count : ℕ
  tr_inst_num : List ULONG
  tr_alias : List CStr
  list : List CStr
  deriving DecidableEq, Repr

structure appentry_t where
  name : CStr
  wellknown : Bool
  proto : ℤ
  portStart : BitVec 16
  portEnd : BitVec 16
  deriving DecidableEq, Repr, Inhabited

structure blockentry_t where
  url : TextArrays
  keyword : TextArrays
  app_count : ℕ
  app_tr_inst_num : List ULONG
  app_list : List appentry_t
  deriving DecidableEq, Repr

structure iap_entry_t where
  tr_inst_num : ULONG
  policyname : CStr
  block : blockentry_t
  deriving DecidableEq, Repr

/-- The policies in memory, the stored ones, and what the last call returned. -/
structure State where
  g_iaps : List iap_entry_t
  stored : Store CStr iap_entry_t
  returned : AnscStatus

structure Library where
  Utopia_Init : Bool
  Utopia_AddInternetAccessPolicy : Bool
  deriving DecidableEq, Repr

def find_ia_policy (g_iaps : List iap_entry_t) (index : ULONG) : Option (ℕ × iap_entry_t) :=
  (g_iaps.findIdx? (fun p => p.tr_inst_num = index)).bind
    (fun i => g_iaps[i]?.map (fun p => (i, p)))

/-- The changed policy stands in memory; then the store is opened and the policy
stored. A failure to store it is not reported. -/
def changePolicy (io : Library) (i : ℕ) (p_iap : iap_entry_t) (s : State) : State where
  g_iaps := s.g_iaps.set i p_iap
  stored := if io.Utopia_Init ∧ io.Utopia_AddInternetAccessPolicy then
    KeyStore.set s.stored p_iap.policyname p_iap else s.stored
  returned := if io.Utopia_Init then .success else .failure

inductive Edit where
  | undefined
  | absent
  | changed (block : blockentry_t)

/-- The shape of the operations: the policy is looked up, its arrays are changed and
it is stored. Two of them open the store before they change the memory. -/
def editPolicy (io : Library) (opensFirst : Bool) (ulPolicyInstanceNumber : ULONG)
    (edit : blockentry_t → Edit) (s : State) : Option State :=
  match find_ia_policy s.g_iaps ulPolicyInstanceNumber with
  | none => some { s with returned := .cantFind }
  | some (i, p_iap) =>
    match edit p_iap.block with
    | .undefined => none
    | .absent => some { s with returned := .cantFind }
    | .changed block =>
      if opensFirst ∧ ¬ io.Utopia_Init then some { s with returned := .failure }
      else some (changePolicy io i { p_iap with block := block } s)

def editFound (tr_inst_num : List ULONG) (count : ℕ) (InstanceNumber : ULONG)
    (change : ℕ → blockentry_t) : Edit :=
  match search tr_inst_num count InstanceNumber with
  | none => .absent
  | some i => .changed (change i)

namespace TextArrays

variable (b : TextArrays)

def append (e : Entry CStr) : TextArrays where
  count := b.count + 1
  tr_inst_num := (realloc b.tr_inst_num (b.count + 1)).set b.count e.InstanceNumber
  tr_alias := (realloc b.tr_alias (b.count + 1)).set b.count e.Alias
  list := (realloc b.list (b.count + 1)).set b.count e.value

def remove (i : ℕ) : TextArrays where
  count := b.count - 1
  tr_inst_num := moveBack b.tr_inst_num i b.count
  tr_alias := moveBack b.tr_alias i b.count
  list := moveBack b.list i b.count

def write (i : ℕ) (e : Entry CStr) : TextArrays :=
  { b with tr_alias := b.tr_alias.set i e.Alias, list := b.list.set i e.value }

def writeChanged (i : ℕ) (e : Entry CStr) : TextArrays :=
  { b with
    tr_alias := if b.tr_alias[i]? = some e.Alias then b.tr_alias else b.tr_alias.set i e.Alias
    list := if b.list[i]? = some e.value then b.list else b.list.set i e.value }

def setValues (ulIndex : ℕ) (ulInstanceNumber : ULONG) (pAlias : CStr) : Option TextArrays :=
  if ulIndex < b.tr_inst_num.length ∧ ulIndex < b.tr_alias.length then
    some { b with
      tr_inst_num := b.tr_inst_num.set ulIndex ulInstanceNumber
      tr_alias := b.tr_alias.set ulIndex pAlias }
  else none

end TextArrays

section Urls

variable (io : Library) (ulPolicyInstanceNumber : ULONG)

def CosaDmlIaPolicyAddUrl (pUrl : COSA_DML_IA_POLICY_URL) : State → Option State :=
  editPolicy io false ulPolicyInstanceNumber fun B =>
    .changed { B with url := B.url.append pUrl }

def CosaDmlIaPolicyDelUrl (pUrl : COSA_DML_IA_POLICY_URL) : State → Option State :=
  editPolicy io true ulPolicyInstanceNumber fun B =>
    editFound B.url.tr_inst_num B.url.count pUrl.InstanceNumber
      fun i => { B with url := B.url.remove i }

def CosaDmlIaPolicySetUrl (pUrl : COSA_DML_IA_POLICY_URL) : State → Option State :=
  editPolicy io true ulPolicyInstanceNumber fun B =>
    editFound B.url.tr_inst_num B.url.count pUrl.InstanceNumber
      fun i => { B with url := B.url.writeChanged i pUrl }

def CosaDmlIaPolicySetUrlValues (ulIndex : ℕ) (ulInstanceNumber : ULONG) (pAlias : CStr) :
    State → Option State :=
  editPolicy io false ulPolicyInstanceNumber fun B =>
    match B.url.setValues ulIndex ulInstanceNumber pAlias with
    | none => .undefined
    | some url => .changed { B with url := url }

variable (g_iaps : List iap_entry_t)

/-- The alias is read at the start of the array, whatever the index. -/
def CosaDmlIaPolicyGetUrl (ulIndex : ℕ) : Option (Except AnscStatus COSA_DML_IA_POLICY_URL) :=
  match find_ia_policy g_iaps ulPolicyInstanceNumber with
  | none => some (.error .cantFind)
  | some (_, p_iap) =>
    let url := p_iap.block.url
    if url.count ≤ ulIndex then some (.error .cantFind)
    else do
      let InstanceNumber ← url.tr_inst_num[ulIndex]?
      let Alias ← url.tr_alias[0]?
      let Url ← url.list[ulIndex]?
      some (.ok ⟨InstanceNumber, Alias, Url⟩)

/-- The count is compared with the instance number once the entry is found. -/
def CosaDmlIaPolicyGetUrlByInsNum (ulURLInstanceNumber : ULONG) :
    Option (Except AnscStatus COSA_DML_IA_POLICY_URL) :=
  match find_ia_policy g_iaps ulPolicyInstanceNumber with
  | none => some (.error .cantFind)
  | some (_, p_iap) =>
    let url := p_iap.block.url
    match search url.tr_inst_num url.count ulURLInstanceNumber with
    | none => some (.error .cantFind)
    | some i =>
      if url.count ≤ ulURLInstanceNumber.toNat then some (.error .cantFind)
      else do
        let InstanceNumber ← url.tr_inst_num[i]?
        let Alias ← url.tr_alias[i]?
        let Url ← url.list[i]?
        some (.ok ⟨InstanceNumber, Alias, Url⟩)

end Urls

section Keywords

variable (io : Library) (ulPolicyInstanceNumber : ULONG)

def CosaDmlIaPolicyAddKeyword (pKeyword : COSA_DML_IA_POLICY_KEYWORD) : State → Option State :=
  editPolicy io false ulPolicyInstanceNumber fun B =>
    .changed { B with keyword := B.keyword.append pKeyword }

def CosaDmlIaPolicyDelKeyword (pKeyword : COSA_DML_IA_POLICY_KEYWORD) : State → Option State :=
  editPolicy io false ulPolicyInstanceNumber fun B =>
    editFound B.keyword.tr_inst_num B.keyword.count pKeyword.InstanceNumber
      fun i => { B with keyword := B.keyword.remove i }

def CosaDmlIaPolicySetKeyword (pKeyword : COSA_DML_IA_POLICY_KEYWORD) : State → Option State :=
  editPolicy io false ulPolicyInstanceNumber fun B =>
    editFound B.keyword.tr_inst_num B.keyword.count pKeyword.InstanceNumber
      fun i => { B with keyword := B.keyword.write i pKeyword }

def CosaDmlIaPolicySetKeywordValues (ulIndex : ℕ) (ulInstanceNumber : ULONG) (pAlias : CStr) :
    State → Option State :=
  editPolicy io false ulPolicyInstanceNumber fun B =>
    match B.keyword.setValues ulIndex ulInstanceNumber pAlias with
    | none => .undefined
    | some keyword => .changed { B with keyword := keyword }

variable (g_iaps : List iap_entry_t)

/-- The index is not compared with the count. -/
def CosaDmlIaPolicyGetKeyword (ulIndex : ℕ) :
    Option (Except AnscStatus COSA_DML_IA_POLICY_KEYWORD) :=
  match find_ia_policy g_iaps ulPolicyInstanceNumber with
  | none => some (.error .cantFind)
  | some (_, p_iap) => do
    let keyword := p_iap.block.keyword
    let InstanceNumber ← keyword.tr_inst_num[ulIndex]?
    let Alias ← keyword.tr_alias[ulIndex]?
    let Keyword ← keyword.list[ulIndex]?
    some (.ok ⟨InstanceNumber, Alias, Keyword⟩)

/-- The result is cleared first, and its instance number is not filled in. -/
def CosaDmlIaPolicyGetKeywordByInsNum (ulKeywordInstanceNumber : ULONG) :
    Option (Except AnscStatus COSA_DML_IA_POLICY_KEYWORD) :=
  match find_ia_policy g_iaps ulPolicyInstanceNumber with
  | none => some (.error .cantFind)
  | some (_, p_iap) =>
    let keyword := p_iap.block.keyword
    match search keyword.tr_inst_num keyword.count ulKeywordInstanceNumber with
    | none => some (.error .cantFind)
    | some i => do
      let Alias ← keyword.tr_alias[i]?
      let Keyword ← keyword.list[i]?
      some (.ok ⟨0, Alias, Keyword⟩)

end Keywords

def isWellKnownService (name : CStr) : Bool :=
  ["ftp", "telnet", "ssh", "sftp", "domain", "finger", "tftp", "www", "http-alt", "https", "pop3",
    "smtp", "nntp", "ntp", "nameserver", "netstat", "netbios-nm", "sunrpc", "snmp", "irc",
    "imap2", "ldap", "isakmp", "rtsp"].any (fun service => strcaseeq name service.toList)

def middle_layer_2_be_app (pApp : COSA_DML_IA_POLICY_APP) : appentry_t where
  name := pApp.Alias
  wellknown := isWellKnownService pApp.Alias
  proto := pApp.value.Protocol - 1
  portStart := pApp.value.StartPortNumber
  portEnd := pApp.value.EndPortNumber

def COSA_DML_IA_APP_PROTO_Both : ℤ := 3

/-- The flag of the array is brought up to date on the way. -/
def be_block_app_2_middle_layer (p_b : blockentry_t) (ulIndex : ℕ) :
    Option (COSA_DML_IA_POLICY_APP × blockentry_t) := do
  let InstanceNumber ← p_b.app_tr_inst_num[ulIndex]?
  let app ← p_b.app_list[ulIndex]?
  let wellknown := isWellKnownService app.name
  let settings : AppSettings :=
    if wellknown then ⟨true, COSA_DML_IA_APP_PROTO_Both, 0, 0⟩
    else ⟨false, app.proto + 1, app.portStart, app.portEnd⟩
  some (⟨InstanceNumber, app.name, settings⟩,
    { p_b with app_list := p_b.app_list.set ulIndex { app with wellknown := wellknown } })

section Apps

variable (io : Library) (ulPolicyInstanceNumber : ULONG)

def CosaDmlIaPolicyAddApp (pApp : COSA_DML_IA_POLICY_APP) : State → Option State :=
  editPolicy io false ulPolicyInstanceNumber fun B =>
    .changed { B with
      app_count := B.app_count + 1
      app_tr_inst_num :=
        (realloc B.app_tr_inst_num (B.app_count + 1)).set B.app_count pApp.InstanceNumber
      app_list :=
        (realloc B.app_list (B.app_count + 1)).set B.app_count (middle_layer_2_be_app pApp) }

def CosaDmlIaPolicyDelBlockedApp (pApp : COSA_DML_IA_POLICY_APP) : State → Option State :=
  editPolicy io false ulPolicyInstanceNumber fun B =>
    editFound B.app_tr_inst_num B.app_count pApp.InstanceNumber fun i => { B with
      app_count := B.app_count - 1
      app_tr_inst_num := moveBack B.app_tr_inst_num i B.app_count
      app_list := moveBack B.app_list i B.app_count }

def CosaDmlIaPolicySetBlockedApp (pApp : COSA_DML_IA_POLICY_APP) : State → Option State :=
  editPolicy io false ulPolicyInstanceNumber fun B =>
    editFound B.app_tr_inst_num B.app_count pApp.InstanceNumber
      fun i => { B with app_list := B.app_list.set i (middle_layer_2_be_app pApp) }

/-- The name is changed alone; whether it names a well-known service is not looked at. -/
def CosaDmlIaPolicySetAppValues (ulIndex : ℕ) (ulInstanceNumber : ULONG) (pAlias : CStr) :
    State → Option State :=
  editPolicy io false ulPolicyInstanceNumber fun B =>
    match B.app_list[ulIndex]? with
    | none => .undefined
    | some app =>
      if ulIndex < B.app_tr_inst_num.length then .changed { B with
        app_tr_inst_num := B.app_tr_inst_num.set ulIndex ulInstanceNumber
        app_list := B.app_list.set ulIndex { app with name := pAlias } }
      else .undefined

variable (g_iaps : List iap_entry_t)

/-- The entry and the policies afterwards. -/
def CosaDmlIaPolicyGetApp (ulIndex : ℕ) :
    Option (Except AnscStatus COSA_DML_IA_POLICY_APP × List iap_entry_t) :=
  match find_ia_policy g_iaps ulPolicyInstanceNumber with
  | none => some (.error .cantFind, g_iaps)
  | some (i, p_iap) => do
    let (pApp, block) ← be_block_app_2_middle_layer p_iap.block ulIndex
    some (.ok pApp, g_iaps.set i { p_iap with block := block })

def CosaDmlIaPolicyGetAppByInsNum (ulAppInstanceNumber : ULONG) :
    Option (Except AnscStatus COSA_DML_IA_POLICY_APP × List iap_entry_t) :=
  match find_ia_policy g_iaps ulPolicyInstanceNumber with
  | none => some (.error .cantFind, g_iaps)
  | some (i, p_iap) =>
    match search p_iap.block.app_tr_inst_num p_iap.block.app_count ulAppInstanceNumber with
    | none => some (.error .cantFind, g_iaps)
    | some k => do
      let (pApp, block) ← be_block_app_2_middle_layer p_iap.block k
      some (.ok pApp, g_iaps.set i { p_iap with block := block })

end Apps

end CcspPandM.PolicyLists
