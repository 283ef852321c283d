import CcspPandM.PrefixMatch
import CcspPandM.RememberedNumbers
import CcspPandM.Runs

/-!
The instance numbers of the IPv6 addresses and prefixes of an interface, over its
reloads. The numbers of addresses are remembered for the interface, one for those
that start with fe80 and one for all others; those of announced prefixes for each
prefix. A delegated prefix has the number that follows the count of the others.
-/
namespace CcspPandM.V6InstanceNumbers

open CString InetText PrefixMatch RememberedNumbers Runs ScanText

section Code

inductive Scope where
  | UNKNOWN
  | GLOBAL
  | LINKLOCAL
  | SITELOCAL
  | COMPATv4
  | LOOPBACK
  deriving DecidableEq

structure Ipv6AddrInfo where
  scope : Scope
  v6addr : Buf 64
  v6pre : Buf 64

inductive COSA_DML_IP6_ORIGIN where
  | AutoConfigured
  | DHCPv6
  | WellKnown
  | Static

inductive COSA_DML_IP6PREFIX_ORIGIN where
  | AutoConfigured
  | PrefixDelegation
  | RouterAdvertisement
  | WellKnown
  | Static
  | Child

/-- An entry of `V6AddrList` with its IP6Address, or of `V6PreList` with its Prefix. -/
structure Entry (ω : Type) where
  InstanceNumber : ℕ
  Alias : CStr
  value : CStr
  Origin : ω

/-- The interface and the build: on which interfaces the delegated prefix is listed. -/
structure Device where
  ifname : Buf 64
  ulIndex : ℕ
  CISCO_CONFIG_DHCPV6_PREFIX_DELEGATION : Bool
  usgArmOrBcmMips : Bool
  usgArm : Bool

/-- The syscfg, with the aliases of static prefixes in the namespaces of their numbers, and what is
known of the interface. -/
structure Interface where
  syscfg : CStr → CStr
  static_v6pref : ℕ → CStr
  ulNextIPV6InsNum : ℕ
  ulNextIPV6PreInsNum : ℕ
  V6AddrList : List (Entry COSA_DML_IP6_ORIGIN)
  V6PreList : List (Entry COSA_DML_IP6PREFIX_ORIGIN)

def MAX_IPV6_ENTRY_NUM : ℕ := 20

/-- What a reload of the addresses meets. Beside each address stand the bytes that `sap` holds when
its turn comes. -/
structure AddrReload where
  p_v6addr : List (Ipv6AddrInfo × List ℕ)
  p_ra : List (Buf 64)
  dhcpv6_addr : Buf 64
  global_addr : Buf 64
  IPV6List : List ℕ

structure PreReload where
  p_v6addr : List Ipv6AddrInfo
  p_ra : List (Buf 64)
  brlan0_prefix : Buf 64
  dhcpv6c_pref : Buf 64
  IPV6PrefixList : List ℕ

/-- `Utopia_RawGet` into 256 bytes; a missing key leaves them empty. -/
def Utopia_RawGet (syscfg : CStr → CStr) (name : CStr) : CStr :=
  (Buf.snprintf (syscfg name) : Buf 256).text

/-- The names of a number and its alias that stand in `buf` and `buf1`. -/
structure Names where
  instNum : CStr
  aliasName : CStr

def load_v6_alias_instNum (syscfg : CStr → CStr) (names : Names) : ℕ × CStr :=
  ((sscanf_d (Utopia_RawGet syscfg names.instNum) 0).toNat, Utopia_RawGet syscfg names.aliasName)

def save_v6_alias_instNum (syscfg : CStr → CStr) (names : Names) (inst_num : ℕ) (p_alias : CStr) :
    CStr → CStr :=
  Function.update (Function.update syscfg names.instNum (decimal inst_num)) names.aliasName p_alias

/-- The loop of both generators, the alias and the next number. Where every number is in the list
the loop does not end. -/
def genInstAlias (name : CStr) (list : List ℕ) (next : ℕ) : Option (ℕ × CStr × ℕ) :=
  (generate (2 ^ 32) list next).map fun n =>
    (n, name ++ decimal n, FreeSearch.nextIn 1 (2 ^ 32) n)

def IPv6Address : CStr := "IPv6Address".toList

def IPv6Prefix : CStr := "IPv6Prefix".toList

def CosaIPv6AddrGenInstAlias : List ℕ → ℕ → Option (ℕ × CStr × ℕ) := genInstAlias IPv6Address

def CosaIPv6PrefGenInstAlias : List ℕ → ℕ → Option (ℕ × CStr × ℕ) := genInstAlias IPv6Prefix

structure Keys where
  syscfg : CStr → CStr
  next : ℕ

def entryNumber (gen : ℕ → Option (ℕ × CStr × ℕ)) (names : Names) (k : Keys) :
    Option (Keys × ℕ × CStr) :=
  let loaded := load_v6_alias_instNum k.syscfg names
  if loaded.1 = 0 then do
    let (n, a, next) ← gen k.next
    some (⟨save_v6_alias_instNum k.syscfg names n a, next⟩, n, a)
  else some (k, loaded.1, loaded.2)

def entryNumbers {α : Type} (gen : ℕ → Option (ℕ × CStr × ℕ)) (names : α → Names) (k : Keys) :
    List α → Option (Keys × List (α × ℕ × CStr))
  | [] => some (k, [])
  | x :: xs => do
    let (k, n, a) ← entryNumber gen (names x) k
    let (k, rest) ← entryNumbers gen names k xs
    some (k, (x, n, a) :: rest)

def fe80 : CStr := "fe80".toList

def isLink (a : Ipv6AddrInfo) : Bool := strneq a.v6addr.text fe80 4

variable (d : Device)

def addrNames (link : Bool) : Names :=
  let base := "tr_".toList ++ d.ifname.text ++ "_v6addr".toList ++
    if link then "_inet6_link".toList else "_inet6".toList
  ⟨(Buf.sprintf_s (base ++ "_inst_num".toList) : Buf 256).text,
    (Buf.sprintf_s (base ++ "_alias".toList) : Buf 256).text⟩

def prefixNames (v6pre : Buf 64) : Names :=
  let base := "tr_".toList ++ d.ifname.text ++ "_v6pref_".toList ++ v6pre.text
  ⟨(Buf.sprintf_s (base ++ "_inst_num".toList) : Buf 256).text,
    (Buf.sprintf_s (base ++ "_alias".toList) : Buf 256).text⟩

/-- The origin of an address; one without is left out. -/
def addrOrigin (r : AddrReload) (a : Ipv6AddrInfo) (sap : List ℕ) : Option COSA_DML_IP6_ORIGIN :=
  match a.scope with
  | .LINKLOCAL => some .AutoConfigured
  | .LOOPBACK => some .WellKnown
  | .GLOBAL =>
    let announced := if r.p_ra.any (fun pref => pref.text == a.v6pre.text) then
      some COSA_DML_IP6_ORIGIN.AutoConfigured else none
    let leased := if a.v6addr.text = r.dhcpv6_addr.text then some .DHCPv6 else announced
    let global_addr := inet_ntop6 ((inet_pton6 r.global_addr.text).getD sap)
    if a.v6addr.text = global_addr then some .AutoConfigured else leased
  | _ => none

/-- The addresses that the loop does not leave out; none is static. -/
def listedAddrs (r : AddrReload) : List (Ipv6AddrInfo × COSA_DML_IP6_ORIGIN) :=
  (r.p_v6addr.take MAX_IPV6_ENTRY_NUM).filterMap fun (a, sap) =>
    (addrOrigin r a sap).map fun origin => (a, origin)

def IPIF_getEntry_for_Ipv6Addr (s : Interface) (r : AddrReload) :
    Option Interface := do
  let (k, entries) ← entryNumbers (CosaIPv6AddrGenInstAlias r.IPV6List)
    (fun x => addrNames d (isLink x.1)) ⟨s.syscfg, s.ulNextIPV6InsNum⟩ (listedAddrs r)
  some
    { s with
      syscfg := k.syscfg
      ulNextIPV6InsNum := k.next
      V6AddrList := entries.map fun (x, n, a) => ⟨n, a, x.1.v6addr.text, x.2⟩ }

def isAnnounced (v6pre : Buf 64) : List (Buf 64) → Option Bool
  | [] => some false
  | pref :: rest => do
    let code ← v6prefMismatches (some v6pre.text) (some pref.text)
    if code = 0 then some true else isAnnounced v6pre rest

/-- The prefixes that the loop does not leave out. -/
def announcedPrefixes (p_ra : List (Buf 64)) : List Ipv6AddrInfo → Option (List (Buf 64))
  | [] => some []
  | a :: rest =>
    if a.scope = .LINKLOCAL ∨ a.scope = .LOOPBACK then announcedPrefixes p_ra rest
    else do
      let announced ← isAnnounced a.v6pre p_ra
      let later ← announcedPrefixes p_ra rest
      some (if announced then a.v6pre :: later else later)

def delegatedPrefix (r : PreReload) : Option (Buf 64 × COSA_DML_IP6PREFIX_ORIGIN) :=
  if d.CISCO_CONFIG_DHCPV6_PREFIX_DELEGATION then
    if d.usgArmOrBcmMips ∧ 0 < d.ulIndex ∧ d.ulIndex ≠ 3 then none
    else
      let dhcpv6_pref := if d.ulIndex = 3 then r.brlan0_prefix else r.dhcpv6c_pref
      if dhcpv6_pref.text = [] then none
      else some (dhcpv6_pref, if d.ulIndex = 0 then .PrefixDelegation else .Child)
  else if d.usgArm ∧ 0 < d.ulIndex then none
  else if r.dhcpv6c_pref.text = [] then none
  else some (r.dhcpv6c_pref, .PrefixDelegation)

/-- Its number is one more than there are announced prefixes; what is stored for it is not used. -/
def delegatedEntry (s : Interface) (ulNumOfV6Pre : ℕ) (dhcpv6_pref : Buf 64)
    (origin : COSA_DML_IP6PREFIX_ORIGIN) : Entry COSA_DML_IP6PREFIX_ORIGIN :=
  let val := s.static_v6pref (ulNumOfV6Pre + 1)
  ⟨ulNumOfV6Pre + 1, if val = [] then IPv6Prefix ++ decimal (ulNumOfV6Pre + 1) else val,
    dhcpv6_pref.text, origin⟩

def IPIF_getEntry_for_Ipv6Pre (s : Interface) (r : PreReload) : Option Interface := do
  let pres ← announcedPrefixes r.p_ra (r.p_v6addr.take MAX_IPV6_ENTRY_NUM)
  let (k, entries) ← entryNumbers (CosaIPv6PrefGenInstAlias r.IPV6PrefixList) (prefixNames d)
    ⟨s.syscfg, s.ulNextIPV6PreInsNum⟩ pres
  let announced := entries.map fun (v6pre, n, a) =>
    (⟨n, a, v6pre.text, .RouterAdvertisement⟩ : Entry COSA_DML_IP6PREFIX_ORIGIN)
  some
    { s with
      syscfg := k.syscfg
      ulNextIPV6PreInsNum := k.next
      V6PreList :=
        if MAX_IPV6_ENTRY_NUM ≤ announced.length then announced
        else match delegatedPrefix d r with
          | none => announced
          | some (dhcpv6_pref, origin) =>
            announced ++ [delegatedEntry s announced.length dhcpv6_pref origin] }

inductive Reload where
  | addr (r : AddrReload)
  | pre (r : PreReload)

def step (s : Interface) : Reload → Option Interface
  | .addr r => IPIF_getEntry_for_Ipv6Addr d s r
  | .pre r => IPIF_getEntry_for_Ipv6Pre d s r

def start : Interface where
  syscfg := fun _ => []
  static_v6pref := fun _ => []
  ulNextIPV6InsNum := 1
  ulNextIPV6PreInsNum := 1
  V6AddrList := []
  V6PreList := []

end Code

section Purpose

variable {ω : Type}

/-- The entries after a reload, with those before it. -/
structure Proper (old new : List (Entry ω)) : Prop where
  nonzero : ∀ e ∈ new, e.InstanceNumber ≠ 0
  numbers : (new.map Entry.InstanceNumber).Nodup
  aliases : (new.map Entry.Alias).Nodup
  kept : ∀ e ∈ old, ∀ e' ∈ new, e'.value = e.value →
    e'.InstanceNumber = e.InstanceNumber ∧ e'.Alias = e.Alias

def Right (s : Interface) : Reload → Interface → Prop
  | .addr _, t => Proper s.V6AddrList t.V6AddrList
  | .pre _, t => Proper s.V6PreList t.V6PreList

def memoryOf {κ : Type} (names : κ → Names) (k : Keys) : Memory κ where
  number := fun x => (load_v6_alias_instNum k.syscfg (names x)).1
  next := k.next

def addrMemory (d : Device) (s : Interface) : Memory Bool :=
  memoryOf (addrNames d) ⟨s.syscfg, s.ulNextIPV6InsNum⟩

def preMemory (d : Device) (s : Interface) : Memory (Buf 64) :=
  memoryOf (prefixNames d) ⟨s.syscfg, s.ulNextIPV6PreInsNum⟩

/-- The numbers that can be given stay an `int`. -/
def Bounded (next count : ℕ) (list : List ℕ) : Prop := next + count * (list.length + 1) < 2 ^ 31

/-- At most one of the addresses starts with fe80 and at most one does not. -/
def FitsAddr (s : Interface) (r : AddrReload) : Prop :=
  ((listedAddrs r).map fun x => isLink x.1).Nodup ∧
    Bounded s.ulNextIPV6InsNum (listedAddrs r).length r.IPV6List

/-- The announced prefixes are different, one that was delegated before has its number of then, and
the number of the delegated one is not that of an announced one and the one it had before. -/
def FitsPre (d : Device) (s : Interface) (r : PreReload) : Prop :=
  ∃ pres, announcedPrefixes r.p_ra (r.p_v6addr.take MAX_IPV6_ENTRY_NUM) = some pres ∧ pres.Nodup ∧
    Bounded s.ulNextIPV6PreInsNum pres.length r.IPV6PrefixList ∧
    (∀ e ∈ s.V6PreList, e.Origin ≠ .RouterAdvertisement → ∀ q ∈ pres, q.text = e.value →
      (preMemory d s).number q = e.InstanceNumber) ∧
    (pres.length < MAX_IPV6_ENTRY_NUM → ∀ p origin, delegatedPrefix d r = some (p, origin) →
      (∀ q ∈ pres, (preMemory d s).number q ≠ pres.length + 1) ∧
      ¬ Reachable r.IPV6PrefixList (preMemory d s) pres (pres.length + 1) ∧
      ∀ e ∈ s.V6PreList, e.value = p.text → e.InstanceNumber = pres.length + 1)

def Fits (d : Device) (s : Interface) : Reload → Prop
  | .addr r => FitsAddr s r
  | .pre r => FitsPre d s r

end Purpose

section Names

def nameBase (d : Device) : Bool ⊕ Buf 64 → CStr :=
  Sum.elim
    (fun link => "tr_".toList ++ d.ifname.text ++ "_v6addr".toList ++
      if link then "_inet6_link".toList else "_inet6".toList)
    fun v6pre => "tr_".toList ++ d.ifname.text ++ "_v6pref_".toList ++ v6pre.text

def allNames (d : Device) : Bool ⊕ Buf 64 → Names := Sum.elim (addrNames d) (prefixNames d)

theorem length_nameBase_lt (d : Device) (x : Bool ⊕ Buf 64) : (nameBase d x).length < 200 := by
  have hif := d.ifname.text_length_lt
  cases x with
  | inl link =>
    have hlen : (nameBase d (.inl link)).length = 3 + d.ifname.text.length + 7 +
        (if link then "_inet6_link".toList else "_inet6".toList).length := by
      rw [nameBase, Sum.elim_inl, List.length_append, List.length_append, List.length_append]
      rfl
    have hlink : (if link then "_inet6_link".toList else "_inet6".toList).length ≤ 11 := by
      cases link <;> decide
    omega
  | inr v6pre =>
    have hpre := v6pre.text_length_lt
    have hlen : (nameBase d (.inr v6pre)).length =
        3 + d.ifname.text.length + 8 + v6pre.text.length := by
      rw [nameBase, Sum.elim_inr, List.length_append, List.length_append, List.length_append]
      rfl
    omega

theorem allNames_eq (d : Device) (x : Bool ⊕ Buf 64) : allNames d x =
    ⟨nameBase d x ++ "_inst_num".toList, nameBase d x ++ "_alias".toList⟩ := by
  have hlen := length_nameBase_lt d x
  have hnum : (Buf.sprintf_s (nameBase d x ++ "_inst_num".toList) : Buf 256).text =
      nameBase d x ++ "_inst_num".toList := by
    apply Buf.text_sprintf_s_of_lt
    rw [List.length_append, show "_inst_num".toList.length = 9 from rfl]
    omega
  have halias : (Buf.sprintf_s (nameBase d x ++ "_alias".toList) : Buf 256).text =
      nameBase d x ++ "_alias".toList := by
    apply Buf.text_sprintf_s_of_lt
    rw [List.length_append, show "_alias".toList.length = 6 from rfl]
    omega
  rw [← hnum, ← halias]
  cases x <;> rfl

theorem nameBase_injective (d : Device) : Function.Injective (nameBase d) := by
  have hfamily : ∀ link p, nameBase d (.inl link) ≠ nameBase d (.inr p) := by
    intro link p h
    simp only [nameBase, Sum.elim_inl, Sum.elim_inr, List.append_assoc] at h
    have hrest := List.append_cancel_left (List.append_cancel_left h)
    have hchar : some 'a' = some 'p' := congrArg (fun t => t[3]?) hrest
    exact absurd hchar (by decide)
  intro x y h
  cases x with
  | inl link =>
    cases y with
    | inl link' =>
      have hlink := List.append_cancel_left h
      cases link <;> cases link'
      · rfl
      · exact absurd hlink (by decide)
      · exact absurd hlink (by decide)
      · rfl
    | inr p => exact absurd h (hfamily link p)
  | inr p =>
    cases y with
    | inl link => exact absurd h.symm (hfamily link p)
    | inr p' =>
      have hp := List.append_cancel_left h
      rw [Buf.text_injective hp]

/-- The names do not get in each other's way. -/
structure Separate {κ : Type} (names : κ → Names) : Prop where
  instNum_inj : Function.Injective fun x => (names x).instNum
  alias_inj : Function.Injective fun x => (names x).aliasName
  instNum_ne : ∀ x y, (names x).instNum ≠ (names y).aliasName

theorem separate_allNames (d : Device) : Separate (allNames d) where
  instNum_inj := by
    intro x y h
    simp only [allNames_eq] at h
    exact nameBase_injective d (List.append_cancel_right h)
  alias_inj := by
    intro x y h
    simp only [allNames_eq] at h
    exact nameBase_injective d (List.append_cancel_right h)
  instNum_ne := by
    intro x y h
    simp only [allNames_eq] at h
    have hlast := congrArg List.getLast? h
    rw [List.getLast?_append, List.getLast?_append] at hlast
    have hchar : some 'm' = some 's' := hlast
    exact absurd hchar (by decide)

theorem separate_addrNames (d : Device) : Separate (addrNames d) where
  instNum_inj := fun _ _ h => Sum.inl_injective ((separate_allNames d).instNum_inj h)
  alias_inj := fun _ _ h => Sum.inl_injective ((separate_allNames d).alias_inj h)
  instNum_ne := fun x y => (separate_allNames d).instNum_ne (.inl x) (.inl y)

theorem separate_prefixNames (d : Device) : Separate (prefixNames d) where
  instNum_inj := fun _ _ h => Sum.inr_injective ((separate_allNames d).instNum_inj h)
  alias_inj := fun _ _ h => Sum.inr_injective ((separate_allNames d).alias_inj h)
  instNum_ne := fun x y => (separate_allNames d).instNum_ne (.inr x) (.inr y)

theorem addr_ne_pre (d : Device) (link : Bool) (p : Buf 64) :
    ((addrNames d link).instNum ≠ (prefixNames d p).instNum ∧
      (addrNames d link).instNum ≠ (prefixNames d p).aliasName) ∧
    (addrNames d link).aliasName ≠ (prefixNames d p).instNum ∧
      (addrNames d link).aliasName ≠ (prefixNames d p).aliasName := by
  have hall := separate_allNames d
  refine ⟨⟨fun h => ?_, hall.instNum_ne (.inl link) (.inr p)⟩,
    (hall.instNum_ne (.inr p) (.inl link)).symm, fun h => ?_⟩
  · cases @hall.instNum_inj (.inl link) (.inr p) h
  · cases @hall.alias_inj (.inl link) (.inr p) h

end Names

section Numbers

variable {κ α : Type} {names : κ → Names} {name : CStr} {list : List ℕ}

def Named (names : κ → Names) (name : CStr) (syscfg : CStr → CStr) : Prop :=
  ∀ x, (load_v6_alias_instNum syscfg (names x)).1 ≠ 0 →
    (load_v6_alias_instNum syscfg (names x)).2 =
      name ++ decimal (load_v6_alias_instNum syscfg (names x)).1

theorem rawGet_of_lt {syscfg : CStr → CStr} {key : CStr} (h : (syscfg key).length < 256) :
    Utopia_RawGet syscfg key = syscfg key := Buf.text_snprintf_of_lt h

variable {n : ℕ}

theorem length_decimal_lt (hn : n < 2 ^ 31) : (decimal n).length ≤ 10 :=
  (decimal_length_le_iff (by omega)).mpr (by omega)

theorem toNat_sscanf_d_decimal (hn : n < 2 ^ 31) : (sscanf_d (decimal n) 0).toNat = n := by
  have hread := sscanf_d_decimal (BitVec.ofNat 32 n) 0
  rw [BitVec.toNat_ofNat, Nat.mod_eq_of_lt (by omega), if_pos hn] at hread
  rw [hread, BitVec.toNat_ofNat, Nat.mod_eq_of_lt (by omega)]

variable {syscfg : CStr → CStr} {x y : κ}

theorem load_save (hsep : Separate names) (hn : n < 2 ^ 31) (hname : name.length ≤ 100) :
    load_v6_alias_instNum (save_v6_alias_instNum syscfg (names x) n (name ++ decimal n)) (names x) =
      (n, name ++ decimal n) := by
  have hlen := length_decimal_lt hn
  have hnum : save_v6_alias_instNum syscfg (names x) n (name ++ decimal n) (names x).instNum =
      decimal n := by
    rw [save_v6_alias_instNum, Function.update_of_ne (hsep.instNum_ne x x), Function.update_self]
  have halias : save_v6_alias_instNum syscfg (names x) n (name ++ decimal n) (names x).aliasName =
      name ++ decimal n := by
    rw [save_v6_alias_instNum, Function.update_self]
  rw [load_v6_alias_instNum, rawGet_of_lt (by rw [hnum]; omega), hnum, toNat_sscanf_d_decimal hn,
    rawGet_of_lt (by rw [halias, List.length_append]; omega), halias]

theorem save_other {a key : CStr} (hnum : key ≠ (names x).instNum)
    (halias : key ≠ (names x).aliasName) :
    save_v6_alias_instNum syscfg (names x) n a key = syscfg key := by
  rw [save_v6_alias_instNum, Function.update_of_ne halias, Function.update_of_ne hnum]

theorem load_congr {syscfg' : CStr → CStr} {ns : Names}
    (hnum : syscfg' ns.instNum = syscfg ns.instNum)
    (halias : syscfg' ns.aliasName = syscfg ns.aliasName) :
    load_v6_alias_instNum syscfg' ns = load_v6_alias_instNum syscfg ns := by
  rw [load_v6_alias_instNum, load_v6_alias_instNum, Utopia_RawGet, Utopia_RawGet, Utopia_RawGet,
    Utopia_RawGet, hnum, halias]

theorem load_save_ne (hsep : Separate names) {a : CStr} (hne : y ≠ x) :
    load_v6_alias_instNum (save_v6_alias_instNum syscfg (names x) n a) (names y) =
      load_v6_alias_instNum syscfg (names y) := by
  apply load_congr
  · exact save_other (fun h => hne (hsep.instNum_inj h)) (hsep.instNum_ne y x)
  · exact save_other (hsep.instNum_ne x y).symm fun h => hne (hsep.alias_inj h)

variable [DecidableEq κ]

theorem entryNumber_spec (hsep : Separate names) (hname : name.length ≤ 100) {k : Keys}
    (hnamed : Named names name k.syscfg) (hbound : k.next + list.length + 1 < 2 ^ 31) (x : κ) :
    ∃ k', entryNumber (genInstAlias name list) (names x) k =
        some (k', (memoryOf names k').number x,
          name ++ decimal ((memoryOf names k').number x)) ∧
      fetch (2 ^ 32) list (memoryOf names k) x = some (memoryOf names k') ∧
      Named names name k'.syscfg ∧
      ∀ key, key ≠ (names x).instNum → key ≠ (names x).aliasName →
        k'.syscfg key = k.syscfg key := by
  by_cases hnew : (load_v6_alias_instNum k.syscfg (names x)).1 = 0
  · have hfits : k.next + list.length < 2 ^ 32 := by omega
    obtain ⟨n, hn⟩ := generate_isSome hfits
    obtain ⟨-, hle, -, -⟩ := generate_spec hfits hn
    have hsmall : n < 2 ^ 31 := by omega
    have hload : load_v6_alias_instNum
        (save_v6_alias_instNum k.syscfg (names x) n (name ++ decimal n)) (names x) =
        (n, name ++ decimal n) := load_save hsep hsmall hname
    refine ⟨⟨save_v6_alias_instNum k.syscfg (names x) n (name ++ decimal n),
      FreeSearch.nextIn 1 (2 ^ 32) n⟩, ?_, ?_, ?_, ?_⟩
    · have hnumber : (memoryOf names ⟨save_v6_alias_instNum k.syscfg (names x) n
          (name ++ decimal n), FreeSearch.nextIn 1 (2 ^ 32) n⟩).number x = n :=
        congrArg Prod.fst hload
      rw [hnumber]
      simp only [entryNumber, if_pos hnew, genInstAlias, hn, Option.map_some]
      rfl
    · have hzero : (memoryOf names k).number x = 0 := hnew
      have hgen : generate (2 ^ 32) list (memoryOf names k).next = some n := hn
      rw [fetch, if_pos hzero, hgen, Option.map_some]
      congr 1
      simp only [memoryOf, Memory.mk.injEq, and_true]
      funext y
      by_cases hy : y = x
      · rw [hy, Function.update_self, hload]
      · rw [Function.update_of_ne hy, load_save_ne hsep hy]
    · intro y hy
      by_cases hyx : y = x
      · rw [hyx, hload]
      · simp only [load_save_ne hsep hyx] at hy ⊢
        exact hnamed y hy
    · intro key hnum halias
      exact save_other hnum halias
  · refine ⟨k, ?_, if_neg hnew, hnamed, fun _ _ _ => rfl⟩
    have halias := hnamed x hnew
    simp only [entryNumber, if_neg hnew]
    rw [halias]
    rfl

theorem entryNumbers_spec (hsep : Separate names) (hname : name.length ≤ 100) (slot : α → κ)
    {k : Keys} (hwf : (memoryOf names k).Wf) (hnamed : Named names name k.syscfg) {xs : List α}
    (hbound : Bounded k.next xs.length list) :
    ∃ k', entryNumbers (genInstAlias name list) (fun x => names (slot x)) k xs =
        some (k', xs.map fun x => (x, (memoryOf names k').number (slot x),
          name ++ decimal ((memoryOf names k').number (slot x)))) ∧
      fetchAll (2 ^ 32) list (memoryOf names k) (xs.map slot) = some (memoryOf names k') ∧
      Named names name k'.syscfg ∧
      ∀ key, (∀ x, key ≠ (names x).instNum ∧ key ≠ (names x).aliasName) →
        k'.syscfg key = k.syscfg key := by
  induction xs generalizing k with
  | nil => exact ⟨k, rfl, rfl, hnamed, fun _ _ => rfl⟩
  | cons x xs ih =>
    rw [Bounded, List.length_cons, Nat.add_mul] at hbound
    have hbound₀ : k.next + list.length + 1 < 2 ^ 31 := by omega
    obtain ⟨k₁, hentry, hfetch, hnamed₁, hother₁⟩ :=
      entryNumber_spec hsep hname hnamed hbound₀ (slot x)
    have hnext : (memoryOf names k).next = k.next := rfl
    obtain ⟨m₁, hm₁, hwf₁, -, hx, hle, -⟩ := fetch_spec hwf
      (by omega : (memoryOf names k).next + list.length + 1 < 2 ^ 32) (slot x)
    obtain rfl := Option.some.inj (hm₁.symm.trans hfetch)
    have hle₁ : k₁.next ≤ k.next + list.length + 1 := hle
    have hbound₁ : Bounded k₁.next xs.length list := by
      rw [Bounded]
      omega
    obtain ⟨k₂, hrest, hfetchAll, hnamed₂, hother₂⟩ := ih hwf₁ hnamed₁ hbound₁
    have hbound₂ : (memoryOf names k₁).next + (xs.map slot).length * (list.length + 1) <
        2 ^ 32 := by
      rw [Bounded] at hbound₁
      rw [List.length_map]
      change k₁.next + _ < _
      omega
    obtain ⟨m₂, hm₂, -, hkept, -⟩ := fetchAll_spec hwf₁ hbound₂
    obtain rfl := Option.some.inj (hm₂.symm.trans hfetchAll)
    refine ⟨k₂, ?_, ?_, hnamed₂, ?_⟩
    · rw [List.map_cons, hkept (slot x) hx, entryNumbers, hentry]
      simp only [Option.bind_eq_bind, Option.bind_some, hrest]
    · rw [List.map_cons, fetchAll, List.foldlM_cons, hfetch]
      exact hfetchAll
    · intro key hkey
      rw [hother₂ key hkey]
      exact hother₁ key (hkey (slot x)).1 (hkey (slot x)).2

end Numbers

section Reloads

variable {ω κ : Type} {d : Device} {s t : Interface}

def Aliased (name : CStr) (l : List (Entry ω)) : Prop :=
  ∀ e ∈ l, e.Alias = name ++ decimal e.InstanceNumber

theorem proper_of_numbers {name : CStr} {old new : List (Entry ω)} (hold : Aliased name old)
    (hnew : Aliased name new) (hnonzero : ∀ e ∈ new, e.InstanceNumber ≠ 0)
    (hnumbers : (new.map Entry.InstanceNumber).Nodup)
    (hkept : ∀ e ∈ old, ∀ e' ∈ new, e'.value = e.value → e'.InstanceNumber = e.InstanceNumber) :
    Proper old new where
  nonzero := hnonzero
  numbers := hnumbers
  aliases := by
    have hmap : new.map Entry.Alias =
        (new.map Entry.InstanceNumber).map fun n => name ++ decimal n := by
      rw [List.map_map]
      exact List.map_congr_left hnew
    rw [hmap]
    apply hnumbers.map
    intro n n' h
    exact decimal_injective (List.append_cancel_left h)
  kept := by
    intro e he e' he' hvalue
    have hnumber := hkept e he e' he' hvalue
    exact ⟨hnumber, by rw [hnew e' he', hold e he, hnumber]⟩

theorem nodup_numbers {m : Memory κ} (hwf : m.Wf) {ks : List κ} (hks : ks.Nodup)
    (hall : ∀ k ∈ ks, m.number k ≠ 0) : (ks.map m.number).Nodup := by
  apply List.Nodup.map_on ?_ hks
  intro k hk k' _ heq
  exact hwf.inj k k' (hall k hk) heq

structure Inv (d : Device) (s : Interface) : Prop where
  addrWf : (addrMemory d s).Wf
  preWf : (preMemory d s).Wf
  addrNamed : Named (addrNames d) IPv6Address s.syscfg
  preNamed : Named (prefixNames d) IPv6Prefix s.syscfg
  static : s.static_v6pref = fun _ => []
  addrAliased : Aliased IPv6Address s.V6AddrList
  preAliased : Aliased IPv6Prefix s.V6PreList
  addrs : ∀ e ∈ s.V6AddrList, e.InstanceNumber ≠ 0 ∧
    (addrMemory d s).number (strneq e.value fe80 4) = e.InstanceNumber
  pres : ∀ e ∈ s.V6PreList, e.InstanceNumber ≠ 0 ∧ (e.Origin = .RouterAdvertisement →
    ∃ p : Buf 64, p.text = e.value ∧ (preMemory d s).number p = e.InstanceNumber)

theorem memoryOf_congr {names : κ → Names} {k k' : Keys} (hnext : k'.next = k.next)
    (h : ∀ x, k'.syscfg (names x).instNum = k.syscfg (names x).instNum ∧
      k'.syscfg (names x).aliasName = k.syscfg (names x).aliasName) :
    memoryOf names k' = memoryOf names k := by
  simp only [memoryOf, Memory.mk.injEq]
  exact ⟨funext fun x => congrArg Prod.fst (load_congr (h x).1 (h x).2), hnext⟩

theorem named_congr {names : κ → Names} {name : CStr} {syscfg syscfg' : CStr → CStr}
    (h : ∀ x, syscfg' (names x).instNum = syscfg (names x).instNum ∧
      syscfg' (names x).aliasName = syscfg (names x).aliasName)
    (hnamed : Named names name syscfg) : Named names name syscfg' := by
  intro x hx
  rw [load_congr (h x).1 (h x).2] at hx ⊢
  exact hnamed x hx

theorem inv_start (d : Device) : Inv d start where
  addrWf := ⟨Nat.one_pos, fun _ h => absurd rfl h, fun _ _ h => absurd rfl h⟩
  preWf := ⟨Nat.one_pos, fun _ h => absurd rfl h, fun _ _ h => absurd rfl h⟩
  addrNamed := fun _ h => absurd rfl h
  preNamed := fun _ h => absurd rfl h
  static := rfl
  addrAliased := nofun
  preAliased := nofun
  addrs := nofun
  pres := nofun

theorem addr_step (h : Inv d s) {r : AddrReload} (hfits : FitsAddr s r) :
    ∃ t, IPIF_getEntry_for_Ipv6Addr d s r = some t ∧ Proper s.V6AddrList t.V6AddrList ∧
      Inv d t := by
  obtain ⟨hnodup, hbound⟩ := hfits
  obtain ⟨k, hentries, hfetch, hnamed, hother⟩ := entryNumbers_spec (separate_addrNames d)
    (by decide : IPv6Address.length ≤ 100) (fun x => isLink x.1) h.addrWf h.addrNamed hbound
  have hbound' : (addrMemory d s).next +
      ((listedAddrs r).map fun x => isLink x.1).length * (r.IPV6List.length + 1) < 2 ^ 32 := by
    rw [List.length_map]
    exact Nat.lt_trans hbound (by decide)
  obtain ⟨m, hm, hwf, hkept, -, hall, -⟩ := fetchAll_spec h.addrWf hbound'
  obtain rfl := Option.some.inj (hm.symm.trans hfetch)
  have hpre : ∀ p, k.syscfg (prefixNames d p).instNum = s.syscfg (prefixNames d p).instNum ∧
      k.syscfg (prefixNames d p).aliasName = s.syscfg (prefixNames d p).aliasName := by
    intro p
    exact ⟨hother _ fun link => ⟨(addr_ne_pre d link p).1.1.symm, (addr_ne_pre d link p).2.1.symm⟩,
      hother _ fun link => ⟨(addr_ne_pre d link p).1.2.symm, (addr_ne_pre d link p).2.2.symm⟩⟩
  let t : Interface :=
    { s with
      syscfg := k.syscfg
      ulNextIPV6InsNum := k.next
      V6AddrList := (listedAddrs r).map fun x =>
        ⟨(memoryOf (addrNames d) k).number (isLink x.1),
          IPv6Address ++ decimal ((memoryOf (addrNames d) k).number (isLink x.1)),
          x.1.v6addr.text, x.2⟩ }
  have hreload : IPIF_getEntry_for_Ipv6Addr d s r = some t := by
    simp only [IPIF_getEntry_for_Ipv6Addr, CosaIPv6AddrGenInstAlias, hentries,
      Option.bind_eq_bind, Option.bind_some, List.map_map]
    rfl
  have hentry : ∀ e ∈ t.V6AddrList, e.InstanceNumber ≠ 0 ∧
      (memoryOf (addrNames d) k).number (strneq e.value fe80 4) = e.InstanceNumber := by
    intro e he
    obtain ⟨x, hx, rfl⟩ := List.mem_map.mp he
    exact ⟨hall _ (List.mem_map_of_mem hx), rfl⟩
  have haliased : Aliased IPv6Address t.V6AddrList := by
    intro e he
    obtain ⟨x, -, rfl⟩ := List.mem_map.mp he
    rfl
  have hpreMemory : preMemory d t = preMemory d s := memoryOf_congr rfl hpre
  refine ⟨t, hreload,
    proper_of_numbers h.addrAliased haliased (fun e he => (hentry e he).1) ?_ ?_, ?_⟩
  · have hnumbers := nodup_numbers hwf hnodup hall
    rw [List.map_map] at hnumbers ⊢
    exact hnumbers
  · intro e he e' he' hvalue
    obtain ⟨hne, hnumber⟩ := h.addrs e he
    rw [← (hentry e' he').2, hvalue, hkept _ (by rw [hnumber]; exact hne), hnumber]
  · exact
      { addrWf := hwf
        preWf := by
          rw [hpreMemory]
          exact h.preWf
        addrNamed := hnamed
        preNamed := named_congr hpre h.preNamed
        static := h.static
        addrAliased := haliased
        preAliased := h.preAliased
        addrs := hentry
        pres := by
          rw [hpreMemory]
          exact h.pres }

def delegatedEntries (d : Device) (s : Interface) (r : PreReload) (count : ℕ) :
    List (Entry COSA_DML_IP6PREFIX_ORIGIN) :=
  if MAX_IPV6_ENTRY_NUM ≤ count then []
  else match delegatedPrefix d r with
    | none => []
    | some (dhcpv6_pref, origin) => [delegatedEntry s count dhcpv6_pref origin]

variable {r : PreReload}

theorem delegated_origin {p : Buf 64} {origin : COSA_DML_IP6PREFIX_ORIGIN}
    (h : delegatedPrefix d r = some (p, origin)) : origin ≠ .RouterAdvertisement := by
  rintro rfl
  grind [delegatedPrefix]

theorem mem_delegatedEntries {count : ℕ} {e : Entry COSA_DML_IP6PREFIX_ORIGIN}
    (hstatic : s.static_v6pref = fun _ => []) (he : e ∈ delegatedEntries d s r count) :
    count < MAX_IPV6_ENTRY_NUM ∧ e.InstanceNumber = count + 1 ∧
      e.Alias = IPv6Prefix ++ decimal (count + 1) ∧ e.Origin ≠ .RouterAdvertisement ∧
      ∃ p, delegatedPrefix d r = some (p, e.Origin) ∧ e.value = p.text := by
  rw [delegatedEntries] at he
  split at he
  · cases he
  · next hcount =>
    split at he
    · cases he
    · next p origin hdelegated =>
      obtain rfl := List.mem_singleton.mp he
      refine ⟨Nat.lt_of_not_le hcount, rfl, ?_, delegated_origin hdelegated, p, hdelegated, rfl⟩
      rw [delegatedEntry, hstatic]
      rfl

theorem delegatedEntries_length (r : PreReload) (count : ℕ) :
    (delegatedEntries d s r count).length ≤ 1 := by
  rw [delegatedEntries]
  split
  · exact Nat.zero_le 1
  · split
    · exact Nat.zero_le 1
    · exact Nat.le_refl 1

theorem pre_step (h : Inv d s) (hfits : FitsPre d s r) :
    ∃ t, IPIF_getEntry_for_Ipv6Pre d s r = some t ∧ Proper s.V6PreList t.V6PreList ∧ Inv d t := by
  obtain ⟨pres, hpres, hnodup, hbound, hformer, hdelegated⟩ := hfits
  obtain ⟨k, hentries, hfetch, hnamed, hother⟩ := entryNumbers_spec (separate_prefixNames d)
    (by decide : IPv6Prefix.length ≤ 100) id h.preWf h.preNamed hbound
  rw [List.map_id] at hfetch
  have hbound' : (preMemory d s).next + pres.length * (r.IPV6PrefixList.length + 1) < 2 ^ 32 :=
    Nat.lt_trans hbound (by decide)
  obtain ⟨m, hm, hwf, hkept, -, hall, -, hreach⟩ := fetchAll_spec h.preWf hbound'
  obtain rfl := Option.some.inj (hm.symm.trans hfetch)
  have haddr : ∀ link, k.syscfg (addrNames d link).instNum = s.syscfg (addrNames d link).instNum ∧
      k.syscfg (addrNames d link).aliasName = s.syscfg (addrNames d link).aliasName := by
    intro link
    exact ⟨hother _ fun p => (addr_ne_pre d link p).1, hother _ fun p => (addr_ne_pre d link p).2⟩
  let announced : List (Entry COSA_DML_IP6PREFIX_ORIGIN) := pres.map fun p =>
    ⟨(memoryOf (prefixNames d) k).number p,
      IPv6Prefix ++ decimal ((memoryOf (prefixNames d) k).number p), p.text, .RouterAdvertisement⟩
  have hlength : announced.length = pres.length := List.length_map _
  let t : Interface :=
    { s with
      syscfg := k.syscfg
      ulNextIPV6PreInsNum := k.next
      V6PreList := announced ++ delegatedEntries d s r pres.length }
  have hreload : IPIF_getEntry_for_Ipv6Pre d s r = some t := by
    simp only [IPIF_getEntry_for_Ipv6Pre, CosaIPv6PrefGenInstAlias, hpres, Option.bind_eq_bind,
      Option.bind_some]
    have hentries' : entryNumbers (genInstAlias IPv6Prefix r.IPV6PrefixList) (prefixNames d)
        ⟨s.syscfg, s.ulNextIPV6PreInsNum⟩ pres = _ := hentries
    rw [hentries']
    simp only [Option.bind_some, List.map_map, List.length_map, Option.some.injEq]
    have hlist : (if MAX_IPV6_ENTRY_NUM ≤ pres.length then announced
        else match delegatedPrefix d r with
          | none => announced
          | some (p, origin) => announced ++ [delegatedEntry s pres.length p origin]) =
        announced ++ delegatedEntries d s r pres.length := by
      rw [delegatedEntries]
      split
      · rw [List.append_nil]
      · split
        · rw [List.append_nil]
        · rfl
    exact congrArg (fun l : List (Entry COSA_DML_IP6PREFIX_ORIGIN) =>
      { s with syscfg := k.syscfg, ulNextIPV6PreInsNum := k.next, V6PreList := l }) hlist
  have hannounced : ∀ e ∈ announced, e.InstanceNumber ≠ 0 ∧ e.Origin = .RouterAdvertisement ∧
      ∃ p ∈ pres, p.text = e.value ∧
        (memoryOf (prefixNames d) k).number p = e.InstanceNumber := by
    intro e he
    obtain ⟨p, hp, rfl⟩ := List.mem_map.mp he
    exact ⟨hall p hp, rfl, p, hp, rfl, rfl⟩
  have haliased : Aliased IPv6Prefix t.V6PreList := by
    intro e he
    rcases List.mem_append.mp he with he | he
    · obtain ⟨p, -, rfl⟩ := List.mem_map.mp he
      rfl
    · obtain ⟨-, hnumber, halias, -⟩ := mem_delegatedEntries h.static he
      rw [halias, hnumber]
  have hnonzero : ∀ e ∈ t.V6PreList, e.InstanceNumber ≠ 0 := by
    intro e he
    rcases List.mem_append.mp he with he | he
    · exact (hannounced e he).1
    · rw [(mem_delegatedEntries h.static he).2.1]
      exact Nat.succ_ne_zero _
  -- the number of the delegated prefix is not that of an announced one
  have hapart : ∀ e ∈ delegatedEntries d s r pres.length, ∀ p ∈ pres,
      (memoryOf (prefixNames d) k).number p ≠ e.InstanceNumber := by
    intro e he p hp heq
    obtain ⟨hcount, hnumber, -, -, pref, hpref, -⟩ := mem_delegatedEntries h.static he
    obtain ⟨hold, hnew, -⟩ := hdelegated hcount pref e.Origin hpref
    rw [hnumber] at heq
    by_cases hzero : (preMemory d s).number p = 0
    · have hp' := hreach p hp hzero
      rw [heq] at hp'
      exact hnew hp'
    · rw [hkept p hzero] at heq
      exact hold p hp heq
  have haddrMemory : addrMemory d t = addrMemory d s := memoryOf_congr rfl haddr
  refine ⟨t, hreload, proper_of_numbers h.preAliased haliased hnonzero ?_ ?_, ?_⟩
  · have hfirst := nodup_numbers hwf hnodup hall
    change ((announced ++ delegatedEntries d s r pres.length).map Entry.InstanceNumber).Nodup
    rw [List.map_append, List.nodup_append]
    refine ⟨?_, ?_, ?_⟩
    · rw [List.map_map]
      exact hfirst
    · have hone := @delegatedEntries_length d s r pres.length
      rcases hlist : delegatedEntries d s r pres.length with _ | ⟨e, rest⟩
      · exact List.nodup_nil
      · rw [hlist, List.length_cons] at hone
        obtain rfl := List.eq_nil_of_length_eq_zero (by omega : rest.length = 0)
        exact List.nodup_singleton _
    · intro n hn n' hn' heq
      obtain ⟨e, he, rfl⟩ := List.mem_map.mp hn
      obtain ⟨e', he', rfl⟩ := List.mem_map.mp hn'
      obtain ⟨-, -, p, hp, -, hnumber⟩ := hannounced e he
      exact hapart e' he' p hp (hnumber.trans heq)
  · intro e he e' he' hvalue
    obtain ⟨hne, hra⟩ := h.pres e he
    rcases List.mem_append.mp he' with he' | he'
    · obtain ⟨-, -, p, hp, htext, hnumber⟩ := hannounced e' he'
      have hbefore : (preMemory d s).number p = e.InstanceNumber := by
        by_cases horigin : e.Origin = .RouterAdvertisement
        · obtain ⟨q, hq, hqnumber⟩ := hra horigin
          have hpq : p = q := Buf.text_injective (by rw [htext, hvalue, hq])
          rw [hpq, hqnumber]
        · exact hformer e he horigin p hp (by rw [htext, hvalue])
      rw [← hnumber, hkept p (by rw [hbefore]; exact hne), hbefore]
    · obtain ⟨hcount, hnumber, -, -, pref, hpref, htext⟩ := mem_delegatedEntries h.static he'
      obtain ⟨-, -, hsame⟩ := hdelegated hcount pref e'.Origin hpref
      rw [hnumber, hsame e he (by rw [← hvalue, htext])]
  · exact
      { addrWf := by
          rw [haddrMemory]
          exact h.addrWf
        preWf := hwf
        addrNamed := named_congr haddr h.addrNamed
        preNamed := hnamed
        static := h.static
        addrAliased := h.addrAliased
        preAliased := haliased
        addrs := by
          rw [haddrMemory]
          exact h.addrs
        pres := by
          intro e he
          refine ⟨hnonzero e he, fun horigin => ?_⟩
          rcases List.mem_append.mp he with he | he
          · obtain ⟨-, -, p, -, htext, hnumber⟩ := hannounced e he
            exact ⟨p, htext, hnumber⟩
          · exact absurd horigin (mem_delegatedEntries h.static he).2.2.2.1 }

/-- In a run whose reloads all meet the condition the numbers and aliases are non-zero, different
and those of the reload before. -/
theorem reloads_proper (d : Device) (reloads : List Reload)
    (hfits : StepsMeet (step d) (Fits d) start reloads) : Does (step d) Right start reloads := by
  apply does_of_stepsMeet (step d) (Inv d) ?_ (inv_start d) hfits
  intro s r h hr
  cases r with
  | addr r => exact addr_step h hr
  | pre r => exact pre_step h hr

def wan : Device where
  ifname := Buf.snprintf "erouter0".toList
  ulIndex := 0
  CISCO_CONFIG_DHCPV6_PREFIX_DELEGATION := true
  usgArmOrBcmMips := true
  usgArm := true

def linkLocal : Ipv6AddrInfo where
  scope := .LINKLOCAL
  v6addr := Buf.snprintf "fe80::1".toList
  v6pre := Buf.snprintf "fe80:0000:0000:0000::/64".toList

def globalAddr (v6addr : CStr) : Ipv6AddrInfo where
  scope := .GLOBAL
  v6addr := Buf.snprintf v6addr
  v6pre := Buf.snprintf "2001:0db8:0000:0000::/64".toList

def addrReload (addrs : List Ipv6AddrInfo) : AddrReload where
  p_v6addr := addrs.map fun a => (a, [])
  p_ra := [Buf.snprintf "2001:0db8:0000:0000::/64".toList]
  dhcpv6_addr := Buf.empty
  global_addr := Buf.snprintf "::".toList
  IPV6List := []

def delegation : PreReload where
  p_v6addr := [linkLocal]
  p_ra := []
  brlan0_prefix := Buf.empty
  dhcpv6c_pref := Buf.snprintf "2001:db8:1::/56".toList
  IPV6PrefixList := []

theorem reloads_proper_delegation : Does (step wan) Right start [.pre delegation] := by
  apply reloads_proper wan
  refine stepsMeet_cons (step wan) ⟨[], rfl, List.nodup_nil, ?_, nofun, ?_⟩ rfl trivial
  · change 1 + 0 * (0 + 1) < 2 ^ 31
    omega
  · intro _ p origin _
    exact ⟨nofun, fun h => Nat.lt_irrefl _ h.2.2, nofun⟩

def twoGlobal : AddrReload :=
  addrReload [globalAddr "2001:db8::1".toList, globalAddr "2001:db8::2".toList]

/-- Two addresses of one announced prefix get the same number. -/
theorem global_addresses_clash :
    ¬ ∀ reloads : List Reload, Does (step wan) Right start reloads := by
  intro h
  obtain ⟨t, ht, hright, -⟩ := h [.addr twoGlobal]
  have hnumbers : (step wan start (.addr twoGlobal)).map
      (fun t => t.V6AddrList.map Entry.InstanceNumber) = some [1, 1] := by decide +kernel
  rw [ht, Option.map_some, Option.some.injEq] at hnumbers
  have hnodup : (t.V6AddrList.map Entry.InstanceNumber).Nodup := hright.numbers
  rw [hnumbers] at hnodup
  exact absurd hnodup (by decide)

end Reloads

end CcspPandM.V6InstanceNumbers
