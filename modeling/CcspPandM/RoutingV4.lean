import CcspPandM.KeyStore
import CcspPandM.ScanText

/-!
The static IPv4 routes. A route is kept four times: under three keys of the
store, in the array `sroute`, in the array `Router_Alias` and in the kernel's
table erouter, which is a set of routes here. The arrays hold their used part
only, so their lengths are the counters `Num_V4Entry` and `Config_Num`; a call
that would leave an array has no result.
-/
namespace CcspPandM.RoutingV4

open CString InetText KeyStore ScanText

abbrev Addr := BitVec 32

/-- The members of `COSA_DML_ROUTING_V4_ENTRY` that the calls read or write. -/
structure V4Entry where
  InstanceNumber : ℕ
  Alias : CStr
  Enable : Bool
  DestIPAddress : Addr
  DestSubnetMask : Addr
  GatewayIPAddress : Addr
  Interface : CStr
  ForwardingMetric : BitVec 32
  deriving DecidableEq, Repr

structure StaticRoute where
  dest_lan_ip : CStr
  netmask : CStr
  gateway : CStr
  metric : BitVec 32
  dest_intf : CStr
  deriving DecidableEq, Repr

structure RouterAlias where
  InstanceNumber : ℕ
  Index : ℕ
  Enabled : Bool
  Alias : CStr
  Name : CStr
  deriving DecidableEq, Repr

/-- A route as `ip route add` names it; without `dev` the device is empty. -/
structure Route where
  dest : CStr
  bits : ℕ
  gateway : CStr
  dev : CStr
  metric : BitVec 32
  deriving DecidableEq, Repr

structure State where
  Router_Alias : List RouterAlias
  sroute : List StaticRoute
  store : Store CStr CStr
  kernel : List Route

def Count_NetmaskBitNum (netmask : BitVec 32) : ℕ :=
  if h : netmask = 0 then 0 else Count_NetmaskBitNum (netmask &&& (netmask - 1)) + 1
termination_by netmask.toNat
decreasing_by
  have hpos : 0 < netmask.toNat := by
    rcases Nat.eq_zero_or_pos netmask.toNat with hzero | hpos
    · exact absurd (BitVec.eq_of_toNat_eq hzero) h
    · exact hpos
  have hle : (netmask &&& (netmask - 1)).toNat ≤ (netmask - 1).toNat := by
    rw [BitVec.toNat_and]
    exact Nat.and_le_right
  have hsub : (netmask - 1).toNat = netmask.toNat - 1 := by
    rw [BitVec.toNat_sub, show (1 : BitVec 32).toNat = 1 from rfl]
    omega
  omega

def addrText (a : Addr) : CStr := dotted (addrOctets a)

/-- `ip route add`. -/
def routeAdd (r : Route) (kernel : List Route) : List Route := kernel.insert r

/-- `ip route del`; metric zero and no device stand for any. -/
def routeMatches (r x : Route) : Bool :=
  x.dest = r.dest ∧ x.bits = r.bits ∧ x.gateway = r.gateway ∧ (r.dev = [] ∨ x.dev = r.dev) ∧
    (r.metric = 0 ∨ x.metric = r.metric)

def routeDel (r : Route) (kernel : List Route) : List Route :=
  kernel.filter (fun x => !routeMatches r x)

/-- `tr_routing_v4entry_%lu_…`. -/
def entryKey (n : ℕ) (field : CStr) : CStr :=
  "tr_routing_v4entry_".toList ++ decimal n ++ '_' :: field

def aliasKey (n : ℕ) : CStr := entryKey n "alias".toList

def nameKey (n : ℕ) : CStr := entryKey n "name".toList

def enabledKey (n : ℕ) : CStr := entryKey n "enabled".toList

/-- `"%d.%d.%d.%d %d.%d.%d.%d %s %d"`. -/
def nameText (pEntry : V4Entry) : CStr :=
  addrText pEntry.DestIPAddress ++ ' ' :: (addrText pEntry.DestSubnetMask ++
    ' ' :: (addrText pEntry.GatewayIPAddress ++ ' ' :: intText pEntry.ForwardingMetric))

def flagText (b : Bool) : CStr := if b then ['1'] else ['0']

def saveEntry (pEntry : V4Entry) (store : Store CStr CStr) : Store CStr CStr :=
  setAll [(aliasKey pEntry.InstanceNumber, pEntry.Alias),
    (nameKey pEntry.InstanceNumber, (Buf.snprintf (nameText pEntry) : Buf 80).text),
    (enabledKey pEntry.InstanceNumber, flagText pEntry.Enable)] store

/-- `%s` of `sscanf`: the next word and the text after it. -/
def scanWord (t : CStr) : Option (CStr × CStr) :=
  let u := t.dropWhile isspace
  if u = [] then none else some (u.takeWhile (!isspace ·), u.dropWhile (!isspace ·))

/-- `sscanf(Name, "%s %s %s %d", ..)`; what is not matched stays as it was. -/
def sscanfName (t : CStr) (r : StaticRoute) : StaticRoute :=
  match scanWord t with
  | none => r
  | some (dest, t) =>
    match scanWord t with
    | none => { r with dest_lan_ip := dest }
    | some (mask, t) =>
      match scanWord t with
      | none => { r with dest_lan_ip := dest, netmask := mask }
      | some (gw, t) => ⟨dest, mask, gw, sscanf_d t r.metric, r.dest_intf⟩

/-- `Utopia_RawGet` into the 80 bytes of `sys_buf`. -/
def rawGet (store : Store CStr CStr) (key : CStr) : Option CStr :=
  (store key).map (fun v => (Buf.snprintf v : Buf 80).text)

/-- The `Router_Alias` element the load fills for number n, from a zeroed one. -/
def loadAlias (store : Store CStr CStr) (n : ℕ) : Option RouterAlias :=
  (rawGet store (aliasKey n)).map (fun text =>
    { InstanceNumber := n
      Index := 0
      Enabled := ((rawGet store (enabledKey n)).map (fun t => decide (atoi t ≠ 0))).getD false
      Alias := text
      Name := ((rawGet store (nameKey n)).map
        (fun t => (Buf.sprintf_s t : Buf 64).text)).getD [] })

def zeroRoute : StaticRoute := ⟨[], [], [], 0, []⟩

def CosaDmlRoutingGetNumberOfV4Entries (store : Store CStr CStr) (kernel : List Route) : State :=
  let found := (List.range 256).filterMap (fun uIndex => loadAlias store (uIndex + 1))
  { Router_Alias := found.mapIdx (fun index a => { a with Index := index })
    sroute := found.map (fun a => sscanfName a.Name zeroRoute)
    store
    kernel }

/-- `ip route add %s/%d via %s table erouter metric %d`. -/
def bootRoute (r : StaticRoute) : Route :=
  ⟨r.dest_lan_ip, Count_NetmaskBitNum (inet_addr r.netmask), r.gateway, [], r.metric⟩

/-- The routes the lan-status event adds, one `sroute` element per alias. -/
def bootRoutes : List RouterAlias → List StaticRoute → Option (List Route)
  | [], _ => some []
  | a :: as, [] => if a.Enabled then none else bootRoutes as []
  | a :: as, r :: rs =>
    (bootRoutes as rs).map (fun routes => if a.Enabled then bootRoute r :: routes else routes)

def AddRouteEntryToKernel (s : State) : Option State :=
  (bootRoutes s.Router_Alias s.sroute).map (fun routes =>
    { s with kernel := routes.foldl (fun kernel r => routeAdd r kernel) s.kernel })

/-- `strncpy(dest_intf, src, 9)` into memory that goes on with the text `rest`
after the nine bytes. -/
def strncpyIntf (src rest : CStr) : CStr := if src.length < 9 then src else src.take 9 ++ rest

def CosaDmlRoutingAddV4Entry (pEntry : V4Entry) (rest : CStr) (s : State) : Option State :=
  if s.Router_Alias.length < 256 then
    let metric := if pEntry.ForwardingMetric ≠ 0 then pEntry.ForwardingMetric + 1
      else pEntry.ForwardingMetric
    some {
      Router_Alias := s.Router_Alias ++
        [⟨pEntry.InstanceNumber, s.sroute.length, true, pEntry.Alias, []⟩]
      sroute := s.sroute ++
        [⟨addrText pEntry.DestIPAddress, addrText pEntry.DestSubnetMask,
          addrText pEntry.GatewayIPAddress, pEntry.ForwardingMetric,
          strncpyIntf pEntry.Interface rest⟩]
      store := saveEntry { pEntry with Enable := true } s.store
      kernel := routeAdd ⟨addrText pEntry.DestIPAddress,
        Count_NetmaskBitNum pEntry.DestSubnetMask, addrText pEntry.GatewayIPAddress,
        pEntry.Interface, metric⟩ s.kernel }
  else none

/-- `ip route del %s/%d via %s table erouter metric 0`, with `dev` if it is set. -/
def delRoute (r : StaticRoute) : Route :=
  ⟨r.dest_lan_ip, Count_NetmaskBitNum (inet_addr r.netmask), r.gateway, r.dest_intf, 0⟩

def CosaDmlRoutingDelV4Entry (InstanceNumber : ℕ) (s : State) : Option State :=
  if InstanceNumber = 0 then some s
  else
    let store := unsetAll
      [aliasKey InstanceNumber, nameKey InstanceNumber, enabledKey InstanceNumber] s.store
    match s.Router_Alias.find? (·.InstanceNumber = InstanceNumber) with
    | none => some { s with store }
    | some a => (s.sroute[a.Index]?).map (fun r =>
        { s with store, kernel := routeDel (delRoute r) s.kernel })

def sameParameters (pEntry : V4Entry) (r : StaticRoute) (enabled : Bool) : Bool :=
  pEntry.DestIPAddress = inet_addr r.dest_lan_ip ∧
    pEntry.DestSubnetMask = inet_addr r.netmask ∧
    pEntry.GatewayIPAddress = inet_addr r.gateway ∧ pEntry.Enable = enabled ∧
    pEntry.ForwardingMetric = r.metric ∧ pEntry.Interface = r.dest_intf

/-- The loop of Set breaks right after `ip route del`, so what follows it there,
the new route and the new `sroute` values, is never reached. -/
def CosaDmlRoutingSetV4Entry (pEntry : V4Entry) (s : State) : Option State :=
  if pEntry.InstanceNumber = 0 then some s
  else
    let store := saveEntry pEntry s.store
    match s.Router_Alias.findIdx? (·.InstanceNumber = pEntry.InstanceNumber) with
    | none => some { s with store }
    | some index => do
      let a ← s.Router_Alias[index]?
      let r ← s.sroute[index]?
      if sameParameters pEntry r a.Enabled then some { s with store }
      else
        let old ← s.sroute[a.Index]?
        some { s with
          Router_Alias := s.Router_Alias.set index { a with Enabled := pEntry.Enable }
          store
          kernel := routeDel (delRoute old) s.kernel }

def CosaDmlRoutingGetV4Entry (ulIndex : ℕ) (pEntry : V4Entry) (s : State) : Option V4Entry :=
  (s.sroute[ulIndex]?).map (fun r =>
    let entry : V4Entry := { pEntry with
      InstanceNumber := 0
      Enable := true
      DestIPAddress := inet_addr r.dest_lan_ip
      DestSubnetMask := inet_addr r.netmask
      GatewayIPAddress := inet_addr r.gateway
      Interface := r.dest_intf
      ForwardingMetric := r.metric }
    match s.Router_Alias.find? (·.Index = ulIndex) with
    | none => entry
    | some a => { entry with
        InstanceNumber := a.InstanceNumber, Enable := a.Enabled, Alias := a.Alias })

variable {m n : ℕ}

theorem entryKey_inj {f g : CStr} : entryKey m f = entryKey n g ↔ m = n ∧ f = g := by
  constructor
  · intro h
    unfold entryKey at h
    rw [List.append_assoc, List.append_assoc] at h
    exact decimal_cons_inj rfl (List.append_cancel_left h)
  · intro h
    rw [h.1, h.2]

theorem aliasKey_ne_nameKey (m n : ℕ) : aliasKey m ≠ nameKey n := fun h =>
  absurd (entryKey_inj.mp h).2 (by decide)

theorem aliasKey_ne_enabledKey (m n : ℕ) : aliasKey m ≠ enabledKey n := fun h =>
  absurd (entryKey_inj.mp h).2 (by decide)

theorem nameKey_ne_enabledKey (m n : ℕ) : nameKey m ≠ enabledKey n := fun h =>
  absurd (entryKey_inj.mp h).2 (by decide)

@[simp] theorem aliasKey_inj : aliasKey m = aliasKey n ↔ m = n := by
  simp [aliasKey, entryKey_inj]

@[simp] theorem nameKey_inj : nameKey m = nameKey n ↔ m = n := by
  simp [nameKey, entryKey_inj]

@[simp] theorem enabledKey_inj : enabledKey m = enabledKey n ↔ m = n := by
  simp [enabledKey, entryKey_inj]

theorem length_addrText_le (a : Addr) : (addrText a).length ≤ 15 := length_dotted_addrOctets_le a

variable (pEntry : V4Entry)

theorem length_nameText_le : (nameText pEntry).length ≤ 59 := by
  have hdest := length_addrText_le pEntry.DestIPAddress
  have hmask := length_addrText_le pEntry.DestSubnetMask
  have hgw := length_addrText_le pEntry.GatewayIPAddress
  have hmetric := length_intText_le pEntry.ForwardingMetric
  simp only [nameText, List.length_append, List.length_cons]
  omega

theorem addrText_word (a : Addr) : addrText a ≠ [] ∧ ∀ c ∈ addrText a, isspace c = false := by
  have hdot : isspace '.' = false := by decide
  have hdigit : ∀ i, ∀ c ∈ decimal (a.extractLsb' i 8).toNat, isspace c = false :=
    fun i c hc => isspace_of_isDigit (isDigit_of_mem_decimal hc)
  have htext : addrText a = decimal (a.extractLsb' 0 8).toNat ++ '.' ::
      (decimal (a.extractLsb' 8 8).toNat ++ '.' :: (decimal (a.extractLsb' 16 8).toNat ++ '.' ::
        decimal (a.extractLsb' 24 8).toNat)) := by
    simp [addrText, addrOctets, dotted, List.intercalate]
  refine ⟨?_, fun c hc => ?_⟩
  · rw [htext]
    simp
  · rw [htext] at hc
    simp only [List.mem_append, List.mem_cons] at hc
    rcases hc with hc | rfl | hc | rfl | hc | rfl | hc
    · exact hdigit 0 c hc
    · exact hdot
    · exact hdigit 8 c hc
    · exact hdot
    · exact hdigit 16 c hc
    · exact hdot
    · exact hdigit 24 c hc

theorem inet_addr_addrText (a : Addr) : inet_addr (addrText a) = a := inet_addr_dotted a

theorem scanWord_append {w rest : CStr} (hw : w ≠ [] ∧ ∀ c ∈ w, isspace c = false) :
    scanWord (w ++ ' ' :: rest) = some (w, ' ' :: rest) ∧
      scanWord (' ' :: (w ++ ' ' :: rest)) = some (w, ' ' :: rest) := by
  obtain ⟨hne, hblank⟩ := hw
  have hdrop : (w ++ ' ' :: rest).dropWhile isspace = w ++ ' ' :: rest := by
    cases w with
    | nil => exact absurd rfl hne
    | cons c w =>
      rw [List.cons_append, List.dropWhile_cons_of_neg]
      simp [hblank c List.mem_cons_self]
  have hall : ∀ c ∈ w, (!isspace c) = true := fun c hc => by rw [hblank c hc]; rfl
  have hspace : isspace ' ' = true := by decide
  have htake : (w ++ ' ' :: rest).takeWhile (!isspace ·) = w := by
    rw [List.takeWhile_append_of_pos hall, List.takeWhile_cons_of_neg (by simp [hspace]),
      List.append_nil]
  have hleft : (w ++ ' ' :: rest).dropWhile (!isspace ·) = ' ' :: rest := by
    rw [List.dropWhile_append_of_pos hall, List.dropWhile_cons_of_neg (by simp [hspace])]
  have hscan : scanWord (w ++ ' ' :: rest) = some (w, ' ' :: rest) := by
    simp only [scanWord, hdrop, htake, hleft, List.append_eq_nil_iff, reduceCtorEq, and_false,
      if_false]
  refine ⟨hscan, ?_⟩
  rw [← hscan, scanWord, scanWord, List.dropWhile_cons_of_pos hspace]

theorem sscanf_d_blank (t : CStr) (x : BitVec 32) : sscanf_d (' ' :: t) x = sscanf_d t x := by
  have hdrop : (' ' :: t).dropWhile isspace = t.dropWhile isspace :=
    List.dropWhile_cons_of_pos (by decide)
  simp only [sscanf_d, scanNumber, hdrop]

theorem sscanfName_nameText (r : StaticRoute) :
    sscanfName (nameText pEntry) r =
      ⟨addrText pEntry.DestIPAddress, addrText pEntry.DestSubnetMask,
        addrText pEntry.GatewayIPAddress, pEntry.ForwardingMetric, r.dest_intf⟩ := by
  unfold sscanfName nameText
  rw [(scanWord_append (addrText_word pEntry.DestIPAddress)).1]
  simp only [(scanWord_append (addrText_word pEntry.DestSubnetMask)).2,
    (scanWord_append (addrText_word pEntry.GatewayIPAddress)).2]
  rw [sscanf_d_blank, sscanf_d_intText]

theorem saveEntry_alias (store : Store CStr CStr) (n : ℕ) :
    saveEntry pEntry store (aliasKey n) =
      if n = pEntry.InstanceNumber then some pEntry.Alias else store (aliasKey n) := by
  simp [saveEntry, setAll, KeyStore.set, Function.update_apply, aliasKey_ne_nameKey,
    aliasKey_ne_enabledKey]

theorem saveEntry_name (store : Store CStr CStr) (n : ℕ) :
    saveEntry pEntry store (nameKey n) =
      if n = pEntry.InstanceNumber then some (nameText pEntry) else store (nameKey n) := by
  have hlen := length_nameText_le pEntry
  have hfits : (Buf.snprintf (nameText pEntry) : Buf 80).text = nameText pEntry :=
    Buf.text_snprintf_of_lt (by omega)
  simp [saveEntry, setAll, KeyStore.set, Function.update_apply, nameKey_ne_enabledKey,
    (aliasKey_ne_nameKey _ _).symm, hfits]

theorem saveEntry_enabled (store : Store CStr CStr) (n : ℕ) :
    saveEntry pEntry store (enabledKey n) =
      if n = pEntry.InstanceNumber then some (flagText pEntry.Enable)
      else store (enabledKey n) := by
  simp [saveEntry, setAll, KeyStore.set, Function.update_apply, (nameKey_ne_enabledKey _ _).symm,
    (aliasKey_ne_enabledKey _ _).symm]

end CcspPandM.RoutingV4
