import CcspPandM.LanHosts
import CcspPandM.Runs

/-!
The devices that the switch lists for an Ethernet port. A poll counts those of the port
and then looks for the first, the second and so on; the addresses go to an array of fixed
size. A list of addresses is also printed as one text, with commas in between, into a
buffer that has room for the addresses alone. A write outside an array has no result.
-/
namespace CcspPandM.EthAssociations

open CString LanHosts Runs

def ETH_INTERFACE_MAX_ASSOC_DEVICES : ℕ := 256

def MACADDR_SZ : ℕ := 18

structure eth_device_t where
  eth_port : BitVec 32
  eth_devMacAddress : Mac

/-- What the HAL returns; an array of so many bytes is no longer addressed. -/
structure Devices where
  eth_device : List eth_device_t
  length_lt : eth_device.length < 2 ^ 31

/-- The fields of a `COSA_DML_ETH_PORT_FULL` that a poll writes. -/
structure Port where
  AssocDevicesCount : ULONG
  AssocClient : Fin ETH_INTERFACE_MAX_ASSOC_DEVICES → Buf MACADDR_SZ

def Port.setClient (p : Port) (i : ℕ) (t : CStr) : Option Port :=
  if h : i < ETH_INTERFACE_MAX_ASSOC_DEVICES ∧ t.length < MACADDR_SZ then
    some { p with AssocClient := Function.update p.AssocClient ⟨i, h.1⟩ (⟨t, h.2⟩ : Buf _) }
  else none

/-- `"%02X:%02X:%02X:%02X:%02X:%02X"`. -/
def upperText (m : Mac) : CStr := (octetsText (List.ofFn m)).map Char.toUpper

section Poll

variable (PortId : ULONG)

def ethGetClientsCount (eth_device : List eth_device_t) : ℕ :=
  eth_device.foldl (fun count_client d =>
    if PortId = d.eth_port then count_client + 1 else count_client) 0

def ethGetClientMacDetails (client_num : ℕ) : ℕ → List eth_device_t → Option CStr
  | _, [] => none
  | isClient, d :: ds =>
    if PortId.toInt = d.eth_port.toInt then
      if isClient + 1 = client_num then some (upperText d.eth_devMacAddress)
      else ethGetClientMacDetails client_num (isClient + 1) ds
    else ethGetClientMacDetails client_num isClient ds

/-- The loop over the clients from number `i + 1` on. -/
def fillClients (eth_device : List eth_device_t) : ℕ → ℕ → Port → Option Port
  | _, 0, p => some p
  | i, n + 1, p =>
    match ethGetClientMacDetails PortId (i + 1) 0 eth_device with
    | none => fillClients eth_device (i + 1) n p
    | some t => (p.setClient i t).bind (fillClients eth_device (i + 1) n)

def CosaDmlEthPortGetClientMac (p : Port) : Option Devices → Option (Bool × Port)
  | none => some (false, p)
  | some hal =>
    if hal.eth_device.length ≠ 0 then
      let ulNumClients := ethGetClientsCount PortId hal.eth_device
      (fillClients PortId hal.eth_device 0 ulNumClients
        { p with AssocDevicesCount := BitVec.ofNat 32 ulNumClients }).map (true, ·)
    else some (true, p)

def poll (p : Port) (hal : Devices) : Option Port :=
  (CosaDmlEthPortGetClientMac PortId p (some hal)).map Prod.snd

def listed (hal : Devices) : List CStr :=
  (hal.eth_device.filter (·.eth_port = PortId)).map fun d => upperText d.eth_devMacAddress

structure Shows (hal : Devices) (p : Port) : Prop where
  count : p.AssocDevicesCount.toNat = (listed PortId hal).length
  few : p.AssocDevicesCount.toNat ≤ ETH_INTERFACE_MAX_ASSOC_DEVICES
  rows : (List.ofFn fun i => (p.AssocClient i).text).take p.AssocDevicesCount.toNat =
    listed PortId hal

/-- The rows suffice, and an empty list does not follow on a list with clients. -/
def Fits (p : Port) (hal : Devices) : Prop :=
  (listed PortId hal).length ≤ ETH_INTERFACE_MAX_ASSOC_DEVICES ∧
    (hal.eth_device = [] → p.AssocDevicesCount = 0)

end Poll

section Text

/-- `sprintf` behind a text, its end included. -/
def printBehind (size : ℕ) (maclist t : CStr) : Option CStr :=
  if maclist.length + t.length < size then some (maclist ++ t) else none

def separated (size i : ℕ) (maclist : CStr) : Option CStr :=
  if 0 < i then if maclist.length < size then some (maclist ++ [',']) else none
  else some maclist

def assocLoop (size : ℕ) : ℕ → ℕ → List Mac → CStr → Option CStr
  | _, 0, _, maclist => some maclist
  | _, _ + 1, [], _ => none
  | i, n + 1, m :: mac, maclist => do
    let maclist ← separated size i maclist
    let maclist ← printBehind size maclist (octetsText (List.ofFn m))
    assocLoop size (i + 1) n mac maclist

def CosaEthPortGetAssocDevices (size : ℕ) (mac : List Mac) (numMacAddr : ℤ) : Option CStr :=
  if 0 < size then assocLoop size 0 numMacAddr.toNat mac [] else none

/-- `assocDeviceMacList[(17 * ETH_INTERFACE_MAX_ASSOC_DEVICES) + 1]` of the caller. -/
def assocDeviceMacListSize : ℕ := 17 * ETH_INTERFACE_MAX_ASSOC_DEVICES + 1

/-- So many addresses are printed into the buffer of the caller, with commas in between. -/
def Prints (AssocDevices : Fin ETH_INTERFACE_MAX_ASSOC_DEVICES → Mac) (count : ℕ) : Prop :=
  CosaEthPortGetAssocDevices assocDeviceMacListSize (List.ofFn AssocDevices) count =
    some ([','].intercalate (((List.ofFn AssocDevices).take count).map fun m =>
      octetsText (List.ofFn m)))

end Text

theorem length_octetsText (m : Mac) : (octetsText (List.ofFn m)).length = 17 := rfl

theorem length_upperText (m : Mac) : (upperText m).length = 17 := rfl

section Search

variable (PortId : ULONG)

theorem clientsCount_eq (ds : List eth_device_t) :
    ethGetClientsCount PortId ds = (ds.filter (·.eth_port = PortId)).length := by
  have hloop (c : ℕ) : ds.foldl (fun count_client d =>
      if PortId = d.eth_port then count_client + 1 else count_client) c =
      c + (ds.filter (·.eth_port = PortId)).length := by
    induction ds generalizing c with
    | nil => rfl
    | cons d ds ih =>
      rw [List.foldl_cons, ih]
      by_cases hd : d.eth_port = PortId
      · rw [if_pos hd.symm, List.filter_cons_of_pos (by simpa using hd), List.length_cons]
        omega
      · rw [if_neg (Ne.symm hd), List.filter_cons_of_neg (by simpa using hd)]
  rw [ethGetClientsCount, hloop, Nat.zero_add]

theorem clientMacDetails_eq (ds : List eth_device_t) (k c : ℕ) :
    ethGetClientMacDetails PortId (c + k + 1) c ds =
      (ds.filter (·.eth_port = PortId))[k]?.map fun d => upperText d.eth_devMacAddress := by
  induction ds generalizing k c with
  | nil => rfl
  | cons d ds ih =>
    rw [ethGetClientMacDetails]
    by_cases hd : d.eth_port = PortId
    · rw [if_pos (congrArg BitVec.toInt hd.symm), List.filter_cons_of_pos (by simpa using hd)]
      cases k with
      | zero => rw [if_pos rfl]; rfl
      | succ k =>
        rw [if_neg (by omega), List.getElem?_cons_succ, ← ih k (c + 1)]
        congr 1
        omega
    · have hint : PortId.toInt ≠ d.eth_port.toInt := fun h => hd (BitVec.eq_of_toInt_eq h).symm
      rw [if_neg hint, List.filter_cons_of_neg (by simpa using hd), ih]

theorem details_of_lt (hal : Devices) {k : ℕ} (hk : k < (listed PortId hal).length) :
    ethGetClientMacDetails PortId (k + 1) 0 hal.eth_device = some ((listed PortId hal)[k]) := by
  have h := clientMacDetails_eq PortId hal.eth_device k 0
  rw [Nat.zero_add, ← List.getElem?_map] at h
  rw [h]
  exact List.getElem?_eq_getElem hk

theorem length_listed (hal : Devices) :
    (listed PortId hal).length = ethGetClientsCount PortId hal.eth_device := by
  rw [clientsCount_eq, listed, List.length_map]

theorem text_listed (hal : Devices) {t : CStr} (ht : t ∈ listed PortId hal) : t.length = 17 := by
  obtain ⟨d, -, rfl⟩ := List.mem_map.mp ht
  exact length_upperText _

end Search

section Rows

variable (PortId : ULONG)

theorem setClient_eq (p : Port) {i : ℕ} {t : CStr} (hi : i < ETH_INTERFACE_MAX_ASSOC_DEVICES)
    (ht : t.length = 17) : ∃ q, p.setClient i t = some q ∧
      q.AssocDevicesCount = p.AssocDevicesCount ∧ (q.AssocClient ⟨i, hi⟩).text = t ∧
      ∀ j, j.val ≠ i → q.AssocClient j = p.AssocClient j := by
  have hlt : t.length < MACADDR_SZ := by
    rw [ht]
    decide
  refine ⟨_, dif_pos ⟨hi, hlt⟩, rfl, ?_, fun j hj => ?_⟩
  · have hrow := Function.update_self (⟨i, hi⟩ : Fin ETH_INTERFACE_MAX_ASSOC_DEVICES)
      (⟨t, hlt⟩ : Buf MACADDR_SZ) p.AssocClient
    exact congrArg Subtype.val hrow
  · have hne : j ≠ ⟨i, hi⟩ := fun h => hj (congrArg Fin.val h)
    exact Function.update_of_ne hne _ _

theorem fillClients_rows (hal : Devices) {i n : ℕ} (p : Port)
    (hn : i + n = (listed PortId hal).length) (hfit : i + n ≤ ETH_INTERFACE_MAX_ASSOC_DEVICES) :
    ∃ q, fillClients PortId hal.eth_device i n p = some q ∧
      q.AssocDevicesCount = p.AssocDevicesCount ∧
      (∀ j, j.val < i → q.AssocClient j = p.AssocClient j) ∧
      ∀ j, i ≤ j.val → ∀ t, (listed PortId hal)[j.val]? = some t →
        (q.AssocClient j).text = t := by
  induction n generalizing i p with
  | zero =>
    refine ⟨p, rfl, rfl, fun _ _ => rfl, fun j hj t ht => ?_⟩
    have hlt := (List.getElem?_eq_some_iff.mp ht).1
    omega
  | succ n ih =>
    have hlt : i < (listed PortId hal).length := by omega
    have hi : i < ETH_INTERFACE_MAX_ASSOC_DEVICES := by omega
    obtain ⟨q, hq, hcount, hrow, hothers⟩ :=
      setClient_eq p hi (text_listed PortId hal (List.getElem_mem hlt))
    obtain ⟨r, hr, hrcount, hbefore, hbehind⟩ := ih (i := i + 1) q (by omega) (by omega)
    refine ⟨r, ?_, hrcount.trans hcount, fun j hj => ?_, fun j hj t ht => ?_⟩
    · rw [fillClients, details_of_lt PortId hal hlt]
      simp only [hq, Option.bind_some, hr]
    · rw [hbefore j (by omega), hothers j (by omega)]
    · rcases Nat.eq_or_lt_of_le hj with hij | hij
      · have hj' : j = ⟨i, hi⟩ := Fin.ext hij.symm
        subst hj'
        rw [hbefore _ (Nat.lt_succ_self i), hrow]
        rw [List.getElem?_eq_getElem hlt] at ht
        exact Option.some.inj ht
      · exact hbehind j hij t ht

theorem fillClients_overrun (hal : Devices) {i n : ℕ} (p : Port)
    (hn : i + n = (listed PortId hal).length) (hi : i ≤ ETH_INTERFACE_MAX_ASSOC_DEVICES)
    (hover : ETH_INTERFACE_MAX_ASSOC_DEVICES < i + n) :
    fillClients PortId hal.eth_device i n p = none := by
  induction n generalizing i p with
  | zero => omega
  | succ n ih =>
    have hlt : i < (listed PortId hal).length := by omega
    rw [fillClients, details_of_lt PortId hal hlt]
    by_cases hend : i = ETH_INTERFACE_MAX_ASSOC_DEVICES
    · have hnone : p.setClient i (listed PortId hal)[i] = none :=
        dif_neg fun h => absurd hend (Nat.ne_of_lt h.1)
      simp only [hnone, Option.bind_none]
    · have hlast : i < ETH_INTERFACE_MAX_ASSOC_DEVICES := by omega
      obtain ⟨q, hq, -⟩ := setClient_eq p hlast (text_listed PortId hal (List.getElem_mem hlt))
      simp only [hq, Option.bind_some]
      exact ih q (by omega) (by omega) (by omega)

theorem take_ofFn {n : ℕ} {rows : Fin n → CStr} {l : List CStr} (hl : l.length ≤ n)
    (h : ∀ j, ∀ t, l[j.val]? = some t → rows j = t) : (List.ofFn rows).take l.length = l := by
  apply List.ext_getElem
  · rw [List.length_take, List.length_ofFn, Nat.min_eq_left hl]
  · intro k hk hkl
    rw [List.getElem_take, List.getElem_ofFn]
    exact h _ _ (List.getElem?_eq_getElem hkl)

theorem poll_shows_iff (p : Port) (hal : Devices) :
    (∃ q, poll PortId p hal = some q ∧ Shows PortId hal q) ↔ Fits PortId p hal := by
  have hlen : (listed PortId hal).length < 2 ^ 32 := by
    have hle := List.length_filter_le (fun d : eth_device_t => d.eth_port = PortId) hal.eth_device
    have hlt := hal.length_lt
    rw [listed, List.length_map]
    omega
  rw [poll, CosaDmlEthPortGetClientMac]
  by_cases hempty : hal.eth_device = []
  · have hnone : listed PortId hal = [] := by rw [listed, hempty]; rfl
    simp only [hempty, List.length_nil, ne_eq, not_true_eq_false, if_false, Option.map_some,
      Fits, hnone]
    constructor
    · rintro ⟨q, hq, hcount, -, -⟩
      obtain rfl := Option.some.inj hq
      rw [hnone] at hcount
      exact ⟨Nat.zero_le _, fun _ => BitVec.eq_of_toNat_eq hcount⟩
    · rintro ⟨-, hzero⟩
      have hcount := congrArg BitVec.toNat (hzero trivial)
      refine ⟨p, rfl, ?_, ?_, ?_⟩
      · rw [hcount, hnone]
        rfl
      · rw [hcount]
        exact Nat.zero_le _
      · rw [hcount, hnone]
        rfl
  · have hsome : hal.eth_device.length ≠ 0 := fun h => hempty (List.length_eq_zero_iff.mp h)
    simp only [if_pos hsome, ← length_listed, Option.map_map]
    have hcount : (BitVec.ofNat 32 (listed PortId hal).length).toNat =
        (listed PortId hal).length := by rw [BitVec.toNat_ofNat, Nat.mod_eq_of_lt hlen]
    by_cases hfew : (listed PortId hal).length ≤ ETH_INTERFACE_MAX_ASSOC_DEVICES
    · refine iff_of_true ?_ ⟨hfew, fun h => absurd h hempty⟩
      obtain ⟨q, hq, hqcount, -, hrows⟩ := fillClients_rows PortId hal
        { p with AssocDevicesCount := BitVec.ofNat 32 (listed PortId hal).length }
        (Nat.zero_add _) (by omega)
      rw [hq]
      have hcount' : q.AssocDevicesCount.toNat = (listed PortId hal).length := by
        rw [hqcount, hcount]
      refine ⟨q, rfl, hcount', hcount'.le.trans hfew, ?_⟩
      rw [hcount']
      exact take_ofFn hfew fun j => hrows j (Nat.zero_le _)
    · refine iff_of_false ?_ fun h => hfew h.1
      rw [fillClients_overrun PortId hal _ (Nat.zero_add _) (Nat.zero_le _) (by omega)]
      rintro ⟨q, hq, -⟩
      cases hq

end Rows

section Print

theorem intercalate_cons (t : CStr) (ts : List CStr) :
    [','].intercalate (t :: ts) = t ++ ts.flatMap (',' :: ·) := by
  induction ts generalizing t with
  | nil => simp
  | cons u ts ih => rw [List.intercalate_cons_cons, ih u, List.flatMap_cons]; simp

theorem assocLoop_eq {size i n : ℕ} {mac : List Mac} {maclist : CStr} (hi : 0 < i)
    (hlength : maclist.length + 1 = 18 * i) (hroom : 18 * i ≤ size) (hn : n ≤ mac.length) :
    assocLoop size i n mac maclist =
      if 18 * (i + n) ≤ size then
        some (maclist ++ ((mac.take n).map fun m => octetsText (List.ofFn m)).flatMap (',' :: ·))
      else none := by
  induction n generalizing i mac maclist with
  | zero =>
    rw [if_pos (by omega)]
    simp [assocLoop]
  | succ n ih =>
    cases mac with
    | nil => exact absurd hn (Nat.not_succ_le_zero n)
    | cons m mac =>
      have hcomma : separated size i maclist = some (maclist ++ [',']) := by
        rw [separated, if_pos hi, if_pos (by omega)]
      have hsix := length_octetsText m
      rw [assocLoop, hcomma]
      simp only [Option.bind_eq_bind, Option.bind_some, printBehind, List.length_append,
        List.length_singleton, hsix]
      by_cases hfits : maclist.length + 1 + 17 < size
      · have hnext : (maclist ++ [','] ++ octetsText (List.ofFn m)).length + 1 = 18 * (i + 1) := by
          rw [List.length_append, List.length_append, List.length_singleton, hsix]
          omega
        have hroom' : 18 * (i + 1) ≤ size := by omega
        rw [if_pos hfits, Option.bind_some,
          ih (Nat.succ_pos i) hnext hroom' (Nat.le_of_succ_le_succ hn)]
        have hiff : 18 * (i + 1 + n) ≤ size ↔ 18 * (i + (n + 1)) ≤ size := by omega
        simp only [hiff, List.take_succ_cons, List.map_cons, List.flatMap_cons,
          List.append_assoc, List.cons_append, List.nil_append]
      · rw [if_neg hfits, Option.bind_none, if_neg (by omega)]

theorem getAssocDevices_eq {size n : ℕ} {mac : List Mac} (hsize : 18 ≤ size)
    (hn : n ≤ mac.length) :
    CosaEthPortGetAssocDevices size mac n =
      if 18 * n ≤ size then
        some ([','].intercalate ((mac.take n).map fun m => octetsText (List.ofFn m)))
      else none := by
  rw [CosaEthPortGetAssocDevices, if_pos (by omega), Int.toNat_natCast]
  cases n with
  | zero =>
    rw [if_pos (Nat.zero_le _)]
    rfl
  | succ n =>
    cases mac with
    | nil => exact absurd hn (Nat.not_succ_le_zero n)
    | cons m mac =>
      have hfirst : printBehind size [] (octetsText (List.ofFn m)) =
          some (octetsText (List.ofFn m)) := if_pos (by rw [length_octetsText]; exact hsize)
      rw [assocLoop, separated, if_neg (Nat.lt_irrefl 0)]
      simp only [Option.bind_eq_bind, Option.bind_some, hfirst]
      rw [assocLoop_eq Nat.one_pos (by rw [length_octetsText]) hsize
        (Nat.le_of_succ_le_succ hn), Nat.add_comm 1 n, List.take_succ_cons, List.map_cons,
        intercalate_cons]

theorem prints_iff (AssocDevices : Fin ETH_INTERFACE_MAX_ASSOC_DEVICES → Mac) {count : ℕ}
    (hcount : count ≤ ETH_INTERFACE_MAX_ASSOC_DEVICES) :
    Prints AssocDevices count ↔ count ≤ 241 := by
  have hsize : assocDeviceMacListSize = 4353 := rfl
  rw [Prints, getAssocDevices_eq (by omega) (by rw [List.length_ofFn]; exact hcount)]
  constructor
  · intro h
    by_contra hover
    rw [if_neg (by omega)] at h
    cases h
  · intro hfew
    exact if_pos (by omega)

end Print

/-- The polls of a port show what each list has for it, as long as the rows suffice and no
empty list follows on clients; and the text is printed for up to 241 addresses. -/
theorem associations_right_iff (PortId : ULONG) (p : Port) (polls : List Devices)
    (AssocDevices : Fin ETH_INTERFACE_MAX_ASSOC_DEVICES → Mac)
    (count : Fin (ETH_INTERFACE_MAX_ASSOC_DEVICES + 1)) :
    (Does (poll PortId) (fun _ hal q => Shows PortId hal q) p polls ↔
      StepsMeet (poll PortId) (Fits PortId) p polls) ∧
      (Prints AssocDevices count ↔ count.val ≤ 241) := by
  constructor
  · exact does_iff (poll PortId) (fun _ => True) (fun p hal _ _ => poll_shows_iff PortId p hal)
      (fun _ _ _ _ _ _ _ => trivial) trivial (stepsMeet_true _ p polls)
  · exact prints_iff AssocDevices (Nat.le_of_lt_succ count.isLt)

section Unplugged

def laptop : eth_device_t where
  eth_port := 1
  eth_devMacAddress := fun _ => 0x50

def plugged : Devices := ⟨[laptop], by decide⟩

def unplugged : Devices := ⟨[], by decide⟩

def noClients : Port := ⟨0, fun _ => ⟨[], by decide⟩⟩

/-- The only device goes and stays listed; and 242 addresses overrun the buffer. -/
theorem device_kept : ¬ (Does (poll 1) (fun _ hal q => Shows 1 hal q) noClients
    [plugged, unplugged] ∧ Prints (fun _ => laptop.eth_devMacAddress) 242) ∧
    ¬ Prints (fun _ => laptop.eth_devMacAddress) 242 := by
  refine ⟨?_, fun h => ?_⟩
  · rintro ⟨⟨q, -, hq, r, hr, hshows, -⟩, -⟩
    have hcount : q.AssocDevicesCount = 1 := BitVec.eq_of_toNat_eq hq.count
    obtain rfl : q = r := Option.some.inj hr
    have hzero := hshows.count
    rw [hcount] at hzero
    exact absurd hzero (by decide)
  · exact absurd ((prints_iff _ (by decide)).mp h) (by decide)

end Unplugged

end CcspPandM.EthAssociations
