import Mathlib.Data.List.Infix
import CcspPandM.CString

/-!
The name servers of the DNS client. The slots of the backend are looked through in
order, and the list has room for all slots up to the last that is not empty. A slot
before that one which is no address gives the list away, with the loop behind it and
the entries that were found before it still counted.
-/
namespace CcspPandM.DnsServers

open CString

inductive AddressSource where
  | COSA_DML_DNS_ADDR_SRC_DHCPV4
  | COSA_DML_DNS_ADDR_SRC_DHCPV6
  deriving DecidableEq

open AddressSource

structure COSA_DML_DNS_CLIENT_SERVER where
  InstanceNumber : ℕ
  bEnabled : Bool
  DNSServer : Buf 64
  type : AddressSource
  Order : ℕ
  deriving DecidableEq

section Code

/-- A colon decides before a dot; a text with neither is no address. -/
def CHECK_V4_V6 (str : Buf 64) : Option AddressSource :=
  if ':' ∈ str.text then some COSA_DML_DNS_ADDR_SRC_DHCPV6
  else if '.' ∈ str.text then some COSA_DML_DNS_ADDR_SRC_DHCPV4
  else none

variable (slots : List (Buf 64))

/-- The number of slots up to the last one that is not empty. -/
def usedCount : ℕ → ℕ
  | 0 => 0
  | i + 1 => if slots[i]?.map Buf.text = some [] then usedCount i else i + 1

def serverAt (i : ℕ) (type : AddressSource) (server : Buf 64) : COSA_DML_DNS_CLIENT_SERVER :=
  ⟨1 + i, true, server, type, 1 + i⟩

/-- The loop over the slots; `i` is the number of entries. A slot that is no address frees
the list and sets the bound of the loop to zero, and the count is `i` in both cases. -/
def fillServers (pServer : List COSA_DML_DNS_CLIENT_SERVER) :
    List (Buf 64) → Option (List COSA_DML_DNS_CLIENT_SERVER) × ℕ
  | [] => (some pServer, pServer.length)
  | slot :: rest =>
    match CHECK_V4_V6 slot with
    | some type => fillServers (pServer ++ [serverAt pServer.length type slot]) rest
    | none => (none, pServer.length)

def CosaDmlDnsClientGetServers :
    Option (List COSA_DML_DNS_CLIENT_SERVER) × ℕ :=
  let pulCount := usedCount slots slots.length
  if pulCount = 0 then (none, 0) else fillServers [] (slots.take pulCount)

/-- One entry of the table: it is copied when it has the number, and success is set for it
in any case. -/
def getRound (st : Bool × COSA_DML_DNS_CLIENT_SERVER) (server : COSA_DML_DNS_CLIENT_SERVER) :
    Bool × COSA_DML_DNS_CLIENT_SERVER :=
  (true, if server.InstanceNumber = st.2.InstanceNumber then server else st.2)

def CosaDmlDnsClientGetServer (pEntry : COSA_DML_DNS_CLIENT_SERVER) :
    Bool × COSA_DML_DNS_CLIENT_SERVER :=
  match CosaDmlDnsClientGetServers slots with
  | (none, _) => (false, pEntry)
  | (some pTable, count) => (pTable.take count).foldl getRound (false, pEntry)

end Code

section Servers

def addresses (slots : List (Buf 64)) : List (AddressSource × Buf 64) :=
  slots.filterMap fun slot => (CHECK_V4_V6 slot).map fun type => (type, slot)

def serversOf (as : List (AddressSource × Buf 64)) : List COSA_DML_DNS_CLIENT_SERVER :=
  as.mapIdx fun i a => serverAt i a.1 a.2

/-- The list is that of the addresses, and its length is the count; no list stands for the
empty one. -/
structure ListsServers (slots : List (Buf 64)) : Prop where
  servers : (CosaDmlDnsClientGetServers slots).1.getD [] = serversOf (addresses slots)
  count : (CosaDmlDnsClientGetServers slots).2 = (addresses slots).length

/-- An entry is copied when the list has its number, and only then there is success. -/
def GetsServer (slots : List (Buf 64)) (pEntry : COSA_DML_DNS_CLIENT_SERVER) : Prop :=
  CosaDmlDnsClientGetServer slots pEntry =
    match (serversOf (addresses slots)).find? (·.InstanceNumber = pEntry.InstanceNumber) with
    | some server => (true, server)
    | none => (false, pEntry)

/-- The slots are addresses first and empty from there on. -/
def Packed (slots : List (Buf 64)) : Prop :=
  ∃ front back, slots = front ++ back ∧ (∀ slot ∈ front, (CHECK_V4_V6 slot).isSome) ∧
    ∀ slot ∈ back, slot.text = []

end Servers

section Filling

variable {slots : List (Buf 64)}

theorem check_empty {slot : Buf 64} (h : slot.text = []) : CHECK_V4_V6 slot = none := by
  rw [CHECK_V4_V6, h, if_neg List.not_mem_nil, if_neg List.not_mem_nil]

theorem length_serversOf (as : List (AddressSource × Buf 64)) :
    (serversOf as).length = as.length :=
  List.length_mapIdx

theorem serversOf_concat (as : List (AddressSource × Buf 64)) (a : AddressSource × Buf 64) :
    serversOf (as ++ [a]) = serversOf as ++ [serverAt as.length a.1 a.2] := by
  rw [serversOf, List.mapIdx_append, serversOf]
  simp only [List.mapIdx_cons, List.mapIdx_nil, Nat.zero_add]

theorem fillServers_addresses (as : List (AddressSource × Buf 64))
    (h : ∀ slot ∈ slots, (CHECK_V4_V6 slot).isSome) :
    fillServers (serversOf as) slots = (some (serversOf (as ++ addresses slots)),
      (as ++ addresses slots).length) := by
  induction slots generalizing as with
  | nil => rw [fillServers, addresses, List.filterMap_nil, List.append_nil, length_serversOf]
  | cons slot rest ih =>
    obtain ⟨hslot, hrest⟩ := List.forall_mem_cons.mp h
    obtain ⟨type, htype⟩ := Option.isSome_iff_exists.mp hslot
    have haddresses : addresses (slot :: rest) = (type, slot) :: addresses rest := by
      rw [addresses, List.filterMap_cons, htype]
      rfl
    rw [fillServers, htype, haddresses]
    dsimp only
    rw [length_serversOf, ← serversOf_concat as (type, slot), ih _ hrest, List.append_assoc,
      List.singleton_append]

theorem fillServers_other {front back : List (Buf 64)} {slot : Buf 64}
    (as : List (AddressSource × Buf 64)) (hfront : ∀ s ∈ front, (CHECK_V4_V6 s).isSome)
    (hslot : CHECK_V4_V6 slot = none) :
    fillServers (serversOf as) (front ++ slot :: back) =
      (none, (as ++ addresses front).length) := by
  induction front generalizing as with
  | nil =>
    rw [List.nil_append, fillServers, hslot, addresses, List.filterMap_nil, List.append_nil,
      length_serversOf]
  | cons first rest ih =>
    obtain ⟨hfirst, hrest⟩ := List.forall_mem_cons.mp hfront
    obtain ⟨type, htype⟩ := Option.isSome_iff_exists.mp hfirst
    have haddresses : addresses (first :: rest) = (type, first) :: addresses rest := by
      rw [addresses, List.filterMap_cons, htype]
      rfl
    rw [List.cons_append, fillServers, htype, haddresses]
    dsimp only
    rw [length_serversOf, ← serversOf_concat as (type, first), ih _ hrest, List.append_assoc,
      List.singleton_append]

theorem usedCount_spec {n : ℕ} (hn : n ≤ slots.length) :
    usedCount slots n ≤ n ∧
      (∀ slot ∈ (slots.take n).drop (usedCount slots n), slot.text = []) ∧
      (0 < usedCount slots n → slots[usedCount slots n - 1]?.map Buf.text ≠ some []) := by
  induction n with
  | zero => exact ⟨le_refl _, fun slot hslot => by simp [usedCount] at hslot, fun h => by cases h⟩
  | succ n ih =>
    obtain ⟨hle, hempty, hlast⟩ := ih (by omega)
    rw [usedCount]
    split
    · rename_i hslot
      refine ⟨by omega, ?_, hlast⟩
      intro slot hmem
      have hlt : n < slots.length := by omega
      have hget : slots[n]? = some slots[n] := List.getElem?_eq_getElem hlt
      rw [List.take_add_one, List.drop_append_of_le_length
        (by rw [List.length_take]; omega), List.mem_append, hget] at hmem
      rcases hmem with hmem | hmem
      · exact hempty slot hmem
      · rw [hget, Option.map_some, Option.some.injEq] at hslot
        rw [Option.toList_some, List.mem_singleton] at hmem
        rw [hmem, hslot]
    · rename_i hslot
      refine ⟨le_refl _, ?_, fun _ => hslot⟩
      intro slot hmem
      rw [List.drop_eq_nil_of_le (by rw [List.length_take]; omega)] at hmem
      cases hmem

end Filling

section Servers

variable {slots : List (Buf 64)}

theorem addresses_append (front back : List (Buf 64)) :
    addresses (front ++ back) = addresses front ++ addresses back :=
  List.filterMap_append

theorem addresses_empty {back : List (Buf 64)} (h : ∀ slot ∈ back, slot.text = []) :
    addresses back = [] := by
  apply List.filterMap_eq_nil_iff.mpr
  intro slot hslot
  rw [check_empty (h slot hslot), Option.map_none]

def used (slots : List (Buf 64)) : List (Buf 64) := slots.take (usedCount slots slots.length)

theorem used_spec (slots : List (Buf 64)) :
    ∃ back, slots = used slots ++ back ∧ (∀ slot ∈ back, slot.text = []) ∧
      ∀ last ∈ (used slots).getLast?, last.text ≠ [] := by
  obtain ⟨hle, hempty, hlast⟩ := usedCount_spec (le_refl slots.length)
  refine ⟨slots.drop (usedCount slots slots.length), (List.take_append_drop _ _).symm, ?_, ?_⟩
  · intro slot hslot
    rw [List.take_length] at hempty
    exact hempty slot hslot
  · intro last hmem
    rw [used, List.getLast?_take] at hmem
    split at hmem
    · cases hmem
    · rename_i hne
      have hlen : usedCount slots slots.length - 1 < slots.length := by omega
      have hget : slots[usedCount slots slots.length - 1]? = some last := by
        rw [List.getElem?_eq_getElem hlen, Option.some_or] at hmem
        rw [List.getElem?_eq_getElem hlen]
        exact hmem
      intro htext
      apply hlast (Nat.pos_of_ne_zero hne)
      rw [hget, Option.map_some, htext]

theorem addresses_used (slots : List (Buf 64)) : addresses slots = addresses (used slots) := by
  obtain ⟨back, hslots, hempty, -⟩ := used_spec slots
  have h := addresses_append (used slots) back
  rw [← hslots, addresses_empty hempty, List.append_nil] at h
  exact h

theorem getServers_addresses (h : ∀ slot ∈ used slots, (CHECK_V4_V6 slot).isSome) :
    CosaDmlDnsClientGetServers slots =
      (if used slots = [] then none else some (serversOf (addresses slots)),
        (addresses slots).length) := by
  have hused : usedCount slots slots.length = 0 ↔ used slots = [] := by
    have hle := (usedCount_spec (le_refl slots.length)).1
    rw [used, ← List.length_eq_zero_iff, List.length_take]
    omega
  rw [CosaDmlDnsClientGetServers]
  by_cases hzero : usedCount slots slots.length = 0
  · rw [addresses_used]
    simp only [if_pos hzero, hused.mp hzero, if_true]
    rfl
  · simp only [if_neg hzero, if_neg (mt hused.mpr hzero)]
    have hfill := fillServers_addresses [] h
    rw [List.nil_append, ← addresses_used] at hfill
    exact hfill

theorem getServers_other {front back : List (Buf 64)} {slot : Buf 64}
    (hused : used slots = front ++ slot :: back) (hfront : ∀ s ∈ front, (CHECK_V4_V6 s).isSome)
    (hslot : CHECK_V4_V6 slot = none) :
    CosaDmlDnsClientGetServers slots = (none, (addresses front).length) := by
  have hne : usedCount slots slots.length ≠ 0 := by
    intro hzero
    rw [used, hzero, List.take_zero] at hused
    exact absurd hused.symm (List.append_ne_nil_of_right_ne_nil _ (List.cons_ne_nil _ _))
  have hfill := @fillServers_other front back _ [] hfront hslot
  rw [CosaDmlDnsClientGetServers]
  simp only [if_neg hne]
  rw [← used, hused]
  exact hfill

theorem packed_of_addresses (h : ∀ slot ∈ used slots, (CHECK_V4_V6 slot).isSome) :
    Packed slots := by
  obtain ⟨back, hslots, hempty, -⟩ := used_spec slots
  exact ⟨used slots, back, hslots, h, hempty⟩

theorem addresses_of_packed (h : Packed slots) :
    ∀ slot ∈ used slots, (CHECK_V4_V6 slot).isSome := by
  obtain ⟨front, back, hslots, hfront, hback⟩ := h
  obtain ⟨rest, hused, hrest, hlast⟩ := used_spec slots
  rcases List.append_eq_append_iff.mp (hslots.symm.trans hused) with
    ⟨more, hmore, hbackeq⟩ | ⟨more, hmore, -⟩
  · rcases List.eq_nil_or_concat more with rfl | ⟨init, last, rfl⟩
    · rw [hmore, List.append_nil]
      exact hfront
    · rw [hmore, List.concat_eq_append, ← List.append_assoc, List.getLast?_concat] at hlast
      refine absurd (hback last ?_) (hlast last rfl)
      rw [hbackeq, List.concat_eq_append, List.append_assoc]
      exact List.mem_append_right _ List.mem_cons_self
  · intro slot hslot
    apply hfront slot
    rw [hmore]
    exact List.mem_append_left _ hslot

theorem exists_other (h : ¬ ∀ slot ∈ used slots, (CHECK_V4_V6 slot).isSome) :
    ∃ front slot back, used slots = front ++ slot :: back ∧
      (∀ s ∈ front, (CHECK_V4_V6 s).isSome) ∧ CHECK_V4_V6 slot = none := by
  have hany : ((used slots).find? fun slot => (CHECK_V4_V6 slot).isNone).isSome := by
    rw [List.find?_isSome]
    simpa using h
  obtain ⟨slot, hfind⟩ := Option.isSome_iff_exists.mp hany
  obtain ⟨hnone, front, back, hused, hfront⟩ := List.find?_eq_some_iff_append.mp hfind
  refine ⟨front, slot, back, hused, ?_, by simpa using hnone⟩
  intro s hs
  have hs := hfront s hs
  rwa [Bool.not_eq_true', ← Bool.not_eq_true, Option.isNone_iff_eq_none, ← ne_eq,
    ← Option.isSome_iff_ne_none] at hs

theorem listsServers_iff (slots : List (Buf 64)) :
    ListsServers slots ↔ addresses slots = [] ∨ Packed slots := by
  by_cases hall : ∀ slot ∈ used slots, (CHECK_V4_V6 slot).isSome
  · have hget := getServers_addresses hall
    refine ⟨fun _ => Or.inr (packed_of_addresses hall), fun _ => ⟨?_, by rw [hget]⟩⟩
    rw [hget]
    split
    · rename_i hnil
      rw [addresses_used, hnil]
      rfl
    · rfl
  · obtain ⟨front, slot, back, hused, hfront, hslot⟩ := exists_other hall
    have hget := getServers_other hused hfront hslot
    constructor
    · intro h
      have hservers := h.servers
      rw [hget, Option.getD_none] at hservers
      have hlength := congrArg List.length hservers
      rw [length_serversOf, List.length_nil] at hlength
      exact Or.inl (List.length_eq_zero_iff.mp hlength.symm)
    · rintro (hnil | hpacked)
      · have hfrontnil : addresses front = [] := by
          rw [addresses_used, hused, addresses_append, List.append_eq_nil_iff] at hnil
          exact hnil.1
        refine ⟨?_, ?_⟩
        · rw [hget, hnil]
          rfl
        · rw [hget, hfrontnil, hnil]
      · exact absurd (addresses_of_packed hpacked) hall

end Servers

section Getting

variable {slots : List (Buf 64)} {pEntry : COSA_DML_DNS_CLIENT_SERVER}

theorem foldl_getRound {l : List COSA_DML_DNS_CLIENT_SERVER}
    (h : (l.map (·.InstanceNumber)).Nodup) (st : Bool × COSA_DML_DNS_CLIENT_SERVER) :
    l.foldl getRound st = (st.1 || !l.isEmpty,
      (l.find? (·.InstanceNumber = st.2.InstanceNumber)).getD st.2) := by
  induction l generalizing st with
  | nil => simp
  | cons server rest ih =>
    rw [List.map_cons, List.nodup_cons] at h
    rw [List.foldl_cons, ih h.2, getRound, List.isEmpty_cons, Bool.true_or, Bool.not_false,
      Bool.or_true]
    by_cases hnum : server.InstanceNumber = st.2.InstanceNumber
    · have hrest : rest.find? (·.InstanceNumber = server.InstanceNumber) = none := by
        apply List.find?_eq_none.mpr
        intro other hother hsame
        apply h.1
        rw [← of_decide_eq_true hsame]
        exact List.mem_map_of_mem hother
      simp only [if_pos hnum, hrest]
      rw [List.find?_cons, decide_eq_true hnum]
      rfl
    · simp only [if_neg hnum]
      rw [List.find?_cons, decide_eq_false hnum]

theorem numbers_serversOf (as : List (AddressSource × Buf 64)) :
    (serversOf as).map (·.InstanceNumber) = List.range' 1 as.length := by
  apply List.ext_getElem
  · simp [serversOf]
  · intro i _ _
    simp [serversOf, serverAt]

def Numbered (slots : List (Buf 64)) (pEntry : COSA_DML_DNS_CLIENT_SERVER) : Prop :=
  1 ≤ pEntry.InstanceNumber ∧ pEntry.InstanceNumber ≤ (addresses slots).length

theorem find_isSome_iff : ((serversOf (addresses slots)).find?
    (·.InstanceNumber = pEntry.InstanceNumber)).isSome ↔ Numbered slots pEntry := by
  have hmem : pEntry.InstanceNumber ∈ (serversOf (addresses slots)).map (·.InstanceNumber) ↔
      Numbered slots pEntry := by
    rw [numbers_serversOf, List.mem_range'_1, Numbered]
    omega
  rw [← hmem, List.find?_isSome, List.mem_map]
  simp only [decide_eq_true_eq]

theorem getsServer_iff (slots : List (Buf 64)) (pEntry : COSA_DML_DNS_CLIENT_SERVER) :
    GetsServer slots pEntry ↔ addresses slots = [] ∨ (Packed slots ↔ Numbered slots pEntry) := by
  have hnodup : ((serversOf (addresses slots)).map (·.InstanceNumber)).Nodup := by
    rw [numbers_serversOf]
    exact List.nodup_range'
  have hsome := @find_isSome_iff slots pEntry
  rw [GetsServer, CosaDmlDnsClientGetServer]
  by_cases hall : ∀ slot ∈ used slots, (CHECK_V4_V6 slot).isSome
  · rw [getServers_addresses hall, iff_true_left (packed_of_addresses hall)]
    by_cases hnil : used slots = []
    · have haddresses : addresses slots = [] := by rw [addresses_used, hnil]; rfl
      rw [if_pos hnil, haddresses]
      exact ⟨fun _ => Or.inl rfl, fun _ => rfl⟩
    · rw [if_neg hnil]
      dsimp only
      rw [List.take_of_length_le (length_serversOf _).le, foldl_getRound hnodup, ← hsome]
      cases hfind : (serversOf (addresses slots)).find?
          (·.InstanceNumber = pEntry.InstanceNumber) with
      | none =>
        cases haddresses : addresses slots with
        | nil => simp [serversOf]
        | cons a as => simp [serversOf]
      | some server =>
        have hne : serversOf (addresses slots) ≠ [] := by
          intro h
          rw [h] at hfind
          cases hfind
        simp [hne]
  · obtain ⟨front, slot, back, hused, hfront, hslot⟩ := exists_other hall
    have hpacked : ¬ Packed slots := fun h => hall (addresses_of_packed h)
    rw [getServers_other hused hfront hslot, iff_false_left hpacked, ← hsome]
    dsimp only
    cases hfind : (serversOf (addresses slots)).find?
        (·.InstanceNumber = pEntry.InstanceNumber) with
    | none => simp
    | some server =>
      have hne : addresses slots ≠ [] := by
        intro h
        rw [h] at hfind
        cases hfind
      simp [hne]

end Getting

/-- When the list of servers is right, and when one is found in it. -/
theorem servers_right_iff (slots : List (Buf 64)) (pEntry : COSA_DML_DNS_CLIENT_SERVER) :
    (ListsServers slots ↔ addresses slots = [] ∨ Packed slots) ∧
      (GetsServer slots pEntry ↔
        addresses slots = [] ∨ (Packed slots ↔ Numbered slots pEntry)) :=
  ⟨listsServers_iff slots, getsServer_iff slots pEntry⟩

def slotOf (t : CStr) : Buf 64 := Buf.snprintf t

/-- An empty slot between two servers leaves a count of one without a list. -/
theorem gap_gives_list_away :
    ¬ ListsServers [slotOf "10.0.0.1".toList, slotOf [], slotOf "2001:db8::1".toList] := by
  rw [listsServers_iff]
  rintro (hnil | hpacked)
  · exact absurd hnil (by decide)
  · have hall := addresses_of_packed hpacked
    exact absurd (hall (slotOf []) (by decide)) (by decide)

end CcspPandM.DnsServers
