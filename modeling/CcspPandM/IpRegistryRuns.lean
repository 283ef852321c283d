import CcspPandM.IpRegistry
import CcspPandM.Runs

/-!
What a restart should restore: every entry that was recorded and not deleted, once and
under its interface, the committed ones of the backend, and the next numbers. The walk
over the folders is followed entry by entry; recording and deleting keep the folders
in step with the entries as long as no two of them print the same name.
-/
namespace CcspPandM.IpRegistryRuns

open CString IpRegistry KeyedList Registry Runs

inductive Kind where
  | interface
  | ipv4
  | ipv6
  | ipv6Prefix
  deriving DecidableEq, Repr

def Kind.preffix : Kind → CStr
  | .interface => COSA_DML_RR_NAME_IPIF_Prefix
  | .ipv4 => COSA_DML_RR_NAME_IPIF_IPV4_Prefix
  | .ipv6 => COSA_DML_RR_NAME_IPIF_IPV6_Prefix
  | .ipv6Prefix => COSA_DML_RR_NAME_IPIF_IPV6Pre_Prefix

def Kind.nextName : Kind → CStr
  | .interface => COSA_DML_RR_NAME_IPIF_NextInsNum
  | .ipv4 => COSA_DML_RR_NAME_IPIF_IPv4_NextInsNum
  | .ipv6 => COSA_DML_RR_NAME_IPIF_IPv6_NextInsNum
  | .ipv6Prefix => COSA_DML_RR_NAME_IPIF_IPv6Pre_NextInsNum

/-- A recorded entry; an interface has no interface above it. -/
structure Entry where
  kind : Kind
  upper : ULONG
  number : ULONG
  Alias : CStr
  deriving DecidableEq, Repr

def entryName (e : Entry) : CStr :=
  e.kind.preffix ++ decimal e.upper.toNat ++ decimal e.number.toNat

def itemsOf (i : Interface) : List (Entry × Bool) :=
  (⟨.interface, 0, i.InstanceNumber, i.Alias⟩, i.bNew) ::
    (i.IPV4List.map (fun c => (⟨.ipv4, i.InstanceNumber, c.InstanceNumber, c.Alias⟩, c.bNew)) ++
      i.IPV6List.map (fun c => (⟨.ipv6, i.InstanceNumber, c.InstanceNumber, c.Alias⟩, c.bNew)) ++
      i.IPV6PrefixList.map
        (fun c => (⟨.ipv6Prefix, i.InstanceNumber, c.InstanceNumber, c.Alias⟩, c.bNew)))

def items (list : List Interface) : List (Entry × Bool) := list.flatMap itemsOf

def backendItems (b : BackendInterface) : List (Entry × Bool) :=
  (⟨.interface, 0, b.InstanceNumber, b.Alias⟩, false) ::
    b.v4Addrs.map (fun a => (⟨.ipv4, b.InstanceNumber, a.1, a.2⟩, false))

structure Nexts where
  InstanceNumber : ULONG
  bNew : Bool
  ipv4 : ULONG
  ipv6 : ULONG
  ipv6Prefix : ULONG
  deriving DecidableEq, Repr

def nextsOf (i : Interface) : Nexts :=
  ⟨i.InstanceNumber, i.bNew, i.ulNextIPV4InsNum, i.ulNextIPV6InsNum, i.ulNextIPV6PreInsNum⟩

/-- The registry and the backend, with the entries and next numbers last recorded. -/
structure Tracked where
  cosa : Folder
  backend : List BackendInterface
  entries : List Entry
  next : Kind → ULONG → ULONG

def setNext (next : Kind → ULONG → ULONG) (k : Kind) (upper n : ULONG) : Kind → ULONG → ULONG :=
  fun k' upper' => if k' = k ∧ upper' = upper then n else next k' upper'

def backendNexts (next : Kind → ULONG → ULONG) (b : BackendInterface) : Nexts :=
  ⟨b.InstanceNumber, false, (b.v4Addrs.map Prod.fst).foldl advance (next .ipv4 b.InstanceNumber),
    next .ipv6 b.InstanceNumber, next .ipv6Prefix b.InstanceNumber⟩

def entryNexts (next : Kind → ULONG → ULONG) (e : Entry) : Nexts :=
  ⟨e.number, true, next .ipv4 e.number, next .ipv6 e.number, next .ipv6Prefix e.number⟩

def interfaces (entries : List Entry) : List Entry := entries.filter (·.kind = .interface)

structure Restores (t : Tracked) : Prop where
  entries : (items (CosaIPInitialize t.backend t.cosa).1.InterfaceList).Perm
    (t.backend.flatMap backendItems ++ t.entries.map (fun e => (e, true)))
  nextInterface : (CosaIPInitialize t.backend t.cosa).1.ulNextInterfaceInsNum =
    (t.backend.map BackendInterface.InstanceNumber).foldl advance (t.next .interface 0)
  nexts : ((CosaIPInitialize t.backend t.cosa).1.InterfaceList.map nextsOf).Perm
    (t.backend.map (backendNexts t.next) ++ (interfaces t.entries).map (entryNexts t.next))

inductive Call where
  | add (e : Entry) (ulNextInsNum : ULONG)
  | del (e : Entry)
  | commit (backend : List BackendInterface)
  | restart

def step (t : Tracked) : Call → Option Tracked
  | .add e n => some
    { cosa := t.cosa.AddFolder COSA_IREP_FOLDER_NAME_IPIF
        (CosaIPRegAddInfo e.kind.nextName n e.kind.preffix e.upper e.Alias e.number)
      backend := t.backend
      entries := t.entries ++ [e]
      next := setNext t.next e.kind e.upper n }
  | .del e => some
    { t with
      cosa := t.cosa.AddFolder COSA_IREP_FOLDER_NAME_IPIF
        (CosaIPRegDelInfo (folderName (entryName e)))
      entries := drop id t.entries e }
  | .commit backend => some { t with backend := backend }
  | .restart => some { t with cosa := (CosaIPInitialize t.backend t.cosa).2 }

/-- The promises of the callers: an entry is recorded once, an interface stands under no
other, an address or prefix under one that is committed or recorded; the names fit their
buffer, committed entries have numbers. -/
def Legal (t : Tracked) : Call → Prop
  | .add e _ => (∀ x ∈ t.entries, (x.kind, x.upper, x.number) ≠ (e.kind, e.upper, e.number)) ∧
      (e.kind = .interface → e.upper = 0) ∧
      (e.kind ≠ .interface → e.upper ∈ t.backend.map BackendInterface.InstanceNumber ++
        (interfaces t.entries).map Entry.number) ∧
      (entryName e).length < 32 ∧ (e.kind.nextName ++ decimal e.upper.toNat).length < 32
  | .del e => e ∈ t.entries
  | .commit backend => ∀ b ∈ backend, b.InstanceNumber ≠ 0 ∧ ∀ a ∈ b.v4Addrs, a.1 ≠ 0
  | .restart => True

/-- Every address and prefix finds its interface, with a number other than zero, among
the committed ones or the folders before its own. -/
def Attached : List ULONG → List Entry → Prop
  | _, [] => True
  | numbers, e :: rest =>
    if e.kind = .interface then Attached (e.number :: numbers) rest
    else e.upper ≠ 0 ∧ e.upper ∈ numbers ∧ Attached numbers rest

/-- The entries print different names and are attached, and what was recorded last as the
next number below an uncommitted interface is 1. -/
structure Clear (backend : List BackendInterface) (entries : List Entry)
    (next : Kind → ULONG → ULONG) : Prop where
  names : (entries.map entryName).Nodup
  attached : Attached (backend.map BackendInterface.InstanceNumber) entries
  nexts : ∀ e ∈ interfaces entries, ∀ k, k ≠ .interface → next k e.number = 1

/-- The condition on a call: what it leaves recorded is clear. -/
def Ok (t : Tracked) : Call → Prop
  | .add e n => Clear t.backend (t.entries ++ [e]) (setNext t.next e.kind e.upper n)
  | .del e => Clear t.backend (drop id t.entries e) t.next
  | .commit backend => Clear backend t.entries t.next
  | .restart => True

section Names

theorem infix_append_digits_iff {x p d : CStr} {c : Char} (hc : c.isDigit = false)
    (hd : ∀ a ∈ d, a.isDigit = true) : x ++ [c] <:+: p ++ d ↔ x ++ [c] <:+: p := by
  have hlast : c ∉ d := fun h => by simp [hd c h] at hc
  constructor
  · intro h
    rcases List.infix_append_iff.mp h with hp | hd | ⟨l, r, heq, hl, hr⟩
    · exact hp
    · exact absurd (hd.subset (by simp)) hlast
    · rcases List.eq_nil_or_concat r with rfl | ⟨r, b, rfl⟩
      · rw [List.append_nil] at heq
        exact heq ▸ hl.isInfix
      · rw [List.concat_eq_append] at heq hr
        rw [← List.append_assoc] at heq
        obtain ⟨-, hcb⟩ := List.append_inj' heq rfl
        have hb : c = b := by simpa using hcb
        exact absurd (hr.subset (by simp [hb])) hlast
  · exact fun h => List.infix_append_of_infix_left h

theorem digits_name (m n : ℕ) : ∀ a ∈ decimal m ++ decimal n, a.isDigit = true := by
  intro a ha
  rcases List.mem_append.mp ha with ha | ha
  · exact isDigit_of_mem_decimal ha
  · exact isDigit_of_mem_decimal ha

theorem preffix_chars :
    Kind.interface.preffix = ['I', 'P', 'I', 'n', 't', 'e', 'r', 'f', 'a', 'c'] ++ ['e'] ∧
    Kind.ipv4.preffix = ['I', 'P', 'V', '4', 'A', 'd', 'd', 'r', 'e', 's'] ++ ['s'] ∧
    Kind.ipv6.preffix = ['I', 'P', 'V', '6', 'A', 'd', 'd', 'r', 'e', 's'] ++ ['s'] ∧
    Kind.ipv6Prefix.preffix = ['I', 'P', 'V', '6', 'P', 'r', 'e', 'f', 'i'] ++ ['x'] := by
  decide

theorem preffix_infix_preffix_iff (k j : Kind) : k.preffix <:+: j.preffix ↔ k = j := by
  obtain ⟨h, h4, h6, hp⟩ := preffix_chars
  cases k <;> cases j <;> simp only [h, h4, h6, hp] <;> decide

theorem preffix_infix_iff (k : Kind) (e : Entry) : k.preffix <:+: entryName e ↔ k = e.kind := by
  rw [← preffix_infix_preffix_iff, entryName, List.append_assoc]
  have hdigits := digits_name e.upper.toNat e.number.toNat
  obtain ⟨h, h4, h6, hp⟩ := preffix_chars
  cases k with
  | interface =>
    rw [h]
    exact infix_append_digits_iff rfl hdigits
  | ipv4 =>
    rw [h4]
    exact infix_append_digits_iff rfl hdigits
  | ipv6 =>
    rw [h6]
    exact infix_append_digits_iff rfl hdigits
  | ipv6Prefix =>
    rw [hp]
    exact infix_append_digits_iff rfl hdigits

theorem folderName_of_lt {t : CStr} (h : t.length < 32) : folderName t = t :=
  Buf.text_sprintf_s_of_lt h

end Names

section Scanning

theorem items_push (list : List Interface) (i : Interface) :
    (items (pushEntryByInsNum Interface.InstanceNumber list i)).Perm (itemsOf i ++ items list) :=
  (List.perm_orderedInsert _ i list).flatMap_right itemsOf

theorem nextsOf_push (list : List Interface) (i : Interface) :
    ((pushEntryByInsNum Interface.InstanceNumber list i).map nextsOf).Perm
      (nextsOf i :: list.map nextsOf) :=
  (List.perm_orderedInsert _ i list).map nextsOf

variable (e : Entry)

theorem itemsOf_pushChild (hkind : e.kind ≠ .interface) (i : Interface)
    (hnumber : i.InstanceNumber = e.upper) :
    (itemsOf (pushChild (entryName e) ⟨e.number, e.Alias, true⟩ i)).Perm
      ((e, true) :: itemsOf i) := by
  have h4 : COSA_DML_RR_NAME_IPIF_IPV4_Prefix <:+: entryName e ↔ .ipv4 = e.kind :=
    preffix_infix_iff .ipv4 e
  have h6 : COSA_DML_RR_NAME_IPIF_IPV6_Prefix <:+: entryName e ↔ .ipv6 = e.kind :=
    preffix_infix_iff .ipv6 e
  have hp : COSA_DML_RR_NAME_IPIF_IPV6Pre_Prefix <:+: entryName e ↔ .ipv6Prefix = e.kind :=
    preffix_infix_iff .ipv6Prefix e
  simp only [pushChild, h4, h6, hp]
  obtain ⟨kind, upper, number, pAlias⟩ := e
  subst hnumber
  have hpush : ∀ (l : List Child) (c : Child) (g : Child → Entry × Bool),
      ((pushEntryByInsNum Child.InstanceNumber l c).map g).Perm (g c :: l.map g) :=
    fun l c g => (List.perm_orderedInsert _ c l).map g
  -- The new item moves to the front past the interface and the lists before it.
  cases kind with
  | interface => exact absurd rfl hkind
  | ipv4 =>
    apply List.Perm.trans _ (List.Perm.swap _ _ _)
    exact (((hpush _ _ _).append_right _).append_right _).cons _
  | ipv6 =>
    apply List.Perm.trans _ (List.Perm.swap _ _ _)
    exact ((((hpush _ _ _).append_left _).trans List.perm_middle).append_right _).cons _
  | ipv6Prefix =>
    apply List.Perm.trans _ (List.Perm.swap _ _ _)
    exact (((hpush _ _ _).append_left _).trans List.perm_middle).cons _

theorem items_modify {list : List Interface} {k : ℕ} {i : Interface} {x : Entry × Bool}
    {f : Interface → Interface} (h : list[k]? = some i)
    (hf : (itemsOf (f i)).Perm (x :: itemsOf i)) :
    (items (list.modify k f)).Perm (x :: items list) := by
  induction list generalizing k with
  | nil => cases h
  | cons a list ih =>
    cases k with
    | zero =>
      obtain rfl : a = i := by simpa using h
      exact hf.append_right (items list)
    | succ k =>
      have hlist : list[k]? = some i := by simpa using h
      exact ((ih hlist).append_left (itemsOf a)).trans List.perm_middle

theorem nextsOf_modify {f : Interface → Interface} (hf : ∀ i, nextsOf (f i) = nextsOf i)
    (list : List Interface) (k : ℕ) : (list.modify k f).map nextsOf = list.map nextsOf := by
  induction list generalizing k with
  | nil => simp
  | cons a list ih =>
    cases k with
    | zero => simp [hf]
    | succ k => simp [ih]

theorem parentIndex_eq {list : List Interface} {upper : ULONG}
    (h : upper ∈ list.map Interface.InstanceNumber) : ∃ k i, parentIndex list upper = some k ∧
      list[k]? = some i ∧ i.InstanceNumber = upper := by
  obtain ⟨i, hi, hnumber⟩ := List.mem_map.mp h
  have hne : list ≠ [] := List.ne_nil_of_mem hi
  cases hfind : list.findIdx? (fun i => i.InstanceNumber = upper) with
  | none =>
    have hall := List.findIdx?_eq_none_iff.mp hfind i hi
    simp [hnumber] at hall
  | some k =>
    obtain ⟨hlt, hk, -⟩ := List.findIdx?_eq_some_iff_getElem.mp hfind
    refine ⟨k, list[k], ?_, List.getElem?_eq_getElem hlt, by simpa using hk⟩
    rw [parentIndex, if_neg hne, hfind, Option.getD_some]

def entryFolder (e : Entry) : Folder :=
  let upper := if 0 ≠ e.upper then
    Folder.empty.AddRecord COSA_DML_RR_NAME_IPIF_Upper_InsNum (.uint32 e.upper) else Folder.empty
  (upper.AddRecord COSA_DML_RR_NAME_IPIF_InsNum (.uint32 e.number)).AddRecord
    COSA_DML_RR_NAME_IPIF_Alias (.string e.Alias)

theorem getUint32_InsNum :
    (entryFolder e).getUint32 COSA_DML_RR_NAME_IPIF_InsNum = some e.number := by
  have hne : COSA_DML_RR_NAME_IPIF_InsNum ≠ COSA_DML_RR_NAME_IPIF_Alias := by decide
  simp only [Folder.getUint32, entryFolder, Folder.GetRecord_AddRecord, if_neg hne, if_true]

theorem getString_Alias :
    (entryFolder e).getString COSA_DML_RR_NAME_IPIF_Alias = some e.Alias := by
  simp only [Folder.getString, entryFolder, Folder.GetRecord_AddRecord, if_true]

theorem getUint32_Upper_InsNum (h : e.upper ≠ 0) :
    (entryFolder e).getUint32 COSA_DML_RR_NAME_IPIF_Upper_InsNum = some e.upper := by
  have halias : COSA_DML_RR_NAME_IPIF_Upper_InsNum ≠ COSA_DML_RR_NAME_IPIF_Alias := by decide
  have hnumber : COSA_DML_RR_NAME_IPIF_Upper_InsNum ≠ COSA_DML_RR_NAME_IPIF_InsNum := by decide
  simp only [Folder.getUint32, entryFolder, if_pos h.symm, Folder.GetRecord_AddRecord,
    if_neg halias, if_neg hnumber, if_true]

def newInterface (e : Entry) : Interface :=
  ⟨e.number, e.Alias, true, [], [], [], 1, 1, 1⟩

theorem scanFolder_interface (st : Scan) (e : Entry) (h : e.kind = .interface) :
    scanFolder st (entryName e) (entryFolder e) = some ⟨pushEntryByInsNum
      Interface.InstanceNumber st.list (newInterface e), e.number, st.ulUpperInstanceNumber⟩ := by
  have hinfix : COSA_DML_RR_NAME_IPIF_Prefix <:+: entryName e :=
    (preffix_infix_iff .interface e).mpr h.symm
  rw [scanFolder, if_pos hinfix, getUint32_InsNum, getString_Alias]
  rfl

theorem scanFolder_child (st : Scan) (e : Entry) (h : e.kind ≠ .interface) (hzero : e.upper ≠ 0)
    {k : ℕ} (hk : parentIndex st.list e.upper = some k) :
    scanFolder st (entryName e) (entryFolder e) = some ⟨st.list.modify k
      (pushChild (entryName e) ⟨e.number, e.Alias, true⟩), e.number, e.upper⟩ := by
  have hinfix : ¬ COSA_DML_RR_NAME_IPIF_Prefix <:+: entryName e :=
    fun hin => h ((preffix_infix_iff .interface e).mp hin).symm
  rw [scanFolder, if_neg hinfix, getUint32_InsNum, getString_Alias,
    getUint32_Upper_InsNum e hzero]
  simp only [Option.getD_some, if_neg hzero, hk]

theorem numbers_of_nexts {list list' : List Interface} {n : Nexts}
    (h : (list'.map nextsOf).Perm (n :: list.map nextsOf)) :
    ∀ m ∈ list.map Interface.InstanceNumber, m ∈ list'.map Interface.InstanceNumber := by
  intro m hm
  obtain ⟨i, hi, rfl⟩ := List.mem_map.mp hm
  have hin : nextsOf i ∈ list'.map nextsOf :=
    h.mem_iff.mpr (List.mem_cons_of_mem _ (List.mem_map_of_mem hi))
  obtain ⟨j, hj, heq⟩ := List.mem_map.mp hin
  exact List.mem_map.mpr ⟨j, hj, congrArg Nexts.InstanceNumber heq⟩

theorem scanFolders_spec (entries : List Entry) (numbers : List ULONG)
    (hzero : ∀ e ∈ entries, e.kind = .interface → e.upper = 0) (h : Attached numbers entries)
    (st : Scan) (hst : ∀ n ∈ numbers, n ∈ st.list.map Interface.InstanceNumber) :
    (items (scanFolders st (entries.map fun e => (entryName e, entryFolder e)))).Perm
        (items st.list ++ entries.map (fun e => (e, true))) ∧
      ((scanFolders st (entries.map fun e => (entryName e, entryFolder e))).map nextsOf).Perm
        (st.list.map nextsOf ++
          (interfaces entries).map (fun e => ⟨e.number, true, 1, 1, 1⟩)) := by
  induction entries generalizing numbers st with
  | nil => simp [scanFolders, interfaces]
  | cons e rest ih =>
    have hrest : ∀ x ∈ rest, x.kind = .interface → x.upper = 0 :=
      fun x hx => hzero x (List.mem_cons_of_mem _ hx)
    rw [List.map_cons, scanFolders]
    by_cases hkind : e.kind = .interface
    · rw [Attached, if_pos hkind] at h
      rw [scanFolder_interface st e hkind]
      have hpush := nextsOf_push st.list (newInterface e)
      have hnumbers : ∀ n ∈ e.number :: numbers, n ∈ (pushEntryByInsNum Interface.InstanceNumber
          st.list (newInterface e)).map Interface.InstanceNumber := by
        intro n hn
        rcases List.mem_cons.mp hn with rfl | hn
        · exact List.mem_map.mpr ⟨newInterface e, (List.perm_orderedInsert _ _ _).mem_iff.mpr
            List.mem_cons_self, rfl⟩
        · exact numbers_of_nexts hpush n (hst n hn)
      obtain ⟨hitems, hnexts⟩ := ih (e.number :: numbers) hrest h ⟨_, e.number, _⟩ hnumbers
      have hself : itemsOf (newInterface e) = [(e, true)] := by
        obtain ⟨kind, upper, number, pAlias⟩ := e
        obtain rfl : kind = .interface := hkind
        obtain rfl : upper = 0 := hzero _ List.mem_cons_self rfl
        rfl
      constructor
      · have hadd := items_push st.list (newInterface e)
        rw [hself] at hadd
        exact hitems.trans ((hadd.append_right _).trans List.perm_middle.symm)
      · have hcons : interfaces (e :: rest) = e :: interfaces rest :=
          List.filter_cons_of_pos (by simpa using hkind)
        rw [hcons]
        exact hnexts.trans ((hpush.append_right _).trans List.perm_middle.symm)
    · rw [Attached, if_neg hkind] at h
      obtain ⟨hupper, hin, hlater⟩ := h
      obtain ⟨k, i, hk, hi, hnumber⟩ := parentIndex_eq (hst _ hin)
      rw [scanFolder_child st e hkind hupper hk]
      have hsame := nextsOf_modify (f := pushChild (entryName e) ⟨e.number, e.Alias, true⟩)
        (fun _ => rfl) st.list k
      have hnumbers : ∀ n ∈ numbers, n ∈ (st.list.modify k
          (pushChild (entryName e) ⟨e.number, e.Alias, true⟩)).map Interface.InstanceNumber := by
        intro n hn
        have hmap := congrArg (List.map Nexts.InstanceNumber) hsame
        rw [List.map_map, List.map_map] at hmap
        exact hmap ▸ hst n hn
      obtain ⟨hitems, hnexts⟩ := ih numbers hrest hlater ⟨st.list.modify k
        (pushChild (entryName e) ⟨e.number, e.Alias, true⟩), e.number, e.upper⟩ hnumbers
      constructor
      · have hadd := items_modify hi (itemsOf_pushChild e hkind i hnumber)
        exact hitems.trans ((hadd.append_right _).trans List.perm_middle.symm)
      · have hcons : interfaces (e :: rest) = interfaces rest :=
          List.filter_cons_of_neg (by simpa using hkind)
        rw [hcons]
        rw [hsame] at hnexts
        exact hnexts

end Scanning

variable (ipif : Folder)

section Loading

def storedNexts (ipif : Folder) (k : Kind) (upper : ULONG) : ULONG :=
  storedNext ipif k.nextName upper

theorem loadV4Addrs_spec (addrs : List (ULONG × CStr)) (h : ∀ a ∈ addrs, a.1 ≠ 0) (next : ULONG)
    (list : List Child) :
    (loadV4Addrs addrs next list).1.Perm (addrs.map (fun a => ⟨a.1, a.2, false⟩) ++ list) ∧
      (loadV4Addrs addrs next list).2 = (addrs.map Prod.fst).foldl advance next := by
  induction addrs generalizing next list with
  | nil => exact ⟨List.Perm.refl _, rfl⟩
  | cons a rest ih =>
    have ha : 0 ≠ a.1 := (h a List.mem_cons_self).symm
    obtain ⟨hperm, hnext⟩ := ih (fun x hx => h x (List.mem_cons_of_mem _ hx)) (advance next a.1)
      (pushEntryByInsNum Child.InstanceNumber list ⟨a.1, a.2, false⟩)
    rw [loadV4Addrs, if_pos ha]
    refine ⟨?_, hnext⟩
    have hpush : (pushEntryByInsNum Child.InstanceNumber list ⟨a.1, a.2, false⟩).Perm
        (⟨a.1, a.2, false⟩ :: list) := List.perm_orderedInsert _ _ _
    exact hperm.trans ((hpush.append_left _).trans List.perm_middle)

theorem itemsOf_loadInterface (b : BackendInterface)
    (h : ∀ a ∈ b.v4Addrs, a.1 ≠ 0) :
    (itemsOf (loadInterface ipif b b.InstanceNumber b.Alias)).Perm (backendItems b) := by
  obtain ⟨hperm, -⟩ := loadV4Addrs_spec b.v4Addrs h
    (storedNext ipif COSA_DML_RR_NAME_IPIF_IPv4_NextInsNum b.InstanceNumber) []
  have hmap := hperm.map (fun c : Child =>
    ((⟨.ipv4, b.InstanceNumber, c.InstanceNumber, c.Alias⟩, c.bNew) : Entry × Bool))
  rw [List.append_nil, List.map_map] at hmap
  simp only [itemsOf, loadInterface, backendItems, List.map_nil, List.append_nil]
  exact hmap.cons _

theorem nextsOf_loadInterface (b : BackendInterface)
    (h : ∀ a ∈ b.v4Addrs, a.1 ≠ 0) :
    nextsOf (loadInterface ipif b b.InstanceNumber b.Alias) =
      backendNexts (storedNexts ipif) b := by
  have hnext := (loadV4Addrs_spec b.v4Addrs h
    (storedNext ipif COSA_DML_RR_NAME_IPIF_IPv4_NextInsNum b.InstanceNumber) []).2
  rw [nextsOf, loadInterface, hnext]
  rfl

def Numbered (backend : List BackendInterface) : Prop :=
  ∀ b ∈ backend, b.InstanceNumber ≠ 0 ∧ ∀ a ∈ b.v4Addrs, a.1 ≠ 0

theorem loadInterfaces_spec (backend : List BackendInterface)
    (h : Numbered backend) (o : DatamodelIp) :
    (items (loadInterfaces ipif backend o).InterfaceList).Perm
        (backend.flatMap backendItems ++ items o.InterfaceList) ∧
      (loadInterfaces ipif backend o).ulNextInterfaceInsNum =
        (backend.map BackendInterface.InstanceNumber).foldl advance o.ulNextInterfaceInsNum ∧
      ((loadInterfaces ipif backend o).InterfaceList.map nextsOf).Perm
        (backend.map (backendNexts (storedNexts ipif)) ++ o.InterfaceList.map nextsOf) := by
  induction backend generalizing o with
  | nil => exact ⟨List.Perm.refl _, rfl, List.Perm.refl _⟩
  | cons b rest ih =>
    obtain ⟨hnumber, haddrs⟩ := h b List.mem_cons_self
    have hrest : Numbered rest := fun x hx => h x (List.mem_cons_of_mem _ hx)
    rw [loadInterfaces, if_pos hnumber.symm]
    obtain ⟨hitems, hnext, hnexts⟩ := ih hrest
      ⟨advance o.ulNextInterfaceInsNum b.InstanceNumber, pushEntryByInsNum
        Interface.InstanceNumber o.InterfaceList (loadInterface ipif b b.InstanceNumber b.Alias)⟩
    refine ⟨?_, hnext, ?_⟩
    · have hpush := (items_push o.InterfaceList
        (loadInterface ipif b b.InstanceNumber b.Alias)).trans
          ((itemsOf_loadInterface ipif b haddrs).append_right _)
      rw [List.flatMap_cons, List.append_assoc]
      apply hitems.trans
      apply (hpush.append_left _).trans
      rw [← List.append_assoc, ← List.append_assoc]
      exact List.perm_append_comm.append_right _
    · have hpush := nextsOf_push o.InterfaceList (loadInterface ipif b b.InstanceNumber b.Alias)
      rw [nextsOf_loadInterface ipif b haddrs] at hpush
      exact hnexts.trans ((hpush.append_left _).trans List.perm_middle)

end Loading

section Keeping

structure Kept (t : Tracked) : Prop where
  root : t.cosa.GetFolder COSA_IREP_FOLDER_NAME_IPIF_HA = none
  folders : ∃ ipif ha, t.cosa.GetFolder COSA_IREP_FOLDER_NAME_IPIF = some ipif ∧
    ipif.GetFolder COSA_IREP_FOLDER_NAME_IPIF_HA = some ha ∧
    ha.folders = t.entries.map (fun e => (entryName e, entryFolder e)) ∧
    storedNexts ipif = t.next
  fits : ∀ e ∈ t.entries, (entryName e).length < 32
  zero : ∀ e ∈ t.entries, e.kind = .interface → e.upper = 0
  numbered : Numbered t.backend
  clear : Clear t.backend t.entries t.next

theorem nextName_ne_ha (k : Kind) (n : ℕ) :
    k.nextName ++ decimal n ≠ COSA_IREP_FOLDER_NAME_IPIF_HA := by
  intro h
  have htake := congrArg (List.take 4) h
  cases k <;> exact absurd htake (by
    rw [List.take_append_of_le_length (by decide)]
    decide)

theorem nextName_inj {k j : Kind} {m n : ℕ}
    (h : k.nextName ++ decimal m = j.nextName ++ decimal n) : k = j ∧ m = n := by
  have htake := congrArg (List.take 9) h
  have hk : ∀ k : Kind, 9 ≤ k.nextName.length := by
    intro k
    cases k <;> decide
  rw [List.take_append_of_le_length (hk k), List.take_append_of_le_length (hk j)] at htake
  have hkj : k = j := by
    cases k <;> cases j <;> first | rfl | exact absurd htake (by decide)
  subst hkj
  exact ⟨rfl, decimal_injective (List.append_cancel_left h)⟩

theorem folderName_next_cases (k : Kind) (upper : ULONG) :
    folderName (k.nextName ++ decimal upper.toNat) = k.nextName ++ decimal upper.toNat ∨
      (folderName (k.nextName ++ decimal upper.toNat) = [] ∧
        ¬ (k.nextName ++ decimal upper.toNat).length < 32) := by
  rw [folderName, Buf.text_sprintf_s]
  split
  · exact Or.inl rfl
  · next h => exact Or.inr ⟨rfl, h⟩

theorem nextName_ne_nil (k : Kind) (n : ℕ) : k.nextName ++ decimal n ≠ [] := by
  cases k <;> exact List.append_ne_nil_of_left_ne_nil (by decide) _

theorem storedNexts_of_getFolder {ipif ipif' : Folder} {k : Kind} {upper n : ULONG}
    (hfits : (k.nextName ++ decimal upper.toNat).length < 32)
    (hself : (ipif'.GetFolder (k.nextName ++ decimal upper.toNat)).bind
      (fun fo => fo.getUint32 k.nextName) = some n)
    (hother : ∀ name, name ≠ k.nextName ++ decimal upper.toNat →
      name ≠ COSA_IREP_FOLDER_NAME_IPIF_HA → ipif'.GetFolder name = ipif.GetFolder name) :
    storedNexts ipif' = setNext (storedNexts ipif) k upper n := by
  funext j u
  rw [setNext, storedNexts, storedNexts, storedNext, storedNext]
  split
  · next h =>
    obtain ⟨rfl, rfl⟩ := h
    rw [folderName_of_lt hfits, hself, Option.getD_some]
  · next h =>
    congr 2
    rcases folderName_next_cases j u with hname | ⟨hname, -⟩
    · rw [hname]
      apply hother
      · intro heq
        obtain ⟨hkind, hnumber⟩ := nextName_inj heq
        exact h ⟨hkind, BitVec.eq_of_toNat_eq hnumber⟩
      · exact nextName_ne_ha j _
    · rw [hname]
      apply hother
      · exact fun heq => nextName_ne_nil k _ heq.symm
      · exact fun heq => absurd heq (by decide)

theorem regAddInfo_spec {ipif ha : Folder} {entries : List Entry} {e : Entry} {n : ULONG}
    (hha : ipif.GetFolder COSA_IREP_FOLDER_NAME_IPIF_HA = some ha)
    (hfolders : ha.folders = entries.map (fun e => (entryName e, entryFolder e)))
    (hfits : (entryName e).length < 32)
    (hnext : (e.kind.nextName ++ decimal e.upper.toNat).length < 32)
    (hfresh : entryName e ∉ entries.map entryName) :
    ∃ ha', (CosaIPRegAddInfo e.kind.nextName n e.kind.preffix e.upper e.Alias e.number
        ipif).GetFolder COSA_IREP_FOLDER_NAME_IPIF_HA = some ha' ∧
      ha'.folders = (entries ++ [e]).map (fun e => (entryName e, entryFolder e)) ∧
      storedNexts (CosaIPRegAddInfo e.kind.nextName n e.kind.preffix e.upper e.Alias e.number
        ipif) = setNext (storedNexts ipif) e.kind e.upper n := by
  have hname : folderName (e.kind.preffix ++ decimal e.upper.toNat ++ decimal e.number.toNat) =
      entryName e := folderName_of_lt hfits
  have hne := nextName_ne_ha e.kind e.upper.toNat
  have hnotMem : entryName e ∉ ha.folders.map Prod.fst := by
    rw [hfolders, List.map_map]
    exact hfresh
  simp only [CosaIPRegAddInfo]
  refine ⟨_, Folder.GetFolder_AddFolder_self _ _ _, ?_, ?_⟩
  · rw [Folder.GetFolder_AddFolder, folderName_of_lt hnext, if_neg hne.symm, hha,
      Option.getD_some, hname, Folder.folders_AddFolder_of_notMem _ _ _ hnotMem, hfolders,
        List.map_append]
    rfl
  · apply storedNexts_of_getFolder hnext
    · rw [Folder.GetFolder_AddFolder, if_neg hne, Folder.GetFolder_AddFolder,
        folderName_of_lt hnext, if_pos rfl, Option.bind_some, Folder.getUint32,
        Folder.GetRecord_AddRecord, if_pos rfl]
    · intro name hself hhaname
      rw [Folder.GetFolder_AddFolder, if_neg hhaname, Folder.GetFolder_AddFolder,
        folderName_of_lt hnext, if_neg hself]

theorem regDelInfo_spec {ipif ha : Folder} {entries : List Entry} {e : Entry}
    (hha : ipif.GetFolder COSA_IREP_FOLDER_NAME_IPIF_HA = some ha)
    (hfolders : ha.folders = entries.map (fun e => (entryName e, entryFolder e)))
    (hnames : (entries.map entryName).Nodup) (he : e ∈ entries)
    (hfits : (entryName e).length < 32) :
    ∃ ha', (CosaIPRegDelInfo (folderName (entryName e)) ipif).GetFolder
        COSA_IREP_FOLDER_NAME_IPIF_HA = some ha' ∧
      ha'.folders = (drop id entries e).map (fun e => (entryName e, entryFolder e)) ∧
      storedNexts (CosaIPRegDelInfo (folderName (entryName e)) ipif) = storedNexts ipif := by
  refine ⟨_, Folder.GetFolder_AddFolder_self _ _ _, ?_, ?_⟩
  · have hkey : drop id entries e = drop entryName entries (entryName e) := by
      apply drop_congr_key
      intro b hb
      exact ⟨fun h => congrArg entryName h, fun h => eq_of_key hnames hb he h⟩
    rw [hha, Option.getD_some, Folder.DelFolder, Folder.folders_mk, hfolders,
      folderName_of_lt hfits, hkey, drop, drop, List.filter_map]
    rfl
  · funext k u
    rw [storedNexts, storedNexts, storedNext, storedNext, CosaIPRegDelInfo,
      Folder.GetFolder_AddFolder, if_neg]
    rcases folderName_next_cases k u with hname | ⟨hname, -⟩
    · rw [hname]
      exact nextName_ne_ha k _
    · rw [hname]
      decide

theorem ipif_ne_ha : COSA_IREP_FOLDER_NAME_IPIF ≠ COSA_IREP_FOLDER_NAME_IPIF_HA := by decide

theorem storedNexts_openHa :
    storedNexts (ipif.AddFolder COSA_IREP_FOLDER_NAME_IPIF_HA id) = storedNexts ipif := by
  funext k u
  rw [storedNexts, storedNexts, storedNext, storedNext, Folder.GetFolder_AddFolder, if_neg]
  rcases folderName_next_cases k u with hname | ⟨hname, -⟩
  · rw [hname]
    exact nextName_ne_ha k _
  · rw [hname]
    decide

theorem Kept.restores {t : Tracked} (h : Kept t) : Restores t := by
  obtain ⟨ipif, ha, hipif, hha, hfolders, hnext⟩ := h.folders
  let ipif' := ipif.AddFolder COSA_IREP_FOLDER_NAME_IPIF_HA id
  have hnexts : storedNexts ipif' = t.next := (storedNexts_openHa ipif).trans hnext
  have hha' : ipif'.GetFolder COSA_IREP_FOLDER_NAME_IPIF_HA = some ha := by
    rw [Folder.GetFolder_AddFolder_self, hha, Option.getD_some, id_eq]
  have hinit : (CosaIPInitialize t.backend t.cosa).1 =
      { (loadInterfaces ipif' t.backend ⟨t.next .interface 0, []⟩) with
        InterfaceList := CosaIpRegGetInfo ha
          (loadInterfaces ipif' t.backend ⟨t.next .interface 0, []⟩).InterfaceList } := by
    have hzero : storedNext ipif' COSA_DML_RR_NAME_IPIF_NextInsNum 0 = t.next .interface 0 :=
      congrFun (congrFun hnexts .interface) 0
    simp only [CosaIPInitialize, h.root, hipif, Option.getD_some]
    change ({ (loadInterfaces ipif' t.backend ⟨storedNext ipif' _ 0, []⟩) with
      InterfaceList := CosaIpRegGetInfo ((ipif'.GetFolder _).getD Folder.empty) _ } :
        DatamodelIp) = _
    rw [hha', hzero, Option.getD_some]
  obtain ⟨hitems, hnumber, hloaded⟩ := loadInterfaces_spec ipif' t.backend h.numbered
    ⟨t.next .interface 0, []⟩
  have hnumbers : ∀ n ∈ t.backend.map BackendInterface.InstanceNumber,
      n ∈ (loadInterfaces ipif' t.backend ⟨t.next .interface 0, []⟩).InterfaceList.map
        Interface.InstanceNumber := by
    intro n hn
    obtain ⟨b, hb, rfl⟩ := List.mem_map.mp hn
    have hin := hloaded.mem_iff.mpr (List.mem_append_left _ (List.mem_map_of_mem hb))
    obtain ⟨i, hi, heq⟩ := List.mem_map.mp hin
    exact List.mem_map.mpr ⟨i, hi, congrArg Nexts.InstanceNumber heq⟩
  obtain ⟨hscan, hscanNexts⟩ := scanFolders_spec t.entries _ h.zero h.clear.attached
    ⟨(loadInterfaces ipif' t.backend ⟨t.next .interface 0, []⟩).InterfaceList, 0, 0⟩ hnumbers
  rw [hnexts] at hloaded
  refine ⟨?_, ?_, ?_⟩
  · rw [hinit, CosaIpRegGetInfo, hfolders]
    have hstart : items ([] : List Interface) = [] := rfl
    rw [hstart, List.append_nil] at hitems
    exact hscan.trans (hitems.append_right _)
  · rw [hinit]
    exact hnumber
  · rw [hinit, CosaIpRegGetInfo, hfolders]
    have hone : (interfaces t.entries).map (fun e => (⟨e.number, true, 1, 1, 1⟩ : Nexts)) =
        (interfaces t.entries).map (entryNexts t.next) := by
      apply List.map_congr_left
      intro e he
      rw [entryNexts, h.clear.nexts e he .ipv4 (by decide), h.clear.nexts e he .ipv6 (by decide),
        h.clear.nexts e he .ipv6Prefix (by decide)]
    rw [hone] at hscanNexts
    rw [List.map_nil, List.append_nil] at hloaded
    exact hscanNexts.trans (hloaded.append_right _)

theorem kept_step {t : Tracked} {c : Call} (h : Kept t) (hlegal : Legal t c) (hok : Ok t c) :
    ∃ t', step t c = some t' ∧ Kept t' := by
  obtain ⟨ipif, ha, hipif, hha, hfolders, hnext⟩ := h.folders
  cases c with
  | add e n =>
    obtain ⟨-, hzero, -, hfits, hfitsNext⟩ := hlegal
    have hfresh : entryName e ∉ t.entries.map entryName := by
      have hnd := hok.names
      rw [List.map_append, List.nodup_append] at hnd
      intro hin
      exact hnd.2.2 _ hin (entryName e) (by simp) rfl
    obtain ⟨ha', hget, hlist, hnexts⟩ := regAddInfo_spec (n := n) hha hfolders hfits hfitsNext
      hfresh
    refine ⟨_, rfl, ?_, ⟨_, ha', ?_, hget, hlist, hnexts.trans (by rw [hnext])⟩, ?_, ?_,
      h.numbered, hok⟩
    · rw [Folder.GetFolder_AddFolder, if_neg ipif_ne_ha.symm]
      exact h.root
    · rw [Folder.GetFolder_AddFolder_self, hipif, Option.getD_some]
    · intro x hx
      rcases List.mem_append.mp hx with hx | hx
      · exact h.fits x hx
      · rw [List.mem_singleton.mp hx]
        exact hfits
    · intro x hx
      rcases List.mem_append.mp hx with hx | hx
      · exact h.zero x hx
      · rw [List.mem_singleton.mp hx]
        exact hzero
  | del e =>
    obtain ⟨ha', hget, hlist, hnexts⟩ :=
      regDelInfo_spec hha hfolders h.clear.names hlegal (h.fits e hlegal)
    refine ⟨_, rfl, ?_, ⟨_, ha', ?_, hget, hlist, hnexts.trans hnext⟩, ?_, ?_, h.numbered, hok⟩
    · rw [Folder.GetFolder_AddFolder, if_neg ipif_ne_ha.symm]
      exact h.root
    · rw [Folder.GetFolder_AddFolder_self, hipif, Option.getD_some]
    · exact fun x hx => h.fits x ((mem_drop_iff e x).mp hx).1
    · exact fun x hx => h.zero x ((mem_drop_iff e x).mp hx).1
  | commit backend =>
    exact ⟨_, rfl, h.root, ⟨ipif, ha, hipif, hha, hfolders, hnext⟩, h.fits, h.zero, hlegal, hok⟩
  | restart =>
    refine ⟨_, rfl, ?_, ⟨ipif.AddFolder COSA_IREP_FOLDER_NAME_IPIF_HA id, ha, ?_, ?_, hfolders,
      (storedNexts_openHa ipif).trans hnext⟩, h.fits, h.zero, h.numbered, h.clear⟩
    · simp only [CosaIPInitialize, h.root]
      rw [Folder.GetFolder_AddFolder, if_neg ipif_ne_ha.symm]
      exact h.root
    · simp only [CosaIPInitialize, h.root, hipif, Option.getD_some]
      rw [Folder.GetFolder_AddFolder_self]
    · rw [Folder.GetFolder_AddFolder_self, hha, Option.getD_some, id_eq]

end Keeping

/-- The first start on a root folder without the folders of the interfaces. -/
def start (cosa : Folder) (backend : List BackendInterface) : Tracked :=
  ⟨(CosaIPInitialize backend cosa).2, backend, [], fun _ _ => 1⟩

theorem kept_start {cosa : Folder} {backend : List BackendInterface}
    (hipif : cosa.GetFolder COSA_IREP_FOLDER_NAME_IPIF = none)
    (hha : cosa.GetFolder COSA_IREP_FOLDER_NAME_IPIF_HA = none) (hbackend : Numbered backend) :
    Kept (start cosa backend) := by
  refine ⟨?_, ⟨Folder.empty.AddFolder COSA_IREP_FOLDER_NAME_IPIF_HA id, Folder.empty, ?_, ?_, rfl,
    ?_⟩, by simp [start], by simp [start], hbackend, ⟨by simp [start], trivial, ?_⟩⟩
  · simp only [start, CosaIPInitialize, hha]
    rw [Folder.GetFolder_AddFolder, if_neg ipif_ne_ha.symm]
    exact hha
  · simp only [start, CosaIPInitialize, hha, hipif, Option.getD_none]
    rw [Folder.GetFolder_AddFolder_self]
  · rw [Folder.GetFolder_AddFolder_self]
    rfl
  · rw [storedNexts_openHa]
    rfl
  · exact fun _ _ _ _ => rfl

/-- In every run whose calls meet their condition a restart restores, in every state, exactly
the entries that were recorded and not deleted, the committed ones and the next numbers. -/
theorem restart_restores (cosa : Folder) (backend : List BackendInterface) (calls : List Call)
    (hipif : cosa.GetFolder COSA_IREP_FOLDER_NAME_IPIF = none)
    (hha : cosa.GetFolder COSA_IREP_FOLDER_NAME_IPIF_HA = none) (hbackend : Numbered backend)
    (hlegal : StepsMeet step Legal (start cosa backend) calls)
    (hok : StepsMeet step Ok (start cosa backend) calls) :
    Restores (start cosa backend) ∧ Throughout step Restores (start cosa backend) calls := by
  have hkept := kept_start hipif hha hbackend
  refine ⟨hkept.restores, ?_⟩
  apply @throughout_of_stepsMeet _ _ step _ (fun t c => Legal t c ∧ Ok t c) Kept
    (fun t ht => ht.restores) (fun t c ht hc => kept_step ht hc.1 hc.2) _ _ hkept
  exact StepsMeet.and step hlegal hok

def lanInterface : BackendInterface := ⟨1, "lan".toList, []⟩

def wanInterface : BackendInterface := ⟨11, "wan".toList, []⟩

def lanAddress : Entry := ⟨.ipv4, 1, 11, "first".toList⟩

def wanAddress : Entry := ⟨.ipv4, 11, 1, "second".toList⟩

theorem restart_restores_address : Restores (start Folder.empty [lanInterface]) ∧
    Throughout step Restores (start Folder.empty [lanInterface]) [.add lanAddress 12] := by
  apply restart_restores Folder.empty [lanInterface] [.add lanAddress 12] rfl rfl
  · simp [Numbered, lanInterface]
  · refine ⟨⟨fun _ hx => absurd hx List.not_mem_nil, fun h => absurd h (by decide),
      fun _ => ?_, ?_, ?_⟩, fun _ _ => trivial⟩
    · exact List.mem_append_left _ (List.mem_singleton.mpr rfl)
    · decide +kernel
    · decide +kernel
  · refine ⟨⟨by simp [start], ?_, fun _ he => ?_⟩, fun _ _ => trivial⟩
    · exact ⟨by decide, List.mem_singleton.mpr rfl, trivial⟩
    · have hnone : interfaces ((start Folder.empty [lanInterface]).entries ++ [lanAddress]) = [] :=
        rfl
      rw [hnone] at he
      exact absurd he List.not_mem_nil

/-- The addresses 11 of interface 1 and 1 of interface 11 share the folder "IPV4Address111". -/
theorem shared_folder_lost : ¬ ∀ (cosa : Folder) (backend : List BackendInterface)
    (calls : List Call), cosa.GetFolder COSA_IREP_FOLDER_NAME_IPIF = none →
    cosa.GetFolder COSA_IREP_FOLDER_NAME_IPIF_HA = none → Numbered backend →
    StepsMeet step Legal (start cosa backend) calls →
    Throughout step Restores (start cosa backend) calls := by
  intro hall
  have hmem : ∀ n ∈ [(1 : ULONG), 11], n ∈ [lanInterface, wanInterface].map
      BackendInterface.InstanceNumber ++ [] := by simp [lanInterface, wanInterface]
  have hlegal : StepsMeet step Legal (start Folder.empty [lanInterface, wanInterface])
      [.add lanAddress 12, .add wanAddress 2] := by
    refine ⟨⟨fun _ hx => absurd hx List.not_mem_nil, fun h => absurd h (by decide),
      fun _ => hmem 1 (by simp), by decide +kernel, by decide +kernel⟩, fun t ht => ?_⟩
    obtain rfl := Option.some.inj ht
    refine ⟨⟨fun x hx => ?_, fun h => absurd h (by decide), fun _ => hmem 11 (by simp),
      by decide +kernel, by decide +kernel⟩, fun _ _ => trivial⟩
    obtain rfl : x = lanAddress := by simpa [start] using hx
    decide
  obtain ⟨t, ht, -, u, hu, hrestores, -⟩ := hall Folder.empty [lanInterface, wanInterface]
    [.add lanAddress 12, .add wanAddress 2] rfl rfl (by simp [Numbered, lanInterface, wanInterface])
    hlegal
  obtain rfl := Option.some.inj ht
  obtain rfl := Option.some.inj hu
  have hlength := hrestores.entries.length_eq
  revert hlength
  decide +kernel

end CcspPandM.IpRegistryRuns
