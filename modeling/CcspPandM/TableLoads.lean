import CcspPandM.InitialNumbers

/-!
The load loops at start: the IPv4 and IPv6 routes, the access policies, and the
URLs, keywords and applications of each policy. Each reads its next number from a
folder of the registry, takes the entries of the backend in their order, numbers
those without a number and writes number and alias back.
-/
namespace CcspPandM.TableLoads

open CString IpRegistry Registry InitialNumbers

structure Entry (ν : Type) where
  InstanceNumber : ULONG
  Alias : CStr
  content : ν

inductive Table where
  | v4Forward
  | v6Forward
  | policy
  | url
  | keyword
  | app
  deriving DecidableEq

def Table.nextInsNum : Table → CStr
  | v4Forward => "NextForwardInsNum".toList
  | v6Forward => "NextIPv6ForwardInsNum".toList
  | policy => "NextAPInstanceNum".toList
  | url => "NextURLInstanceNum".toList
  | keyword => "NextKeywordInstanceNum".toList
  | app => "NextAppInstanceNum".toList

/-- The alias of an entry with a new number; that of a policy is printed after
the counter has been moved. All of them fit `Alias[512]`. -/
def Table.alias (T : Table) (number : ULONG) : CStr :=
  match T with
  | v4Forward => "IPv4Forwarding".toList ++ decimal number.toNat
  | v6Forward => "IPv6Forwarding".toList ++ decimal number.toNat
  | policy => "DmlIAPolicy".toList ++ decimal (nextAfter number).toNat
  | url => "BlockedURL".toList ++ decimal number.toNat
  | keyword => "BlockedKeyword".toList ++ decimal number.toNat
  | app => "BlockedApp".toList ++ decimal number.toNat

section Loops

variable {ν : Type}

structure Load (ν : Type) where
  ulNextInsNum : ULONG
  backend : List (Entry ν)
  list : List (Entry ν)

def push (list : List (Entry ν)) (e : Entry ν) : List (Entry ν) :=
  pushEntryByInsNum Entry.InstanceNumber list e

def loadEntry (T : Table) (ulIndex : ℕ) (st : Load ν) : Load ν :=
  match st.backend[ulIndex]? with
  | some e =>
    if e.InstanceNumber ≠ 0 then
      { st with
        ulNextInsNum := advance st.ulNextInsNum e.InstanceNumber
        list := push st.list e }
    else
      let e := { e with InstanceNumber := st.ulNextInsNum, Alias := T.alias st.ulNextInsNum }
      { ulNextInsNum := nextAfter st.ulNextInsNum
        backend := st.backend.set ulIndex e
        list := push st.list e }
  | none => st

def loadTable (T : Table) (pPoamIrepFo : Folder) (upper : ULONG) (backend : List (Entry ν)) :
    Load ν :=
  (List.range backend.length).foldl (fun st ulIndex => loadEntry T ulIndex st)
    ⟨storedNext pPoamIrepFo T.nextInsNum upper, backend, []⟩

end Loops

def CosaRoutingInitialize {ν : Type} (pPoamIrepFoRouter : Folder) (router : ULONG)
    (v4 v6 : List (Entry ν)) : Load ν × Load ν :=
  (loadTable .v4Forward pPoamIrepFoRouter router v4,
    loadTable .v6Forward pPoamIrepFoRouter router v6)

section Policies

inductive SubTable where
  | url
  | keyword
  | app
  deriving DecidableEq

def SubTable.table : SubTable → Table
  | url => .url
  | keyword => .keyword
  | app => .app

def SubTable.upTo : SubTable → List SubTable
  | url => [url]
  | keyword => [url, keyword]
  | app => [url, keyword, app]

/-- The name of the folder with the next number fits `FolderName[32]`. -/
def Fits (policy : ULONG) (T : SubTable) : Prop :=
  (T.table.nextInsNum ++ decimal policy.toNat).length < 32

instance (policy : ULONG) (T : SubTable) : Decidable (Fits policy T) :=
  inferInstanceAs (Decidable (_ < 32))

variable {ν μ : Type}

/-- A name that does not fit continues with the next policy. -/
def loadSubTable (pPoamIrepFoIA : Folder) (policy : ULONG) (delivered : SubTable → List (Entry μ))
    (T : SubTable) : Load μ :=
  if ∀ T' ∈ T.upTo, Fits policy T' then loadTable T.table pPoamIrepFoIA policy (delivered T)
  else ⟨1, delivered T, []⟩

structure Security (ν μ : Type) where
  policies : Load ν
  subTables : List (SubTable → Load μ)

def loadPolicy (pPoamIrepFoIA : Folder) (delivered : ℕ → SubTable → List (Entry μ)) (ulIndex : ℕ)
    (st : Security ν μ) : Security ν μ :=
  let policies := loadEntry .policy ulIndex st.policies
  let number := (policies.backend[ulIndex]?.map Entry.InstanceNumber).getD 0
  ⟨policies, st.subTables ++ [loadSubTable pPoamIrepFoIA number (delivered ulIndex)]⟩

/-- The tables of a policy are what the backend delivers while it is loaded. -/
def CosaSecurityInitialize (pPoamIrepFoIA : Folder) (backend : List (Entry ν))
    (delivered : ℕ → SubTable → List (Entry μ)) : Security ν μ :=
  (List.range backend.length).foldl
    (fun st ulIndex => loadPolicy pPoamIrepFoIA delivered ulIndex st)
    ⟨⟨storedNext pPoamIrepFoIA Table.policy.nextInsNum 0, backend, []⟩, []⟩

end Policies

section Results

variable {ν μ : Type}

def numberEntry (T : Table) (next : ULONG) (e : Entry ν) : Entry ν :=
  if e.InstanceNumber = 0 then { e with InstanceNumber := next, Alias := T.alias next } else e

def assigned (T : Table) (next : ULONG) : List (Entry ν) → List (Entry ν)
  | [] => []
  | e :: rest => numberEntry T next e :: assigned T (counterStep next e.InstanceNumber) rest

variable (T : Table)

theorem numberEntry_number (next : ULONG) (e : Entry ν) :
    (numberEntry T next e).InstanceNumber =
      if e.InstanceNumber = 0 then next else e.InstanceNumber := by
  rw [numberEntry]
  split
  · rfl
  · rfl

theorem map_assigned (next : ULONG) (l : List (Entry ν)) :
    (assigned T next l).map Entry.InstanceNumber =
      numbers next (l.map Entry.InstanceNumber) := by
  induction l generalizing next with
  | nil => rfl
  | cons e rest ih =>
    rw [assigned, List.map_cons, ih, List.map_cons, numbers, numberEntry_number]

theorem loadEntry_at (next : ULONG) (front rest list : List (Entry ν))
    (e : Entry ν) : loadEntry T front.length ⟨next, front ++ e :: rest, list⟩ =
      ⟨counterStep next e.InstanceNumber, (front ++ [numberEntry T next e]) ++ rest,
        push list (numberEntry T next e)⟩ := by
  have hget : (front ++ e :: rest)[front.length]? = some e := by simp
  simp only [loadEntry, hget]
  by_cases he : e.InstanceNumber = 0
  · simp [counterStep, numberEntry, he]
  · rw [if_pos he, counterStep, if_neg he, numberEntry, if_neg he, List.append_assoc]
    rfl

theorem foldl_loadEntry (next : ULONG) (front rest list : List (Entry ν)) :
    (List.range' front.length rest.length).foldl (fun st k => loadEntry T k st)
      ⟨next, front ++ rest, list⟩ =
    ⟨counter next (rest.map Entry.InstanceNumber), front ++ assigned T next rest,
      (assigned T next rest).foldl push list⟩ := by
  induction rest generalizing next front list with
  | nil => rfl
  | cons e rest ih =>
    have hih := ih (counterStep next e.InstanceNumber) (front ++ [numberEntry T next e])
      (push list (numberEntry T next e))
    rw [List.length_append, List.length_singleton] at hih
    rw [List.length_cons, List.range'_succ, List.foldl_cons, loadEntry_at, hih, assigned,
      List.append_assoc, List.singleton_append, List.foldl_cons]
    rfl

theorem loadTable_eq (pPoamIrepFo : Folder) (upper : ULONG) (l : List (Entry ν)) :
    loadTable T pPoamIrepFo upper l =
      ⟨counter (storedNext pPoamIrepFo T.nextInsNum upper) (l.map Entry.InstanceNumber),
        assigned T (storedNext pPoamIrepFo T.nextInsNum upper) l,
        (assigned T (storedNext pPoamIrepFo T.nextInsNum upper) l).foldl push []⟩ := by
  have h := foldl_loadEntry T (storedNext pPoamIrepFo T.nextInsNum upper) [] l []
  rwa [List.length_nil, List.nil_append, List.nil_append, ← List.range_eq_range'] at h

theorem foldl_push_perm (l list : List (Entry ν)) : (l.foldl push list).Perm (l ++ list) := by
  induction l generalizing list with
  | nil => exact List.Perm.refl _
  | cons e rest ih =>
    rw [List.foldl_cons]
    apply (ih _).trans
    apply ((pushEntry_perm Entry.InstanceNumber list e).append_left rest).trans
    exact List.perm_middle

def numbersOf (l : List (Entry ν)) : List ULONG := l.map Entry.InstanceNumber

/-- What a load is promised: distinct numbers, kept where they came with the
entry and written back where they did not, and a next number that is free. -/
structure Numbered (before : List (Entry ν)) (after : Load ν) : Prop where
  nonzero : ∀ e ∈ after.list, e.InstanceNumber ≠ 0
  distinct : (after.list.map Entry.InstanceNumber).Nodup
  kept : List.Forall₂ (fun b a : Entry ν => a.content = b.content ∧
    (b.InstanceNumber ≠ 0 → a = b)) before after.backend
  listed : after.list.Perm after.backend
  next_free : after.ulNextInsNum ∉ after.list.map Entry.InstanceNumber

theorem assigned_kept (next : ULONG) (l : List (Entry ν)) :
    List.Forall₂ (fun b a : Entry ν => a.content = b.content ∧
      (b.InstanceNumber ≠ 0 → a = b)) l (assigned T next l) := by
  induction l generalizing next with
  | nil => exact List.Forall₂.nil
  | cons e rest ih =>
    refine List.Forall₂.cons ?_ (ih _)
    by_cases he : e.InstanceNumber = 0
    · rw [numberEntry, if_pos he]
      exact ⟨rfl, fun hne => absurd he hne⟩
    · rw [numberEntry, if_neg he]
      exact ⟨rfl, fun _ => rfl⟩

theorem loadTable_numbered_iff (pPoamIrepFo : Folder) (upper : ULONG)
    {l : List (Entry ν)} (hdel : Delivered (numbersOf l)) :
    Numbered l (loadTable T pPoamIrepFo upper l) ↔
      Clear (storedNext pPoamIrepFo T.nextInsNum upper) (numbersOf l) := by
  rw [← distinct_iff hdel, loadTable_eq]
  generalize storedNext pPoamIrepFo T.nextInsNum upper = next
  have hperm : ((assigned T next l).foldl push []).Perm (assigned T next l) := by
    have h := foldl_push_perm (assigned T next l) []
    rwa [List.append_nil] at h
  have hnumbers : (((assigned T next l).foldl push []).map Entry.InstanceNumber).Perm
      (numbers next (numbersOf l)) := by
    rw [numbersOf, ← map_assigned T]
    exact hperm.map _
  constructor
  · intro h
    refine ⟨fun hzero => ?_, hnumbers.nodup_iff.mp h.distinct,
      fun hmem => h.next_free (hnumbers.mem_iff.mpr hmem)⟩
    obtain ⟨e, he, hnumber⟩ := List.mem_map.mp (hnumbers.mem_iff.mpr hzero)
    exact h.nonzero e he hnumber
  · intro h
    refine ⟨fun e he hzero => h.nonzero ?_, hnumbers.nodup_iff.mpr h.distinct,
      assigned_kept T next l, hperm, fun hmem => h.next_free (hnumbers.mem_iff.mp hmem)⟩
    rw [← hzero]
    exact hnumbers.mem_iff.mp (List.mem_map_of_mem he)

variable (pPoamIrepFoIA : Folder)

theorem foldl_loadPolicy (delivered : ℕ → SubTable → List (Entry μ))
    (next : ULONG) (front rest list : List (Entry ν)) (subs : List (SubTable → Load μ)) :
    (List.range' front.length rest.length).foldl
        (fun st k => loadPolicy pPoamIrepFoIA delivered k st) ⟨⟨next, front ++ rest, list⟩, subs⟩ =
      ⟨(List.range' front.length rest.length).foldl (fun st k => loadEntry .policy k st)
          ⟨next, front ++ rest, list⟩,
        subs ++ List.zipWith (fun k number => loadSubTable pPoamIrepFoIA number (delivered k))
          (List.range' front.length rest.length) (numbers next (numbersOf rest))⟩ := by
  induction rest generalizing next front list subs with
  | nil => simp [numbersOf, numbers]
  | cons e rest ih =>
    have hget : ((front ++ [numberEntry .policy next e]) ++ rest)[front.length]? =
        some (numberEntry .policy next e) := by simp
    have hih := ih (counterStep next e.InstanceNumber) (front ++ [numberEntry .policy next e])
      (push list (numberEntry .policy next e))
      (subs ++ [loadSubTable pPoamIrepFoIA (numberEntry .policy next e).InstanceNumber
        (delivered front.length)])
    rw [List.length_append, List.length_singleton] at hih
    rw [List.length_cons, List.range'_succ, List.foldl_cons, List.foldl_cons, loadPolicy,
      loadEntry_at]
    simp only [hget, Option.map_some, Option.getD_some]
    rw [hih, numberEntry_number]
    simp only [List.append_assoc, List.singleton_append]
    rfl

theorem CosaSecurityInitialize_eq (l : List (Entry ν))
    (delivered : ℕ → SubTable → List (Entry μ)) :
    CosaSecurityInitialize pPoamIrepFoIA l delivered =
      ⟨loadTable .policy pPoamIrepFoIA 0 l,
        List.zipWith (fun k number => loadSubTable pPoamIrepFoIA number (delivered k))
          (List.range l.length)
          (numbers (storedNext pPoamIrepFoIA Table.policy.nextInsNum 0) (numbersOf l))⟩ := by
  have h := foldl_loadPolicy pPoamIrepFoIA delivered
    (storedNext pPoamIrepFoIA Table.policy.nextInsNum 0) [] l [] []
  rwa [List.length_nil, List.nil_append, List.nil_append, ← List.range_eq_range'] at h

theorem reached_iff (policy : ULONG) (T : SubTable) :
    (∀ T' ∈ T.upTo, Fits policy T') ↔ T = .url ∨ policy.toNat < 10 ^ 9 := by
  have hlt := policy.isLt
  have hten : (decimal policy.toNat).length ≤ 10 :=
    (decimal_length_le_iff (by omega)).mpr (by omega)
  have hnine : (decimal policy.toNat).length ≤ 9 ↔ policy.toNat < 10 ^ 9 :=
    decimal_length_le_iff (by omega)
  have hfits : ∀ T', Fits policy T' ↔
      T'.table.nextInsNum.length + (decimal policy.toNat).length < 32 := by
    intro T'
    rw [Fits, List.length_append]
  have hurl : Fits policy .url := (hfits .url).mpr (by
    change 18 + _ < 32
    omega)
  have happ : Fits policy .app := (hfits .app).mpr (by
    change 18 + _ < 32
    omega)
  have hkeyword : Fits policy .keyword ↔ policy.toNat < 10 ^ 9 := by
    rw [hfits, ← hnine]
    change 22 + _ < 32 ↔ _
    omega
  cases T with
  | url => simp [SubTable.upTo, hurl]
  | keyword => simp [SubTable.upTo, hurl, hkeyword]
  | app => simp [SubTable.upTo, hurl, happ, hkeyword]

theorem loadSubTable_numbered_iff (policy : ULONG) (T : SubTable)
    {delivered : SubTable → List (Entry μ)} (hdel : Delivered (numbersOf (delivered T))) :
    Numbered (delivered T) (loadSubTable pPoamIrepFoIA policy delivered T) ↔
      if T = .url ∨ policy.toNat < 10 ^ 9 then
        Clear (storedNext pPoamIrepFoIA T.table.nextInsNum policy) (numbersOf (delivered T))
      else delivered T = [] := by
  rw [loadSubTable]
  by_cases hreached : T = .url ∨ policy.toNat < 10 ^ 9
  · rw [if_pos ((reached_iff policy T).mpr hreached), if_pos hreached]
    exact loadTable_numbered_iff T.table pPoamIrepFoIA policy hdel
  · rw [if_neg (fun h => hreached ((reached_iff policy T).mp h)), if_neg hreached]
    constructor
    · intro h
      exact h.listed.symm.eq_nil
    · intro h
      rw [h]
      exact ⟨by simp, List.nodup_nil, List.Forall₂.nil, List.Perm.refl _, by simp⟩

end Results

section Initialize

variable {ν μ : Type}

structure Start (ν μ : Type) where
  pPoamIrepFoRouter : Folder
  router : ULONG
  v4Forwards : List (Entry ν)
  v6Forwards : List (Entry ν)
  pPoamIrepFoIA : Folder
  policies : List (Entry ν)
  tables : ℕ → SubTable → List (Entry μ)

namespace Start

variable (s : Start ν μ)

structure Valid : Prop where
  v4Forwards : Delivered (numbersOf s.v4Forwards)
  v6Forwards : Delivered (numbersOf s.v6Forwards)
  policies : Delivered (numbersOf s.policies)
  tables : ∀ k T, Delivered (numbersOf (s.tables k T))

def routes : Load ν × Load ν :=
  CosaRoutingInitialize s.pPoamIrepFoRouter s.router s.v4Forwards s.v6Forwards

def security : Security ν μ := CosaSecurityInitialize s.pPoamIrepFoIA s.policies s.tables

structure AllNumbered : Prop where
  v4Forwards : Numbered s.v4Forwards s.routes.1
  v6Forwards : Numbered s.v6Forwards s.routes.2
  policies : Numbered s.policies s.security.policies
  tables : ∀ k loads, s.security.subTables[k]? = some loads → ∀ T, Numbered (s.tables k T) (loads T)

def policyNumbers : List ULONG :=
  numbers (storedNext s.pPoamIrepFoIA Table.policy.nextInsNum 0) (numbersOf s.policies)

structure AllClear : Prop where
  v4Forwards : Clear (storedNext s.pPoamIrepFoRouter Table.v4Forward.nextInsNum s.router)
    (numbersOf s.v4Forwards)
  v6Forwards : Clear (storedNext s.pPoamIrepFoRouter Table.v6Forward.nextInsNum s.router)
    (numbersOf s.v6Forwards)
  policies : Clear (storedNext s.pPoamIrepFoIA Table.policy.nextInsNum 0) (numbersOf s.policies)
  tables : ∀ k number, s.policyNumbers[k]? = some number → ∀ T : SubTable,
    if T = .url ∨ number.toNat < 10 ^ 9 then
      Clear (storedNext s.pPoamIrepFoIA T.table.nextInsNum number) (numbersOf (s.tables k T))
    else s.tables k T = []

theorem subTables_getElem? (k : ℕ) : s.security.subTables[k]? =
    s.policyNumbers[k]?.map
      (fun number => loadSubTable s.pPoamIrepFoIA number (s.tables k)) := by
  have hnumbers : s.policyNumbers = numbers
    (storedNext s.pPoamIrepFoIA Table.policy.nextInsNum 0) (numbersOf s.policies) := rfl
  rw [security, CosaSecurityInitialize_eq, List.getElem?_zipWith, ← hnumbers]
  by_cases hk : k < s.policies.length
  · rw [List.getElem?_range hk]
    cases s.policyNumbers[k]? with
    | none => rfl
    | some number => rfl
  · have hnone : s.policyNumbers[k]? = none := by
      apply List.getElem?_eq_none
      rw [policyNumbers, length_numbers, numbersOf, List.length_map]
      omega
    rw [hnone, List.getElem?_eq_none (by rw [List.length_range]; omega)]
    rfl

theorem allNumbered_iff (h : s.Valid) : s.AllNumbered ↔ s.AllClear := by
  have hpolicies : s.security.policies = loadTable .policy s.pPoamIrepFoIA 0 s.policies := by
    rw [security, CosaSecurityInitialize_eq]
  have htable := fun k number T =>
    loadSubTable_numbered_iff s.pPoamIrepFoIA number T (h.tables k T)
  constructor
  · intro hn
    refine ⟨(loadTable_numbered_iff _ _ _ h.v4Forwards).mp hn.v4Forwards,
      (loadTable_numbered_iff _ _ _ h.v6Forwards).mp hn.v6Forwards,
      (loadTable_numbered_iff _ _ _ h.policies).mp (hpolicies ▸ hn.policies),
      fun k number hnumber T => (htable k number T).mp (hn.tables k _ ?_ T)⟩
    rw [subTables_getElem?, hnumber]
    rfl
  · intro hc
    refine ⟨(loadTable_numbered_iff _ _ _ h.v4Forwards).mpr hc.v4Forwards,
      (loadTable_numbered_iff _ _ _ h.v6Forwards).mpr hc.v6Forwards,
      hpolicies ▸ (loadTable_numbered_iff _ _ _ h.policies).mpr hc.policies,
      fun k loads hloads T => ?_⟩
    rw [subTables_getElem?] at hloads
    obtain ⟨number, hnumber, rfl⟩ := Option.map_eq_some_iff.mp hloads
    exact (htable k number T).mpr (hc.tables k number hnumber T)

end Start

def entry (number : ULONG) : Entry Unit := ⟨number, [], ()⟩

def plainStart (v4 policies keywords : List ULONG) : Start Unit Unit where
  pPoamIrepFoRouter := Folder.empty
  router := 1
  v4Forwards := v4.map entry
  v6Forwards := []
  pPoamIrepFoIA := Folder.empty
  policies := policies.map entry
  tables := fun _ T => if T = .keyword then keywords.map entry else []

theorem plainStart_valid {v4 policies keywords : List ULONG} (hv4 : Delivered v4)
    (hpolicies : Delivered policies) (hkeywords : Delivered keywords) :
    (plainStart v4 policies keywords).Valid := by
  have hnumbers : ∀ xs : List ULONG, numbersOf (xs.map entry) = xs := by
    intro xs
    rw [numbersOf, List.map_map]
    exact List.map_id xs
  have hnil : Delivered [] := ⟨List.nodup_nil, by simp⟩
  refine ⟨(hnumbers v4).symm ▸ hv4, hnil, (hnumbers policies).symm ▸ hpolicies, fun k T => ?_⟩
  cases T with
  | keyword => exact (hnumbers keywords).symm ▸ hkeywords
  | url => exact hnil
  | app => exact hnil

theorem allNumbered_plain : (plainStart [5] [1] [2, 9]).AllNumbered := by
  apply ((plainStart [5] [1] [2, 9]).allNumbered_iff (plainStart_valid (by decide +kernel)
    (by decide +kernel) (by decide +kernel))).mpr
  refine ⟨clear_of_notMem _ (by decide +kernel), clear_of_notMem _ (by decide +kernel),
    clear_of_notMem _ (by decide +kernel), fun k number hk T => ?_⟩
  have hone : (plainStart [5] [1] [2, 9]).policyNumbers = [1] := by decide +kernel
  have hnumber : number = 1 := by
    rw [hone] at hk
    cases k with
    | zero => exact (Option.some.inj hk).symm
    | succ k => cases hk
  rw [hnumber, if_pos (Or.inr (by decide))]
  apply clear_of_notMem
  cases T with
  | url => exact List.not_mem_nil
  | keyword => exact (by decide +kernel : 0 ∉ numbersOf ([2, 9].map entry))
  | app => exact List.not_mem_nil

/-- A route without a number ahead of the one with the first number, and the
keyword of a policy whose number has ten digits. -/
theorem loads_not_numbered :
    ((plainStart [0, 1] [] []).Valid ∧ ¬ (plainStart [0, 1] [] []).AllNumbered) ∧
      (plainStart [] [4000000000] [1]).Valid ∧
        ¬ (plainStart [] [4000000000] [1]).AllNumbered := by
  refine ⟨⟨plainStart_valid (by decide +kernel) (by decide +kernel) (by decide +kernel),
    fun h => ?_⟩, plainStart_valid (by decide +kernel) (by decide +kernel) (by decide +kernel),
    fun h => ?_⟩
  · have hdistinct := h.v4Forwards.distinct
    revert hdistinct
    decide +kernel
  · have hsub := (plainStart [] [4000000000] [1]).subTables_getElem? 0
    have hnumbers : (plainStart [] [4000000000] [1]).policyNumbers = [4000000000] := by
      decide +kernel
    rw [hnumbers] at hsub
    have hlisted := (h.tables 0 _ hsub .keyword).listed.length_eq
    revert hlisted
    decide +kernel

end Initialize

end CcspPandM.TableLoads
