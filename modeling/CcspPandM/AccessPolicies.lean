import CcspPandM.KeyedList
import CcspPandM.LanHosts
import CcspPandM.Runs

/-!
The internet-access policies in the backend's store and in a buffer that is read from it. A
policy that is added or taken out makes the buffer be freed and read anew; a policy that is
set is changed in the buffer first and stored then. The calls of the store may fail, and a
list without policies takes no buffer.
-/
namespace CcspPandM.AccessPolicies

open CString KeyedList LanHosts Runs

/-- The buffer with the policies, if there is one, or what its pointer is left at. -/
inductive Buffer where
  | null
  | block (entries : List iap_entry_t)
  | freed
  deriving DecidableEq

def Buffer.entries : Buffer → Option (List iap_entry_t)
  | .null => some []
  | .block l => some l
  | .freed => none

def Buffer.ofList (l : List iap_entry_t) : Buffer := if l = [] then .null else .block l

structure State where
  stored : List iap_entry_t
  g_iaps : Buffer
  returned : Bool
  deriving DecidableEq

/-- Which of the library's calls succeed, `refreshInit` being the second `Utopia_Init`. -/
structure Answers where
  init : Bool
  add : Bool
  find : Bool
  edit : Bool
  delete : Bool
  refreshInit : Bool
  get : Bool

section Calls

variable (IPADDR_SZ : ℕ) (ans : Answers)

/-- A policy of the name is changed where it stands. No entry is an error. -/
def Utopia_AddInternetAccessPolicy (stored : List iap_entry_t) (iap : Option iap_entry_t) :
    Option (List iap_entry_t) :=
  match iap with
  | none => none
  | some iap => if ans.add then some (put iap_entry_t.policyname stored iap) else none

def Utopia_FindInternetAccessPolicy (stored : List iap_entry_t) (name : CStr) : Option ℕ :=
  if ans.find then stored.findIdx? (fun e => e.policyname = name) else none

def Utopia_EditInternetAccessPolicy (stored : List iap_entry_t) (index : ℕ)
    (iap : Option iap_entry_t) : Option (List iap_entry_t) :=
  match iap with
  | none => none
  | some iap => if ans.edit ∧ index < stored.length then some (stored.set index iap) else none

def Utopia_DeleteInternetAccessPolicy (stored : List iap_entry_t) (name : CStr) :
    Option (List iap_entry_t) :=
  if ans.delete ∧ name ∈ stored.map iap_entry_t.policyname then
    some (drop iap_entry_t.policyname stored name)
  else none

/-- A freed buffer has no second free. -/
def refresh_be_buf (g_iaps : Buffer) (stored : List iap_entry_t) : Option Buffer :=
  if g_iaps = .freed then none
  else if ans.refreshInit ∧ ans.get then some (Buffer.ofList stored)
  else if g_iaps = .null then some .null
  else some .freed

def zeroedPolicy : iap_entry_t where
  tr_inst_num := 0
  policyname := []
  enabled := false
  allow_access := false
  tod := { day := 0, start_time := [], stop_time := [], all_day := false }
  lanhosts_set := false
  lanhosts :=
    { mac_count := 0, maclist := [], ip_count := 0, iplist := [], iprange_count := 0
      iprangelist := [] }

/-- The entry that is added, with the defaults the data model does not know. -/
def newPolicy (pEntry : COSA_DML_IA_POLICY) : iap_entry_t :=
  { (middle_layer_2_be_struct IPADDR_SZ pEntry zeroedPolicy).1 with
    allow_access := true
    tod :=
      { day := 127, start_time := "00:00".toList, stop_time := "23:59".toList, all_day := true } }

def CosaDmlIaAddPolicy (s : State) (pEntry : COSA_DML_IA_POLICY) : Option State :=
  if ans.init = false then some { s with returned := false }
  else
    let iap := newPolicy IPADDR_SZ pEntry
    let stored := (Utopia_AddInternetAccessPolicy ans s.stored (some iap)).getD s.stored
    (refresh_be_buf ans s.g_iaps stored).map fun g_iaps =>
      { stored := stored, g_iaps := g_iaps, returned := true }

def CosaDmlIaDelPolicy (s : State) (ulInstanceNum : ULONG) : Option State :=
  if ans.init = false then some { s with returned := false }
  else do
    let entries ← s.g_iaps.entries
    let deleted := (entries.find? fun e => e.tr_inst_num = ulInstanceNum).bind fun e =>
      Utopia_DeleteInternetAccessPolicy ans s.stored e.policyname
    let stored := deleted.getD s.stored
    let g_iaps ← refresh_be_buf ans s.g_iaps stored
    some { stored := stored, g_iaps := g_iaps, returned := deleted.isSome }

/-- What a policy whose entry was changed in the buffer is stored as; the store finds it by
its name, or by its old one if that was changed. -/
def storeChanged (stored : List iap_entry_t) (alias_changed : Bool) (old_name : CStr)
    (p_iap : Option iap_entry_t) : List iap_entry_t :=
  if alias_changed = false then (Utopia_AddInternetAccessPolicy ans stored p_iap).getD stored
  else
    match Utopia_FindInternetAccessPolicy ans stored old_name with
    | none => stored
    | some old_index => (Utopia_EditInternetAccessPolicy ans stored old_index p_iap).getD stored

def CosaDmlIaSetPolicy (s : State) (ulInstanceNumber : ULONG) (pEntry : COSA_DML_IA_POLICY) :
    Option State := do
  let entries ← s.g_iaps.entries
  match entries.findIdx? (fun e => e.tr_inst_num = ulInstanceNumber) with
  | none => some { s with returned := false }
  | some i =>
    let old ← entries[i]?
    let changed := middle_layer_2_be_struct IPADDR_SZ pEntry old
    let g_iaps := Buffer.block (entries.set i changed.1)
    if ans.init = false then some { s with g_iaps := g_iaps, returned := false }
    else
      some
        { stored := storeChanged ans s.stored changed.2 old.policyname (some changed.1)
          g_iaps := g_iaps, returned := true }

/-- The pointer to the entry is never set here. -/
def CosaDmlIaSetPolicyValues (s : State) (ulIndex : ℕ) (ulInstanceNumber : ULONG)
    (pAlias : CStr) : Option State := do
  let entries ← s.g_iaps.entries
  let old ← entries[ulIndex]?
  let alias_changed := decide (old.policyname ≠ pAlias)
  let g_iaps := Buffer.block
    (entries.set ulIndex { old with tr_inst_num := ulInstanceNumber, policyname := pAlias })
  if ans.init = false then some { s with g_iaps := g_iaps, returned := false }
  else
    some
      { stored := storeChanged ans s.stored alias_changed old.policyname none
        g_iaps := g_iaps, returned := true }

inductive Call where
  | add (pEntry : COSA_DML_IA_POLICY)
  | del (ulInstanceNum : ULONG)
  | set (ulInstanceNumber : ULONG) (pEntry : COSA_DML_IA_POLICY)
  | setValues (ulIndex : ℕ) (ulInstanceNumber : ULONG) (pAlias : CStr)

end Calls

variable (IPADDR_SZ : ℕ)

def step (s : State) (c : Call × Answers) : Option State :=
  match c.1 with
  | .add pEntry => CosaDmlIaAddPolicy IPADDR_SZ c.2 s pEntry
  | .del ulInstanceNum => CosaDmlIaDelPolicy c.2 s ulInstanceNum
  | .set ulInstanceNumber pEntry => CosaDmlIaSetPolicy IPADDR_SZ c.2 s ulInstanceNumber pEntry
  | .setValues ulIndex ulInstanceNumber pAlias =>
    CosaDmlIaSetPolicyValues c.2 s ulIndex ulInstanceNumber pAlias

def asked (l : List iap_entry_t) : Call → List iap_entry_t
  | .add pEntry => l ++ [newPolicy IPADDR_SZ pEntry]
  | .del num => drop iap_entry_t.tr_inst_num l num
  | .set num pEntry => l.map fun e =>
    if e.tr_inst_num = num then (middle_layer_2_be_struct IPADDR_SZ pEntry e).1 else e
  | .setValues i num pAlias => l.modify i fun e =>
    { e with tr_inst_num := num, policyname := pAlias }

/-- A call that succeeds changes what it names, in the store and in the buffer; one that
fails changes neither. -/
def Kept (s : State) (c : Call × Answers) (s' : State) : Prop :=
  if s'.returned then
    s'.stored = asked IPADDR_SZ s.stored c.1 ∧
      s'.g_iaps.entries = some (asked IPADDR_SZ s.stored c.1)
  else s'.stored = s.stored ∧ s'.g_iaps.entries = s.g_iaps.entries

/-- The numbers and names that a call gives are those of no other policy. -/
def Legal (s : State) (c : Call × Answers) : Prop :=
  match c.1 with
  | .add pEntry => ∀ e ∈ s.stored,
    e.tr_inst_num ≠ pEntry.InstanceNumber ∧ e.policyname ≠ pEntry.Alias.text
  | .del _ => True
  | .set num pEntry => ∀ e ∈ s.stored, e.tr_inst_num ≠ num →
    e.tr_inst_num ≠ pEntry.InstanceNumber ∧ e.policyname ≠ pEntry.Alias.text
  | .setValues i num pAlias => ∀ j e, s.stored[j]? = some e → j ≠ i →
    e.tr_inst_num ≠ num ∧ e.policyname ≠ pAlias

def Stores (ans : Answers) (alias_changed : Bool) : Prop :=
  ans.init ∧ if alias_changed then ans.find ∧ ans.edit else ans.add

/-- When a call does what it should. -/
def Ok (s : State) (c : Call × Answers) : Prop :=
  match c.1 with
  | .add _ => c.2.init = false ∨ (c.2.add ∧ c.2.refreshInit ∧ c.2.get)
  | .del _ => c.2.init = false ∨ (c.2.refreshInit ∧ c.2.get) ∨ s.g_iaps = .null
  | .set num pEntry => ∀ e ∈ s.stored, e.tr_inst_num = num →
    Stores c.2 (middle_layer_2_be_struct IPADDR_SZ pEntry e).2 ∨
      (middle_layer_2_be_struct IPADDR_SZ pEntry e).1 = e
  | .setValues i num pAlias => ∃ e, s.stored[i]? = some e ∧ e.tr_inst_num = num ∧
    e.policyname = pAlias

/-- The buffer shows the stored policies, whose numbers and names are distinct. -/
structure Agree (s : State) : Prop where
  shown : s.g_iaps.entries = some s.stored
  numbers : (s.stored.map iap_entry_t.tr_inst_num).Nodup
  names : (s.stored.map iap_entry_t.policyname).Nodup

section Steps

variable {IPADDR_SZ}

theorem entries_ofList (l : List iap_entry_t) : (Buffer.ofList l).entries = some l := by
  rw [Buffer.ofList]
  split
  · next h =>
    rw [h]
    rfl
  · rfl

/-- What a refresh leaves of a buffer that is not freed. -/
def refreshed (ans : Answers) (g : Buffer) (stored : List iap_entry_t) : Buffer :=
  if ans.refreshInit ∧ ans.get then Buffer.ofList stored
  else if g = .null then .null
  else .freed

variable {l : List iap_entry_t}

theorem refresh_eq {g : Buffer} (hg : g.entries = some l) (ans : Answers)
    (stored : List iap_entry_t) : refresh_be_buf ans g stored = some (refreshed ans g stored) := by
  have hfreed : g ≠ .freed := by
    rintro rfl
    cases hg
  simp only [refresh_be_buf, refreshed, if_neg hfreed, apply_ite some]

variable {ans : Answers}

theorem refreshed_entries_iff {g : Buffer} (stored : List iap_entry_t) :
    (refreshed ans g stored).entries = some stored ↔
      (ans.refreshInit = true ∧ ans.get = true) ∨ (g = .null ∧ stored = []) := by
  rw [refreshed]
  by_cases hok : ans.refreshInit = true ∧ ans.get = true
  · rw [if_pos hok, entries_ofList]
    exact ⟨fun _ => Or.inl hok, fun _ => rfl⟩
  · rw [if_neg hok, or_iff_right hok]
    by_cases hnull : g = .null
    · rw [if_pos hnull, and_iff_right hnull]
      exact ⟨fun h => (Option.some.inj h).symm, fun h => by rw [h]; rfl⟩
    · rw [if_neg hnull]
      constructor
      · intro h
        cases h
      · intro h
        exact absurd h.1 hnull

variable {s : State}

theorem kept_unchanged {c : Call × Answers} :
    Kept IPADDR_SZ s c { s with returned := false } := ⟨rfl, rfl⟩

theorem policyname_newPolicy (pEntry : COSA_DML_IA_POLICY) :
    (newPolicy IPADDR_SZ pEntry).policyname = pEntry.Alias.text :=
  @policyname_middle_layer IPADDR_SZ zeroedPolicy pEntry

variable {pEntry : COSA_DML_IA_POLICY}

theorem add_spec (hs : Agree s)
    (hlegal : Legal s (.add pEntry, ans)) (hinit : ¬ ans.init = false) :
    let stored := if ans.add then s.stored ++ [newPolicy IPADDR_SZ pEntry] else s.stored
    CosaDmlIaAddPolicy IPADDR_SZ ans s pEntry =
      some { stored := stored, g_iaps := refreshed ans s.g_iaps stored, returned := true } := by
  intro stored
  have hname : (newPolicy IPADDR_SZ pEntry).policyname ∉ s.stored.map iap_entry_t.policyname := by
    rw [policyname_newPolicy]
    intro h
    obtain ⟨e, he, heq⟩ := List.mem_map.mp h
    exact (hlegal e he).2 heq
  have hadd : (Utopia_AddInternetAccessPolicy ans s.stored
      (some (newPolicy IPADDR_SZ pEntry))).getD s.stored = stored := by
    rw [Utopia_AddInternetAccessPolicy, put_of_notMem hname]
    dsimp only [stored]
    split <;> rfl
  simp only [CosaDmlIaAddPolicy, if_neg hinit, hadd, refresh_eq hs.shown, Option.map_some]

theorem does_add (hs : Agree s)
    (hlegal : Legal s (.add pEntry, ans)) :
    (∃ s', step IPADDR_SZ s (.add pEntry, ans) = some s' ∧
      Kept IPADDR_SZ s (.add pEntry, ans) s') ↔ Ok IPADDR_SZ s (.add pEntry, ans) := by
  change (∃ s', CosaDmlIaAddPolicy IPADDR_SZ ans s pEntry = some s' ∧ _) ↔
    (ans.init = false ∨ (ans.add = true ∧ ans.refreshInit = true ∧ ans.get = true))
  by_cases hinit : ans.init = false
  · rw [CosaDmlIaAddPolicy, if_pos hinit]
    exact ⟨fun _ => Or.inl hinit, fun _ => ⟨_, rfl, kept_unchanged⟩⟩
  rw [add_spec hs hlegal hinit, or_iff_right hinit]
  have hlonger : s.stored ++ [newPolicy IPADDR_SZ pEntry] ≠ s.stored := by
    intro h
    have hlen := congrArg List.length h
    rw [List.length_append, List.length_singleton] at hlen
    omega
  constructor
  · rintro ⟨s', hstep, hkept⟩
    cases hstep
    obtain ⟨hstored, hshown⟩ := hkept
    have hadd : ans.add = true := by
      by_contra hfails
      rw [if_neg hfails] at hstored
      exact hlonger hstored.symm
    rw [if_pos hadd] at hshown
    rcases (refreshed_entries_iff _).mp hshown with hok | ⟨-, hnil⟩
    · exact ⟨hadd, hok⟩
    · exact absurd hnil (List.append_ne_nil_of_right_ne_nil _ (List.cons_ne_nil _ _))
  · rintro ⟨hadd, hok⟩
    rw [if_pos hadd]
    exact ⟨_, rfl, rfl, (refreshed_entries_iff _).mpr (Or.inl hok)⟩

variable {num : ULONG}

theorem del_spec (hs : Agree s)
    (hinit : ¬ ans.init = false) :
    let deleted := ans.delete = true ∧ num ∈ s.stored.map iap_entry_t.tr_inst_num
    let stored := if deleted then drop iap_entry_t.tr_inst_num s.stored num else s.stored
    CosaDmlIaDelPolicy ans s num =
      some { stored := stored, g_iaps := refreshed ans s.g_iaps stored
             returned := decide deleted } := by
  intro deleted stored
  have hfind : (s.stored.find? fun e => e.tr_inst_num = num).bind (fun e =>
      Utopia_DeleteInternetAccessPolicy ans s.stored e.policyname) =
      if deleted then some (drop iap_entry_t.tr_inst_num s.stored num) else none := by
    cases he : s.stored.find? fun e => e.tr_inst_num = num with
    | none =>
      have hno : num ∉ s.stored.map iap_entry_t.tr_inst_num := (find_eq_none_iff num).mp he
      rw [Option.bind_none, if_neg fun h => hno h.2]
    | some e =>
      obtain ⟨hmem, hnum⟩ := (find_eq_some_iff hs.numbers num e).mp he
      have hname := List.mem_map_of_mem (f := iap_entry_t.policyname) hmem
      obtain ⟨i, hi⟩ := List.mem_iff_getElem?.mp hmem
      have hsame : drop iap_entry_t.policyname s.stored e.policyname =
          drop iap_entry_t.tr_inst_num s.stored num := by
        rw [← hnum, drop_eq_eraseIdx hs.names hi, drop_eq_eraseIdx hs.numbers hi]
      rw [Option.bind_some, Utopia_DeleteInternetAccessPolicy, hsame]
      apply if_congr _ rfl rfl
      rw [and_iff_left hname]
      exact (and_iff_left (hnum ▸ List.mem_map_of_mem hmem)).symm
  rw [CosaDmlIaDelPolicy, if_neg hinit, hs.shown]
  simp only [Option.bind_eq_bind, Option.bind_some, hfind]
  by_cases hdel : deleted
  · rw [if_pos hdel, Option.getD_some, refresh_eq hs.shown, Option.bind_some]
    simp only [stored, if_pos hdel, Option.isSome_some, decide_eq_true hdel]
  · rw [if_neg hdel, Option.getD_none, refresh_eq hs.shown, Option.bind_some]
    simp only [stored, if_neg hdel, Option.isSome_none, decide_eq_false hdel]

theorem does_del (hs : Agree s) :
    (∃ s', step IPADDR_SZ s (.del num, ans) = some s' ∧
      Kept IPADDR_SZ s (.del num, ans) s') ↔ Ok IPADDR_SZ s (.del num, ans) := by
  change (∃ s', CosaDmlIaDelPolicy ans s num = some s' ∧ _) ↔
    (ans.init = false ∨ (ans.refreshInit = true ∧ ans.get = true) ∨ s.g_iaps = .null)
  by_cases hinit : ans.init = false
  · rw [CosaDmlIaDelPolicy, if_pos hinit]
    exact ⟨fun _ => Or.inl hinit, fun _ => ⟨_, rfl, kept_unchanged⟩⟩
  rw [del_spec hs hinit, or_iff_right hinit]
  by_cases hdel : ans.delete = true ∧ num ∈ s.stored.map iap_entry_t.tr_inst_num
  · rw [if_pos hdel, decide_eq_true hdel]
    have hbuffer : s.g_iaps ≠ .null := by
      intro hnull
      have hshown := hs.shown
      rw [hnull] at hshown
      rw [← Option.some.inj hshown] at hdel
      exact List.not_mem_nil hdel.2
    rw [or_iff_left hbuffer]
    constructor
    · rintro ⟨s', hstep, hkept⟩
      cases hstep
      rcases (refreshed_entries_iff _).mp hkept.2 with hok | hnull
      · exact hok
      · exact absurd hnull.1 hbuffer
    · intro hok
      exact ⟨_, rfl, rfl, (refreshed_entries_iff _).mpr (Or.inl hok)⟩
  · rw [if_neg hdel, decide_eq_false hdel]
    have hempty : s.g_iaps = .null → s.stored = [] := by
      intro hnull
      have hshown := hs.shown
      rw [hnull] at hshown
      exact (Option.some.inj hshown).symm
    constructor
    · rintro ⟨s', hstep, hkept⟩
      cases hstep
      have hshown : (refreshed ans s.g_iaps s.stored).entries = some s.stored :=
        hkept.2.trans hs.shown
      exact ((refreshed_entries_iff _).mp hshown).imp_right And.left
    · intro hok
      have hshown := (refreshed_entries_iff s.stored).mpr
        (hok.imp_right fun hnull => ⟨hnull, hempty hnull⟩)
      exact ⟨_, rfl, rfl, hshown.trans hs.shown.symm⟩

theorem storeChanged_eq (hnames : (l.map iap_entry_t.policyname).Nodup)
    {i : ℕ} {old new : iap_entry_t} (hold : l[i]? = some old) (ans : Answers) {changed : Bool}
    (hchanged : changed = decide (old.policyname ≠ new.policyname)) :
    storeChanged ans l changed old.policyname (some new) =
      if (if changed then ans.find && ans.edit else ans.add) then l.set i new else l := by
  have hi : i < l.length := (List.getElem?_eq_some_iff.mp hold).1
  cases changed with
  | false =>
    have hname : old.policyname = new.policyname := by
      by_contra hne
      rw [decide_eq_true hne] at hchanged
      cases hchanged
    have hput : put iap_entry_t.policyname l new = l.set i new := by
      have hmem : new.policyname ∈ l.map iap_entry_t.policyname := by
        rw [← hname]
        exact List.mem_map_of_mem (List.mem_of_getElem? hold)
      rw [put, if_pos hmem, ← hname]
      exact map_change_eq_set hnames hold fun _ => new
    rw [storeChanged, if_pos rfl, Utopia_AddInternetAccessPolicy, hput]
    cases ans.add <;> rfl
  | true =>
    have hfind := findIdx_of_getElem? hnames hold
    rw [storeChanged, if_neg (by decide), Utopia_FindInternetAccessPolicy, hfind]
    cases ans.find with
    | false => rfl
    | true =>
      rw [if_pos rfl]
      simp only [Utopia_EditInternetAccessPolicy, and_iff_left hi]
      cases ans.edit <;> rfl

theorem stores_iff (ans : Answers) (changed : Bool) :
    Stores ans changed ↔
      ans.init = true ∧ (if changed then ans.find && ans.edit else ans.add) = true := by
  cases changed <;> simp [Stores]

theorem set_missing (hs : Agree s) (ans : Answers)
    (hnum : num ∉ s.stored.map iap_entry_t.tr_inst_num) (pEntry : COSA_DML_IA_POLICY) :
    CosaDmlIaSetPolicy IPADDR_SZ ans s num pEntry = some { s with returned := false } := by
  have hnone : s.stored.findIdx? (fun e => e.tr_inst_num = num) = none := by
    rw [List.findIdx?_eq_none_iff]
    intro e he
    apply decide_eq_false
    intro heq
    exact hnum (List.mem_map.mpr ⟨e, he, heq⟩)
  simp only [CosaDmlIaSetPolicy, hs.shown, Option.bind_eq_bind, Option.bind_some, hnone]

theorem set_found (hs : Agree s) (ans : Answers) {i : ℕ} {old : iap_entry_t}
    (hold : s.stored[i]? = some old) (pEntry : COSA_DML_IA_POLICY) :
    let changed := middle_layer_2_be_struct IPADDR_SZ pEntry old
    CosaDmlIaSetPolicy IPADDR_SZ ans s old.tr_inst_num pEntry =
      some
        { stored :=
            if ans.init = true ∧ (if changed.2 then ans.find && ans.edit else ans.add) = true then
              s.stored.set i changed.1
            else s.stored
          g_iaps := .block (s.stored.set i changed.1)
          returned := ans.init } := by
  intro changed
  have hfind := findIdx_of_getElem? hs.numbers hold
  have hchanged : changed.2 = decide (old.policyname ≠ changed.1.policyname) := by
    rw [policyname_middle_layer]
    rfl
  have hstore := storeChanged_eq hs.names hold ans hchanged
  simp only [CosaDmlIaSetPolicy, hs.shown, Option.bind_eq_bind, Option.bind_some, hfind, hold]
  cases hinit : ans.init with
  | false =>
    rw [if_pos rfl, if_neg fun h => Bool.false_ne_true h.1]
  | true =>
    rw [if_neg (by decide), hstore]
    simp only [true_and]
    rfl

theorem asked_set (hs : Agree s) {i : ℕ} {old : iap_entry_t}
    (hold : s.stored[i]? = some old) (pEntry : COSA_DML_IA_POLICY) :
    asked IPADDR_SZ s.stored (.set old.tr_inst_num pEntry) =
      s.stored.set i (middle_layer_2_be_struct IPADDR_SZ pEntry old).1 :=
  map_change_eq_set hs.numbers hold fun e => (middle_layer_2_be_struct IPADDR_SZ pEntry e).1

theorem set_eq_self_iff {i : ℕ} {old : iap_entry_t}
    (hold : l[i]? = some old) (new : iap_entry_t) : l.set i new = l ↔ new = old := by
  constructor
  · intro h
    have hi := (List.getElem?_eq_some_iff.mp hold).1
    have hget := List.getElem?_set_self (a := new) hi
    rw [h, hold, Option.some.injEq] at hget
    exact hget.symm
  · rintro rfl
    exact set_of_getElem? hold

theorem does_set (hs : Agree s) :
    (∃ s', step IPADDR_SZ s (.set num pEntry, ans) = some s' ∧
      Kept IPADDR_SZ s (.set num pEntry, ans) s') ↔ Ok IPADDR_SZ s (.set num pEntry, ans) := by
  change (∃ s', CosaDmlIaSetPolicy IPADDR_SZ ans s num pEntry = some s' ∧ _) ↔
    ∀ e ∈ s.stored, e.tr_inst_num = num →
      Stores ans (middle_layer_2_be_struct IPADDR_SZ pEntry e).2 ∨
        (middle_layer_2_be_struct IPADDR_SZ pEntry e).1 = e
  by_cases hnum : num ∈ s.stored.map iap_entry_t.tr_inst_num
  · obtain ⟨old, hmem, rfl⟩ := List.mem_map.mp hnum
    obtain ⟨i, hold⟩ := List.mem_iff_getElem?.mp hmem
    have hasked := @asked_set IPADDR_SZ _ hs _ _ hold pEntry
    have hself := set_eq_self_iff hold (middle_layer_2_be_struct IPADDR_SZ pEntry old).1
    rw [set_found hs ans hold]
    constructor
    · rintro ⟨s', hstep, hkept⟩ e he heq
      obtain rfl : e = old := eq_of_key hs.numbers he hmem heq
      cases hstep
      rw [stores_iff]
      cases hinit : ans.init with
      | false =>
        rw [Kept, hinit, if_neg Bool.false_ne_true] at hkept
        exact Or.inr (hself.mp (Option.some.inj (hkept.2.trans hs.shown)))
      | true =>
        rw [Kept, hinit, if_pos rfl, hasked] at hkept
        by_cases hok : (if (middle_layer_2_be_struct IPADDR_SZ pEntry e).2 then
            ans.find && ans.edit else ans.add) = true
        · exact Or.inl ⟨rfl, hok⟩
        · have hstored := hkept.1
          rw [if_neg fun h => hok h.2] at hstored
          exact Or.inr (hself.mp hstored.symm)
    · intro hok
      refine ⟨_, rfl, ?_⟩
      rcases hok old hmem rfl with hstores | hsame
      · obtain ⟨hinit, hok⟩ := (stores_iff _ _).mp hstores
        rw [Kept, hinit, if_pos rfl, hasked, if_pos ⟨rfl, hok⟩]
        exact ⟨rfl, rfl⟩
      · have hlist := hself.mpr hsame
        cases hinit : ans.init with
        | false =>
          rw [Kept, if_neg Bool.false_ne_true, if_neg fun h => Bool.false_ne_true h.1, hlist]
          exact ⟨rfl, hs.shown.symm⟩
        | true =>
          rw [Kept, if_pos rfl, hasked, hlist, ite_self]
          exact ⟨rfl, rfl⟩
  · rw [set_missing hs ans hnum]
    constructor
    · intro _ e he heq
      exact absurd (List.mem_map.mpr ⟨e, he, heq⟩) hnum
    · intro _
      exact ⟨_, rfl, kept_unchanged⟩

theorem storeChanged_none (ans : Answers) (l : List iap_entry_t) (changed : Bool) (name : CStr) :
    storeChanged ans l changed name none = l := by
  rw [storeChanged]
  split
  · rfl
  · split <;> rfl

theorem setValues_spec (hs : Agree s) (ans : Answers) {i : ℕ} {old : iap_entry_t}
    (hold : s.stored[i]? = some old) (num : ULONG) (pAlias : CStr) :
    CosaDmlIaSetPolicyValues ans s i num pAlias =
      some
        { stored := s.stored
          g_iaps := .block
            (s.stored.set i { old with tr_inst_num := num, policyname := pAlias })
          returned := ans.init } := by
  simp only [CosaDmlIaSetPolicyValues, hs.shown, Option.bind_eq_bind, Option.bind_some, hold,
    storeChanged_none]
  cases ans.init with
  | false => rfl
  | true => rfl

theorem does_setValues {i : ℕ} {pAlias : CStr} (hs : Agree s) :
    (∃ s', step IPADDR_SZ s (.setValues i num pAlias, ans) = some s' ∧
      Kept IPADDR_SZ s (.setValues i num pAlias, ans) s') ↔
      Ok IPADDR_SZ s (.setValues i num pAlias, ans) := by
  change (∃ s', CosaDmlIaSetPolicyValues ans s i num pAlias = some s' ∧ _) ↔
    ∃ e, s.stored[i]? = some e ∧ e.tr_inst_num = num ∧ e.policyname = pAlias
  cases hold : s.stored[i]? with
  | none =>
    have hnone : CosaDmlIaSetPolicyValues ans s i num pAlias = none := by
      simp only [CosaDmlIaSetPolicyValues, hs.shown, Option.bind_eq_bind, Option.bind_some, hold,
        Option.bind_none]
    rw [hnone]
    constructor
    · rintro ⟨s', hstep, -⟩
      cases hstep
    · rintro ⟨e, he, -⟩
      cases he
  | some old =>
    have hself := set_eq_self_iff hold { old with tr_inst_num := num, policyname := pAlias }
    have hsame : { old with tr_inst_num := num, policyname := pAlias } = old ↔
        old.tr_inst_num = num ∧ old.policyname = pAlias := by
      constructor
      · intro h
        exact ⟨(congrArg iap_entry_t.tr_inst_num h).symm,
          (congrArg iap_entry_t.policyname h).symm⟩
      · rintro ⟨rfl, rfl⟩
        rfl
    have hasked : asked IPADDR_SZ s.stored (.setValues i num pAlias) =
        s.stored.set i { old with tr_inst_num := num, policyname := pAlias } :=
      modify_of_getElem? hold _
    rw [setValues_spec hs ans hold]
    constructor
    · rintro ⟨s', hstep, hkept⟩
      cases hstep
      refine ⟨old, rfl, hsame.mp (hself.mp ?_)⟩
      cases hinit : ans.init with
      | false =>
        rw [Kept, hinit, if_neg Bool.false_ne_true] at hkept
        exact Option.some.inj (hkept.2.trans hs.shown)
      | true =>
        rw [Kept, hinit, if_pos rfl, hasked] at hkept
        exact hkept.1.symm
    · rintro ⟨e, he, hnum, halias⟩
      cases he
      have hlist := hself.mpr (hsame.mpr ⟨hnum, halias⟩)
      refine ⟨_, rfl, ?_⟩
      cases hinit : ans.init with
      | false =>
        rw [Kept, if_neg Bool.false_ne_true, hlist]
        exact ⟨rfl, hs.shown.symm⟩
      | true =>
        rw [Kept, if_pos rfl, hasked, hlist]
        exact ⟨rfl, rfl⟩

theorem does_call (c : Call × Answers) (hs : Agree s) (hlegal : Legal s c) :
    (∃ s', step IPADDR_SZ s c = some s' ∧ Kept IPADDR_SZ s c s') ↔ Ok IPADDR_SZ s c := by
  obtain ⟨c, ans⟩ := c
  cases c with
  | add pEntry => exact does_add hs hlegal
  | del num => exact does_del hs
  | set num pEntry => exact does_set hs
  | setValues i num pAlias => exact does_setValues hs

theorem asked_distinct (hs : Agree s) {c : Call × Answers} (hlegal : Legal s c) :
    ((asked IPADDR_SZ s.stored c.1).map iap_entry_t.tr_inst_num).Nodup ∧
      ((asked IPADDR_SZ s.stored c.1).map iap_entry_t.policyname).Nodup := by
  obtain ⟨c, ans⟩ := c
  cases c with
  | add pEntry =>
    change ((s.stored ++ [_]).map _).Nodup ∧ ((s.stored ++ [_]).map _).Nodup
    rw [List.map_append, List.map_append, List.map_singleton, List.map_singleton,
      policyname_newPolicy]
    refine ⟨List.nodup_append.mpr ⟨hs.numbers, List.nodup_singleton _, ?_⟩,
      List.nodup_append.mpr ⟨hs.names, List.nodup_singleton _, ?_⟩⟩
    · intro a ha b hb
      obtain ⟨e, he, rfl⟩ := List.mem_map.mp ha
      rw [List.mem_singleton.mp hb]
      exact (hlegal e he).1
    · intro a ha b hb
      obtain ⟨e, he, rfl⟩ := List.mem_map.mp ha
      rw [List.mem_singleton.mp hb]
      exact (hlegal e he).2
  | del num => exact ⟨nodup_drop hs.numbers num, nodup_drop hs.names num⟩
  | set num pEntry =>
    by_cases hnum : num ∈ s.stored.map iap_entry_t.tr_inst_num
    · obtain ⟨old, hmem, rfl⟩ := List.mem_map.mp hnum
      obtain ⟨i, hold⟩ := List.mem_iff_getElem?.mp hmem
      rw [asked_set hs hold]
      have hother : ∀ j b, s.stored[j]? = some b → j ≠ i →
          b.tr_inst_num ≠ pEntry.InstanceNumber ∧ b.policyname ≠ pEntry.Alias.text := by
        intro j b hb hj
        apply hlegal b (List.mem_of_getElem? hb)
        intro hkey
        apply hj
        have hfind := findIdx_of_getElem? hs.numbers hb
        rw [hkey, findIdx_of_getElem? hs.numbers hold] at hfind
        exact (Option.some.inj hfind).symm
      refine ⟨nodup_map_set hs.numbers fun j b hb hj => (hother j b hb hj).1,
        nodup_map_set hs.names fun j b hb hj => ?_⟩
      rw [policyname_middle_layer]
      exact (hother j b hb hj).2
    · have hsame : asked IPADDR_SZ s.stored (.set num pEntry) = s.stored :=
        map_change_of_notMem hnum _
      rw [hsame]
      exact ⟨hs.numbers, hs.names⟩
  | setValues i num pAlias =>
    cases hold : s.stored[i]? with
    | none =>
      have hsame : asked IPADDR_SZ s.stored (.setValues i num pAlias) = s.stored :=
        List.modify_eq_self (List.getElem?_eq_none_iff.mp hold)
      rw [hsame]
      exact ⟨hs.numbers, hs.names⟩
    | some old =>
      have hasked : asked IPADDR_SZ s.stored (.setValues i num pAlias) =
          s.stored.set i { old with tr_inst_num := num, policyname := pAlias } :=
        modify_of_getElem? hold _
      rw [hasked]
      exact ⟨nodup_map_set hs.numbers fun j b hb hj => (hlegal j b hb hj).1,
        nodup_map_set hs.names fun j b hb hj => (hlegal j b hb hj).2⟩

theorem agree_step {s s' : State} {c : Call × Answers} (hs : Agree s) (hlegal : Legal s c)
    (hok : Ok IPADDR_SZ s c) (hstep : step IPADDR_SZ s c = some s') : Agree s' := by
  obtain ⟨t, ht, hkept⟩ := (does_call c hs hlegal).mpr hok
  obtain rfl : t = s' := Option.some.inj (ht.symm.trans hstep)
  rw [Kept] at hkept
  split at hkept
  · obtain ⟨hnumbers, hnames⟩ := @asked_distinct IPADDR_SZ _ hs _ hlegal
    rw [← hkept.1] at hnumbers hnames
    exact ⟨by rw [hkept.1]; exact hkept.2, hnumbers, hnames⟩
  · obtain ⟨hstored, hentries⟩ := hkept
    refine ⟨?_, ?_, ?_⟩
    · rw [hentries, hstored]
      exact hs.shown
    · rw [hstored]
      exact hs.numbers
    · rw [hstored]
      exact hs.names

end Steps

/-- A policy is given back as it was stored exactly when no list of it has two different
addresses; and the calls of a run keep store and buffer right exactly when the condition
holds at every call. -/
theorem policies_kept_iff (hsize : 4 ≤ IPADDR_SZ) (brlan0 : Ip) :
    (∀ (p old : COSA_DML_IA_POLICY) (prev : iap_entry_t), WellFormed brlan0 p →
      (GivenBack p (be_struct_2_middle_layer brlan0
        (middle_layer_2_be_struct IPADDR_SZ p prev).1 old) ↔
        (∀ i < p.LanHost.MacCount, p.LanHost.MacList i = p.LanHost.MacList 0) ∧
        ∀ i < p.LanHost.IpCount, p.LanHost.IpList i = p.LanHost.IpList 0)) ∧
    ∀ (s : State) (calls : List (Call × Answers)), Agree s →
      StepsMeet (step IPADDR_SZ) Legal s calls →
      (Does (step IPADDR_SZ) (Kept IPADDR_SZ) s calls ↔
        StepsMeet (step IPADDR_SZ) (Ok IPADDR_SZ) s calls) := by
  refine ⟨fun p old prev hp => givenBack_iff prev old hsize hp, ?_⟩
  intro s calls hs hlegal
  exact @does_iff _ _ (step IPADDR_SZ) _ Legal _ Agree (fun _ c hs hl => does_call c hs hl)
    (fun _ _ _ hs hl hok hstep => agree_step hs hl hok hstep) _ _ hs hlegal

def bridgeAddr : Ip := fun j => [10, 0, 0, 1].getD j 0

def macPolicy (count : ℕ) : COSA_DML_IA_POLICY where
  InstanceNumber := 1
  Alias := Buf.snprintf "kids".toList
  bEnabled := true
  LanHost :=
    { bUseLanHosts := true, MacCount := count, IpCount := 0, IprCount := 0
      MacList := fun i j => [0, 17, 34, 51, 68, if i = 0 then 85 else 102].getD j 0
      IpList := fun _ => bridgeAddr
      IprList := fun _ => (bridgeAddr, bridgeAddr) }

theorem wellFormed_macPolicy {count : ℕ} (h : count ≤ 10) :
    WellFormed bridgeAddr (macPolicy count) where
  macs := h
  ips := Nat.zero_le _
  iprs := Nat.zero_le _
  network i hi := absurd hi (Nat.not_lt_zero i)
  starts i hi := absurd hi (Nat.not_lt_zero i)
  ends i hi := absurd hi (Nat.not_lt_zero i)

def allSucceed : Answers where
  init := true
  add := true
  find := true
  edit := true
  delete := true
  refreshInit := true
  get := true

def noPolicies : State where
  stored := []
  g_iaps := .null
  returned := true

theorem policies_kept_home :
    GivenBack (macPolicy 1) (be_struct_2_middle_layer bridgeAddr
      (middle_layer_2_be_struct 16 (macPolicy 1) zeroedPolicy).1 (macPolicy 0)) ∧
    Does (step 16) (Kept 16) noPolicies [(.add (macPolicy 1), allSucceed)] := by
  obtain ⟨hgiven, hruns⟩ := policies_kept_iff 16 (by decide) bridgeAddr
  refine ⟨(hgiven _ _ _ (wellFormed_macPolicy (by decide))).mpr ⟨?_, ?_⟩, (hruns _ _ ?_ ?_).mpr ?_⟩
  · intro i hi
    have hzero : i = 0 := Nat.lt_one_iff.mp hi
    rw [hzero]
  · intro i hi
    exact absurd hi (Nat.not_lt_zero i)
  · exact ⟨rfl, List.nodup_nil, List.nodup_nil⟩
  · refine ⟨?_, fun _ _ => trivial⟩
    intro e he
    cases he
  · exact ⟨Or.inr ⟨rfl, rfl, rfl⟩, fun _ _ => trivial⟩

/-- The second MAC address comes back as the first. -/
theorem second_mac_lost :
    ¬ GivenBack (macPolicy 2) (be_struct_2_middle_layer bridgeAddr
      (middle_layer_2_be_struct 16 (macPolicy 2) zeroedPolicy).1 (macPolicy 0)) := by
  intro h
  have hsame := ((givenBack_iff _ _ (by decide) (wellFormed_macPolicy (by decide))).mp h).1 1
    Nat.one_lt_two
  exact absurd (congrFun hsame 5) (by decide)

end CcspPandM.AccessPolicies
