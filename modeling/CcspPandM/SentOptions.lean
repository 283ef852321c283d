import CcspPandM.CString
import CcspPandM.KeyedList
import CcspPandM.Runs
import CcspPandM.StoreSlots

/-!
The sent options of the DHCPv6 client: an array grown with `realloc`, its
entries in numbered syscfg namespaces that count from 1, and the file the
dibbler client reads. Store and allocation calls succeed and the file opens; an
access past the array has no defined result.
-/
namespace CcspPandM.SentOptions

open CString KeyStore StoreSlots Runs

abbrev ULONG := BitVec 32

structure COSA_DML_DHCPCV6_SENT where
  InstanceNumber : ULONG
  Alias : Buf 64
  bEnabled : Bool
  Tag : ULONG
  Value : Buf 255
  deriving DecidableEq

inductive AnscStatus where
  | SUCCESS
  | FAILURE
  | CANT_FIND
  deriving DecidableEq

abbrev Syscfg := Store (CStr × CStr) CStr

structure State where
  g_sent_options : ℕ → COSA_DML_DHCPCV6_SENT
  g_sent_option_num : ℕ
  syscfg : Syscfg
  /-- What `CLIENT_SENT_OPTIONS_FILE` holds. -/
  optionsFile : CStr

/-- `SYSCFG_DHCP6C_SENT_OPTION_FORMAT` -/
def sentNs (index : ℕ) : CStr := "tr_dhcp6c_sent_option_".toList ++ decimal index

def numKey : CStr × CStr := ([], "tr_dhcp6c_sent_option_num".toList)

def inst_num : CStr := "inst_num".toList
def aliasName : CStr := "alias".toList
def enabledName : CStr := "enabled".toList
def tagName : CStr := "tag".toList
def valueName : CStr := "value".toList

def sentParams : List CStr := [inst_num, aliasName, enabledName, tagName, valueName]

def enabledText (b : Bool) : CStr := if b then "1".toList else "0".toList

/-- What `_syscfg_add_sent_option` writes. -/
def sentRecord (pEntry : COSA_DML_DHCPCV6_SENT) : List (CStr × CStr) :=
  [(inst_num, decimal pEntry.InstanceNumber.toNat), (aliasName, pEntry.Alias.text),
    (enabledName, enabledText pEntry.bEnabled), (tagName, decimal pEntry.Tag.toNat),
    (valueName, pEntry.Value.text)]

def _syscfg_add_sent_option (pEntry : COSA_DML_DHCPCV6_SENT) (index : ℕ) (s : Syscfg) : Syscfg :=
  writeSlot (sentNs index) (sentRecord pEntry) s

/-- `"%lu:%d:%s\n"` -/
def sentLine (e : COSA_DML_DHCPCV6_SENT) : CStr :=
  decimal e.Tag.toNat ++
    ':' :: (decimal (e.Value.text.length / 2) ++ ':' :: (e.Value.text ++ ['\n']))

def _write_dibbler_sent_option_file (s : State) : State :=
  { s with optionsFile := (List.range s.g_sent_option_num).flatMap (fun i =>
      if (s.g_sent_options i).bEnabled then sentLine (s.g_sent_options i) else []) }

def State.entries (s : State) : List COSA_DML_DHCPCV6_SENT :=
  (List.range s.g_sent_option_num).map s.g_sent_options

def State.findOption (s : State) (ulInstanceNumber : ULONG) : Option ℕ :=
  s.entries.findIdx? (fun e => e.InstanceNumber = ulInstanceNumber)

section Calls

-- `g_dhcpv6_client.Cfg.InstanceNumber`
variable (client : ULONG)

def CosaDmlDhcpv6cAddSentOption (ulClientInstanceNumber : ULONG) (pEntry : COSA_DML_DHCPCV6_SENT)
    (s : State) : AnscStatus × State :=
  if ulClientInstanceNumber ≠ client then (.FAILURE, s)
  else
    let num := s.g_sent_option_num + 1
    let t : State :=
      { s with
        g_sent_options := Function.update s.g_sent_options (num - 1) pEntry
        g_sent_option_num := num
        syscfg := set (_syscfg_add_sent_option pEntry num s.syscfg) numKey (decimal num) }
    (.SUCCESS, if pEntry.bEnabled then _write_dibbler_sent_option_file t else t)

/-- The loop of the delete: each later entry goes one place down, and its new
place in the store is one above its index. -/
def moveAhead (s : State) (i : ℕ) : (ℕ → COSA_DML_DHCPCV6_SENT) × Syscfg :=
  shiftDown (fun j => sentNs (j + 1)) sentRecord i (s.g_sent_option_num - 1 - i)
    (s.g_sent_options, s.syscfg)

def CosaDmlDhcpv6cDelSentOption (ulClientInstanceNumber ulInstanceNumber : ULONG) (s : State) :
    AnscStatus × State :=
  if ulClientInstanceNumber ≠ client then (.FAILURE, s)
  else match s.findOption ulInstanceNumber with
    | none => (.CANT_FIND, s)
    | some i =>
      let saved_enable := (s.g_sent_options i).bEnabled
      let num := s.g_sent_option_num - 1
      let t : State :=
        { s with
          g_sent_options := (moveAhead s i).1
          g_sent_option_num := num
          syscfg := set (clearSlot (sentNs (num + 1)) sentParams (moveAhead s i).2) numKey
            (decimal num) }
      (.SUCCESS, if saved_enable then _write_dibbler_sent_option_file t else t)

def changedFields (pEntry p_old_entry : COSA_DML_DHCPCV6_SENT) : List (CStr × CStr) :=
  (if pEntry.Alias ≠ p_old_entry.Alias then [(aliasName, pEntry.Alias.text)] else []) ++
  (if pEntry.bEnabled ≠ p_old_entry.bEnabled then [(enabledName, enabledText pEntry.bEnabled)]
    else []) ++
  (if pEntry.Tag ≠ p_old_entry.Tag then [(tagName, decimal pEntry.Tag.toNat)] else []) ++
  (if pEntry.Value ≠ p_old_entry.Value then [(valueName, pEntry.Value.text)] else [])

def needRestart (pEntry p_old_entry : COSA_DML_DHCPCV6_SENT) : Bool :=
  decide (pEntry.bEnabled ≠ p_old_entry.bEnabled ∨ pEntry.Tag ≠ p_old_entry.Tag ∨
    pEntry.Value ≠ p_old_entry.Value)

/-- The client's number is not looked at. -/
def CosaDmlDhcpv6cSetSentOption (pEntry : COSA_DML_DHCPCV6_SENT) (s : State) :
    AnscStatus × State :=
  match s.findOption pEntry.InstanceNumber with
  | none => (.SUCCESS, s)
  | some index =>
    let p_old_entry := s.g_sent_options index
    let t : State :=
      { s with
        g_sent_options := Function.update s.g_sent_options index pEntry
        syscfg := writeSlot (sentNs (index + 1)) (changedFields pEntry p_old_entry) s.syscfg }
    (.SUCCESS, if needRestart pEntry p_old_entry then _write_dibbler_sent_option_file t else t)

/-- The number goes into the entry before the alias is known to fit; the bound
is tested on the index as an int, which may overflow or be negative. -/
def CosaDmlDhcpv6cSetSentOptionValues (ulClientInstanceNumber ulIndex ulInstanceNumber : ULONG)
    (pAlias : CStr) (s : State) : Option (AnscStatus × State) :=
  if ulClientInstanceNumber ≠ client then some (.FAILURE, s)
  else if ulIndex.toInt + 1 = 2 ^ 31 then none
  else if (s.g_sent_option_num : ℤ) < ulIndex.toInt + 1 then some (.SUCCESS, s)
  else if s.g_sent_option_num ≤ ulIndex.toNat then none
  else
    let entry := { s.g_sent_options ulIndex.toNat with InstanceNumber := ulInstanceNumber }
    if h : pAlias.length < 64 then
      some (.SUCCESS,
        { s with
          g_sent_options := Function.update s.g_sent_options ulIndex.toNat
            { entry with Alias := ⟨pAlias, h⟩ }
          syscfg := writeSlot (sentNs (ulIndex.toNat + 1))
            [(inst_num, decimal ulInstanceNumber.toNat), (aliasName, pAlias)] s.syscfg })
    else some (.FAILURE,
      { s with g_sent_options := Function.update s.g_sent_options ulIndex.toNat entry })

inductive Op where
  | add (ulClientInstanceNumber : ULONG) (pEntry : COSA_DML_DHCPCV6_SENT)
  | del (ulClientInstanceNumber ulInstanceNumber : ULONG)
  | set (pEntry : COSA_DML_DHCPCV6_SENT)
  | setValues (ulClientInstanceNumber ulIndex ulInstanceNumber : ULONG) (pAlias : CStr)

def step (s : State) : Op → Option State
  | .add c pEntry => some (CosaDmlDhcpv6cAddSentOption client c pEntry s).2
  | .del c n => some (CosaDmlDhcpv6cDelSentOption client c n s).2
  | .set pEntry => some (CosaDmlDhcpv6cSetSentOption pEntry s).2
  | .setValues c i n pAlias =>
    (CosaDmlDhcpv6cSetSentOptionValues client c i n pAlias s).map Prod.snd

def listStep (l : List COSA_DML_DHCPCV6_SENT) : Op → List COSA_DML_DHCPCV6_SENT
  | .add c pEntry => if c = client then l ++ [pEntry] else l
  | .del c n => if c = client then l.eraseP (fun e => e.InstanceNumber = n) else l
  | .set pEntry =>
    match l.findIdx? (fun e => e.InstanceNumber = pEntry.InstanceNumber) with
    | some i => l.set i pEntry
    | none => l
  | .setValues c i n pAlias =>
    if h : c = client ∧ pAlias.length < 64 then
      l.modify i.toNat (fun e => { e with InstanceNumber := n, Alias := ⟨pAlias, h.2⟩ })
    else l

end Calls

def fileOf (l : List COSA_DML_DHCPCV6_SENT) : CStr :=
  (l.filter COSA_DML_DHCPCV6_SENT.bEnabled).flatMap sentLine

structure Agrees (s : State) : Prop where
  num : s.syscfg numKey = some (decimal s.g_sent_option_num)
  slots : ∀ j < s.g_sent_option_num,
    Holds s.syscfg (sentNs (j + 1)) (sentRecord (s.g_sent_options j))
  clear : ∀ j, s.g_sent_option_num < j → ∀ k ∈ sentParams, s.syscfg (sentNs j, k) = none

def Listed (s : State) : Prop := s.optionsFile = fileOf s.entries

structure Follows (client : ULONG) (s : State) (op : Op) (t : State) : Prop where
  entries : t.entries = listStep client s.entries op
  agrees : Agrees t
  listed : Listed t

section Names

theorem sentNs_injective : Function.Injective sentNs := by
  intro i j h
  exact decimal_injective (List.append_cancel_left h)

theorem slot_injective : Function.Injective (fun j => sentNs (j + 1)) := by
  intro i j h
  have hij := sentNs_injective h
  omega

theorem sentNs_ne_nil (j : ℕ) : sentNs j ≠ [] :=
  List.append_ne_nil_of_left_ne_nil (by decide) _

theorem nodup_sentRecord (e : COSA_DML_DHCPCV6_SENT) : (keys (sentRecord e)).Nodup := by
  change sentParams.Nodup
  decide +kernel

theorem set_num_slot (m : Syscfg) (v : CStr) (j : ℕ) (k : CStr) :
    set m numKey v (sentNs j, k) = m (sentNs j, k) := by
  apply set_of_ne
  intro h
  exact sentNs_ne_nil j (Prod.mk.inj h).1

end Names

variable {e old : COSA_DML_DHCPCV6_SENT}

section Lists

variable {l : List COSA_DML_DHCPCV6_SENT}

def shown (e : COSA_DML_DHCPCV6_SENT) : CStr := if e.bEnabled then sentLine e else []

theorem fileOf_eq (l : List COSA_DML_DHCPCV6_SENT) : fileOf l = l.flatMap shown := by
  induction l with
  | nil => rfl
  | cons e l ih =>
    rw [fileOf] at ih
    rw [fileOf, List.flatMap_cons, ← ih, shown]
    cases he : e.bEnabled with
    | true => rw [List.filter_cons_of_pos he, List.flatMap_cons, if_pos rfl]
    | false => rw [List.filter_cons_of_neg (by simp [he]), if_neg (by simp), List.nil_append]

theorem fileOf_set {i : ℕ} (h : l[i]? = some old)
    (hshown : shown e = shown old) : fileOf (l.set i e) = fileOf l := by
  have hat : (l.map shown)[i]? = some (shown e) := by
    rw [List.getElem?_map, h, hshown]
    rfl
  rw [fileOf_eq, fileOf_eq, List.flatMap_def, List.flatMap_def, List.map_set,
    KeyedList.set_of_getElem? hat]

theorem fileOf_eraseIdx {i : ℕ} {old : COSA_DML_DHCPCV6_SENT} (h : l[i]? = some old)
    (hshown : old.bEnabled = false) : fileOf (l.eraseIdx i) = fileOf l := by
  rw [fileOf_eq, fileOf_eq]
  induction l generalizing i with
  | nil => rfl
  | cons e l ih =>
    cases i with
    | zero =>
      have he : e = old := Option.some.inj h
      rw [List.eraseIdx_cons_zero, List.flatMap_cons, shown, he, hshown]
      rfl
    | succ i =>
      rw [List.eraseIdx_cons_succ, List.flatMap_cons, List.flatMap_cons, ih h]

theorem fileOf_append (e : COSA_DML_DHCPCV6_SENT) (h : e.bEnabled = false) :
    fileOf (l ++ [e]) = fileOf l := by
  rw [fileOf, List.filter_append, List.filter_singleton, h]
  simp [fileOf]

theorem shown_congr (hb : e.bEnabled = old.bEnabled)
    (ht : e.Tag = old.Tag) (hv : e.Value = old.Value) : shown e = shown old := by
  rw [shown, shown, sentLine, sentLine, hb, ht, hv]

end Lists

section Memory

variable {s : State}

theorem entries_at {i : ℕ} (h : i < s.g_sent_option_num) :
    s.entries[i]? = some (s.g_sent_options i) := by
  rw [State.entries, List.getElem?_map, List.getElem?_range h]
  rfl

theorem length_entries : s.entries.length = s.g_sent_option_num := by simp [State.entries]

theorem findOption_some {n : ULONG} {i : ℕ} (h : s.findOption n = some i) :
    i < s.g_sent_option_num ∧ (s.g_sent_options i).InstanceNumber = n := by
  obtain ⟨hi, hn, _⟩ := List.findIdx?_eq_some_iff_getElem.mp h
  have hlt : i < s.g_sent_option_num := by
    rw [← length_entries]
    exact hi
  have hat := entries_at hlt
  rw [List.getElem?_eq_getElem hi, Option.some.injEq] at hat
  refine ⟨hlt, ?_⟩
  rw [← hat]
  simpa using hn

theorem write_file (t : State) : Listed (_write_dibbler_sent_option_file t) := by
  change (List.range t.g_sent_option_num).flatMap _ = fileOf (t.entries)
  rw [fileOf_eq, State.entries, List.flatMap_map]
  rfl

theorem follows_iff (client : ULONG) (op : Op) (rewrites : Bool) {t : State} (hagrees : Agrees t)
    (hentries : t.entries = listStep client s.entries op)
    (hfile : t.optionsFile = s.optionsFile)
    (hsame : rewrites = false → fileOf t.entries = fileOf s.entries) :
    Follows client s op (if rewrites then _write_dibbler_sent_option_file t else t) ↔
      Listed s ∨ rewrites = true := by
  cases hr : rewrites with
  | true =>
    rw [if_pos rfl]
    exact ⟨fun _ => .inr rfl, fun _ => ⟨hentries, ⟨hagrees.1, hagrees.2, hagrees.3⟩, write_file t⟩⟩
  | false =>
    rw [if_neg Bool.false_ne_true]
    have hlisted : Listed t ↔ Listed s := by
      rw [Listed, Listed, hfile, hsame hr]
    constructor
    · intro h
      exact .inl (hlisted.mp h.listed)
    · intro h
      exact ⟨hentries, hagrees, hlisted.mpr (h.resolve_right Bool.false_ne_true)⟩

end Memory

section Stores

variable {s : State}

theorem agrees_add (h : Agrees s) (e : COSA_DML_DHCPCV6_SENT) (file : CStr) :
    Agrees ⟨Function.update s.g_sent_options s.g_sent_option_num e, s.g_sent_option_num + 1,
      set (_syscfg_add_sent_option e (s.g_sent_option_num + 1) s.syscfg) numKey
        (decimal (s.g_sent_option_num + 1)), file⟩ where
  num := by
    dsimp only
    exact set_self _ _ _
  slots := by
    intro j hj
    dsimp only
    apply holds_congr fun k => set_num_slot _ _ (j + 1) k
    change Holds _ _ (sentRecord (Function.update s.g_sent_options s.g_sent_option_num e j))
    by_cases hlast : j = s.g_sent_option_num
    · rw [hlast, Function.update_self]
      exact holds_writeSlot (nodup_sentRecord e) _ _
    · have hlt : j < s.g_sent_option_num := by
        have : j < s.g_sent_option_num + 1 := hj
        omega
      rw [Function.update_of_ne hlast]
      apply holds_congr ?_ (h.slots j hlt)
      intro k
      exact writeSlot_of_ne (slot_injective.ne hlast) _ _ k
  clear := by
    intro j hj k hk
    have hj' : s.g_sent_option_num + 1 < j := hj
    dsimp only
    rw [set_num_slot]
    rw [_syscfg_add_sent_option, writeSlot_of_ne (sentNs_injective.ne hj'.ne')]
    exact h.clear j (by omega) k hk

theorem moveAhead_of_ge {i j : ℕ} (hj : s.g_sent_option_num ≤ j) (k : CStr) :
    (moveAhead s i).2 (sentNs j, k) = s.syscfg (sentNs j, k) := by
  refine shiftDown_of_ne ?_ (s.g_sent_options, s.syscfg) k
  intro m _ hm hjm
  have hsame := sentNs_injective hjm
  omega

theorem agrees_del (h : Agrees s) {i : ℕ} (hi : i < s.g_sent_option_num) (file : CStr) :
    Agrees ⟨(moveAhead s i).1, s.g_sent_option_num - 1,
      set (clearSlot (sentNs (s.g_sent_option_num - 1 + 1)) sentParams (moveAhead s i).2) numKey
        (decimal (s.g_sent_option_num - 1)), file⟩ where
  num := by
    dsimp only
    exact set_self _ _ _
  slots := by
    intro j hj
    have hj' : j < s.g_sent_option_num - 1 := hj
    dsimp only
    apply holds_congr fun k => set_num_slot _ _ (j + 1) k
    have hne : sentNs (j + 1) ≠ sentNs (s.g_sent_option_num - 1 + 1) := by
      apply sentNs_injective.ne
      omega
    apply holds_congr fun k => clearSlot_of_ne hne _ _ k
    rw [moveAhead, shiftDown_fst, shiftArray_apply]
    by_cases hji : j < i
    · rw [if_neg (by omega)]
      apply holds_congr ?_ (h.slots j (by omega))
      intro k
      refine shiftDown_of_ne ?_ (s.g_sent_options, s.syscfg) k
      intro m hm _ hjm
      have hsame := slot_injective hjm
      omega
    · rw [if_pos (by omega)]
      exact holds_shiftDown slot_injective nodup_sentRecord (by omega) (by omega)
        (s.g_sent_options, s.syscfg)
  clear := by
    intro j hj k hk
    have hj' : s.g_sent_option_num - 1 < j := hj
    dsimp only
    rw [set_num_slot]
    by_cases hlast : j = s.g_sent_option_num - 1 + 1
    · rw [hlast]
      exact clearSlot_of_mem hk _ _
    · rw [clearSlot_of_ne (sentNs_injective.ne hlast), moveAhead_of_ge (by omega)]
      exact h.clear j (by omega) k hk

theorem agrees_write (h : Agrees s) {i : ℕ} (hi : i < s.g_sent_option_num)
    {e : COSA_DML_DHCPCV6_SENT} {ws : List (CStr × CStr)} (hws : ∀ w ∈ ws, w ∈ sentRecord e)
    (hrest : ∀ r ∈ sentRecord e, r ∈ ws ∨ r ∈ sentRecord (s.g_sent_options i)) (file : CStr) :
    Agrees ⟨Function.update s.g_sent_options i e, s.g_sent_option_num,
      writeSlot (sentNs (i + 1)) ws s.syscfg, file⟩ where
  num := by
    dsimp only
    exact (writeSlot_of_ne (sentNs_ne_nil (i + 1)).symm _ _ _).trans h.num
  slots := by
    intro j hj
    change Holds (writeSlot _ ws s.syscfg) _ (sentRecord (Function.update s.g_sent_options i e j))
    by_cases hji : j = i
    · rw [hji, Function.update_self]
      apply holds_writeSlot_changed (nodup_sentRecord e) hws
      intro r hr
      rcases hrest r hr with hwritten | hold
      · exact .inl hwritten
      · exact .inr (h.slots i hi r hold)
    · rw [Function.update_of_ne hji]
      apply holds_congr ?_ (h.slots j hj)
      intro k
      exact writeSlot_of_ne (slot_injective.ne hji) _ _ k
  clear := by
    intro j hj k hk
    have hj' : s.g_sent_option_num < j := hj
    dsimp only
    rw [writeSlot_of_ne (sentNs_injective.ne (by omega))]
    exact h.clear j hj' k hk

end Stores

section Steps

def Rewrites (client : ULONG) (s : State) : Op → Prop
  | .add c pEntry => c = client ∧ pEntry.bEnabled = true
  | .del c n => c = client ∧ ∃ i, s.findOption n = some i ∧ (s.g_sent_options i).bEnabled = true
  | .set pEntry => ∃ i, s.findOption pEntry.InstanceNumber = some i ∧
      needRestart pEntry (s.g_sent_options i) = true
  | .setValues _ _ _ _ => False

/-- The index is a proper int, and the alias for an entry fits or its number stays. -/
def Proper (client : ULONG) (s : State) : Op → Prop
  | .setValues c i n pAlias => c = client → i.toNat + 1 ≠ 2 ^ 31 ∧
      (i.toNat < s.g_sent_option_num →
        pAlias.length < 64 ∨ (s.g_sent_options i.toNat).InstanceNumber = n) ∧
      (s.g_sent_option_num ≤ i.toNat → i.toNat < 2 ^ 31)
  | _ => True

def Sound (client : ULONG) (s : State) (op : Op) : Prop :=
  (Listed s ∨ Rewrites client s op) ∧ Proper client s op

variable {client : ULONG} {s : State}

theorem follows_self_iff {op : Op} (h : Agrees s) (hop : s.entries = listStep client s.entries op) :
    Follows client s op s ↔ Listed s := by
  have hiff := follows_iff client op false h hop rfl fun _ => rfl
  rw [if_neg Bool.false_ne_true] at hiff
  simpa using hiff

theorem add_follows (h : Agrees s) (c : ULONG) (e : COSA_DML_DHCPCV6_SENT) :
    Follows client s (.add c e) (CosaDmlDhcpv6cAddSentOption client c e s).2 ↔
      Sound client s (.add c e) := by
  simp only [CosaDmlDhcpv6cAddSentOption, Sound, Rewrites, Proper, and_true, ne_eq, ite_not,
    Nat.add_sub_cancel]
  by_cases hc : c = client
  · have hentries := map_range_push s.g_sent_options s.g_sent_option_num e
    have hlist : listStep client s.entries (.add c e) = s.entries ++ [e] := by
      rw [listStep, if_pos hc]
    rw [if_pos hc, and_iff_right hc]
    apply follows_iff client _ e.bEnabled (agrees_add h e s.optionsFile)
      (hentries.trans hlist.symm) rfl
    intro he
    exact (congrArg fileOf hentries).trans (fileOf_append e he)
  · rw [if_neg hc, follows_self_iff h (by rw [listStep, if_neg hc])]
    exact ⟨.inl, fun hor => hor.resolve_right fun hboth => hc hboth.1⟩

theorem del_follows (h : Agrees s) (c n : ULONG) :
    Follows client s (.del c n) (CosaDmlDhcpv6cDelSentOption client c n s).2 ↔
      Sound client s (.del c n) := by
  simp only [CosaDmlDhcpv6cDelSentOption, Sound, Rewrites, Proper, and_true, ne_eq, ite_not]
  by_cases hc : c = client
  · rw [if_pos hc, and_iff_right hc]
    have herase : listStep client s.entries (.del c n) =
        match s.findOption n with
        | none => s.entries
        | some i => s.entries.eraseIdx i := by
      rw [listStep, if_pos hc, List.eraseP_eq_eraseIdx]
      rfl
    cases hfind : s.findOption n with
    | none =>
      rw [hfind] at herase
      rw [follows_self_iff h herase.symm]
      simp
    | some i =>
      rw [hfind] at herase
      have hi := (findOption_some hfind).1
      have hentries : (List.range (s.g_sent_option_num - 1)).map (moveAhead s i).1 =
          s.entries.eraseIdx i := by
        rw [moveAhead, shiftDown_fst]
        exact map_range_shiftArray s.g_sent_options hi
      have hiff := follows_iff client (.del c n) (s.g_sent_options i).bEnabled
        (agrees_del h hi s.optionsFile) (hentries.trans herase.symm) rfl
        fun hoff => (congrArg fileOf hentries).trans (fileOf_eraseIdx (entries_at hi) hoff)
      simpa using hiff
  · rw [if_neg hc, follows_self_iff h (by rw [listStep, if_neg hc])]
    exact ⟨.inl, fun hor => hor.resolve_right fun hboth => hc hboth.1⟩

theorem changedFields_mem (e old : COSA_DML_DHCPCV6_SENT) :
    ∀ w ∈ changedFields e old, w ∈ sentRecord e := by
  intro w hw
  simp only [changedFields, List.mem_append] at hw
  rcases hw with ((hw | hw) | hw) | hw
  all_goals
    split at hw
    · rw [List.mem_singleton.mp hw]
      simp [sentRecord]
    · cases hw

theorem mem_changedFields (hnum : old.InstanceNumber = e.InstanceNumber) :
    ∀ r ∈ sentRecord e, r ∈ changedFields e old ∨ r ∈ sentRecord old := by
  intro r hr
  simp only [sentRecord, List.mem_cons, List.not_mem_nil, or_false] at hr
  rcases hr with rfl | rfl | rfl | rfl | rfl
  · right
    simp [sentRecord, hnum]
  · by_cases halias : e.Alias = old.Alias
    · right
      simp [sentRecord, halias]
    · left
      simp [changedFields, halias]
  · by_cases henabled : e.bEnabled = old.bEnabled
    · right
      simp [sentRecord, henabled]
    · left
      simp [changedFields, henabled]
  · by_cases htag : e.Tag = old.Tag
    · right
      simp [sentRecord, htag]
    · left
      simp [changedFields, htag]
  · by_cases hvalue : e.Value = old.Value
    · right
      simp [sentRecord, hvalue]
    · left
      simp [changedFields, hvalue]

theorem set_follows (h : Agrees s) (e : COSA_DML_DHCPCV6_SENT) :
    Follows client s (.set e) (CosaDmlDhcpv6cSetSentOption e s).2 ↔
      Sound client s (.set e) := by
  simp only [CosaDmlDhcpv6cSetSentOption, Sound, Rewrites, Proper, and_true]
  have hlist : listStep client s.entries (.set e) =
      match s.findOption e.InstanceNumber with
      | some i => s.entries.set i e
      | none => s.entries := rfl
  cases hfind : s.findOption e.InstanceNumber with
  | none =>
    rw [hfind] at hlist
    rw [follows_self_iff h hlist.symm]
    simp
  | some i =>
    rw [hfind] at hlist
    obtain ⟨hi, hnum⟩ := findOption_some hfind
    have hentries := map_range_update s.g_sent_options s.g_sent_option_num i e
    have hagrees := agrees_write h hi (changedFields_mem e (s.g_sent_options i))
      (mem_changedFields hnum) s.optionsFile
    have hsame (hneed : needRestart e (s.g_sent_options i) = false) :
        fileOf (s.entries.set i e) = fileOf s.entries := by
      simp only [needRestart, decide_eq_false_iff_not, not_or, not_not, ne_eq] at hneed
      exact fileOf_set (entries_at hi) (shown_congr hneed.1 hneed.2.1 hneed.2.2)
    have hiff := follows_iff client (.set e) (needRestart e (s.g_sent_options i)) hagrees
      (hentries.trans hlist.symm) rfl fun hneed => (congrArg fileOf hentries).trans (hsame hneed)
    simpa using hiff

theorem setValues_follows (h : Agrees s) (c i n : ULONG) (pAlias : CStr) :
    (∃ t, step client s (.setValues c i n pAlias) = some t ∧
      Follows client s (.setValues c i n pAlias) t) ↔ Sound client s (.setValues c i n pAlias) := by
  simp only [step, CosaDmlDhcpv6cSetSentOptionValues, Sound, Rewrites, Proper, or_false, ne_eq,
    ite_not]
  by_cases hc : c = client
  swap
  · have hself : s.entries = listStep client s.entries (.setValues c i n pAlias) := by
      rw [listStep, dif_neg fun hboth => hc hboth.1]
    simp only [if_neg hc, Option.map_some, Option.some.injEq, exists_eq_left',
      follows_self_iff h hself]
    exact ⟨fun hl => ⟨hl, fun hcc => absurd hcc hc⟩, And.left⟩
  simp only [if_pos hc]
  have hint : i.toInt = if i.toNat < 2 ^ 31 then (i.toNat : ℤ) else i.toNat - 2 ^ 32 := by
    rw [BitVec.toInt_eq_toNat_cond]
    split <;> split <;> omega
  have hbound := i.isLt
  by_cases hover : i.toNat + 1 = 2 ^ 31
  · have hmax : i.toInt + 1 = 2 ^ 31 := by
      rw [hint, if_pos (by omega)]
      omega
    simp [hmax, hover, hc]
  have hmax : ¬i.toInt + 1 = 2 ^ 31 := by
    rw [hint]
    split <;> omega
  simp only [if_neg hmax]
  by_cases hin : i.toNat < s.g_sent_option_num
  swap
  · -- no such entry: refused, or an int below zero that passes the bound
    have hself : s.entries = listStep client s.entries (.setValues c i n pAlias) := by
      rw [listStep]
      split
      · rw [List.modify_eq_self (by rw [length_entries]; omega)]
      · rfl
    by_cases hneg : i.toNat < 2 ^ 31
    · have hlt : (s.g_sent_option_num : ℤ) < i.toInt + 1 := by
        rw [hint, if_pos hneg]
        omega
      simp only [if_pos hlt, Option.map_some, Option.some.injEq, exists_eq_left',
        follows_self_iff h hself]
      exact ⟨fun hl => ⟨hl, fun _ => ⟨hover, fun hin' => absurd hin' hin, fun _ => hneg⟩⟩, And.left⟩
    · have hlt : ¬(s.g_sent_option_num : ℤ) < i.toInt + 1 := by
        rw [hint, if_neg hneg]
        omega
      simp only [if_neg hlt, if_pos (show s.g_sent_option_num ≤ i.toNat by omega), Option.map_none,
        reduceCtorEq, false_and, exists_false, false_iff]
      intro hok
      exact hneg ((hok.2 hc).2.2 (by omega))
  have hlt : ¬(s.g_sent_option_num : ℤ) < i.toInt + 1 := by
    rw [hint]
    split <;> omega
  simp only [if_neg hlt, if_neg (show ¬s.g_sent_option_num ≤ i.toNat by omega)]
  by_cases hfit : pAlias.length < 64
  · -- the entry gets both, and both are stored
    simp only [dif_pos hfit, Option.map_some, Option.some.injEq, exists_eq_left']
    have hentries : (List.range s.g_sent_option_num).map (Function.update s.g_sent_options i.toNat
        { s.g_sent_options i.toNat with InstanceNumber := n, Alias := ⟨pAlias, hfit⟩ }) =
          listStep client s.entries (.setValues c i n pAlias) := by
      have hmodify := List.modify_eq_set_getElem? (fun e : COSA_DML_DHCPCV6_SENT =>
        { e with InstanceNumber := n, Alias := ⟨pAlias, hfit⟩ }) i.toNat s.entries
      rw [entries_at hin] at hmodify
      rw [map_range_update, listStep, dif_pos ⟨hc, hfit⟩, hmodify]
      rfl
    have hagrees := @agrees_write s h i.toNat hin
      { s.g_sent_options i.toNat with InstanceNumber := n, Alias := ⟨pAlias, hfit⟩ }
      [(inst_num, decimal n.toNat), (aliasName, pAlias)] (by simp [sentRecord, Buf.text])
      (by simp [sentRecord, Buf.text]) s.optionsFile
    have hsame : fileOf (listStep client s.entries (.setValues c i n pAlias)) =
        fileOf s.entries := by
      rw [← hentries, map_range_update]
      exact fileOf_set (entries_at hin) rfl
    have hiff := follows_iff client (.setValues c i n pAlias) false hagrees hentries rfl
      fun _ => (congrArg fileOf hentries).trans hsame
    rw [if_neg Bool.false_ne_true] at hiff
    rw [hiff]
    constructor
    · intro hl
      exact ⟨hl.resolve_right Bool.false_ne_true, fun _ => ⟨hover, fun _ => .inl hfit, by omega⟩⟩
    · intro hok
      exact .inl hok.1
  · -- only the number goes in, and nothing is stored
    simp only [dif_neg hfit, Option.map_some, Option.some.injEq, exists_eq_left']
    have hself : s.entries = listStep client s.entries (.setValues c i n pAlias) := by
      rw [listStep, dif_neg fun hboth => hfit hboth.2]
    by_cases hnum : (s.g_sent_options i.toNat).InstanceNumber = n
    · have hupdate : Function.update s.g_sent_options i.toNat
          { s.g_sent_options i.toNat with InstanceNumber := n } = s.g_sent_options := by
        rw [← hnum]
        exact Function.update_eq_self _ _
      rw [hupdate, follows_self_iff h hself]
      exact ⟨fun hl => ⟨hl, fun _ => ⟨hover, fun _ => .inr hnum, by omega⟩⟩, And.left⟩
    · constructor
      · intro hfollows
        exfalso
        have hslot := hfollows.agrees.slots i.toNat hin (inst_num, decimal n.toNat) (by
          simp [sentRecord])
        have hold := h.slots i.toNat hin
          (inst_num, decimal (s.g_sent_options i.toNat).InstanceNumber.toNat) (by simp [sentRecord])
        have hsame := Option.some.inj (hold.symm.trans hslot)
        exact hnum (BitVec.eq_of_toNat_eq (decimal_injective hsame))
      · intro hok
        rcases (hok.2 hc).2.1 hin with hfits | hsame
        · exact absurd hfits hfit
        · exact absurd hsame hnum

theorem step_follows_iff (h : Agrees s) (op : Op) :
    (∃ t, step client s op = some t ∧ Follows client s op t) ↔ Sound client s op := by
  cases op with
  | add c e => simpa only [step, Option.some.injEq, exists_eq_left'] using add_follows h c e
  | del c n => simpa only [step, Option.some.injEq, exists_eq_left'] using del_follows h c n
  | set e => simpa only [step, Option.some.injEq, exists_eq_left'] using set_follows h e
  | setValues c i n pAlias => exact setValues_follows h c i n pAlias

end Steps

/-- Over any calls that start with memory and store in agreement, each does to
memory, store and file what it does to the list exactly when it is sound where
it is made. -/
theorem sentOptions_follow_iff (client : ULONG) {s : State} (h : Agrees s) (ops : List Op) :
    Does (step client) (Follows client) s ops ↔ StepsMeet (step client) (Sound client) s ops := by
  refine @does_iff _ _ (step client) _ (fun _ _ => True) _ Agrees ?_ ?_ s ops h
    (stepsMeet_true (step client) s ops)
  · intro t op ht _
    exact step_follows_iff ht op
  · intro t op u ht _ hok hstep
    obtain ⟨v, hv, hfollows⟩ := (step_follows_iff ht op).mpr hok
    rw [hstep, Option.some.injEq] at hv
    rw [hv]
    exact hfollows.agrees

def sampleOption : COSA_DML_DHCPCV6_SENT :=
  ⟨1, Buf.snprintf "SentOption1".toList, true, 16, Buf.snprintf "00".toList⟩

def noOptions : State where
  g_sent_options := fun _ => sampleOption
  g_sent_option_num := 0
  syscfg := set (fun _ => none) numKey (decimal 0)
  optionsFile := []

theorem agrees_noOptions : Agrees noOptions where
  num := by
    dsimp only [noOptions]
    exact set_self _ _ _
  slots := fun j hj => absurd hj (Nat.not_lt_zero j)
  clear := fun j _ k _ => set_num_slot _ (decimal 0) j k

theorem sentOptions_follow_small : Does (step 1) (Follows 1) noOptions
    [.add 1 sampleOption, .del 1 1] := by
  apply (sentOptions_follow_iff 1 agrees_noOptions _).mpr
  refine ⟨⟨.inl rfl, trivial⟩, ?_⟩
  intro t ht
  obtain rfl := Option.some.inj ht
  exact ⟨⟨.inl (write_file _), trivial⟩, fun _ _ => trivial⟩

/-- An alias of 64 characters is refused, but the entry already has the new
number, and the store still has the old one. -/
theorem sentOptions_half_renamed : ¬Does (step 1) (Follows 1) noOptions
    [.add 1 sampleOption, .setValues 1 0 7 (List.replicate 64 'a')] := by
  intro hdoes
  obtain ⟨t, ht, hfollows, u, hu, hfollows', _⟩ := hdoes
  have hsound := (step_follows_iff hfollows.agrees _).mp ⟨u, hu, hfollows'⟩
  obtain rfl := Option.some.inj ht
  rcases (hsound.2 rfl).2.1 (by decide) with hfits | hsame
  · exact absurd hfits (by decide)
  · exact absurd hsame (by decide)

end CcspPandM.SentOptions
