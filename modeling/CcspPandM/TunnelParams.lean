import CcspPandM.SubdocDecoders
import CcspPandM.GuardedLoop

/-!
The decoder of a tunnel entry and of the elements of its tunnel_network. The
required keys of an entry are counted by shifting a byte, which happens once
more after the loop when gre_enable is not true; an element awaits vap_name and
enable only. Both loops stop when the byte is zero.
-/
namespace CcspPandM.TunnelParams

open CString SubdocDecoders GuardedLoop

structure Kv (ν : Type) where
  key : Option CStr
  val : ν

/-- The objects of an array are maps, or something else that is `none`. -/
inductive TunnelVal where
  | scalar (v : MsgpackVal)
  | array (objects : List (Option (List (Kv MsgpackVal))))

structure Tunnel where
  vap_name : Option CStr
  wan_vlan : ℕ
  enable : Bool
  deriving DecidableEq, Repr

structure Tdoc where
  gre_enable : Bool
  gre_primary_endpoint : Option CStr
  gre_sec_endpoint : Option CStr
  gre_dscp : ℕ
  table_param : Option (List Tunnel)
  deriving DecidableEq, Repr

def Tunnel.zero : Tunnel := ⟨none, 0, false⟩

def Tdoc.zero : Tdoc := ⟨false, none, none, 0, none⟩

def UINT16_MAX : BitVec 64 := 65535

def tunnelTableEntry (p : Kv MsgpackVal) (s : Tunnel × BitVec 8) :
    Except Tunnel (Tunnel × BitVec 8) :=
  match p.key, p.val with
  | some key, .str v =>
    if matchKey key "vap_name" then
      .ok ({ s.1 with vap_name := some (strndup v v.length) }, clearBit s.2 0)
    else .ok s
  | some key, .positiveInteger u64 =>
    if matchKey key "wan_vlan" then
      if UINT16_MAX < u64 then .error s.1
      else .ok ({ s.1 with wan_vlan := u64.toNat }, clearBit s.2 2)
    else .ok s
  | some key, .boolean b =>
    if matchKey key "enable" then .ok ({ s.1 with enable := b }, clearBit s.2 1) else .ok s
  | _, _ => .ok s

def processTunnelTableparams (e : Tunnel) (map : List (Kv MsgpackVal)) : ℤ × Tunnel :=
  match guardedLoop tunnelTableEntry map (e, 0x03#8) with
  | .error e => (-1, e)
  | .ok (e, objects_left) => (if objects_left = 0#8 then 0 else -1, e)

/-- The entries of a table as the `memset` before the loop and the loop leave
them, with an error when an object is no map or fails. -/
def tableEntries : List (Option (List (Kv MsgpackVal))) → Except (List Tunnel) (List Tunnel)
  | [] => .ok []
  | none :: rest => .error (List.replicate (rest.length + 1) Tunnel.zero)
  | some map :: rest =>
    let r := processTunnelTableparams Tunnel.zero map
    if r.1 = 0 then
      match tableEntries rest with
      | .ok entries => .ok (r.2 :: entries)
      | .error entries => .error (r.2 :: entries)
    else .error (r.2 :: List.replicate rest.length Tunnel.zero)

def tunnelEntry (p : Kv TunnelVal) (s : Tdoc × BitVec 8) : Except Tdoc (Tdoc × BitVec 8) :=
  match p.key, p.val with
  | some key, .scalar (.boolean b) =>
    if matchKey key "gre_enable" then .ok ({ s.1 with gre_enable := b }, s.2 >>> 1) else .ok s
  | some key, .scalar (.str v) =>
    -- The two names are compared one after the other, a key can match both.
    let text := some (strndup v v.length)
    let s := if matchKey key "gre_primary_endpoint" then
        ({ s.1 with gre_primary_endpoint := text }, s.2 >>> 1) else s
    .ok (if matchKey key "gre_sec_endpoint" then
        ({ s.1 with gre_sec_endpoint := text }, s.2 >>> 1) else s)
  | some key, .scalar (.positiveInteger u64) =>
    if matchKey key "gre_dscp" then
      if UINT16_MAX < u64 then .error s.1 else .ok ({ s.1 with gre_dscp := u64.toNat }, s.2)
    else .ok s
  | some key, .array objects =>
    if matchKey key "tunnel_network" then
      match tableEntries objects with
      | .error entries => .error { s.1 with table_param := some entries }
      | .ok entries => .ok ({ s.1 with table_param := some entries }, s.2 >>> 1)
    else .ok s
  | _, _ => .ok s

def processTunnelparams (e : Tdoc) (map : List (Kv TunnelVal)) : ℤ × Tdoc :=
  match guardedLoop tunnelEntry map (e, 0x08#8) with
  | .error e => (-1, e)
  | .ok (e, objects_left) =>
    let objects_left := if e.gre_enable then objects_left else objects_left >>> 1
    (if objects_left = 0#8 then 0 else -1, e)

def textOf : MsgpackVal → Option (Option CStr)
  | .str v => some (some (strndup v v.length))
  | _ => none

def flagOf : MsgpackVal → Option Bool
  | .boolean b => some b
  | _ => none

def numberOf : MsgpackVal → Option ℕ
  | .positiveInteger u64 => some u64.toNat
  | _ => none

def scalarOf {β : Type} (f : MsgpackVal → Option β) : TunnelVal → Option β
  | .scalar v => f v
  | .array _ => none

def objectsOf : TunnelVal → Option (List (Option (List (Kv MsgpackVal))))
  | .scalar _ => none
  | .array objects => some objects

section Keys

variable {ν β : Type}

def readAs (name : String) (proj : ν → Option β) (p : Kv ν) : Option β :=
  match p.key with
  | some key => if matchKey key name then proj p.val else none
  | none => none

def HasKey (name : String) (proj : ν → Option β) (map : List (Kv ν)) : Prop :=
  ∃ p ∈ map, p.key = some name.toList ∧ (proj p.val).isSome = true

def Holds (name : String) (proj : ν → Option β) (map : List (Kv ν)) (value : β) : Prop :=
  ∀ p ∈ map, p.key = some name.toList → ∀ v, proj p.val = some v → value = v

def lastRead (name : String) (proj : ν → Option β) (read : List (Kv ν)) : Option β :=
  (read.filterMap (readAs name proj)).getLast?

theorem strneq_self (a : CStr) (n : ℕ) : strneq a a n = true := by
  induction n generalizing a with
  | zero => rfl
  | succ n ih => simp [strneq, ih]

theorem readAs_of_key {name : String} {proj : ν → Option β} {p : Kv ν}
    (h : p.key = some name.toList) : readAs name proj p = proj p.val := by
  rw [readAs, h]
  exact if_pos (strneq_self _ _)

end Keys

section Element

def tableRefused (p : Kv MsgpackVal) : Bool :=
  (readAs "wan_vlan" numberOf p).any (fun n => decide (UINT16_MAX.toNat < n))

def tableStore (p : Kv MsgpackVal) (e : Tunnel) : Tunnel where
  vap_name := (readAs "vap_name" textOf p).getD e.vap_name
  wan_vlan := (readAs "wan_vlan" numberOf p).getD e.wan_vlan
  enable := (readAs "enable" flagOf p).getD e.enable

def clearIf (b : Bool) (n : ℕ) (left : BitVec 8) : BitVec 8 := if b then clearBit left n else left

def tableShift (p : Kv MsgpackVal) (left : BitVec 8) : BitVec 8 :=
  clearIf (readAs "vap_name" textOf p).isSome 0
    (clearIf (readAs "enable" flagOf p).isSome 1
      (clearIf (readAs "wan_vlan" numberOf p).isSome 2 left))

def tableRead (map : List (Kv MsgpackVal)) : List (Kv MsgpackVal) :=
  entriesRead tableShift map 0x03#8

theorem tunnelTableEntry_body :
    EntryBody tunnelTableEntry tableRefused tableStore tableShift where
  refuse := by
    rintro ⟨key, val⟩ s h
    cases key with
    | none => simp [tableRefused, readAs] at h
    | some key =>
      cases val with
      | positiveInteger u64 =>
        simp only [tableRefused, readAs, numberOf] at h
        simp only [tunnelTableEntry]
        split at h
        · rename_i hkey
          rw [Option.any_some, decide_eq_true_eq] at h
          exact ⟨s.1, by rw [if_pos hkey, if_pos (BitVec.lt_def.mpr h)]⟩
        · cases h
      | _ => simp [tableRefused, readAs, numberOf] at h
  accept := by
    rintro ⟨key, val⟩ s h
    cases key with
    | none => rfl
    | some key =>
      cases val with
      | positiveInteger u64 =>
        simp only [tableRefused, readAs, numberOf] at h
        simp only [tunnelTableEntry]
        split at h
        · rename_i hkey
          rw [Option.any_some, decide_eq_false_iff_not] at h
          rw [if_pos hkey, if_neg (fun hlt => h (BitVec.lt_def.mp hlt))]
          simp [tableStore, tableShift, readAs, numberOf, textOf, flagOf, hkey, clearIf]
        · rename_i hkey
          simp [tableStore, tableShift, readAs, textOf, flagOf, hkey, clearIf]
      | str v =>
        by_cases hkey : matchKey key "vap_name" = true <;>
          simp [tunnelTableEntry, tableStore, tableShift, readAs, numberOf, textOf, flagOf, hkey,
            clearIf]
      | boolean b =>
        by_cases hkey : matchKey key "enable" = true <;>
          simp [tunnelTableEntry, tableStore, tableShift, readAs, numberOf, textOf, flagOf, hkey,
            clearIf]
      | other =>
        simp [tunnelTableEntry, tableStore, tableShift, readAs, numberOf, textOf, flagOf, clearIf]

/-- The byte of an element: bit 0 waits for vap_name, bit 1 for enable. -/
def awaited (vap_name enable : Bool) : BitVec 8 :=
  (if vap_name then 1#8 else 0#8) ||| (if enable then 2#8 else 0#8)

theorem foldl_tableShift (l : List (Kv MsgpackVal)) (v e : Bool) :
    l.foldl (fun left p => tableShift p left) (awaited v e) =
      awaited (v && !l.any (fun p => (readAs "vap_name" textOf p).isSome))
        (e && !l.any (fun p => (readAs "enable" flagOf p).isSome)) := by
  have hstep : ∀ a b c v e : Bool, clearIf a 0 (clearIf b 1 (clearIf c 2 (awaited v e))) =
      awaited (v && !a) (e && !b) := by decide
  induction l generalizing v e with
  | nil => simp
  | cons p rest ih =>
    rw [List.foldl_cons, tableShift, hstep, ih, List.any_cons, List.any_cons]
    simp only [Bool.not_or, Bool.and_assoc]

/-- What an element lacks for its decoder: one of the two awaited keys, or a
wan_vlan in range among the entries read. -/
def elementRefused (map : List (Kv MsgpackVal)) : Bool :=
  !(map.any (fun p => (readAs "vap_name" textOf p).isSome) &&
      map.any (fun p => (readAs "enable" flagOf p).isSome)) ||
    (tableRead map).any tableRefused

theorem any_tableRead {map : List (Kv MsgpackVal)} {q : Kv MsgpackVal → Bool}
    (h : (tableRead map).any q = true) : map.any q = true := by
  obtain ⟨p, hp, hq⟩ := List.any_eq_true.mp h
  exact List.any_eq_true.mpr ⟨p, mem_of_mem_entriesRead hp, hq⟩

theorem awaited_tableRead (map : List (Kv MsgpackVal)) :
    (tableRead map).foldl (fun left p => tableShift p left) 0x03#8 = 0#8 ↔
      (map.any (fun p => (readAs "vap_name" textOf p).isSome) &&
        map.any (fun p => (readAs "enable" flagOf p).isSome)) = true := by
  have hfinal := foldl_tableShift (tableRead map) true true
  have hzero : ∀ v e : Bool, awaited (true && !v) (true && !e) = 0#8 ↔ (v && e) = true := by decide
  rw [show awaited true true = 0x03#8 from rfl] at hfinal
  constructor
  · intro h
    rw [hfinal, hzero, Bool.and_eq_true] at h
    rw [Bool.and_eq_true]
    exact ⟨any_tableRead h.1, any_tableRead h.2⟩
  · intro h
    by_contra hne
    have hread : tableRead map = map := entriesRead_eq_of_left hne
    rw [hfinal, hzero, hread] at hne
    exact hne h

theorem processTunnelTableparams_status (e : Tunnel) (map : List (Kv MsgpackVal)) :
    (processTunnelTableparams e map).1 = 0 ↔ elementRefused map = false := by
  unfold processTunnelTableparams
  by_cases href : (tableRead map).any tableRefused = true
  · obtain ⟨e', he⟩ := guardedLoop_of_refused tunnelTableEntry_body map (e, 0x03#8)
      (List.any_eq_true.mp href)
    rw [he]
    simp [elementRefused, href]
  · rw [Bool.not_eq_true] at href
    have hread : ∀ p ∈ tableRead map, tableRefused p = false := by
      simpa [List.any_eq_false] using href
    rw [guardedLoop_of_accepted tunnelTableEntry_body map (e, 0x03#8) hread]
    have hzero := awaited_tableRead map
    rw [elementRefused, href, Bool.or_false, Bool.not_eq_false', ← hzero]
    change (if _ = 0#8 then (0 : ℤ) else -1) = 0 ↔ _
    split
    · rename_i hleft
      exact ⟨fun _ => hleft, fun _ => rfl⟩
    · rename_i hleft
      exact ⟨fun h => absurd h (by decide), fun h => absurd h hleft⟩

theorem processTunnelTableparams_fields {e : Tunnel} {map : List (Kv MsgpackVal)}
    (h : elementRefused map = false) : (processTunnelTableparams e map).2 =
      ⟨(lastRead "vap_name" textOf (tableRead map)).getD e.vap_name,
        (lastRead "wan_vlan" numberOf (tableRead map)).getD e.wan_vlan,
        (lastRead "enable" flagOf (tableRead map)).getD e.enable⟩ := by
  have hread : ∀ p ∈ tableRead map, tableRefused p = false := by
    simp only [elementRefused, Bool.or_eq_false_iff] at h
    simpa [List.any_eq_false] using h.2
  rw [processTunnelTableparams, guardedLoop_of_accepted tunnelTableEntry_body map (e, 0x03#8) hread]
  have hname := foldl_field Tunnel.vap_name tableStore (readAs "vap_name" textOf)
    (fun _ _ => rfl) (tableRead map) e
  have hvlan := foldl_field Tunnel.wan_vlan tableStore (readAs "wan_vlan" numberOf)
    (fun _ _ => rfl) (tableRead map) e
  have henable := foldl_field Tunnel.enable tableStore (readAs "enable" flagOf)
    (fun _ _ => rfl) (tableRead map) e
  exact congr (congr (congrArg Tunnel.mk hname) hvlan) henable

end Element

variable (l : List (Kv TunnelVal))

variable {map : List (Kv TunnelVal)}

section Entry

def tableOf : Option (List (Kv MsgpackVal)) → Tunnel
  | some map => (processTunnelTableparams Tunnel.zero map).2
  | none => Tunnel.zero

def objectRefused : Option (List (Kv MsgpackVal)) → Bool
  | some map => elementRefused map
  | none => true

theorem tableEntries_of_accepted {objects : List (Option (List (Kv MsgpackVal)))}
    (h : objects.any objectRefused = false) : tableEntries objects = .ok (objects.map tableOf) := by
  induction objects with
  | nil => rfl
  | cons x rest ih =>
    rw [List.any_cons, Bool.or_eq_false_iff] at h
    cases x with
    | none => cases h.1
    | some map =>
      have hstatus := (processTunnelTableparams_status Tunnel.zero map).mpr h.1
      rw [tableEntries, if_pos hstatus, ih h.2]
      rfl

theorem tableEntries_of_refused {objects : List (Option (List (Kv MsgpackVal)))}
    (h : objects.any objectRefused = true) : ∃ entries, tableEntries objects = .error entries := by
  induction objects with
  | nil => cases h
  | cons x rest ih =>
    cases x with
    | none => exact ⟨_, rfl⟩
    | some map =>
      rw [tableEntries]
      by_cases hstatus : (processTunnelTableparams Tunnel.zero map).1 = 0
      · rw [List.any_cons, objectRefused,
          (processTunnelTableparams_status Tunnel.zero map).mp hstatus, Bool.false_or] at h
        obtain ⟨entries, he⟩ := ih h
        rw [if_pos hstatus, he]
        exact ⟨_, rfl⟩
      · exact ⟨_, if_neg hstatus⟩

def tunnelRefused (p : Kv TunnelVal) : Bool :=
  (readAs "gre_dscp" (scalarOf numberOf) p).any (fun n => decide (UINT16_MAX.toNat < n)) ||
    (readAs "tunnel_network" objectsOf p).any (fun objects => objects.any objectRefused)

def tunnelStore (p : Kv TunnelVal) (e : Tdoc) : Tdoc where
  gre_enable := (readAs "gre_enable" (scalarOf flagOf) p).getD e.gre_enable
  gre_primary_endpoint :=
    (readAs "gre_primary_endpoint" (scalarOf textOf) p).getD e.gre_primary_endpoint
  gre_sec_endpoint := (readAs "gre_sec_endpoint" (scalarOf textOf) p).getD e.gre_sec_endpoint
  gre_dscp := (readAs "gre_dscp" (scalarOf numberOf) p).getD e.gre_dscp
  table_param := ((readAs "tunnel_network" objectsOf p).map
    (fun objects => some (objects.map tableOf))).getD e.table_param

def hits (p : Kv TunnelVal) : ℕ :=
  (readAs "gre_enable" (scalarOf flagOf) p).isSome.toNat +
    (readAs "gre_primary_endpoint" (scalarOf textOf) p).isSome.toNat +
    (readAs "gre_sec_endpoint" (scalarOf textOf) p).isSome.toNat +
    (readAs "tunnel_network" objectsOf p).isSome.toNat

def tunnelShift (p : Kv TunnelVal) (left : BitVec 8) : BitVec 8 := left >>> hits p

theorem tunnelEntry_body : EntryBody tunnelEntry tunnelRefused tunnelStore tunnelShift where
  refuse := by
    rintro ⟨key, val⟩ s h
    cases key with
    | none => simp [tunnelRefused, readAs] at h
    | some key =>
      cases val with
      | scalar v =>
        cases v with
        | positiveInteger u64 =>
          by_cases hkey : matchKey key "gre_dscp" = true
          · simp only [tunnelRefused, readAs, scalarOf, numberOf, objectsOf, if_pos hkey,
              Option.any_some, ite_self, Option.any_none, Bool.or_false, decide_eq_true_eq] at h
            exact ⟨s.1, by simp only [tunnelEntry, if_pos hkey, if_pos (BitVec.lt_def.mpr h)]⟩
          · simp [tunnelRefused, readAs, objectsOf, hkey] at h
        | _ => simp [tunnelRefused, readAs, scalarOf, numberOf, objectsOf] at h
      | array objects =>
        by_cases hkey : matchKey key "tunnel_network" = true
        · simp only [tunnelRefused, readAs, scalarOf, objectsOf, if_pos hkey, Option.any_some,
            ite_self, Option.any_none, Bool.false_or] at h
          obtain ⟨entries, he⟩ := tableEntries_of_refused h
          exact ⟨{ s.1 with table_param := some entries }, by
            simp only [tunnelEntry, if_pos hkey, he]⟩
        · simp [tunnelRefused, readAs, scalarOf, hkey] at h
  accept := by
    rintro ⟨key, val⟩ s h
    cases key with
    | none => rfl
    | some key =>
      cases val with
      | scalar v =>
        cases v with
        | positiveInteger u64 =>
          by_cases hkey : matchKey key "gre_dscp" = true
          · simp only [tunnelRefused, readAs, scalarOf, numberOf, objectsOf, if_pos hkey,
              Option.any_some, ite_self, Option.any_none, Bool.or_false,
              decide_eq_false_iff_not] at h
            rw [← BitVec.lt_def] at h
            simp [tunnelEntry, hkey, h, tunnelStore, tunnelShift, hits, readAs, scalarOf, numberOf,
              textOf, flagOf, objectsOf]
          · simp [tunnelEntry, hkey, tunnelStore, tunnelShift, hits, readAs, scalarOf, textOf,
              flagOf, objectsOf]
        | str v =>
          by_cases hprimary : matchKey key "gre_primary_endpoint" = true <;>
            by_cases hsec : matchKey key "gre_sec_endpoint" = true <;>
            simp [tunnelEntry, hprimary, hsec, tunnelStore, tunnelShift, hits, readAs, scalarOf,
              numberOf, textOf, flagOf, objectsOf]
        | boolean b =>
          by_cases hkey : matchKey key "gre_enable" = true <;>
            simp [tunnelEntry, hkey, tunnelStore, tunnelShift, hits, readAs, scalarOf, numberOf,
              textOf, flagOf, objectsOf]
        | other =>
          simp [tunnelEntry, tunnelStore, tunnelShift, hits, readAs, scalarOf, numberOf, textOf,
            flagOf, objectsOf]
      | array objects =>
        by_cases hkey : matchKey key "tunnel_network" = true
        · simp only [tunnelRefused, readAs, scalarOf, objectsOf, if_pos hkey, Option.any_some,
            ite_self, Option.any_none, Bool.false_or] at h
          simp [tunnelEntry, hkey, tableEntries_of_accepted h, tunnelStore, tunnelShift, hits,
            readAs, scalarOf, objectsOf]
        · simp [tunnelEntry, hkey, tunnelStore, tunnelShift, hits, readAs, scalarOf]

def tunnelRead (map : List (Kv TunnelVal)) : List (Kv TunnelVal) :=
  entriesRead tunnelShift map 0x08#8

def hitsRead (map : List (Kv TunnelVal)) : ℕ := ((tunnelRead map).map hits).sum

/-- gre_enable as the loop reads it. -/
def enabledRead (map : List (Kv TunnelVal)) : Bool :=
  (lastRead "gre_enable" (scalarOf flagOf) (tunnelRead map)).getD false

def shifts (map : List (Kv TunnelVal)) : ℕ := hitsRead map + if enabledRead map then 0 else 1

theorem foldl_tunnelShift (left : BitVec 8) :
    l.foldl (fun left p => tunnelShift p left) left = left >>> (l.map hits).sum := by
  induction l generalizing left with
  | nil => simp
  | cons p rest ih =>
    rw [List.foldl_cons, ih, tunnelShift, List.map_cons, List.sum_cons, BitVec.shiftRight_add]

theorem shifted_eq_zero_iff (n : ℕ) : 0x08#8 >>> n = 0#8 ↔ 4 ≤ n := by
  have hpow : 2 ^ 3 < 2 ^ n ↔ 3 < n := Nat.pow_lt_pow_iff_right (by omega : 1 < 2)
  rw [← BitVec.toNat_inj, BitVec.toNat_ushiftRight, Nat.shiftRight_eq_div_pow]
  change 2 ^ 3 / 2 ^ n = 0 ↔ _
  rw [Nat.div_eq_zero_iff_lt (Nat.two_pow_pos n), hpow]
  omega

theorem foldl_tunnelStore (e : Tdoc) :
    l.foldl (fun e p => tunnelStore p e) e =
      ⟨(lastRead "gre_enable" (scalarOf flagOf) l).getD e.gre_enable,
        (lastRead "gre_primary_endpoint" (scalarOf textOf) l).getD e.gre_primary_endpoint,
        (lastRead "gre_sec_endpoint" (scalarOf textOf) l).getD e.gre_sec_endpoint,
        (lastRead "gre_dscp" (scalarOf numberOf) l).getD e.gre_dscp,
        ((lastRead "tunnel_network" objectsOf l).map
          (fun objects => some (objects.map tableOf))).getD e.table_param⟩ := by
  have henable := foldl_field Tdoc.gre_enable tunnelStore
    (readAs "gre_enable" (scalarOf flagOf)) (fun _ _ => rfl) l e
  have hprimary := foldl_field Tdoc.gre_primary_endpoint tunnelStore
    (readAs "gre_primary_endpoint" (scalarOf textOf)) (fun _ _ => rfl) l e
  have hsec := foldl_field Tdoc.gre_sec_endpoint tunnelStore
    (readAs "gre_sec_endpoint" (scalarOf textOf)) (fun _ _ => rfl) l e
  have hdscp := foldl_field Tdoc.gre_dscp tunnelStore
    (readAs "gre_dscp" (scalarOf numberOf)) (fun _ _ => rfl) l e
  have htable := foldl_field Tdoc.table_param tunnelStore
    (fun p => (readAs "tunnel_network" objectsOf p).map
      (fun objects => some (objects.map tableOf))) (fun _ _ => rfl) l e
  rw [← List.map_filterMap, List.getLast?_map] at htable
  exact congr (congr (congr (congr (congrArg Tdoc.mk henable) hprimary) hsec) hdscp) htable

theorem processTunnelparams_status (map : List (Kv TunnelVal)) :
    (processTunnelparams Tdoc.zero map).1 = 0 ↔
      (∀ p ∈ tunnelRead map, tunnelRefused p = false) ∧ 4 ≤ shifts map := by
  unfold processTunnelparams
  by_cases href : ∃ p ∈ tunnelRead map, tunnelRefused p = true
  · obtain ⟨e, he⟩ := guardedLoop_of_refused tunnelEntry_body map (Tdoc.zero, 0x08#8) href
    obtain ⟨p, hp, hpr⟩ := href
    have hne : (-1 : ℤ) ≠ 0 := by decide
    rw [he]
    refine ⟨fun h => absurd h hne, fun h => ?_⟩
    rw [h.1 p hp] at hpr
    cases hpr
  · have hread : ∀ p ∈ tunnelRead map, tunnelRefused p = false := by
      intro p hp
      rw [← Bool.not_eq_true]
      exact fun hpr => href ⟨p, hp, hpr⟩
    rw [guardedLoop_of_accepted tunnelEntry_body map (Tdoc.zero, 0x08#8) hread,
      foldl_tunnelStore, foldl_tunnelShift]
    change (if (if enabledRead map then 0x08#8 >>> hitsRead map
      else 0x08#8 >>> hitsRead map >>> 1) = 0#8 then (0 : ℤ) else -1) = 0 ↔ _
    have hshift : (if enabledRead map then 0x08#8 >>> hitsRead map
        else 0x08#8 >>> hitsRead map >>> 1) = 0x08#8 >>> shifts map := by
      rw [shifts]
      split
      · rfl
      · rw [BitVec.shiftRight_add]
    rw [hshift]
    simp only [shifted_eq_zero_iff]
    by_cases hfour : 4 ≤ shifts map
    · rw [if_pos hfour]
      exact ⟨fun _ => ⟨hread, hfour⟩, fun _ => rfl⟩
    · rw [if_neg hfour]
      exact ⟨fun h => absurd h (by decide), fun h => absurd h.2 hfour⟩

theorem processTunnelparams_fields (h : ∀ p ∈ tunnelRead map, tunnelRefused p = false) :
    (processTunnelparams Tdoc.zero map).2 =
      ⟨enabledRead map,
        (lastRead "gre_primary_endpoint" (scalarOf textOf) (tunnelRead map)).getD none,
        (lastRead "gre_sec_endpoint" (scalarOf textOf) (tunnelRead map)).getD none,
        (lastRead "gre_dscp" (scalarOf numberOf) (tunnelRead map)).getD 0,
        (lastRead "tunnel_network" objectsOf (tunnelRead map)).map
          (fun objects => objects.map tableOf)⟩ := by
  rw [processTunnelparams, guardedLoop_of_accepted tunnelEntry_body map (Tdoc.zero, 0x08#8) h,
    foldl_tunnelStore]
  change Tdoc.mk _ _ _ _ _ = _
  congr 1
  rw [tunnelRead]
  cases lastRead "tunnel_network" objectsOf (entriesRead tunnelShift map 0x08#8) with
  | none => rfl
  | some objects => rfl

end Entry

section Law

/-- The keys an element of tunnel_network must have. -/
def ElementComplete : Option (List (Kv MsgpackVal)) → Prop
  | some map => HasKey "vap_name" textOf map ∧
      (∃ p ∈ map, p.key = some "wan_vlan".toList ∧
        (numberOf p.val).any (fun n => decide (n ≤ UINT16_MAX.toNat)) = true) ∧
      HasKey "enable" flagOf map
  | none => False

structure Required (map : List (Kv TunnelVal)) : Prop where
  gre_enable : HasKey "gre_enable" (scalarOf flagOf) map
  gre_primary_endpoint : HasKey "gre_primary_endpoint" (scalarOf textOf) map
  gre_sec_endpoint : HasKey "gre_sec_endpoint" (scalarOf textOf) map
  tunnel_network : ∃ p ∈ map, p.key = some "tunnel_network".toList ∧
    ∃ objects, objectsOf p.val = some objects ∧ ∀ x ∈ objects, ElementComplete x

structure StoredElement (map : List (Kv MsgpackVal)) (e : Tunnel) : Prop where
  vap_name : Holds "vap_name" textOf map e.vap_name
  wan_vlan : Holds "wan_vlan" numberOf map e.wan_vlan
  enable : Holds "enable" flagOf map e.enable

def StoredObject (x : Option (List (Kv MsgpackVal))) (e : Tunnel) : Prop :=
  ∃ map, x = some map ∧ StoredElement map e

structure Stored (map : List (Kv TunnelVal)) (e : Tdoc) : Prop where
  gre_enable : Holds "gre_enable" (scalarOf flagOf) map e.gre_enable
  gre_primary_endpoint :
    Holds "gre_primary_endpoint" (scalarOf textOf) map e.gre_primary_endpoint
  gre_sec_endpoint : Holds "gre_sec_endpoint" (scalarOf textOf) map e.gre_sec_endpoint
  gre_dscp : Holds "gre_dscp" (scalarOf numberOf) map e.gre_dscp
  tunnel_network : ∀ p ∈ map, p.key = some "tunnel_network".toList →
    ∀ objects, objectsOf p.val = some objects →
      ∃ table, e.table_param = some table ∧ List.Forall₂ StoredObject objects table

def Lawful (map : List (Kv TunnelVal)) : Prop :=
  ((processTunnelparams Tdoc.zero map).1 = 0 ↔ Required map) ∧
    ((processTunnelparams Tdoc.zero map).1 = 0 → Stored map (processTunnelparams Tdoc.zero map).2)

section Keys

variable {ν β : Type}

/-- The entry of a key is the last one read under its name, or says what the
zeroed record holds and none is read. -/
def ReadLast (name : String) (proj : ν → Option β) (zero : β) (map read : List (Kv ν)) : Prop :=
  Holds name proj map ((lastRead name proj read).getD zero)

end Keys

def ElementRead (x y : Option (List (Kv MsgpackVal))) : Prop :=
  ∃ map map', x = some map ∧ y = some map' ∧
    ReadLast "vap_name" textOf none map (tableRead map') ∧
    ReadLast "wan_vlan" numberOf 0 map (tableRead map') ∧
    ReadLast "enable" flagOf false map (tableRead map')

/-- The condition on a map with all required keys: nothing that is read is
refused, and each key is read, after every other key that passes for its name. -/
structure InTime (map : List (Kv TunnelVal)) : Prop where
  accepted : ∀ p ∈ tunnelRead map, tunnelRefused p = false
  gre_enable : ReadLast "gre_enable" (scalarOf flagOf) false map (tunnelRead map)
  gre_primary_endpoint :
    ReadLast "gre_primary_endpoint" (scalarOf textOf) none map (tunnelRead map)
  gre_sec_endpoint : ReadLast "gre_sec_endpoint" (scalarOf textOf) none map (tunnelRead map)
  gre_dscp : ReadLast "gre_dscp" (scalarOf numberOf) 0 map (tunnelRead map)
  tunnel_network : ∀ p ∈ map, p.key = some "tunnel_network".toList →
    ∀ objects, objectsOf p.val = some objects →
      ∃ objects', lastRead "tunnel_network" objectsOf (tunnelRead map) = some objects' ∧
        List.Forall₂ ElementRead objects objects'

/-- Each key of a map is read from another map, after every other key that passes for its
name. -/
structure ReadFrom (map map' : List (Kv TunnelVal)) : Prop where
  gre_enable : ReadLast "gre_enable" (scalarOf flagOf) false map (tunnelRead map')
  gre_primary_endpoint :
    ReadLast "gre_primary_endpoint" (scalarOf textOf) none map (tunnelRead map')
  gre_sec_endpoint : ReadLast "gre_sec_endpoint" (scalarOf textOf) none map (tunnelRead map')
  gre_dscp : ReadLast "gre_dscp" (scalarOf numberOf) 0 map (tunnelRead map')
  tunnel_network : ∀ p ∈ map, p.key = some "tunnel_network".toList →
    ∀ objects, objectsOf p.val = some objects →
      ∃ objects', lastRead "tunnel_network" objectsOf (tunnelRead map') = some objects' ∧
        List.Forall₂ ElementRead objects objects'

/-- The condition on a map that lacks a required key. -/
def Short (map : List (Kv TunnelVal)) : Prop :=
  (∃ p ∈ tunnelRead map, tunnelRefused p = true) ∨ shifts map < 4

theorem sum_hits : (l.map hits).sum =
    l.countP (fun p => (readAs "gre_enable" (scalarOf flagOf) p).isSome) +
      l.countP (fun p => (readAs "gre_primary_endpoint" (scalarOf textOf) p).isSome) +
      l.countP (fun p => (readAs "gre_sec_endpoint" (scalarOf textOf) p).isSome) +
      l.countP (fun p => (readAs "tunnel_network" objectsOf p).isSome) := by
  induction l with
  | nil => rfl
  | cons p rest ih =>
    have hcount : ∀ b : Bool, (if b = true then 1 else 0) = b.toNat := by decide
    simp only [List.map_cons, List.sum_cons, ih, List.countP_cons, hcount, hits]
    omega

theorem countP_pos_of_hasKey {ν β : Type} {name : String} {proj : ν → Option β}
    {map : List (Kv ν)} (h : HasKey name proj map) :
    0 < map.countP (fun p => (readAs name proj p).isSome) := by
  obtain ⟨p, hp, hkey, hval⟩ := h
  apply List.countP_pos_iff.mpr
  exact ⟨p, hp, by rwa [readAs_of_key hkey]⟩

theorem Required.four_le_shifts (h : Required map) :
    4 ≤ shifts map := by
  have hnetwork : HasKey "tunnel_network" objectsOf map := by
    obtain ⟨p, hp, hkey, objects, hobjects, -⟩ := h.tunnel_network
    exact ⟨p, hp, hkey, by rw [hobjects]; rfl⟩
  suffices hhits : 4 ≤ hitsRead map by
    rw [shifts]
    omega
  by_contra hlt
  have hleft : (tunnelRead map).foldl (fun left p => tunnelShift p left) 0x08#8 ≠ 0#8 := by
    rw [foldl_tunnelShift, ne_eq, shifted_eq_zero_iff]
    exact hlt
  have hread : tunnelRead map = map := entriesRead_eq_of_left hleft
  have henable := countP_pos_of_hasKey h.gre_enable
  have hprimary := countP_pos_of_hasKey h.gre_primary_endpoint
  have hsec := countP_pos_of_hasKey h.gre_sec_endpoint
  have htable := countP_pos_of_hasKey hnetwork
  rw [hitsRead, hread, sum_hits] at hlt
  omega

theorem storedObject_iff {x y : Option (List (Kv MsgpackVal))} (hy : objectRefused y = false) :
    StoredObject x (tableOf y) ↔ ElementRead x y := by
  cases y with
  | none => cases hy
  | some map' =>
    have hfields : tableOf (some map') = _ := processTunnelTableparams_fields hy
    rw [hfields]
    constructor
    · rintro ⟨map, rfl, h⟩
      exact ⟨map, map', rfl, rfl, h.vap_name, h.wan_vlan, h.enable⟩
    · rintro ⟨map, map'', rfl, hy', hname, hvlan, henable⟩
      obtain rfl := Option.some.inj hy'
      exact ⟨map, rfl, hname, hvlan, henable⟩

theorem forall₂_storedObject_iff {objects objects' : List (Option (List (Kv MsgpackVal)))}
    (h : objects'.any objectRefused = false) :
    List.Forall₂ StoredObject objects (objects'.map tableOf) ↔
      List.Forall₂ ElementRead objects objects' := by
  rw [List.forall₂_map_right_iff]
  induction objects' generalizing objects with
  | nil => simp
  | cons y rest ih =>
    rw [List.any_cons, Bool.or_eq_false_iff] at h
    cases objects with
    | nil => simp
    | cons x others => rw [List.forall₂_cons, List.forall₂_cons, storedObject_iff h.1, ih h.2]

theorem stored_from_iff {map map' : List (Kv TunnelVal)}
    (h : ∀ p ∈ tunnelRead map', tunnelRefused p = false) :
    Stored map (processTunnelparams Tdoc.zero map').2 ↔ ReadFrom map map' := by
  have htable : ∀ objects', lastRead "tunnel_network" objectsOf (tunnelRead map') = some objects' →
      objects'.any objectRefused = false := by
    intro objects' hlast
    obtain ⟨p, hp, hread⟩ := List.mem_filterMap.mp (List.mem_of_getLast? hlast)
    have hp := h p hp
    rw [tunnelRefused, Bool.or_eq_false_iff, hread] at hp
    exact hp.2
  rw [processTunnelparams_fields h]
  constructor
  · intro hs
    refine ⟨hs.gre_enable, hs.gre_primary_endpoint, hs.gre_sec_endpoint, hs.gre_dscp,
      fun p hp hkey objects hobjects => ?_⟩
    obtain ⟨table, hmap, hall⟩ := hs.tunnel_network p hp hkey objects hobjects
    obtain ⟨objects', hlast, rfl⟩ := Option.map_eq_some_iff.mp hmap
    exact ⟨objects', hlast, (forall₂_storedObject_iff (htable objects' hlast)).mp hall⟩
  · intro hs
    refine ⟨hs.gre_enable, hs.gre_primary_endpoint, hs.gre_sec_endpoint, hs.gre_dscp,
      fun p hp hkey objects hobjects => ?_⟩
    obtain ⟨objects', hlast, hall⟩ := hs.tunnel_network p hp hkey objects hobjects
    exact ⟨objects'.map tableOf, by rw [hlast]; rfl,
      (forall₂_storedObject_iff (htable objects' hlast)).mpr hall⟩

theorem stored_iff (h : ∀ p ∈ tunnelRead map, tunnelRefused p = false) :
    Stored map (processTunnelparams Tdoc.zero map).2 ↔ InTime map := by
  rw [stored_from_iff h]
  constructor
  · intro hs
    exact ⟨h, hs.gre_enable, hs.gre_primary_endpoint, hs.gre_sec_endpoint, hs.gre_dscp,
      hs.tunnel_network⟩
  · intro hs
    exact ⟨hs.gre_enable, hs.gre_primary_endpoint, hs.gre_sec_endpoint, hs.gre_dscp,
      hs.tunnel_network⟩

/-- A map with its required keys is decoded as promised when they are read in
time and nothing read is refused, another one when something read is refused or
the byte is not shifted out. -/
theorem tunnel_lawful_iff (map : List (Kv TunnelVal)) :
    Lawful map ↔ (Required map → InTime map) ∧ (¬ Required map → Short map) := by
  have hstatus := processTunnelparams_status map
  constructor
  · rintro ⟨hiff, hstored⟩
    refine ⟨fun hreq => ?_, fun hreq => ?_⟩
    · have hzero := hiff.mpr hreq
      exact (stored_iff (hstatus.mp hzero).1).mp (hstored hzero)
    · by_contra hshort
      apply hreq
      apply hiff.mp
      apply hstatus.mpr
      rw [Short, not_or, Nat.not_lt] at hshort
      refine ⟨fun p hp => ?_, hshort.2⟩
      rw [← Bool.not_eq_true]
      exact fun hpr => hshort.1 ⟨p, hp, hpr⟩
  · rintro ⟨hin, hout⟩
    have hrequired : (processTunnelparams Tdoc.zero map).1 = 0 → Required map := by
      intro hzero
      obtain ⟨haccepted, hfour⟩ := hstatus.mp hzero
      by_contra hreq
      rcases hout hreq with ⟨p, hp, hpr⟩ | hlt
      · rw [haccepted p hp] at hpr
        cases hpr
      · omega
    refine ⟨⟨hrequired, fun hreq => ?_⟩, fun hzero => ?_⟩
    · exact hstatus.mpr ⟨(hin hreq).accepted, hreq.four_le_shifts⟩
    · have hin := hin (hrequired hzero)
      exact (stored_iff hin.accepted).mpr hin

def entry {ν : Type} (name : String) (val : ν) : Kv ν := ⟨some name.toList, val⟩

def endpoint (name : String) : Kv TunnelVal := entry name (.scalar (.str "2001:db8::1".toList))

def network (map : List (Kv MsgpackVal)) : Kv TunnelVal :=
  entry "tunnel_network" (.array [some map])

def completeElement : List (Kv MsgpackVal) :=
  [entry "vap_name" (.str "hotspot".toList), entry "wan_vlan" (.positiveInteger 102),
    entry "enable" (.boolean true)]

def noNetwork : List (Kv TunnelVal) :=
  [entry "gre_enable" (.scalar (.boolean false)), endpoint "gre_primary_endpoint",
    endpoint "gre_sec_endpoint"]

def dscpLast : List (Kv TunnelVal) :=
  [entry "gre_enable" (.scalar (.boolean true)), endpoint "gre_primary_endpoint",
    endpoint "gre_sec_endpoint", network completeElement,
    entry "gre_dscp" (.scalar (.positiveInteger 44))]

def noVlan : List (Kv TunnelVal) :=
  [entry "gre_enable" (.scalar (.boolean true)), endpoint "gre_primary_endpoint",
    endpoint "gre_sec_endpoint",
    network [entry "vap_name" (.str "hotspot".toList), entry "enable" (.boolean true)]]

/-- A missing tunnel_network, a gre_dscp behind the required keys and an element
without wan_vlan. -/
theorem tunnel_maps_unlawful :
    ¬ Lawful noNetwork ∧ ¬ Lawful dscpLast ∧ ¬ Lawful noVlan := by
  refine ⟨fun h => ?_, fun h => ?_, fun h => ?_⟩
  · have hzero : (processTunnelparams Tdoc.zero noNetwork).1 = 0 := by decide +kernel
    obtain ⟨p, hp, hkey, -⟩ := (h.1.mp hzero).tunnel_network
    revert hkey
    revert p
    simp [noNetwork, entry, endpoint]
  · have hzero : (processTunnelparams Tdoc.zero dscpLast).1 = 0 := by decide +kernel
    have hdscp := (h.2 hzero).gre_dscp _ (List.mem_of_getLast? (l := dscpLast) rfl) rfl 44 rfl
    revert hdscp
    decide +kernel
  · have hzero : (processTunnelparams Tdoc.zero noVlan).1 = 0 := by decide +kernel
    obtain ⟨p, hp, hkey, objects, hobjects, hcomplete⟩ := (h.1.mp hzero).tunnel_network
    simp only [noVlan, List.mem_cons, List.not_mem_nil, or_false] at hp
    rcases hp with rfl | rfl | rfl | rfl
    · exact absurd hkey (by decide)
    · exact absurd hkey (by decide)
    · exact absurd hkey (by decide)
    · cases hobjects
      obtain ⟨q, hq, hvlan, -⟩ := (hcomplete _ (List.mem_singleton_self _)).2.1
      revert hvlan
      revert q
      simp [entry]

end Law

end CcspPandM.TunnelParams
