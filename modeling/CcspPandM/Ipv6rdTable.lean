import CcspPandM.ParentalControlRuns

/-!
The 6rd interface settings: the table in memory and its records in syscfg. Adding
and changing write a record and then the table, deleting takes both away, and
the loader looks for a record under each instance number from 1 up to the last
but one of `MAX_6RDIF_INS`.
-/
namespace CcspPandM.Ipv6rdTable

open CString KeyStore KeyedList Runs ScanText IpRegistry

def MAX_6RDIF_INS : ℕ := 64

/-- The saved fields of a `COSA_DML_IPV6RD_IF`. -/
structure COSA_DML_IPV6RD_IF where
  InstanceNumber : ULONG
  Enable : Bool
  Alias : Buf 65
  BorderRelayIPv4Addr : Buf 513
  AllTrafficToBorderRelay : Bool
  SPIPv6Prefix : Buf 513
  IPv4MaskLength : ULONG
  AddressSource : Buf 257
  deriving DecidableEq

def TR_6RD_IF_PRE : CStr := "Device.IPv6rd.InterfaceSetting".toList

def IFP_ENABLE : CStr := "Enable".toList
def IFP_ALIAS : CStr := "Alias".toList
def IFP_BRIPV4ADDRS : CStr := "BorderRelayIPv4Addresses".toList
def IFP_ALLTRTOBR : CStr := "AllTrafficToBorderRelay".toList
def IFP_SPV6PREFIX : CStr := "SPIPv6Prefix".toList
def IFP_IPV4MASKLEN : CStr := "IPv4MaskLength".toList
def IFP_ADDRSOURCE : CStr := "AddressSource".toList

def IFP_NAMES : List CStr :=
  [IFP_ENABLE, IFP_ALIAS, IFP_BRIPV4ADDRS, IFP_ALLTRTOBR, IFP_SPV6PREFIX, IFP_IPV4MASKLEN,
    IFP_ADDRSOURCE]

/-- `"%s.%d.%s"`, with the instance number as an int. -/
def ifKey (ins : ULONG) (name : CStr) : CStr := TR_6RD_IF_PRE ++ '.' :: (intText ins ++ '.' :: name)

section Reads

variable (db : Store CStr CStr) (key : CStr)

def syscfg_get_string {n : ℕ} [NeZero n] : Option (Buf n) := (db key).map Buf.snprintf

def syscfg_get_bool : Option Bool :=
  (syscfg_get_string (n := 12) db key).map (fun value => value.text = "1".toList)

/-- `(ULONG) atoi(value)`, a long of 32 bits; a text without a number is 0. -/
def syscfg_get_ulong : Option ULONG :=
  (syscfg_get_string (n := 12) db key).map (fun value => sscanf_d value.text 0)

end Reads

def boolText (b : Bool) : CStr := if b then "1".toList else "0".toList

/-- One turn of the loader: nothing when a key after the first is missing. -/
def loadIf (db : Store CStr CStr) (ins : ULONG) : Option (Option COSA_DML_IPV6RD_IF) :=
  match syscfg_get_bool db (ifKey ins IFP_ENABLE) with
  | none => some none
  | some Enable => do
    let Alias ← syscfg_get_string db (ifKey ins IFP_ALIAS)
    let BorderRelayIPv4Addr ← syscfg_get_string db (ifKey ins IFP_BRIPV4ADDRS)
    let AllTrafficToBorderRelay ← syscfg_get_bool db (ifKey ins IFP_ALLTRTOBR)
    let SPIPv6Prefix ← syscfg_get_string db (ifKey ins IFP_SPV6PREFIX)
    let IPv4MaskLength ← syscfg_get_ulong db (ifKey ins IFP_IPV4MASKLEN)
    let AddressSource ← syscfg_get_string db (ifKey ins IFP_ADDRSOURCE)
    pure (some ⟨ins, Enable, Alias, BorderRelayIPv4Addr, AllTrafficToBorderRelay, SPIPv6Prefix,
      IPv4MaskLength, AddressSource⟩)

/-- The instance numbers of `for (ins = 1; ins < MAX_6RDIF_INS - 1; ins++)`. -/
def window : List ULONG := (List.range' 1 (MAX_6RDIF_INS - 2)).map (BitVec.ofNat 32)

def loadFrom (db : Store CStr CStr) : List ULONG → Option (List COSA_DML_IPV6RD_IF)
  | [] => some []
  | ins :: rest => do
    let found ← loadIf db ins
    let later ← loadFrom db rest
    pure (found.toList ++ later)

def load_ipv6rd_conf (db : Store CStr CStr) : Option (List COSA_DML_IPV6RD_IF) :=
  loadFrom db window

/-- `g_ipv6rd_conf->ifconfs`, as far as `ifnum`, and syscfg. -/
structure State where
  ifconfs : List COSA_DML_IPV6RD_IF
  db : Store CStr CStr

def get_ifconf_by_insnum (l : List COSA_DML_IPV6RD_IF) (ins : ULONG) :
    Option COSA_DML_IPV6RD_IF := find COSA_DML_IPV6RD_IF.InstanceNumber l ins

def get_ifconf_by_alias (l : List COSA_DML_IPV6RD_IF) (pAlias : Buf 65) :
    Option COSA_DML_IPV6RD_IF := find COSA_DML_IPV6RD_IF.Alias l pAlias

/-- The records `save_ifconf` writes for an entry. -/
def ifRecords (new : COSA_DML_IPV6RD_IF) : List (CStr × CStr) :=
  [(ifKey new.InstanceNumber IFP_ENABLE, boolText new.Enable),
    (ifKey new.InstanceNumber IFP_ALIAS, new.Alias.text),
    (ifKey new.InstanceNumber IFP_BRIPV4ADDRS, new.BorderRelayIPv4Addr.text),
    (ifKey new.InstanceNumber IFP_ALLTRTOBR, boolText new.AllTrafficToBorderRelay),
    (ifKey new.InstanceNumber IFP_SPV6PREFIX, new.SPIPv6Prefix.text),
    (ifKey new.InstanceNumber IFP_IPV4MASKLEN, decimal new.IPv4MaskLength.toNat),
    (ifKey new.InstanceNumber IFP_ADDRSOURCE, new.AddressSource.text)]

def save_ifconf (new : COSA_DML_IPV6RD_IF) (s : State) : Bool × State :=
  let db := setAll (ifRecords new) s.db
  if (get_ifconf_by_insnum s.ifconfs new.InstanceNumber).isSome then
    (true, ⟨s.ifconfs.replaceF
      (fun conf => if conf.InstanceNumber = new.InstanceNumber then some new else none), db⟩)
  else if MAX_6RDIF_INS < s.ifconfs.length + 1 then (false, ⟨s.ifconfs, db⟩)
  else (true, ⟨s.ifconfs ++ [new], db⟩)

def delete_ifconf (ins : ULONG) (s : State) : Bool × State :=
  if (get_ifconf_by_insnum s.ifconfs ins).isNone then (false, s)
  else (true, ⟨s.ifconfs.eraseP (fun conf => conf.InstanceNumber = ins),
    unsetAll (IFP_NAMES.map (ifKey ins)) s.db⟩)

def CosaDml_IPv6rdSetEntry (ulInstanceNumber : ULONG) (pEntry : COSA_DML_IPV6RD_IF) (s : State) :
    Bool × State :=
  if (get_ifconf_by_insnum s.ifconfs ulInstanceNumber).isNone then (false, s)
  else if ulInstanceNumber ≠ pEntry.InstanceNumber then (false, s)
  else save_ifconf pEntry s

/-- An entry without an alias gets `"tun6rd%lu"`. -/
def defaultAlias (pEntry : COSA_DML_IPV6RD_IF) : COSA_DML_IPV6RD_IF :=
  if pEntry.Alias.text = [] then
    { pEntry with Alias :=
        Buf.snprintf ("tun6rd".toList ++ decimal pEntry.InstanceNumber.toNat) }
  else pEntry

/-- Adding; the caller's entry comes back with its alias. -/
def CosaDml_IPv6rdAddEntry (pEntry : COSA_DML_IPV6RD_IF) (s : State) :
    Bool × COSA_DML_IPV6RD_IF × State :=
  if (get_ifconf_by_insnum s.ifconfs pEntry.InstanceNumber).isSome
      ∨ (get_ifconf_by_alias s.ifconfs pEntry.Alias).isSome then (false, pEntry, s)
  else
    let new := defaultAlias pEntry
    if pEntry.Alias.text = [] ∧ (get_ifconf_by_alias s.ifconfs new.Alias).isSome then
      (false, new, s)
    else if MAX_6RDIF_INS < s.ifconfs.length + 1 then (false, new, s)
    else
      let (ok, t) := save_ifconf new s
      (ok, new, t)

def CosaDml_IPv6rdDelEntry (ulInstanceNumber : ULONG) (s : State) : Bool × State :=
  if (get_ifconf_by_insnum s.ifconfs ulInstanceNumber).isNone then (false, s)
  else delete_ifconf ulInstanceNumber s

inductive Op where
  | addEntry (pEntry : COSA_DML_IPV6RD_IF)
  | setEntry (ulInstanceNumber : ULONG) (pEntry : COSA_DML_IPV6RD_IF)
  | delEntry (ulInstanceNumber : ULONG)

def step (s : State) : Op → Option State
  | .addEntry pEntry => some (CosaDml_IPv6rdAddEntry pEntry s).2.2
  | .setEntry ulInstanceNumber pEntry => some (CosaDml_IPv6rdSetEntry ulInstanceNumber pEntry s).2
  | .delEntry ulInstanceNumber => some (CosaDml_IPv6rdDelEntry ulInstanceNumber s).2

/-- What is asked of the table: distinct numbers and aliases, no more entries
than there is room for, and a store that loads as the same entries. -/
structure Sound (s : State) : Prop where
  numbers : (s.ifconfs.map COSA_DML_IPV6RD_IF.InstanceNumber).Nodup
  aliases : (s.ifconfs.map COSA_DML_IPV6RD_IF.Alias).Nodup
  ifnum : s.ifconfs.length ≤ MAX_6RDIF_INS
  reload : ∃ l, load_ipv6rd_conf s.db = some l ∧ l.Perm s.ifconfs

variable (e : COSA_DML_IPV6RD_IF)

section Keys

theorem notMem_intText (x : ULONG) : '.' ∉ intText x := by
  have hdecimal (n : ℕ) : '.' ∉ decimal n := by
    intro h
    have hdigit := isDigit_of_mem_decimal h
    revert hdigit
    decide
  unfold intText
  split
  · simp [hdecimal]
  · exact hdecimal _

theorem notMem_names {name : CStr} (h : name ∈ IFP_NAMES) : '.' ∉ name := by
  revert name
  decide +kernel

theorem ifKey_inj {m n : ULONG} {a b : CStr} (ha : a ∈ IFP_NAMES) (h : ifKey m a = ifKey n b) :
    m = n ∧ a = b := by
  have hrest : intText m ++ '.' :: a = intText n ++ '.' :: b :=
    (List.cons.inj (List.append_cancel_left h)).2
  have hparts : intText n = intText m ∧ '.' = '.' ∧ b = a := by
    have hsplit := hrest.symm
    by_cases hb : '.' ∈ b
    · exfalso
      have hcount := congrArg (List.count '.') hrest
      have hbcount := List.count_pos_iff.mpr hb
      simp only [List.count_append, List.count_cons_self,
        List.count_eq_zero_of_not_mem (notMem_intText m),
        List.count_eq_zero_of_not_mem (notMem_intText n),
        List.count_eq_zero_of_not_mem (notMem_names ha)] at hcount
      omega
    · exact (List.append_cons_inj_of_notMem (notMem_intText n) hb).mp hsplit
  exact ⟨(ParentalControlRuns.intText_injective hparts.1).symm, hparts.2.2.symm⟩

theorem keys_ifRecords :
    keys (ifRecords e) = IFP_NAMES.map (ifKey e.InstanceNumber) := rfl

theorem nodup_keys : (keys (ifRecords e)).Nodup := by
  rw [keys_ifRecords]
  have hnames : IFP_NAMES.Nodup := by decide +kernel
  apply (List.nodup_map_iff_inj_on hnames).mpr
  intro a ha b _ hab
  exact (ifKey_inj ha hab).2

theorem notMem_keys {ins ins' : ULONG} (h : ins' ≠ ins) {name : CStr} (hname : name ∈ IFP_NAMES) :
    ifKey ins' name ∉ IFP_NAMES.map (ifKey ins) := by
  intro hmem
  obtain ⟨other, _, hother⟩ := List.mem_map.mp hmem
  exact h (ifKey_inj hname hother.symm).1

end Keys

variable {l : List COSA_DML_IPV6RD_IF}

section Loading

variable {db db' : Store CStr CStr} {ins : ULONG}

theorem loadIf_congr (h : ∀ name ∈ IFP_NAMES, db' (ifKey ins name) = db (ifKey ins name)) :
    loadIf db' ins = loadIf db ins := by
  have hEnable := h IFP_ENABLE (by simp [IFP_NAMES])
  have hAlias := h IFP_ALIAS (by simp [IFP_NAMES])
  have hBr := h IFP_BRIPV4ADDRS (by simp [IFP_NAMES])
  have hAll := h IFP_ALLTRTOBR (by simp [IFP_NAMES])
  have hSp := h IFP_SPV6PREFIX (by simp [IFP_NAMES])
  have hMask := h IFP_IPV4MASKLEN (by simp [IFP_NAMES])
  have hAddr := h IFP_ADDRSOURCE (by simp [IFP_NAMES])
  simp only [loadIf, syscfg_get_bool, syscfg_get_ulong, syscfg_get_string, hEnable, hAlias, hBr,
    hAll, hSp, hMask, hAddr]

theorem loadIf_of_none (h : db (ifKey ins IFP_ENABLE) = none) :
    loadIf db ins = some none := by
  simp [loadIf, syscfg_get_bool, syscfg_get_string, h]

theorem number_of_loadIf {e : COSA_DML_IPV6RD_IF}
    (h : loadIf db ins = some (some e)) : e.InstanceNumber = ins := by
  unfold loadIf at h
  split at h
  · cases h
  · simp only [Option.bind_eq_bind, Option.bind_eq_some_iff] at h
    obtain ⟨_, _, _, _, _, _, _, _, _, _, _, _, he⟩ := h
    cases he
    rfl

/-- What a saved entry is read back as: its mask length goes through `atoi`. -/
def reread (e : COSA_DML_IPV6RD_IF) : COSA_DML_IPV6RD_IF :=
  { e with IPv4MaskLength := sscanf_d (decimal e.IPv4MaskLength.toNat) 0 }

theorem snprintf_text {n : ℕ} [NeZero n] (b : Buf n) : (Buf.snprintf b.text : Buf n) = b :=
  Buf.text_injective (Buf.text_snprintf_of_lt b.text_length_lt)

theorem snprintf_boolText (b : Bool) :
    decide ((Buf.snprintf (boolText b) : Buf 12).text = "1".toList) = b := by
  cases b <;> decide +kernel

theorem snprintf_decimal (x : ULONG) :
    (Buf.snprintf (decimal x.toNat) : Buf 12).text = decimal x.toNat := by
  apply Buf.text_snprintf_of_lt
  have hlen := (decimal_length_le_iff (n := x.toNat) (k := 10) (by omega)).mpr
    (by have := x.isLt; omega)
  omega

theorem reread_eq_iff :
    reread e = e ↔ e.IPv4MaskLength.toNat < 2 ^ 31 := by
  rw [← sscanf_d_decimal_eq_iff e.IPv4MaskLength 0]
  constructor
  · intro h
    exact congrArg COSA_DML_IPV6RD_IF.IPv4MaskLength h
  · intro h
    rw [reread, h]

theorem loadIf_of_records {e : COSA_DML_IPV6RD_IF}
    (h : ∀ r ∈ ifRecords e, db r.1 = some r.2) :
    loadIf db e.InstanceNumber = some (some (reread e)) := by
  simp only [ifRecords, List.forall_mem_cons] at h
  obtain ⟨hEnable, hAlias, hBr, hAll, hSp, hMask, hAddr, _⟩ := h
  simp only [loadIf, syscfg_get_bool, syscfg_get_ulong, syscfg_get_string, hEnable, hAlias, hBr,
    hAll, hSp, hMask, hAddr, Option.map_some, snprintf_text, snprintf_boolText, snprintf_decimal,
    Option.bind_eq_bind, Option.bind_some, Option.pure_def]
  rfl

theorem loadIf_saved (ins : ULONG) :
    loadIf (setAll (ifRecords e) db) ins =
      if ins = e.InstanceNumber then some (some (reread e)) else loadIf db ins := by
  split
  · next h =>
    rw [h]
    apply loadIf_of_records
    intro r hr
    rw [setAll_apply, lastValue_of_mem (nodup_keys e) hr]
    rfl
  · next h =>
    apply loadIf_congr
    intro name hname
    exact setAll_of_notMem db (notMem_keys h hname)

theorem loadIf_deleted (ins ins' : ULONG) :
    loadIf (unsetAll (IFP_NAMES.map (ifKey ins)) db) ins' =
      if ins' = ins then some none else loadIf db ins' := by
  split
  · next h =>
    rw [h]
    apply loadIf_of_none
    apply unsetAll_of_mem
    exact List.mem_map_of_mem (by simp [IFP_NAMES])
  · next h =>
    apply loadIf_congr
    intro name hname
    exact unsetAll_of_notMem db (notMem_keys h hname)

theorem loadFrom_of_forall {f : ULONG → Option COSA_DML_IPV6RD_IF} {ks : List ULONG}
    (h : ∀ ins ∈ ks, loadIf db ins = some (f ins)) :
    loadFrom db ks = some (ks.filterMap f) := by
  induction ks with
  | nil => rfl
  | cons ins ks ih =>
    have hhead := h ins List.mem_cons_self
    have hrest := ih fun k hk => h k (List.mem_cons_of_mem ins hk)
    simp only [loadFrom, hhead, hrest, Option.bind_eq_bind, Option.bind_some, Option.pure_def]
    cases hf : f ins with
    | none => rw [List.filterMap_cons_none hf]; rfl
    | some e => rw [List.filterMap_cons_some hf]; rfl

theorem exists_of_loadFrom {ks : List ULONG}
    (h : loadFrom db ks = some l) : ∃ f : ULONG → Option COSA_DML_IPV6RD_IF,
      (∀ ins ∈ ks, loadIf db ins = some (f ins)) ∧ l = ks.filterMap f := by
  have hall : ∀ ins ∈ ks, (loadIf db ins).isSome := by
    induction ks generalizing l with
    | nil => intro ins hins; cases hins
    | cons k ks ih =>
      simp only [loadFrom, Option.bind_eq_bind, Option.bind_eq_some_iff] at h
      obtain ⟨found, hfound, later, hlater, _⟩ := h
      intro ins hins
      rcases List.mem_cons.mp hins with hk | hk
      · rw [hk, hfound]
        rfl
      · exact ih hlater ins hk
  have hget : ∀ ins ∈ ks, loadIf db ins = some ((loadIf db ins).getD none) := by
    intro ins hins
    obtain ⟨o, ho⟩ := Option.isSome_iff_exists.mp (hall ins hins)
    rw [ho]
    rfl
  refine ⟨fun ins => (loadIf db ins).getD none, hget, ?_⟩
  have hload := loadFrom_of_forall hget
  rw [h, Option.some.injEq] at hload
  exact hload

end Loading

/-- What every accepted step has to keep: the loader finds at each number it
looks for what the table holds of that number. -/
structure Agrees (s : State) : Prop where
  numbers : (s.ifconfs.map COSA_DML_IPV6RD_IF.InstanceNumber).Nodup
  aliases : (s.ifconfs.map COSA_DML_IPV6RD_IF.Alias).Nodup
  ifnum : s.ifconfs.length ≤ MAX_6RDIF_INS
  inWindow : ∀ e ∈ s.ifconfs, e.InstanceNumber ∈ window
  stored : ∀ ins ∈ window, loadIf s.db ins = some (get_ifconf_by_insnum s.ifconfs ins)

theorem nodup_window : window.Nodup := by decide +kernel

theorem mem_window_iff (ins : ULONG) :
    ins ∈ window ↔ 1 ≤ ins.toNat ∧ ins.toNat < MAX_6RDIF_INS - 1 := by
  rw [window, List.mem_map]
  constructor
  · intro h
    obtain ⟨i, hi, hins⟩ := h
    rw [List.mem_range'_1, MAX_6RDIF_INS] at hi
    rw [← hins, BitVec.toNat_ofNat, Nat.mod_eq_of_lt (by omega), MAX_6RDIF_INS]
    omega
  · intro h
    refine ⟨ins.toNat, ?_, by simp⟩
    rw [List.mem_range'_1]
    rw [MAX_6RDIF_INS] at h ⊢
    omega

theorem Agrees.sound {s : State} (h : Agrees s) : Sound s where
  numbers := h.numbers
  aliases := h.aliases
  ifnum := h.ifnum
  reload := ⟨_, loadFrom_of_forall h.stored,
    filterMap_find_perm h.numbers nodup_window h.inWindow⟩

theorem agrees_loaded {db : Store CStr CStr} (hload : load_ipv6rd_conf db = some l)
    (haliases : (l.map COSA_DML_IPV6RD_IF.Alias).Nodup) : Agrees ⟨l, db⟩ := by
  obtain ⟨f, hf, hl⟩ := exists_of_loadFrom hload
  have hnumber : ∀ ins ∈ window, ∀ e, f ins = some e → e.InstanceNumber = ins := by
    intro ins hins e he
    have hread : loadIf db ins = some (some e) := by rw [hf ins hins, he]
    exact number_of_loadIf hread
  have hmem : ∀ e, e ∈ l ↔ ∃ ins ∈ window, f ins = some e := by
    intro e
    rw [hl, List.mem_filterMap]
  have hinWindow : ∀ e ∈ l, e.InstanceNumber ∈ window ∧ f e.InstanceNumber = some e := by
    intro e he
    obtain ⟨ins, hins, hfe⟩ := (hmem e).mp he
    rw [hnumber ins hins e hfe]
    exact ⟨hins, hfe⟩
  have hnodup : l.Nodup := haliases.of_map _
  have hnumbers : (l.map COSA_DML_IPV6RD_IF.InstanceNumber).Nodup := by
    apply (List.nodup_map_iff_inj_on hnodup).mpr
    intro a ha b hb hab
    have hfa := (hinWindow a ha).2
    rw [hab, (hinWindow b hb).2] at hfa
    exact (Option.some.inj hfa).symm
  refine ⟨hnumbers, haliases, ?_, fun e he => (hinWindow e he).1, ?_⟩
  · have hlen : l.length ≤ window.length := by
      rw [hl]
      exact List.length_filterMap_le f window
    exact hlen.trans (by decide +kernel)
  · intro ins hins
    rw [hf ins hins, Option.some.injEq]
    change f ins = find _ l ins
    cases hfind : find COSA_DML_IPV6RD_IF.InstanceNumber l ins with
    | some e =>
      obtain ⟨he, hkey⟩ := (find_eq_some_iff hnumbers ins e).mp hfind
      rw [← hkey]
      exact (hinWindow e he).2
    | none =>
      cases hfe : f ins with
      | none => rfl
      | some e =>
        have hkey := hnumber ins hins e hfe
        have hnone := (find_eq_none_iff ins).mp hfind
        exact absurd (List.mem_map.mpr ⟨e, (hmem e).mpr ⟨ins, hins, hfe⟩, hkey⟩) hnone

section Saving

/-- The state `save_ifconf` leaves when there is room for the entry. -/
def saved (s : State) (e : COSA_DML_IPV6RD_IF) : State :=
  ⟨put COSA_DML_IPV6RD_IF.InstanceNumber s.ifconfs e, setAll (ifRecords e) s.db⟩

variable {s : State} {e : COSA_DML_IPV6RD_IF}

theorem found_iff (l : List COSA_DML_IPV6RD_IF) (ins : ULONG) :
    (get_ifconf_by_insnum l ins).isSome ↔ ins ∈ l.map COSA_DML_IPV6RD_IF.InstanceNumber := by
  rw [Option.isSome_iff_ne_none, get_ifconf_by_insnum, ne_eq, find_eq_none_iff, not_not]

def HasRoom (s : State) (e : COSA_DML_IPV6RD_IF) : Prop :=
  e.InstanceNumber ∈ s.ifconfs.map COSA_DML_IPV6RD_IF.InstanceNumber ∨
    s.ifconfs.length + 1 ≤ MAX_6RDIF_INS

theorem save_ifconf_eq (h : (s.ifconfs.map COSA_DML_IPV6RD_IF.InstanceNumber).Nodup)
    (hroom : HasRoom s e) : save_ifconf e s = (true, saved s e) := by
  unfold save_ifconf
  by_cases hmem : e.InstanceNumber ∈ s.ifconfs.map COSA_DML_IPV6RD_IF.InstanceNumber
  · have hfound := (found_iff s.ifconfs e.InstanceNumber).mpr hmem
    have hput := replaceF_eq_put h hmem
    simp only [hfound, if_true, saved, ← hput]
  · have hfound : ¬(get_ifconf_by_insnum s.ifconfs e.InstanceNumber).isSome :=
      fun hsome => hmem ((found_iff _ _).mp hsome)
    have hlen : ¬MAX_6RDIF_INS < s.ifconfs.length + 1 := by
      have := hroom.resolve_left hmem
      omega
    have hput := put_of_notMem hmem
    simp only [hfound, if_false, hlen, saved, hput, Bool.false_eq_true]

theorem length_put_le (hroom : HasRoom s e) (hlen : s.ifconfs.length ≤ MAX_6RDIF_INS) :
    (put COSA_DML_IPV6RD_IF.InstanceNumber s.ifconfs e).length ≤ MAX_6RDIF_INS := by
  have hkeys := congrArg List.length
    (@keys_put _ _ _ COSA_DML_IPV6RD_IF.InstanceNumber s.ifconfs e)
  rw [List.length_map] at hkeys
  rw [hkeys]
  by_cases hmem : e.InstanceNumber ∈ s.ifconfs.map COSA_DML_IPV6RD_IF.InstanceNumber
  · rw [if_pos hmem, List.length_map]
    exact hlen
  · rw [if_neg hmem, List.length_append, List.length_map]
    exact hroom.resolve_left hmem

/-- An entry the loader finds again as it is. -/
def Reloads (e : COSA_DML_IPV6RD_IF) : Prop :=
  (1 ≤ e.InstanceNumber.toNat ∧ e.InstanceNumber.toNat < MAX_6RDIF_INS - 1) ∧
    e.IPv4MaskLength.toNat < 2 ^ 31

/-- No entry of another number has the alias. -/
def OwnAlias (s : State) (e : COSA_DML_IPV6RD_IF) : Prop :=
  ∀ conf ∈ s.ifconfs, conf.InstanceNumber ≠ e.InstanceNumber → conf.Alias ≠ e.Alias

theorem agrees_saved (h : Agrees s) (hroom : HasRoom s e) (hreloads : Reloads e)
    (halias : OwnAlias s e) : Agrees (saved s e) where
  numbers := nodup_put h.numbers e
  aliases := (nodup_map_put_iff h.numbers h.aliases e).mpr halias
  ifnum := length_put_le hroom h.ifnum
  inWindow := by
    intro b hb
    rcases (mem_put_iff e b).mp hb with hbe | hold
    · rw [hbe]
      exact (mem_window_iff _).mpr hreloads.1
    · exact h.inWindow b hold.1
  stored := by
    intro ins hins
    change loadIf (setAll (ifRecords e) s.db) ins = some (find _ (put _ s.ifconfs e) ins)
    rw [loadIf_saved, find_put, (reread_eq_iff e).mpr hreloads.2]
    by_cases hkey : ins = e.InstanceNumber
    · rw [if_pos hkey, if_pos hkey]
    · rw [if_neg hkey, if_neg hkey]
      exact h.stored ins hins

theorem sound_saved_iff (h : Agrees s) (hroom : HasRoom s e) :
    Sound (saved s e) ↔ Reloads e ∧ OwnAlias s e := by
  constructor
  · intro hsound
    refine ⟨?_, (nodup_map_put_iff h.numbers h.aliases e).mp hsound.aliases⟩
    obtain ⟨l, hl, hperm⟩ := hsound.reload
    obtain ⟨f, hf, hfl⟩ := exists_of_loadFrom hl
    have he : e ∈ window.filterMap f := by
      rw [← hfl, hperm.mem_iff]
      exact (mem_put_iff e e).mpr (.inl rfl)
    obtain ⟨ins, hins, hfe⟩ := List.mem_filterMap.mp he
    have hloaded := hf ins hins
    rw [hfe] at hloaded
    have hkey := number_of_loadIf hloaded
    rw [← hkey] at hins hloaded
    change loadIf (setAll (ifRecords e) s.db) e.InstanceNumber = _ at hloaded
    rw [loadIf_saved, if_pos rfl, Option.some.injEq, Option.some.injEq] at hloaded
    exact ⟨(mem_window_iff _).mp hins, (reread_eq_iff e).mp hloaded⟩
  · intro hok
    exact (agrees_saved h hroom hok.1 hok.2).sound

end Saving

section Steps

variable {s : State}

structure Admits (s : State) (pEntry : COSA_DML_IPV6RD_IF) : Prop where
  newNumber : get_ifconf_by_insnum s.ifconfs pEntry.InstanceNumber = none
  newAlias : get_ifconf_by_alias s.ifconfs pEntry.Alias = none
  newDefault : pEntry.Alias.text = [] →
    get_ifconf_by_alias s.ifconfs (defaultAlias pEntry).Alias = none
  room : s.ifconfs.length + 1 ≤ MAX_6RDIF_INS

/-- The condition on a call: what it stores lies where the loader looks, its
mask length is an int, and a changed alias stays the entry's own. -/
def Harmless (s : State) : Op → Prop
  | .addEntry pEntry => Admits s pEntry → Reloads pEntry
  | .setEntry ulInstanceNumber pEntry =>
    (get_ifconf_by_insnum s.ifconfs ulInstanceNumber).isSome →
      ulInstanceNumber = pEntry.InstanceNumber →
        pEntry.IPv4MaskLength.toNat < 2 ^ 31 ∧ OwnAlias s pEntry
  | .delEntry _ => True

theorem defaultAlias_number :
    (defaultAlias e).InstanceNumber = e.InstanceNumber := by
  unfold defaultAlias
  split <;> rfl

theorem reloads_defaultAlias :
    Reloads (defaultAlias e) ↔ Reloads e := by
  have hmask : (defaultAlias e).IPv4MaskLength = e.IPv4MaskLength := by
    unfold defaultAlias
    split <;> rfl
  rw [Reloads, Reloads, defaultAlias_number, hmask]

theorem Admits.ownAlias {pEntry : COSA_DML_IPV6RD_IF} (h : Admits s pEntry) :
    OwnAlias s (defaultAlias pEntry) := by
  have hnone : get_ifconf_by_alias s.ifconfs (defaultAlias pEntry).Alias = none := by
    by_cases hempty : pEntry.Alias.text = []
    · exact h.newDefault hempty
    · rw [defaultAlias, if_neg hempty]
      exact h.newAlias
  intro conf hconf _ hsame
  apply (find_eq_none_iff _).mp hnone
  rw [← hsame]
  exact List.mem_map_of_mem hconf

theorem addEntry_state (h : Agrees s) (pEntry : COSA_DML_IPV6RD_IF) :
    (Admits s pEntry ∧ HasRoom s (defaultAlias pEntry) ∧
      (CosaDml_IPv6rdAddEntry pEntry s).2.2 = saved s (defaultAlias pEntry)) ∨
    (¬Admits s pEntry ∧ (CosaDml_IPv6rdAddEntry pEntry s).2.2 = s) := by
  unfold CosaDml_IPv6rdAddEntry
  by_cases htaken : (get_ifconf_by_insnum s.ifconfs pEntry.InstanceNumber).isSome
      ∨ (get_ifconf_by_alias s.ifconfs pEntry.Alias).isSome
  · right
    refine ⟨?_, by rw [if_pos htaken]⟩
    intro hadmits
    rcases htaken with hnumber | halias
    · rw [hadmits.newNumber] at hnumber
      cases hnumber
    · rw [hadmits.newAlias] at halias
      cases halias
  rw [if_neg htaken]
  rw [not_or, Option.not_isSome_iff_eq_none, Option.not_isSome_iff_eq_none] at htaken
  by_cases hdefault : pEntry.Alias.text = [] ∧
      (get_ifconf_by_alias s.ifconfs (defaultAlias pEntry).Alias).isSome
  · right
    refine ⟨?_, by simp only [if_pos hdefault]⟩
    intro hadmits
    have hsome := hdefault.2
    rw [hadmits.newDefault hdefault.1] at hsome
    cases hsome
  simp only [if_neg hdefault]
  by_cases hfull : MAX_6RDIF_INS < s.ifconfs.length + 1
  · right
    refine ⟨?_, by rw [if_pos hfull]⟩
    intro hadmits
    have hroom := hadmits.room
    omega
  · left
    have hroom : HasRoom s (defaultAlias pEntry) := .inr (by omega)
    refine ⟨⟨htaken.1, htaken.2, ?_, by omega⟩, hroom, ?_⟩
    · intro hempty
      rw [← Option.not_isSome_iff_eq_none]
      exact fun hsome => hdefault ⟨hempty, hsome⟩
    · rw [if_neg hfull, save_ifconf_eq h.numbers hroom]

theorem setEntry_state (h : Agrees s) (ulInstanceNumber : ULONG) (pEntry : COSA_DML_IPV6RD_IF) :
    ((get_ifconf_by_insnum s.ifconfs ulInstanceNumber).isSome ∧
      ulInstanceNumber = pEntry.InstanceNumber ∧ HasRoom s pEntry ∧
      (CosaDml_IPv6rdSetEntry ulInstanceNumber pEntry s).2 = saved s pEntry) ∨
    (¬((get_ifconf_by_insnum s.ifconfs ulInstanceNumber).isSome ∧
        ulInstanceNumber = pEntry.InstanceNumber) ∧
      (CosaDml_IPv6rdSetEntry ulInstanceNumber pEntry s).2 = s) := by
  unfold CosaDml_IPv6rdSetEntry
  by_cases hfound : (get_ifconf_by_insnum s.ifconfs ulInstanceNumber).isSome
  · have hsome : ¬(get_ifconf_by_insnum s.ifconfs ulInstanceNumber).isNone := by
      rw [Option.isNone_iff_eq_none, ← ne_eq, ← Option.isSome_iff_ne_none]
      exact hfound
    rw [if_neg hsome]
    by_cases hsame : ulInstanceNumber = pEntry.InstanceNumber
    · left
      have hroom : HasRoom s pEntry := by
        left
        rw [← hsame]
        exact (found_iff _ _).mp hfound
      refine ⟨hfound, hsame, hroom, ?_⟩
      rw [if_neg (not_not.mpr hsame), save_ifconf_eq h.numbers hroom]
    · right
      rw [if_pos hsame]
      exact ⟨fun hboth => hsame hboth.2, rfl⟩
  · right
    rw [Option.not_isSome_iff_eq_none] at hfound
    rw [if_pos (by rw [hfound]; rfl)]
    refine ⟨?_, rfl⟩
    intro hboth
    rw [hfound] at hboth
    cases hboth.1

theorem agrees_delEntry (h : Agrees s) (ulInstanceNumber : ULONG) :
    Agrees (CosaDml_IPv6rdDelEntry ulInstanceNumber s).2 := by
  unfold CosaDml_IPv6rdDelEntry delete_ifconf
  by_cases hnone : (get_ifconf_by_insnum s.ifconfs ulInstanceNumber).isNone
  · rw [if_pos hnone]
    exact h
  rw [if_neg hnone, if_neg hnone, eraseP_eq_drop h.numbers]
  refine ⟨nodup_drop h.numbers _, nodup_drop h.aliases _, ?_, ?_, ?_⟩
  · exact (List.length_filter_le _ _).trans h.ifnum
  · intro e he
    exact h.inWindow e ((mem_drop_iff _ _).mp he).1
  · intro ins hins
    change loadIf (unsetAll _ s.db) ins = some (find _ (drop _ s.ifconfs ulInstanceNumber) ins)
    rw [loadIf_deleted, find_drop]
    by_cases hkey : ins = ulInstanceNumber
    · rw [if_pos hkey, if_pos hkey]
    · rw [if_neg hkey, if_neg hkey]
      exact h.stored ins hins

theorem step_sound_iff (h : Agrees s) (op : Op) :
    (∃ t, step s op = some t ∧ Sound t) ↔ Harmless s op := by
  simp only [step.eq_def]
  cases op with
  | addEntry pEntry =>
    simp only [Option.some.injEq, exists_eq_left', Harmless]
    rcases addEntry_state h pEntry with ⟨hadmits, hroom, hstate⟩ | ⟨hrefused, hstate⟩
    · rw [hstate, sound_saved_iff h hroom, reloads_defaultAlias]
      exact ⟨fun hok _ => hok.1, fun hok => ⟨hok hadmits, hadmits.ownAlias⟩⟩
    · rw [hstate]
      exact ⟨fun _ hadmits => absurd hadmits hrefused, fun _ => h.sound⟩
  | setEntry ulInstanceNumber pEntry =>
    simp only [Option.some.injEq, exists_eq_left', Harmless]
    rcases setEntry_state h ulInstanceNumber pEntry with
      ⟨hfound, hsame, hroom, hstate⟩ | ⟨hrefused, hstate⟩
    · have hnumber : 1 ≤ pEntry.InstanceNumber.toNat ∧
          pEntry.InstanceNumber.toNat < MAX_6RDIF_INS - 1 := by
        rw [← hsame]
        obtain ⟨conf, hconf, hkey⟩ := List.mem_map.mp ((found_iff _ _).mp hfound)
        rw [← hkey]
        exact (mem_window_iff _).mp (h.inWindow conf hconf)
      rw [hstate, sound_saved_iff h hroom]
      exact ⟨fun hok _ _ => ⟨hok.1.2, hok.2⟩,
        fun hok => ⟨⟨hnumber, (hok hfound hsame).1⟩, (hok hfound hsame).2⟩⟩
    · rw [hstate]
      exact ⟨fun _ hfound hsame => absurd ⟨hfound, hsame⟩ hrefused, fun _ => h.sound⟩
  | delEntry ulInstanceNumber =>
    simp only [Option.some.injEq, exists_eq_left', Harmless, iff_true]
    exact (agrees_delEntry h ulInstanceNumber).sound

theorem agrees_step (h : Agrees s) {op : Op} (hok : Harmless s op) {t : State}
    (hstep : step s op = some t) : Agrees t := by
  cases op with
  | addEntry pEntry =>
    obtain rfl := Option.some.inj hstep
    rcases addEntry_state h pEntry with ⟨hadmits, hroom, hstate⟩ | ⟨_, hstate⟩
    · rw [hstate]
      exact agrees_saved h hroom ((reloads_defaultAlias pEntry).mpr (hok hadmits)) hadmits.ownAlias
    · rw [hstate]
      exact h
  | setEntry ulInstanceNumber pEntry =>
    have hsound := (step_sound_iff h (.setEntry ulInstanceNumber pEntry)).mpr hok
    obtain rfl := Option.some.inj hstep
    rcases setEntry_state h ulInstanceNumber pEntry with ⟨_, _, hroom, hstate⟩ | ⟨_, hstate⟩
    · obtain ⟨u, hu, hsound_u⟩ := hsound
      rw [step, hstate, Option.some.injEq] at hu
      rw [← hu] at hsound_u
      obtain ⟨hreloads, halias⟩ := (sound_saved_iff h hroom).mp hsound_u
      rw [hstate]
      exact agrees_saved h hroom hreloads halias
    · rw [hstate]
      exact h
  | delEntry ulInstanceNumber =>
    obtain rfl := Option.some.inj hstep
    exact agrees_delEntry h ulInstanceNumber

end Steps

/-- Over any calls from a freshly loaded configuration the table is sound all
along exactly when the loaded aliases are distinct and each call is harmless
where it is made. -/
theorem ipv6rdTable_sound_iff {db : Store CStr CStr} {l : List COSA_DML_IPV6RD_IF}
    (hload : load_ipv6rd_conf db = some l) (ops : List Op) :
    (Sound ⟨l, db⟩ ∧ Throughout step Sound ⟨l, db⟩ ops) ↔
      (l.map COSA_DML_IPV6RD_IF.Alias).Nodup ∧ StepsMeet step Harmless ⟨l, db⟩ ops := by
  have hrun (haliases : (l.map COSA_DML_IPV6RD_IF.Alias).Nodup) :
      Throughout step Sound ⟨l, db⟩ ops ↔ StepsMeet step Harmless ⟨l, db⟩ ops :=
    throughout_iff step Agrees (fun _ op hs _ => step_sound_iff hs op)
      (fun _ _ _ hs _ hok hstep => agrees_step hs hok hstep) (agrees_loaded hload haliases)
      (stepsMeet_true step _ ops)
  constructor
  · intro h
    have haliases : (l.map COSA_DML_IPV6RD_IF.Alias).Nodup := h.1.aliases
    exact ⟨haliases, (hrun haliases).mp h.2⟩
  · intro h
    exact ⟨(agrees_loaded hload h.1).sound, (hrun h.1).mpr h.2⟩

theorem load_of_empty : load_ipv6rd_conf (fun _ => none) = some [] := by
  have hload := @loadFrom_of_forall (fun _ => none) (fun _ => none) window
    fun ins _ => loadIf_of_none rfl
  rw [load_ipv6rd_conf, hload, List.filterMap_none]

def sampleEntry (ins : ULONG) : COSA_DML_IPV6RD_IF :=
  ⟨ins, true, Buf.empty, Buf.snprintf "10.0.0.1".toList, true, Buf.snprintf "2001:db8::/32".toList,
    8, Buf.empty⟩

theorem ipv6rdTable_sound_small : Sound ⟨[], fun _ => none⟩ ∧
    Throughout step Sound ⟨[], fun _ => none⟩ [.addEntry (sampleEntry 1), .delEntry 1] := by
  apply (ipv6rdTable_sound_iff load_of_empty _).mpr
  refine ⟨List.nodup_nil, ?_, fun _ _ => ⟨trivial, fun _ _ => trivial⟩⟩
  intro _
  exact ⟨⟨by decide, by decide⟩, by decide⟩

/-- Entry 63 goes into an empty table, and the loader stops at 62. -/
theorem ipv6rdTable_lost : load_ipv6rd_conf (fun _ => none) = some [] ∧
    ¬(Sound ⟨[], fun _ => none⟩ ∧
      Throughout step Sound ⟨[], fun _ => none⟩ [.addEntry (sampleEntry 63)]) := by
  refine ⟨load_of_empty, ?_⟩
  intro h
  obtain ⟨t, hstep, hsound, _⟩ := h.2
  have hagrees := agrees_loaded load_of_empty List.nodup_nil
  have hok := (step_sound_iff hagrees (.addEntry (sampleEntry 63))).mp ⟨t, hstep, hsound⟩
  have hreloads : Reloads (sampleEntry 63) := hok ⟨rfl, rfl, fun _ => rfl, by decide⟩
  exact absurd hreloads.1.2 (by decide)

end CcspPandM.Ipv6rdTable
