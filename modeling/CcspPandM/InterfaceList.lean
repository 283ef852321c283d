import CcspPandM.DnsText
import CcspPandM.Runs
import CcspPandM.TextSearch

/-!
The interfaces of the syscfg value `IPv6_Interface`, each name followed by a comma.
A name is looked up as a substring, removed together with every name that it
starts, and appended behind what is there. The reads and the new value each have a
buffer of 128 bytes; a call that stores past its end has no result.
-/
namespace CcspPandM.InterfaceList

open CString DnsText Runs TextSearch

/-- `syscfg_get` into a buffer of 128 bytes. -/
def syscfg_get (value : CStr) : CStr := value.take 127

/-- The loop over the tokens of the old value; `OutBuff` becomes the new one. -/
def removeLoop (Inf_name : CStr) : List CStr → CStr → Option CStr
  | [], OutBuff => some OutBuff
  | token :: ts, OutBuff =>
    if strneq Inf_name token Inf_name.length then removeLoop Inf_name ts OutBuff
    else do
      let OutBuff ← strcat 128 OutBuff token
      let OutBuff ← strcat 128 OutBuff [',']
      removeLoop Inf_name ts OutBuff

def remove_interface (Inf_name value : CStr) : Option CStr :=
  removeLoop Inf_name (tokens ',' (syscfg_get value)) []

def append_interface (Inf_name value : CStr) : Option CStr := do
  let OutBuff ← strcat 128 (syscfg_get value) Inf_name
  strcat 128 OutBuff [',']

/-- What one call of the handler is told, and what it reads besides the list. A
record that PSM does not give is `none`. -/
structure Call where
  status : CStr
  HomeNetworkIsolation : Option CStr
  ipv6_moca_bridge : CStr
  Name : Option CStr

/-- Whether zebra is restarted, and the value of `IPv6_Interface` afterwards. -/
def handle_MocaIpv6 (c : Call) (value : CStr) : Option (Bool × CStr) :=
  match c.HomeNetworkIsolation, c.Name with
  | some str, some Inf_name =>
    let HomeIsolationEnable := atoi str
    let mbuf := syscfg_get c.ipv6_moca_bridge
    let ipv6If := syscfg_get value
    if c.status = "ready".toList then
      if mbuf = "true".toList ∧ HomeIsolationEnable = 1 then
        if (strstr Inf_name ipv6If).isSome then some (false, value)
        else (append_interface Inf_name value).map (true, ·)
      else if mbuf = "false".toList ∨ HomeIsolationEnable = 0 then
        if (strstr Inf_name ipv6If).isSome then (remove_interface Inf_name value).map (true, ·)
        else some (false, value)
      else some (false, value)
    else if c.status = "stopped".toList then
      if mbuf = "false".toList ∨ HomeIsolationEnable = 0 then
        if (strstr Inf_name ipv6If).isSome then (remove_interface Inf_name value).map (true, ·)
        else some (false, value)
      else some (false, value)
    else some (false, value)
  | _, _ => some (false, value)

section Lists

def IsName (n : CStr) : Prop := n ≠ [] ∧ ',' ∉ n ∧ '\x00' ∉ n

def listText (names : List CStr) : CStr := names.flatMap (fun n => n ++ [','])

/-- What a call wants: a name listed (`true`) or not listed. -/
def wanted (c : Call) : Option (Bool × CStr) :=
  match c.HomeNetworkIsolation, c.Name with
  | some str, some Inf_name =>
    let mbuf := syscfg_get c.ipv6_moca_bridge
    if c.status = "ready".toList ∧ mbuf = "true".toList ∧ atoi str = 1 then some (true, Inf_name)
    else if (c.status = "ready".toList ∨ c.status = "stopped".toList) ∧
        (mbuf = "false".toList ∨ atoi str = 0) then some (false, Inf_name)
    else none
  | _, _ => none

def listed (names : List CStr) (c : Call) : List CStr :=
  match wanted c with
  | some (true, n) => if n ∈ names then names else names ++ [n]
  | some (false, n) => names.filter (· ≠ n)
  | none => names

variable {names : List CStr}

theorem listText_cons (n : CStr) (names : List CStr) :
    listText (n :: names) = n ++ ',' :: listText names := by
  simp [listText]

theorem listText_append (names names' : List CStr) :
    listText (names ++ names') = listText names ++ listText names' := List.flatMap_append

theorem tokens_listText (hnames : ∀ n ∈ names, IsName n) : tokens ',' (listText names) = names :=
  tokens_terminated (fun n hn => ⟨(hnames n hn).1, (hnames n hn).2.1⟩)

theorem listText_injective {names' : List CStr} (hnames : ∀ n ∈ names, IsName n)
    (hnames' : ∀ n ∈ names', IsName n) (h : listText names = listText names') :
    names = names' := by
  rw [← tokens_listText hnames, h, tokens_listText hnames']

theorem length_listText_filter (p : CStr → Bool) (names : List CStr) :
    (listText (names.filter p)).length ≤ (listText names).length := by
  induction names with
  | nil => exact le_rfl
  | cons n names ih =>
    rw [List.filter_cons]
    split
    · rw [listText_cons, listText_cons, List.length_append, List.length_append, List.length_cons,
        List.length_cons]
      omega
    · rw [listText_cons, List.length_append, List.length_cons]
      omega

end Lists

section Calls

variable {names : List CStr} {n : CStr}

theorem syscfg_get_of_lt {value : CStr} (h : value.length < 128) : syscfg_get value = value :=
  List.take_of_length_le (by omega)

theorem length_syscfg_get (value : CStr) : (syscfg_get value).length = min 127 value.length :=
  List.length_take

theorem strcat_of_lt {dst src : CStr} (h : dst.length + src.length < 128) :
    strcat 128 dst src = some (dst ++ src) := if_pos h

theorem strneq_iff_starts {e : CStr} (hn : '\x00' ∉ n) (he : '\x00' ∉ e) :
    strneq n e n.length = true ↔ n <+: e := by
  rw [strneq_key_iff he]
  apply or_iff_left
  intro h
  have hmem : '\x00' ∈ e ++ ['\x00'] := List.mem_append_right _ (List.mem_singleton_self _)
  exact hn (h.subset hmem)

theorem removeLoop_eq (hn : '\x00' ∉ n) (hnames : ∀ e ∈ names, '\x00' ∉ e) {OutBuff : CStr}
    (hfit : OutBuff.length + (listText names).length < 128) :
    removeLoop n names OutBuff =
      some (OutBuff ++ listText (names.filter (fun e => ¬ n <+: e))) := by
  induction names generalizing OutBuff with
  | nil => simp [removeLoop, listText]
  | cons e names ih =>
    have hrest := fun x hx => hnames x (List.mem_cons_of_mem e hx)
    rw [listText_cons, List.length_append, List.length_cons] at hfit
    by_cases hpre : n <+: e
    · have heq := (strneq_iff_starts hn (hnames e List.mem_cons_self)).mpr hpre
      rw [removeLoop, if_pos heq, ih hrest (by omega),
        List.filter_cons_of_neg (by simpa using hpre)]
    · have hne : ¬ strneq n e n.length = true := fun h =>
        hpre ((strneq_iff_starts hn (hnames e List.mem_cons_self)).mp h)
      have hlen : (OutBuff ++ e ++ [',']).length = OutBuff.length + e.length + 1 := by
        simp only [List.length_append, List.length_singleton]
      rw [removeLoop, if_neg hne, strcat_of_lt (by omega)]
      simp only [Option.bind_eq_bind, Option.bind_some]
      rw [strcat_of_lt (by rw [List.length_append, List.length_singleton]; omega),
        Option.bind_some, ih hrest (by omega), List.filter_cons_of_pos (by simpa using hpre),
        listText_cons]
      simp

theorem remove_listText (hn : IsName n) (hnames : ∀ e ∈ names, IsName e)
    (hfit : (listText names).length < 128) :
    remove_interface n (listText names) =
      some (listText (names.filter (fun e => ¬ n <+: e))) := by
  rw [remove_interface, syscfg_get_of_lt hfit, tokens_listText hnames,
    removeLoop_eq hn.2.2 (fun e he => (hnames e he).2.2) (by simpa using hfit), List.nil_append]

theorem append_interface_isSome (n value : CStr) :
    (append_interface n value).isSome ↔ (syscfg_get value).length + n.length + 1 < 128 := by
  by_cases hfit : (syscfg_get value).length + n.length < 128
  · rw [append_interface, strcat_of_lt hfit, Option.bind_eq_bind, Option.bind_some, strcat]
    by_cases hcomma : (syscfg_get value).length + n.length + 1 < 128
    · simp [hcomma]
    · simp [hcomma]
  · rw [append_interface, strcat, if_neg hfit]
    simp
    omega

theorem append_listText (hfit : (listText names).length + n.length + 1 < 128) :
    append_interface n (listText names) = some (listText (names ++ [n])) := by
  rw [append_interface, syscfg_get_of_lt (by omega), strcat_of_lt (by omega),
    Option.bind_eq_bind, Option.bind_some,
    strcat_of_lt (by rw [List.length_append, List.length_singleton]; omega), listText_append,
    listText_cons]
  simp [listText]

theorem strstr_listText (hn : IsName n) :
    (strstr n (listText names)).isSome ↔ ∃ e ∈ names, n <:+: e := by
  rw [strstr_isSome, listText, infix_flatMap_terminated_iff hn.1 hn.2.1]

theorem filter_eq_filter_iff (hnames : ∀ e ∈ names, IsName e) :
    listText (names.filter (fun e => ¬ n <+: e)) = listText (names.filter (· ≠ n)) ↔
      ∀ e ∈ names, n <+: e → e = n := by
  constructor
  · intro h e he hpre
    by_contra hne
    have hlists := listText_injective (fun x hx => hnames x (List.mem_of_mem_filter hx))
      (fun x hx => hnames x (List.mem_of_mem_filter hx)) h
    have hmem : e ∈ names.filter (· ≠ n) := List.mem_filter.mpr ⟨he, by simpa using hne⟩
    rw [← hlists, List.mem_filter] at hmem
    simp [hpre] at hmem
  · intro h
    congr 1
    apply List.filter_congr
    intro e he
    have hiff : n <+: e ↔ e = n := ⟨h e he, fun heq => heq ▸ List.prefix_rfl⟩
    simp [hiff]

end Calls

section Single

/-- Removing takes the entries equal to the name and keeps the others, a new name
is appended and removed again, and the search finds the name exactly where it is
an entry. -/
def Kept (names : List CStr) (name new : CStr) : Prop :=
  remove_interface name (listText names) = some (listText (names.filter (· ≠ name))) ∧
    (append_interface new (listText names)).bind (remove_interface new) =
      some (listText names) ∧
    ((strstr name (syscfg_get (listText names))).isSome ↔ name ∈ names)

/-- There is room for the new name, no other entry starts with one of the two names,
and the name is an entry or part of none. -/
def Clear (names : List CStr) (name new : CStr) : Prop :=
  (listText names).length + new.length + 1 < 128 ∧ (∀ e ∈ names, ¬ new <+: e) ∧
    (∀ e ∈ names, name <+: e → e = name) ∧ (name ∈ names ∨ ∀ e ∈ names, ¬ name <:+: e)

variable {names : List CStr} {name new : CStr}

theorem strstr_iff_mem (hname : IsName name) :
    ((strstr name (listText names)).isSome ↔ name ∈ names) ↔
      (name ∈ names ∨ ∀ e ∈ names, ¬ name <:+: e) := by
  rw [strstr_listText hname]
  by_cases hmem : name ∈ names
  · have hex : ∃ e ∈ names, name <:+: e := ⟨name, hmem, List.infix_rfl⟩
    simp only [hex, hmem, true_or]
  · simp only [hmem, iff_false, false_or, not_exists, not_and]

theorem kept_iff (hnames : ∀ e ∈ names, IsName e) (hname : IsName name) (hnew : IsName new)
    (hfresh : new ∉ names) : Kept names name new ↔ Clear names name new := by
  have hpos := List.length_pos_of_ne_nil hnew.1
  by_cases hroom : (listText names).length + new.length + 1 < 128
  · have hnames' : ∀ e ∈ names ++ [new], IsName e := by
      intro e he
      rcases List.mem_append.mp he with he | he
      · exact hnames e he
      · exact (List.mem_singleton.mp he) ▸ hnew
    have hfit' : (listText (names ++ [new])).length < 128 := by
      rw [listText_append, listText_cons]
      simp only [listText, List.flatMap_nil, List.length_append, List.length_singleton] at hroom ⊢
      omega
    have hback : (names ++ [new]).filter (fun e => ¬ new <+: e) =
        names.filter (fun e => ¬ new <+: e) := by simp
    have hall : names.filter (· ≠ new) = names := by
      apply List.filter_eq_self.mpr
      intro e he
      have hne : e ≠ new := fun h => hfresh (h ▸ he)
      simpa using hne
    have hnewFilter := filter_eq_filter_iff (n := new) hnames
    rw [hall] at hnewFilter
    have hstarts : (∀ e ∈ names, new <+: e → e = new) ↔ ∀ e ∈ names, ¬ new <+: e := by
      constructor
      · intro h e he hpre
        exact hfresh (h e he hpre ▸ he)
      · intro h e he hpre
        exact absurd hpre (h e he)
    rw [Kept, Clear, syscfg_get_of_lt (by omega), remove_listText hname hnames (by omega),
      append_listText hroom, Option.bind_some, remove_listText hnew hnames' hfit', hback,
      Option.some.injEq, Option.some.injEq, filter_eq_filter_iff hnames, hnewFilter, hstarts,
      strstr_iff_mem hname]
    tauto
  · have hnone : append_interface new (listText names) = none := by
      rw [← Option.not_isSome_iff_eq_none, append_interface_isSome, length_syscfg_get]
      omega
    constructor
    · intro h
      have hback := h.2.1
      rw [hnone] at hback
      cases hback
    · intro h
      exact absurd h.1 hroom

end Single

section Handler

/-- The call finds the list as it should be: a name to be listed is an entry, or there is
room for it and it is part of no entry; only the name itself starts with one to be removed. -/
def Finds (names : List CStr) (c : Call) : Prop :=
  match wanted c with
  | some (true, n) => n ∈ names ∨
      (listText names).length + n.length + 1 < 128 ∧ ∀ e ∈ names, ¬ n <:+: e
  | some (false, n) => ∀ e ∈ names, n <+: e → e = n
  | none => True

theorem handle_MocaIpv6_eq (c : Call) (value : CStr) : handle_MocaIpv6 c value =
    match wanted c with
    | some (true, n) => if (strstr n (syscfg_get value)).isSome then some (false, value)
        else (append_interface n value).map (true, ·)
    | some (false, n) => if (strstr n (syscfg_get value)).isSome then
        (remove_interface n value).map (true, ·) else some (false, value)
    | none => some (false, value) := by
  have hstopped : "stopped".toList ≠ "ready".toList := by decide
  unfold handle_MocaIpv6 wanted
  cases c.HomeNetworkIsolation with
  | none => rfl
  | some str =>
    cases c.Name with
    | none => rfl
    | some n =>
      by_cases hready : c.status = "ready".toList
      · simp only [hready, if_true, true_and, true_or]
        by_cases htrue : syscfg_get c.ipv6_moca_bridge = "true".toList ∧ atoi str = 1
        · rw [if_pos htrue, if_pos htrue]
        · rw [if_neg htrue, if_neg htrue]
          split <;> rfl
      · by_cases hstop : c.status = "stopped".toList
        · simp only [hstop, hstopped, if_false, if_true, false_and, or_true, true_and]
          split <;> rfl
        · simp only [hready, hstop, if_false, false_and, or_self]

variable {names : List CStr} {c : Call}

def Names (c : Call) : Prop := ∀ n, c.Name = some n → IsName n

theorem isName_of_wanted (hc : Names c) {add : Bool} {n : CStr} (h : wanted c = some (add, n)) :
    IsName n := by
  apply hc
  unfold wanted at h
  cases hiso : c.HomeNetworkIsolation with
  | none => simp [hiso] at h
  | some str =>
    cases hName : c.Name with
    | none => simp [hiso, hName] at h
    | some m =>
      simp only [hiso, hName] at h
      split at h
      · simp_all
      · split at h
        · simp_all
        · cases h

theorem handle_listText_iff (hnames : ∀ e ∈ names, IsName e) (hc : Names c)
    (hfit : (listText names).length < 128) :
    (∃ r, handle_MocaIpv6 c (listText names) = some r ∧ r.2 = listText (listed names c)) ↔
      Finds names c := by
  rw [handle_MocaIpv6_eq, syscfg_get_of_lt hfit, listed, Finds]
  cases hwanted : wanted c with
  | none => simp
  | some w =>
    obtain ⟨add, n⟩ := w
    have hn := isName_of_wanted hc hwanted
    have hfound := @strstr_listText names n hn
    cases add with
    | true =>
      by_cases hmem : n ∈ names
      · have hex : ∃ e ∈ names, n <:+: e := ⟨n, hmem, List.infix_rfl⟩
        simp [hfound.mpr hex, hmem]
      · by_cases hex : ∃ e ∈ names, n <:+: e
        · have hnot : ¬ ∀ e ∈ names, ¬ n <:+: e := by
            intro h
            obtain ⟨e, he, hinfix⟩ := hex
            exact h e he hinfix
          have hlonger : listText names ≠ listText (names ++ [n]) := by
            rw [listText_append, listText_cons]
            simp
          simp [hfound.mpr hex, hmem, hnot, hlonger]
        · have hnot : ∀ e ∈ names, ¬ n <:+: e := fun e he hinfix => hex ⟨e, he, hinfix⟩
          simp only [mt hfound.mp hex, hmem, if_false, false_or, and_iff_left hnot,
            Bool.false_eq_true, Option.map_eq_some_iff]
          constructor
          · rintro ⟨r, ⟨v, hv, -⟩, -⟩
            have hroom := (append_interface_isSome n (listText names)).mp (by rw [hv]; rfl)
            rwa [syscfg_get_of_lt hfit] at hroom
          · intro hroom
            exact ⟨_, ⟨_, append_listText hroom, rfl⟩, rfl⟩
    | false =>
      by_cases hex : ∃ e ∈ names, n <:+: e
      · have hiff := filter_eq_filter_iff (n := n) hnames
        simp only [hfound.mpr hex, if_true, remove_listText hn hnames hfit, Option.map_some,
          Option.some.injEq, exists_eq_left']
        exact hiff
      · have hnot : ∀ e ∈ names, n <+: e → e = n := fun e he hpre =>
          absurd ⟨e, he, hpre.isInfix⟩ hex
        have hkept : names.filter (· ≠ n) = names := by
          apply List.filter_eq_self.mpr
          intro e he
          have hne : e ≠ n := fun h => hex ⟨e, he, h ▸ List.infix_rfl⟩
          simpa using hne
        simp only [mt hfound.mp hex, if_false, hkept, Bool.false_eq_true, Option.some.injEq,
          exists_eq_left', true_iff]
        exact hnot

theorem isName_listed (hnames : ∀ e ∈ names, IsName e) (hc : Names c) :
    ∀ e ∈ listed names c, IsName e := by
  intro e he
  unfold listed at he
  split at he
  · next n hwanted =>
    split at he
    · exact hnames e he
    · rcases List.mem_append.mp he with he | he
      · exact hnames e he
      · exact (List.mem_singleton.mp he) ▸ isName_of_wanted hc hwanted
  · exact hnames e (List.mem_of_mem_filter he)
  · exact hnames e he

theorem length_listed (hfit : (listText names).length < 128) (hfinds : Finds names c) :
    (listText (listed names c)).length < 128 := by
  unfold listed
  unfold Finds at hfinds
  split
  · next n hwanted =>
    simp only [hwanted] at hfinds
    split
    · exact hfit
    · next hmem =>
      obtain ⟨hroom, -⟩ := hfinds.resolve_left hmem
      rw [listText_append, listText_cons]
      simp only [listText, List.flatMap_nil, List.length_append, List.length_singleton] at hroom ⊢
      omega
  · exact lt_of_le_of_lt (length_listText_filter _ _) hfit
  · exact hfit

end Handler

section Sequences

/-- The value of `IPv6_Interface` beside the list that it should stand for. -/
structure State where
  value : CStr
  names : List CStr

def step (s : State) (c : Call) : Option State :=
  (handle_MocaIpv6 c s.value).map (fun r => ⟨r.2, listed s.names c⟩)

def Stands (s : State) : Prop := s.value = listText s.names

def stateOf (names : List CStr) : State := ⟨listText names, names⟩

theorem throughout_stands_iff {names : List CStr} (hnames : ∀ e ∈ names, IsName e)
    (hfit : (listText names).length < 128) {calls : List Call} (hcalls : ∀ c ∈ calls, Names c) :
    Throughout step Stands (stateOf names) calls ↔
      StepsMeet step (fun s c => Finds s.names c) (stateOf names) calls := by
  have hlegal : StepsMeet step (fun _ c => Names c) (stateOf names) calls := by
    generalize stateOf names = s
    induction calls generalizing s with
    | nil => trivial
    | cons c calls ih =>
      exact ⟨hcalls c List.mem_cons_self, fun t _ =>
        ih (fun d hd => hcalls d (List.mem_cons_of_mem c hd)) t⟩
  refine throughout_iff step (fun s => Stands s ∧ (∀ e ∈ s.names, IsName e) ∧
    (listText s.names).length < 128) ?_ ?_ ⟨rfl, hnames, hfit⟩ hlegal
  · rintro ⟨value, names⟩ c ⟨hvalue, hnames, hfit⟩ hc
    change value = listText names at hvalue
    subst hvalue
    rw [← handle_listText_iff hnames hc hfit]
    simp only [step, Option.map_eq_some_iff, Stands]
    constructor
    · rintro ⟨t, ⟨r, hr, rfl⟩, hstands⟩
      exact ⟨r, hr, hstands⟩
    · rintro ⟨r, hr, hstands⟩
      exact ⟨_, ⟨r, hr, rfl⟩, hstands⟩
  · rintro ⟨value, names⟩ c t ⟨hvalue, hnames, hfit⟩ hc hfinds hstep
    change value = listText names at hvalue
    subst hvalue
    obtain ⟨r, hr, hr2⟩ := (handle_listText_iff hnames hc hfit).mpr hfinds
    rw [step, hr, Option.map_some, Option.some.injEq] at hstep
    subst hstep
    exact ⟨hr2, isName_listed hnames hc, length_listed hfit hfinds⟩

/-- The list is kept as a list of names, by single calls and by any number of calls of
the handler, exactly under these conditions. -/
theorem interface_list_kept_iff (names : List CStr) (name new : CStr) (calls : List Call)
    (hnames : ∀ e ∈ names, IsName e) (hname : IsName name) (hnew : IsName new)
    (hfresh : new ∉ names) (hcalls : ∀ c ∈ calls, Names c) :
    (Kept names name new ↔ Clear names name new) ∧
    ((listText names).length < 128 → (Throughout step Stands (stateOf names) calls ↔
      StepsMeet step (fun s c => Finds s.names c) (stateOf names) calls)) :=
  ⟨kept_iff hnames hname hnew hfresh, fun hfit => throughout_stands_iff hnames hfit hcalls⟩

/-- The bridge of MoCA is to be listed. -/
def mocaReady : Call := ⟨"ready".toList, some "1".toList, "true".toList, some "brlan10".toList⟩

theorem isName_iff (n : CStr) : IsName n ↔ n ≠ [] ∧ n.contains ',' = false ∧
    n.contains '\x00' = false := by
  simp [IsName]

theorem interface_list_kept_brlan10 : (Kept ["brlan0".toList] "brlan0".toList "brlan10".toList ↔
      Clear ["brlan0".toList] "brlan0".toList "brlan10".toList) ∧
    ((listText ["brlan0".toList]).length < 128 →
      (Throughout step Stands (stateOf ["brlan0".toList]) [mocaReady] ↔
        StepsMeet step (fun s c => Finds s.names c) (stateOf ["brlan0".toList]) [mocaReady])) := by
  have hbrlan0 : IsName "brlan0".toList := by
    rw [isName_iff]
    decide
  have hbrlan10 : IsName "brlan10".toList := by
    rw [isName_iff]
    decide
  apply interface_list_kept_iff
  · intro e he
    exact (List.mem_singleton.mp he) ▸ hbrlan0
  · exact hbrlan0
  · exact hbrlan10
  · decide
  · intro c hc n hn
    rw [List.mem_singleton.mp hc] at hn
    exact (Option.some.inj hn) ▸ hbrlan10

/-- With `brlan10` listed, removing `brlan1` empties the list. -/
theorem interface_list_brlan1_lost :
    ¬ Kept ["brlan10".toList] "brlan1".toList "brlan1".toList ∧
    remove_interface "brlan1".toList "brlan10,".toList = some [] ∧
    handle_MocaIpv6 ⟨"ready".toList, some "1".toList, "true".toList, some "brlan1".toList⟩
      "brlan10,".toList = some (false, "brlan10,".toList) := by
  have hlost : remove_interface "brlan1".toList "brlan10,".toList = some [] := by decide
  refine ⟨?_, hlost, by decide⟩
  intro h
  have hkept := h.1
  have htext : listText ["brlan10".toList] = "brlan10,".toList := by decide
  rw [htext, hlost] at hkept
  revert hkept
  decide

end Sequences

end CcspPandM.InterfaceList
