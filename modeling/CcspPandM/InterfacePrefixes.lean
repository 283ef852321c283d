import CcspPandM.DivideIpv6Prefix
import CcspPandM.KeyStore
import CcspPandM.Runs
import Mathlib.Tactic.IntervalCases

/-!
The /64 of each LAN interface under a delegated prefix. An interface keeps its
number in sysevent; a new one gets the next value of a counter that starts
again at 4 when the process does, while the numbers in sysevent stay. The
number is added to the eighth byte of the prefix.
-/
namespace CcspPandM.InterfacePrefixes

open BitWindow CString HostWords InetText PrefixText DivideIpv6Prefix KeyStore Runs

structure Box where
  interface_num : ℕ
  sysevent : Store CStr CStr

def posPrefixDelegation : ℕ := 7

/-- The text written to `pref`; `none` is a return of 0. -/
def calcIPv6Prefix (GlobalPref : CStr) (index : ℤ) : Option CStr :=
  match inet_pton6 GlobalPref with
  | none => none
  | some buf =>
    let byte := (((buf.getD posPrefixDelegation 0 : ℕ) + index) % 256).toNat
    let str := inet_ntop6 (buf.set posPrefixDelegation byte)
    if str.length < 100 then some str else none

def indexName (ifName : CStr) : CStr := ifName ++ "_ipv6_index".toList

/-- `commonSyseventGet` into a buffer of n bytes. -/
def Box.read (b : Box) (name : CStr) (n : ℕ) : CStr := ((b.sysevent name).getD []).take (n - 1)

def Box.index (b : Box) (ifName : CStr) : ℤ :=
  if b.read (indexName ifName) 100 = [] then 0 else atoi (b.read (indexName ifName) 100)

/-- The prefix of a call that returns 1, `some none` for a return of 0. The
counter is an int, so it has no value after the largest one. -/
def genIPv6Prefix (b : Box) (ifName GlobalPref : CStr) : Option (Box × Option CStr) :=
  if 100 ≤ (indexName ifName).length then some (b, none)
  else if 100 ≤ GlobalPref.length then some (b, none)
  else if b.index ifName = 0 then
    match calcIPv6Prefix GlobalPref b.interface_num with
    | none => some (b, none)
    | some pref =>
      if b.interface_num + 1 < 2 ^ 31 then
        some ({ interface_num := b.interface_num + 1,
                sysevent := set b.sysevent (indexName ifName) (decimal b.interface_num) },
          some (pref ++ "/64".toList))
      else none
  else some (b, (calcIPv6Prefix GlobalPref (b.index ifName)).map (· ++ "/64".toList))

structure DelegatedPrefix where
  text : CStr
  word : BitVec 64
  len : ℕ
  len_lt : len < 64
  read : inet_pton6 text = some (octets (networkAddress (wordBytes word)))
  host : word.toNat % 2 ^ (64 - len) = 0

/-- The prefix each interface was last given is kept beside the box. -/
structure State where
  box : Box
  held : CStr → Option CStr

inductive Op where
  | request (ifName : CStr)
  | restart

def start : State := ⟨⟨4, fun _ => none⟩, fun _ => none⟩

def step (d : DelegatedPrefix) (s : State) : Op → Option State
  | .request ifName =>
    (genIPv6Prefix s.box ifName d.text).map (fun r =>
      ⟨r.1, match r.2 with
        | some pref => Function.update s.held ifName (some pref)
        | none => s.held⟩)
  | .restart => some { s with box := { s.box with interface_num := 4 } }

def slash64 (w : BitVec 64) : CStr := addressText w ++ "/64".toList

/-- Every interface holds a /64 of its own, in the delegated prefix and after
its first four. -/
structure Assigned (d : DelegatedPrefix) (s : State) : Prop where
  inside : ∀ i pref, s.held i = some pref →
    ∃ w, pref = slash64 w ∧ Inside d.len d.word w ∧ d.word.toNat + 4 ≤ w.toNat
  distinct : ∀ i j w, i ≠ j → s.held i = some (slash64 w) → s.held j ≠ some (slash64 w)

def Assigns (d : DelegatedPrefix) (s : State) (_ : Op) (t : State) : Prop :=
  Assigned d t ∧ ∀ i pref, s.held i = some pref → t.held i = some pref

/-- A counter value that is handed out is, modulo 256, after the first four,
in the room of the delegated prefix and nobody else's. -/
def FreshIndex (d : DelegatedPrefix) (s : State) : Op → Prop
  | .request ifName =>
    (indexName ifName).length < 100 → s.box.index ifName = 0 →
      4 ≤ s.box.interface_num % 256 ∧ s.box.interface_num % 256 < 2 ^ (64 - d.len) ∧
        ∀ j, j ≠ ifName → s.box.index j ≠ 0 →
          s.box.index j % 256 ≠ (s.box.interface_num % 256 : ℕ)
  | .restart => True

section words

def raised (p : BitVec 64) (n : ℕ) : BitVec 64 :=
  bytesWord (Function.update (wordBytes p) 7 (wordBytes p 7 + BitVec.ofNat 8 n))

theorem raised_toNat (p : BitVec 64) : ∃ x q, q < 256 ∧ p.toNat = x * 256 + q ∧
    ∀ n, (raised p n).toNat = x * 256 + (q + n) % 256 := by
  have hp := bytesWord_toNat (wordBytes p)
  rw [bytesWord_wordBytes] at hp
  refine ⟨_, _, (wordBytes p 7).isLt, hp, fun n => ?_⟩
  have hraised := bytesWord_toNat
    (Function.update (wordBytes p) 7 (wordBytes p 7 + BitVec.ofNat 8 n))
  have hother : ∀ k : Fin 8, k ≠ 7 → Function.update (wordBytes p) 7
      (wordBytes p 7 + BitVec.ofNat 8 n) k = wordBytes p k :=
    fun k hk => Function.update_of_ne hk _ _
  have hbyte : (wordBytes p 7 + BitVec.ofNat 8 n).toNat = ((wordBytes p 7).toNat + n) % 256 := by
    rw [BitVec.toNat_add, BitVec.toNat_ofNat, Nat.add_mod_mod]
  rw [hother 0 (by decide), hother 1 (by decide), hother 2 (by decide), hother 3 (by decide),
    hother 4 (by decide), hother 5 (by decide), hother 6 (by decide), Function.update_self,
    hbyte] at hraised
  exact hraised

theorem raised_eq_iff (p : BitVec 64) (m n : ℕ) : raised p m = raised p n ↔ m % 256 = n % 256 := by
  obtain ⟨x, q, -, -, hraised⟩ := raised_toNat p
  rw [← BitVec.toNat_inj, hraised, hraised]
  omega

theorem raised_inside_iff {p : BitVec 64} {len : ℕ} (hlen : len < 64)
    (hp : p.toNat % 2 ^ (64 - len) = 0) (n : ℕ) :
    (Inside len p (raised p n) ∧ p.toNat + 4 ≤ (raised p n).toNat) ↔
      4 ≤ n % 256 ∧ n % 256 < 2 ^ (64 - len) := by
  obtain ⟨x, q, hq, hx, hraised⟩ := raised_toNat p
  unfold Inside
  rw [hraised n]
  by_cases hlong : 57 ≤ len
  · have hk1 : 1 ≤ 64 - len := by omega
    have hk7 : 64 - len ≤ 7 := by omega
    generalize 64 - len = k at hp hk1 hk7 ⊢
    interval_cases k <;> omega
  · have hdvd : 2 ^ 8 ∣ 2 ^ (64 - len) := pow_dvd_pow 2 (by omega)
    have hroom : 256 ≤ 2 ^ (64 - len) := Nat.le_of_dvd (Nat.two_pow_pos _) hdvd
    have hlow : p.toNat % 256 = 0 :=
      Nat.mod_eq_zero_of_dvd (Nat.dvd_trans hdvd (Nat.dvd_of_mod_eq_zero hp))
    have hzero : q = 0 := by omega
    obtain ⟨y, hy⟩ := Nat.dvd_of_mod_eq_zero hp
    have hsmall : n % 256 < 2 ^ (64 - len) := Nat.lt_of_lt_of_le (Nat.mod_lt _ (by omega)) hroom
    have hdiv : (x * 256 + (q + n) % 256) / 2 ^ (64 - len) = p.toNat / 2 ^ (64 - len) := by
      have hsum : x * 256 + (q + n) % 256 = 2 ^ (64 - len) * y + n % 256 := by
        rw [hzero, Nat.zero_add]
        omega
      rw [hsum, hy, Nat.mul_add_div (Nat.two_pow_pos _), Nat.div_eq_of_lt hsmall,
        Nat.mul_div_cancel_left _ (Nat.two_pow_pos _), Nat.add_zero]
    rw [hzero] at hdiv ⊢
    omega

end words

section requests

theorem indexName_injective : Function.Injective indexName :=
  fun _ _ h => List.append_cancel_right h

theorem slash64_injective : Function.Injective slash64 :=
  fun _ _ h => addressText_injective (List.append_cancel_right h)

variable (d : DelegatedPrefix)

theorem calcIPv6Prefix_eq (n : ℕ) :
    calcIPv6Prefix d.text n = some (addressText (raised d.word n)) := by
  have hset : (octets (networkAddress (wordBytes d.word))).set posPrefixDelegation
      ((((octets (networkAddress (wordBytes d.word))).getD posPrefixDelegation 0 : ℕ) + (n : ℤ)) %
        256).toNat = octets (networkAddress (wordBytes (raised d.word n))) := by
    have hbyte : ((((wordBytes d.word 7).toNat : ℤ) + n) % 256).toNat =
        (wordBytes d.word 7 + BitVec.ofNat 8 n).toNat := by
      rw [BitVec.toNat_add, BitVec.toNat_ofNat, Nat.add_mod_mod]
      omega
    rw [raised, wordBytes_bytesWord, octets_networkAddress, octets_networkAddress]
    simpa [posPrefixDelegation, Function.update, List.set] using hbyte
  have hshort := inet_pton6_text_le (inet_pton6_addressText (raised d.word n))
  unfold calcIPv6Prefix
  simp only [d.read, hset]
  exact if_pos (Nat.lt_trans hshort (by omega))

/-- The state after a new number was handed out. -/
def assign (s : State) (i : CStr) : State where
  box := { interface_num := s.box.interface_num + 1,
           sysevent := set s.box.sysevent (indexName i) (decimal s.box.interface_num) }
  held := Function.update s.held i (some (slash64 (raised d.word s.box.interface_num)))

theorem held_assign_self (s : State) (i : CStr) : (assign d s i).held i =
    some (slash64 (raised d.word s.box.interface_num)) := Function.update_self ..

theorem held_assign_of_ne (s : State) {i j : CStr} (h : j ≠ i) :
    (assign d s i).held j = s.held j := Function.update_of_ne h ..

structure Numbered (s : State) : Prop where
  counter : 0 < s.box.interface_num ∧ s.box.interface_num < 2 ^ 31
  held : ∀ i, ∃ n : ℕ, s.box.index i = n ∧
    s.held i = if n = 0 then none else some (slash64 (raised d.word n))

variable {s : State}

theorem index_assign_self (h : s.box.interface_num < 2 ^ 31) (i : CStr) :
    (assign d s i).box.index i = s.box.interface_num := by
  have hlen : (decimal s.box.interface_num).length ≤ 10 :=
    (decimal_length_le_iff (by omega)).mpr (by omega)
  have hread : (assign d s i).box.read (indexName i) 100 = decimal s.box.interface_num := by
    unfold Box.read assign
    simp only [set_self, Option.getD_some]
    exact List.take_of_length_le (by omega)
  rw [Box.index, hread, if_neg (decimal_ne_nil _), atoi_decimal h]

theorem index_assign_of_ne (s : State) {i j : CStr} (h : j ≠ i) :
    (assign d s i).box.index j = s.box.index j := by
  have hread : (assign d s i).box.read (indexName j) 100 = s.box.read (indexName j) 100 := by
    unfold Box.read assign
    simp only [set_of_ne _ _ (indexName_injective.ne h)]
  rw [Box.index, Box.index, hread]

variable {i : CStr}

theorem step_request_new (hname : (indexName i).length < 100)
    (hindex : s.box.index i = 0) : step d s (.request i) =
      if s.box.interface_num + 1 < 2 ^ 31 then some (assign d s i) else none := by
  have htext := inet_pton6_text_le d.read
  have hfit : ¬ 100 ≤ d.text.length := by omega
  simp only [step, genIPv6Prefix, if_neg (Nat.not_le.mpr hname), if_neg hfit, if_pos hindex,
    calcIPv6Prefix_eq]
  split
  · rfl
  · rfl

theorem step_request_old (hs : Numbered d s)
    (h : 100 ≤ (indexName i).length ∨ s.box.index i ≠ 0) : step d s (.request i) = some s := by
  by_cases hname : 100 ≤ (indexName i).length
  · simp only [step, genIPv6Prefix, if_pos hname, Option.map_some]
  · have hindex := h.resolve_left hname
    obtain ⟨n, hn, hheld⟩ := hs.held i
    have htext := inet_pton6_text_le d.read
    have hfit : ¬ 100 ≤ d.text.length := by omega
    have hpos : n ≠ 0 := by
      rintro rfl
      exact hindex hn
    rw [if_neg hpos] at hheld
    simp only [step, genIPv6Prefix, if_neg hname, if_neg hfit, if_neg hindex]
    rw [hn, calcIPv6Prefix_eq]
    have hsame : Function.update s.held i (some (addressText (raised d.word n) ++ "/64".toList)) =
        s.held := by
      apply Function.update_eq_self_iff.mpr
      exact hheld.symm
    simp only [Option.map_some, hsame]

variable {s t : State}

theorem step_cases (hs : Numbered d s) {a : Op} (h : step d s a = some t) :
    (a = .restart ∧ t = { s with box := { s.box with interface_num := 4 } }) ∨
    (∃ i, a = .request i ∧ (100 ≤ (indexName i).length ∨ s.box.index i ≠ 0) ∧ t = s) ∨
    (∃ i, a = .request i ∧ (indexName i).length < 100 ∧ s.box.index i = 0 ∧
      s.box.interface_num + 1 < 2 ^ 31 ∧ t = assign d s i) := by
  cases a with
  | restart => exact .inl ⟨rfl, (Option.some.inj h).symm⟩
  | request i =>
    by_cases hold : 100 ≤ (indexName i).length ∨ s.box.index i ≠ 0
    · rw [step_request_old d hs hold] at h
      exact .inr (.inl ⟨i, rfl, hold, (Option.some.inj h).symm⟩)
    · obtain ⟨hname, hindex⟩ := not_or.mp hold
      have hname' : (indexName i).length < 100 := by omega
      have hindex' : s.box.index i = 0 := not_not.mp hindex
      rw [step_request_new d hname' hindex', Option.ite_none_right_eq_some] at h
      exact .inr (.inr ⟨i, rfl, hname', hindex', h.1, (Option.some.inj h.2).symm⟩)

theorem numbered_step {a : Op} (hs : Numbered d s) (h : step d s a = some t) :
    Numbered d t := by
  obtain ⟨-, rfl⟩ | ⟨i, -, -, rfl⟩ | ⟨i, -, -, -, hroom, rfl⟩ := step_cases d hs h
  · exact ⟨⟨Nat.succ_pos 3, by norm_num⟩, hs.held⟩
  · exact hs
  · refine ⟨⟨by simp [assign], hroom⟩, fun j => ?_⟩
    by_cases hj : j = i
    · subst hj
      refine ⟨s.box.interface_num, index_assign_self d hs.counter.2 j, ?_⟩
      rw [if_neg (Nat.pos_iff_ne_zero.mp hs.counter.1)]
      exact held_assign_self d s j
    · obtain ⟨n, hn, hheld⟩ := hs.held j
      exact ⟨n, (index_assign_of_ne d s hj).trans hn, (held_assign_of_ne d s hj).trans hheld⟩

theorem assigned_assign_iff (hs : Numbered d s) (hgood : Assigned d s)
    (hname : (indexName i).length < 100) (hindex : s.box.index i = 0) :
    Assigned d (assign d s i) ↔ FreshIndex d s (.request i) := by
  have hself := held_assign_self d s i
  have hother : ∀ j, j ≠ i → (assign d s i).held j = s.held j :=
    fun j hj => held_assign_of_ne d s hj
  have hinside := raised_inside_iff d.len_lt d.host s.box.interface_num
  constructor
  · intro h _ _
    obtain ⟨w, hw, hin⟩ := h.inside i _ hself
    rw [← slash64_injective hw] at hin
    refine ⟨(hinside.mp hin).1, (hinside.mp hin).2, fun j hj hnz hmod => ?_⟩
    obtain ⟨m, hm, hheld⟩ := hs.held j
    rw [hm] at hnz hmod
    have hbytes : m % 256 = s.box.interface_num % 256 := by omega
    rw [if_neg (by omega), (raised_eq_iff d.word m s.box.interface_num).mpr hbytes] at hheld
    exact h.distinct i j _ (Ne.symm hj) hself ((hother j hj).trans hheld)
  · intro h
    obtain ⟨hfour, hroom, hfree⟩ := h hname hindex
    have hnew : ∀ j, j ≠ i → s.held j ≠ some (slash64 (raised d.word s.box.interface_num)) := by
      intro j hj hheld'
      obtain ⟨m, hm, hheld⟩ := hs.held j
      by_cases hzero : m = 0
      · rw [hheld', if_pos hzero] at hheld
        exact absurd hheld (Option.some_ne_none _)
      · rw [hheld', if_neg hzero, Option.some.injEq] at hheld
        have hbytes := (raised_eq_iff d.word _ m).mp (slash64_injective hheld)
        apply hfree j hj (by omega)
        omega
    refine ⟨fun j pref hpref => ?_, fun j k w hjk hj hk => ?_⟩
    · by_cases hj : j = i
      · rw [hj, hself, Option.some.injEq] at hpref
        exact ⟨_, hpref.symm, hinside.mpr ⟨hfour, hroom⟩⟩
      · exact hgood.inside j pref ((hother j hj).symm.trans hpref)
    · by_cases hji : j = i
      · rw [hji, hself, Option.some.injEq] at hj
        rw [hother k (hji ▸ Ne.symm hjk), ← hj] at hk
        exact hnew k (hji ▸ Ne.symm hjk) hk
      · rw [hother j hji] at hj
        by_cases hki : k = i
        · rw [hki, hself, Option.some.injEq] at hk
          rw [← hk] at hj
          exact hnew j hji hj
        · rw [hother k hki] at hk
          exact hgood.distinct j k w hjk hj hk

theorem assigns_iff {a : Op} (hs : Numbered d s ∧ Assigned d s)
    (h : step d s a = some t) : Assigns d s a t ↔ FreshIndex d s a := by
  obtain ⟨rfl, rfl⟩ | ⟨i, rfl, hold, rfl⟩ | ⟨i, rfl, hname, hindex, -, rfl⟩ := step_cases d hs.1 h
  · exact iff_of_true ⟨⟨hs.2.inside, hs.2.distinct⟩, fun _ _ hheld => hheld⟩ trivial
  · refine iff_of_true ⟨hs.2, fun _ _ hheld => hheld⟩ (fun hname hindex => ?_)
    exact absurd hindex (hold.resolve_left (by omega))
  · have hkept : ∀ j pref, s.held j = some pref → (assign d s i).held j = some pref := by
      intro j pref hheld
      have hj : j ≠ i := by
        rintro rfl
        obtain ⟨n, hn, hnone⟩ := hs.1.held j
        rw [hheld, if_pos (by omega)] at hnone
        exact absurd hnone (Option.some_ne_none _)
      exact (held_assign_of_ne d s hj).trans hheld
    rw [← assigned_assign_iff d hs.1 hs.2 hname hindex]
    exact ⟨fun h => h.1, fun h => ⟨h, hkept⟩⟩

theorem numbered_start : Numbered d start := by
  refine ⟨⟨Nat.succ_pos 3, ?_⟩, fun i => ⟨0, rfl, rfl⟩⟩
  exact show 4 < 2 ^ 31 by norm_num

theorem assigned_start : Assigned d start :=
  ⟨fun _ _ h => absurd h (Option.some_ne_none _).symm,
    fun _ _ _ _ h => absurd h (Option.some_ne_none _).symm⟩

/-- All along a run every interface has a /64 of its own and keeps it, exactly
when each number handed out is fresh. -/
theorem genIPv6Prefix_assigns_iff {ops : List Op} {t : State}
    (hrun : run (step d) start ops = some t) :
    Along (step d) (Assigns d) start ops ↔ StepsMeet (step d) (FreshIndex d) start ops := by
  apply along_iff (step d) (fun s => Numbered d s ∧ Assigned d s)
  · exact fun s a t hs h => assigns_iff d hs h
  · exact fun s a t hs hok h => ⟨numbered_step d hs.1 h, ((assigns_iff d hs h).mpr hok).1⟩
  · exact ⟨numbered_start d, assigned_start d⟩
  · exact hrun

end requests

section fixed

def delegated56 : DelegatedPrefix where
  text := "2001:db8:0:100::".toList
  word := 0x20010db800000100#64
  len := 56
  len_lt := by omega
  read := by decide +kernel
  host := by decide

def brlan2 : CStr := "brlan2".toList
def brlan3 : CStr := "brlan3".toList

theorem genIPv6Prefix_assigns_two : ∃ t,
    run (step delegated56) start [.request brlan2, .request brlan3] = some t ∧
      (Along (step delegated56) (Assigns delegated56) start [.request brlan2, .request brlan3] ↔
        StepsMeet (step delegated56) (FreshIndex delegated56) start
          [.request brlan2, .request brlan3]) := by
  have hsome : (run (step delegated56) start [.request brlan2, .request brlan3]).isSome := by
    decide +kernel
  obtain ⟨t, hrun⟩ := Option.isSome_iff_exists.mp hsome
  exact ⟨t, hrun, genIPv6Prefix_assigns_iff delegated56 hrun⟩

/-- After a restart the counter hands 4 out again, to another interface. -/
theorem genIPv6Prefix_repeated_index : ¬ ∀ (d : DelegatedPrefix) (ops : List Op) (t : State),
    run (step d) start ops = some t → Along (step d) (Assigns d) start ops := by
  intro h
  have hheld : (run (step delegated56) start [.request brlan2, .restart, .request brlan3]).map
      (fun t => (t.held brlan2, t.held brlan3)) =
        some (some (slash64 (raised delegated56.word 4)),
          some (slash64 (raised delegated56.word 4))) := by
    decide +kernel
  obtain ⟨t, hrun, hheld⟩ := Option.map_eq_some_iff.mp hheld
  have hall := h delegated56 _ t hrun
  simp only [run_cons, run_nil, Option.bind_eq_some_iff, Option.some.injEq] at hrun
  obtain ⟨s₁, h₁, s₂, h₂, s₃, h₃, rfl⟩ := hrun
  have hend := (((hall s₁ h₁).2 s₂ h₂).2 s₃ h₃).1.1
  obtain ⟨htwo, hthree⟩ := Prod.mk.inj hheld
  exact hend.distinct brlan2 brlan3 _ (by decide) htwo hthree

end fixed

end CcspPandM.InterfacePrefixes
