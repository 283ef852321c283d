import CcspPandM.CString
import CcspPandM.KeyStore
import CcspPandM.Runs

/-!
The four services of dynamic DNS. A slot of the store has the name of a service with
its flag, user name, password and host name, and every report loads all slots anew
through one set of buffers. A text without a key, or with an empty one, leaves in its
buffer what an earlier slot had there.
-/
namespace CcspPandM.DdnsServices

open CString KeyStore Runs

section Writes

variable {α : Type*} (p : ℕ → Prop) [DecidablePred p]

def lastBelow : ℕ → Option ℕ
  | 0 => none
  | n + 1 => if p n then some n else lastBelow n

theorem eq_lastBelow (value g : ℕ → α) (h : ∀ n, value (n + 1) = if p n then g n else value n)
    (n : ℕ) : value n = (lastBelow p n).elim (value 0) g := by
  induction n with
  | zero => rfl
  | succ n ih =>
    rw [h, lastBelow]
    split
    · rfl
    · exact ih

end Writes

section Code

abbrev Service := Fin 4

inductive Text where
  | Username
  | Password
  | Domain
  deriving DecidableEq

open Text

/-- The keys: `ddns_enable`, and those of a slot, which end in its number. -/
inductive Key where
  | ddns_enable
  | service (slot : ℕ)
  | enable (slot : ℕ)
  | text (slot : ℕ) (f : Text)
  deriving DecidableEq

structure COSA_DML_DDNS_SERVICE where
  bEnabled : Bool
  ServiceName : Buf 32
  text : Text → Buf 65

def serviceNames : List CStr :=
  ["dyndns".toList, "tzo".toList, "changeip".toList, "afraid".toList]

def serviceName (s : Service) : CStr := serviceNames.get s

/-- A service in memory; its name never changes. -/
structure Entry where
  bEnabled : Bool
  text : Text → Buf 65

structure System where
  g_bEnabled : Bool
  g_DdnsService : Service → Entry
  syscfg : Store Key CStr

def g_DdnsService : Service → Entry := fun s => ⟨false, fun
  | Username => Buf.snprintf ("admin".toList ++ decimal (s + 1))
  | Password => Buf.snprintf ("admin".toList ++ decimal (s + 1))
  | Domain => Buf.snprintf "cisco.com".toList⟩

variable (syscfg : Store Key CStr)

/-- A key that is absent or empty leaves `pVal` as it is. -/
def UtGetString (path : Key) (pVal : CStr) (length : ℕ) : CStr :=
  match syscfg path with
  | some t => if t = [] then pVal else t.take (length - 1)
  | none => pVal

def UtGetBool (path : Key) : Bool :=
  atoi (UtGetString syscfg path [] 64) = 1

def flagText (b : Bool) : CStr := if b then "1".toList else "0".toList

def length : Text → ℕ
  | Username => 31
  | Password => 31
  | Domain => 255

def STRCPY_S_NOCLOBBER (t : CStr) (old : Buf 65) : Buf 65 :=
  if h : t.length < 65 then ⟨t, h⟩ else old

def named (i : ℕ) : Option Service :=
  (List.finRange 4).find? fun s =>
    strcaseeq (UtGetString syscfg (.service i) [] 31) (serviceName s)

/-- The slots below `n`: what is left in the buffers, and the services in memory. -/
def loadTo (sys : System) : ℕ → (Text → CStr) × (Service → Entry)
  | 0 => (fun _ => [], sys.g_DdnsService)
  | n + 1 =>
    let before := loadTo sys n
    let read := fun f => UtGetString sys.syscfg (.text n f) (before.1 f) (length f)
    match named sys.syscfg n with
    | some s => (read, Function.update before.2 s
        ⟨UtGetBool sys.syscfg (.enable n), fun f =>
          STRCPY_S_NOCLOBBER (read f) ((before.2 s).text f)⟩)
    | none => (read, before.2)

def CosaDmlDdnsInit (sys : System) : System :=
  { sys with
    g_bEnabled := UtGetBool sys.syscfg .ddns_enable
    g_DdnsService := (loadTo sys 4).2 }

/-- What is started for a service by `DdnsRestart`; a command for a buffer of 512 bytes
is left out where it does not fit. -/
def command (s : Service) (e : Entry) : Option (List CStr) :=
  let u := (e.text Username).text
  let p := (e.text Password).text
  let hostname := (e.text Domain).text
  if s = 2 then
    let cmd := "http://nic.changeip.com/nic/update?u=".toList ++ u ++ "&p=".toList ++ p ++
      "&hostname=".toList ++ hostname
    if cmd.length < 512 then some ["usr/bin/wget".toList, "-T".toList, "10".toList, cmd]
    else none
  else if s = 3 then
    let cmd := "\"http://freedns.afraid.org/dynamic/update.php?".toList ++ p ++ "\"".toList
    if cmd.length < 512 then some ["usr/bin/wget".toList, cmd] else none
  else
    some ["/usr/bin/ez-ipupdate".toList, "--interface=erouter0".toList,
      "--cache-file=/var/ez-ipupdate.cache.".toList ++ serviceName s, "--daemon".toList,
      "--max-interval=2073600".toList, "--service-type=".toList ++ serviceName s,
      "--user=".toList ++ u ++ ":".toList ++ p, "--host=".toList ++ hostname]

def DdnsRestart (g_bEnabled : Bool) (g_DdnsService : Service → Entry) (s : Service) :
    Option (List CStr) :=
  if g_bEnabled ∧ (g_DdnsService s).bEnabled then command s (g_DdnsService s) else none

def CosaDmlDdnsSetConfig (sys : System) (bEnabled : Bool) : System :=
  { sys with
    g_bEnabled := bEnabled
    syscfg := set sys.syscfg .ddns_enable (flagText bEnabled) }

/-- The report of a service by its index; by its instance number it is the same. -/
def CosaDmlDdnsGetService (sys : System) (ulIndex : Service) : Entry × System :=
  let loaded := CosaDmlDdnsInit sys
  (loaded.g_DdnsService ulIndex, loaded)

def CosaDmlDdnsGetInfo (sys : System) (ulInstanceNumber : ℕ) : Option Entry × System :=
  let loaded := CosaDmlDdnsInit sys
  (if h : 1 ≤ ulInstanceNumber ∧ ulInstanceNumber ≤ 4 then
    some (loaded.g_DdnsService ⟨ulInstanceNumber - 1, by omega⟩) else none, loaded)

def storeService (s : Service) (e : Entry) : Store Key CStr :=
  set (set (set (set (set syscfg (.enable s) (flagText e.bEnabled))
    (.text s Domain) (e.text Domain).text) (.text s Password) (e.text Password).text)
    (.text s Username) (e.text Username).text) (.service s) (serviceName s)

def CosaDmlDdnsSetService (sys : System) (pService : COSA_DML_DDNS_SERVICE) : System :=
  match (List.finRange 4).find? fun s => pService.ServiceName.text = serviceName s with
  | some s =>
    let entry : Entry := ⟨pService.bEnabled, fun f =>
      STRCPY_S_NOCLOBBER (pService.text f).text ((sys.g_DdnsService s).text f)⟩
    { sys with
      g_DdnsService := Function.update sys.g_DdnsService s entry
      syscfg := storeService sys.syscfg s entry }
  | none => sys

end Code

section Calls

inductive Call where
  | setService (pService : COSA_DML_DDNS_SERVICE)
  | setConfig (bEnabled : Bool)
  | getService (s : Service)
  | getInfo (s : Service)

/-- The system, and beside it what each service was last set to. -/
structure History where
  system : System
  setting : Service → Entry

def addressed (pService : COSA_DML_DDNS_SERVICE) : Option Service :=
  (List.finRange 4).find? fun s => pService.ServiceName.text = serviceName s

def entryOf (pService : COSA_DML_DDNS_SERVICE) : Entry := ⟨pService.bEnabled, pService.text⟩

def step (h : History) : Call → Option History
  | .setService p => some ⟨CosaDmlDdnsSetService h.system p,
      (addressed p).elim h.setting fun s => Function.update h.setting s (entryOf p)⟩
  | .setConfig b => some ⟨CosaDmlDdnsSetConfig h.system b, h.setting⟩
  | .getService s => some ⟨(CosaDmlDdnsGetService h.system s).2, h.setting⟩
  | .getInfo s => some ⟨(CosaDmlDdnsGetInfo h.system (s + 1)).2, h.setting⟩

def lastNaming (syscfg : Store Key CStr) (s : Service) : Option ℕ :=
  lastBelow (fun i => named syscfg i = some s) 4

def ownEntry (syscfg : Store Key CStr) (s : Service) : Entry :=
  match lastNaming syscfg s with
  | some i => ⟨UtGetBool syscfg (.enable i), fun f =>
      STRCPY_S_NOCLOBBER (UtGetString syscfg (.text i f) [] (length f))
        ((g_DdnsService s).text f)⟩
  | none => g_DdnsService s

def boot (syscfg : Store Key CStr) : History :=
  ⟨CosaDmlDdnsInit ⟨true, g_DdnsService, syscfg⟩, ownEntry syscfg⟩

/-- What would be sent and reported next is, for every service, its own last setting. -/
def Right (h : History) : Prop :=
  ∀ s, DdnsRestart h.system.g_bEnabled h.system.g_DdnsService s =
      DdnsRestart h.system.g_bEnabled h.setting s ∧
    (CosaDmlDdnsGetService h.system s).1 = h.setting s ∧
    (CosaDmlDdnsGetInfo h.system (s + 1)).1 = some (h.setting s)

/-- The text of the slot, or of the nearest one before it that has one, as the buffer
holds it. -/
def nearest (syscfg : Store Key CStr) (f : Text) : ℕ → CStr
  | 0 => UtGetString syscfg (.text 0 f) [] (length f)
  | i + 1 => UtGetString syscfg (.text (i + 1) f) (nearest syscfg f i) (length f)

def lastFitting (syscfg : Store Key CStr) (s : Service) (f : Text) : Option ℕ :=
  lastBelow (fun i => named syscfg i = some s ∧ (nearest syscfg f i).length < 65) 4

/-- The last slot that names a service has its flag, and the nearest texts are its own. -/
def Own (syscfg : Store Key CStr) (memory setting : Service → Entry) : Prop :=
  ∀ s, (lastNaming syscfg s).elim (memory s).bEnabled (fun i => UtGetBool syscfg (.enable i)) =
      (setting s).bEnabled ∧
    ∀ f, (lastFitting syscfg s f).elim ((memory s).text f).text (nearest syscfg f) =
      ((setting s).text f).text

/-- What a call needs: only what is set matters. -/
def Fits (h : History) : Call → Prop
  | .setService p => ∀ s, addressed p = some s →
      Own (storeService h.system.syscfg s (entryOf p))
        (Function.update h.setting s (entryOf p)) (Function.update h.setting s (entryOf p))
  | .setConfig _ => True
  | .getService _ => True
  | .getInfo _ => True

end Calls

section Loading

variable {sys : System} {memory setting : Service → Entry} {syscfg : Store Key CStr}

theorem buffers_loadTo (sys : System) (f : Text) (n : ℕ) :
    (loadTo sys (n + 1)).1 f = nearest sys.syscfg f n := by
  induction n with
  | zero =>
    rw [loadTo]
    dsimp only
    split <;> rfl
  | succ n ih =>
    rw [nearest, ← ih, loadTo]
    dsimp only
    split <;> rfl

theorem read_loadTo (sys : System) (f : Text) (n : ℕ) :
    UtGetString sys.syscfg (.text n f) ((loadTo sys n).1 f) (length f) =
      nearest sys.syscfg f n := by
  cases n with
  | zero => rfl
  | succ n => rw [buffers_loadTo, nearest]

theorem entry_loadTo_succ (sys : System) (s : Service) (n : ℕ) :
    (loadTo sys (n + 1)).2 s =
      if named sys.syscfg n = some s then
        ⟨UtGetBool sys.syscfg (.enable n), fun f =>
          STRCPY_S_NOCLOBBER (nearest sys.syscfg f n) (((loadTo sys n).2 s).text f)⟩
      else (loadTo sys n).2 s := by
  rw [loadTo]
  dsimp only
  split
  · rename_i t hnamed
    by_cases hs : t = s
    · subst hs
      rw [if_pos hnamed]
      dsimp only
      rw [Function.update_self]
      simp only [read_loadTo]
    · have hother : ¬ named sys.syscfg n = some s := fun h =>
        hs (Option.some.inj (hnamed.symm.trans h))
      rw [if_neg hother]
      exact Function.update_of_ne (Ne.symm hs) _ _
  · rename_i hnamed
    rw [if_neg (by rw [hnamed]; exact Option.some_ne_none s ∘ Eq.symm)]

theorem flag_loadTo (sys : System) (s : Service) (n : ℕ) :
    ((loadTo sys n).2 s).bEnabled =
      (lastBelow (fun i => named sys.syscfg i = some s) n).elim (sys.g_DdnsService s).bEnabled
        (fun i => UtGetBool sys.syscfg (.enable i)) := by
  refine eq_lastBelow _ (fun n => ((loadTo sys n).2 s).bEnabled) _ (fun n => ?_) n
  rw [entry_loadTo_succ]
  split <;> rfl

theorem noclobber_text (t : CStr) (old : Buf 65) :
    (STRCPY_S_NOCLOBBER t old).text = if t.length < 65 then t else old.text := by
  by_cases h : t.length < 65
  · have hcopy : STRCPY_S_NOCLOBBER t old = ⟨t, h⟩ := dif_pos h
    rw [if_pos h, hcopy]
    rfl
  · have hcopy : STRCPY_S_NOCLOBBER t old = old := dif_neg h
    rw [if_neg h, hcopy]

theorem text_loadTo (sys : System) (s : Service) (f : Text) (n : ℕ) :
    (((loadTo sys n).2 s).text f).text =
      (lastBelow (fun i => named sys.syscfg i = some s ∧ (nearest sys.syscfg f i).length < 65)
        n).elim ((sys.g_DdnsService s).text f).text (nearest sys.syscfg f) := by
  refine eq_lastBelow _ (fun n => (((loadTo sys n).2 s).text f).text) _ (fun n => ?_) n
  rw [entry_loadTo_succ]
  by_cases hnamed : named sys.syscfg n = some s
  · rw [if_pos hnamed]
    dsimp only
    rw [noclobber_text]
    by_cases hlen : (nearest sys.syscfg f n).length < 65
    · rw [if_pos hlen, if_pos ⟨hnamed, hlen⟩]
    · rw [if_neg hlen, if_neg (fun h => hlen h.2)]
  · rw [if_neg hnamed, if_neg (fun h => hnamed h.1)]

theorem entry_ext {e e' : Entry} (hflag : e.bEnabled = e'.bEnabled)
    (htext : ∀ f, (e.text f).text = (e'.text f).text) : e = e' := by
  obtain ⟨flag, text⟩ := e
  obtain ⟨flag', text'⟩ := e'
  obtain rfl : flag = flag' := hflag
  obtain rfl : text = text' := funext fun f => Buf.text_injective (htext f)
  rfl

theorem load_eq_iff (sys : System) (setting : Service → Entry) :
    (CosaDmlDdnsInit sys).g_DdnsService = setting ↔
      Own sys.syscfg sys.g_DdnsService setting := by
  have hflag (s : Service) := flag_loadTo sys s 4
  have htext (s : Service) (f : Text) := text_loadTo sys s f 4
  constructor
  · intro h s
    subst h
    exact ⟨(hflag s).symm, fun f => (htext s f).symm⟩
  · intro h
    funext s
    exact entry_ext ((hflag s).trans (h s).1) (fun f => (htext s f).trans ((h s).2 f))

end Loading

section Running

variable {h : History}

structure Settled (h : History) : Prop where
  memory : h.system.g_DdnsService = h.setting
  own : Own h.system.syscfg h.setting h.setting

theorem right_iff_load (hmemory : h.system.g_DdnsService = h.setting) :
    Right h ↔ (CosaDmlDdnsInit h.system).g_DdnsService = h.setting := by
  constructor
  · intro hright
    funext s
    exact (hright s).2.1
  · intro hload s
    refine ⟨by rw [hmemory], congrFun hload s, ?_⟩
    have hindex : 1 ≤ (s : ℕ) + 1 ∧ (s : ℕ) + 1 ≤ 4 := by omega
    rw [CosaDmlDdnsGetInfo]
    dsimp only
    rw [dif_pos hindex, hload]
    rfl

theorem right_iff_own (hmemory : h.system.g_DdnsService = h.setting) :
    Right h ↔ Own h.system.syscfg h.setting h.setting := by
  rw [right_iff_load hmemory, load_eq_iff, hmemory]

theorem noclobber_whole (b old : Buf 65) : STRCPY_S_NOCLOBBER b.text old = b :=
  Buf.text_injective (by rw [noclobber_text, if_pos b.text_length_lt])

variable {p : COSA_DML_DDNS_SERVICE}

theorem setService_addressed (sys : System) {s : Service}
    (hs : addressed p = some s) :
    CosaDmlDdnsSetService sys p =
      { sys with
        g_DdnsService := Function.update sys.g_DdnsService s (entryOf p)
        syscfg := storeService sys.syscfg s (entryOf p) } := by
  unfold addressed at hs
  rw [CosaDmlDdnsSetService, hs]
  simp only [noclobber_whole]
  rfl

theorem setService_other (sys : System) (hp : addressed p = none) :
    CosaDmlDdnsSetService sys p = sys := by
  unfold addressed at hp
  rw [CosaDmlDdnsSetService, hp]

theorem loadTo_setConfig (sys : System) (b : Bool) (n : ℕ) :
    loadTo (CosaDmlDdnsSetConfig sys b) n = loadTo sys n := by
  have hread (k : Key) (hk : k ≠ .ddns_enable) (out : CStr) (n : ℕ) :
      UtGetString (set sys.syscfg .ddns_enable (flagText b)) k out n =
        UtGetString sys.syscfg k out n := by
    rw [UtGetString, set_of_ne _ _ hk, UtGetString]
  have hnamed (n : ℕ) :
      named (CosaDmlDdnsSetConfig sys b).syscfg n = named sys.syscfg n := by
    rw [CosaDmlDdnsSetConfig, named, hread _ (by simp), named]
  have hflag (n : ℕ) : UtGetBool (CosaDmlDdnsSetConfig sys b).syscfg (.enable n) =
      UtGetBool sys.syscfg (.enable n) := by
    rw [CosaDmlDdnsSetConfig, UtGetBool, hread _ (by simp), UtGetBool]
  have htext (n : ℕ) (f : Text) (out : CStr) :
      UtGetString (CosaDmlDdnsSetConfig sys b).syscfg (.text n f) out (length f) =
        UtGetString sys.syscfg (.text n f) out (length f) := hread _ (by simp) out _
  induction n with
  | zero => rfl
  | succ n ih => simp only [loadTo, ih, hnamed, hflag, htext]

theorem own_setConfig (hs : Settled h) (b : Bool) :
    Own (CosaDmlDdnsSetConfig h.system b).syscfg h.setting h.setting := by
  have hload := (load_eq_iff h.system h.setting).mpr (by rw [hs.memory]; exact hs.own)
  have hmemory : (CosaDmlDdnsSetConfig h.system b).g_DdnsService = h.setting := hs.memory
  rw [← hmemory] at hload ⊢
  refine (load_eq_iff (CosaDmlDdnsSetConfig h.system b) _).mp ?_
  rw [← hload]
  exact congrArg Prod.snd (loadTo_setConfig h.system b 4)

theorem good_set (hs : Settled h) :
    (∃ h', step h (.setService p) = some h' ∧ Right h') ↔ Fits h (.setService p) := by
  cases hp : addressed p with
  | none =>
    have hfits : Fits h (.setService p) := fun s h => absurd (hp.symm.trans h) (by simp)
    have hsame : step h (.setService p) = some h := by
      rw [step, setService_other _ hp, hp]
      rfl
    rw [hsame]
    exact iff_of_true ⟨h, rfl, (right_iff_own hs.memory).mpr hs.own⟩ hfits
  | some s =>
    have hstep : step h (.setService p) = some ⟨{ h.system with
        g_DdnsService := Function.update h.system.g_DdnsService s (entryOf p)
        syscfg := storeService h.system.syscfg s (entryOf p) },
        Function.update h.setting s (entryOf p)⟩ := by
      rw [step, setService_addressed _ hp, hp]
      rfl
    have hmemory : Function.update h.system.g_DdnsService s (entryOf p) =
        Function.update h.setting s (entryOf p) := by rw [hs.memory]
    rw [hstep]
    constructor
    · intro hgood t ht
      obtain ⟨h', heq, hright⟩ := hgood
      obtain rfl := Option.some.inj heq
      obtain rfl := Option.some.inj (hp.symm.trans ht)
      exact (right_iff_own hmemory).mp hright
    · intro hfits
      exact ⟨_, rfl, (right_iff_own hmemory).mpr (hfits s hp)⟩

theorem settled_set (hs : Settled h) (hfits : Fits h (.setService p))
    {h' : History} (hstep : step h (.setService p) = some h') : Settled h' := by
  cases hp : addressed p with
  | none =>
    rw [step, setService_other _ hp, hp] at hstep
    obtain rfl := Option.some.inj hstep
    exact hs
  | some s =>
    rw [step, setService_addressed _ hp, hp] at hstep
    obtain rfl := Option.some.inj hstep
    have hmemory : Function.update h.system.g_DdnsService s (entryOf p) =
        Function.update h.setting s (entryOf p) := by rw [hs.memory]
    exact ⟨hmemory, hfits s hp⟩

theorem settled_load (hs : Settled h) : Settled ⟨CosaDmlDdnsInit h.system, h.setting⟩ := by
  have hload := (load_eq_iff h.system h.setting).mpr (by rw [hs.memory]; exact hs.own)
  exact ⟨hload, hs.own⟩

theorem right_of_settled (hs : Settled h) : Right h := (right_iff_own hs.memory).mpr hs.own

theorem good_step (hs : Settled h) (c : Call) :
    (∃ h', step h c = some h' ∧ Right h') ↔ Fits h c := by
  cases c with
  | setService p => exact good_set hs
  | setConfig b =>
    have hsettled : Settled ⟨CosaDmlDdnsSetConfig h.system b, h.setting⟩ :=
      ⟨hs.memory, own_setConfig hs b⟩
    exact iff_of_true ⟨_, rfl, right_of_settled hsettled⟩ trivial
  | getService s => exact iff_of_true ⟨_, rfl, right_of_settled (settled_load hs)⟩ trivial
  | getInfo s => exact iff_of_true ⟨_, rfl, right_of_settled (settled_load hs)⟩ trivial

theorem settled_step (hs : Settled h) {c : Call} (hfits : Fits h c) {h' : History}
    (hstep : step h c = some h') : Settled h' := by
  cases c with
  | setService p => exact settled_set hs hfits hstep
  | setConfig b =>
    obtain rfl := Option.some.inj hstep
    exact ⟨hs.memory, own_setConfig hs b⟩
  | getService s =>
    obtain rfl := Option.some.inj hstep
    exact settled_load hs
  | getInfo s =>
    obtain rfl := Option.some.inj hstep
    exact settled_load hs

theorem load_load (sys : System) :
    (CosaDmlDdnsInit (CosaDmlDdnsInit sys)).g_DdnsService =
      (CosaDmlDdnsInit sys).g_DdnsService := by
  apply (load_eq_iff (CosaDmlDdnsInit sys) _).mpr
  have hown := (load_eq_iff sys _).mp rfl
  intro s
  refine ⟨?_, fun f => ?_⟩
  · have hflag := (hown s).1
    change (lastNaming sys.syscfg s).elim _ _ = _
    cases hlast : lastNaming sys.syscfg s with
    | none => rfl
    | some i =>
      rw [hlast] at hflag
      exact hflag
  · have htext := (hown s).2 f
    change (lastFitting sys.syscfg s f).elim _ _ = _
    cases hlast : lastFitting sys.syscfg s f with
    | none => rfl
    | some i =>
      rw [hlast] at htext
      exact htext

theorem right_boot_iff (syscfg : Store Key CStr) :
    Right (boot syscfg) ↔ Own syscfg g_DdnsService (ownEntry syscfg) := by
  have hown : (boot syscfg).system.g_DdnsService = (boot syscfg).setting ↔
      Own syscfg g_DdnsService (ownEntry syscfg) := load_eq_iff ⟨true, g_DdnsService, syscfg⟩ _
  rw [← hown]
  constructor
  · intro hright
    refine (load_load ⟨true, g_DdnsService, syscfg⟩).symm.trans ?_
    funext s
    exact (hright s).2.1
  · intro hmemory
    apply (right_iff_load hmemory).mpr
    rw [← hmemory]
    exact load_load _

theorem settled_boot {syscfg : Store Key CStr} (hright : Right (boot syscfg)) :
    Settled (boot syscfg) := by
  have hmemory : (boot syscfg).system.g_DdnsService = (boot syscfg).setting :=
    (load_eq_iff ⟨true, g_DdnsService, syscfg⟩ _).mpr ((right_boot_iff syscfg).mp hright)
  exact ⟨hmemory, (right_iff_own hmemory).mp hright⟩

end Running

/-- When every service has its own settings from the start on a store to the end of a run. -/
theorem ddns_right_iff (syscfg : Store Key CStr) (calls : List Call) :
    Right (boot syscfg) ∧ Throughout step Right (boot syscfg) calls ↔
      Own syscfg g_DdnsService (ownEntry syscfg) ∧ StepsMeet step Fits (boot syscfg) calls := by
  rw [← right_boot_iff]
  apply and_congr_right
  intro hright
  exact throughout_iff step Settled (fun _ c hs _ => good_step hs c)
    (fun _ _ _ hs _ hfits hstep => settled_step hs hfits hstep) (settled_boot hright)
    (stepsMeet_true step _ _)

def service (name : CStr) (username : CStr) : COSA_DML_DDNS_SERVICE where
  bEnabled := true
  ServiceName := Buf.snprintf name
  text
    | .Username => Buf.snprintf username
    | .Password => Buf.snprintf "secret".toList
    | .Domain => Buf.snprintf "home.example".toList

/-- A service without a user name is reported with the one of the service before it. -/
theorem username_leaks :
    ¬ (Right (boot fun _ => none) ∧ Throughout step Right (boot fun _ => none)
      [.setService (service "dyndns".toList "bob".toList),
        .setService (service "tzo".toList [])]) := by
  intro h
  obtain ⟨-, h₁, hstep₁, -, h₂, hstep₂, hright, -⟩ := h
  obtain rfl := Option.some.inj hstep₁
  obtain rfl := Option.some.inj hstep₂
  have hreport := congrArg (fun e => (e.text .Username).text) (hright 1).2.1
  exact absurd hreport (by decide)

end CcspPandM.DdnsServices
