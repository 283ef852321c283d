import CcspPandM.CString
import CcspPandM.KeyedList
import CcspPandM.Runs
import CcspPandM.StoreSlots

/-!
The VLAN terminations and the kernel devices they stand for. `vconfig` and `ip`
act on devices by name; which names `vconfig` can make is a parameter. Two entries
may name one device, an added entry is never raised, a name too long for the
buffer is raised but not stored, and a full table is shifted past its end.
-/
namespace CcspPandM.VlanTermination

open CString KeyStore StoreSlots Runs

abbrev ULONG := BitVec 32

def MAXINSTANCE : ℕ := 128

structure COSA_DML_ETH_VLAN_TERMINATION_CFG where
  InstanceNumber : ULONG
  Alias : Buf 512
  bEnabled : Bool
  LowerLayers : Buf 512
  EthLinkName : Buf 512
  VLANID : ULONG
  deriving DecidableEq

abbrev Cfg := COSA_DML_ETH_VLAN_TERMINATION_CFG

namespace COSA_DML_ETH_VLAN_TERMINATION_CFG

variable (c : Cfg)

/-- `"%s.%lu"` -/
def name : CStr := c.EthLinkName.text ++ '.' :: decimal c.VLANID.toNat

/-- The device of an entry with a link and a VLAN id. -/
def device : Option CStr := if c.EthLinkName.text ≠ [] ∧ c.VLANID ≠ 0 then some c.name else none

end COSA_DML_ETH_VLAN_TERMINATION_CFG

/-- Which devices there are, and whether they are up. -/
abbrev Kernel := Store CStr Bool

inductive AnscStatus where
  | SUCCESS
  | FAILURE
  | CANT_FIND
  deriving DecidableEq

structure State where
  g_EthernetVlanTermination : ℕ → Cfg
  g_EthernetVlanTerminationNum : ℕ
  kernel : Kernel

def State.entries (s : State) : List Cfg :=
  (List.range s.g_EthernetVlanTerminationNum).map s.g_EthernetVlanTermination

def numberIs (n : ULONG) (e : Cfg) : Bool := e.InstanceNumber = n

def State.getVlanTermination (s : State) (ulInstanceNumber : ULONG) : Option ℕ :=
  s.entries.findIdx? (numberIs ulInstanceNumber)

section Calls

-- the names that `vconfig` can make
variable (creates : CStr → Bool)

def vconfigAdd (d : CStr) (k : Kernel) : Kernel :=
  if creates d && (k d).isNone then set k d false else k

def vconfigRem (d : CStr) (k : Kernel) : Kernel := unset k d

def ipLinkSet (d : CStr) (up : Bool) (k : Kernel) : Kernel :=
  Function.update k d ((k d).map fun _ => up)

/-- The commands for a new entry. -/
def addOf (raised : Bool) (c : Cfg) (k : Kernel) : Kernel :=
  match c.device with
  | some d =>
    if raised then ipLinkSet d true (vconfigAdd creates d k) else vconfigAdd creates d k
  | none => k

/-- The command for an entry that goes. -/
def remOf (e : Cfg) (k : Kernel) : Kernel :=
  match e.device with
  | some d => vconfigRem d k
  | none => k

/-- The command that raises the device is formatted and not run. -/
def CosaDmlEthVlanTerminationAddEntry (pEntry : Cfg) (s : State) : AnscStatus × State :=
  if s.g_EthernetVlanTerminationNum < MAXINSTANCE then
    (.SUCCESS,
      { g_EthernetVlanTermination :=
          Function.update s.g_EthernetVlanTermination s.g_EthernetVlanTerminationNum pEntry
        g_EthernetVlanTerminationNum := s.g_EthernetVlanTerminationNum + 1
        kernel := addOf creates false pEntry s.kernel })
  else (.FAILURE, s)

/-- The first copy past the array has no defined result. -/
def CosaDmlEthVlanTerminationDelEntry (ulInstanceNumber : ULONG) (s : State) :
    Option (AnscStatus × State) :=
  match s.getVlanTermination ulInstanceNumber with
  | none => some (.CANT_FIND, s)
  | some i =>
    if s.g_EthernetVlanTerminationNum < MAXINSTANCE then
      some (.SUCCESS,
        { g_EthernetVlanTermination := shiftArray i (s.g_EthernetVlanTerminationNum - i)
            s.g_EthernetVlanTermination
          g_EthernetVlanTerminationNum := s.g_EthernetVlanTerminationNum - 1
          kernel := remOf (s.g_EthernetVlanTermination i) s.kernel })
    else none

def renamed (e c : Cfg) : Bool :=
  e.EthLinkName.text ≠ c.EthLinkName.text || e.VLANID ≠ c.VLANID

def CosaDmlEthVlanTerminationSetCfg (pCfg : Cfg) (s : State) : AnscStatus × State :=
  match s.getVlanTermination pCfg.InstanceNumber with
  | none => (.CANT_FIND, s)
  | some i =>
    let pEntry := s.g_EthernetVlanTermination i
    let copied := Function.update s.g_EthernetVlanTermination i pCfg
    if renamed pEntry pCfg then
      (.SUCCESS, { s with
        g_EthernetVlanTermination := copied
        kernel := addOf creates pCfg.bEnabled pCfg (remOf pEntry s.kernel) })
    else if !pEntry.bEnabled && pCfg.bEnabled then
      let k := ipLinkSet pCfg.name true s.kernel
      if pCfg.name.length < 256 then
        (.SUCCESS, { s with g_EthernetVlanTermination := copied, kernel := k })
      else (.FAILURE, { s with kernel := k })
    else if pEntry.bEnabled && !pCfg.bEnabled then
      (.SUCCESS, { s with
        g_EthernetVlanTermination := copied
        kernel := ipLinkSet pCfg.name false s.kernel })
    else (.SUCCESS, { s with g_EthernetVlanTermination := copied })

inductive Op where
  | add (pEntry : Cfg)
  | set (pCfg : Cfg)
  | del (ulInstanceNumber : ULONG)

def step (s : State) : Op → Option State
  | .add pEntry => some (CosaDmlEthVlanTerminationAddEntry creates pEntry s).2
  | .set pCfg => some (CosaDmlEthVlanTerminationSetCfg creates pCfg s).2
  | .del n => (CosaDmlEthVlanTerminationDelEntry n s).map Prod.snd

end Calls

/-- What the calls mean for the list of entries. -/
def listStep (l : List Cfg) : Op → List Cfg
  | .add c => if l.length < MAXINSTANCE then l ++ [c] else l
  | .set c => ((l.findIdx? (numberIs c.InstanceNumber)).map fun i => l.set i c).getD l
  | .del n => l.eraseP (numberIs n)

/-- The devices are those of the entries, up when enabled. -/
structure Shows (l : List Cfg) (k : Kernel) : Prop where
  owned : ∀ d, (k d).isSome → ∃ e ∈ l, e.device = some d
  state : ∀ e ∈ l, ∀ d, e.device = some d → k d = some e.bEnabled

structure Right (s : State) (op : Op) (t : State) : Prop where
  entries : t.entries = listStep s.entries op
  devices : Shows t.entries t.kernel

/-- No other entry has the device of this one. -/
def Alone (e : Cfg) (l : List Cfg) : Prop := ∀ x ∈ l, ∀ d, e.device = some d → x.device ≠ some d

/-- The device can be made, entries that have it already agree, and if it is to
be up then it was or is raised. -/
def Joins (creates : CStr → Bool) (raised : Bool) (c : Cfg) (l : List Cfg) : Prop :=
  ∀ d, c.device = some d → creates d = true ∧
    (∀ x ∈ l, x.device = some d → x.bEnabled = c.bEnabled) ∧
    (c.bEnabled = true → raised = true ∨ ∃ x ∈ l, x.device = some d)

open COSA_DML_ETH_VLAN_TERMINATION_CFG (name device)

section Names

variable {e c : Cfg} {d : CStr}

theorem name_inj (h : c.name = e.name) :
    c.EthLinkName.text = e.EthLinkName.text ∧ c.VLANID = e.VLANID := by
  have hdot (n : ℕ) (t r : CStr) : decimal n ≠ t ++ '.' :: r := fun hn =>
    absurd (isDigit_of_mem_decimal (n := n) (c := '.') (by rw [hn]; simp)) (by decide)
  have hsplit {s t : CStr} {m n : ℕ} (hst : s ++ '.' :: decimal m = t ++ '.' :: decimal n) :
      s = t ∧ m = n := by
    rcases List.append_eq_append_iff.mp hst with ⟨r, rfl, hr⟩ | ⟨r, rfl, hr⟩
    · cases r with
      | nil => exact ⟨by simp, decimal_injective (List.cons.inj hr).2⟩
      | cons x r => exact absurd (List.cons.inj hr).2 (hdot _ _ _)
    · cases r with
      | nil => exact ⟨by simp, (decimal_injective (List.cons.inj hr).2).symm⟩
      | cons x r => exact absurd (List.cons.inj hr).2 (hdot _ _ _)
  obtain ⟨hlink, hid⟩ := hsplit h
  exact ⟨hlink, BitVec.eq_of_toNat_eq hid⟩

theorem name_of_device (h : c.device = some d) : c.name = d := by
  rw [device] at h
  split at h
  · exact Option.some.inj h
  · cases h

theorem device_congr (h : c.name = e.name) : c.device = e.device := by
  obtain ⟨hlink, hid⟩ := name_inj h
  rw [device, device, h, hlink, hid]

theorem renamed_iff : renamed e c = true ↔ e.name ≠ c.name := by
  rw [renamed, Bool.or_eq_true, decide_eq_true_eq, decide_eq_true_eq]
  constructor
  · intro h hname
    obtain ⟨hlink, hid⟩ := name_inj hname
    rcases h with h | h
    · exact h hlink
    · exact h hid
  · intro h
    by_contra hsame
    rw [not_or, not_not, not_not] at hsame
    apply h
    rw [name, name, hsame.1, hsame.2]

end Names

section Devices

variable {creates : CStr → Bool} {e c : Cfg} {o l : List Cfg} {k : Kernel}

theorem remOf_apply (e : Cfg) (k : Kernel) (d : CStr) :
    remOf e k d = if e.device = some d then none else k d := by
  rw [remOf]
  cases he : e.device with
  | none => rfl
  | some d' =>
    by_cases hd : d' = d
    · rw [if_pos (by rw [hd]), hd]
      exact unset_self k d
    · rw [if_neg (by simpa using hd)]
      exact unset_of_ne k (Ne.symm hd)

theorem addOf_of_ne {d : CStr} (h : c.device ≠ some d) (r : Bool) (k : Kernel) :
    addOf creates r c k d = k d := by
  rw [addOf]
  cases hc : c.device with
  | none => rfl
  | some d' =>
    have hne : d ≠ d' := fun hd => h (by rw [hc, hd])
    have hadd : vconfigAdd creates d' k d = k d := by
      rw [vconfigAdd]
      split
      · exact set_of_ne k false hne
      · rfl
    cases r with
    | true =>
      change ipLinkSet d' true (vconfigAdd creates d' k) d = k d
      rw [ipLinkSet, Function.update_of_ne hne, hadd]
    | false => exact hadd

theorem addOf_self {d : CStr} (h : c.device = some d) (r : Bool) (k : Kernel) :
    addOf creates r c k d = ((k d).or (if creates d then some false else none)).map (r || ·) := by
  have hadd : vconfigAdd creates d k d = (k d).or (if creates d then some false else none) := by
    rw [vconfigAdd]
    cases hk : k d <;> cases creates d <;> simp [hk]
  rw [addOf, h]
  cases r with
  | true =>
    change ipLinkSet d true (vconfigAdd creates d k) d = _
    rw [ipLinkSet, Function.update_self, hadd]
    simp
  | false =>
    change vconfigAdd creates d k d = _
    rw [hadd]
    simp

theorem shows_perm {l l' : List Cfg} (h : l.Perm l') : Shows l k ↔ Shows l' k := by
  have hmem (l l' : List Cfg) (hp : l.Perm l') (hs : Shows l k) : Shows l' k := by
    refine ⟨fun d hd => ?_, fun e he => hs.state e (hp.mem_iff.mpr he)⟩
    obtain ⟨e, he, hdev⟩ := hs.owned d hd
    exact ⟨e, hp.mem_iff.mp he, hdev⟩
  exact ⟨hmem l l' h, hmem l' l h.symm⟩

/-- Removing the device is right exactly when no other entry has it. -/
theorem shows_remOf (h : Shows (e :: o) k) : Shows o (remOf e k) ↔ Alone e o := by
  constructor
  · intro hs x hx d he hxd
    have hstate := hs.state x hx d hxd
    rw [remOf_apply, if_pos he] at hstate
    cases hstate
  · intro halone
    refine ⟨fun d hd => ?_, fun x hx d hxd => ?_⟩
    · rw [remOf_apply] at hd
      split at hd
      · cases hd
      · rename_i hne
        obtain ⟨y, hy, hyd⟩ := h.owned d hd
        rcases List.mem_cons.mp hy with rfl | hy
        · exact absurd hyd hne
        · exact ⟨y, hy, hyd⟩
    · rw [remOf_apply, if_neg fun he => halone x hx d he hxd]
      exact h.state x (List.mem_cons_of_mem e hx) d hxd

def Made (creates : CStr → Bool) (k : Kernel) : Prop := ∀ d, (k d).isSome → creates d = true

theorem made_remOf (h : Made creates k) (e : Cfg) : Made creates (remOf e k) := by
  intro d hd
  rw [remOf_apply] at hd
  split at hd
  · cases hd
  · exact h d hd

theorem made_addOf (h : Made creates k) (r : Bool) (c : Cfg) :
    Made creates (addOf creates r c k) := by
  intro d hd
  by_cases hc : c.device = some d
  · rw [addOf_self hc, Option.isSome_map] at hd
    cases hk : k d with
    | some b => exact h d (by rw [hk]; rfl)
    | none =>
      by_contra hno
      rw [hk, if_neg hno] at hd
      cases hd
  · rw [addOf_of_ne hc] at hd
    exact h d hd

theorem made_ipLinkSet (h : Made creates k) (n : CStr) (up : Bool) :
    Made creates (ipLinkSet n up k) := by
  intro d hd
  by_cases hdn : d = n
  · rw [hdn, ipLinkSet, Function.update_self, Option.isSome_map] at hd
    rw [hdn]
    exact h n hd
  · rw [ipLinkSet, Function.update_of_ne hdn] at hd
    exact h d hd

/-- Making the device is right exactly when the new entry joins the others. -/
theorem shows_addOf (h : Shows o k) (hmade : Made creates k) {r : Bool}
    (hr : r = true → c.bEnabled = true) :
    Shows (c :: o) (addOf creates r c k) ↔ Joins creates r c o := by
  constructor
  · intro hs d hc
    have hown := hs.state c List.mem_cons_self d hc
    rw [addOf_self hc] at hown
    refine ⟨?_, fun x hx hxd => ?_, fun hon => ?_⟩
    · cases hk : k d with
      | some b => exact hmade d (by rw [hk]; rfl)
      | none =>
        rw [hk] at hown
        by_contra hno
        rw [if_neg hno] at hown
        cases hown
    · have hother := hs.state x (List.mem_cons_of_mem c hx) d hxd
      rw [addOf_self hc, hown] at hother
      exact (Option.some.inj hother).symm
    · cases r with
      | true => exact .inl rfl
      | false =>
        refine .inr (h.owned d ?_)
        rw [hon] at hown
        cases hk : k d with
        | some b => rfl
        | none =>
          rw [hk] at hown
          cases hcr : creates d <;> rw [hcr] at hown <;> cases hown
  · intro hjoin
    refine ⟨fun d hd => ?_, fun x hx d hxd => ?_⟩
    · by_cases hc : c.device = some d
      · exact ⟨c, List.mem_cons_self, hc⟩
      · rw [addOf_of_ne hc] at hd
        obtain ⟨y, hy, hyd⟩ := h.owned d hd
        exact ⟨y, List.mem_cons_of_mem c hy, hyd⟩
    · by_cases hc : c.device = some d
      · obtain ⟨hcreates, hagree, hup⟩ := hjoin d hc
        have hflag : x.bEnabled = c.bEnabled := by
          rcases List.mem_cons.mp hx with rfl | hx
          · rfl
          · exact hagree x hx hxd
        have hvalue : (r || (k d).getD false) = c.bEnabled := by
          cases hk : k d with
          | some b =>
            obtain ⟨y, hy, hyd⟩ := h.owned d (by rw [hk]; rfl)
            have hb := h.state y hy d hyd
            rw [hk, hagree y hy hyd] at hb
            rw [Option.getD_some, Option.some.inj hb]
            cases r with
            | true => exact (hr rfl).symm
            | false => rfl
          | none =>
            cases r with
            | true => exact (hr rfl).symm
            | false =>
              refine (Bool.eq_false_iff.mpr fun hon => ?_).symm
              obtain hr | ⟨y, hy, hyd⟩ := hup hon
              · cases hr
              · have hb := h.state y hy d hyd
                rw [hk] at hb
                cases hb
        rw [addOf_self hc, hflag, ← hvalue, hcreates]
        cases k d <;> rfl
      · rw [addOf_of_ne hc]
        rcases List.mem_cons.mp hx with rfl | hx
        · exact absurd hxd hc
        · exact h.state x hx d hxd

/-- Raising or lowering the device is right exactly when no other entry has it. -/
theorem shows_ipLinkSet (h : Shows (e :: o) k) (hname : c.name = e.name)
    (hflag : e.bEnabled ≠ c.bEnabled) :
    Shows (c :: o) (ipLinkSet c.name c.bEnabled k) ↔ Alone e o := by
  have hdevice := device_congr hname
  have hself (d : CStr) (hc : c.device = some d) :
      ipLinkSet c.name c.bEnabled k d = some c.bEnabled := by
    rw [← name_of_device hc, ipLinkSet, Function.update_self, name_of_device hc,
      h.state e List.mem_cons_self d (hdevice.symm.trans hc)]
    rfl
  constructor
  · intro hs x hx d he hxd
    have hbefore := h.state x (List.mem_cons_of_mem e hx) d hxd
    rw [h.state e List.mem_cons_self d he] at hbefore
    have hafter := hs.state x (List.mem_cons_of_mem c hx) d hxd
    rw [hself d (hdevice.trans he), ← hbefore] at hafter
    exact hflag (Option.some.inj hafter).symm
  · intro halone
    refine ⟨fun d hd => ?_, fun x hx d hxd => ?_⟩
    · have hsome : (k d).isSome := by
        by_cases hd' : d = c.name
        · rw [hd', ipLinkSet, Function.update_self, Option.isSome_map] at hd
          rw [hd']
          exact hd
        · rwa [ipLinkSet, Function.update_of_ne hd'] at hd
      obtain ⟨y, hy, hyd⟩ := h.owned d hsome
      rcases List.mem_cons.mp hy with rfl | hy
      · exact ⟨c, List.mem_cons_self, hdevice.trans hyd⟩
      · exact ⟨y, List.mem_cons_of_mem c hy, hyd⟩
    · rcases List.mem_cons.mp hx with rfl | hx
      · exact hself d hxd
      · have hne : d ≠ c.name := by
          intro hd
          have hsame : x.device = e.device :=
            device_congr ((name_of_device hxd).trans (hd.trans hname))
          exact halone x hx d (hsame.symm.trans hxd) hxd
        rw [ipLinkSet, Function.update_of_ne hne]
        exact h.state x (List.mem_cons_of_mem e hx) d hxd

theorem shows_same (h : Shows (e :: o) k) (hname : c.name = e.name)
    (hflag : e.bEnabled = c.bEnabled) : Shows (c :: o) k := by
  have hdevice := device_congr hname
  refine ⟨fun d hd => ?_, List.forall_mem_cons.mpr ⟨fun d hc => ?_, fun x hx => ?_⟩⟩
  · obtain ⟨y, hy, hyd⟩ := h.owned d hd
    rcases List.mem_cons.mp hy with rfl | hy
    · exact ⟨c, List.mem_cons_self, hdevice.trans hyd⟩
    · exact ⟨y, List.mem_cons_of_mem c hy, hyd⟩
  · rw [← hflag]
    exact h.state e List.mem_cons_self d (hdevice.symm.trans hc)
  · exact h.state x (List.mem_cons_of_mem e hx)

/-- A change of name is right exactly when the old device was the entry's alone
and the new one joins. -/
theorem shows_rename (h : Shows (e :: o) k) (hmade : Made creates k)
    (hname : e.name ≠ c.name) :
    Shows (c :: o) (addOf creates c.bEnabled c (remOf e k)) ↔
      Alone e o ∧ Joins creates c.bEnabled c o := by
  have hmade' := made_remOf hmade e
  constructor
  · intro hs
    have halone : Alone e o := by
      intro x hx d he hxd
      have hstate := hs.state x (List.mem_cons_of_mem c hx) d hxd
      have hc : c.device ≠ some d := fun hc =>
        hname ((name_of_device he).trans (name_of_device hc).symm)
      rw [addOf_of_ne hc, remOf_apply, if_pos he] at hstate
      cases hstate
    exact ⟨halone, (shows_addOf ((shows_remOf h).mpr halone) hmade' id).mp hs⟩
  · rintro ⟨halone, hjoin⟩
    exact (shows_addOf ((shows_remOf h).mpr halone) hmade' id).mpr hjoin

end Devices

section Steps

variable {creates : CStr → Bool} {s : State}

theorem length_entries : s.entries.length = s.g_EthernetVlanTerminationNum := by
  simp [State.entries]

theorem entries_at {i : ℕ} {n : ULONG} (h : s.getVlanTermination n = some i) :
    i < s.g_EthernetVlanTerminationNum ∧
      s.entries[i]? = some (s.g_EthernetVlanTermination i) := by
  obtain ⟨hi, -⟩ := List.findIdx?_eq_some_iff_getElem.mp h
  rw [length_entries] at hi
  refine ⟨hi, ?_⟩
  rw [State.entries, List.getElem?_map, List.getElem?_range hi]
  rfl

/-- What the calls keep: the table is in its array and every device was made. -/
structure Inv (creates : CStr → Bool) (s : State) : Prop where
  room : s.entries.length ≤ MAXINSTANCE
  shown : Shows s.entries s.kernel
  made : Made creates s.kernel

/-- The condition on a change of entry i, where o are the others. -/
def SetOk (creates : CStr → Bool) (e c : Cfg) (o : List Cfg) : Prop :=
  if renamed e c then Alone e o ∧ Joins creates c.bEnabled c o
  else e.bEnabled = c.bEnabled ∨ (Alone e o ∧ (c.bEnabled = true → c.name.length < 256))

def Ok (creates : CStr → Bool) (s : State) : Op → Prop
  | .add c => s.entries.length < MAXINSTANCE → Joins creates false c s.entries
  | .set c => ∀ i, s.getVlanTermination c.InstanceNumber = some i →
      SetOk creates (s.g_EthernetVlanTermination i) c (s.entries.eraseIdx i)
  | .del n => ∀ i, s.getVlanTermination n = some i →
      Alone (s.g_EthernetVlanTermination i) (s.entries.eraseIdx i) ∧
        s.entries.length < MAXINSTANCE

variable (h : Inv creates s)

include h

theorem add_right_iff (c : Cfg) :
    Right s (.add c) (CosaDmlEthVlanTerminationAddEntry creates c s).2 ↔ Ok creates s (.add c) := by
  rw [CosaDmlEthVlanTerminationAddEntry, Ok, ← length_entries]
  by_cases hroom : s.entries.length < MAXINSTANCE
  · rw [if_pos hroom, imp_iff_right hroom, ← shows_addOf h.shown h.made (by simp)]
    have hentries : State.entries
        ⟨Function.update s.g_EthernetVlanTermination s.entries.length c, s.entries.length + 1,
          addOf creates false c s.kernel⟩ = s.entries ++ [c] := by
      rw [length_entries]
      exact map_range_push _ _ c
    have hperm : (s.entries ++ [c]).Perm (c :: s.entries) := List.perm_append_singleton c s.entries
    constructor
    · intro hr
      rw [← shows_perm hperm, ← hentries]
      exact hr.devices
    · intro hs
      refine ⟨hentries.trans (if_pos hroom).symm, ?_⟩
      rw [hentries]
      exact (shows_perm hperm).mpr hs
  · rw [if_neg hroom]
    exact iff_of_true ⟨(if_neg hroom).symm, h.shown⟩ fun hlt => absurd hlt hroom

theorem del_right_iff (n : ULONG) :
    (∃ t, step creates s (.del n) = some t ∧ Right s (.del n) t) ↔ Ok creates s (.del n) := by
  rw [step, CosaDmlEthVlanTerminationDelEntry, Ok]
  cases hi : s.getVlanTermination n with
  | none =>
    refine iff_of_true ⟨s, rfl, ?_, h.shown⟩ fun i hsome => by cases hsome
    have hnot := List.findIdx?_eq_none_iff.mp hi
    exact (List.eraseP_of_forall_not fun e he => Bool.eq_false_iff.mp (hnot e he)).symm
  | some i =>
    obtain ⟨hlt, hat⟩ := entries_at hi
    have hshown := (shows_perm (KeyedList.eraseIdx_perm hat)).mp h.shown
    have herase : s.entries.eraseIdx i = s.entries.eraseP (numberIs n) := by
      rw [List.eraseP_eq_eraseIdx, show s.entries.findIdx? (numberIs n) = some i from hi]
    have hshift : (List.range (s.g_EthernetVlanTerminationNum - 1)).map
        (shiftArray i (s.g_EthernetVlanTerminationNum - i) s.g_EthernetVlanTermination) =
          s.entries.eraseIdx i := by
      rw [State.entries, ← map_range_shiftArray s.g_EthernetVlanTermination hlt]
      refine List.map_congr_left fun j hj => ?_
      have hj := List.mem_range.mp hj
      rw [shiftArray_apply, shiftArray_apply]
      by_cases hij : i ≤ j
      · rw [if_pos (by omega), if_pos (by omega)]
      · rw [if_neg (by omega), if_neg (by omega)]
    rw [length_entries]
    change (∃ t, Option.map Prod.snd (if _ < MAXINSTANCE then _ else none) = some t ∧ _) ↔ _
    by_cases hroom : s.g_EthernetVlanTerminationNum < MAXINSTANCE
    · rw [if_pos hroom]
      constructor
      · rintro ⟨t, ht, hr⟩ j hj
        obtain rfl := Option.some.inj hj
        obtain rfl := Option.some.inj ht
        have hs := hr.devices
        rw [State.entries, hshift] at hs
        exact ⟨(shows_remOf hshown).mp hs, hroom⟩
      · intro hok
        refine ⟨_, rfl, hshift.trans herase, ?_⟩
        rw [State.entries, hshift]
        exact (shows_remOf hshown).mpr (hok i rfl).1
    · rw [if_neg hroom]
      refine iff_of_false ?_ fun hok => hroom (hok i rfl).2
      rintro ⟨t, ht, -⟩
      cases ht

theorem set_right_iff (c : Cfg) :
    Right s (.set c) (CosaDmlEthVlanTerminationSetCfg creates c s).2 ↔ Ok creates s (.set c) := by
  rw [CosaDmlEthVlanTerminationSetCfg, Ok]
  cases hi : s.getVlanTermination c.InstanceNumber with
  | none =>
    refine iff_of_true ⟨?_, h.shown⟩ fun i hsome => by cases hsome
    change _ = ((s.getVlanTermination c.InstanceNumber).map _).getD _
    rw [hi]
    rfl
  | some i =>
    obtain ⟨hlt, hat⟩ := entries_at hi
    have hshown := (shows_perm (KeyedList.eraseIdx_perm hat)).mp h.shown
    have hlist : listStep s.entries (.set c) = s.entries.set i c := by
      change ((s.getVlanTermination c.InstanceNumber).map _).getD _ = _
      rw [hi]
      rfl
    have hcopied (k : Kernel) : Right s (.set c) { s with
        g_EthernetVlanTermination := Function.update s.g_EthernetVlanTermination i c
        kernel := k } ↔ Shows (c :: s.entries.eraseIdx i) k := by
      have hentries : (List.range s.g_EthernetVlanTerminationNum).map
          (Function.update s.g_EthernetVlanTermination i c) = s.entries.set i c :=
        map_range_update _ _ i c
      have hperm : (s.entries.set i c).Perm (c :: s.entries.eraseIdx i) :=
        List.set_perm_cons_eraseIdx (List.getElem?_eq_some_iff.mp hat).1 c
      constructor
      · intro hr
        have hs := hr.devices
        rw [State.entries, hentries] at hs
        exact (shows_perm hperm).mp hs
      · intro hs
        refine ⟨hentries.trans hlist.symm, ?_⟩
        rw [State.entries, hentries]
        exact (shows_perm hperm).mpr hs
    have hok : (∀ j, some i = some j →
        SetOk creates (s.g_EthernetVlanTermination j) c (s.entries.eraseIdx j)) ↔
          SetOk creates (s.g_EthernetVlanTermination i) c (s.entries.eraseIdx i) :=
      ⟨fun hall => hall i rfl, fun hone j hj => Option.some.inj hj ▸ hone⟩
    rw [hok, SetOk]
    change Right s (.set c) (if renamed (s.g_EthernetVlanTermination i) c = true then _ else _ :
      AnscStatus × State).2 ↔ _
    generalize he : s.g_EthernetVlanTermination i = e at hshown ⊢
    by_cases hren : renamed e c = true
    · rw [if_pos hren, if_pos hren, hcopied]
      exact shows_rename hshown h.made (renamed_iff.mp hren)
    · rw [if_neg hren, if_neg hren]
      have hname : c.name = e.name := by
        by_contra hne
        exact hren (renamed_iff.mpr (Ne.symm hne))
      have hswitch := shows_ipLinkSet hshown hname
      cases hold : e.bEnabled <;> cases hnew : c.bEnabled
      · simp only [Bool.not_false, Bool.true_and, Bool.false_and, Bool.false_eq_true, if_false]
        rw [hcopied]
        exact iff_of_true (shows_same hshown hname (hold.trans hnew.symm)) (.inl trivial)
      · rw [hold, hnew] at hswitch
        by_cases hfits : c.name.length < 256
        · simp only [Bool.not_false, Bool.true_and, if_true, if_pos hfits]
          rw [hcopied, hswitch (by simp)]
          simp [hfits]
        · simp only [Bool.not_false, Bool.true_and, if_true, if_neg hfits]
          refine iff_of_false (fun hr => ?_) (by simp [hfits])
          have hsame : s.entries = s.entries.set i c := hr.entries.trans hlist
          have hback := congrArg (fun l => l[i]?) hsame
          rw [List.getElem?_set_self (List.getElem?_eq_some_iff.mp hat).1, hat, he] at hback
          rw [Option.some.inj hback, hnew] at hold
          cases hold
      · rw [hold, hnew] at hswitch
        simp only [Bool.not_true, Bool.not_false, Bool.false_and, Bool.true_and,
          Bool.false_eq_true, if_false, if_true]
        rw [hcopied, hswitch (by simp)]
        simp
      · simp only [Bool.not_true, Bool.false_and, Bool.and_false, Bool.false_eq_true, if_false]
        rw [hcopied]
        exact iff_of_true (shows_same hshown hname (hold.trans hnew.symm)) (.inl trivial)

theorem step_right_iff (a : Op) :
    (∃ t, step creates s a = some t ∧ Right s a t) ↔ Ok creates s a := by
  cases a with
  | add c => simpa [step] using add_right_iff h c
  | set c => simpa [step] using set_right_iff h c
  | del n => exact del_right_iff h n

theorem made_step {a : Op} {t : State} (ht : step creates s a = some t) :
    Made creates t.kernel := by
  cases a with
  | add c =>
    obtain rfl := Option.some.inj ht
    rw [CosaDmlEthVlanTerminationAddEntry]
    split
    · exact made_addOf h.made false c
    · exact h.made
  | set c =>
    obtain rfl := Option.some.inj ht
    rw [CosaDmlEthVlanTerminationSetCfg]
    split
    · exact h.made
    · dsimp only
      split_ifs
      · exact made_addOf (made_remOf h.made _) _ c
      · exact made_ipLinkSet h.made _ _
      · exact made_ipLinkSet h.made _ _
      · exact made_ipLinkSet h.made _ _
      · exact h.made
  | del n =>
    obtain ⟨r, hr, rfl⟩ := Option.map_eq_some_iff.mp ht
    rw [CosaDmlEthVlanTerminationDelEntry] at hr
    split at hr
    · obtain rfl := Option.some.inj hr
      exact h.made
    · split at hr
      · obtain rfl := Option.some.inj hr
        exact made_remOf h.made _
      · cases hr

theorem inv_step {a : Op} {t : State} (hok : Ok creates s a) (ht : step creates s a = some t) :
    Inv creates t := by
  obtain ⟨u, hu, hright⟩ := (step_right_iff h a).mpr hok
  obtain rfl := Option.some.inj (ht.symm.trans hu)
  refine ⟨?_, hright.devices, made_step h ht⟩
  have hroom := h.room
  rw [hright.entries]
  cases a with
  | add c =>
    rw [listStep]
    split
    · rw [List.length_append]
      exact ‹_ < MAXINSTANCE›
    · exact hroom
  | set c =>
    rw [listStep]
    cases s.entries.findIdx? (numberIs c.InstanceNumber) with
    | none => exact hroom
    | some i => exact (List.length_set ..).trans_le hroom
  | del n => exact (List.length_eraseP_le ..).trans hroom

end Steps

/-- From the empty table, every call does to the table what it says, and the kernel
devices are afterwards those of the entries, up exactly when enabled, if and only
if every call meets its condition: no device is shared when it is removed, raised
or lowered, a new one joins, no enabled name is too long, a full table keeps its
entries. -/
theorem devices_shown_iff (creates : CStr → Bool) (slots : ℕ → Cfg) (ops : List Op) :
    Does (step creates) Right ⟨slots, 0, fun _ => none⟩ ops ↔
      StepsMeet (step creates) (Ok creates) ⟨slots, 0, fun _ => none⟩ ops := by
  have hinit : Inv creates ⟨slots, 0, fun _ => none⟩ :=
    ⟨Nat.zero_le _, ⟨fun d hd => (by cases hd), fun e he => (by cases he)⟩, fun d hd => by cases hd⟩
  exact does_iff (step creates) (Inv creates) (fun s a hs _ => step_right_iff hs a)
    (fun s a t hs _ hok ht => inv_step hs hok ht) hinit
    (stepsMeet_true (step creates) ⟨slots, 0, fun _ => none⟩ ops)

end CcspPandM.VlanTermination
