import CcspPandM.KeyStore
import CcspPandM.Runs
import CcspPandM.WordSplit

/-!
The member records of the bridges: one PSM text of names between blanks for each
kind of link. Names are compared without regard to case. A record is read into a
buffer of 256 bytes, a name is appended to it there, and a removal writes the other
names, each behind a blank, into a second buffer of that size.
-/
namespace CcspPandM.BridgeMembers

open CString KeyStore Runs WordSplit

/-- `DMSB_DELIM` -/
def delim (c : Char) : Bool := c = ' '

/-- What a buffer of 256 bytes holds; past its end nothing is defined. -/
def strcat (t : CStr) : Option CStr := if t.length < 256 then some t else none

/-- The list afterwards, where the token is new. -/
def _COSA_AddToken (token pStr : CStr) : Option (Option CStr) :=
  if pStr = [] then (strcat token).map some
  else if (words delim pStr).any fun result => strcaseeq result token then some none
  else (strcat (pStr ++ ' ' :: token)).map some

/-- The names that a removal keeps. -/
def others (token : CStr) (members : List CStr) : List CStr :=
  members.filter fun result => !strcaseeq result token

/-- The buffer is filled before it is known whether the token is there. -/
def _COSA_DelToken (token pStr : CStr) : Option (Option CStr) :=
  (strcat ((others token (words delim pStr)).flatMap fun result => ' ' :: result)).map fun pBuf =>
    if (words delim pStr).any fun result => strcaseeq result token then some pBuf else none

abbrev Psm := Store CStr CStr

/-- A record that is missing or too long leaves the buffer empty. -/
def _Psm_GetBPortMemberList (psm : Psm) (path : CStr) : CStr :=
  ((psm path).bind strcat).getD []

def _COSA_AddBPortMember (path name : CStr) (psm : Psm) : Option (Bool × Psm) :=
  (_COSA_AddToken name (_Psm_GetBPortMemberList psm path)).map fun
    | some list => (true, set psm path list)
    | none => (false, psm)

def _COSA_RemoveBPortMember (path name : CStr) (psm : Psm) : Option (Bool × Psm) :=
  (_COSA_DelToken name (_Psm_GetBPortMemberList psm path)).map fun
    | some list => (true, set psm path list)
    | none => (false, psm)

/-- A link name: not empty and without blanks. -/
structure Name where
  text : CStr
  word : Word delim text

inductive Op where
  | add (path : CStr) (name : Name)
  | remove (path : CStr) (name : Name)

def step (psm : Psm) : Op → Option Psm
  | .add path name => (_COSA_AddBPortMember path name.text psm).map Prod.snd
  | .remove path name => (_COSA_RemoveBPortMember path name.text psm).map Prod.snd

def members (psm : Psm) (path : CStr) : List CStr := words delim ((psm path).getD [])

def memberStep (m : CStr → List CStr) : Op → CStr → List CStr
  | .add path name =>
    if (m path).any fun x => strcaseeq x name.text then m
    else Function.update m path (m path ++ [name.text])
  | .remove path name => Function.update m path (others name.text (m path))

def Right (psm : Psm) (op : Op) (psm' : Psm) : Prop := members psm' = memberStep (members psm) op

/-- A new name fits behind the record, and the names that stay fit with a blank
in front of each. -/
def Ok (psm : Psm) : Op → Prop
  | .add path name =>
    let list := (psm path).getD []
    (members psm path).any (fun x => strcaseeq x name.text) = true ∨
      (if list = [] then name.text else list ++ ' ' :: name.text).length < 256
  | .remove path name =>
    ((others name.text (members psm path)).flatMap fun x => ' ' :: x).length < 256

def Short (psm : Psm) : Prop := ∀ path list, psm path = some list → list.length < 256

/-- No name stands twice in a record, in whatever case. -/
def Single (psm : Psm) : Prop :=
  ∀ path, (members psm path).Pairwise fun x y => strcaseeq x y = false

section Steps

variable {psm : Psm}

theorem members_set (psm : Psm) (path list : CStr) :
    members (set psm path list) = Function.update (members psm) path (words delim list) := by
  funext q
  by_cases h : q = path
  · rw [h, Function.update_self, members, set_self, Option.getD_some]
  · rw [Function.update_of_ne h, members, members, set_of_ne psm list h]

theorem update_members (path : CStr) {m : CStr → List CStr} {l : List CStr} (h : m path = l) :
    Function.update m path l = m := by
  rw [← h]
  exact Function.update_eq_self path m

theorem short_set (h : Short psm) {path list : CStr} (hl : list.length < 256) :
    Short (set psm path list) := by
  intro q v hv
  by_cases hq : q = path
  · rw [hq, set_self] at hv
    rwa [← Option.some.inj hv]
  · rw [set_of_ne psm list hq] at hv
    exact h q v hv

variable (h : Short psm)

include h

theorem read_short (path : CStr) : _Psm_GetBPortMemberList psm path = (psm path).getD [] := by
  rw [_Psm_GetBPortMemberList]
  cases hv : psm path with
  | none => rfl
  | some v =>
    rw [Option.bind_some, strcat, if_pos (h path v hv)]

/-- An addition has a result, the right one, exactly when the new name fits. -/
theorem add_cases (path : CStr) (name : Name) :
    (¬Ok psm (.add path name) ∧ step psm (.add path name) = none) ∨
      Ok psm (.add path name) ∧ ∃ t, step psm (.add path name) = some t ∧
        Right psm (.add path name) t ∧ Short t := by
  have hmembers : members psm path = words delim ((psm path).getD []) := rfl
  rw [step, _COSA_AddBPortMember, read_short h, _COSA_AddToken, Ok, hmembers]
  generalize hlist : (psm path).getD [] = list at hmembers
  by_cases hany : (words delim list).any (fun x => strcaseeq x name.text) = true
  · have hne : list ≠ [] := by
      rintro rfl
      cases hany
    rw [if_neg hne, if_neg hne, if_pos hany]
    refine .inr ⟨.inl hany, psm, rfl, ?_, h⟩
    rw [Right, memberStep, hmembers, if_pos hany]
  · rw [if_neg hany, or_iff_right hany]
    have hwords : words delim (if list = [] then name.text else list ++ ' ' :: name.text) =
        words delim list ++ [name.text] := by
      split
      · rename_i hnil
        rw [hnil, words_last name.word]
        rfl
      · exact words_snoc rfl name.word list
    have hstep : (if list = [] then (strcat name.text).map some
        else (strcat (list ++ ' ' :: name.text)).map some) =
          (strcat (if list = [] then name.text else list ++ ' ' :: name.text)).map some := by
      split <;> rfl
    rw [hstep]
    generalize (if list = [] then name.text else list ++ ' ' :: name.text) = new at hwords
    rw [strcat]
    by_cases hfits : new.length < 256
    · rw [if_pos hfits]
      refine .inr ⟨hfits, set psm path new, rfl, ?_, short_set h hfits⟩
      rw [Right, memberStep, hmembers, if_neg hany, members_set, hwords]
    · rw [if_neg hfits]
      exact .inl ⟨hfits, rfl⟩

/-- A removal has a result, the right one, exactly when the other names fit. -/
theorem remove_cases (path : CStr) (name : Name) :
    (¬Ok psm (.remove path name) ∧ step psm (.remove path name) = none) ∨
      Ok psm (.remove path name) ∧ ∃ t, step psm (.remove path name) = some t ∧
        Right psm (.remove path name) t ∧ Short t := by
  have hmembers : members psm path = words delim ((psm path).getD []) := rfl
  rw [step, _COSA_RemoveBPortMember, read_short h, _COSA_DelToken, Ok, hmembers]
  generalize (psm path).getD [] = list at hmembers
  have hwords : words delim ((others name.text (words delim list)).flatMap fun x => ' ' :: x) =
      others name.text (words delim list) :=
    words_flatMap rfl fun w hw => word_of_mem_words (List.mem_filter.mp hw).1
  generalize ((others name.text (words delim list)).flatMap fun x => ' ' :: x) = new at hwords
  rw [strcat]
  by_cases hfits : new.length < 256
  · rw [if_pos hfits]
    refine .inr ⟨hfits, ?_⟩
    by_cases hany : (words delim list).any (fun x => strcaseeq x name.text) = true
    · refine ⟨set psm path new, by simp [hany], ?_, short_set h hfits⟩
      rw [Right, memberStep, hmembers, members_set, hwords]
    · refine ⟨psm, by simp [hany], ?_, h⟩
      have hsame : others name.text (words delim list) = words delim list := by
        refine List.filter_eq_self.mpr fun x hx => ?_
        rw [Bool.not_eq_true', Bool.eq_false_iff]
        exact fun heq => hany (List.any_eq_true.mpr ⟨x, hx, heq⟩)
      rw [Right, memberStep, hmembers]
      exact (update_members path (hmembers.trans hsame.symm)).symm
  · rw [if_neg hfits]
    exact .inl ⟨hfits, rfl⟩

theorem step_cases (op : Op) : (¬Ok psm op ∧ step psm op = none) ∨
    Ok psm op ∧ ∃ t, step psm op = some t ∧ Right psm op t ∧ Short t := by
  cases op with
  | add path name => exact add_cases h path name
  | remove path name => exact remove_cases h path name

end Steps

theorem single_step {psm t : Psm} {op : Op} (h : Single psm) (hr : Right psm op t) :
    Single t := by
  intro q
  rw [hr]
  cases op with
  | add path name =>
    rw [memberStep]
    split
    · exact h q
    · rename_i hany
      by_cases hq : q = path
      · rw [hq, Function.update_self]
        refine List.pairwise_append.mpr ⟨h path, List.pairwise_singleton .., fun x hx y hy => ?_⟩
        rw [List.mem_singleton.mp hy]
        exact Bool.eq_false_iff.mpr fun heq => hany (List.any_eq_true.mpr ⟨x, hx, heq⟩)
      · rw [Function.update_of_ne hq]
        exact h q
  | remove path name =>
    by_cases hq : q = path
    · rw [memberStep, hq, Function.update_self]
      exact (h path).sublist List.filter_sublist
    · rw [memberStep, Function.update_of_ne hq]
      exact h q

/-- From records that fit their buffer, every call of a run has a result and does
to the names of all records what it says if and only if each meets its condition;
records without repeated names stay so. -/
theorem names_kept_iff (psm : Psm) (hshort : Short psm) (ops : List Op) :
    (Does step Right psm ops ↔ StepsMeet step Ok psm ops) ∧
      (Single psm → StepsMeet step Ok psm ops → ∃ t, run step psm ops = some t ∧ Single t) := by
  constructor
  · refine does_iff step Short (fun s a hs _ => ?_) (fun s a t hs _ hok ht => ?_) hshort
      (stepsMeet_true step psm ops)
    · rcases step_cases hs a with ⟨hnot, hnone⟩ | ⟨hok, t, ht, hright, -⟩
      · refine iff_of_false ?_ hnot
        rintro ⟨t, ht, -⟩
        rw [hnone] at ht
        cases ht
      · exact iff_of_true ⟨t, ht, hright⟩ hok
    · obtain ⟨hnot, -⟩ | ⟨-, u, hu, -, hfits⟩ := step_cases hs a
      · exact absurd hok hnot
      · rwa [Option.some.inj (ht.symm.trans hu)]
  · intro hsingle hok
    induction ops generalizing psm with
    | nil => exact ⟨psm, rfl, hsingle⟩
    | cons a ops ih =>
      obtain ⟨hnot, -⟩ | ⟨-, u, hu, hright, hfits⟩ := step_cases hshort a
      · exact absurd hok.1 hnot
      · obtain ⟨t, ht, hend⟩ := ih u hfits (single_step hsingle hright) (hok.2 u hu)
        exact ⟨t, by rw [run_cons, hu]; exact ht, hend⟩

def link0 : Name := ⟨"link0".toList, by decide, forall_false_of_any (by decide)⟩

theorem names_kept_link0 : Does step Right (fun _ => none) [.add "Link".toList link0] :=
  (names_kept_iff (fun _ => none) (fun _ _ h => by cases h) _).1.mpr
    ⟨Or.inr (by decide +kernel), fun _ _ => trivial⟩

end CcspPandM.BridgeMembers
