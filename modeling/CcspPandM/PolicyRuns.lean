import CcspPandM.KeyedList
import CcspPandM.PolicyLists
import CcspPandM.Runs

/-!
What the lists of the internet-access policies should be: lists of entries keyed by
their instance numbers, one change for each operation. The packed arrays hold such
lists, and every operation changes them as it should. What goes wrong around that is
told apart by a condition on each call, exact for whole runs.
-/
namespace CcspPandM.PolicyRuns

open CString KeyStore KeyedList PackedArray PolicyLists Runs

structure PolicyView where
  tr_inst_num : ULONG
  urls : List (Entry CStr)
  keywords : List (Entry CStr)
  apps : List (Entry AppSettings)
  deriving DecidableEq, Repr

def textEntries (b : TextArrays) : List (Entry CStr) :=
  (List.range b.count).map fun i =>
    ⟨b.tr_inst_num.getD i 0, b.tr_alias.getD i [], b.list.getD i []⟩

def appCell (e : Entry AppSettings) : appentry_t :=
  ⟨e.Alias, e.value.IsWellKnown, e.value.Protocol - 1, e.value.StartPortNumber,
    e.value.EndPortNumber⟩

def appEntry (n : ULONG) (app : appentry_t) : Entry AppSettings :=
  ⟨n, app.name, ⟨app.wellknown, app.proto + 1, app.portStart, app.portEnd⟩⟩

def appEntries (B : blockentry_t) : List (Entry AppSettings) :=
  (List.range B.app_count).map fun i =>
    appEntry (B.app_tr_inst_num.getD i 0) (B.app_list.getD i default)

def policyView (p : iap_entry_t) : PolicyView :=
  ⟨p.tr_inst_num, textEntries p.block.url, textEntries p.block.keyword, appEntries p.block⟩

def view (s : State) : List PolicyView := s.g_iaps.map policyView

inductive Op (ν : Type) where
  | add (e : Entry ν)
  | set (e : Entry ν)
  | del (e : Entry ν)
  | setValues (ulIndex : ℕ) (ulInstanceNumber : ULONG) (pAlias : CStr)
  deriving DecidableEq, Repr

section Op

variable {ν : Type}

def Op.apply (l : List (Entry ν)) : Op ν → List (Entry ν)
  | .add e => l ++ [e]
  | .set e => l.map (fun x => if x.InstanceNumber = e.InstanceNumber then e else x)
  | .del e => drop Entry.InstanceNumber l e.InstanceNumber
  | .setValues i n pAlias => l.modify i (fun x => { x with InstanceNumber := n, Alias := pAlias })

def Op.Found (l : List (Entry ν)) : Op ν → Prop
  | .set e => e.InstanceNumber ∈ l.map Entry.InstanceNumber
  | .del e => e.InstanceNumber ∈ l.map Entry.InstanceNumber
  | _ => True

def Op.InRange (l : List (Entry ν)) : Op ν → Prop
  | .setValues i _ _ => i < l.length
  | _ => True

end Op

def taken (e : Entry AppSettings) : Entry AppSettings :=
  { e with value := { e.value with IsWellKnown := isWellKnownService e.Alias } }

def Op.taken : Op AppSettings → Op AppSettings
  | .add e => .add (PolicyRuns.taken e)
  | .set e => .set (PolicyRuns.taken e)
  | .del e => .del e
  | .setValues i n pAlias => .setValues i n pAlias

/-- For a well-known service nothing but the name counts. -/
def reported (e : Entry AppSettings) : Entry AppSettings :=
  { e with value := if isWellKnownService e.Alias then
      ⟨true, COSA_DML_IA_APP_PROTO_Both, 0, 0⟩ else { e.value with IsWellKnown := false } }

inductive Request where
  | url (op : Op CStr)
  | keyword (op : Op CStr)
  | app (op : Op AppSettings)
  deriving DecidableEq, Repr

def Request.apply (v : PolicyView) : Request → PolicyView
  | .url op => { v with urls := op.apply v.urls }
  | .keyword op => { v with keywords := op.apply v.keywords }
  | .app op => { v with apps := op.taken.apply v.apps }

def Request.Found (v : PolicyView) : Request → Prop
  | .url op => op.Found v.urls
  | .keyword op => op.Found v.keywords
  | .app op => op.Found v.apps

def Request.InRange (v : PolicyView) : Request → Prop
  | .url op => op.InRange v.urls
  | .keyword op => op.InRange v.keywords
  | .app op => op.InRange v.apps

def Request.opensFirst : Request → Bool
  | .url (.set _) => true
  | .url (.del _) => true
  | _ => false

structure Call where
  policy : ULONG
  io : Library
  request : Request
  deriving DecidableEq, Repr

def step (s : State) (c : Call) : Option State :=
  match c.request with
  | .url (.add e) => CosaDmlIaPolicyAddUrl c.io c.policy e s
  | .url (.set e) => CosaDmlIaPolicySetUrl c.io c.policy e s
  | .url (.del e) => CosaDmlIaPolicyDelUrl c.io c.policy e s
  | .url (.setValues i n a) => CosaDmlIaPolicySetUrlValues c.io c.policy i n a s
  | .keyword (.add e) => CosaDmlIaPolicyAddKeyword c.io c.policy e s
  | .keyword (.set e) => CosaDmlIaPolicySetKeyword c.io c.policy e s
  | .keyword (.del e) => CosaDmlIaPolicyDelKeyword c.io c.policy e s
  | .keyword (.setValues i n a) => CosaDmlIaPolicySetKeywordValues c.io c.policy i n a s
  | .app (.add e) => CosaDmlIaPolicyAddApp c.io c.policy e s
  | .app (.set e) => CosaDmlIaPolicySetBlockedApp c.io c.policy e s
  | .app (.del e) => CosaDmlIaPolicyDelBlockedApp c.io c.policy e s
  | .app (.setValues i n a) => CosaDmlIaPolicySetAppValues c.io c.policy i n a s

section Spec

variable (views : List PolicyView) (c : Call)

def findView (n : ULONG) : Option ℕ := views.findIdx? (fun v => v.tr_inst_num = n)

/-- The policy and, where the operation looks for one, the entry are there. -/
def Target : Prop := ∃ i v, findView views c.policy = some i ∧ views[i]? = some v ∧
  c.request.Found v

def applied : List PolicyView :=
  match findView views c.policy with
  | none => views
  | some i => views.modify i c.request.apply

def Distinct (v : PolicyView) : Prop :=
  (v.urls.map Entry.InstanceNumber).Nodup ∧ (v.keywords.map Entry.InstanceNumber).Nodup ∧
    (v.apps.map Entry.InstanceNumber).Nodup

/-- What a call is promised: the index is in range and the numbers stay distinct. -/
def LegalCall : Prop :=
  (∀ i v, findView views c.policy = some i → views[i]? = some v → c.request.InRange v) ∧
    ∀ v ∈ applied views c, Distinct v

/-- What the readers need to agree with the lists: the URLs share one alias and are
numbered below their count, and no keyword is numbered but by zero. -/
def Plain : Prop := ∀ n i v, findView views n = some i → views[i]? = some v →
  (∀ e ∈ v.urls, v.urls.head?.map Entry.Alias = some e.Alias ∧
    e.InstanceNumber.toNat < v.urls.length) ∧
  ∀ e ∈ v.keywords, e.InstanceNumber = 0

/-- The condition on a call: the store takes the policy and the readers will agree
with its lists; or the store cannot be opened, and the call looks at that first or
changes nothing. -/
def OkCall : Prop := Target views c →
  if c.io.Utopia_Init then c.io.Utopia_AddInternetAccessPolicy ∧ Plain (applied views c)
  else c.request.opensFirst ∨ applied views c = views

end Spec

/-- The readers give each entry of the lists, by index and by instance number. -/
def Readable (s : State) : Prop := ∀ n i v, findView (view s) n = some i → (view s)[i]? = some v →
  (∀ k e, v.urls[k]? = some e → CosaDmlIaPolicyGetUrl n s.g_iaps k = some (.ok e) ∧
    CosaDmlIaPolicyGetUrlByInsNum n s.g_iaps e.InstanceNumber = some (.ok e)) ∧
  (∀ k e, v.keywords[k]? = some e → CosaDmlIaPolicyGetKeyword n s.g_iaps k = some (.ok e) ∧
    CosaDmlIaPolicyGetKeywordByInsNum n s.g_iaps e.InstanceNumber = some (.ok e)) ∧
  ∀ k e, v.apps[k]? = some e →
    (CosaDmlIaPolicyGetApp n s.g_iaps k).map Prod.fst = some (.ok (reported e)) ∧
    (CosaDmlIaPolicyGetAppByInsNum n s.g_iaps e.InstanceNumber).map Prod.fst =
      some (.ok (reported e))

def Saved (s : State) (n : ULONG) : Prop := ∀ i p, find_ia_policy s.g_iaps n = some (i, p) →
  s.stored p.policyname = some p

def Works (s : State) (c : Call) : Prop :=
  Target (view s) c ∧ c.io.Utopia_Init ∧ c.io.Utopia_AddInternetAccessPolicy

/-- What a call should do: change its list and store the policy, or fail and change nothing. -/
structure Behaves (s : State) (c : Call) (t : State) : Prop where
  success : Works s c →
    t.returned = .success ∧ view t = applied (view s) c ∧ Saved t c.policy
  failure : ¬ Works s c → t.returned ≠ .success ∧ view t = view s
  readable : Readable t

variable {views : List PolicyView} {b : TextArrays} {s : State}

section Holds

structure HoldsText (b : TextArrays) (l : List (Entry CStr)) : Prop where
  count : b.count = l.length
  numbers : Column b.tr_inst_num Entry.InstanceNumber l
  aliases : Column b.tr_alias Entry.Alias l
  values : Column b.list Entry.value l

structure HoldsApps (app_count : ℕ) (app_tr_inst_num : List ULONG) (app_list : List appentry_t)
    (l : List (Entry AppSettings)) : Prop where
  count : app_count = l.length
  numbers : Column app_tr_inst_num Entry.InstanceNumber l
  cells : Column app_list appCell l

structure HoldsBlock (B : blockentry_t) (v : PolicyView) : Prop where
  urls : HoldsText B.url v.urls
  keywords : HoldsText B.keyword v.keywords
  apps : HoldsApps B.app_count B.app_tr_inst_num B.app_list v.apps

def HoldsPolicy (p : iap_entry_t) (v : PolicyView) : Prop :=
  p.tr_inst_num = v.tr_inst_num ∧ HoldsBlock p.block v

def Holds (g_iaps : List iap_entry_t) (views : List PolicyView) : Prop :=
  List.Forall₂ HoldsPolicy g_iaps views

def TextShaped (b : TextArrays) : Prop :=
  b.count ≤ b.tr_inst_num.length ∧ b.count ≤ b.tr_alias.length ∧ b.count ≤ b.list.length

def Shaped (p : iap_entry_t) : Prop :=
  TextShaped p.block.url ∧ TextShaped p.block.keyword ∧
    p.block.app_count ≤ p.block.app_tr_inst_num.length ∧
    p.block.app_count ≤ p.block.app_list.length

theorem appCell_appEntry (n : ULONG) (app : appentry_t) : appCell (appEntry n app) = app := by
  simp [appCell, appEntry]

theorem holds_textEntries (h : TextShaped b) : HoldsText b (textEntries b) where
  count := by simp [textEntries]
  numbers := column_range h.1 0 (fun _ _ => rfl)
  aliases := column_range h.2.1 [] (fun _ _ => rfl)
  values := column_range h.2.2 [] (fun _ _ => rfl)

theorem holds_view (h : ∀ p ∈ s.g_iaps, Shaped p) : Holds s.g_iaps (view s) := by
  rw [Holds, view, List.forall₂_map_right_iff, List.forall₂_same]
  intro p hp
  obtain ⟨hurl, hkeyword, hnumbers, hcells⟩ := h p hp
  refine ⟨rfl, holds_textEntries hurl, holds_textEntries hkeyword, by simp [policyView, appEntries],
    column_range hnumbers 0 (fun _ _ => rfl), column_range hcells default (fun i _ => ?_)⟩
  exact appCell_appEntry _ _

theorem HoldsText.textEntries_eq {l : List (Entry CStr)} (h : HoldsText b l) :
    textEntries b = l := by
  apply List.ext_getElem
  · simp [textEntries, h.count]
  · intro i hi hil
    have hn := h.numbers.getElem? hil
    have ha := h.aliases.getElem? hil
    have hv := h.values.getElem? hil
    rw [List.getElem?_eq_getElem hil, Option.map_some] at hn ha hv
    simp [textEntries, List.getD, hn, ha, hv]

theorem HoldsApps.appEntries_eq {B : blockentry_t} {l : List (Entry AppSettings)}
    (h : HoldsApps B.app_count B.app_tr_inst_num B.app_list l) : appEntries B = l := by
  apply List.ext_getElem
  · simp [appEntries, h.count]
  · intro i hi hil
    have hn := h.numbers.getElem? hil
    have hc := h.cells.getElem? hil
    rw [List.getElem?_eq_getElem hil, Option.map_some] at hn hc
    simp [appEntries, List.getD, hn, hc, appEntry, appCell]

theorem Holds.view_eq (h : Holds s.g_iaps views) :
    view s = views := by
  have heq : List.Forall₂ (fun p v => policyView p = v) s.g_iaps views := by
    refine h.imp fun p v hp => ?_
    rw [policyView, hp.1, hp.2.urls.textEntries_eq, hp.2.keywords.textEntries_eq,
      hp.2.apps.appEntries_eq]
  rw [view, ← List.forall₂_eq_eq_eq, List.forall₂_map_left_iff]
  exact heq

end Holds

variable {i : ℕ}

section Lists

variable {b : TextArrays} {l : List (Entry CStr)} {n : ℕ} {numbers : List ULONG}
  {cells : List appentry_t} {as : List (Entry AppSettings)}

theorem HoldsText.append (h : HoldsText b l) (e : Entry CStr) :
    HoldsText (b.append e) (l ++ [e]) := by
  refine ⟨by simp [TextArrays.append, h.count], ?_, ?_, ?_⟩
  · simpa only [TextArrays.append, h.count] using h.numbers.realloc_set e
  · simpa only [TextArrays.append, h.count] using h.aliases.realloc_set e
  · simpa only [TextArrays.append, h.count] using h.values.realloc_set e

theorem HoldsText.remove (h : HoldsText b l) (hi : i < l.length) :
    HoldsText (b.remove i) (l.eraseIdx i) := by
  refine ⟨?_, ?_, ?_, ?_⟩
  · rw [List.length_eraseIdx_of_lt hi, ← h.count]
    rfl
  · simpa only [TextArrays.remove, h.count] using h.numbers.moveBack hi
  · simpa only [TextArrays.remove, h.count] using h.aliases.moveBack hi
  · simpa only [TextArrays.remove, h.count] using h.values.moveBack hi

theorem column_set_same {α β : Type} {a : List α} {f : β → α} {l : List β} (h : Column a f l)
    {x y : β} (hx : l[i]? = some x) (hxy : f y = f x) : Column a f (l.set i y) := by
  refine ⟨by simpa using h.1, ?_⟩
  rw [List.length_set, h.2, List.map_set, hxy]
  exact (set_of_getElem? (by rw [List.getElem?_map, hx, Option.map_some])).symm

theorem HoldsText.write (h : HoldsText b l) {x e : Entry CStr} (hx : l[i]? = some x)
    (hnumber : e.InstanceNumber = x.InstanceNumber) : HoldsText (b.write i e) (l.set i e) :=
  ⟨by simp [TextArrays.write, h.count], column_set_same h.numbers hx hnumber,
    h.aliases.set i e, h.values.set i e⟩

theorem writeChanged_eq (b : TextArrays) (i : ℕ) (e : Entry CStr) :
    b.writeChanged i e = b.write i e := by
  have hset : ∀ (a : List CStr) (t : CStr),
      (if a[i]? = some t then a else a.set i t) = a.set i t := by
    intro a t
    split
    · next h => exact (set_of_getElem? h).symm
    · rfl
  rw [TextArrays.writeChanged, hset, hset, TextArrays.write]

theorem HoldsText.setValues (h : HoldsText b l) {x : Entry CStr} (hx : l[i]? = some x)
    (n : ULONG) (pAlias : CStr) : ∃ b', b.setValues i n pAlias = some b' ∧
      HoldsText b' (l.set i { x with InstanceNumber := n, Alias := pAlias }) := by
  obtain ⟨hi, -⟩ := List.getElem?_eq_some_iff.mp hx
  have hnumbers := h.numbers.1
  have haliases := h.aliases.1
  refine ⟨_, if_pos ⟨by omega, by omega⟩, ?_⟩
  exact ⟨by simp [h.count], h.numbers.set i { x with InstanceNumber := n, Alias := pAlias },
    h.aliases.set i { x with InstanceNumber := n, Alias := pAlias },
    column_set_same h.values hx rfl⟩

theorem HoldsApps.append (h : HoldsApps n numbers cells as) (e : COSA_DML_IA_POLICY_APP) :
    HoldsApps (n + 1) ((realloc numbers (n + 1)).set n e.InstanceNumber)
      ((realloc cells (n + 1)).set n (middle_layer_2_be_app e)) (as ++ [taken e]) := by
  rw [h.count]
  exact ⟨by simp, h.numbers.realloc_set (taken e), h.cells.realloc_set (taken e)⟩

theorem HoldsApps.remove (h : HoldsApps n numbers cells as) (hi : i < as.length) :
    HoldsApps (n - 1) (moveBack numbers i n) (moveBack cells i n) (as.eraseIdx i) := by
  rw [h.count]
  exact ⟨(List.length_eraseIdx_of_lt hi).symm, h.numbers.moveBack hi, h.cells.moveBack hi⟩

theorem HoldsApps.write (h : HoldsApps n numbers cells as) {x e : Entry AppSettings}
    (hx : as[i]? = some x) (hnumber : e.InstanceNumber = x.InstanceNumber) :
    HoldsApps n numbers (cells.set i (middle_layer_2_be_app e)) (as.set i (taken e)) :=
  ⟨by simp [h.count], column_set_same h.numbers hx hnumber, h.cells.set i (taken e)⟩

theorem HoldsApps.setValues (h : HoldsApps n numbers cells as) (i : ℕ) (x : Entry AppSettings)
    (number : ULONG) (pAlias : CStr) :
    HoldsApps n (numbers.set i number) (cells.set i { appCell x with name := pAlias })
      (as.set i { x with InstanceNumber := number, Alias := pAlias }) :=
  ⟨by simp [h.count], h.numbers.set i { x with InstanceNumber := number, Alias := pAlias },
    h.cells.set i { x with InstanceNumber := number, Alias := pAlias }⟩

end Lists

section Edits

variable {ν : Type} {l : List (Entry ν)} {i : ℕ} {x e : Entry ν}

theorem apply_set (hl : (l.map Entry.InstanceNumber).Nodup) (hx : l[i]? = some x)
    (hnumber : x.InstanceNumber = e.InstanceNumber) : (Op.set e).apply l = l.set i e := by
  rw [Op.apply, ← hnumber]
  exact map_change_eq_set hl hx (fun _ => e)

theorem apply_del (hl : (l.map Entry.InstanceNumber).Nodup) (hx : l[i]? = some x)
    (hnumber : x.InstanceNumber = e.InstanceNumber) : (Op.del e).apply l = l.eraseIdx i := by
  rw [Op.apply, ← hnumber]
  exact drop_eq_eraseIdx hl hx

theorem apply_setValues (hx : l[i]? = some x) (n : ULONG) (pAlias : CStr) :
    (Op.setValues i n pAlias).apply l =
      l.set i { x with InstanceNumber := n, Alias := pAlias } := by
  exact modify_of_getElem? hx _

theorem editFound_cases {a : List ULONG} (h : Column a Entry.InstanceNumber l)
    (hl : (l.map Entry.InstanceNumber).Nodup) (n : ULONG) (change : ℕ → blockentry_t) :
    (n ∉ l.map Entry.InstanceNumber ∧ editFound a l.length n change = .absent) ∨
      ∃ i x, l[i]? = some x ∧ x.InstanceNumber = n ∧
        editFound a l.length n change = .changed (change i) := by
  unfold editFound
  cases hsearch : search a l.length n with
  | none => exact Or.inl ⟨(h.search_eq_none_iff n).mp hsearch, rfl⟩
  | some i =>
    have hi := (h.search_eq_some_iff hl n i).mp hsearch
    rw [List.getElem?_map] at hi
    obtain ⟨x, hx, hnumber⟩ := Option.map_eq_some_iff.mp hi
    exact Or.inr ⟨i, x, hx, hnumber, rfl⟩

theorem mem_numbers (hx : l[i]? = some x) (hnumber : x.InstanceNumber = e.InstanceNumber) :
    e.InstanceNumber ∈ l.map Entry.InstanceNumber :=
  List.mem_map.mpr ⟨x, List.mem_of_getElem? hx, hnumber⟩

/-- The arrays are changed as the lists should be, if the entry is there. -/
def Edited (edit : blockentry_t → Edit) (request : Request) (v : PolicyView)
    (B : blockentry_t) : Prop :=
  (¬ request.Found v ∧ edit B = .absent) ∨
    (request.Found v ∧ ∃ B', edit B = .changed B' ∧ HoldsBlock B' (request.apply v))

variable (io : Library)

theorem url_edits (policy : ULONG) (op : Op CStr) :
    ∃ edit : blockentry_t → Edit,
      (∀ s, step s ⟨policy, io, .url op⟩ =
        editPolicy io (Request.url op).opensFirst policy edit s) ∧
      ∀ B v, HoldsBlock B v → Distinct v → op.InRange v.urls → Edited edit (.url op) v B := by
  cases op with
  | add e =>
    change ∃ edit,
      (∀ s, CosaDmlIaPolicyAddUrl io policy e s = editPolicy io false policy edit s) ∧ _
    refine ⟨_, fun _ => rfl, fun B v hB _ _ => Or.inr ⟨trivial, _, rfl, ?_⟩⟩
    exact ⟨hB.urls.append e, hB.keywords, hB.apps⟩
  | set e =>
    change ∃ edit, (∀ s, CosaDmlIaPolicySetUrl io policy e s = editPolicy io true policy edit s) ∧ _
    refine ⟨_, fun _ => rfl, fun B v hB hd _ => ?_⟩
    rw [Edited, hB.urls.count]
    rcases editFound_cases hB.urls.numbers hd.1 e.InstanceNumber _ with
      hnone | ⟨i, x, hx, hnumber, hedit⟩
    · exact Or.inl hnone
    · refine Or.inr ⟨mem_numbers hx hnumber, _, hedit, ?_, hB.keywords, hB.apps⟩
      rw [writeChanged_eq, Request.apply, apply_set hd.1 hx hnumber]
      exact hB.urls.write hx hnumber.symm
  | del e =>
    change ∃ edit, (∀ s, CosaDmlIaPolicyDelUrl io policy e s = editPolicy io true policy edit s) ∧ _
    refine ⟨_, fun _ => rfl, fun B v hB hd _ => ?_⟩
    rw [Edited, hB.urls.count]
    rcases editFound_cases hB.urls.numbers hd.1 e.InstanceNumber _ with
      hnone | ⟨i, x, hx, hnumber, hedit⟩
    · exact Or.inl hnone
    · refine Or.inr ⟨mem_numbers hx hnumber, _, hedit, ?_, hB.keywords, hB.apps⟩
      rw [Request.apply, apply_del hd.1 hx hnumber]
      exact hB.urls.remove (List.getElem?_eq_some_iff.mp hx).1
  | setValues i n a =>
    change ∃ edit, (∀ s, CosaDmlIaPolicySetUrlValues io policy i n a s =
      editPolicy io false policy edit s) ∧ _
    refine ⟨_, fun _ => rfl, fun B v hB hd hr => ?_⟩
    have hx : v.urls[i]? = some v.urls[i] := List.getElem?_eq_getElem hr
    obtain ⟨b, hb, hholds⟩ := hB.urls.setValues hx n a
    refine Or.inr ⟨trivial, { B with url := b }, by simp only [hb], ?_, hB.keywords, hB.apps⟩
    rw [Request.apply, apply_setValues hx]
    exact hholds

theorem keyword_edits (policy : ULONG) (op : Op CStr) :
    ∃ edit : blockentry_t → Edit,
      (∀ s, step s ⟨policy, io, .keyword op⟩ =
        editPolicy io (Request.keyword op).opensFirst policy edit s) ∧
      ∀ B v, HoldsBlock B v → Distinct v → op.InRange v.keywords →
        Edited edit (.keyword op) v B := by
  cases op with
  | add e =>
    change ∃ edit, (∀ s, CosaDmlIaPolicyAddKeyword io policy e s =
      editPolicy io false policy edit s) ∧ _
    refine ⟨_, fun _ => rfl, fun B v hB _ _ => Or.inr ⟨trivial, _, rfl, ?_⟩⟩
    exact ⟨hB.urls, hB.keywords.append e, hB.apps⟩
  | set e =>
    change ∃ edit, (∀ s, CosaDmlIaPolicySetKeyword io policy e s =
      editPolicy io false policy edit s) ∧ _
    refine ⟨_, fun _ => rfl, fun B v hB hd _ => ?_⟩
    rw [Edited, hB.keywords.count]
    rcases editFound_cases hB.keywords.numbers hd.2.1 e.InstanceNumber _ with
      hnone | ⟨i, x, hx, hnumber, hedit⟩
    · exact Or.inl hnone
    · refine Or.inr ⟨mem_numbers hx hnumber, _, hedit, hB.urls, ?_, hB.apps⟩
      rw [Request.apply, apply_set hd.2.1 hx hnumber]
      exact hB.keywords.write hx hnumber.symm
  | del e =>
    change ∃ edit, (∀ s, CosaDmlIaPolicyDelKeyword io policy e s =
      editPolicy io false policy edit s) ∧ _
    refine ⟨_, fun _ => rfl, fun B v hB hd _ => ?_⟩
    rw [Edited, hB.keywords.count]
    rcases editFound_cases hB.keywords.numbers hd.2.1 e.InstanceNumber _ with
      hnone | ⟨i, x, hx, hnumber, hedit⟩
    · exact Or.inl hnone
    · refine Or.inr ⟨mem_numbers hx hnumber, _, hedit, hB.urls, ?_, hB.apps⟩
      rw [Request.apply, apply_del hd.2.1 hx hnumber]
      exact hB.keywords.remove (List.getElem?_eq_some_iff.mp hx).1
  | setValues i n a =>
    change ∃ edit, (∀ s, CosaDmlIaPolicySetKeywordValues io policy i n a s =
      editPolicy io false policy edit s) ∧ _
    refine ⟨_, fun _ => rfl, fun B v hB hd hr => ?_⟩
    have hx : v.keywords[i]? = some v.keywords[i] := List.getElem?_eq_getElem hr
    obtain ⟨b, hb, hholds⟩ := hB.keywords.setValues hx n a
    refine Or.inr ⟨trivial, { B with keyword := b }, by simp only [hb], hB.urls, ?_, hB.apps⟩
    rw [Request.apply, apply_setValues hx]
    exact hholds

theorem app_edits (policy : ULONG) (op : Op AppSettings) :
    ∃ edit : blockentry_t → Edit,
      (∀ s, step s ⟨policy, io, .app op⟩ =
        editPolicy io (Request.app op).opensFirst policy edit s) ∧
      ∀ B v, HoldsBlock B v → Distinct v → op.InRange v.apps → Edited edit (.app op) v B := by
  cases op with
  | add e =>
    change ∃ edit,
      (∀ s, CosaDmlIaPolicyAddApp io policy e s = editPolicy io false policy edit s) ∧ _
    refine ⟨_, fun _ => rfl, fun B v hB _ _ => Or.inr ⟨trivial, _, rfl, ?_⟩⟩
    exact ⟨hB.urls, hB.keywords, hB.apps.append e⟩
  | set e =>
    change ∃ edit, (∀ s, CosaDmlIaPolicySetBlockedApp io policy e s =
      editPolicy io false policy edit s) ∧ _
    refine ⟨_, fun _ => rfl, fun B v hB hd _ => ?_⟩
    rw [Edited, hB.apps.count]
    rcases editFound_cases hB.apps.numbers hd.2.2 e.InstanceNumber _ with
      hnone | ⟨i, x, hx, hnumber, hedit⟩
    · exact Or.inl hnone
    · refine Or.inr ⟨mem_numbers hx hnumber, _, hedit, hB.urls, hB.keywords, ?_⟩
      rw [Request.apply, Op.taken, apply_set (e := taken e) hd.2.2 hx hnumber, ← hB.apps.count]
      exact hB.apps.write hx hnumber.symm
  | del e =>
    change ∃ edit, (∀ s, CosaDmlIaPolicyDelBlockedApp io policy e s =
      editPolicy io false policy edit s) ∧ _
    refine ⟨_, fun _ => rfl, fun B v hB hd _ => ?_⟩
    rw [Edited, hB.apps.count]
    rcases editFound_cases hB.apps.numbers hd.2.2 e.InstanceNumber _ with
      hnone | ⟨i, x, hx, hnumber, hedit⟩
    · exact Or.inl hnone
    · refine Or.inr ⟨mem_numbers hx hnumber, _, hedit, hB.urls, hB.keywords, ?_⟩
      rw [Request.apply, Op.taken, apply_del hd.2.2 hx hnumber, ← hB.apps.count]
      exact hB.apps.remove (List.getElem?_eq_some_iff.mp hx).1
  | setValues i n a =>
    change ∃ edit, (∀ s, CosaDmlIaPolicySetAppValues io policy i n a s =
      editPolicy io false policy edit s) ∧ _
    refine ⟨_, fun _ => rfl, fun B v hB hd hr => ?_⟩
    have hx : v.apps[i]? = some v.apps[i] := List.getElem?_eq_getElem hr
    have hcell : B.app_list[i]? = some (appCell v.apps[i]) := by
      rw [hB.apps.cells.getElem? hr, hx, Option.map_some]
    have hlength : i < B.app_tr_inst_num.length := Nat.lt_of_lt_of_le hr hB.apps.numbers.1
    refine Or.inr ⟨trivial, ⟨B.url, B.keyword, B.app_count, B.app_tr_inst_num.set i n,
      B.app_list.set i { appCell v.apps[i] with name := a }⟩,
      by simp only [hcell, if_pos hlength], hB.urls, hB.keywords, ?_⟩
    rw [Request.apply, Op.taken, apply_setValues hx]
    exact hB.apps.setValues i v.apps[i] n a

theorem step_edits (c : Call) : ∃ edit : blockentry_t → Edit,
    (∀ s, step s c = editPolicy c.io c.request.opensFirst c.policy edit s) ∧
    ∀ B v, HoldsBlock B v → Distinct v → c.request.InRange v → Edited edit c.request v B := by
  obtain ⟨policy, io, request⟩ := c
  cases request with
  | url op => exact url_edits io policy op
  | keyword op => exact keyword_edits io policy op
  | app op => exact app_edits io policy op

end Edits

section Calls

variable {s : State} {views : List PolicyView} {c : Call}

theorem find_ia_policy_cases (h : Holds s.g_iaps views) (n : ULONG) :
    (find_ia_policy s.g_iaps n = none ∧ findView views n = none) ∨
      ∃ i p v, find_ia_policy s.g_iaps n = some (i, p) ∧ findView views n = some i ∧
        s.g_iaps[i]? = some p ∧ views[i]? = some v ∧ HoldsPolicy p v := by
  have hsame : findView views n = s.g_iaps.findIdx? (fun p => p.tr_inst_num = n) := by
    have hnumbers : s.g_iaps.map iap_entry_t.tr_inst_num = views.map PolicyView.tr_inst_num := by
      rw [← List.forall₂_eq_eq_eq, List.forall₂_map_left_iff, List.forall₂_map_right_iff]
      exact h.imp fun _ _ hp => hp.1
    have hfind := congrArg (List.findIdx? (fun k => decide (k = n))) hnumbers
    rw [List.findIdx?_map, List.findIdx?_map] at hfind
    exact hfind.symm
  rw [hsame, find_ia_policy]
  cases hi : s.g_iaps.findIdx? (fun p => p.tr_inst_num = n) with
  | none => exact Or.inl ⟨rfl, rfl⟩
  | some i =>
    obtain ⟨hlt, -⟩ := List.findIdx?_eq_some_iff_getElem.mp hi
    have hlv : i < views.length := h.length_eq ▸ hlt
    refine Or.inr ⟨i, s.g_iaps[i], views[i], ?_, rfl, List.getElem?_eq_getElem hlt,
      List.getElem?_eq_getElem hlv, List.Forall₂.get h hlt hlv⟩
    rw [Option.bind_some, List.getElem?_eq_getElem hlt, Option.map_some]

theorem find_ia_policy_set {g_iaps : List iap_entry_t} {n : ULONG} {p q : iap_entry_t}
    (hp : find_ia_policy g_iaps n = some (i, p)) (hq : q.tr_inst_num = p.tr_inst_num) :
    find_ia_policy (g_iaps.set i q) n = some (i, q) := by
  obtain ⟨k, hk, hget⟩ := Option.bind_eq_some_iff.mp hp
  obtain ⟨x, hx, hpair⟩ := Option.map_eq_some_iff.mp hget
  obtain ⟨rfl, rfl⟩ := Prod.mk.injEq .. ▸ hpair
  obtain ⟨hlt, -⟩ := List.getElem?_eq_some_iff.mp hx
  have hnumbers : (g_iaps.set k q).map iap_entry_t.tr_inst_num =
      g_iaps.map iap_entry_t.tr_inst_num := by
    rw [List.map_set, hq]
    exact set_of_getElem? (by rw [List.getElem?_map, hx, Option.map_some])
  have hfind := congrArg (List.findIdx? (fun m => decide (m = n))) hnumbers
  rw [List.findIdx?_map, List.findIdx?_map] at hfind
  have hset : (g_iaps.set k q).findIdx? (fun p => p.tr_inst_num = n) = some k := hfind.trans hk
  rw [find_ia_policy, hset, Option.bind_some, List.getElem?_set_self hlt, Option.map_some]

theorem holds_set {g_iaps : List iap_entry_t} (h : Holds g_iaps views) (i : ℕ) {p : iap_entry_t}
    {v : PolicyView} (hp : HoldsPolicy p v) : Holds (g_iaps.set i p) (views.set i v) := by
  induction h generalizing i with
  | nil => exact List.Forall₂.nil
  | cons hhead htail ih =>
    cases i with
    | zero => exact List.Forall₂.cons hp htail
    | succ i => exact List.Forall₂.cons hhead (ih i)

theorem step_cases (h : Holds s.g_iaps views) (hd : ∀ v ∈ views, Distinct v)
    (hlegal : LegalCall views c) : ∃ t, step s c = some t ∧
      ((¬ Target views c ∧ t.returned = .cantFind ∧ t.g_iaps = s.g_iaps) ∨
       (Target views c ∧ c.request.opensFirst ∧ c.io.Utopia_Init = false ∧
        t.returned = .failure ∧ t.g_iaps = s.g_iaps) ∨
       (Target views c ∧ (c.request.opensFirst → c.io.Utopia_Init) ∧
        t.returned = (if c.io.Utopia_Init then .success else .failure) ∧
        Holds t.g_iaps (applied views c) ∧
        (c.io.Utopia_Init → c.io.Utopia_AddInternetAccessPolicy → Saved t c.policy))) := by
  obtain ⟨edit, hstep, hedit⟩ := step_edits c
  rw [hstep, editPolicy]
  rcases find_ia_policy_cases h c.policy with ⟨hfind, hview⟩ | ⟨i, p, v, hfind, hview, hp, hv, hpv⟩
  · rw [hfind]
    refine ⟨_, rfl, Or.inl ⟨?_, rfl, rfl⟩⟩
    rintro ⟨i, v, hi, -⟩
    rw [hview] at hi
    cases hi
  · rw [hfind]
    have hrange := hlegal.1 i v hview hv
    rcases hedit p.block v hpv.2 (hd v (List.mem_of_getElem? hv)) hrange with
      ⟨habsent, heq⟩ | ⟨hfound, B, heq, hB⟩
    · simp only [heq]
      refine ⟨_, rfl, Or.inl ⟨?_, rfl, rfl⟩⟩
      rintro ⟨j, w, hj, hw, hfoundw⟩
      rw [hview, Option.some.injEq] at hj
      rw [← hj, hv, Option.some.injEq] at hw
      exact habsent (hw ▸ hfoundw)
    · have htarget : Target views c := ⟨i, v, hview, hv, hfound⟩
      simp only [heq]
      split
      · next hclosed =>
        exact ⟨_, rfl, Or.inr (Or.inl ⟨htarget, hclosed.1, by simpa using hclosed.2, rfl, rfl⟩)⟩
      · next hopened =>
        refine ⟨_, rfl, Or.inr (Or.inr ⟨htarget, ?_, rfl, ?_, ?_⟩)⟩
        · intro hfirst
          by_contra hinit
          exact hopened ⟨hfirst, hinit⟩
        · have hnumber : (c.request.apply v).tr_inst_num = v.tr_inst_num := by
            cases c.request <;> rfl
          have hset : applied views c = views.set i (c.request.apply v) := by
            rw [applied, hview]
            exact modify_of_getElem? hv _
          rw [hset]
          exact holds_set h i ⟨hpv.1.trans hnumber.symm, hB⟩
        · intro hinit hadd j q hj
          change find_ia_policy (s.g_iaps.set i { p with block := B }) c.policy = some (j, q) at hj
          have hset := find_ia_policy_set hfind (q := { p with block := B }) rfl
          rw [hset, Option.some.injEq, Prod.mk.injEq] at hj
          rw [← hj.2]
          simp [changePolicy, hinit, hadd, KeyStore.set]

end Calls

section Readers

variable {g_iaps : List iap_entry_t} {n : ULONG} {i k : ℕ} {p : iap_entry_t}
  {l : List (Entry CStr)} {d e : Entry CStr}

theorem HoldsText.getElem? (h : HoldsText b l) (hk : l[k]? = some e) :
    k < b.count ∧ b.tr_inst_num[k]? = some e.InstanceNumber ∧ b.tr_alias[k]? = some e.Alias ∧
      b.list[k]? = some e.value := by
  obtain ⟨hlt, -⟩ := List.getElem?_eq_some_iff.mp hk
  rw [h.numbers.getElem? hlt, h.aliases.getElem? hlt, h.values.getElem? hlt, hk, h.count]
  exact ⟨hlt, rfl, rfl, rfl⟩

theorem HoldsText.search_eq (h : HoldsText b l)
    (hl : (l.map Entry.InstanceNumber).Nodup) (hk : l[k]? = some e) :
    search b.tr_inst_num b.count e.InstanceNumber = some k := by
  rw [h.count]
  apply (h.numbers.search_eq_some_iff hl _ _).mpr
  rw [List.getElem?_map, hk, Option.map_some]

theorem getUrl_eq (hfind : find_ia_policy g_iaps n = some (i, p)) (h : HoldsText p.block.url l)
    (hd : l[0]? = some d) (hk : l[k]? = some e) :
    CosaDmlIaPolicyGetUrl n g_iaps k = some (.ok ⟨e.InstanceNumber, d.Alias, e.value⟩) := by
  obtain ⟨hlt, hnumber, -, hvalue⟩ := h.getElem? hk
  obtain ⟨-, -, halias, -⟩ := h.getElem? hd
  simp [CosaDmlIaPolicyGetUrl, hfind, Nat.not_le.mpr hlt, hnumber, halias, hvalue]

theorem getUrlByInsNum_eq (hfind : find_ia_policy g_iaps n = some (i, p))
    (h : HoldsText p.block.url l) (hl : (l.map Entry.InstanceNumber).Nodup)
    (hk : l[k]? = some e) : CosaDmlIaPolicyGetUrlByInsNum n g_iaps e.InstanceNumber =
      some (if l.length ≤ e.InstanceNumber.toNat then .error .cantFind else .ok e) := by
  obtain ⟨-, hnumber, halias, hvalue⟩ := h.getElem? hk
  have hsearch := h.search_eq hl hk
  simp only [CosaDmlIaPolicyGetUrlByInsNum, hfind, hsearch, ← h.count]
  split
  · rfl
  · simp [hnumber, halias, hvalue]

theorem getKeyword_eq (hfind : find_ia_policy g_iaps n = some (i, p))
    (h : HoldsText p.block.keyword l) (hk : l[k]? = some e) :
    CosaDmlIaPolicyGetKeyword n g_iaps k = some (.ok e) := by
  obtain ⟨-, hnumber, halias, hvalue⟩ := h.getElem? hk
  simp [CosaDmlIaPolicyGetKeyword, hfind, hnumber, halias, hvalue]

theorem getKeywordByInsNum_eq (hfind : find_ia_policy g_iaps n = some (i, p))
    (h : HoldsText p.block.keyword l) (hl : (l.map Entry.InstanceNumber).Nodup)
    (hk : l[k]? = some e) : CosaDmlIaPolicyGetKeywordByInsNum n g_iaps e.InstanceNumber =
      some (.ok { e with InstanceNumber := 0 }) := by
  obtain ⟨-, -, halias, hvalue⟩ := h.getElem? hk
  simp [CosaDmlIaPolicyGetKeywordByInsNum, hfind, h.search_eq hl hk, halias, hvalue]

variable {as : List (Entry AppSettings)} {a : Entry AppSettings}

theorem be_block_app_eq {B : blockentry_t}
    (h : HoldsApps B.app_count B.app_tr_inst_num B.app_list as) (hk : as[k]? = some a) :
    ∃ B', be_block_app_2_middle_layer B k = some (reported a, B') := by
  obtain ⟨hlt, -⟩ := List.getElem?_eq_some_iff.mp hk
  have hnumber := h.numbers.getElem? hlt
  have hcell := h.cells.getElem? hlt
  rw [hk, Option.map_some] at hnumber hcell
  refine ⟨⟨B.url, B.keyword, B.app_count, B.app_tr_inst_num,
    B.app_list.set k { appCell a with wellknown := isWellKnownService a.Alias }⟩, ?_⟩
  cases hknown : isWellKnownService a.Alias <;>
    simp [be_block_app_2_middle_layer, hnumber, hcell, appCell, reported, hknown]

theorem getApp_eq (hfind : find_ia_policy g_iaps n = some (i, p))
    (h : HoldsApps p.block.app_count p.block.app_tr_inst_num p.block.app_list as)
    (hk : as[k]? = some a) :
    (CosaDmlIaPolicyGetApp n g_iaps k).map Prod.fst = some (.ok (reported a)) := by
  obtain ⟨B, hB⟩ := be_block_app_eq h hk
  simp [CosaDmlIaPolicyGetApp, hfind, hB]

theorem getAppByInsNum_eq (hfind : find_ia_policy g_iaps n = some (i, p))
    (h : HoldsApps p.block.app_count p.block.app_tr_inst_num p.block.app_list as)
    (hl : (as.map Entry.InstanceNumber).Nodup) (hk : as[k]? = some a) :
    (CosaDmlIaPolicyGetAppByInsNum n g_iaps a.InstanceNumber).map Prod.fst =
      some (.ok (reported a)) := by
  obtain ⟨B, hB⟩ := be_block_app_eq h hk
  have hsearch : search p.block.app_tr_inst_num p.block.app_count a.InstanceNumber = some k := by
    rw [h.count]
    apply (h.numbers.search_eq_some_iff hl _ _).mpr
    rw [List.getElem?_map, hk, Option.map_some]
  simp [CosaDmlIaPolicyGetAppByInsNum, hfind, hsearch, hB]

theorem urls_readable_iff (hfind : find_ia_policy g_iaps n = some (i, p))
    (h : HoldsText p.block.url l) (hl : (l.map Entry.InstanceNumber).Nodup) :
    (∀ k e, l[k]? = some e → CosaDmlIaPolicyGetUrl n g_iaps k = some (.ok e) ∧
      CosaDmlIaPolicyGetUrlByInsNum n g_iaps e.InstanceNumber = some (.ok e)) ↔
    ∀ e ∈ l, l.head?.map Entry.Alias = some e.Alias ∧ e.InstanceNumber.toNat < l.length := by
  have hhere : ∀ k e, l[k]? = some e → ((CosaDmlIaPolicyGetUrl n g_iaps k = some (.ok e) ∧
      CosaDmlIaPolicyGetUrlByInsNum n g_iaps e.InstanceNumber = some (.ok e)) ↔
      (l.head?.map Entry.Alias = some e.Alias ∧ e.InstanceNumber.toNat < l.length)) := by
    intro k e hk
    obtain ⟨hlt, -⟩ := List.getElem?_eq_some_iff.mp hk
    have hd : l[0]? = some (l.get ⟨0, by omega⟩) := List.getElem?_eq_getElem _
    rw [getUrl_eq hfind h hd hk, getUrlByInsNum_eq hfind h hl hk, List.head?_eq_getElem?, hd]
    apply and_congr
    · obtain ⟨number, name, value⟩ := e
      simp
    · split
      · next hle => simp [Nat.not_lt.mpr hle]
      · next hle => simp [Nat.not_le.mp hle]
  constructor
  · intro hall e he
    obtain ⟨k, hk⟩ := List.getElem?_of_mem he
    exact (hhere k e hk).mp (hall k e hk)
  · intro hall k e hk
    exact (hhere k e hk).mpr (hall e (List.mem_of_getElem? hk))

theorem keywords_readable_iff (hfind : find_ia_policy g_iaps n = some (i, p))
    (h : HoldsText p.block.keyword l) (hl : (l.map Entry.InstanceNumber).Nodup) :
    (∀ k e, l[k]? = some e → CosaDmlIaPolicyGetKeyword n g_iaps k = some (.ok e) ∧
      CosaDmlIaPolicyGetKeywordByInsNum n g_iaps e.InstanceNumber = some (.ok e)) ↔
    ∀ e ∈ l, e.InstanceNumber = 0 := by
  have hhere : ∀ k e, l[k]? = some e → ((CosaDmlIaPolicyGetKeyword n g_iaps k = some (.ok e) ∧
      CosaDmlIaPolicyGetKeywordByInsNum n g_iaps e.InstanceNumber = some (.ok e)) ↔
      e.InstanceNumber = 0) := by
    intro k e hk
    rw [getKeyword_eq hfind h hk, getKeywordByInsNum_eq hfind h hl hk]
    obtain ⟨number, name, value⟩ := e
    simpa using eq_comm
  constructor
  · intro hall e he
    obtain ⟨k, hk⟩ := List.getElem?_of_mem he
    exact (hhere k e hk).mp (hall k e hk)
  · intro hall k e hk
    exact (hhere k e hk).mpr (hall e (List.mem_of_getElem? hk))

theorem readable_iff (h : Holds s.g_iaps views)
    (hd : ∀ v ∈ views, Distinct v) : Readable s ↔ Plain views := by
  rw [Readable, Plain, h.view_eq]
  refine forall_congr' fun n => forall_congr' fun i => forall_congr' fun v => ?_
  refine forall_congr' fun hfind => forall_congr' fun hv => ?_
  rcases find_ia_policy_cases h n with ⟨-, hnone⟩ | ⟨j, p, w, hp, hj, -, hw, hpw⟩
  · rw [hnone] at hfind
    cases hfind
  · obtain rfl : j = i := Option.some.inj (hj.symm.trans hfind)
    obtain rfl : w = v := Option.some.inj (hw.symm.trans hv)
    have hdw := hd w (List.mem_of_getElem? hw)
    have happs : ∀ k e, w.apps[k]? = some e →
        (CosaDmlIaPolicyGetApp n s.g_iaps k).map Prod.fst = some (.ok (reported e)) ∧
        (CosaDmlIaPolicyGetAppByInsNum n s.g_iaps e.InstanceNumber).map Prod.fst =
          some (.ok (reported e)) := fun k e hk =>
      ⟨getApp_eq hp hpw.2.apps hk, getAppByInsNum_eq hp hpw.2.apps hdw.2.2 hk⟩
    rw [urls_readable_iff hp hpw.2.urls hdw.1, keywords_readable_iff hp hpw.2.keywords hdw.2.1,
      and_iff_left happs]

end Readers

structure Kept (s : State) : Prop where
  holds : Holds s.g_iaps (view s)
  distinct : ∀ v ∈ view s, Distinct v
  plain : Plain (view s)

theorem Kept.of_same {s t : State} (h : Kept s) (hsame : t.g_iaps = s.g_iaps) :
    view t = view s ∧ Kept t ∧ Readable t := by
  have hview : view t = view s := by rw [view, hsame, view]
  have hholds : Holds t.g_iaps (view s) := hsame ▸ h.holds
  refine ⟨hview, ⟨?_, ?_, ?_⟩, (readable_iff hholds h.distinct).mpr h.plain⟩
  · rw [hview]
    exact hholds
  · rw [hview]
    exact h.distinct
  · rw [hview]
    exact h.plain

theorem behaves_iff (s : State) (c : Call) (h : Kept s) (hlegal : LegalCall (view s) c) :
    ∃ t, step s c = some t ∧ (Behaves s c t ↔ OkCall (view s) c) ∧
      (OkCall (view s) c → Kept t) := by
  obtain ⟨t, ht, hcases⟩ := step_cases h.holds h.distinct hlegal
  refine ⟨t, ht, ?_⟩
  rcases hcases with ⟨hnone, hret, hsame⟩ | ⟨htarget, hfirst, hinit, hret, hsame⟩ |
    ⟨htarget, hfirst, hret, hholds, hsaved⟩
  · obtain ⟨hview, hkept, hread⟩ := h.of_same hsame
    refine ⟨⟨fun _ hfound => absurd hfound hnone, fun _ => ⟨?_, ?_, hread⟩⟩, fun _ => hkept⟩
    · exact fun hworks => absurd hworks.1 hnone
    · exact fun _ => ⟨by rw [hret]; decide, hview⟩
  · obtain ⟨hview, hkept, hread⟩ := h.of_same hsame
    refine ⟨⟨fun _ _ => ?_, fun _ => ⟨?_, ?_, hread⟩⟩, fun _ => hkept⟩
    · rw [hinit, if_neg Bool.false_ne_true]
      exact Or.inl hfirst
    · intro hworks
      rw [Works, hinit] at hworks
      exact absurd hworks.2.1 Bool.false_ne_true
    · exact fun _ => ⟨by rw [hret]; decide, hview⟩
  · have hview : view t = applied (view s) c := hholds.view_eq
    have hread : Readable t ↔ Plain (applied (view s) c) := readable_iff hholds hlegal.2
    have hkept : Plain (applied (view s) c) → Kept t := by
      intro hplain
      exact ⟨hview ▸ hholds, hview ▸ hlegal.2, hview ▸ hplain⟩
    cases hinit : c.io.Utopia_Init with
    | false =>
      rw [hinit, if_neg Bool.false_ne_true] at hret
      have hworks : ¬ Works s c := by
        rw [Works, hinit]
        exact fun hworks => Bool.false_ne_true hworks.2.1
      have hok : OkCall (view s) c ↔ applied (view s) c = view s := by
        rw [OkCall, hinit, if_neg Bool.false_ne_true]
        constructor
        · intro hok
          rcases hok htarget with hopens | heq
          · exact absurd ((hfirst hopens).symm.trans hinit) (by decide)
          · exact heq
        · exact fun heq _ => Or.inr heq
      rw [hok]
      constructor
      · constructor
        · exact fun hb => hview.symm.trans (hb.failure hworks).2
        · intro heq
          refine ⟨fun hw => absurd hw hworks, fun _ => ⟨by rw [hret]; decide, hview.trans heq⟩, ?_⟩
          exact hread.mpr (by rw [heq]; exact h.plain)
      · exact fun heq => hkept (by rw [heq]; exact h.plain)
    | true =>
      rw [hinit, if_pos rfl] at hret
      have hok : OkCall (view s) c ↔
          c.io.Utopia_AddInternetAccessPolicy ∧ Plain (applied (view s) c) := by
        rw [OkCall, hinit, if_pos rfl]
        exact ⟨fun hok => hok htarget, fun hok _ => hok⟩
      rw [hok]
      refine ⟨⟨fun hb => ?_, fun hc => ⟨?_, ?_, hread.mpr hc.2⟩⟩, fun hc => hkept hc.2⟩
      · cases hadd : c.io.Utopia_AddInternetAccessPolicy with
        | true => exact ⟨rfl, hread.mp hb.readable⟩
        | false =>
          have hworks : ¬ Works s c := by
            rw [Works, hadd]
            exact fun hworks => Bool.false_ne_true hworks.2.2
          exact absurd hret (hb.failure hworks).1
      · exact fun _ => ⟨hret, hview, hsaved hinit hc.1⟩
      · exact fun hworks => absurd ⟨htarget, hinit, hc.1⟩ hworks

def emptyPolicy : iap_entry_t :=
  ⟨1, "kids".toList, ⟨⟨0, [], [], []⟩, ⟨0, [], [], []⟩, 0, [], []⟩⟩

def emptyState : State := ⟨[emptyPolicy], fun _ => none, .success⟩

def sampleApp : COSA_DML_IA_POLICY_APP := ⟨5, "game".toList, ⟨false, 1, 7000, 7001⟩⟩

def addSample : Call := ⟨1, ⟨true, true⟩, .app (.add sampleApp)⟩

theorem plain_of_empty (h : ∀ v ∈ views, v.urls = [] ∧ v.keywords = []) : Plain views := by
  intro n i v _ hv
  obtain ⟨hurls, hkeywords⟩ := h v (List.mem_of_getElem? hv)
  rw [hurls, hkeywords]
  exact ⟨by simp, by simp⟩

def sampleUrl : COSA_DML_IA_POLICY_URL := ⟨1, "first".toList, "example".toList⟩

def addUrl : Call := ⟨1, ⟨true, true⟩, .url (.add sampleUrl)⟩

end CcspPandM.PolicyRuns
