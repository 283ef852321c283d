import Mathlib.Data.List.Nodup
import CcspPandM.GreInterfaces
import CcspPandM.ScanFields

/-!
The local interfaces of a GRE interface, read after they were set. Each bridge of the
interface has one port for WiFi. The walk finds it among the ports that the bridge is said to
have, and there may be room for fewer of them than a bridge before left; the interfaces are
set through the ports of the first two bridges.
-/
namespace CcspPandM.GreLocalInterfaces

open CString KeyStore ScanText ScanFields GrePsm GreInterfaces TextSearch

/-- A bridge with its WiFi port, the lower layer the port has, and the interface that it is to
get, which may be given with a dot at its end. -/
structure Link where
  bridge : CStr
  port : ℕ
  old : CStr
  new : CStr
  dot : Bool

def Link.lower (l : Link) : CStr := portParam l.bridge l.port "LowerLayers".toList

def Link.wiFiPort (l : Link) : CStr := l.bridge ++ ("Port.".toList ++ (decimal l.port ++ ['.']))

def Link.text (l : Link) : CStr := if l.dot then l.new ++ ['.'] else l.new

/-- The bridges, each with its WiFi port and no other port that has one below. -/
structure Wired (lib : Bridging) (ports : CStr → List ℕ) (params : Store CStr CStr)
    (links : List Link) : Prop where
  distinct : (links.map Link.bridge).Nodup
  bridge : ∀ l ∈ links, l.bridge ≠ [] ∧ ',' ∉ l.bridge
  old : ∀ l ∈ links, params l.lower = some l.old ∧ ssid <:+: l.old ∧ ',' ∉ l.old
  plain : ∀ l ∈ links, lib.management (portParam l.bridge l.port "ManagementPort".toList) = false
  alone : ∀ l ∈ links, ∀ n ∈ ports l.bridge, n ≠ l.port → ∀ v,
    params (portParam l.bridge n "LowerLayers".toList) = some v → ¬ ssid <:+: v

def Lists (lib : Bridging) (ports : CStr → List ℕ) : Prop :=
  ∀ br cnt ns, (lib.GetInstanceNumbers (br ++ "Port.".toList) cnt).1 = some ns →
    ns.Nodup ∧ ∀ n ∈ ns, n ∈ ports br

/-- Each bridge's WiFi port is listed when the walk comes to it. -/
def AllListed (lib : Bridging) : ℕ → List (CStr × ℕ) → Prop
  | _, [] => True
  | cnt, (br, n) :: rest =>
    (∃ ns, (lib.GetInstanceNumbers (br ++ "Port.".toList) cnt).1 = some ns ∧ n ∈ ns) ∧
      AllListed lib (lib.GetInstanceNumbers (br ++ "Port.".toList) cnt).2 rest

def Link.place (l : Link) : CStr × ℕ := (l.bridge, l.port)

def pieces (lib : Bridging) : ℕ → List Link → List (Option CStr)
  | _, [] => []
  | cnt, l :: links =>
    let numbers := lib.GetInstanceNumbers (l.bridge ++ "Port.".toList) cnt
    (match numbers.1 with
      | none => none
      | some ns => if l.port ∈ ns ∧ l.old.length < 1024 then some (dotted l.old) else none) ::
      pieces lib numbers.2 links

def later (piece : Option CStr) : CStr :=
  match piece with
  | none => []
  | some v => ',' :: v

def listing : List (Option CStr) → CStr
  | [] => []
  | p :: ps => p.getD [] ++ ps.flatMap later

section Paths

theorem portParam_injective {br br' param : CStr} {n n' : ℕ}
    (h : portParam br n param = portParam br' n' param) : br = br' ∧ n = n' := by
  have hsplit : ∀ (b : CStr) (m : ℕ), portParam b m param =
      (b ++ "Port.".toList ++ decimal m) ++ '.' :: param := by
    intro b m
    rw [portParam, List.append_assoc, List.append_assoc]
  rw [hsplit, hsplit] at h
  have hfront := congrArg List.reverse (List.append_cancel_right h)
  have hport : "Port.".toList = "Port".toList ++ ['.'] := by decide
  have hreverse : ∀ (b : CStr) (m : ℕ), (b ++ "Port.".toList ++ decimal m).reverse =
      (decimal m).reverse ++ '.' :: ("Port".toList.reverse ++ b.reverse) := by
    intro b m
    rw [hport, List.reverse_append, List.reverse_append, List.reverse_append]
    rfl
  have hdigits : ∀ m : ℕ, ∀ c ∈ (decimal m).reverse, c.isDigit = true := by
    intro m c hc
    exact isDigit_of_mem_decimal (List.mem_reverse.mp hc)
  have hstop : ∀ (t : CStr), ∀ c ∈ ('.' :: t).head?, c.isDigit = false := by
    intro t c hc
    rw [List.head?_cons, Option.mem_some_iff] at hc
    rw [← hc]
    rfl
  rw [hreverse, hreverse] at hfront
  have hn : (decimal n).reverse = (decimal n').reverse := by
    rw [← (takeWhile_field (hdigits n) (hstop ("Port".toList.reverse ++ br.reverse))).1, hfront,
      (takeWhile_field (hdigits n') (hstop ("Port".toList.reverse ++ br'.reverse))).1]
  rw [hn] at hfront
  have hrest := (List.cons.inj (List.append_cancel_left hfront)).2
  exact ⟨List.reverse_injective (List.append_cancel_left hrest),
    decimal_injective (List.reverse_injective hn)⟩

theorem wiFiPort_lower (l : Link) : l.wiFiPort ++ "LowerLayers".toList = l.lower := by
  rw [Link.wiFiPort, Link.lower, portParam, List.append_assoc, List.append_assoc,
    List.append_assoc]
  rfl

end Paths

variable {links : List Link} {l : Link}

section Walk

variable {lib : Bridging} {ports : CStr → List ℕ} {params : Store CStr CStr}

theorem infix_iff (v : CStr) : strstr ssid v = none ↔ ¬ ssid <:+: v := by
  rw [← strstr_isSome, Option.not_isSome_iff_eq_none]

theorem addPort_other {br : CStr} {n : ℕ}
    (h : ∀ v, params (portParam br n "LowerLayers".toList) = some v → ¬ ssid <:+: v)
    (size : ℕ) (first : Bool) (ifs : CStr) : addPort lib params size br first ifs n = ifs := by
  rw [addPort]
  split
  · rfl
  · cases hget : GetParamValueString params (portParam br n "LowerLayers".toList) with
    | none => rfl
    | some dmval =>
      obtain ⟨v, hv, hread⟩ := Option.bind_eq_some_iff.mp hget
      have hsame : v = dmval := by
        split at hread
        · exact Option.some.inj hread
        · cases hread
      rw [hsame] at hv
      exact if_pos ((infix_iff dmval).mpr (h dmval hv))

/-- What a bridge's WiFi port adds to the list. -/
def added (l : Link) (first : Bool) (ifs : CStr) : CStr :=
  if first = false ∨ ifs ≠ [] then ifs ++ ',' :: dotted l.old else ifs ++ dotted l.old

theorem addPort_own (hw : Wired lib ports params links)
    (hl : l ∈ links) (size : ℕ) (first : Bool) (ifs : CStr) :
    addPort lib params size l.bridge first ifs l.port =
      if l.old.length < 1024 then (added l first ifs).take (size - 1) else ifs := by
  obtain ⟨hold, hssid, -⟩ := hw.old l hl
  have hfound : strstr ssid l.old ≠ none := by
    rw [Ne, infix_iff]
    exact not_not.mpr hssid
  have hget : GetParamValueString params (portParam l.bridge l.port "LowerLayers".toList) =
      if l.old.length < 1024 then some l.old else none := by
    rw [GetParamValueString]
    change (params l.lower).bind _ = _
    rw [hold, Option.bind_some]
  rw [addPort, hw.plain l hl, if_neg Bool.false_ne_true, hget]
  by_cases hlen : l.old.length < 1024
  · rw [if_pos hlen, if_pos hlen]
    dsimp only
    rw [if_neg hfound, added]
    split <;> rfl
  · rw [if_neg hlen, if_neg hlen]

theorem foldl_addPort (hw : Wired lib ports params links)
    (hl : l ∈ links) (size : ℕ) (first : Bool) {ns : List ℕ} (hnd : ns.Nodup)
    (hns : ∀ n ∈ ns, n ∈ ports l.bridge) (ifs : CStr) :
    ns.foldl (addPort lib params size l.bridge first) ifs =
      if l.port ∈ ns ∧ l.old.length < 1024 then (added l first ifs).take (size - 1) else ifs := by
  induction ns generalizing ifs with
  | nil => exact (if_neg fun h => List.not_mem_nil h.1).symm
  | cons n ns ih =>
    obtain ⟨hn, hnd⟩ := List.nodup_cons.mp hnd
    have hrest := ih hnd fun m hm => hns m (List.mem_cons_of_mem n hm)
    rw [List.foldl_cons]
    by_cases hport : n = l.port
    · subst hport
      rw [hrest, if_neg fun h => hn h.1, addPort_own hw hl]
      exact if_congr (by simp) rfl rfl
    · rw [addPort_other (hw.alone l hl n (hns n List.mem_cons_self) hport), hrest]
      apply if_congr _ rfl rfl
      rw [List.mem_cons, or_iff_right (Ne.symm hport)]

theorem pieces_none {cnt : ℕ}
    (h : (lib.GetInstanceNumbers (l.bridge ++ "Port.".toList) cnt).1 = none) :
    pieces lib cnt (l :: links) =
      none :: pieces lib (lib.GetInstanceNumbers (l.bridge ++ "Port.".toList) cnt).2 links := by
  rw [pieces, h]

theorem pieces_some {cnt : ℕ} {ns : List ℕ}
    (h : (lib.GetInstanceNumbers (l.bridge ++ "Port.".toList) cnt).1 = some ns) :
    pieces lib cnt (l :: links) =
      (if l.port ∈ ns ∧ l.old.length < 1024 then some (dotted l.old) else none) ::
        pieces lib (lib.GetInstanceNumbers (l.bridge ++ "Port.".toList) cnt).2 links := by
  rw [pieces, h]

theorem addBridges_later {all : List Link} (hw : Wired lib ports params all)
    (hlib : Lists lib ports) {size : ℕ} (hsub : ∀ l ∈ links, l ∈ all)
    {cnt : ℕ} {ifs : CStr} (hsize : (ifs ++ (pieces lib cnt links).flatMap later).length < size) :
    addBridges lib params size cnt false ifs (links.map Link.bridge) =
      ifs ++ (pieces lib cnt links).flatMap later := by
  induction links generalizing cnt ifs with
  | nil => exact (List.append_nil ifs).symm
  | cons l links ih =>
    have hrest : ∀ l ∈ links, l ∈ all := fun m hm => hsub m (List.mem_cons_of_mem l hm)
    rw [List.map_cons, addBridges]
    cases hnumbers : (lib.GetInstanceNumbers (l.bridge ++ "Port.".toList) cnt).1 with
    | none =>
      have hflat : (pieces lib cnt (l :: links)).flatMap later =
          (pieces lib (lib.GetInstanceNumbers (l.bridge ++ "Port.".toList) cnt).2
            links).flatMap later := by
        rw [pieces_none hnumbers, List.flatMap_cons]
        rfl
      rw [hflat] at hsize ⊢
      dsimp only
      exact ih hrest hsize
    | some ns =>
      obtain ⟨hnd, hns⟩ := hlib l.bridge cnt ns hnumbers
      have hfold := foldl_addPort hw (hsub l List.mem_cons_self) size false hnd hns ifs
      by_cases hin : l.port ∈ ns ∧ l.old.length < 1024
      · have hflat : (pieces lib cnt (l :: links)).flatMap later = ',' :: dotted l.old ++
            (pieces lib (lib.GetInstanceNumbers (l.bridge ++ "Port.".toList) cnt).2
              links).flatMap later := by
          rw [pieces_some hnumbers, if_pos hin, List.flatMap_cons]
          rfl
        have hadded : added l false ifs = ifs ++ ',' :: dotted l.old := if_pos (Or.inl rfl)
        rw [hflat, ← List.append_assoc] at hsize ⊢
        have htake : (ifs ++ ',' :: dotted l.old).take (size - 1) = ifs ++ ',' :: dotted l.old := by
          apply List.take_of_length_le
          rw [List.length_append] at hsize
          omega
        rw [if_pos hin, hadded, htake] at hfold
        simp only [hfold]
        exact ih hrest hsize
      · have hflat : (pieces lib cnt (l :: links)).flatMap later =
            (pieces lib (lib.GetInstanceNumbers (l.bridge ++ "Port.".toList) cnt).2
              links).flatMap later := by
          rw [pieces_some hnumbers, if_neg hin, List.flatMap_cons]
          rfl
        rw [if_neg hin] at hfold
        rw [hflat] at hsize ⊢
        simp only [hfold]
        exact ih hrest hsize

theorem addBridges_eq (hw : Wired lib ports params links)
    (hlib : Lists lib ports) {cnt size : ℕ}
    (hsize : (listing (pieces lib cnt links)).length < size) :
    addBridges lib params size cnt true [] (links.map Link.bridge) =
      listing (pieces lib cnt links) := by
  cases links with
  | nil => rfl
  | cons l rest =>
    have hsub : ∀ m ∈ rest, m ∈ l :: rest := fun m hm => List.mem_cons_of_mem l hm
    rw [List.map_cons, addBridges]
    cases hnumbers : (lib.GetInstanceNumbers (l.bridge ++ "Port.".toList) cnt).1 with
    | none =>
      rw [pieces_none hnumbers, listing, Option.getD_none] at hsize ⊢
      dsimp only
      exact addBridges_later hw hlib hsub hsize
    | some ns =>
      obtain ⟨hnd, hns⟩ := hlib l.bridge cnt ns hnumbers
      have hfold := foldl_addPort hw List.mem_cons_self size true hnd hns []
      rw [pieces_some hnumbers, listing] at hsize ⊢
      by_cases hin : l.port ∈ ns ∧ l.old.length < 1024
      · have hadded : added l true [] = dotted l.old := if_neg (by simp)
        rw [if_pos hin, Option.getD_some] at hsize ⊢
        have htake : (dotted l.old).take (size - 1) = dotted l.old := by
          apply List.take_of_length_le
          rw [List.length_append] at hsize
          omega
        rw [if_pos hin, hadded, htake] at hfold
        simp only [hfold]
        exact addBridges_later hw hlib hsub hsize
      · rw [if_neg hin, Option.getD_none] at hsize ⊢
        rw [if_neg hin] at hfold
        simp only [hfold]
        exact addBridges_later hw hlib hsub hsize

end Walk

section Listing

theorem count_later {ps : List (Option CStr)} (hps : ∀ v, some v ∈ ps → ',' ∉ v) :
    (ps.flatMap later).count ',' = (ps.filter Option.isSome).length := by
  induction ps with
  | nil => rfl
  | cons p ps ih =>
    have hrest := ih fun v hv => hps v (List.mem_cons_of_mem p hv)
    rw [List.flatMap_cons, List.count_append, hrest]
    cases p with
    | none =>
      rw [List.filter_cons_of_neg (by simp)]
      exact Nat.zero_add _
    | some v =>
      have hv : v.count ',' = 0 := List.count_eq_zero.mpr (hps v List.mem_cons_self)
      rw [List.filter_cons_of_pos rfl, List.length_cons, later, List.count_cons_self, hv]
      omega

theorem listing_some (v : CStr) (vs : List CStr) :
    listing ((v :: vs).map some) = separated ',' (v :: vs) := by
  rw [List.map_cons, listing, separated, Option.getD_some, List.flatMap_map]
  rfl

theorem listing_eq_iff {ps : List (Option CStr)} {ts : List CStr} (hlen : ps.length = ts.length)
    (hps : ∀ v, some v ∈ ps → v ≠ [] ∧ ',' ∉ v) (hts : ∀ t ∈ ts, t ≠ [] ∧ ',' ∉ t) :
    listing ps = separated ',' ts ↔ ps = ts.map some := by
  constructor
  · intro h
    cases ts with
    | nil => exact List.length_eq_zero_iff.mp hlen
    | cons t ts =>
      obtain ⟨p, ps, rfl⟩ := List.exists_cons_of_length_eq_add_one hlen
      have hlen' : ps.length = ts.length := Nat.succ_injective hlen
      have htail : ∀ v, some v ∈ ps → ',' ∉ v := fun v hv => (hps v (List.mem_cons_of_mem p hv)).2
      have htargets : ∀ v, some v ∈ ts.map some → ',' ∉ v := by
        intro v hv
        obtain ⟨t', ht', heq⟩ := List.mem_map.mp hv
        rw [← Option.some.inj heq]
        exact (hts t' (List.mem_cons_of_mem t ht')).2
      have hhead : (p.getD []).count ',' = 0 := by
        cases p with
        | none => rfl
        | some v => exact List.count_eq_zero.mpr (hps v List.mem_cons_self).2
      have hcount := congrArg (List.count ',') (h.trans (listing_some t ts).symm)
      rw [List.map_cons, listing, listing, List.count_append, List.count_append, hhead,
        count_later htail, count_later htargets, Option.getD_some,
        List.count_eq_zero.mpr (hts t List.mem_cons_self).2] at hcount
      have hall : ∀ p ∈ ps, p.isSome = true := by
        apply List.length_filter_eq_length_iff.mp
        have htrue : ((ts.map some).filter Option.isSome).length = ts.length := by
          rw [List.filter_eq_self.mpr (by simp), List.length_map]
        omega
      obtain ⟨vs, rfl⟩ : ∃ vs : List CStr, ps = vs.map some := by
        refine ⟨ps.map fun p => p.getD [], ?_⟩
        rw [List.map_map]
        conv_lhs => rw [← List.map_id ps]
        apply List.map_congr_left
        intro p hp
        obtain ⟨v, rfl⟩ := Option.isSome_iff_exists.mp (hall p hp)
        rfl
      cases p with
      | some v =>
        have hparts : ∀ u ∈ v :: vs, u ≠ [] ∧ ',' ∉ u := by
          intro u hu
          apply hps u
          exact List.mem_map_of_mem (f := some) hu
        have hsame := congrArg (tokens ',') ((listing_some v vs).symm.trans h)
        rw [tokens_separated hparts, tokens_separated hts] at hsame
        rw [← hsame, List.map_cons]
      | none =>
        obtain ⟨hne, hcomma⟩ := hts t List.mem_cons_self
        obtain ⟨c, t, rfl⟩ := List.exists_cons_of_ne_nil hne
        exfalso
        cases vs with
        | nil => cases h
        | cons v vs =>
          have hc : ',' = c := (List.cons.inj h).1
          exact hcomma (hc ▸ List.mem_cons_self)
  · rintro rfl
    cases ts with
    | nil => rfl
    | cons t ts => exact listing_some t ts

end Listing

/-- An interface with its bridges, the ports that are configured for them, and the interfaces
it is to get. -/
structure Linked (lib : Bridging) (ports : CStr → List ℕ) (g : Gre) (tuIns ins : ULONG)
    (links : List Link) : Prop extends Wired lib ports g.params links where
  nonempty : links ≠ []
  bridges : g.psm (record .associatedBridges tuIns ins) =
    some (separated ',' (links.map Link.bridge))
  wiFiPorts : g.psm (record .associatedBridgesWiFiPort tuIns ins) =
    some (separated ',' (links.map Link.wiFiPort))
  bridgesFit : (separated ',' (links.map Link.bridge)).length < 1024
  wiFiPortsFit : (separated ',' (links.map Link.wiFiPort)).length < 1024
  new : ∀ l ∈ links, ssid <:+: l.new ∧ ',' ∉ l.new ∧ l.new.getLast? ≠ some '.'

def relinked (links : List Link) : List Link :=
  (links.take 2).map (fun l => { l with old := l.new }) ++ links.drop 2

def writes (links : List Link) : List (CStr × CStr) :=
  (links.take 2).map fun l => (l.lower, l.new)

section Setting

variable {lib : Bridging} {ports : CStr → List ℕ} {g : Gre} {tuIns ins : ULONG}
  {links : List Link}

theorem firstTwo_separated {t : CStr} {ts : List CStr} (h : ∀ u ∈ t :: ts, ',' ∉ u) :
    firstTwo (separated ',' (t :: ts)) = (t, ts.head?) := by
  have hpass : ∀ u ∈ t :: ts, ∀ c ∈ u, decide (c ≠ ',') = true := by
    intro u hu c hc
    apply decide_eq_true
    rintro rfl
    exact h u hu hc
  cases ts with
  | nil =>
    have htext : separated ',' [t] = t ++ [] := rfl
    have hend : ∀ c ∈ ([] : CStr).head?, decide (c ≠ ',') = false := by
      intro c hc
      cases hc
    have hsplit := takeWhile_field (hpass t List.mem_cons_self) hend
    rw [firstTwo, htext, hsplit.1, hsplit.2]
    rfl
  | cons u ts =>
    have hstop : ∀ r : CStr, ∀ c ∈ (',' :: r).head?, decide (c ≠ ',') = false := by
      intro r c hc
      rw [List.head?_cons, Option.mem_some_iff] at hc
      rw [← hc]
      rfl
    have htext : separated ',' (t :: u :: ts) =
        t ++ ',' :: (u ++ ts.flatMap fun t => ',' :: t) := rfl
    have hsplit := takeWhile_field (hpass t List.mem_cons_self)
      (hstop (u ++ ts.flatMap fun t => ',' :: t))
    have hu := hpass u (List.mem_cons_of_mem t List.mem_cons_self)
    have hsecond : (u ++ ts.flatMap fun t => ',' :: t).takeWhile (· ≠ ',') = u := by
      cases ts with
      | nil => exact (takeWhile_field hu (by simp)).1
      | cons v ts => exact (takeWhile_field hu (hstop _)).1
    rw [firstTwo, htext, hsplit.1, hsplit.2, List.tail?_cons, Option.map_some, hsecond]
    rfl

theorem withoutDot_text (h : l.new.getLast? ≠ some '.') : withoutDot l.text = l.new := by
  rw [Link.text, withoutDot]
  cases l.dot with
  | false => exact if_neg h
  | true =>
    rw [if_pos rfl, List.getLast?_concat, if_pos rfl, List.dropLast_concat]

theorem comma_notMem_text (h : ',' ∉ l.new) : ',' ∉ l.text := by
  rw [Link.text]
  split
  · rw [List.mem_append, not_or]
    exact ⟨h, by decide⟩
  · exact h

theorem comma_notMem_wiFiPort (h : ',' ∉ l.bridge) : ',' ∉ l.wiFiPort := by
  have hdigits : ',' ∉ decimal l.port := by
    intro hc
    exact absurd (isDigit_of_mem_decimal hc) (by decide)
  simp only [Link.wiFiPort, List.mem_append, not_or]
  exact ⟨h, by decide, hdigits, by decide⟩

theorem setLowerLayers_link (g : Gre) (hbridge : l.bridge ≠ [])
    (hnew : l.new.getLast? ≠ some '.') :
    setLowerLayers g (some l.bridge) (some l.wiFiPort) (some (withoutDot l.text)) =
      some { g with params := set g.params l.lower l.new } := by
  rw [setLowerLayers, Option.getD_some, if_neg hbridge, Option.map_some, withoutDot_text hnew,
    Option.getD_some, wiFiPort_lower]

theorem localInterfaces_set (h : Linked lib ports g tuIns ins links) :
    CosaDml_GreTunnelIfSetLocalInterfaces g tuIns ins (separated ',' (links.map Link.text)) =
      some (true,
        { psm := set g.psm (record .localInterfaces tuIns ins)
            (separated ',' (links.map Link.text))
          params := setAll (writes links) g.params }) := by
  have hbridges : GetTunnelIfAssoBridge g tuIns ins =
      some (separated ',' (links.map Link.bridge)) :=
    (getStr_eq_stored_iff h.bridges 1024).mpr ⟨h.bridgesFit, h.bridgesFit⟩
  have hwiFiPorts : GetTunnelIfAssoBridgeWiFiPort g tuIns ins =
      some (separated ',' (links.map Link.wiFiPort)) :=
    (getStr_eq_stored_iff h.wiFiPorts 1024).mpr ⟨h.wiFiPortsFit, h.wiFiPortsFit⟩
  obtain ⟨l, rest, rfl⟩ := List.exists_cons_of_ne_nil h.nonempty
  have hl := List.mem_cons_self (a := l) (l := rest)
  have hcommas : ∀ f : Link → CStr, (∀ m ∈ l :: rest, ',' ∉ f m) →
      firstTwo (separated ',' ((l :: rest).map f)) = (f l, (rest.map f).head?) := by
    intro f hf
    rw [List.map_cons]
    apply firstTwo_separated
    intro u hu
    rw [← List.map_cons] at hu
    obtain ⟨m, hm, rfl⟩ := List.mem_map.mp hu
    exact hf m hm
  have hif := hcommas Link.text fun m hm => comma_notMem_text (h.new m hm).2.1
  have hbr := hcommas Link.bridge fun m hm => (h.bridge m hm).2
  have hwfp := hcommas Link.wiFiPort fun m hm => comma_notMem_wiFiPort (h.bridge m hm).2
  rw [CosaDml_GreTunnelIfSetLocalInterfaces, hbridges, hwiFiPorts]
  simp only [hif, hbr, hwfp, setLowerLayers_link _ (h.bridge l hl).1 (h.new l hl).2.2,
    Option.bind_eq_bind, Option.bind_some]
  cases rest with
  | nil => rfl
  | cons m rest =>
    have hm : m ∈ l :: m :: rest := List.mem_cons_of_mem l List.mem_cons_self
    simp only [List.map_cons, List.head?_cons, Option.map_some,
      setLowerLayers_link _ (h.bridge m hm).1 (h.new m hm).2.2, Option.bind_some]
    rfl

theorem lower_nodup (h : (links.map Link.bridge).Nodup) : (links.map Link.lower).Nodup := by
  apply List.Nodup.map_on _ (List.Nodup.of_map _ h)
  intro l hl m hm heq
  exact List.inj_on_of_nodup_map h hl hm (portParam_injective heq).1

theorem map_relinked {β : Type} {f : Link → β} (hf : ∀ l, f { l with old := l.new } = f l)
    (links : List Link) : (relinked links).map f = links.map f := by
  rw [relinked, List.map_append, List.map_map]
  conv_rhs => rw [← List.take_append_drop 2 links, List.map_append]
  congr 1
  apply List.map_congr_left
  intro l _
  exact hf l

theorem mem_relinked {l' : Link} (h : l' ∈ relinked links) :
    ∃ l ∈ links, l'.bridge = l.bridge ∧ l'.port = l.port := by
  rcases List.mem_append.mp h with h | h
  · obtain ⟨l, hl, rfl⟩ := List.mem_map.mp h
    exact ⟨l, List.mem_of_mem_take hl, rfl, rfl⟩
  · exact ⟨l', List.mem_of_mem_drop h, rfl, rfl⟩

theorem mem_keys_writes {path : CStr} (h : path ∈ keys (writes links)) :
    ∃ l ∈ links, path = l.lower := by
  obtain ⟨w, hw, rfl⟩ := List.mem_map.mp h
  obtain ⟨l, hl, rfl⟩ := List.mem_map.mp hw
  exact ⟨l, List.mem_of_mem_take hl, rfl⟩

theorem wired_relinked (h : Linked lib ports g tuIns ins links) :
    Wired lib ports (setAll (writes links) g.params) (relinked links) := by
  have hkeys : keys (writes links) = (links.take 2).map Link.lower := by
    rw [keys, writes, List.map_map]
    rfl
  have hnd := lower_nodup h.distinct
  rw [← List.take_append_drop 2 links, List.map_append, ← hkeys, List.nodup_append] at hnd
  obtain ⟨hwrites, -, hapart⟩ := hnd
  refine ⟨?_, ?_, ?_, ?_, ?_⟩
  · rw [map_relinked fun _ => rfl]
    exact h.distinct
  · intro l' hl'
    obtain ⟨l, hl, hbridge, -⟩ := mem_relinked hl'
    rw [hbridge]
    exact h.bridge l hl
  · intro l' hl'
    rcases List.mem_append.mp hl' with hl' | hl'
    · obtain ⟨l, hl, rfl⟩ := List.mem_map.mp hl'
      have hwrite : (l.lower, l.new) ∈ writes links := List.mem_map_of_mem hl
      obtain ⟨hssid, hcomma, -⟩ := h.new l (List.mem_of_mem_take hl)
      refine ⟨?_, hssid, hcomma⟩
      change setAll (writes links) g.params l.lower = some l.new
      rw [setAll_apply, lastValue_of_mem hwrites hwrite, Option.some_or]
    · obtain ⟨hold, hrest⟩ := h.old l' (List.mem_of_mem_drop hl')
      refine ⟨?_, hrest⟩
      rw [setAll_of_notMem, hold]
      intro hmem
      exact hapart _ hmem _ (List.mem_map_of_mem hl') rfl
  · intro l' hl'
    obtain ⟨l, hl, hbridge, hport⟩ := mem_relinked hl'
    rw [hbridge, hport]
    exact h.plain l hl
  · intro l' hl' n hn hne v hv
    obtain ⟨l, hl, hbridge, hport⟩ := mem_relinked hl'
    rw [hbridge] at hn hv
    rw [hport] at hne
    apply h.alone l hl n hn hne v
    rw [setAll_of_notMem] at hv
    · exact hv
    · intro hmem
      obtain ⟨m, hm, heq⟩ := mem_keys_writes hmem
      obtain ⟨hsame, hnum⟩ := portParam_injective heq
      apply hne
      rw [hnum, List.inj_on_of_nodup_map h.distinct hl hm hsame]

def listed (links : List Link) : List CStr := links.map fun l => l.new ++ ['.']

theorem pieces_eq_iff (cnt : ℕ) (links : List Link) :
    pieces lib cnt links = (listed links).map some ↔
      AllListed lib cnt (links.map Link.place) ∧
        ∀ l ∈ links, l.old.length < 1024 ∧ dotted l.old = l.new ++ ['.'] := by
  induction links generalizing cnt with
  | nil => exact ⟨fun _ => ⟨trivial, fun l hl => absurd hl List.not_mem_nil⟩, fun _ => rfl⟩
  | cons l links ih =>
    have hlisted : (listed (l :: links)).map some =
        some (l.new ++ ['.']) :: (listed links).map some := rfl
    rw [hlisted, List.map_cons, List.forall_mem_cons]
    cases hnumbers : (lib.GetInstanceNumbers (l.bridge ++ "Port.".toList) cnt).1 with
    | none =>
      rw [pieces_none hnumbers]
      constructor
      · intro h
        cases (List.cons.inj h).1
      · rintro ⟨⟨⟨ns, hns, -⟩, -⟩, -⟩
        change (lib.GetInstanceNumbers (l.bridge ++ "Port.".toList) cnt).1 = some ns at hns
        rw [hnumbers] at hns
        cases hns
    | some ns =>
      rw [pieces_some hnumbers, List.cons.injEq, ih]
      constructor
      · rintro ⟨hpiece, hall, hrest⟩
        by_cases hin : l.port ∈ ns ∧ l.old.length < 1024
        · rw [if_pos hin] at hpiece
          exact ⟨⟨⟨ns, hnumbers, hin.1⟩, hall⟩, ⟨hin.2, Option.some.inj hpiece⟩, hrest⟩
        · rw [if_neg hin] at hpiece
          cases hpiece
      · rintro ⟨⟨⟨ns', hns', hport⟩, hall⟩, ⟨hlen, hdotted⟩, hrest⟩
        change (lib.GetInstanceNumbers (l.bridge ++ "Port.".toList) cnt).1 = some ns' at hns'
        rw [hnumbers, Option.some.injEq] at hns'
        rw [← hns'] at hport
        refine ⟨?_, hall, hrest⟩
        rw [if_pos ⟨hport, hlen⟩, hdotted]

theorem dotted_new (hssid : ssid <:+: l.new) (h : l.new.getLast? ≠ some '.') :
    dotted l.new = l.new ++ ['.'] := by
  have hne : l.new ≠ [] := by
    intro hnil
    rw [hnil] at hssid
    exact absurd (List.infix_nil.mp hssid) (by decide)
  exact if_pos ⟨hne, h⟩

theorem relinked_shows_iff (hnew : ∀ l ∈ links, ssid <:+: l.new ∧ ',' ∉ l.new ∧
      l.new.getLast? ≠ some '.') :
    (∀ l ∈ relinked links, l.old.length < 1024 ∧ dotted l.old = l.new ++ ['.']) ↔
      (∀ l ∈ links.take 2, l.new.length < 1024) ∧
        ∀ l ∈ links.drop 2, l.old.length < 1024 ∧ dotted l.old = l.new ++ ['.'] := by
  rw [relinked, List.forall_mem_append, List.forall_mem_map]
  apply and_congr_left'
  apply forall₂_congr
  intro l hl
  obtain ⟨hssid, -, hdot⟩ := hnew l (List.mem_of_mem_take hl)
  exact and_iff_left (dotted_new hssid hdot)

theorem piece_parts {all : List Link} {params : Store CStr CStr}
    (hw : Wired lib ports params all) (hsub : ∀ l ∈ links, l ∈ all) {cnt : ℕ}
    {v : CStr} (hv : some v ∈ pieces lib cnt links) : v ≠ [] ∧ ',' ∉ v := by
  induction links generalizing cnt with
  | nil => cases hv
  | cons l links ih =>
    have hrest := @ih (fun m hm => hsub m (List.mem_cons_of_mem l hm))
    obtain ⟨-, hssid, hcomma⟩ := hw.old l (hsub l List.mem_cons_self)
    have hne : l.old ≠ [] := by
      intro hnil
      rw [hnil] at hssid
      exact absurd (List.infix_nil.mp hssid) (by decide)
    have hown : dotted l.old ≠ [] ∧ ',' ∉ dotted l.old := by
      rw [dotted]
      split
      · refine ⟨List.append_ne_nil_of_left_ne_nil hne _, ?_⟩
        rw [List.mem_append, not_or]
        exact ⟨hcomma, by decide⟩
      · exact ⟨hne, hcomma⟩
    cases hnumbers : (lib.GetInstanceNumbers (l.bridge ++ "Port.".toList) cnt).1 with
    | none =>
      rw [pieces_none hnumbers] at hv
      rcases List.mem_cons.mp hv with h | h
      · cases h
      · exact hrest h
    | some ns =>
      rw [pieces_some hnumbers] at hv
      rcases List.mem_cons.mp hv with h | h
      · split at h
        · rw [Option.some.inj h]
          exact hown
        · cases h
      · exact hrest h

theorem length_pieces (cnt : ℕ) (links : List Link) :
    (pieces lib cnt links).length = links.length := by
  induction links generalizing cnt with
  | nil => rfl
  | cons l links ih => rw [pieces, List.length_cons, List.length_cons, ih]

theorem listing_relinked_iff (h : Linked lib ports g tuIns ins links) :
    listing (pieces lib 16 (relinked links)) = separated ',' (listed links) ↔
      AllListed lib 16 (links.map Link.place) ∧ (∀ l ∈ links.take 2, l.new.length < 1024) ∧
        ∀ l ∈ links.drop 2, l.old.length < 1024 ∧ dotted l.old = l.new ++ ['.'] := by
  have hlen : (pieces lib 16 (relinked links)).length = (listed links).length := by
    have hmap := congrArg List.length (map_relinked (f := Link.place) (fun _ => rfl) links)
    rw [List.length_map, List.length_map] at hmap
    rw [length_pieces, listed, List.length_map, hmap]
  have htargets : ∀ t ∈ listed links, t ≠ [] ∧ ',' ∉ t := by
    intro t ht
    obtain ⟨l, hl, rfl⟩ := List.mem_map.mp ht
    refine ⟨List.append_ne_nil_of_right_ne_nil _ (List.cons_ne_nil _ _), ?_⟩
    rw [List.mem_append, not_or]
    exact ⟨(h.new l hl).2.1, by decide⟩
  have hlisted : listed links = listed (relinked links) := (map_relinked (fun _ => rfl) links).symm
  have hplaces := map_relinked (f := Link.place) (fun _ => rfl) links
  rw [listing_eq_iff hlen (fun v hv => piece_parts (wired_relinked h) (fun _ hm => hm) hv) htargets,
    hlisted, pieces_eq_iff, hplaces, relinked_shows_iff h.new]

theorem localInterfaces_set_iff (hlib : Lists lib ports)
    (h : Linked lib ports g tuIns ins links) :
    ∃ g', CosaDml_GreTunnelIfSetLocalInterfaces g tuIns ins
        (separated ',' (links.map Link.text)) = some (true, g') ∧
      (((∀ size, (separated ',' (listed links)).length < size →
          CosaDml_GreTunnelIfGetLocalInterfaces lib g' tuIns ins size =
            some (separated ',' (listed links))) ∧
        OthersKept g g' .localInterfaces tuIns ins ∧
        ∀ path, (∀ l ∈ links, path ≠ l.lower) → g'.params path = g.params path) ↔
      AllListed lib 16 (links.map Link.place) ∧ (∀ l ∈ links.take 2, l.new.length < 1024) ∧
        ∀ l ∈ links.drop 2, l.old.length < 1024 ∧ dotted l.old = l.new ++ ['.']) := by
  refine ⟨_, localInterfaces_set h, ?_⟩
  rw [← listing_relinked_iff h]
  have hother : (Attr.associatedBridges, tuIns, ins) ≠ (.localInterfaces, tuIns, ins) := by
    intro heq
    cases congrArg Prod.fst heq
  have hbridges : GrePsmGetStr (set g.psm (record .localInterfaces tuIns ins)
      (separated ',' (links.map Link.text))) (record .associatedBridges tuIns ins) 1024 =
      some (separated ',' (links.map Link.bridge)) := by
    rw [getStr_congr (record_set g.psm hother _)]
    exact (getStr_eq_stored_iff h.bridges 1024).mpr ⟨h.bridgesFit, h.bridgesFit⟩
  have hparts : ∀ b ∈ links.map Link.bridge, b ≠ [] ∧ ',' ∉ b := by
    intro b hb
    obtain ⟨l, hl, rfl⟩ := List.mem_map.mp hb
    exact h.bridge l hl
  have hwalk : ∀ size, (listing (pieces lib 16 (relinked links))).length < size →
      addBridges lib (setAll (writes links) g.params) size 16 true []
        (tokens ',' (separated ',' (links.map Link.bridge))) =
      listing (pieces lib 16 (relinked links)) := by
    intro size hsize
    rw [tokens_separated hparts, ← map_relinked (f := Link.bridge) (fun _ => rfl) links]
    exact addBridges_eq (wired_relinked h) hlib hsize
  constructor
  · rintro ⟨hget, -, -⟩
    have hboth := hget ((separated ',' (listed links)).length +
      (listing (pieces lib 16 (relinked links))).length + 1) (by omega)
    rw [CosaDml_GreTunnelIfGetLocalInterfaces, GetTunnelIfAssoBridge, hbridges, Option.map_some,
      hwalk _ (by omega)] at hboth
    exact Option.some.inj hboth
  · intro hlisting
    refine ⟨?_, ?_, ?_⟩
    · intro size hsize
      rw [← hlisting] at hsize
      rw [CosaDml_GreTunnelIfGetLocalInterfaces, GetTunnelIfAssoBridge, hbridges, Option.map_some,
        hwalk size hsize, hlisting]
    · intro b t i hne
      exact record_set g.psm hne _
    · intro path hpath
      apply setAll_of_notMem
      intro hmem
      obtain ⟨l, hl, heq⟩ := mem_keys_writes hmem
      exact hpath l hl heq

end Setting

/-- Setting an attribute of an interface: what makes the value be read back and all else stay
as it was. -/
theorem attributes_set_iff (g : Gre) (t i : ULONG) :
    (∀ (g' : Gre) (v : BitVec 32),
      CosaDml_GreTunnelIfSetVlanId g t i v = (true, g') →
      CosaDml_GreTunnelIfGetVlanId g' t i = some v ∧ OthersKept g g' .vlanId t i ∧
        g'.params = g.params) ∧
    (∀ brs : CStr,
      ((∀ size, brs.length < size → CosaDml_GreTunnelIfGetAssociatedBridges
          (CosaDml_GreTunnelIfSetAssociatedBridges g t i brs) t i size = some brs) ∧
        OthersKept g (CosaDml_GreTunnelIfSetAssociatedBridges g t i brs) .associatedBridges t i ∧
        (CosaDml_GreTunnelIfSetAssociatedBridges g t i brs).params = g.params) ↔
        brs.length < 1024) ∧
    (∀ brswfp : CStr,
      ((∀ size, brswfp.length < size → CosaDml_GreTunnelIfGetAssociatedBridgesWiFiPort
          (CosaDml_GreTunnelIfSetAssociatedBridgesWiFiPort g t i brswfp) t i size = some brswfp) ∧
        OthersKept g (CosaDml_GreTunnelIfSetAssociatedBridgesWiFiPort g t i brswfp)
          .associatedBridgesWiFiPort t i ∧
        (CosaDml_GreTunnelIfSetAssociatedBridgesWiFiPort g t i brswfp).params = g.params) ↔
        (t = i ∧ brswfp.length < 1024) ∨
          ((∃ val, g.psm (record .associatedBridgesWiFiPort t i) = some val ∧
              val.take 1023 = brswfp) ∧
            g.psm (record .associatedBridgesWiFiPort i t) = some brswfp)) ∧
    ∀ (lib : Bridging) (ports : CStr → List ℕ), Lists lib ports →
      ∀ links : List Link, Linked lib ports g t i links →
      ∃ g', CosaDml_GreTunnelIfSetLocalInterfaces g t i (separated ',' (links.map Link.text)) =
          some (true, g') ∧
        (((∀ size, (separated ',' (listed links)).length < size →
            CosaDml_GreTunnelIfGetLocalInterfaces lib g' t i size =
              some (separated ',' (listed links))) ∧
          OthersKept g g' .localInterfaces t i ∧
          ∀ path, (∀ l ∈ links, path ≠ l.lower) → g'.params path = g.params path) ↔
        AllListed lib 16 (links.map Link.place) ∧ (∀ l ∈ links.take 2, l.new.length < 1024) ∧
          ∀ l ∈ links.drop 2, l.old.length < 1024 ∧ dotted l.old = l.new ++ ['.']) :=
  ⟨fun _ _ h => vlanId_set h, associatedBridges_set_iff g t i, wiFiPort_set_iff g t i,
    fun _ _ hlib _ h => localInterfaces_set_iff hlib h⟩

def twoPorts : Bridging where
  GetInstanceNumbers := fun _ cnt => if 2 ≤ cnt then (some [1, 2], 2) else (none, cnt)
  management := fun _ => false

def homeLink : Link where
  bridge := "Device.Bridging.Bridge.3.".toList
  port := 2
  old := "Device.WiFi.SSID.5.".toList
  new := "Device.WiFi.SSID.6".toList
  dot := true

def noRecords : Psm := fun _ => none

def homeBridges : Psm := set noRecords (record .associatedBridges 1 1) homeLink.bridge

def home : Gre where
  psm := set homeBridges (record .associatedBridgesWiFiPort 1 1) homeLink.wiFiPort
  params := set (fun _ => none) homeLink.lower homeLink.old

theorem lists_twoPorts : Lists twoPorts fun _ => [1, 2] := by
  intro br cnt ns h
  change (if 2 ≤ cnt then (some [1, 2], 2) else (none, cnt)).1 = some ns at h
  split at h
  · cases h
    exact ⟨by decide, fun n hn => hn⟩
  · cases h

theorem linked_home : Linked twoPorts (fun _ => [1, 2]) home 1 1 [homeLink] where
  distinct := List.nodup_singleton _
  bridge l hl := by
    rw [List.mem_singleton.mp hl]
    exact ⟨by decide, by decide⟩
  old l hl := by
    rw [List.mem_singleton.mp hl]
    exact ⟨set_self (fun _ => none) homeLink.lower homeLink.old, by decide, by decide⟩
  plain l hl := rfl
  alone l hl n hn hne v hv := by
    rw [List.mem_singleton.mp hl] at hne hv
    have hother : portParam homeLink.bridge n "LowerLayers".toList ≠ homeLink.lower := by
      intro heq
      exact hne (portParam_injective heq).2
    change set (fun _ => none) homeLink.lower homeLink.old _ = some v at hv
    rw [set_of_ne _ _ hother] at hv
    cases hv
  nonempty := List.cons_ne_nil _ _
  bridges := by decide +kernel
  wiFiPorts := by decide +kernel
  bridgesFit := by decide
  wiFiPortsFit := by decide
  new l hl := by
    rw [List.mem_singleton.mp hl]
    exact ⟨by decide, by decide, by decide⟩

theorem attributes_set_home :
    CosaDml_GreTunnelIfGetVlanId (CosaDml_GreTunnelIfSetVlanId home 1 1 102).2 1 1 = some 102 ∧
    ∃ g', CosaDml_GreTunnelIfSetLocalInterfaces home 1 1 "Device.WiFi.SSID.6.".toList =
        some (true, g') ∧
      CosaDml_GreTunnelIfGetLocalInterfaces twoPorts g' 1 1 1024 =
        some "Device.WiFi.SSID.6.".toList := by
  obtain ⟨hvlan, -, -, hlocal⟩ := attributes_set_iff home 1 1
  refine ⟨(hvlan _ 102 rfl).1, ?_⟩
  obtain ⟨g', hset, hiff⟩ := hlocal twoPorts _ lists_twoPorts [homeLink] linked_home
  refine ⟨g', hset, (hiff.mpr ⟨⟨⟨[1, 2], rfl, by decide⟩, trivial⟩, ?_, ?_⟩).1 1024 (by decide)⟩
  · intro l hl
    rw [List.mem_singleton.mp hl]
    decide
  · intro l hl
    cases hl

/-- The WiFi port of the second interface of the first tunnel is stored as that of the first
interface of the second one. -/
theorem swapped_key :
    ¬ ((∀ size, homeLink.wiFiPort.length < size →
        CosaDml_GreTunnelIfGetAssociatedBridgesWiFiPort
          (CosaDml_GreTunnelIfSetAssociatedBridgesWiFiPort home 1 2 homeLink.wiFiPort) 1 2 size =
          some homeLink.wiFiPort) ∧
      OthersKept home (CosaDml_GreTunnelIfSetAssociatedBridgesWiFiPort home 1 2
        homeLink.wiFiPort) .associatedBridgesWiFiPort 1 2) := by
  rintro ⟨hget, hkept⟩
  rcases (wiFiPort_set_iff home 1 2 homeLink.wiFiPort).mp ⟨hget, hkept, rfl⟩ with
    ⟨heq, -⟩ | ⟨-, hswapped⟩
  · exact absurd heq (by decide)
  · have hother : home.psm (record .associatedBridgesWiFiPort 2 1) = none := by decide +kernel
    rw [hother] at hswapped
    cases hswapped

end CcspPandM.GreLocalInterfaces
