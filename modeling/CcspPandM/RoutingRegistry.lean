import CcspPandM.HalfAddedRuns
import CcspPandM.TableLoads

/-!
The registry of the routers. The one committed router is loaded with its IPv4 and IPv6
forwarding entries, the RIP interfaces beside it; the folders below "RouterHalfAdded"
hold the routers, forwarding entries and RIP interfaces that are not committed.
-/
namespace CcspPandM.RoutingRegistry

open CString HalfAdded HalfAddedRuns Registry Runs
open IpRegistry (ULONG advance nextAfter pushEntryByInsNum storedNext)

inductive Forward where
  | ipv4
  | ipv6
  deriving DecidableEq

def layout : Layout Forward where
  folder := "Router".toList
  halfAdded := "RouterHalfAdded".toList
  Upper_InsNum := "UpperInsNum".toList
  InsNum := "InstanceNum".toList
  Alias := "Alias".toList
  preffix role := match role with
    | .parent => "Router".toList
    | .child .ipv4 => "IPv4Forward".toList
    | .child .ipv6 => "IPv6Forward".toList
    | .single => "RipInterface".toList
  nextInsNum role := match role with
    | .parent => "NextInsNum".toList
    | .child .ipv4 => "NextForwardInsNum".toList
    | .child .ipv6 => "NextIPv6ForwardInsNum".toList
    | .single => "NextRouteInfoIFInsNum".toList
  print n := decimal n.toNat
  checks := false

def CosaRoutingRegAddInfo (pNextInsNumName : CStr) (ulNextInsNum : ULONG) (pPreffix : CStr)
    (ulUpperInsNum : ULONG) (pAlias : CStr) (InstanceNumber : ULONG) (pPoamIrepFoRouter : Folder) :
    Folder :=
  RegAddInfo layout pNextInsNumName ulNextInsNum pPreffix ulUpperInsNum pAlias InstanceNumber
    pPoamIrepFoRouter

def CosaRoutingRegDelInfo (name : CStr) (pPoamIrepFoRouter : Folder) : Folder :=
  RegDelInfo layout name pPoamIrepFoRouter

/-- A forwarding entry; without a number above it or without any router the walk ends. -/
def scanForward (c : Forward) (st : Scan Forward) (pPoamIrepFoRouter : Folder) (number : ULONG)
    (pAlias : CStr) : Option (Scan Forward) :=
  let upper :=
    (pPoamIrepFoRouter.getUint32 "UpperInsNum".toList).getD st.ulUpperInstanceNumber
  if upper = 0 then none
  else
    match parentIndex st.lists.parents upper with
    | none => none
    | some k => some ⟨st.lists.pushUnder k c number pAlias, number, upper⟩

def scanFolder (st : Scan Forward) (pFolderName : CStr) (pPoamIrepFoRouter : Folder) :
    Option (Scan Forward) :=
  let number := (pPoamIrepFoRouter.getUint32 "InstanceNum".toList).getD st.ulInstanceNumber
  let pAlias := (pPoamIrepFoRouter.getString "Alias".toList).getD []
  if "Router".toList <:+: pFolderName then
    some ⟨st.lists.pushParent number pAlias, number, st.ulUpperInstanceNumber⟩
  else if "IPv4Forward".toList <:+: pFolderName then
    scanForward .ipv4 st pPoamIrepFoRouter number pAlias
  else if "IPv6Forward".toList <:+: pFolderName then
    scanForward .ipv6 st pPoamIrepFoRouter number pAlias
  else if "RipInterface".toList <:+: pFolderName then
    some ⟨st.lists.pushSingle number pAlias, number, st.ulUpperInstanceNumber⟩
  else some ⟨st.lists, number, st.ulUpperInstanceNumber⟩

structure Backend where
  router : ULONG × CStr
  v4 : List (TableLoads.Entry Unit)
  v6 : List (TableLoads.Entry Unit)
  ripIf : List (ULONG × CStr)

def committed (l : TableLoads.Load Unit) : List Child :=
  l.list.map fun e => ⟨e.InstanceNumber, e.Alias, false⟩

/-- RIP interfaces are numbered without an alias, and nothing is written back. -/
def loadRipIf : List (ULONG × CStr) → ULONG → List Child → List Child × ULONG
  | [], next, list => (list, next)
  | (number, pAlias) :: rest, next, list =>
    if 0 ≠ number then
      loadRipIf rest (advance next number)
        (pushEntryByInsNum Child.InstanceNumber list ⟨number, pAlias, false⟩)
    else
      loadRipIf rest (nextAfter next)
        (pushEntryByInsNum Child.InstanceNumber list ⟨next, pAlias, false⟩)

def loadRouter (pPoamIrepFoRouter : Folder) (b : Backend) : Listing Forward × Backend :=
  let next := storedNext pPoamIrepFoRouter "NextInsNum".toList 0
  let router := if 0 ≠ b.router.1 then b.router
    else (next, "Router".toList ++ decimal (nextAfter next).toNat)
  let forwards := TableLoads.CosaRoutingInitialize pPoamIrepFoRouter router.1 b.v4 b.v6
  let rip := loadRipIf b.ripIf 1 []
  let pRouter : Parent Forward :=
    { InstanceNumber := router.1
      Alias := router.2
      bNew := false
      list := fun c => match c with
        | .ipv4 => committed forwards.1
        | .ipv6 => committed forwards.2
      ulNextInsNum := fun c => match c with
        | .ipv4 => forwards.1.ulNextInsNum
        | .ipv6 => forwards.2.ulNextInsNum }
  let ulNextRouterInsNum := if 0 ≠ b.router.1 then advance next b.router.1 else nextAfter next
  (⟨[pRouter], rip.1, ulNextRouterInsNum, rip.2⟩,
    ⟨router, forwards.1.backend, forwards.2.backend, b.ripIf⟩)

def routing : Component Forward Backend :=
  ⟨layout, true, false, loadRouter, fun _ _ => true, scanFolder⟩

def CosaRoutingRegGetInfo (pPoamIrepFoRouterHA : Folder) (l : Listing Forward) : Listing Forward :=
  RegGetInfo routing pPoamIrepFoRouterHA l

def CosaRoutingInitialize (backend : Backend) (pPoamIrepFoCOSA : Folder) :
    Listing Forward × Backend × Folder :=
  Initialize routing backend pPoamIrepFoCOSA

theorem preffix_infix_iff (r : Role Forward) (e : Entry Forward) :
    layout.preffix r <:+: entryName layout e ↔ r = e.role := by
  have hmark : ∃ x c, layout.preffix r = x ++ [c] ∧ c.isDigit = false := by
    rcases r with _ | (_ | _) | _
    · exact ⟨"Route".toList, 'r', by decide +kernel, rfl⟩
    · exact ⟨"IPv4Forwar".toList, 'd', by decide +kernel, rfl⟩
    · exact ⟨"IPv6Forwar".toList, 'd', by decide +kernel, rfl⟩
    · exact ⟨"RipInterfac".toList, 'e', by decide +kernel, rfl⟩
  obtain ⟨x, c, hx, hc⟩ := hmark
  have hname := infix_entryName_iff (x := x) (e := e) (y := layout) hc rfl rfl
  rw [hx, hname, ← hx]
  generalize e.role = r'
  rcases r with _ | (_ | _) | _ <;> rcases r' with _ | (_ | _) | _ <;>
    decide +kernel

theorem scanForward_entry (c : Forward) (st : Scan Forward) (e : Entry Forward)
    (h : e.upper ≠ 0) : (scanForward c st (entryFolder layout e) e.number e.Alias).map Scan.lists =
      (parentIndex st.lists.parents e.upper).map
        fun k => st.lists.pushUnder k c e.number e.Alias := by
  have hupper : (entryFolder layout e).getUint32 "UpperInsNum".toList = some e.upper :=
    getUint32_Upper_InsNum (y := layout) (by decide) (by decide) h
  simp only [scanForward, hupper, Option.getD_some, if_neg h]
  cases parentIndex st.lists.parents e.upper with
  | none => rfl
  | some k => rfl

theorem lawful : Lawful routing := by
  refine ⟨by decide +kernel, ?_, ?_⟩
  · intro role n _ h
    change layout.nextInsNum role ++ layout.print n = layout.halfAdded at h
    have hne : layout.nextInsNum role ≠ [] := by
      rcases role with _ | (_ | _) | _ <;> decide +kernel
    have hhead := congrArg List.head? h
    rw [List.head?_append_of_ne_nil _ hne] at hhead
    revert hhead
    rcases role with _ | (_ | _) | _ <;> decide +kernel
  · intro e st _ _ hupper _ _
    have hnumber : (entryFolder layout e).getUint32 "InstanceNum".toList = some e.number :=
      getUint32_InsNum (y := layout) (by decide) e
    have halias : (entryFolder layout e).getString "Alias".toList = some e.Alias :=
      getString_Alias (y := layout) e
    have hrouter : "Router".toList <:+: entryName layout e ↔ .parent = e.role :=
      preffix_infix_iff .parent e
    have hv4 : "IPv4Forward".toList <:+: entryName layout e ↔ .child .ipv4 = e.role :=
      preffix_infix_iff (.child .ipv4) e
    have hv6 : "IPv6Forward".toList <:+: entryName layout e ↔ .child .ipv6 = e.role :=
      preffix_infix_iff (.child .ipv6) e
    have hrip : "RipInterface".toList <:+: entryName layout e ↔ .single = e.role :=
      preffix_infix_iff .single e
    change (scanFolder st (entryName layout e) (entryFolder layout e)).map Scan.lists =
      place false st.lists e
    unfold scanFolder
    simp only [hnumber, halias, Option.getD_some, hrouter, hv4, hv6, hrip]
    have hforward : ∀ c, e.role = .child c →
        (scanForward c st (entryFolder layout e) e.number e.Alias).map Scan.lists =
          place false st.lists e := by
      intro c hc
      rw [scanForward_entry c st e (hupper ⟨c, hc⟩), place, hc]
      cases parentIndex st.lists.parents e.upper with
      | none => rfl
      | some k => rfl
    cases hrole : e.role with
    | parent =>
      simp only [place, hrole, if_true, Option.map_some]
    | single =>
      simp only [place, hrole, reduceCtorEq, if_false, if_true, Option.map_some]
    | child c =>
      cases c with
      | ipv4 =>
        simpa only [reduceCtorEq, if_false, if_true] using hforward .ipv4 hrole
      | ipv6 =>
        simpa only [Role.child.injEq, reduceCtorEq, if_false, if_true] using hforward .ipv6 hrole

end CcspPandM.RoutingRegistry
