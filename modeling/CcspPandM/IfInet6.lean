import CcspPandM.FgetsLines
import CcspPandM.Ipv6Text

/-!
The IPv6 addresses of an interface, from the lines that the kernel has on all addresses.
Of each line the whole address is printed anew, and the prefix as the groups that the
length reaches into, each with a colon behind it, and `:/` and the length. The groups are
appended with the size of the whole field as their bound. A run that writes past a field
has no result.
-/
namespace CcspPandM.IfInet6

open BitWindow CString InetText Ipv6Text PrefixText ScanText ScanFields

inductive Scope
  | GLOBAL
  | LINKLOCAL
  | SITELOCAL
  | COMPATv4
  | LOOPBACK
  | UNKNOWN
  deriving DecidableEq

def getIpv6Scope (scope_v6 : BitVec 32) : Scope :=
  let scopeToReturn := scope_v6 &&& 0x00f0
  if scopeToReturn = 0 then .GLOBAL
  else if scopeToReturn = 0x0020 then .LINKLOCAL
  else if scopeToReturn = 0x0040 then .SITELOCAL
  else if scopeToReturn = 0x0080 then .COMPATv4
  else if scopeToReturn = 0x0010 then .LOOPBACK
  else .UNKNOWN

structure Details where
  bitsToMask : BitVec 32
  address6 : CStr
  scopeofipv6 : BitVec 32
  prefix_v6 : CStr

structure Ipv6AddrInfo where
  v6addr : CStr
  scope : Scope
  v6pre : CStr

/-- What the variables hold before anything is stored in them. -/
structure Env where
  sin6_addr : Bytes 16
  prefix_v6 : CStr

def withColons (ipv6_addr : CStr) : CStr :=
  ipv6_addr.zipIdx.flatMap fun p =>
    if p.2 ∈ [3, 7, 11, 15, 19, 23, 27] then [p.1, ':'] else [p.1]

/-- The words of a line, each cut to four characters. -/
def splitWords : ℕ → CStr → List CStr
  | 0, _ => []
  | n + 1, t =>
    match scanWordOf 4 t with
    | none => []
    | some (word, rest) => word :: splitWords n rest

/-- The groups written one after the other into `prefix_v6[40]`. -/
def appendGroups : List CStr → CStr → Option CStr
  | [], t => some t
  | g :: gs, t => if 40 < t.length + g.length + 2 then none else appendGroups gs (t ++ g ++ [':'])

def groupCount (bitsToMask : BitVec 32) : ℕ :=
  min (if bitsToMask.toNat % 16 ≠ 0 then bitsToMask.toNat / 16 + 1 else bitsToMask.toNat / 16) 8

def scanNumbers (t : CStr) : Option (BitVec 32 × BitVec 32 × CStr) := do
  let (_, t) ← scanHex t
  let (bitsToMask, t) ← scanHex t
  let (scopeofipv6, t) ← scanHex t
  let (_, t) ← scanHex t
  return (bitsToMask, scopeofipv6, t)

/-- No value where a field is written past; otherwise the details, if the line is one of
the interface. -/
def parseProcfileParams (env : Env) (prefix_v6 lineToParse interface : CStr) :
    Option (Option Details) :=
  match scanWord lineToParse with
  | none => some none
  | some (ipv6_addr, t) =>
    if 40 ≤ ipv6_addr.length then none
    else match scanNumbers t with
      | none => some none
      | some (bitsToMask, scopeofipv6, t) =>
        match scanWord t with
        | none => some none
        | some (intrName, _) =>
          if 20 ≤ intrName.length then none
          else if interface ≠ intrName then some none
          else
            let address6 := withColons ipv6_addr
            if 40 ≤ address6.length then none
            else
              let text := inet_ntop6 ((inet_pton6 address6).getD (octets env.sin6_addr))
              let splitv6 := splitWords 8 lineToParse
              (if splitv6.length = 8 then appendGroups (splitv6.take (groupCount bitsToMask)) []
                else some prefix_v6).map fun prefix_v6 => some
                { bitsToMask, scopeofipv6, prefix_v6
                  address6 := if text.length < 40 then text else address6 }

def addrInfo (d : Details) : Ipv6AddrInfo where
  v6addr := d.address6
  scope := getIpv6Scope d.scopeofipv6
  v6pre := d.prefix_v6 ++ (':' :: '/' :: intText d.bitsToMask)

def addrInfos (env : Env) (ifname prefix_v6 : CStr) : List CStr → Option (List Ipv6AddrInfo)
  | [] => some []
  | procLine :: rest =>
    match parseProcfileParams env prefix_v6 procLine ifname with
    | none => none
    | some none => addrInfos env ifname prefix_v6 rest
    | some (some d) => (addrInfos env ifname d.prefix_v6 rest).map (addrInfo d :: ·)

def CosaUtilGetIpv6AddrInfo (env : Env) (ifname file : CStr) : Option (List Ipv6AddrInfo) :=
  addrInfos env ifname env.prefix_v6 (FgetsLines.reads 199 file)

structure Line where
  groups : List CStr
  index : CStr
  plen : CStr
  scope : CStr
  flags : CStr
  name : CStr
  groups_hex : groups.length = 8 ∧ ∀ g ∈ groups, IsHex g ∧ g.length = 4
  index_hex : IsHex index ∧ index.length ≤ 8
  plen_hex : IsHex plen ∧ plen.length ≤ 8
  scope_hex : IsHex scope ∧ scope.length ≤ 8
  flags_hex : IsHex flags ∧ flags.length ≤ 8
  length_le : hexNat plen ≤ 128
  name_word : name ≠ [] ∧ ∀ c ∈ name, isspace c = false

namespace Line

variable (l : Line)

def length : ℕ := hexNat l.plen

def address : List ℕ := (l.groups.map hexNat).flatMap groupOctets

def front : CStr :=
  l.groups.flatten ++ (' ' :: (l.index ++ (' ' :: (l.plen ++ (' ' :: (l.scope ++
    (' ' :: (l.flags ++ (' ' :: List.replicate (8 - l.name.length) ' ')))))))))

def text : CStr := l.front ++ (l.name ++ ['\n'])

end Line

def fileText (lines : List Line) : CStr := lines.flatMap Line.text

def bitAt (os : List ℕ) (i : ℕ) : Bool := (os.getD (i / 8) 0).testBit (7 - i % 8)

/-- The address is the one of the line, and the prefix text a prefix of its length that
has the bits of the address. -/
def Describes (l : Line) (r : Ipv6AddrInfo) : Prop :=
  inet_pton6 r.v6addr = some l.address ∧ r.v6addr.length < 64 ∧ r.v6pre.length < 64 ∧
    ∃ p q, r.v6pre = p ++ '/' :: decimal l.length ∧ inet_pton6 p = some q ∧
      ∀ i < l.length, bitAt q i = bitAt l.address i

/-- One record for each line of the interface, in order, and no field is written past. -/
def ListsAddresses (env : Env) (ifname : CStr) (lines : List Line) : Prop :=
  ∃ rs, CosaUtilGetIpv6AddrInfo env ifname (fileText lines) = some rs ∧
    List.Forall₂ Describes (lines.filter fun l => l.name = ifname) rs

section groups

variable {gs : List CStr}

theorem nospace_of_hex {g : CStr} (hg : IsHex g) : ∀ c ∈ g, isspace c = false :=
  fun c hc => isspace_of_isHexDigit (hg.2 c hc)

theorem length_flatten (hgs : ∀ g ∈ gs, IsHex g ∧ g.length = 4) :
    gs.flatten.length = 4 * gs.length := by
  induction gs with
  | nil => rfl
  | cons g gs ih =>
    have hg := (hgs g List.mem_cons_self).2
    rw [List.flatten_cons, List.length_append, hg, ih fun d hd => hgs d (List.mem_cons_of_mem _ hd),
      List.length_cons]
    omega

theorem length_terminated (hgs : ∀ g ∈ gs, IsHex g ∧ g.length = 4) :
    (terminated gs).length = 5 * gs.length := by
  induction gs with
  | nil => rfl
  | cons g gs ih =>
    have hg := (hgs g List.mem_cons_self).2
    have htail := ih fun d hd => hgs d (List.mem_cons_of_mem _ hd)
    rw [terminated] at htail
    rw [terminated, List.flatMap_cons, List.length_append, htail, List.length_append, hg,
      List.length_singleton, List.length_cons]
    omega

theorem withColons_flatten (hlen : gs.length = 8) (hgs : ∀ g ∈ gs, IsHex g ∧ g.length = 4) :
    withColons gs.flatten = joined gs := by
  have hfour : ∀ g ∈ gs, ∃ a b c d, g = [a, b, c, d] :=
    fun g hg => List.length_eq_four.mp (hgs g hg).2
  match gs, hlen with
  | [g₀, g₁, g₂, g₃, g₄, g₅, g₆, g₇], _ =>
    simp only [List.forall_mem_cons, List.not_mem_nil, false_implies, implies_true,
      and_true] at hfour
    obtain ⟨⟨_, _, _, _, rfl⟩, ⟨_, _, _, _, rfl⟩, ⟨_, _, _, _, rfl⟩, ⟨_, _, _, _, rfl⟩,
      ⟨_, _, _, _, rfl⟩, ⟨_, _, _, _, rfl⟩, ⟨_, _, _, _, rfl⟩, ⟨_, _, _, _, rfl⟩⟩ := hfour
    rfl

theorem scanWordOf_group {g : CStr} (hg : IsHex g) (hlen : g.length = 4) (more : CStr) :
    scanWordOf 4 (g ++ more) = some (g, more) := by
  have hspace := nospace_of_hex hg
  have hdrop : (g ++ more).dropWhile isspace = g ++ more := by
    obtain ⟨c, cs, rfl⟩ := List.exists_cons_of_ne_nil hg.1
    exact List.dropWhile_cons_of_neg (by simp [hspace c List.mem_cons_self])
  have htake : ((g ++ more).takeWhile (fun c => !isspace c)).take 4 = g := by
    rw [List.takeWhile_append_of_pos fun c hc => by rw [hspace c hc]; rfl, ← hlen, List.take_left]
  simp only [scanWordOf, hdrop, htake, if_neg hg.1, List.drop_left]

theorem splitWords_flatten (hgs : ∀ g ∈ gs, IsHex g ∧ g.length = 4) (more : CStr) :
    splitWords gs.length (gs.flatten ++ more) = gs := by
  induction gs with
  | nil => rfl
  | cons g gs ih =>
    obtain ⟨hg, hlen⟩ := hgs g List.mem_cons_self
    rw [List.flatten_cons, List.append_assoc, List.length_cons, splitWords,
      scanWordOf_group hg hlen]
    exact congrArg (List.cons g) (ih fun d hd => hgs d (List.mem_cons_of_mem _ hd))

theorem appendGroups_eq (hgs : ∀ g ∈ gs, IsHex g ∧ g.length = 4) {t : CStr} (ht : t.length < 40) :
    appendGroups gs t =
      if t.length + 5 * gs.length < 40 then some (t ++ terminated gs) else none := by
  induction gs generalizing t with
  | nil => rw [if_pos (by simpa using ht)]; simp [appendGroups, terminated]
  | cons g gs ih =>
    have hg := (hgs g List.mem_cons_self).2
    have hlen : (t ++ g ++ [':']).length = t.length + 5 := by
      simp only [List.length_append, List.length_singleton]
      omega
    rw [appendGroups, hg, List.length_cons]
    by_cases hfit : t.length + 5 < 40
    · have hrest := ih (fun d hd => hgs d (List.mem_cons_of_mem _ hd)) (t := t ++ g ++ [':'])
        (by omega)
      rw [if_neg (by omega), hrest, hlen, show t.length + 5 * (gs.length + 1) =
        t.length + 5 + 5 * gs.length by omega]
      simp [terminated]
    · rw [if_pos (by omega), if_neg (by omega)]

end groups

section lines

variable (l : Line)

theorem scanNumbers_text (tail : CStr) :
    scanNumbers (' ' :: (l.index ++ (' ' :: (l.plen ++ (' ' :: (l.scope ++ (' ' :: (l.flags ++
      (' ' :: tail))))))))) =
    some (BitVec.ofNat 32 l.length, BitVec.ofNat 32 (hexNat l.scope), ' ' :: tail) := by
  have hblank : ∀ t, Ended (' ' :: t) := ended_cons rfl
  have hnumber : ∀ t : CStr, IsHex t ∧ t.length ≤ 8 → ∀ rest,
      scanHex (' ' :: (t ++ ' ' :: rest)) = some (BitVec.ofNat 32 (hexNat t), ' ' :: rest) :=
    fun t ht rest => scanHex_field gap_blank ht.1 ht.2 (hblank rest)
  simp only [scanNumbers, hnumber _ l.index_hex, hnumber _ l.plen_hex, hnumber _ l.scope_hex,
    hnumber _ l.flags_hex, Option.bind_eq_bind, Option.bind_some]
  rfl

def Line.details (k : ℕ) : Details where
  bitsToMask := BitVec.ofNat 32 l.length
  address6 := if (inet_ntop6 l.address).length < 40 then inet_ntop6 l.address else joined l.groups
  scopeofipv6 := BitVec.ofNat 32 (hexNat l.scope)
  prefix_v6 := terminated (l.groups.take k)

def Line.count : ℕ := (l.length + 15) / 16

theorem inet_pton6_groups : inet_pton6 (joined l.groups) = some l.address := by
  apply inet_pton6_joined
  · rw [List.forall₂_map_right_iff]
    exact List.forall₂_same.mpr fun g hg =>
      isGroup_hex (l.groups_hex.2 g hg).1 (by rw [(l.groups_hex.2 g hg).2])
  · rw [List.length_map, l.groups_hex.1]

theorem groupCount_length : groupCount (BitVec.ofNat 32 l.length) = l.count := by
  have hle : l.length ≤ 128 := l.length_le
  rw [groupCount, Line.count, BitVec.toNat_ofNat,
    Nat.mod_eq_of_lt (show l.length < 2 ^ 32 by omega)]
  split <;> omega

theorem length_joined : (joined l.groups).length < 40 := by
  obtain ⟨hlen, hgs⟩ := l.groups_hex
  have hcolons : ∀ gs : List CStr, (∀ g ∈ gs, IsHex g ∧ g.length = 4) →
      (joined gs).length ≤ 5 * gs.length - 1 := by
    intro gs hgs
    induction gs with
    | nil => exact Nat.zero_le _
    | cons g gs ih =>
      have hg := (hgs g List.mem_cons_self).2
      have htail := ih fun d hd => hgs d (List.mem_cons_of_mem _ hd)
      cases gs with
      | nil => exact hg.le
      | cons g' gs =>
        rw [joined, List.length_append, List.length_cons, hg]
        simp only [List.length_cons] at htail ⊢
        omega
  have hle := hcolons _ hgs
  omega

theorem parse_front (env : Env) (old interface : CStr) {tail intrName rest : CStr}
    (htail : scanWord (' ' :: (List.replicate (8 - l.name.length) ' ' ++ tail)) =
      some (intrName, rest)) :
    parseProcfileParams env old (l.front ++ tail) interface =
      if 20 ≤ intrName.length then none
      else if interface ≠ intrName then some none
      else if l.count ≤ 7 then some (some (l.details l.count)) else none := by
  obtain ⟨hlen, hgs⟩ := l.groups_hex
  have hflat : l.groups.flatten.length = 32 := by rw [length_flatten hgs, hlen]
  have hfront : l.front ++ tail = l.groups.flatten ++ (' ' :: (l.index ++ (' ' :: (l.plen ++
      (' ' :: (l.scope ++ (' ' :: (l.flags ++ (' ' :: (List.replicate (8 - l.name.length) ' ' ++
        tail)))))))))) := by simp [Line.front]
  have hnospace : ∀ c ∈ l.groups.flatten, isspace c = false := by
    intro c hc
    obtain ⟨g, hg, hcg⟩ := List.mem_flatten.mp hc
    exact nospace_of_hex (hgs g hg).1 c hcg
  have hword := scanWord_field gap_nil (List.ne_nil_of_length_pos (by rw [hflat]; omega)) hnospace
    (@ended_cons ' ' rfl (l.index ++ (' ' :: (l.plen ++ (' ' :: (l.scope ++ (' ' :: (l.flags ++
      (' ' :: (List.replicate (8 - l.name.length) ' ' ++ tail))))))))))
  have hsplit := splitWords_flatten hgs (' ' :: (l.index ++ (' ' :: (l.plen ++ (' ' :: (l.scope ++
    (' ' :: (l.flags ++ (' ' :: (List.replicate (8 - l.name.length) ' ' ++ tail))))))))))
  rw [hlen] at hsplit
  rw [List.nil_append] at hword
  have hcolons := withColons_flatten hlen hgs
  have hjoined := length_joined l
  have htake : ∀ g ∈ l.groups.take l.count, IsHex g ∧ g.length = 4 :=
    fun g hg => hgs g (List.mem_of_mem_take hg)
  have hle : l.length ≤ 128 := l.length_le
  have hcount : l.count ≤ 8 := by rw [Line.count]; omega
  have happend := appendGroups_eq htake (t := []) (by decide)
  rw [List.length_take, hlen, Nat.min_eq_left hcount, List.length_nil, List.nil_append] at happend
  rw [hfront, parseProcfileParams, hword]
  dsimp only
  rw [if_neg (by omega), scanNumbers_text]
  dsimp only
  rw [htail]
  dsimp only
  rw [hcolons, if_neg (by omega : ¬ 40 ≤ (joined l.groups).length), inet_pton6_groups, hsplit,
    if_pos hlen, groupCount_length, happend]
  by_cases hfit : l.count ≤ 7
  · rw [if_pos (by omega : 0 + 5 * l.count < 40), if_pos hfit]
    rfl
  · rw [if_neg (by omega : ¬ 0 + 5 * l.count < 40), if_neg hfit]
    rfl

theorem length_front : l.front.length ≤ 77 := by
  have hflat := length_flatten l.groups_hex.2
  have hlen := l.groups_hex.1
  have hindex := l.index_hex.2
  have hplen := l.plen_hex.2
  have hscope := l.scope_hex.2
  have hflags := l.flags_hex.2
  simp only [Line.front, List.length_append, List.length_cons, List.length_replicate]
  omega

theorem newline_notMem_front : '\n' ∉ l.front := by
  have hhex : ∀ t, IsHex t → '\n' ∉ t := fun t ht h => absurd (ht.2 _ h) (by decide)
  have hflat : '\n' ∉ l.groups.flatten := by
    intro h
    obtain ⟨g, hg, hmem⟩ := List.mem_flatten.mp h
    exact hhex g (l.groups_hex.2 g hg).1 hmem
  simp [Line.front, hflat, hhex _ l.index_hex.1, hhex _ l.plen_hex.1, hhex _ l.scope_hex.1,
    hhex _ l.flags_hex.1]

theorem newline_notMem_name : '\n' ∉ l.name := by
  intro h
  have hspace := l.name_word.2 _ h
  cases hspace

theorem gap_replicate (n : ℕ) : Gap (' ' :: List.replicate n ' ') := by
  intro c hc
  rcases List.mem_cons.mp hc with rfl | hc
  · rfl
  · rw [List.eq_of_mem_replicate hc]
    rfl

variable (env : Env) (ifname old : CStr)

theorem addrInfos_text (hname : l.name.length < 20) (rest : CStr) :
    addrInfos env ifname old (FgetsLines.reads 199 (l.text ++ rest)) =
      if l.name = ifname then
        if l.count ≤ 7 then
          (addrInfos env ifname (terminated (l.groups.take l.count))
            (FgetsLines.reads 199 rest)).map (addrInfo (l.details l.count) :: ·)
        else none
      else addrInfos env ifname old (FgetsLines.reads 199 rest) := by
  have hfront := length_front l
  have htext : l.text ++ rest = (l.front ++ l.name) ++ '\n' :: rest := by simp [Line.text]
  have hline : (l.front ++ l.name) ++ ['\n'] = l.front ++ (l.name ++ ['\n']) :=
    List.append_assoc _ _ _
  have hnl : '\n' ∉ l.front ++ l.name :=
    fun h => (List.mem_append.mp h).elim (newline_notMem_front l) (newline_notMem_name l)
  have hword := scanWord_field (gap_replicate (8 - l.name.length)) l.name_word.1 l.name_word.2
    (@ended_cons '\n' rfl [])
  rw [List.cons_append] at hword
  rw [htext, FgetsLines.reads_line hnl (by rw [List.length_append]; omega), hline, addrInfos,
    parse_front l env old ifname hword, if_neg (by omega : ¬ 20 ≤ l.name.length)]
  by_cases heq : l.name = ifname
  · rw [if_neg (not_not.mpr heq.symm), if_pos heq]
    by_cases hfit : l.count ≤ 7
    · rw [if_pos hfit, if_pos hfit]
      rfl
    · rw [if_neg hfit, if_neg hfit]
  · rw [if_pos (Ne.symm heq), if_neg heq]

theorem addrInfos_long (hname : 20 ≤ l.name.length) (rest : CStr) :
    addrInfos env ifname old (FgetsLines.reads 199 (l.text ++ rest)) = none := by
  have hfront := length_front l
  have hshort : (l.name.take 20).length = 20 := List.length_take_of_le hname
  have htext : l.text ++ rest =
      (l.front ++ l.name.take 20) ++ (l.name.drop 20 ++ '\n' :: rest) := by
    have hname := List.take_append_drop 20 l.name
    rw [List.append_assoc, ← List.append_assoc (l.name.take 20), hname]
    simp [Line.text]
  have hnl : '\n' ∉ l.front ++ l.name.take 20 := fun h => (List.mem_append.mp h).elim
    (newline_notMem_front l) fun h => newline_notMem_name l (List.mem_of_mem_take h)
  have hne : l.name.take 20 ≠ [] := List.ne_nil_of_length_pos (by omega)
  obtain ⟨more, after, hread⟩ := FgetsLines.reads_start hnl
    (List.append_ne_nil_of_right_ne_nil _ hne)
    (by rw [List.length_append]; omega : _ ≤ 199) (l.name.drop 20 ++ '\n' :: rest)
  obtain ⟨v, behind, hword⟩ := scanWord_start (gap_replicate (8 - l.name.length)) hne
    (fun c hc => l.name_word.2 c (List.mem_of_mem_take hc)) more
  rw [List.cons_append] at hword
  rw [htext, hread, List.append_assoc, addrInfos, parse_front l env old ifname hword, if_pos]
  rw [List.length_append]
  omega

theorem address_bytes : l.address.length = 16 ∧ ∀ o ∈ l.address, o < 256 := by
  constructor
  · rw [Line.address, length_flatMap_groupOctets, List.length_map, l.groups_hex.1]
  · intro o ho
    obtain ⟨w, hw, ho⟩ := List.mem_flatMap.mp ho
    obtain ⟨g, hg, rfl⟩ := List.mem_map.mp hw
    have hlt := hexNat_lt g
    rw [(l.groups_hex.2 g hg).2] at hlt
    simp only [groupOctets, List.mem_cons, List.not_mem_nil, or_false] at ho
    omega

theorem inet_pton6_prefix (hcount : l.count ≤ 7) :
    inet_pton6 (runOf (l.groups.take l.count) []) =
      some (l.address.take (2 * l.count) ++ List.replicate (2 * (8 - l.count)) 0) := by
  obtain ⟨hlen, hgs⟩ := l.groups_hex
  have hgroups : List.Forall₂ IsGroup (l.groups.take l.count)
      ((l.groups.take l.count).map hexNat) := by
    rw [List.forall₂_map_right_iff]
    exact List.forall₂_same.mpr fun g hg =>
      have hg' := hgs g (List.mem_of_mem_take hg)
      isGroup_hex hg'.1 (by rw [hg'.2])
  have hread := inet_pton6_runOf hgroups List.Forall₂.nil (n := 8 - l.count) (by omega) (by
    rw [List.length_map, List.length_take, List.length_nil]
    omega)
  have htake : l.address.take (2 * l.count) =
      ((l.groups.take l.count).map hexNat).flatMap groupOctets := by
    have hsplit : l.address = ((l.groups.take l.count).map hexNat).flatMap groupOctets ++
        ((l.groups.drop l.count).map hexNat).flatMap groupOctets := by
      rw [← List.flatMap_append, ← List.map_append, List.take_append_drop]
      rfl
    rw [hsplit]
    apply List.take_left'
    rw [length_flatMap_groupOctets, List.length_map, List.length_take]
    omega
  rw [hread, htake, List.flatMap_nil, List.append_nil]

theorem bitAt_take {os zs : List ℕ} {k i : ℕ} (hi : i < 8 * k) (hk : k ≤ os.length) :
    bitAt (os.take k ++ zs) i = bitAt os i := by
  have hlt : i / 8 < k := by omega
  rw [bitAt, bitAt, List.getD_eq_getElem?_getD, List.getD_eq_getElem?_getD,
    List.getElem?_append_left (by rw [List.length_take]; omega), List.getElem?_take_of_lt hlt]

theorem describes_iff (hcount : l.count ≤ 7) :
    Describes l (addrInfo (l.details l.count)) ↔ 0 < l.length := by
  have hle : l.length ≤ 128 := l.length_le
  have hnat : (BitVec.ofNat 32 l.length).toNat = l.length :=
    (BitVec.toNat_ofNat ..).trans (Nat.mod_eq_of_lt (by omega))
  have htext : intText (BitVec.ofNat 32 l.length) = decimal l.length := by
    rw [intText_of_lt (by omega), hnat]
  have hpre : (addrInfo (l.details l.count)).v6pre =
      (terminated (l.groups.take l.count) ++ [':']) ++ '/' :: decimal l.length := by
    change terminated (l.groups.take l.count) ++
      (':' :: '/' :: intText (BitVec.ofNat 32 l.length)) = _
    rw [htext]
    simp
  rw [Describes, hpre]
  constructor
  · rintro ⟨-, -, -, p, q, hp, hq, -⟩
    rw [← List.append_cancel_right hp] at hq
    apply Nat.pos_of_ne_zero
    intro hzero
    -- Without a group the prefix is a single colon.
    have hnone : l.count = 0 := by rw [Line.count, hzero]
    rw [hnone] at hq
    cases hq
  · intro hpos
    obtain ⟨hlen, hbyte⟩ := address_bytes l
    have hne : l.groups.take l.count ≠ [] := by
      have hlen := l.groups_hex.1
      apply List.ne_nil_of_length_pos
      rw [List.length_take, Line.count]
      omega
    have hrun : terminated (l.groups.take l.count) ++ [':'] = runOf (l.groups.take l.count) [] := by
      rw [runOf, if_neg hne]
      rfl
    have hfit := @length_terminated (l.groups.take l.count)
      fun g hg => l.groups_hex.2 g (List.mem_of_mem_take hg)
    rw [List.length_take] at hfit
    have hdecimal : (decimal l.length).length ≤ 3 :=
      (decimal_length_le_iff (by decide)).mpr (by omega)
    have haddr : inet_pton6 (addrInfo (l.details l.count)).v6addr = some l.address ∧
        (addrInfo (l.details l.count)).v6addr.length < 40 := by
      dsimp only [addrInfo, Line.details]
      split
      · next hshort => exact ⟨inet_pton6_inet_ntop6 hlen hbyte, hshort⟩
      · exact ⟨inet_pton6_groups l, length_joined l⟩
    refine ⟨haddr.1, lt_trans haddr.2 (by decide), ?_, _, _, rfl,
      by rw [hrun, inet_pton6_prefix l hcount], ?_⟩
    · simp only [List.length_append, List.length_cons, List.length_nil]
      omega
    · intro i hi
      rw [bitAt_take]
      · rw [Line.count]
        omega
      · rw [hlen]
        omega

end lines

/-- The addresses are listed right exactly when every name fits its field and the lines of
the interface have a prefix length from 1 to 112. -/
theorem lists_addresses_iff (env : Env) (ifname : CStr) (lines : List Line) :
    ListsAddresses env ifname lines ↔ ∀ l ∈ lines, l.name.length < 20 ∧
      (l.name = ifname → 0 < l.length ∧ l.length ≤ 112) := by
  have hcount : ∀ l : Line, l.count ≤ 7 ↔ l.length ≤ 112 := by
    intro l
    rw [Line.count]
    omega
  rw [ListsAddresses, CosaUtilGetIpv6AddrInfo]
  generalize env.prefix_v6 = old
  induction lines generalizing old with
  | nil => simp [fileText, addrInfos]
  | cons l lines ih =>
    rw [fileText, List.flatMap_cons, List.forall_mem_cons]
    change (∃ rs, addrInfos env ifname old (FgetsLines.reads 199 (l.text ++ fileText lines)) =
      some rs ∧ _) ↔ _
    by_cases hname : l.name.length < 20
    · rw [addrInfos_text l env ifname old hname]
      by_cases heq : l.name = ifname
      · rw [if_pos heq, List.filter_cons_of_pos (by simpa using heq)]
        by_cases hfit : l.count ≤ 7
        · have hshort := (hcount l).mp hfit
          have hrest := ih (terminated (l.groups.take l.count))
          rw [if_pos hfit]
          constructor
          · rintro ⟨rs, hrs, hall⟩
            obtain ⟨rs', hrs', rfl⟩ := Option.map_eq_some_iff.mp hrs
            obtain ⟨hhead, htail⟩ := List.forall₂_cons.mp hall
            exact ⟨⟨hname, fun _ => ⟨(describes_iff l hfit).mp hhead, hshort⟩⟩,
              hrest.mp ⟨rs', hrs', htail⟩⟩
          · rintro ⟨⟨-, hgood⟩, hlines⟩
            obtain ⟨rs, hrs, hall⟩ := hrest.mpr hlines
            have hpos := (hgood heq).1
            exact ⟨_, Option.map_eq_some_iff.mpr ⟨rs, hrs, rfl⟩,
              List.forall₂_cons.mpr ⟨(describes_iff l hfit).mpr hpos, hall⟩⟩
        · rw [if_neg hfit]
          constructor
          · rintro ⟨rs, hrs, -⟩
            cases hrs
          · rintro ⟨⟨-, hgood⟩, -⟩
            exact absurd ((hcount l).mpr (hgood heq).2) hfit
      · rw [if_neg heq, List.filter_cons_of_neg (by simpa using heq)]
        constructor
        · exact fun h => ⟨⟨hname, fun h' => absurd h' heq⟩, (ih old).mp h⟩
        · exact fun h => (ih old).mpr h.2
    · rw [addrInfos_long l env ifname old (by omega)]
      constructor
      · rintro ⟨rs, hrs, -⟩
        cases hrs
      · rintro ⟨⟨hgood, -⟩, -⟩
        exact absurd hgood hname

def hostLine : Line where
  groups := ['2', '0', '0', '1'] :: List.replicate 7 ['0', '0', '0', '1']
  index := ['0', '4']
  plen := ['8', '0']
  scope := ['0', '0']
  flags := ['8', '0']
  name := ['e', 'r', 'o', 'u', 't', 'e', 'r', '0']
  groups_hex := by decide
  index_hex := by decide
  plen_hex := by decide
  scope_hex := by decide
  flags_hex := by decide
  length_le := by decide
  name_word := ⟨by decide, forall_false_of_any (by decide)⟩

def clearEnv : Env where
  sin6_addr := fun _ => 0
  prefix_v6 := []

/-- The eighth group of a prefix of 128 bits ends behind its field. -/
theorem host_prefix_too_long : ¬ ListsAddresses clearEnv hostLine.name [hostLine] := by
  have hcount : ¬ hostLine.count ≤ 7 := by decide
  have hread := addrInfos_text hostLine clearEnv hostLine.name [] (by decide) []
  rw [if_pos rfl, if_neg hcount] at hread
  rintro ⟨rs, hrs, -⟩
  change addrInfos clearEnv hostLine.name [] (FgetsLines.reads 199 (hostLine.text ++ [])) = _ at hrs
  rw [hread] at hrs
  cases hrs

end CcspPandM.IfInet6
