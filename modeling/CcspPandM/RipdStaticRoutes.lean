import CcspPandM.RipdConfig

/-!
The part of the configuration file of the RIP daemon that advertises static routes. The
length of a prefix is counted on the word in network order, where the loop stops at the
first zero bit, and the lines are put into one buffer of 512 bytes.
-/
namespace CcspPandM.RipdStaticRoutes

open CString HostOrder InetText Ipv4Addr RipdConfig ScanText SubnetMasks

/-- A static route; address and mask in network order, the lowest byte first. -/
structure COSA_DML_STATICROUTE_CFG where
  RIPAdvertise : Bool
  DestIPAddress : Addr
  DestSubnetMask : Addr
  contiguous : Contiguous (htonl DestSubnetMask)

/-- The loop over `K1`, which shifts only while the lowest bit is set. -/
def countOnes : ℕ → ULONG → ℕ → ℕ
  | 0, _, K2 => K2
  | K1 + 1, Val2, K2 =>
    if Val2 &&& 1 ≠ 0 then countOnes K1 (Val2 >>> 1) (K2 + 1) else countOnes K1 Val2 K2

def route : CStr := " route ".toList

def routeText (pEntry : COSA_DML_STATICROUTE_CFG) (K2 : ℕ) : CStr :=
  route ++ (dotted (addrOctets (pEntry.DestIPAddress &&& pEntry.DestSubnetMask)) ++
    '/' :: decimal K2)

/-- What is printed into `Buff2`, which has room for every line. -/
def printedLine (pEntry : COSA_DML_STATICROUTE_CFG) : CStr :=
  routeText pEntry (countOnes 32 pEntry.DestSubnetMask 0) ++ ['\n']

/-- The loop over the list. There is no result where `strcat` leaves `Buff`. -/
def appendRoutes : List COSA_DML_STATICROUTE_CFG → CStr → Option CStr
  | [], Buff => some Buff
  | pEntry :: rest, Buff =>
    if 500 < Buff.length then some Buff
    else if pEntry.RIPAdvertise then
      if (Buff ++ printedLine pEntry).length < 512 then
        appendRoutes rest (Buff ++ printedLine pEntry)
      else none
    else appendRoutes rest Buff

def CosaTimeGetRipdConfStaticPart (StaticRoute : List COSA_DML_STATICROUTE_CFG) : Option CStr :=
  appendRoutes StaticRoute []

section Law

def advertised (routes : List COSA_DML_STATICROUTE_CFG) : List COSA_DML_STATICROUTE_CFG :=
  routes.filter fun e => e.RIPAdvertise

def routeLine (e : COSA_DML_STATICROUTE_CFG) : CStr :=
  routeText e (oneBits e.DestSubnetMask) ++ ['\n']

def expected (routes : List COSA_DML_STATICROUTE_CFG) : CStr :=
  (advertised routes).flatMap routeLine

theorem countOnes_hostMask : ∀ k < 33, oneBits (htonl (hostMask 32 k)) = 32 - k ∧
    countOnes 32 (htonl (hostMask 32 k)) 0 = (32 - k) / 8 * 8 := by
  decide +kernel

variable (e : COSA_DML_STATICROUTE_CFG)

theorem countOnes_eq :
    countOnes 32 e.DestSubnetMask 0 = oneBits e.DestSubnetMask / 8 * 8 := by
  obtain ⟨k, hk, hmask⟩ := e.contiguous
  obtain ⟨hones, hcount⟩ := countOnes_hostMask k hk
  have hword : e.DestSubnetMask = htonl (hostMask 32 k) := by rw [← hmask, htonl_htonl]
  rw [hword, hones, hcount]

theorem countOnes_eq_iff :
    countOnes 32 e.DestSubnetMask 0 = oneBits e.DestSubnetMask ↔
      8 ∣ oneBits e.DestSubnetMask := by
  rw [countOnes_eq]
  omega

theorem newline_notMem_routeText (K2 : ℕ) :
    '\n' ∉ routeText e K2 := by
  have haddr : '\n' ∉ dotted (addrOctets (e.DestIPAddress &&& e.DestSubnetMask)) :=
    notMem_dotted_addrOctets (by decide) (by decide) _
  have hnumber : '\n' ∉ decimal K2 := fun h => by
    have hdigit := isDigit_of_mem_decimal h
    cases hdigit
  have hroute : '\n' ∉ route := by decide
  intro h
  rw [routeText, List.mem_append, List.mem_append, List.mem_cons] at h
  rcases h with h | h | h | h
  · exact hroute h
  · exact haddr h
  · cases h
  · exact hnumber h

theorem routeText_inj {e : COSA_DML_STATICROUTE_CFG} {m n : ℕ} :
    routeText e m = routeText e n ↔ m = n := by
  refine ⟨fun h => ?_, congrArg _⟩
  have htail := List.append_cancel_left (List.append_cancel_left h)
  exact decimal_injective (List.cons.inj htail).2

theorem length_printedLine : 11 < (printedLine e).length := by
  have haddr := length_dotted_addrOctets (e.DestIPAddress &&& e.DestSubnetMask)
  have hroute : route.length = 7 := rfl
  rw [printedLine, routeText, List.length_append, List.length_append, List.length_append,
    List.length_cons, hroute]
  omega

variable (routes : List COSA_DML_STATICROUTE_CFG)

theorem appendRoutes_some : ∀ {Buff t : CStr},
    Buff.length < 512 → appendRoutes routes Buff = some t → t.length < 512 ∧
      ∃ taken, taken <+: advertised routes ∧ t = Buff ++ taken.flatMap printedLine := by
  induction routes with
  | nil =>
    intro Buff t hroom h
    obtain rfl := Option.some.inj h
    exact ⟨hroom, [], List.nil_prefix, (List.append_nil _).symm⟩
  | cons e rest ih =>
    intro Buff t hroom h
    rw [appendRoutes] at h
    split at h
    · obtain rfl := Option.some.inj h
      exact ⟨hroom, [], List.nil_prefix, (List.append_nil _).symm⟩
    · cases hadvertised : e.RIPAdvertise with
      | true =>
        rw [hadvertised, if_pos rfl] at h
        split at h
        · rename_i hfits
          obtain ⟨hlength, taken, htaken, rfl⟩ := ih hfits h
          refine ⟨hlength, e :: taken, ?_, ?_⟩
          · rw [advertised, List.filter_cons_of_pos hadvertised]
            exact List.cons_prefix_cons.mpr ⟨rfl, htaken⟩
          · rw [List.flatMap_cons, List.append_assoc]
        · cases h
      | false =>
        rw [hadvertised, if_neg Bool.false_ne_true] at h
        obtain ⟨hlength, taken, htaken, ht⟩ := ih hroom h
        refine ⟨hlength, taken, ?_, ht⟩
        rw [advertised, List.filter_cons_of_neg (by rw [hadvertised]; exact Bool.false_ne_true)]
        exact htaken

theorem appendRoutes_of_fits : ∀ {Buff : CStr},
    (Buff ++ (advertised routes).flatMap printedLine).length < 512 →
      appendRoutes routes Buff = some (Buff ++ (advertised routes).flatMap printedLine) := by
  induction routes with
  | nil => exact fun _ => congrArg some (List.append_nil _).symm
  | cons e rest ih =>
    intro Buff hfits
    rw [appendRoutes]
    split
    · rename_i hlong
      -- behind the test there is no room for another line
      have hnone : advertised (e :: rest) = [] := by
        cases hmore : advertised (e :: rest) with
        | nil => rfl
        | cons a more =>
          have hline := length_printedLine a
          rw [hmore, List.flatMap_cons, List.length_append, List.length_append] at hfits
          omega
      rw [hnone]
      exact congrArg some (List.append_nil _).symm
    · cases hadvertised : e.RIPAdvertise with
      | true =>
        have hcons : advertised (e :: rest) = e :: advertised rest :=
          List.filter_cons_of_pos hadvertised
        rw [hcons, List.flatMap_cons, ← List.append_assoc] at hfits ⊢
        rw [if_pos rfl, if_pos, ih hfits]
        rw [List.length_append] at hfits
        omega
      | false =>
        have hcons : advertised (e :: rest) = advertised rest :=
          List.filter_cons_of_neg (by rw [hadvertised]; exact Bool.false_ne_true)
        rw [hcons] at hfits ⊢
        rw [if_neg Bool.false_ne_true]
        exact ih hfits

theorem line_append_inj {s t u v : CStr} (hs : '\n' ∉ s) (ht : '\n' ∉ t)
    (h : s ++ '\n' :: u = t ++ '\n' :: v) : s = t ∧ u = v := by
  have hstart : ∀ {s : CStr}, '\n' ∉ s → ∀ u : CStr, (s ++ '\n' :: u).takeWhile (· ≠ '\n') = s := by
    intro s hs u
    rw [List.takeWhile_append_of_pos, List.takeWhile_cons_of_neg (by simp), List.append_nil]
    intro c hc
    rw [decide_eq_true_eq]
    rintro rfl
    exact hs hc
  obtain rfl : s = t := by rw [← hstart hs u, h, hstart ht v]
  exact ⟨rfl, (List.cons.inj (List.append_cancel_left h)).2⟩

theorem lines_injective : ∀ {l l' : List CStr}, (∀ t ∈ l, '\n' ∉ t) → (∀ t ∈ l', '\n' ∉ t) →
    l.flatMap (· ++ ['\n']) = l'.flatMap (· ++ ['\n']) → l = l'
  | [], [], _, _, _ => rfl
  | [], t :: l', _, _, heq => by simp at heq
  | t :: l, [], _, _, heq => by simp at heq
  | t :: l, t' :: l', h, h', heq => by
    obtain ⟨ht, hl⟩ := List.forall_mem_cons.mp h
    obtain ⟨ht', hl'⟩ := List.forall_mem_cons.mp h'
    simp only [List.flatMap_cons, List.append_assoc, List.singleton_append] at heq
    obtain ⟨rfl, hrest⟩ := line_append_inj ht ht' heq
    rw [lines_injective hl hl' hrest]

theorem printed_eq_iff {taken routes : List COSA_DML_STATICROUTE_CFG} (h : taken <+: routes) :
    taken.flatMap printedLine = routes.flatMap routeLine ↔
      taken = routes ∧ ∀ e ∈ routes, 8 ∣ oneBits e.DestSubnetMask := by
  have hlines (f : COSA_DML_STATICROUTE_CFG → ℕ) (l : List COSA_DML_STATICROUTE_CFG) :
      l.flatMap (fun e => routeText e (f e) ++ ['\n']) =
        (l.map fun e => routeText e (f e)).flatMap (· ++ ['\n']) := by
    rw [List.flatMap_map]
  have hclean (f : COSA_DML_STATICROUTE_CFG → ℕ) (l : List COSA_DML_STATICROUTE_CFG) :
      ∀ t ∈ l.map fun e => routeText e (f e), '\n' ∉ t := by
    intro t ht
    obtain ⟨e, -, rfl⟩ := List.mem_map.mp ht
    exact newline_notMem_routeText e (f e)
  constructor
  · intro heq
    have hprinted := hlines (fun e => countOnes 32 e.DestSubnetMask 0) taken
    have hright := hlines (fun e => oneBits e.DestSubnetMask) routes
    have htexts := lines_injective (hclean _ _) (hclean _ _)
      (hprinted.symm.trans (heq.trans hright))
    have hlength : taken.length = routes.length := by simpa using congrArg List.length htexts
    obtain rfl := h.eq_of_length hlength
    refine ⟨rfl, fun e he => ?_⟩
    exact (countOnes_eq_iff e).mp (routeText_inj.mp (List.map_inj_left.mp htexts e he))
  · rintro ⟨rfl, hall⟩
    refine List.flatMap_congr fun e he => ?_
    rw [printedLine, routeLine, (countOnes_eq_iff e).mpr (hall e he)]

/-- The text is the right one just where each mask of an advertised route has whole bytes of
ones and the lines fit the buffer. -/
theorem static_part_iff (routes : List COSA_DML_STATICROUTE_CFG) :
    CosaTimeGetRipdConfStaticPart routes = some (expected routes) ↔
      (∀ e ∈ routes, e.RIPAdvertise = true → 8 ∣ oneBits e.DestSubnetMask) ∧
        (expected routes).length < 512 := by
  have hall : (∀ e ∈ advertised routes, 8 ∣ oneBits e.DestSubnetMask) ↔
      ∀ e ∈ routes, e.RIPAdvertise = true → 8 ∣ oneBits e.DestSubnetMask := by
    simp only [advertised, List.mem_filter, and_imp]
  rw [← hall]
  constructor
  · intro h
    obtain ⟨hlength, taken, htaken, heq⟩ := appendRoutes_some routes (by decide) h
    exact ⟨((printed_eq_iff htaken).mp heq.symm).2, hlength⟩
  · rintro ⟨hbytes, hlength⟩
    have heq := (printed_eq_iff (List.prefix_refl (advertised routes))).mpr ⟨rfl, hbytes⟩
    rw [expected, ← heq] at hlength ⊢
    exact appendRoutes_of_fits routes hlength

/-- The mask of 26 ones of the example in the source is printed as 24. -/
theorem example_cut : CosaTimeGetRipdConfStaticPart [⟨true, 0x8001010a, 0xc0ffffff, by decide⟩] ≠
    some (expected [⟨true, 0x8001010a, 0xc0ffffff, by decide⟩]) := by
  decide +kernel

end Law

end CcspPandM.RipdStaticRoutes
