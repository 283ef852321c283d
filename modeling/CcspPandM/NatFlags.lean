import CcspPandM.NatRules
import CcspPandM.Runs

/-!
The port-forwarding flag and its two copies, one in each module. No record of
the webconfig caches ever has the name of a flag, so a request reaches the flag
only through its own write, which it makes when its own copy differs; the NAT
module does the same with the other copy.
-/
namespace CcspPandM.NatFlags

open CString KeyStore FaultyStore Syscfg SubdocDecoders CacheRecords PortForwardCache
  PortForwardRequest NatRules Runs

/-- No record of the array has the name of a flag. -/
def FlagFree (c : Cache) : Prop := ∀ i f, (c i).cmd.text ≠ Feature.key f

theorem ne_key_of_head {key : CStr} (h : key.head? ≠ some 'C') (f : Feature) : key ≠ f.key := by
  rintro rfl
  cases f <;> exact h rfl

variable {c c' : Cache}

theorem FlagFree.of_putRecords {count : ℕ} {recs : List TCache} (hc : FlagFree c)
    (hrecs : ∀ r ∈ recs, ∀ f, r.cmd.text ≠ Feature.key f)
    (h : putRecords c count recs = some c') : FlagFree c' := by
  intro i f
  by_cases hi : i < count ∨ count + recs.length ≤ i
  · rw [putRecords_outside h hi]
    exact hc i f
  · have hlt : i - count < recs.length := by omega
    have hget : recs[i - count]? = some recs[i - count] := List.getElem?_eq_getElem hlt
    have hat := putRecords_inside h hget
    rw [show count + (i - count) = i by omega] at hat
    rw [hat]
    exact hrecs _ (List.getElem_mem _) f

variable {c : Cache}

theorem FlagFree.of_clearFrom (hc : FlagFree c) (i n : ℕ) :
    FlagFree (clearFrom c i n) := by
  intro j f
  unfold clearFrom
  split
  · exact ne_key_of_head (by simp [TCache.zero]) f
  · exact hc j f

theorem FlagFree.of_backup {src dst : Cache} (hsrc : FlagFree src) (hdst : FlagFree dst) (n : ℕ) :
    FlagFree (backupPfCache src dst n) := by
  intro i f
  unfold backupPfCache
  split
  · exact hsrc i f
  · exact hdst i f

theorem FlagFree.notMem_keys (hc : FlagFree c) (n : ℕ) (f : Feature) :
    f.key ∉ keys (cached c n) := by
  intro h
  obtain ⟨p, hp, hkey⟩ := List.mem_map.mp h
  obtain ⟨i, -, rfl⟩ := List.mem_map.mp hp
  exact hc i f hkey

theorem head_snprintf {n : ℕ} [NeZero n] {t : CStr} (h : t.head? ≠ some 'C') :
    (Buf.snprintf t : Buf n).text.head? ≠ some 'C' := by
  rw [Buf.text_snprintf]
  cases t with
  | nil => simp
  | cons c rest =>
    cases n - 1 with
    | zero => simp
    | succ m => exact h

theorem head_print {p : Printed} (h : p.cmd.head? ≠ some 'C') :
    p.print.cmd.text.head? ≠ some 'C' := by
  unfold Printed.print
  dsimp only
  split
  · rw [Buf.text_sprintf_s]
    split
    · exact h
    · simp
  · exact head_snprintf h

variable (single : Bool)

theorem head_alias (i : ℕ) (rest : CStr) :
    ((if single then aliasSpf i else aliasPfr i) ++ rest).head? ≠ some 'C' := by
  cases single
  · exact (Option.some_injective _).ne (by decide : 'p' ≠ 'C')
  · exact (Option.some_injective _).ne (by decide : 's' ≠ 'C')

theorem head_aliasKey (k : ℕ) : (aliasKey single k).head? ≠ some 'C' := by
  cases single
  · exact (Option.some_injective _).ne (by decide : 'P' ≠ 'C')
  · exact (Option.some_injective _).ne (by decide : 'S' ≠ 'C')

theorem entryRecords_heads (i k k' : ℕ) (port last client desc enable text : CStr) :
    ∀ p ∈ ((if single then singleHead i k port else rangeHead i k' port last) ++
      clientRecords (if single then aliasSpf i else aliasPfr i) client desc enable) ++
      ruleRecords (if single then aliasSpf i else aliasPfr i) text, p.cmd.head? ≠ some 'C' := by
  intro p hp
  rw [List.mem_append, List.mem_append] at hp
  rcases hp with (hp | hp) | hp
  · cases single with
    | true =>
      rcases List.mem_cons.mp hp with rfl | hp
      · exact head_aliasKey true k
      · rw [List.mem_singleton.mp hp]
        exact head_alias true i _
    | false =>
      rcases List.mem_cons.mp hp with rfl | hp
      · exact head_aliasKey false k'
      · simp only [List.mem_cons, List.not_mem_nil, or_false] at hp
        rcases hp with rfl | rfl | rfl <;> exact head_alias false i _
  · simp only [clientRecords, List.mem_cons, List.not_mem_nil, or_false] at hp
    rcases hp with rfl | rfl | rfl <;> exact head_alias single i _
  · simp only [ruleRecords, List.mem_cons, List.not_mem_nil, or_false] at hp
    rcases hp with rfl | rfl | rfl | rfl <;> exact head_alias single i _

theorem portmapEntry_heads {i spf pfr : ℕ} {e : Portdoc} {w : EntryWrites}
    (h : portmapEntry i spf pfr e = some w) :
    (∀ p ∈ w.records, p.cmd.head? ≠ some 'C') ∧
      ∀ cmd, w.half = some cmd → cmd.head? ≠ some 'C' := by
  have hempty : ∀ code, (∀ p ∈ (⟨[], none, some code, spf, pfr⟩ : EntryWrites).records,
      p.cmd.head? ≠ some 'C') ∧ ∀ cmd, (⟨[], none, some code, spf, pfr⟩ : EntryWrites).half =
        some cmd → cmd.head? ≠ some 'C' := by
    intro code
    exact ⟨fun p hp => absurd hp List.not_mem_nil, fun cmd hcmd => by cases hcmd⟩
  cases portmapEntry_cases h with
  | address | noPort | ports => exact hempty _
  | rule client port last desc enable protocol =>
    have hall := entryRecords_heads (decide (port = last)) i
      (if decide (port = last) then spf + 1 else spf)
      (if decide (port = last) then pfr else pfr + 1) port last client desc enable
    unfold ruleWrites
    cases protocolText protocol with
    | none =>
      refine ⟨fun p hp => hall [] p (List.mem_append_left _ hp), fun cmd hcmd => ?_⟩
      rw [← Option.some.inj hcmd]
      exact head_alias _ i _
    | some text => exact ⟨hall text, fun cmd hcmd => by cases hcmd⟩

variable {rpm : List Portdoc}

theorem portmapEntries_heads {i spf pfr : ℕ} {w : EntryWrites}
    (h : portmapEntries i spf pfr rpm = some w) :
    (∀ p ∈ w.records, p.cmd.head? ≠ some 'C') ∧
      ∀ cmd, w.half = some cmd → cmd.head? ≠ some 'C' := by
  induction rpm generalizing i spf pfr w with
  | nil =>
    rw [portmapEntries, Option.some.injEq] at h
    rw [← h]
    exact ⟨fun p hp => absurd hp List.not_mem_nil, fun cmd hcmd => by cases hcmd⟩
  | cons e rest ih =>
    simp only [portmapEntries, Option.bind_eq_bind, Option.bind_eq_some_iff] at h
    obtain ⟨w₁, hw₁, h⟩ := h
    have hfirst := portmapEntry_heads hw₁
    split at h
    · simp only [Option.bind_eq_some_iff, Option.some.injEq] at h
      obtain ⟨ws, hws, rfl⟩ := h
      have hrest := ih hws
      refine ⟨fun p hp => ?_, hrest.2⟩
      rcases List.mem_append.mp hp with hp | hp
      · exact hfirst.1 p hp
      · exact hrest.1 p hp
    · rw [Option.some.injEq] at h
      rw [← h]
      exact hfirst

theorem countRecords_heads (spf pfr : ℕ) :
    ∀ p ∈ countRecords spf pfr, p.cmd.head? ≠ some 'C' := by
  intro p hp
  rcases List.mem_cons.mp hp with rfl | hp
  · exact (Option.some_injective _).ne (by decide : 'S' ≠ 'C')
  · rw [List.mem_singleton.mp hp]
    exact (Option.some_injective _).ne (by decide : 'P' ≠ 'C')

theorem FlagFree.of_setPortmapConf {size size' : ℕ}
    {ret : Option ErrCode} (hc : FlagFree c)
    (h : setPortmapConf rpm c size = some (ret, c', size')) : FlagFree c' := by
  simp only [setPortmapConf, Option.bind_eq_bind, Option.bind_eq_some_iff] at h
  obtain ⟨w, hw, h⟩ := h
  obtain ⟨hrecords, hhalf⟩ := portmapEntries_heads hw
  have hprinted : ∀ ps : List Printed, (∀ p ∈ ps, p.cmd.head? ≠ some 'C') →
      ∀ r ∈ ps.map Printed.print, ∀ f, r.cmd.text ≠ Feature.key f := by
    intro ps hps r hr f
    obtain ⟨p, hp, rfl⟩ := List.mem_map.mp hr
    exact ne_key_of_head (head_print (hps p hp)) f
  split at h
  · simp only [Option.bind_eq_some_iff, Option.some.injEq, Prod.mk.injEq] at h
    obtain ⟨c₁, hput, -, rfl, -⟩ := h
    refine hc.of_putRecords (hprinted _ (fun p hp => ?_)) hput
    rcases List.mem_append.mp hp with hp | hp
    · exact hrecords p hp
    · exact countRecords_heads _ _ p hp
  · simp only [Option.bind_eq_some_iff] at h
    obtain ⟨c₁, hput, h⟩ := h
    have hc₁ := hc.of_putRecords (hprinted _ hrecords) hput
    split at h
    · simp only [Option.some.injEq, Prod.mk.injEq] at h
      obtain ⟨-, rfl, -⟩ := h
      exact hc₁
    · next cmd hcmd =>
      simp only [Option.bind_eq_some_iff, Option.some.injEq, Prod.mk.injEq] at h
      obtain ⟨c₂, hput', -, rfl, -⟩ := h
      refine hc₁.of_putRecords (fun r hr f => ?_) hput'
      rw [List.mem_singleton.mp hr]
      exact ne_key_of_head (head_snprintf (hhalf cmd hcmd)) f

variable {single : Bool}

theorem attribute_ne_key {alias_ suffix : CStr} (hlen : alias_.length < 8)
    (hs : suffix ∈ attributeSuffixes single) (f : Feature) :
    (alias_ ++ suffix).take 31 ≠ f.key := by
  intro h
  have hat : ∀ j < 12, (alias_ ++ suffix)[j]? = f.key[j]? := by
    intro j hj
    rw [← h, List.getElem?_take_of_lt (by omega)]
  have hcolon : ∀ m < 8, f.key[m]? = some ':' → m = 7 := by
    cases f <;> decide
  have hsuffix : suffix[0]? = some ':' := by
    obtain ⟨rest, rfl⟩ := suffix_colon hs
    rfl
  have hseven : alias_.length = 7 := by
    refine hcolon _ hlen ?_
    rw [← hat _ (by omega), List.getElem?_append_right (Nat.le_refl _), Nat.sub_self]
    exact hsuffix
  have hletters : ∀ j < 5, suffix[j]? = f.key[7 + j]? := by
    intro j hj
    rw [← hat _ (by omega), List.getElem?_append_right (by omega), hseven]
    congr 1
    omega
  have hdiffer : ∀ single, ∀ suffix ∈ attributeSuffixes single, ∀ f : Feature,
      f ∈ features → ¬ ∀ j < 5, suffix[j]? = f.key[7 + j]? := by
    decide
  exact hdiffer single suffix hs f (by cases f <;> decide) hletters

theorem attribute_print_ne_key (safe : Bool) {alias_ suffix : CStr}
    (hlen : alias_.length < 8) (hs : suffix ∈ attributeSuffixes single) (f : Feature) :
    (if safe then Buf.sprintf_s (alias_ ++ suffix) else Buf.snprintf (alias_ ++ suffix) :
      Buf 32).text ≠ f.key := by
  have htake := attribute_ne_key hlen hs f
  cases safe with
  | false => exact htake
  | true =>
    rw [if_pos rfl, Buf.text_sprintf_s]
    split
    · next hfit => rwa [List.take_of_length_le (by omega)] at htake
    · exact ne_key_of_head (by simp) f

theorem FlagFree.of_initEntry {j i : ℕ} {sc sc' : SyscfgState}
    (hc : FlagFree c) (h : initEntry noFaults single j i c sc = some (c', sc')) :
    FlagFree c' ∧ sc'.db = sc.db := by
  unfold initEntry at h
  dsimp only at h
  split at h
  · next hlen =>
    simp only [Option.bind_eq_bind, Option.bind_eq_some_iff, Option.some.injEq,
      Prod.mk.injEq] at h
    obtain ⟨c₁, hput, rfl, rfl⟩ := h
    refine ⟨hc.of_putRecords (fun r hr f => ?_) hput, by rw [syscfg_get_db]⟩
    rcases List.mem_cons.mp hr with rfl | hr
    · exact ne_key_of_head (head_snprintf (head_aliasKey single j)) f
    · obtain ⟨p, hp, rfl⟩ := List.mem_mapIdx.mp hr
      have hmem : (attributeSuffixes single)[p] ∈ attributeSuffixes single := List.getElem_mem hp
      have hne := attribute_print_ne_key (decide ((attributeSuffixes single)[p] =
        "::prev_rule_enabled_state".toList ∨ (attributeSuffixes single)[p] =
          "::internal_port_range_size".toList)) hlen hmem f
      simpa only [decide_eq_true_eq] using hne
  · cases h

theorem FlagFree.of_initEntries {j i n i' : ℕ} {sc sc' : SyscfgState} (hc : FlagFree c)
    (h : initEntries noFaults single j i n c sc = some (i', c', sc')) :
    FlagFree c' ∧ sc'.db = sc.db := by
  induction n generalizing j i c sc with
  | zero =>
    simp only [initEntries, Option.some.injEq, Prod.mk.injEq] at h
    obtain ⟨-, rfl, rfl⟩ := h
    exact ⟨hc, rfl⟩
  | succ n ih =>
    simp only [initEntries, Option.bind_eq_bind, Option.bind_eq_some_iff] at h
    obtain ⟨⟨c₁, sc₁⟩, h₁, h⟩ := h
    obtain ⟨hc₁, hdb₁⟩ := hc.of_initEntry h₁
    obtain ⟨hc', hdb'⟩ := ih hc₁ h
    exact ⟨hc', by rw [hdb', hdb₁]⟩

theorem FlagFree.of_initCount {key : CStr} (hc : FlagFree c)
    (hkey : key.head? ≠ some 'C') (i : ℕ) (sc : SyscfgState) :
    FlagFree (initCount noFaults key i c sc).2.2.1 ∧
      (initCount noFaults key i c sc).2.2.2.db = sc.db := by
  have hupdate : FlagFree (Function.update c i
      ⟨Buf.snprintf key, (syscfg_get (n := 129) noFaults key sc).2.1⟩) := by
    intro j f
    by_cases hj : j = i
    · subst hj
      rw [Function.update_self]
      exact ne_key_of_head (head_snprintf hkey) f
    · rw [Function.update_of_ne hj]
      exact hc j f
  unfold initCount
  dsimp only
  split
  · exact ⟨hupdate, by rw [syscfg_get_db]⟩
  · exact ⟨hupdate, by rw [syscfg_get_db]⟩

/-- The module's copy of the flag as `init_pf_cache` leaves it. -/
def initCopy (db : Store CStr CStr) : ℤ :=
  let t := (Buf.snprintf (textAt db pfParamName) : Buf 8).text
  if t ≠ [] then atoi t else 0

variable {db : Store CStr CStr}

theorem initPfCache_boot {s : PfState}
    (h : initPfCache noFaults (PfState.boot db) = some s) :
    FlagFree s.pf_cache ∧ FlagFree s.pf_cache_bkup ∧ s.sc.db = db ∧ s.gpfEnable = initCopy db := by
  have hzero : FlagFree (fun _ => TCache.zero) := by
    intro i f
    exact ne_key_of_head (by simp [TCache.zero]) f
  have hget : syscfg_get (n := 8) noFaults pfParamName ⟨db, 0⟩ =
      ((db pfParamName).isSome, Buf.snprintf (textAt db pfParamName), ⟨db, 1⟩) :=
    syscfg_get_noFaults _ _
  unfold initPfCache at h
  simp only [PfState.boot, hget, Option.bind_eq_bind, Option.bind_eq_some_iff,
    Option.some.injEq] at h
  obtain ⟨⟨i₁, c₁, sc₁⟩, h₁, ⟨i₂, c₂, sc₂⟩, h₂, rfl⟩ := h
  have hS : "SinglePortForwardCount".toList.head? ≠ some 'C' :=
    (Option.some_injective _).ne (by decide : 'S' ≠ 'C')
  have hP : "PortRangeForwardCount".toList.head? ≠ some 'C' :=
    (Option.some_injective _).ne (by decide : 'P' ≠ 'C')
  have hspf := hzero.of_initCount hS 0 ⟨db, 1⟩
  have hpfr := hspf.1.of_initCount hP
  obtain ⟨hc₁, hdb₁⟩ := (hpfr _ _).1.of_initEntries h₁
  obtain ⟨hc₂, hdb₂⟩ := hc₁.of_initEntries h₂
  refine ⟨hc₂, hzero, hdb₂.trans (hdb₁.trans ((hpfr _ _).2.trans hspf.2)), ?_⟩
  unfold initCopy textAt
  cases db pfParamName with
  | none => rfl
  | some v => simp

structure Guarded (s : NatState) : Prop where
  pf_cache : FlagFree s.web.pf_cache
  pf_cache_bkup : FlagFree s.web.pf_cache_bkup

structure Flags where
  stored : Feature → Option CStr
  nat : Feature → Bool
  web : ℤ

def flagView (s : NatState) : Flags := ⟨fun f => s.db f.key, s.g_NatEnable, s.web.gpfEnable⟩

/-- What an operation does to the flags: each module compares with its own copy
before it writes. -/
def flagStep (v : Flags) : NatOp → Flags
  | .natSet req _ => { v with
      stored := fun f => if req f ≠ v.nat f then some (boolText (req f)) else v.stored f
      nat := req }
  | .request rpm => if documentAccepted rpm then { v with
      stored := fun f => if v.web ≠ lpfEnable rpm ∧ f = .portForwarding then
        some (flagText (lpfEnable rpm)) else v.stored f
      web := lpfEnable rpm } else v
  | _ => v

variable {s : NatState}

theorem boot_flags (h : NatState.boot db = some s) :
    Guarded s ∧ flagView s = ⟨fun f => db f.key, initFlag db, initCopy db⟩ := by
  obtain ⟨web, hweb, rfl⟩ := Option.map_eq_some_iff.mp h
  obtain ⟨hc, hb, hdb, hgpf⟩ := initPfCache_boot hweb
  refine ⟨⟨hc, hb⟩, ?_⟩
  rw [flagView, NatState.db, hdb, hgpf]

theorem key_injective {f g : Feature} (h : f.key = g.key) : f = g := by
  revert h
  cases f <;> cases g <;> decide

theorem setAll_flagWrites (enable : Feature → Option Bool) (db : Store CStr CStr) (f : Feature) :
    setAll (flagWrites enable) db f.key = ((enable f).map boolText).or (db f.key) := by
  have hkeys : keys (flagWrites enable) =
      features.filterMap (fun f => (enable f).map (fun _ => f.key)) := by
    rw [keys, flagWrites, List.map_filterMap]
    simp only [Option.map_map]
    rfl
  cases hf : enable f with
  | none =>
    refine setAll_of_notMem db (fun hmem => ?_)
    rw [hkeys] at hmem
    obtain ⟨g, -, hg⟩ := List.mem_filterMap.mp hmem
    obtain ⟨b, hb, hkey⟩ := Option.map_eq_some_iff.mp hg
    rw [key_injective hkey, hf] at hb
    cases hb
  | some b =>
    rw [setAll_apply, lastValue_of_mem (v := boolText b)]
    · rfl
    · rw [hkeys]
      refine List.Nodup.filterMap (fun g g' k hg hg' => ?_) (by decide)
      obtain ⟨-, -, rfl⟩ := Option.map_eq_some_iff.mp hg
      obtain ⟨-, -, hkey⟩ := Option.map_eq_some_iff.mp hg'
      exact (key_injective hkey).symm
    · exact List.mem_filterMap.mpr ⟨f, by cases f <;> decide, by rw [hf]; rfl⟩

theorem flagView_withDb
    (h : ∀ f : Feature, db f.key = s.db f.key) : flagView (s.withDb db) = flagView s := by
  rw [flagView, flagView]
  congr 1
  funext f
  exact h f

variable {s t : NatState} {u : Utopia}

theorem storeRules_flags {rules : Rules} {edit : RuleEdit}
    (hs : Guarded s) (h : storeRules u rules edit s = some t) :
    Guarded t ∧ flagView t = flagView s := by
  obtain ⟨-, h⟩ := Option.ite_none_right_eq_some.mp h
  rw [← Option.some.inj h]
  exact ⟨⟨hs.pf_cache, hs.pf_cache_bkup⟩, flagView_withDb (edit.flags s.db)⟩

theorem cosaDmlNatSet_flags {req : Feature → Bool} {edit : RuleEdit}
    (hs : Guarded s) (h : cosaDmlNatSet u req edit s = some t) :
    Guarded t ∧ flagView t = flagStep (flagView s) (.natSet req edit) := by
  unfold cosaDmlNatSet at h
  split at h
  · next hnone =>
    have hsame : ∀ f, req f = s.g_NatEnable f := by
      intro f
      have hf := List.all_eq_true.mp hnone f (by cases f <;> decide)
      by_contra hne
      rw [changedFlags, if_pos hne] at hf
      cases hf
    rw [Option.some.injEq] at h
    rw [← h]
    refine ⟨hs, ?_⟩
    simp [flagView, flagStep, ← funext hsame]
  · unfold updateNatPfHsEnable at h
    obtain ⟨-, h⟩ := Option.ite_none_right_eq_some.mp h
    rw [← Option.some.inj h]
    refine ⟨⟨hs.pf_cache, hs.pf_cache_bkup⟩, ?_⟩
    have hdb : ∀ f : Feature, setAll (flagWrites (changedFlags s req)) (edit.apply s.db) f.key =
        if req f ≠ s.g_NatEnable f then some (boolText (req f)) else s.db f.key := by
      intro f
      rw [setAll_flagWrites, edit.flags, changedFlags]
      split <;> rfl
    have hnat : ∀ f, (changedFlags s req f).getD (s.g_NatEnable f) = req f := by
      intro f
      rw [changedFlags]
      split
      · rfl
      · next hsame => exact (not_not.mp hsame).symm
    simp only [flagView, flagStep, NatState.withDb, NatState.db, hnat]
    congr 1
    exact funext hdb

theorem processPFWebConfigRequest_flags {web web' : PfState} {err : Err}
    (hc : FlagFree web.pf_cache) (hb : FlagFree web.pf_cache_bkup)
    (h : processPFWebConfigRequest noFaults rpm web = some (err, web')) :
    FlagFree web'.pf_cache ∧ FlagFree web'.pf_cache_bkup ∧
      (err.ErrorCode = .BLOB_EXEC_SUCCESS ↔ documentAccepted rpm = true) ∧
      web'.gpfEnable = (if documentAccepted rpm then lpfEnable rpm else web.gpfEnable) ∧
      ∀ f : Feature, web'.sc.db f.key =
        if documentAccepted rpm ∧ web.gpfEnable ≠ lpfEnable rpm ∧ f = .portForwarding then
          some (flagText (lpfEnable rpm)) else web.sc.db f.key := by
  have hbkup := hc.of_backup hb web.pf_cache_size
  have hcleared : FlagFree (cleared web).pf_cache := hc.of_clearFrom 0 web.pf_cache_size
  have hdb : ∀ f : Feature, (cleared web).sc.db f.key = web.sc.db f.key :=
    fun f => unsetAll_of_notMem _ (hc.notMem_keys _ f)
  have houtcome := processPFWebConfigRequest_outcome h
  generalize err.ErrorCode = code at houtcome ⊢
  cases houtcome with
  | clearing n m calls hno hm => exact absurd (fun _ _ => rfl) hno
  | applying w c size calls hclear hw hret hset hfault =>
    obtain ⟨i, hi⟩ := hfault
    cases hi
  | document w code c size hclear hw hret hset =>
    obtain ⟨haccepted, hcode⟩ := portmapEntries_ret hw
    have hno : ¬ documentAccepted rpm = true := by
      rw [← haccepted, hret]
      exact Option.some_ne_none code
    refine ⟨hcleared.of_setPortmapConf hset, hbkup, iff_of_false (hcode code hret) hno,
      (if_neg hno).symm, fun f => ?_⟩
    rw [if_neg (fun hall => hno hall.1)]
    exact hdb f
  | done w c size calls hclear hw hret hset =>
    obtain ⟨-, -, -, hcached⟩ := setPortmapConf_of_accepted hset hw hret
    have hyes := (portmapEntries_ret hw).1.mp hret
    have hfree := hcleared.of_setPortmapConf hset
    refine ⟨hfree, hbkup, iff_of_true rfl hyes, (if_pos hyes).symm, fun f => ?_⟩
    change setAll ((requestWrites rpm w web).take _) (cleared web).sc.db f.key = _
    rw [leading_noFaults, List.take_length, requestWrites, ← hcached, setAll_append,
      setAll_of_notMem _ (hfree.notMem_keys size f)]
    by_cases hsame : web.gpfEnable ≠ lpfEnable rpm
    · rw [if_pos hsame]
      by_cases hf : f = .portForwarding
      · rw [if_pos ⟨hyes, hsame, hf⟩, hf]
        exact set_self (cleared web).sc.db pfParamName (flagText (lpfEnable rpm))
      · rw [if_neg (fun hall => hf hall.2.2), ← hdb f]
        exact set_of_ne (cleared web).sc.db _ (fun hkey => hf (key_injective hkey))
    · rw [if_neg hsame, if_neg (fun hall => hsame hall.2.1), ← hdb f]
      rfl

theorem rollbackPortForwarding_flags (hs : Guarded s) :
    Guarded { s with web := (rollbackPortForwarding noFaults s.web).2 } ∧
      flagView { s with web := (rollbackPortForwarding noFaults s.web).2 } = flagView s := by
  obtain ⟨hdb, hcache, -⟩ := rollbackPortForwarding_noFaults s.web
  obtain ⟨calls, happly⟩ := applyPfCacheToDB_eq noFaults s.web.pf_cache_bkup
    s.web.pf_cache_size_bkup s.web.gpfEnable s.web
  have hkept : (rollbackPortForwarding noFaults s.web).2.pf_cache_bkup = s.web.pf_cache_bkup := by
    change (applyPfCacheToDB _ _ _ _ _).2.pf_cache_bkup = _
    rw [happly]
  have hgpf : (rollbackPortForwarding noFaults s.web).2.gpfEnable = s.web.gpfEnable := by
    change (applyPfCacheToDB _ _ _ _ _).2.gpfEnable = _
    rw [happly]
  refine ⟨⟨?_, ?_⟩, ?_⟩
  · rw [hcache]
    exact hs.pf_cache_bkup.of_backup hs.pf_cache _
  · rw [hkept]
    exact hs.pf_cache_bkup
  · simp only [flagView, NatState.db, hdb, hgpf]
    congr 1
    funext f
    exact setAll_of_notMem _ (hs.pf_cache_bkup.notMem_keys _ f)

theorem natStep_flags {op : NatOp} (hs : Guarded s)
    (h : natStep u s op = some t) : Guarded t ∧ flagView t = flagStep (flagView s) op := by
  have hstay : ∀ {t'}, some s = some t' → Guarded t' ∧ flagView t' = flagView s := by
    intro t' ht'
    rw [← Option.some.inj ht']
    exact ⟨hs, rfl⟩
  cases op with
  | add p e edit =>
    simp only [natStep, cosaDmlNatAddPortMapping] at h
    split at h
    · exact storeRules_flags hs h
    · exact hstay h
  | setMapping p e edit =>
    simp only [natStep, cosaDmlNatSetPortMapping] at h
    split at h
    · exact storeRules_flags hs h
    · exact hstay h
  | del ulInstanceNumber edit =>
    simp only [natStep, cosaDmlNatDelPortMapping] at h
    split at h
    · exact hstay h
    · split at h
      · exact storeRules_flags hs h
      · split at h
        · exact storeRules_flags hs h
        · exact hstay h
  | natSet req edit => exact cosaDmlNatSet_flags hs h
  | request rpm =>
    obtain ⟨⟨err, web⟩, hreq, rfl⟩ := Option.map_eq_some_iff.mp h
    obtain ⟨hc, hb, -, hgpf, hdb⟩ :=
      processPFWebConfigRequest_flags hs.pf_cache hs.pf_cache_bkup hreq
    refine ⟨⟨hc, hb⟩, ?_⟩
    simp only [flagView, flagStep, NatState.db, hgpf]
    cases hyes : documentAccepted rpm with
    | false =>
      simp only [hyes, Bool.false_eq_true, false_and, if_false] at hdb ⊢
      congr 1
      exact funext hdb
    | true =>
      simp only [hyes, true_and, if_true] at hdb ⊢
      congr 1
      exact funext hdb
  | rollback =>
    rw [natStep, Option.some.injEq] at h
    rw [← h]
    exact rollbackPortForwarding_flags hs

def FlagsAgree (v : Flags) : Prop :=
  v.stored .portForwarding = some (boolText (v.nat .portForwarding)) ∧
    v.web = if v.nat .portForwarding then 1 else 0

/-- What should be true after an operation: the copies agree, and the stored
flag is the one a request of either side asked for. -/
def FlagsKept (s : NatState) (op : NatOp) (t : NatState) : Prop :=
  FlagsAgree (flagView t) ∧
    match op with
    | .natSet req _ => t.db pfParamName = some (boolText (req .portForwarding))
    | .request rpm => ∀ err web, processPFWebConfigRequest noFaults rpm s.web = some (err, web) →
        err.ErrorCode = .BLOB_EXEC_SUCCESS → t.db pfParamName = some (flagText (lpfEnable rpm))
    | _ => True

/-- The operation asks for no other value of the flag than the one its own
module has. -/
def FlagNeutral (s : NatState) : NatOp → Prop
  | .natSet req _ => req .portForwarding = s.g_NatEnable .portForwarding
  | .request rpm => documentAccepted rpm = true → lpfEnable rpm = s.web.gpfEnable
  | _ => True

theorem boot_agree_iff (h : NatState.boot db = some s) :
    FlagsAgree (flagView s) ↔ db pfParamName = some ['0'] ∨ db pfParamName = some ['1'] := by
  rw [(boot_flags h).2]
  change db pfParamName = some (boolText (initFlag db .portForwarding)) ∧
    initCopy db = (if initFlag db .portForwarding then 1 else 0) ↔ _
  constructor
  · rintro ⟨hstored, -⟩
    cases hb : initFlag db .portForwarding with
    | false =>
      rw [hb] at hstored
      exact Or.inl hstored
    | true =>
      rw [hb] at hstored
      exact Or.inr hstored
  · have hboth : ∀ b, db pfParamName = some (boolText b) →
        initFlag db .portForwarding = b ∧ initCopy db = if b then 1 else 0 := by
      intro b hb
      have htext : textAt db pfParamName = boolText b := by
        unfold textAt
        rw [hb, Option.getD_some]
      unfold initFlag initCopy
      rw [show textAt db (Feature.key .portForwarding) = boolText b from htext, htext]
      refine ⟨?_, ?_⟩
      · cases b
        · rfl
        · rfl
      · cases b
        · rfl
        · rfl
    rintro (hoff | hon)
    · obtain ⟨hnat, hweb⟩ := hboth false hoff
      exact ⟨by rw [hnat]; exact hoff, by rw [hnat]; exact hweb⟩
    · obtain ⟨hnat, hweb⟩ := hboth true hon
      exact ⟨by rw [hnat]; exact hon, by rw [hnat]; exact hweb⟩

theorem natSet_agree_iff {v : Flags} (hv : FlagsAgree v) (req : Feature → Bool) (edit : RuleEdit) :
    (flagStep v (.natSet req edit)).stored .portForwarding =
        some (boolText (req .portForwarding)) ∧
      (FlagsAgree (flagStep v (.natSet req edit)) ↔
        req .portForwarding = v.nat .portForwarding) := by
  obtain ⟨hstored, hweb⟩ := hv
  have hnew : (flagStep v (.natSet req edit)).stored .portForwarding =
      some (boolText (req .portForwarding)) := by
    change (if req .portForwarding ≠ v.nat .portForwarding then _ else _) = _
    split
    · rfl
    · next hsame => rw [hstored, not_not.mp hsame]
  refine ⟨hnew, ?_⟩
  constructor
  · rintro ⟨-, hcopy⟩
    change v.web = (if req .portForwarding then 1 else 0) at hcopy
    rw [hweb] at hcopy
    by_contra hne
    cases hreq : req .portForwarding <;> cases hnat : v.nat .portForwarding <;>
      simp [hreq, hnat] at hne hcopy
  · intro hsame
    refine ⟨hnew, ?_⟩
    change v.web = if req .portForwarding then 1 else 0
    rw [hsame]
    exact hweb

theorem request_agree_iff {v : Flags} (hv : FlagsAgree v)
    (haccepted : documentAccepted rpm = true) :
    FlagsAgree (flagStep v (.request rpm)) ∧
      (flagStep v (.request rpm)).stored .portForwarding = some (flagText (lpfEnable rpm)) ↔
      lpfEnable rpm = v.web := by
  obtain ⟨hstored, hweb⟩ := hv
  simp only [FlagsAgree, flagStep, haccepted, if_true, and_true]
  constructor
  · rintro ⟨⟨-, hcopy⟩, -⟩
    rw [hcopy, hweb]
  · intro hsame
    rw [if_neg (fun hne => hne hsame.symm), hsame, hweb, hstored]
    refine ⟨⟨rfl, rfl⟩, ?_⟩
    cases v.nat .portForwarding <;> rfl

theorem flagsKept_iff {op : NatOp} (hs : Guarded s)
    (hagree : FlagsAgree (flagView s)) (h : natStep u s op = some t) :
    FlagsKept s op t ↔ FlagNeutral s op := by
  have hview := (natStep_flags hs h).2
  have hdb : t.db pfParamName = (flagView t).stored .portForwarding := rfl
  cases op with
  | natSet req edit =>
    obtain ⟨hstored, hiff⟩ := natSet_agree_iff hagree req edit
    unfold FlagsKept
    dsimp only
    rw [hdb, hview, and_iff_left hstored]
    exact hiff
  | request rpm =>
    obtain ⟨⟨err, web⟩, hreq, -⟩ := Option.map_eq_some_iff.mp h
    have hsuccess := (processPFWebConfigRequest_flags hs.pf_cache hs.pf_cache_bkup hreq).2.2.1
    unfold FlagsKept FlagNeutral
    dsimp only
    rw [hdb, hview]
    cases haccepted : documentAccepted rpm with
    | false =>
      rw [haccepted] at hsuccess
      refine iff_of_true ⟨?_, fun err' web' hreq' herr => ?_⟩ (fun hno => by cases hno)
      · simp only [flagStep, haccepted, Bool.false_eq_true, if_false]
        exact hagree
      · rw [hreq, Option.some.injEq, Prod.mk.injEq] at hreq'
        rw [← hreq'.1] at herr
        cases hsuccess.mp herr
    | true =>
      rw [imp_iff_right rfl]
      refine Iff.trans ?_ (request_agree_iff hagree haccepted)
      refine and_congr_right (fun _ => ⟨fun hall => hall err web hreq (hsuccess.mpr haccepted),
        fun hstored _ _ _ _ => hstored⟩)
  | _ => exact iff_of_true ⟨by rw [hview]; exact hagree, trivial⟩ trivial

/-- From boot on, the stored flag and the two copies agree, and every request
leaves the value it asks for, exactly in the runs that start with a flag text
and whose operations are neutral. -/
theorem natRun_flags_agree_iff (u : Utopia) (db : Store CStr CStr) (ops : List NatOp)
    (s t : NatState) (hboot : NatState.boot db = some s) (hrun : run (natStep u) s ops = some t) :
    FlagsAgree (flagView s) ∧ Along (natStep u) FlagsKept s ops ↔
      (db pfParamName = some ['0'] ∨ db pfParamName = some ['1']) ∧
        StepsMeet (natStep u) FlagNeutral s ops := by
  rw [boot_agree_iff hboot]
  refine and_congr_right (fun hstart => ?_)
  refine along_iff (natStep u) (fun s => Guarded s ∧ FlagsAgree (flagView s)) ?_ ?_ ?_ hrun
  · intro s op t hs h
    exact flagsKept_iff hs.1 hs.2 h
  · intro s op t hs hok h
    exact ⟨(natStep_flags hs.1 h).1, ((flagsKept_iff hs.1 hs.2 h).mpr hok).1⟩
  · exact ⟨(boot_flags hboot).1, (boot_agree_iff hboot).mpr hstart⟩

def flagStore (enabled : Bool) : Store CStr CStr :=
  setAll [(pfParamName, boolText enabled)] (fun _ => none)

/-- How a platform may read the rules of an alias, without the names. -/
def reader : Utopia where
  single db alias_ := {
    rule_id := 0
    name := []
    enabled := textAt db (alias_ ++ "::enabled".toList) == ['1']
    prevRuleEnabledState := textAt db (alias_ ++ "::prev_rule_enabled_state".toList) == ['1']
    protocol := .BOTH_TCP_UDP
    external_port := (atoi (textAt db (alias_ ++ "::external_port".toList))).toNat
    internal_port := (atoi (textAt db (alias_ ++ "::internal_port".toList))).toNat
    dest_ip := textAt db (alias_ ++ "::to_ip".toList)
    dest_ipv6 := textAt db (alias_ ++ "::to_ipv6".toList) }
  range db alias_ := {
    rule_id := 0
    name := []
    enabled := textAt db (alias_ ++ "::enabled".toList) == ['1']
    prevRuleEnabledState := textAt db (alias_ ++ "::prev_rule_enabled_state".toList) == ['1']
    protocol := .BOTH_TCP_UDP
    start_port := 0
    end_port := 0
    internal_port := (atoi (textAt db (alias_ ++ "::internal_port".toList))).toNat
    internal_port_range_size := 0
    public_ip := textAt db (alias_ ++ "::public_ip".toList)
    dest_ip := textAt db (alias_ ++ "::to_ip".toList)
    dest_ipv6 := textAt db (alias_ ++ "::to_ipv6".toList) }

def noEdit : RuleEdit := ⟨id, fun _ _ => rfl⟩

def onlyPortForwarding : Feature → Bool
  | .portForwarding => true
  | _ => false

/-- With the flag on, a request that leaves it on, one with an entry and a
rollback keep the flags together. -/
theorem natRun_flags_agree_neutral : ∃ s t, NatState.boot (flagStore true) = some s ∧
    run (natStep reader) s [.natSet onlyPortForwarding noEdit, .request [portdoc "80" "80"],
      .rollback] = some t ∧
    FlagsAgree (flagView s) ∧ Along (natStep reader) FlagsKept s
      [.natSet onlyPortForwarding noEdit, .request [portdoc "80" "80"], .rollback] := by
  have hdone : ((NatState.boot (flagStore true)).bind (fun s => run (natStep reader) s
      [.natSet onlyPortForwarding noEdit, .request [portdoc "80" "80"], .rollback])).isSome := by
    decide +kernel
  obtain ⟨t, ht⟩ := Option.isSome_iff_exists.mp hdone
  obtain ⟨s, hboot, hrun⟩ := Option.bind_eq_some_iff.mp ht
  refine ⟨s, t, hboot, hrun, (natRun_flags_agree_iff reader _ _ s t hboot hrun).mpr
    ⟨Or.inr rfl, ?_⟩⟩
  obtain ⟨hs, hview⟩ := boot_flags hboot
  refine ⟨(congrFun (congrArg Flags.nat hview) .portForwarding).symm, fun s₁ h₁ =>
    ⟨fun _ => ?_, fun _ _ => ⟨trivial, fun _ _ => trivial⟩⟩⟩
  have hcopy : s₁.web.gpfEnable = s.web.gpfEnable := congrArg Flags.web (natStep_flags hs h₁).2
  have hinit : initCopy (flagStore true) = 1 := by decide +kernel
  rw [hcopy, show s.web.gpfEnable = _ from congrArg Flags.web hview, hinit]
  rfl

/-- With the flag off at boot, the NAT module switches it on and the webconfig
module does not hear of it. -/
theorem natRun_flags_apart : ¬ ∀ (u : Utopia) (db : Store CStr CStr) (ops : List NatOp)
    (s t : NatState), NatState.boot db = some s → run (natStep u) s ops = some t →
    FlagsAgree (flagView s) → Along (natStep u) FlagsKept s ops := by
  intro hclaim
  have hrun : (NatState.boot (flagStore false)).bind (fun s =>
      (natStep reader s (.natSet onlyPortForwarding noEdit)).map (fun t =>
        (t.db pfParamName, t.g_NatEnable .portForwarding, t.web.gpfEnable))) =
      some (some ['1'], true, 0) := by
    decide +kernel
  obtain ⟨s, hboot, hrun⟩ := Option.bind_eq_some_iff.mp hrun
  obtain ⟨t, ht, hval⟩ := Option.map_eq_some_iff.mp hrun
  rw [Prod.mk.injEq, Prod.mk.injEq] at hval
  obtain ⟨-, hnat, hweb⟩ := hval
  have hsteps : run (natStep reader) s [.natSet onlyPortForwarding noEdit] = some t := by
    rw [run_cons, ht]
    rfl
  have hagree := hclaim reader (flagStore false) _ s t hboot hsteps
    ((boot_agree_iff hboot).mpr (Or.inl rfl))
  have hcopy : t.web.gpfEnable = if t.g_NatEnable .portForwarding then 1 else 0 :=
    (hagree t ht).1.1.2
  rw [hnat, hweb] at hcopy
  cases hcopy

end CcspPandM.NatFlags
