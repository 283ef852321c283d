import CcspPandM.IpInterfaceCalls

/-!
Which interface an operation reaches. On a fixed interface every operation is served in its
own slot. On one of the list it is served there when its number lies on the right side of the
bound that the operation compares with, and the bounds differ by one.
-/
namespace CcspPandM.IpInterfaceDispatch

open CString IpInterfaceCalls KeyedList TextSearch
open MlanInterfaces (ULONG ANSC_STATUS COSA_DML_IP_IF_CFG COSA_DML_IP_IF_FULL DMSB_TR181_IP_IF
  DMSB_TR181_IP_CONTEXT Psm System brlan0 instanceOf CosaDmlIpIfMlanFindByInstNum
  CosaDmlIpIfMlanSavePsm savePsm_eq writeFound)

section Slots

variable {build : Build} {w : World} {s : State}

theorem setBuf_self (s : State) (i : ℕ) : s.setBuf i (s.g_ipif_be_bufs i) = s := by
  rw [State.setBuf, Function.update_eq_self]

structure SlotDone (s : State) (i : ℕ) (o : Outcome) : Prop where
  after : ∃ b, o.after = s.setBuf i b
  buf : .buf i ∈ o.accesses
  only : ∀ a ∈ o.accesses, a = .buf i ∨ a = .name i
  found : o.answer ≠ .NULL ∧ o.answer ≠ .CANT_FIND

theorem slotBody_done {table : V6Table} {c : V6Call} {i : ℕ} {o : Outcome}
    (h : slotBody build w s table c i = some o) : SlotDone s i o := by
  have hsame : ∃ b, s = s.setBuf i b := ⟨_, (setBuf_self s i).symm⟩
  cases c with
  | get =>
    obtain rfl := Option.some.inj h
    exact ⟨⟨_, rfl⟩, by simp [fixedGetV6], by simp [fixedGetV6, or_comm], nofun, nofun⟩
  | add pEntry =>
    rw [slotBody, fixedAddV6] at h
    split at h
    · obtain rfl := Option.some.inj h
      exact ⟨hsame, by simp, by simp, nofun, nofun⟩
    · obtain rfl := Option.some.inj h
      exact ⟨⟨_, rfl⟩, by simp, by simp, nofun, nofun⟩
  | del pEntry =>
    rw [slotBody, fixedDelV6] at h
    split at h
    · cases h
    · obtain rfl := Option.some.inj h
      exact ⟨⟨_, rfl⟩, by simp, by simp, nofun, nofun⟩
  | set pEntry =>
    rw [slotBody, fixedSetV6] at h
    split at h
    · cases h
    · obtain rfl := Option.some.inj h
      exact ⟨⟨_, rfl⟩, by simp, by simp, nofun, nofun⟩
  | get2 pEntry =>
    rw [slotBody, fixedGetV6Entry] at h
    split at h
    · cases h
    · obtain rfl := Option.some.inj h
      exact ⟨hsame, by simp, by simp, nofun, nofun⟩

theorem slotBody_none {table : V6Table} {c : V6Call} {i : ℕ}
    (h : slotBody build w s table c i = none) :
    lastAnswer c ≠ .NULL ∧ (lastAnswer c = .CANT_FIND → Absent s i (.V6 table c)) := by
  cases c with
  | get => cases h
  | add pEntry =>
    rw [slotBody, fixedAddV6] at h
    split at h <;> cases h
  | del pEntry =>
    rw [slotBody, fixedDelV6] at h
    split at h
    · rename_i hnone
      exact ⟨nofun, fun _ e he => of_decide_eq_false (List.findIdx?_eq_none_iff.mp hnone e he)⟩
    · cases h
  | set pEntry =>
    rw [slotBody, fixedSetV6] at h
    split at h
    · rename_i hnone
      exact ⟨nofun, fun _ e he => of_decide_eq_false (List.findIdx?_eq_none_iff.mp hnone e he)⟩
    · cases h
  | get2 pEntry => exact ⟨nofun, nofun⟩

theorem accesses_v6 (n : ULONG) (i : ℕ) (table : V6Table) (c : V6Call) :
    .buf i ∈ (serveSlot build w s n i (.V6 table c)).accesses ∧
      ∀ a ∈ (serveSlot build w s n i (.V6 table c)).accesses, a = .buf i ∨ a = .name i := by
  rw [serveSlot, atSlot]
  cases hbody : slotBody build w s table c i with
  | none => simp
  | some o => exact ⟨(slotBody_done hbody).buf, (slotBody_done hbody).only⟩

theorem serveSlot_after (n : ULONG) (i : ℕ) (op : Op) :
    ∃ b, (serveSlot build w s n i op).after = s.setBuf i b := by
  have hsame : ∃ b, s = s.setBuf i b := ⟨_, (setBuf_self s i).symm⟩
  cases op with
  | SetCfg pCfg => exact ⟨_, rfl⟩
  | GetV4Addr ulIndex pEntry => exact ⟨_, rfl⟩
  | SetV4Addr pEntry => exact ⟨_, rfl⟩
  | V6 table c =>
    rw [serveSlot, atSlot]
    cases hbody : slotBody build w s table c i with
    | none => exact hsame
    | some o => exact (slotBody_done hbody).after
  | _ => exact hsame

theorem serveSlot_found (n : ULONG) (i : ℕ) (op : Op) :
    (serveSlot build w s n i op).answer ≠ .NULL ∧
      ((serveSlot build w s n i op).answer = .CANT_FIND → Absent s i op) := by
  cases op with
  | V6 table c =>
    rw [serveSlot, atSlot]
    cases hbody : slotBody build w s table c i with
    | none => exact slotBody_none hbody
    | some o =>
      obtain ⟨hnull, hmissing⟩ := (slotBody_done hbody).found
      exact ⟨hnull, fun h => absurd h hmissing⟩
  | _ => exact ⟨nofun, nofun⟩

theorem kept_slot {op : Op} {x : Interface} {i : ℕ} (h : LivesAt build op x (.slot i))
    (n : ULONG) : Kept build s op x (serveSlot build w s n i op).after := by
  obtain ⟨b, hb⟩ := @serveSlot_after build w s n i op
  rw [hb]
  refine ⟨fun j hj => Function.update_of_ne ?_ .., fun _ _ => rfl, fun _ _ => ⟨rfl, rfl, rfl⟩⟩
  rintro rfl
  cases x with
  | fixed i => exact hj h
  | mlan p pIpIf => exact hj h

end Slots

section Elements

variable {build : Build} {w : World} {s : State} {p : ℕ} {x : DMSB_TR181_IP_IF}

theorem setCfg_writes {ctx : DMSB_TR181_IP_CONTEXT} (sys : System) {pCfg : COSA_DML_IP_IF_CFG}
    (hfind : CosaDmlIpIfMlanFindByInstNum ctx pCfg.InstanceNumber = some x) :
    (MlanInterfaces.CosaDmlIpIfMlanSetCfg sys ctx pCfg).1 ≠ .CANT_FIND ∧
      ∃ y, instanceOf y = pCfg.InstanceNumber ∧
        (MlanInterfaces.CosaDmlIpIfMlanSetCfg sys ctx pCfg).2 =
          ⟨writeFound ctx.IpIfList y, CosaDmlIpIfMlanSavePsm ctx.psm pCfg⟩ := by
  rw [MlanInterfaces.CosaDmlIpIfMlanSetCfg, hfind]
  dsimp only
  split
  · exact ⟨fun h => ANSC_STATUS.noConfusion h, _, rfl, rfl⟩
  split
  · exact ⟨fun h => ANSC_STATUS.noConfusion h, _, rfl, rfl⟩
  split
  · exact ⟨fun h => ANSC_STATUS.noConfusion h, _, rfl, rfl⟩
  · exact ⟨fun h => ANSC_STATUS.noConfusion h, _, rfl, rfl⟩

/-- What an operation on an interface of the list leaves alone. -/
structure Spared (s : State) (n : ULONG) (s' : State) : Prop where
  bufs : s'.g_ipif_be_bufs = s.g_ipif_be_bufs
  entries : ∀ m, m ≠ n →
    find instanceOf s'.pIpContext.IpIfList m = find instanceOf s.pIpContext.IpIfList m
  records : ∀ m, m ≠ n → s'.pIpContext.psm.l3net m = s.pIpContext.psm.l3net m ∧
    s'.V4Addr m = s.V4Addr m ∧ s'.V4SubnetMask m = s.V4SubnetMask m

theorem spared_refl (s : State) (n : ULONG) : Spared s n s :=
  ⟨rfl, fun _ _ => rfl, fun _ _ => ⟨rfl, rfl, rfl⟩⟩

theorem l3net_save {psm : Psm} {pCfg : COSA_DML_IP_IF_CFG} {m : ULONG}
    (hm : m ≠ pCfg.InstanceNumber) :
    (CosaDmlIpIfMlanSavePsm psm pCfg).l3net m = psm.l3net m := by
  rw [savePsm_eq]
  exact Function.update_of_ne hm ..

theorem find_put_of_ne {l : List DMSB_TR181_IP_IF} {y : DMSB_TR181_IP_IF} {m : ULONG}
    (hm : m ≠ instanceOf y) : find instanceOf (put instanceOf l y) m = find instanceOf l m := by
  rw [find_put, if_neg hm]

variable (hnodup : (s.pIpContext.IpIfList.map instanceOf).Nodup)
  (hx : s.pIpContext.IpIfList[p]? = some x)

include hnodup hx

theorem found_of_place :
    CosaDmlIpIfMlanFindByInstNum s.pIpContext (instanceOf x) = some x :=
  (find_eq_some_iff hnodup _ _).mpr ⟨List.mem_of_getElem? hx, rfl⟩

theorem accesses_element (op : Op) :
    ∀ a ∈ (serveElement w s p (instanceOf x) op).accesses,
      a = .entry (instanceOf x) ∨ a = .records (instanceOf x) := by
  have hfind := found_of_place hnodup hx
  have hrecords : ∀ a ∈ recordsOf (instanceOf x),
      a = .entry (instanceOf x) ∨ a = .records (instanceOf x) := by
    intro a ha
    rw [recordsOf] at ha
    split at ha
    · exact absurd ha List.not_mem_nil
    · exact Or.inr (List.mem_singleton.mp ha)
  cases op with
  | SetValues pAlias =>
    simp only [serveElement, CosaDmlIpIfMlanSetValues, hx]
    split <;> simp
  | SetCfg pCfg =>
    have hfind' : CosaDmlIpIfMlanFindByInstNum s.pIpContext
      (numbered pCfg (instanceOf x)).InstanceNumber = some x := hfind
    simp only [serveElement, CosaDmlIpIfMlanSetCfg, foundAccesses, hfind']
    simp [numbered]
  | GetCfg =>
    simp only [serveElement, CosaDmlIpIfMlanGetCfg, hfind]
    simp
  | GetInfo =>
    simp only [serveElement, CosaDmlIpIfMlanGetInfo, hfind]
    simp
  | DelEntry =>
    simp only [serveElement, CosaDmlIpIfMlanDelEntry, foundAccesses, hfind]
    simp [or_comm]
  | GetV4Addr ulIndex pEntry =>
    rw [serveElement, CosaDmlIpIfMlanGetV4Addr]
    split
    · exact fun a ha => absurd ha List.not_mem_nil
    · exact hrecords
  | SetV4Addr pEntry =>
    rw [serveElement, CosaDmlIpIfMlanSetV4Addr]
    split
    · exact fun a ha => absurd ha List.not_mem_nil
    · simp
  | GetV4Addr2 pEntry => exact hrecords
  | V6 table c =>
    cases c with
    | get => exact hrecords
    | get2 pEntry => cases table <;> exact hrecords
    | _ => cases table <;> exact fun a ha => absurd ha List.not_mem_nil
  | _ => exact fun a ha => absurd ha List.not_mem_nil

theorem found_element (op : Op) :
    (serveElement w s p (instanceOf x) op).answer ≠ .NULL ∧
      (serveElement w s p (instanceOf x) op).answer ≠ .CANT_FIND := by
  have hfind := found_of_place hnodup hx
  have hof : ∀ st : ANSC_STATUS, st ≠ .CANT_FIND →
      Answer.of st ≠ .NULL ∧ Answer.of st ≠ .CANT_FIND := by
    intro st hst
    cases st with
    | SUCCESS => exact ⟨fun h => Answer.noConfusion h, fun h => Answer.noConfusion h⟩
    | FAILURE => exact ⟨fun h => Answer.noConfusion h, fun h => Answer.noConfusion h⟩
    | CANT_FIND => exact absurd rfl hst
  cases op with
  | SetValues pAlias =>
    apply hof
    rw [MlanInterfaces.CosaDmlIpIfMlanSetValues, hx]
    dsimp only
    split <;> exact fun h => ANSC_STATUS.noConfusion h
  | SetCfg pCfg => exact hof _ (@setCfg_writes x _ w.sys (numbered pCfg (instanceOf x)) hfind).1
  | GetCfg =>
    simp only [serveElement, CosaDmlIpIfMlanGetCfg, hfind]
    exact ⟨fun h => Answer.noConfusion h, fun h => Answer.noConfusion h⟩
  | GetInfo =>
    simp only [serveElement, CosaDmlIpIfMlanGetInfo, hfind]
    exact ⟨fun h => Answer.noConfusion h, fun h => Answer.noConfusion h⟩
  | DelEntry =>
    apply hof
    rw [MlanInterfaces.CosaDmlIpIfMlanDelEntry, hfind]
    exact fun h => ANSC_STATUS.noConfusion h
  | GetV4Addr ulIndex pEntry =>
    rw [serveElement, CosaDmlIpIfMlanGetV4Addr]
    split <;> exact ⟨fun h => Answer.noConfusion h, fun h => Answer.noConfusion h⟩
  | SetV4Addr pEntry =>
    rw [serveElement, CosaDmlIpIfMlanSetV4Addr]
    split <;> exact ⟨fun h => Answer.noConfusion h, fun h => Answer.noConfusion h⟩
  | V6 table c =>
    cases table <;> cases c <;>
      exact ⟨fun h => Answer.noConfusion h, fun h => Answer.noConfusion h⟩
  | _ => exact ⟨fun h => Answer.noConfusion h, fun h => Answer.noConfusion h⟩

theorem spared_setValues (pAlias : CStr) :
    Spared s (instanceOf x) (CosaDmlIpIfMlanSetValues s p pAlias).after := by
  have hput : ∀ y, instanceOf y = instanceOf x → ∀ m, m ≠ instanceOf x →
      find instanceOf (s.pIpContext.IpIfList.set p y) m =
        find instanceOf s.pIpContext.IpIfList m := by
    intro y hy m hm
    rw [set_eq_put hnodup hx hy]
    exact find_put_of_ne (by rw [hy]; exact hm)
  simp only [CosaDmlIpIfMlanSetValues, MlanInterfaces.CosaDmlIpIfMlanSetValues, hx]
  split
  · exact ⟨rfl, hput _ rfl, fun m _ => ⟨rfl, rfl, rfl⟩⟩
  · exact ⟨rfl, hput _ rfl, fun m hm => ⟨l3net_save hm, rfl, rfl⟩⟩

theorem spared_setCfg (pCfg : COSA_DML_IP_IF_CFG) :
    Spared s (instanceOf x) (CosaDmlIpIfMlanSetCfg w s (numbered pCfg (instanceOf x))).after := by
  have hfind := found_of_place hnodup hx
  obtain ⟨y, hy, hafter⟩ := (@setCfg_writes x _ w.sys (numbered pCfg (instanceOf x)) hfind).2
  have hput : writeFound s.pIpContext.IpIfList y = put instanceOf s.pIpContext.IpIfList y := by
    apply replaceF_eq_put hnodup
    rw [hy]
    exact List.mem_map_of_mem (List.mem_of_getElem? hx)
  rw [CosaDmlIpIfMlanSetCfg]
  dsimp only
  rw [hafter, hput]
  refine ⟨rfl, fun m hm => find_put_of_ne ?_, fun m hm => ⟨l3net_save hm, rfl, rfl⟩⟩
  rw [hy]
  exact hm

theorem spared_delEntry :
    Spared s (instanceOf x) (CosaDmlIpIfMlanDelEntry s (instanceOf x)).after := by
  have hfind := found_of_place hnodup hx
  simp only [CosaDmlIpIfMlanDelEntry, MlanInterfaces.CosaDmlIpIfMlanDelEntry, hfind]
  refine ⟨rfl, fun m hm => ?_, fun m hm => ⟨Function.update_of_ne hm ..,
    Function.update_of_ne hm .., Function.update_of_ne hm ..⟩⟩
  rw [eraseP_eq_drop hnodup, find_drop, if_neg hm]

theorem spared_element (op : Op) :
    Spared s (instanceOf x) (serveElement w s p (instanceOf x) op).after := by
  have hfind := found_of_place hnodup hx
  cases op with
  | SetValues pAlias => exact spared_setValues hnodup hx pAlias
  | SetCfg pCfg => exact spared_setCfg hnodup hx pCfg
  | GetCfg =>
    simp only [serveElement, CosaDmlIpIfMlanGetCfg, hfind]
    exact spared_refl s _
  | GetInfo =>
    simp only [serveElement, CosaDmlIpIfMlanGetInfo, hfind]
    exact spared_refl s _
  | DelEntry => exact spared_delEntry hnodup hx
  | GetV4Addr ulIndex pEntry =>
    rw [serveElement, CosaDmlIpIfMlanGetV4Addr]
    split <;> exact spared_refl s _
  | SetV4Addr pEntry =>
    rw [serveElement, CosaDmlIpIfMlanSetV4Addr]
    split
    · exact spared_refl s _
    · exact ⟨rfl, fun _ _ => rfl,
        fun m hm => ⟨rfl, Function.update_of_ne hm .., Function.update_of_ne hm ..⟩⟩
  | V6 table c => cases table <;> cases c <;> exact spared_refl s _
  | _ => exact spared_refl s _

theorem kept_element (op : Op) :
    Kept build s op (.mlan p x) (serveElement w s p (instanceOf x) op).after := by
  have hspared := @spared_element w s p x hnodup hx op
  exact ⟨fun j _ => congrFun hspared.bufs j, fun m hm => hspared.entries m hm,
    fun m hm => hspared.records m hm⟩

end Elements

section Names

variable {build : Build} {i j : ℕ}

theorem one_lt_num (build : Build) :
    1 < COSA_USG_IF_NUM build ∧ COSA_USG_IF_NUM build < 2 ^ 31 := by
  rw [COSA_USG_IF_NUM]
  split <;> omega

theorem names_length :
    ((g_usg_if_cfg build).map USG_IF_CFG.IfName).length = COSA_USG_IF_NUM build := by
  rw [g_usg_if_cfg, COSA_USG_IF_NUM]
  split <;> rfl

theorem names_nodup (build : Build) : ((g_usg_if_cfg build).map USG_IF_CFG.IfName).Nodup := by
  rw [g_usg_if_cfg]
  split <;> decide

theorem names_get (hi : i < COSA_USG_IF_NUM build) :
    ((g_usg_if_cfg build).map USG_IF_CFG.IfName)[i]? = some (g_ipif_names build i) := by
  rw [← names_length] at hi
  rw [g_ipif_names, List.getElem?_eq_getElem hi]
  rfl

theorem names_inj (hi : i < COSA_USG_IF_NUM build) (hj : j < COSA_USG_IF_NUM build)
    (h : g_ipif_names build i = g_ipif_names build j) : i = j := by
  apply (List.getElem?_inj (by rw [names_length]; exact hi) (names_nodup build)).mp
  rw [names_get hi, names_get hj, h]

theorem names_last (build : Build) : g_ipif_names build (COSA_USG_IF_NUM build - 1) = brlan0 := by
  rw [g_ipif_names, g_usg_if_cfg, COSA_USG_IF_NUM]
  split <;> rfl

theorem names_not_lan (hi : i < COSA_USG_IF_NUM build - 1) :
    (strstr "lan".toList (g_ipif_names build i)).isSome = false := by
  rw [COSA_USG_IF_NUM] at hi
  rw [g_ipif_names, g_usg_if_cfg]
  split at hi
  · rename_i hwan
    have hcases : i = 0 ∨ i = 1 ∨ i = 2 := by omega
    rw [if_pos hwan]
    rcases hcases with rfl | rfl | rfl <;> decide
  · rename_i hwan
    have hcases : i = 0 ∨ i = 1 := by omega
    rw [if_neg hwan]
    rcases hcases with rfl | rfl <;> decide

theorem names_fit (hi : i < COSA_USG_IF_NUM build) : (g_ipif_names build i).length < 64 := by
  have hall : ((g_usg_if_cfg build).map USG_IF_CFG.IfName).all (fun t => t.length < 64) = true := by
    rw [g_usg_if_cfg]
    split <;> decide
  have hmem := List.mem_of_getElem? (names_get hi)
  exact of_decide_eq_true (List.all_eq_true.mp hall _ hmem)

end Names

section Dispatched

variable {build : Build} {w : World} {s : State} {n : ULONG}

theorem searchSlots_none (body : ℕ → Option Outcome) (last : Answer) {is : List ℕ}
    (h : ∀ i ∈ is, n ≠ (s.g_ipif_be_bufs i).Cfg.InstanceNumber) :
    searchSlots s n body last is = ⟨last, [], s⟩ := by
  induction is with
  | nil => rfl
  | cons i is ih =>
    rw [searchSlots, if_neg (h i List.mem_cons_self)]
    exact ih fun j hj => h j (List.mem_cons_of_mem _ hj)

theorem searchSlots_eq (body : ℕ → Option Outcome) (last : Answer) {is : List ℕ}
    (hnodup : is.Nodup) {i : ℕ} (hi : i ∈ is)
    (h : ∀ j ∈ is, n = (s.g_ipif_be_bufs j).Cfg.InstanceNumber ↔ j = i) :
    searchSlots s n body last is = atSlot s body last i := by
  induction is with
  | nil => exact absurd hi List.not_mem_nil
  | cons j is ih =>
    obtain ⟨hj, hrest⟩ := List.nodup_cons.mp hnodup
    by_cases hji : j = i
    · subst hji
      have hnone : ∀ k ∈ is, n ≠ (s.g_ipif_be_bufs k).Cfg.InstanceNumber := by
        intro k hk hkn
        rw [(h k (List.mem_cons_of_mem _ hk)).mp hkn] at hk
        exact hj hk
      rw [searchSlots, if_pos ((h j List.mem_cons_self).mpr rfl), searchSlots_none body last hnone,
        atSlot]
    · have hmem : i ∈ is := (List.mem_cons.mp hi).resolve_left fun hij => hji hij.symm
      rw [searchSlots, if_neg fun hn => hji ((h j List.mem_cons_self).mp hn)]
      exact ih hrest hmem fun k hk => h k (List.mem_cons_of_mem _ hk)

structure Loaded (build : Build) (s : State) : Prop where
  numbers : ∀ j, (s.g_ipif_be_bufs j).Cfg.InstanceNumber =
    if j < COSA_USG_IF_NUM build - 1 then BitVec.ofNat 32 (1 + j) else 0
  nodup : (s.pIpContext.IpIfList.map instanceOf).Nodup

theorem number_iff (h : Loaded build s) {i j : ℕ} (hj : j < COSA_USG_IF_NUM build)
    (hi : i < COSA_USG_IF_NUM build)
    (hn : n.toNat = if i < COSA_USG_IF_NUM build - 1 then 1 + i else 0) :
    n = (s.g_ipif_be_bufs j).Cfg.InstanceNumber ↔ j = i := by
  have hnum := one_lt_num build
  rw [h.numbers j, ← BitVec.toNat_inj, hn]
  constructor
  · intro heq
    split at heq <;> split at heq <;> simp at heq <;> omega
  · rintro rfl
    split
    · simp
      omega
    · simp

theorem number_ne (h : Loaded build s) (hn : n.toNat = COSA_USG_IF_NUM build) (j : ℕ) :
    n ≠ (s.g_ipif_be_bufs j).Cfg.InstanceNumber := by
  have hnum := one_lt_num build
  rw [h.numbers j, Ne, ← BitVec.toNat_inj, hn]
  split <;> (simp; omega)

theorem byName_eq {table : V6Table} {e : COSA_DML_IP_IF_FULL} {i : ℕ}
    (hi : i < COSA_USG_IF_NUM build) (hname : e.Info.Name.text = g_ipif_names build i) :
    byName build w table s e = fixedGetV6 build w table s i := by
  rw [byName]
  cases hfind : (List.range (COSA_USG_IF_NUM build)).find? fun i =>
      g_ipif_names build i = e.Info.Name.text with
  | none =>
    have hne := List.find?_eq_none.mp hfind i (List.mem_range.mpr hi)
    simp [hname] at hne
  | some j =>
    have hj : g_ipif_names build j = e.Info.Name.text := by
      simpa using List.find?_some hfind
    have hmem := List.mem_range.mp (List.mem_of_find?_eq_some hfind)
    rw [names_inj hmem hi (hj.trans hname)]

theorem byName_cases (table : V6Table) (e : COSA_DML_IP_IF_FULL) :
    byName build w table s e = ⟨.NULL, [], s⟩ ∨
      ∃ i < COSA_USG_IF_NUM build, g_ipif_names build i = e.Info.Name.text ∧
        byName build w table s e = fixedGetV6 build w table s i := by
  rw [byName]
  cases hfind : (List.range (COSA_USG_IF_NUM build)).find? fun i =>
      g_ipif_names build i = e.Info.Name.text with
  | none => exact Or.inl rfl
  | some j =>
    have hj : g_ipif_names build j = e.Info.Name.text := by
      simpa using List.find?_some hfind
    exact Or.inr ⟨j, List.mem_range.mp (List.mem_of_find?_eq_some hfind), hj, rfl⟩

variable (ulIndex p : ℕ) (e : COSA_DML_IP_IF_FULL)

theorem call_fromNum {op : Op} (hv6 : op.isV6 = false) (hindex : ∀ t, op ≠ .SetValues t) :
    call build w s ulIndex e op =
      if COSA_USG_IF_NUM build ≤ e.Cfg.InstanceNumber.toNat then
        serveElement w s p e.Cfg.InstanceNumber op
      else serveSlot build w s e.Cfg.InstanceNumber (e.Cfg.InstanceNumber - 1).toNat op := by
  cases op with
  | SetValues t => exact absurd rfl (hindex t)
  | V6 table c => cases hv6
  | _ => rfl

theorem call_aboveNum (table : V6Table) {c : V6Call} (hget : c ≠ .get) :
    call build w s ulIndex e (.V6 table c) =
      if COSA_USG_IF_NUM build < e.Cfg.InstanceNumber.toNat then
        serveElement w s p e.Cfg.InstanceNumber (.V6 table c)
      else searchSlots s e.Cfg.InstanceNumber (slotBody build w s table c) (lastAnswer c)
        (List.range (COSA_USG_IF_NUM build)) := by
  cases c with
  | get => exact absurd rfl hget
  | _ => cases table <;> rfl

end Dispatched

section Reached

variable (build : Build) (w : World) (s : State)

def Fits (op : Op) : Interface → Prop
  | .fixed i =>
    match op with
    | .SetCfg pCfg =>
      pCfg.MaxMTUSize = (s.g_ipif_be_bufs i).Cfg.MaxMTUSize ∨
        pCfg.LinkName.text = g_ipif_names build i
    | .SetV4Addr pEntry => pEntry.IPAddress = (s.g_ipif_be_bufs i).V4Addr.IPAddress
    | .V6 .address .get => build.delegation = false
    | _ => True
  | .mlan _ pIpIf =>
    match op with
    | .SetValues _ => False
    | .GetNumberOfV4Addrs => True
    | .V6 .address .get =>
      COSA_USG_IF_NUM build < (instanceOf pIpIf).toNat ∨
        build.delegation = false ∧ pIpIf.Info.Name.text = brlan0
    | .V6 .pref .get =>
      (if build.delegation then COSA_USG_IF_NUM build < (instanceOf pIpIf).toNat
        else COSA_USG_IF_NUM build ≤ (instanceOf pIpIf).toNat) ∨ pIpIf.Info.Name.text = brlan0
    | .V6 _ _ =>
      COSA_USG_IF_NUM build < (instanceOf pIpIf).toNat ∨
        instanceOf pIpIf = 0 ∧ pIpIf.Info.Name.text = brlan0
    | _ => COSA_USG_IF_NUM build ≤ (instanceOf pIpIf).toNat

/-- An entry that `GetEntry` reported at an index, and its interface. -/
inductive Reported : ℕ → COSA_DML_IP_IF_FULL → Interface → Prop
  | fixed {i : ℕ} {e : COSA_DML_IP_IF_FULL} (hi : i < COSA_USG_IF_NUM build - 1)
      (hnumber : e.Cfg.InstanceNumber = BitVec.ofNat 32 (1 + i))
      (hname : e.Info.Name.text = g_ipif_names build i) : Reported i e (.fixed i)
  | mlan {p : ℕ} {pIpIf : DMSB_TR181_IP_IF} (hp : s.pIpContext.IpIfList[p]? = some pIpIf) :
      Reported (COSA_USG_IF_NUM build - 1 + p) ⟨pIpIf.Cfg, pIpIf.Info⟩ (.mlan p pIpIf)

variable {build w s}

section FixedInterfaces

variable {i : ℕ} {e : COSA_DML_IP_IF_FULL}

theorem actsOn_slot_iff {op : Op} {x : Interface} (h : LivesAt build op x (.slot i)) (n : ULONG) :
    ActsOn build w s n op x (serveSlot build w s n i op) ↔
      ∀ a ∈ (serveSlot build w s n i op).accesses, Owns build op x a := by
  obtain ⟨hnull, hmissing⟩ := @serveSlot_found build w s n i op
  exact ⟨fun hacts => hacts.own, fun hown => ⟨⟨.slot i, h, rfl⟩, hown,
    ⟨hnull, fun hanswer => ⟨i, h, hmissing hanswer⟩⟩, kept_slot h n⟩⟩

theorem owns_setCfg_iff (pCfg : COSA_DML_IP_IF_CFG) (n : ULONG) :
    (∀ a ∈ (fixedSetCfg s i (numbered pCfg n)).accesses,
        Owns build (.SetCfg pCfg) (.fixed i) a) ↔
      pCfg.MaxMTUSize = (s.g_ipif_be_bufs i).Cfg.MaxMTUSize ∨
        pCfg.LinkName.text = g_ipif_names build i := by
  have hmtu : (numbered pCfg n).MaxMTUSize = pCfg.MaxMTUSize := rfl
  have hlink : (numbered pCfg n).LinkName = pCfg.LinkName := rfl
  simp only [fixedSetCfg, hmtu, hlink, List.mem_append, List.mem_cons]
  by_cases hsame : pCfg.MaxMTUSize = (s.g_ipif_be_bufs i).Cfg.MaxMTUSize
  · simp only [hsame, ne_eq, not_true_eq_false, if_false, List.not_mem_nil, or_false, true_or,
      iff_true]
    rintro a (rfl | ha)
    · rfl
    · split at ha
      · obtain rfl := List.mem_singleton.mp ha
        rfl
      · exact absurd ha List.not_mem_nil
  · simp only [hsame, ne_eq, not_false_eq_true, if_true, false_or]
    constructor
    · intro h
      exact h (.link pCfg.LinkName.text) (Or.inr (List.mem_singleton.mpr rfl))
    · rintro hown a ((rfl | ha) | ha)
      · rfl
      · split at ha
        · obtain rfl := List.mem_singleton.mp ha
          rfl
        · exact absurd ha List.not_mem_nil
      · obtain rfl := List.mem_singleton.mp ha
        exact hown

theorem owns_setV4Addr_iff (hi : i < COSA_USG_IF_NUM build - 1) (pEntry : COSA_DML_IP_V4ADDR) :
    (∀ a ∈ (fixedSetV4Addr build s i pEntry).accesses,
        Owns build (.SetV4Addr pEntry) (.fixed i) a) ↔
      pEntry.IPAddress = (s.g_ipif_be_bufs i).V4Addr.IPAddress := by
  simp only [fixedSetV4Addr, names_not_lan hi, List.mem_append, List.mem_cons]
  constructor
  · intro h
    by_contra hne
    exact h .LAN (Or.inl (Or.inr (by rw [if_pos hne]; exact List.mem_singleton.mpr rfl)))
  · rintro hsame a (((rfl | ha) | ha) | ha)
    · rfl
    · split at ha
      · obtain rfl := List.mem_singleton.mp ha
        rfl
      · exact absurd ha List.not_mem_nil
    · rw [if_neg (not_not_intro hsame)] at ha
      exact absurd ha List.not_mem_nil
    · split at ha
      · exact absurd ha List.not_mem_nil
      · rw [if_neg Bool.false_ne_true] at ha
        split at ha
        · obtain rfl := List.mem_singleton.mp ha
          rfl
        · exact absurd ha List.not_mem_nil

theorem owns_fixed_iff (hi : i < COSA_USG_IF_NUM build - 1) (n : ULONG) {op : Op}
    (hget : op ≠ .V6 .address .get) :
    (∀ a ∈ (serveSlot build w s n i op).accesses, Owns build op (.fixed i) a) ↔
      Fits build s op (.fixed i) := by
  have hnone : ∀ a ∈ ([] : List Access), Owns build op (.fixed i) a :=
    fun a ha => absurd ha List.not_mem_nil
  have hbuf : ∀ a ∈ [Access.buf i], Owns build op (.fixed i) a := by
    intro a ha
    obtain rfl := List.mem_singleton.mp ha
    rfl
  cases op with
  | SetCfg pCfg => exact owns_setCfg_iff pCfg n
  | SetV4Addr pEntry => exact owns_setV4Addr_iff hi pEntry
  | GetCfg => exact iff_of_true hbuf trivial
  | GetInfo => exact iff_of_true hbuf trivial
  | GetV4Addr2 pEntry => exact iff_of_true hbuf trivial
  | GetV4Addr ulIndex pEntry =>
    refine iff_of_true (fun a ha => ?_) trivial
    rcases List.mem_cons.mp ha with rfl | ha
    · rfl
    · exact hbuf a ha
  | V6 table c =>
    have hfits : Fits build s (.V6 table c) (.fixed i) := by
      cases table with
      | pref => exact trivial
      | address =>
        cases c with
        | get => exact absurd rfl hget
        | _ => exact trivial
    refine iff_of_true (fun a ha => ?_) hfits
    rcases (accesses_v6 n i table c).2 a ha with rfl | rfl
    · rfl
    · rfl
  | _ => exact iff_of_true hnone trivial

theorem call_fixed (h : Loaded build s) (hi : i < COSA_USG_IF_NUM build - 1)
    (hnumber : e.Cfg.InstanceNumber = BitVec.ofNat 32 (1 + i))
    (hname : e.Info.Name.text = g_ipif_names build i) {op : Op}
    (hget : op = .V6 .address .get → build.delegation = false) :
    call build w s i e op = serveSlot build w s e.Cfg.InstanceNumber i op := by
  have hnum := one_lt_num build
  have hnat : e.Cfg.InstanceNumber.toNat = 1 + i := by
    rw [hnumber, BitVec.toNat_ofNat]
    omega
  have hslot : (e.Cfg.InstanceNumber - 1).toNat = i := by
    rw [hnumber]
    simp
    omega
  have hlt : ¬ COSA_USG_IF_NUM build < e.Cfg.InstanceNumber.toNat := by omega
  have hle : ¬ COSA_USG_IF_NUM build ≤ e.Cfg.InstanceNumber.toNat := by omega
  cases op with
  | SetValues t =>
    rw [call, CosaDmlIpIfSetValues, if_neg (by omega)]
    rfl
  | V6 table c =>
    by_cases hc : c = .get
    · subst hc
      have hat : serveSlot build w s e.Cfg.InstanceNumber i (.V6 table .get) =
        fixedGetV6 build w table s i := rfl
      cases table with
      | address =>
        rw [hat, call, CosaDmlIPGetIPv6Addresses, if_neg hlt, hget rfl, if_neg (by decide),
          byName_eq (by omega) hname]
      | pref =>
        rw [hat, call, CosaDmlIPGetIPv6Prefixes, if_neg hlt, if_neg hle, ite_self,
          byName_eq (by omega) hname]
    · rw [call_aboveNum i 0 e table hc, if_neg hlt]
      apply searchSlots_eq _ _ List.nodup_range (List.mem_range.mpr (by omega))
      intro j hj
      apply number_iff h (List.mem_range.mp hj) (by omega)
      rw [if_pos hi, hnat]
  | _ => rw [call_fromNum i 0 e rfl fun _ h => Op.noConfusion h, if_neg hle, hslot]

theorem actsOn_fixed_iff (h : Loaded build s) (hi : i < COSA_USG_IF_NUM build - 1)
    (hnumber : e.Cfg.InstanceNumber = BitVec.ofNat 32 (1 + i))
    (hname : e.Info.Name.text = g_ipif_names build i) (op : Op) :
    ActsOn build w s e.Cfg.InstanceNumber op (.fixed i) (call build w s i e op) ↔
      Fits build s op (.fixed i) := by
  by_cases hget : op = .V6 .address .get ∧ build.delegation = true
  · obtain ⟨rfl, hdelegation⟩ := hget
    have hnum := one_lt_num build
    have hnull : (call build w s i e (.V6 .address .get)).answer = .NULL := by
      rw [call, CosaDmlIPGetIPv6Addresses, hnumber, if_neg (by simp; omega), if_pos hdelegation]
    refine iff_of_false (fun hacts => hacts.found.1 hnull) fun hfits => ?_
    exact Bool.false_ne_true (Eq.trans (Eq.symm hfits) hdelegation)
  · have hserved : op = .V6 .address .get → build.delegation = false := by
      intro hop
      exact Bool.eq_false_iff.mpr fun hdelegation => hget ⟨hop, hdelegation⟩
    have hlives : LivesAt build op (.fixed i) (.slot i) := rfl
    rw [call_fixed h hi hnumber hname hserved, actsOn_slot_iff hlives]
    by_cases hop : op = .V6 .address .get
    · subst hop
      refine iff_of_true (fun a ha => ?_) (hserved rfl)
      rcases (accesses_v6 _ i .address .get).2 a ha with rfl | rfl
      · rfl
      · rfl
    · exact owns_fixed_iff hi _ hop

end FixedInterfaces

section ListedInterfaces

variable {p : ℕ} {x : DMSB_TR181_IP_IF}

theorem setValues_reaches (hx : s.pIpContext.IpIfList[p]? = some x) (pAlias : CStr) :
    .entry (instanceOf x) ∈ (CosaDmlIpIfMlanSetValues s p pAlias).accesses := by
  simp only [CosaDmlIpIfMlanSetValues, hx]
  split <;> exact List.mem_cons_self

theorem served_element {n : ULONG} {op : Op} {o : Outcome} (hv6 : op.isV6 = false)
    (hacts : ActsOn build w s n op (.mlan p x) o) : o = serveElement w s p (instanceOf x) op := by
  obtain ⟨home, hlives, heq⟩ := hacts.served
  cases home with
  | slot j => exact absurd (hv6.symm.trans hlives.1.1) Bool.false_ne_true
  | element q m =>
    obtain ⟨rfl, rfl⟩ := hlives
    exact heq

theorem actsOn_slot_v6_iff {n : ULONG} {i : ℕ} {table : V6Table} {c : V6Call} :
    ActsOn build w s n (.V6 table c) (.mlan p x) (serveSlot build w s n i (.V6 table c)) ↔
      i = COSA_USG_IF_NUM build - 1 ∧ x.Info.Name.text = brlan0 := by
  obtain ⟨hbuf, honly⟩ := @accesses_v6 build w s n i table c
  constructor
  · intro hacts
    obtain ⟨⟨-, hname⟩, hi⟩ := hacts.own _ hbuf
    exact ⟨hi, hname⟩
  · intro hhome
    obtain ⟨rfl, hname⟩ := hhome
    have hlives : LivesAt build (.V6 table c) (.mlan p x) (.slot (COSA_USG_IF_NUM build - 1)) :=
      ⟨⟨rfl, hname⟩, rfl⟩
    refine (actsOn_slot_iff hlives n).mpr fun a ha => ?_
    rcases honly a ha with rfl | rfl
    · exact hlives
    · exact hlives

theorem not_actsOn_missed (hne : instanceOf x ≠ 0) (table : V6Table) {c : V6Call}
    (hget : c ≠ .get) :
    ¬ ActsOn build w s (instanceOf x) (.V6 table c) (.mlan p x) ⟨lastAnswer c, [], s⟩ := by
  intro hacts
  obtain ⟨home, hlives, heq⟩ := hacts.served
  cases home with
  | slot j =>
    have hmem := (@accesses_v6 build w s (instanceOf x) j table c).1
    have hnil : (serveSlot build w s (instanceOf x) j (.V6 table c)).accesses = [] :=
      (congrArg Outcome.accesses heq).symm
    rw [hnil] at hmem
    exact List.not_mem_nil hmem
  | element q m =>
    obtain ⟨rfl, rfl⟩ := hlives
    cases c with
    | get => exact hget rfl
    | get2 pEntry =>
      have hnil : ([] : List Access) = recordsOf (instanceOf x) := by
        cases table <;> exact congrArg Outcome.accesses heq
      rw [recordsOf, if_neg hne] at hnil
      cases hnil
    | _ => cases table <;> cases congrArg Outcome.answer heq

theorem actsOn_byName_iff (table : V6Table) (n : ULONG) :
    ActsOn build w s n (.V6 table .get) (.mlan p x) (byName build w table s ⟨x.Cfg, x.Info⟩) ↔
      x.Info.Name.text = brlan0 := by
  have hnum := one_lt_num build
  constructor
  · intro hacts
    rcases byName_cases table ⟨x.Cfg, x.Info⟩ with hnull | ⟨i, hi, hname, heq⟩
    · rw [hnull] at hacts
      exact absurd rfl hacts.found.1
    · rw [heq] at hacts
      exact ((@actsOn_slot_v6_iff build w s p x n i table .get).mp hacts).2
  · intro hname
    have hlast : x.Info.Name.text = g_ipif_names build (COSA_USG_IF_NUM build - 1) := by
      rw [names_last, hname]
    have hserve : byName build w table s ⟨x.Cfg, x.Info⟩ =
        serveSlot build w s n (COSA_USG_IF_NUM build - 1) (.V6 table .get) :=
      byName_eq (by omega) hlast
    rw [hserve]
    exact actsOn_slot_v6_iff.mpr ⟨rfl, hname⟩

variable (h : Loaded build s) (hx : s.pIpContext.IpIfList[p]? = some x)

include h hx

theorem actsOn_element (op : Op) :
    ActsOn build w s (instanceOf x) op (.mlan p x) (serveElement w s p (instanceOf x) op) := by
  obtain ⟨hnull, hmissing⟩ := @found_element w s p x h.nodup hx op
  refine ⟨⟨.element p (instanceOf x), ⟨rfl, rfl⟩, rfl⟩, fun a ha => ?_,
    ⟨hnull, fun hanswer => absurd hanswer hmissing⟩, kept_element h.nodup hx op⟩
  rcases accesses_element h.nodup hx op a ha with rfl | rfl
  · rfl
  · rfl

theorem slot_ne_element {op : Op}
    (hv6 : op.isV6 = false) (hcount : op ≠ .GetNumberOfV4Addrs) (i : ℕ) :
    serveSlot build w s (instanceOf x) i op ≠ serveElement w s p (instanceOf x) op := by
  intro heq
  have hfind := found_of_place h.nodup hx
  have hbuf : .buf i ∉ (serveSlot build w s (instanceOf x) i op).accesses := by
    intro hmem
    rw [heq] at hmem
    rcases accesses_element h.nodup hx op _ hmem with hentry | hrecords
    · cases hentry
    · cases hrecords
  cases op with
  | GetNumberOfV4Addrs => exact hcount rfl
  | V6 table c => cases hv6
  | SetValues pAlias =>
    have hmem := setValues_reaches hx pAlias
    have hnil : (CosaDmlIpIfMlanSetValues s p pAlias).accesses = [] :=
      (congrArg Outcome.accesses heq).symm
    rw [hnil] at hmem
    exact List.not_mem_nil hmem
  | DelEntry =>
    have hnil := congrArg Outcome.accesses heq
    simp only [serveSlot, serveElement, CosaDmlIpIfMlanDelEntry, foundAccesses, hfind] at hnil
    cases hnil
  | SetV4AddrValues => cases congrArg Outcome.answer heq
  | AddV4Addr pEntry => cases congrArg Outcome.answer heq
  | DelV4Addr => cases congrArg Outcome.answer heq
  | GetV4Addr ulIndex pEntry => exact hbuf (List.mem_cons_of_mem _ List.mem_cons_self)
  | _ => exact hbuf List.mem_cons_self

theorem actsOn_fromNum_iff {op : Op}
    (hv6 : op.isV6 = false) (hindex : ∀ t, op ≠ .SetValues t) (ulIndex : ℕ) :
    ActsOn build w s (instanceOf x) op (.mlan p x)
        (call build w s ulIndex ⟨x.Cfg, x.Info⟩ op) ↔ Fits build s op (.mlan p x) := by
  have hcall := @call_fromNum build w s ulIndex p ⟨x.Cfg, x.Info⟩ op hv6 hindex
  change call build w s ulIndex ⟨x.Cfg, x.Info⟩ op =
    if COSA_USG_IF_NUM build ≤ (instanceOf x).toNat then serveElement w s p (instanceOf x) op
    else serveSlot build w s (instanceOf x) (instanceOf x - 1).toNat op at hcall
  by_cases hcount : op = .GetNumberOfV4Addrs
  · subst hcount
    have hsame : call build w s ulIndex ⟨x.Cfg, x.Info⟩ .GetNumberOfV4Addrs =
        serveElement w s p (instanceOf x) .GetNumberOfV4Addrs := by
      rw [hcall]
      split <;> rfl
    rw [hsame]
    exact iff_of_true (actsOn_element h hx _) trivial
  · have hfits : Fits build s op (.mlan p x) ↔
        COSA_USG_IF_NUM build ≤ (instanceOf x).toNat := by
      cases op with
      | SetValues t => exact absurd rfl (hindex t)
      | GetNumberOfV4Addrs => exact absurd rfl hcount
      | V6 table c => cases hv6
      | _ => exact Iff.rfl
    rw [hfits, hcall]
    split
    · rename_i hle
      exact iff_of_true (actsOn_element h hx op) hle
    · rename_i hlt
      refine iff_of_false (fun hacts => ?_) hlt
      exact slot_ne_element h hx hv6 hcount _ (served_element hv6 hacts)

theorem not_actsOn_setValues (pAlias : CStr) (e : COSA_DML_IP_IF_FULL) :
    ¬ ActsOn build w s (instanceOf x) (.SetValues pAlias) (.mlan p x)
      (call build w s (COSA_USG_IF_NUM build - 1 + p) e (.SetValues pAlias)) := by
  intro hacts
  have hnum := one_lt_num build
  have hv6 : (Op.SetValues pAlias).isV6 = false := rfl
  have hcount : Op.SetValues pAlias ≠ .GetNumberOfV4Addrs := nofun
  have hserved := served_element hv6 hacts
  by_cases hp : p = 0
  · have hcall : call build w s (COSA_USG_IF_NUM build - 1 + p) e (.SetValues pAlias) =
        serveSlot build w s (instanceOf x) 0 (.SetValues pAlias) := by
      rw [call, CosaDmlIpIfSetValues, if_neg (by omega)]
      rfl
    rw [hcall] at hserved
    exact slot_ne_element h hx hv6 hcount 0 hserved
  · have hcall : call build w s (COSA_USG_IF_NUM build - 1 + p) e (.SetValues pAlias) =
        CosaDmlIpIfMlanSetValues s (COSA_USG_IF_NUM build - 1 + p) pAlias := by
      rw [call, CosaDmlIpIfSetValues, if_pos (by omega)]
    have hown := hacts.own
    have hfound := hacts.found.2
    rw [hcall] at hown hfound
    cases hy : s.pIpContext.IpIfList[COSA_USG_IF_NUM build - 1 + p]? with
    | none =>
      have hanswer : (CosaDmlIpIfMlanSetValues s (COSA_USG_IF_NUM build - 1 + p) pAlias).answer =
          .CANT_FIND := by
        rw [CosaDmlIpIfMlanSetValues, MlanInterfaces.CosaDmlIpIfMlanSetValues, hy]
        rfl
      obtain ⟨i, -, habsent⟩ := hfound hanswer
      exact habsent
    | some y =>
      have hsame : instanceOf y = instanceOf x := hown _ (setValues_reaches hy pAlias)
      have hplace : COSA_USG_IF_NUM build - 1 + p = p := by
        have hlt := (List.getElem?_eq_some_iff.mp hy).1
        apply (List.getElem?_inj (by simpa using hlt) h.nodup).mp
        rw [List.getElem?_map, List.getElem?_map, hy, hx, Option.map_some, Option.map_some, hsame]
      omega

theorem actsOn_aboveNum_iff (table : V6Table) {c : V6Call} (hget : c ≠ .get) (ulIndex : ℕ) :
    ActsOn build w s (instanceOf x) (.V6 table c) (.mlan p x)
        (call build w s ulIndex ⟨x.Cfg, x.Info⟩ (.V6 table c)) ↔
      COSA_USG_IF_NUM build < (instanceOf x).toNat ∨
        instanceOf x = 0 ∧ x.Info.Name.text = brlan0 := by
  have hnum := one_lt_num build
  have hcall := @call_aboveNum build w s ulIndex p ⟨x.Cfg, x.Info⟩ table c hget
  change call build w s ulIndex ⟨x.Cfg, x.Info⟩ (.V6 table c) =
    if COSA_USG_IF_NUM build < (instanceOf x).toNat then
      serveElement w s p (instanceOf x) (.V6 table c)
    else searchSlots s (instanceOf x) (slotBody build w s table c) (lastAnswer c)
      (List.range (COSA_USG_IF_NUM build)) at hcall
  rw [hcall]
  split
  · rename_i hlt
    exact iff_of_true (actsOn_element h hx _) (Or.inl hlt)
  · rename_i hlt
    by_cases htop : (instanceOf x).toNat = COSA_USG_IF_NUM build
    · have hne : instanceOf x ≠ 0 := by
        intro hzero
        rw [hzero] at htop
        simp at htop
        omega
      rw [searchSlots_none _ _ fun i _ => number_ne h htop i]
      refine iff_of_false (not_actsOn_missed hne table hget) ?_
      rintro (habove | ⟨hzero, -⟩)
      · exact hlt habove
      · exact hne hzero
    · have hslot : ∃ i < COSA_USG_IF_NUM build,
          (instanceOf x).toNat = if i < COSA_USG_IF_NUM build - 1 then 1 + i else 0 := by
        by_cases hzero : (instanceOf x).toNat = 0
        · exact ⟨COSA_USG_IF_NUM build - 1, by omega, by rw [if_neg (by omega), hzero]⟩
        · exact ⟨(instanceOf x).toNat - 1, by omega, by rw [if_pos (by omega)]; omega⟩
      obtain ⟨i, hi, hn⟩ := hslot
      rw [searchSlots_eq _ _ List.nodup_range (List.mem_range.mpr hi)
        fun j hj => number_iff h (List.mem_range.mp hj) hi hn]
      refine actsOn_slot_v6_iff.trans ?_
      have hzero_iff : i = COSA_USG_IF_NUM build - 1 ↔ instanceOf x = 0 := by
        rw [← BitVec.toNat_inj, hn]
        split
        · simp
          omega
        · simp
          omega
      rw [hzero_iff]
      exact ⟨Or.inr, fun hor => hor.resolve_left hlt⟩

theorem actsOn_addresses_iff (ulIndex : ℕ) :
    ActsOn build w s (instanceOf x) (.V6 .address .get) (.mlan p x)
        (call build w s ulIndex ⟨x.Cfg, x.Info⟩ (.V6 .address .get)) ↔
      Fits build s (.V6 .address .get) (.mlan p x) := by
  change ActsOn build w s (instanceOf x) (.V6 .address .get) (.mlan p x)
    (if COSA_USG_IF_NUM build < (instanceOf x).toNat then
      serveElement w s p (instanceOf x) (.V6 .address .get)
    else if build.delegation then ⟨.NULL, [], s⟩
    else byName build w .address s ⟨x.Cfg, x.Info⟩) ↔
      COSA_USG_IF_NUM build < (instanceOf x).toNat ∨
        build.delegation = false ∧ x.Info.Name.text = brlan0
  split
  · rename_i hlt
    exact iff_of_true (actsOn_element h hx _) (Or.inl hlt)
  · rename_i hlt
    rw [or_iff_right hlt]
    split
    · rename_i hdelegation
      refine iff_of_false (fun hacts => hacts.found.1 rfl) fun hnot => ?_
      exact Bool.false_ne_true (hnot.1.symm.trans hdelegation)
    · rename_i hdelegation
      rw [actsOn_byName_iff, and_iff_right (Bool.eq_false_iff.mpr hdelegation)]

theorem actsOn_prefixes_iff (ulIndex : ℕ) :
    ActsOn build w s (instanceOf x) (.V6 .pref .get) (.mlan p x)
        (call build w s ulIndex ⟨x.Cfg, x.Info⟩ (.V6 .pref .get)) ↔
      Fits build s (.V6 .pref .get) (.mlan p x) := by
  have hcases : ∀ c : Prop, ∀ [Decidable c], ActsOn build w s (instanceOf x) (.V6 .pref .get)
      (.mlan p x) (if c then serveElement w s p (instanceOf x) (.V6 .pref .get)
        else byName build w .pref s ⟨x.Cfg, x.Info⟩) ↔ c ∨ x.Info.Name.text = brlan0 := by
    intro c _
    split
    · rename_i hc
      exact iff_of_true (actsOn_element h hx _) (Or.inl hc)
    · rename_i hc
      rw [actsOn_byName_iff, or_iff_right hc]
  change ActsOn build w s (instanceOf x) (.V6 .pref .get) (.mlan p x)
    (if build.delegation then
      if COSA_USG_IF_NUM build < (instanceOf x).toNat then
        serveElement w s p (instanceOf x) (.V6 .pref .get)
      else byName build w .pref s ⟨x.Cfg, x.Info⟩
    else if COSA_USG_IF_NUM build ≤ (instanceOf x).toNat then
      serveElement w s p (instanceOf x) (.V6 .pref .get)
    else byName build w .pref s ⟨x.Cfg, x.Info⟩) ↔
      (if build.delegation then COSA_USG_IF_NUM build < (instanceOf x).toNat
        else COSA_USG_IF_NUM build ≤ (instanceOf x).toNat) ∨ x.Info.Name.text = brlan0
  split
  · exact hcases _
  · exact hcases _

end ListedInterfaces

theorem actsOn_iff (h : Loaded build s) {ulIndex : ℕ} {e : COSA_DML_IP_IF_FULL} {x : Interface}
    (hx : Reported build s ulIndex e x) (op : Op) :
    ActsOn build w s e.Cfg.InstanceNumber op x (call build w s ulIndex e op) ↔
      Fits build s op x := by
  cases hx with
  | fixed hi hnumber hname => exact actsOn_fixed_iff h hi hnumber hname op
  | @mlan p pIpIf hp =>
    cases op with
    | SetValues pAlias => exact iff_of_false (not_actsOn_setValues h hp pAlias _) not_false
    | V6 table c =>
      by_cases hget : c = .get
      · subst hget
        cases table with
        | address => exact actsOn_addresses_iff h hp _
        | pref => exact actsOn_prefixes_iff h hp _
      · have hfits : Fits build s (.V6 table c) (.mlan p pIpIf) ↔
            COSA_USG_IF_NUM build < (instanceOf pIpIf).toNat ∨
              instanceOf pIpIf = 0 ∧ pIpIf.Info.Name.text = brlan0 := by
          cases c with
          | get => exact absurd rfl hget
          | _ => cases table <;> exact Iff.rfl
        rw [hfits]
        exact actsOn_aboveNum_iff h hp table hget _
    | _ => exact actsOn_fromNum_iff h hp rfl (fun _ hop => Op.noConfusion hop) _

end Reached

section Loading

variable (build : Build) (w : World)

def loadEntries (s : State) (pEntries : ℕ → COSA_DML_IP_IF_FULL) :
    ℕ → State × List COSA_DML_IP_IF_FULL
  | 0 => (s, [])
  | k + 1 =>
    let r := loadEntries s pEntries k
    let g := CosaDmlIpIfGetEntry build w r.1 k (pEntries k)
    (g.2.2, r.2 ++ [g.2.1])

structure MlanTable where
  context : DMSB_TR181_IP_CONTEXT
  nodup : (context.IpIfList.map instanceOf).Nodup
  V4Addr : ULONG → Option ULONG
  V4SubnetMask : ULONG → Option ULONG

def initial (held : ℕ → COSA_PRI_IP_IF_FULL) (table : MlanTable) : State where
  g_ipif_be_bufs := fun i => { held i with Cfg := numbered (held i).Cfg 0 }
  pIpContext := table.context
  V4Addr := table.V4Addr
  V4SubnetMask := table.V4SubnetMask

def load (held : ℕ → COSA_PRI_IP_IF_FULL) (table : MlanTable)
    (pEntries : ℕ → COSA_DML_IP_IF_FULL) : State × List COSA_DML_IP_IF_FULL :=
  loadEntries build w (initial held table) pEntries
    (CosaDmlIpIfGetNumberOfEntries build (initial held table))

/-- The operation, called with the index or with what was reported there, acts on the interface
that was reported. -/
def Right (r : State × List COSA_DML_IP_IF_FULL) (ulIndex : ℕ) (op : Op) : Prop :=
  ∃ e x, r.2[ulIndex]? = some e ∧ source build r.1 ulIndex = some x ∧
    ActsOn build w r.1 e.Cfg.InstanceNumber op x (call build w r.1 ulIndex e op)

def FitsAt (s : State) (ulIndex : ℕ) (op : Op) : Prop :=
  ∃ x, source build s ulIndex = some x ∧ Fits build s op x

variable {build w} {s : State} {k : ℕ}

theorem find_name (hk : k < COSA_USG_IF_NUM build - 1) :
    ((g_usg_if_cfg build).findIdx? fun row => g_ipif_names build k = row.IfName) = some k := by
  rw [COSA_USG_IF_NUM] at hk
  rw [g_ipif_names, g_usg_if_cfg]
  split at hk
  · rename_i hwan
    have hcases : k = 0 ∨ k = 1 ∨ k = 2 := by omega
    rw [if_pos hwan]
    rcases hcases with rfl | rfl | rfl <;> decide
  · rename_i hwan
    have hcases : k = 0 ∨ k = 1 := by omega
    rw [if_neg hwan]
    rcases hcases with rfl | rfl <;> decide

theorem getEntry_fixed (hk : k < COSA_USG_IF_NUM build - 1) (s : State)
    (pEntry : COSA_DML_IP_IF_FULL) :
    CosaDmlIpIfGetEntry build w s k pEntry =
      (.SUCCESS, fixedEntry build w k k pEntry, s.setBuf k
        { s.g_ipif_be_bufs k with
          Cfg := (fixedEntry build w k k pEntry).Cfg
          Info := (fixedEntry build w k k pEntry).Info }) := by
  rw [CosaDmlIpIfGetEntry, if_neg (by omega), find_name hk]

theorem getEntry_mlan {p : ℕ} {x : DMSB_TR181_IP_IF} (hx : s.pIpContext.IpIfList[p]? = some x)
    (pEntry : COSA_DML_IP_IF_FULL) :
    CosaDmlIpIfGetEntry build w s (COSA_USG_IF_NUM build - 1 + p) pEntry =
      (.SUCCESS, ⟨x.Cfg, x.Info⟩, s) := by
  rw [CosaDmlIpIfGetEntry, if_pos (by omega), Nat.add_sub_cancel_left, CosaDmlIpIfMlanGetEntry, hx]

/-- What holds after the indices below `k`. -/
structure LoadedTo (build : Build) (s : State) (k : ℕ) (r : State × List COSA_DML_IP_IF_FULL) :
    Prop where
  context : r.1.pIpContext = s.pIpContext
  numbers : ∀ j, (r.1.g_ipif_be_bufs j).Cfg.InstanceNumber =
    if j < k ∧ j < COSA_USG_IF_NUM build - 1 then BitVec.ofNat 32 (1 + j) else 0
  length : r.2.length = k
  reported : ∀ i e, r.2[i]? = some e → ∃ x, source build s i = some x ∧ Reported build s i e x

theorem source_fixed (hk : k < COSA_USG_IF_NUM build - 1) :
    source build s k = some (.fixed k) := if_neg (by omega)

theorem source_mlan {p : ℕ} {x : DMSB_TR181_IP_IF} (hx : s.pIpContext.IpIfList[p]? = some x) :
    source build s (COSA_USG_IF_NUM build - 1 + p) = some (.mlan p x) := by
  rw [source, if_pos (by omega)]
  dsimp only
  rw [Nat.add_sub_cancel_left, hx, Option.map_some]

theorem loadedTo_step {r : State × List COSA_DML_IP_IF_FULL} (h : LoadedTo build s k r)
    (hk : k < CosaDmlIpIfGetNumberOfEntries build s) (pEntry : COSA_DML_IP_IF_FULL) :
    LoadedTo build s (k + 1) ((CosaDmlIpIfGetEntry build w r.1 k pEntry).2.2,
      r.2 ++ [(CosaDmlIpIfGetEntry build w r.1 k pEntry).2.1]) := by
  have happend : ∀ e₀ x₀, source build s k = some x₀ → Reported build s k e₀ x₀ →
      ∀ i e, (r.2 ++ [e₀])[i]? = some e →
        ∃ x, source build s i = some x ∧ Reported build s i e x := by
    intro e₀ x₀ hsource hreported i e he
    rcases Nat.lt_or_ge i r.2.length with hi | hi
    · rw [List.getElem?_append_left hi] at he
      exact h.reported i e he
    · rw [List.getElem?_append_right hi, List.getElem?_singleton] at he
      split at he
      · have hik : i = k := by
          have hlength := h.length
          omega
        obtain rfl := Option.some.inj he
        rw [hik]
        exact ⟨x₀, hsource, hreported⟩
      · cases he
  by_cases hfixed : k < COSA_USG_IF_NUM build - 1
  · rw [getEntry_fixed hfixed]
    refine ⟨h.context, fun j => ?_, by simp [h.length],
      happend _ _ (source_fixed hfixed) (.fixed hfixed rfl ?_)⟩
    · by_cases hj : j = k
      · subst hj
        rw [if_pos ⟨by omega, hfixed⟩]
        simp [State.setBuf, fixedEntry]
      · have hbuf : (r.1.setBuf k
            { r.1.g_ipif_be_bufs k with
              Cfg := (fixedEntry build w k k pEntry).Cfg
              Info := (fixedEntry build w k k pEntry).Info }).g_ipif_be_bufs j =
              r.1.g_ipif_be_bufs j := Function.update_of_ne hj ..
        have hlt : j < k + 1 ∧ j < COSA_USG_IF_NUM build - 1 ↔
            j < k ∧ j < COSA_USG_IF_NUM build - 1 := by omega
        rw [hbuf, h.numbers j]
        simp only [hlt]
    · exact MlanInterfaces.text_strcpy_s_of_lt (names_fit (by omega))
  · obtain ⟨p, rfl⟩ := Nat.exists_eq_add_of_le (Nat.le_of_not_lt hfixed)
    have hnum := one_lt_num build
    have hp : p < s.pIpContext.IpIfList.length := by
      rw [CosaDmlIpIfGetNumberOfEntries] at hk
      omega
    have hplace := List.getElem?_eq_getElem hp
    have hplace' : r.1.pIpContext.IpIfList[p]? = some s.pIpContext.IpIfList[p] := by
      rw [h.context]
      exact hplace
    rw [getEntry_mlan hplace']
    refine ⟨h.context, fun j => ?_, by simp [h.length],
      happend _ _ (source_mlan hplace) (.mlan hplace)⟩
    have hlt : j < COSA_USG_IF_NUM build - 1 + p + 1 ∧ j < COSA_USG_IF_NUM build - 1 ↔
        j < COSA_USG_IF_NUM build - 1 + p ∧ j < COSA_USG_IF_NUM build - 1 := by omega
    rw [h.numbers j]
    simp only [hlt]

theorem loadedTo_loadEntries (hzero : ∀ j, (s.g_ipif_be_bufs j).Cfg.InstanceNumber = 0)
    (pEntries : ℕ → COSA_DML_IP_IF_FULL) (hk : k ≤ CosaDmlIpIfGetNumberOfEntries build s) :
    LoadedTo build s k (loadEntries build w s pEntries k) := by
  induction k with
  | zero =>
    refine ⟨rfl, fun j => ?_, rfl, fun i e he => ?_⟩
    · rw [if_neg (by omega)]
      exact hzero j
    · cases he
  | succ k ih => exact loadedTo_step (ih (by omega)) hk (pEntries k)

theorem load_spec (held : ℕ → COSA_PRI_IP_IF_FULL) (table : MlanTable)
    (pEntries : ℕ → COSA_DML_IP_IF_FULL) :
    Loaded build (load build w held table pEntries).1 ∧
      ∀ ulIndex, (source build (load build w held table pEntries).1 ulIndex = none ∧
          (load build w held table pEntries).2[ulIndex]? = none) ∨
        ∃ e x, (load build w held table pEntries).2[ulIndex]? = some e ∧
          source build (load build w held table pEntries).1 ulIndex = some x ∧
          Reported build (load build w held table pEntries).1 ulIndex e x := by
  have hnum := one_lt_num build
  have hloaded := @loadedTo_loadEntries build w (initial held table) _ (fun j => rfl) pEntries
    (Nat.le_refl _)
  change LoadedTo build (initial held table) _ (load build w held table pEntries) at hloaded
  have hcount : CosaDmlIpIfGetNumberOfEntries build (initial held table) =
      COSA_USG_IF_NUM build + table.context.IpIfList.length - 1 := rfl
  have hsource : ∀ i, source build (load build w held table pEntries).1 i =
      source build (initial held table) i := by
    intro i
    rw [source, source, hloaded.context]
  refine ⟨⟨fun j => ?_, ?_⟩, fun ulIndex => ?_⟩
  · have hlt : j < CosaDmlIpIfGetNumberOfEntries build (initial held table) ∧
        j < COSA_USG_IF_NUM build - 1 ↔ j < COSA_USG_IF_NUM build - 1 := by omega
    rw [hloaded.numbers j]
    simp only [hlt]
  · rw [hloaded.context]
    exact table.nodup
  · cases he : (load build w held table pEntries).2[ulIndex]? with
    | none =>
      have hout := List.getElem?_eq_none_iff.mp he
      rw [hloaded.length, hcount] at hout
      refine Or.inl ⟨?_, rfl⟩
      rw [hsource, source, if_pos (by omega)]
      dsimp only
      have hlen : (initial held table).pIpContext.IpIfList.length ≤
          ulIndex - (COSA_USG_IF_NUM build - 1) := by
        change table.context.IpIfList.length ≤ _
        omega
      rw [List.getElem?_eq_none hlen, Option.map_none]
    | some e =>
      obtain ⟨x, hx, hreported⟩ := hloaded.reported ulIndex e he
      refine Or.inr ⟨e, x, rfl, (hsource ulIndex).trans hx, ?_⟩
      cases hreported with
      | fixed hi hnumber hname => exact .fixed hi hnumber hname
      | mlan hp =>
        apply Reported.mlan
        rw [hloaded.context]
        exact hp

end Loading

section PrimaryLan

def blankCfg : COSA_DML_IP_IF_CFG := MlanInterfaces.entry.Cfg

def primaryLan : DMSB_TR181_IP_IF where
  Cfg := numbered blankCfg 4
  Info := ⟨Buf.sprintf_s brlan0, 0⟩
  LastStats := MlanInterfaces.emptyStats

def lanTable : MlanTable where
  context := ⟨[primaryLan], MlanInterfaces.emptyStore⟩
  nodup := List.nodup_singleton _
  V4Addr := fun _ => none
  V4SubnetMask := fun _ => none

def quietWorld : World where
  sys := MlanInterfaces.quiet
  uptime := 0
  mtu := fun _ => 1500
  IfAddr := fun _ => 0
  netmask := fun _ => 0
  tr_alias := fun _ => []
  tr_v4addr_alias := fun _ => []
  IPIF_getEntry := fun _ _ l => l
  multinet_name := fun _ => []
  ipv6_value := fun _ _ => []

def emptyBuf : COSA_PRI_IP_IF_FULL where
  Cfg := blankCfg
  Info := ⟨Buf.empty, 0⟩
  V4Addr := ⟨0, Buf.empty, 0, 0⟩
  V6List := fun _ => []

def lanLoaded : State × List COSA_DML_IP_IF_FULL :=
  load ⟨true, false⟩ quietWorld (fun _ => emptyBuf) lanTable fun _ => ⟨blankCfg, ⟨Buf.empty, 0⟩⟩

def lanEntry : COSA_DML_IP_IF_FULL := ⟨primaryLan.Cfg, primaryLan.Info⟩

end PrimaryLan

end CcspPandM.IpInterfaceDispatch
