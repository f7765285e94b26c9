import Edk2Rk3576.Ohci.TransfersSound

/-!
# The reset of the controller

`OhciReset` gives everything back that the transfers and the lists were given, makes the lists anew,
and enables them. It does not look at the last of the lists. A controller that is started has been
reset with nothing to give back.
-/

namespace Edk2Rk3576.Ohci

open Cells UnitPool

variable {D : DmaLib} {base base₀ : DmaState} {top a n x : ℕ} {dev dev' : OhciDev}
  {att tds : ℕ → List ℕ} {other leaked : List (ℕ × ℕ)} {e : InterruptContextEntry}
  {entries : List InterruptContextEntry}

section Model

/-- `OhciFreeDynamicIntMemory`: the first context goes until there is none. -/
def ohciFreeDynamicIntMemory : List InterruptContextEntry → OhciDev → Except OhciHalt OhciDev
  | [], dev => .ok dev
  | entry :: entries, dev =>
    ohciFreeInterruptEdByEd entry.ed { dev with interruptContextList := entries } >>= fun dev =>
      ohciFreeInterruptContextEntry entry dev >>= fun dev => ohciFreeDynamicIntMemory entries dev

/-- The lists of a level from `index` on. -/
def ohciFreeLevel (level : ℕ) : (count index : ℕ) → OhciDev → Except OhciHalt OhciDev
  | 0, _, dev => .ok dev
  | count + 1, index, dev =>
    (if dev.intervalList level index ≠ 0 then usbHcFree (dev.intervalList level index) sizeofEd dev
      else .ok dev) >>= fun dev => ohciFreeLevel level count (index + 1) dev

/-- The levels from `level` on. -/
def ohciFreeLevels : (count level : ℕ) → OhciDev → Except OhciHalt OhciDev
  | 0, _, dev => .ok dev
  | count + 1, level, dev =>
    ohciFreeLevel level ([32, 16, 8, 4, 2, 1].getD level 0) 0 dev >>= fun dev =>
      ohciFreeLevels count (level + 1) dev

def ohciFreeFixedIntMemory (dev : OhciDev) : Except OhciHalt OhciDev := ohciFreeLevels 6 0 dev

def ohciFreeIntTransferMemory (dev : OhciDev) : Except OhciHalt OhciDev :=
  ohciFreeDynamicIntMemory dev.interruptContextList dev >>= ohciFreeFixedIntMemory

/-- The lists as they are enabled at the end of a reset. -/
def OhciDev.operational (dev : OhciDev) : OhciDev :=
  { dev with
    controlHead := 0
    bulkHead := 0
    periodicEnable := true
    controlEnable := true
    bulkEnable := true }

/-- `OhciReset`, with the status of the lists. -/
def ohciReset (D : DmaLib) (dev : OhciDev) : Except OhciHalt (EfiStatus × OhciDev) :=
  ohciFreeIntTransferMemory dev >>= fun dev =>
    ohciInitializeInterruptList D dev >>= fun r => .ok (r.1, r.2.operational)

end Model

section Contexts

/-- The first context goes with all it has. -/
theorem TransfersSound.freeFirst (h : TransfersSound top base₀ other leaked dev att tds)
    (htop : top ≤ 2 ^ 32) (hlist : dev.interruptContextList = e :: entries) :
    ∃ dev₁ dev₂ att', ohciFreeInterruptEdByEd e.ed { dev with interruptContextList := entries } =
        .ok dev₁ ∧ ohciFreeInterruptContextEntry e dev₁ = .ok dev₂ ∧
      TransfersSound top base₀ other leaked dev₂ att' tds ∧ dev₂.interruptContextList = entries := by
  obtain ⟨base, hsound, hB, hM, hk⟩ := h.held
  have he : e ∈ dev.interruptContextList := hlist ▸ List.mem_cons_self
  have hsub : ∀ e' ∈ entries, e' ∈ dev.interruptContextList := fun e' he' =>
    hlist ▸ List.mem_cons_of_mem _ he'
  have htransfer := h.transfers e he
  obtain ⟨hed0, hedlt, -⟩ := hsound.addr (h.mem_live he List.mem_cons_self)
  have happart := h.apart
  rw [hlist, List.pairwise_cons] at happart
  -- the endpoint is unlinked
  set drop : EdDescriptor → ℕ → Bool := fun _ next => next = e.ed with hdrop
  set dev₀ : OhciDev := { dev with interruptContextList := entries } with hdev₀
  have hsched₀ : Sched dev₀ att := h.sched.congr rfl rfl fun _ _ _ _ => rfl
  have hnotHead : ∀ n < 63, dev.listHead n ≠ e.ed := fun n hn heq => by
    obtain ⟨m, hm, -, hmem⟩ := h.placed e he
    have hsame := h.sched.threaded.mem_unique (mem_lists.2 hn) (mem_lists.2 hm)
      (heq ▸ List.mem_cons_self : e.ed ∈ items dev.listHead att n) (List.mem_cons_of_mem _ hmem)
    subst hsame
    have hnodup := h.sched.threaded.nodup n (mem_lists.2 hn)
    exact (List.nodup_cons.1 hnodup).1 (heq ▸ hmem)
  have hedlive : ∀ n < 63, ∀ x ∈ att n, (x, sizeofEd) ∈ dev₀.mem.live := fun n hn x hx => by
    obtain ⟨e', he', rfl⟩ := h.attached n hn x hx
    exact h.mem_live he' List.mem_cons_self
  have hheads : ∀ n < 63, dev₀.drops drop (dev₀.listHead n) = false := fun n hn =>
    decide_eq_false (hnotHead n hn)
  have hfreeLink : LinkFree drop := fun _ _ _ _ => rfl
  obtain ⟨dev₁, att', hunlink, hpruned, hatt⟩ := ohciUnlinkLists_ok hfreeLink hsched₀
    (show PoolSound top base dev₀.mem from hsound) hheads hedlive
  have hbyEd : ohciFreeInterruptEdByEd e.ed dev₀ = .ok dev₁ := by
    rw [ohciFreeInterruptEdByEd, if_neg hed0, toUint32_of_lt (hedlt.trans_le htop)]
    exact hunlink
  have hmemAtt : ∀ n < 63, ∀ x, x ∈ att' n ↔ x ∈ att n ∧ x ≠ e.ed := fun n hn x => by
    rw [hatt n hn, List.mem_filter, OhciDev.drops]
    simp [hdrop]
  have hrest := hpruned.rest
  -- what it owns beside the endpoint is freed
  have hperm : dev.mem.live.Perm ([(e.ed, sizeofEd)] ++ (tdMem (tds e.dataTd) ++
      (entries.flatMap (InterruptContextEntry.owned tds) ++ (dev.heads ++ other)))) := by
    have hlive := h.live
    rw [hlist, List.flatMap_cons, List.append_assoc] at hlive
    exact hlive
  have hlive₁ : dev₁.mem.live.Perm (tdMem (tds e.dataTd) ++
      (entries.flatMap (InterruptContextEntry.owned tds) ++ (dev.heads ++ other))) := by
    refine perm_of_removed hsound.live_nodup hpruned.sound.live_nodup hperm fun c => ?_
    rw [hpruned.live, List.mem_singleton]
    refine and_congr_right fun _ => ⟨fun hall heq => ?_, fun hne n hn x hx hgone heq => hne ?_⟩
    · obtain ⟨n, hn, -, hmem⟩ := h.placed e he
      exact hall n hn e.ed hmem (fun hin => ((hmemAtt n hn e.ed).1 hin).2 rfl) heq
    · rw [hmemAtt n hn x, not_and_not_right] at hgone
      rw [heq, hgone hx]
  have hpointer : Seg dev₁.nextTDPointer e.dataTd (tds e.dataTd) 0 :=
    htransfer.pointer.congr fun x _ => by
      rw [OhciDev.nextTDPointer, hrest]
      rfl
  rw [hlist, List.map_cons, List.cons_append] at hB hM
  rw [hlist, List.length_cons] at hk
  obtain ⟨base', mem, hfree, hsound', hlive', hB', hM', hk'⟩ := ohciFreeInterruptContextEntry_ok
    hpruned.sound htop hpointer hlive₁ htransfer.buffer htransfer.mapping hB hM
    (show base.pools = base₀.pools + entries.length + 1 by omega)
  have hkept : ({ dev₁ with mem := mem } : OhciDev).interruptContextList = entries := by
    rw [hrest]
  have hhead : ({ dev₁ with mem := mem } : OhciDev).listHead = dev.listHead := by
    rw [hrest]
    rfl
  refine ⟨dev₁, _, att', hbyEd, hfree, ⟨⟨base', hsound', ?_, ?_, ?_⟩,
    hpruned.sched.congr rfl rfl fun _ _ _ _ => rfl, fun e' he' => ?_, fun n hn x hx => ?_,
    fun e' he' => ?_, ?_, ?_, ?_⟩, hkept⟩
  · rwa [hkept]
  · rwa [hkept]
  · rwa [hkept]
  · rw [hkept] at he'
    obtain ⟨n, hn, hlevel, hmem⟩ := h.placed e' (hsub e' he')
    exact ⟨n, hn, hlevel, (hmemAtt n hn _).2 ⟨hmem, Ne.symm (happart.1 e' he').1⟩⟩
  · obtain ⟨hmem, hne⟩ := (hmemAtt n hn x).1 hx
    obtain ⟨e', he', rfl⟩ := h.attached n hn x hmem
    rw [hkept]
    rw [hlist] at he'
    rcases List.mem_cons.1 he' with rfl | he'
    · exact absurd rfl hne
    · exact ⟨e', he', rfl⟩
  · rw [hkept] at he'
    have hsame := hpruned.same e'.ed
    refine (h.transfers e' (hsub e' he')).congr ?_ ?_ fun x _ => ?_
    · change (dev₁.ed e'.ed).functionAddress = _
      rw [hsame]
    · change (dev₁.ed e'.ed).endPointNum = _
      rw [hsame]
    · change (dev₁.td x).fixed = _
      rw [hrest]
  · rw [heads_congr hhead, hkept]
    exact hlive'
  · change dev₁.controlEnable = true → dev₁.controlHead = 0
    rw [hrest]
    exact h.control
  · change dev₁.bulkEnable = true → dev₁.bulkHead = 0
    rw [hrest]
    exact h.bulk

/-- All of the contexts go. -/
theorem TransfersSound.freeDynamic (h : TransfersSound top base₀ other leaked dev att tds)
    (htop : top ≤ 2 ^ 32) (hlist : dev.interruptContextList = entries) :
    ∃ dev' att', ohciFreeDynamicIntMemory entries dev = .ok dev' ∧
      TransfersSound top base₀ other leaked dev' att' tds ∧ dev'.interruptContextList = [] := by
  induction entries generalizing dev att with
  | nil => exact ⟨dev, att, rfl, h, hlist⟩
  | cons e entries ih =>
    obtain ⟨dev₁, dev₂, att', hbyEd, hfree, hsound, hkept⟩ := h.freeFirst htop hlist
    obtain ⟨dev', att'', hok, hsound', hempty⟩ := ih hsound hkept
    refine ⟨dev', att'', ?_, hsound', hempty⟩
    rw [ohciFreeDynamicIntMemory, hbyEd]
    change (ohciFreeInterruptContextEntry e dev₁ >>= fun dev => ohciFreeDynamicIntMemory entries dev) = _
    rw [hfree]
    exact hok

end Contexts

section Heads

/-- The lists from a number on, as they are allocated. -/
def OhciDev.headsFrom (dev : OhciDev) (n count : ℕ) : List (ℕ × ℕ) :=
  (List.range' n count).map fun n => (dev.listHead n, sizeofEd)

theorem headsFrom_add {count count' : ℕ} :
    dev.headsFrom n (count + count') = dev.headsFrom n count ++ dev.headsFrom (n + count) count' := by
  rw [OhciDev.headsFrom, OhciDev.headsFrom, OhciDev.headsFrom, ← List.map_append,
    List.range'_append_1]

variable {level count index : ℕ} {rest : List (ℕ × ℕ)}

/-- A level of lists is freed. -/
theorem ohciFreeLevel_ok (hsound : PoolSound top base dev.mem) (hlevel : level < 6)
    (hcount : index + count ≤ 32 / 2 ^ level)
    (hlive : dev.mem.live.Perm (dev.headsFrom (listAt level index) count ++ rest)) :
    ∃ mem, ohciFreeLevel level count index dev = .ok { dev with mem := mem } ∧
      PoolSound top base mem ∧ mem.live.Perm rest := by
  induction count generalizing index dev with
  | zero => exact ⟨dev.mem, rfl, hsound, hlive⟩
  | succ count ih =>
    have hhead : dev.listHead (listAt level index) = dev.intervalList level index :=
      OhciDev.listHead_listAt hlevel (by omega)
    have hsplit : dev.headsFrom (listAt level index) (count + 1) =
        (dev.intervalList level index, sizeofEd) :: dev.headsFrom (listAt level (index + 1)) count := by
      rw [Nat.add_comm, headsFrom_add, ← hhead]
      rfl
    rw [hsplit, List.cons_append] at hlive
    have hmem := hlive.mem_iff.2 List.mem_cons_self
    obtain ⟨mem, hfree, hsound', hlive'⟩ := usbHcFree_ok hsound hmem
    have hperm : mem.live.Perm (dev.headsFrom (listAt level (index + 1)) count ++ rest) := by
      refine perm_of_removed hsound.live_nodup hsound'.live_nodup
        (show dev.mem.live.Perm ([_] ++ _) from hlive) fun c => ?_
      rw [hlive', List.mem_singleton]
    obtain ⟨mem', hok, hsound'', hlive''⟩ := ih
      (show PoolSound top base ({ dev with mem := mem } : OhciDev).mem from hsound') (by omega) hperm
    refine ⟨mem', ?_, hsound'', hlive''⟩
    rw [ohciFreeLevel, if_pos (hsound.addr hmem).1, hfree]
    exact hok

/-- All of the lists are freed. -/
theorem ohciFreeFixedIntMemory_ok (hsound : PoolSound top base dev.mem)
    (hlive : dev.mem.live.Perm (dev.heads ++ rest)) :
    ∃ mem, ohciFreeFixedIntMemory dev = .ok { dev with mem := mem } ∧
      PoolSound top base mem ∧ mem.live.Perm rest := by
  have hloop : ∀ count level, level + count = 6 → ∀ {dev : OhciDev}, PoolSound top base dev.mem →
      dev.mem.live.Perm (dev.headsFrom (listAt level 0) (63 - listAt level 0) ++ rest) →
      ∃ mem, ohciFreeLevels count level dev = .ok { dev with mem := mem } ∧
        PoolSound top base mem ∧ mem.live.Perm rest := by
    intro count
    induction count with
    | zero =>
      intro level hlevel dev hsound hlive
      obtain rfl : level = 6 := by omega
      exact ⟨dev.mem, rfl, hsound, hlive⟩
    | succ count ih =>
      intro level hlevel dev hsound hlive
      have hlt : level < 6 := by omega
      have hleaf : [32, 16, 8, 4, 2, 1].getD level 0 = 32 / 2 ^ level ∧
          63 - listAt level 0 = 32 / 2 ^ level + (63 - listAt (level + 1) 0) ∧
          listAt level 0 + 32 / 2 ^ level = listAt (level + 1) 0 := by
        clear * - hlt
        interval_cases level <;> decide
      rw [hleaf.2.1, headsFrom_add, hleaf.2.2, List.append_assoc] at hlive
      obtain ⟨mem, hok, hsound', hlive'⟩ := ohciFreeLevel_ok hsound hlt (by omega) hlive
      obtain ⟨mem', hrest, hsound'', hlive''⟩ := ih (level + 1) (by omega)
        (show PoolSound top base ({ dev with mem := mem } : OhciDev).mem from hsound') hlive'
      refine ⟨mem', ?_, hsound'', hlive''⟩
      rw [ohciFreeLevels, hleaf.1, hok]
      exact hrest
  refine hloop 6 0 rfl hsound ?_
  have hall : dev.headsFrom (listAt 0 0) (63 - listAt 0 0) = dev.heads := by
    rw [OhciDev.headsFrom, OhciDev.heads, List.range_eq_range']
    rfl
  rw [hall]
  exact hlive

end Heads

section Reset

/-- What is given back in a reset. -/
structure Given (top : ℕ) (base₀ : DmaState) (other leaked : List (ℕ × ℕ)) (dev : OhciDev) : Prop where
  held : ∃ base, PoolSound top base dev.mem ∧ base.buffers.Perm (leaked ++ base₀.buffers) ∧
    base.mappings.Perm base₀.mappings ∧ base.pools = base₀.pools
  live : dev.mem.live.Perm other
  contexts : dev.interruptContextList = []

/-- The transfers and the lists give back what they have. -/
theorem TransfersSound.free (h : TransfersSound top base₀ other leaked dev att tds)
    (htop : top ≤ 2 ^ 32) :
    ∃ dev', ohciFreeIntTransferMemory dev = .ok dev' ∧ Given top base₀ other leaked dev' := by
  obtain ⟨dev₁, att', hok, hsound, hempty⟩ := h.freeDynamic htop rfl
  obtain ⟨base, hpool, hB, hM, hk⟩ := hsound.held
  have hlive := hsound.live
  rw [hempty] at hB hM hk hlive
  obtain ⟨mem, hfixed, hmem, hother⟩ := ohciFreeFixedIntMemory_ok hpool hlive
  refine ⟨{ dev₁ with mem := mem }, ?_, ⟨base, hmem, hB, hM, hk⟩, hother, hempty⟩
  rw [ohciFreeIntTransferMemory, hok]
  exact hfixed

/-- Lists that are made are those of no transfers. -/
theorem Given.made (h : Given top base₀ other leaked dev) (hD : D.Lawful top) (htop : top ≤ 2 ^ 32)
    (hmade : ohciInitializeInterruptList D dev = .ok (efiSuccess, dev'))
    (hroot : dev'.intervalList 5 0 ≠ 0) :
    TransfersSound top base₀ other leaked dev'.operational (fun _ => []) fun _ => [] := by
  obtain ⟨base, hpool, hB, hM, hk⟩ := h.held
  obtain ⟨hsound, hsched, hlive, hfresh, hcontexts⟩ := ohciInitializeInterruptList_ok hD htop hpool hmade hroot
  have hempty : dev'.operational.interruptContextList = [] := hcontexts.trans h.contexts
  have hnodup : dev'.heads.Nodup := by
    refine List.Nodup.map_on (fun n hn m hm heq => ?_) List.nodup_range
    refine hsched.threaded.mem_unique (mem_lists.2 (List.mem_range.1 hn))
      (mem_lists.2 (List.mem_range.1 hm)) List.mem_cons_self ?_
    rw [(Prod.mk.inj heq).1]
    exact List.mem_cons_self
  refine ⟨⟨base, hsound, ?_, ?_, ?_⟩, hsched.congr rfl rfl fun _ _ _ _ => rfl, ?_,
    fun _ _ x hx => absurd hx List.not_mem_nil, ?_, ?_, fun _ => rfl, fun _ => rfl⟩
  · rw [hempty]
    exact hB
  · rw [hempty]
    exact hM
  · rw [hempty]
    exact hk
  · rw [hempty]
    exact fun e he => absurd he List.not_mem_nil
  · rw [hempty]
    exact fun e he => absurd he List.not_mem_nil
  · rw [hempty]
    change dev'.mem.live.Perm (dev'.heads ++ other)
    refine (perm_of_added hpool.live_nodup hsound.live_nodup hnodup (fun c hc hmem => ?_)
      fun c => ?_).trans (h.live.append_left _)
    · obtain ⟨n, hn, rfl⟩ := List.mem_map.1 hc
      exact hfresh n (List.mem_range.1 hn) hmem
    · rw [hlive, OhciDev.heads, List.mem_map]
      refine or_congr_right ?_
      constructor
      · rintro ⟨n, hn, heq⟩
        exact ⟨n, List.mem_range.2 hn, heq.symm⟩
      · rintro ⟨n, hn, heq⟩
        exact ⟨n, List.mem_range.1 hn, heq.symm⟩

end Reset

end Edk2Rk3576.Ohci
