import Edk2Rk3576.Ohci.Schedule

/-!
# The making of the interrupt lists

The endpoints of the lists are created in the order of their numbers, and each is linked from its two
children. An endpoint that cannot be created leaves a null pointer among the lists, which no later
step overwrites.
-/

namespace Edk2Rk3576.Ohci

open Cells UnitPool

variable {D : DmaLib} {base : DmaState} {top a b n N m t count index level listCount : ℕ}
  {dev dev' : OhciDev} {live₀ : List (ℕ × ℕ)} {done : Bool}

section Frame

theorem ohciCreateED_rest {r : ℕ × OhciDev} (h : ohciCreateED D dev = .ok r) :
    r.2.intervalList = dev.intervalList ∧ r.2.hccaInterruptTable = dev.hccaInterruptTable ∧
      r.2.interruptContextList = dev.interruptContextList := by
  rw [ohciCreateED, usbHcAllocate] at h
  rcases hmem : usbHcAllocateMem D sizeofEd dev.mem.pool dev.mem.dma with e | ⟨mem, pool, dma⟩ <;>
    rw [hmem] at h
  · cases h
  · change (if mem = 0 then _ else _) = _ at h
    split_ifs at h <;> obtain rfl := Except.ok.inj h <;> exact ⟨rfl, rfl, rfl⟩

theorem ohciLinkList_rest (h : ohciLinkList level index n dev = .ok dev') :
    dev'.intervalList = dev.intervalList ∧
      dev'.interruptContextList = dev.interruptContextList ∧
      dev'.hccaInterruptTable = dev.hccaInterruptTable := by
  rw [ohciLinkList] at h
  split_ifs at h
  obtain rfl := Except.ok.inj h
  exact ⟨rfl, rfl, rfl⟩

theorem ohciLinkList_nonzero (h : ohciLinkList level index n dev = .ok dev') :
    dev.intervalList level index ≠ 0 := by
  rw [ohciLinkList] at h
  split_ifs at h with hzero
  exact hzero

/-- A level has half the lists of the one below it. -/
theorem listCount_half (hlow : 1 ≤ level) (hlists : listCount = 32 / 2 ^ (level - 1)) :
    listCount / 2 = 32 / 2 ^ level := by
  obtain ⟨l, rfl⟩ : ∃ l, level = l + 1 := ⟨level - 1, by omega⟩
  rw [hlists, Nat.add_sub_cancel, Nat.div_div_eq_div_mul, Nat.pow_succ]

/-- What comes of a round of a level. -/
theorem ohciFillLevel_succ
    (h : ohciFillLevel D level (count + 1) index dev = .ok (done, dev')) :
    ∃ r, ohciCreateED D dev = .ok r ∧
      ((dev.hccaInterruptTable index = 0 ∧ done = false ∧ dev' = r.2.setInterval level index r.1) ∨
        (dev.hccaInterruptTable index ≠ 0 ∧ ∃ dev₁ dev₂,
          ohciLinkList (level - 1) (index * 2) r.1 (r.2.setInterval level index r.1) = .ok dev₁ ∧
          ohciLinkList (level - 1) (index * 2 + 1) r.1 dev₁ = .ok dev₂ ∧
          ohciFillLevel D level count (index + 1) dev₂ = .ok (done, dev'))) := by
  rw [ohciFillLevel] at h
  rcases hcreate : ohciCreateED D dev with e | r <;> rw [hcreate] at h
  · cases h
  · have htable : (r.2.setInterval level index r.1).hccaInterruptTable = dev.hccaInterruptTable :=
      (ohciCreateED_rest hcreate).2.1
    change (if (r.2.setInterval level index r.1).hccaInterruptTable index = 0 then _ else _) = _ at h
    rw [htable] at h
    refine ⟨r, rfl, ?_⟩
    split_ifs at h with hzero
    · obtain ⟨rfl, rfl⟩ := Prod.mk.inj (Except.ok.inj h)
      exact .inl ⟨hzero, rfl, rfl⟩
    · rcases h₁ : ohciLinkList (level - 1) (index * 2) r.1 (r.2.setInterval level index r.1) with
        e | dev₁ <;> rw [h₁] at h
      · cases h
      · change (ohciLinkList (level - 1) (index * 2 + 1) r.1 dev₁ >>= _) = _ at h
        rcases h₂ : ohciLinkList (level - 1) (index * 2 + 1) r.1 dev₁ with e | dev₂ <;> rw [h₂] at h
        · cases h
        · exact .inr ⟨hzero, dev₁, dev₂, rfl, h₂, h⟩

theorem OhciDev.setInterval_of_ne {level' index' : ℕ}
    (h : level' < level ∨ (level' = level ∧ index' < index)) :
    (dev.setInterval level index a).intervalList level' index' = dev.intervalList level' index' := by
  rw [OhciDev.setInterval]
  by_cases hlevel : level' = level
  · rw [hlevel]
    dsimp only
    rw [Function.update_self, Function.update_of_ne (by omega)]
  · dsimp only
    rw [Function.update_of_ne hlevel]

theorem OhciDev.setInterval_self :
    (dev.setInterval level index a).intervalList level index = a := by
  rw [OhciDev.setInterval]
  dsimp only
  rw [Function.update_self, Function.update_self]

/-- The rounds of a level leave the lists before them as they are. -/
theorem ohciFillLevel_frame {level' index' : ℕ}
    (h : ohciFillLevel D level count index dev = .ok (done, dev'))
    (hbefore : level' < level ∨ (level' = level ∧ index' < index)) :
    dev'.intervalList level' index' = dev.intervalList level' index' := by
  induction count generalizing index dev with
  | zero =>
    rw [ohciFillLevel] at h
    obtain ⟨-, rfl⟩ := Prod.mk.inj (Except.ok.inj h)
    rfl
  | succ count ih =>
    obtain ⟨r, hcreate, hcases⟩ := ohciFillLevel_succ h
    have hcreated := (ohciCreateED_rest hcreate).1
    rcases hcases with ⟨-, -, rfl⟩ | ⟨-, dev₁, dev₂, h₁, h₂, hrest⟩
    · rw [OhciDev.setInterval_of_ne hbefore, hcreated]
    · rw [ih hrest (by omega), (ohciLinkList_rest h₂).1, (ohciLinkList_rest h₁).1,
        OhciDev.setInterval_of_ne hbefore, hcreated]

theorem ohciFillLevels_frame {level' index' : ℕ}
    (h : ohciFillLevels D count level listCount dev = .ok (done, dev')) (hbefore : level' < level) :
    dev'.intervalList level' index' = dev.intervalList level' index' := by
  induction count generalizing level listCount dev with
  | zero =>
    rw [ohciFillLevels] at h
    obtain ⟨-, rfl⟩ := Prod.mk.inj (Except.ok.inj h)
    rfl
  | succ count ih =>
    rw [ohciFillLevels] at h
    rcases hfill : ohciFillLevel D level (listCount / 2) 0 dev with e | ⟨b, dev₁⟩ <;> rw [hfill] at h
    · cases h
    · change (if b = true then _ else _) = _ at h
      have hframe : dev₁.intervalList level' index' = dev.intervalList level' index' :=
        ohciFillLevel_frame hfill (.inl hbefore)
      split_ifs at h
      · rw [ih h (by omega), hframe]
      · obtain ⟨-, rfl⟩ := Prod.mk.inj (Except.ok.inj h)
        exact hframe

theorem ohciFillLevel_contexts
    (h : ohciFillLevel D level count index dev = .ok (done, dev')) :
    dev'.interruptContextList = dev.interruptContextList := by
  induction count generalizing index dev with
  | zero =>
    rw [ohciFillLevel] at h
    obtain ⟨-, rfl⟩ := Prod.mk.inj (Except.ok.inj h)
    rfl
  | succ count ih =>
    obtain ⟨r, hcreate, hcases⟩ := ohciFillLevel_succ h
    have hcreated := (ohciCreateED_rest hcreate).2.2
    rcases hcases with ⟨-, -, rfl⟩ | ⟨-, dev₁, dev₂, h₁, h₂, hrest⟩
    · exact hcreated
    · rw [ih hrest, (ohciLinkList_rest h₂).2.1, (ohciLinkList_rest h₁).2.1]
      exact hcreated

theorem ohciFillLevels_contexts
    (h : ohciFillLevels D count level listCount dev = .ok (done, dev')) :
    dev'.interruptContextList = dev.interruptContextList := by
  induction count generalizing level listCount dev with
  | zero =>
    rw [ohciFillLevels] at h
    obtain ⟨-, rfl⟩ := Prod.mk.inj (Except.ok.inj h)
    rfl
  | succ count ih =>
    rw [ohciFillLevels] at h
    rcases hfill : ohciFillLevel D level (listCount / 2) 0 dev with e | ⟨b, dev₁⟩ <;> rw [hfill] at h
    · cases h
    · change (if b = true then _ else _) = _ at h
      split_ifs at h
      · rw [ih h, ohciFillLevel_contexts hfill]
      · obtain ⟨-, rfl⟩ := Prod.mk.inj (Except.ok.inj h)
        exact ohciFillLevel_contexts hfill

/-- Where no entry of the table is missing, a level is finished, and every list below it is there, as
it has been linked. -/
theorem ohciFillLevel_below (hlow : 1 ≤ level)
    (htable : ∀ i < index + count, dev.hccaInterruptTable i ≠ 0)
    (h : ohciFillLevel D level count index dev = .ok (done, dev')) :
    done = true ∧ dev'.hccaInterruptTable = dev.hccaInterruptTable ∧
      ∀ i, index * 2 ≤ i → i < (index + count) * 2 → dev'.intervalList (level - 1) i ≠ 0 := by
  induction count generalizing index dev with
  | zero =>
    rw [ohciFillLevel] at h
    obtain ⟨rfl, rfl⟩ := Prod.mk.inj (Except.ok.inj h)
    exact ⟨rfl, rfl, fun i hi hi' => by omega⟩
  | succ count ih =>
    obtain ⟨r, hcreate, hcases⟩ := ohciFillLevel_succ h
    rcases hcases with ⟨hzero, -, -⟩ | ⟨-, dev₁, dev₂, h₁, h₂, hrest⟩
    · exact absurd hzero (htable index (by omega))
    · have hsame : dev₂.hccaInterruptTable = dev.hccaInterruptTable := by
        rw [(ohciLinkList_rest h₂).2.2, (ohciLinkList_rest h₁).2.2]
        exact (ohciCreateED_rest hcreate).2.1
      obtain ⟨rfl, htable', hlists⟩ := ih (fun i hi => hsame ▸ htable i (by omega)) hrest
      refine ⟨rfl, htable'.trans hsame, fun i hi hi' => ?_⟩
      by_cases hlater : (index + 1) * 2 ≤ i
      · exact hlists i hlater (by omega)
      · have hframe : dev'.intervalList (level - 1) i = dev₁.intervalList (level - 1) i := by
          rw [ohciFillLevel_frame hrest (.inl (by omega)), (ohciLinkList_rest h₂).1]
        rw [hframe]
        rcases (by omega : i = index * 2 ∨ i = index * 2 + 1) with rfl | rfl
        · rw [(ohciLinkList_rest h₁).1]
          exact ohciLinkList_nonzero h₁
        · exact ohciLinkList_nonzero h₂

theorem ohciFillLevels_below (hlow : 1 ≤ level) (hcount : level + count = 6)
    (hlists : listCount = 32 / 2 ^ (level - 1))
    (htable : ∀ i < 32, dev.hccaInterruptTable i ≠ 0)
    (h : ohciFillLevels D count level listCount dev = .ok (done, dev')) :
    ∀ l < 5, level ≤ l + 1 → ∀ i < 32 / 2 ^ l, dev'.intervalList l i ≠ 0 := by
  induction count generalizing level listCount dev with
  | zero => exact fun l hl hle => by omega
  | succ count ih =>
    have hhalf := listCount_half hlow hlists
    have hpow : 32 / 2 ^ level ≤ 32 := Nat.div_le_self _ _
    rw [ohciFillLevels] at h
    rcases hfill : ohciFillLevel D level (listCount / 2) 0 dev with e | ⟨b, dev₁⟩ <;> rw [hfill] at h
    · cases h
    · obtain ⟨rfl, htable', hbelow⟩ :=
        ohciFillLevel_below hlow (fun i hi => htable i (by omega)) hfill
      change ohciFillLevels D count (level + 1) (listCount / 2) dev₁ = .ok (done, dev') at h
      intro l hl hle i hi
      rcases Nat.eq_or_lt_of_le hle with heq | hlt
      · obtain rfl : l = level - 1 := by omega
        have htwice : 32 / 2 ^ (level - 1) ≤ (32 / 2 ^ level) * 2 := by
          have hhigh : level < 6 := by omega
          clear * - hlow hhigh
          interval_cases level <;> decide
        rw [ohciFillLevels_frame h (by omega)]
        exact hbelow i (by omega) (by omega)
      · exact ih (by omega) (by omega) (by rw [Nat.add_sub_cancel, hhalf])
          (fun j hj => htable' ▸ htable j hj) h l hl (by omega) i hi

end Frame

section Built

/-- The first `N` lists are there, each linked to its parent if that is. -/
structure Built (top : ℕ) (base : DmaState) (live₀ : List (ℕ × ℕ)) (N : ℕ) (dev : OhciDev) :
    Prop where
  sound : PoolSound top base dev.mem
  ed : ∀ n < N, dev.ed (dev.listHead n) =
    { EdDescriptor.created with nextED := if 32 + n / 2 < N then dev.listHead (32 + n / 2) else 0 }
  nonzero : ∀ n < N, dev.listHead n ≠ 0
  lt : ∀ n < N, dev.listHead n < 2 ^ 32 - 1
  inj : ∀ n < N, ∀ m < N, dev.listHead n = dev.listHead m → n = m
  table : ∀ t < 32, dev.hccaInterruptTable t = dev.listHead (leaf.getD t 0)
  live : ∀ c, c ∈ dev.mem.live ↔ c ∈ live₀ ∨ ∃ n < N, c = (dev.listHead n, sizeofEd)
  fresh : ∀ n < N, (dev.listHead n, sizeofEd) ∉ live₀

/-- The children of a list are below it, two and two. -/
theorem listAt_children : ∀ level, 1 ≤ level → level < 6 → ∀ index < 32 / 2 ^ level,
    64 + listAt (level - 1) (index * 2) = 2 * listAt level index ∧
      64 + listAt (level - 1) (index * 2 + 1) = 2 * listAt level index + 1 ∧
      index * 2 + 1 < 32 / 2 ^ (level - 1) ∧ 32 ≤ listAt level index := by
  intro level hlow hhigh
  interval_cases level <;> decide

theorem OhciDev.listHead_listAt (hlevel : level < 6) (hindex : index < 32 / 2 ^ level) :
    dev.listHead (listAt level index) = dev.intervalList level index := by
  obtain ⟨-, hl, hi⟩ := listAt_level level hlevel index hindex
  rw [OhciDev.listHead, hl, hi]

/-- The lists are made level by level. -/
theorem listLevel_of_lt : ∀ m < 63, ∀ n < m,
    listLevel n < listLevel m ∨ (listLevel n = listLevel m ∧ listIndex n < listIndex m) := by
  decide

theorem Built.ne_addr (h : Built top base live₀ N dev) (hnew : NewAddr top dev.mem a) :
    ∀ n < N, dev.listHead n ≠ a := fun n hn heq =>
  hnew.notMem (List.mem_map.2 ⟨_, (h.live _).2 (.inr ⟨n, hn, rfl⟩), heq⟩)

theorem ohciLinkList_ok (a : ℕ) (h : dev.intervalList level index ≠ 0) :
    ohciLinkList level index a dev =
      .ok (dev.setNextED (dev.intervalList level index) (toUint32 a)) := if_neg h

/-- The device with one more list, linked from its children. -/
theorem Built.step {mem : PoolTrace} (h : Built top base live₀ N dev) (htop : top ≤ 2 ^ 32)
    (hlow : 1 ≤ level) (hhigh : level < 6) (hindex : index < 32 / 2 ^ level)
    (hN : N = listAt level index) (hsound : PoolSound top base mem)
    (hnew : NewAddr top dev.mem a) (hlive : mem.live = (a, sizeofEd) :: dev.mem.live) :
    ∃ dev₁ dev₂,
      ohciLinkList (level - 1) (index * 2) a
        ((({ dev with mem := mem }).setEd a .created).setInterval level index a) = .ok dev₁ ∧
      ohciLinkList (level - 1) (index * 2 + 1) a dev₁ = .ok dev₂ ∧
      Built top base live₀ (N + 1) dev₂ := by
  obtain ⟨hleft, hright, hbound, hge⟩ := listAt_children level hlow hhigh index hindex
  obtain ⟨hN63, hlevelN, hindexN⟩ := listAt_level level hhigh index hindex
  rw [← hN] at hleft hright hN63 hlevelN hindexN hge
  have hc : listAt (level - 1) (index * 2) < N := by omega
  have hc' : listAt (level - 1) (index * 2 + 1) < N := by omega
  have hane := h.ne_addr hnew
  have hlt := hnew.lt_pred htop
  -- the heads, with the new one among them
  set dev₀ := (({ dev with mem := mem }).setEd a .created).setInterval level index a with hdev₀
  have hkeep : ∀ n < N, dev₀.listHead n = dev.listHead n := by
    intro n hn
    have hpos := listLevel_of_lt N hN63 n hn
    rw [hlevelN, hindexN] at hpos
    rw [OhciDev.listHead, hdev₀, OhciDev.setInterval_of_ne hpos]
    rfl
  have hself : dev₀.listHead N = a := by
    rw [OhciDev.listHead, hlevelN, hindexN, hdev₀, OhciDev.setInterval_self]
  have hleftHead : dev₀.intervalList (level - 1) (index * 2) =
      dev.listHead (listAt (level - 1) (index * 2)) := by
    rw [← OhciDev.listHead_listAt (by omega) (by omega), hkeep _ hc]
  have hrightHead : dev₀.intervalList (level - 1) (index * 2 + 1) =
      dev.listHead (listAt (level - 1) (index * 2 + 1)) := by
    rw [← OhciDev.listHead_listAt (by omega) hbound, hkeep _ hc']
  set p := dev.listHead (listAt (level - 1) (index * 2)) with hp
  set q := dev.listHead (listAt (level - 1) (index * 2 + 1)) with hq
  have h32 : toUint32 a = a := toUint32_of_lt (by omega)
  have hne₁ : dev₀.intervalList (level - 1) (index * 2) ≠ 0 := by
    rw [hleftHead]
    exact h.nonzero _ hc
  have hne₂ : (dev₀.setNextED p (toUint32 a)).intervalList (level - 1) (index * 2 + 1) ≠ 0 := by
    change dev₀.intervalList (level - 1) (index * 2 + 1) ≠ 0
    rw [hrightHead]
    exact h.nonzero _ hc'
  have hlink₁ := ohciLinkList_ok a hne₁
  have hlink₂ := ohciLinkList_ok a hne₂
  rw [hleftHead] at hlink₁
  change _ = Except.ok ((dev₀.setNextED p (toUint32 a)).setNextED
    (dev₀.intervalList (level - 1) (index * 2 + 1)) (toUint32 a)) at hlink₂
  rw [hrightHead] at hlink₂
  have hpq : p ≠ q := fun heq => by
    have hcc := h.inj _ hc _ hc' heq
    omega
  have hpa : p ≠ a := hane _ hc
  have hqa : q ≠ a := hane _ hc'
  refine ⟨_, _, hlink₁, hlink₂, hsound, fun n hn => ?_, fun n hn => ?_, fun n hn => ?_,
    fun n hn m hm heq => ?_, fun t ht => ?_, fun c => ?_, fun n hn => ?_⟩
  · change _ = { EdDescriptor.created with
      nextED := if 32 + n / 2 < N + 1 then dev₀.listHead (32 + n / 2) else 0 }
    change ((dev₀.setNextED p (toUint32 a)).setNextED q (toUint32 a)).ed (dev₀.listHead n) = _
    rcases Nat.lt_succ_iff_lt_or_eq.1 hn with hn | rfl
    · rw [hkeep n hn]
      by_cases hnq : n = listAt (level - 1) (index * 2 + 1)
      · rw [hnq, ← hq, OhciDev.setNextED_ed_self, OhciDev.setNextED_ed_of_ne (Ne.symm hpq),
          if_pos (by omega), show 32 + listAt (level - 1) (index * 2 + 1) / 2 = N by omega, hself,
          h32, hdev₀]
        change { Function.update dev.ed a EdDescriptor.created q with nextED := a } = _
        rw [Function.update_of_ne hqa, hq, h.ed _ hc']
      · have hneq : dev.listHead n ≠ q := fun heq => hnq (h.inj _ hn _ hc' heq)
        rw [OhciDev.setNextED_ed_of_ne hneq]
        by_cases hnp : n = listAt (level - 1) (index * 2)
        · rw [hnp, ← hp, OhciDev.setNextED_ed_self, if_pos (by omega),
            show 32 + listAt (level - 1) (index * 2) / 2 = N by omega, hself, h32, hdev₀]
          change { Function.update dev.ed a EdDescriptor.created p with nextED := a } = _
          rw [Function.update_of_ne hpa, hp, h.ed _ hc]
        · have hnep : dev.listHead n ≠ p := fun heq => hnp (h.inj _ hn _ hc heq)
          rw [OhciDev.setNextED_ed_of_ne hnep, hdev₀]
          change Function.update dev.ed a EdDescriptor.created (dev.listHead n) = _
          rw [Function.update_of_ne (hane n hn), h.ed n hn]
          by_cases hup : 32 + n / 2 < N
          · rw [if_pos hup, if_pos (by omega), ← hkeep _ hup]
          · rw [if_neg hup, if_neg (by omega)]
    · rw [hself, OhciDev.setNextED_ed_of_ne (Ne.symm hqa),
        OhciDev.setNextED_ed_of_ne (Ne.symm hpa), if_neg (by omega), hdev₀]
      exact Function.update_self _ _ _
  · change dev₀.listHead n ≠ 0
    rcases Nat.lt_succ_iff_lt_or_eq.1 hn with hn | rfl
    · rw [hkeep n hn]
      exact h.nonzero n hn
    · rw [hself]
      exact hnew.ne_zero
  · change dev₀.listHead n < _
    rcases Nat.lt_succ_iff_lt_or_eq.1 hn with hn | rfl
    · rw [hkeep n hn]
      exact h.lt n hn
    · rwa [hself]
  · change dev₀.listHead n = dev₀.listHead m at heq
    rcases Nat.lt_succ_iff_lt_or_eq.1 hn with hn | rfl <;>
      rcases Nat.lt_succ_iff_lt_or_eq.1 hm with hm | rfl
    · rw [hkeep n hn, hkeep m hm] at heq
      exact h.inj n hn m hm heq
    · rw [hkeep n hn, hself] at heq
      exact absurd heq (hane n hn)
    · rw [hkeep m hm, hself] at heq
      exact absurd heq.symm (hane m hm)
    · rfl
  · change dev.hccaInterruptTable t = dev₀.listHead _
    have hleaf := leaf_lt t ht
    rw [hkeep _ (by omega)]
    exact h.table t ht
  · change c ∈ mem.live ↔ c ∈ live₀ ∨ ∃ n < N + 1, c = (dev₀.listHead n, sizeofEd)
    rw [hlive, List.mem_cons, h.live]
    constructor
    · rintro (rfl | hold | ⟨n, hn, rfl⟩)
      · exact .inr ⟨N, Nat.lt_succ_self N, by rw [hself]⟩
      · exact .inl hold
      · exact .inr ⟨n, by omega, by rw [hkeep n hn]⟩
    · rintro (hold | ⟨n, hn, rfl⟩)
      · exact .inr (.inl hold)
      · rcases Nat.lt_succ_iff_lt_or_eq.1 hn with hn | rfl
        · exact .inr (.inr ⟨n, hn, by rw [hkeep n hn]⟩)
        · exact .inl (by rw [hself])
  · change (dev₀.listHead n, sizeofEd) ∉ live₀
    rcases Nat.lt_succ_iff_lt_or_eq.1 hn with hn | rfl
    · rw [hkeep n hn]
      exact h.fresh n hn
    · rw [hself]
      exact fun hold => hnew.notMem (List.mem_map_of_mem ((h.live _).2 (.inl hold)))

/-- The rounds of a level, when no endpoint is missing at the end. -/
theorem ohciFillLevel_built (hD : D.Lawful top) (htop : top ≤ 2 ^ 32)
    (h : Built top base live₀ N dev) (hlow : 1 ≤ level) (hhigh : level < 6)
    (hcount : index + count = 32 / 2 ^ level) (hN : N = listAt level index)
    (hfill : ohciFillLevel D level count index dev = .ok (done, dev'))
    (hall : ∀ i < 32 / 2 ^ level, dev'.intervalList level i ≠ 0) :
    done = true ∧ Built top base live₀ (N + count) dev' := by
  induction count generalizing index N dev with
  | zero =>
    rw [ohciFillLevel] at hfill
    obtain ⟨rfl, rfl⟩ := Prod.mk.inj (Except.ok.inj hfill)
    exact ⟨rfl, h⟩
  | succ count ih =>
    have hindex : index < 32 / 2 ^ level := by omega
    have hpow : 32 / 2 ^ level ≤ 32 := Nat.div_le_self _ _
    have hentry : dev.hccaInterruptTable index ≠ 0 := by
      have hleaf := leaf_lt index (by omega)
      have hge := (listAt_children level hlow hhigh index hindex).2.2.2
      rw [h.table index (by omega)]
      exact h.nonzero _ (by omega)
    obtain ⟨r, hcreate, hcases⟩ := ohciFillLevel_succ hfill
    rcases hcases with ⟨hzero, -, -⟩ | ⟨-, dev₁, dev₂, h₁, h₂, hrest⟩
    · exact absurd hzero hentry
    obtain ⟨a, mem, hmem, hends⟩ := ohciCreateED_ok hD h.sound
    rcases hends with ⟨-, -, hok⟩ | ⟨hnew, hlive, hok⟩
    · -- the null pointer would still be there
      obtain rfl := Except.ok.inj (hcreate.symm.trans hok)
      refine absurd ?_ (hall index hindex)
      rw [ohciFillLevel_frame hrest (.inr ⟨rfl, Nat.lt_succ_self index⟩), (ohciLinkList_rest h₂).1,
        (ohciLinkList_rest h₁).1, OhciDev.setInterval_self]
    · obtain rfl := Except.ok.inj (hcreate.symm.trans hok)
      obtain ⟨d₁, d₂, hd₁, hd₂, hbuilt⟩ :=
        h.step htop hlow hhigh hindex hN hmem hnew hlive
      obtain rfl := Except.ok.inj (h₁.symm.trans hd₁)
      obtain rfl := Except.ok.inj (h₂.symm.trans hd₂)
      have hnext := ih hbuilt (by omega) (by rw [hN, listAt, listAt]; omega) hrest
      rwa [show N + 1 + count = N + (count + 1) by omega] at hnext

theorem ohciFillLevels_built (hD : D.Lawful top) (htop : top ≤ 2 ^ 32)
    (h : Built top base live₀ N dev) (hlow : 1 ≤ level) (hcount : level + count = 6)
    (hlists : listCount = 32 / 2 ^ (level - 1)) (hN : N = 64 - 2 ^ (6 - level))
    (hfill : ohciFillLevels D count level listCount dev = .ok (done, dev'))
    (hall : ∀ l < 6, ∀ i < 32 / 2 ^ l, dev'.intervalList l i ≠ 0) :
    Built top base live₀ 63 dev' := by
  induction count generalizing level N listCount dev with
  | zero =>
    rw [ohciFillLevels] at hfill
    obtain ⟨-, rfl⟩ := Prod.mk.inj (Except.ok.inj hfill)
    obtain rfl : level = 6 := by omega
    rwa [hN] at h
  | succ count ih =>
    have hhigh : level < 6 := by omega
    have hhalf := listCount_half hlow hlists
    rw [ohciFillLevels] at hfill
    rcases hround : ohciFillLevel D level (listCount / 2) 0 dev with e | ⟨b, dev₁⟩ <;>
      rw [hround] at hfill
    · cases hfill
    · change (if b = true then _ else _) = _ at hfill
      have hframe : ∀ i, dev'.intervalList level i = dev₁.intervalList level i := by
        intro i
        split_ifs at hfill
        · exact ohciFillLevels_frame hfill (Nat.lt_succ_self level)
        · obtain ⟨-, rfl⟩ := Prod.mk.inj (Except.ok.inj hfill)
          rfl
      obtain ⟨rfl, hbuilt⟩ := ohciFillLevel_built hD htop h hlow hhigh (by omega)
        (by rw [hN, listAt, Nat.add_zero]) hround
        (fun i hi => by rw [← hframe]; exact hall level hhigh i hi)
      rw [if_pos rfl] at hfill
      refine ih hbuilt (by omega) (by omega) (by rw [Nat.add_sub_cancel, hhalf]) ?_ hfill
      have hadd : ∀ l, 1 ≤ l → l < 6 → 64 - 2 ^ (6 - l) + 32 / 2 ^ l = 64 - 2 ^ (6 - (l + 1)) := by
        intro l h1 h6
        interval_cases l <;> rfl
      rw [hN, hhalf, hadd level hlow hhigh]

end Built

section Initialize

/-- The first `k` entries of the interrupt table are endpoints of their own. -/
structure Filled (top : ℕ) (base : DmaState) (live₀ : List (ℕ × ℕ)) (k : ℕ) (dev : OhciDev) :
    Prop where
  sound : PoolSound top base dev.mem
  ed : ∀ i < k, dev.ed (dev.hccaInterruptTable i) = .created
  nonzero : ∀ i < k, dev.hccaInterruptTable i ≠ 0
  lt : ∀ i < k, dev.hccaInterruptTable i < 2 ^ 32 - 1
  inj : ∀ i < k, ∀ j < k, dev.hccaInterruptTable i = dev.hccaInterruptTable j → i = j
  live : ∀ c, c ∈ dev.mem.live ↔ c ∈ live₀ ∨ ∃ i < k, c = (dev.hccaInterruptTable i, sizeofEd)
  fresh : ∀ i < k, (dev.hccaInterruptTable i, sizeofEd) ∉ live₀

theorem Filled.step {mem : PoolTrace} {k : ℕ} (h : Filled top base live₀ k dev)
    (htop : top ≤ 2 ^ 32) (hsound : PoolSound top base mem) (hnew : NewAddr top dev.mem a)
    (hlive : mem.live = (a, sizeofEd) :: dev.mem.live) :
    Filled top base live₀ (k + 1) { (({ dev with mem := mem }).setEd a .created) with
      hccaInterruptTable := Function.update dev.hccaInterruptTable k (toUint32 a) } := by
  have hlt := hnew.lt_pred htop
  have hself : Function.update dev.hccaInterruptTable k (toUint32 a) k = a := by
    rw [Function.update_self, toUint32_of_lt (by omega)]
  have hkeep : ∀ i < k, Function.update dev.hccaInterruptTable k (toUint32 a) i =
      dev.hccaInterruptTable i := fun i hi => Function.update_of_ne (Nat.ne_of_lt hi) _ _
  have hane : ∀ i < k, dev.hccaInterruptTable i ≠ a := fun i hi heq =>
    hnew.notMem (List.mem_map.2 ⟨_, (h.live _).2 (.inr ⟨i, hi, rfl⟩), heq⟩)
  refine ⟨hsound, fun i hi => ?_, fun i hi => ?_, fun i hi => ?_, fun i hi j hj heq => ?_,
    fun c => ?_, fun i hi => ?_⟩
  · change Function.update dev.ed a .created
      (Function.update dev.hccaInterruptTable k (toUint32 a) i) = _
    rcases Nat.lt_succ_iff_lt_or_eq.1 hi with hi | rfl
    · rw [hkeep i hi, Function.update_of_ne (hane i hi), h.ed i hi]
    · rw [hself, Function.update_self]
  · rcases Nat.lt_succ_iff_lt_or_eq.1 hi with hi | rfl
    · exact (hkeep i hi).trans_ne (h.nonzero i hi)
    · exact hself.trans_ne hnew.ne_zero
  · rcases Nat.lt_succ_iff_lt_or_eq.1 hi with hi | rfl
    · exact (hkeep i hi).trans_lt (h.lt i hi)
    · exact hself.trans_lt hlt
  · dsimp only at heq
    rcases Nat.lt_succ_iff_lt_or_eq.1 hi with hi | rfl <;>
      rcases Nat.lt_succ_iff_lt_or_eq.1 hj with hj | rfl
    · rw [hkeep i hi, hkeep j hj] at heq
      exact h.inj i hi j hj heq
    · rw [hkeep i hi, hself] at heq
      exact absurd heq (hane i hi)
    · rw [hkeep j hj, hself] at heq
      exact absurd heq.symm (hane j hj)
    · rfl
  · change c ∈ mem.live ↔ c ∈ live₀ ∨
      ∃ i < k + 1, c = (Function.update dev.hccaInterruptTable k (toUint32 a) i, sizeofEd)
    rw [hlive, List.mem_cons, h.live]
    constructor
    · rintro (rfl | hold | ⟨i, hi, rfl⟩)
      · exact .inr ⟨k, Nat.lt_succ_self k, by rw [hself]⟩
      · exact .inl hold
      · exact .inr ⟨i, by omega, by rw [hkeep i hi]⟩
    · rintro (hold | ⟨i, hi, rfl⟩)
      · exact .inr (.inl hold)
      · rcases Nat.lt_succ_iff_lt_or_eq.1 hi with hi | rfl
        · exact .inr (.inr ⟨i, hi, by rw [hkeep i hi]⟩)
        · exact .inl (by rw [hself])
  · change (Function.update dev.hccaInterruptTable k (toUint32 a) i, sizeofEd) ∉ live₀
    rcases Nat.lt_succ_iff_lt_or_eq.1 hi with hi | rfl
    · rw [hkeep i hi]
      exact h.fresh i hi
    · rw [hself]
      exact fun hold => hnew.notMem (List.mem_map_of_mem ((h.live _).2 (.inl hold)))

theorem ohciFillInterruptTable_filled (hD : D.Lawful top) (htop : top ≤ 2 ^ 32)
    (h : Filled top base live₀ index dev)
    (hfill : ohciFillInterruptTable D count index dev = .ok (true, dev')) :
    Filled top base live₀ (index + count) dev' ∧
      dev'.interruptContextList = dev.interruptContextList := by
  induction count generalizing index dev with
  | zero =>
    rw [ohciFillInterruptTable] at hfill
    obtain ⟨-, rfl⟩ := Prod.mk.inj (Except.ok.inj hfill)
    exact ⟨h, rfl⟩
  | succ count ih =>
    rw [ohciFillInterruptTable] at hfill
    obtain ⟨a, mem, hmem, hends⟩ := ohciCreateED_ok hD h.sound
    rcases hends with ⟨-, -, hok⟩ | ⟨hnew, hlive, hok⟩
    · rw [hok] at hfill
      obtain ⟨hfalse, -⟩ := Prod.mk.inj (Except.ok.inj hfill)
      cases hfalse
    · rw [hok] at hfill
      change (if a = 0 then _ else _) = _ at hfill
      rw [if_neg hnew.ne_zero] at hfill
      have hnext := ih (h.step htop hmem hnew hlive) hfill
      rwa [show index + 1 + count = index + (count + 1) by omega] at hnext

/-- The bottom lists are those of the table. -/
theorem Filled.built (h : Filled top base live₀ 32 dev) :
    Built top base live₀ 32 { dev with
      intervalList := Function.update dev.intervalList 0 fun index =>
        if index < 32 then dev.hccaInterruptTable (leaf.getD index 0)
        else dev.intervalList 0 index } := by
  set dev₀ : OhciDev := { dev with
    intervalList := Function.update dev.intervalList 0 fun index =>
      if index < 32 then dev.hccaInterruptTable (leaf.getD index 0)
      else dev.intervalList 0 index } with hdev₀
  have hhead : ∀ n < 32, dev₀.listHead n = dev.hccaInterruptTable (leaf.getD n 0) := by
    intro n hn
    have hlevel : listLevel n = 0 ∧ listIndex n = n := by
      rw [listIndex, listLevel, if_pos hn]
      exact ⟨rfl, Nat.sub_zero n⟩
    rw [OhciDev.listHead, hlevel.1, hlevel.2, hdev₀]
    dsimp only
    rw [Function.update_self, if_pos hn]
  refine ⟨h.sound, fun n hn => ?_, fun n hn => ?_, fun n hn => ?_, fun n hn m hm heq => ?_,
    fun t ht => ?_, fun c => ?_, fun n hn => ?_⟩
  · rw [hhead n hn, if_neg (by omega)]
    exact h.ed _ (leaf_lt n hn)
  · rw [hhead n hn]
    exact h.nonzero _ (leaf_lt n hn)
  · rw [hhead n hn]
    exact h.lt _ (leaf_lt n hn)
  · rw [hhead n hn, hhead m hm] at heq
    have hleaf := h.inj _ (leaf_lt n hn) _ (leaf_lt m hm) heq
    rw [← leaf_leaf n hn, ← leaf_leaf m hm, hleaf]
  · rw [hhead _ (leaf_lt t ht), leaf_leaf t ht]
  · change c ∈ dev.mem.live ↔ _
    rw [h.live]
    refine or_congr_right ⟨?_, ?_⟩
    · rintro ⟨i, hi, rfl⟩
      exact ⟨leaf.getD i 0, leaf_lt i hi, by rw [hhead _ (leaf_lt i hi), leaf_leaf i hi]⟩
    · rintro ⟨n, hn, rfl⟩
      exact ⟨leaf.getD n 0, leaf_lt n hn, by rw [hhead n hn]⟩
  · rw [hhead n hn]
    exact h.fresh _ (leaf_lt n hn)

/-- The lists that are made are a tree with nothing attached. -/
theorem Built.sched (h : Built top base live₀ 63 dev) : Sched dev fun _ => [] := by
  refine ⟨⟨fun n hn m hup => ?_, fun n _ => List.nodup_singleton _, fun n hn m hm hne => ?_,
    fun n hn => ?_, fun n hn => ?_⟩, h.table, fun n hn => ?_, fun n hn x hx => ?_,
    fun n hn x hx => ?_⟩
  · rw [mem_lists] at hn ⊢
    rw [listUp] at hup
    split_ifs at hup
    obtain rfl := Option.some.inj hup
    omega
  · intro x hx hx'
    obtain rfl := List.mem_singleton.1 hx
    exact hne (h.inj n (mem_lists.1 hn) m (mem_lists.1 hm) (List.mem_singleton.1 hx'))
  · rw [items, List.mem_singleton]
    exact Ne.symm (h.nonzero n (mem_lists.1 hn))
  · rw [mem_lists] at hn
    refine ⟨rfl, ?_⟩
    change dev.nextED (dev.listHead n) = after listUp dev.listHead n
    rw [OhciDev.nextED, h.ed n hn, after, listUp]
    dsimp only
    by_cases hlt : n < 62
    · rw [if_pos hlt, if_pos (by omega)]
    · rw [if_neg hlt, if_neg (by omega)]
  · rw [h.ed n hn]
    exact ⟨rfl, rfl⟩
  · obtain rfl := List.mem_singleton.1 hx
    rw [h.ed n hn]
    rfl
  · obtain rfl := List.mem_singleton.1 hx
    exact h.lt n hn

/-- Where the lists are made up to the last one, they are a tree of endpoints of their own. -/
theorem ohciInitializeInterruptList_ok (hD : D.Lawful top) (htop : top ≤ 2 ^ 32)
    (hsound : PoolSound top base dev.mem)
    (h : ohciInitializeInterruptList D dev = .ok (efiSuccess, dev'))
    (hroot : dev'.intervalList 5 0 ≠ 0) :
    PoolSound top base dev'.mem ∧ Sched dev' (fun _ => []) ∧
      (∀ c, c ∈ dev'.mem.live ↔
        c ∈ dev.mem.live ∨ ∃ n < 63, c = (dev'.listHead n, sizeofEd)) ∧
      (∀ n < 63, (dev'.listHead n, sizeofEd) ∉ dev.mem.live) ∧
      dev'.interruptContextList = dev.interruptContextList := by
  rw [ohciInitializeInterruptList] at h
  rcases hfill : ohciFillInterruptTable D 32 0 dev with e | ⟨done, dev₁⟩ <;> rw [hfill] at h
  · cases h
  · change (if done = true then _ else _) = _ at h
    have hempty : Filled top base dev.mem.live 0 dev :=
      ⟨hsound, fun i hi => absurd hi (Nat.not_lt_zero i), fun i hi => absurd hi (Nat.not_lt_zero i),
        fun i hi => absurd hi (Nat.not_lt_zero i), fun i hi => absurd hi (Nat.not_lt_zero i),
        fun c => by simp, fun i hi => absurd hi (Nat.not_lt_zero i)⟩
    rcases done with _ | _
    · obtain ⟨hstatus, -⟩ := Prod.mk.inj (Except.ok.inj h)
      exact absurd hstatus (by decide)
    · obtain ⟨hfilled, hcontexts⟩ := ohciFillInterruptTable_filled hD htop hempty hfill
      rw [if_pos rfl] at h
      have hbuilt := hfilled.built
      set dev₀ : OhciDev := { dev₁ with
        intervalList := Function.update dev₁.intervalList 0 fun index =>
          if index < 32 then dev₁.hccaInterruptTable (leaf.getD index 0)
          else dev₁.intervalList 0 index } with hdev₀
      change (ohciFillLevels D 5 1 32 dev₀ >>= _) = _ at h
      rcases hlevels : ohciFillLevels D 5 1 32 dev₀ with e | ⟨done, dev₂⟩ <;> rw [hlevels] at h
      · cases h
      · obtain ⟨-, rfl⟩ := Prod.mk.inj (Except.ok.inj h)
        have htable : ∀ i < 32, dev₀.hccaInterruptTable i ≠ 0 := hfilled.nonzero
        have hall : ∀ l < 6, ∀ i < 32 / 2 ^ l, dev₂.intervalList l i ≠ 0 := by
          intro l hl i hi
          by_cases htop5 : l = 5
          · obtain rfl : i = 0 := by
              rw [htop5] at hi
              omega
            rwa [htop5]
          · exact ohciFillLevels_below le_rfl rfl rfl htable hlevels l (by omega)
              (Nat.le_add_left 1 l) i hi
        have hdone := ohciFillLevels_built hD htop hbuilt le_rfl rfl rfl rfl hlevels hall
        exact ⟨hdone.sound, hdone.sched, hdone.live, hdone.fresh,
          (ohciFillLevels_contexts hlevels).trans hcontexts⟩

end Initialize

end Edk2Rk3576.Ohci
