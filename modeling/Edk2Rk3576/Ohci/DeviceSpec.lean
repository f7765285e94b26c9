import Edk2Rk3576.Ohci.Device
import Edk2Rk3576.Lib.SharedTails

/-!
# What the device's operations do

A descriptor is created at an address of its own or not at all. A walk goes over the items of its
chain, and what it does on the way is told by their list.
-/

namespace Edk2Rk3576.Ohci

open Cells UnitPool

variable {D : DmaLib} {base : DmaState} {top size a b x p fuel : ℕ} {dev dev' : OhciDev}
  {t t' mem : PoolTrace} {live : List (ℕ × ℕ)} {l : List ℕ}

section Memory

/-- The address of a new allocation. -/
structure NewAddr (top : ℕ) (t : PoolTrace) (a : ℕ) : Prop where
  ne_zero : a ≠ 0
  lt : a < top
  dvd : usbHcMemUnit ∣ a
  notMem : a ∉ t.live.map Prod.fst

theorem NewAddr.lt_pred (h : NewAddr top t a) (htop : top ≤ 2 ^ 32) : a < 2 ^ 32 - 1 := by
  obtain ⟨k, hk⟩ := h.dvd
  have hless := h.lt
  change a = 64 * k at hk
  omega

theorem PoolSound.mem_window (h : PoolSound top base t) {c : ℕ × ℕ} (hc : c ∈ t.live) :
    c.1 ∈ (liveWindow c).range := by
  obtain ⟨hpos, hfits⟩ := h.sizes c hc
  refine ⟨le_rfl, ?_⟩
  change c.1 < c.1 + usbHcMemRound c.2
  rw [usbHcMemRound_eq hfits]
  have hunits : 0 < usbHcMemUnit * ((c.2 + 63) / 64) := Nat.mul_pos usbHcMemUnit_pos (by omega)
  omega

/-- What is allocated is told apart by the addresses. -/
theorem PoolSound.addrs_nodup (h : PoolSound top base t) : (t.live.map Prod.fst).Nodup := by
  have happart := h.account.apart
  rw [List.pairwise_map] at happart
  rw [List.Nodup, List.pairwise_map]
  refine happart.imp_of_mem fun {c c'} hc hc' hw heq => ?_
  exact hw c.1 (h.mem_window hc) (heq ▸ h.mem_window hc')

theorem usbHcAllocate_ok (size : ℕ) (hD : D.Lawful top) (h : PoolSound top base dev.mem) (hpos : 0 < size)
    (hfits : size + 63 < 2 ^ 64) :
    ∃ a mem, usbHcAllocate D size dev = .ok (a, { dev with mem := mem }) ∧
      PoolSound top base mem ∧ ((a = 0 ∧ mem.live = dev.mem.live) ∨
        (NewAddr top dev.mem a ∧ mem.live = (a, size) :: dev.mem.live)) := by
  obtain ⟨a, pool', d', hok, hsound⟩ := usbHcAllocateMem_sound hD h hpos hfits
  refine ⟨a, _, ?_, hsound, ?_⟩
  · rw [usbHcAllocate, hok]
  · by_cases ha : a = 0
    · exact .inl ⟨ha, if_pos ha⟩
    · rw [if_neg ha] at hsound
      have hmem : (a, size) ∈ (a, size) :: dev.mem.live := List.mem_cons_self
      obtain ⟨block, -, -, hin, hne, hdvd⟩ := hsound.placed hmem
      have hnodup := hsound.addrs_nodup
      rw [List.map_cons, List.nodup_cons] at hnodup
      exact .inr ⟨⟨hne, (hin a (hsound.mem_window hmem)).2, hdvd, hnodup.1⟩, if_neg ha⟩

theorem usbHcFree_ok {dev : OhciDev} (h : PoolSound top base dev.mem) (hmem : (a, size) ∈ dev.mem.live) :
    ∃ mem, usbHcFree a size dev = .ok { dev with mem := mem } ∧ PoolSound top base mem ∧
      ∀ c, c ∈ mem.live ↔ c ∈ dev.mem.live ∧ c ≠ (a, size) := by
  obtain ⟨pool', d', hok, hsound⟩ := usbHcFreeMem_sound h hmem
  refine ⟨⟨pool', d', dev.mem.live.erase (a, size)⟩, ?_, hsound, fun c => ?_⟩
  · rw [usbHcFree, hok]
  · have hnodup : dev.mem.live.Nodup := h.addrs_nodup.of_map _
    rw [hnodup.mem_erase_iff, and_comm]

/-- An endpoint is created, or there is no memory for it. -/
theorem ohciCreateED_ok (hD : D.Lawful top) (h : PoolSound top base dev.mem) :
    ∃ a mem, PoolSound top base mem ∧
      ((a = 0 ∧ mem.live = dev.mem.live ∧ ohciCreateED D dev = .ok (0, { dev with mem := mem })) ∨
        (NewAddr top dev.mem a ∧ mem.live = (a, sizeofEd) :: dev.mem.live ∧
          ohciCreateED D dev = .ok (a, ({ dev with mem := mem }).setEd a .created))) := by
  obtain ⟨a, mem, hok, hsound, hcases⟩ :=
    usbHcAllocate_ok sizeofEd hD h (by decide) (by decide)
  refine ⟨a, mem, hsound, ?_⟩
  rcases hcases with ⟨rfl, hlive⟩ | ⟨hnew, hlive⟩
  · refine .inl ⟨rfl, hlive, ?_⟩
    rw [ohciCreateED, hok]
    rfl
  · refine .inr ⟨hnew, hlive, ?_⟩
    rw [ohciCreateED, hok]
    exact if_neg hnew.ne_zero

theorem ohciCreateTD_ok (hD : D.Lawful top) (h : PoolSound top base dev.mem) :
    ∃ a mem, PoolSound top base mem ∧
      ((a = 0 ∧ mem.live = dev.mem.live ∧ ohciCreateTD D dev = .ok (0, { dev with mem := mem })) ∨
        (NewAddr top dev.mem a ∧ mem.live = (a, sizeofTd) :: dev.mem.live ∧
          ohciCreateTD D dev = .ok (a, ({ dev with mem := mem }).setTd a .zeroed))) := by
  obtain ⟨a, mem, hok, hsound, hcases⟩ :=
    usbHcAllocate_ok sizeofTd hD h (by decide) (by decide)
  refine ⟨a, mem, hsound, ?_⟩
  rcases hcases with ⟨rfl, hlive⟩ | ⟨hnew, hlive⟩
  · refine .inl ⟨rfl, hlive, ?_⟩
    rw [ohciCreateTD, hok]
    rfl
  · refine .inr ⟨hnew, hlive, ?_⟩
    rw [ohciCreateTD, hok]
    exact if_neg hnew.ne_zero

end Memory

section Others

/-- What else is held changes beside the pool. -/
theorem PoolSound.map {mapping : ℕ} (h : PoolSound top base t) :
    PoolSound top (base.map mapping) { t with dma := t.dma.map mapping } :=
  ⟨h.sized, h.account, h.sizes, h.used, h.buffers,
    (h.mappings.cons mapping).trans List.perm_middle.symm, h.pools⟩

theorem PoolSound.unmap {mapping : ℕ} (h : PoolSound top base t) (hmem : mapping ∈ base.mappings) :
    PoolSound top (base.unmap mapping) { t with dma := t.dma.unmap mapping } := by
  refine ⟨h.sized, h.account, h.sizes, h.used, h.buffers, ?_, h.pools⟩
  have hperm := (h.mappings.trans ((List.perm_cons_erase hmem).append_left _)).trans
    List.perm_middle
  have herase := hperm.erase mapping
  rwa [List.erase_cons_head] at herase

theorem PoolSound.allocateBuffer {pages host : ℕ} (h : PoolSound top base t) :
    PoolSound top (base.allocateBuffer pages host)
      { t with dma := t.dma.allocateBuffer pages host } :=
  ⟨h.sized, h.account, h.sizes, h.used, (h.buffers.cons (host, pages)).trans List.perm_middle.symm,
    h.mappings, h.pools⟩

theorem PoolSound.freeBuffer {pages host : ℕ} (h : PoolSound top base t)
    (hmem : (host, pages) ∈ base.buffers) :
    PoolSound top (base.freeBuffer pages host) { t with dma := t.dma.freeBuffer pages host } := by
  refine ⟨h.sized, h.account, h.sizes, h.used, ?_, h.mappings, h.pools⟩
  have hperm := (h.buffers.trans ((List.perm_cons_erase hmem).append_left _)).trans
    List.perm_middle
  have herase := hperm.erase (host, pages)
  rwa [List.erase_cons_head] at herase

theorem PoolSound.allocateZeroPool (h : PoolSound top base t) :
    PoolSound top base.allocateZeroPool { t with dma := t.dma.allocateZeroPool } :=
  ⟨h.sized, h.account, h.sizes, h.used, h.buffers, h.mappings, by
    change t.dma.pools + 1 = base.pools + 1 + 1 + 2 * t.pool.blocks.length
    rw [h.pools]
    omega⟩

theorem PoolSound.freePool (h : PoolSound top base t) (hpos : 0 < base.pools) :
    PoolSound top base.freePool { t with dma := t.dma.freePool } :=
  ⟨h.sized, h.account, h.sizes, h.used, h.buffers, h.mappings, by
    change t.dma.pools - 1 = base.pools - 1 + 1 + 2 * t.pool.blocks.length
    rw [h.pools]
    omega⟩

end Others

section Walks

/-- A chain has fewer items than there are addresses for them. -/
theorem length_lt_of_addrs {bound : ℕ} (hnodup : l.Nodup) (hlt : ∀ x ∈ l, x < bound)
    (hzero : 0 ∉ l) (hbound : 0 < bound) : l.length < bound := by
  have hsub : (0 :: l) ⊆ List.range bound := by
    intro x hx
    rcases List.mem_cons.1 hx with rfl | hx
    · exact List.mem_range.2 hbound
    · exact List.mem_range.2 (hlt x hx)
  have hle := (List.subperm_of_subset (List.nodup_cons.2 ⟨hzero, hnodup⟩) hsub).length_le
  rw [List.length_range, List.length_cons] at hle
  exact hle

theorem countEdNum_ok {count : ℕ} (h : Seg dev.nextED a l 0) (hzero : 0 ∉ l)
    (hfuel : l.length < fuel) : countEdNum dev fuel a count = .ok (count + l.length) := by
  induction l generalizing a count fuel with
  | nil =>
    obtain ⟨fuel, rfl⟩ : ∃ k, fuel = k + 1 := ⟨fuel - 1, by omega⟩
    obtain rfl : a = 0 := h
    rfl
  | cons y l ih =>
    obtain ⟨rfl, h⟩ := h
    rw [List.mem_cons, not_or] at hzero
    rw [List.length_cons] at hfuel
    obtain ⟨fuel, rfl⟩ : ∃ k, fuel = k + 1 := ⟨fuel - 1, by omega⟩
    rw [countEdNum, if_neg (Ne.symm hzero.1), ih h hzero.2 (by omega), List.length_cons]
    congr 1
    omega

/-- Nothing matches an endpoint of a direction that is never set. -/
theorem ohciFindWorkingEd_ok {deviceAddress endPointNum edDir : ℕ} (h : Seg dev.nextED a l 0)
    (hzero : 0 ∉ l) (hdir : ∀ x ∈ l, (dev.ed x).direction ≠ edDir) (hfuel : l.length < fuel) :
    ohciFindWorkingEd dev deviceAddress endPointNum edDir fuel a = .ok 0 := by
  induction l generalizing a fuel with
  | nil =>
    obtain ⟨fuel, rfl⟩ : ∃ k, fuel = k + 1 := ⟨fuel - 1, by omega⟩
    obtain rfl : a = 0 := h
    rfl
  | cons y l ih =>
    obtain ⟨rfl, h⟩ := h
    rw [List.mem_cons, not_or] at hzero
    rw [List.length_cons] at hfuel
    rw [List.forall_mem_cons] at hdir
    obtain ⟨fuel, rfl⟩ : ∃ k, fuel = k + 1 := ⟨fuel - 1, by omega⟩
    rw [ohciFindWorkingEd, if_neg (Ne.symm hzero.1), if_neg fun hmatch => hdir.1 hmatch.2.2.2.2,
      ih h hzero.2 hdir.2 (by omega)]

/-- The endpoints but for their links. -/
def EdDescriptor.sameBut (ed ed' : EdDescriptor) : Prop := ed' = { ed with nextED := ed'.nextED }

theorem EdDescriptor.sameBut.trans {ed ed' ed'' : EdDescriptor} (h : ed.sameBut ed')
    (h' : ed'.sameBut ed'') : ed.sameBut ed'' := by
  rw [EdDescriptor.sameBut, h', h]

/-- The endpoint at an address is one of those to drop. -/
def OhciDev.drops (dev : OhciDev) (drop : EdDescriptor → ℕ → Bool) (x : ℕ) : Bool :=
  drop (dev.ed x) x

/-- What unlinking does to the device: links on the walk change, and what is dropped is freed. -/
structure Unlinked (drop : EdDescriptor → ℕ → Bool) (top : ℕ) (base : DmaState) (dev : OhciDev)
    (a : ℕ) (l : List ℕ) (dev' : OhciDev) : Prop where
  rest : dev' = { dev with mem := dev'.mem, ed := dev'.ed }
  sound : PoolSound top base dev'.mem
  live : ∀ c, c ∈ dev'.mem.live ↔
    c ∈ dev.mem.live ∧ ∀ x ∈ l, dev.drops drop x = true → c ≠ (x, sizeofEd)
  same : ∀ x, (dev.ed x).sameBut (dev'.ed x)
  others : ∀ x, x ∉ a :: l → dev'.ed x = dev.ed x
  seg : Seg dev'.nextED a (a :: l.filter fun x => !dev.drops drop x) 0

theorem OhciDev.setNextED_ed_self : (dev.setNextED a b).ed a = { dev.ed a with nextED := b } :=
  Function.update_self _ _ _

theorem OhciDev.setNextED_ed_of_ne (hx : x ≠ a) : (dev.setNextED a b).ed x = dev.ed x :=
  Function.update_of_ne hx _ _

theorem OhciDev.nextED_setNextED :
    (dev.setNextED a b).nextED = Function.update dev.nextED a b := by
  funext x
  by_cases hx : x = a
  · rw [hx, Function.update_self, OhciDev.nextED, OhciDev.setNextED_ed_self]
  · rw [Function.update_of_ne hx, OhciDev.nextED, OhciDev.setNextED_ed_of_ne hx, OhciDev.nextED]

theorem OhciDev.sameBut_setNextED : (dev.ed x).sameBut ((dev.setNextED a b).ed x) := by
  by_cases hx : x = a
  · rw [hx, OhciDev.setNextED_ed_self]
    rfl
  · rw [OhciDev.setNextED_ed_of_ne hx]
    rfl

/-- The walk unlinks and frees what is dropped, and passes what is kept. -/
theorem ohciUnlinkEds_ok {drop : EdDescriptor → ℕ → Bool} (hsound : PoolSound top base dev.mem)
    (hseg : Seg dev.nextED a (a :: l) 0) (hnodup : (a :: l).Nodup) (hzero : 0 ∉ a :: l)
    (hlive : ∀ x ∈ l, dev.drops drop x = true → (x, sizeofEd) ∈ dev.mem.live)
    (hfuel : l.length < fuel) :
    ∃ dev', ohciUnlinkEds drop fuel a dev = .ok dev' ∧ Unlinked drop top base dev a l dev' := by
  induction l generalizing a dev fuel with
  | nil =>
    obtain ⟨fuel, rfl⟩ : ∃ k, fuel = k + 1 := ⟨fuel - 1, by omega⟩
    obtain ⟨-, hnext⟩ := hseg
    have hstop : dev.nextED a = 0 := hnext
    refine ⟨dev, ?_, rfl, hsound, fun c => ?_, fun _ => rfl, fun _ _ => rfl, rfl, hnext⟩
    · rw [ohciUnlinkEds]
      exact if_pos hstop
    · exact (and_iff_left fun x hx => absurd hx List.not_mem_nil).symm
  | cons x l ih =>
    rw [List.length_cons] at hfuel
    obtain ⟨fuel, rfl⟩ : ∃ k, fuel = k + 1 := ⟨fuel - 1, by omega⟩
    have hx : dev.nextED a = x := hseg.2.1
    rw [List.forall_mem_cons] at hlive
    obtain ⟨ha, hxl⟩ := List.nodup_cons.1 hnodup
    obtain ⟨hxnot, hlnodup⟩ := List.nodup_cons.1 hxl
    have hzero' : 0 ∉ a :: l := fun h => hzero (by
      rcases List.mem_cons.1 h with h | h
      · exact h ▸ List.mem_cons_self
      · exact List.mem_cons_of_mem _ (List.mem_cons_of_mem _ h))
    have hx0 : x ≠ 0 := fun h => hzero (h ▸ List.mem_cons_of_mem _ List.mem_cons_self)
    rw [ohciUnlinkEds]
    simp only [hx, if_neg hx0]
    by_cases hdrop : dev.drops drop x = true
    · -- `x` goes, and the walk stays at `a`
      have hmem := hlive.1 hdrop
      obtain ⟨mem, hfree, hsound', hlive'⟩ :=
        usbHcFree_ok (show PoolSound top base (dev.setNextED a (dev.nextED x)).mem from hsound) hmem
      have hal : a ∉ l := fun h => ha (List.mem_cons_of_mem _ h)
      have hdrops : ∀ y ∈ l, (dev.setNextED a (dev.nextED x)).drops drop y = dev.drops drop y :=
        fun y hy => congrArg (drop · y) (OhciDev.setNextED_ed_of_ne fun h => hal (h ▸ hy))
      have hseg' : Seg (dev.setNextED a (dev.nextED x)).nextED a (a :: l) 0 := by
        rw [OhciDev.nextED_setNextED]
        exact hseg.unlink hnodup
      have hsound₁ : PoolSound top base
          ({ dev.setNextED a (dev.nextED x) with mem := mem } : OhciDev).mem := hsound'
      obtain ⟨dev', hok, hunlinked⟩ := ih hsound₁ hseg'
        (List.nodup_cons.2 ⟨hal, hlnodup⟩) hzero' (fun y hy hdropy => by
          have hdropy' : dev.drops drop y = true := (hdrops y hy).symm.trans hdropy
          have hne : (y, sizeofEd) ≠ (x, sizeofEd) := fun h => hxnot ((Prod.mk.inj h).1 ▸ hy)
          exact (hlive' _).2 ⟨hlive.2 y hy hdropy', hne⟩) (show l.length < fuel by omega)
      have hrest := hunlinked.seg
      change Seg dev'.nextED a (a :: l.filter fun y =>
        !(dev.setNextED a (dev.nextED x)).drops drop y) 0 at hrest
      rw [List.filter_congr fun y hy => congrArg not (hdrops y hy)] at hrest
      refine ⟨dev', ?_, hunlinked.rest, hunlinked.sound, ?_, ?_, ?_, ?_⟩
      · change (if dev.drops drop x = true then _ else _) = _
        rw [if_pos hdrop, ohciFreeED, if_neg hx0, hfree]
        exact hok
      · intro c
        have hc := hunlinked.live c
        change c ∈ dev'.mem.live ↔ c ∈ mem.live ∧ ∀ y ∈ l,
          (dev.setNextED a (dev.nextED x)).drops drop y = true → _ at hc
        rw [hc, hlive' c, List.forall_mem_cons, and_assoc]
        refine and_congr_right fun _ => and_congr ⟨fun h _ => h, fun h => h hdrop⟩ ?_
        exact forall₂_congr fun y hy => by rw [hdrops y hy]
      · exact fun y => OhciDev.sameBut_setNextED.trans (hunlinked.same y)
      · intro y hy
        rw [List.mem_cons, List.mem_cons, not_or, not_or] at hy
        rw [hunlinked.others y (by rw [List.mem_cons, not_or]; exact ⟨hy.1, hy.2.2⟩)]
        exact OhciDev.setNextED_ed_of_ne hy.1
      · rw [List.filter_cons_of_neg (by rw [hdrop]; exact Bool.false_ne_true)]
        exact hrest
    · -- `x` stays, and the walk goes on from it
      have hzerox : 0 ∉ x :: l := fun h => hzero (List.mem_cons_of_mem _ h)
      have hsegx : Seg dev.nextED x (x :: l) 0 := by
        have hrest := hseg.2
        rwa [hx] at hrest
      obtain ⟨dev', hok, hunlinked⟩ := ih hsound hsegx hxl hzerox hlive.2
        (show l.length < fuel by omega)
      have hkeep : (!dev.drops drop x) = true := by
        rw [Bool.not_eq_true', Bool.eq_false_iff]
        exact hdrop
      refine ⟨dev', ?_, hunlinked.rest, hunlinked.sound, ?_, hunlinked.same, ?_, ?_⟩
      · change (if dev.drops drop x = true then _ else _) = _
        rw [if_neg hdrop]
        exact hok
      · intro c
        rw [hunlinked.live c, List.forall_mem_cons]
        exact and_congr_right fun _ => (and_iff_right fun h => absurd h hdrop).symm
      · exact fun y hy => hunlinked.others y fun h => hy (List.mem_cons_of_mem _ h)
      · rw [List.filter_cons_of_pos (p := fun y => !dev.drops drop y) hkeep]
        have hlink : dev'.nextED a = x := by
          rw [OhciDev.nextED, hunlinked.others a ha]
          exact hx
        refine ⟨rfl, ?_⟩
        rw [hlink]
        exact hunlinked.seg

end Walks

end Edk2Rk3576.Ohci
