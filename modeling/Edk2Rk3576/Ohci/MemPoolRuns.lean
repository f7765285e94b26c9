import Edk2Rk3576.Ohci.MemPoolSpec
import Edk2Rk3576.Lib.Runs

/-!
# Runs of the memory pool

Memory is allocated from the pool and freed in any order. The account of the blocks' units carries
the runs, along with what of the DMA library is held for the blocks.
-/

namespace Edk2Rk3576.Ohci

open Cells UnitPool

variable {D : DmaLib} {d d' base : DmaState} {check4G : Bool} {top which4G pages size mem n s : ℕ}
  {block block' : UsbHcMemBlock} {blocks l l' : List UsbHcMemBlock} {live : List (ℕ × ℕ)}
  {pool pool' : UsbHcMemPool}

/-- A pool, and the memory that is allocated from it. -/
structure PoolTrace where
  pool : UsbHcMemPool
  dma : DmaState
  live : List (ℕ × ℕ)

inductive PoolEvent
  | allocate (size : ℕ)
  | free (mem size : ℕ)

def poolStep (D : DmaLib) (t : PoolTrace) : PoolEvent → Except UsbHcHalt PoolTrace
  | .allocate size =>
    usbHcAllocateMem D size t.pool t.dma >>= fun r =>
      .ok ⟨r.2.1, r.2.2, if r.1 = 0 then t.live else (r.1, size) :: t.live⟩
  | .free mem size =>
    usbHcFreeMem mem size t.pool t.dma >>= fun r => .ok ⟨r.1, r.2, t.live.erase (mem, size)⟩

/-- Only what is allocated is freed. -/
def PoolAllowed (t : PoolTrace) : PoolEvent → Prop
  | .allocate size => 0 < size ∧ size + 63 < 2 ^ 64
  | .free mem size => (mem, size) ∈ t.live

/-- The units of an allocation. -/
def liveWindow (a : ℕ × ℕ) : Window := ⟨a.1, usbHcMemRound a.2⟩

def UsbHcMemBlock.buffer (block : UsbHcMemBlock) : ℕ × ℕ :=
  (block.bufHost, efiSizeToPages block.bufLen)

/-- The blocks hold the allocations, each block but the head at least one, and `d` is what is held
for them beside `base`. -/
structure BlocksSound (top : ℕ) (base d : DmaState) (blocks : List UsbHcMemBlock) (live : List (ℕ × ℕ)) :
    Prop where
  sized : ∀ block ∈ blocks, ∃ pages, block.Sized top pages
  account : Account usbHcMemUnit (blocks.map UsbHcMemBlock.region) (live.map liveWindow)
  sizes : ∀ a ∈ live, 0 < a.2 ∧ a.2 + 63 < 2 ^ 64
  used : ∀ block ∈ blocks.tail, ∃ u < block.region.units, block.region.taken u = true
  buffers : d.buffers.Perm (blocks.map UsbHcMemBlock.buffer ++ base.buffers)
  mappings : d.mappings.Perm (blocks.map UsbHcMemBlock.mapping ++ base.mappings)
  pools : d.pools = base.pools + 1 + 2 * blocks.length

section Blocks

theorem usbHcMemUnit_pos : 0 < usbHcMemUnit := by decide

theorem UsbHcMemBlock.Sized.buffer_eq (h : block.Sized top pages) :
    block.buffer = (block.bufHost, pages) := by
  rw [UsbHcMemBlock.buffer, h.bufLen, efiSizeToPages_mul]

theorem UsbHcMemBlock.Sized.units_eq (h : block.Sized top pages) :
    usbHcMemUnit * block.region.units = block.bufLen := by
  rw [h.bufLen]
  change 64 * (8 * block.bitsLen) = pages * 4096
  rw [h.bitsLen]
  omega

theorem UsbHcMemBlock.Sized.window_eq (h : block.Sized top pages) :
    block.region.window usbHcMemUnit = dmaWindow block.buffer := by
  rw [Region.window, h.units_eq, dmaWindow, h.buffer_eq, h.bufLen]
  rfl

theorem account_front {windows : List Window} :
    Account usbHcMemUnit ((l ++ block :: l').map UsbHcMemBlock.region) windows ↔
      Account usbHcMemUnit (block.region :: (l ++ l').map UsbHcMemBlock.region) windows := by
  rw [List.map_append, List.map_cons, List.map_append]
  exact ⟨fun h => h.perm List.perm_middle (.refl _),
    fun h => h.perm List.perm_middle.symm (.refl _)⟩

theorem mem_tail_middle {α : Type*} {l l' : List α} {x y b : α} (h : b ∈ (l ++ x :: l').tail) :
    (b = x ∧ l ≠ []) ∨ b ∈ (l ++ y :: l').tail := by
  cases l with
  | nil => exact .inr h
  | cons a l =>
    rcases List.mem_append.1 h with hl | hr
    · exact .inr (List.mem_append_left _ hl)
    · rcases List.mem_cons.1 hr with rfl | hr
      · exact .inl ⟨rfl, List.cons_ne_nil _ _⟩
      · exact .inr (List.mem_append_right _ (List.mem_cons_of_mem _ hr))

theorem forall_mem_middle {α : Type*} {P : α → Prop} {l l' : List α} {x y : α}
    (h : ∀ b ∈ l ++ x :: l', P b) (hy : P y) : ∀ b ∈ l ++ y :: l', P b := by
  intro b hb
  rcases List.mem_append.1 hb with hl | hr
  · exact h b (List.mem_append_left _ hl)
  · rcases List.mem_cons.1 hr with rfl | hr
    · exact hy
    · exact h b (List.mem_append_right _ (List.mem_cons_of_mem _ hr))

namespace BlocksSound

/-- Replacing a block by one with other units taken changes nothing that is held. -/
theorem replace {taken : ℕ → Bool} {live' : List (ℕ × ℕ)}
    (h : BlocksSound top base d (l ++ block :: l') live)
    (hchanged : UsbHcMemBlock.Changed block block' taken)
    (haccount : Account usbHcMemUnit (block'.region :: (l ++ l').map UsbHcMemBlock.region)
      (live'.map liveWindow))
    (hsizes : ∀ a ∈ live', 0 < a.2 ∧ a.2 + 63 < 2 ^ 64)
    (hused : l ≠ [] → ∃ u < block'.region.units, block'.region.taken u = true) :
    BlocksSound top base d (l ++ block' :: l') live' where
  sized := by
    obtain ⟨pages, hsized⟩ := h.sized block (by simp)
    exact forall_mem_middle h.sized ⟨pages, hchanged.sized hsized⟩
  account := account_front.2 haccount
  sizes := hsizes
  used := fun b hb => by
    rcases mem_tail_middle (y := block) hb with ⟨rfl, hl⟩ | hb
    · exact hused hl
    · exact h.used b hb
  buffers := by
    have hbuffer : block'.buffer = block.buffer := by rw [hchanged.same]; rfl
    have hbuffers := h.buffers
    rw [List.map_append, List.map_cons] at hbuffers ⊢
    rwa [hbuffer]
  mappings := by
    have hmapping : block'.mapping = block.mapping := by rw [hchanged.same]
    have hmappings := h.mappings
    rw [List.map_append, List.map_cons] at hmappings ⊢
    rwa [hmapping]
  pools := by
    rw [h.pools, List.length_append, List.length_append, List.length_cons, List.length_cons]

theorem liveWindow_eq (hfits : size + 63 < 2 ^ 64) :
    liveWindow (block.bufHost + usbHcMemUnit * s, size) =
      block.region.chunk usbHcMemUnit s ((size + 63) / 64) := by
  rw [liveWindow, usbHcMemRound_eq hfits]
  rfl

/-- The account with the units of an allocation taken. -/
theorem account_take {rs : List Region}
    (h : Account usbHcMemUnit (block.region :: rs) (live.map liveWindow)) (htook : UsbHcMemBlock.Took n s block block') (hpos : 0 < size)
    (hfits : size + 63 < 2 ^ 64) (hn : n = (size + 63) / 64) :
    Account usbHcMemUnit (block'.region :: rs)
      (((block.bufHost + usbHcMemUnit * s, size) :: live).map liveWindow) := by
  obtain ⟨hle, hfree⟩ := htook.least.1
  rw [htook.changed.region, List.map_cons, liveWindow_eq hfits, ← hn]
  exact h.take usbHcMemUnit_pos hle (by omega) hfree

theorem used_of_took (htook : UsbHcMemBlock.Took n s block block') (hn : 0 < n) :
    ∃ u < block'.region.units, block'.region.taken u = true := by
  obtain ⟨hle, -⟩ := htook.least.1
  rw [htook.changed.region]
  refine ⟨s, ?_, ?_⟩
  · change s < block.region.units
    omega
  · change UnitPool.take block.region.taken s n s = true
    rw [UnitPool.take, decide_eq_true ⟨le_rfl, by omega⟩, Bool.or_true]

/-- An allocation in a block of the pool. -/
theorem take (h : BlocksSound top base d (l ++ block :: l') live)
    (htook : UsbHcMemBlock.Took n s block block') (hpos : 0 < size) (hfits : size + 63 < 2 ^ 64)
    (hn : n = (size + 63) / 64) :
    BlocksSound top base d (l ++ block' :: l') ((block.bufHost + usbHcMemUnit * s, size) :: live) :=
  h.replace htook.changed (account_take (account_front.1 h.account) htook hpos hfits hn)
    (List.forall_mem_cons.2 ⟨⟨hpos, hfits⟩, h.sizes⟩) fun _ => used_of_took htook (by omega)

/-- A block that is added for an allocation. -/
theorem add {head : UsbHcMemBlock} {rest : List UsbHcMemBlock}
    (h : BlocksSound top base d (head :: rest) live) (hfresh : block.Fresh top pages d)
    (htook : UsbHcMemBlock.Took n s block block') (hpos : 0 < size) (hfits : size + 63 < 2 ^ 64)
    (hn : n = (size + 63) / 64) :
    BlocksSound top base (d.withBlock block pages) (head :: block' :: rest)
      ((block.bufHost + usbHcMemUnit * s, size) :: live) := by
  have hsized := hfresh.sized
  have happart : ∀ r' ∈ (head :: rest).map UsbHcMemBlock.region,
      (block.region.window usbHcMemUnit).Apart (r'.window usbHcMemUnit) := by
    intro r' hr'
    obtain ⟨b, hb, rfl⟩ := List.mem_map.1 hr'
    obtain ⟨p, hp⟩ := h.sized b hb
    have hheld : b.buffer ∈ d.buffers :=
      h.buffers.mem_iff.2 (List.mem_append_left _ (List.mem_map_of_mem hb))
    rw [hsized.window_eq, hp.window_eq, hsized.buffer_eq]
    exact hfresh.apart _ hheld
  have hadd := h.account.add usbHcMemUnit_pos happart fun u _ => hfresh.free u
  have htake := account_take hadd htook hpos hfits hn
  have hbuffer : block'.buffer = (block.bufHost, pages) := by
    rw [← hsized.buffer_eq, htook.changed.same]
    rfl
  have hmapping : block'.mapping = block.mapping := by rw [htook.changed.same]
  exact {
    sized := List.forall_mem_cons.2 ⟨h.sized _ List.mem_cons_self, List.forall_mem_cons.2
      ⟨⟨pages, htook.changed.sized hsized⟩, fun b hb => h.sized b (List.mem_cons_of_mem _ hb)⟩⟩
    account := htake.perm (List.Perm.swap _ _ _) (.refl _)
    sizes := List.forall_mem_cons.2 ⟨⟨hpos, hfits⟩, h.sizes⟩
    used := List.forall_mem_cons.2 ⟨used_of_took htook (by omega), h.used⟩
    buffers := by
      rw [List.map_cons, List.map_cons, hbuffer]
      exact (h.buffers.cons _).trans (List.Perm.swap _ _ _)
    mappings := by
      rw [List.map_cons, List.map_cons, hmapping]
      exact (h.mappings.cons _).trans (List.Perm.swap _ _ _)
    pools := by
      change d.pools + 2 = _
      rw [h.pools]
      simp only [List.length_cons]
      omega }

/-- The block that holds an allocation contains it, and the others do not. -/
theorem contains_iff (h : BlocksSound top base d (l ++ block :: l') live)
    (hmem : (mem, size) ∈ live)
    (hold : block.region.Holds usbHcMemUnit (liveWindow (mem, size))) :
    usbHcBlockContains block mem (usbHcMemRound size) = true ∧
      ∀ b ∈ l ++ l', usbHcBlockContains b mem (usbHcMemRound size) = false := by
  obtain ⟨hpos, hfits⟩ := h.sizes _ hmem
  have hlen : 0 < usbHcMemRound size := by
    rw [usbHcMemRound_eq hfits]
    exact Nat.mul_pos usbHcMemUnit_pos (by omega)
  have hin : mem ∈ (liveWindow (mem, size)).range := ⟨le_rfl, show mem < mem + usbHcMemRound size by omega⟩
  constructor
  · obtain ⟨pages, hsized⟩ := h.sized block (by simp)
    have hlast : mem + usbHcMemRound size - 1 ∈ (liveWindow (mem, size)).range := by
      rw [Window.mem_range]
      change mem ≤ mem + usbHcMemRound size - 1 ∧ _ < mem + usbHcMemRound size
      omega
    have hfirst := hold.subset hin
    have hend := hold.subset hlast
    rw [Region.mem_window, hsized.units_eq] at hfirst hend
    rw [usbHcBlockContains, decide_eq_true_eq]
    have hbase : block.region.base = block.bufHost := rfl
    omega
  · intro b hb
    obtain ⟨p, hp⟩ := h.sized b (by
      rcases List.mem_append.1 hb with hb | hb
      · exact List.mem_append_left _ hb
      · exact List.mem_append_right _ (List.mem_cons_of_mem _ hb))
    have happart := (List.pairwise_cons.1 (account_front.1 h.account).regions).1 b.region
      (List.mem_map_of_mem hb) mem (hold.subset hin)
    rw [Region.mem_window, hp.units_eq] at happart
    rw [usbHcBlockContains, decide_eq_false_iff_not]
    rintro ⟨hle, hend⟩
    exact happart ⟨hle, show mem < b.bufHost + b.bufLen by omega⟩

/-- Freeing an allocation in the block that holds it. -/
theorem freeInBlock (h : BlocksSound top base d (l ++ block :: l') live) (hmem : (mem, size) ∈ live)
    (hold : block.region.Holds usbHcMemUnit (liveWindow (mem, size))) :
    ∃ taken block', UsbHcMemBlock.Changed block block' taken ∧
      usbHcFreeInBlock mem (usbHcMemRound size) block = .ok block' ∧
      Account usbHcMemUnit (block'.region :: (l ++ l').map UsbHcMemBlock.region)
        ((live.erase (mem, size)).map liveWindow) := by
  obtain ⟨hpos, hfits⟩ := h.sizes _ hmem
  obtain ⟨s, n, hn, hle, hwindow⟩ := hold
  have hlive : (live.map liveWindow).Perm
      (liveWindow (mem, size) :: (live.erase (mem, size)).map liveWindow) :=
    (List.perm_cons_erase hmem).map liveWindow
  have haccount := (account_front.1 h.account).perm (.refl _) hlive
  rw [hwindow] at haccount
  have htaken : ∀ u, s ≤ u → u < s + n → block.region.taken u = true := fun u hs hu =>
    haccount.taken_of_mem usbHcMemUnit_pos List.mem_cons_self hle hs hu
  obtain ⟨block', hchanged, hok⟩ := usbHcFreeInBlock_ok htaken
  have hstart : mem = block.bufHost + usbHcMemUnit * s := congrArg Window.base hwindow
  have hlen : usbHcMemRound size = usbHcMemUnit * n := congrArg Window.size hwindow
  refine ⟨_, block', hchanged, ?_, ?_⟩
  · rw [hstart, hlen]
    exact hok
  · rw [hchanged.region]
    exact haccount.release usbHcMemUnit_pos hle hn

/-- The freed block is kept. -/
theorem keep {taken : ℕ → Bool} (h : BlocksSound top base d (l ++ block :: l') live)
    (hchanged : UsbHcMemBlock.Changed block block' taken)
    (haccount : Account usbHcMemUnit (block'.region :: (l ++ l').map UsbHcMemBlock.region)
      ((live.erase (mem, size)).map liveWindow))
    (hkept : l ≠ [] → ∃ u < block'.region.units, block'.region.taken u = true) :
    BlocksSound top base d (l ++ block' :: l') (live.erase (mem, size)) :=
  h.replace hchanged haccount (fun a ha => h.sizes a (List.mem_of_mem_erase ha)) hkept

/-- The freed block is empty, and given back. -/
theorem giveBack {taken : ℕ → Bool} (h : BlocksSound top base d (l ++ block :: l') live)
    (hl : l ≠ []) (hchanged : UsbHcMemBlock.Changed block block' taken)
    (haccount : Account usbHcMemUnit (block'.region :: (l ++ l').map UsbHcMemBlock.region)
      ((live.erase (mem, size)).map liveWindow))
    (hempty : ∀ u < block'.region.units, block'.region.taken u = false) :
    BlocksSound top base (usbHcFreeMemBlock block' d) (l ++ l') (live.erase (mem, size)) where
  sized := fun b hb => h.sized b (by
    rcases List.mem_append.1 hb with hb | hb
    · exact List.mem_append_left _ hb
    · exact List.mem_append_right _ (List.mem_cons_of_mem _ hb))
  account := haccount.drop usbHcMemUnit_pos hempty
  sizes := fun a ha => h.sizes a (List.mem_of_mem_erase ha)
  used := fun b hb => h.used b (by
    obtain ⟨a, l, rfl⟩ := List.exists_cons_of_ne_nil hl
    rcases List.mem_append.1 hb with hb | hb
    · exact List.mem_append_left _ hb
    · exact List.mem_append_right _ (List.mem_cons_of_mem _ hb))
  buffers := by
    have hbuffer : block'.buffer = block.buffer := by rw [hchanged.same]; rfl
    have hbuffers := h.buffers
    rw [List.map_append, List.map_cons, List.append_assoc, List.cons_append] at hbuffers
    have herase := (hbuffers.trans List.perm_middle).erase block.buffer
    rw [List.erase_cons_head] at herase
    rw [List.map_append, List.append_assoc]
    change (d.buffers.erase block'.buffer).Perm _
    rwa [hbuffer]
  mappings := by
    have hmapping : block'.mapping = block.mapping := by rw [hchanged.same]
    have hmappings := h.mappings
    rw [List.map_append, List.map_cons, List.append_assoc, List.cons_append] at hmappings
    have herase := (hmappings.trans List.perm_middle).erase block.mapping
    rw [List.erase_cons_head] at herase
    rw [List.map_append, List.append_assoc]
    change (d.mappings.erase block'.mapping).Perm _
    rwa [hmapping]
  pools := by
    change d.pools - 1 - 1 = _
    rw [h.pools, List.length_append, List.length_append, List.length_cons]
    omega

end BlocksSound

theorem withBlocks_blocks {rest : List UsbHcMemBlock} {head : UsbHcMemBlock} :
    (pool.withBlocks (head :: rest)).blocks = head :: rest := rfl

theorem withBlocks_blocks_middle : (pool.withBlocks (l ++ block :: l')).blocks = l ++ block :: l' := by
  cases l <;> rfl

end Blocks

section Steps

/-- The first block with room. -/
theorem usbHcAllocateMem_room (h : BlocksSound top base d pool.blocks live) (hpos : 0 < size)
    (hfits : size + 63 < 2 ^ 64) (hblocks : pool.blocks = l ++ block :: l')
    (hl : ∀ b ∈ l, b.Full ((size + 63) / 64)) (hroom : ¬ block.Full ((size + 63) / 64)) :
    ∃ s block', UsbHcMemBlock.Took ((size + 63) / 64) s block block' ∧
      usbHcAllocateMem D size pool d =
        .ok (block.bufHost + usbHcMemUnit * s, pool.withBlocks (l ++ block' :: l'), d) := by
  obtain ⟨pages, hsized⟩ := h.sized block (by rw [hblocks]; simp)
  obtain ⟨s, block', htook, hok⟩ := usbHcAllocMemFromBlocks_first l'
    (show 0 < (size + 63) / 64 by omega) hsized.host hl hroom
  refine ⟨s, block', htook, ?_⟩
  have hhost := hsized.host
  rw [usbHcAllocateMem]
  simp only [usbHcMemRound_div hfits, hblocks, hok]
  change (if block.bufHost + usbHcMemUnit * s ≠ 0 then Except.ok _ else _) = _
  rw [if_pos (by omega)]

/-- No block has room, and another is to be had. -/
theorem usbHcAllocateMem_grown (hD : D.Lawful top) (hpos : 0 < size) (hfits : size + 63 < 2 ^ 64)
    (hfull : ∀ b ∈ pool.blocks, b.Full ((size + 63) / 64))
    (hgrants : (D d (usbHcBlockPages (usbHcMemRound size))).Grants pool.check4G pool.which4G) :
    ∃ block block', block.Fresh top (usbHcBlockPages (usbHcMemRound size)) d ∧
      UsbHcMemBlock.Took ((size + 63) / 64) 0 block block' ∧
      usbHcAllocateMem D size pool d =
        .ok (block.bufHost, { pool with rest := block' :: pool.rest },
          d.withBlock block (usbHcBlockPages (usbHcMemRound size))) := by
  obtain ⟨block, hfresh, hblock⟩ := usbHcAllocMemBlock_some hD usbHcBlockPages_pos hgrants
  have hplace : 0 ∈ places block.region.taken block.region.units ((size + 63) / 64) := by
    refine ⟨?_, fun u _ _ => hfresh.free u⟩
    have hle := le_usbHcBlockPages hfits
    change 0 + _ ≤ 8 * block.bitsLen
    rw [hfresh.sized.bitsLen]
    omega
  rcases usbHcAllocMemFromBlock_ok block (show 0 < (size + 63) / 64 by omega) with
    ⟨hnone, -⟩ | ⟨s, block', htook, hok⟩
  · rw [hnone] at hplace
    exact hplace.elim
  · obtain rfl : s = 0 := Nat.le_zero.1 (htook.least.2 hplace)
    refine ⟨block, block', hfresh, htook, ?_⟩
    rw [usbHcAllocateMem]
    simp only [usbHcMemRound_div hfits,
      usbHcAllocMemFromBlocks_full (show 0 < (size + 63) / 64 by omega) hfull]
    change (if (0 : ℕ) ≠ 0 then Except.ok (0, pool.withBlocks pool.blocks, d) else _) = _
    rw [if_neg (by decide), hblock]
    change (usbHcAllocMemFromBlock block _ >>= _) = _
    rw [hok]
    rfl

theorem usbHcAllocateMem_none (hD : D.Lawful top) (hpos : 0 < size) (hfits : size + 63 < 2 ^ 64)
    (hfull : ∀ b ∈ pool.blocks, b.Full ((size + 63) / 64))
    (hgrants : ¬ (D d (usbHcBlockPages (usbHcMemRound size))).Grants pool.check4G pool.which4G) :
    usbHcAllocateMem D size pool d = .ok (0, pool, { d with asked := d.asked + 1 }) := by
  rw [usbHcAllocateMem]
  simp only [usbHcMemRound_div hfits,
    usbHcAllocMemFromBlocks_full (show 0 < (size + 63) / 64 by omega) hfull]
  change (if (0 : ℕ) ≠ 0 then Except.ok (0, pool.withBlocks pool.blocks, d) else _) = _
  rw [if_neg (by decide), usbHcAllocMemBlock_none hD hgrants]
  rfl

/-- An allocation is freed in the block that holds it, which is given back if nothing is left. -/
theorem usbHcFreeMem_sound (h : BlocksSound top base d pool.blocks live) (hmem : (mem, size) ∈ live) :
    ∃ pool' d', usbHcFreeMem mem size pool d = .ok (pool', d') ∧
      BlocksSound top base d' pool'.blocks (live.erase (mem, size)) := by
  obtain ⟨r, hr, hold⟩ := h.account.placed _ (List.mem_map_of_mem hmem)
  obtain ⟨block, hblock, rfl⟩ := List.mem_map.1 hr
  obtain ⟨l, l', hblocks⟩ := List.append_of_mem hblock
  rw [hblocks] at h
  obtain ⟨hcontains, hothers⟩ := h.contains_iff hmem hold
  obtain ⟨taken, block', hchanged, hfree, haccount⟩ := h.freeInBlock hmem hold
  cases l with
  | nil =>
    obtain ⟨rfl, rfl⟩ : pool.head = block ∧ pool.rest = l' := List.cons.inj hblocks
    refine ⟨{ pool with head := block' }, d, ?_, h.keep hchanged haccount fun hne => absurd rfl hne⟩
    rw [usbHcFreeMem]
    simp only [hcontains, hfree, if_true]
    rfl
  | cons head l =>
    obtain ⟨rfl, hrest⟩ : pool.head = head ∧ pool.rest = l ++ block :: l' := List.cons.inj hblocks
    rw [List.cons_append, List.forall_mem_cons] at hothers
    have hwalk := usbHcFreeInRest_append d l'
      (fun b hb => hothers.2 b (List.mem_append_left _ hb)) hcontains hfree
    rw [← hrest] at hwalk
    rcases hempty : usbHcIsMemBlockEmpty block' with _ | _
    · refine ⟨{ pool with rest := l ++ block' :: l' }, d, ?_,
        h.keep hchanged haccount fun _ => ?_⟩
      · rw [usbHcFreeMem]
        simp only [hothers.1, hwalk, hempty]
        rfl
      · by_contra hnone
        refine Bool.eq_false_iff.1 hempty (UsbHcMemBlock.isMemBlockEmpty_iff.2 fun u hu => ?_)
        exact Bool.eq_false_iff.2 fun htaken => hnone ⟨u, hu, htaken⟩
    · refine ⟨{ pool with rest := l ++ l' }, usbHcFreeMemBlock block' d, ?_,
        h.giveBack (List.cons_ne_nil _ _) hchanged haccount
          (UsbHcMemBlock.isMemBlockEmpty_iff.1 hempty)⟩
      rw [usbHcFreeMem]
      simp only [hothers.1, hwalk, hempty]
      rfl

/-- What a run of the pool keeps. -/
def PoolSound (top : ℕ) (base : DmaState) (t : PoolTrace) : Prop :=
  BlocksSound top base t.dma t.pool.blocks t.live

/-- An allocation, wherever its memory comes from. -/
theorem usbHcAllocateMem_sound {t : PoolTrace} (hD : D.Lawful top) (h : PoolSound top base t)
    (hpos : 0 < size) (hfits : size + 63 < 2 ^ 64) :
    ∃ mem pool' d', usbHcAllocateMem D size t.pool t.dma = .ok (mem, pool', d') ∧
      PoolSound top base ⟨pool', d', if mem = 0 then t.live else (mem, size) :: t.live⟩ := by
  rcases full_or_first ((size + 63) / 64) t.pool.blocks with
    hfull | ⟨l, block, l', hblocks, hl, hroom⟩
  · by_cases hgrants :
      (D t.dma (usbHcBlockPages (usbHcMemRound size))).Grants t.pool.check4G t.pool.which4G
    · obtain ⟨block, block', hfresh, htook, hok⟩ :=
        usbHcAllocateMem_grown hD hpos hfits hfull hgrants
      have hadd := BlocksSound.add h hfresh htook hpos hfits rfl
      rw [Nat.mul_zero, Nat.add_zero] at hadd
      refine ⟨_, _, _, hok, ?_⟩
      rw [if_neg hfresh.sized.host]
      exact hadd
    · refine ⟨_, _, _, usbHcAllocateMem_none hD hpos hfits hfull hgrants, ?_⟩
      rw [if_pos rfl]
      exact ⟨h.sized, h.account, h.sizes, h.used, h.buffers, h.mappings, h.pools⟩
  · obtain ⟨s, block', htook, hok⟩ :=
      usbHcAllocateMem_room (D := D) h hpos hfits hblocks hl hroom
    obtain ⟨pages, hsized⟩ := h.sized block (by rw [hblocks]; simp)
    have hhost := hsized.host
    rw [PoolSound, hblocks] at h
    refine ⟨_, _, _, hok, ?_⟩
    rw [if_neg (by omega), PoolSound, withBlocks_blocks_middle]
    exact h.take htook hpos hfits rfl

/-- No step halts, and each keeps the account. -/
theorem poolStep_sound {t : PoolTrace} (hD : D.Lawful top) (h : PoolSound top base t) :
    ∀ e, PoolAllowed t e → ∃ t', poolStep D t e = .ok t' ∧ PoolSound top base t'
  | .allocate size, ⟨hpos, hfits⟩ => by
    obtain ⟨mem, pool', d', hok, hsound⟩ := usbHcAllocateMem_sound hD h hpos hfits
    refine ⟨_, ?_, hsound⟩
    rw [poolStep, hok]
    rfl
  | .free mem size, hmem => by
    obtain ⟨pool', d', hok, hsound⟩ := usbHcFreeMem_sound h hmem
    refine ⟨⟨pool', d', t.live.erase (mem, size)⟩, ?_, hsound⟩
    rw [poolStep, hok]
    rfl

theorem usbHcInitMemPool_sound {poolNull : Bool} (hD : D.Lawful top)
    (h : usbHcInitMemPool D poolNull check4G which4G base = (some pool, d)) :
    PoolSound top base ⟨pool, d, []⟩ := by
  rw [usbHcInitMemPool] at h
  rcases poolNull with _ | _
  · by_cases hgrants : (D base.allocateZeroPool usbHcMemDefaultPages).Grants check4G which4G
    · obtain ⟨block, hfresh, hok⟩ := usbHcAllocMemBlock_some hD (by decide) hgrants
      rw [hok] at h
      obtain ⟨hpool, rfl⟩ := Prod.mk.inj h
      obtain rfl := Option.some.inj hpool
      have hsized := hfresh.sized
      exact {
        sized := fun b hb => by
          obtain rfl := List.mem_singleton.1 hb
          exact ⟨_, hsized⟩
        account := Account.empty fun u _ => hfresh.free u
        sizes := nofun
        used := nofun
        buffers := by
          change List.Perm ((block.bufHost, _) :: base.buffers) (block.buffer :: base.buffers)
          rw [hsized.buffer_eq]
        mappings := .refl _
        pools := rfl }
    · rw [usbHcAllocMemBlock_none hD hgrants] at h
      simp at h
  · simp at h

end Steps

section Bump

/-- The end of the buffers that are out, or of the first page. -/
def dmaTop : List (ℕ × ℕ) → ℕ
  | [] => efiPageSize
  | buffer :: buffers => max (buffer.1 + buffer.2 * efiPageSize) (dmaTop buffers)

/-- DMA memory that is handed out above what is out, and below 4 GiB. -/
def bumpDma : DmaLib := fun d pages =>
  let host := (dmaTop d.buffers + (efiPageSize - 1)) / efiPageSize * efiPageSize
  { blockNull := false
    bitsNull := false
    allocateStatus := if host + pages * efiPageSize ≤ 2 ^ 32 then efiSuccess else efiOutOfResources
    bufHost := host
    mapStatus := efiSuccess
    bytes := efiPagesToSize pages
    mappedAddr := host
    mapping := d.asked }

theorem le_dmaTop : ∀ buffers : List (ℕ × ℕ), efiPageSize ≤ dmaTop buffers ∧
    ∀ buffer ∈ buffers, buffer.1 + buffer.2 * efiPageSize ≤ dmaTop buffers
  | [] => ⟨le_rfl, nofun⟩
  | first :: buffers => by
    obtain ⟨hpage, hall⟩ := le_dmaTop buffers
    exact ⟨hpage.trans (le_max_right _ _), List.forall_mem_cons.2 ⟨le_max_left _ _,
      fun buffer hbuffer => (hall buffer hbuffer).trans (le_max_right _ _)⟩⟩

theorem dmaTop_le_bufHost (d : DmaState) (pages : ℕ) : dmaTop d.buffers ≤ (bumpDma d pages).bufHost := by
  change dmaTop d.buffers ≤ (dmaTop d.buffers + 4095) / 4096 * 4096
  omega

theorem bumpDma_lawful : bumpDma.Lawful (2 ^ 32) where
  top_le := by decide
  host := fun d pages _ => by
    have hpage := (le_dmaTop d.buffers).1
    have hhost := dmaTop_le_bufHost d pages
    have hpos : 0 < efiPageSize := by decide
    omega
  aligned := fun _ _ _ => Nat.dvd_mul_left _ _
  fits := fun d pages hok => by
    by_contra hfits
    exact hok (congrArg efiError (if_neg hfits))
  apart := fun d pages _ buffer hbuffer => by
    refine Window.Apart.symm (Window.apart_of_le ?_)
    exact ((le_dmaTop d.buffers).2 buffer hbuffer).trans
      (dmaTop_le_bufHost d pages)
  whole := fun _ _ _ => rfl

/-- The pool with nothing else held. -/
def bumpTrace : PoolTrace :=
  match usbHcInitMemPool bumpDma false false 0 .idle with
  | (some pool, d) => ⟨pool, d, []⟩
  | (none, d) => ⟨⟨false, 0, ⟨fun _ => 0, 0, 0, 0, 0, 0⟩, []⟩, d, []⟩

theorem bumpTrace_init : usbHcInitMemPool bumpDma false false 0 .idle =
    (some bumpTrace.pool, bumpTrace.dma) := rfl

/-- Two allocations, the first of them freed. -/
theorem bumpTrace_run : ∃ t : PoolTrace,
    ReachedOk (poolStep bumpDma) PoolAllowed ⟨bumpTrace.pool, bumpTrace.dma, []⟩ t ∧
      t.live = [(4160, 100)] := by
  have h₁ : ReachedOk (poolStep bumpDma) PoolAllowed ⟨bumpTrace.pool, bumpTrace.dma, []⟩ _ :=
    ReachedOk.start.next (PoolEvent.allocate 16) (by decide : 0 < 16 ∧ 16 + 63 < 2 ^ 64) rfl
  have h₂ := h₁.next (PoolEvent.allocate 100) (by decide : 0 < 100 ∧ 100 + 63 < 2 ^ 64) rfl
  have h₃ := h₂.next (PoolEvent.free 4096 16) (List.mem_cons_of_mem _ List.mem_cons_self) rfl
  exact ⟨_, h₃, rfl⟩

end Bump

section Results

variable {t t₀ : PoolTrace} {poolNull : Bool}

theorem poolSound_of_reached (hD : D.Lawful top)
    (hinit : usbHcInitMemPool D poolNull check4G which4G base = (some pool, d))
    (h : ReachedOk (poolStep D) PoolAllowed ⟨pool, d, []⟩ t) : PoolSound top base t := by
  have hstep : ∀ t e, PoolSound top base t → PoolAllowed t e →
      Yields (fun _ => False) (PoolSound top base) (poolStep D t e) := fun t e ht he => by
    obtain ⟨t', hok, hsound⟩ := poolStep_sound hD ht e he
    rw [hok]
    exact hsound
  exact h.invariant (usbHcInitMemPool_sound hD hinit) hstep

/-- The window of an allocation lies in a block, and starts at one of its units. -/
theorem PoolSound.placed {a : ℕ × ℕ} (h : PoolSound top base t) (ha : a ∈ t.live) :
    ∃ block ∈ t.pool.blocks, block.buffer ∈ t.dma.buffers ∧
      (∀ x ∈ (liveWindow a).range, x ∈ (dmaWindow block.buffer).range ∧ x < top) ∧
      a.1 ≠ 0 ∧ usbHcMemUnit ∣ a.1 := by
  obtain ⟨r, hr, hold⟩ := h.account.placed _ (List.mem_map_of_mem ha)
  obtain ⟨block, hblock, rfl⟩ := List.mem_map.1 hr
  obtain ⟨pages, hsized⟩ := h.sized block hblock
  refine ⟨block, hblock, h.buffers.mem_iff.2 (List.mem_append_left _ (List.mem_map_of_mem hblock)),
    fun x hx => ?_, ?_⟩
  · have hin := hold.subset hx
    have hfits := hsized.fits
    refine ⟨?_, ?_⟩
    · rwa [← hsized.window_eq]
    · rw [Region.mem_window, hsized.units_eq] at hin
      exact hin.2.trans_le hfits
  · obtain ⟨s, n, -, -, hwindow⟩ := hold
    have hstart : a.1 = block.bufHost + usbHcMemUnit * s := congrArg Window.base hwindow
    have hhost := hsized.host
    have hunit : usbHcMemUnit ∣ block.bufHost :=
      Dvd.dvd.trans (by decide : usbHcMemUnit ∣ efiPageSize) hsized.aligned
    rw [hstart]
    exact ⟨by omega, Nat.dvd_add hunit (Nat.dvd_mul_right _ _)⟩

/-- In every run no assertion fails, and what is allocated is apart, in units of its own in the DMA
buffers that are held. -/
theorem pool_run_live (hD : D.Lawful top)
    (hinit : usbHcInitMemPool D poolNull check4G which4G base = (some pool, d))
    (h : ReachedOk (poolStep D) PoolAllowed ⟨pool, d, []⟩ t) :
    (∀ e, PoolAllowed t e → ∃ t', poolStep D t e = .ok t') ∧
      (t.live.map liveWindow).Pairwise Window.Apart ∧
      ∀ a ∈ t.live, a.1 ≠ 0 ∧ usbHcMemUnit ∣ a.1 ∧ a.2 ≤ (liveWindow a).size ∧
        ∃ buffer ∈ t.dma.buffers,
          ∀ x ∈ (liveWindow a).range, x ∈ (dmaWindow buffer).range ∧ x < top := by
  have hsound := poolSound_of_reached hD hinit h
  refine ⟨fun e he => ?_, hsound.account.apart, fun a ha => ?_⟩
  · obtain ⟨t', hok, -⟩ := poolStep_sound hD hsound e he
    exact ⟨t', hok⟩
  · obtain ⟨block, -, hheld, hin, hne, hunit⟩ := hsound.placed ha
    refine ⟨hne, hunit, ?_, block.buffer, hheld, hin⟩
    rw [liveWindow, usbHcMemRound_eq (hsound.sizes a ha).2]
    change a.2 ≤ 64 * _
    omega

theorem freeMemBlocks_held {buffers : List (ℕ × ℕ)} {mappings : List ℕ}
    (hbuffers : d.buffers.Perm (blocks.map UsbHcMemBlock.buffer ++ buffers))
    (hmappings : d.mappings.Perm (blocks.map UsbHcMemBlock.mapping ++ mappings)) :
    (blocks.foldl (fun d block => usbHcFreeMemBlock block d) d).buffers.Perm buffers ∧
      (blocks.foldl (fun d block => usbHcFreeMemBlock block d) d).mappings.Perm mappings ∧
      (blocks.foldl (fun d block => usbHcFreeMemBlock block d) d).pools =
        d.pools - 2 * blocks.length := by
  induction blocks generalizing d with
  | nil => exact ⟨hbuffers, hmappings, rfl⟩
  | cons block blocks ih =>
    have hb := hbuffers.erase block.buffer
    have hm := hmappings.erase block.mapping
    rw [List.map_cons, List.cons_append, List.erase_cons_head] at hb hm
    obtain ⟨hbuffers', hmappings', hpools⟩ := ih (d := usbHcFreeMemBlock block d) hb hm
    refine ⟨hbuffers', hmappings', hpools.trans ?_⟩
    change d.pools - 1 - 1 - _ = _
    rw [List.length_cons]
    omega

theorem usbHcFreeMemPool_held (h : PoolSound top base t) :
    (usbHcFreeMemPool t.pool t.dma).buffers.Perm base.buffers ∧
      (usbHcFreeMemPool t.pool t.dma).mappings.Perm base.mappings ∧
      (usbHcFreeMemPool t.pool t.dma).pools = base.pools := by
  have hbuffers := h.buffers.trans List.perm_middle.symm
  have hmappings := h.mappings.trans List.perm_middle.symm
  obtain ⟨hb, hm, hp⟩ := freeMemBlocks_held hbuffers hmappings
  have hb' := hb.erase t.pool.head.buffer
  have hm' := hm.erase t.pool.head.mapping
  rw [List.erase_cons_head] at hb' hm'
  refine ⟨hb', hm', ?_⟩
  have hpools : t.dma.pools = base.pools + 1 + 2 * (t.pool.rest.length + 1) := h.pools
  change (t.pool.rest.foldl (fun d block => usbHcFreeMemBlock block d) t.dma).pools - 1 - 1 - 1 = _
  rw [hp, hpools]
  omega

theorem pool_run_live_bump : ∃ t : PoolTrace, t.live = [(4160, 100)] ∧
    (∀ e, PoolAllowed t e → ∃ t', poolStep bumpDma t e = .ok t') ∧
      (t.live.map liveWindow).Pairwise Window.Apart ∧
      ∀ a ∈ t.live, a.1 ≠ 0 ∧ usbHcMemUnit ∣ a.1 ∧ a.2 ≤ (liveWindow a).size ∧
        ∃ buffer ∈ t.dma.buffers,
          ∀ x ∈ (liveWindow a).range, x ∈ (dmaWindow buffer).range ∧ x < 2 ^ 32 := by
  obtain ⟨t, ht, hlive⟩ := bumpTrace_run
  exact ⟨t, hlive, pool_run_live bumpDma_lawful bumpTrace_init ht⟩

/-- In every run what is held for the pool is its blocks', each of which is in use unless it is the
head, and freeing the pool gives all of it back. -/
theorem pool_run_held (hD : D.Lawful top)
    (hinit : usbHcInitMemPool D poolNull check4G which4G base = (some pool, d))
    (h : ReachedOk (poolStep D) PoolAllowed ⟨pool, d, []⟩ t) :
    t.dma.buffers.Perm (t.pool.blocks.map UsbHcMemBlock.buffer ++ base.buffers) ∧
      t.dma.mappings.Perm (t.pool.blocks.map UsbHcMemBlock.mapping ++ base.mappings) ∧
      t.dma.pools = base.pools + 1 + 2 * t.pool.blocks.length ∧
      (∀ block ∈ t.pool.rest, ∃ a ∈ t.live,
        ∀ x ∈ (liveWindow a).range, x ∈ (dmaWindow block.buffer).range) ∧
      (usbHcFreeMemPool t.pool t.dma).buffers.Perm base.buffers ∧
      (usbHcFreeMemPool t.pool t.dma).mappings.Perm base.mappings ∧
      (usbHcFreeMemPool t.pool t.dma).pools = base.pools := by
  have hsound := poolSound_of_reached hD hinit h
  refine ⟨hsound.buffers, hsound.mappings, hsound.pools, fun block hblock => ?_,
    usbHcFreeMemPool_held hsound⟩
  have hmem : block ∈ t.pool.blocks := List.mem_cons_of_mem _ hblock
  obtain ⟨u, hu, htaken⟩ := hsound.used block hblock
  obtain ⟨w, hw, hin⟩ := (hsound.account.taken_iff _ (List.mem_map_of_mem hmem) u hu).1 htaken
  obtain ⟨a, ha, rfl⟩ := List.mem_map.1 hw
  refine ⟨a, ha, fun x hx => ?_⟩
  obtain ⟨r, hr, hold⟩ := hsound.account.placed _ hw
  obtain rfl := hsound.account.region_unique hr (List.mem_map_of_mem hmem) (hold.subset hin)
    (Region.unit_mem_window usbHcMemUnit_pos hu)
  obtain ⟨pages, hsized⟩ := hsound.sized block hmem
  rw [← hsized.window_eq]
  exact hold.subset hx

theorem pool_run_held_bump : ∃ t : PoolTrace, t.live = [(4160, 100)] ∧
    t.dma.buffers.Perm (t.pool.blocks.map UsbHcMemBlock.buffer ++ DmaState.idle.buffers) ∧
      t.dma.mappings.Perm
        (t.pool.blocks.map UsbHcMemBlock.mapping ++ DmaState.idle.mappings) ∧
      t.dma.pools = DmaState.idle.pools + 1 + 2 * t.pool.blocks.length ∧
      (∀ block ∈ t.pool.rest, ∃ a ∈ t.live,
        ∀ x ∈ (liveWindow a).range, x ∈ (dmaWindow block.buffer).range) ∧
      (usbHcFreeMemPool t.pool t.dma).buffers.Perm DmaState.idle.buffers ∧
      (usbHcFreeMemPool t.pool t.dma).mappings.Perm DmaState.idle.mappings ∧
      (usbHcFreeMemPool t.pool t.dma).pools = DmaState.idle.pools := by
  obtain ⟨t, ht, hlive⟩ := bumpTrace_run
  exact ⟨t, hlive, pool_run_held bumpDma_lawful bumpTrace_init ht⟩

/-- In every run an allocation is made at the lowest place of the first block that has one, more
memory is asked for only if none has, and it fails only if that is not to be had. -/
theorem pool_run_first_fit (hD : D.Lawful top)
    (hinit : usbHcInitMemPool D poolNull check4G which4G base = (some pool, d))
    (h : ReachedOk (poolStep D) PoolAllowed ⟨pool, d, []⟩ t) (hpos : 0 < size)
    (hfits : size + 63 < 2 ^ 64) :
    ∃ mem pool' d', usbHcAllocateMem D size t.pool t.dma = .ok (mem, pool', d') ∧
      ((∃ l block l' s, t.pool.blocks = l ++ block :: l' ∧
          (∀ b ∈ l, b.Full ((size + 63) / 64)) ∧
          IsLeast (places block.region.taken block.region.units ((size + 63) / 64)) s ∧
          mem = block.bufHost + usbHcMemUnit * s ∧ d' = t.dma) ∨
        ((∀ b ∈ t.pool.blocks, b.Full ((size + 63) / 64)) ∧ d'.asked = t.dma.asked + 1 ∧
          (mem ≠ 0 ↔ (D t.dma (usbHcBlockPages (usbHcMemRound size))).Grants t.pool.check4G
            t.pool.which4G) ∧
          (mem = 0 → pool' = t.pool))) := by
  have hsound := poolSound_of_reached hD hinit h
  rcases full_or_first ((size + 63) / 64) t.pool.blocks with
    hfull | ⟨l, block, l', hblocks, hl, hroom⟩
  · by_cases hgrants :
      (D t.dma (usbHcBlockPages (usbHcMemRound size))).Grants t.pool.check4G t.pool.which4G
    · obtain ⟨block, block', hfresh, -, hok⟩ := usbHcAllocateMem_grown hD hpos hfits hfull hgrants
      have hhost := hfresh.sized.host
      exact ⟨_, _, _, hok, .inr ⟨hfull, rfl, iff_of_true hhost hgrants, fun h => absurd h hhost⟩⟩
    · exact ⟨_, _, _, usbHcAllocateMem_none hD hpos hfits hfull hgrants,
        .inr ⟨hfull, rfl, iff_of_false (fun h => h rfl) hgrants, fun _ => rfl⟩⟩
  · obtain ⟨s, block', htook, hok⟩ :=
      usbHcAllocateMem_room (D := D) hsound hpos hfits hblocks hl hroom
    exact ⟨_, _, _, hok, .inl ⟨l, block, l', s, hblocks, hl, htook.least, rfl, rfl⟩⟩

theorem pool_run_first_fit_bump : ∃ t : PoolTrace, t.live = [(4160, 100)] ∧
    ∃ mem pool' d', usbHcAllocateMem bumpDma 70000 t.pool t.dma = .ok (mem, pool', d') ∧
      ((∃ l block l' s, t.pool.blocks = l ++ block :: l' ∧
          (∀ b ∈ l, b.Full ((70000 + 63) / 64)) ∧
          IsLeast (places block.region.taken block.region.units ((70000 + 63) / 64)) s ∧
          mem = block.bufHost + usbHcMemUnit * s ∧ d' = t.dma) ∨
        ((∀ b ∈ t.pool.blocks, b.Full ((70000 + 63) / 64)) ∧ d'.asked = t.dma.asked + 1 ∧
          (mem ≠ 0 ↔ (bumpDma t.dma (usbHcBlockPages (usbHcMemRound 70000))).Grants t.pool.check4G
            t.pool.which4G) ∧
          (mem = 0 → pool' = t.pool))) := by
  obtain ⟨t, ht, hlive⟩ := bumpTrace_run
  exact ⟨t, hlive, pool_run_first_fit bumpDma_lawful bumpTrace_init ht (by decide) (by decide)⟩

end Results

end Edk2Rk3576.Ohci
