import Edk2Rk3576.Ohci.MemBlocks
import Mathlib.Data.List.Perm.Basic

/-!
# What the pool's operations do

A block is had or nothing is kept of it, an allocation is made in the first block that has room for
it, and memory is freed in the block that holds it.
-/

namespace Edk2Rk3576.Ohci

open Cells UnitPool

variable {D : DmaLib} {d d' base : DmaState} {check4G : Bool} {top which4G pages size mem n s : ℕ}
  {block block' : UsbHcMemBlock} {blocks l l' : List UsbHcMemBlock}

section Sizes

theorem usbHcMemRound_eq (h : size + 63 < 2 ^ 64) :
    usbHcMemRound size = usbHcMemUnit * ((size + 63) / 64) := by
  rw [usbHcMemRound]
  change (size + 63) % 2 ^ 64 / 64 * 64 = 64 * _
  rw [Nat.mod_eq_of_lt h, Nat.mul_comm]

theorem usbHcMemRound_div (h : size + 63 < 2 ^ 64) :
    usbHcMemRound size / usbHcMemUnit = (size + 63) / 64 := by
  rw [usbHcMemRound_eq h]
  exact Nat.mul_div_cancel_left _ (by decide)

theorem efiSizeToPages_mul : efiSizeToPages (pages * efiPageSize) = pages := by
  rw [efiSizeToPages, if_pos (Nat.mul_mod_left _ _), Nat.mul_div_cancel _ (by decide), Nat.add_zero]

theorem usbHcBlockPages_pos : 0 < usbHcBlockPages size := by
  rw [usbHcBlockPages]
  split_ifs
  · omega
  · decide

/-- A block made for an allocation is large enough for it. -/
theorem le_usbHcBlockPages (h : size + 63 < 2 ^ 64) :
    (size + 63) / 64 ≤ 64 * usbHcBlockPages (usbHcMemRound size) := by
  have hdefault : efiPagesToSize usbHcMemDefaultPages = 65536 := rfl
  rw [usbHcBlockPages, hdefault, usbHcMemRound_eq h, efiSizeToPages, efiPageSize, usbHcMemUnit,
    usbHcMemDefaultPages]
  split_ifs <;> omega

end Sizes

section Requests

/-- The memory of a DMA buffer. -/
def dmaWindow (buffer : ℕ × ℕ) : Window := ⟨buffer.1, buffer.2 * efiPageSize⟩

/-- Buffers are pages below `top`, apart from those that are out, and mapped whole. -/
structure DmaLib.Lawful (D : DmaLib) (top : ℕ) : Prop where
  top_le : top ≤ 2 ^ 64
  host : ∀ d pages, ¬ efiError (D d pages).allocateStatus → (D d pages).bufHost ≠ 0
  aligned : ∀ d pages, ¬ efiError (D d pages).allocateStatus → efiPageSize ∣ (D d pages).bufHost
  fits : ∀ d pages, ¬ efiError (D d pages).allocateStatus →
    (D d pages).bufHost + pages * efiPageSize ≤ top
  apart : ∀ d pages, ¬ efiError (D d pages).allocateStatus →
    ∀ buffer ∈ d.buffers, (dmaWindow ((D d pages).bufHost, pages)).Apart (dmaWindow buffer)
  whole : ∀ d pages, ¬ efiError (D d pages).mapStatus →
    (D d pages).bytes = efiPagesToSize pages

/-- A block is to be had. -/
def MemBlockAnswer.Grants (answer : MemBlockAnswer) (check4G : Bool) (which4G : ℕ) : Prop :=
  answer.blockNull = false ∧ answer.bitsNull = false ∧ ¬ efiError answer.allocateStatus ∧
    ¬ efiError answer.mapStatus ∧ ¬ (check4G ∧ which4G ≠ usbHcHigh32Bit answer.mappedAddr)

/-- A block of free units, apart from the buffers that are out. -/
structure UsbHcMemBlock.Fresh (block : UsbHcMemBlock) (top pages : ℕ) (d : DmaState) : Prop where
  sized : block.Sized top pages
  free : ∀ u, block.region.taken u = false
  apart : ∀ buffer ∈ d.buffers, (dmaWindow (block.bufHost, pages)).Apart (dmaWindow buffer)

/-- What is held for one more block. -/
def DmaState.withBlock (d : DmaState) (block : UsbHcMemBlock) (pages : ℕ) : DmaState where
  asked := d.asked + 1
  pools := d.pools + 2
  buffers := (block.bufHost, pages) :: d.buffers
  mappings := block.mapping :: d.mappings

theorem takenUnits_zero : takenUnits (fun _ => 0) s = false := by
  rw [takenUnits, usbHcBitIsSet_eq_testBit (by omega)]
  exact Nat.zero_testBit _

/-- Where a block is not to be had, nothing is held for it. -/
theorem usbHcAllocMemBlock_none (hD : D.Lawful top) (h : ¬ (D d pages).Grants check4G which4G) :
    usbHcAllocMemBlock D check4G which4G pages d = (none, { d with asked := d.asked + 1 }) := by
  unfold usbHcAllocMemBlock
  simp only [MemBlockAnswer.Grants] at h
  rcases hblock : (D d pages).blockNull with _ | _
  · rcases hbits : (D d pages).bitsNull with _ | _
    · by_cases hallocate : efiError (D d pages).allocateStatus
      · simp [hblock, hbits, hallocate, DmaState.allocateZeroPool, DmaState.freePool]
      · by_cases hmap : efiError (D d pages).mapStatus
        · simp [hblock, hbits, hallocate, hmap, DmaState.allocateZeroPool, DmaState.freePool,
            DmaState.allocateBuffer, DmaState.freeBuffer]
        · have h4G : check4G ∧ which4G ≠ usbHcHigh32Bit (D d pages).mappedAddr := by
            by_contra h4G
            exact h ⟨hblock, hbits, hallocate, hmap, h4G⟩
          simp [hblock, hbits, hallocate, hmap, hD.whole d pages hmap, h4G,
            DmaState.allocateZeroPool, DmaState.freePool, DmaState.allocateBuffer,
            DmaState.freeBuffer, DmaState.map, DmaState.unmap]
    · simp [hblock, hbits, DmaState.allocateZeroPool, DmaState.freePool]
  · simp [hblock]

theorem usbHcAllocMemBlock_some (hD : D.Lawful top) (hpages : 0 < pages)
    (h : (D d pages).Grants check4G which4G) :
    ∃ block, block.Fresh top pages d ∧
      usbHcAllocMemBlock D check4G which4G pages d = (some block, d.withBlock block pages) := by
  obtain ⟨hblock, hbits, hallocate, hmap, h4G⟩ := h
  have hhost := hD.host d pages hallocate
  have hfits := hD.fits d pages hallocate
  have htop := hD.top_le
  have hbufLen : efiPagesToSize pages = pages * efiPageSize := Nat.mod_eq_of_lt (by omega)
  refine ⟨{
    bits := fun _ => 0
    bitsLen := efiPagesToSize pages / (usbHcMemUnit * 8)
    buf := (D d pages).mappedAddr
    bufHost := (D d pages).bufHost
    bufLen := efiPagesToSize pages
    mapping := (D d pages).mapping }, ⟨⟨hpages, hhost, hD.aligned d pages hallocate,
    hbufLen, ?_, ?_⟩, fun _ => takenUnits_zero, hD.apart d pages hallocate⟩, ?_⟩
  · change efiPagesToSize pages / 512 = 8 * pages
    rw [hbufLen]
    change pages * 4096 / 512 = 8 * pages
    omega
  · rw [hbufLen]
    exact hfits
  · unfold usbHcAllocMemBlock
    simp only [hblock, hbits, hallocate, hmap, h4G, hD.whole d pages hmap, ne_eq, not_true_eq_false,
      if_false, Bool.false_eq_true]
    rfl

end Requests

section Blocks

/-- The block has no room for so many units. -/
def UsbHcMemBlock.Full (n : ℕ) (block : UsbHcMemBlock) : Prop :=
  places block.region.taken block.region.units n = ∅

theorem UsbHcMemBlock.Took.not_full (h : UsbHcMemBlock.Took n s block block') :
    ¬ block.Full n := fun hfull => by
  have hmem := h.least.1
  rw [UsbHcMemBlock.Full] at hfull
  rw [hfull] at hmem
  exact hmem

theorem usbHcAllocMemFromBlocks_full (hn : 0 < n) (h : ∀ block ∈ blocks, block.Full n) :
    usbHcAllocMemFromBlocks n blocks = .ok (0, blocks) := by
  induction blocks with
  | nil => rfl
  | cons block blocks ih =>
    rw [List.forall_mem_cons] at h
    rcases usbHcAllocMemFromBlock_ok block hn with ⟨-, hok⟩ | ⟨s, block', htook, -⟩
    · rw [usbHcAllocMemFromBlocks, hok]
      change (if (0 : ℕ) ≠ 0 then Except.ok (0, block :: blocks) else _) = _
      rw [if_neg (by decide), ih h.2]
      rfl
    · exact absurd h.1 htook.not_full

/-- The allocation is made in the first block with room. -/
theorem usbHcAllocMemFromBlocks_first (l' : List UsbHcMemBlock) (hn : 0 < n) (hhost : block.bufHost ≠ 0)
    (hl : ∀ block ∈ l, block.Full n) (hroom : ¬ block.Full n) :
    ∃ s block', UsbHcMemBlock.Took n s block block' ∧
      usbHcAllocMemFromBlocks n (l ++ block :: l') =
        .ok (block.bufHost + usbHcMemUnit * s, l ++ block' :: l') := by
  induction l with
  | nil =>
    rcases usbHcAllocMemFromBlock_ok block hn with ⟨hfull, -⟩ | ⟨s, block', htook, hok⟩
    · exact absurd hfull hroom
    · refine ⟨s, block', htook, ?_⟩
      rw [List.nil_append, usbHcAllocMemFromBlocks, hok]
      change (if block.bufHost + usbHcMemUnit * s ≠ 0 then _ else _) = _
      rw [if_pos (by omega)]
      rfl
  | cons first l ih =>
    rw [List.forall_mem_cons] at hl
    obtain ⟨s, block', htook, hok⟩ := ih hl.2
    refine ⟨s, block', htook, ?_⟩
    rcases usbHcAllocMemFromBlock_ok first hn with ⟨-, hnone⟩ | ⟨t, first', hfirst, -⟩
    · rw [List.cons_append, usbHcAllocMemFromBlocks, hnone]
      change (if (0 : ℕ) ≠ 0 then Except.ok (0, first :: (l ++ block :: l')) else _) = _
      rw [if_neg (by decide), hok]
      rfl
    · exact absurd hl.1 hfirst.not_full

/-- The blocks up to the first with room, if there is one. -/
theorem full_or_first (n : ℕ) : ∀ blocks : List UsbHcMemBlock,
    (∀ block ∈ blocks, block.Full n) ∨
      ∃ l block l', blocks = l ++ block :: l' ∧ (∀ b ∈ l, b.Full n) ∧ ¬ block.Full n
  | [] => .inl nofun
  | first :: blocks => by
    by_cases hfull : first.Full n
    · rcases full_or_first n blocks with hall | ⟨l, block, l', rfl, hl, hroom⟩
      · exact .inl (List.forall_mem_cons.2 ⟨hfull, hall⟩)
      · exact .inr ⟨first :: l, block, l', rfl, List.forall_mem_cons.2 ⟨hfull, hl⟩, hroom⟩
    · exact .inr ⟨[], first, blocks, rfl, nofun, hfull⟩

theorem usbHcFreeInRest_append {allocSize : ℕ} (d : DmaState) (l' : List UsbHcMemBlock)
    (hl : ∀ b ∈ l, usbHcBlockContains b mem allocSize = false)
    (hblock : usbHcBlockContains block mem allocSize = true)
    (hfree : usbHcFreeInBlock mem allocSize block = .ok block') :
    usbHcFreeInRest mem allocSize d (l ++ block :: l') =
      if usbHcIsMemBlockEmpty block' then .ok (l ++ l', usbHcFreeMemBlock block' d)
      else .ok (l ++ block' :: l', d) := by
  induction l with
  | nil =>
    rw [List.nil_append, usbHcFreeInRest, if_pos hblock, hfree]
    rfl
  | cons first l ih =>
    rw [List.forall_mem_cons] at hl
    rw [List.cons_append, usbHcFreeInRest, if_neg (by rw [hl.1]; exact Bool.false_ne_true), ih hl.2]
    split_ifs <;> rfl

end Blocks

end Edk2Rk3576.Ohci
