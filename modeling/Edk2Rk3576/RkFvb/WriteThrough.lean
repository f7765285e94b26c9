import Edk2Rk3576.Lib.Runs
import Edk2Rk3576.RkFvb.EraseBlocks

/-!
# Writing through to the NOR flash

In SPI mode the region has two copies, the NOR cells and the shadow. They part in two ways. A
write programs the chip, so where it would set a bit the NOR keeps it clear; callers of a
sticky-write volume erase first. And a program or an erase that fails leaves its blocks of the NOR
torn until they are erased again.

With writes that only clear bits that is all, whatever fails and when: after any run the copies
agree on every block that is not torn.
-/

namespace Edk2Rk3576

open Cells

inductive FvbOp
  | write (lba offset n : ℕ) (buffer : Cells UInt8)
  | erase (args : List (ℕ × ℕ))

section Run

variable (g : FvbGeometry) (E : NorEnv) (nor : SpiNor)

def FvbOp.exec (s : FvbState) : FvbOp → EfiStatus × FvbState
  | .write lba offset n buffer => fvbWrite g E nor s lba offset n buffer
  | .erase args => fvbEraseBlocks g E nor s args

/-- The bytes a write names, or the blocks an erase names, are in the region. -/
def FvbOp.InRange : FvbOp → Prop
  | .write lba offset n _ => lba * fvbBlockSize + offset + n ≤ g.fvbSize
  | .erase args => ∀ b, FvbNames args b → b < g.fvbSize / fvbBlockSize

/-- A write sets no bit that the shadow has clear. -/
def FvbOp.ClearsBits (s : FvbState) : FvbOp → Prop
  | .write lba offset n buffer => ∀ k < n,
      buffer k &&& s.ram (g.regionBaseAddress + (lba * fvbBlockSize + offset + k)) = buffer k
  | .erase _ => True

/-- The blocks that `n` bytes from byte `pos` of the region lie in. -/
def fvbBlocksOf (pos n : ℕ) : Set ℕ := {b | ∃ k < n, b = (pos + k) / fvbBlockSize}

/-- Every page of the write is programmed. -/
def fvbWriteCompletes (s : FvbState) (lba offset n : ℕ) (buffer : Cells UInt8) : Prop :=
  progCompletes E nor (toUint32 n) s.chip (toUint32 (fvbMediumAddr g lba offset)) buffer
    (toUint32 n)

/-- The chip is write enabled when it is told to erase the block. -/
def fvbEraseEnabled (s : FvbState) (lba : ℕ) : Prop :=
  eraseEnabled E nor fvbBlockSize s.chip (toUint32 (fvbMediumAddr g lba 0)) fvbBlockSize

open Classical in
/-- The torn blocks, given those before the loop: the one whose erase is reported as failed, and
those the chip was not write enabled for. -/
noncomputable def fvbTornEach (torn : Set ℕ) (s : FvbState) : List ℕ → Set ℕ
  | [] => torn
  | lba :: lbas =>
    if efiError (fvbEraseBlock g E nor s lba).1 then insert lba torn
    else fvbTornEach (if fvbEraseEnabled g E nor s lba then torn \ {lba} else insert lba torn)
      (fvbEraseBlock g E nor s lba).2 lbas

open Classical in
/-- The same, over one operation: a write tears the blocks it goes through unless all its pages
are programmed. -/
noncomputable def FvbOp.torn (torn : Set ℕ) (s : FvbState) : FvbOp → Set ℕ
  | .write lba offset n buffer =>
    if fvbWriteCompletes g E nor s lba offset n buffer then torn
    else torn ∪ fvbBlocksOf (lba * fvbBlockSize + offset) n
  | .erase args =>
    if fvbWriteDisabled g s ∨ ∃ p ∈ fvbErasePairs args, fvbPairRejected p then torn
    else fvbTornEach g E nor torn s (fvbEraseLbas args)

/-- Runs of allowed operations from `s₀` reach `s`, with these blocks torn. -/
def FvbReached (allowed : FvbState → FvbOp → Prop) (s₀ s : FvbState) (torn : Set ℕ) : Prop :=
  Reached (fun x op => ((FvbOp.exec g E nor x.1 op).2, op.torn g E nor x.2 x.1))
    (fun x op => allowed x.1 op) (s₀, ∅) (s, torn)

end Run

/-- The region of the NOR and the shadow hold the same bytes. -/
def FvbMirrored (g : FvbGeometry) (s : FvbState) : Prop :=
  Mirror s.chip.cells g.fvbOffset s.ram g.regionBaseAddress g.fvbSize

/-- The copies agree outside the torn blocks, and the chip is idle between operations. -/
structure FvbInSync (g : FvbGeometry) (s : FvbState) (torn : Set ℕ) : Prop where
  spi : s.dev.isSpiFlashAvailable = true
  idle : s.chip.job = .idle
  eq : ∀ k < g.fvbSize, k / fvbBlockSize ∉ torn →
    s.chip.cells (g.fvbOffset + k) = s.ram (g.regionBaseAddress + k)

section Sync

variable {g : FvbGeometry} {E : NorEnv} {nor : SpiNor}

theorem FvbInSync.mono {s : FvbState} {torn torn' : Set ℕ} (h : FvbInSync g s torn)
    (hsub : torn ⊆ torn') : FvbInSync g s torn' :=
  ⟨h.spi, h.idle, fun k hk ht => h.eq k hk fun ht' => ht (hsub ht')⟩

/-- A write that completes keeps the copies in step. -/
theorem fvbWrite_inSync_of_completes {s : FvbState} {torn : Set ℕ} {lba offset n : ℕ}
    {buffer : Cells UInt8} (h : FvbInSync g s torn) (hn : 0 < n)
    (hin : fvbPos lba offset + n ≤ g.fvbSize)
    (hrej : ¬ fvbWriteRejected g nor s.dev.isSpiFlashAvailable lba offset n)
    (hcomp : fvbWriteCompletes g E nor s lba offset n buffer)
    (hc : ∀ k < n,
      buffer k &&& s.ram (g.regionBaseAddress + (fvbPos lba offset + k)) = buffer k) :
    FvbInSync g (fvbWrite g E nor s lba offset n buffer).2 torn := by
  have hm := g.medium_fits
  have haddr : fvbMediumAddr g lba offset = g.fvbOffset + fvbPos lba offset :=
    fvbMediumAddr_of_pos (by omega)
  have hout : ¬ nor.outside (toUint32 (fvbMediumAddr g lba offset)) (toUint32 n) :=
    fun ho => hrej ⟨h.spi, ho⟩
  have hcells := halSnorProgData_of_completes E nor hout hcomp
  rw [haddr, toUint32_of_lt (by omega), toUint32_of_lt (by omega)] at hcells
  rw [fvbWrite_accepted hrej]
  unfold fvbWriteChip
  simp only [h.spi, if_true]
  rw [haddr, toUint32_of_lt (by omega), toUint32_of_lt (by omega), copyMem_of_pos hn hin]
  refine ⟨rfl, (halSnorProgData_frame E nor h.idle _ buffer _).2, fun k hk ht => ?_⟩
  simp only [norWrite]
  rw [hcells]
  by_cases hk' : fvbPos lba offset ≤ k ∧ k < fvbPos lba offset + n
  · obtain ⟨j, rfl⟩ := Nat.exists_eq_add_of_le hk'.1
    have hsync := h.eq _ hk ht
    have hbit := hc j (by omega)
    rw [← Nat.add_assoc, ← Nat.add_assoc, modify_add (by omega), modify_add (by omega),
      Nat.add_assoc, hsync, UInt8.and_comm, hbit]
  · rw [modify_of_notMem (by omega), modify_of_notMem (by omega)]
    exact h.eq k hk ht

/-- Any write keeps the copies in step outside the blocks it goes through. -/
theorem fvbWrite_inSync_outside (E : NorEnv) {s : FvbState} {torn : Set ℕ} {lba offset n : ℕ}
    (buffer : Cells UInt8) (h : FvbInSync g s torn) (hin : fvbPos lba offset + n ≤ g.fvbSize)
    (hrej : ¬ fvbWriteRejected g nor s.dev.isSpiFlashAvailable lba offset n) :
    FvbInSync g (fvbWrite g E nor s lba offset n buffer).2
      (torn ∪ fvbBlocksOf (fvbPos lba offset) n) := by
  rw [fvbWrite_accepted hrej]
  unfold fvbWriteChip
  simp only [h.spi, if_true]
  obtain ⟨hframe, hidle⟩ := halSnorProgData_frame E nor h.idle
    (toUint32 (fvbMediumAddr g lba offset)) buffer (toUint32 n)
  refine ⟨rfl, hidle, fun k hk ht => ?_⟩
  simp only [norWrite]
  rw [Set.mem_union, not_or] at ht
  obtain ⟨ht, hb⟩ := ht
  have hk' : ¬ (fvbPos lba offset ≤ k ∧ k < fvbPos lba offset + n) := fun hk' =>
    hb ⟨k - fvbPos lba offset, by omega, by rw [Nat.add_sub_cancel' hk'.1]⟩
  rcases Nat.eq_zero_or_pos n with rfl | hn
  · rw [copyMem_zero, ← h.eq k hk ht]
    refine hframe _ ?_
    simp [toUint32]
  · have hm := g.medium_fits
    rw [copyMem_of_pos hn hin, modify_of_notMem (by omega), ← h.eq k hk ht]
    refine hframe _ fun hmem => hk' ?_
    rw [fvbMediumAddr_of_pos (by omega), toUint32_of_lt (by omega), toUint32_of_lt (by omega),
      Set.mem_Ico] at hmem
    omega

open Classical in
theorem fvbWrite_inSync {s : FvbState} {torn : Set ℕ} {lba offset n : ℕ} {buffer : Cells UInt8}
    (h : FvbInSync g s torn) (hr : (FvbOp.write lba offset n buffer).InRange g)
    (hc : (FvbOp.write lba offset n buffer).ClearsBits g s) :
    FvbInSync g (fvbWrite g E nor s lba offset n buffer).2
      ((FvbOp.write lba offset n buffer).torn g E nor torn s) := by
  simp only [FvbOp.InRange] at hr
  simp only [FvbOp.ClearsBits] at hc
  have hm := g.medium_fits
  have hpos : fvbPos lba offset = lba * fvbBlockSize + offset := fvbPos_of_lt (by omega)
  rw [← hpos] at hr
  simp only [← hpos] at hc
  simp only [FvbOp.torn, ← hpos]
  by_cases hrej : fvbWriteRejected g nor s.dev.isSpiFlashAvailable lba offset n
  · rw [fvbWrite_rejected hrej]
    refine h.mono ?_
    split_ifs
    · exact subset_rfl
    · exact Set.subset_union_left
  · split_ifs with hcomp
    · rcases Nat.eq_zero_or_pos n with rfl | hn
      · have hzero := fvbWrite_inSync_outside E buffer h hr hrej
        rwa [show fvbBlocksOf (fvbPos lba offset) 0 = ∅ by simp [fvbBlocksOf],
          Set.union_empty] at hzero
      · exact fvbWrite_inSync_of_completes h hn hr hrej hcomp hc
    · exact fvbWrite_inSync_outside E buffer h hr hrej

open Classical in
/-- Erasing a block: the copies agree on it afterwards, or it is torn. -/
theorem fvbEraseBlock_inSync (E : NorEnv) (nor : SpiNor) {s : FvbState} {torn : Set ℕ} {lba : ℕ}
    (h : FvbInSync g s torn) (hfit : FvbBlockFits g lba) :
    FvbInSync g (fvbEraseBlock g E nor s lba).2
      (if efiError (fvbEraseBlock g E nor s lba).1 then insert lba torn
        else if fvbEraseEnabled g E nor s lba then torn \ {lba} else insert lba torn) := by
  have hm := g.medium_fits
  have hpos := hfit.pos
  have hfit' := hfit
  unfold FvbBlockFits at hfit'
  simp only [fvbBlockSize] at hfit' hpos
  have haddr : toUint32 (fvbMediumAddr g lba 0) = g.fvbOffset + lba * fvbBlockSize := by
    rw [fvbMediumAddr_of_pos (by omega), hpos, toUint32_of_lt (by omega)]
    rfl
  obtain ⟨hframe, hidle, hst⟩ := norErase_spec E nor h.idle
    (g.fvbOffset + lba * fvbBlockSize) fvbBlockSize (by simp only [fvbBlockSize]; omega)
  -- a byte of another block is not in the range of the erase
  have hother : ∀ k, k / fvbBlockSize ≠ lba →
      ¬ (lba * fvbBlockSize ≤ k ∧ k < lba * fvbBlockSize + fvbBlockSize) := by
    intro k hk
    simp only [fvbBlockSize] at hk ⊢
    omega
  rcases fvbEraseBlock_cases g E nor s lba with ⟨hs, -, -, hs'⟩ | ⟨hs, chip, hs', -, hchip⟩
  · rw [if_pos (by rw [hs]; exact efiError_deviceError), hs', haddr]
    refine ⟨h.spi, hidle, fun k hk ht => ?_⟩
    rw [Set.mem_insert_iff, not_or] at ht
    have hk' := hother k ht.1
    simp only []
    rw [hframe _ (by rw [Set.mem_Ico]; omega), h.eq k hk ht.2]
  · obtain ⟨hchip, herr⟩ := hchip h.spi
    rw [haddr] at hchip herr
    have hfill := hst.resolve_right (by simp [herr])
    rw [if_neg (by rw [hs]; simp), hs']
    subst hchip
    refine ⟨h.spi, hidle, fun k hk ht => ?_⟩
    simp only []
    rw [setMem_of_fits hfit]
    by_cases hen : fvbEraseEnabled g E nor s lba
    · rw [if_pos hen] at ht
      unfold fvbEraseEnabled at hen
      rw [haddr] at hen
      rw [hfill.2 hen]
      by_cases hk' : lba * fvbBlockSize ≤ k ∧ k < lba * fvbBlockSize + fvbBlockSize
      · rw [fill_of_mem (by omega), fill_of_mem (by omega)]
      · rw [fill_of_notMem (by omega), fill_of_notMem (by omega)]
        refine h.eq k hk fun ht' => ht ⟨ht', ?_⟩
        rw [Set.mem_singleton_iff]
        simp only [fvbBlockSize] at hk' ⊢
        omega
    · rw [if_neg hen, Set.mem_insert_iff, not_or] at ht
      have hk' := hother k ht.1
      rw [fill_of_notMem (by omega), hframe _ (by rw [Set.mem_Ico]; omega), h.eq k hk ht.2]

theorem fvbEraseEach_inSync (E : NorEnv) (nor : SpiNor) : ∀ (lbas : List ℕ) {s : FvbState}
    {torn : Set ℕ}, FvbInSync g s torn → (∀ lba ∈ lbas, FvbBlockFits g lba) →
      FvbInSync g (fvbEraseEach g E nor s lbas).2 (fvbTornEach g E nor torn s lbas)
  | [], _, _, h, _ => h
  | lba :: lbas, s, torn, h, hfits => by
    have hb := fvbEraseBlock_inSync E nor h (hfits lba List.mem_cons_self)
    unfold fvbEraseEach fvbTornEach
    by_cases herr : efiError (fvbEraseBlock g E nor s lba).1
    · rw [if_pos herr] at hb ⊢
      rwa [if_pos herr]
    · rw [if_neg herr] at hb ⊢
      rw [if_neg herr]
      exact fvbEraseEach_inSync E nor lbas hb fun l hl => hfits l (List.mem_cons_of_mem lba hl)

theorem fits_of_inRange {args : List (ℕ × ℕ)} (hr : (FvbOp.erase args).InRange g) :
    ∀ lba ∈ fvbEraseLbas args, FvbBlockFits g lba := by
  intro lba hl
  have hlt := hr lba ((mem_fvbEraseLbas hr lba).1 hl)
  unfold FvbBlockFits
  simp only [fvbBlockSize] at hlt ⊢
  omega

/-- One operation keeps the copies in step. -/
theorem FvbOp.inSync (E : NorEnv) (nor : SpiNor) {s : FvbState} {torn : Set ℕ} (op : FvbOp)
    (h : FvbInSync g s torn) (hr : op.InRange g) (hc : op.ClearsBits g s) :
    FvbInSync g (op.exec g E nor s).2 (op.torn g E nor torn s) := by
  cases op with
  | write lba offset n buffer => exact fvbWrite_inSync h hr hc
  | erase args =>
    simp only [FvbOp.exec, FvbOp.torn]
    rcases fvbEraseBlocks_status g E nor s args with
      ⟨hd, hw⟩ | ⟨hi, -, hrej⟩ | ⟨he, hw, hrej⟩
    · rw [hd, if_pos (Or.inl hw)]
      exact h
    · rw [hi, if_pos (Or.inr hrej)]
      exact h
    · rw [he, if_neg (not_or.2 ⟨hw, hrej⟩)]
      exact fvbEraseEach_inSync E nor _ h (fits_of_inRange hr)

theorem FvbReached.inSync {s₀ s : FvbState} {torn : Set ℕ} (h₀ : FvbInSync g s₀ ∅)
    (h : FvbReached g E nor (fun s op => op.InRange g ∧ op.ClearsBits g s) s₀ s torn) :
    FvbInSync g s torn :=
  h.invariant (P := fun x => FvbInSync g x.1 x.2) h₀
    fun _ op hx hop => op.inSync E nor hx hop.1 hop.2

/-- What an operation that reports an error has done to the shadow: nothing, or, for an erase that
failed midway, erased the blocks before the one that failed. -/
theorem FvbOp.error_ram {s : FvbState} (op : FvbOp) (hr : op.InRange g)
    (he : efiError (op.exec g E nor s).1 = true) :
    (op.exec g E nor s).2.ram = s.ram
      ∨ ∃ args, op = .erase args ∧ (op.exec g E nor s).1 = efiDeviceError
        ∧ ∃ done, done <+: fvbEraseLbas args
          ∧ (∀ i ∈ fvbShadowBlocks g done, (op.exec g E nor s).2.ram i = 0xFF)
          ∧ SameOutside s.ram (op.exec g E nor s).2.ram (fvbShadowBlocks g done) := by
  cases op with
  | write lba offset n buffer =>
    simp only [FvbOp.exec] at he ⊢
    by_cases hrej : fvbWriteRejected g nor s.dev.isSpiFlashAvailable lba offset n
    · rw [fvbWrite_rejected hrej]
      exact Or.inl rfl
    · rw [fvbWrite_accepted hrej] at he
      simp at he
  | erase args =>
    simp only [FvbOp.exec] at he ⊢
    rcases fvbEraseBlocks_status g E nor s args with ⟨hd, -⟩ | ⟨hi, -⟩ | ⟨hs, -⟩
    · rw [hd]
      exact Or.inl rfl
    · rw [hi]
      exact Or.inl rfl
    · rw [hs] at he ⊢
      obtain ⟨done, h1, h2, h3, ⟨h4, -⟩ | h4⟩ :=
        fvbEraseEach_ram E nor (fvbEraseLbas args) s (fits_of_inRange hr)
      · rw [h4] at he
        simp at he
      · exact Or.inr ⟨args, rfl, h4, done, h1, h2, h3⟩

end Sync

/-- Over any run of operations in range whose writes only clear bits, the copies agree outside the
torn blocks, and an operation that reports an error leaves the shadow as it was but for blocks it
erased before the failing one. -/
theorem fvb_writesThrough {g : FvbGeometry} {E : NorEnv} {nor : SpiNor} {s₀ s : FvbState}
    {torn : Set ℕ} (hspi : s₀.dev.isSpiFlashAvailable = true)
    (hidle : s₀.chip.job = .idle) (h₀ : FvbMirrored g s₀)
    (h : FvbReached g E nor (fun s op => op.InRange g ∧ op.ClearsBits g s) s₀ s torn) :
    (∀ k < g.fvbSize, k / fvbBlockSize ∉ torn →
        s.chip.cells (g.fvbOffset + k) = s.ram (g.regionBaseAddress + k))
      ∧ ∀ op : FvbOp, op.InRange g → efiError (op.exec g E nor s).1 = true →
        (op.exec g E nor s).2.ram = s.ram
          ∨ ∃ args, op = .erase args ∧ (op.exec g E nor s).1 = efiDeviceError
            ∧ ∃ done, done <+: fvbEraseLbas args
              ∧ (∀ i ∈ fvbShadowBlocks g done, (op.exec g E nor s).2.ram i = 0xFF)
              ∧ SameOutside s.ram (op.exec g E nor s).2.ram (fvbShadowBlocks g done) :=
  ⟨(FvbReached.inSync ⟨hspi, hidle, fun k hk _ => h₀ k hk⟩ h).eq, fun op => op.error_ram⟩

/-- Block 0 erased, then its first byte written. -/
theorem fvb_writesThrough_block0 :
    ∃ s torn, FvbReached rock4dGeometry NorEnv.healthy spiNor16M
        (fun s op => op.InRange rock4dGeometry ∧ op.ClearsBits rock4dGeometry s)
        (FvbState.zeros true) s torn
      ∧ ∀ k < rock4dGeometry.fvbSize, k / fvbBlockSize ∉ torn →
        s.chip.cells (rock4dGeometry.fvbOffset + k)
          = s.ram (rock4dGeometry.regionBaseAddress + k) := by
  have herase : (FvbOp.erase [(0, 1)]).InRange rock4dGeometry := by
    rintro b ⟨p, hp, -, hb⟩
    obtain rfl : p = (0, 1) := by simpa [fvbErasePairs, efiLbaListTerminator] using hp
    obtain rfl : b = 0 := by simpa using hb
    decide
  have hwrite : (FvbOp.write 0 0 1 fun _ => 0x55).InRange rock4dGeometry :=
    show 0 * fvbBlockSize + 0 + 1 ≤ rock4dGeometry.fvbSize by decide
  have hbits : (FvbOp.write 0 0 1 fun _ => 0x55).ClearsBits rock4dGeometry
      ((FvbOp.erase [(0, 1)]).exec rock4dGeometry NorEnv.healthy spiNor16M
        (FvbState.zeros true)).2 := by
    intro k hk
    obtain rfl : k = 0 := by omega
    decide
  have hrun : FvbReached rock4dGeometry NorEnv.healthy spiNor16M
      (fun s op => op.InRange rock4dGeometry ∧ op.ClearsBits rock4dGeometry s)
      (FvbState.zeros true) _ _ :=
    (Reached.start.next _ ⟨herase, trivial⟩).next _ ⟨hwrite, hbits⟩
  exact ⟨_, _, hrun, (fvb_writesThrough rfl rfl (fun _ _ => rfl) hrun).1⟩

/-- Every operation in range that succeeds leaves the copies equal, and every one that reports an
error leaves the shadow as it was. -/
def FvbAlwaysMirrored (g : FvbGeometry) (E : NorEnv) (nor : SpiNor) : Prop :=
  ∀ s₀ s torn, s₀.dev.isSpiFlashAvailable = true → s₀.chip.job = .idle → FvbMirrored g s₀ →
    FvbReached g E nor (fun _ op => op.InRange g) s₀ s torn → ∀ op : FvbOp, op.InRange g →
      ((op.exec g E nor s).1 = efiSuccess → FvbMirrored g (op.exec g E nor s).2)
        ∧ (efiError (op.exec g E nor s).1 = true → (op.exec g E nor s).2.ram = s.ram)

/-- A byte written where the NOR has it clear stays clear there, though every transfer succeeds. -/
theorem fvb_not_alwaysMirrored :
    ¬ FvbAlwaysMirrored rock4dGeometry NorEnv.healthy spiNor16M := by
  intro h
  have hone := (h (FvbState.zeros true) _ _ rfl rfl (fun _ _ => rfl) Reached.start
    (.write 0 0 1 fun _ => 1)
    (show 0 * fvbBlockSize + 0 + 1 ≤ rock4dGeometry.fvbSize by decide)).1 (by decide) 0 (by decide)
  exact absurd hone (by decide)

end Edk2Rk3576
