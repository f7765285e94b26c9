import Edk2Rk3576.RkFvb.Effects

/-!
# What a block read or write touches

`FvbRead` checks the offset and the length against the block size, but not the block; `FvbWrite`
checks nothing, and in SPI mode the flash driver checks the range against the whole flash. So a
call that succeeds is confined to the region exactly when its range is one of the region, `Lba *
BlockSize` taken modulo `2 ^ 64`, or it is of no bytes.
-/

namespace Edk2Rk3576

open Cells

/-- A read that succeeds depends on bytes of the shadow only and stays in its block, and one that
fails returns nothing. -/
def FvbReadConfined (g : FvbGeometry) (lba offset n : ℕ) : Prop :=
  ∀ ram : Cells UInt8,
    (efiError (fvbRead g ram lba offset n).1 = true → (fvbRead g ram lba offset n).2 = [])
      ∧ (efiError (fvbRead g ram lba offset n).1 = false →
        (n ≠ 0 → offset + n ≤ fvbBlockSize)
          ∧ ∀ ram', Set.EqOn ram ram' g.region →
            fvbRead g ram' lba offset n = fvbRead g ram lba offset n)

/-- A write that succeeds changes bytes of the shadow and of the region on the medium only and
stays in its block, and one that fails changes nothing. -/
def FvbWriteConfined (g : FvbGeometry) (nor : SpiNor) (spi : Bool) (lba offset n : ℕ) : Prop :=
  ∀ (E : NorEnv) (s : FvbState) (buffer : Cells UInt8),
    s.dev.isSpiFlashAvailable = spi → s.chip.job = .idle →
      (efiError (fvbWrite g E nor s lba offset n buffer).1 = true →
          (fvbWrite g E nor s lba offset n buffer).2 = s)
        ∧ (efiError (fvbWrite g E nor s lba offset n buffer).1 = false →
          (n ≠ 0 → offset + n ≤ fvbBlockSize)
            ∧ SameOutside s.ram (fvbWrite g E nor s lba offset n buffer).2.ram g.region
            ∧ SameOutside s.chip.cells (fvbWrite g E nor s lba offset n buffer).2.chip.cells
              g.medium)

/-- The check at the head of `FvbRead`. -/
def fvbReadRejected (offset n : ℕ) : Prop :=
  fvbBlockSize ≤ offset ∨ fvbBlockSize < n ∨ fvbBlockSize < (offset + n) % uintn

/-- The bytes a call names lie in the region. -/
def FvbInRegion (g : FvbGeometry) (lba offset n : ℕ) : Prop :=
  offset + n ≤ fvbBlockSize ∧ fvbPos lba offset + n ≤ g.fvbSize

section Read

variable {g : FvbGeometry} {ram : Cells UInt8} {lba offset n : ℕ}

theorem fvbRead_rejected (h : fvbReadRejected offset n) :
    fvbRead g ram lba offset n = (efiBadBufferSize, []) := if_pos h

theorem fvbRead_accepted (h : ¬ fvbReadRejected offset n) :
    fvbRead g ram lba offset n = (efiSuccess,
      (List.range n).map fun k => ram ((fvbShadowAddr g lba offset + k) % uintn)) := by
  unfold fvbRead
  split_ifs with hrej h0
  · exact absurd hrej h
  · subst h0
    rfl
  · rfl

theorem le_of_not_fvbReadRejected (h : ¬ fvbReadRejected offset n) : offset + n ≤ fvbBlockSize := by
  simp only [fvbReadRejected, fvbBlockSize, uintn] at h ⊢
  omega

/-- The last byte a range of the ring covers is in the region only if the whole range is. -/
theorem pos_le_of_last_mem (hn : 0 < n) (hblock : offset + n ≤ fvbBlockSize)
    (h : (fvbShadowAddr g lba offset + (n - 1)) % uintn ∈ g.region) :
    fvbPos lba offset + n ≤ g.fvbSize := by
  have hr := g.region_fits
  simp only [FvbGeometry.region, Set.mem_Ico, fvbShadowAddr, getDataOffset, fvbPos, fvbStartLba,
    fvbBlockSize, uintn] at *
  omega

theorem fvbShadowAddr_add_mem (h : fvbPos lba offset + n ≤ g.fvbSize) {k : ℕ} (hk : k < n) :
    (fvbShadowAddr g lba offset + k) % uintn ∈ g.region := by
  have hr := g.region_fits
  rw [fvbShadowAddr_of_pos (by omega), uintn, Nat.mod_eq_of_lt (by omega)]
  simp only [FvbGeometry.region, Set.mem_Ico]
  omega

theorem fvbReadConfined_of_inRegion (h : n = 0 ∨ fvbReadRejected offset n
    ∨ fvbPos lba offset + n ≤ g.fvbSize) : FvbReadConfined g lba offset n := by
  intro ram
  by_cases hrej : fvbReadRejected offset n
  · rw [fvbRead_rejected hrej]
    exact ⟨fun _ => rfl, fun he => by simp at he⟩
  · rw [fvbRead_accepted hrej]
    refine ⟨fun he => by simp at he, fun _ => ⟨fun _ => le_of_not_fvbReadRejected hrej,
      fun ram' heq => ?_⟩⟩
    rw [fvbRead_accepted hrej, Prod.mk.injEq]
    refine ⟨rfl, List.map_congr_left fun k hk => (heq ?_).symm⟩
    have hk' := List.mem_range.1 hk
    rcases h with h0 | hr | hpos
    · omega
    · exact absurd hr hrej
    · exact fvbShadowAddr_add_mem hpos hk'

theorem inRegion_of_fvbReadConfined (h : FvbReadConfined g lba offset n) :
    n = 0 ∨ fvbReadRejected offset n ∨ fvbPos lba offset + n ≤ g.fvbSize := by
  by_contra hno
  simp only [not_or] at hno
  obtain ⟨h0, hrej, hpos⟩ := hno
  classical
  -- two memories that differ everywhere outside the shadow
  have hb := (h fun _ => 0).2 (by rw [fvbRead_accepted hrej]; rfl)
  have heq := hb.2 (fun i => if i ∈ g.region then 0 else 1)
    fun i hi => (if_pos hi).symm
  rw [fvbRead_accepted hrej, fvbRead_accepted hrej, Prod.mk.injEq] at heq
  have hlast := List.map_inj_left.1 heq.2 (n - 1) (List.mem_range.2 (by omega))
  apply hpos
  refine pos_le_of_last_mem (by omega) (le_of_not_fvbReadRejected hrej) ?_
  by_contra hout
  simp only [if_neg hout] at hlast
  exact absurd hlast (by decide)

end Read

section Write

variable {g : FvbGeometry} {nor : SpiNor} {spi : Bool} {lba offset n : ℕ}

theorem fvbWriteChip_frame (E : NorEnv) {s : FvbState} (hj : s.chip.job = .idle)
    (h : n = 0 ∨ FvbInRegion g lba offset n) (buffer : Cells UInt8) :
    SameOutside s.chip.cells (fvbWriteChip g E nor s lba offset n buffer).cells g.medium := by
  unfold fvbWriteChip
  split_ifs
  · refine (halSnorProgData_frame E nor hj _ buffer _).1.mono ?_
    rcases h with rfl | ⟨hblock, hpos⟩
    · simp [toUint32]
    · rcases Nat.eq_zero_or_pos n with rfl | hn
      · simp [toUint32]
      · have hm := g.medium_fits
        simp only [fvbBlockSize] at hblock
        rw [fvbMediumAddr_of_pos (by omega), toUint32_of_lt (by omega), toUint32_of_lt (by omega)]
        exact Set.Ico_subset_Ico (by omega) (by omega)
  · exact SameOutside.refl

theorem copyMem_frame {ram b : Cells UInt8} (h : n = 0 ∨ FvbInRegion g lba offset n) :
    SameOutside ram (copyMem ram (fvbShadowAddr g lba offset) n b) g.region := by
  rcases Nat.eq_zero_or_pos n with rfl | hn
  · rw [copyMem_zero]
    exact SameOutside.refl
  · rcases h with h0 | ⟨-, hpos⟩
    · omega
    · rw [copyMem_of_pos hn hpos]
      refine SameOutside.modify.mono ?_
      exact Set.Ico_subset_Ico (by omega) (by omega)

theorem fvbWriteConfined_of_inRegion (h : n = 0 ∨ fvbWriteRejected g nor spi lba offset n
    ∨ FvbInRegion g lba offset n) : FvbWriteConfined g nor spi lba offset n := by
  rintro E s buffer rfl hj
  by_cases hrej : fvbWriteRejected g nor s.dev.isSpiFlashAvailable lba offset n
  · rw [fvbWrite_rejected hrej]
    exact ⟨fun _ => rfl, fun he => by simp at he⟩
  · have h' : n = 0 ∨ FvbInRegion g lba offset n := by tauto
    rw [fvbWrite_accepted hrej]
    refine ⟨fun he => by simp at he, fun _ => ⟨fun h0 => ?_, copyMem_frame h',
      fvbWriteChip_frame E hj h' buffer⟩⟩
    rcases h' with h'' | h''
    · exact absurd h'' h0
    · exact h''.1

theorem inRegion_of_fvbWriteConfined (h : FvbWriteConfined g nor spi lba offset n) :
    n = 0 ∨ fvbWriteRejected g nor spi lba offset n ∨ FvbInRegion g lba offset n := by
  by_contra hno
  simp only [not_or] at hno
  obtain ⟨h0, hrej, hpos⟩ := hno
  -- ones written over a memory of zeros
  obtain ⟨-, hsucc⟩ := h NorEnv.healthy (FvbState.zeros spi) (fun _ => 1) rfl rfl
  rw [fvbWrite_accepted hrej] at hsucc
  obtain ⟨hblock, hram, -⟩ := hsucc efiError_success
  have hn : 0 < n := by omega
  refine hpos ⟨hblock h0, pos_le_of_last_mem hn (hblock h0) ?_⟩
  by_contra hout
  have hlast := hram _ hout
  have hlt := fvbShadowAddr_lt (g := g) lba offset
  have hle := hblock h0
  have hmem : (fvbShadowAddr g lba offset + (n - 1)) % uintn < uintn
      ∧ ringOffset uintn (fvbShadowAddr g lba offset)
        ((fvbShadowAddr g lba offset + (n - 1)) % uintn) < n := by
    simp only [ringOffset, fvbBlockSize, uintn] at hlt hle ⊢
    omega
  have hone : (1 : UInt8) = 0 := (if_pos hmem).symm.trans hlast
  exact absurd hone (by decide)

end Write

/-- A read or a write is confined exactly when it names no byte, is turned down, or names bytes of
the region. -/
theorem fvb_confined_iff (g : FvbGeometry) (nor : SpiNor) (spi : Bool) (lba offset n : ℕ) :
    (FvbReadConfined g lba offset n ↔
        n = 0 ∨ fvbReadRejected offset n ∨ fvbPos lba offset + n ≤ g.fvbSize)
      ∧ (FvbWriteConfined g nor spi lba offset n ↔
        n = 0 ∨ fvbWriteRejected g nor spi lba offset n ∨ FvbInRegion g lba offset n) :=
  ⟨⟨inRegion_of_fvbReadConfined, fvbReadConfined_of_inRegion⟩,
    ⟨inRegion_of_fvbWriteConfined, fvbWriteConfined_of_inRegion⟩⟩

/-- A read of one byte of block 48, the first past the shadow, succeeds, and so does a write. -/
theorem fvb_not_confined :
    ¬ FvbReadConfined cm5ioGeometry 48 0 1
      ∧ ∀ nor, ¬ FvbWriteConfined cm5ioGeometry nor false 48 0 1 := by
  refine ⟨fun h => ?_, fun nor h => ?_⟩
  · have hr := inRegion_of_fvbReadConfined h
    simp [fvbReadRejected, fvbPos, cm5ioGeometry, rk3576Geometry, FvbGeometry.fvbSize,
      fvbBlockSize, uintn] at hr
  · have hw := inRegion_of_fvbWriteConfined h
    simp [fvbWriteRejected, FvbInRegion, fvbPos, cm5ioGeometry, rk3576Geometry,
      FvbGeometry.fvbSize, fvbBlockSize, uintn] at hw

end Edk2Rk3576
