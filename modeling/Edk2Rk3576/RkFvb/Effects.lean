import Edk2Rk3576.NorFlash.Effects
import Edk2Rk3576.RkFvb.Model

/-!
# What the block protocol does to the state

A write either is turned down by the flash driver's range check and changes nothing, or succeeds:
`fvbWrite_rejected` and `fvbWrite_accepted` say which, and with what state. An erase of one block
either fails with the shadow untouched, or fills the block.
-/

namespace Edk2Rk3576

open Cells

variable (g : FvbGeometry)

def FvbGeometry.region : Set ℕ := Set.Ico g.regionBaseAddress (g.regionBaseAddress + g.fvbSize)
def FvbGeometry.medium : Set ℕ := Set.Ico g.fvbOffset (g.fvbOffset + g.fvbSize)

theorem FvbGeometry.region_fits : g.regionBaseAddress + g.fvbSize ≤ 2 ^ 64 := g.region_le

theorem FvbGeometry.medium_fits : g.fvbOffset + g.fvbSize < 2 ^ 32 := g.offset_lt

/-- Where in the shadow, and on the medium, block `lba` and an offset into it start. -/
def fvbShadowAddr (lba offset : ℕ) : ℕ :=
  getDataOffset (g.regionBaseAddress + offset) (fvbStartLba + lba) fvbBlockSize

def fvbMediumAddr (lba offset : ℕ) : ℕ :=
  getDataOffset (g.fvbOffset + offset) (fvbStartLba + lba) fvbBlockSize

variable {g}

theorem fvbShadowAddr_lt (lba offset : ℕ) : fvbShadowAddr g lba offset < uintn :=
  Nat.mod_lt _ (by decide)

/-- The byte of the region a block and an offset stand for, `Lba * BlockSize` wrapping. -/
def fvbPos (lba offset : ℕ) : ℕ := lba * fvbBlockSize % uintn + offset

theorem fvbPos_of_lt {lba offset : ℕ} (h : lba * fvbBlockSize < 2 ^ 64) :
    fvbPos lba offset = lba * fvbBlockSize + offset := by
  rw [fvbPos, uintn, Nat.mod_eq_of_lt h]

theorem fvbShadowAddr_of_pos {lba offset : ℕ} (h : fvbPos lba offset < g.fvbSize) :
    fvbShadowAddr g lba offset = g.regionBaseAddress + fvbPos lba offset := by
  have := g.region_fits
  simp only [fvbPos, fvbShadowAddr, getDataOffset, fvbStartLba, fvbBlockSize, uintn] at h ⊢
  omega

theorem fvbMediumAddr_of_pos {lba offset : ℕ} (h : fvbPos lba offset < g.fvbSize) :
    fvbMediumAddr g lba offset = g.fvbOffset + fvbPos lba offset := by
  have := g.medium_fits
  simp only [fvbPos, fvbMediumAddr, getDataOffset, fvbStartLba, fvbBlockSize, uintn] at h ⊢
  omega

/-- A range of the region is one range of memory. -/
theorem copyMem_of_pos {ram b : Cells UInt8} {lba offset n : ℕ} (hn : 0 < n)
    (h : fvbPos lba offset + n ≤ g.fvbSize) :
    copyMem ram (fvbShadowAddr g lba offset) n b
      = ram.modify (g.regionBaseAddress + fvbPos lba offset) n fun k _ => b k := by
  have := g.region_fits
  rw [copyMem, fvbShadowAddr_of_pos (by omega), rmodify_eq_modify (by simp only [uintn]; omega)]

theorem setMem_of_pos {ram : Cells UInt8} {lba n : ℕ} {v : UInt8} (hn : 0 < n)
    (h : fvbPos lba 0 + n ≤ g.fvbSize) :
    setMem ram (fvbShadowAddr g lba 0) n v
      = ram.fill (g.regionBaseAddress + fvbPos lba 0) n v := by
  have := g.region_fits
  rw [setMem, fvbShadowAddr_of_pos (by omega), rmodify_eq_modify (by simp only [uintn]; omega)]
  rfl

theorem copyMem_zero {ram b : Cells UInt8} {a : ℕ} : copyMem ram a 0 b = ram := by
  funext i
  simp [copyMem, rmodify]

section Write

variable {E : NorEnv} {nor : SpiNor} {s : FvbState} {lba offset n : ℕ} {buffer : Cells UInt8}

/-- The flash driver turns the write down. -/
def fvbWriteRejected (g : FvbGeometry) (nor : SpiNor) (spi : Bool) (lba offset n : ℕ) : Prop :=
  spi = true ∧ nor.outside (toUint32 (fvbMediumAddr g lba offset)) (toUint32 n)

theorem fvbWrite_rejected
    (h : fvbWriteRejected g nor s.dev.isSpiFlashAvailable lba offset n) :
    fvbWrite g E nor s lba offset n buffer = (efiDeviceError, s) := by
  obtain ⟨hspi, hout⟩ := h
  have hw : norWrite E nor s.chip (toUint32 (fvbMediumAddr g lba offset)) buffer (toUint32 n)
      = (efiDeviceError, s.chip) := halSnorProgData_outside E nor hout buffer
  simp only [fvbMediumAddr] at hw
  simp only [fvbWrite, hspi, if_true, hw, efiError_deviceError]

/-- What a write that is not turned down leaves on the chip. -/
def fvbWriteChip (g : FvbGeometry) (E : NorEnv) (nor : SpiNor) (s : FvbState) (lba offset n : ℕ)
    (buffer : Cells UInt8) : NorChip :=
  if s.dev.isSpiFlashAvailable then
    (norWrite E nor s.chip (toUint32 (fvbMediumAddr g lba offset)) buffer (toUint32 n)).2
  else s.chip

theorem fvbWrite_accepted
    (h : ¬ fvbWriteRejected g nor s.dev.isSpiFlashAvailable lba offset n) :
    fvbWrite g E nor s lba offset n buffer =
      (efiSuccess,
        { s with
          chip := fvbWriteChip g E nor s lba offset n buffer
          ram := copyMem s.ram (fvbShadowAddr g lba offset) n buffer
          dev := { s.dev with diskDataInvalidated := true } }) := by
  rcases hspi : s.dev.isSpiFlashAvailable with _ | _
  · simp only [fvbWrite, fvbWriteChip, hspi, Bool.false_eq_true, if_false]
    rw [efiError_success]
    rfl
  · have hst : efiError (norWrite E nor s.chip
        (toUint32 (fvbMediumAddr g lba offset)) buffer (toUint32 n)).1 = false := by
      rw [Bool.eq_false_iff]
      intro he
      exact h ⟨hspi, (halSnorProgData_status E nor (Nat.mod_lt _ (by decide)) buffer).1 he⟩
    simp only [fvbMediumAddr] at hst
    simp only [fvbWrite, fvbWriteChip, fvbMediumAddr, fvbShadowAddr, hspi, if_true, hst,
      Bool.false_eq_true, if_false]

end Write

section Erase

variable (g) (E : NorEnv) (nor : SpiNor) (s : FvbState)

/-- Erasing a block fails with the shadow untouched, or succeeds with the block filled. -/
theorem fvbEraseBlock_cases (lba : ℕ) :
    (fvbEraseBlock g E nor s lba).1 = efiDeviceError
        ∧ s.dev.isSpiFlashAvailable = true
        ∧ efiError (norErase E nor s.chip (toUint32 (fvbMediumAddr g lba 0)) fvbBlockSize).1 = true
        ∧ (fvbEraseBlock g E nor s lba).2 = { s with
          chip := (norErase E nor s.chip (toUint32 (fvbMediumAddr g lba 0)) fvbBlockSize).2 }
      ∨ (fvbEraseBlock g E nor s lba).1 = efiSuccess
        ∧ ∃ chip, (fvbEraseBlock g E nor s lba).2 = { s with
            chip := chip
            ram := setMem s.ram (fvbShadowAddr g lba 0) fvbBlockSize 0xFF
            dev := { s.dev with diskDataInvalidated := true } }
          ∧ (s.dev.isSpiFlashAvailable = false → chip = s.chip)
          ∧ (s.dev.isSpiFlashAvailable = true →
            chip = (norErase E nor s.chip (toUint32 (fvbMediumAddr g lba 0)) fvbBlockSize).2
              ∧ efiError (norErase E nor s.chip (toUint32 (fvbMediumAddr g lba 0))
                fvbBlockSize).1 = false) := by
  simp only [fvbMediumAddr, fvbShadowAddr, Nat.add_zero]
  rcases hspi : s.dev.isSpiFlashAvailable with _ | _
  · refine Or.inr ?_
    simp only [fvbEraseBlock, hspi, Bool.false_eq_true, if_false, efiError_success]
    exact ⟨trivial, s.chip, rfl, fun _ => rfl, fun h => absurd h id⟩
  · rcases he : efiError (norErase E nor s.chip
        (toUint32 (getDataOffset g.fvbOffset (fvbStartLba + lba) fvbBlockSize)) fvbBlockSize).1
        with _ | _
    · refine Or.inr ?_
      simp only [fvbEraseBlock, hspi, if_true, he, Bool.false_eq_true, if_false]
      exact ⟨trivial, _, rfl, fun h => absurd h (by decide), fun _ => ⟨rfl, trivial⟩⟩
    · refine Or.inl ?_
      simp only [fvbEraseBlock, hspi, if_true, he]
      refine ⟨trivial, ?_⟩
      trivial

end Erase

end Edk2Rk3576
