import Edk2Rk3576.RkFvb.WriteThrough

/-!
# The headers of the volume

The region starts with a firmware volume header and, where its `HeaderLength` says, the header of
the variable store. `fvbValidateFvHeader` reads them from the shadow, `fvbHeaders` are the bytes
that `FvbInitFvAndVariableStoreHeaders` writes, and `fvbPrepareFvHeader` formats the region when
they do not validate.

An assertion that fails stops the boot: these functions are then `none`.
-/

namespace Edk2Rk3576

open Cells

-- offsets of the fields of `EFI_FIRMWARE_VOLUME_HEADER`
def fvhFileSystemGuid : ℕ := 16
def fvhFvLength : ℕ := 32
def fvhSignature : ℕ := 40
def fvhHeaderLength : ℕ := 48
def fvhRevision : ℕ := 55

/-- The header, with the second entry of its block map. -/
def fvhSize : ℕ := 72

-- and of `VARIABLE_STORE_HEADER`
def vshSize : ℕ := 16
def variableStoreHeaderSize : ℕ := 28

def efiFvhSignature : ℕ := 0x4856465F
def efiFvhRevision : ℕ := 2
def variableStoreFormatted : ℕ := 0x5A
def variableStoreHealthy : ℕ := 0xFE

-- GUIDs, as the number their bytes spell
def gEfiSystemNvDataFvGuid : ℕ := 0x504F5B07472785A94C8B7696FFF12B8D
def gEfiAuthenticatedVariableGuid : ℕ := 0x9277C34E142E80A1439A947BAAF32C78
def gEfiVariableGuid : ℕ := 0x7DFE7F7085FEB69841643275DDCF3616

/-- Readable and writable, sticky write, erase polarity one, memory mapped. -/
def fvbFeatureAttributes : ℕ := 0x2 ||| 0x4 ||| 0x200 ||| 0x800 ||| 0x20 ||| 0x10 ||| 0x400

/-- `CalculateSum16` over this many words. -/
def calculateSum16 (m : Cells UInt8) (a : ℕ) : (words : ℕ) → ℕ
  | 0 => 0
  | words + 1 => (m.le a 2 + calculateSum16 m (a + 2) words) % 2 ^ 16

/-- The bytes of a buffer, as memory from address zero. -/
def bufferCells (l : List UInt8) : Cells UInt8 := fun k => l.getD k 0

section Header

variable (g : FvbGeometry)

/-- `VariableStoreLength`, in `UINT32` arithmetic. -/
def fvbVariableStoreLength (headerLength : ℕ) : ℕ :=
  (g.variableSize + 2 ^ 32 - headerLength) % 2 ^ 32

/-- `FvbValidateFvHeader`. `CalculateSum16` asserts that the length it is given is even. -/
def fvbValidateFvHeader (ram : Cells UInt8) : Option EfiStatus :=
  let fwVolHeader := g.regionBaseAddress
  let headerLength := ram.le (fwVolHeader + fvhHeaderLength) 2
  let variableStoreHeader := fwVolHeader + headerLength
  if ram.le (fwVolHeader + fvhRevision) 1 ≠ efiFvhRevision
      ∨ ram.le (fwVolHeader + fvhSignature) 4 ≠ efiFvhSignature
      ∨ ram.le (fwVolHeader + fvhFvLength) 8 ≠ g.fvbSize then some efiNotFound
  else if ram.le (fwVolHeader + fvhFileSystemGuid) 16 ≠ gEfiSystemNvDataFvGuid then
    some efiNotFound
  else if headerLength % 2 ≠ 0 then none
  else if calculateSum16 ram fwVolHeader (headerLength / 2) ≠ 0 then some efiNotFound
  else if ram.le variableStoreHeader 16 ≠ gEfiVariableGuid
      ∧ ram.le variableStoreHeader 16 ≠ gEfiAuthenticatedVariableGuid then some efiNotFound
  else if ram.le (variableStoreHeader + vshSize) 4 ≠ fvbVariableStoreLength g headerLength then
    some efiNotFound
  else some efiSuccess

def fvbVolumeHeader (checksum : ℕ) : List UInt8 :=
  leBytes 0 16 ++ leBytes gEfiSystemNvDataFvGuid 16 ++ leBytes g.fvbSize 8
    ++ leBytes efiFvhSignature 4 ++ leBytes fvbFeatureAttributes 4 ++ leBytes fvhSize 2
    ++ leBytes checksum 2 ++ leBytes 0 3 ++ leBytes efiFvhRevision 1
    ++ leBytes (fvbLastBlock + 1) 4 ++ leBytes fvbBlockSize 4 ++ leBytes 0 8

/-- `CalculateCheckSum16` of the header, its own field still zero. -/
def fvbHeaderChecksum : ℕ :=
  (2 ^ 16 - calculateSum16 (bufferCells (fvbVolumeHeader g 0)) 0 (fvhSize / 2)) % 2 ^ 16

def fvbStoreHeader : List UInt8 :=
  leBytes gEfiAuthenticatedVariableGuid 16 ++ leBytes (fvbVariableStoreLength g fvhSize) 4
    ++ leBytes variableStoreFormatted 1 ++ leBytes variableStoreHealthy 1 ++ leBytes 0 6

def fvbHeaders : List UInt8 := fvbVolumeHeader g (fvbHeaderChecksum g) ++ fvbStoreHeader g

def fvbHeadersLength : ℕ := fvhSize + variableStoreHeaderSize

/-- Each of the three areas has a block, as the code asserts. -/
def fvbAreasHaveBlocks : Prop :=
  fvbBlockSize ≤ g.variableSize ∧ fvbBlockSize ≤ g.ftwWorkingSize ∧ fvbBlockSize ≤ g.ftwSpareSize

instance : Decidable (fvbAreasHaveBlocks g) := by
  unfold fvbAreasHaveBlocks
  infer_instance

variable (E : NorEnv) (nor : SpiNor)

/-- `FvbInitFvAndVariableStoreHeaders`. -/
def fvbInitFvAndVariableStoreHeaders (s : FvbState) : Option (EfiStatus × FvbState) :=
  if fvbAreasHaveBlocks g then
    some (fvbWrite g E nor s 0 0 fvbHeadersLength (bufferCells (fvbHeaders g)))
  else none

/-- `FvbPrepareFvHeader`. -/
def fvbPrepareFvHeader (s : FvbState) (defaultSettings : Bool) : Option (EfiStatus × FvbState) :=
  let status :=
    if defaultSettings then some efiInvalidParameter else fvbValidateFvHeader g s.ram
  match status with
  | none => none
  | some status =>
    if efiError status then
      let s := { s with dev := { s.dev with isFvbHeaderValid := false } }
      let (status, s) := fvbEraseBlocks g E nor s [(0, g.fvbSize / fvbBlockSize)]
      if efiError status then some (status, s) else fvbInitFvAndVariableStoreHeaders g E nor s
    else some (efiSuccess, { s with dev := { s.dev with isFvbHeaderValid := true } })

end Header

section Lemmas

variable {g : FvbGeometry} {E : NorEnv} {nor : SpiNor}

/-- What a freshly formatted region holds, where `old` is what it held: the headers, then erased
blocks. -/
def fvbFormatted (g : FvbGeometry) (old : Cells UInt8) : Cells UInt8 := fun k =>
  if k < fvbHeadersLength then bufferCells (fvbHeaders g) k
  else if k < g.fvbSize / fvbBlockSize * fvbBlockSize then 0xFF
  else old k

/-- The volume is one the driver can format: its areas have blocks, and the instance template has
as many. -/
structure FvbGeometry.Formattable (g : FvbGeometry) : Prop where
  areas : fvbAreasHaveBlocks g
  template : g.fvbSize ≤ fvbTemplateSize

theorem FvbGeometry.Formattable.blocks (hg : g.Formattable) :
    fvbBlockSize ≤ g.fvbSize ∧ 0 < g.fvbSize / fvbBlockSize
      ∧ g.fvbSize / fvbBlockSize ≤ fvbLastBlock + 1 := by
  obtain ⟨⟨h1, -, -⟩, h2⟩ := hg
  have hle : fvbBlockSize ≤ g.fvbSize := by
    simp only [FvbGeometry.fvbSize]
    omega
  refine ⟨hle, Nat.div_pos hle (by decide), ?_⟩
  simp only [fvbTemplateSize, fvbLastBlock, fvbBlockSize] at h2 ⊢
  omega

theorem fvbEraseLbas_all :
    fvbEraseLbas [(0, g.fvbSize / fvbBlockSize)] = List.range' 0 (g.fvbSize / fvbBlockSize) := by
  have hm := g.medium_fits
  have hsmall : toUint32 (g.fvbSize / fvbBlockSize) = g.fvbSize / fvbBlockSize :=
    toUint32_of_lt ((Nat.div_le_self _ _).trans_lt (by omega))
  simp [fvbEraseLbas, fvbErasePairs, efiLbaListTerminator, hsmall]

theorem fvbEraseAll_valid (hg : g.Formattable) :
    ¬ ∃ p ∈ fvbErasePairs [(0, g.fvbSize / fvbBlockSize)], fvbPairRejected p := by
  have hm := g.medium_fits
  obtain ⟨-, h0, h1⟩ := hg.blocks
  have hsmall : toUint32 (g.fvbSize / fvbBlockSize) = g.fvbSize / fvbBlockSize :=
    toUint32_of_lt ((Nat.div_le_self _ _).trans_lt (by omega))
  rintro ⟨p, hp, hrej⟩
  obtain rfl : p = (0, g.fvbSize / fvbBlockSize) := by
    simpa [fvbErasePairs, efiLbaListTerminator] using hp
  unfold fvbPairRejected at hrej
  rw [hsmall] at hrej
  simp only [fvbStartLba, uintn, fvbLastBlock, fvbTemplateSize, fvbBlockSize] at hrej h0 h1
  omega

theorem fits_all : ∀ lba ∈ List.range' 0 (g.fvbSize / fvbBlockSize), FvbBlockFits g lba := by
  intro lba hl
  rw [List.mem_range'_1] at hl
  unfold FvbBlockFits
  simp only [fvbBlockSize] at hl ⊢
  omega

/-- The erase of the whole region, when it succeeds, fills its blocks. -/
theorem fvbEraseAll_ram {s : FvbState}
    (he : (fvbEraseEach g E nor s (List.range' 0 (g.fvbSize / fvbBlockSize))).1 = efiSuccess)
    (k : ℕ) :
    (fvbEraseEach g E nor s (List.range' 0 (g.fvbSize / fvbBlockSize))).2.ram
        (g.regionBaseAddress + k)
      = if k < g.fvbSize / fvbBlockSize * fvbBlockSize then 0xFF
        else s.ram (g.regionBaseAddress + k) := by
  obtain ⟨done, -, hin, hout, ⟨-, rfl⟩ | herr⟩ := fvbEraseEach_ram E nor
    (List.range' 0 (g.fvbSize / fvbBlockSize)) s fits_all
  · split_ifs with h
    · refine hin _ ⟨k / fvbBlockSize, ?_, ?_, ?_⟩
      · rw [List.mem_range'_1]
        simp only [fvbBlockSize] at h ⊢
        omega
      · simp only [fvbBlockSize]
        omega
      · simp only [fvbBlockSize]
        omega
    · refine hout _ ?_
      rintro ⟨lba, hl, hlo, hhi⟩
      rw [List.mem_range'_1] at hl
      simp only [fvbBlockSize] at hl h hhi hlo
      omega
  · rw [he] at herr
    exact absurd herr (by decide)

/-- Formatting, once its erase and its write succeed: what the shadow then holds. -/
theorem fvbFormat_ram (hg : g.Formattable) {s : FvbState}
    (hvalid : s.dev.isFvbHeaderValid = false)
    (he : (fvbEraseEach g E nor s (List.range' 0 (g.fvbSize / fvbBlockSize))).1 = efiSuccess)
    (hw : ¬ fvbWriteRejected g nor
      (fvbEraseEach g E nor s (List.range' 0 (g.fvbSize / fvbBlockSize))).2.dev.isSpiFlashAvailable
      0 0 fvbHeadersLength) :
    ∃ s', s' = (fvbWrite g E nor
          (fvbEraseEach g E nor s (List.range' 0 (g.fvbSize / fvbBlockSize))).2 0 0
          fvbHeadersLength (bufferCells (fvbHeaders g))).2
      ∧ ((fvbEraseBlocks g E nor s [(0, g.fvbSize / fvbBlockSize)]).1 = efiSuccess
        ∧ fvbInitFvAndVariableStoreHeaders g E nor
            (fvbEraseBlocks g E nor s [(0, g.fvbSize / fvbBlockSize)]).2 = some (efiSuccess, s'))
      ∧ ∀ k < g.fvbSize, s'.ram (g.regionBaseAddress + k)
        = fvbFormatted g (fun k => s.ram (g.regionBaseAddress + k)) k := by
  obtain ⟨hle, -, -⟩ := hg.blocks
  have heq : fvbEraseBlocks g E nor s [(0, g.fvbSize / fvbBlockSize)]
      = fvbEraseEach g E nor s (List.range' 0 (g.fvbSize / fvbBlockSize)) := by
    rw [fvbEraseBlocks_of_valid (fun hd => by simp [hd.1] at hvalid) (fvbEraseAll_valid hg),
      fvbEraseLbas_all]
  refine ⟨_, rfl, ⟨by rw [heq, he], ?_⟩, fun k hk => ?_⟩
  · rw [heq, fvbInitFvAndVariableStoreHeaders, if_pos hg.areas, fvbWrite_accepted hw]
  · have hpos : fvbPos 0 0 = 0 := by decide
    rw [fvbWrite_accepted hw]
    simp only []
    rw [copyMem_of_pos (by decide) (by rw [hpos]; exact le_trans (by decide) hle), hpos]
    unfold fvbFormatted
    rw [← fvbEraseAll_ram he k]
    split_ifs with h
    · rw [modify_of_mem (by omega), show g.regionBaseAddress + k - (g.regionBaseAddress + 0) = k
        by omega]
    · rw [modify_of_notMem (by omega)]

end Lemmas

end Edk2Rk3576
