import Edk2Rk3576.RkFvb.DiskDump
import Edk2Rk3576.RkFvb.Header

/-!
# From one boot to the next

A boot clears the shadow, loads it from the NOR flash where the region is kept there, and prepares
the headers: it keeps a region whose headers validate and formats any other. So what a boot
serves first is what the boots before it left on the NOR, if that validates.

Only the chip and the disks carry over; memory starts with any content. The calls that allocate
the shadow and install protocols are taken to succeed.
-/

namespace Edk2Rk3576

open Cells

/-- The region is on the chip, at a sector. -/
structure FvbGeometry.OnChip (g : FvbGeometry) (nor : SpiNor) : Prop where
  fits : g.fvbOffset + g.fvbSize ≤ nor.size
  aligned : g.fvbOffset % nor.sectorSize = 0

structure FvbBoot where
  /-- What memory holds when the driver starts. -/
  ram : Cells UInt8
  /-- The flash protocol is there and reports a size. -/
  spiFlash : Bool
  /-- Booted from SPI NOR, or `PcdNvStoragePreferSpiFlash`. -/
  keepOnSpi : Bool
  /-- The boot mode is `BOOT_WITH_DEFAULT_SETTINGS`. -/
  defaultSettings : Bool

/-- A chip powers up with no job and no write enable. -/
def NorChip.reset (c : NorChip) : NorChip := { c with writeEnabled := false, job := .idle }

section Boot

variable (g : FvbGeometry) (E : NorEnv) (nor : SpiNor)

/-- `FvbConfigureFlashInstance`, up to the headers. -/
def fvbLoadShadow (c : NorChip) (disks : ℕ → Cells UInt8) (b : FvbBoot) : FvbState :=
  let dev := ⟨b.spiFlash && b.keepOnSpi, false, none, 0, false⟩
  let zeroed := setMem b.ram g.regionBaseAddress g.fvbSize 0
  if b.spiFlash && b.keepOnSpi then
    let (status, buffer, c) := norRead E nor c.reset (toUint32 g.fvbOffset)
      (fun k => zeroed (g.regionBaseAddress + k)) (toUint32 g.fvbSize)
    let ram :=
      if efiError status then zeroed else copyMem zeroed g.regionBaseAddress g.fvbSize buffer
    ⟨dev, ram, c, disks⟩
  else ⟨dev, zeroed, c.reset, disks⟩

/-- `FvbConfigureFlashInstance`. -/
def fvbConfigureFlashInstance (c : NorChip) (disks : ℕ → Cells UInt8) (b : FvbBoot) :
    Option (EfiStatus × FvbState) :=
  fvbPrepareFvHeader g E nor (fvbLoadShadow g E nor c disks b) b.defaultSettings

/-- A boot with the operations until its reset, on the media. -/
def fvbBootOnce (media : NorChip × (ℕ → Cells UInt8)) (b : FvbBoot × List FvbDiskOp) :
    NorChip × (ℕ → Cells UInt8) :=
  match fvbConfigureFlashInstance g E nor media.1 media.2 b.1 with
  | none => ((fvbLoadShadow g E nor media.1 media.2 b.1).chip, media.2)
  | some (status, s) =>
    let s := if efiError status then s else b.2.foldl (fun s op => op.exec g E nor s) s
    (s.chip, s.disks)

variable {g E nor}

section Load

theorem fvbLoadShadow_spi (c : NorChip) (disks : ℕ → Cells UInt8) {b : FvbBoot} (hE : E.Healthy)
    (hareas : fvbAreasHaveBlocks g) (hfits : g.fvbOffset + g.fvbSize ≤ nor.size)
    (hspi : b.spiFlash = true) (hkeep : b.keepOnSpi = true) :
    FvbInSync g (fvbLoadShadow g E nor c disks b) ∅
      ∧ (fvbLoadShadow g E nor c disks b).chip.cells = c.cells
      ∧ (fvbLoadShadow g E nor c disks b).dev.isFvbHeaderValid = false := by
  have hm := g.medium_fits
  have hsize := nor.size_le
  have hle : 4096 ≤ g.fvbSize := hareas.1.trans (by simp only [FvbGeometry.fvbSize]; omega)
  have hout : ¬ nor.outside g.fvbOffset g.fvbSize := by
    unfold SpiNor.outside
    rw [toUint32_of_lt (by omega)]
    omega
  unfold fvbLoadShadow
  simp only [hspi, hkeep, Bool.and_self, if_true, toUint32_of_lt (show g.fvbOffset < 2 ^ 32 by omega),
    toUint32_of_lt (show g.fvbSize < 2 ^ 32 by omega)]
  set dst : Cells UInt8 := fun k =>
    setMem b.ram g.regionBaseAddress g.fvbSize 0 (g.regionBaseAddress + k) with hdst
  obtain ⟨h1, h2, h3, h4⟩ := norRead_ok E nor hE.readXfer (c := c.reset) hout dst
  refine ⟨⟨rfl, h4, fun k hk _ => ?_⟩, h3, trivial⟩
  rw [h1, efiError_of_lt (by omega), h2, h3]
  simp only [Bool.false_eq_true, if_false]
  rw [copyMem, rmodify_eq_modify (show g.regionBaseAddress + g.fvbSize ≤ uintn from g.region_fits),
    modify_add hk]
  have hbuf : dst.write 0 g.fvbSize (fun k => c.reset.cells (g.fvbOffset + k)) (0 + k)
      = c.reset.cells (g.fvbOffset + k) := write_add hk
  rw [Nat.zero_add] at hbuf
  exact hbuf.symm

end Load

section Prepare

theorem fvbPrepareFvHeader_valid {s : FvbState} (h : fvbValidateFvHeader g s.ram = some efiSuccess) :
    fvbPrepareFvHeader g E nor s false
      = some (efiSuccess, { s with dev := { s.dev with isFvbHeaderValid := true } }) := by
  unfold fvbPrepareFvHeader
  simp only [Bool.false_eq_true, if_false, h, efiError_success]

/-- Headers that do not validate are formatted over, if the erase and the write succeed. -/
theorem fvbPrepareFvHeader_invalid (hg : g.Formattable) {s : FvbState}
    (hvalid : s.dev.isFvbHeaderValid = false) {err : EfiStatus} (herr : efiError err = true)
    (h : fvbValidateFvHeader g s.ram = some err)
    (he : (fvbEraseEach g E nor s (List.range' 0 (g.fvbSize / fvbBlockSize))).1 = efiSuccess)
    (hw : ¬ fvbWriteRejected g nor
      (fvbEraseEach g E nor s (List.range' 0 (g.fvbSize / fvbBlockSize))).2.dev.isSpiFlashAvailable
      0 0 fvbHeadersLength) :
    ∃ s', s' = (fvbWrite g E nor
          (fvbEraseEach g E nor s (List.range' 0 (g.fvbSize / fvbBlockSize))).2 0 0
          fvbHeadersLength (bufferCells (fvbHeaders g))).2
      ∧ fvbPrepareFvHeader g E nor s false = some (efiSuccess, s')
      ∧ ∀ k < g.fvbSize, s'.ram (g.regionBaseAddress + k)
        = fvbFormatted g (fun k => s.ram (g.regionBaseAddress + k)) k := by
  obtain ⟨s', hs', ⟨h1, h2⟩, h3⟩ := fvbFormat_ram hg hvalid he hw
  refine ⟨s', hs', ?_, h3⟩
  have hsame : { s with dev := { s.dev with isFvbHeaderValid := false } } = s := by
    rw [← hvalid]
  unfold fvbPrepareFvHeader
  simp only [Bool.false_eq_true, if_false, h, herr, if_true]
  rw [hsame, h1, h2]
  simp

end Prepare

section Healthy

theorem norErase_healthy (hE : E.Healthy) (hchip : g.OnChip nor) {lba : ℕ}
    (hfit : FvbBlockFits g lba) (c : NorChip) :
    (norErase E nor c (toUint32 (fvbMediumAddr g lba 0)) fvbBlockSize).1 = efiSuccess := by
  have hm := g.medium_fits
  have hpos := hfit.pos
  have hfits := hchip.fits
  have haligned := hchip.aligned
  unfold FvbBlockFits at hfit
  simp only [fvbBlockSize, SpiNor.sectorSize] at hfit hpos haligned
  rw [fvbMediumAddr_of_pos (by omega), hpos, toUint32_of_lt (by omega), norErase,
    if_neg (by simp only [SpiNor.sectorSize, fvbBlockSize]; omega)]
  exact hE.eraseLoop nor _ _ _ _ (by simp only [fvbBlockSize]; omega)

/-- Erasing blocks of a healthy chip succeeds and keeps the copies in step. -/
theorem fvbEraseEach_healthy (hE : E.Healthy) (hchip : g.OnChip nor) :
    ∀ (lbas : List ℕ) {s : FvbState}, FvbInSync g s ∅ → (∀ lba ∈ lbas, FvbBlockFits g lba) →
      (fvbEraseEach g E nor s lbas).1 = efiSuccess
        ∧ FvbInSync g (fvbEraseEach g E nor s lbas).2 ∅
  | [], _, h, _ => ⟨rfl, h⟩
  | lba :: lbas, s, h, hfits => by
    have hsync := fvbEraseBlock_inSync E nor h (hfits lba List.mem_cons_self)
    have hst : (fvbEraseBlock g E nor s lba).1 = efiSuccess := by
      rcases fvbEraseBlock_cases g E nor s lba with ⟨-, -, hne, -⟩ | ⟨hst, -⟩
      · rw [norErase_healthy hE hchip (hfits lba List.mem_cons_self)] at hne
        simp at hne
      · exact hst
    have hen : fvbEraseEnabled g E nor s lba := hE.eraseEnabled nor _ _ _ _
    unfold fvbEraseEach
    rw [if_neg (by rw [hst]; simp)]
    rw [if_neg (by rw [hst]; simp), if_pos hen, Set.empty_sdiff] at hsync
    exact fvbEraseEach_healthy hE hchip lbas hsync fun l hl => hfits l (List.mem_cons_of_mem lba hl)

/-- Formatting a region whose headers do not validate, on a healthy chip. -/
theorem fvbPrepareFvHeader_format (hE : E.Healthy) (hg : g.Formattable) (hchip : g.OnChip nor)
    {s : FvbState} (hsync : FvbInSync g s ∅) (hvalid : s.dev.isFvbHeaderValid = false)
    {err : EfiStatus} (herr : efiError err = true) (h : fvbValidateFvHeader g s.ram = some err) :
    ∃ s', fvbPrepareFvHeader g E nor s false = some (efiSuccess, s') ∧ FvbMirrored g s'
      ∧ ∀ k < g.fvbSize, s'.ram (g.regionBaseAddress + k)
        = fvbFormatted g (fun k => s.ram (g.regionBaseAddress + k)) k := by
  have hm := g.medium_fits
  have hsize := nor.size_le
  have hfits := hchip.fits
  have hle : 4096 ≤ g.fvbSize := hg.blocks.1
  obtain ⟨he, hsync'⟩ := fvbEraseEach_healthy hE hchip _ hsync (fits_all (g := g))
  have hpos : fvbPos 0 0 = 0 := by decide
  have hw : ¬ fvbWriteRejected g nor
      (fvbEraseEach g E nor s (List.range' 0 (g.fvbSize / fvbBlockSize))).2.dev.isSpiFlashAvailable
      0 0 fvbHeadersLength := by
    rintro ⟨-, hout⟩
    rw [fvbMediumAddr_of_pos (by rw [hpos]; omega), hpos, toUint32_of_lt (by omega),
      toUint32_of_lt (by decide)] at hout
    unfold SpiNor.outside at hout
    rw [toUint32_of_lt (by simp only [fvbHeadersLength, fvhSize, variableStoreHeaderSize]; omega)]
      at hout
    simp only [fvbHeadersLength, fvhSize, variableStoreHeaderSize] at hout
    omega
  obtain ⟨s', hs', hprep, hram⟩ := fvbPrepareFvHeader_invalid hg hvalid herr h he hw
  refine ⟨s', hprep, ?_, hram⟩
  have hwrite : FvbInSync g (fvbWrite g E nor
      (fvbEraseEach g E nor s (List.range' 0 (g.fvbSize / fvbBlockSize))).2 0 0 fvbHeadersLength
      (bufferCells (fvbHeaders g))).2 ∅ := by
    refine fvbWrite_inSync_of_completes hsync' (by decide) ?_ hw (hE.progCompletes nor _ _ _ _ _)
      fun k hk => ?_
    · rw [hpos]
      simp only [fvbHeadersLength, fvhSize, variableStoreHeaderSize]
      omega
    · -- the erase has set every bit
      rw [hpos, Nat.zero_add, fvbEraseAll_ram he, if_pos]
      · exact UInt8.and_neg_one
      · simp only [fvbHeadersLength, fvhSize, variableStoreHeaderSize, fvbBlockSize] at hk ⊢
        omega
  rw [hs']
  exact fun k hk => hwrite.eq k hk (Set.notMem_empty _)

end Healthy

end Boot

/-- A boot loads what the boots before it left on the NOR, and serves it once it has prepared the
headers, if they validate; otherwise it serves a formatted region, and the NOR holds it too. -/
theorem fvb_persists {g : FvbGeometry} {E : NorEnv} {nor : SpiNor} (hE : E.Healthy)
    (hareas : fvbAreasHaveBlocks g) (hfits : g.fvbOffset + g.fvbSize ≤ nor.size)
    (media : NorChip × (ℕ → Cells UInt8)) (boots : List (FvbBoot × List FvbDiskOp)) (b : FvbBoot)
    (hspi : b.spiFlash = true) (hkeep : b.keepOnSpi = true) (hmode : b.defaultSettings = false) :
    let left := boots.foldl (fvbBootOnce g E nor) media
    let loaded := fvbLoadShadow g E nor left.1 left.2 b
    Mirror left.1.cells g.fvbOffset loaded.ram g.regionBaseAddress g.fvbSize
      ∧ (fvbValidateFvHeader g loaded.ram = some efiSuccess →
        ∃ s', fvbConfigureFlashInstance g E nor left.1 left.2 b = some (efiSuccess, s')
          ∧ Mirror left.1.cells g.fvbOffset s'.ram g.regionBaseAddress g.fvbSize)
      ∧ ∀ err, efiError err = true → fvbValidateFvHeader g loaded.ram = some err →
        g.Formattable → g.OnChip nor →
          ∃ s', fvbConfigureFlashInstance g E nor left.1 left.2 b = some (efiSuccess, s')
            ∧ FvbMirrored g s'
            ∧ ∀ k < g.fvbSize, s'.ram (g.regionBaseAddress + k)
              = fvbFormatted g (fun k => left.1.cells (g.fvbOffset + k)) k := by
  intro left loaded
  obtain ⟨hsync, hcells, hvalid⟩ := fvbLoadShadow_spi left.1 left.2 hE hareas hfits hspi hkeep
  have hload : Mirror left.1.cells g.fvbOffset loaded.ram g.regionBaseAddress g.fvbSize := by
    intro k hk
    rw [← hcells]
    exact hsync.eq k hk (Set.notMem_empty _)
  unfold fvbConfigureFlashInstance
  rw [hmode]
  refine ⟨hload, fun hok => ⟨_, fvbPrepareFvHeader_valid hok, hload⟩, ?_⟩
  intro err herr hbad hg hchip
  obtain ⟨s', hprep, hmirror, hram⟩ :=
    fvbPrepareFvHeader_format hE hg hchip hsync hvalid herr hbad
  refine ⟨s', hprep, hmirror, fun k hk => ?_⟩
  rw [hram k hk]
  unfold fvbFormatted
  simp only [hload k hk, loaded]

/-- A boot with the region on the NOR flash, and one without it. -/
def spiBoot : FvbBoot := ⟨fun _ => 0, true, true, false⟩
def diskBoot : FvbBoot := ⟨fun _ => 0, false, false, false⟩

def blankMedia : NorChip × (ℕ → Cells UInt8) := (⟨fun _ => 0, false, .idle, 0, 0, 0⟩, fun _ _ => 0)

/-- From blank media, a boot serves the formatted region it finds on the NOR. -/
theorem fvb_persists_blank :
    let left := [(spiBoot, [])].foldl (fvbBootOnce rock4dGeometry NorEnv.healthy spiNor16M) blankMedia
    ∃ s', fvbConfigureFlashInstance rock4dGeometry NorEnv.healthy spiNor16M left.1 left.2 spiBoot
        = some (efiSuccess, s')
      ∧ Mirror left.1.cells rock4dGeometry.fvbOffset s'.ram rock4dGeometry.regionBaseAddress
        rock4dGeometry.fvbSize :=
  (fvb_persists NorEnv.healthy_healthy (by decide) (by decide) blankMedia
    [(spiBoot, [])] spiBoot rfl rfl rfl).2.1 (by decide +kernel)

/-- Every boot serves the region that the boots before it left on the medium of its mode. -/
def FvbAlwaysPersists (g : FvbGeometry) (E : NorEnv) (nor : SpiNor) (b : FvbBoot) : Prop :=
  ∀ media (boots : List (FvbBoot × List FvbDiskOp)),
    let left := boots.foldl (fvbBootOnce g E nor) media
    ∃ s', fvbConfigureFlashInstance g E nor left.1 left.2 b = some (efiSuccess, s')
      ∧ Mirror (if b.spiFlash && b.keepOnSpi then left.1.cells else left.2 0) g.fvbOffset
        s'.ram g.regionBaseAddress g.fvbSize

/-- A region whose first block was erased is formatted by the next boot, and a region dumped to a
disk is not read back. -/
theorem fvb_not_alwaysPersists :
    ¬ FvbAlwaysPersists rock4dGeometry NorEnv.healthy spiNor16M spiBoot
      ∧ ¬ FvbAlwaysPersists cm5ioGeometry NorEnv.healthy spiNor16M diskBoot := by
  constructor
  · intro h
    obtain ⟨s', hs', hm⟩ := h blankMedia [(spiBoot, [.block (.erase [(0, 1)])])]
    have hserved : (fvbConfigureFlashInstance rock4dGeometry NorEnv.healthy spiNor16M
        (fvbBootOnce rock4dGeometry NorEnv.healthy spiNor16M blankMedia
          (spiBoot, [.block (.erase [(0, 1)])])).1
        (fvbBootOnce rock4dGeometry NorEnv.healthy spiNor16M blankMedia
          (spiBoot, [.block (.erase [(0, 1)])])).2 spiBoot).any
          (fun x => x.2.ram rock4dGeometry.regionBaseAddress == 0) = true := by decide +kernel
    have hleft : (fvbBootOnce rock4dGeometry NorEnv.healthy spiNor16M blankMedia
        (spiBoot, [.block (.erase [(0, 1)])])).1.cells rock4dGeometry.fvbOffset = 0xFF := by
      decide +kernel
    have hbyte := hleft.symm.trans (hm 0 (by decide))
    simp only [List.foldl_cons, List.foldl_nil] at hs'
    rw [hs', Option.any_some, beq_iff_eq] at hserved
    exact absurd (hbyte.trans hserved) (by decide)
  · intro h
    obtain ⟨s', hs', hm⟩ := h blankMedia [(diskBoot, [.block (.write 0 200 1 fun _ => 0x55),
      .adopt (sdHandle true) sdBootDevice, .dump (sdHandle true).io])]
    have hserved : (fvbConfigureFlashInstance cm5ioGeometry NorEnv.healthy spiNor16M
        (fvbBootOnce cm5ioGeometry NorEnv.healthy spiNor16M blankMedia
          (diskBoot, [.block (.write 0 200 1 fun _ => 0x55),
            .adopt (sdHandle true) sdBootDevice, .dump (sdHandle true).io])).1
        (fvbBootOnce cm5ioGeometry NorEnv.healthy spiNor16M blankMedia
          (diskBoot, [.block (.write 0 200 1 fun _ => 0x55),
            .adopt (sdHandle true) sdBootDevice, .dump (sdHandle true).io])).2 diskBoot).any
          (fun x => x.2.ram (cm5ioGeometry.regionBaseAddress + 200) == 0xFF) = true := by
      decide +kernel
    have hleft : (fvbBootOnce cm5ioGeometry NorEnv.healthy spiNor16M blankMedia
        (diskBoot, [.block (.write 0 200 1 fun _ => 0x55),
          .adopt (sdHandle true) sdBootDevice, .dump (sdHandle true).io])).2 0
          (cm5ioGeometry.fvbOffset + 200) = 0x55 := by decide +kernel
    have hbyte := hleft.symm.trans (hm 200 (by decide))
    simp only [List.foldl_cons, List.foldl_nil] at hs'
    rw [hs', Option.any_some, beq_iff_eq] at hserved
    exact absurd (hbyte.trans hserved) (by decide)

end Edk2Rk3576
