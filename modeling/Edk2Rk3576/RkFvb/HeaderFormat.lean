import Edk2Rk3576.Lib.Checksum
import Edk2Rk3576.Lib.Fields
import Edk2Rk3576.RkFvb.Boot

/-!
# The headers that are written validate

What `FvbInitFvAndVariableStoreHeaders` leaves at the start of the region is what
`FvbValidateFvHeader` asks for, field by field, so preparing the region again leaves it. The block
map takes its number of blocks from the size of the instance template, the length of the volume from
the three areas: they agree exactly if the areas are as large as the template.
-/

namespace Edk2Rk3576

open Cells

section Fields

variable (g : FvbGeometry)

/-- The volume header, its checksum given. -/
def volumeFields (checksum : ℕ) : List (ℕ × ℕ) :=
  [(0, 16), (gEfiSystemNvDataFvGuid, 16), (g.fvbSize, 8), (efiFvhSignature, 4),
    (fvbFeatureAttributes, 4), (fvhSize, 2), (checksum, 2), (0, 3), (efiFvhRevision, 1),
    (fvbLastBlock + 1, 4), (fvbBlockSize, 4), (0, 8)]

def storeFields : List (ℕ × ℕ) :=
  [(gEfiAuthenticatedVariableGuid, 16), (fvbVariableStoreLength g fvhSize, 4),
    (variableStoreFormatted, 1), (variableStoreHealthy, 1), (0, 6)]

theorem fvbVolumeHeader_eq (checksum : ℕ) :
    fvbVolumeHeader g checksum = fieldBytes (volumeFields g checksum) := by
  simp [fvbVolumeHeader, fieldBytes, volumeFields]

theorem fvbHeaders_eq :
    fvbHeaders g = fieldBytes (volumeFields g (fvbHeaderChecksum g) ++ storeFields g) := by
  rw [fvbHeaders, fvbVolumeHeader_eq, fieldBytes_append]
  simp [fvbStoreHeader, fieldBytes, storeFields]

theorem length_fvbHeaders : (fvbHeaders g).length = fvbHeadersLength := by
  rw [fvbHeaders_eq, length_fieldBytes]
  simp [volumeFields, storeFields, fvbHeadersLength, fvhSize, variableStoreHeaderSize]

theorem calculateSum16_eq (m : Cells UInt8) : ∀ words a : ℕ,
    calculateSum16 m a words = sumWords 2 m a words
  | 0, _ => rfl
  | words + 1, a => by
    rw [calculateSum16, sumWords, calculateSum16_eq m words]
    rfl

variable {g} {m : Cells UInt8} {a : ℕ}

/-- A byte of the volume header outside of its checksum is one of the header without. -/
theorem getD_fvbHeaders {k : ℕ} (hk : k < fvhSize) (hout : ¬ (50 ≤ k ∧ k < 52)) :
    (fvbHeaders g).getD k 0 = bufferCells (fvbVolumeHeader g 0) k := by
  have hlength : k < (fvbVolumeHeader g (fvbHeaderChecksum g)).length := by
    rw [fvbVolumeHeader_eq, length_fieldBytes]
    exact hk
  rw [fvbHeaders, List.getD_append _ _ _ _ hlength, fvbVolumeHeader_eq, bufferCells,
    fvbVolumeHeader_eq]
  exact @getD_fieldBytes _ _ ((volumeFields g 0).take 6) ((volumeFields g 0).drop 7) 0 k hout

/-- Of the headers in memory, the words of the volume header add up to zero. -/
theorem checksum_of_holds (h : m.Holds a (fvbHeaders g)) :
    calculateSum16 m a (fvhSize / 2) = 0 := by
  have hfields := h
  rw [fvbHeaders_eq] at hfields
  have hzero : (bufferCells (fvbVolumeHeader g 0)).Holds 0 (fieldBytes (volumeFields g 0)) := by
    intro k hk
    rw [fvbVolumeHeader_eq, Nat.zero_add]
    rfl
  have hchecksum : m.le (a + 50) 2 = fvbHeaderChecksum g :=
    hfields.nth 6 rfl (by simp [volumeFields]) (Nat.mod_lt _ (by decide))
  rw [calculateSum16_eq]
  refine sumWords_eq_zero (m := bufferCells (fvbVolumeHeader g 0)) (b := 0) (i := 25) (by decide)
    (fun k hk hout => ?_) (hzero.nth 6 rfl (by simp [volumeFields]) (by decide)) ?_
  · rw [Nat.zero_add, ← getD_fvbHeaders hk hout]
    refine h k ?_
    rw [length_fvbHeaders]
    exact hk.trans (by decide)
  · rw [hchecksum, fvbHeaderChecksum, calculateSum16_eq]
    rfl

end Fields

section Validate

variable {g : FvbGeometry} {E : NorEnv} {nor : SpiNor} {ram : Cells UInt8} {s s' : FvbState}

def fvhBlockMapNumBlocks : ℕ := 56
def fvhBlockMapLength : ℕ := 60

/-- The headers in memory are what the validation asks for. -/
theorem fvbValidateFvHeader_of_holds (h : ram.Holds g.regionBaseAddress (fvbHeaders g)) :
    fvbValidateFvHeader g ram = some efiSuccess := by
  have hsum := checksum_of_holds h
  have hmedium := g.medium_fits
  rw [fvbHeaders_eq] at h
  have hguid : ram.le (g.regionBaseAddress + fvhFileSystemGuid) 16 = gEfiSystemNvDataFvGuid :=
    h.nth 1 rfl (by simp [volumeFields, fvhFileSystemGuid]) (by decide)
  have hlength : ram.le (g.regionBaseAddress + fvhFvLength) 8 = g.fvbSize :=
    h.nth 2 rfl (by simp [volumeFields, fvhFvLength]) (by omega)
  have hsignature : ram.le (g.regionBaseAddress + fvhSignature) 4 = efiFvhSignature :=
    h.nth 3 rfl (by simp [volumeFields, fvhSignature]) (by decide)
  have hheader : ram.le (g.regionBaseAddress + fvhHeaderLength) 2 = fvhSize :=
    h.nth 5 rfl (by simp [volumeFields, fvhHeaderLength]) (by decide)
  have hrevision : ram.le (g.regionBaseAddress + fvhRevision) 1 = efiFvhRevision :=
    h.nth 8 rfl (by simp [volumeFields, fvhRevision]) (by decide)
  have hstore : ram.le (g.regionBaseAddress + fvhSize) 16 = gEfiAuthenticatedVariableGuid :=
    h.nth 12 rfl (by simp [volumeFields, fvhSize]) (by decide)
  have hsize : ram.le (g.regionBaseAddress + fvhSize + vshSize) 4
      = fvbVariableStoreLength g fvhSize := by
    rw [Nat.add_assoc]
    exact h.nth 13 rfl (by simp [volumeFields, storeFields, fvhSize, vshSize])
      (Nat.mod_lt _ (by decide))
  unfold fvbValidateFvHeader
  simp only [hheader, hrevision, hsignature, hlength, hguid, hsum, hstore, hsize]
  simp [fvhSize]

/-- The block map in memory describes as many bytes as the template has. -/
theorem blockMap_of_holds (h : ram.Holds g.regionBaseAddress (fvbHeaders g)) :
    ram.le (g.regionBaseAddress + fvhBlockMapNumBlocks) 4
        * ram.le (g.regionBaseAddress + fvhBlockMapLength) 4 = fvbTemplateSize
      ∧ ram.le (g.regionBaseAddress + fvhFvLength) 8 = g.fvbSize := by
  have hmedium := g.medium_fits
  rw [fvbHeaders_eq] at h
  have hblocks : ram.le (g.regionBaseAddress + fvhBlockMapNumBlocks) 4 = fvbLastBlock + 1 :=
    h.nth 9 rfl (by simp [volumeFields, fvhBlockMapNumBlocks]) (by decide)
  have hlength : ram.le (g.regionBaseAddress + fvhBlockMapLength) 4 = fvbBlockSize :=
    h.nth 10 rfl (by simp [volumeFields, fvhBlockMapLength]) (by decide)
  rw [hblocks, hlength]
  exact ⟨rfl, h.nth 2 rfl (by simp [volumeFields, fvhFvLength]) (by omega)⟩

theorem fvbWrite_success {lba offset n : ℕ} {buffer : Cells UInt8}
    (h : fvbWrite g E nor s lba offset n buffer = (efiSuccess, s')) :
    s'.ram = copyMem s.ram (fvbShadowAddr g lba offset) n buffer := by
  by_cases hrejected : fvbWriteRejected g nor s.dev.isSpiFlashAvailable lba offset n
  · rw [fvbWrite_rejected hrejected] at h
    exact absurd (congrArg Prod.fst h) (by decide : efiDeviceError ≠ efiSuccess)
  · rw [fvbWrite_accepted hrejected] at h
    exact (congrArg (fun r => r.2.ram) h).symm

/-- What the installation of the headers leaves in the shadow. -/
theorem fvbInit_ram (h : fvbInitFvAndVariableStoreHeaders g E nor s = some (efiSuccess, s')) :
    fvbBlockSize ≤ g.fvbSize ∧ s'.ram
      = s.ram.modify g.regionBaseAddress fvbHeadersLength fun k _ => bufferCells (fvbHeaders g) k := by
  unfold fvbInitFvAndVariableStoreHeaders at h
  split_ifs at h with hareas
  have hle : fvbBlockSize ≤ g.fvbSize := hareas.1.trans (by simp only [FvbGeometry.fvbSize]; omega)
  have hwrite := fvbWrite_success (Option.some.inj h)
  rw [copyMem_of_pos (by decide) (le_trans (by decide) hle)] at hwrite
  exact ⟨hle, hwrite⟩

theorem holds_of_init (h : fvbInitFvAndVariableStoreHeaders g E nor s = some (efiSuccess, s')) :
    s'.ram.Holds g.regionBaseAddress (fvbHeaders g) := by
  intro k hk
  rw [length_fvbHeaders] at hk
  rw [(fvbInit_ram h).2, modify_add hk]
  rfl

/-- What a preparation with default settings leaves in the shadow, when it succeeds. -/
theorem fvbPrepareFvHeader_default_ram
    (h : fvbPrepareFvHeader g E nor s true = some (efiSuccess, s')) (k : ℕ) :
    s'.ram (g.regionBaseAddress + k)
      = fvbFormatted g (fun k => s.ram (g.regionBaseAddress + k)) k := by
  unfold fvbPrepareFvHeader at h
  simp only [if_true, efiError_invalidParameter] at h
  have hne : ∀ {st : EfiStatus}, efiError st = true → st ≠ efiSuccess := by
    rintro st hst rfl
    simp at hst
  rcases fvbEraseBlocks_status g E nor { s with dev := { s.dev with isFvbHeaderValid := false } }
    [(0, g.fvbSize / fvbBlockSize)] with ⟨-, hdisabled⟩ | ⟨heq, -⟩ | ⟨heq, -⟩
  · exact absurd hdisabled.1 (by simp)
  · rw [heq, if_pos efiError_invalidParameter] at h
    exact absurd (congrArg Prod.fst (Option.some.inj h)) (hne efiError_invalidParameter)
  · rw [heq, fvbEraseLbas_all] at h
    rcases fvbEraseEach_status g E nor (List.range' 0 (g.fvbSize / fvbBlockSize))
      { s with dev := { s.dev with isFvbHeaderValid := false } } with hst | hst
    · rw [if_neg (by rw [hst]; simp)] at h
      have hram := fvbEraseAll_ram hst k
      rw [(fvbInit_ram h).2, fvbFormatted]
      split_ifs with hheaders hblocks
      · rw [modify_add hheaders]
      · rw [modify_of_notMem (by omega), hram, if_pos hblocks]
      · rw [modify_of_notMem (by omega), hram, if_neg hblocks]
    · rw [if_pos (by rw [hst]; exact efiError_deviceError)] at h
      have hfst := congrArg Prod.fst (Option.some.inj h)
      exact absurd hfst (hne (by rw [hst]; exact efiError_deviceError))

/-- The headers that were installed are those that are asked for, and describe the volume. -/
structure FvHeadersAgree (g : FvbGeometry) (E : NorEnv) (nor : SpiNor) (s : FvbState) : Prop where
  validates : fvbValidateFvHeader g s.ram = some efiSuccess
  /-- Preparing again only notes that the headers are valid. -/
  again : fvbPrepareFvHeader g E nor s false
    = some (efiSuccess, { s with dev := { s.dev with isFvbHeaderValid := true } })
  /-- With default settings the region is formatted each time, to the same content. -/
  againDefault : ∀ s₀ s', fvbPrepareFvHeader g E nor s₀ true = some (efiSuccess, s) →
    fvbPrepareFvHeader g E nor s true = some (efiSuccess, s') →
    ∀ k < g.fvbSize, s'.ram (g.regionBaseAddress + k) = s.ram (g.regionBaseAddress + k)
  blockMap : s.ram.le (g.regionBaseAddress + fvhBlockMapNumBlocks) 4
      * s.ram.le (g.regionBaseAddress + fvhBlockMapLength) 4
    = s.ram.le (g.regionBaseAddress + fvhFvLength) 8

/-- They do exactly if the three areas are as large as the instance template. -/
theorem fvHeadersAgree_iff
    (h : fvbInitFvAndVariableStoreHeaders g E nor s = some (efiSuccess, s')) :
    FvHeadersAgree g E nor s' ↔ g.fvbSize = fvbTemplateSize := by
  have hholds := holds_of_init h
  have hvalid := fvbValidateFvHeader_of_holds hholds
  obtain ⟨hblocks, hlength⟩ := blockMap_of_holds hholds
  constructor
  · intro hagree
    have hmap := hagree.blockMap
    rw [hblocks, hlength] at hmap
    exact hmap.symm
  · intro hsize
    refine ⟨hvalid, fvbPrepareFvHeader_valid hvalid, fun s₀ s'' h₀ h' k _ => ?_, ?_⟩
    · have hfirst := fvbPrepareFvHeader_default_ram h₀ k
      rw [fvbPrepareFvHeader_default_ram h' k, fvbFormatted, hfirst, fvbFormatted]
      split_ifs <;> rfl
    · rw [hblocks, hlength, hsize]

theorem exists_init (hareas : fvbAreasHaveBlocks g) (hspi : s.dev.isSpiFlashAvailable = false) :
    ∃ s', fvbInitFvAndVariableStoreHeaders g E nor s = some (efiSuccess, s') := by
  have hnot : ¬ fvbWriteRejected g nor s.dev.isSpiFlashAvailable 0 0 fvbHeadersLength := by
    intro hrejected
    rw [hspi] at hrejected
    exact absurd hrejected.1 (by decide)
  rw [fvbInitFvAndVariableStoreHeaders, if_pos hareas, fvbWrite_accepted hnot]
  exact ⟨_, rfl⟩

/-- Three areas of 256 KB in all. -/
def templateGeometry : FvbGeometry where
  regionBaseAddress := 0x415C0000
  fvbOffset := 0xFC0000
  variableSize := 0x20000
  ftwWorkingSize := 0x10000
  ftwSpareSize := 0x10000
  region_le := by decide
  offset_lt := by decide

theorem fvHeadersAgree_template :
    ∃ s', fvbInitFvAndVariableStoreHeaders templateGeometry NorEnv.healthy spiNor16M
        (FvbState.zeros false) = some (efiSuccess, s')
      ∧ FvHeadersAgree templateGeometry NorEnv.healthy spiNor16M s' := by
  obtain ⟨s', h⟩ := exists_init (g := templateGeometry) (E := NorEnv.healthy) (s := .zeros false)
    (by decide) rfl
  exact ⟨s', h, (fvHeadersAgree_iff h).2 rfl⟩

/-- The areas of the boards are smaller: the block map has 256 KB, the volume 192 KB. -/
theorem fvHeaders_not_agree :
    ∃ s', fvbInitFvAndVariableStoreHeaders rock4dGeometry NorEnv.healthy spiNor16M
        (FvbState.zeros false) = some (efiSuccess, s')
      ∧ ¬ FvHeadersAgree rock4dGeometry NorEnv.healthy spiNor16M s' := by
  obtain ⟨s', h⟩ := exists_init (g := rock4dGeometry) (E := NorEnv.healthy) (s := .zeros false)
    (by decide) rfl
  obtain ⟨hblocks, hlength⟩ := blockMap_of_holds (holds_of_init h)
  refine ⟨s', h, fun hagree => ?_⟩
  have hmap := hagree.blockMap
  rw [hblocks, hlength] at hmap
  exact absurd hmap (by decide)

end Validate

end Edk2Rk3576
