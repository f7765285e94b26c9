import Edk2Rk3576.Lib.Runs
import Edk2Rk3576.RkFvb.WriteThrough

/-!
# Keeping the region on a disk

Without SPI NOR the region persists on the boot disk. `FvbWrite` and `FvbEraseBlocks` mark the
data invalidated; the dump handler writes the whole shadow to the adopted disk and clears the mark
when that succeeds; adopting a disk writes the shadow there first.

So while the mark is clear the adopted disk holds the shadow. The one thing that breaks this is
an adoption attempt on the disk already adopted whose dump fails: it may leave anything there, and
neither sets the mark nor gives the disk up. The search never makes one, as it stops at the first
disk it adopts.
-/

namespace Edk2Rk3576

open Cells

/-- How the disk stack answers the calls of one dump. -/
structure DiskIo where
  locateDevicePath : EfiStatus
  handleProtocol : EfiStatus
  /-- `WriteDisk` under this media id. -/
  writeDisk : ℕ → EfiStatus
  /-- What the disk holds after a `WriteDisk` that fails. -/
  torn : Cells UInt8

structure FvbRkBootDevice where
  controllerBaseAddress : ℕ

-- `PcdRkSdmmcBaseAddress` and `PcdDwcSdhciBaseAddress`
def sdBootDevice : FvbRkBootDevice := ⟨0x2A310000⟩
def emmcBootDevice : FvbRkBootDevice := ⟨0x2A330000⟩

def mFvbSecondaryRkBootDevices : List FvbRkBootDevice := [sdBootDevice, emmcBootDevice]

/-- A block device handle, as the protocols on it answer. -/
structure FvbDiskHandle where
  /-- The base of its controller, where its device path leads to one. -/
  addrRangeMin : Option ℕ
  blockIo : EfiStatus
  /-- Its device path. -/
  disk : ℕ
  mediaId : ℕ
  mediaPresent : Bool
  readOnly : Bool
  connectController : EfiStatus
  hasFirmware : Bool
  io : DiskIo

section Disk

variable (g : FvbGeometry)

/-- `FvbDiskDumpNvData`. -/
def fvbDiskDumpNvData (s : FvbState) (device mediaId : ℕ) (io : DiskIo) : EfiStatus × FvbState :=
  if efiError io.locateDevicePath then (io.locateDevicePath, s)
  else if efiError io.handleProtocol then (io.handleProtocol, s)
  else
    let dataOffset := getDataOffset g.fvbOffset fvbStartLba fvbBlockSize
    let status := io.writeDisk mediaId
    let cells :=
      if efiError status then io.torn
      else (s.disks device).write dataOffset g.fvbSize fun k => s.ram (g.regionBaseAddress + k)
    (status, { s with disks := fun d => if d = device then cells else s.disks d })

/-- `FvbDiskNvDumpHandler`. -/
def fvbDiskNvDumpHandler (s : FvbState) (io : DiskIo) : FvbState :=
  match s.dev.diskDevice with
  | none => s
  | some device =>
    if s.dev.diskDataInvalidated then
      let (status, s) := fvbDiskDumpNvData g s device s.dev.diskMediaId io
      if efiError status then s
      else { s with dev := { s.dev with diskDataInvalidated := false } }
    else s

/-- `FvbCheckRkBootDeviceSupported`. -/
def fvbCheckRkBootDeviceSupported (h : FvbDiskHandle) (bootDevice : FvbRkBootDevice) : Bool :=
  h.addrRangeMin == some bootDevice.controllerBaseAddress

/-- The checks of `FvbProcessBootDiskDeviceHandle` before it dumps to the disk. -/
def fvbBootDiskUsable (h : FvbDiskHandle) (bootDevice : FvbRkBootDevice) : Bool :=
  fvbCheckRkBootDeviceSupported h bootDevice && !efiError h.blockIo && h.mediaPresent
    && !h.readOnly && !efiError h.connectController && h.hasFirmware

/-- `FvbProcessBootDiskDeviceHandle`. -/
def fvbProcessBootDiskDeviceHandle (s : FvbState) (h : FvbDiskHandle)
    (bootDevice : FvbRkBootDevice) : FvbState :=
  if fvbBootDiskUsable h bootDevice then
    let (status, s) := fvbDiskDumpNvData g s h.disk h.mediaId h.io
    if efiError status then s
    else { s with dev := { s.dev with diskDevice := some h.disk, diskMediaId := h.mediaId } }
  else s

/-- The inner loop of `FvbFindBootDiskDevice`. -/
def fvbFindOnHandles (bootDevice : FvbRkBootDevice) (s : FvbState) : List FvbDiskHandle → FvbState
  | [] => s
  | h :: handles =>
    let s := fvbProcessBootDiskDeviceHandle g s h bootDevice
    if s.dev.diskDevice.isSome then s else fvbFindOnHandles bootDevice s handles

/-- The outer loop; the handles answer anew for each boot device. -/
def fvbFindOnDevices (handles : FvbRkBootDevice → List FvbDiskHandle) (s : FvbState) :
    List FvbRkBootDevice → FvbState
  | [] => s
  | bootDevice :: devices =>
    let s := fvbFindOnHandles g bootDevice s (handles bootDevice)
    if s.dev.diskDevice.isSome then s else fvbFindOnDevices handles s devices

/-- `FvbFindBootDiskDevice`. -/
def fvbFindBootDiskDevice (s : FvbState) (handles : FvbRkBootDevice → List FvbDiskHandle) :
    FvbState :=
  fvbFindOnDevices g handles s mFvbSecondaryRkBootDevices

inductive FvbDiskOp
  | block (op : FvbOp)
  | adopt (h : FvbDiskHandle) (bootDevice : FvbRkBootDevice)
  | dump (io : DiskIo)

def FvbDiskOp.exec (E : NorEnv) (nor : SpiNor) (s : FvbState) : FvbDiskOp → FvbState
  | .block op => (op.exec g E nor s).2
  | .adopt h bootDevice => fvbProcessBootDiskDeviceHandle g s h bootDevice
  | .dump io => fvbDiskNvDumpHandler g s io

/-- An adoption attempt does not fail to dump to the disk already adopted. -/
def FvbDiskOp.Spares (s : FvbState) : FvbDiskOp → Prop
  | .adopt h bootDevice => s.dev.diskDevice = some h.disk → fvbBootDiskUsable h bootDevice →
      efiError (fvbDiskDumpNvData g s h.disk h.mediaId h.io).1 = false
  | _ => True

/-- The region of this disk holds the shadow. -/
def FvbOnDisk (s : FvbState) (d : ℕ) : Prop :=
  Mirror (s.disks d) g.fvbOffset s.ram g.regionBaseAddress g.fvbSize

/-- While the mark is clear, the adopted disk holds the shadow. -/
def FvbDiskClean (s : FvbState) : Prop :=
  ∀ d, s.dev.diskDevice = some d → s.dev.diskDataInvalidated = false → FvbOnDisk g s d

variable {g}

section Dump

variable {s : FvbState} {device mediaId : ℕ} {io : DiskIo}

@[simp] theorem fvbDiskDumpNvData_dev :
    (fvbDiskDumpNvData g s device mediaId io).2.dev = s.dev := by
  unfold fvbDiskDumpNvData
  split_ifs <;> rfl

@[simp] theorem fvbDiskDumpNvData_ram :
    (fvbDiskDumpNvData g s device mediaId io).2.ram = s.ram := by
  unfold fvbDiskDumpNvData
  split_ifs <;> rfl

theorem fvbDiskDumpNvData_disks {d : ℕ} (hd : d ≠ device) :
    (fvbDiskDumpNvData g s device mediaId io).2.disks d = s.disks d := by
  unfold fvbDiskDumpNvData
  split_ifs
  · rfl
  · rfl
  all_goals exact if_neg hd

theorem fvbDiskDumpNvData_onDisk
    (h : efiError (fvbDiskDumpNvData g s device mediaId io).1 = false) :
    FvbOnDisk g (fvbDiskDumpNvData g s device mediaId io).2 device := by
  have hm := g.medium_fits
  have hoff : getDataOffset g.fvbOffset fvbStartLba fvbBlockSize = g.fvbOffset := by
    simp only [getDataOffset, fvbStartLba, uintn]
    omega
  unfold fvbDiskDumpNvData at h ⊢
  rw [hoff] at h ⊢
  split_ifs at h ⊢ with h1 h2
  · exact absurd h (by simp [h1])
  · exact absurd h (by simp [h2])
  · have hw : efiError (io.writeDisk mediaId) = false := h
    intro k hk
    simp only [hw, Bool.false_eq_true, if_true, if_false, write_add hk]

end Dump

section Block

variable {E : NorEnv} {nor : SpiNor}

/-- A block operation marks the data invalidated, or does not touch the shadow. -/
theorem FvbOp.marks (s : FvbState) (op : FvbOp) :
    (op.exec g E nor s).2.disks = s.disks
      ∧ (op.exec g E nor s).2.dev.diskDevice = s.dev.diskDevice
      ∧ ((op.exec g E nor s).2.dev.diskDataInvalidated = true
        ∨ (op.exec g E nor s).2.ram = s.ram
          ∧ (op.exec g E nor s).2.dev.diskDataInvalidated = s.dev.diskDataInvalidated) := by
  have heach : ∀ (lbas : List ℕ) (s : FvbState),
      (fvbEraseEach g E nor s lbas).2.disks = s.disks
        ∧ (fvbEraseEach g E nor s lbas).2.dev.diskDevice = s.dev.diskDevice
        ∧ ((fvbEraseEach g E nor s lbas).2.dev.diskDataInvalidated = true
          ∨ (fvbEraseEach g E nor s lbas).2.ram = s.ram
            ∧ (fvbEraseEach g E nor s lbas).2.dev.diskDataInvalidated
              = s.dev.diskDataInvalidated) := by
    intro lbas
    induction lbas with
    | nil => exact fun s => ⟨rfl, rfl, Or.inr ⟨rfl, rfl⟩⟩
    | cons lba lbas ih =>
      intro s
      unfold fvbEraseEach
      rcases fvbEraseBlock_cases g E nor s lba with ⟨hst, -, -, hs⟩ | ⟨hst, chip, hs, -⟩
      · rw [if_pos (by rw [hst]; exact efiError_deviceError), hs]
        exact ⟨rfl, rfl, Or.inr ⟨rfl, rfl⟩⟩
      · rw [if_neg (by rw [hst]; simp)]
        obtain ⟨h1, h2, h3⟩ := ih (fvbEraseBlock g E nor s lba).2
        rw [hs] at h1 h2 h3 ⊢
        exact ⟨h1, h2, Or.inl (h3.elim id And.right)⟩
  cases op with
  | write lba offset n buffer =>
    simp only [FvbOp.exec]
    by_cases hrej : fvbWriteRejected g nor s.dev.isSpiFlashAvailable lba offset n
    · rw [fvbWrite_rejected hrej]
      exact ⟨rfl, rfl, Or.inr ⟨rfl, rfl⟩⟩
    · rw [fvbWrite_accepted hrej]
      exact ⟨rfl, rfl, Or.inl rfl⟩
  | erase args =>
    simp only [FvbOp.exec]
    rcases fvbEraseBlocks_status g E nor s args with ⟨hd, -⟩ | ⟨hi, -⟩ | ⟨he, -⟩
    · rw [hd]
      exact ⟨rfl, rfl, Or.inr ⟨rfl, rfl⟩⟩
    · rw [hi]
      exact ⟨rfl, rfl, Or.inr ⟨rfl, rfl⟩⟩
    · rw [he]
      exact heach _ s

theorem FvbOp.diskClean {s : FvbState} (op : FvbOp) (h : FvbDiskClean g s) :
    FvbDiskClean g (op.exec g E nor s).2 := by
  obtain ⟨h1, h2, h3⟩ := op.marks (g := g) (E := E) s
  intro d hd hclean
  rw [h2] at hd
  rcases h3 with hm | ⟨hram, hsame⟩
  · rw [hm] at hclean
    exact absurd hclean (by decide)
  · rw [hsame] at hclean
    unfold FvbOnDisk
    rw [h1, hram]
    exact h d hd hclean

end Block

theorem fvbProcessBootDiskDeviceHandle_diskClean {s : FvbState} {hd : FvbDiskHandle}
    {bootDevice : FvbRkBootDevice} (h : FvbDiskClean g s)
    (hspares : (FvbDiskOp.adopt hd bootDevice).Spares g s) :
    FvbDiskClean g (fvbProcessBootDiskDeviceHandle g s hd bootDevice) := by
  unfold fvbProcessBootDiskDeviceHandle
  split_ifs with husable
  · intro d hdev hclean
    rcases herr : efiError (fvbDiskDumpNvData g s hd.disk hd.mediaId hd.io).1 with _ | _
    · -- the disk is adopted with the shadow on it
      simp only [herr, Bool.false_eq_true, if_false, Option.some.injEq] at hdev ⊢
      subst hdev
      exact fvbDiskDumpNvData_onDisk herr
    · simp only [herr, if_true, fvbDiskDumpNvData_dev] at hdev hclean ⊢
      have hne : d ≠ hd.disk := by
        rintro rfl
        exact absurd (hspares hdev husable) (by simp [herr])
      unfold FvbOnDisk
      rw [fvbDiskDumpNvData_disks hne, fvbDiskDumpNvData_ram]
      exact h d hdev hclean
  · exact h

theorem fvbDiskNvDumpHandler_diskClean {s : FvbState} {io : DiskIo} (h : FvbDiskClean g s) :
    FvbDiskClean g (fvbDiskNvDumpHandler g s io) := by
  unfold fvbDiskNvDumpHandler
  rcases hdev : s.dev.diskDevice with _ | device
  · exact h
  · simp only []
    split_ifs with hinv herr
    · intro d _ hclean
      rw [fvbDiskDumpNvData_dev, hinv] at hclean
      exact absurd hclean (by decide)
    · intro d hd _
      simp only [fvbDiskDumpNvData_dev, hdev, Option.some.injEq] at hd
      subst hd
      exact fvbDiskDumpNvData_onDisk (Bool.eq_false_iff.2 herr)
    · exact h

/-- A failed dump leaves the shadow and the mark; the handler is to try again. -/
theorem fvbDiskNvDumpHandler_of_error {s : FvbState} {io : DiskIo} {d : ℕ}
    (hd : s.dev.diskDevice = some d)
    (he : efiError (fvbDiskDumpNvData g s d s.dev.diskMediaId io).1 = true) :
    (fvbDiskNvDumpHandler g s io).dev = s.dev ∧ (fvbDiskNvDumpHandler g s io).ram = s.ram := by
  unfold fvbDiskNvDumpHandler
  rw [hd]
  simp only [he, if_true]
  split_ifs
  · exact ⟨fvbDiskDumpNvData_dev, fvbDiskDumpNvData_ram⟩
  · exact ⟨rfl, rfl⟩

theorem fvbDiskNvDumpHandler_of_success {s : FvbState} {io : DiskIo} {d : ℕ}
    (h : FvbDiskClean g s) (hd : s.dev.diskDevice = some d)
    (he : efiError (fvbDiskDumpNvData g s d s.dev.diskMediaId io).1 = false) :
    (fvbDiskNvDumpHandler g s io).ram = s.ram ∧ FvbOnDisk g (fvbDiskNvDumpHandler g s io) d := by
  unfold fvbDiskNvDumpHandler
  rw [hd]
  simp only [he, Bool.false_eq_true, if_false]
  split_ifs with hinv
  · exact ⟨fvbDiskDumpNvData_ram, fvbDiskDumpNvData_onDisk he⟩
  · exact ⟨rfl, h d hd (by simpa using hinv)⟩

section Run

variable (E : NorEnv) (nor : SpiNor)

/-- One operation that spares the adopted disk keeps it clean. -/
theorem FvbDiskOp.diskClean {s : FvbState} (op : FvbDiskOp) (h : FvbDiskClean g s)
    (hspares : op.Spares g s) : FvbDiskClean g (op.exec g E nor s) := by
  cases op with
  | block op => exact op.diskClean h
  | adopt hd bootDevice => exact fvbProcessBootDiskDeviceHandle_diskClean h hspares
  | dump io => exact fvbDiskNvDumpHandler_diskClean h

/-- The search for the boot disk is a run of adoption attempts, none of them made with a disk
adopted. -/
theorem fvbFindOnHandles_reached {s₀ : FvbState} (bootDevice : FvbRkBootDevice) :
    ∀ (handles : List FvbDiskHandle) (s : FvbState), s.dev.diskDevice = none →
      Reached (FvbDiskOp.exec g E nor) (fun s op => op.Spares g s) s₀ s →
        Reached (FvbDiskOp.exec g E nor) (fun s op => op.Spares g s) s₀
          (fvbFindOnHandles g bootDevice s handles)
  | [], _, _, h => h
  | hd :: handles, s, hnone, h => by
    have hspares : (FvbDiskOp.adopt hd bootDevice).Spares g s := fun hsome =>
      absurd (hnone.symm.trans hsome) (by simp)
    have hnext := h.next _ hspares
    unfold fvbFindOnHandles
    simp only []
    split_ifs with hfound
    · exact hnext
    · exact fvbFindOnHandles_reached bootDevice handles _ (by simpa using hfound) hnext

theorem fvbFindOnDevices_reached {s₀ : FvbState}
    (handles : FvbRkBootDevice → List FvbDiskHandle) :
    ∀ (devices : List FvbRkBootDevice) (s : FvbState), s.dev.diskDevice = none →
      Reached (FvbDiskOp.exec g E nor) (fun s op => op.Spares g s) s₀ s →
        Reached (FvbDiskOp.exec g E nor) (fun s op => op.Spares g s) s₀
          (fvbFindOnDevices g handles s devices)
  | [], _, _, h => h
  | bootDevice :: devices, s, hnone, h => by
    have hnext := fvbFindOnHandles_reached E nor bootDevice (handles bootDevice) s hnone h
    unfold fvbFindOnDevices
    simp only []
    split_ifs with hfound
    · exact hnext
    · exact fvbFindOnDevices_reached handles devices _ (by simpa using hfound) hnext

theorem fvbFindBootDiskDevice_reached {s₀ s : FvbState}
    (handles : FvbRkBootDevice → List FvbDiskHandle) (hnone : s.dev.diskDevice = none)
    (h : Reached (FvbDiskOp.exec g E nor) (fun s op => op.Spares g s) s₀ s) :
    Reached (FvbDiskOp.exec g E nor) (fun s op => op.Spares g s) s₀
      (fvbFindBootDiskDevice g s handles) :=
  fvbFindOnDevices_reached E nor handles _ s hnone h

end Run

end Disk

/-- In every run that spares the adopted disk: while the mark is clear the adopted disk holds the
shadow, a failed dump loses neither the shadow nor the mark, and after a successful one the disk
holds the shadow. -/
theorem fvb_noLostUpdate {g : FvbGeometry} {E : NorEnv} {nor : SpiNor} {s₀ s : FvbState}
    (h₀ : s₀.dev.diskDevice = none)
    (h : Reached (FvbDiskOp.exec g E nor) (fun s op => op.Spares g s) s₀ s) :
    (∀ d, s.dev.diskDevice = some d → s.dev.diskDataInvalidated = false → FvbOnDisk g s d)
      ∧ ∀ d io, s.dev.diskDevice = some d →
        (efiError (fvbDiskDumpNvData g s d s.dev.diskMediaId io).1 = true →
            (fvbDiskNvDumpHandler g s io).dev = s.dev ∧ (fvbDiskNvDumpHandler g s io).ram = s.ram)
          ∧ (efiError (fvbDiskDumpNvData g s d s.dev.diskMediaId io).1 = false →
            (fvbDiskNvDumpHandler g s io).ram = s.ram
              ∧ FvbOnDisk g (fvbDiskNvDumpHandler g s io) d) := by
  have hclean : FvbDiskClean g s := h.invariant
    (fun d hd => absurd (h₀.symm.trans hd) (by simp)) fun _ op hs hop => op.diskClean E nor hs hop
  exact ⟨hclean, fun d io hd => ⟨fvbDiskNvDumpHandler_of_error hd,
    fvbDiskNvDumpHandler_of_success hclean hd⟩⟩

/-- A disk that takes the dump, or leaves ones behind. -/
def sdHandle (ok : Bool) : FvbDiskHandle where
  addrRangeMin := some sdBootDevice.controllerBaseAddress
  blockIo := efiSuccess
  disk := 0
  mediaId := 1
  mediaPresent := true
  readOnly := false
  connectController := efiSuccess
  hasFirmware := true
  io := ⟨efiSuccess, efiSuccess, fun _ => if ok then efiSuccess else efiDeviceError, fun _ => 1⟩

/-- A write, the adoption of a disk and a dump. -/
theorem fvb_noLostUpdate_sd :
    ∃ s, s.dev.diskDevice = some 0 ∧ s.dev.diskDataInvalidated = false
      ∧ s.ram cm5ioGeometry.regionBaseAddress = 0x55 ∧ FvbOnDisk cm5ioGeometry s 0 := by
  have hrun : Reached (FvbDiskOp.exec cm5ioGeometry NorEnv.healthy spiNor16M)
      (fun s op => op.Spares cm5ioGeometry s) (FvbState.zeros false) _ :=
    ((Reached.start.next (FvbDiskOp.block (.write 0 0 1 fun _ => 0x55)) trivial).next
      (FvbDiskOp.adopt (sdHandle true) sdBootDevice) fun _ _ => rfl).next
      (FvbDiskOp.dump (sdHandle true).io) trivial
  exact ⟨_, rfl, rfl, rfl, (fvb_noLostUpdate rfl hrun).1 0 rfl rfl⟩

/-- A failed attempt on a disk adopted and dumped to leaves it torn with the mark clear. -/
theorem fvb_readoption_loses :
    ¬ ∀ s, Reached (FvbDiskOp.exec cm5ioGeometry NorEnv.healthy spiNor16M) (fun _ _ => True)
      (FvbState.zeros false) s → FvbDiskClean cm5ioGeometry s := by
  intro h
  have hrun : Reached (FvbDiskOp.exec cm5ioGeometry NorEnv.healthy spiNor16M) (fun _ _ => True)
      (FvbState.zeros false) _ :=
    (((Reached.start.next (FvbDiskOp.block (.write 0 0 1 fun _ => 0x55)) trivial).next
      (FvbDiskOp.adopt (sdHandle true) sdBootDevice) trivial).next
      (FvbDiskOp.dump (sdHandle true).io) trivial).next
      (FvbDiskOp.adopt (sdHandle false) sdBootDevice) trivial
  have hone := h _ hrun 0 rfl rfl 0 (by decide)
  exact absurd hone (by decide)

end Edk2Rk3576
