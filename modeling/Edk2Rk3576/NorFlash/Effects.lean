import Edk2Rk3576.NorFlash.Snor

/-!
# What the SPI NOR driver does to the cells

Whatever the environment does, a program changes cells of its range only (`halSnorProgData_frame`)
and an erase cells of its sectors only (`norErase_spec`), and both leave the chip idle. A program
whose pages all complete clears, in every cell of the range, the bits the buffer has clear
(`halSnorProgData_of_completes`). An erase reports success only once its sectors are erased, as
long as the chip took the write enables.

The driver's own status says less: it reports success for a program whose page failed, and does
not look at whether a write enable went through.
-/

namespace Edk2Rk3576

open Cells

namespace NorChip

variable (E : NorEnv) (c : NorChip)

@[simp] theorem tick_cells : c.tick.cells = c.cells := rfl
@[simp] theorem tick_job : c.tick.job = c.job := rfl
@[simp] theorem tick_clock : c.tick.clock = c.clock + 1 := rfl
@[simp] theorem settle_true_cells : (c.settle E true).cells = c.cells := by simp [settle]

theorem settle_idle_cells {b : Bool} (h : c.job = .idle) : (c.settle E b).cells = c.cells := by
  simp [settle, h]

theorem settle_frame (b : Bool) :
    SameOutside c.cells (c.settle E b).cells (Set.Ico c.jobAddr (c.jobAddr + c.jobLen)) := by
  simp only [settle]
  split_ifs
  · exact SameOutside.refl
  · exact SameOutside.modify

variable {c}

theorem start_enabled {job : NorJob} {a n : ℕ} {f : ℕ → UInt8 → UInt8}
    (h : c.writeEnabled = true) :
    c.start job a n f = { c with
      cells := c.cells.modify a n f, writeEnabled := false, job := job, jobAddr := a,
      jobLen := n, clock := c.clock + 1 } := if_pos h

theorem start_disabled {job : NorJob} {a n : ℕ} {f : ℕ → UInt8 → UInt8}
    (h : ¬ c.writeEnabled = true) : c.start job a n f = c.tick := if_neg h

/-- From an idle chip, a command touches its range, and nothing outside it when it is torn. -/
theorem start_frame (hj : c.job = .idle) (job : NorJob) (a n : ℕ) (f : ℕ → UInt8 → UInt8) :
    SameOutside c.cells (c.start job a n f).cells (Set.Ico a (a + n))
      ∧ SameOutside c.cells ((c.start job a n f).settle E false).cells (Set.Ico a (a + n))
      ∧ ((c.start job a n f).job = .idle
        ∨ (c.start job a n f).jobAddr = a ∧ (c.start job a n f).jobLen = n) := by
  by_cases h : c.writeEnabled = true
  · have hs := settle_frame E (c.start job a n f) false
    rw [start_enabled h] at hs ⊢
    exact ⟨SameOutside.modify, SameOutside.modify.trans hs, Or.inr ⟨rfl, rfl⟩⟩
  · rw [start_disabled h]
    refine ⟨SameOutside.refl, ?_, Or.inl hj⟩
    rw [settle_idle_cells E c.tick hj]
    exact SameOutside.refl

end NorChip

section Driver

variable (E : NorEnv) (nor : SpiNor)

@[simp] theorem snorWriteEnable_cells (c : NorChip) : (snorWriteEnable E c).2.cells = c.cells := by
  unfold snorWriteEnable
  split_ifs <;> rfl

@[simp] theorem snorWriteEnable_job (c : NorChip) : (snorWriteEnable E c).2.job = c.job := by
  unfold snorWriteEnable
  split_ifs <;> rfl

theorem snorWriteEnable_ok {c : NorChip} (h : E.enable c.clock = true) :
    (snorWriteEnable E c).2 = { c.tick with writeEnabled := true } := by
  simp [snorWriteEnable, h]

/-- The wait ends with the chip idle. It succeeds with the job completed, or fails with at most
the job's range torn. -/
theorem snorWaitBusy_spec : ∀ (timeout : ℕ) (c : NorChip),
    (snorWaitBusy E c timeout).2.job = .idle
      ∧ SameOutside c.cells (snorWaitBusy E c timeout).2.cells
        (Set.Ico c.jobAddr (c.jobAddr + c.jobLen))
      ∧ (c.job = .idle → (snorWaitBusy E c timeout).2.cells = c.cells)
      ∧ ((snorWaitBusy E c timeout).1 = efiSuccess
          ∧ (snorWaitBusy E c timeout).2.cells = c.cells
        ∨ efiError (snorWaitBusy E c timeout).1 = true)
  | 0, c => ⟨rfl, c.settle_frame E false, c.settle_idle_cells E, Or.inr (efiError_encodeError 6)⟩
  | timeout + 1, c => by
    simp only [snorWaitBusy]
    split
    · exact ⟨rfl, c.settle_frame E false, c.settle_idle_cells E,
        Or.inr (efiError_encodeError 18)⟩
    · exact ⟨rfl, c.settle_frame E true, c.settle_idle_cells E,
        Or.inl ⟨rfl, c.settle_true_cells E⟩⟩
    · exact snorWaitBusy_spec timeout c.tick

/-- A job seen ready within the wait's reads, after busy ones only, completes. -/
theorem snorWaitBusy_ready : ∀ {timeout k : ℕ} {c : NorChip}, k < timeout →
    (∀ j < k, E.poll c.job (c.clock + j) = .busy) → E.poll c.job (c.clock + k) = .ready →
      (snorWaitBusy E c timeout).1 = efiSuccess
  | timeout + 1, 0, c, _, _, hr => by
    simp only [Nat.add_zero] at hr
    simp [snorWaitBusy, hr]
  | timeout + 1, k + 1, c, hk, hb, hr => by
    have h0 := hb 0 (by omega)
    simp only [Nat.add_zero] at h0
    simp only [snorWaitBusy, h0]
    refine snorWaitBusy_ready (by omega : k < timeout) (fun j hj => ?_) ?_
    · have := hb (j + 1) (by omega)
      rwa [NorChip.tick_job, NorChip.tick_clock, Nat.add_assoc, Nat.add_comm 1]
    · rwa [NorChip.tick_job, NorChip.tick_clock, Nat.add_assoc, Nat.add_comm 1]

theorem snorWriteData_frame {c : NorChip} (hj : c.job = .idle) (addr len : ℕ)
    (buf : Cells UInt8) :
    SameOutside c.cells (snorWriteData E c addr len buf).2.cells (Set.Ico addr (addr + len))
      ∧ ((snorWriteData E c addr len buf).2.job = .idle
        ∨ (snorWriteData E c addr len buf).2.jobAddr = addr
          ∧ (snorWriteData E c addr len buf).2.jobLen = len) := by
  obtain ⟨h1, h2, h3⟩ := NorChip.start_frame E hj .program addr len fun k old => old &&& buf k
  simp only [snorWriteData]
  split_ifs
  · exact ⟨h1, h3⟩
  · exact ⟨h2, Or.inl rfl⟩

/-- The pages a program goes through lie in its range. -/
theorem progLoop_frame (len : ℕ) : ∀ (fuel : ℕ) {c : NorChip} (addr : ℕ) (pBuf : Cells UInt8)
    (remain : ℕ), c.job = .idle → remain ≤ fuel →
      SameOutside c.cells (progLoop E nor len fuel c addr pBuf remain).2.cells
          (Set.Ico addr (addr + remain))
        ∧ (progLoop E nor len fuel c addr pBuf remain).2.job = .idle
  | 0, c, addr, pBuf, remain, hj, _ => ⟨SameOutside.refl, hj⟩
  | fuel + 1, c, addr, pBuf, remain, hj, hf => by
    simp only [progLoop]
    split_ifs with h0 hret
    · exact ⟨SameOutside.refl, hj⟩
    all_goals
      set size := min (nor.pageSize - addr % nor.pageSize) remain with hsize
      have hpos : 0 < size := by
        have : addr % 256 < 256 := Nat.mod_lt _ (by omega)
        simp only [SpiNor.pageSize] at hsize
        omega
      have hle : size ≤ remain := min_le_right _ _
      obtain ⟨hw, hwj⟩ := snorWriteData_frame E (c := (snorWriteEnable E c).2)
        (by simpa using hj) addr size pBuf
      rw [snorWriteEnable_cells] at hw
      have hsub : Set.Ico addr (addr + size) ⊆ Set.Ico addr (addr + remain) :=
        Set.Ico_subset_Ico_right (by omega)
    · -- a failed transfer leaves the chip idle
      refine ⟨hw.mono hsub, ?_⟩
      simp only [snorWriteData] at hret ⊢
      split_ifs at hret ⊢
      · exact absurd rfl hret
      · rfl
    · obtain ⟨hb1, hb2, hb3, -⟩ := snorWaitBusy_spec E 10000
        (snorWriteData E (snorWriteEnable E c).2 addr size pBuf).2
      obtain ⟨h1, h2⟩ := progLoop_frame len fuel (addr + size) (fun k => pBuf (size + k))
        (remain - size) hb1 (by omega)
      refine ⟨((hw.mono hsub).trans ?_).trans (h1.mono ?_), h2⟩
      · rcases hwj with hi | ⟨ha, hl⟩
        · rw [hb3 hi]
          exact SameOutside.refl
        · rw [ha, hl] at hb2
          exact hb2.mono hsub
      · exact Set.Ico_subset_Ico (by omega) (by omega)

/-- The page program takes effect: the write enable and the transfer go through and the wait sees
the chip ready. -/
def pageCompletes (c : NorChip) (addr size : ℕ) (pBuf : Cells UInt8) : Prop :=
  E.enable c.clock = true
    ∧ (snorWriteData E (snorWriteEnable E c).2 addr size pBuf).1 = size
    ∧ (snorWaitBusy E (snorWriteData E (snorWriteEnable E c).2 addr size pBuf).2 10000).1
      = efiSuccess

/-- Every page the loop goes through does. -/
def progCompletes : (fuel : ℕ) → NorChip → (addr : ℕ) → (pBuf : Cells UInt8) → (remain : ℕ) → Prop
  | 0, _, _, _, _ => True
  | fuel + 1, c, addr, pBuf, remain =>
    remain = 0 ∨
      (pageCompletes E c addr (min (nor.pageSize - addr % nor.pageSize) remain) pBuf
        ∧ progCompletes fuel
          (snorWaitBusy E (snorWriteData E (snorWriteEnable E c).2 addr
            (min (nor.pageSize - addr % nor.pageSize) remain) pBuf).2 10000).2
          (addr + min (nor.pageSize - addr % nor.pageSize) remain)
          (fun k => pBuf (min (nor.pageSize - addr % nor.pageSize) remain + k))
          (remain - min (nor.pageSize - addr % nor.pageSize) remain))

theorem page_of_completes {c : NorChip} {addr size : ℕ} {pBuf : Cells UInt8} (hsize : size ≠ 0)
    (h : pageCompletes E c addr size pBuf) :
    (snorWaitBusy E (snorWriteData E (snorWriteEnable E c).2 addr size pBuf).2 10000).2.cells
      = c.cells.modify addr size fun k old => old &&& pBuf k := by
  obtain ⟨hen, hret, hwait⟩ := h
  have hcells : (snorWriteData E (snorWriteEnable E c).2 addr size pBuf).2.cells
      = c.cells.modify addr size fun k old => old &&& pBuf k := by
    rw [snorWriteEnable_ok E hen] at hret ⊢
    unfold snorWriteData at hret ⊢
    simp only [NorChip.start_enabled] at hret ⊢
    split_ifs at hret ⊢
    · rfl
    · exact absurd hret.symm hsize
  obtain ⟨-, -, -, ⟨-, hc⟩ | he⟩ := snorWaitBusy_spec E 10000
    (snorWriteData E (snorWriteEnable E c).2 addr size pBuf).2
  · rw [hc, hcells]
  · rw [hwait] at he
    simp at he

theorem progLoop_of_completes (len : ℕ) : ∀ (fuel : ℕ) {c : NorChip} (addr : ℕ)
    (pBuf : Cells UInt8) (remain : ℕ), remain ≤ fuel → progCompletes E nor fuel c addr pBuf remain →
      (progLoop E nor len fuel c addr pBuf remain).2.cells
        = c.cells.modify addr remain fun k old => old &&& pBuf k
  | 0, c, addr, pBuf, remain, hf, _ => by
    obtain rfl : remain = 0 := by omega
    simp [progLoop]
  | fuel + 1, c, addr, pBuf, remain, hf, hcomp => by
    unfold progCompletes at hcomp
    simp only [progLoop]
    split_ifs with h0 hret
    · subst h0
      simp
    · exact absurd (hcomp.resolve_left h0).1.2.1 hret
    · obtain ⟨hpage, hrest⟩ := hcomp.resolve_left h0
      set size := min (nor.pageSize - addr % nor.pageSize) remain with hsize
      have hpos : 0 < size := by
        have : addr % 256 < 256 := Nat.mod_lt _ (by omega)
        simp only [SpiNor.pageSize] at hsize
        omega
      have hle : size ≤ remain := min_le_right _ _
      rw [progLoop_of_completes len fuel _ _ _ (by omega) hrest, page_of_completes E hpos.ne' hpage,
        modify_modify (f := fun k old => old &&& pBuf k), Nat.add_sub_cancel' hle]

theorem halSnorProgData_frame {c : NorChip} (hj : c.job = .idle) (addr : ℕ) (buf : Cells UInt8)
    (len : ℕ) :
    SameOutside c.cells (halSnorProgData E nor c addr buf len).2.cells (Set.Ico addr (addr + len))
      ∧ (halSnorProgData E nor c addr buf len).2.job = .idle := by
  unfold halSnorProgData
  split_ifs
  · exact ⟨SameOutside.refl, hj⟩
  · exact progLoop_frame E nor len len addr buf len hj le_rfl

theorem halSnorProgData_outside {c : NorChip} {addr len : ℕ} (h : nor.outside addr len)
    (buf : Cells UInt8) : halSnorProgData E nor c addr buf len = (efiDeviceError, c) :=
  if_pos h

theorem halSnorProgData_of_completes {c : NorChip} {addr len : ℕ} {buf : Cells UInt8}
    (h : ¬ nor.outside addr len) (hc : progCompletes E nor len c addr buf len) :
    (halSnorProgData E nor c addr buf len).2.cells
      = c.cells.modify addr len fun k old => old &&& buf k := by
  rw [halSnorProgData, if_neg h]
  exact progLoop_of_completes E nor len len addr buf len le_rfl hc

/-- The status of a program is an error only where the range check fails: a page that fails makes
it zero, which is success. -/
theorem halSnorProgData_status {c : NorChip} {addr len : ℕ} (hl : len < 2 ^ 32)
    (buf : Cells UInt8) :
    efiError (halSnorProgData E nor c addr buf len).1 = true ↔ nor.outside addr len := by
  have hloop : ∀ (fuel : ℕ) (c : NorChip) (addr : ℕ) (pBuf : Cells UInt8) (remain : ℕ),
      efiError (progLoop E nor len fuel c addr pBuf remain).1 = false := by
    intro fuel
    induction fuel with
    | zero => exact fun c addr pBuf remain => efiError_of_lt (by simp only [progLoop]; omega)
    | succ fuel ih =>
      intro c addr pBuf remain
      simp only [progLoop]
      split_ifs with h0 hret
      · exact efiError_of_lt (by omega)
      · simp only [snorWriteData] at hret ⊢
        split_ifs at hret ⊢
        · exact absurd rfl hret
        · exact efiError_of_lt (by omega)
      · exact ih _ _ _ _
  unfold halSnorProgData
  split_ifs with h
  · simp [h, efiDeviceError, efiError_encodeError]
  · simp [h, hloop]

theorem snorErase_spec {c : NorChip} (hj : c.job = .idle) (addr : ℕ) (ty : NorEraseType) :
    SameOutside c.cells (snorErase E nor c addr ty).2.cells
        (Set.Ico (eraseRange nor addr ty).1 ((eraseRange nor addr ty).1 + (eraseRange nor addr ty).2))
      ∧ ((snorErase E nor c addr ty).2.job = .idle
        ∨ (snorErase E nor c addr ty).2.jobAddr = (eraseRange nor addr ty).1
          ∧ (snorErase E nor c addr ty).2.jobLen = (eraseRange nor addr ty).2)
      ∧ ((snorErase E nor c addr ty).1 = efiSuccess
          ∧ (c.writeEnabled = true → (snorErase E nor c addr ty).2.cells
            = c.cells.fill (eraseRange nor addr ty).1 (eraseRange nor addr ty).2 0xFF)
        ∨ efiError (snorErase E nor c addr ty).1 = true
          ∧ (snorErase E nor c addr ty).2.job = .idle) := by
  obtain ⟨h1, h2, h3⟩ := NorChip.start_frame E hj .erase (eraseRange nor addr ty).1
    (eraseRange nor addr ty).2 fun _ _ => 0xFF
  simp only [snorErase]
  split_ifs
  · refine ⟨h1, h3, Or.inl ⟨rfl, fun hw => ?_⟩⟩
    rw [NorChip.start_enabled hw]
    rfl
  · exact ⟨h2, Or.inl rfl, Or.inr ⟨efiError_encodeError 18, rfl⟩⟩

/-- An erase touches its range only, and reports success only once the range is erased, the write
enable having gone through. -/
theorem halSnorErase_spec {c : NorChip} (hj : c.job = .idle) (addr : ℕ) (ty : NorEraseType) :
    SameOutside c.cells (halSnorErase E nor c addr ty).2.cells
        (Set.Ico (eraseRange nor addr ty).1 ((eraseRange nor addr ty).1 + (eraseRange nor addr ty).2))
      ∧ (halSnorErase E nor c addr ty).2.job = .idle
      ∧ ((halSnorErase E nor c addr ty).1 = efiSuccess
          ∧ (E.enable c.clock = true → (halSnorErase E nor c addr ty).2.cells
            = c.cells.fill (eraseRange nor addr ty).1 (eraseRange nor addr ty).2 0xFF)
        ∨ efiError (halSnorErase E nor c addr ty).1 = true) := by
  have hj' : (snorWriteEnable E c).2.job = .idle := by simpa using hj
  obtain ⟨h1, h2, h3⟩ := snorErase_spec E nor hj' addr ty
  rw [snorWriteEnable_cells] at h1 h3
  simp only [halSnorErase]
  split_ifs with hsize hret
  · exact ⟨SameOutside.refl, hj, Or.inr (efiError_encodeError 7)⟩
  · rcases h3 with ⟨hs, -⟩ | ⟨he, hi⟩
    · exact absurd hs hret
    · exact ⟨h1, hi, Or.inr he⟩
  · obtain ⟨hb1, hb2, hb3, hb4⟩ := snorWaitBusy_spec E (eraseTimeout ty * 1000)
      (snorErase E nor (snorWriteEnable E c).2 addr ty).2
    refine ⟨h1.trans ?_, hb1, ?_⟩
    · rcases h2 with hi | ⟨ha, hl⟩
      · rw [hb3 hi]
        exact SameOutside.refl
      · rwa [ha, hl] at hb2
    · rcases hb4 with ⟨hs, hc⟩ | he
      · refine Or.inl ⟨hs, fun hen => ?_⟩
        rw [hc]
        rcases h3 with ⟨-, hf⟩ | ⟨he, -⟩
        · exact hf (by rw [snorWriteEnable_ok E hen])
        · rw [not_not] at hret
          rw [hret] at he
          exact absurd he (by decide)
      · exact Or.inr he

/-- The chip takes the write enable of every sector the loop erases. -/
def eraseEnabled : (fuel : ℕ) → NorChip → (offset ulLen : ℕ) → Prop
  | 0, _, _, _ => True
  | fuel + 1, c, offset, ulLen =>
    ulLen = 0 ∨ (E.enable c.clock = true
      ∧ eraseEnabled fuel (halSnorErase E nor c offset .sector).2
        (toUint32 (offset + nor.sectorSize)) (ulLen - nor.sectorSize))

/-- `Erase` over whole sectors: the same, for a range of them. -/
theorem eraseLoop_spec : ∀ (fuel : ℕ) {c : NorChip} (offset ulLen : ℕ), c.job = .idle →
    ulLen ≤ fuel → offset % nor.sectorSize = 0 → ulLen % nor.sectorSize = 0 →
      offset + ulLen ≤ 2 ^ 32 →
      SameOutside c.cells (eraseLoop E nor fuel c offset ulLen).2.cells
          (Set.Ico offset (offset + ulLen))
        ∧ (eraseLoop E nor fuel c offset ulLen).2.job = .idle
        ∧ ((eraseLoop E nor fuel c offset ulLen).1 = efiSuccess
            ∧ (eraseEnabled E nor fuel c offset ulLen →
              (eraseLoop E nor fuel c offset ulLen).2.cells = c.cells.fill offset ulLen 0xFF)
          ∨ efiError (eraseLoop E nor fuel c offset ulLen).1 = true)
  | 0, c, offset, ulLen, hj, hf, _, _, _ => by
    obtain rfl : ulLen = 0 := by omega
    exact ⟨SameOutside.refl, hj, Or.inl ⟨rfl, fun _ => modify_zero.symm⟩⟩
  | fuel + 1, c, offset, ulLen, hj, hf, ho, hl, hb => by
    simp only [SpiNor.sectorSize] at ho hl
    obtain ⟨h1, h2, h3⟩ := halSnorErase_spec E nor hj offset .sector
    simp only [eraseRange, SpiNor.sectorSize, show offset - offset % (8 * 512) = offset by omega]
      at h1 h3
    simp only [eraseLoop, SpiNor.sectorSize]
    split_ifs with h0 he
    · subst h0
      exact ⟨SameOutside.refl, hj, Or.inl ⟨rfl, fun _ => modify_zero.symm⟩⟩
    · exact ⟨h1.mono (Set.Ico_subset_Ico_right (by omega)), h2, Or.inr he⟩
    · rcases Nat.lt_or_ge (8 * 512) ulLen with hlt | hge
      · rw [toUint32_of_lt (by omega)]
        obtain ⟨g1, g2, g3⟩ := eraseLoop_spec fuel (offset + 8 * 512) (ulLen - 8 * 512) h2
          (by omega) (by simp only [SpiNor.sectorSize]; omega)
          (by simp only [SpiNor.sectorSize]; omega) (by omega)
        refine ⟨(h1.mono (Set.Ico_subset_Ico_right (by omega))).trans
          (g1.mono (Set.Ico_subset_Ico (by omega) (by omega))), g2, ?_⟩
        rcases g3 with ⟨hs, hc⟩ | hs
        · refine Or.inl ⟨hs, fun hen => ?_⟩
          unfold eraseEnabled at hen
          simp only [SpiNor.sectorSize, toUint32_of_lt (show offset + 8 * 512 < 2 ^ 32 by omega)]
            at hen
          obtain ⟨hen, hrest⟩ := hen.resolve_left h0
          rcases h3 with ⟨-, hf'⟩ | he'
          · rw [hc hrest, hf' hen, fill_fill, Nat.add_sub_cancel' hlt.le]
          · exact absurd he' he
        · exact Or.inr hs
      · -- the last sector: the loop ends, wherever its offset wraps to
        obtain rfl : ulLen = 8 * 512 := by omega
        have hend : eraseLoop E nor fuel (halSnorErase E nor c offset .sector).2
            (toUint32 (offset + 8 * 512)) (8 * 512 - 8 * 512)
            = (efiSuccess, (halSnorErase E nor c offset .sector).2) := by
          cases fuel <;> simp [eraseLoop]
        rw [hend]
        refine ⟨h1, h2, Or.inl ⟨rfl, fun hen => ?_⟩⟩
        unfold eraseEnabled at hen
        rcases h3 with ⟨-, hf'⟩ | he'
        · exact hf' (hen.resolve_left h0).1
        · exact absurd he' he

theorem norErase_spec {c : NorChip} (hj : c.job = .idle) (offset ulLen : ℕ)
    (hb : offset + ulLen ≤ 2 ^ 32) :
    SameOutside c.cells (norErase E nor c offset ulLen).2.cells (Set.Ico offset (offset + ulLen))
      ∧ (norErase E nor c offset ulLen).2.job = .idle
      ∧ ((norErase E nor c offset ulLen).1 = efiSuccess
          ∧ (eraseEnabled E nor ulLen c offset ulLen →
            (norErase E nor c offset ulLen).2.cells = c.cells.fill offset ulLen 0xFF)
        ∨ efiError (norErase E nor c offset ulLen).1 = true) := by
  unfold norErase
  split_ifs with h
  · exact ⟨SameOutside.refl, hj, Or.inr (efiError_encodeError 7)⟩
  · rw [not_or, not_not, not_not] at h
    exact eraseLoop_spec E nor ulLen offset ulLen hj le_rfl h.1 h.2 hb

/-- Reading with every transfer going through copies the cells, and takes only time. -/
theorem readLoop_ok (hE : ∀ t, E.readXfer t = true) (len : ℕ) : ∀ (fuel : ℕ) (c : NorChip)
    (src : ℕ) (dst : Cells UInt8) (pos remain : ℕ), remain ≤ fuel →
      (readLoop E len fuel c src dst pos remain).1 = len
        ∧ (readLoop E len fuel c src dst pos remain).2.1
          = dst.write pos remain (fun k => c.cells (src + k))
        ∧ (readLoop E len fuel c src dst pos remain).2.2.cells = c.cells
        ∧ (readLoop E len fuel c src dst pos remain).2.2.job = c.job
  | 0, c, src, dst, pos, remain, hf => by
    obtain rfl : remain = 0 := by omega
    exact ⟨rfl, write_zero.symm, rfl, rfl⟩
  | fuel + 1, c, src, dst, pos, remain, hf => by
    simp only [readLoop, hE, if_true]
    split_ifs with h0
    · subst h0
      exact ⟨rfl, write_zero.symm, rfl, rfl⟩
    · have hle : min readMaxIoSize remain ≤ remain := min_le_right _ _
      have hpos : 0 < min readMaxIoSize remain := by
        simp only [readMaxIoSize]
        omega
      obtain ⟨h1, h2, h3, h4⟩ := readLoop_ok hE len fuel c.tick
        (src + min readMaxIoSize remain)
        (dst.write pos (min readMaxIoSize remain) fun k => c.cells (src + k))
        (pos + min readMaxIoSize remain) (remain - min readMaxIoSize remain) (by omega)
      refine ⟨h1, h2.trans ?_, h3, h4⟩
      have hjoin := modify_modify (m := dst) (a := pos) (n := min readMaxIoSize remain)
        (k := remain - min readMaxIoSize remain) (f := fun k _ => c.cells (src + k))
      rw [Nat.add_sub_cancel' hle] at hjoin
      unfold write
      rw [← hjoin]
      simp only [NorChip.tick_cells, Nat.add_assoc]

theorem norRead_ok (hE : ∀ t, E.readXfer t = true) {c : NorChip} {src len : ℕ}
    (h : ¬ nor.outside src len) (dst : Cells UInt8) :
    (norRead E nor c src dst len).1 = len
      ∧ (norRead E nor c src dst len).2.1 = dst.write 0 len (fun k => c.cells (src + k))
      ∧ (norRead E nor c src dst len).2.2.cells = c.cells
      ∧ (norRead E nor c src dst len).2.2.job = c.job := by
  rw [norRead, if_neg h]
  exact readLoop_ok E hE len len c src dst 0 len le_rfl

end Driver

/-- Every transfer goes through, and every job is done in time for the driver's wait. -/
structure NorEnv.Healthy (E : NorEnv) : Prop where
  enable : ∀ t, E.enable t = true
  xfer : ∀ job t, E.xfer job t = true
  readXfer : ∀ t, E.readXfer t = true
  program : ∀ t, ∃ k < 10000, (∀ j < k, E.poll .program (t + j) = .busy)
    ∧ E.poll .program (t + k) = .ready
  erase : ∀ t, ∃ k < 400 * 1000, (∀ j < k, E.poll .erase (t + j) = .busy)
    ∧ E.poll .erase (t + k) = .ready

theorem NorEnv.healthy_healthy : NorEnv.healthy.Healthy :=
  ⟨fun _ => rfl, fun _ _ => rfl, fun _ => rfl,
    fun _ => ⟨0, by decide, fun j hj => absurd hj (by omega), rfl⟩,
    fun _ => ⟨0, by decide, fun j hj => absurd hj (by omega), rfl⟩⟩

namespace NorEnv.Healthy

variable {E : NorEnv} (hE : E.Healthy) (nor : SpiNor)

include hE

theorem pageCompletes (c : NorChip) (addr size : ℕ) (pBuf : Cells UInt8) :
    pageCompletes E c addr size pBuf := by
  unfold Edk2Rk3576.pageCompletes
  rw [snorWriteEnable_ok E (hE.enable _)]
  refine ⟨hE.enable _, ?_, ?_⟩
  · simp [snorWriteData, hE.xfer]
  · obtain ⟨k, hk, hb, hr⟩ := hE.program (c.clock + 2)
    simp only [snorWriteData, hE.xfer, if_true]
    rw [NorChip.start_enabled rfl]
    exact snorWaitBusy_ready E hk hb hr

theorem progCompletes : ∀ (fuel : ℕ) (c : NorChip) (addr : ℕ) (pBuf : Cells UInt8) (remain : ℕ),
    progCompletes E nor fuel c addr pBuf remain
  | 0, _, _, _, _ => trivial
  | fuel + 1, c, addr, pBuf, _ =>
    Or.inr ⟨hE.pageCompletes c addr _ pBuf, progCompletes fuel _ _ _ _⟩

theorem eraseEnabled : ∀ (fuel : ℕ) (c : NorChip) (offset ulLen : ℕ),
    eraseEnabled E nor fuel c offset ulLen
  | 0, _, _, _ => trivial
  | fuel + 1, _, _, _ => Or.inr ⟨hE.enable _, eraseEnabled fuel _ _ _⟩

theorem halSnorErase {c : NorChip} {addr : ℕ} (h : addr < nor.size) :
    (halSnorErase E nor c addr .sector).1 = efiSuccess := by
  unfold Edk2Rk3576.halSnorErase
  rw [if_neg (by omega), snorWriteEnable_ok E (hE.enable _)]
  simp only [snorErase, hE.xfer, if_true, ne_eq, not_true_eq_false, if_false]
  rw [NorChip.start_enabled rfl]
  obtain ⟨k, hk, hb, hr⟩ := hE.erase (c.clock + 2)
  exact snorWaitBusy_ready E hk hb hr

theorem eraseLoop : ∀ (fuel : ℕ) (c : NorChip) (offset ulLen : ℕ), offset + ulLen ≤ nor.size →
    (eraseLoop E nor fuel c offset ulLen).1 = efiSuccess
  | 0, _, _, _, _ => rfl
  | fuel + 1, c, offset, ulLen, h => by
    unfold Edk2Rk3576.eraseLoop
    have hsize := nor.size_le
    split_ifs with h0
    · rfl
    · simp only [hE.halSnorErase nor (c := c) (show offset < nor.size by omega), efiError_success,
        Bool.false_eq_true, if_false, SpiNor.sectorSize]
      rcases Nat.lt_or_ge ulLen (8 * 512) with hlt | hge
      · rw [show ulLen - 8 * 512 = 0 by omega]
        cases fuel <;> simp [Edk2Rk3576.eraseLoop]
      · rw [toUint32_of_lt (by omega)]
        exact eraseLoop fuel _ _ _ (by omega)

end NorEnv.Healthy

end Edk2Rk3576
