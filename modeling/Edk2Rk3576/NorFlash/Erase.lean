import Edk2Rk3576.NorFlash.Transfers

/-!
# Erasing a range

`Erase` asks `HAL_SNOR_Erase` for one sector after the other, and only that one checks that the
sector lies in the flash. What the flash holds has no part in how an erase goes, so a range that is
erased as it should be is so whatever the flash holds.
-/

namespace Edk2Rk3576

open Cells

def NorChip.withCells (c : NorChip) (m : Cells UInt8) : NorChip := { c with cells := m }

section Driver

variable (E : NorEnv) (nor : SpiNor) (c : NorChip)

/-- The chip is write enabled when the erase comes. -/
def Enabled : Prop := (snorWriteEnable E c).2.writeEnabled = true

/-- The driver sees the erase of a sector through: its command is sent, and the chip gets ready. -/
structure EraseSeen (addr : ℕ) : Prop where
  sent : E.xfer .erase (snorWriteEnable E c).2.clock = true
  ready : (snorWaitBusy E (snorErase E nor (snorWriteEnable E c).2 addr .sector).2
    (eraseTimeout .sector * 1000)).1 = efiSuccess

structure SectorErased (p : ℕ × ℕ) : Prop where
  inside : p.1 < nor.size
  enabled : Enabled E c
  seen : EraseSeen E nor c p.1

def eraseStep (p : ℕ × ℕ) : NorChip := (halSnorErase E nor c p.1 .sector).2

def sectorPieces (offset len : ℕ) : List (ℕ × ℕ) :=
  pieces (fun _ remain => min nor.sectorSize remain) len offset len

/-- The loop gets to an error before the chip takes an erase. -/
def EraseIgnored : NorChip → List (ℕ × ℕ) → Prop
  | _, [] => False
  | c, p :: ps => nor.size ≤ p.1 ∨
    ¬ Enabled E c ∧ (EraseSeen E nor c p.1 → EraseIgnored (eraseStep E nor c p) ps)

/-- Whatever the flash holds, the range is erased and nothing else, or it does not lie in the flash
and nothing is erased, which is an error. -/
def NorErases (offset len : ℕ) : Prop :=
  ∀ m, (norErase E nor (c.withCells m) offset len).1 = efiSuccess ∧
      (norErase E nor (c.withCells m) offset len).2.cells = m.fill offset len 0xFF ∨
    nor.Beyond offset len ∧ efiError (norErase E nor (c.withCells m) offset len).1 = true ∧
      (norErase E nor (c.withCells m) offset len).2.cells = m

end Driver

section WithCells

variable {E : NorEnv} {nor : SpiNor} {c : NorChip} {m : Cells UInt8}

theorem snorWriteEnable_withCells : snorWriteEnable E (c.withCells m) =
    ((snorWriteEnable E c).1, (snorWriteEnable E c).2.withCells m) := by
  unfold snorWriteEnable
  split_ifs with h h' h' <;> first | rfl | exact absurd h' h | exact absurd h h'

theorem settle_withCells (completed : Bool) :
    ∃ m', (c.withCells m).settle E completed = (c.settle E completed).withCells m' :=
  ⟨_, rfl⟩

theorem start_withCells (job : NorJob) (a n : ℕ) (f : ℕ → UInt8 → UInt8) :
    ∃ m', (c.withCells m).start job a n f = (c.start job a n f).withCells m' := by
  by_cases h : c.writeEnabled = true
  · refine ⟨m.modify a n f, ?_⟩
    rw [NorChip.start_enabled h, NorChip.start_enabled (c := c.withCells m) h]
    rfl
  · refine ⟨m, ?_⟩
    rw [NorChip.start_disabled h, NorChip.start_disabled (c := c.withCells m) h]
    rfl

theorem snorErase_withCells (addr : ℕ) (ty : NorEraseType) :
    (snorErase E nor (c.withCells m) addr ty).1 = (snorErase E nor c addr ty).1 ∧
      ∃ m', (snorErase E nor (c.withCells m) addr ty).2 =
        (snorErase E nor c addr ty).2.withCells m' := by
  obtain ⟨m₁, hstart⟩ := @start_withCells c m .erase (eraseRange nor addr ty).1
    (eraseRange nor addr ty).2 fun _ _ => 0xFF
  simp only [snorErase, hstart]
  by_cases hx : E.xfer .erase c.clock = true
  · rw [if_pos hx, if_pos (show E.xfer .erase (c.withCells m).clock = true from hx)]
    exact ⟨rfl, m₁, rfl⟩
  · rw [if_neg hx, if_neg (show ¬ E.xfer .erase (c.withCells m).clock = true from hx)]
    exact ⟨rfl, settle_withCells false⟩

theorem snorWaitBusy_withCells : ∀ (timeout : ℕ) (c : NorChip) (m : Cells UInt8),
    (snorWaitBusy E (c.withCells m) timeout).1 = (snorWaitBusy E c timeout).1 ∧
      ∃ m', (snorWaitBusy E (c.withCells m) timeout).2 = (snorWaitBusy E c timeout).2.withCells m'
  | 0, c, m => ⟨rfl, settle_withCells false⟩
  | timeout + 1, c, m => by
    have hpoll : E.poll (c.withCells m).job (c.withCells m).clock = E.poll c.job c.clock := rfl
    rw [snorWaitBusy, snorWaitBusy, hpoll]
    cases E.poll c.job c.clock with
    | fail => exact ⟨rfl, settle_withCells false⟩
    | ready => exact ⟨rfl, settle_withCells true⟩
    | busy => exact snorWaitBusy_withCells timeout c.tick m

/-- How an erase goes does not depend on what the flash holds. -/
theorem halSnorErase_withCells (addr : ℕ) (ty : NorEraseType) :
    (halSnorErase E nor (c.withCells m) addr ty).1 = (halSnorErase E nor c addr ty).1 ∧
      ∃ m', (halSnorErase E nor (c.withCells m) addr ty).2 =
        (halSnorErase E nor c addr ty).2.withCells m' := by
  obtain ⟨hstatus, m₁, hchip⟩ := @snorErase_withCells E nor (snorWriteEnable E c).2 m addr ty
  simp only [halSnorErase, snorWriteEnable_withCells, hstatus, hchip]
  split_ifs
  · exact ⟨rfl, m, rfl⟩
  · exact ⟨rfl, m₁, rfl⟩
  · exact snorWaitBusy_withCells _ _ _

end WithCells

section Sector

variable {E : NorEnv} {nor : SpiNor} {c : NorChip} {m : Cells UInt8} {addr i : ℕ}

theorem settle_agrees {completed : Bool} (h : m i = c.cells i) :
    ((c.withCells m).settle E completed).cells i = (c.settle E completed).cells i := by
  have hset : ∀ m, ((c.withCells m).settle E completed).cells i =
      (if completed || c.job == .idle then m else m.write c.jobAddr c.jobLen (E.torn c.clock)) i :=
    fun _ => rfl
  refine (hset m).trans (Eq.trans ?_ (hset c.cells).symm)
  split_ifs
  · exact h
  · by_cases hi : c.jobAddr ≤ i ∧ i < c.jobAddr + c.jobLen
    · rw [write, write, modify_of_mem hi, modify_of_mem hi]
    · rw [write_of_notMem hi, write_of_notMem hi]
      exact h

theorem snorWaitBusy_agrees : ∀ (timeout : ℕ) {c : NorChip} {m : Cells UInt8},
    m i = c.cells i →
      (snorWaitBusy E (c.withCells m) timeout).2.cells i = (snorWaitBusy E c timeout).2.cells i
  | 0, c, m, h => settle_agrees h
  | timeout + 1, c, m, h => by
    have hpoll : E.poll (c.withCells m).job (c.withCells m).clock = E.poll c.job c.clock := rfl
    rw [snorWaitBusy, snorWaitBusy, hpoll]
    cases E.poll c.job c.clock with
    | fail => exact settle_agrees h
    | ready => exact settle_agrees h
    | busy => exact snorWaitBusy_agrees timeout (c := c.tick) h

/-- A sector that the chip has begun to erase holds nothing of what it did, whether the erase gets to
its end or not. -/
theorem halSnorErase_forgets (hsize : addr < nor.size) (henabled : Enabled E c)
    (hi : addr - addr % nor.sectorSize ≤ i ∧ i < addr - addr % nor.sectorSize + nor.sectorSize) :
    (halSnorErase E nor (c.withCells m) addr .sector).2.cells i =
      (halSnorErase E nor c addr .sector).2.cells i := by
  have henabled' : ((snorWriteEnable E c).2.withCells m).writeEnabled = true := henabled
  have hstart : ((snorWriteEnable E c).2.withCells m).start .erase (eraseRange nor addr .sector).1
      (eraseRange nor addr .sector).2 (fun _ _ => 0xFF) =
        ((snorWriteEnable E c).2.start .erase (eraseRange nor addr .sector).1
          (eraseRange nor addr .sector).2 fun _ _ => 0xFF).withCells
            (m.fill (eraseRange nor addr .sector).1 (eraseRange nor addr .sector).2 0xFF) := by
    rw [NorChip.start_enabled henabled', NorChip.start_enabled henabled]
    rfl
  have hfill : m.fill (eraseRange nor addr .sector).1 (eraseRange nor addr .sector).2 0xFF i =
      ((snorWriteEnable E c).2.start .erase (eraseRange nor addr .sector).1
        (eraseRange nor addr .sector).2 fun _ _ => 0xFF).cells i := by
    have hnew : (snorWriteEnable E c).2.cells.fill (eraseRange nor addr .sector).1
        (eraseRange nor addr .sector).2 0xFF i = 0xFF := fill_of_mem hi
    rw [NorChip.start_enabled henabled]
    exact (fill_of_mem hi).trans hnew.symm
  have hsector : (snorErase E nor ((snorWriteEnable E c).2.withCells m) addr .sector).2.cells i =
      (snorErase E nor (snorWriteEnable E c).2 addr .sector).2.cells i := by
    simp only [snorErase, hstart]
    by_cases hx : E.xfer .erase (snorWriteEnable E c).2.clock = true
    · rw [if_pos hx, if_pos (show E.xfer .erase ((snorWriteEnable E c).2.withCells m).clock = true
        from hx)]
      exact hfill
    · rw [if_neg hx, if_neg (show ¬ E.xfer .erase ((snorWriteEnable E c).2.withCells m).clock = true
        from hx)]
      exact settle_agrees hfill
  obtain ⟨hstatus, m₁, hchip⟩ := @snorErase_withCells E nor (snorWriteEnable E c).2 m addr .sector
  rw [hchip] at hsector
  simp only [halSnorErase, snorWriteEnable_withCells, hstatus, hchip, if_neg (Nat.not_le.mpr hsize)]
  split_ifs
  · exact hsector
  · exact snorWaitBusy_agrees _ hsector

theorem snorErase_status : (snorErase E nor c addr .sector).1 = efiSuccess ↔
    E.xfer .erase c.clock = true := by
  simp only [snorErase]
  split_ifs with h
  · exact iff_of_true rfl h
  · exact iff_of_false (encodeError_ne_success 18) h

theorem halSnorErase_status : (halSnorErase E nor c addr .sector).1 = efiSuccess ↔
    addr < nor.size ∧ EraseSeen E nor c addr := by
  simp only [halSnorErase]
  split_ifs with hsize hsent
  · exact iff_of_false (encodeError_ne_success 7) fun h => absurd h.1 (Nat.not_lt.mpr hsize)
  · refine iff_of_false hsent fun h => hsent (snorErase_status.mpr h.2.sent)
  · rw [not_not] at hsent
    exact ⟨fun h => ⟨Nat.not_le.mp hsize, snorErase_status.mp hsent, h⟩, fun h => h.2.ready⟩

/-- An erase that the chip does not take leaves the cells. -/
theorem halSnorErase_ignored (hj : c.job = .idle) (henabled : ¬ Enabled E c) :
    (halSnorErase E nor c addr .sector).2.cells = c.cells := by
  have hidle : (snorWriteEnable E c).2.tick.job = .idle := by
    rw [NorChip.tick_job, snorWriteEnable_job]
    exact hj
  have hsector : (snorErase E nor (snorWriteEnable E c).2 addr .sector).2.cells = c.cells ∧
      (snorErase E nor (snorWriteEnable E c).2 addr .sector).2.job = .idle := by
    simp only [snorErase]
    rw [NorChip.start_disabled henabled]
    split_ifs
    · exact ⟨snorWriteEnable_cells E c, hidle⟩
    · refine ⟨?_, rfl⟩
      rw [NorChip.settle_idle_cells E _ hidle]
      exact snorWriteEnable_cells E c
  simp only [halSnorErase]
  split_ifs
  · rfl
  · exact hsector.1
  · rw [(snorWaitBusy_spec E _ _).2.2.1 hsector.2]
    exact hsector.1

theorem halSnorErase_erased (hj : c.job = .idle) {p : ℕ × ℕ} (h : SectorErased E nor c p) :
    (halSnorErase E nor c p.1 .sector).2.cells =
      c.cells.fill (p.1 - p.1 % nor.sectorSize) nor.sectorSize 0xFF := by
  have hj' : (snorWriteEnable E c).2.job = .idle := by
    rw [snorWriteEnable_job]
    exact hj
  have hsent : (snorErase E nor (snorWriteEnable E c).2 p.1 .sector).1 = efiSuccess :=
    snorErase_status.mpr h.seen.sent
  obtain ⟨-, -, ⟨-, hfill⟩ | ⟨herr, -⟩⟩ := snorErase_spec E nor hj' p.1 .sector
  swap
  · rw [hsent] at herr
    cases herr
  have hchip : (halSnorErase E nor c p.1 .sector).2 = (snorWaitBusy E (snorErase E nor
      (snorWriteEnable E c).2 p.1 .sector).2 (eraseTimeout .sector * 1000)).2 := by
    simp only [halSnorErase]
    rw [if_neg (Nat.not_le.mpr h.inside), if_neg (not_not.mpr hsent)]
  rw [hchip]
  obtain ⟨-, -, -, ⟨-, hwait⟩ | herr⟩ := snorWaitBusy_spec E (eraseTimeout .sector * 1000)
    (snorErase E nor (snorWriteEnable E c).2 p.1 .sector).2
  · rw [hwait, hfill h.enabled, snorWriteEnable_cells]
    rfl
  · rw [h.seen.ready] at herr
    cases herr

end Sector

section Conditions

variable {E : NorEnv} {nor : SpiNor} {c : NorChip} {m : Cells UInt8}

theorem enabled_withCells : Enabled E (c.withCells m) ↔ Enabled E c := by
  rw [Enabled, Enabled, snorWriteEnable_withCells]
  rfl

theorem eraseSeen_withCells {addr : ℕ} :
    EraseSeen E nor (c.withCells m) addr ↔ EraseSeen E nor c addr := by
  have hstatus := (@halSnorErase_withCells E nor c m addr .sector).1
  have hsent : E.xfer .erase (snorWriteEnable E (c.withCells m)).2.clock =
      E.xfer .erase (snorWriteEnable E c).2.clock := by
    rw [snorWriteEnable_withCells]
    rfl
  have hready : (snorWaitBusy E (snorErase E nor (snorWriteEnable E (c.withCells m)).2 addr
      .sector).2 (eraseTimeout .sector * 1000)).1 = (snorWaitBusy E (snorErase E nor
        (snorWriteEnable E c).2 addr .sector).2 (eraseTimeout .sector * 1000)).1 := by
    obtain ⟨-, m₁, hchip⟩ := @snorErase_withCells E nor (snorWriteEnable E c).2 m addr .sector
    rw [snorWriteEnable_withCells, hchip]
    exact (snorWaitBusy_withCells _ _ _).1
  exact ⟨fun h => ⟨hsent ▸ h.sent, hready ▸ h.ready⟩, fun h => ⟨hsent ▸ h.sent, hready ▸ h.ready⟩⟩

theorem sectorErased_withCells {p : ℕ × ℕ} :
    SectorErased E nor (c.withCells m) p ↔ SectorErased E nor c p :=
  ⟨fun h => ⟨h.inside, enabled_withCells.mp h.enabled, eraseSeen_withCells.mp h.seen⟩,
    fun h => ⟨h.inside, enabled_withCells.mpr h.enabled, eraseSeen_withCells.mpr h.seen⟩⟩

theorem eraseStep_withCells {p : ℕ × ℕ} :
    ∃ m', eraseStep E nor (c.withCells m) p = (eraseStep E nor c p).withCells m' :=
  halSnorErase_withCells p.1 .sector |>.2

theorem allErased_withCells : ∀ (ps : List (ℕ × ℕ)) {c : NorChip} {m : Cells UInt8},
    AllowedRun (eraseStep E nor) (SectorErased E nor) (c.withCells m) ps ↔
      AllowedRun (eraseStep E nor) (SectorErased E nor) c ps
  | [], _, _ => Iff.rfl
  | p :: ps, c, m => by
    obtain ⟨m', hstep⟩ := @eraseStep_withCells E nor c m p
    rw [AllowedRun, AllowedRun, hstep]
    exact and_congr sectorErased_withCells (allErased_withCells ps)

theorem eraseIgnored_withCells : ∀ (ps : List (ℕ × ℕ)) {c : NorChip} {m : Cells UInt8},
    EraseIgnored E nor (c.withCells m) ps ↔ EraseIgnored E nor c ps
  | [], _, _ => Iff.rfl
  | p :: ps, c, m => by
    obtain ⟨m', hstep⟩ := @eraseStep_withCells E nor c m p
    rw [EraseIgnored, EraseIgnored, hstep]
    exact or_congr Iff.rfl (and_congr (not_congr enabled_withCells)
      (imp_congr eraseSeen_withCells (eraseIgnored_withCells ps)))

end Conditions

section Loop

variable {E : NorEnv} {nor : SpiNor} {c : NorChip} {offset len : ℕ}

theorem halSnorErase_error (hj : c.job = .idle) {addr : ℕ} : efiError
    (halSnorErase E nor c addr .sector).1 = true ↔ ¬ (addr < nor.size ∧ EraseSeen E nor c addr) := by
  rw [← halSnorErase_status]
  obtain ⟨-, -, ⟨hs, -⟩ | herr⟩ := halSnorErase_spec E nor hj addr .sector
  · rw [hs]
    exact iff_of_false (by rw [efiError_success]; nofun) (not_not.mpr rfl)
  · refine iff_of_true herr fun hs => ?_
    rw [hs, efiError_success] at herr
    cases herr

/-- The sectors are erased one after the other, up to the first that is not seen through. -/
theorem eraseLoop_succ {fuel : ℕ} (hj : c.job = .idle) (hlen : len ≠ 0) :
    (¬ (offset < nor.size ∧ EraseSeen E nor c offset) ∧
      efiError (eraseLoop E nor (fuel + 1) c offset len).1 = true ∧
      (eraseLoop E nor (fuel + 1) c offset len).2 = (halSnorErase E nor c offset .sector).2) ∨
    (offset < nor.size ∧ EraseSeen E nor c offset) ∧
      eraseLoop E nor (fuel + 1) c offset len = eraseLoop E nor fuel
        (halSnorErase E nor c offset .sector).2 (offset + nor.sectorSize) (len - nor.sectorSize) := by
  have hsize := nor.size_le
  have herr := @halSnorErase_error E nor c hj offset
  simp only [eraseLoop, if_neg hlen]
  split_ifs with hs
  · exact .inl ⟨herr.mp hs, hs, rfl⟩
  · have hseen := not_not.mp (mt herr.mpr hs)
    refine .inr ⟨hseen, ?_⟩
    rw [toUint32_of_lt (by simp only [SpiNor.sectorSize]; omega)]

theorem eraseLoop_zero {fuel : ℕ} : eraseLoop E nor fuel c offset 0 = (efiSuccess, c) := by
  cases fuel <;> rfl

theorem sectorPieces_succ {fuel : ℕ} (hlen : len ≠ 0) (halign : len % nor.sectorSize = 0) :
    pieces (fun _ remain => min nor.sectorSize remain) (fuel + 1) offset len =
      (offset, nor.sectorSize) :: pieces (fun _ remain => min nor.sectorSize remain) fuel
        (offset + nor.sectorSize) (len - nor.sectorSize) := by
  have hle : nor.sectorSize ≤ len := Nat.le_of_dvd (by omega) (Nat.dvd_of_mod_eq_zero halign)
  rw [pieces, if_neg hlen, min_eq_left hle]

/-- Cells in front of the range stay. -/
theorem eraseLoop_before : ∀ (fuel : ℕ) {c : NorChip} {offset len i : ℕ}, c.job = .idle →
    offset % nor.sectorSize = 0 → i < offset →
      (eraseLoop E nor fuel c offset len).2.cells i = c.cells i
  | 0, _, _, _, _, _, _, _ => rfl
  | fuel + 1, c, offset, len, i, hj, halign, hi => by
    by_cases hlen : len = 0
    · rw [hlen, eraseLoop_zero]
    obtain ⟨hsame, hidle, -⟩ := halSnorErase_spec E nor hj offset .sector
    have hout : i ∉ Set.Ico (eraseRange nor offset .sector).1
        ((eraseRange nor offset .sector).1 + (eraseRange nor offset .sector).2) := by
      rw [Set.mem_Ico, eraseRange, halign]
      omega
    rcases @eraseLoop_succ E nor c offset len fuel hj hlen with ⟨-, -, hchip⟩ | ⟨-, hloop⟩
    · rw [hchip]
      exact hsame i hout
    · rw [hloop, eraseLoop_before fuel hidle (by rw [Nat.add_mod_right, halign]) (by omega)]
      exact hsame i hout

/-- Sectors that are all erased are the range. -/
theorem eraseLoop_erased : ∀ (fuel : ℕ) {c : NorChip} {offset len : ℕ}, c.job = .idle →
    offset % nor.sectorSize = 0 → len % nor.sectorSize = 0 → len ≤ fuel →
      AllowedRun (eraseStep E nor) (SectorErased E nor) c
        (pieces (fun _ remain => min nor.sectorSize remain) fuel offset len) →
        (eraseLoop E nor fuel c offset len).1 = efiSuccess ∧
          (eraseLoop E nor fuel c offset len).2.cells = c.cells.fill offset len 0xFF
  | 0, c, offset, len, _, _, _, hfuel, _ => by
    obtain rfl : len = 0 := by omega
    exact ⟨rfl, modify_zero.symm⟩
  | fuel + 1, c, offset, len, hj, halign, hmod, hfuel, hrun => by
    by_cases hlen : len = 0
    · rw [hlen, eraseLoop_zero]
      exact ⟨rfl, modify_zero.symm⟩
    rw [sectorPieces_succ hlen hmod] at hrun
    obtain ⟨hsector, hrest⟩ := hrun
    have hle : nor.sectorSize ≤ len := Nat.le_of_dvd (by omega) (Nat.dvd_of_mod_eq_zero hmod)
    have hpos : 0 < nor.sectorSize := by simp [SpiNor.sectorSize]
    obtain ⟨-, hidle, -⟩ := halSnorErase_spec E nor hj offset .sector
    have hfill := halSnorErase_erased hj hsector
    rw [halign, Nat.sub_zero] at hfill
    rcases @eraseLoop_succ E nor c offset len fuel hj hlen with ⟨herr, -⟩ | ⟨-, hloop⟩
    · exact absurd ⟨hsector.inside, hsector.seen⟩ herr
    · obtain ⟨hs, hcells⟩ := eraseLoop_erased fuel hidle (by rw [Nat.add_mod_right, halign])
        (by rw [← Nat.mod_eq_sub_mod hle]; exact hmod) (by omega) hrest
      rw [hloop, hs, hcells, hfill, fill_fill, Nat.add_sub_cancel' hle]
      exact ⟨rfl, rfl⟩

/-- An error before the chip takes an erase leaves the cells. -/
theorem eraseLoop_ignored : ∀ (fuel : ℕ) {c : NorChip} {offset len : ℕ}, c.job = .idle →
    len % nor.sectorSize = 0 → EraseIgnored E nor c
      (pieces (fun _ remain => min nor.sectorSize remain) fuel offset len) →
        efiError (eraseLoop E nor fuel c offset len).1 = true ∧
          (eraseLoop E nor fuel c offset len).2.cells = c.cells
  | 0, _, _, _, _, _, h => absurd h id
  | fuel + 1, c, offset, len, hj, hmod, h => by
    have hlen : len ≠ 0 := by
      rintro rfl
      exact h
    rw [sectorPieces_succ hlen hmod] at h
    have hle : nor.sectorSize ≤ len := Nat.le_of_dvd (by omega) (Nat.dvd_of_mod_eq_zero hmod)
    obtain ⟨-, hidle, -⟩ := halSnorErase_spec E nor hj offset .sector
    rcases @eraseLoop_succ E nor c offset len fuel hj hlen with ⟨hnot, herr, hchip⟩ | ⟨hseen, hloop⟩
    · rw [hchip]
      refine ⟨herr, ?_⟩
      rcases h with hout | ⟨hdisabled, -⟩
      · rw [halSnorErase, if_pos hout]
      · exact halSnorErase_ignored hj hdisabled
    · obtain ⟨hdisabled, hrest⟩ := h.resolve_left (Nat.not_le.mpr hseen.1)
      obtain ⟨herr, hcells⟩ := eraseLoop_ignored fuel hidle
        (by rw [← Nat.mod_eq_sub_mod hle]; exact hmod) (hrest hseen.2)
      rw [hloop, hcells]
      exact ⟨herr, halSnorErase_ignored hj hdisabled⟩

/-- A range without a byte of `0xFF` that is erased has had all its sectors erased. -/
theorem erased_of_eraseLoop : ∀ (fuel : ℕ) {c : NorChip} {offset len : ℕ}, c.job = .idle →
    offset % nor.sectorSize = 0 → len % nor.sectorSize = 0 → len ≤ fuel →
      (∀ i, offset ≤ i → i < offset + len → c.cells i = 0) →
      (eraseLoop E nor fuel c offset len).1 = efiSuccess →
      (eraseLoop E nor fuel c offset len).2.cells = c.cells.fill offset len 0xFF →
        AllowedRun (eraseStep E nor) (SectorErased E nor) c
          (pieces (fun _ remain => min nor.sectorSize remain) fuel offset len)
  | 0, _, _, _, _, _, _, _, _, _, _ => trivial
  | fuel + 1, c, offset, len, hj, halign, hmod, hfuel, hzero, hs, hcells => by
    by_cases hlen : len = 0
    · rw [pieces, if_pos hlen]
      trivial
    rw [sectorPieces_succ hlen hmod]
    have hle : nor.sectorSize ≤ len := Nat.le_of_dvd (by omega) (Nat.dvd_of_mod_eq_zero hmod)
    have hpos : 0 < nor.sectorSize := by simp [SpiNor.sectorSize]
    obtain ⟨-, hidle, -⟩ := halSnorErase_spec E nor hj offset .sector
    rcases @eraseLoop_succ E nor c offset len fuel hj hlen with ⟨-, herr, -⟩ | ⟨hseen, hloop⟩
    · rw [hs, efiError_success] at herr
      cases herr
    rw [hloop] at hs hcells
    have henabled : Enabled E c := by
      by_contra hdisabled
      have hfirst := congrFun hcells offset
      rw [eraseLoop_before fuel hidle (by rw [Nat.add_mod_right, halign]) (by omega),
        halSnorErase_ignored hj hdisabled, fill_of_mem (by omega), hzero offset le_rfl (by omega)]
        at hfirst
      exact absurd hfirst (by decide)
    have hsector : SectorErased E nor c (offset, nor.sectorSize) := ⟨hseen.1, henabled, hseen.2⟩
    have hfill := halSnorErase_erased hj hsector
    rw [halign, Nat.sub_zero] at hfill
    refine ⟨hsector, erased_of_eraseLoop fuel hidle (by rw [Nat.add_mod_right, halign])
      (by rw [← Nat.mod_eq_sub_mod hle]; exact hmod) (by omega) (fun i hlow hhigh => ?_) hs ?_⟩
    · rw [eraseStep, hfill, fill_of_notMem (by omega)]
      exact hzero i (by omega) (by omega)
    · rw [eraseStep, hcells, hfill, fill_fill, Nat.add_sub_cancel' hle]

/-- A flash that stays what it was, be it full of zeros or of ones, has taken no erase. -/
theorem ignored_of_eraseLoop : ∀ (fuel : ℕ) {c : NorChip} {offset len : ℕ}, c.job = .idle →
    offset % nor.sectorSize = 0 → len % nor.sectorSize = 0 → len ≤ fuel →
      (∀ b, efiError (eraseLoop E nor fuel (c.withCells fun _ => b) offset len).1 = true ∧
        (eraseLoop E nor fuel (c.withCells fun _ => b) offset len).2.cells = fun _ => b) →
        EraseIgnored E nor c (pieces (fun _ remain => min nor.sectorSize remain) fuel offset len)
  | 0, c, offset, len, _, _, _, hfuel, h => by
    have herr := (h 0).1
    rw [eraseLoop, efiError_success] at herr
    cases herr
  | fuel + 1, c, offset, len, hj, halign, hmod, hfuel, h => by
    by_cases hlen : len = 0
    · have herr := (h 0).1
      rw [hlen, eraseLoop_zero, efiError_success] at herr
      cases herr
    rw [sectorPieces_succ hlen hmod]
    have hle : nor.sectorSize ≤ len := Nat.le_of_dvd (by omega) (Nat.dvd_of_mod_eq_zero hmod)
    have hpos : 0 < nor.sectorSize := by simp [SpiNor.sectorSize]
    rcases Nat.lt_or_ge offset nor.size with hin | hout
    swap
    · exact .inl hout
    have hidle : ∀ m, (halSnorErase E nor (c.withCells m) offset .sector).2.job = .idle := fun m =>
      (halSnorErase_spec E nor (c := c.withCells m) hj offset .sector).2.1
    have hdisabled : ¬ Enabled E c := by
      intro henabled
      -- what the first cell is left with would be a zero and a one
      have hcell : ∀ b, (halSnorErase E nor c offset .sector).2.cells offset = b := by
        intro b
        have hforget := @halSnorErase_forgets E nor c (fun _ => b) offset offset hin henabled
          (by omega)
        rw [← hforget]
        refine Eq.trans ?_ (congrFun (h b).2 offset)
        rcases @eraseLoop_succ E nor (c.withCells fun _ => b) offset len fuel hj hlen with
          ⟨-, -, hchip⟩ | ⟨-, hloop⟩
        · rw [hchip]
        · rw [hloop]
          exact (eraseLoop_before fuel (hidle _) (by rw [Nat.add_mod_right, halign])
            (by omega)).symm
      exact absurd ((hcell 0).symm.trans (hcell 1)) (by decide)
    refine .inr ⟨hdisabled, fun hseen => ignored_of_eraseLoop fuel
      (halSnorErase_spec E nor hj offset .sector).2.1 (by rw [Nat.add_mod_right, halign])
      (by rw [← Nat.mod_eq_sub_mod hle]; exact hmod) (by omega) fun b => ?_⟩
    obtain ⟨-, m, hm⟩ := @halSnorErase_withCells E nor c (fun _ => b) offset .sector
    have hkept := @halSnorErase_ignored E nor (c.withCells fun _ => b) offset hj
      (mt enabled_withCells.mp hdisabled)
    rw [hm] at hkept
    obtain rfl : m = fun _ => b := hkept
    rcases @eraseLoop_succ E nor (c.withCells fun _ => b) offset len fuel hj hlen with
      ⟨hnot, -⟩ | ⟨-, hloop⟩
    · exact absurd ⟨hin, eraseSeen_withCells.mpr hseen⟩ hnot
    · rw [hm] at hloop
      have hb := h b
      rw [hloop] at hb
      exact hb

end Loop

theorem eraseLoop_status : ∀ (fuel : ℕ) (E : NorEnv) (nor : SpiNor) (c : NorChip) (m : Cells UInt8)
    (offset len : ℕ), (eraseLoop E nor fuel (c.withCells m) offset len).1 =
      (eraseLoop E nor fuel c offset len).1
  | 0, _, _, _, _, _, _ => rfl
  | fuel + 1, E, nor, c, m, offset, len => by
    obtain ⟨hstatus, m', hchip⟩ := @halSnorErase_withCells E nor c m offset .sector
    simp only [eraseLoop, hstatus, hchip]
    split_ifs
    · rfl
    · rfl
    · exact eraseLoop_status fuel E nor _ m' _ _

/-- An aligned range is erased as it should be exactly where all its sectors are, or where it does
not lie in the flash and the loop gets to an error before the chip takes an erase. -/
theorem norErases_iff (E : NorEnv) (nor : SpiNor) {c : NorChip} {offset len : ℕ}
    (hj : c.job = .idle) (halign : offset % nor.sectorSize = 0) (hmod : len % nor.sectorSize = 0) :
    NorErases E nor c offset len ↔
      AllowedRun (eraseStep E nor) (SectorErased E nor) c (sectorPieces nor offset len) ∨
        nor.Beyond offset len ∧ EraseIgnored E nor c (sectorPieces nor offset len) := by
  have hloop : ∀ m, norErase E nor (c.withCells m) offset len =
      eraseLoop E nor len (c.withCells m) offset len := by
    intro m
    rw [norErase, if_neg (by omega)]
  constructor
  · intro h
    simp only [NorErases, hloop] at h
    by_cases hb : nor.Beyond offset len ∧
        efiError (eraseLoop E nor len (c.withCells fun _ => 0) offset len).1 = true
    · refine .inr ⟨hb.1, ignored_of_eraseLoop len hj halign hmod le_rfl fun b => ?_⟩
      rcases h fun _ => b with ⟨hs, -⟩ | ⟨-, hb⟩
      · have herr := hb.2
        rw [eraseLoop_status] at hs herr
        rw [hs, efiError_success] at herr
        cases herr
      · exact hb
    · rcases h fun _ => 0 with ⟨hs, hcells⟩ | ⟨hout, herr, -⟩
      · refine .inl ((allErased_withCells _).mp (erased_of_eraseLoop len (c := c.withCells fun _ => 0)
          hj halign hmod le_rfl (fun _ _ _ => rfl) hs hcells))
      · exact absurd ⟨hout, herr⟩ hb
  · rintro (h | ⟨hout, h⟩) m <;> rw [hloop]
    · exact .inl (eraseLoop_erased len hj halign hmod le_rfl ((allErased_withCells _).mpr h))
    · exact .inr ⟨hout, eraseLoop_ignored len hj hmod ((eraseIgnored_withCells _).mpr h)⟩

/-- A sector of a chip that answers is erased. -/
theorem norErases_healthy : NorErases NorEnv.healthy spiNor16M erasedChip 0 4096 :=
  (norErases_iff NorEnv.healthy spiNor16M rfl rfl rfl).mpr
    (.inl ⟨⟨by decide, rfl, rfl, by decide +kernel⟩, trivial⟩)

/-- The last sector and one more: the last sector is erased before the error. -/
theorem norErases_not : ¬ NorErases NorEnv.healthy spiNor16M erasedChip 0xFFF000 0x2000 := by
  intro h
  have hstatus : (norErase NorEnv.healthy spiNor16M (erasedChip.withCells fun _ => 0) 0xFFF000
      0x2000).1 = efiDeviceError := by decide +kernel
  have hcell : (norErase NorEnv.healthy spiNor16M (erasedChip.withCells fun _ => 0) 0xFFF000
      0x2000).2.cells 0xFFF000 = 0xFF := by decide +kernel
  rcases h fun _ => 0 with ⟨hs, -⟩ | ⟨-, -, hcells⟩
  · rw [hstatus] at hs
    exact absurd hs (encodeError_ne_success 7)
  · rw [hcells] at hcell
    exact absurd hcell (by decide)

end Edk2Rk3576
