import Edk2Rk3576.NorFlash.Effects

/-!
# Rewriting a range of the flash

`Update` goes through the range in pieces of up to a sector, and `SpiFlashUpdateBlock` erases the
sector of a piece and programs it again, with what a scratch buffer has kept of the sector. How far
the range starts into its sector is computed once, for all pieces.
-/

namespace Edk2Rk3576

open Cells

/-- `TmpBuf`, with the ranges of it that were read or written. -/
structure Scratch where
  cells : Cells UInt8
  touched : List (ℕ × ℕ)

namespace Scratch

def touch (t : Scratch) (pos n : ℕ) : Scratch := { t with touched := (pos, n) :: t.touched }

/-- `CopyMem (&TmpBuf[pos], buf, n)`. -/
def copyMem (t : Scratch) (pos : ℕ) (buf : Cells UInt8) (n : ℕ) : Scratch :=
  { t with cells := t.cells.write pos n buf }.touch pos n

@[simp] theorem touch_cells (t : Scratch) (pos n : ℕ) : (t.touch pos n).cells = t.cells := rfl

@[simp] theorem copyMem_cells (t : Scratch) (pos : ℕ) (buf : Cells UInt8) (n : ℕ) :
    (t.copyMem pos buf n).cells = t.cells.write pos n buf := rfl

/-- Nothing was touched behind the first `n` bytes. -/
def Within (t : Scratch) (n : ℕ) : Prop := ∀ r ∈ t.touched, r.1 + r.2 ≤ n

theorem Within.touch {t : Scratch} {pos n k : ℕ} (h : t.Within n) (hk : pos + k ≤ n) :
    (t.touch pos k).Within n :=
  List.forall_mem_cons.2 ⟨hk, h⟩

theorem Within.copyMem {t : Scratch} {pos n k : ℕ} {buf : Cells UInt8} (h : t.Within n)
    (hk : pos + k ≤ n) : (t.copyMem pos buf k).Within n :=
  List.forall_mem_cons.2 ⟨hk, h⟩

end Scratch

section Driver

variable (E : NorEnv) (nor : SpiNor)

/-- `SpiFlashUpdateBlock`, with the sector's size for `EraseSize`. -/
def spiFlashUpdateBlock (c : NorChip) (tmpBuf : Scratch) (offset align toUpdate : ℕ)
    (buf : Cells UInt8) : EfiStatus × Scratch × NorChip :=
  let eraseSize := nor.sectorSize
  let (status, tmpBuf, c) :=
    if toUpdate ≠ eraseSize then
      let (status, cells, c) := norRead E nor c (offset - align) tmpBuf.cells eraseSize
      (status, { tmpBuf with cells }.touch 0 eraseSize, c)
    else (efiSuccess, tmpBuf, c)
  if efiError status then (status, tmpBuf, c)
  else
    let (status, c) := halSnorErase E nor c offset .sector
    if efiError status then (status, tmpBuf, c)
    else if align ≠ 0 then
      let tmpBuf := (tmpBuf.copyMem align buf toUpdate).touch 0 eraseSize
      let (status, c) := halSnorProgData E nor c (offset - align) tmpBuf.cells eraseSize
      (if efiError status then status else efiSuccess, tmpBuf, c)
    else
      let (status, c) := halSnorProgData E nor c offset buf toUpdate
      if efiError status then (status, tmpBuf, c)
      else if toUpdate ≠ eraseSize then
        let (status, c) := halSnorProgData E nor c (offset + toUpdate)
          (fun k => tmpBuf.cells (toUpdate + k)) (eraseSize - toUpdate)
        (if efiError status then status else efiSuccess,
          tmpBuf.touch toUpdate (eraseSize - toUpdate), c)
      else (efiSuccess, tmpBuf, c)

/-- The loop of `Update`; `fuel` pieces are enough when it is at least `remain`. -/
def updateLoop (align : ℕ) : (fuel : ℕ) → NorChip → Scratch → (offset : ℕ) →
    (buffer : Cells UInt8) → (remain : ℕ) → EfiStatus × Scratch × NorChip
  | 0, c, tmpBuf, _, _, _ => (efiSuccess, tmpBuf, c)
  | fuel + 1, c, tmpBuf, offset, buffer, remain =>
    if remain = 0 then (efiSuccess, tmpBuf, c)
    else
      let toUpdate := min remain nor.sectorSize
      let (status, tmpBuf, c) := spiFlashUpdateBlock E nor c tmpBuf offset align toUpdate buffer
      if efiError status then (status, tmpBuf, c)
      else
        updateLoop align fuel c tmpBuf (toUint32 (offset + toUpdate))
          (fun k => buffer (toUpdate + k)) (remain - toUpdate)

/-- `Update` of the flash protocol. The size of a sector is a power of two. -/
def norUpdate (allocated : Bool) (c : NorChip) (offset : ℕ) (buffer : Cells UInt8)
    (ulLength : ℕ) : EfiStatus × Scratch × NorChip :=
  let align := offset % nor.sectorSize
  if allocated then updateLoop E nor align ulLength c ⟨fun _ => 0, []⟩ offset buffer ulLength
  else (efiOutOfResources, ⟨fun _ => 0, []⟩, c)

/-- A success means that the range holds the buffer and the rest of the flash what it did. The
scratch buffer is as large as a sector. -/
structure NorUpdates (r : EfiStatus × Scratch × NorChip) (c : NorChip) (offset : ℕ)
    (buffer : Cells UInt8) (ulLength : ℕ) : Prop where
  cells : r.1 = efiSuccess → r.2.2.cells = c.cells.write offset ulLength buffer
  scratch : r.2.1.Within nor.sectorSize

end Driver

namespace NorEnv.Healthy

variable {E : NorEnv} (hE : E.Healthy) (nor : SpiNor) {c : NorChip} {addr len : ℕ}

include hE

/-- A program in range clears bits of its range. -/
theorem halSnorProgData (hj : c.job = .idle) (hlen : addr + len ≤ nor.size) (haddr : addr < nor.size)
    (buf : Cells UInt8) :
    efiError (halSnorProgData E nor c addr buf len).1 = false ∧
      (halSnorProgData E nor c addr buf len).2.cells
        = c.cells.modify addr len (fun k old => old &&& buf k) ∧
      (halSnorProgData E nor c addr buf len).2.job = .idle := by
  have hsize := nor.size_le
  have hin : ¬ nor.outside addr len := by
    rw [SpiNor.outside, toUint32_of_lt (by omega)]
    omega
  refine ⟨?_, halSnorProgData_of_completes E nor hin (hE.progCompletes nor _ _ _ _ _),
    (halSnorProgData_frame E nor hj addr buf len).2⟩
  rw [← Bool.not_eq_true, halSnorProgData_status E nor (by omega)]
  exact hin

/-- An erase in range fills its sector. -/
theorem halSnorErase_cells (hj : c.job = .idle) (haddr : addr < nor.size) :
    efiError (Edk2Rk3576.halSnorErase E nor c addr .sector).1 = false ∧
      (Edk2Rk3576.halSnorErase E nor c addr .sector).2.cells
        = c.cells.fill (addr - addr % nor.sectorSize) nor.sectorSize 0xFF ∧
      (Edk2Rk3576.halSnorErase E nor c addr .sector).2.job = .idle := by
  obtain ⟨-, hidle, hdone⟩ := halSnorErase_spec E nor hj addr .sector
  have hs := hE.halSnorErase nor (c := c) haddr
  refine ⟨by rw [hs]; rfl, ?_, hidle⟩
  rcases hdone with ⟨-, hcells⟩ | herr
  · exact hcells (hE.enable _)
  · rw [hs] at herr
    exact absurd herr (by decide)

/-- A read that is not in range fails, another one copies the cells. -/
theorem norRead_cells (addr len : ℕ) (hj : c.job = .idle) (hlen : len < 2 ^ 31)
    (dst : Cells UInt8) :
    efiError (norRead E nor c addr dst len).1 = true ∧ (nor.size ≤ addr ∨ nor.size < addr + len) ∨
      addr + len ≤ nor.size ∧ efiError (norRead E nor c addr dst len).1 = false ∧
        (norRead E nor c addr dst len).2.1 = dst.write 0 len (fun k => c.cells (addr + k)) ∧
        (norRead E nor c addr dst len).2.2.cells = c.cells ∧
        (norRead E nor c addr dst len).2.2.job = .idle := by
  have hsize := nor.size_le
  by_cases hout : nor.outside addr len
  · refine Or.inl ⟨?_, ?_⟩
    · rw [norRead, if_pos hout]
      exact efiError_deviceError
    · have hle : toUint32 (addr + len) ≤ addr + len := Nat.mod_le _ _
      unfold SpiNor.outside at hout
      omega
  · obtain ⟨hstatus, hdst, hcells, hjob⟩ := norRead_ok E nor hE.readXfer hout dst
    refine Or.inr ⟨?_, ?_, hdst, hcells, hjob.trans hj⟩
    · rw [SpiNor.outside, not_or, not_or] at hout
      rw [toUint32_of_lt (by omega)] at hout
      omega
    · rw [hstatus]
      exact efiError_of_lt (by omega)

end NorEnv.Healthy

section Driver

variable {E : NorEnv} {nor : SpiNor} {c : NorChip} {tmpBuf : Scratch} {offset align n : ℕ}
  {buf : Cells UInt8}

theorem and_erased (b : UInt8) : 0xFF &&& b = b := by
  apply UInt8.toBitVec_inj.1
  exact BitVec.allOnes_and

/-- A range that was erased takes what is programmed. -/
theorem program_fill {m b : Cells UInt8} {a n k : ℕ} (h : n ≤ k) :
    (m.fill a k 0xFF).modify a n (fun j old => old &&& b j) = (m.fill a k 0xFF).write a n b := by
  funext i
  by_cases hi : a ≤ i ∧ i < a + n
  · rw [modify_of_mem hi, fill_of_mem (by omega), and_erased, write, modify_of_mem hi]
  · rw [modify_of_notMem hi, write_of_notMem hi]

theorem fill_write {m b : Cells UInt8} {v : UInt8} {a n : ℕ} :
    (m.fill a n v).write a n b = m.write a n b := by
  funext i
  by_cases hi : a ≤ i ∧ i < a + n
  · rw [write, write, modify_of_mem hi, modify_of_mem hi]
  · rw [write_of_notMem hi, write_of_notMem hi, fill_of_notMem hi]

/-- Programming what was kept behind the first `n` bytes of a sector brings it back. -/
theorem program_kept {m b kept : Cells UInt8} {a n k : ℕ} (h : n ≤ k)
    (hkept : ∀ j < k, kept j = m (a + j)) :
    ((m.fill a k 0xFF).write a n b).modify (a + n) (k - n) (fun j old => old &&& kept (n + j))
      = m.write a n b := by
  funext i
  by_cases hrest : a + n ≤ i ∧ i < a + n + (k - n)
  · rw [modify_of_mem hrest, write_of_notMem (by omega), write_of_notMem (by omega),
      fill_of_mem (by omega), and_erased, hkept _ (by omega)]
    congr 1
    omega
  · rw [modify_of_notMem hrest]
    by_cases hi : a ≤ i ∧ i < a + n
    · rw [write, write, modify_of_mem hi, modify_of_mem hi]
    · rw [write_of_notMem hi, write_of_notMem hi, fill_of_notMem (by omega)]

/-- A sector that is programmed with what was kept of it and `b` in the middle. -/
theorem program_merged {m b kept : Cells UInt8} {a p n k : ℕ} (h : p + n ≤ k)
    (hkept : ∀ j < k, kept j = m (a + j)) :
    (m.fill a k 0xFF).modify a k (fun j old => old &&& kept.write p n b j)
      = m.write (a + p) n b := by
  funext i
  by_cases hsector : a ≤ i ∧ i < a + k
  · rw [modify_of_mem hsector, fill_of_mem hsector, and_erased]
    by_cases hi : a + p ≤ i ∧ i < a + p + n
    · rw [write, write, modify_of_mem hi, modify_of_mem (by omega)]
      congr 1
      omega
    · rw [write_of_notMem hi, write_of_notMem (by omega), hkept _ (by omega)]
      congr 1
      omega
  · rw [modify_of_notMem hsector, fill_of_notMem hsector, write_of_notMem (by omega)]

/-- A piece is done: the chip holds it, and nothing behind the scratch buffer was touched. It can
only fail in a sector that is not all in the flash. -/
structure PieceDone (nor : SpiNor) (c : NorChip) (offset n : ℕ) (buf : Cells UInt8)
    (r : EfiStatus × Scratch × NorChip) : Prop where
  scratch : r.2.1.Within nor.sectorSize
  done : efiError r.1 = true ∧ nor.size % nor.sectorSize ≠ 0 ∨
    r.1 = efiSuccess ∧ r.2.2.cells = c.cells.write offset n buf ∧ r.2.2.job = .idle

theorem piece_ne_success {r : EfiStatus × Scratch × NorChip} (h : PieceDone nor c offset n buf r)
    (herr : efiError r.1 = true) : r.1 ≠ efiSuccess ∧ nor.size % nor.sectorSize ≠ 0 := by
  have hne : r.1 ≠ efiSuccess := fun hs => absurd (hs ▸ herr) (by decide)
  exact ⟨hne, (h.done.resolve_right fun hdone => hne hdone.1).2⟩

/-- A whole sector. -/
theorem updateBlock_sector (hE : E.Healthy) (hj : c.job = .idle)
    (htmp : tmpBuf.Within nor.sectorSize) (halign : offset % nor.sectorSize = 0)
    (hin : offset + nor.sectorSize ≤ nor.size) :
    PieceDone nor c offset nor.sectorSize buf
      (spiFlashUpdateBlock E nor c tmpBuf offset 0 nor.sectorSize buf) := by
  have hpos : 0 < nor.sectorSize := by simp [SpiNor.sectorSize]
  obtain ⟨herase, hfill, hidle⟩ := hE.halSnorErase_cells nor hj (by omega : offset < nor.size)
  obtain ⟨hprog, hcells, hidle'⟩ := hE.halSnorProgData nor hidle hin (by omega) buf
  rw [halign, Nat.sub_zero] at hfill
  have hdone : spiFlashUpdateBlock E nor c tmpBuf offset 0 nor.sectorSize buf
      = (efiSuccess, tmpBuf, (halSnorProgData E nor
        (halSnorErase E nor c offset .sector).2 offset buf nor.sectorSize).2) := by
    simp [spiFlashUpdateBlock, herase, hprog]
  rw [hdone]
  refine ⟨htmp, Or.inr ⟨rfl, ?_, hidle'⟩⟩
  rw [hcells, hfill, program_fill le_rfl, fill_write]

/-- The first bytes of a sector. What is behind them is kept in the scratch buffer. -/
theorem updateBlock_head (hE : E.Healthy) (hj : c.job = .idle)
    (htmp : tmpBuf.Within nor.sectorSize) (halign : offset % nor.sectorSize = 0)
    (hpos : 0 < n) (hn : n < nor.sectorSize) (hin : offset + n ≤ nor.size) :
    PieceDone nor c offset n buf (spiFlashUpdateBlock E nor c tmpBuf offset 0 n buf) := by
  have hne : n ≠ nor.sectorSize := by omega
  have hread := hE.norRead_cells nor offset nor.sectorSize hj (by simp [SpiNor.sectorSize])
    tmpBuf.cells
  have hwithin : (Scratch.touch { tmpBuf with
      cells := (norRead E nor c offset tmpBuf.cells nor.sectorSize).2.1 } 0
        nor.sectorSize).Within nor.sectorSize := Scratch.Within.touch htmp (by omega)
  rcases hread with ⟨herr, hout⟩ | ⟨hsector, hread, hkept, hcells, hjob⟩
  · refine ⟨?_, Or.inl ⟨?_, fun hsize => ?_⟩⟩
    · simpa [spiFlashUpdateBlock, hne, herr] using hwithin
    · simp [spiFlashUpdateBlock, hne, herr]
    · rw [SpiNor.sectorSize] at *
      omega
  · obtain ⟨herase, hfill, hidle⟩ := hE.halSnorErase_cells nor hjob (by omega : offset < nor.size)
    obtain ⟨hprog, hnew, hidle⟩ := hE.halSnorProgData nor hidle hin (by omega) buf
    obtain ⟨hback, hold, hidle⟩ := hE.halSnorProgData nor hidle
      (by omega : offset + n + (nor.sectorSize - n) ≤ nor.size) (by omega)
      (fun k => (norRead E nor c offset tmpBuf.cells nor.sectorSize).2.1 (n + k))
    rw [halign, Nat.sub_zero] at hfill
    rw [hnew, hfill, hcells, program_fill hn.le, program_kept hn.le] at hold
    · refine ⟨?_, Or.inr ⟨?_, ?_, ?_⟩⟩
      · simpa [spiFlashUpdateBlock, hne, hread, herase, hprog] using hwithin.touch (by omega)
      · simp [spiFlashUpdateBlock, hne, hread, herase, hprog, hback]
      · simpa [spiFlashUpdateBlock, hne, hread, herase, hprog] using hold
      · simpa [spiFlashUpdateBlock, hne, hread, herase, hprog] using hidle
    · intro j hj
      rw [hkept, write, modify_of_mem (by omega), Nat.sub_zero]

/-- A piece that starts inside of a sector and ends in it is put into what is kept of the sector. -/
theorem updateBlock_inside (buf : Cells UInt8) (hE : E.Healthy) (hj : c.job = .idle)
    (htmp : tmpBuf.Within nor.sectorSize) (halign : align = offset % nor.sectorSize)
    (hne : align ≠ 0) (hn : align + n ≤ nor.sectorSize) (hin : offset + n ≤ nor.size) :
    PieceDone nor c offset n buf (spiFlashUpdateBlock E nor c tmpBuf offset align n buf) := by
  have hpart : n ≠ nor.sectorSize := by omega
  have hread := hE.norRead_cells nor (offset - align) nor.sectorSize hj
    (by simp [SpiNor.sectorSize]) tmpBuf.cells
  have hwithin : (Scratch.touch { tmpBuf with
      cells := (norRead E nor c (offset - align) tmpBuf.cells nor.sectorSize).2.1 } 0
        nor.sectorSize).Within nor.sectorSize := Scratch.Within.touch htmp (by omega)
  have hle : align ≤ offset := halign ▸ Nat.mod_le _ _
  have hlt : align < nor.sectorSize := halign ▸ Nat.mod_lt _ (by simp [SpiNor.sectorSize])
  rcases hread with ⟨herr, hout⟩ | ⟨hsector, hread, hkept, hcells, hjob⟩
  · refine ⟨?_, Or.inl ⟨?_, fun hsize => ?_⟩⟩
    · simpa [spiFlashUpdateBlock, hpart, herr] using hwithin
    · simp [spiFlashUpdateBlock, hpart, herr]
    · rw [SpiNor.sectorSize] at *
      omega
  · obtain ⟨herase, hfill, hidle⟩ := hE.halSnorErase_cells nor hjob (by omega : offset < nor.size)
    obtain ⟨hprog, hnew, hidle⟩ := hE.halSnorProgData nor hidle hsector (by omega)
      ((norRead E nor c (offset - align) tmpBuf.cells nor.sectorSize).2.1.write align n buf)
    rw [hfill, hcells, ← halign, program_merged hn, Nat.sub_add_cancel hle] at hnew
    · refine ⟨?_, Or.inr ⟨?_, ?_, ?_⟩⟩
      · simpa [spiFlashUpdateBlock, hpart, hne, hread, herase] using
          (hwithin.copyMem hn).touch (by omega)
      · simp [spiFlashUpdateBlock, hpart, hne, hread, herase, hprog]
      · simpa [spiFlashUpdateBlock, hpart, hne, hread, herase] using hnew
      · simpa [spiFlashUpdateBlock, hpart, hne, hread, herase] using hidle
    · intro j hj
      rw [hkept, write, modify_of_mem (by omega), Nat.sub_zero]

theorem updateBlock_aligned {remain : ℕ} (buf : Cells UInt8) (hE : E.Healthy) (hj : c.job = .idle)
    (htmp : tmpBuf.Within nor.sectorSize) (halign : offset % nor.sectorSize = 0)
    (hpos : 0 < remain) (hin : offset + remain ≤ nor.size) :
    PieceDone nor c offset (min remain nor.sectorSize) buf
      (spiFlashUpdateBlock E nor c tmpBuf offset 0 (min remain nor.sectorSize) buf) := by
  rcases Nat.lt_or_ge remain nor.sectorSize with hlt | hge
  · rw [min_eq_left hlt.le]
    exact updateBlock_head hE hj htmp halign hpos hlt hin
  · rw [min_eq_right hge]
    exact updateBlock_sector hE hj htmp halign (by omega)

theorem updateLoop_done {fuel : ℕ} :
    updateLoop E nor align fuel c tmpBuf offset buf 0 = (efiSuccess, tmpBuf, c) := by
  cases fuel <;> rfl

theorem write_write {m b : Cells UInt8} {a n k : ℕ} (h : n ≤ k) :
    (m.write a n b).write (a + n) (k - n) (fun j => b (n + j)) = m.write a k b := by
  have hjoin := @modify_modify _ m a n (k - n) fun j _ => b j
  rwa [Nat.add_sub_cancel' h] at hjoin

/-- From the start of a sector on, a piece for each sector. -/
theorem updateLoop_aligned (hE : E.Healthy) : ∀ (fuel : ℕ) {c : NorChip} {tmpBuf : Scratch}
    {offset : ℕ} (buffer : Cells UInt8) {remain : ℕ}, remain ≤ fuel → c.job = .idle →
      tmpBuf.Within nor.sectorSize → offset % nor.sectorSize = 0 → offset + remain ≤ nor.size →
      NorUpdates nor (updateLoop E nor 0 fuel c tmpBuf offset buffer remain) c offset buffer remain ∧
        (nor.size % nor.sectorSize = 0 →
          (updateLoop E nor 0 fuel c tmpBuf offset buffer remain).1 = efiSuccess)
  | 0, c, tmpBuf, offset, buffer, remain, hfuel, hj, htmp, halign, hin => by
    obtain rfl : remain = 0 := by omega
    exact ⟨⟨fun _ => write_zero.symm, htmp⟩, fun _ => rfl⟩
  | fuel + 1, c, tmpBuf, offset, buffer, remain, hfuel, hj, htmp, halign, hin => by
    have hsize := nor.size_le
    simp only [updateLoop]
    split_ifs with h0 herr
    · subst h0
      exact ⟨⟨fun _ => write_zero.symm, htmp⟩, fun _ => rfl⟩
    · have hpiece := updateBlock_aligned buffer hE hj htmp halign (by omega) hin
      have hne := piece_ne_success hpiece herr
      exact ⟨⟨fun hs => absurd hs hne.1, hpiece.scratch⟩, fun hs => absurd hs hne.2⟩
    · have hpiece := updateBlock_aligned buffer hE hj htmp halign (by omega) hin
      obtain ⟨-, hcells, hidle⟩ := hpiece.done.resolve_left fun h => herr h.1
      have hle : min remain nor.sectorSize ≤ remain := min_le_left _ _
      rcases Nat.lt_or_ge remain nor.sectorSize with hlt | hge
      · -- the last piece: the loop ends, wherever its offset is
        rw [min_eq_left hlt.le] at hpiece hcells ⊢
        rw [Nat.sub_self, updateLoop_done]
        exact ⟨⟨fun _ => hcells, hpiece.scratch⟩, fun _ => rfl⟩
      · rw [min_eq_right hge] at hpiece hcells hidle ⊢
        have hpos : 0 < nor.sectorSize := by simp [SpiNor.sectorSize]
        rw [toUint32_of_lt (by omega)]
        obtain ⟨hnext, hsuccess⟩ := updateLoop_aligned hE fuel
          (fun k => buffer (nor.sectorSize + k)) (by omega : remain - nor.sectorSize ≤ fuel) hidle
          hpiece.scratch
          (by rw [Nat.add_mod_right, halign] : (offset + nor.sectorSize) % nor.sectorSize = 0)
          (by omega)
        refine ⟨⟨fun hs => ?_, hnext.scratch⟩, hsuccess⟩
        rw [hnext.cells hs, hcells, write_write hge]

/-- What a piece has touched stays on record. -/
theorem updateBlock_touched {toUpdate : ℕ} {r : ℕ × ℕ} (hr : r ∈ tmpBuf.touched) :
    r ∈ (spiFlashUpdateBlock E nor c tmpBuf offset align toUpdate buf).2.1.touched := by
  unfold spiFlashUpdateBlock
  simp only []
  split_ifs <;> simp [Scratch.touch, Scratch.copyMem, hr]

theorem updateLoop_touched {r : ℕ × ℕ} : ∀ (fuel : ℕ) {c : NorChip} {tmpBuf : Scratch}
    {offset : ℕ} {buffer : Cells UInt8} {remain : ℕ}, r ∈ tmpBuf.touched →
      r ∈ (updateLoop E nor align fuel c tmpBuf offset buffer remain).2.1.touched
  | 0, _, _, _, _, _, hr => hr
  | fuel + 1, _, _, _, _, _, hr => by
    simp only [updateLoop]
    split_ifs
    · exact hr
    · exact updateBlock_touched hr
    · exact updateLoop_touched fuel (updateBlock_touched hr)

/-- A piece that goes on past its sector is copied past the scratch buffer. -/
theorem updateBlock_overruns {toUpdate : ℕ} (tmpBuf : Scratch) (buf : Cells UInt8) (hE : E.Healthy) (hj : c.job = .idle)
    (hne : align ≠ 0) (hlt : align ≤ offset) (hsector : nor.sectorSize < align + toUpdate)
    (hin : offset + toUpdate ≤ nor.size) (hoffset : offset < nor.size) :
    (align, toUpdate) ∈
      (spiFlashUpdateBlock E nor c tmpBuf offset align toUpdate buf).2.1.touched := by
  by_cases hpart : toUpdate = nor.sectorSize
  · have herase := (hE.halSnorErase_cells nor hj hoffset).1
    simp [spiFlashUpdateBlock, hpart, hne, herase, Scratch.touch, Scratch.copyMem]
  · have hsize := nor.size_le
    have hread := hE.norRead_cells nor (offset - align) nor.sectorSize hj
      (by simp [SpiNor.sectorSize]) tmpBuf.cells
    rcases hread with ⟨-, hout⟩ | ⟨-, hread, -, -, hjob⟩
    · omega
    · have herase := (hE.halSnorErase_cells nor hjob hoffset).1
      simp [spiFlashUpdateBlock, hpart, hne, hread, herase, Scratch.touch, Scratch.copyMem]

/-- A range that ends in the sector that it starts in is one piece. -/
theorem updateLoop_inside (hE : E.Healthy) (hj : c.job = .idle)
    (htmp : tmpBuf.Within nor.sectorSize) (halign : align = offset % nor.sectorSize)
    (hne : align ≠ 0) (hn : align + n ≤ nor.sectorSize) (hin : offset + n ≤ nor.size) :
    NorUpdates nor (updateLoop E nor align n c tmpBuf offset buf n) c offset buf n ∧
      (nor.size % nor.sectorSize = 0 →
        (updateLoop E nor align n c tmpBuf offset buf n).1 = efiSuccess) := by
  rcases n with _ | n
  · exact ⟨⟨fun _ => write_zero.symm, htmp⟩, fun _ => rfl⟩
  · have hpiece := updateBlock_inside buf hE hj htmp halign hne hn hin
    simp only [updateLoop, Nat.succ_ne_zero, if_false, min_eq_left (by omega : n + 1 ≤ nor.sectorSize)]
    split_ifs with herr
    · have hfail := piece_ne_success hpiece herr
      exact ⟨⟨fun hs => absurd hs hfail.1, hpiece.scratch⟩, fun hs => absurd hs hfail.2⟩
    · rw [Nat.sub_self, updateLoop_done]
      obtain ⟨-, hcells, -⟩ := hpiece.done.resolve_left fun h => herr h.1
      exact ⟨⟨fun _ => hcells, hpiece.scratch⟩, fun _ => rfl⟩

/-- A range that goes on past the sector in whose middle it starts. -/
theorem norUpdate_overruns (hE : E.Healthy) (hj : c.job = .idle)
    (hne : offset % nor.sectorSize ≠ 0) (hover : nor.sectorSize < offset % nor.sectorSize + n)
    (hin : offset + n ≤ nor.size) (buffer : Cells UInt8) :
    ¬ (norUpdate E nor true c offset buffer n).2.1.Within nor.sectorSize := by
  have hlt : offset % nor.sectorSize < nor.sectorSize :=
    Nat.mod_lt _ (by simp [SpiNor.sectorSize])
  obtain ⟨n, rfl⟩ : ∃ k, n = k + 1 := ⟨n - 1, by omega⟩
  have hpiece := updateBlock_overruns ⟨fun _ => 0, []⟩ buffer hE hj hne (Nat.mod_le _ _)
    (by omega : nor.sectorSize < offset % nor.sectorSize + min (n + 1) nor.sectorSize)
    (by omega) (by omega)
  have htouched : (offset % nor.sectorSize, min (n + 1) nor.sectorSize) ∈
      (norUpdate E nor true c offset buffer (n + 1)).2.1.touched := by
    simp only [norUpdate, if_true, updateLoop, Nat.succ_ne_zero, if_false]
    split_ifs
    · exact hpiece
    · exact updateLoop_touched n hpiece
  intro hwithin
  have hend : offset % nor.sectorSize + min (n + 1) nor.sectorSize ≤ nor.sectorSize :=
    hwithin _ htouched
  omega

theorem norUpdate_updates (hE : E.Healthy) (hj : c.job = .idle) {ulLength : ℕ}
    (hin : offset + ulLength ≤ nor.size)
    (hcond : offset % nor.sectorSize = 0 ∨ offset % nor.sectorSize + ulLength ≤ nor.sectorSize)
    (buffer : Cells UInt8) :
    NorUpdates nor (norUpdate E nor true c offset buffer ulLength) c offset buffer ulLength ∧
      (nor.size % nor.sectorSize = 0 →
        (norUpdate E nor true c offset buffer ulLength).1 = efiSuccess) := by
  have hempty : Scratch.Within ⟨fun _ => 0, []⟩ nor.sectorSize := fun r hr => nomatch hr
  by_cases halign : offset % nor.sectorSize = 0
  · simp only [norUpdate, if_true, halign]
    exact updateLoop_aligned hE ulLength buffer le_rfl hj hempty halign hin
  · exact updateLoop_inside hE hj hempty rfl halign (hcond.resolve_left halign) hin

/-- The flash holds the buffer wherever the range starts at a sector, or ends in the sector that it
starts in. Else the first piece is copied past the end of the scratch buffer. -/
theorem norUpdate_updates_iff (hE : E.Healthy) (hj : c.job = .idle) {ulLength : ℕ}
    (hin : offset + ulLength ≤ nor.size) (buffer : Cells UInt8) :
    (∀ allocated, NorUpdates nor (norUpdate E nor allocated c offset buffer ulLength) c offset buffer
        ulLength)
      ↔ offset % nor.sectorSize = 0 ∨ offset % nor.sectorSize + ulLength ≤ nor.sectorSize := by
  constructor
  · intro h
    by_contra hcond
    rw [not_or, not_le] at hcond
    exact norUpdate_overruns hE hj hcond.1 hcond.2 hin buffer (h true).scratch
  · rintro hcond (_ | _)
    · exact ⟨fun hs => absurd hs (encodeError_ne_success 9), fun r hr => nomatch hr⟩
    · exact (norUpdate_updates hE hj hin hcond buffer).1

/-- An idle chip that holds zeros. -/
def blankChip : NorChip := ⟨fun _ => 0, false, .idle, 0, 0, 0⟩

/-- A sector and a half, from the start of a sector on. -/
theorem norUpdate_updates_iff_healthy :
    (∀ allocated, NorUpdates spiNor16M
      (norUpdate .healthy spiNor16M allocated blankChip 0x1000 (fun _ => 1) 0x1800) blankChip
        0x1000 (fun _ => 1) 0x1800)
      ↔ 0x1000 % 0x1000 = 0 ∨ 0x1000 % 0x1000 + 0x1800 ≤ 0x1000 :=
  norUpdate_updates_iff NorEnv.healthy_healthy rfl (by decide) fun _ => 1

/-- A sector's length from the middle of a sector on. -/
theorem norUpdate_not_updates :
    ¬ NorUpdates spiNor16M
      (norUpdate .healthy spiNor16M true blankChip 0x800 (fun _ => 0) 0x1000) blankChip 0x800
        (fun _ => 0) 0x1000 :=
  fun h => norUpdate_overruns NorEnv.healthy_healthy rfl (by decide) (by decide) (by decide)
    (fun _ => 0) h.scratch

end Driver

end Edk2Rk3576
