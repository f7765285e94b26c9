import Edk2Rk3576.NorFlash.Effects
import Edk2Rk3576.Lib.Pieces
import Edk2Rk3576.Lib.Runs

/-!
# Reading and programming a range

`HAL_SNOR_ProgData` goes through a range page by page and `HAL_SNOR_ReadData` in pieces of 8 KiB. A
piece that fails makes both return zero, which is `EFI_SUCCESS`.
-/

namespace Edk2Rk3576

open Cells

section Driver

variable (E : NorEnv) (nor : SpiNor) (base : ℕ) (buf : Cells UInt8) (c : NorChip)

/-- The part of the buffer that goes to a page. -/
def pageBuf (p : ℕ × ℕ) : Cells UInt8 := fun k => buf (p.1 - base + k)

/-- The transfer of a page goes through. -/
def PageSent (p : ℕ × ℕ) : Prop :=
  (snorWriteData E (snorWriteEnable E c).2 p.1 p.2 (pageBuf base buf p)).1 = p.2

instance (p : ℕ × ℕ) : Decidable (PageSent E base buf c p) := by
  unfold PageSent
  infer_instance

/-- A page program, with the wait for it. -/
def pageStep (p : ℕ × ℕ) : NorChip :=
  let d := (snorWriteData E (snorWriteEnable E c).2 p.1 p.2 (pageBuf base buf p)).2
  if PageSent E base buf c p then (snorWaitBusy E d 10000).2 else d

/-- The chip takes the program, its transfer goes through and the chip is seen ready. -/
structure PageDone (p : ℕ × ℕ) : Prop where
  taken : (snorWriteEnable E c).2.writeEnabled = true
  sent : PageSent E base buf c p
  ready : (snorWaitBusy E (snorWriteData E (snorWriteEnable E c).2 p.1 p.2
    (pageBuf base buf p)).2 10000).1 = efiSuccess

def pageLength (addr remain : ℕ) : ℕ := min (nor.pageSize - addr % nor.pageSize) remain

def pagePieces (addr len : ℕ) : List (ℕ × ℕ) := pieces (pageLength nor) len addr len

def readLength (_addr remain : ℕ) : ℕ := min readMaxIoSize remain

def readPieces (addr len : ℕ) : List (ℕ × ℕ) := pieces readLength len addr len

def SpiNor.InPage (p : ℕ × ℕ) : Prop := p.1 % nor.pageSize + p.2 ≤ nor.pageSize

/-- The range does not lie in the flash. -/
def SpiNor.Beyond (addr len : ℕ) : Prop := nor.size ≤ addr ∨ nor.size < addr + len

/-- A program outside of the flash is refused. Another goes through pages that make up the range, in
order, unless one is not sent, and is an error unless all of them are done. -/
structure NorPrograms (addr len : ℕ) : Prop where
  outside : nor.Beyond addr len → efiError (halSnorProgData E nor c addr buf len).1 = true ∧
    (halSnorProgData E nor c addr buf len).2 = c
  pages : ¬ nor.Beyond addr len → ∃ issued rest, Tiles addr (issued ++ rest) (addr + len) ∧
    (∀ p ∈ issued, nor.InPage p) ∧
    (halSnorProgData E nor c addr buf len).2 = issued.foldl (pageStep E addr buf) c ∧
    (rest = [] ∨ ¬ AllowedRun (pageStep E addr buf) (PageSent E addr buf) c issued)
  status : ¬ nor.Beyond addr len → (efiError (halSnorProgData E nor c addr buf len).1 = false ↔
    AllowedRun (pageStep E addr buf) (PageDone E addr buf) c
      (pagePieces nor addr len))

/-- A read outside of the flash is refused. Another is an error unless all of its pieces are read,
and fills the buffer if it is none. -/
structure NorReads (dst : Cells UInt8) (src len : ℕ) : Prop where
  outside : nor.Beyond src len → efiError (norRead E nor c src dst len).1 = true ∧
    (norRead E nor c src dst len).2 = (dst, c)
  status : ¬ nor.Beyond src len → (efiError (norRead E nor c src dst len).1 = false ↔
    ∀ i < (readPieces src len).length, E.readXfer (c.clock + i) = true)
  filled : ¬ nor.Beyond src len → efiError (norRead E nor c src dst len).1 = false →
    (norRead E nor c src dst len).2.1 = dst.write 0 len fun k => c.cells (src + k)

end Driver

section Pages

variable {E : NorEnv} {nor : SpiNor} {base addr len : ℕ} {buf dst : Cells UInt8} {c : NorChip}

/-- The sum in the range check does not wrap where the other two checks let it get to. -/
theorem outside_iff : nor.outside addr len ↔ nor.Beyond addr len := by
  have hsize := nor.size_le
  rw [SpiNor.outside, SpiNor.Beyond]
  by_cases hlow : addr < nor.size ∧ len ≤ nor.size
  · rw [toUint32_of_lt (by omega)]
    omega
  · omega

theorem pageLength_spec (addr n : ℕ) (hn : 0 < n) :
    0 < pageLength nor addr n ∧ pageLength nor addr n ≤ n := by
  have hmod : addr % 256 < 256 := Nat.mod_lt _ (by omega)
  simp only [pageLength, SpiNor.pageSize]
  omega

theorem readLength_spec (addr n : ℕ) (hn : 0 < n) :
    0 < readLength addr n ∧ readLength addr n ≤ n := by
  simp only [readLength, readMaxIoSize]
  omega

theorem inPage_of_mem {p : ℕ × ℕ} (h : p ∈ pagePieces nor addr len) : nor.InPage p := by
  obtain ⟨n, -, hp⟩ := mem_pieces h
  have hmod : p.1 % 256 < 256 := Nat.mod_lt _ (by omega)
  simp only [SpiNor.InPage, hp, pageLength, SpiNor.pageSize]
  omega

/-- The loop programs its pages until one is not sent, and returns what that one's transfer does. -/
theorem progLoop_issued : ∀ (fuel : ℕ) {c : NorChip} {addr remain : ℕ} {pBuf : Cells UInt8},
    base ≤ addr → pBuf = (fun k => buf (addr - base + k)) → remain ≤ fuel →
      ∃ issued rest, issued ++ rest = pieces (pageLength nor) fuel addr remain ∧
        (progLoop E nor len fuel c addr pBuf remain).2 = issued.foldl (pageStep E base buf) c ∧
        (rest = [] ∨ ¬ AllowedRun (pageStep E base buf) (PageSent E base buf) c issued)
  | 0, c, addr, remain, pBuf, _, _, _ => ⟨[], [], rfl, rfl, .inl rfl⟩
  | fuel + 1, c, addr, remain, pBuf, hbase, hbuf, hfuel => by
    rw [progLoop, pieces]
    split_ifs with h0
    · exact ⟨[], [], rfl, rfl, .inl rfl⟩
    obtain ⟨hpos, hle⟩ := @pageLength_spec nor addr remain (by omega)
    have hpage : pageBuf base buf (addr, pageLength nor addr remain) = pBuf := hbuf.symm
    dsimp only
    rw [← pageLength]
    by_cases hsent : PageSent E base buf c (addr, pageLength nor addr remain)
    · have hstep : pageStep E base buf c (addr, pageLength nor addr remain) =
          (snorWaitBusy E (snorWriteData E (snorWriteEnable E c).2 addr
            (pageLength nor addr remain) pBuf).2 10000).2 := by
        rw [pageStep, if_pos hsent, hpage]
      rw [PageSent, hpage] at hsent
      rw [if_neg (not_not.mpr hsent), ← hstep]
      have hnext : (fun k => pBuf (pageLength nor addr remain + k)) =
          fun k => buf (addr + pageLength nor addr remain - base + k) := by
        funext k
        rw [hbuf]
        exact congrArg buf (by omega)
      obtain ⟨issued, rest, hpieces, hchip, hend⟩ := @progLoop_issued fuel
        (pageStep E base buf c (addr, pageLength nor addr remain))
        (addr + pageLength nor addr remain) (remain - pageLength nor addr remain) _ (by omega) hnext
        (by omega)
      refine ⟨(addr, pageLength nor addr remain) :: issued, rest, ?_, hchip, ?_⟩
      · rw [List.cons_append, hpieces]
      · exact hend.imp_right fun hstop hrun => hstop hrun.2
    · have hstep : pageStep E base buf c (addr, pageLength nor addr remain) =
          (snorWriteData E (snorWriteEnable E c).2 addr (pageLength nor addr remain) pBuf).2 := by
        rw [pageStep, if_neg hsent, hpage]
      refine ⟨[(addr, pageLength nor addr remain)], pieces (pageLength nor) fuel _ _, rfl, ?_,
        .inr fun hrun => hsent hrun.1⟩
      rw [PageSent, hpage] at hsent
      rw [if_pos hsent]
      exact hstep.symm

theorem halSnorProgData_noError (h : ¬ nor.Beyond addr len) :
    efiError (halSnorProgData E nor c addr buf len).1 = false := by
  have hsize := nor.size_le
  rw [SpiNor.Beyond] at h
  rw [← Bool.not_eq_true, halSnorProgData_status E nor (by omega), outside_iff]
  exact h

theorem norPrograms_iff : NorPrograms E nor buf c addr len ↔ nor.Beyond addr len ∨
    AllowedRun (pageStep E addr buf) (PageDone E addr buf) c (pagePieces nor addr len) := by
  by_cases hin : nor.Beyond addr len
  · refine iff_of_true ⟨fun _ => ?_, fun h => absurd hin h, fun h => absurd hin h⟩ (.inl hin)
    rw [halSnorProgData_outside E nor (outside_iff.mpr hin)]
    exact ⟨efiError_deviceError, rfl⟩
  · have hnoerror := @halSnorProgData_noError E nor addr len buf c hin
    rw [or_iff_right hin]
    constructor
    · intro h
      exact (h.status hin).mp hnoerror
    · intro h
      refine ⟨fun hb => absurd hb hin, fun _ => ?_, fun _ => iff_of_true hnoerror h⟩
      obtain ⟨issued, rest, hpieces, hchip, hend⟩ := @progLoop_issued E nor addr len buf len c addr
        len buf (Nat.le_refl _) (by simp) (Nat.le_refl _)
      refine ⟨issued, rest, ?_, fun p hp => ?_, ?_, hend⟩
      · rw [hpieces]
        exact tiles_pieces pageLength_spec (Nat.le_refl _)
      · refine @inPage_of_mem nor addr len p ?_
        rw [pagePieces, ← hpieces]
        exact List.mem_append_left _ hp
      · rw [halSnorProgData, if_neg (mt outside_iff.mp hin)]
        exact hchip

end Pages

section Reads

variable {E : NorEnv} {nor : SpiNor} {src len : ℕ} {dst : Cells UInt8} {c : NorChip}

theorem readLoop_status : ∀ (fuel : ℕ) (c : NorChip) (src : ℕ) (dst : Cells UInt8)
    (pos remain : ℕ), (readLoop E len fuel c src dst pos remain).1 = len ∨
      (readLoop E len fuel c src dst pos remain).1 = 0
  | 0, _, _, _, _, _ => .inl rfl
  | fuel + 1, c, src, dst, pos, remain => by
    simp only [readLoop]
    split_ifs
    · exact .inl rfl
    · exact readLoop_status fuel _ _ _ _ _
    · exact .inr rfl

/-- The pieces that are transferred fill the buffer. -/
theorem readLoop_filled : ∀ (fuel : ℕ) {c : NorChip} {src remain : ℕ} (dst : Cells UInt8)
    (pos : ℕ), remain ≤ fuel →
      (∀ i < (pieces readLength fuel src remain).length, E.readXfer (c.clock + i) = true) →
        (readLoop E len fuel c src dst pos remain).2.1 =
          dst.write pos remain fun k => c.cells (src + k)
  | 0, c, src, remain, dst, pos, hfuel, _ => by
    obtain rfl : remain = 0 := by omega
    exact write_zero.symm
  | fuel + 1, c, src, remain, dst, pos, hfuel, hread => by
    rw [pieces] at hread
    simp only [readLoop]
    rw [show min readMaxIoSize remain = readLength src remain from rfl]
    split_ifs at hread ⊢ with h0 hfirst
    · rw [h0]
      exact write_zero.symm
    · obtain ⟨hpos, hle⟩ := readLength_spec src remain (by omega)
      have hrest := @readLoop_filled fuel c.tick (src + readLength src remain)
        (remain - readLength src remain)
        (dst.write pos (readLength src remain) fun k => c.cells (src + k))
        (pos + readLength src remain) (by omega) fun i hi => by
          rw [NorChip.tick_clock, Nat.add_assoc, Nat.add_comm 1]
          exact hread (i + 1) (by simpa using hi)
      have hjoin := modify_modify (m := dst) (a := pos) (n := readLength src remain)
        (k := remain - readLength src remain) (f := fun k _ => c.cells (src + k))
      rw [Nat.add_sub_cancel' hle] at hjoin
      refine hrest.trans ?_
      rw [write, write, write, ← hjoin]
      simp only [NorChip.tick_cells, Nat.add_assoc]
    · exact absurd (hread 0 (by simp)) hfirst

theorem norReads_iff : NorReads E nor c dst src len ↔ nor.Beyond src len ∨
    ∀ i < (readPieces src len).length, E.readXfer (c.clock + i) = true := by
  have hsize := nor.size_le
  by_cases hin : nor.Beyond src len
  · refine iff_of_true ⟨fun _ => ?_, fun h => absurd hin h, fun h => absurd hin h⟩ (.inl hin)
    rw [norRead, if_pos (outside_iff.mpr hin)]
    exact ⟨efiError_deviceError, rfl⟩
  · have heq : norRead E nor c src dst len = readLoop E len len c src dst 0 len := by
      rw [norRead, if_neg (mt outside_iff.mp hin)]
    have hnoerror : efiError (norRead E nor c src dst len).1 = false := by
      rw [SpiNor.Beyond] at hin
      rw [heq]
      rcases readLoop_status len c src dst 0 len with hs | hs <;> rw [hs]
      · exact efiError_of_lt (by omega)
      · exact efiError_of_lt (by omega)
    rw [or_iff_right hin]
    constructor
    · intro h
      exact (h.status hin).mp hnoerror
    · intro h
      refine ⟨fun hb => absurd hb hin, fun _ => iff_of_true hnoerror h, fun _ _ => ?_⟩
      rw [heq]
      exact readLoop_filled len dst 0 (Nat.le_refl _) h

end Reads

/-- A range is programmed and read as it should be exactly where it is refused or nothing of it
fails. -/
theorem norTransfers_iff (E : NorEnv) (nor : SpiNor) (c : NorChip) (addr len : ℕ)
    (buf dst : Cells UInt8) :
    (NorPrograms E nor buf c addr len ↔ nor.Beyond addr len ∨
      AllowedRun (pageStep E addr buf) (PageDone E addr buf) c (pagePieces nor addr len)) ∧
    (NorReads E nor c dst addr len ↔ nor.Beyond addr len ∨
      ∀ i < (readPieces addr len).length, E.readXfer (c.clock + i) = true) :=
  ⟨norPrograms_iff, norReads_iff⟩

/-- No transfer goes through. -/
def NorEnv.dead : NorEnv where
  enable _ := false
  xfer _ _ := false
  poll _ _ := .fail
  readXfer _ := false
  torn _ _ := 0

def erasedChip : NorChip := ⟨fun _ => 0xFF, false, .idle, 0, 0, 0⟩

/-- A chip that does not answer: both return `EFI_SUCCESS`. -/
theorem norTransfers_not :
    (halSnorProgData NorEnv.dead spiNor16M erasedChip 0 (fun _ => 0) 1).1 = efiSuccess ∧
      ¬ NorPrograms NorEnv.dead spiNor16M (fun _ => 0) erasedChip 0 1 ∧
      (norRead NorEnv.dead spiNor16M erasedChip 0 (fun _ => 0) 1).1 = efiSuccess ∧
      ¬ NorReads NorEnv.dead spiNor16M erasedChip (fun _ => 0) 0 1 := by
  have hin : ¬ spiNor16M.Beyond 0 1 := by
    rw [SpiNor.Beyond]
    decide
  refine ⟨rfl, fun h => ?_, rfl, fun h => ?_⟩
  · have hrun := (norPrograms_iff.mp h).resolve_left hin
    exact absurd hrun.1.sent (by decide)
  · have hread := (norReads_iff.mp h).resolve_left hin 0 (by decide)
    exact absurd hread Bool.false_ne_true

end Edk2Rk3576
