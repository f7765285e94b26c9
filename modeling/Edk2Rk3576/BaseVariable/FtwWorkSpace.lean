import Edk2Rk3576.BaseVariable.Model
import Edk2Rk3576.Lib.Yields

/-!
# The work space of the fault tolerant write

`FtwGetLastWriteHeader` goes from write header to write header, by the size that each one gives, to
the first that is not complete, and `FtwGetLastWriteRecord` goes through the records of that one.
Sizes are products and sums of numbers read from the flash, and `UINTN` arithmetic wraps, so the
walk may run in circles, come back to where it was, or leave the work space.

The work space is a memory, and its addresses are offsets into it. Headers and records are laid out
as `MdeModulePkg` has them, in 40 bytes each, and a state that is set is a bit that is clear.
-/

namespace Edk2Rk3576

open Cells

/-- A walk reads behind the work space, or is not done yet. -/
inductive FtwStop
  | outside
  | unfinished
  deriving DecidableEq

def efiAborted : EfiStatus := encodeError 21

/-- `EFI_FAULT_TOLERANT_WORKING_BLOCK_HEADER`. -/
def ftwWorkingBlockHeaderSize : ℕ := 32

/-- `EFI_FAULT_TOLERANT_WRITE_HEADER`. -/
def ftwWriteHeaderSize : ℕ := 40

/-- `EFI_FAULT_TOLERANT_WRITE_RECORD`. -/
def ftwWriteRecordSize : ℕ := 40

/-- The two GUIDs that a work space may carry. -/
structure FtwSignatures where
  edkiiWorkingBlock : EfiGuid
  systemNvDataFv : EfiGuid

section WorkSpace

variable (m : Cells UInt8) (workSpaceSize : UInt64)

/-- `IsValidWorkSpace`, for a header that is not a null pointer. -/
def isValidWorkSpace (guids : FtwSignatures) : Bool :=
  let workingBlockValid := (m 20).toNat.testBit 0
  let workingBlockInvalid := (m 20).toNat.testBit 1
  let writeQueueSize := m.le 24 8
  if workingBlockValid ∨ ¬ workingBlockInvalid then false
  else if writeQueueSize ≠ toUintn (workSpaceSize.toNat + 2 ^ 64 - ftwWorkingBlockHeaderSize) then
    false
  else if m.le 0 16 ≠ guids.edkiiWorkingBlock then
    decide (m.le 0 16 = guids.systemNvDataFv ∧ m ftwWorkingBlockHeaderSize = 0xFF)
  else true

/-- A number of the work space. -/
def ftwRead (a n : ℕ) : Except FtwStop ℕ :=
  if a + n ≤ workSpaceSize.toNat then .ok (m.le a n) else .error .outside

/-- `FTW_RECORD_SIZE`. -/
def ftwRecordSize (privateDataSize : ℕ) : ℕ := toUintn (ftwWriteRecordSize + privateDataSize)

/-- `FTW_WRITE_TOTAL_SIZE`. -/
def ftwWriteTotalSize (numberOfWrites privateDataSize : ℕ) : ℕ :=
  toUintn (ftwWriteHeaderSize + numberOfWrites * (ftwWriteRecordSize + privateDataSize))

/-- The loop of `FtwGetLastWriteHeader`, with the header at `offset`. -/
def ftwHeaderLoop : (fuel : ℕ) → (offset : ℕ) → Except FtwStop (EfiStatus × ℕ)
  | 0, _ => .error .unfinished
  | fuel + 1, offset => do
    let flags ← ftwRead m workSpaceSize offset 1
    -- `Complete` is not `FTW_VALID_STATE`
    if flags.testBit 2 then .ok (efiSuccess, offset)
    else
      let numberOfWrites ← ftwRead m workSpaceSize (offset + 24) 8
      let privateDataSize ← ftwRead m workSpaceSize (offset + 32) 8
      let next := toUintn (offset + ftwWriteTotalSize numberOfWrites privateDataSize)
      if workSpaceSize.toNat ≤ next then .ok (efiAborted, offset) else ftwHeaderLoop fuel next

/-- `FtwGetLastWriteHeader`. -/
def ftwGetLastWriteHeader (fuel : ℕ) : Except FtwStop (EfiStatus × ℕ) :=
  ftwHeaderLoop m workSpaceSize fuel ftwWorkingBlockHeaderSize

/-- The loop of `FtwGetLastWriteRecord`, with `left` writes to go: whether a record ends it, and
where it is then. -/
def ftwRecordLoop (ftwWriteHeader : ℕ) : (left : ℕ) → (ftwRecord : ℕ) →
    Except FtwStop (Bool × ℕ)
  | 0, ftwRecord => .ok (false, ftwRecord)
  | left + 1, ftwRecord => do
    let flags ← ftwRead m workSpaceSize ftwRecord 1
    -- `DestinationComplete` is not `FTW_VALID_STATE`
    if flags.testBit 2 then .ok (true, ftwRecord)
    else
      let privateDataSize ← ftwRead m workSpaceSize (ftwWriteHeader + 32) 8
      ftwRecordLoop ftwWriteHeader left
        (toUintn (ftwRecord + ftwWriteRecordSize + privateDataSize))

/-- `FtwGetLastWriteRecord`. Its last return is never reached. -/
def ftwGetLastWriteRecord (ftwWriteHeader : ℕ) : Except FtwStop (EfiStatus × ℕ) := do
  let numberOfWrites ← ftwRead m workSpaceSize (ftwWriteHeader + 24) 8
  let (found, ftwRecord) ← ftwRecordLoop m workSpaceSize ftwWriteHeader numberOfWrites
    (toUintn (ftwWriteHeader + ftwWriteHeaderSize))
  if found then .ok (efiSuccess, ftwRecord)
  else
    let privateDataSize ← ftwRead m workSpaceSize (ftwWriteHeader + 32) 8
    .ok (efiSuccess, toUintn (ftwRecord + 2 ^ 64 - ftwRecordSize privateDataSize))

/-- What the two come to. -/
structure FtwLastWrite where
  status : EfiStatus
  ftwWriteHeader : ℕ
  ftwWriteRecord : ℕ

/-- As `FaultTolerantWriteInitialize` calls the two, for a work space that is valid. -/
def ftwGetLastWrite (fuel : ℕ) : Except FtwStop FtwLastWrite := do
  let (status, ftwWriteHeader) ← ftwGetLastWriteHeader m workSpaceSize fuel
  if efiError status then .ok ⟨status, ftwWriteHeader, 0⟩
  else
    let (status, ftwWriteRecord) ← ftwGetLastWriteRecord m workSpaceSize ftwWriteHeader
    .ok ⟨status, ftwWriteHeader, ftwWriteRecord⟩

/-! What is in the work space, and where, in numbers that do not wrap. -/

def ftwComplete (header : ℕ) : Prop := (m.le header 1).testBit 2 = false

instance (header : ℕ) : Decidable (ftwComplete m header) :=
  inferInstanceAs (Decidable ((m.le header 1).testBit 2 = false))

def ftwNumberOfWrites (header : ℕ) : ℕ := m.le (header + 24) 8

def ftwPrivateDataSize (header : ℕ) : ℕ := m.le (header + 32) 8

/-- Where write `i` of a header has its record. -/
def ftwRecordAt (header i : ℕ) : ℕ :=
  header + ftwWriteHeaderSize + i * (ftwWriteRecordSize + ftwPrivateDataSize m header)

/-- Where a header's last record ends. -/
def ftwWriteEnd (header : ℕ) : ℕ := ftwRecordAt m header (ftwNumberOfWrites m header)

def ftwDestinationComplete (record : ℕ) : Prop := (m.le record 1).testBit 2 = false

instance (record : ℕ) : Decidable (ftwDestinationComplete m record) :=
  inferInstanceAs (Decidable ((m.le record 1).testBit 2 = false))

/-- The headers up to the last one: each but that is complete, and ends in the work space. -/
inductive FtwHeaderAt : ℕ → Prop
  | first : FtwHeaderAt ftwWorkingBlockHeaderSize
  | next {header : ℕ} : FtwHeaderAt header → ftwComplete m header →
      ftwWriteEnd m header < workSpaceSize.toNat → FtwHeaderAt (ftwWriteEnd m header)

/-- The last header: the first that is not complete, inside of the work space. -/
structure FtwLastHeader (header : ℕ) : Prop where
  reached : FtwHeaderAt m workSpaceSize header
  incomplete : ¬ ftwComplete m header
  inside : header + ftwWriteHeaderSize ≤ workSpaceSize.toNat

/-- The last record: the first whose destination is not complete, or the last of all, inside of the
work space. -/
structure FtwLastRecord (header i : ℕ) : Prop where
  lt : i < ftwNumberOfWrites m header
  before : ∀ j < i, ftwDestinationComplete m (ftwRecordAt m header j)
  last : ¬ ftwDestinationComplete m (ftwRecordAt m header i) ∨ i + 1 = ftwNumberOfWrites m header
  inside : ftwRecordAt m header i + ftwWriteRecordSize ≤ workSpaceSize.toNat

/-- The two come to an end without a read outside of the work space, and a success is the last
record of the last header. -/
def FtwWalkSound : Prop := ∃ fuel w, ftwGetLastWrite m workSpaceSize fuel = .ok w ∧
  (efiError w.status = false → FtwLastHeader m workSpaceSize w.ftwWriteHeader ∧
    ∃ i, FtwLastRecord m workSpaceSize w.ftwWriteHeader i ∧
      w.ftwWriteRecord = ftwRecordAt m w.ftwWriteHeader i)

/-- The sizes lead out of the work space, through complete headers inside of it. -/
inductive FtwRunsOut : ℕ → Prop
  | out {header : ℕ} : ftwComplete m header → header + ftwWriteHeaderSize ≤ workSpaceSize.toNat →
      workSpaceSize.toNat ≤ toUintn (ftwWriteEnd m header) → FtwRunsOut header
  | next {header : ℕ} : ftwComplete m header → header + ftwWriteHeaderSize ≤ workSpaceSize.toNat →
      toUintn (ftwWriteEnd m header) < workSpaceSize.toNat →
      FtwRunsOut (toUintn (ftwWriteEnd m header)) → FtwRunsOut header

end WorkSpace

section Walk

variable {m : Cells UInt8} {workSpaceSize : UInt64} {fuel a n header offset i left : ℕ}
  {p : EfiStatus × ℕ}

theorem ok_bind {α β : Type} (x : α) (f : α → Except FtwStop β) : (Except.ok x >>= f) = f x := rfl

theorem error_bind {α β : Type} (e : FtwStop) (f : α → Except FtwStop β) :
    (Except.error e >>= f) = .error e := rfl

theorem ftwRead_ok (h : a + n ≤ workSpaceSize.toNat) :
    ftwRead m workSpaceSize a n = .ok (m.le a n) := if_pos h

theorem ftwRead_outside (h : ¬ a + n ≤ workSpaceSize.toNat) :
    ftwRead m workSpaceSize a n = .error .outside := if_neg h

theorem toUintn_totalSize (header : ℕ) : toUintn (header + ftwWriteTotalSize
    (ftwNumberOfWrites m header) (ftwPrivateDataSize m header)) = toUintn (ftwWriteEnd m header) := by
  rw [ftwWriteTotalSize, toUintn, toUintn, Nat.add_mod_mod, ftwWriteEnd, ftwRecordAt, toUintn,
    Nat.add_assoc]

/-- One header of the walk. -/
theorem ftwHeaderLoop_succ : ftwHeaderLoop m workSpaceSize (fuel + 1) header
    = if header + 1 ≤ workSpaceSize.toNat then
        if ftwComplete m header then
          if header + ftwWriteHeaderSize ≤ workSpaceSize.toNat then
            if workSpaceSize.toNat ≤ toUintn (ftwWriteEnd m header) then .ok (efiAborted, header)
            else ftwHeaderLoop m workSpaceSize fuel (toUintn (ftwWriteEnd m header))
          else .error .outside
        else .ok (efiSuccess, header)
      else .error .outside := by
  rw [ftwHeaderLoop]
  by_cases hfirst : header + 1 ≤ workSpaceSize.toNat
  · rw [if_pos hfirst, ftwRead_ok hfirst, ok_bind]
    by_cases hcomplete : ftwComplete m header
    · have hflag : ¬ (m.le header 1).testBit 2 = true := by
        rw [ftwComplete] at hcomplete
        rw [hcomplete]
        exact Bool.false_ne_true
      rw [if_neg hflag, if_pos hcomplete]
      by_cases hnumber : header + 24 + 8 ≤ workSpaceSize.toNat
      · rw [ftwRead_ok hnumber, ok_bind]
        by_cases hsize : header + 32 + 8 ≤ workSpaceSize.toNat
        · rw [ftwRead_ok hsize, ok_bind, if_pos (show header + ftwWriteHeaderSize ≤ _ from hsize)]
          simp only [← toUintn_totalSize]
          rfl
        · rw [ftwRead_outside hsize, error_bind,
            if_neg (show ¬ header + ftwWriteHeaderSize ≤ _ from hsize)]
      · rw [ftwRead_outside hnumber, error_bind, if_neg]
        rw [ftwWriteHeaderSize]
        omega
    · rw [if_neg hcomplete, if_pos]
      rw [ftwComplete, Bool.not_eq_false] at hcomplete
      exact hcomplete
  · rw [if_neg hfirst, ftwRead_outside hfirst, error_bind]

/-- The walk gets to the last header. -/
theorem ftwHeaderLoop_at (h : FtwHeaderAt m workSpaceSize header) : ∃ k, ∀ fuel,
    ftwHeaderLoop m workSpaceSize (fuel + k) ftwWorkingBlockHeaderSize
      = ftwHeaderLoop m workSpaceSize fuel header := by
  induction h with
  | first => exact ⟨0, fun _ => rfl⟩
  | @next header hreached hcomplete hend ih =>
    obtain ⟨k, hk⟩ := ih
    refine ⟨k + 1, fun fuel => ?_⟩
    have hlt : workSpaceSize.toNat < 2 ^ 64 := workSpaceSize.toNat_lt
    have hle : header + ftwWriteHeaderSize ≤ ftwWriteEnd m header := Nat.le_add_right _ _
    have hnext : toUintn (ftwWriteEnd m header) = ftwWriteEnd m header :=
      Nat.mod_eq_of_lt (hend.trans hlt)
    rw [show fuel + (k + 1) = fuel + 1 + k by omega, hk, ftwHeaderLoop_succ, if_pos (by
      rw [ftwWriteHeaderSize] at hle
      omega), if_pos hcomplete, if_pos (by omega), hnext, if_neg (by omega)]

theorem ftwHeaderLoop_last (h : FtwLastHeader m workSpaceSize header) : ∃ fuel,
    ftwGetLastWriteHeader m workSpaceSize fuel = .ok (efiSuccess, header) := by
  obtain ⟨k, hk⟩ := ftwHeaderLoop_at h.reached
  have hinside := h.inside
  rw [ftwWriteHeaderSize] at hinside
  refine ⟨1 + k, ?_⟩
  rw [ftwGetLastWriteHeader, hk, ftwHeaderLoop_succ, if_pos (by omega), if_neg h.incomplete]

/-- The walk is aborted where it leaves the work space. -/
theorem ftwHeaderLoop_aborted_iff : (∃ fuel last,
      ftwHeaderLoop m workSpaceSize fuel header = .ok (efiAborted, last))
    ↔ FtwRunsOut m workSpaceSize header := by
  constructor
  · rintro ⟨fuel, last, h⟩
    induction fuel generalizing header with
    | zero => cases h
    | succ fuel ih =>
      rw [ftwHeaderLoop_succ] at h
      split_ifs at h with hfirst hcomplete hinside hout
      · exact .out hcomplete hinside hout
      · exact .next hcomplete hinside (Nat.lt_of_not_le hout) (ih h)
      · exact absurd (congrArg Prod.fst (Except.ok.inj h)).symm (encodeError_ne_success 21)
  · intro h
    induction h with
    | @out header hcomplete hinside hout =>
      have hfirst : header + 1 ≤ workSpaceSize.toNat := by
        rw [ftwWriteHeaderSize] at hinside
        omega
      refine ⟨1, header, ?_⟩
      rw [ftwHeaderLoop_succ, if_pos hfirst, if_pos hcomplete, if_pos hinside, if_pos hout]
    | @next header hcomplete hinside hlt hrest ih =>
      obtain ⟨fuel, last, hloop⟩ := ih
      have hfirst : header + 1 ≤ workSpaceSize.toNat := by
        rw [ftwWriteHeaderSize] at hinside
        omega
      refine ⟨fuel + 1, last, ?_⟩
      rw [ftwHeaderLoop_succ, if_pos hfirst, if_pos hcomplete, if_pos hinside,
        if_neg (Nat.not_le_of_lt hlt), hloop]

/-- Where the records of a header are, without wrapping. -/
theorem ftwRecordAt_succ : ftwRecordAt m header (i + 1)
    = ftwRecordAt m header i + ftwWriteRecordSize + ftwPrivateDataSize m header := by
  rw [ftwRecordAt, ftwRecordAt, Nat.succ_mul]
  omega

theorem ftwRecordAt_le {j : ℕ} (h : j ≤ i) : ftwRecordAt m header j ≤ ftwRecordAt m header i :=
  Nat.add_le_add_left (Nat.mul_le_mul_right _ h) _

theorem ftwRecordLoop_succ {record : ℕ} (hheader : header + 32 + 8 ≤ workSpaceSize.toNat)
    (hrecord : record + 1 ≤ workSpaceSize.toNat) :
    ftwRecordLoop m workSpaceSize header (left + 1) record
      = if ftwDestinationComplete m record then
          ftwRecordLoop m workSpaceSize header left
            (toUintn (record + ftwWriteRecordSize + ftwPrivateDataSize m header))
        else .ok (true, record) := by
  rw [ftwRecordLoop, ftwRead_ok hrecord, ok_bind]
  by_cases hcomplete : ftwDestinationComplete m record
  · have hflag : ¬ (m.le record 1).testBit 2 = true := by
      rw [ftwDestinationComplete] at hcomplete
      rw [hcomplete]
      exact Bool.false_ne_true
    rw [if_neg hflag, if_pos hcomplete, ftwRead_ok hheader, ok_bind]
    rfl
  · rw [if_neg hcomplete, if_pos]
    rw [ftwDestinationComplete, Bool.not_eq_false] at hcomplete
    exact hcomplete

/-- The header of a record in the work space, and the records up to it. -/
theorem FtwLastRecord.bounds (hlast : FtwLastRecord m workSpaceSize header i) {j : ℕ}
    (hj : j ≤ i) : header + 32 + 8 ≤ workSpaceSize.toNat ∧
      ftwRecordAt m header j + 1 ≤ workSpaceSize.toNat := by
  have hinside := hlast.inside
  have hle : ftwRecordAt m header j ≤ ftwRecordAt m header i := ftwRecordAt_le hj
  have hfirst : header + ftwWriteHeaderSize ≤ ftwRecordAt m header j := Nat.le_add_right _ _
  rw [ftwWriteHeaderSize] at hfirst
  rw [ftwWriteRecordSize] at hinside
  omega

/-- The walk through the records, from `n` before the last one on. -/
theorem ftwRecordLoop_last (hlast : FtwLastRecord m workSpaceSize header i) (hn : n ≤ i) :
    ftwRecordLoop m workSpaceSize header (ftwNumberOfWrites m header - (i - n))
        (ftwRecordAt m header (i - n))
      = if ftwDestinationComplete m (ftwRecordAt m header i) then
          .ok (false, toUintn (ftwRecordAt m header (i + 1)))
        else .ok (true, ftwRecordAt m header i) := by
  have hlt := hlast.lt
  induction n with
  | zero =>
    obtain ⟨hheader, hrecord⟩ := hlast.bounds le_rfl
    rw [Nat.sub_zero, show ftwNumberOfWrites m header - i
      = ftwNumberOfWrites m header - (i + 1) + 1 by omega, ftwRecordLoop_succ hheader hrecord]
    by_cases hcomplete : ftwDestinationComplete m (ftwRecordAt m header i)
    · have hend := hlast.last.resolve_left (not_not_intro hcomplete)
      rw [if_pos hcomplete, if_pos hcomplete, ← hend, Nat.sub_self, ← ftwRecordAt_succ]
      rfl
    · rw [if_neg hcomplete, if_neg hcomplete]
  | succ n ih =>
    obtain ⟨hheader, hrecord⟩ := hlast.bounds (by omega : i - (n + 1) ≤ i)
    obtain ⟨-, hnext⟩ := hlast.bounds (by omega : i - n ≤ i)
    have hbefore := hlast.before (i - (n + 1)) (by omega)
    have hlt64 : workSpaceSize.toNat < 2 ^ 64 := workSpaceSize.toNat_lt
    rw [show ftwNumberOfWrites m header - (i - (n + 1))
      = ftwNumberOfWrites m header - (i - n) + 1 by omega, ftwRecordLoop_succ hheader hrecord,
      if_pos hbefore, ← ftwRecordAt_succ, show i - (n + 1) + 1 = i - n by omega,
      toUintn, Nat.mod_eq_of_lt (by omega), ih (by omega)]

/-- A pointer that is moved up and down again is where it was. -/
theorem toUintn_add_sub {x y : ℕ} (h : x < 2 ^ 64) :
    toUintn (toUintn (x + y) + 2 ^ 64 - toUintn y) = x := by
  unfold toUintn
  omega

theorem ftwGetLastWriteRecord_last (hlast : FtwLastRecord m workSpaceSize header i) :
    ftwGetLastWriteRecord m workSpaceSize header
      = .ok (efiSuccess, ftwRecordAt m header i) := by
  have hloop := ftwRecordLoop_last hlast le_rfl
  obtain ⟨hheader, hrecord⟩ := hlast.bounds (Nat.zero_le i)
  have hlt64 : workSpaceSize.toNat < 2 ^ 64 := workSpaceSize.toNat_lt
  have hfirst : ftwRecordAt m header 0 = toUintn (header + ftwWriteHeaderSize) := by
    rw [ftwRecordAt, Nat.zero_mul, Nat.add_zero, toUintn, ftwWriteHeaderSize, Nat.mod_eq_of_lt]
    omega
  rw [Nat.sub_self, Nat.sub_zero, hfirst] at hloop
  rw [ftwGetLastWriteRecord, ftwRead_ok (by omega), ok_bind]
  rw [show m.le (header + 24) 8 = ftwNumberOfWrites m header from rfl, hloop]
  by_cases hcomplete : ftwDestinationComplete m (ftwRecordAt m header i)
  · rw [if_pos hcomplete, ok_bind]
    simp only [Bool.false_eq_true, if_false]
    rw [ftwRead_ok hheader, ok_bind]
    rw [show m.le (header + 32) 8 = ftwPrivateDataSize m header from rfl, ftwRecordSize,
      ftwRecordAt_succ, Nat.add_assoc, toUintn_add_sub]
    have hinside := hlast.inside
    omega
  · rw [if_neg hcomplete, ok_bind]
    rfl

theorem ftwHeaderLoop_status {p : EfiStatus × ℕ}
    (h : ftwHeaderLoop m workSpaceSize fuel header = .ok p) :
    p.1 = efiSuccess ∨ p.1 = efiAborted := by
  induction fuel generalizing header with
  | zero => cases h
  | succ fuel ih =>
    rw [ftwHeaderLoop_succ] at h
    split_ifs at h
    · exact Or.inr (by rw [← Except.ok.inj h])
    · exact ih h
    · exact Or.inl (by rw [← Except.ok.inj h])

theorem ftwGetLastWriteRecord_status : Yields (fun _ => True) (fun p => p.1 = efiSuccess)
    (ftwGetLastWriteRecord m workSpaceSize header) := by
  refine (Yields.of_any _).bind fun n _ => (Yields.of_any _).bind ?_
  rintro ⟨found, record⟩ -
  cases found with
  | true => rfl
  | false => exact (Yields.of_any _).bind fun _ _ => rfl

/-- An error is that of the walk through the headers. -/
theorem ftwRunsOut_of_error {w : FtwLastWrite} (hw : ftwGetLastWrite m workSpaceSize fuel = .ok w)
    (hstatus : ¬ efiError w.status = false) :
    FtwRunsOut m workSpaceSize ftwWorkingBlockHeaderSize := by
  refine ftwHeaderLoop_aborted_iff.1 ⟨fuel, ?_⟩
  rcases hheader : ftwGetLastWriteHeader m workSpaceSize fuel with e | ⟨status, last⟩
  · rw [ftwGetLastWrite, hheader] at hw
    cases hw
  rcases ftwHeaderLoop_status hheader with rfl | rfl
  · rw [ftwGetLastWrite, hheader, ok_bind] at hw
    simp only [efiError_success, Bool.false_eq_true, if_false] at hw
    have hsuccess := @ftwGetLastWriteRecord_status m workSpaceSize last
    rcases hrecord : ftwGetLastWriteRecord m workSpaceSize last with e | ⟨status, record⟩
    · rw [hrecord] at hw
      cases hw
    · rw [hrecord] at hsuccess
      rw [hrecord, ok_bind] at hw
      obtain rfl : status = efiSuccess := hsuccess
      rw [← Except.ok.inj hw] at hstatus
      exact absurd rfl hstatus
  · exact ⟨last, hheader⟩

/-- The two are sound where the sizes lead out of the work space, or to a header that is not
complete and has a record inside of it to end at. -/
theorem ftwWalkSound_iff (m : Cells UInt8) (workSpaceSize : UInt64) : FtwWalkSound m workSpaceSize
    ↔ FtwRunsOut m workSpaceSize ftwWorkingBlockHeaderSize ∨
      ∃ header i, FtwLastHeader m workSpaceSize header ∧ FtwLastRecord m workSpaceSize header i := by
  constructor
  · rintro ⟨fuel, w, hw, hsound⟩
    by_cases hstatus : efiError w.status = false
    · obtain ⟨hheader, i, hrecord, -⟩ := hsound hstatus
      exact Or.inr ⟨_, i, hheader, hrecord⟩
    · exact Or.inl (ftwRunsOut_of_error hw hstatus)
  · rintro (hout | ⟨header, i, hheader, hrecord⟩)
    · obtain ⟨fuel, last, hloop⟩ := ftwHeaderLoop_aborted_iff.2 hout
      refine ⟨fuel, ⟨efiAborted, last, 0⟩, ?_, fun h => ?_⟩
      · rw [ftwGetLastWrite, ftwGetLastWriteHeader, hloop, ok_bind]
        exact if_pos (efiError_encodeError 21)
      · rw [efiAborted, efiError_encodeError] at h
        cases h
    · obtain ⟨fuel, hloop⟩ := ftwHeaderLoop_last hheader
      refine ⟨fuel, ⟨efiSuccess, header, ftwRecordAt m header i⟩, ?_,
        fun _ => ⟨hheader, i, hrecord, rfl⟩⟩
      rw [ftwGetLastWrite, hloop, ok_bind]
      simp only [efiError_success, Bool.false_eq_true, if_false]
      rw [ftwGetLastWriteRecord_last hrecord, ok_bind]

/-- Where the first header is not complete, it is the last. -/
theorem eq_first_of_headerAt (hfirst : ¬ ftwComplete m ftwWorkingBlockHeaderSize)
    (h : FtwHeaderAt m workSpaceSize header) : header = ftwWorkingBlockHeaderSize := by
  induction h with
  | first => rfl
  | next hreached hcomplete hend ih => exact absurd (ih ▸ hcomplete) hfirst

/-- A first header without writes is a success, with a pointer in front of its records. -/
theorem not_sound_of_noWrites (hfirst : ¬ ftwComplete m ftwWorkingBlockHeaderSize)
    (hnone : ftwNumberOfWrites m ftwWorkingBlockHeaderSize = 0) : ¬ FtwWalkSound m workSpaceSize := by
  rintro ⟨fuel, w, hw, hsound⟩
  by_cases hstatus : efiError w.status = false
  · obtain ⟨hheader, i, hrecord, -⟩ := hsound hstatus
    have hlt := hrecord.lt
    rw [eq_first_of_headerAt hfirst hheader.reached, hnone] at hlt
    omega
  · cases ftwRunsOut_of_error hw hstatus with
    | out hcomplete => exact hfirst hcomplete
    | next hcomplete => exact hfirst hcomplete

def ftwSignatures : FtwSignatures where
  edkiiWorkingBlock := 0x951B9FFD0065CEA0497D7C689E58292B
  systemNvDataFv := gEfiSystemNvDataFvGuid

/-- A work space of 64 KiB, whose first header is allocated without any writes. -/
def ftwNoWrites : Cells UInt8 :=
  bufferCells (leBytes ftwSignatures.edkiiWorkingBlock 16 ++ leBytes 0 4 ++ [0xFE, 0xFF, 0xFF, 0xFF]
    ++ leBytes 0xFFE0 8 ++ leBytes 0xFE 4 ++ leBytes 0 16 ++ leBytes 0 4 ++ leBytes 0 8
    ++ leBytes 0 8)

theorem ftwNoWrites_not_sound : isValidWorkSpace ftwNoWrites 0x10000 ftwSignatures = true ∧
    ¬ FtwWalkSound ftwNoWrites 0x10000 :=
  ⟨by decide, not_sound_of_noWrites (by decide) (by decide)⟩

end Walk

end Edk2Rk3576
