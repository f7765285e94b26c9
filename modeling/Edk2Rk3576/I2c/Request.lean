import Edk2Rk3576.I2c.Model

/-!
# What a request reports

`I2cStartRequest` drops the status of its operations: a request it takes on is a success, whatever
the bus has carried out. A packet it does not take on leaves the TPL raised.

A chunk that is finished at read `n` of its wait takes `n / 2 + 1` passes, and the passes of all the
chunks of an operation come off one timeout.
-/

namespace Edk2Rk3576

open Cells

/-- Every byte of the chunk is acknowledged, and the chunk finished some time. -/
def ChunkAnswer.Carries (a : ChunkAnswer) : Prop := a.nak = none ∧ a.finished ≠ none

def ChunkAnswer.passes (a : ChunkAnswer) : ℕ := a.finished.getD 0 / 2 + 1

namespace OperationAnswer

/-- The `c` chunks from chunk `k` on are carried out. -/
def Carries (a : OperationAnswer) (k c : ℕ) : Prop := ∀ j < c, (a.chunk (k + j)).Carries

/-- The passes of all of them. -/
def passes (a : OperationAnswer) (k : ℕ) : ℕ → ℕ
  | 0 => 0
  | c + 1 => (a.chunk k).passes + a.passes (k + 1) c

/-- The start does not show in the last pass of its wait. -/
def Starts (a : OperationAnswer) : Prop := a.start ≠ some (i2cTimeoutUs - 1)

end OperationAnswer

def chunks (bytes : ℕ) : ℕ := (bytes + 31) / 32

section Wait

variable {config con finished : UInt32} {a : ChunkAnswer} {timeOut timeout n : ℕ} {s : I2cState}
  {start : Option ℕ}

theorem shows_some {r read : ℕ} : shows (some r) read = true ↔ r ≤ read := by
  simp [shows]

/-- A start that shows in the last pass is a timeout, one that never does is none. -/
theorem i2cStartEnable_status :
    efiError (i2cStartEnable config con i2cTimeoutUs start s).1 = false
      ↔ start ≠ some (i2cTimeoutUs - 1) := by
  have hnone : (∀ k < i2cTimeoutUs, shows start k = false) →
      pollFor (fun t => if shows start t then some () else none) i2cTimeoutUs 0 = none :=
    fun h => pollFor_eq_none fun k hk => by rw [Nat.zero_add, h k hk]; rfl
  unfold i2cStartEnable
  rcases start with _ | r
  · simp [hnone fun _ _ => rfl]
  · rcases Nat.lt_or_ge r i2cTimeoutUs with hr | hr
    · have hpoll : pollFor (fun t => if shows (some r) t then some () else none) i2cTimeoutUs 0
          = some ((), i2cTimeoutUs - (r + 1)) := by
        refine pollFor_of_first (n := r) ?_ (fun k hk => ?_) hr
        · rw [Nat.zero_add, if_pos (shows_some.2 le_rfl)]
        · rw [Nat.zero_add, if_neg (by rw [shows_some]; omega)]
      simp only [hpoll, Ne, Option.some.injEq]
      by_cases hlast : i2cTimeoutUs - (r + 1) = 0
      · rw [if_pos hlast]
        refine ⟨fun h => absurd h ?_, fun h => absurd (by omega) h⟩
        rw [efiTimeout, efiError_encodeError]
        decide
      · rw [if_neg hlast]
        exact ⟨fun _ => by omega, fun _ => efiError_success⟩
    · rw [hnone fun k hk => by
        rw [← Bool.not_eq_true, shows_some]
        omega]
      refine ⟨fun _ h => ?_, fun _ => efiError_success⟩
      have := Option.some.inj h
      unfold i2cTimeoutUs at this hr
      omega

theorem i2cWaitChunk_of_carries (ha : a.Carries) (hp : a.passes ≤ timeOut) :
    i2cWaitChunk finished a timeOut s
      = ⟨if timeOut - a.passes = 0 then efiTimeout else efiSuccess, timeOut - a.passes, true,
        s.write .ipd finished⟩ := by
  obtain ⟨hnak, hfin⟩ := ha
  obtain ⟨r, hr⟩ := Option.ne_none_iff_exists'.1 hfin
  have hp' : a.passes = r / 2 + 1 := by rw [ChunkAnswer.passes, hr, Option.getD_some]
  have hpoll : pollFor (fun t =>
      if shows a.nak (2 * t) then some false
      else if shows a.finished (2 * t + 1) then some true
      else none) timeOut 0 = some (true, timeOut - a.passes) := by
    rw [hp']
    refine pollFor_of_first ?_ (fun k hk => ?_) (by omega)
    · rw [hnak, hr, if_neg (by simp [shows]), if_pos (shows_some.2 (by omega))]
    · rw [hnak, hr, if_neg (by simp [shows]), if_neg (by rw [shows_some]; omega)]
  unfold i2cWaitChunk
  rw [hpoll, hnak]
  rfl

theorem i2cWaitChunk_not_carried (h : ¬ (a.Carries ∧ a.passes ≤ timeOut)) :
    (i2cWaitChunk finished a timeOut s).carried = false := by
  unfold i2cWaitChunk
  rcases hnak : a.nak with _ | n
  · have hpoll : pollFor (fun t =>
        if shows none (2 * t) then some false
        else if shows a.finished (2 * t + 1) then some true
        else none) timeOut 0 = none := by
      refine pollFor_eq_none fun k hk => ?_
      rw [if_neg (by simp [shows]), if_neg ?_]
      intro hshow
      rcases hfin : a.finished with _ | r
      · rw [hfin] at hshow
        exact absurd hshow (by simp [shows])
      · rw [hfin, shows_some] at hshow
        refine h ⟨⟨hnak, by rw [hfin]; nofun⟩, ?_⟩
        rw [ChunkAnswer.passes, hfin, Option.getD_some]
        omega
    rw [hpoll]
  · split <;> rfl

/-- A wait that is a success has not used up the timeout. -/
theorem i2cWaitChunk_left (h : efiError (i2cWaitChunk finished a timeOut s).status = false) :
    0 < (i2cWaitChunk finished a timeOut s).left := by
  unfold i2cWaitChunk at h ⊢
  split at h
  · simp [efiNoResponse, efiError_encodeError] at h
  · rename_i left _
    rcases Nat.eq_zero_or_pos left with rfl | hpos
    · simp [efiTimeout, efiError_encodeError] at h
    · exact hpos
  · simp [efiTimeout, efiError_encodeError] at h

theorem chunks_succ (hn : 0 < n) : chunks n = chunks (n - min rkI2cFifoSize n) + 1 := by
  unfold chunks rkI2cFifoSize
  omega

theorem fifo_bounds (hn : n ≠ 0) : 0 < min rkI2cFifoSize n ∧ min rkI2cFifoSize n ≤ n := by
  unfold rkI2cFifoSize
  omega

end Wait

section Chunks

variable {config : UInt32} {slaveAddress : UInt64} {a : OperationAnswer} {k c n timeOut length : ℕ}
  {r : I2cTransfer}

theorem OperationAnswer.carries_succ :
    a.Carries k (c + 1) ↔ (a.chunk k).Carries ∧ a.Carries (k + 1) c := by
  unfold Carries
  constructor
  · intro h
    refine ⟨h 0 (by omega), fun j hj => ?_⟩
    rw [show k + 1 + j = k + (j + 1) by omega]
    exact h (j + 1) (by omega)
  · rintro ⟨h₀, h⟩ (_ | j) hj
    · exact h₀
    · rw [show k + (j + 1) = k + 1 + j by omega]
      exact h j (by omega)

/-- Only the first chunk has a start to wait for. -/
theorem started_status {con : UInt32} {s s' : I2cState} (hstart : k = 0 → a.Starts) :
    efiError (if k ≠ 0 then (efiSuccess, s')
      else i2cStartEnable config con i2cTimeoutUs a.start s).1 = false := by
  by_cases hk : k = 0
  · rw [if_neg (not_not.2 hk)]
    exact i2cStartEnable_status.2 (hstart hk)
  · rw [if_pos hk]
    exact efiError_success

theorem moved_le {b : Bool} {moved m : ℕ} (hm : m ≤ n) :
    (if b = true then moved + m else moved) + (n - m) ≤ moved + n := by
  split_ifs <;> omega

theorem i2cReadChunks_moved_le :
    (i2cReadChunks config a length k timeOut n r).moved ≤ r.moved + n := by
  fun_induction i2cReadChunks config a length k timeOut n r with
  | case1 => exact Nat.le_add_right _ _
  | case2 => exact Nat.le_add_right _ _
  | case3 => exact Nat.le_add_right _ _
  | case4 _ _ _ _ _ _ m _ _ _ _ _ _ ih => exact ih.trans (moved_le (Nat.min_le_right _ _))

/-- A read moves all its bytes exactly if the bus carries its chunks out before the last pass, and is
then a success. -/
theorem i2cReadChunks_moved (hT : 0 < timeOut) (hstart : k = 0 → a.Starts) :
    ((i2cReadChunks config a length k timeOut n r).moved = r.moved + n
        ↔ a.Carries k (chunks n) ∧ a.passes k (chunks n) < timeOut)
      ∧ ((i2cReadChunks config a length k timeOut n r).moved = r.moved + n →
        efiError (i2cReadChunks config a length k timeOut n r).status = false) := by
  fun_induction i2cReadChunks config a length k timeOut n r with
  | case1 k timeOut r =>
    refine ⟨⟨fun _ => ⟨fun j hj => absurd hj (Nat.not_lt_zero j), hT⟩, fun _ => rfl⟩, fun _ => ?_⟩
    exact efiError_success
  | case2 k timeOut n r hn con started hs =>
    have hok : efiError started.1 = false := started_status hstart
    rw [hok] at hs
    cases hs
  | case3 k timeOut n r hn con m started hs s s' w hw =>
    have hne : ¬ r.moved = r.moved + n := by omega
    refine ⟨iff_of_false hne fun ⟨hc, hp⟩ => ?_, fun h => absurd h hne⟩
    rw [chunks_succ (Nat.pos_of_ne_zero hn)] at hc hp
    have hlt : (a.chunk k).passes < timeOut := by
      unfold OperationAnswer.passes at hp
      omega
    have hwait : w = _ :=
      i2cWaitChunk_of_carries (OperationAnswer.carries_succ.1 hc).1 hlt.le
    rw [hwait, if_neg (by omega), efiError_success] at hw
    exact Bool.false_ne_true hw
  | case4 k timeOut n r hn con m started hs s s' w hw ih =>
    have hpos := Nat.pos_of_ne_zero hn
    have hleft : 0 < w.left := i2cWaitChunk_left (by simpa using hw)
    have hm : 0 < m ∧ m ≤ n := fifo_bounds hn
    obtain ⟨ihmoved, ihstatus⟩ := ih hleft fun hno => by omega
    have hchunks : chunks n = chunks (n - m) + 1 := chunks_succ hpos
    rw [hchunks, OperationAnswer.carries_succ, OperationAnswer.passes]
    by_cases hc : (a.chunk k).Carries ∧ (a.chunk k).passes ≤ timeOut
    · have hwait : w = _ := i2cWaitChunk_of_carries hc.1 hc.2
      have hcarried : w.carried = true := by rw [hwait]
      have hsum : r.moved + m + (n - m) = r.moved + n := by omega
      simp only [hcarried, if_true, dite_true, hsum] at ihmoved ihstatus ⊢
      refine ⟨ihmoved.trans ?_, ihstatus⟩
      have hw_left : w.left = timeOut - (a.chunk k).passes := by rw [hwait]
      rw [hw_left] at hleft ⊢
      constructor
      · exact fun ⟨h₁, h₂⟩ => ⟨⟨hc.1, h₁⟩, by omega⟩
      · exact fun ⟨⟨_, h₁⟩, h₂⟩ => ⟨h₁, by omega⟩
    · have hcarried : w.carried = false := i2cWaitChunk_not_carried hc
      simp only [hcarried, Bool.false_eq_true, if_false]
      have hle : (i2cReadChunks config a length (k + 1) w.left (n - m)
          ⟨w.status, m, r.buffer.modify (rkI2cFifoSize * k) m fun i _ => (a.chunk k).rxByte i,
            r.moved, w.state⟩).moved ≤ r.moved + (n - m) := i2cReadChunks_moved_le
      have hne := (hle.trans_lt (Nat.add_lt_add_left (Nat.sub_lt hpos hm.1) r.moved)).ne
      exact ⟨iff_of_false hne fun ⟨⟨h₁, _⟩, h₂⟩ => hc ⟨h₁, by omega⟩, fun h => absurd h hne⟩

theorem OperationAnswer.le_passes (a : OperationAnswer) : ∀ k c, c ≤ a.passes k c
  | _, 0 => le_rfl
  | k, c + 1 => by
    have := a.le_passes (k + 1) c
    unfold passes ChunkAnswer.passes
    omega

theorem i2cWriteChunks_moved_le :
    (i2cWriteChunks config slaveAddress a length k timeOut n r).moved ≤ r.moved + n := by
  fun_induction i2cWriteChunks config slaveAddress a length k timeOut n r with
  | case1 => exact Nat.le_add_right _ _
  | case2 => exact Nat.le_add_right _ _
  | case3 _ _ n _ _ m =>
    exact (Nat.le_add_right _ _).trans (moved_le (Nat.min_le_right rkI2cFifoSize n))
  | case4 _ _ _ _ _ m _ _ _ _ _ _ _ _ ih => exact ih.trans (moved_le (Nat.min_le_right _ _))

/-- A write moves all its bytes exactly if the bus carries its chunks out before the timeout, and is
a success if it does so before the last pass. -/
theorem i2cWriteChunks_moved (hT : 0 < timeOut) (hstart : k = 0 → a.Starts) :
    ((i2cWriteChunks config slaveAddress a length k timeOut n r).moved = r.moved + n
        ↔ a.Carries k (chunks n) ∧ a.passes k (chunks n) ≤ timeOut)
      ∧ ((i2cWriteChunks config slaveAddress a length k timeOut n r).moved = r.moved + n →
        (efiError (i2cWriteChunks config slaveAddress a length k timeOut n r).status = false
          ↔ a.passes k (chunks n) < timeOut)) := by
  fun_induction i2cWriteChunks config slaveAddress a length k timeOut n r with
  | case1 k timeOut r =>
    refine ⟨⟨fun _ => ⟨fun j hj => absurd hj (Nat.not_lt_zero j), hT.le⟩, fun _ => rfl⟩,
      fun _ => ⟨fun _ => hT, fun _ => efiError_success⟩⟩
  | case2 k timeOut n r hn m s started hs =>
    have hok : efiError started.1 = false := started_status hstart
    rw [hok] at hs
    cases hs
  | case3 k timeOut n r hn m s started hs s' s'' w moved hw =>
    have hpos := Nat.pos_of_ne_zero hn
    have hm : 0 < m ∧ m ≤ n := fifo_bounds hn
    have hchunks : chunks n = chunks (n - m) + 1 := chunks_succ hpos
    rw [hchunks, OperationAnswer.carries_succ, OperationAnswer.passes]
    by_cases hc : (a.chunk k).Carries ∧ (a.chunk k).passes ≤ timeOut
    · -- the chunk is finished in the last pass, and only the last chunk may be
      have hwait : w = _ := i2cWaitChunk_of_carries hc.1 hc.2
      have hcarried : w.carried = true := by rw [hwait]
      have hlast : (a.chunk k).passes = timeOut := by
        by_contra hno
        rw [hwait, if_neg (by omega), efiError_success] at hw
        exact Bool.false_ne_true hw
      have hle := a.le_passes (k + 1) (chunks (n - m))
      have hrest : chunks (n - m) = 0 ↔ n = m := by
        unfold chunks
        omega
      simp only [moved, hcarried, dite_true]
      refine ⟨⟨fun h => ?_, fun ⟨_, hp⟩ => ?_⟩, fun _ => ⟨fun h => ?_, fun h => ?_⟩⟩
      · rw [hrest.2 (by omega)]
        exact ⟨⟨hc.1, fun j hj => absurd hj (Nat.not_lt_zero j)⟩, hc.2⟩
      · rw [← hrest.1 (by omega)]
      · rw [hw] at h
        exact absurd h (by decide)
      · omega
    · have hcarried : w.carried = false := i2cWaitChunk_not_carried hc
      simp only [moved, hcarried, Bool.false_eq_true, dite_false]
      have hne : ¬ r.moved = r.moved + n := by omega
      exact ⟨iff_of_false hne fun ⟨⟨h₁, _⟩, h₂⟩ => hc ⟨h₁, by omega⟩, fun h => absurd h hne⟩
  | case4 k timeOut n r hn m s started hs s' s'' w moved hw ih =>
    have hpos := Nat.pos_of_ne_zero hn
    have hleft : 0 < w.left := i2cWaitChunk_left (by simpa using hw)
    have hm : 0 < m ∧ m ≤ n := fifo_bounds hn
    obtain ⟨ihmoved, ihstatus⟩ := ih hleft fun hno => by omega
    have hchunks : chunks n = chunks (n - m) + 1 := chunks_succ hpos
    rw [hchunks, OperationAnswer.carries_succ, OperationAnswer.passes]
    by_cases hc : (a.chunk k).Carries ∧ (a.chunk k).passes ≤ timeOut
    · have hwait : w = _ := i2cWaitChunk_of_carries hc.1 hc.2
      have hcarried : w.carried = true := by rw [hwait]
      have hsum : r.moved + m + (n - m) = r.moved + n := by omega
      simp only [moved, hcarried, dite_true, hsum] at ihmoved ihstatus ⊢
      have hw_left : w.left = timeOut - (a.chunk k).passes := by rw [hwait]
      rw [hw_left] at hleft ihmoved ihstatus ⊢
      refine ⟨ihmoved.trans ⟨?_, ?_⟩, fun h => (ihstatus h).trans ?_⟩
      · exact fun ⟨h₁, h₂⟩ => ⟨⟨hc.1, h₁⟩, by omega⟩
      · exact fun ⟨⟨_, h₁⟩, h₂⟩ => ⟨h₁, by omega⟩
      · omega
    · have hcarried : w.carried = false := i2cWaitChunk_not_carried hc
      simp only [moved, hcarried, Bool.false_eq_true]
      have hle : (i2cWriteChunks config slaveAddress a length (k + 1) w.left (n - m)
          ⟨w.status, m, r.buffer, r.moved, w.state⟩).moved ≤ r.moved + (n - m) :=
        i2cWriteChunks_moved_le
      have hne := (hle.trans_lt (Nat.add_lt_add_left (Nat.sub_lt hpos hm.1) r.moved)).ne
      exact ⟨iff_of_false hne fun ⟨⟨h₁, _⟩, h₂⟩ => hc ⟨h₁, by omega⟩, fun h => absurd h hne⟩

end Chunks

/-- The bus carries the operation out: not one that is stopped for its start in the last pass, and
before the last pass of the waits, but for the end of a write where nothing is to follow. -/
def I2cOperation.CarriedBy (op : I2cOperation) (a : OperationAnswer) (last : Bool) : Prop :=
  if op.isRead then
    op.bytes = 0 ∨ a.Starts ∧ a.Carries 0 (chunks op.bytes)
      ∧ a.passes 0 (chunks op.bytes) < i2cTimeoutUs
  else
    op.bytes < 2 ^ 32 ∧ a.Starts ∧ a.Carries 0 (chunks op.bytes)
      ∧ (a.passes 0 (chunks op.bytes) < i2cTimeoutUs
        ∨ last = true ∧ a.passes 0 (chunks op.bytes) = i2cTimeoutUs)

/-- The bus carries out all the operations from number `i` on. -/
def CarriedOut (bus : BusAnswer) : ℕ → List I2cOperation → Prop
  | _, [] => True
  | i, op :: ops => op.CarriedBy (bus.operation i) ops.isEmpty ∧ CarriedOut bus (i + 1) ops

section Operations

variable {config : UInt32} {slaveAddress : UInt64} {a : OperationAnswer} {n timeOut length i : ℕ}
  {r : I2cTransfer} {op : I2cOperation} {s : I2cState} {bus : BusAnswer}

theorem i2cReadChunks_of_not_starts (hn : n ≠ 0) (h : ¬ a.Starts) :
    (i2cReadChunks config a length 0 timeOut n r).moved = r.moved := by
  rw [i2cReadChunks, if_neg hn]
  simp only [ne_eq, not_true_eq_false, if_false]
  rw [if_pos]
  rw [← Bool.not_eq_false, i2cStartEnable_status]
  exact h

theorem i2cWriteChunks_of_not_starts (hn : n ≠ 0) (h : ¬ a.Starts) :
    (i2cWriteChunks config slaveAddress a length 0 timeOut n r).moved = r.moved := by
  rw [i2cWriteChunks, if_neg hn]
  simp only [ne_eq, not_true_eq_false, if_false]
  rw [if_pos]
  rw [← Bool.not_eq_false, i2cStartEnable_status]
  exact h

theorem bytes_of_isRead (h : op.isRead = true) :
    op.lengthInBytes.toUInt64.toUInt32.toNat = op.bytes := by
  rw [I2cOperation.bytes, if_pos h]
  simp

theorem bytes_of_not_isRead (h : ¬ op.isRead = true) :
    (op.lengthInBytes.toUInt64 + 1).toUInt32.toNat = op.bytes % 2 ^ 32 := by
  rw [I2cOperation.bytes, if_neg h]
  simp

theorem i2cReadChunks_from_start (hr : r.moved = 0) :
    ((i2cReadChunks config a length 0 i2cTimeoutUs n r).moved = n
        ↔ n = 0 ∨ a.Starts ∧ a.Carries 0 (chunks n) ∧ a.passes 0 (chunks n) < i2cTimeoutUs)
      ∧ ((i2cReadChunks config a length 0 i2cTimeoutUs n r).moved = n →
        efiError (i2cReadChunks config a length 0 i2cTimeoutUs n r).status = false) := by
  by_cases hn : n = 0
  · rw [i2cReadChunks, if_pos hn]
    exact ⟨⟨fun _ => Or.inl hn, fun _ => hr.trans hn.symm⟩, fun _ => efiError_success⟩
  · by_cases hstart : a.Starts
    · have hmoved := @i2cReadChunks_moved config a 0 n i2cTimeoutUs length r (by decide)
        fun _ => hstart
      rw [hr, Nat.zero_add] at hmoved
      refine ⟨hmoved.1.trans ?_, hmoved.2⟩
      exact ⟨fun h => Or.inr ⟨hstart, h⟩, fun h => (h.resolve_left hn).2⟩
    · have hne : ¬ (i2cReadChunks config a length 0 i2cTimeoutUs n r).moved = n := by
        rw [i2cReadChunks_of_not_starts hn hstart, hr]
        exact fun h => hn h.symm
      exact ⟨iff_of_false hne fun h => hstart (h.resolve_left hn).1, fun h => absurd h hne⟩

theorem i2cWriteChunks_from_start (hr : r.moved = 0) (hn : n ≠ 0) :
    ((i2cWriteChunks config slaveAddress a length 0 i2cTimeoutUs n r).moved = n
        ↔ a.Starts ∧ a.Carries 0 (chunks n) ∧ a.passes 0 (chunks n) ≤ i2cTimeoutUs)
      ∧ ((i2cWriteChunks config slaveAddress a length 0 i2cTimeoutUs n r).moved = n →
        (efiError (i2cWriteChunks config slaveAddress a length 0 i2cTimeoutUs n r).status = false
          ↔ a.passes 0 (chunks n) < i2cTimeoutUs)) := by
  by_cases hstart : a.Starts
  · have hmoved := @i2cWriteChunks_moved config slaveAddress a 0 n i2cTimeoutUs length r (by decide)
      fun _ => hstart
    rw [hr, Nat.zero_add] at hmoved
    exact ⟨hmoved.1.trans ⟨fun h => ⟨hstart, h⟩, fun h => h.2⟩, hmoved.2⟩
  · have hne : ¬ (i2cWriteChunks config slaveAddress a length 0 i2cTimeoutUs n r).moved = n := by
      rw [i2cWriteChunks_of_not_starts hn hstart, hr]
      exact fun h => hn h.symm
    exact ⟨iff_of_false hne fun h => hstart h.1, fun h => absurd h hne⟩

/-- An operation moves all its bytes exactly if the bus carries it out, and the packet then goes on
unless the bus has taken all the time. -/
theorem i2cOperation_moved :
    ((i2cOperation config slaveAddress a i op s).moved = op.bytes ↔ op.CarriedBy a true)
      ∧ ((i2cOperation config slaveAddress a i op s).moved = op.bytes →
        (efiError (i2cOperation config slaveAddress a i op s).status = false
          ↔ op.CarriedBy a false)) := by
  unfold i2cOperation I2cOperation.CarriedBy
  by_cases hread : op.isRead = true
  · simp only [if_pos hread]
    unfold i2cReadOperation
    rw [bytes_of_isRead hread]
    have hmoved := @i2cReadChunks_from_start config a op.bytes op.lengthInBytes.toUInt64.toNat
      ⟨efiSuccess, 0, op.buffer, 0, (if i == 1 then s.write .con 0 else s).write .mrxAddr
        (slaveAddress <<< 1 ||| 1 ||| 0x1000000).toUInt32⟩ rfl
    exact ⟨hmoved.1, fun h => iff_of_true (hmoved.2 h) (hmoved.1.1 h)⟩
  · simp only [if_neg hread]
    unfold i2cWriteOperation
    rw [bytes_of_not_isRead hread]
    have hle : op.bytes ≤ 2 ^ 32 ∧ 0 < op.bytes := by
      have := op.lengthInBytes.toNat_lt
      rw [I2cOperation.bytes, if_neg hread]
      omega
    rcases hle.1.lt_or_eq with hlt | heq
    · rw [Nat.mod_eq_of_lt hlt]
      have hmoved := @i2cWriteChunks_from_start config slaveAddress a op.bytes
        op.lengthInBytes.toUInt64.toNat ⟨efiSuccess, 0, op.buffer, 0, s⟩ rfl hle.2.ne'
      refine ⟨hmoved.1.trans ⟨fun h => ⟨hlt, h.1, h.2.1, ?_⟩, fun h => ⟨h.2.1, h.2.2.1, ?_⟩⟩,
        fun h => (hmoved.2 h).trans ⟨fun hp => ⟨hlt, ?_⟩, fun h => ?_⟩⟩
      · exact h.2.2.lt_or_eq.imp_right fun he => ⟨trivial, he⟩
      · rcases h.2.2.2 with hp | ⟨-, hp⟩
        exacts [hp.le, hp.le]
      · have hcarried := hmoved.1.1 h
        exact ⟨hcarried.1, hcarried.2.1, Or.inl hp⟩
      · exact h.2.2.2.resolve_right fun hno => absurd hno.1 (by decide)
    · -- the length and the address take 33 bits
      rw [heq, Nat.mod_self, i2cWriteChunks, if_pos rfl]
      have hne : ¬ (0 : ℕ) = 2 ^ 32 := by decide
      exact ⟨iff_of_false hne fun h => absurd h.1 (by omega), fun h => absurd h hne⟩

theorem I2cOperation.CarriedBy.mono {b b' : Bool} (h : op.CarriedBy a b) (hb : b = true → b' = true) :
    op.CarriedBy a b' := by
  unfold CarriedBy at h ⊢
  split_ifs at h ⊢
  · exact h
  · exact ⟨h.1, h.2.1, h.2.2.1, h.2.2.2.imp_right fun ⟨h₁, h₂⟩ => ⟨hb h₁, h₂⟩⟩

theorem i2cOperations_extends : ∀ (i : ℕ) (ops : List I2cOperation) (s : I2cState),
    ∃ l, (i2cOperations config slaveAddress bus i ops s).2.transferred = s.transferred ++ l
  | _, [], s => ⟨[], (List.append_nil _).symm⟩
  | i, op :: ops, s => by
    unfold i2cOperations
    simp only []
    split_ifs
    · exact ⟨_, rfl⟩
    · obtain ⟨l, hl⟩ := i2cOperations_extends (i + 1) ops
        { (i2cOperation config slaveAddress (bus.operation i) i op s).state with
          transferred := s.transferred
            ++ [(i2cOperation config slaveAddress (bus.operation i) i op s).moved] }
      exact ⟨_, hl.trans (List.append_assoc _ _ _)⟩

/-- All the operations move all their bytes exactly if the bus carries them all out. -/
theorem i2cOperations_transferred : ∀ (i : ℕ) (ops : List I2cOperation) (s : I2cState),
    (i2cOperations config slaveAddress bus i ops s).2.transferred
        = s.transferred ++ ops.map I2cOperation.bytes ↔ CarriedOut bus i ops
  | _, [], s => by simp [i2cOperations, CarriedOut]
  | i, op :: ops, s => by
    obtain ⟨hmoved, hstatus⟩ := @i2cOperation_moved config slaveAddress (bus.operation i) i op s
    unfold i2cOperations CarriedOut
    simp only [List.map_cons]
    by_cases herr : efiError (i2cOperation config slaveAddress (bus.operation i) i op s).status = true
    · rw [if_pos herr]
      simp only [List.append_cancel_left_eq, List.cons.injEq]
      cases ops with
      | nil => simpa [CarriedOut] using hmoved
      | cons op' ops =>
        refine iff_of_false (fun h => absurd h.2 (by simp)) fun h => ?_
        have hfull := hmoved.2 (h.1.mono fun _ => rfl)
        rw [(hstatus hfull).2 h.1] at herr
        exact absurd herr (by decide)
    · rw [if_neg herr]
      by_cases hfull : (i2cOperation config slaveAddress (bus.operation i) i op s).moved = op.bytes
      · have ih := i2cOperations_transferred (i + 1) ops
          { (i2cOperation config slaveAddress (bus.operation i) i op s).state with
            transferred := s.transferred
              ++ [(i2cOperation config slaveAddress (bus.operation i) i op s).moved] }
        simp only [hfull, List.append_assoc, List.singleton_append] at ih ⊢
        have hcarried := (hstatus hfull).1 (by simpa using herr)
        exact ih.trans ⟨fun h => ⟨hcarried.mono nofun, h⟩, fun h => h.2⟩
      · refine iff_of_false (fun h => hfull ?_) fun h => hfull (hmoved.2 (h.1.mono fun _ => rfl))
        obtain ⟨l, hl⟩ := @i2cOperations_extends config slaveAddress bus (i + 1) ops
          { (i2cOperation config slaveAddress (bus.operation i) i op s).state with
            transferred := s.transferred
              ++ [(i2cOperation config slaveAddress (bus.operation i) i op s).moved] }
        rw [hl, List.append_assoc, List.append_cancel_left_eq, List.singleton_append] at h
        exact (List.cons.inj h).1

end Operations

/-- A start has been commanded. -/
def Begun (written : List (I2cReg × UInt32)) : Prop :=
  ∃ v, (I2cReg.con, v) ∈ written ∧ v &&& i2cConStart ≠ 0

/-- The last command, of a start or a stop, is a stop. -/
def Stopped : List (I2cReg × UInt32) → Prop
  | [] => False
  | (.con, v) :: written => v &&& i2cConStop ≠ 0 ∨ v &&& i2cConStart = 0 ∧ Stopped written
  | _ :: written => Stopped written

def lastWritten (reg : I2cReg) (written : List (I2cReg × UInt32)) : Option UInt32 :=
  (written.find? fun w => w.1 = reg).map Prod.snd

/-- The controller and its interrupts are off. -/
def Disabled (written : List (I2cReg × UInt32)) : Prop :=
  lastWritten .con written = some 0 ∧ lastWritten .ien written = some 0

/-- A request that begins with the TPL there is, and nothing written yet. -/
def I2cState.entry (tpl : ℕ) (i2cStatus : EfiStatus) : I2cState := ⟨tpl, [], i2cStatus, false, []⟩

/-- What a request owes: a success is reported exactly if every operation has moved all its bytes,
the TPL is the one on entry, and what was begun is stopped and disabled. -/
structure RequestLaw (ops : List I2cOperation) (i2cStatus : Bool) (tpl : ℕ)
    (r : EfiStatus × List I2cOperation × I2cState) : Prop where
  reported : (r.1 = efiSuccess ∧ (i2cStatus = true → r.2.2.i2cStatus = efiSuccess))
    ↔ r.2.2.transferred = ops.map I2cOperation.bytes
  tpl : r.2.2.tpl = tpl
  stopped : Begun r.2.2.written → Stopped r.2.2.written ∧ Disabled r.2.2.written

section Request

variable (config : UInt32) (atRuntime event i2cStatus : Bool) (slaveAddress : UInt64)
  (ops : List I2cOperation) (bus : BusAnswer) (tpl : ℕ) (status : EfiStatus)

/-- Where a request meets the law: not asynchronous at runtime, unless for some operation; not one
that is rejected with the TPL raised; and else one that the bus carries out. -/
def RequestCareful : Prop :=
  if atRuntime && event then ops ≠ []
  else if tooManyMessages ops then atRuntime = true ∨ tpl = tplHighLevel
  else CarriedOut bus 0 ops

variable {config slaveAddress bus} {a : OperationAnswer} {s : I2cState} {r : I2cTransfer}
  {start : Option ℕ} {con : UInt32} {k n i length timeOut : ℕ} {op : I2cOperation}

@[simp] theorem I2cState.write_tpl (reg : I2cReg) (v : UInt32) : (s.write reg v).tpl = s.tpl := rfl

@[simp] theorem i2cStartEnable_tpl :
    (i2cStartEnable config con timeOut start s).2.tpl = s.tpl := by
  unfold i2cStartEnable
  simp only []
  split
  · split_ifs <;> rfl
  · rfl

@[simp] theorem i2cStop_tpl {stop : Option ℕ} : (i2cStop config stop s).2.tpl = s.tpl := by
  unfold i2cStop
  simp only []
  split
  · split_ifs <;> rfl
  · rfl

@[simp] theorem i2cStop_transferred {stop : Option ℕ} :
    (i2cStop config stop s).2.transferred = s.transferred := by
  unfold i2cStop
  simp only []
  split
  · split_ifs <;> rfl
  · rfl

@[simp] theorem i2cWaitChunk_tpl {finished : UInt32} {answer : ChunkAnswer} :
    (i2cWaitChunk finished answer timeOut s).state.tpl = s.tpl := by
  unfold i2cWaitChunk
  split <;> rfl

@[simp] theorem writeTxData_tpl {buf : Cells UInt8} :
    (writeTxData slaveAddress buf k n s).tpl = s.tpl := by
  unfold writeTxData
  generalize List.range ((n + 3) / 4) = l
  induction l generalizing s with
  | nil => rfl
  | cons i l ih => exact ih

theorem i2cReadChunks_tpl :
    (i2cReadChunks config a length k timeOut n r).state.tpl = r.state.tpl := by
  fun_induction i2cReadChunks config a length k timeOut n r with
  | case1 => rfl
  | case2 k timeOut n r hn con started hs =>
    simp only [started]
    split_ifs <;> simp
  | case3 k timeOut n r hn con m started hs s s' w hw =>
    simp only [w, s', s, started, i2cWaitChunk_tpl, I2cState.write_tpl]
    split_ifs <;> simp
  | case4 k timeOut n r hn con m started hs s s' w hw ih =>
    refine ih.trans ?_
    simp only [w, s', s, started, i2cWaitChunk_tpl, I2cState.write_tpl]
    split_ifs <;> simp

theorem i2cWriteChunks_tpl :
    (i2cWriteChunks config slaveAddress a length k timeOut n r).state.tpl = r.state.tpl := by
  fun_induction i2cWriteChunks config slaveAddress a length k timeOut n r with
  | case1 => rfl
  | case2 k timeOut n r hn m s started hs =>
    simp only [started, s]
    split_ifs <;> simp
  | case3 k timeOut n r hn m s started hs s' s'' w moved hw =>
    simp only [w, s'', s', started, s, i2cWaitChunk_tpl, I2cState.write_tpl]
    split_ifs <;> simp
  | case4 k timeOut n r hn m s started hs s' s'' w moved hw ih =>
    refine ih.trans ?_
    simp only [w, s'', s', started, s, i2cWaitChunk_tpl, I2cState.write_tpl]
    split_ifs <;> simp

theorem i2cOperation_tpl :
    (i2cOperation config slaveAddress a i op s).state.tpl = s.tpl := by
  unfold i2cOperation i2cReadOperation i2cWriteOperation
  split_ifs
  · exact i2cReadChunks_tpl
  · exact i2cReadChunks_tpl
  · exact i2cWriteChunks_tpl

theorem i2cOperations_tpl : ∀ (i : ℕ) (ops : List I2cOperation) (s : I2cState),
    (i2cOperations config slaveAddress bus i ops s).2.tpl = s.tpl
  | _, [], _ => rfl
  | i, op :: ops, s => by
    unfold i2cOperations
    simp only []
    split_ifs
    · exact i2cOperation_tpl
    · exact (i2cOperations_tpl (i + 1) ops _).trans i2cOperation_tpl

theorem stop_bit : (i2cConEn ||| i2cConStop ||| config) &&& i2cConStop ≠ 0 := by
  intro h
  have hbit := congrArg (fun v => v.toNat.testBit 4) h
  have hstop : i2cConStop.toNat.testBit 4 = true := by decide
  simp [hstop] at hbit

theorem i2cStop_stopped {stop : Option ℕ} : Stopped (i2cStop config stop s).2.written := by
  unfold i2cStop
  simp only []
  split
  · split_ifs <;> exact Or.inl stop_bit
  · exact Or.inl stop_bit

theorem i2cDisable_stopped (h : Stopped s.written) :
    Stopped (i2cDisable s).written ∧ Disabled (i2cDisable s).written :=
  ⟨Or.inr ⟨by decide, h⟩, rfl, rfl⟩

/-- A request that has cleaned up reports a success, right or wrong. -/
theorem requestLaw_of_clean {ops' : List I2cOperation}
    (hstatus : i2cStatus = true → s.i2cStatus = efiSuccess) (htpl : s.tpl = tpl)
    (hstopped : Stopped s.written ∧ Disabled s.written) :
    RequestLaw ops i2cStatus tpl (efiSuccess, ops', s)
      ↔ s.transferred = ops.map I2cOperation.bytes :=
  ⟨fun h => h.reported.1 ⟨rfl, hstatus⟩,
    fun h => ⟨iff_of_true ⟨rfl, hstatus⟩ h, htpl, fun _ => hstopped⟩⟩

end Request

/-- A request meets the law exactly if it is a careful one. -/
theorem i2cStartRequest_law_iff (config : UInt32) (atRuntime event i2cStatus : Bool)
    (slaveAddress : UInt64) (ops : List I2cOperation) (bus : BusAnswer) (tpl : ℕ)
    (status : EfiStatus) :
    RequestLaw ops i2cStatus tpl (i2cStartRequest config atRuntime slaveAddress ops event i2cStatus
        bus (.entry tpl status))
      ↔ RequestCareful atRuntime event ops bus tpl := by
  have hnever : ∀ {n : ℕ} {b : Prop}, ¬ (encodeError n = efiSuccess ∧ b) :=
    fun h => encodeError_ne_success _ h.1
  have hidle : ¬ Begun [] := fun ⟨_, h, _⟩ => absurd h List.not_mem_nil
  unfold i2cStartRequest RequestCareful
  by_cases hasync : (atRuntime && event) = true
  · simp only [if_pos hasync]
    constructor
    · intro h hops
      exact hnever (h.reported.2 (by rw [hops]; rfl))
    · intro hops
      refine ⟨iff_of_false hnever fun h => hops ?_, rfl, fun h => absurd h hidle⟩
      exact List.map_eq_nil_iff.1 h.symm
  · simp only [if_neg hasync]
    by_cases hmany : tooManyMessages ops = true
    · simp only [if_pos hmany]
      have hops : ops ≠ [] := by
        rintro rfl
        exact absurd hmany (by decide)
      have hreport : ¬ (I2cState.entry tpl status).transferred = ops.map I2cOperation.bytes :=
        fun h => hops (List.map_eq_nil_iff.1 h.symm)
      cases atRuntime with
      | true =>
        refine iff_of_true ⟨iff_of_false hnever ?_, rfl, fun h => absurd h hidle⟩ (Or.inl rfl)
        exact hreport
      | false =>
        constructor
        · exact fun h => Or.inr h.tpl.symm
        · rintro (h | rfl)
          · exact absurd h (by decide)
          · exact ⟨iff_of_false hnever hreport, rfl, fun h => absurd h hidle⟩
    · simp only [if_neg hmany]
      have hrun : (i2cOperations config slaveAddress bus 0 ops
            (if atRuntime = true then .entry tpl status
              else raiseTpl tplHighLevel (.entry tpl status))).2.transferred
          = ops.map I2cOperation.bytes ↔ CarriedOut bus 0 ops := by
        cases atRuntime <;> exact i2cOperations_transferred 0 ops _
      rw [requestLaw_of_clean]
      · refine Iff.trans (Eq.congr_left ?_) hrun
        cases atRuntime <;> cases i2cStatus <;> cases event <;> exact i2cStop_transferred
      · rintro rfl
        cases event <;> rfl
      · cases atRuntime <;> cases i2cStatus <;> cases event <;>
          first
          | rfl
          | exact i2cStop_tpl.trans (i2cOperations_tpl 0 ops _)
      · cases atRuntime <;> cases i2cStatus <;> cases event <;>
          exact i2cDisable_stopped i2cStop_stopped

/-- A slave that does not acknowledge its address has been written to, by what the request says. -/
theorem i2cStartRequest_hides_nak :
    ¬ ∀ config atRuntime event i2cStatus slaveAddress ops bus tpl status,
      RequestLaw ops i2cStatus tpl (i2cStartRequest config atRuntime slaveAddress ops event i2cStatus
        bus (.entry tpl status)) := by
  intro h
  have hlaw := h 0 false false false 0 [⟨0, 1, fun _ => 0⟩]
    ⟨fun _ => ⟨some 0, fun _ => ⟨some 0, none, fun _ => 0⟩⟩, some 0⟩ 0 efiSuccess
  have hmoved := hlaw.reported.1 ⟨rfl, nofun⟩
  have hcarried := (i2cOperations_transferred 0 _ _).1 (i2cStop_transferred.symm.trans hmoved)
  -- the one chunk there is has not been acknowledged
  have hacked := (hcarried.1.2.2.1 0 (by decide)).1
  exact absurd hacked nofun

end Edk2Rk3576
