import Edk2Rk3576.I2c.Request

/-!
# The bytes of an operation

What the registers written make the controller do: `I2C_MTXCNT` sends that many bytes out of
`I2C_TXDATA`, `I2C_MRXCNT` receives that many, and `I2C_CON` says whether there is a start and
whether the last byte received is acknowledged.

The counters of the wait loops are tested after them, so that the last pass of a loop and a loop that
ran out are told apart, or not, by `<= 0`.
-/

namespace Edk2Rk3576

open Cells

/-- Byte `r` of a word of the FIFO. -/
def fifoByte (word : UInt32) (r : ℕ) : UInt8 := UInt8.ofNat (word.toNat / 256 ^ r)

/-- The bytes sent. -/
def wire : List (I2cReg × UInt32) → List UInt8
  | [] => []
  | (.mtxCnt, n) :: written =>
    wire written ++ (List.range n.toNat).map fun j =>
      fifoByte ((lastWritten (.txData (j / 4)) written).getD 0) (j % 4)
  | _ :: written => wire written

/-- The start conditions issued. -/
def starts : List (I2cReg × UInt32) → ℕ
  | [] => 0
  | (.con, con) :: written => starts written + if con &&& i2cConStart ≠ 0 then 1 else 0
  | _ :: written => starts written

/-- The lengths of the chunks received, each with whether its last byte is not acknowledged. -/
def receptions : List (I2cReg × UInt32) → List (ℕ × Bool)
  | [] => []
  | (.mrxCnt, n) :: written =>
    receptions written ++
      [(n.toNat, decide ((lastWritten .con written).getD 0 &&& i2cConLastAck ≠ 0))]
  | _ :: written => receptions written

/-- What `I2cAdapterBaudRate` stores, and what the context holds before it. -/
def i2cConfigs : List UInt32 := [0, 0x100, 0x1100]

theorem mem_i2cConfigs {config : UInt32} :
    config ∈ i2cConfigs ↔ config = 0 ∨ config = 0x100 ∨ config = 0x1100 := by
  simp [i2cConfigs]

/-! What the waits are for. -/

/-- The event shows within a number of passes. -/
def ShowsWithin (since : Option ℕ) (timeout : ℕ) : Prop := ∃ t < timeout, shows since t = true

/-- A pass of the wait for a chunk reads `I2C_IPD` for a byte not acknowledged, and again for the end
of the chunk. -/
def ChunkAnswer.EndsWithin (answer : ChunkAnswer) (timeOut : ℕ) : Prop :=
  ∃ t < timeOut, shows answer.nak (2 * t) = true ∨ shows answer.finished (2 * t + 1) = true

/-- The end of the chunk shows first in the last pass, with all its bytes acknowledged till then. -/
def ChunkAnswer.EndsLast (answer : ChunkAnswer) (timeOut : ℕ) : Prop :=
  ¬ answer.EndsWithin (timeOut - 1) ∧ 0 < timeOut ∧
    shows answer.nak (2 * (timeOut - 1)) = false ∧
    shows answer.finished (2 * (timeOut - 1) + 1) = true

def StartWaitRight (config con : UInt32) (timeout : ℕ) (start : Option ℕ) (s : I2cState) : Prop :=
  (i2cStartEnable config con timeout start s).1 = efiTimeout ↔ ¬ ShowsWithin start timeout

def StopWaitRight (config : UInt32) (stop : Option ℕ) (s : I2cState) : Prop :=
  (i2cStop config stop s).1 = efiTimeout ↔ ¬ ShowsWithin stop i2cReadyTimeout

def ChunkWaitRight (finished : UInt32) (answer : ChunkAnswer) (timeOut : ℕ) (s : I2cState) : Prop :=
  (i2cWaitChunk finished answer timeOut s).status = efiTimeout ↔ ¬ answer.EndsWithin timeOut

/-! What the operations are for. -/

/-- The length of a write with its address, in the 32 bits of `BytesRemainLen`. -/
def writeRemain (length : UInt64) : ℕ := (length + 1).toUInt32.toNat

def readRemain (length : UInt64) : ℕ := length.toUInt32.toNat

/-- The start and the end of each of `c` chunks show within the timeouts, and all the bytes are
acknowledged. -/
def OperationAnswer.Completes (answer : OperationAnswer) (c : ℕ) : Prop :=
  ShowsWithin answer.start i2cTimeoutUs ∧ answer.Carries 0 c ∧ answer.passes 0 c ≤ i2cTimeoutUs

/-- Byte `i` of a write: the address, and then the buffer. -/
def writeByte (slaveAddress : UInt64) (buf : Cells UInt8) : ℕ → UInt8
  | 0 => (slaveAddress <<< 1).toUInt8
  | i + 1 => buf i

/-- Byte `i` of what an operation receives. -/
def OperationAnswer.rxByte (answer : OperationAnswer) (i : ℕ) : UInt8 :=
  (answer.chunk (i / rkI2cFifoSize)).rxByte (i % rkI2cFifoSize)

/-- The chunks of a read, of which only the last one is not acknowledged. -/
def readChunks (n : ℕ) : List (ℕ × Bool) :=
  (List.range (chunks n)).map fun k =>
    (min rkI2cFifoSize (n - rkI2cFifoSize * k), k + 1 = chunks n)

structure WriteStream (slaveAddress : UInt64) (buf : Cells UInt8) (length : ℕ) (s : I2cState)
    (r : I2cTransfer) : Prop where
  status : r.status = efiSuccess
  wire : wire r.state.written =
    wire s.written ++ (List.range (length + 1)).map (writeByte slaveAddress buf)
  starts : starts r.state.written = starts s.written + 1

structure ReadStream (answer : OperationAnswer) (buf : Cells UInt8) (length : ℕ) (s : I2cState)
    (r : I2cTransfer) : Prop where
  status : r.status = efiSuccess
  buffer : r.buffer = buf.write 0 length answer.rxByte
  starts : starts r.state.written = starts s.written + 1
  receptions : receptions r.state.written = receptions s.written ++ readChunks length

/-- Every wait tells a timeout from the event, and every operation that the controller completes has
its bytes moved. -/
structure I2cRight (config : UInt32) : Prop where
  start : ∀ con timeout start s, StartWaitRight config con timeout start s
  stop : ∀ stop s, StopWaitRight config stop s
  chunk : ∀ finished answer timeOut s, ChunkWaitRight finished answer timeOut s
  write : ∀ slaveAddress buf length answer s,
    answer.Completes (chunks (writeRemain length)) →
      WriteStream slaveAddress buf length.toNat s
        (i2cWriteOperation config slaveAddress buf length answer s)
  read : ∀ slaveAddress buf length snd answer s,
    answer.Completes (chunks (readRemain length)) →
      ReadStream answer buf length.toNat s
        (i2cReadOperation config slaveAddress buf length snd answer s)

/-- What bit 7 of the address and those above it add to byte `i` of the first word. -/
def addressSpill (slaveAddress : UInt64) (i : ℕ) : UInt8 :=
  fifoByte (slaveAddress <<< 1).toUInt32 i

/-- The address has nothing that shows in the bytes behind it. -/
def AddressFits (slaveAddress : UInt64) (buf : Cells UInt8) (len : ℕ) : Prop :=
  ∀ i < min 3 len, buf i ||| addressSpill slaveAddress (i + 1) = buf i

/-! The waits. -/

section Waits

variable {config con finished : UInt32} {answer : ChunkAnswer} {timeout timeOut : ℕ}
  {start stop : Option ℕ} {s : I2cState}

theorem efiTimeout_ne_success : efiTimeout ≠ efiSuccess := encodeError_ne_success _

theorem showsWithin_iff : ShowsWithin start timeout ↔ ∃ r < timeout, start = some r := by
  rcases start with _ | r
  · refine iff_of_false (fun ⟨_, _, h⟩ => Bool.false_ne_true h) ?_
    rintro ⟨_, -, h⟩
    cases h
  · constructor
    · rintro ⟨t, ht, h⟩
      exact ⟨r, (shows_some.1 h).trans_lt ht, rfl⟩
    · rintro ⟨r', hr, h⟩
      cases h
      exact ⟨r, hr, shows_some.2 le_rfl⟩

/-- How a wait for one bit ends. -/
theorem pollShows (start : Option ℕ) (timeout : ℕ) :
    (∃ r < timeout, start = some r ∧
      pollFor (fun t => if shows start t then some () else none) timeout 0 =
        some ((), timeout - (r + 1))) ∨
    ¬ ShowsWithin start timeout ∧
      pollFor (fun t => if shows start t then some () else none) timeout 0 = none := by
  rcases pollFor_cases (fun t => if shows start t then some () else none) timeout with
    ⟨n, hn, ⟨⟩, hpass, hfirst, hpoll⟩ | ⟨hnone, hpoll⟩
  · split_ifs at hpass with hshow
    obtain ⟨r, hr, rfl⟩ := showsWithin_iff.1 ⟨n, hn, hshow⟩
    obtain rfl : n = r := by
      by_contra hne
      have hle := shows_some.1 hshow
      have hearlier := hfirst r (by omega)
      rw [if_pos (shows_some.2 le_rfl)] at hearlier
      cases hearlier
    exact .inl ⟨n, hn, rfl, hpoll⟩
  · refine .inr ⟨fun ⟨t, ht, hshow⟩ => ?_, hpoll⟩
    have := hnone t ht
    rw [if_pos hshow] at this
    cases this

/-- A start that never shows is no timeout, and one that shows in the last pass is one. -/
theorem startWaitRight_iff :
    StartWaitRight config con timeout start s ↔ ∃ r, start = some r ∧ r + 1 < timeout := by
  unfold StartWaitRight i2cStartEnable
  rcases pollShows start timeout with ⟨r, hr, rfl, hpoll⟩ | ⟨hno, hpoll⟩
  · have hshows : ShowsWithin (some r) timeout := showsWithin_iff.2 ⟨r, hr, rfl⟩
    simp only [hpoll]
    by_cases hlast : timeout - (r + 1) = 0
    · rw [if_pos hlast]
      refine iff_of_false (fun h => h.1 rfl hshows) ?_
      rintro ⟨r', h, hlt⟩
      cases h
      omega
    · rw [if_neg hlast]
      exact iff_of_true (iff_of_false (fun h => efiTimeout_ne_success h.symm) (not_not.2 hshows))
        ⟨r, rfl, by omega⟩
  · simp only [hpoll]
    refine iff_of_false (fun h => efiTimeout_ne_success (h.2 hno).symm) ?_
    rintro ⟨r, rfl, hlt⟩
    exact hno (showsWithin_iff.2 ⟨r, by omega, rfl⟩)

theorem stopWaitRight_iff :
    StopWaitRight config stop s ↔ stop ≠ some (i2cReadyTimeout - 1) := by
  unfold StopWaitRight i2cStop
  rcases pollShows stop i2cReadyTimeout with ⟨r, hr, rfl, hpoll⟩ | ⟨hno, hpoll⟩
  · have hshows : ShowsWithin (some r) i2cReadyTimeout := showsWithin_iff.2 ⟨r, hr, rfl⟩
    simp only [hpoll, Ne, Option.some.injEq]
    by_cases hlast : i2cReadyTimeout - (r + 1) = 0
    · rw [if_pos hlast]
      exact iff_of_false (fun h => h.1 rfl hshows) (not_not.2 (by omega))
    · rw [if_neg hlast]
      exact iff_of_true (iff_of_false (fun h => efiTimeout_ne_success h.symm) (not_not.2 hshows))
        (by omega)
  · simp only [hpoll]
    refine iff_of_true (iff_of_true trivial hno) ?_
    rintro rfl
    exact hno (showsWithin_iff.2 ⟨_, by decide, rfl⟩)

/-- A pass of the wait for a chunk. -/
def chunkPass (answer : ChunkAnswer) (t : ℕ) : Option Bool :=
  if shows answer.nak (2 * t) then some false
  else if shows answer.finished (2 * t + 1) then some true
  else none

theorem endsWithin_iff : answer.EndsWithin timeOut ↔ ∃ t < timeOut, chunkPass answer t ≠ none := by
  refine exists_congr fun t => and_congr_right fun _ => ?_
  rw [chunkPass]
  split_ifs with hnak hfin
  · exact iff_of_true (.inl hnak) nofun
  · exact iff_of_true (.inr hfin) nofun
  · exact iff_of_false (fun h => h.elim hnak hfin) fun h => h rfl

theorem i2cWaitChunk_eq (finished : UInt32) (answer : ChunkAnswer) (timeOut : ℕ) (s : I2cState) :
    i2cWaitChunk finished answer timeOut s =
      match pollFor (chunkPass answer) timeOut 0 with
      | some (false, left) => ⟨efiNoResponse, left, false, s.write .ipd i2cNakRcv⟩
      | some (true, left) =>
        ⟨if left = 0 then efiTimeout else efiSuccess, left, answer.nak.isNone,
          s.write .ipd finished⟩
      | none => ⟨efiTimeout, 0, false, s⟩ := rfl

/-- Only a chunk that ends in the last pass is taken for one that does not. -/
theorem chunkWaitRight_iff :
    ChunkWaitRight finished answer timeOut s ↔ ¬ answer.EndsLast timeOut := by
  rw [ChunkWaitRight, i2cWaitChunk_eq, ChunkAnswer.EndsLast, endsWithin_iff, endsWithin_iff]
  rcases pollFor_cases (chunkPass answer) timeOut with
    ⟨n, hn, b, hpass, hfirst, hpoll⟩ | ⟨hnone, hpoll⟩ <;> rw [hpoll]
  · have hends : ∃ t < timeOut, chunkPass answer t ≠ none := ⟨n, hn, by rw [hpass]; nofun⟩
    have hlast : ¬ (∃ t < timeOut - 1, chunkPass answer t ≠ none) → n = timeOut - 1 := fun h => by
      by_contra hne
      exact h ⟨n, by omega, by rw [hpass]; nofun⟩
    rw [chunkPass] at hpass
    rcases b with _ | _
    · refine iff_of_true (iff_of_false ?_ (not_not.2 hends)) fun h => ?_
      · exact fun h => absurd h (show efiNoResponse ≠ efiTimeout by decide)
      · rw [hlast h.1, if_neg (by rw [h.2.2.1]; nofun), if_pos h.2.2.2] at hpass
        cases hpass
    · have hnak : ¬ shows answer.nak (2 * n) = true := fun hnak => by
        rw [if_pos hnak] at hpass
        cases hpass
      rw [if_neg hnak] at hpass
      have hfin : shows answer.finished (2 * n + 1) = true := by
        by_contra hfin
        rw [if_neg hfin] at hpass
        cases hpass
      dsimp only
      by_cases hleft : timeOut - (n + 1) = 0
      · rw [if_pos hleft]
        refine iff_of_false (fun h => h.1 rfl hends) (not_not.2 ⟨?_, by omega, ?_⟩)
        · rintro ⟨t, ht, hne⟩
          exact hne (hfirst t (by omega))
        · rw [show timeOut - 1 = n by omega]
          exact ⟨Bool.eq_false_iff.2 hnak, hfin⟩
      · rw [if_neg hleft]
        refine iff_of_true (iff_of_false (fun h => efiTimeout_ne_success h.symm) (not_not.2 hends))
          fun h => hleft ?_
        have := hlast h.1
        omega
  · refine iff_of_true (iff_of_true rfl fun ⟨t, ht, hne⟩ => hne (hnone t ht)) fun h => ?_
    have := hnone (timeOut - 1) (Nat.sub_lt h.2.1 Nat.one_pos)
    rw [chunkPass, if_neg (by rw [h.2.2.1]; nofun), if_pos h.2.2.2] at this
    cases this

end Waits

/-! What is written. -/

section Written

variable {reg reg' : I2cReg} {val config con slaveWord : UInt32} {slaveAddress : UInt64}
  {written : List (I2cReg × UInt32)} {buf : Cells UInt8} {k n i j : ℕ} {s : I2cState}
  {answer : OperationAnswer}

theorem lastWritten_self : lastWritten reg ((reg, val) :: written) = some val := by
  simp [lastWritten]

theorem lastWritten_of_ne (h : reg' ≠ reg) :
    lastWritten reg ((reg', val) :: written) = lastWritten reg written := by
  simp [lastWritten, h]

theorem wire_of_ne (h : reg ≠ .mtxCnt) : wire ((reg, val) :: written) = wire written := by
  cases reg
  case mtxCnt => exact absurd rfl h
  all_goals rfl

theorem starts_of_ne (h : reg ≠ .con) : starts ((reg, val) :: written) = starts written := by
  cases reg
  case con => exact absurd rfl h
  all_goals rfl

theorem receptions_of_ne (h : reg ≠ .mrxCnt) :
    receptions ((reg, val) :: written) = receptions written := by
  cases reg
  case mrxCnt => exact absurd rfl h
  all_goals rfl

/-- Nothing is sent or received, and there is no start. -/
structure Quiet (s s' : I2cState) : Prop where
  wire : wire s'.written = wire s.written
  starts : starts s'.written = starts s.written
  receptions : receptions s'.written = receptions s.written

theorem Quiet.refl (s : I2cState) : Quiet s s := ⟨rfl, rfl, rfl⟩

theorem Quiet.trans {s s' s'' : I2cState} (h : Quiet s s') (h' : Quiet s' s'') : Quiet s s'' :=
  ⟨h'.wire.trans h.wire, h'.starts.trans h.starts, h'.receptions.trans h.receptions⟩

/-- So it is for the registers that do not tell the controller to go on. -/
theorem quiet_write (hm : reg ≠ .mtxCnt) (hc : reg ≠ .con) (hr : reg ≠ .mrxCnt) (val : UInt32)
    (s : I2cState) : Quiet s (s.write reg val) :=
  ⟨wire_of_ne hm, starts_of_ne hc, receptions_of_ne hr⟩

theorem writeTxData_quiet (n : ℕ) :
    Quiet s (writeTxData slaveAddress buf k n s) ∧
      ∀ i < (n + 3) / 4, lastWritten (.txData i) (writeTxData slaveAddress buf k n s).written =
        some (txData slaveAddress buf k n i) := by
  rw [writeTxData]
  generalize (n + 3) / 4 = words
  induction words with
  | zero => exact ⟨Quiet.refl s, nofun⟩
  | succ words ih =>
    rw [List.range_succ, List.foldl_append]
    refine ⟨ih.1.trans (@quiet_write (.txData words) nofun nofun nofun _ _), fun i hi => ?_⟩
    rcases Nat.lt_succ_iff_lt_or_eq.1 hi with hlt | rfl
    · refine (lastWritten_of_ne fun h => ?_).trans (ih.2 i hlt)
      cases h
      exact absurd hlt (Nat.lt_irrefl _)
    · exact lastWritten_self

/-! Bytes. -/

theorem fifoByte_or (a b : UInt32) (r : ℕ) :
    fifoByte (a ||| b) r = fifoByte a r ||| fifoByte b r := by
  refine UInt8.toNat_inj.1 ?_
  rw [UInt8.toNat_or]
  simp only [fifoByte, UInt8.toNat_ofNat', UInt32.toNat_or]
  rw [show 256 = 2 ^ 8 from rfl, ← Nat.pow_mul, ← Nat.shiftRight_eq_div_pow,
    ← Nat.shiftRight_eq_div_pow, ← Nat.shiftRight_eq_div_pow, Nat.shiftRight_or_distrib,
    Nat.or_mod_two_pow]

theorem fifoByte_shiftLeft (b : UInt8) {r j : ℕ} (hr : r < 4) (hj : j < 4) :
    fifoByte (b.toUInt32 <<< UInt32.ofNat (8 * j)) r = if r = j then b else 0 := by
  have := b.toNat_lt
  obtain rfl | rfl | rfl | rfl : r = 0 ∨ r = 1 ∨ r = 2 ∨ r = 3 := by omega
  all_goals
    obtain rfl | rfl | rfl | rfl : j = 0 ∨ j = 1 ∨ j = 2 ∨ j = 3 := by omega
    all_goals
      refine UInt8.toNat_inj.1 ?_
      simp [fifoByte, Nat.shiftLeft_eq]
      try omega

theorem fifoByte_zero (r : ℕ) : fifoByte 0 r = 0 := by
  rw [fifoByte, UInt32.toNat_zero, Nat.zero_div]
  rfl

/-- Byte `i` of what a write puts on the wire: the bytes of the first word have the address's in
them. -/
def sentByte (slaveAddress : UInt64) (buf : Cells UInt8) (i : ℕ) : UInt8 :=
  (if i < 4 then addressSpill slaveAddress i else 0) ||| if i = 0 then 0 else buf (i - 1)

theorem fifoByte_txPart (hi : i < 4) (hj : j < 4) {word : ℕ} (hn : 4 * word + i < n) :
    fifoByte (txPart slaveAddress buf k n word j) i =
      if k = 0 ∧ word = 0 ∧ j = 0 then addressSpill slaveAddress i
      else if i = j then buf (rkI2cFifoSize * k + 4 * word + j - 1) else 0 := by
  rw [txPart]
  by_cases hlt : 4 * word + j < n
  · rw [if_pos hlt]
    split_ifs with hfirst hij
    · rfl
    · rw [fifoByte_shiftLeft _ hi hj, if_pos hij]
    · rw [fifoByte_shiftLeft _ hi hj, if_neg hij]
  · rw [if_neg hlt, fifoByte_zero, if_neg (by omega), if_neg (by omega)]

theorem fifoByte_txData (hi : i < 4) {word : ℕ} (hn : 4 * word + i < n) :
    fifoByte (txData slaveAddress buf k n word) i =
      sentByte slaveAddress buf (rkI2cFifoSize * k + (4 * word + i)) := by
  have hfold : txData slaveAddress buf k n word = 0 ||| txPart slaveAddress buf k n word 0 |||
      txPart slaveAddress buf k n word 1 ||| txPart slaveAddress buf k n word 2 |||
      txPart slaveAddress buf k n word 3 := rfl
  rw [hfold, fifoByte_or, fifoByte_or, fifoByte_or, fifoByte_or, fifoByte_zero,
    fifoByte_txPart hi (by omega) hn, fifoByte_txPart hi (by omega) hn,
    fifoByte_txPart hi (by omega) hn, fifoByte_txPart hi (by omega) hn, sentByte, rkI2cFifoSize]
  by_cases hfirst : k = 0 ∧ word = 0
  · obtain ⟨rfl, rfl⟩ := hfirst
    obtain rfl | rfl | rfl | rfl : i = 0 ∨ i = 1 ∨ i = 2 ∨ i = 3 := by omega
    all_goals simp
  · have hlater : ∀ j, ¬ (k = 0 ∧ word = 0 ∧ j = 0) := fun j h => hfirst ⟨h.1, h.2.1⟩
    rw [if_neg (hlater 0), if_neg (hlater 1), if_neg (hlater 2), if_neg (hlater 3),
      if_neg (show ¬ 32 * k + (4 * word + i) < 4 by omega),
      if_neg (show ¬ 32 * k + (4 * word + i) = 0 by omega)]
    obtain rfl | rfl | rfl | rfl : i = 0 ∨ i = 1 ∨ i = 2 ∨ i = 3 := by omega
    all_goals simp [Nat.add_assoc]

end Written

/-! One chunk. -/

section Chunk

variable {config con con' lastAck : UInt32} {slaveAddress : UInt64} {buf : Cells UInt8}
  {k n m c timeOut length : ℕ} {s s' : I2cState} {a : OperationAnswer} {r : I2cTransfer}

/-- The start shows before the last pass of its wait. -/
def OperationAnswer.InTime (a : OperationAnswer) : Prop :=
  ∃ r, a.start = some r ∧ r + 1 < i2cTimeoutUs

/-- The controller has been told to go on with chunk `k`, with a start if it is the first one. -/
structure Started (k : ℕ) (lastAck : UInt32) (s s' : I2cState) : Prop where
  wire : wire s'.written = wire s.written
  receptions : receptions s'.written = receptions s.written
  starts : starts s'.written = starts s.written + if k = 0 then 1 else 0
  txData : ∀ i, lastWritten (.txData i) s'.written = lastWritten (.txData i) s.written
  lastAck : (lastWritten .con s'.written).getD 0 &&& i2cConLastAck = lastAck

theorem i2cStartEnable_inTime (h : a.InTime) :
    i2cStartEnable config con i2cTimeoutUs a.start s =
      (efiSuccess, (((s.write .ipd i2cIpdAllClean).write .ien i2cStartBit).write .con
        (i2cConEn ||| i2cConStart ||| con ||| config)).write .ipd i2cStartBit) := by
  obtain ⟨r, hr, hlt⟩ := h
  unfold i2cStartEnable
  rcases pollShows a.start i2cTimeoutUs with ⟨r', hr', hr'', hpoll⟩ | ⟨hno, -⟩
  · obtain rfl : r' = r := Option.some.inj (hr''.symm.trans hr)
    simp only [hpoll]
    rw [if_neg (by omega)]
  · exact absurd (showsWithin_iff.2 ⟨r, by omega, hr⟩) hno

theorem started_first (h : a.InTime)
    (hstart : (i2cConEn ||| i2cConStart ||| con ||| config) &&& i2cConStart ≠ 0)
    (hlast : (i2cConEn ||| i2cConStart ||| con ||| config) &&& i2cConLastAck = lastAck) :
    (i2cStartEnable config con i2cTimeoutUs a.start s).1 = efiSuccess ∧
      Started 0 lastAck s (i2cStartEnable config con i2cTimeoutUs a.start s).2 := by
  rw [i2cStartEnable_inTime h]
  refine ⟨rfl, rfl, rfl, ?_, fun i => ?_, ?_⟩
  · change starts s.written + (if _ then 1 else 0) = _
    rw [if_pos hstart, if_pos rfl]
  · simp [I2cState.write, lastWritten]
  · simpa [I2cState.write, lastWritten] using hlast

theorem started_next (hk : k ≠ 0) (hstart : con &&& i2cConStart = 0)
    (hlast : con &&& i2cConLastAck = lastAck) : Started k lastAck s (s.write .con con) := by
  refine ⟨rfl, rfl, ?_, fun i => ?_, ?_⟩
  · change starts s.written + (if con &&& i2cConStart ≠ 0 then 1 else 0) = _
    rw [if_neg (not_not.2 hstart), if_neg hk]
  · simp [I2cState.write, lastWritten]
  · simpa [I2cState.write, lastWritten] using hlast

theorem started_of (hk : k = 0 → a.InTime)
    (hfirst : (i2cConEn ||| i2cConStart ||| con ||| config) &&& i2cConStart ≠ 0 ∧
      (i2cConEn ||| i2cConStart ||| con ||| config) &&& i2cConLastAck = lastAck)
    (hnext : con' &&& i2cConStart = 0 ∧ con' &&& i2cConLastAck = lastAck) :
    (if k ≠ 0 then (efiSuccess, s.write .con con')
      else i2cStartEnable config con i2cTimeoutUs a.start s).1 = efiSuccess ∧
      Started k lastAck s (if k ≠ 0 then (efiSuccess, s.write .con con')
        else i2cStartEnable config con i2cTimeoutUs a.start s).2 := by
  by_cases h0 : k = 0
  · subst h0
    rw [if_neg (not_not.2 rfl)]
    exact started_first (hk rfl) hfirst.1 hfirst.2
  · rw [if_pos h0]
    exact ⟨rfl, started_next h0 hnext.1 hnext.2⟩

/-- The chunk of a write, from the words to the end of its wait. -/
theorem writeChunk_stream {answer : ChunkAnswer} (hconfig : config ∈ i2cConfigs)
    (hn : n ≤ rkI2cFifoSize) (hk : k = 0 → a.InTime) (hcarries : answer.Carries)
    (hpasses : answer.passes < timeOut)
    (started : EfiStatus × I2cState) (w : ChunkWait)
    (hstarted : started =
      if k ≠ 0 then (efiSuccess, (writeTxData slaveAddress buf k n s).write .con
        (i2cConEn ||| i2cConMod i2cModeTx ||| config))
      else i2cStartEnable config (i2cConEn ||| i2cConMod i2cModeTx) i2cTimeoutUs a.start
        (writeTxData slaveAddress buf k n s))
    (hw : w = i2cWaitChunk i2cMbtf answer timeOut
      ((started.2.write .ien (i2cMbtf ||| i2cNakRcv)).write .mtxCnt (UInt32.ofNat n))) :
    started.1 = efiSuccess ∧ w.status = efiSuccess ∧ w.left = timeOut - answer.passes ∧
      wire w.state.written = wire s.written ++
        (List.range n).map (fun j => sentByte slaveAddress buf (rkI2cFifoSize * k + j)) ∧
      starts w.state.written = starts s.written + if k = 0 then 1 else 0 := by
  obtain ⟨hquiet, hdata⟩ := @writeTxData_quiet slaveAddress buf k s n
  obtain ⟨hfirst, hnext⟩ : ((i2cConEn ||| i2cConStart ||| (i2cConEn ||| i2cConMod i2cModeTx) |||
          config) &&& i2cConStart ≠ 0 ∧
        (i2cConEn ||| i2cConStart ||| (i2cConEn ||| i2cConMod i2cModeTx) ||| config) &&&
          i2cConLastAck = 0) ∧
      (i2cConEn ||| i2cConMod i2cModeTx ||| config) &&& i2cConStart = 0 ∧
        (i2cConEn ||| i2cConMod i2cModeTx ||| config) &&& i2cConLastAck = 0 := by
    rcases mem_i2cConfigs.1 hconfig with rfl | rfl | rfl <;> decide
  obtain ⟨hstatus, hst⟩ := @started_of _ _ _ _ k (writeTxData slaveAddress buf k n s) a hk
    hfirst hnext
  rw [← hstarted] at hstatus hst
  rw [i2cWaitChunk_of_carries hcarries hpasses.le, if_neg (by omega)] at hw
  subst hw
  have hcount : (UInt32.ofNat n).toNat = n :=
    UInt32.toNat_ofNat_of_lt' (by rw [rkI2cFifoSize] at hn; exact hn.trans_lt (by decide))
  refine ⟨hstatus, rfl, rfl, ?_, ?_⟩
  · change wire started.2.written ++ _ = _
    rw [hst.wire, hquiet.wire, hcount]
    congr 1
    refine List.map_congr_left fun j hj => ?_
    have hlt := List.mem_range.1 hj
    have hien : lastWritten (.txData (j / 4))
        (started.2.write .ien (i2cMbtf ||| i2cNakRcv)).written =
          lastWritten (.txData (j / 4)) started.2.written := lastWritten_of_ne nofun
    rw [hien, hst.txData, hdata _ (by omega), Option.getD_some,
      fifoByte_txData (by omega) (by omega), show 4 * (j / 4) + j % 4 = j by omega]
  · change starts started.2.written = _
    rw [hst.starts, hquiet.starts]

/-- The bytes from a chunk on are those of the chunk and those from the next one on. -/
theorem map_range_chunk {β : Type*} (f : ℕ → β) (hn : 0 < n) :
    (List.range n).map (fun j => f (rkI2cFifoSize * k + j)) =
      (List.range (min rkI2cFifoSize n)).map (fun j => f (rkI2cFifoSize * k + j)) ++
        (List.range (n - min rkI2cFifoSize n)).map fun j => f (rkI2cFifoSize * (k + 1) + j) := by
  have hsplit : n = min rkI2cFifoSize n + (n - min rkI2cFifoSize n) :=
    (Nat.add_sub_cancel' (Nat.min_le_right _ _)).symm
  conv_lhs => rw [hsplit, List.range_add, List.map_append, List.map_map]
  congr 1
  refine List.map_congr_left fun j hj => congrArg f ?_
  have hlt := List.mem_range.1 hj
  change rkI2cFifoSize * k + (min rkI2cFifoSize n + j) = _
  simp only [rkI2cFifoSize] at hlt ⊢
  omega

/-- A write whose chunks end in time. -/
theorem i2cWriteChunks_stream (hconfig : config ∈ i2cConfigs) (hk : k = 0 → a.InTime)
    (hcarries : a.Carries k (chunks n)) (hpasses : a.passes k (chunks n) < timeOut) :
    (i2cWriteChunks config slaveAddress a length k timeOut n r).status = efiSuccess ∧
      wire (i2cWriteChunks config slaveAddress a length k timeOut n r).state.written =
        wire r.state.written ++ (List.range n).map
          (fun j => sentByte slaveAddress r.buffer (rkI2cFifoSize * k + j)) ∧
      starts (i2cWriteChunks config slaveAddress a length k timeOut n r).state.written =
        starts r.state.written + if k = 0 ∧ n ≠ 0 then 1 else 0 := by
  fun_induction i2cWriteChunks config slaveAddress a length k timeOut n r with
  | case1 k timeOut r =>
    refine ⟨rfl, (List.append_nil _).symm, ?_⟩
    rw [if_neg fun h => h.2 rfl]
    rfl
  | case2 k timeOut n r hn m s started hs =>
    rw [chunks_succ (Nat.pos_of_ne_zero hn)] at hcarries hpasses
    obtain ⟨hstatus, -⟩ := @writeChunk_stream _ slaveAddress r.buffer k m timeOut r.state a _ hconfig
      (Nat.min_le_left _ _) hk (OperationAnswer.carries_succ.1 hcarries).1
      (by unfold OperationAnswer.passes at hpasses; omega) started _ rfl rfl
    rw [hstatus] at hs
    cases hs
  | case3 k timeOut n r hn m s started hs s' s'' w moved hw =>
    rw [chunks_succ (Nat.pos_of_ne_zero hn)] at hcarries hpasses
    obtain ⟨-, hstatus, -⟩ := @writeChunk_stream _ slaveAddress r.buffer k m timeOut r.state a _
      hconfig (Nat.min_le_left _ _) hk (OperationAnswer.carries_succ.1 hcarries).1
      (by unfold OperationAnswer.passes at hpasses; omega) started w rfl rfl
    rw [hstatus] at hw
    cases hw
  | case4 k timeOut n r hn m s started hs s' s'' w moved hw ih =>
    have hm : 0 < m ∧ m ≤ n := fifo_bounds hn
    rw [chunks_succ (Nat.pos_of_ne_zero hn)] at hcarries hpasses
    obtain ⟨hcarry, hrest⟩ := OperationAnswer.carries_succ.1 hcarries
    have hsum : (a.chunk k).passes + a.passes (k + 1) (chunks (n - m)) < timeOut := hpasses
    obtain ⟨-, -, hleft, hwire, hstarts⟩ := @writeChunk_stream _ slaveAddress r.buffer k m timeOut
      r.state a _ hconfig (Nat.min_le_left _ _) hk hcarry (by omega) started w rfl rfl
    obtain ⟨ihstatus, ihwire, ihstarts⟩ := ih (fun h => absurd h (Nat.succ_ne_zero k)) hrest (by
      rw [hleft]
      omega)
    refine ⟨ihstatus, ?_, ?_⟩
    · rw [ihwire, hwire, List.append_assoc, ← map_range_chunk _ (Nat.pos_of_ne_zero hn)]
    · rw [ihstarts, if_neg fun h => absurd h.1 (Nat.succ_ne_zero k)]
      refine hstarts.trans (congrArg _ (if_congr ?_ rfl rfl))
      exact (and_iff_left hn).symm

/-- The chunk of a read, up to the end of its wait. -/
theorem readChunk_stream {answer : ChunkAnswer} (hconfig : config ∈ i2cConfigs)
    (hk : k = 0 → a.InTime) (hcarries : answer.Carries) (hpasses : answer.passes < timeOut)
    (con : UInt32) (hcon : con = if rkI2cFifoSize < n then i2cConEn else i2cConEn ||| i2cConLastAck)
    (started : EfiStatus × I2cState) (w : ChunkWait)
    (hstarted : started =
      if k ≠ 0 then (efiSuccess, s.write .con (con ||| i2cConMod i2cModeRx ||| config))
      else i2cStartEnable config (con ||| i2cConMod i2cModeTrx) i2cTimeoutUs a.start s)
    (hw : w = i2cWaitChunk i2cMbrf answer timeOut
      ((started.2.write .ien (i2cMbrf ||| i2cNakRcv)).write .mrxCnt
        (UInt32.ofNat (min rkI2cFifoSize n)))) :
    started.1 = efiSuccess ∧ w.status = efiSuccess ∧ w.left = timeOut - answer.passes ∧
      receptions w.state.written =
        receptions s.written ++ [(min rkI2cFifoSize n, decide (n ≤ rkI2cFifoSize))] ∧
      starts w.state.written = starts s.written + if k = 0 then 1 else 0 := by
  have hmem : con = i2cConEn ∨ con = i2cConEn ||| i2cConLastAck := by
    rw [hcon]
    split_ifs
    · exact .inl rfl
    · exact .inr rfl
  obtain ⟨hfirst, hnext⟩ : ((i2cConEn ||| i2cConStart ||| (con ||| i2cConMod i2cModeTrx) ||| config)
          &&& i2cConStart ≠ 0 ∧
        (i2cConEn ||| i2cConStart ||| (con ||| i2cConMod i2cModeTrx) ||| config) &&&
          i2cConLastAck = con &&& i2cConLastAck) ∧
      (con ||| i2cConMod i2cModeRx ||| config) &&& i2cConStart = 0 ∧
        (con ||| i2cConMod i2cModeRx ||| config) &&& i2cConLastAck = con &&& i2cConLastAck := by
    rcases hmem with h | h <;> rw [h] <;>
      rcases mem_i2cConfigs.1 hconfig with rfl | rfl | rfl <;> decide
  have hlast : decide (con &&& i2cConLastAck ≠ 0) = decide (n ≤ rkI2cFifoSize) := by
    rw [hcon]
    split_ifs with hlt
    · rw [decide_eq_false (Nat.not_le.2 hlt)]
      decide
    · rw [decide_eq_true (Nat.not_lt.1 hlt)]
      decide
  obtain ⟨hstatus, hst⟩ := @started_of _ _ _ _ k s a hk hfirst hnext
  rw [← hstarted] at hstatus hst
  rw [i2cWaitChunk_of_carries hcarries hpasses.le, if_neg (by omega)] at hw
  subst hw
  have hcount : (UInt32.ofNat (min rkI2cFifoSize n)).toNat = min rkI2cFifoSize n :=
    UInt32.toNat_ofNat_of_lt' ((Nat.min_le_left _ _).trans_lt (by decide))
  refine ⟨hstatus, rfl, rfl, ?_, ?_⟩
  · change receptions started.2.written ++ [(_, decide ((lastWritten .con
      (started.2.write .ien (i2cMbrf ||| i2cNakRcv)).written).getD 0 &&& i2cConLastAck ≠ 0))] = _
    have hien : lastWritten .con (started.2.write .ien (i2cMbrf ||| i2cNakRcv)).written =
        lastWritten .con started.2.written := lastWritten_of_ne nofun
    rw [hst.receptions, hcount, hien, hst.lastAck, hlast]
  · exact hst.starts

theorem readChunks_chunk (hn : 0 < n) :
    readChunks n = (min rkI2cFifoSize n, decide (n ≤ rkI2cFifoSize)) ::
      readChunks (n - min rkI2cFifoSize n) := by
  rw [readChunks, readChunks, chunks_succ hn, List.range_succ_eq_map, List.map_cons, List.map_map]
  congr 1
  · refine Prod.ext ?_ (decide_eq_decide.2 ?_)
    · rw [Nat.mul_zero, Nat.sub_zero]
    · rw [chunks, rkI2cFifoSize]
      omega
  · refine List.map_congr_left fun j hj => Prod.ext ?_ (decide_eq_decide.2 ?_)
    · have hlt := List.mem_range.1 hj
      rw [chunks, rkI2cFifoSize] at hlt
      change min rkI2cFifoSize (n - rkI2cFifoSize * (j + 1)) = _
      rw [rkI2cFifoSize]
      omega
    · exact Nat.add_right_cancel_iff

/-- A buffer filled with a chunk, and with what comes behind it. -/
theorem write_chunk (n : ℕ) :
    (buf.modify (rkI2cFifoSize * k) (min rkI2cFifoSize n) fun i _ => (a.chunk k).rxByte i).write
        (rkI2cFifoSize * (k + 1)) (n - min rkI2cFifoSize n)
        (fun i => a.rxByte (rkI2cFifoSize * (k + 1) + i)) =
      buf.write (rkI2cFifoSize * k) n fun i => a.rxByte (rkI2cFifoSize * k + i) := by
  have hfirst : (buf.modify (rkI2cFifoSize * k) (min rkI2cFifoSize n)
      fun i _ => (a.chunk k).rxByte i) = buf.write (rkI2cFifoSize * k) (min rkI2cFifoSize n)
        fun i => a.rxByte (rkI2cFifoSize * k + i) := by
    refine write_congr fun i hi => ?_
    have hlt : i < 32 := hi.trans_le (Nat.min_le_left _ _)
    rw [OperationAnswer.rxByte, rkI2cFifoSize, show (32 * k + i) / 32 = k by omega,
      show (32 * k + i) % 32 = i by omega]
  rw [hfirst]
  rcases Nat.le_total n rkI2cFifoSize with hle | hge
  · rw [Nat.min_eq_right hle, Nat.sub_self, write_zero]
  · rw [Nat.min_eq_left hge, Nat.mul_succ]
    have hwhole := @write_write _ buf (fun i => a.rxByte (rkI2cFifoSize * k + i))
      (rkI2cFifoSize * k) rkI2cFifoSize (n - rkI2cFifoSize)
    simp only [← Nat.add_assoc] at hwhole
    rw [hwhole, Nat.add_sub_cancel' hge]

/-- A read whose chunks end in time. -/
theorem i2cReadChunks_stream (hconfig : config ∈ i2cConfigs) (hk : k = 0 → a.InTime)
    (hcarries : a.Carries k (chunks n)) (hpasses : a.passes k (chunks n) < timeOut) :
    (i2cReadChunks config a length k timeOut n r).status = efiSuccess ∧
      (i2cReadChunks config a length k timeOut n r).buffer =
        r.buffer.write (rkI2cFifoSize * k) n (fun i => a.rxByte (rkI2cFifoSize * k + i)) ∧
      starts (i2cReadChunks config a length k timeOut n r).state.written =
        starts r.state.written + (if k = 0 ∧ n ≠ 0 then 1 else 0) ∧
      receptions (i2cReadChunks config a length k timeOut n r).state.written =
        receptions r.state.written ++ readChunks n := by
  fun_induction i2cReadChunks config a length k timeOut n r with
  | case1 k timeOut r =>
    refine ⟨rfl, write_zero.symm, ?_, (List.append_nil _).symm⟩
    rw [if_neg fun h => h.2 rfl]
    rfl
  | case2 k timeOut n r hn con started hs =>
    rw [chunks_succ (Nat.pos_of_ne_zero hn)] at hcarries hpasses
    obtain ⟨hstatus, -⟩ := @readChunk_stream _ k n timeOut r.state a _ hconfig hk
      (OperationAnswer.carries_succ.1 hcarries).1
      (by unfold OperationAnswer.passes at hpasses; omega) con rfl started _ rfl rfl
    rw [hstatus] at hs
    cases hs
  | case3 k timeOut n r hn con m started hs s s' w hw =>
    rw [chunks_succ (Nat.pos_of_ne_zero hn)] at hcarries hpasses
    obtain ⟨-, hstatus, -⟩ := @readChunk_stream _ k n timeOut r.state a _ hconfig hk
      (OperationAnswer.carries_succ.1 hcarries).1
      (by unfold OperationAnswer.passes at hpasses; omega) con rfl started w rfl rfl
    rw [hstatus] at hw
    cases hw
  | case4 k timeOut n r hn con m started hs s s' w hw ih =>
    have hpos := Nat.pos_of_ne_zero hn
    rw [chunks_succ hpos] at hcarries hpasses
    obtain ⟨hcarry, hrest⟩ := OperationAnswer.carries_succ.1 hcarries
    have hsum : (a.chunk k).passes + a.passes (k + 1) (chunks (n - m)) < timeOut := hpasses
    obtain ⟨-, -, hleft, hreceptions, hstarts⟩ := @readChunk_stream _ k n timeOut r.state a _
      hconfig hk hcarry (by omega) con rfl started w rfl rfl
    obtain ⟨ihstatus, ihbuffer, ihstarts, ihreceptions⟩ := ih (fun h => absurd h (Nat.succ_ne_zero k))
      hrest (by
        rw [hleft]
        omega)
    refine ⟨ihstatus, ?_, ?_, ?_⟩
    · exact ihbuffer.trans (write_chunk n)
    · rw [if_neg fun h => absurd h.1 (Nat.succ_ne_zero k)] at ihstarts
      refine ihstarts.trans (hstarts.trans (congrArg _ (if_congr ?_ rfl rfl)))
      exact (and_iff_left hn).symm
    · refine ihreceptions.trans ?_
      rw [hreceptions, List.append_assoc, readChunks_chunk hpos]
      rfl

end Chunk

/-! The whole operation. -/

section Operation

variable {config finished : UInt32} {slaveAddress : UInt64} {buf : Cells UInt8} {length : UInt64}
  {k n timeOut len : ℕ} {s : I2cState} {a : OperationAnswer} {answer : ChunkAnswer}
  {r : I2cTransfer}

theorem endsWithin_of_carries (h : answer.Carries) :
    answer.EndsWithin timeOut ↔ answer.passes ≤ timeOut := by
  obtain ⟨hnak, hfin⟩ := h
  obtain ⟨r, hr⟩ := Option.ne_none_iff_exists'.1 hfin
  rw [ChunkAnswer.EndsWithin, ChunkAnswer.passes, hnak, hr, Option.getD_some]
  constructor
  · rintro ⟨t, ht, hshow | hshow⟩
    · cases hshow
    · have := shows_some.1 hshow
      omega
  · exact fun hle => ⟨r / 2, hle, .inr (shows_some.2 (by omega))⟩

theorem not_success_of_error {status : EfiStatus} (h : efiError status = true) :
    status ≠ efiSuccess := by
  rintro rfl
  rw [efiError_success] at h
  cases h

/-- The wait for a chunk that is carried out is over before its last pass, or it is no success. -/
theorem passes_lt_of_wait (h : answer.Carries)
    (hok : ¬ efiError (i2cWaitChunk finished answer timeOut s).status = true) :
    answer.passes < timeOut := by
  by_contra hlate
  refine hok ?_
  rcases Nat.lt_or_ge timeOut answer.passes with hgt | hle
  · have hno : ¬ answer.EndsWithin timeOut := fun hends =>
      absurd ((endsWithin_of_carries h).1 hends) (by omega)
    have hright := (@chunkWaitRight_iff finished answer timeOut s).2 fun hlast =>
      hno ⟨timeOut - 1, Nat.sub_lt hlast.2.1 Nat.one_pos, .inr hlast.2.2.2⟩
    rw [hright.2 hno]
    rfl
  · rw [i2cWaitChunk_of_carries h hle, if_pos (by omega)]
    rfl

/-- After a chunk that did not fail, the chunks left are still late for the time left. -/
theorem late_rest (hcarries : a.Carries k (chunks n)) (hn : n ≠ 0)
    (hlate : timeOut ≤ a.passes k (chunks n))
    (hw : ¬ efiError (i2cWaitChunk finished (a.chunk k) timeOut s).status = true) :
    a.Carries (k + 1) (chunks (n - min rkI2cFifoSize n)) ∧ n - min rkI2cFifoSize n ≠ 0 ∧
      (i2cWaitChunk finished (a.chunk k) timeOut s).left ≤
        a.passes (k + 1) (chunks (n - min rkI2cFifoSize n)) := by
  rw [chunks_succ (Nat.pos_of_ne_zero hn)] at hcarries hlate
  obtain ⟨hcarry, hrest⟩ := OperationAnswer.carries_succ.1 hcarries
  have hlt : (a.chunk k).passes < timeOut := passes_lt_of_wait hcarry hw
  have hleft : (i2cWaitChunk finished (a.chunk k) timeOut s).left =
      timeOut - (a.chunk k).passes :=
    congrArg ChunkWait.left (i2cWaitChunk_of_carries hcarry hlt.le)
  have hsum : timeOut ≤
      (a.chunk k).passes + a.passes (k + 1) (chunks (n - min rkI2cFifoSize n)) := hlate
  refine ⟨hrest, fun h0 => ?_, by omega⟩
  rw [h0] at hsum
  exact absurd hlt (Nat.not_lt.2 hsum)

theorem i2cWriteChunks_late (hcarries : a.Carries k (chunks n)) (hn : n ≠ 0)
    (hlate : timeOut ≤ a.passes k (chunks n)) :
    (i2cWriteChunks config slaveAddress a len k timeOut n r).status ≠ efiSuccess := by
  fun_induction i2cWriteChunks config slaveAddress a len k timeOut n r with
  | case1 => exact absurd rfl hn
  | case2 k timeOut n r hn m s started hs => exact not_success_of_error hs
  | case3 k timeOut n r hn m s started hs s' s'' w moved hw => exact not_success_of_error hw
  | case4 k timeOut n r hn m s started hs s' s'' w moved hw ih =>
    obtain ⟨hrest, hne, hleft⟩ := late_rest hcarries hn hlate hw
    exact ih hrest hne hleft

theorem i2cReadChunks_late (hcarries : a.Carries k (chunks n)) (hn : n ≠ 0)
    (hlate : timeOut ≤ a.passes k (chunks n)) :
    (i2cReadChunks config a len k timeOut n r).status ≠ efiSuccess := by
  fun_induction i2cReadChunks config a len k timeOut n r with
  | case1 => exact absurd rfl hn
  | case2 k timeOut n r hn con started hs => exact not_success_of_error hs
  | case3 k timeOut n r hn con m started hs s s' w hw => exact not_success_of_error hw
  | case4 k timeOut n r hn con m started hs s s' w hw ih =>
    obtain ⟨hrest, hne, hleft⟩ := late_rest hcarries hn hlate hw
    exact ih hrest hne hleft

theorem start_error {con : UInt32} (h : ¬ a.Starts) :
    efiError (i2cStartEnable config con i2cTimeoutUs a.start s).1 = true :=
  Bool.eq_true_of_not_eq_false (mt i2cStartEnable_status.1 h)

theorem i2cWriteChunks_unstarted (hn : n ≠ 0) (h : ¬ a.Starts) :
    (i2cWriteChunks config slaveAddress a len 0 timeOut n r).status ≠ efiSuccess := by
  rw [i2cWriteChunks, if_neg hn]
  simp only [ne_eq, not_true_eq_false, if_false]
  rw [if_pos (start_error h)]
  exact not_success_of_error (start_error h)

theorem i2cReadChunks_unstarted (hn : n ≠ 0) (h : ¬ a.Starts) :
    (i2cReadChunks config a len 0 timeOut n r).status ≠ efiSuccess := by
  rw [i2cReadChunks, if_neg hn]
  simp only [ne_eq, not_true_eq_false, if_false]
  rw [if_pos (start_error h)]
  exact not_success_of_error (start_error h)

theorem OperationAnswer.inTime_iff (h : ShowsWithin a.start i2cTimeoutUs) :
    a.InTime ↔ a.Starts := by
  obtain ⟨r, hr, hstart⟩ := showsWithin_iff.1 h
  rw [InTime, Starts, hstart]
  constructor
  · rintro ⟨r', h, hlt⟩
    cases h
    exact fun h => absurd (Option.some.inj h) (by omega)
  · exact fun hne => ⟨r, rfl, by
      have : r ≠ i2cTimeoutUs - 1 := fun h => hne (congrArg some h)
      omega⟩

theorem writeRemain_eq : writeRemain length = (length.toNat + 1) % 2 ^ 32 := by
  rw [writeRemain, UInt64.toNat_toUInt32, UInt64.toNat_add]
  change (length.toNat + 1) % 2 ^ 64 % 2 ^ 32 = _
  omega

theorem readRemain_eq : readRemain length = length.toNat % 2 ^ 32 := UInt64.toNat_toUInt32 ..

theorem addressSpill_zero : addressSpill slaveAddress 0 = (slaveAddress <<< 1).toUInt8 := by
  refine UInt8.toNat_inj.1 ?_
  simp only [addressSpill, fifoByte, Nat.pow_zero, Nat.div_one, UInt8.toNat_ofNat',
    UInt64.toNat_toUInt32, UInt64.toNat_toUInt8]
  omega

theorem sentByte_iff : (List.range (len + 1)).map (sentByte slaveAddress buf) =
    (List.range (len + 1)).map (writeByte slaveAddress buf) ↔ AddressFits slaveAddress buf len := by
  rw [List.map_inj_left]
  have hbyte : ∀ i, sentByte slaveAddress buf (i + 1) =
      buf i ||| if i < 3 then addressSpill slaveAddress (i + 1) else 0 := fun i => by
    rw [sentByte, if_neg (Nat.succ_ne_zero i), Nat.add_sub_cancel, UInt8.or_comm]
    exact congrArg _ (if_congr (by omega) rfl rfl)
  constructor
  · intro h i hi
    have := h (i + 1) (List.mem_range.2 (by omega))
    rwa [hbyte, if_pos (by omega)] at this
  · intro h i hi
    have hlt := List.mem_range.1 hi
    rcases i with _ | i
    · rw [sentByte, if_pos (by omega), if_pos rfl, UInt8.or_zero, addressSpill_zero]
      rfl
    · rw [hbyte]
      split_ifs with h3
      · exact h i (by omega)
      · exact UInt8.or_zero

theorem writeStream_iff (hconfig : config ∈ i2cConfigs)
    (hc : a.Completes (chunks (writeRemain length))) :
    WriteStream slaveAddress buf length.toNat s
      (i2cWriteOperation config slaveAddress buf length a s) ↔
    a.Starts ∧ a.passes 0 (chunks (writeRemain length)) < i2cTimeoutUs ∧
      length.toNat + 1 < 2 ^ 32 ∧ AddressFits slaveAddress buf length.toNat := by
  obtain ⟨hshows, hcarries, -⟩ := hc
  rw [i2cWriteOperation]
  change WriteStream _ _ _ _ (i2cWriteChunks config slaveAddress a length.toNat 0 i2cTimeoutUs
    (writeRemain length) ⟨efiSuccess, 0, buf, 0, s⟩) ↔ _
  have hstream := fun hstarts => @i2cWriteChunks_stream config slaveAddress 0 (writeRemain length)
    i2cTimeoutUs length.toNat a ⟨efiSuccess, 0, buf, 0, s⟩ hconfig
    (fun _ => (OperationAnswer.inTime_iff hshows).2 hstarts) hcarries
  simp only [Nat.mul_zero, Nat.zero_add, true_and] at hstream
  constructor
  · intro h
    have hn : writeRemain length ≠ 0 := fun h0 => by
      have hwire := congrArg List.length h.wire
      rw [h0, i2cWriteChunks, if_pos rfl] at hwire
      simp at hwire
    have hstarts : a.Starts := by
      by_contra hno
      exact i2cWriteChunks_unstarted hn hno h.status
    have hpasses : a.passes 0 (chunks (writeRemain length)) < i2cTimeoutUs := by
      by_contra hno
      exact i2cWriteChunks_late hcarries hn (Nat.not_lt.1 hno) h.status
    have hwire := List.append_cancel_left ((hstream hstarts hpasses).2.1.symm.trans h.wire)
    have hlen : writeRemain length = length.toNat + 1 := by
      simpa using congrArg List.length hwire
    rw [hlen] at hwire
    refine ⟨hstarts, hpasses, ?_, sentByte_iff.1 hwire⟩
    rw [writeRemain_eq] at hlen
    omega
  · rintro ⟨hstarts, hpasses, hlen, hfits⟩
    have hremain : writeRemain length = length.toNat + 1 := by
      rw [writeRemain_eq]
      omega
    obtain ⟨hstatus, hwire, hcount⟩ := hstream hstarts hpasses
    refine ⟨hstatus, ?_, ?_⟩
    · rw [hwire, hremain, sentByte_iff.2 hfits]
    · rw [hcount, hremain, if_pos (Nat.succ_ne_zero _)]

theorem readStream_iff (hconfig : config ∈ i2cConfigs) (snd : Bool)
    (hc : a.Completes (chunks (readRemain length))) :
    ReadStream a buf length.toNat s
      (i2cReadOperation config slaveAddress buf length snd a s) ↔
    a.Starts ∧ a.passes 0 (chunks (readRemain length)) < i2cTimeoutUs ∧
      0 < length.toNat ∧ length.toNat < 2 ^ 32 := by
  obtain ⟨hshows, hcarries, -⟩ := hc
  have hquiet : Quiet s ((if snd then s.write .con 0 else s).write .mrxAddr
      (slaveAddress <<< 1 ||| 1 ||| 0x1000000).toUInt32) := by
    refine Quiet.trans ?_ (@quiet_write .mrxAddr nofun nofun nofun _ _)
    split_ifs
    · exact ⟨rfl, rfl, rfl⟩
    · exact Quiet.refl s
  rw [i2cReadOperation]
  generalize (if snd then s.write .con 0 else s).write .mrxAddr
    (slaveAddress <<< 1 ||| 1 ||| 0x1000000).toUInt32 = s' at hquiet ⊢
  change ReadStream _ _ _ _ (i2cReadChunks config a length.toNat 0 i2cTimeoutUs
    (readRemain length) ⟨efiSuccess, 0, buf, 0, s'⟩) ↔ _
  have hstream := fun hstarts => @i2cReadChunks_stream config 0 (readRemain length)
    i2cTimeoutUs length.toNat a ⟨efiSuccess, 0, buf, 0, s'⟩ hconfig
    (fun _ => (OperationAnswer.inTime_iff hshows).2 hstarts) hcarries
  simp only [Nat.mul_zero, Nat.zero_add, true_and] at hstream
  constructor
  · intro h
    have hn : readRemain length ≠ 0 := fun h0 => by
      have hcount := h.starts
      rw [h0, i2cReadChunks, if_pos rfl, hquiet.starts] at hcount
      omega
    have hstarts : a.Starts := by
      by_contra hno
      exact i2cReadChunks_unstarted hn hno h.status
    have hpasses : a.passes 0 (chunks (readRemain length)) < i2cTimeoutUs := by
      by_contra hno
      exact i2cReadChunks_late hcarries hn (Nat.not_lt.1 hno) h.status
    have hreceptions := (hstream hstarts hpasses).2.2.2.symm.trans h.receptions
    rw [hquiet.receptions] at hreceptions
    have hlen : chunks (readRemain length) = chunks length.toNat := by
      simpa [readChunks] using congrArg List.length (List.append_cancel_left hreceptions)
    rw [readRemain_eq] at hn hlen
    unfold chunks at hlen
    exact ⟨hstarts, hpasses, by omega, by omega⟩
  · rintro ⟨hstarts, hpasses, hpos, hlen⟩
    have hremain : readRemain length = length.toNat := by
      rw [readRemain_eq]
      omega
    obtain ⟨hstatus, hbuffer, hcount, hreceptions⟩ := hstream hstarts hpasses
    refine ⟨hstatus, ?_, ?_, ?_⟩
    · rw [hbuffer, hremain]
    · rw [hcount, hquiet.starts, hremain, if_pos (Nat.pos_iff_ne_zero.1 hpos)]
    · rw [hreceptions, hquiet.receptions, hremain]

end Operation

/-- When each of them does: a wait if its event does not show first in the last pass, and a start
shows at all; an operation if it neither ends nor starts in the last pass of its waits, its length
with the address fits in 32 bits, the address in seven, and a read is not empty. -/
theorem i2cRight_iff (config : UInt32) (hconfig : config ∈ i2cConfigs) :
    (∀ con timeout start s, StartWaitRight config con timeout start s ↔
      ∃ r, start = some r ∧ r + 1 < timeout) ∧
    (∀ stop s, StopWaitRight config stop s ↔ stop ≠ some (i2cReadyTimeout - 1)) ∧
    (∀ finished answer timeOut s, ChunkWaitRight finished answer timeOut s ↔
      ¬ answer.EndsLast timeOut) ∧
    (∀ slaveAddress buf (length : UInt64) (answer : OperationAnswer) s,
      answer.Completes (chunks (writeRemain length)) →
        (WriteStream slaveAddress buf length.toNat s
          (i2cWriteOperation config slaveAddress buf length answer s) ↔
        answer.Starts ∧ answer.passes 0 (chunks (writeRemain length)) < i2cTimeoutUs ∧
          length.toNat + 1 < 2 ^ 32 ∧ AddressFits slaveAddress buf length.toNat)) ∧
    ∀ slaveAddress buf (length : UInt64) snd (answer : OperationAnswer) s,
      answer.Completes (chunks (readRemain length)) →
        (ReadStream answer buf length.toNat s
          (i2cReadOperation config slaveAddress buf length snd answer s) ↔
        answer.Starts ∧ answer.passes 0 (chunks (readRemain length)) < i2cTimeoutUs ∧
          0 < length.toNat ∧ length.toNat < 2 ^ 32) :=
  ⟨fun _ _ _ _ => startWaitRight_iff, fun _ _ => stopWaitRight_iff,
    fun _ _ _ _ => chunkWaitRight_iff, fun _ _ _ _ _ hc => writeStream_iff hconfig hc,
    fun _ _ _ snd _ _ hc => readStream_iff hconfig snd hc⟩

/-- A write of two bytes to a controller that answers at once. -/
theorem i2cRight_prompt :
    WriteStream 0x51 (fun _ => 7) 2 (.entry 0 efiSuccess)
      (i2cWriteOperation 0x1100 0x51 (fun _ => 7) 2 ⟨some 0, fun _ => ⟨none, some 0, fun _ => 0⟩⟩
        (.entry 0 efiSuccess)) := by
  refine ((i2cRight_iff 0x1100 (by decide)).2.2.2.1 0x51 (fun _ => 7) 2
    ⟨some 0, fun _ => ⟨none, some 0, fun _ => 0⟩⟩ _ ⟨⟨0, by decide, rfl⟩, ?_, by decide⟩).2
    ⟨nofun, by decide, by decide, ?_⟩
  · exact fun j _ => ⟨rfl, nofun⟩
  · intro i hi
    have hlt : i < 2 := by
      rw [show UInt64.toNat 2 = 2 from rfl] at hi
      omega
    obtain rfl | rfl : i = 0 ∨ i = 1 := by omega
    · decide
    · decide

/-- A start that never shows is a success. -/
theorem not_i2cRight : ¬ ∀ config ∈ i2cConfigs, I2cRight config := by
  intro h
  obtain ⟨r, hr, -⟩ := startWaitRight_iff.1 <|
    (h 0 (by decide)).start (i2cConEn ||| i2cConMod i2cModeTx) i2cTimeoutUs none (.entry 0 efiSuccess)
  cases hr

end Edk2Rk3576
