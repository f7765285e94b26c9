import Edk2Rk3576.DwMmc.Registers
import Edk2Rk3576.Lib.ByteWords
import Edk2Rk3576.Lib.Rounds
import Mathlib.Data.List.GetD

/-!
# Data through the FIFO

`TransferFifo` moves the data of an SD command word by word. A round of its loop reads the interrupt
status once and moves what the controller offers, which for a read is capped by the whole length and
not by what is left of it.
-/

namespace Edk2Rk3576.DwMmc

/-- What the function reads of a `DW_MMC_HC_TRB`. -/
structure FifoTrb where
  read : Bool
  useBe : Bool
  dataLen : UInt32

/-- What the controller shows: `RINTSTS` and `STATUS` at each read of a round, and the words that it
has received. -/
structure FifoSchedule where
  intsts : ℕ → ℕ → BitVec 32
  status : ℕ → ℕ → BitVec 32
  fifo : ℕ → BitVec 32

/-- The locals, the memory from `Data` on with the offsets at which words have been accessed, how
many words have been taken from the FIFO, and those put into it. -/
structure FifoState where
  received : ℕ
  ascending : ℕ
  descending : ℕ
  timeout : ℕ
  data : Cells (BitVec 8)
  accesses : List ℕ
  taken : ℕ
  pushed : List (BitVec 32)

variable (trb : FifoTrb) (sched : FifoSchedule) (k pushes : ℕ)

/-- `(DataLen + 3) & ~3`. -/
def roundUp (n : ℕ) : ℕ := (n + 3) / 4 * 4

def FifoTrb.offset (s : FifoState) : ℕ := if trb.useBe then s.descending else s.ascending

/-- What a pass of either word loop does to the counters. -/
def FifoTrb.advance (s : FifoState) : FifoState :=
  { s with
    received := toUint32 (s.received + 4)
    ascending := if trb.useBe then s.ascending else toUint32 (s.ascending + 4)
    descending := if trb.useBe then toUint32 (s.descending + (2 ^ 32 - 4)) else s.descending
    accesses := s.accesses ++ [trb.offset s] }

def pushWord (s : FifoState) : FifoState :=
  let data := s.data.loadWord (trb.offset s)
  { trb.advance s with pushed := s.pushed ++ [if trb.useBe then swapBytes32 data else data] }

def pullWord (s : FifoState) : FifoState :=
  let data := sched.fifo s.taken
  { trb.advance s with
    taken := s.taken + 1
    data := s.data.storeWord (trb.offset s) (if trb.useBe then swapBytes32 data else data) }

/-- The word loop of a write from its pass `j` on, with the interrupt status that ends it. -/
def pushLoop : (pushes j : ℕ) → FifoState → Option (BitVec 32) × FifoState
  | pushes, j, s =>
    if dwMmcStsFifoFull (sched.status k j) = 0 ∧ s.received < trb.dataLen.toNat ∧
        sched.intsts k j &&& dwMmcIntTxdr ≠ 0 then
      match pushes with
      | 0 => (none, s)
      | pushes + 1 => pushLoop pushes (j + 1) (pushWord trb s)
    else (some (sched.intsts k j), s)

/-- The word loop of a read. -/
def pullLoop : (words : ℕ) → FifoState → FifoState
  | 0, s => s
  | words + 1, s => pullLoop words (pullWord trb sched s)

/-- From the label `Verify` on: the status if the loop is over. -/
def verifyFifo (intsts : BitVec 32) (s : FifoState) : Option (Option EfiStatus) × FifoState :=
  if intsts &&& dwMmcIntDataErr ≠ 0 then (some (some efiDeviceError), s)
  else
    let s := { s with timeout := s.timeout - 1 }
    if s.timeout = 0 then (some (some efiTimeout), s)
    else if s.received < trb.dataLen.toNat then (none, s)
    else (some (some efiSuccess), s)

/-- Round `k`. The word loop of a write can be cut off; then there is no status. -/
def fifoRound (s : FifoState) : Option (Option EfiStatus) × FifoState :=
  let intsts := sched.intsts k 0
  if trb.read = false ∧ intsts &&& dwMmcIntTxdr ≠ 0 then
    match pushLoop trb sched k pushes 0 s with
    | (none, s) => (some none, s)
    | (some intsts, s) => verifyFifo trb intsts { s with timeout := dwMmcHcGenericTimeout }
  else if trb.read ∧ (intsts &&& dwMmcIntRxdr ≠ 0 ∨ intsts &&& dwMmcIntDto ≠ 0) then
    let fifoCount := getStsFifoCount (sched.status k 0) * 4
    if fifoCount = 0 ∧ s.received < trb.dataLen.toNat then verifyFifo trb intsts s
    else
      let count := roundUp (min fifoCount trb.dataLen.toNat)
      verifyFifo trb intsts
        { pullLoop trb sched (count / 4) s with timeout := dwMmcHcGenericTimeout }
  else verifyFifo trb intsts s

def initFifo (data : Cells (BitVec 8)) : FifoState where
  received := 0
  ascending := 0
  descending := toUint32 (roundUp trb.dataLen.toNat + (2 ^ 32 - 4))
  timeout := dwMmcHcGenericTimeout
  data := data
  accesses := []
  taken := 0
  pushed := []

/-- `TransferFifo`, with at most `fuel` rounds and `pushes` words in one: its status if it has
returned. -/
def transferFifo (data : Cells (BitVec 8)) (fuel : ℕ) : Option EfiStatus × FifoState :=
  let r := rounds (fifoRound trb sched · pushes) fuel 0 (initFifo trb data)
  (r.1.join, r.2)

/-! What it is for. -/

/-- Where a byte of the stream belongs in the buffer. -/
def FifoTrb.place (i : ℕ) : ℕ := if trb.useBe then trb.dataLen.toNat - 1 - i else i

/-- Byte `i` of a stream of words. -/
def streamByte (words : ℕ → BitVec 32) (i : ℕ) : BitVec 8 := wordByte (words (i / 4)) (i % 4)

/-- The first `n` bytes have been moved, and no others. -/
def FifoTrb.Moved (data : Cells (BitVec 8)) (n : ℕ) (s : FifoState) : Prop :=
  if trb.read then
    s.taken = (n + 3) / 4 ∧ (∀ i < n, s.data (trb.place i) = streamByte sched.fifo i) ∧
      ∀ i, trb.dataLen.toNat ≤ i → s.data i = data i
  else
    s.data = data ∧ s.pushed.length = (n + 3) / 4 ∧
      ∀ i < n, streamByte (s.pushed.getD · 0) i = data (trb.place i)

/-- The words that have been accessed lie in the buffer. -/
def FifoTrb.Inside (s : FifoState) : Prop := ∀ o ∈ s.accesses, o + 4 ≤ trb.dataLen.toNat

def FifoSound (data : Cells (BitVec 8)) : Prop :=
  (∃ pushes fuel status, (transferFifo trb sched pushes data fuel).1 = some status) ∧
  ∀ pushes fuel, trb.Inside (transferFifo trb sched pushes data fuel).2 ∧
    ((transferFifo trb sched pushes data fuel).1 = some efiSuccess →
      trb.Moved sched data trb.dataLen.toNat (transferFifo trb sched pushes data fuel).2)

/-! What the controller's schedule asks for. -/

/-- The controller is ready for word `j` of a round. -/
def FifoSchedule.ready (j : ℕ) : Bool :=
  sched.intsts k j &&& dwMmcIntTxdr ≠ 0 ∧ dwMmcStsFifoFull (sched.status k j) = 0

/-- How many words from `j` on a round takes, of `words` that there are. -/
def FifoSchedule.room : (words j : ℕ) → ℕ
  | 0, _ => 0
  | words + 1, j => if sched.ready k j then FifoSchedule.room words (j + 1) + 1 else 0

/-- A round in which the controller asks for words, or has some. -/
def FifoSchedule.busy : Bool :=
  if trb.read then
    (sched.intsts k 0 &&& dwMmcIntRxdr ≠ 0 ∨ sched.intsts k 0 &&& dwMmcIntDto ≠ 0) ∧
      getStsFifoCount (sched.status k 0) ≠ 0
  else sched.intsts k 0 &&& dwMmcIntTxdr ≠ 0

/-- The words of a round that starts with `moved` bytes moved: what the controller has room for, of
what is left, or what it has received, of the whole length. -/
def FifoSchedule.words (moved : ℕ) : ℕ :=
  if trb.read then
    if sched.busy trb k then
      min (getStsFifoCount (sched.status k 0)) ((trb.dataLen.toNat + 3) / 4)
    else 0
  else sched.room k ((trb.dataLen.toNat - moved + 3) / 4) 0

/-- The bytes moved before a round. -/
def FifoSchedule.moved : ℕ → ℕ
  | 0 => 0
  | k + 1 => FifoSchedule.moved k + 4 * sched.words trb k (FifoSchedule.moved k)

/-- What is left of the budget before a round. -/
def FifoSchedule.patience : ℕ → ℕ
  | 0 => dwMmcHcGenericTimeout
  | k + 1 =>
    (if sched.busy trb k then dwMmcHcGenericTimeout else FifoSchedule.patience k) - 1

/-- The last interrupt status of a round. -/
def FifoSchedule.lastIntsts : BitVec 32 :=
  sched.intsts k (if trb.read then 0 else sched.words trb k (sched.moved trb k))

/-- The round neither shows an error nor uses up the budget nor moves the last of the data. -/
def FifoSchedule.GoesOn : Prop :=
  sched.lastIntsts trb k &&& dwMmcIntDataErr = 0 ∧ sched.patience trb (k + 1) ≠ 0 ∧
    sched.moved trb (k + 1) < trb.dataLen.toNat

def FifoSchedule.Reaches : Prop := ∀ j < k, sched.GoesOn trb j

/-- A round moves no more than what is left, and nothing of a length that is not whole words if the
order is reversed. -/
def FifoSchedule.Fits : Prop :=
  sched.moved trb (k + 1) ≤ trb.dataLen.toNat ∧
    (trb.useBe → ¬ 4 ∣ trb.dataLen.toNat → sched.moved trb (k + 1) = 0)

/-- The schedule comes to an end, and no round on the way offers more than what is left. -/
def FifoSchedule.Orderly : Prop :=
  (∃ k, ¬ sched.Reaches trb k) ∧ ∀ k, sched.Reaches trb k → sched.Fits trb k

/-! One word. -/

/-- The offset of the next word when `m` bytes have been moved. -/
def FifoTrb.nextOffset (m : ℕ) : ℕ :=
  if trb.useBe then toUint32 (roundUp trb.dataLen.toNat + (2 ^ 32 - 4) - m) else m

/-- The state with `m` bytes moved, all of them inside the buffer. -/
structure FifoState.At (data : Cells (BitVec 8)) (m : ℕ) (s : FifoState) : Prop where
  received : s.received = m
  le : m ≤ trb.dataLen.toNat
  dvd : 4 ∣ m
  whole : trb.useBe → 0 < m → 4 ∣ trb.dataLen.toNat
  offset : trb.offset s = trb.nextOffset m
  inside : trb.Inside s
  moved : trb.Moved sched data m s

variable {trb sched k pushes} {data : Cells (BitVec 8)} {s : FifoState} {m n j : ℕ}

theorem streamByte_congr {words words' : ℕ → BitVec 32} (h : ∀ j < n, words j = words' j)
    (hn : m < 4 * n) : streamByte words m = streamByte words' m := by
  rw [streamByte, streamByte, h _ (by omega)]

theorem place_inj {i : ℕ} (hi : i < trb.dataLen.toNat) (hj : j < trb.dataLen.toNat)
    (h : trb.place i = trb.place j) : i = j := by
  rw [FifoTrb.place, FifoTrb.place] at h
  split at h <;> omega

/-- The place in a word of byte `r` of the stream's word. -/
def FifoTrb.lane (trb : FifoTrb) (r : ℕ) : ℕ := if trb.useBe then 3 - r else r

theorem lane_lt {r : ℕ} (hr : r < 4) : trb.lane r < 4 := by
  rw [FifoTrb.lane]
  split <;> omega

theorem lane_lane {r : ℕ} (hr : r < 4) : trb.lane (trb.lane r) = r := by
  rw [FifoTrb.lane, FifoTrb.lane]
  split <;> omega

/-- The bytes of a word, swapped if they are to be. -/
theorem wordByte_lane {w : BitVec 32} {r : ℕ} (hr : r < 4) :
    wordByte (if trb.useBe then swapBytes32 w else w) r = wordByte w (trb.lane r) := by
  rw [FifoTrb.lane]
  split
  · exact wordByte_swapBytes32 hr
  · rfl

/-- The next word lies in the buffer when there are four bytes left. -/
theorem nextOffset_inside (hm : m + 4 ≤ trb.dataLen.toNat)
    (hwhole : trb.useBe → 4 ∣ trb.dataLen.toNat) :
    trb.nextOffset m + 4 ≤ trb.dataLen.toNat ∧
      ∀ r < 4, trb.place (m + r) = trb.nextOffset m + trb.lane r := by
  have hlen := trb.dataLen.toNat_lt
  rw [FifoTrb.nextOffset]
  split
  · next hbe =>
    have hoff : toUint32 (roundUp trb.dataLen.toNat + (2 ^ 32 - 4) - m) =
        trb.dataLen.toNat - 4 - m := by
      rw [roundUp, toUint32]
      have := hwhole hbe
      omega
    rw [hoff]
    refine ⟨by omega, fun r hr => ?_⟩
    rw [FifoTrb.place, FifoTrb.lane, if_pos hbe, if_pos hbe]
    omega
  · next hbe =>
    refine ⟨hm, fun r hr => ?_⟩
    rw [FifoTrb.place, FifoTrb.lane, if_neg hbe, if_neg hbe]

/-- With fewer left it does not, nor does the first one of a reversed length that is not whole
words. -/
theorem nextOffset_outside (h : s.At trb sched data m)
    (hout : trb.dataLen.toNat < m + 4 ∨ trb.useBe ∧ ¬ 4 ∣ trb.dataLen.toNat) :
    trb.dataLen.toNat < trb.nextOffset m + 4 := by
  have hlen := trb.dataLen.toNat_lt
  have hle := h.le
  have hdvd := h.dvd
  rw [FifoTrb.nextOffset]
  split
  · next hbe =>
    rw [roundUp, toUint32]
    rcases Nat.eq_zero_or_pos m with rfl | hpos
    · omega
    · have := h.whole hbe hpos
      omega
  · next hbe =>
    rcases hout with hlt | ⟨hbe', -⟩
    · exact hlt
    · exact absurd hbe' hbe

theorem advance_offset (h : s.At trb sched data m) (hm : m + 4 ≤ trb.dataLen.toNat) :
    trb.offset (trb.advance s) = trb.nextOffset (m + 4) := by
  have hlen := trb.dataLen.toNat_lt
  have hoff := h.offset
  rw [FifoTrb.offset, FifoTrb.nextOffset] at hoff
  rw [FifoTrb.offset, FifoTrb.nextOffset, FifoTrb.advance]
  split
  · next hbe =>
    rw [if_pos hbe, if_pos hbe] at hoff
    simp only [hoff, toUint32, roundUp]
    omega
  · next hbe =>
    rw [if_neg hbe, if_neg hbe] at hoff
    rw [hoff]
    exact toUint32_of_lt (by omega)

theorem inside_concat {accesses : List ℕ} {o : ℕ}
    (h : ∀ o ∈ accesses, o + 4 ≤ trb.dataLen.toNat) (ho : o + 4 ≤ trb.dataLen.toNat) :
    ∀ o' ∈ accesses ++ [o], o' + 4 ≤ trb.dataLen.toNat := by
  intro o' ho'
  rw [List.mem_append, List.mem_singleton] at ho'
  rcases ho' with ho' | rfl
  · exact h o' ho'
  · exact ho

theorem pushWord_at (hread : trb.read = false) (h : s.At trb sched data m)
    (hm : m + 4 ≤ trb.dataLen.toNat) (hwhole : trb.useBe → 4 ∣ trb.dataLen.toNat) :
    (pushWord trb s).At trb sched data (m + 4) := by
  have hlen := trb.dataLen.toNat_lt
  obtain ⟨hin, hplace⟩ := nextOffset_inside hm hwhole
  rw [← h.offset] at hin hplace
  have hdvd := h.dvd
  refine ⟨?_, hm, Nat.dvd_add hdvd (Nat.dvd_refl 4), fun hbe _ => hwhole hbe, ?_,
    inside_concat h.inside hin, ?_⟩
  · exact (congrArg (toUint32 <| · + 4) h.received).trans (toUint32_of_lt (by omega))
  · exact advance_offset h hm
  · have hmoved := h.moved
    rw [FifoTrb.Moved, if_neg (by simp [hread])] at hmoved ⊢
    obtain ⟨hdata, hlength, hbytes⟩ := hmoved
    refine ⟨hdata, ?_, fun i hi => ?_⟩
    · rw [pushWord, List.length_append, hlength, List.length_singleton]
      omega
    · rcases Nat.lt_or_ge i m with hlt | hge
      · rw [← hbytes i hlt]
        refine streamByte_congr (n := s.pushed.length) (fun j hj => ?_) (by omega)
        rw [pushWord, List.getD_append _ _ _ _ hj]
      · obtain ⟨r, rfl⟩ := Nat.exists_eq_add_of_le hge
        have hr : r < 4 := by omega
        rw [hplace r hr, streamByte, show (m + r) % 4 = r by omega, pushWord,
          List.getD_append_right _ _ _ _ (by omega),
          show (m + r) / 4 - s.pushed.length = 0 by omega, ← hdata]
        exact (wordByte_lane hr).trans (Cells.wordByte_loadWord (lane_lt hr))

theorem pullWord_at (hread : trb.read = true) (h : s.At trb sched data m)
    (hm : m + 4 ≤ trb.dataLen.toNat) (hwhole : trb.useBe → 4 ∣ trb.dataLen.toNat) :
    (pullWord trb sched s).At trb sched data (m + 4) := by
  have hlen := trb.dataLen.toNat_lt
  obtain ⟨hin, hplace⟩ := nextOffset_inside hm hwhole
  rw [← h.offset] at hin hplace
  have hdvd := h.dvd
  refine ⟨?_, hm, Nat.dvd_add hdvd (Nat.dvd_refl 4), fun hbe _ => hwhole hbe, ?_,
    inside_concat h.inside hin, ?_⟩
  · exact (congrArg (toUint32 <| · + 4) h.received).trans (toUint32_of_lt (by omega))
  · exact advance_offset h hm
  · have hmoved := h.moved
    rw [FifoTrb.Moved, if_pos hread] at hmoved ⊢
    obtain ⟨htaken, hbytes, hbehind⟩ := hmoved
    refine ⟨?_, fun i hi => ?_, fun i hi => ?_⟩
    · change s.taken + 1 = _
      omega
    · rcases Nat.lt_or_ge i m with hlt | hge
      · rw [← hbytes i hlt]
        refine Cells.storeWord_of_notMem fun hmem => ?_
        -- a byte of this word would be two bytes of the stream
        have hlane := @lane_lt trb _ (show trb.place i - trb.offset s < 4 by omega)
        have heq := hplace _ hlane
        rw [lane_lane (by omega), show trb.offset s + (trb.place i - trb.offset s) = trb.place i by
          omega] at heq
        have := place_inj (by omega) (by omega) heq
        omega
      · obtain ⟨r, rfl⟩ := Nat.exists_eq_add_of_le hge
        have hr : r < 4 := by omega
        rw [hplace r hr, streamByte, show (m + r) % 4 = r by omega,
          show (m + r) / 4 = s.taken by omega, pullWord]
        refine (Cells.storeWord_add (lane_lt hr)).trans ?_
        rw [wordByte_lane (lane_lt hr), lane_lane hr]
    · rw [← hbehind i hi]
      exact Cells.storeWord_of_notMem (by omega)

/-! The word loops. -/

theorem FifoState.At.withTimeout (h : s.At trb sched data m) (t : ℕ) :
    FifoState.At trb sched data m { s with timeout := t } := by
  refine ⟨h.received, h.le, h.dvd, h.whole, h.offset, h.inside, ?_⟩
  have hmoved := h.moved
  rw [FifoTrb.Moved] at hmoved ⊢
  exact hmoved

theorem pushLoop_cond : (dwMmcStsFifoFull (sched.status k j) = 0 ∧
    s.received < trb.dataLen.toNat ∧ sched.intsts k j &&& dwMmcIntTxdr ≠ 0) ↔
      sched.ready k j = true ∧ s.received < trb.dataLen.toNat := by
  rw [FifoSchedule.ready, decide_eq_true_eq]
  tauto

theorem pushLoop_stop (h : ¬ (sched.ready k j = true ∧ s.received < trb.dataLen.toNat)) :
    pushLoop trb sched k pushes j s = (some (sched.intsts k j), s) := by
  cases pushes <;> rw [pushLoop, if_neg (mt pushLoop_cond.mp h)]

theorem pushLoop_zero (h : sched.ready k j = true ∧ s.received < trb.dataLen.toNat) :
    pushLoop trb sched k 0 j s = (none, s) := by
  rw [pushLoop, if_pos (pushLoop_cond.mpr h)]

theorem pushLoop_succ (h : sched.ready k j = true ∧ s.received < trb.dataLen.toNat) :
    pushLoop trb sched k (pushes + 1) j s =
      pushLoop trb sched k pushes (j + 1) (pushWord trb s) := by
  rw [pushLoop, if_pos (pushLoop_cond.mpr h)]

theorem room_le {words : ℕ} : sched.room k words j ≤ words := by
  induction words generalizing j with
  | zero => exact Nat.le_refl 0
  | succ words ih =>
    rw [FifoSchedule.room]
    split
    · exact Nat.succ_le_succ ih
    · exact Nat.zero_le _

/-- The room for what is left after `m` bytes of `len`. -/
theorem room_of_stop {len : ℕ} (h : ¬ (sched.ready k j = true ∧ m < len)) :
    sched.room k ((len - m + 3) / 4) j = 0 := by
  rcases Nat.lt_or_ge m len with hlt | hge
  · rw [show (len - m + 3) / 4 = (len - (m + 4) + 3) / 4 + 1 by omega, FifoSchedule.room,
      if_neg fun hready => h ⟨hready, hlt⟩]
  · rw [show (len - m + 3) / 4 = 0 by omega, FifoSchedule.room]

theorem room_of_push {len : ℕ} (h : sched.ready k j = true ∧ m < len) :
    sched.room k ((len - m + 3) / 4) j = sched.room k ((len - (m + 4) + 3) / 4) (j + 1) + 1 := by
  have hlt := h.2
  rw [show (len - m + 3) / 4 = (len - (m + 4) + 3) / 4 + 1 by omega, FifoSchedule.room, if_pos h.1]

/-- Where everything fits, the loop ends with what there is room for, unless it is cut off. -/
theorem pushLoop_at (hread : trb.read = false) (h : s.At trb sched data m)
    (hn : sched.room k ((trb.dataLen.toNat - m + 3) / 4) j = n)
    (hfits : m + 4 * n ≤ trb.dataLen.toNat)
    (hwhole : trb.useBe → 0 < n → 4 ∣ trb.dataLen.toNat) :
    (pushLoop trb sched k pushes j s).1 = none ∧ pushes < n ∧
        trb.Inside (pushLoop trb sched k pushes j s).2 ∨
      (pushLoop trb sched k pushes j s).1 = some (sched.intsts k (j + n)) ∧
        (pushLoop trb sched k pushes j s).2.At trb sched data (m + 4 * n) := by
  induction pushes generalizing j m s n with
  | zero =>
    by_cases hc : sched.ready k j = true ∧ s.received < trb.dataLen.toNat
    · rw [pushLoop_zero hc]
      rw [h.received] at hc
      rw [room_of_push hc] at hn
      exact .inl ⟨rfl, by omega, h.inside⟩
    · rw [pushLoop_stop hc]
      rw [h.received] at hc
      rw [room_of_stop hc] at hn
      subst hn
      exact .inr ⟨rfl, h⟩
  | succ pushes ih =>
    by_cases hc : sched.ready k j = true ∧ s.received < trb.dataLen.toNat
    · rw [pushLoop_succ hc]
      rw [h.received] at hc
      rw [room_of_push hc] at hn
      have hat := pushWord_at hread h (by omega) fun hbe => hwhole hbe (by omega)
      rcases ih (j := j + 1) (n := n - 1) hat (by omega) (by omega)
        (fun hbe _ => hwhole hbe (by omega)) with ⟨hnone, hlt, hin⟩ | ⟨hsome, hend⟩
      · exact .inl ⟨hnone, by omega, hin⟩
      · rw [show j + 1 + (n - 1) = j + n by omega] at hsome
        rw [show m + 4 + 4 * (n - 1) = m + 4 * n by omega] at hend
        exact .inr ⟨hsome, hend⟩
    · rw [pushLoop_stop hc]
      rw [h.received] at hc
      rw [room_of_stop hc] at hn
      subst hn
      exact .inr ⟨rfl, h⟩

theorem not_inside_pushWord (h : ¬ trb.Inside s) : ¬ trb.Inside (pushWord trb s) :=
  fun hin => h fun o ho => hin o (List.mem_append_left _ ho)

theorem not_inside_pullWord (h : ¬ trb.Inside s) : ¬ trb.Inside (pullWord trb sched s) :=
  fun hin => h fun o ho => hin o (List.mem_append_left _ ho)

theorem not_inside_pushLoop (h : ¬ trb.Inside s) :
    ¬ trb.Inside (pushLoop trb sched k pushes j s).2 := by
  induction pushes generalizing j s with
  | zero =>
    by_cases hc : sched.ready k j = true ∧ s.received < trb.dataLen.toNat
    · rw [pushLoop_zero hc]
      exact h
    · rw [pushLoop_stop hc]
      exact h
  | succ pushes ih =>
    by_cases hc : sched.ready k j = true ∧ s.received < trb.dataLen.toNat
    · rw [pushLoop_succ hc]
      exact ih (not_inside_pushWord h)
    · rw [pushLoop_stop hc]
      exact h

theorem not_inside_pullLoop (h : ¬ trb.Inside s) : ¬ trb.Inside (pullLoop trb sched n s) := by
  induction n generalizing s with
  | zero => exact h
  | succ n ih => exact ih (not_inside_pullWord h)

/-- So many words do not fit behind `m` bytes. -/
def FifoTrb.Overflows (trb : FifoTrb) (m n : ℕ) : Prop :=
  trb.dataLen.toNat < m + 4 * n ∨ trb.useBe ∧ ¬ 4 ∣ trb.dataLen.toNat ∧ 0 < n

/-- If they do not, the next word fails to or the rest does. -/
theorem overflows_succ (h : s.At trb sched data m) (hout : trb.Overflows m (n + 1)) :
    trb.dataLen.toNat < trb.nextOffset m + 4 ∨
      m + 4 ≤ trb.dataLen.toNat ∧ (trb.useBe → 4 ∣ trb.dataLen.toNat) ∧
        trb.Overflows (m + 4) n := by
  by_cases hwhole : trb.useBe ∧ ¬ 4 ∣ trb.dataLen.toNat
  · exact .inl (nextOffset_outside h (.inr hwhole))
  · rcases Nat.lt_or_ge trb.dataLen.toNat (m + 4) with hlt | hge
    · exact .inl (nextOffset_outside h (.inl hlt))
    · refine .inr ⟨hge, fun hbe => not_not.mp fun hdvd => hwhole ⟨hbe, hdvd⟩, .inl ?_⟩
      rcases hout with hlt | ⟨hbe, hdvd, -⟩
      · omega
      · exact absurd ⟨hbe, hdvd⟩ hwhole

theorem not_overflows_zero (h : s.At trb sched data m) : ¬ trb.Overflows m 0 := by
  have hle := h.le
  rintro (hlt | ⟨-, -, hpos⟩) <;> omega

theorem pushLoop_out (hread : trb.read = false) (h : s.At trb sched data m)
    (hn : sched.room k ((trb.dataLen.toNat - m + 3) / 4) j = n) (hout : trb.Overflows m n)
    (hpushes : n ≤ pushes) : ¬ trb.Inside (pushLoop trb sched k pushes j s).2 := by
  induction pushes generalizing j m s n with
  | zero =>
    obtain rfl : n = 0 := by omega
    exact absurd hout (not_overflows_zero h)
  | succ pushes ih =>
    rcases n with _ | n
    · exact absurd hout (not_overflows_zero h)
    by_cases hc : sched.ready k j = true ∧ s.received < trb.dataLen.toNat
    · rw [pushLoop_succ hc]
      rw [h.received] at hc
      rw [room_of_push hc] at hn
      rcases overflows_succ h hout with hlt | ⟨hm, hwhole, hrest⟩
      · refine not_inside_pushLoop fun hin => ?_
        have := hin (trb.offset s) (List.mem_append_right _ (List.mem_singleton_self _))
        rw [h.offset] at this
        omega
      · exact ih (pushWord_at hread h hm hwhole) (by omega) hrest (by omega)
    · rw [h.received] at hc
      rw [room_of_stop hc] at hn
      cases hn

theorem pullLoop_at (hread : trb.read = true) (h : s.At trb sched data m)
    (hfits : m + 4 * n ≤ trb.dataLen.toNat)
    (hwhole : trb.useBe → 0 < n → 4 ∣ trb.dataLen.toNat) :
    (pullLoop trb sched n s).At trb sched data (m + 4 * n) := by
  induction n generalizing m s with
  | zero => exact h
  | succ n ih =>
    have hat := pullWord_at hread h (by omega) fun hbe => hwhole hbe (by omega)
    have := ih hat (by omega) fun hbe _ => hwhole hbe (by omega)
    rwa [show m + 4 + 4 * n = m + 4 * (n + 1) by omega] at this

theorem pullLoop_out (hread : trb.read = true) (h : s.At trb sched data m)
    (hout : trb.Overflows m n) : ¬ trb.Inside (pullLoop trb sched n s) := by
  induction n generalizing m s with
  | zero => exact absurd hout (not_overflows_zero h)
  | succ n ih =>
    change ¬ trb.Inside (pullLoop trb sched n (pullWord trb sched s))
    rcases overflows_succ h hout with hlt | ⟨hm, hwhole, hrest⟩
    · refine not_inside_pullLoop fun hin => ?_
      have := hin (trb.offset s) (List.mem_append_right _ (List.mem_singleton_self _))
      rw [h.offset] at this
      omega
    · exact ih (pullWord_at hread h hm hwhole) hrest

/-! One round. -/

theorem overflows_iff (h : s.At trb sched data (sched.moved trb k)) :
    trb.Overflows (sched.moved trb k) (sched.words trb k (sched.moved trb k)) ↔
      ¬ sched.Fits trb k := by
  have hwhole := h.whole
  rw [FifoTrb.Overflows, FifoSchedule.Fits, FifoSchedule.moved]
  constructor
  · rintro (hlt | ⟨hbe, hdvd, hpos⟩) ⟨hle, hzero⟩
    · omega
    · have := hzero hbe hdvd
      omega
  · intro hfits
    by_contra hout
    rw [not_or, not_lt] at hout
    refine hfits ⟨hout.1, fun hbe hdvd => ?_⟩
    have hm : ¬ 0 < sched.moved trb k := fun hpos => hdvd (hwhole hbe hpos)
    have hw : ¬ 0 < sched.words trb k (sched.moved trb k) := fun hpos => hout.2 ⟨hbe, hdvd, hpos⟩
    omega

theorem words_of_read (hread : trb.read = true) (hbusy : sched.busy trb k = true) :
    sched.words trb k m =
      roundUp (min (getStsFifoCount (sched.status k 0) * 4) trb.dataLen.toNat) / 4 := by
  rw [FifoSchedule.words, if_pos hread, if_pos hbusy, roundUp]
  omega

theorem words_of_write (hread : trb.read = false) :
    sched.words trb k m = sched.room k ((trb.dataLen.toNat - m + 3) / 4) 0 := by
  rw [FifoSchedule.words, if_neg (by simp [hread])]

theorem words_of_idle (hbusy : sched.busy trb k = false) : sched.words trb k m = 0 := by
  rw [FifoSchedule.words]
  split
  · rw [if_neg (by simp [hbusy])]
  · next hread =>
    have hready : sched.ready k 0 = false := by
      simp only [FifoSchedule.busy, hread] at hbusy
      simp_all [FifoSchedule.ready]
    cases (trb.dataLen.toNat - m + 3) / 4 <;> simp [FifoSchedule.room, hready]

theorem fifoRound_idle (hbusy : sched.busy trb k = false)
    (hlt : s.received < trb.dataLen.toNat) :
    fifoRound trb sched k pushes s = verifyFifo trb (sched.intsts k 0) s := by
  rw [FifoSchedule.busy] at hbusy
  rw [fifoRound]
  dsimp only
  split_ifs with hwrite hread hcount
  · rw [if_neg (by simp [hwrite.1])] at hbusy
    exact absurd hwrite.2 (of_decide_eq_false hbusy)
  · rfl
  · rw [if_pos hread.1] at hbusy
    exact absurd ⟨hread.2, fun hzero => hcount ⟨by omega, hlt⟩⟩ (of_decide_eq_false hbusy)
  · rfl

theorem fifoRound_write (hread : trb.read = false) (hbusy : sched.busy trb k = true) :
    fifoRound trb sched k pushes s =
      match pushLoop trb sched k pushes 0 s with
      | (none, s) => (some none, s)
      | (some intsts, s) => verifyFifo trb intsts { s with timeout := dwMmcHcGenericTimeout } := by
  rw [FifoSchedule.busy, if_neg (by simp [hread])] at hbusy
  rw [fifoRound]
  dsimp only
  rw [if_pos ⟨hread, of_decide_eq_true hbusy⟩]

theorem fifoRound_read (hread : trb.read = true) (hbusy : sched.busy trb k = true) :
    fifoRound trb sched k pushes s = verifyFifo trb (sched.intsts k 0)
      { pullLoop trb sched (sched.words trb k m) s with timeout := dwMmcHcGenericTimeout } := by
  rw [words_of_read hread hbusy]
  rw [FifoSchedule.busy, if_pos hread] at hbusy
  obtain ⟨hint, hcount⟩ := of_decide_eq_true hbusy
  rw [fifoRound]
  dsimp only
  rw [if_neg (by simp [hread]), if_pos ⟨hread, hint⟩, if_neg (by omega)]

/-- A round where everything fits has moved what the schedule asks for when it is checked. -/
theorem fifoRound_at (h : s.At trb sched data (sched.moved trb k))
    (hlt : sched.moved trb k < trb.dataLen.toNat) (htime : s.timeout = sched.patience trb k)
    (hfits : sched.Fits trb k) :
    (fifoRound trb sched k pushes s).1 = some none ∧ pushes < (trb.dataLen.toNat + 3) / 4 ∧
        trb.Inside (fifoRound trb sched k pushes s).2 ∨
      ∃ s' : FifoState, s'.At trb sched data (sched.moved trb (k + 1)) ∧
        s'.timeout - 1 = sched.patience trb (k + 1) ∧
        fifoRound trb sched k pushes s = verifyFifo trb (sched.lastIntsts trb k) s' := by
  have hnot : ¬ trb.Overflows (sched.moved trb k) (sched.words trb k (sched.moved trb k)) :=
    fun hout => (overflows_iff h).mp hout hfits
  rw [FifoTrb.Overflows, not_or, not_lt] at hnot
  have hwhole : trb.useBe → 0 < sched.words trb k (sched.moved trb k) →
      4 ∣ trb.dataLen.toNat := fun hbe hpos =>
    not_not.mp fun hdvd => hnot.2 ⟨hbe, hdvd, hpos⟩
  rw [FifoSchedule.patience, FifoSchedule.moved, FifoSchedule.lastIntsts]
  rcases hbusy : sched.busy trb k with _ | _
  · refine .inr ⟨s, ?_, ?_, ?_⟩
    · rw [words_of_idle hbusy]
      exact h
    · rw [if_neg (by simp), htime]
    · rw [words_of_idle hbusy, ite_self, fifoRound_idle hbusy (h.received.trans_lt hlt)]
  rcases hread : trb.read with _ | _
  · have hwords := @words_of_write trb sched k (sched.moved trb k) hread
    rw [fifoRound_write hread hbusy]
    rcases @pushLoop_at _ _ _ pushes _ _ _ _ _ hread h hwords.symm hnot.1 hwhole with
      ⟨hnone, hcut, hin⟩ | ⟨hsome, hat⟩
    · rcases heq : pushLoop trb sched k pushes 0 s with ⟨_ | intsts, s'⟩ <;> rw [heq] at hnone hin
      · have hroom := @room_le sched k 0
          ((trb.dataLen.toNat - sched.moved trb k + 3) / 4)
        exact .inl ⟨rfl, by omega, hin⟩
      · cases hnone
    · rcases heq : pushLoop trb sched k pushes 0 s with ⟨_ | intsts, s'⟩ <;> rw [heq] at hsome hat
      · cases hsome
      · obtain rfl := Option.some.inj hsome
        refine .inr ⟨_, hat.withTimeout dwMmcHcGenericTimeout, rfl, ?_⟩
        rw [Nat.zero_add]
        rfl
  · have hat := pullLoop_at hread h hnot.1 hwhole
    rw [fifoRound_read hread hbusy (m := sched.moved trb k), if_pos rfl]
    exact .inr ⟨_, hat.withTimeout _, rfl, rfl⟩

/-- A round that is reached, with what has been moved until then. -/
structure FifoState.AtRound (trb : FifoTrb) (sched : FifoSchedule) (data : Cells (BitVec 8)) (k : ℕ)
    (s : FifoState) : Prop where
  reaches : sched.Reaches trb k
  lt : sched.moved trb k < trb.dataLen.toNat
  timeout : s.timeout = sched.patience trb k
  at_ : s.At trb sched data (sched.moved trb k)

/-- The loop is over: nothing outside has been accessed, and only a loop that is cut off is over in
a round that goes on. -/
structure FifoTrb.Over (trb : FifoTrb) (sched : FifoSchedule) (data : Cells (BitVec 8)) (pushes : ℕ)
    (status : Option EfiStatus) (s : FifoState) : Prop where
  inside : trb.Inside s
  success : status = some efiSuccess → trb.Moved sched data trb.dataLen.toNat s
  ended : ∀ st, status = some st → ∃ k, ¬ sched.GoesOn trb k
  cut : status = none → pushes < (trb.dataLen.toNat + 3) / 4

theorem verifyFifo_spec (hreaches : sched.Reaches trb k)
    (h : s.At trb sched data (sched.moved trb (k + 1)))
    (htime : s.timeout - 1 = sched.patience trb (k + 1)) :
    RoundKeeps (FifoState.AtRound trb sched data) (trb.Over sched data pushes) (k + 1)
      (verifyFifo trb (sched.lastIntsts trb k) s) := by
  rw [verifyFifo]
  dsimp only
  split_ifs with herr htimeout hlt
  · refine ⟨nofun, fun status heq => ?_⟩
    cases heq
    exact ⟨h.inside, nofun, fun _ _ => ⟨k, fun hgo => herr hgo.1⟩, nofun⟩
  · refine ⟨nofun, fun status heq => ?_⟩
    cases heq
    exact ⟨h.inside, nofun, fun _ _ => ⟨k, fun hgo => hgo.2.1 (htime ▸ htimeout)⟩, nofun⟩
  · rw [h.received] at hlt
    refine ⟨fun _ => ⟨fun j hj => ?_, hlt, htime, h.withTimeout _⟩, nofun⟩
    rcases Nat.lt_succ_iff_lt_or_eq.mp hj with hjk | rfl
    · exact hreaches j hjk
    · exact ⟨not_not.mp herr, htime ▸ htimeout, hlt⟩
  · rw [h.received] at hlt
    refine ⟨nofun, fun status heq => ?_⟩
    cases heq
    have hle := h.le
    have hmoved := (h.withTimeout (s.timeout - 1)).moved
    rw [show sched.moved trb (k + 1) = trb.dataLen.toNat by omega] at hmoved
    exact ⟨h.inside, fun _ => hmoved, fun _ _ => ⟨k, fun hgo => hlt hgo.2.2⟩, nofun⟩

theorem fifoRound_spec (h : s.AtRound trb sched data k) (hfits : sched.Fits trb k) :
    RoundKeeps (FifoState.AtRound trb sched data) (trb.Over sched data pushes) (k + 1)
      (fifoRound trb sched k pushes s) := by
  rcases fifoRound_at h.at_ h.lt h.timeout hfits with ⟨hnone, hcut, hin⟩ | ⟨s', hat, htime, heq⟩
  · refine ⟨fun hagain => ?_, fun status hstatus => ?_⟩
    · rw [hnone] at hagain
      cases hagain
    · rw [hnone] at hstatus
      cases hstatus
      exact ⟨hin, nofun, nofun, fun _ => hcut⟩
  · rw [heq]
    exact verifyFifo_spec h.reaches hat htime

theorem fifoRound_goesOn (h : s.AtRound trb sched data k) (hfits : sched.Fits trb k)
    (hgo : sched.GoesOn trb k) (hpushes : (trb.dataLen.toNat + 3) / 4 ≤ pushes) :
    (fifoRound trb sched k pushes s).1 = none := by
  rcases @fifoRound_at _ _ _ pushes _ _ h.at_ h.lt h.timeout hfits with
    ⟨-, hcut, -⟩ | ⟨s', hat, htime, heq⟩
  · omega
  · rw [heq, verifyFifo, if_neg (not_not.mpr hgo.1)]
    dsimp only
    rw [if_neg (htime ▸ hgo.2.1), if_pos (hat.received.trans_lt hgo.2.2)]

theorem not_inside_verifyFifo {intsts : BitVec 32} (h : ¬ trb.Inside s) :
    ¬ trb.Inside (verifyFifo trb intsts s).2 := by
  rw [verifyFifo]
  dsimp only
  split_ifs <;> exact h

/-- A round that offers more than what is left goes outside the buffer. -/
theorem fifoRound_out (h : s.At trb sched data (sched.moved trb k))
    (hfits : ¬ sched.Fits trb k) (hpushes : (trb.dataLen.toNat + 3) / 4 ≤ pushes) :
    ¬ trb.Inside (fifoRound trb sched k pushes s).2 := by
  have hout := (overflows_iff h).mpr hfits
  rcases hbusy : sched.busy trb k with _ | _
  · rw [words_of_idle hbusy] at hout
    exact absurd hout (not_overflows_zero h)
  rcases hread : trb.read with _ | _
  · have hwords := @words_of_write trb sched k (sched.moved trb k) hread
    have hroom := @room_le sched k 0 ((trb.dataLen.toNat - sched.moved trb k + 3) / 4)
    have hloop := @pushLoop_out _ _ _ pushes _ _ _ _ _ hread h hwords.symm hout (by omega)
    rw [fifoRound_write hread hbusy]
    rcases heq : pushLoop trb sched k pushes 0 s with ⟨_ | intsts, s'⟩ <;> rw [heq] at hloop
    · exact hloop
    · exact not_inside_verifyFifo hloop
  · rw [fifoRound_read hread hbusy (m := sched.moved trb k)]
    exact not_inside_verifyFifo (pullLoop_out hread h hout)

theorem initFifo_at (hlen : 0 < trb.dataLen.toNat) :
    (initFifo trb data).AtRound trb sched data 0 := by
  refine ⟨nofun, hlen, rfl, rfl, Nat.zero_le _, Nat.dvd_zero 4, nofun, ?_, nofun, ?_⟩
  · rw [FifoTrb.offset, FifoTrb.nextOffset]
    rfl
  · rw [FifoTrb.Moved]
    split
    · exact ⟨by rw [FifoSchedule.moved]; rfl, nofun, fun _ _ => rfl⟩
    · exact ⟨rfl, by rw [FifoSchedule.moved]; rfl, nofun⟩

theorem verifyFifo_status {intsts : BitVec 32} {status : EfiStatus}
    (h : (verifyFifo trb intsts s).1 = some (some status)) (hok : efiError status = false) :
    status = efiSuccess := by
  rw [verifyFifo] at h
  dsimp only at h
  split_ifs at h <;> cases h
  · cases hok
  · cases hok
  · rfl

theorem fifoRound_status {status : EfiStatus}
    (h : (fifoRound trb sched k pushes s).1 = some (some status))
    (hok : efiError status = false) : status = efiSuccess := by
  rw [fifoRound] at h
  dsimp only at h
  split_ifs at h
  · rcases heq : pushLoop trb sched k pushes 0 s with ⟨_ | intsts, s'⟩ <;> rw [heq] at h
    · cases h
    · exact verifyFifo_status h hok
  · exact verifyFifo_status h hok
  · exact verifyFifo_status h hok
  · exact verifyFifo_status h hok

/-- A status that is no error is success. -/
theorem transferFifo_status {fuel : ℕ} {status : EfiStatus}
    (h : (transferFifo trb sched pushes data fuel).1 = some status)
    (hok : efiError status = false) : status = efiSuccess := by
  have hround : ∀ j s, j < 0 + fuel → True → RoundKeeps (fun _ _ => True)
      (fun result _ => result = some status → status = efiSuccess) (j + 1)
      (fifoRound trb sched j pushes s) := fun j s _ _ =>
    ⟨fun _ => trivial, fun result hresult heq => fifoRound_status (heq ▸ hresult) hok⟩
  have hspec := rounds_spec hround (s := initFifo trb data) trivial
  rw [transferFifo] at h
  rcases heq : (rounds (fifoRound trb sched · pushes) fuel 0 (initFifo trb data)).1 with _ | st <;>
    rw [heq] at h
  · cases h
  · exact hspec.result st heq h

/-- Before a round that does not fit the loop has gone on, and that round goes outside. -/
theorem transferFifo_out (hlen : 0 < trb.dataLen.toNat) (hreaches : sched.Reaches trb k)
    (hbefore : ∀ j < k, sched.Fits trb j) (hfits : ¬ sched.Fits trb k) :
    ¬ trb.Inside
      (transferFifo trb sched ((trb.dataLen.toNat + 3) / 4) data (k + 1)).2 := by
  have hround : ∀ j s, j < 0 + (k + 1) →
      (if j ≤ k then s.AtRound trb sched data j else ¬ trb.Inside s) →
      RoundKeeps (fun j s => if j ≤ k then s.AtRound trb sched data j else ¬ trb.Inside s)
        (fun _ s => ¬ trb.Inside s) (j + 1)
        (fifoRound trb sched j ((trb.dataLen.toNat + 3) / 4) s) := by
    intro j s hj h
    rw [if_pos (by omega)] at h
    rcases Nat.lt_or_ge j k with hlt | hge
    · have hnone := fifoRound_goesOn h (hbefore j hlt) (hreaches j hlt) (Nat.le_refl _)
      refine ⟨fun hagain => ?_, fun status hstatus => ?_⟩
      · rw [if_pos (by omega)]
        exact (fifoRound_spec h (hbefore j hlt)).again hagain
      · rw [hnone] at hstatus
        cases hstatus
    · obtain rfl : j = k := by omega
      have hout := fifoRound_out h.at_ hfits (Nat.le_refl _)
      refine ⟨fun _ => ?_, fun _ _ => hout⟩
      rw [if_neg (by omega)]
      exact hout
  have hinit := @initFifo_at trb sched data hlen
  have hspec := rounds_spec hround (by rwa [if_pos (Nat.zero_le k)])
  rw [transferFifo]
  rcases heq : (rounds (fifoRound trb sched · ((trb.dataLen.toNat + 3) / 4)) (k + 1) 0
    (initFifo trb data)).1 with _ | status
  · have hin := hspec.again heq
    rw [if_neg (by omega)] at hin
    exact hin
  · exact hspec.result status heq

/-- A loop that returned has come to a round that does not go on. -/
theorem exists_not_goesOn {fuel : ℕ} {status : EfiStatus} (hlen : 0 < trb.dataLen.toNat)
    (hfits : ∀ k, sched.Reaches trb k → sched.Fits trb k)
    (hstatus : (transferFifo trb sched pushes data fuel).1 = some status) :
    ∃ k, ¬ sched.GoesOn trb k := by
  have hspec := rounds_spec (fun j s (_ : j < 0 + fuel) (h : s.AtRound trb sched data j) =>
    @fifoRound_spec _ _ _ pushes _ _ h (hfits j h.reaches)) (initFifo_at hlen)
  rw [transferFifo] at hstatus
  rcases heq : (rounds (fifoRound trb sched · pushes) fuel 0 (initFifo trb data)).1 with _ | st <;>
    rw [heq] at hstatus
  · cases hstatus
  · exact (hspec.result st heq).ended status hstatus

/-- The transfer is sound exactly when the controller's schedule is orderly. -/
theorem transferFifo_sound_iff (trb : FifoTrb) (sched : FifoSchedule) (data : Cells (BitVec 8))
    (hlen : 0 < trb.dataLen.toNat) : FifoSound trb sched data ↔ sched.Orderly trb := by
  have hinit := @initFifo_at trb sched data hlen
  constructor
  · rintro ⟨⟨pushes, fuel, status, hstatus⟩, hsound⟩
    have hfits : ∀ k, sched.Reaches trb k → sched.Fits trb k := by
      intro k
      induction k using Nat.strong_induction_on with
      | _ k ih =>
        intro hreaches
        by_contra hfits
        exact transferFifo_out hlen hreaches
          (fun j hj => ih j hj fun i hi => hreaches i (hi.trans hj)) hfits (hsound _ _).1
    refine ⟨?_, hfits⟩
    obtain ⟨k, hk⟩ := exists_not_goesOn hlen hfits hstatus
    exact ⟨k + 1, fun hreaches => hk (hreaches k (Nat.lt_succ_self k))⟩
  · rintro ⟨⟨k, hk⟩, hfits⟩
    have hround : ∀ pushes fuel j s, j < 0 + fuel → s.AtRound trb sched data j →
        RoundKeeps (FifoState.AtRound trb sched data) (trb.Over sched data pushes) (j + 1)
          (fifoRound trb sched j pushes s) :=
      fun _ _ j s _ h => fifoRound_spec h (hfits j h.reaches)
    refine ⟨⟨(trb.dataLen.toNat + 3) / 4, k, ?_⟩, fun pushes fuel => ?_⟩
    · have hends := rounds_ends (hround ((trb.dataLen.toNat + 3) / 4) k) hinit fun s h =>
        hk (by have := h.reaches; rwa [Nat.zero_add] at this)
      obtain ⟨st, hst⟩ := hends
      have hcut := ((rounds_spec (hround _ _) hinit).result st hst).cut
      rcases st with _ | status
      · exact absurd (hcut rfl) (Nat.lt_irrefl _)
      · exact ⟨status, by rw [transferFifo, hst]; rfl⟩
    · have hspec := rounds_spec (hround pushes fuel) hinit
      rw [transferFifo]
      rcases heq : (rounds (fifoRound trb sched · pushes) fuel 0 (initFifo trb data)).1 with _ | st
      · exact ⟨(hspec.again heq).at_.inside, nofun⟩
      · have hover := hspec.result st heq
        exact ⟨hover.inside, fun hst => hover.success hst⟩

/-- The controller has two words for a read. -/
def twoWords : FifoSchedule where
  intsts _ _ := dwMmcIntRxdr
  status _ _ := 0x40000
  fifo _ := 0

theorem transferFifo_sound_twoWords : FifoSound ⟨true, true, 8⟩ twoWords fun _ => 0 := by
  refine (transferFifo_sound_iff ⟨true, true, 8⟩ twoWords (fun _ => 0) (by decide)).mpr
    ⟨⟨1, fun h => absurd (h 0 (by decide)).2.2 (by decide)⟩, fun k hk => ?_⟩
  rcases k with _ | k
  · exact ⟨by decide, fun _ hdvd => absurd (by decide) hdvd⟩
  · exact absurd (hk 0 (by omega)).2.2 (by decide)

/-- It asks for words with its FIFO full. -/
def stalled : FifoSchedule where
  intsts _ _ := dwMmcIntTxdr
  status _ _ := 8
  fifo _ := 0

theorem stalled_busy : stalled.busy ⟨false, false, 512⟩ k = true := by
  rw [FifoSchedule.busy, if_neg (by decide)]
  exact decide_eq_true (show dwMmcIntTxdr &&& dwMmcIntTxdr ≠ 0 by decide)

theorem stalled_words : stalled.words ⟨false, false, 512⟩ k m = 0 := by
  rw [words_of_write rfl]
  cases (UInt32.toNat 512 - m + 3) / 4 with
  | zero => rfl
  | succ words =>
    rw [FifoSchedule.room, if_neg]
    change ¬ decide (dwMmcIntTxdr &&& dwMmcIntTxdr ≠ 0 ∧ dwMmcStsFifoFull 8 = 0) = true
    decide

theorem stalled_moved : ∀ k, stalled.moved ⟨false, false, 512⟩ k = 0
  | 0 => rfl
  | k + 1 => by rw [FifoSchedule.moved, stalled_moved k, stalled_words]

/-- The two words of a read of six bytes go two bytes past them, and a write to a controller that
stays full does not return. -/
theorem transferFifo_not_sound :
    ¬ FifoSound ⟨true, false, 6⟩ twoWords (fun _ => 0) ∧
      ¬ FifoSound ⟨false, false, 512⟩ stalled (fun _ => 0) := by
  constructor
  · intro h
    have hout : ¬ twoWords.Fits ⟨true, false, 6⟩ 0 := fun hfits => absurd hfits.1 (by decide)
    exact transferFifo_out (by decide) (fun j hj => absurd hj (Nat.not_lt_zero j))
      (fun j hj => absurd hj (Nat.not_lt_zero j)) hout (h.2 _ _).1
  · rintro ⟨⟨pushes, fuel, status, hstatus⟩, -⟩
    have hfits : ∀ k, stalled.Fits ⟨false, false, 512⟩ k := fun k => by
      rw [FifoSchedule.Fits, stalled_moved]
      exact ⟨Nat.zero_le _, fun _ _ => rfl⟩
    obtain ⟨k, hk⟩ := exists_not_goesOn (by decide) (fun k _ => hfits k) hstatus
    refine hk ⟨?_, ?_, ?_⟩
    · change dwMmcIntTxdr &&& dwMmcIntDataErr = 0
      decide
    · rw [FifoSchedule.patience, if_pos stalled_busy]
      decide
    · rw [stalled_moved]
      decide

end Edk2Rk3576.DwMmc
