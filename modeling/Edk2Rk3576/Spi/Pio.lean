import Edk2Rk3576.Lib.LittleEndian
import Edk2Rk3576.Lib.Retry
import Edk2Rk3576.Spi.Fifos

/-!
# Programmed transfers over SPI

`SPI_PioTransfer` fills the transmit FIFO from one buffer and empties the receive FIFO into the
other, until nothing remains.
-/

namespace Edk2Rk3576.Spi

inductive FrameSize
  | byte
  | short
  deriving DecidableEq

def FrameSize.nBytes : FrameSize → ℕ
  | .byte => 1
  | .short => 2

/-- What `SPI_Configure` is given. -/
structure Job where
  frame : FrameSize
  pTxData : Option (Cells UInt8)
  pRxData : Option (Cells UInt8)
  size : UInt32
  some_data : pTxData.isSome ∨ pRxData.isSome

/-- The controller with the places in the two buffers, the memory from the start of the receive
buffer on, and the accesses outside of the buffers. -/
structure Pio where
  hw : Controller
  pTxBuffer : ℕ
  pRxBuffer : ℕ
  mem : Cells UInt8
  outside : ℕ

theorem FrameSize.nBytes_pos (f : FrameSize) : 0 < f.nBytes := by
  cases f
  · exact Nat.one_pos
  · exact Nat.two_pos

namespace Job

variable (j : Job)

def configureTransferMode : XfmMode :=
  match j.pTxData, j.pRxData with
  | some _, some _ => .xfmTr
  | some _, none => .xfmTo
  | none, _ => .xfmRo

/-- What is written to CTRLR1; the controller clocks one frame more. -/
def ctrlr1 : UInt32 :=
  match j.frame with
  | .byte => j.size - 1
  | .short => j.size / 2 - 1

/-- The memory before the transfer. -/
def rxData : Cells UInt8 := j.pRxData.getD fun _ => 0

/-- The FIFOs are empty when the controller is enabled. -/
def spiConfigure : Pio where
  hw :=
    { accesses := 0
      toClock := if j.configureTransferMode = .xfmRo then j.ctrlr1.toNat + 1 else 0
      txFifo := [], rxFifo := [], pushed := [], sent := []
      received := 0, lost := 0, popped := 0 }
  pTxBuffer := 0
  pRxBuffer := 0
  mem := j.rxData
  outside := 0

/-- A frame of `n` bytes at this place in a buffer is accessed. -/
def touch (n p : ℕ) (s : Pio) : Pio :=
  if p + n ≤ j.size.toNat then s else { s with outside := s.outside + 1 }

variable (waits : Bool) (b : Bus)

def spiTxMax (s : Pio) : ℕ × Pio :=
  let txLeft := (j.size.toNat - s.pTxBuffer) / j.frame.nBytes
  let (txflr, hw) := readTxflr waits j.configureTransferMode b s.hw
  (min txLeft (halSpiFifoLength - txflr), { s with hw })

def pushFrame (tx : Cells UInt8) (s : Pio) : Pio :=
  let txw := tx.le s.pTxBuffer j.frame.nBytes
  let s := j.touch j.frame.nBytes s.pTxBuffer s
  { s with
    hw := writeTxdr waits j.configureTransferMode b txw s.hw
    pTxBuffer := s.pTxBuffer + j.frame.nBytes }

def spiPioWrite (tx : Cells UInt8) (s : Pio) : Pio :=
  let (max, s) := j.spiTxMax waits b s
  (j.pushFrame waits b tx)^[max] s

/-- Byte `r` of a word. -/
def wordByte (w r : ℕ) : UInt8 := UInt8.ofNat (w / 256 ^ r)

section Read

/-! A frame that is read has `n` bytes. -/

variable (n : ℕ)

/-- The frame at `pRxBuffer + k` is read. -/
def popFrame (k : ℕ) (s : Pio) : Pio :=
  let (w, hw) := readRxdr waits j.configureTransferMode b s.hw
  let p := s.pRxBuffer + k * n
  let s := j.touch n p s
  { s with hw, mem := s.mem.modify p n fun r _ => wordByte w r }

/-- `pRxBuffer += k`, counted in frames. -/
def moveRx (k : ℕ) (s : Pio) : Pio := { s with pRxBuffer := s.pRxBuffer + k * n }

/-- The body of `while (max > 7)`. -/
def popEight (s : Pio) : Pio :=
  let s := j.popFrame waits b n 0 s
  let s := j.popFrame waits b n 1 s
  let s := j.popFrame waits b n 2 s
  let s := j.popFrame waits b n 3 s
  let s := j.popFrame waits b n 4 s
  let s := j.popFrame waits b n 5 s
  let s := j.popFrame waits b n 6 s
  let s := j.popFrame waits b n 7 s
  moveRx n 8 s

def popOne (s : Pio) : Pio := moveRx n 1 (j.popFrame waits b n 0 s)

def spiPioRead (s : Pio) : Pio :=
  let rxLeft := (j.size.toNat - s.pRxBuffer) / n
  let (rxRoom, hw) := readRxflr waits j.configureTransferMode b s.hw
  let max := min rxLeft rxRoom
  (j.popOne waits b n)^[max % 8] ((j.popEight waits b n)^[max / 8] { s with hw })

end Read

def spiPioReadByte (s : Pio) : Pio := j.spiPioRead waits b 1 s

def spiPioReadShort (s : Pio) : Pio := j.spiPioRead waits b 2 s

def fill (s : Pio) : ℕ × Pio :=
  match j.pTxData with
  | some tx => (j.size.toNat - s.pTxBuffer, j.spiPioWrite waits b tx s)
  | none => (0, s)

/-- A pass of the loop, and whether it is the last: `remain` is taken before the step, and that of
the receive buffer counts if there is one. -/
def pass (s : Pio) : Bool × Pio :=
  let (remain, s) := j.fill waits b s
  let (remain, s) :=
    match j.pRxData with
    | some _ =>
      (j.size.toNat - s.pRxBuffer,
        match j.frame with
        | .byte => j.spiPioReadByte waits b s
        | .short => j.spiPioReadShort waits b s)
    | none => (remain, s)
  (remain == 0, s)

/-- At most `fuel` passes, and whether the transfer has ended. -/
def spiPioTransfer (fuel : ℕ) : Bool × Pio := retry (j.pass waits b) fuel j.spiConfigure

/-! ### What the transfer is to do -/

def frames : ℕ := j.size.toNat / j.frame.nBytes

/-- Frame `k` of a buffer. -/
def frameAt (tx : Cells UInt8) (k : ℕ) : ℕ := tx.le (k * j.frame.nBytes) j.frame.nBytes

/-- Byte `k` of the frames on the line. -/
def lineByte (line : ℕ → UInt16) (k : ℕ) : UInt8 :=
  wordByte (line (k / j.frame.nBytes)).toNat (k % j.frame.nBytes)

structure PioOk : Prop where
  /-- It ends under a fair schedule, and once all words have been shifted. -/
  ends : ∀ b : Bus, FairSchedule b.schedule ∨
    (∃ fuel, j.frames ≤ shifted j.configureTransferMode (j.spiPioTransfer waits b fuel).2.hw) →
      ∃ fuel, (j.spiPioTransfer waits b fuel).1
  pushes : ∀ b fuel tx, (j.spiPioTransfer waits b fuel).1 → j.pTxData = some tx →
    (j.spiPioTransfer waits b fuel).2.hw.pushed = (List.range j.frames).map (j.frameAt tx)
  stores : ∀ b fuel rx, (j.spiPioTransfer waits b fuel).1 → j.pRxData = some rx →
    (j.spiPioTransfer waits b fuel).2.hw.received * j.frame.nBytes = j.size.toNat ∧
      ∀ k < j.size.toNat, (j.spiPioTransfer waits b fuel).2.mem k = j.lineByte b.line k
  inside : ∀ b fuel, (j.spiPioTransfer waits b fuel).2.outside = 0 ∧
    ∀ k, j.size.toNat ≤ k → (j.spiPioTransfer waits b fuel).2.mem k = j.rxData k
  keeps : ∀ b fuel, j.configureTransferMode = .xfmTr → (j.spiPioTransfer waits b fuel).2.hw.lost = 0

/-- The buffers hold whole frames, and what comes in has room: all of it does, or the clock waits
for it. -/
def Fits : Prop :=
  j.size.toNat % j.frame.nBytes = 0 ∧
    match j.configureTransferMode with
    | .xfmTr => j.frames ≤ halSpiFifoLength
    | .xfmTo => True
    | .xfmRo => 0 < j.size ∧ (waits = true ∨ j.frames ≤ halSpiFifoLength)

section Invariant

variable {j : Job} {waits : Bool} {b : Bus} {d m : ℕ} {s : Pio}

/-- `d` frames have been read past the place in the receive buffer. -/
structure Inv (j : Job) (waits : Bool) (b : Bus) (d : ℕ) (s : Pio) : Prop where
  hw : HwInv (j.ctrlr1.toNat + 1) j.configureTransferMode b s.hw
  lossless : j.Fits waits → s.hw.lost = 0
  tx_at : s.pTxBuffer = s.hw.pushed.length * j.frame.nBytes
  tx_end : s.hw.pushed.length ≤ j.frames
  pushed : ∀ tx, j.pTxData = some tx →
    s.hw.pushed = (List.range s.hw.pushed.length).map (j.frameAt tx)
  rx_at : s.pRxBuffer + d * j.frame.nBytes = s.hw.popped * j.frame.nBytes
  rx_end : s.hw.popped ≤ j.frames
  stored : s.hw.lost = 0 → ∀ k < s.hw.popped * j.frame.nBytes, s.mem k = j.lineByte b.line k
  kept : ∀ k, s.hw.popped * j.frame.nBytes ≤ k → s.mem k = j.rxData k
  inside : s.outside = 0

theorem clocked_eq (hwhole : j.size.toNat % j.frame.nBytes = 0) (hsize : 0 < j.size) :
    j.ctrlr1.toNat + 1 = j.frames := by
  have hpos : 0 < j.size.toNat := UInt32.lt_iff_toNat_lt.1 hsize
  unfold ctrlr1 frames
  rcases hframe : j.frame with _ | _
  · have hone : (1 : UInt32) ≤ j.size := UInt32.le_iff_toNat_le.2 hpos
    simp only [FrameSize.nBytes]
    rw [UInt32.toNat_sub_of_le _ _ hone]
    simp only [UInt32.toNat_one]
    omega
  · rw [hframe] at hwhole
    simp only [FrameSize.nBytes] at hwhole ⊢
    have hhalf : (j.size / 2).toNat = j.size.toNat / 2 := UInt32.toNat_div _ _
    have hone : (1 : UInt32) ≤ j.size / 2 := by
      rw [UInt32.le_iff_toNat_le, hhalf, UInt32.toNat_one]
      omega
    rw [UInt32.toNat_sub_of_le _ _ hone, hhalf, UInt32.toNat_one]
    omega

theorem clocked_eq_frames (h : j.Fits waits) (hmode : j.configureTransferMode = .xfmRo) :
    j.ctrlr1.toNat + 1 = j.frames := by
  obtain ⟨hwhole, hrest⟩ := h
  rw [hmode] at hrest
  exact clocked_eq hwhole hrest.1

theorem Inv.room (h : Inv j waits b d s) (hfits : j.Fits waits) :
    Room waits (j.ctrlr1.toNat + 1) j.configureTransferMode s.hw := by
  have hend := h.tx_end
  have hclocked := clocked_eq_frames hfits
  obtain ⟨-, hrest⟩ := hfits
  rcases hmode : j.configureTransferMode with _ | _ | _ <;> rw [hmode] at hrest
  · exact hend.trans hrest
  · trivial
  · rw [Room, hclocked hmode]
    exact hrest.2

theorem frame_le (hk : m < j.frames) : m * j.frame.nBytes + j.frame.nBytes ≤ j.size.toNat := by
  rw [← Nat.succ_mul]
  exact (Nat.mul_le_mul_right _ hk).trans (Nat.div_mul_le_self _ _)

/-- A level is read. -/
theorem Inv.tick (h : Inv j waits b d s) :
    Inv j waits b d { s with hw := Spi.tick waits j.configureTransferMode b s.hw } where
  hw := h.hw.tick waits
  lossless hfits := (tick_lost waits h.hw (h.room hfits)).trans (h.lossless hfits)
  tx_at := by
    simp only [tick_pushed]
    exact h.tx_at
  tx_end := by
    simp only [tick_pushed]
    exact h.tx_end
  pushed := by
    simp only [tick_pushed]
    exact h.pushed
  rx_at := by
    simp only [tick_popped]
    exact h.rx_at
  rx_end := by
    simp only [tick_popped]
    exact h.rx_end
  stored := by
    simp only [tick_popped]
    exact fun hlost => h.stored (Nat.eq_zero_of_le_zero ((tick_lost_le waits).trans hlost.le))
  kept := by
    simp only [tick_popped]
    exact h.kept
  inside := h.inside

theorem start_inv : Inv j waits b 0 j.spiConfigure where
  hw := by
    refine ⟨⟨rfl, Nat.zero_le _, Nat.zero_le _, rfl, fun _ => rfl⟩, ?_⟩
    rcases hmode : j.configureTransferMode with _ | _ | _
    · rfl
    · rfl
    · simp only [Came, spiConfigure]
      rw [if_pos hmode, Nat.zero_add]
  lossless _ := rfl
  tx_at := (Nat.zero_mul _).symm
  tx_end := Nat.zero_le _
  pushed _ _ := rfl
  rx_at := by simp [spiConfigure]
  rx_end := Nat.zero_le _
  stored _ k hk := by
    rw [show j.spiConfigure.hw.popped = 0 from rfl, Nat.zero_mul] at hk
    cases hk
  kept _ _ := rfl
  inside := rfl

theorem touch_eq {p : ℕ} (h : p + m ≤ j.size.toNat) : j.touch m p s = s := if_pos h

theorem touch_hw {p : ℕ} : (j.touch m p s).hw = s.hw := by
  unfold touch
  split_ifs <;> rfl

theorem pushFrame_hw {tx : Cells UInt8} : (j.pushFrame waits b tx s).hw =
    writeTxdr waits j.configureTransferMode b (tx.le s.pTxBuffer j.frame.nBytes) s.hw := by
  simp only [Job.pushFrame, touch_hw]

theorem popFrame_hw {n k : ℕ} : (j.popFrame waits b n k s).hw =
    (readRxdr waits j.configureTransferMode b s.hw).2 := rfl

theorem Inv.pushFrame {tx : Cells UInt8} (h : Inv j waits b d s) (htx : j.pTxData = some tx)
    (hroom : s.hw.txFifo.length < halSpiFifoLength) (hmore : s.hw.pushed.length < j.frames) :
    Inv j waits b d (j.pushFrame waits b tx s) := by
  have htick := h.tick
  have hlength : ∀ w, (writeTxdr waits j.configureTransferMode b w s.hw).pushed.length
      = s.hw.pushed.length + 1 := fun w => by
    rw [writeTxdr_pushed, List.length_append, List.length_singleton]
  have hin : s.pTxBuffer + j.frame.nBytes ≤ j.size.toNat := by
    rw [h.tx_at]
    exact frame_le hmore
  simp only [Job.pushFrame]
  rw [touch_eq hin]
  refine ⟨h.hw.writeTxdr waits _ hroom, htick.lossless, ?_, ?_, fun tx' htx' => ?_, htick.rx_at,
    htick.rx_end, htick.stored, htick.kept, htick.inside⟩
  · simp only
    rw [hlength, Nat.succ_mul, h.tx_at]
  · simp only
    rw [hlength]
    exact hmore
  · obtain rfl : tx = tx' := Option.some.inj (htx.symm.trans htx')
    simp only
    rw [hlength, writeTxdr_pushed, List.range_succ, List.map_append, ← h.pushed tx htx,
      List.map_singleton, h.tx_at]
    rfl

theorem Inv.popFrame (h : Inv j waits b d s) (hsome : 0 < s.hw.rxFifo.length)
    (hmore : s.hw.popped < j.frames) :
    Inv j waits b (d + 1) (j.popFrame waits b j.frame.nBytes d s) := by
  have htick := h.tick
  have hin : s.hw.popped * j.frame.nBytes + j.frame.nBytes ≤ j.size.toNat := frame_le hmore
  have hat := h.rx_at
  simp only [Job.popFrame]
  rw [hat, touch_eq hin]
  refine ⟨h.hw.readRxdr waits hsome, htick.lossless, htick.tx_at, htick.tx_end, htick.pushed, ?_,
    ?_, fun hlost k hk => ?_, fun k hk => ?_, h.inside⟩
  · simp only
    rw [readRxdr_popped, Nat.succ_mul, Nat.succ_mul]
    omega
  · simp only
    rw [readRxdr_popped]
    exact hmore
  · simp only at hlost hk ⊢
    rw [readRxdr_popped, Nat.succ_mul] at hk
    by_cases hold : k < s.hw.popped * j.frame.nBytes
    · rw [Cells.modify_of_notMem (by omega)]
      exact h.stored (Nat.eq_zero_of_le_zero ((tick_lost_le waits).trans hlost.le)) k hold
    · -- the byte is one of the frame that is read
      obtain ⟨r, rfl⟩ := Nat.exists_eq_add_of_le (not_lt.1 hold)
      have hr : r < j.frame.nBytes := by omega
      rw [Cells.modify_add hr, h.hw.readRxdr_word waits hsome hlost, lineByte, Nat.mul_comm,
        Nat.mul_add_div j.frame.nBytes_pos, Nat.div_eq_of_lt hr, Nat.mul_add_mod,
        Nat.mod_eq_of_lt hr, Nat.add_zero]
  · simp only at hk ⊢
    rw [readRxdr_popped, Nat.succ_mul] at hk
    rw [Cells.modify_of_notMem (by omega)]
    exact h.kept k (by omega)

/-- `m` more frames can be written, or read. -/
structure CanPush (j : Job) (waits : Bool) (b : Bus) (m : ℕ) (s : Pio) : Prop where
  inv : Inv j waits b 0 s
  room : s.hw.txFifo.length + m ≤ halSpiFifoLength
  more : s.hw.pushed.length + m ≤ j.frames

structure CanPop (j : Job) (waits : Bool) (b : Bus) (d m : ℕ) (s : Pio) : Prop where
  inv : Inv j waits b d s
  some : m ≤ s.hw.rxFifo.length
  more : s.hw.popped + m ≤ j.frames

theorem CanPush.pushFrame {tx : Cells UInt8} (h : CanPush j waits b (m + 1) s)
    (htx : j.pTxData = some tx) : CanPush j waits b m (j.pushFrame waits b tx s) := by
  obtain ⟨hinv, hroom, hmore⟩ := h
  refine ⟨hinv.pushFrame htx (by omega) (by omega), ?_, ?_⟩ <;> rw [pushFrame_hw]
  · have htick : (tick waits j.configureTransferMode b s.hw).txFifo.length ≤ s.hw.txFifo.length :=
      tick_tx waits
    refine (Nat.add_le_add_right (writeTxdr_tx waits) m).trans ?_
    omega
  · rw [writeTxdr_pushed, List.length_append, List.length_singleton]
    omega

theorem CanPop.popFrame (h : CanPop j waits b d (m + 1) s) :
    CanPop j waits b (d + 1) m (j.popFrame waits b j.frame.nBytes d s) := by
  obtain ⟨hinv, hsome, hmore⟩ := h
  refine ⟨hinv.popFrame (by omega) (by omega), ?_, ?_⟩ <;> rw [popFrame_hw]
  · have hle : s.hw.rxFifo.length ≤
        (readRxdr waits j.configureTransferMode b s.hw).2.rxFifo.length + 1 := readRxdr_rx waits
    omega
  · rw [readRxdr_popped]
    omega

theorem CanPop.moveRx (h : CanPop j waits b d m s) :
    CanPop j waits b 0 m (moveRx j.frame.nBytes d s) := by
  obtain ⟨hinv, hsome, hmore⟩ := h
  refine ⟨⟨hinv.hw, hinv.lossless, hinv.tx_at, hinv.tx_end, hinv.pushed, ?_, hinv.rx_end,
    hinv.stored, hinv.kept, hinv.inside⟩, hsome, hmore⟩
  rw [Nat.zero_mul]
  exact hinv.rx_at

theorem CanPop.popOne (h : CanPop j waits b 0 (m + 1) s) :
    CanPop j waits b 0 m (j.popOne waits b j.frame.nBytes s) := h.popFrame.moveRx

theorem CanPop.popEight (h : CanPop j waits b 0 (m + 8) s) :
    CanPop j waits b 0 m (j.popEight waits b j.frame.nBytes s) :=
  h.popFrame.popFrame.popFrame.popFrame.popFrame.popFrame.popFrame.popFrame.moveRx

theorem CanPush.iterate {tx : Cells UInt8} (h : CanPush j waits b m s)
    (htx : j.pTxData = some tx) : CanPush j waits b 0 ((j.pushFrame waits b tx)^[m] s) := by
  induction m generalizing s with
  | zero => exact h
  | succ m ih => exact ih (h.pushFrame htx)

theorem CanPop.iterate_popOne (h : CanPop j waits b 0 m s) :
    CanPop j waits b 0 0 ((j.popOne waits b j.frame.nBytes)^[m] s) := by
  induction m generalizing s with
  | zero => exact h
  | succ m ih => exact ih h.popOne

theorem CanPop.iterate_popEight {k : ℕ} (h : CanPop j waits b 0 (k + 8 * m) s) :
    CanPop j waits b 0 k ((j.popEight waits b j.frame.nBytes)^[m] s) := by
  induction m generalizing s with
  | zero => exact h
  | succ m ih => exact ih (CanPop.popEight h)

theorem left_eq {i : ℕ} :
    (j.size.toNat - i * j.frame.nBytes) / j.frame.nBytes = j.frames - i := by
  rw [Nat.mul_comm]
  exact Nat.sub_mul_div _ _ _

/-! #### A pass writes -/

/-- How many frames `SPI_PioWrite` writes. -/
theorem Inv.spiTxMax_eq (h : Inv j waits b 0 s) : (j.spiTxMax waits b s).1 =
    min (j.frames - s.hw.pushed.length)
      (halSpiFifoLength - (Spi.tick waits j.configureTransferMode b s.hw).txFifo.length) := by
  simp only [spiTxMax, readTxflr]
  rw [h.tx_at, left_eq]

theorem Inv.canPush (h : Inv j waits b 0 s) :
    CanPush j waits b (j.spiTxMax waits b s).1 (j.spiTxMax waits b s).2 := by
  have hle := h.tick.hw.fifo.tx_le
  have hend := h.tx_end
  rw [h.spiTxMax_eq]
  refine ⟨h.tick, ?_, ?_⟩ <;> simp only [spiTxMax, readTxflr] at hle ⊢
  · omega
  · rw [tick_pushed]
    omega

theorem Inv.spiPioWrite {tx : Cells UInt8} (h : Inv j waits b 0 s) (htx : j.pTxData = some tx) :
    Inv j waits b 0 (j.spiPioWrite waits b tx s) := (h.canPush.iterate htx).inv

/-- What each write brings about, they all do. -/
theorem iterate_rel {R : Controller → Controller → Prop} (hrefl : ∀ c, R c c)
    (htrans : ∀ {c c' c''}, R c c' → R c' c'' → R c c'') {f : Pio → Pio}
    (hf : ∀ t, R t.hw (f t).hw) (m : ℕ) (s : Pio) : R s.hw (f^[m] s).hw := by
  induction m generalizing s with
  | zero => exact hrefl _
  | succ m ih => exact htrans (hf s) (ih (f s))

theorem spiPioWrite_rel {R : Controller → Controller → Prop} (hrefl : ∀ c, R c c)
    (htrans : ∀ {c c' c''}, R c c' → R c' c'' → R c c'')
    (hpush : ∀ w c, R c (writeTxdr waits j.configureTransferMode b w c)) {tx : Cells UInt8} :
    R (Spi.tick waits j.configureTransferMode b s.hw) (j.spiPioWrite waits b tx s).hw := by
  have hone : ∀ t, R t.hw (j.pushFrame waits b tx t).hw := by
    intro t
    rw [pushFrame_hw]
    exact hpush _ _
  exact iterate_rel hrefl htrans hone _ (j.spiTxMax waits b s).2

theorem spiPioWrite_advances {tx : Cells UInt8} : (service j.configureTransferMode b).Advances
    (Spi.tick waits j.configureTransferMode b s.hw) (j.spiPioWrite waits b tx s).hw :=
  spiPioWrite_rel .refl .trans fun _ _ => writeTxdr_advances waits

theorem spiPioWrite_popped {tx : Cells UInt8} :
    (j.spiPioWrite waits b tx s).hw.popped = s.hw.popped := by
  refine Function.Iterate.rec (fun t : Pio => t.hw.popped = s.hw.popped) (tick_popped waits)
    (fun t ht => ?_) _
  rw [pushFrame_hw, ← ht]
  exact tick_popped waits

theorem iterate_pushFrame_pushed {tx : Cells UInt8} :
    ((j.pushFrame waits b tx)^[m] s).hw.pushed.length = s.hw.pushed.length + m := by
  induction m generalizing s with
  | zero => rfl
  | succ m ih =>
    rw [Function.iterate_succ_apply, ih, pushFrame_hw, writeTxdr_pushed, List.length_append,
      List.length_singleton]
    omega

theorem Inv.spiPioWrite_pushed (h : Inv j waits b 0 s) (tx : Cells UInt8) :
    (j.spiPioWrite waits b tx s).hw.pushed.length = s.hw.pushed.length +
      min (j.frames - s.hw.pushed.length)
        (halSpiFifoLength - (Spi.tick waits j.configureTransferMode b s.hw).txFifo.length) := by
  rw [← h.spiTxMax_eq]
  refine iterate_pushFrame_pushed.trans ?_
  simp only [spiTxMax, readTxflr, tick_pushed]

/-! #### and then reads -/

theorem Inv.canPop (h : Inv j waits b 0 s) :
    CanPop j waits b 0 (min (j.frames - s.hw.popped)
      (Spi.tick waits j.configureTransferMode b s.hw).rxFifo.length)
      { s with hw := Spi.tick waits j.configureTransferMode b s.hw } := by
  have hend := h.rx_end
  refine ⟨h.tick, min_le_right _ _, ?_⟩
  simp only [tick_popped]
  omega

theorem Inv.rxLeft_eq (h : Inv j waits b 0 s) :
    (j.size.toNat - s.pRxBuffer) / j.frame.nBytes = j.frames - s.hw.popped := by
  have hat := h.rx_at
  rw [Nat.zero_mul, Nat.add_zero] at hat
  rw [hat, left_eq]

theorem Inv.spiPioRead (h : Inv j waits b 0 s) :
    Inv j waits b 0 (j.spiPioRead waits b j.frame.nBytes s) := by
  have hcan := h.canPop
  simp only [Job.spiPioRead, readRxflr]
  rw [h.rxLeft_eq]
  rw [← Nat.mod_add_div (min (j.frames - s.hw.popped) _) 8] at hcan
  exact hcan.iterate_popEight.iterate_popOne.inv

theorem iterate_popOne_popped {n : ℕ} :
    ((j.popOne waits b n)^[m] s).hw.popped = s.hw.popped + m := by
  induction m generalizing s with
  | zero => rfl
  | succ m ih =>
    have hone : (j.popOne waits b n s).hw.popped = s.hw.popped + 1 := readRxdr_popped waits
    rw [Function.iterate_succ_apply, ih, hone]
    omega

theorem iterate_popEight_popped {n : ℕ} :
    ((j.popEight waits b n)^[m] s).hw.popped = s.hw.popped + 8 * m := by
  induction m generalizing s with
  | zero => rfl
  | succ m ih =>
    have height : (j.popEight waits b n s).hw.popped = s.hw.popped + 8 := by
      simp only [popEight, Job.moveRx, popFrame_hw, readRxdr_popped]
    rw [Function.iterate_succ_apply, ih, height]
    omega

theorem Inv.spiPioRead_popped (h : Inv j waits b 0 s) :
    (j.spiPioRead waits b j.frame.nBytes s).hw.popped = s.hw.popped +
      min (j.frames - s.hw.popped) (Spi.tick waits j.configureTransferMode b s.hw).rxFifo.length := by
  simp only [Job.spiPioRead, readRxflr]
  rw [h.rxLeft_eq, iterate_popOne_popped, iterate_popEight_popped]
  simp only [tick_popped]
  omega

theorem spiPioRead_rel {R : Controller → Controller → Prop} (hrefl : ∀ c, R c c)
    (htrans : ∀ {c c' c''}, R c c' → R c' c'' → R c c'')
    (hpop : ∀ c, R c (readRxdr waits j.configureTransferMode b c).2) {n : ℕ} :
    R (Spi.tick waits j.configureTransferMode b s.hw) (j.spiPioRead waits b n s).hw := by
  have hone : ∀ t, R t.hw (j.popOne waits b n t).hw := fun t => hpop t.hw
  have height : ∀ t, R t.hw (j.popEight waits b n t).hw := by
    intro t
    simp only [popEight, Job.moveRx, popFrame_hw]
    exact htrans (htrans (htrans (htrans (htrans (htrans (htrans (hpop _) (hpop _)) (hpop _))
      (hpop _)) (hpop _)) (hpop _)) (hpop _)) (hpop _)
  simp only [Job.spiPioRead, readRxflr]
  exact htrans (iterate_rel hrefl htrans height _ { s with hw := _ })
    (iterate_rel hrefl htrans hone _ _)

theorem spiPioRead_advances {n : ℕ} : (service j.configureTransferMode b).Advances
    (Spi.tick waits j.configureTransferMode b s.hw) (j.spiPioRead waits b n s).hw :=
  spiPioRead_rel .refl .trans fun _ => readRxdr_advances waits

/-! #### The pass as a whole -/

theorem pass_of_some {rx : Cells UInt8} (h : j.pRxData = some rx) : j.pass waits b s =
    (j.size.toNat - (j.fill waits b s).2.pRxBuffer == 0,
      j.spiPioRead waits b j.frame.nBytes (j.fill waits b s).2) := by
  unfold pass
  rw [h]
  cases j.frame <;> rfl

theorem pass_of_none (h : j.pRxData = none) :
    j.pass waits b s = ((j.fill waits b s).1 == 0, (j.fill waits b s).2) := by
  unfold pass
  rw [h]

theorem mode_of_none (h : j.pRxData = none) : j.configureTransferMode = .xfmTo := by
  obtain ⟨tx, htx⟩ := Option.isSome_iff_exists.1
    (j.some_data.resolve_right (by rw [h]; exact Bool.false_ne_true))
  unfold configureTransferMode
  rw [h, htx]

theorem mode_of_some {rx : Cells UInt8} (h : j.pRxData = some rx) :
    j.configureTransferMode ≠ .xfmTo := by
  unfold configureTransferMode
  rw [h]
  cases j.pTxData <;> exact nofun

theorem tx_of_mode (h : j.configureTransferMode ≠ .xfmRo) : ∃ tx, j.pTxData = some tx := by
  rcases htx : j.pTxData with _ | tx
  · unfold configureTransferMode at h
    rw [htx] at h
    exact absurd rfl h
  · exact ⟨tx, rfl⟩

theorem rx_of_mode (h : j.configureTransferMode ≠ .xfmTo) : ∃ rx, j.pRxData = some rx := by
  rcases hrx : j.pRxData with _ | rx
  · exact absurd (mode_of_none hrx) h
  · exact ⟨rx, rfl⟩

theorem fill_of_mode (h : j.configureTransferMode = .xfmRo) : (j.fill waits b s).2 = s := by
  unfold Job.fill
  rcases htx : j.pTxData with _ | tx
  · rfl
  · unfold configureTransferMode at h
    rw [htx] at h
    cases hrx : j.pRxData <;> rw [hrx] at h <;> cases h

theorem Inv.fill (h : Inv j waits b 0 s) : Inv j waits b 0 (j.fill waits b s).2 := by
  unfold Job.fill
  rcases htx : j.pTxData with _ | tx
  · exact h
  · exact h.spiPioWrite htx

theorem fill_advances :
    (service j.configureTransferMode b).Advances s.hw (j.fill waits b s).2.hw := by
  unfold Job.fill
  cases j.pTxData with
  | none => exact .refl _
  | some tx => exact (tick_advances waits).trans spiPioWrite_advances

theorem fill_popped : (j.fill waits b s).2.hw.popped = s.hw.popped := by
  unfold Job.fill
  cases j.pTxData with
  | none => rfl
  | some tx => exact spiPioWrite_popped

theorem Inv.pass (h : Inv j waits b 0 s) : Inv j waits b 0 (j.pass waits b s).2 := by
  rcases hrx : j.pRxData with _ | rx
  · rw [pass_of_none hrx]
    exact h.fill
  · rw [pass_of_some hrx]
    exact h.fill.spiPioRead

theorem pass_advances :
    (service j.configureTransferMode b).Advances s.hw (j.pass waits b s).2.hw := by
  rcases hrx : j.pRxData with _ | rx
  · rw [pass_of_none hrx]
    exact fill_advances
  · rw [pass_of_some hrx]
    exact fill_advances.trans ((tick_advances waits).trans spiPioRead_advances)

/-- A pass reads a level, whichever buffers there are. -/
theorem pass_accesses : s.hw.accesses < (j.pass waits b s).2.hw.accesses := by
  rcases hrx : j.pRxData with _ | rx
  · have hmode := mode_of_none hrx
    obtain ⟨tx, htx⟩ := tx_of_mode (j := j) (by rw [hmode]; exact nofun)
    rw [pass_of_none hrx]
    unfold Job.fill
    rw [htx]
    exact spiPioWrite_advances.clock
  · rw [pass_of_some hrx]
    have hfill : s.hw.accesses ≤ (j.fill waits b s).2.hw.accesses := fill_advances.clock
    exact hfill.trans_lt spiPioRead_advances.clock

theorem shifted_le_fill (j : Job) (waits : Bool) (b : Bus) (s : Pio) :
    shifted j.configureTransferMode s.hw ≤
      shifted j.configureTransferMode (j.fill waits b s).2.hw := fill_advances.done

theorem shifted_le_pass (j : Job) (waits : Bool) (b : Bus) (s : Pio) :
    shifted j.configureTransferMode s.hw ≤
      shifted j.configureTransferMode (j.pass waits b s).2.hw := pass_advances.done

/-- It is the last if the receive buffer was full before, or if there is none, the transmit
buffer had been written. -/
theorem Inv.pass_ends_of_some {rx : Cells UInt8} (h : Inv j waits b 0 s)
    (hrx : j.pRxData = some rx) :
    (j.pass waits b s).1 ↔ j.size.toNat ≤ s.hw.popped * j.frame.nBytes := by
  have hat := h.fill.rx_at
  rw [fill_popped] at hat
  rw [pass_of_some hrx]
  simp only [beq_iff_eq]
  omega

theorem Inv.pass_ends_of_none (h : Inv j waits b 0 s) (hrx : j.pRxData = none) :
    (j.pass waits b s).1 ↔ j.size.toNat ≤ s.hw.pushed.length * j.frame.nBytes := by
  have hmode := mode_of_none hrx
  obtain ⟨tx, htx⟩ := tx_of_mode (j := j) (by rw [hmode]; exact nofun)
  rw [pass_of_none hrx, Job.fill, htx]
  simp only [beq_iff_eq]
  rw [h.tx_at]
  omega

end Invariant

end Job

end Edk2Rk3576.Spi
