import Edk2Rk3576.Lib.FairService
import Mathlib.Logic.Function.Iterate

/-!
# The FIFOs of the SPI controller

Between any two accesses to its registers the controller shifts as many words as it pleases. What it
does then is told by how often it tries to before each access.
-/

namespace Edk2Rk3576.Spi

def halSpiFifoLength : ℕ := 64

inductive XfmMode
  | xfmTr
  | xfmTo
  | xfmRo
  deriving DecidableEq

/-- The words on the receiving line, and how often the controller tries to shift one before each
access to a register. -/
structure Bus where
  line : ℕ → UInt16
  schedule : ℕ → ℕ

structure Controller where
  accesses : ℕ
  /-- What is left to be clocked when it only receives. -/
  toClock : ℕ
  txFifo : List ℕ
  rxFifo : List ℕ
  /-- What was written to TXDR, and what of it went out. -/
  pushed : List ℕ
  sent : List ℕ
  /-- How many words came in, were lost, and were read from RXDR. -/
  received : ℕ
  lost : ℕ
  popped : ℕ

section Controller

variable (waits : Bool) (mode : XfmMode) (b : Bus)

def receive (c : Controller) : Controller :=
  if c.rxFifo.length < halSpiFifoLength then
    { c with rxFifo := c.rxFifo ++ [(b.line c.received).toNat], received := c.received + 1 }
  else { c with received := c.received + 1, lost := c.lost + 1 }

/-- A word is shifted, if there is one. If the clock `waits`, it does so while a controller that
only receives has no room. -/
def shift (c : Controller) : Controller :=
  match mode with
  | .xfmTr =>
    match c.txFifo with
    | [] => c
    | w :: ws => receive b { c with txFifo := ws, sent := c.sent ++ [w] }
  | .xfmTo =>
    match c.txFifo with
    | [] => c
    | w :: ws => { c with txFifo := ws, sent := c.sent ++ [w] }
  | .xfmRo =>
    if c.toClock = 0 ∨ waits = true ∧ halSpiFifoLength ≤ c.rxFifo.length then c
    else receive b { c with toClock := c.toClock - 1 }

/-- What happens before an access. -/
def tick (c : Controller) : Controller :=
  let c' := (shift waits mode b)^[b.schedule c.accesses] c
  { c' with accesses := c.accesses + 1 }

def readTxflr (c : Controller) : ℕ × Controller :=
  let c := tick waits mode b c
  (c.txFifo.length, c)

def writeTxdr (w : ℕ) (c : Controller) : Controller :=
  let c := tick waits mode b c
  { c with
    pushed := c.pushed ++ [w]
    txFifo := if c.txFifo.length < halSpiFifoLength then c.txFifo ++ [w] else c.txFifo }

def readRxflr (c : Controller) : ℕ × Controller :=
  let c := tick waits mode b c
  (c.rxFifo.length, c)

/-- An empty FIFO reads as zero. -/
def readRxdr (c : Controller) : ℕ × Controller :=
  let c := tick waits mode b c
  (c.rxFifo.headD 0, { c with rxFifo := c.rxFifo.tail, popped := c.popped + 1 })

end Controller

section Invariant

variable (waits : Bool) {mode : XfmMode} {b : Bus} {total : ℕ} {c : Controller}

/-- What came in has been read, is in the FIFO or is lost; what is in the FIFO is what the line had
after what was read, if nothing is lost. -/
structure FifoInv (b : Bus) (c : Controller) : Prop where
  pushed : c.pushed = c.sent ++ c.txFifo
  tx_le : c.txFifo.length ≤ halSpiFifoLength
  rx_le : c.rxFifo.length ≤ halSpiFifoLength
  count : c.popped + c.rxFifo.length + c.lost = c.received
  words : c.lost = 0 →
    c.rxFifo = (List.range c.rxFifo.length).map fun k => (b.line (c.popped + k)).toNat

/-- How many words came in. -/
def Came (total : ℕ) : XfmMode → Controller → Prop
  | .xfmTr, c => c.received = c.sent.length
  | .xfmTo, c => c.received = 0
  | .xfmRo, c => c.received + c.toClock = total

theorem FifoInv.receive (h : FifoInv b c) : FifoInv b (receive b c) := by
  have hcount := h.count
  unfold Spi.receive
  split_ifs with hroom
  · refine ⟨h.pushed, h.tx_le, by simpa using Nat.succ_le_of_lt hroom, ?_, fun hlost => ?_⟩
    · simp only [List.length_append, List.length_singleton]
      omega
    · simp only at hlost
      have hnext : c.received = c.popped + c.rxFifo.length := by omega
      simp only [List.length_append, List.length_singleton, List.range_succ, List.map_append,
        List.map_singleton, ← hnext]
      rw [← h.words hlost]
  · refine ⟨h.pushed, h.tx_le, h.rx_le, ?_, fun hlost => ?_⟩
    · simp only
      omega
    · exact absurd hlost (Nat.succ_ne_zero _)

theorem receive_received : (receive b c).received = c.received + 1 := by
  unfold receive
  split_ifs <;> rfl

theorem receive_sent : (receive b c).sent = c.sent := by
  unfold receive
  split_ifs <;> rfl

theorem receive_toClock : (receive b c).toClock = c.toClock := by
  unfold receive
  split_ifs <;> rfl

theorem FifoInv.send {w : ℕ} {ws : List ℕ} (h : FifoInv b c) (htx : c.txFifo = w :: ws) :
    FifoInv b { c with txFifo := ws, sent := c.sent ++ [w] } where
  pushed := by
    have := h.pushed
    rw [htx] at this
    simpa using this
  tx_le := by
    have := h.tx_le
    rw [htx, List.length_cons] at this
    simp only
    omega
  rx_le := h.rx_le
  count := h.count
  words := h.words

/-- What a shift does: nothing, when there is nothing to shift; and otherwise, to which lists. -/
theorem shift_inv (h : FifoInv b c) (hcame : Came total mode c) :
    FifoInv b (shift waits mode b c) ∧ Came total mode (shift waits mode b c) := by
  cases mode with
  | xfmTr =>
    unfold shift
    rcases htx : c.txFifo with _ | ⟨w, ws⟩
    · exact ⟨h, hcame⟩
    · refine ⟨(h.send htx).receive, ?_⟩
      simp only [Came] at hcame ⊢
      rw [receive_received, receive_sent]
      simp [hcame]
  | xfmTo =>
    unfold shift
    rcases htx : c.txFifo with _ | ⟨w, ws⟩
    · exact ⟨h, hcame⟩
    · exact ⟨h.send htx, hcame⟩
  | xfmRo =>
    simp only [shift]
    split_ifs with hnone
    · exact ⟨h, hcame⟩
    · refine ⟨FifoInv.receive ⟨h.pushed, h.tx_le, h.rx_le, h.count, h.words⟩, ?_⟩
      simp only [Came] at hcame ⊢
      rw [receive_received, receive_toClock]
      simp only
      omega

/-- What the shifts before an access leave as it is, and which way they change the rest. -/
structure Shifts (c c' : Controller) : Prop where
  accesses : c'.accesses = c.accesses
  pushed : c'.pushed = c.pushed
  popped : c'.popped = c.popped
  tx : c'.txFifo.length ≤ c.txFifo.length
  rx : c.rxFifo.length ≤ c'.rxFifo.length
  sent : c.sent.length ≤ c'.sent.length
  received : c.received ≤ c'.received
  lost : c.lost ≤ c'.lost

theorem Shifts.refl (c : Controller) : Shifts c c :=
  ⟨rfl, rfl, rfl, le_rfl, le_rfl, le_rfl, le_rfl, le_rfl⟩

theorem Shifts.trans {c' c'' : Controller} (h : Shifts c c') (h' : Shifts c' c'') :
    Shifts c c'' where
  accesses := h'.accesses.trans h.accesses
  pushed := h'.pushed.trans h.pushed
  popped := h'.popped.trans h.popped
  tx := h'.tx.trans h.tx
  rx := h.rx.trans h'.rx
  sent := h.sent.trans h'.sent
  received := h.received.trans h'.received
  lost := h.lost.trans h'.lost

theorem shifts_receive : Shifts c (receive b c) := by
  unfold receive
  split_ifs
  · refine ⟨rfl, rfl, rfl, le_rfl, ?_, le_rfl, Nat.le_succ _, le_rfl⟩
    rw [List.length_append]
    exact Nat.le_add_right _ _
  · exact ⟨rfl, rfl, rfl, le_rfl, le_rfl, le_rfl, Nat.le_succ _, Nat.le_succ _⟩

theorem shifts_send {w : ℕ} {ws : List ℕ} (htx : c.txFifo = w :: ws) :
    Shifts c { c with txFifo := ws, sent := c.sent ++ [w] } := by
  refine ⟨rfl, rfl, rfl, ?_, le_rfl, ?_, le_rfl, le_rfl⟩
  · rw [htx]
    exact Nat.le_succ _
  · rw [List.length_append]
    exact Nat.le_add_right _ _

theorem shifts_shift : Shifts c (shift waits mode b c) := by
  cases mode with
  | xfmTr =>
    unfold shift
    rcases htx : c.txFifo with _ | ⟨w, ws⟩
    · exact .refl c
    · exact (shifts_send htx).trans shifts_receive
  | xfmTo =>
    unfold shift
    rcases htx : c.txFifo with _ | ⟨w, ws⟩
    · exact .refl c
    · exact shifts_send htx
  | xfmRo =>
    simp only [shift]
    split_ifs
    · exact .refl c
    · have hclock : Shifts c { c with toClock := c.toClock - 1 } :=
        ⟨rfl, rfl, rfl, le_rfl, le_rfl, le_rfl, le_rfl, le_rfl⟩
      exact hclock.trans shifts_receive

theorem shifts_iterate (m : ℕ) : Shifts c ((shift waits mode b)^[m] c) := by
  induction m generalizing c with
  | zero => exact .refl c
  | succ m ih => exact (shifts_shift waits).trans ih

theorem tick_pushed : (tick waits mode b c).pushed = c.pushed := (shifts_iterate waits _).pushed

theorem tick_popped : (tick waits mode b c).popped = c.popped := (shifts_iterate waits _).popped

theorem tick_tx : (tick waits mode b c).txFifo.length ≤ c.txFifo.length :=
  (shifts_iterate waits _).tx

theorem tick_rx : c.rxFifo.length ≤ (tick waits mode b c).rxFifo.length :=
  (shifts_iterate waits _).rx

theorem tick_lost_le : c.lost ≤ (tick waits mode b c).lost := (shifts_iterate waits _).lost

theorem writeTxdr_pushed {w : ℕ} : (writeTxdr waits mode b w c).pushed = c.pushed ++ [w] :=
  congrArg (· ++ [w]) (tick_pushed waits)

theorem writeTxdr_tx {w : ℕ} :
    (writeTxdr waits mode b w c).txFifo.length ≤ (tick waits mode b c).txFifo.length + 1 := by
  simp only [writeTxdr]
  split_ifs
  · rw [List.length_append, List.length_singleton]
  · exact Nat.le_succ _

theorem readRxdr_popped : (readRxdr waits mode b c).2.popped = c.popped + 1 :=
  congrArg (· + 1) (tick_popped waits)

theorem readRxdr_rx : c.rxFifo.length ≤ (readRxdr waits mode b c).2.rxFifo.length + 1 := by
  have : c.rxFifo.length ≤ (tick waits mode b c).rxFifo.length := tick_rx waits
  simp only [readRxdr, List.length_tail]
  omega

structure HwInv (total : ℕ) (mode : XfmMode) (b : Bus) (c : Controller) : Prop where
  fifo : FifoInv b c
  came : Came total mode c

theorem HwInv.shifts (h : HwInv total mode b c) (m : ℕ) :
    HwInv total mode b ((shift waits mode b)^[m] c) := by
  induction m generalizing c with
  | zero => exact h
  | succ m ih =>
    obtain ⟨hfifo, hcame⟩ := shift_inv waits h.fifo h.came
    exact ih ⟨hfifo, hcame⟩

theorem HwInv.tick (h : HwInv total mode b c) : HwInv total mode b (tick waits mode b c) := by
  obtain ⟨hfifo, hcame⟩ := h.shifts waits (b.schedule c.accesses)
  refine ⟨⟨hfifo.pushed, hfifo.tx_le, hfifo.rx_le, hfifo.count, hfifo.words⟩, ?_⟩
  cases mode <;> exact hcame

theorem HwInv.writeTxdr (h : HwInv total mode b c) (w : ℕ)
    (hroom : c.txFifo.length < halSpiFifoLength) :
    HwInv total mode b (writeTxdr waits mode b w c) := by
  obtain ⟨hfifo, hcame⟩ := h.tick waits
  have hroom' : (Spi.tick waits mode b c).txFifo.length < halSpiFifoLength :=
    (tick_tx waits).trans_lt hroom
  refine ⟨⟨?_, ?_, hfifo.rx_le, hfifo.count, hfifo.words⟩, ?_⟩
  · simp only [Spi.writeTxdr]
    rw [if_pos hroom', hfifo.pushed, List.append_assoc]
  · simp only [Spi.writeTxdr]
    rw [if_pos hroom', List.length_append, List.length_singleton]
    omega
  · cases mode <;> exact hcame

theorem HwInv.readRxdr (h : HwInv total mode b c) (hsome : 0 < c.rxFifo.length) :
    HwInv total mode b (readRxdr waits mode b c).2 := by
  obtain ⟨hfifo, hcame⟩ := h.tick waits
  have hsome' : 0 < (Spi.tick waits mode b c).rxFifo.length :=
    hsome.trans_le (tick_rx waits)
  have hcount := hfifo.count
  have hle := hfifo.rx_le
  have hwords := hfifo.words
  refine ⟨⟨hfifo.pushed, hfifo.tx_le, ?_, ?_, fun hlost => ?_⟩, ?_⟩
  · simp only [Spi.readRxdr, List.length_tail]
    omega
  · simp only [Spi.readRxdr, List.length_tail]
    omega
  · have hw := hwords hlost
    simp only [Spi.readRxdr, List.length_tail]
    rcases hrx : (Spi.tick waits mode b c).rxFifo with _ | ⟨w, ws⟩
    · rw [hrx] at hsome'
      cases hsome'
    · rw [hrx, List.length_cons, List.range_succ_eq_map, List.map_cons, List.map_map] at hw
      rw [List.tail_cons, List.length_cons, Nat.add_sub_cancel, (List.cons.inj hw).2,
        List.length_map, List.length_range]
      refine List.map_congr_left fun k _ => ?_
      simp only [Function.comp, Nat.add_assoc, Nat.add_comm 1 k]
  · cases mode <;> exact hcame

/-- The word that is read is the next of those on the line. -/
theorem HwInv.readRxdr_word (h : HwInv total mode b c) (hsome : 0 < c.rxFifo.length)
    (hlost : (Spi.readRxdr waits mode b c).2.lost = 0) :
    (Spi.readRxdr waits mode b c).1 = (b.line c.popped).toNat := by
  have hw := (h.tick waits).fifo.words hlost
  have hsome' : 0 < (Spi.tick waits mode b c).rxFifo.length :=
    hsome.trans_le (tick_rx waits)
  have hpopped : (Spi.tick waits mode b c).popped = c.popped := tick_popped waits
  simp only [Spi.readRxdr]
  rcases hrx : (Spi.tick waits mode b c).rxFifo with _ | ⟨w, ws⟩
  · rw [hrx] at hsome'
    cases hsome'
  · rw [hrx, List.length_cons, List.range_succ_eq_map, List.map_cons, hpopped] at hw
    exact (List.cons.inj hw).1

/-- How many words have been shifted. -/
def shifted : XfmMode → Controller → ℕ
  | .xfmRo, c => c.received
  | _, c => c.sent.length

/-- A word could be shifted, and would not be lost. -/
def Waiting : XfmMode → Controller → Prop
  | .xfmRo, c => c.toClock ≠ 0 ∧ c.rxFifo.length < halSpiFifoLength
  | _, c => c.txFifo ≠ []

def service (mode : XfmMode) (b : Bus) : Service Controller where
  clock := Controller.accesses
  done := shifted mode
  Waiting := Waiting mode
  schedule := b.schedule

theorem Shifts.shifted (mode : XfmMode) {c' : Controller} (h : Shifts c c') : shifted mode c ≤ shifted mode c' := by
  cases mode with
  | xfmTr => exact h.sent
  | xfmTo => exact h.sent
  | xfmRo => exact h.received

theorem shifted_shift (h : Waiting mode c) :
    shifted mode (shift waits mode b c) = shifted mode c + 1 := by
  cases mode with
  | xfmTr =>
    simp only [shift, shifted]
    rcases htx : c.txFifo with _ | ⟨w, ws⟩
    · exact absurd htx h
    · simp [receive_sent]
  | xfmTo =>
    simp only [shift, shifted]
    rcases htx : c.txFifo with _ | ⟨w, ws⟩
    · exact absurd htx h
    · simp
  | xfmRo =>
    obtain ⟨hclock, hroom⟩ := h
    simp only [shift, shifted]
    rw [if_neg (by omega), receive_received]

theorem tick_advances : (service mode b).Advances c (tick waits mode b c) := by
  have hgrows : Waiting mode c → 0 < b.schedule c.accesses →
      shifted mode c < shifted mode (tick waits mode b c) := by
    intro hwait hpos
    obtain ⟨m, hm⟩ := Nat.exists_eq_succ_of_ne_zero hpos.ne'
    have hle : shifted mode (shift waits mode b c) ≤ shifted mode (tick waits mode b c) := by
      unfold tick
      rw [hm, Function.iterate_succ_apply]
      have : shifted mode (shift waits mode b c) ≤
          shifted mode ((shift waits mode b)^[m] (shift waits mode b c)) :=
        (shifts_iterate waits m).shifted mode
      cases mode <;> exact this
    rw [shifted_shift waits hwait] at hle
    exact hle
  refine ⟨Nat.le_succ _, ?_, fun hwait => ?_, fun hwait k hk hlt hpos => ?_⟩
  · have : shifted mode c ≤ shifted mode ((shift waits mode b)^[b.schedule c.accesses] c) :=
      (shifts_iterate waits _).shifted mode
    cases mode <;> exact this
  · rcases Nat.eq_zero_or_pos (b.schedule c.accesses) with hzero | hpos
    · refine .inr ?_
      simp only [service, tick] at hwait ⊢
      rw [hzero]
      cases mode <;> exact hwait
    · exact .inl (hgrows hwait hpos)
  · obtain rfl : k = c.accesses := by
      change c.accesses ≤ k at hk
      change k < c.accesses + 1 at hlt
      omega
    exact hgrows hwait hpos

theorem writeTxdr_advances {w : ℕ} :
    (service mode b).Advances c (writeTxdr waits mode b w c) := by
  refine (tick_advances waits).trans (.of_eq rfl ?_ fun h => ?_)
  · cases mode <;> rfl
  · cases mode with
    | xfmRo => exact h
    | _ =>
      simp only [service, Waiting, writeTxdr] at h ⊢
      split_ifs
      · simp
      · exact h

theorem readRxdr_advances : (service mode b).Advances c (readRxdr waits mode b c).2 := by
  refine (tick_advances waits).trans (.of_eq rfl ?_ fun h => ?_)
  · cases mode <;> rfl
  · cases mode with
    | xfmRo =>
      refine ⟨h.1, ?_⟩
      have := h.2
      simp only [readRxdr, List.length_tail]
      omega
    | _ => exact h

/-- What comes in has room. -/
def Room (waits : Bool) (total : ℕ) : XfmMode → Controller → Prop
  | .xfmTr, c => c.pushed.length ≤ halSpiFifoLength
  | .xfmTo, _ => True
  | .xfmRo, _ => waits = true ∨ total ≤ halSpiFifoLength

theorem receive_lost (h : c.rxFifo.length < halSpiFifoLength) : (receive b c).lost = c.lost := by
  unfold receive
  rw [if_pos h]

theorem shift_lost (h : HwInv total mode b c) (hroom : Room waits total mode c) :
    (shift waits mode b c).lost = c.lost := by
  have hcount := h.fifo.count
  have hcame := h.came
  cases mode with
  | xfmTr =>
    unfold shift
    rcases htx : c.txFifo with _ | ⟨w, ws⟩
    · rfl
    · have hpushed := congrArg List.length h.fifo.pushed
      rw [htx, List.length_append, List.length_cons] at hpushed
      simp only [Came] at hcame
      simp only [Room] at hroom
      exact receive_lost (show c.rxFifo.length < _ by omega)
  | xfmTo =>
    unfold shift
    rcases htx : c.txFifo with _ | ⟨w, ws⟩ <;> rfl
  | xfmRo =>
    simp only [shift]
    split_ifs with hnone
    · rfl
    · simp only [Came] at hcame
      have hlt : c.rxFifo.length < halSpiFifoLength := by
        rcases hroom with hwaits | hle
        · exact not_le.1 fun hfull => hnone (.inr ⟨hwaits, hfull⟩)
        · omega
      exact receive_lost hlt

theorem tick_lost (h : HwInv total mode b c) (hroom : Room waits total mode c) :
    (tick waits mode b c).lost = c.lost := by
  have hall : ∀ m c, HwInv total mode b c → Room waits total mode c →
      ((shift waits mode b)^[m] c).lost = c.lost := by
    intro m
    induction m with
    | zero => exact fun _ _ _ => rfl
    | succ m ih =>
      intro c h hroom
      obtain ⟨hfifo, hcame⟩ := shift_inv waits h.fifo h.came
      have hroom' : Room waits total mode (shift waits mode b c) := by
        cases mode with
        | xfmTr =>
          simp only [Room]
          rw [(shifts_shift waits).pushed]
          exact hroom
        | _ => exact hroom
      exact (ih _ ⟨hfifo, hcame⟩ hroom').trans (shift_lost waits h hroom)
  exact hall _ c h hroom

end Invariant

end Edk2Rk3576.Spi
