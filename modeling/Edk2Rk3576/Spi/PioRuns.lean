import Edk2Rk3576.Spi.Pio

/-!
# The end of a programmed transfer

The room for what is sent is that of the transmit FIFO. With two FIFOs in use, what comes in for it
has room only if all of the frames fit in one.
-/

namespace Edk2Rk3576.Spi.Job

section Runs

variable {j : Job} {waits : Bool} {b : Bus} {d m : ℕ} {s : Pio}

/-! ### What has been shifted -/

theorem Inv.shifted_eq (h : Inv j waits b d s) {rx : Cells UInt8} (hrx : j.pRxData = some rx) :
    shifted j.configureTransferMode s.hw = s.hw.received := by
  have hcame := h.hw.came
  rcases hmode : j.configureTransferMode with _ | _ | _ <;> rw [hmode] at hcame
  · exact hcame.symm
  · exact absurd hmode (mode_of_some hrx)
  · rfl

theorem Inv.pushed_length (h : Inv j waits b d s) :
    s.hw.pushed.length = s.hw.sent.length + s.hw.txFifo.length := by
  rw [h.hw.fifo.pushed, List.length_append]

/-- No more words are shifted than there are frames. -/
theorem Inv.shifted_le (h : Inv j waits b d s) (hfits : j.Fits waits) :
    shifted j.configureTransferMode s.hw ≤ j.frames := by
  have hcame := h.hw.came
  have hpushed := h.pushed_length
  have hend := h.tx_end
  have hclocked := clocked_eq_frames hfits
  rcases hmode : j.configureTransferMode with _ | _ | _
  · simp only [shifted]
    omega
  · simp only [shifted]
    omega
  · rw [hmode] at hcame
    simp only [Came] at hcame
    simp only [shifted]
    rw [← hclocked hmode]
    omega

theorem fill_pass_advances : (service j.configureTransferMode b).Advances
    (j.fill waits b s).2.hw (j.pass waits b s).2.hw := by
  rcases hrx : j.pRxData with _ | rx
  · rw [pass_of_none hrx]
    exact .refl _
  · rw [pass_of_some hrx]
    exact (tick_advances waits).trans spiPioRead_advances

/-- With the transmit FIFO empty, a frame is written. -/
theorem Inv.feeds_tx (h : Inv j waits b 0 s) (hmode : j.configureTransferMode ≠ .xfmRo)
    (hempty : s.hw.txFifo = []) (hlt : s.hw.sent.length < j.frames) :
    s.hw.sent.length < (j.fill waits b s).2.hw.sent.length ∨ (j.fill waits b s).2.hw.txFifo ≠ [] := by
  obtain ⟨tx, htx⟩ := tx_of_mode hmode
  have hpushed := h.spiPioWrite_pushed tx
  have hempty' : (Spi.tick waits j.configureTransferMode b s.hw).txFifo.length
      ≤ s.hw.txFifo.length := tick_tx waits
  have hlength := h.pushed_length
  have hlength' := h.fill.pushed_length
  rw [hempty, List.length_nil] at hempty' hlength
  by_cases hnil : (j.fill waits b s).2.hw.txFifo = []
  · refine .inl ?_
    rw [hnil, List.length_nil] at hlength'
    simp only [Job.fill, htx] at hlength' ⊢
    simp only [halSpiFifoLength] at hpushed
    omega
  · exact .inr hnil

/-- With the receive FIFO full, a frame is read. -/
theorem Inv.feeds_rx (h : Inv j waits b 0 s) (hfits : j.Fits waits)
    (hmode : j.configureTransferMode = .xfmRo) (hfull : halSpiFifoLength ≤ s.hw.rxFifo.length)
    (hlt : s.hw.received < j.frames) :
    s.hw.received < (j.pass waits b s).2.hw.received ∨
      (j.pass waits b s).2.hw.toClock ≠ 0 ∧
        (j.pass waits b s).2.hw.rxFifo.length < halSpiFifoLength := by
  obtain ⟨rx, hrx⟩ := rx_of_mode (j := j) (by rw [hmode]; exact nofun)
  have hpopped := h.spiPioRead_popped
  have hfull' : s.hw.rxFifo.length
      ≤ (Spi.tick waits j.configureTransferMode b s.hw).rxFifo.length := tick_rx waits
  have hcount := h.hw.fifo.count
  have h' := h.pass
  have hcount' := h'.hw.fifo.count
  have hcame' := h'.hw.came
  have hlost := h.lossless hfits
  have hrx_le := h.hw.fifo.rx_le
  rw [hmode, Came, clocked_eq_frames hfits hmode] at hcame'
  have hpass : (j.pass waits b s).2 = j.spiPioRead waits b j.frame.nBytes s := by
    rw [pass_of_some hrx, fill_of_mode hmode]
  rw [hpass] at hcount' hcame' ⊢
  simp only [halSpiFifoLength] at hfull hrx_le ⊢
  by_cases hmore : s.hw.received < (j.spiPioRead waits b j.frame.nBytes s).hw.received
  · exact .inl hmore
  · refine .inr ⟨?_, ?_⟩ <;> omega

/-- While not all the words have been shifted, a pass leaves one that waits, or has shifted one. -/
theorem Inv.feeds (h : Inv j waits b 0 s) (hfits : j.Fits waits)
    (hlt : shifted j.configureTransferMode s.hw < j.frames) :
    shifted j.configureTransferMode s.hw <
        shifted j.configureTransferMode (j.pass waits b s).2.hw ∨
      Waiting j.configureTransferMode (j.pass waits b s).2.hw := by
  by_cases hwait : Waiting j.configureTransferMode s.hw
  · exact pass_advances.stays hwait
  rcases hmode : j.configureTransferMode with _ | _ | _
  case xfmRo =>
    rw [hmode] at hwait hlt
    have hcame := h.hw.came
    rw [hmode, Came, clocked_eq_frames hfits hmode] at hcame
    simp only [shifted] at hlt
    refine h.feeds_rx hfits hmode (not_lt.1 fun hroom => hwait ⟨?_, hroom⟩) hlt
    omega
  all_goals
    rw [hmode] at hwait hlt
    have hempty : s.hw.txFifo = [] := not_not.1 hwait
    have hne : j.configureTransferMode ≠ .xfmRo := by
      rw [hmode]
      rintro ⟨⟩
    have hfill := shifted_le_fill j waits b s
    have hstays : (service j.configureTransferMode b).Advances (j.fill waits b s).2.hw
        (j.pass waits b s).2.hw := fill_pass_advances
    have hgrown := hstays.done
    have hwaits := hstays.stays
    simp only [service, hmode, shifted, Waiting] at hlt hfill hgrown hwaits ⊢
    rcases h.feeds_tx hne hempty hlt with hsent | hwaiting
    · exact .inl (hsent.trans_le hgrown)
    · exact (hwaits hwaiting).imp_left fun hmore => by omega

/-! ### The end -/

/-- Once all words have been shifted, the next pass but one is the last. -/
theorem Inv.ends_after (h : Inv j waits b 0 s) (hfits : j.Fits waits)
    (hall : j.frames ≤ shifted j.configureTransferMode s.hw) :
    (j.pass waits b (j.pass waits b s).2).1 := by
  have hwhole : j.size.toNat = j.frames * j.frame.nBytes :=
    (Nat.div_mul_cancel (Nat.dvd_of_mod_eq_zero hfits.1)).symm
  rcases hrx : j.pRxData with _ | rx
  · rw [h.pass.pass_ends_of_none hrx, hwhole]
    refine Nat.mul_le_mul_right _ (hall.trans ?_)
    have hle := shifted_le_pass j waits b s
    have hlength := h.pass.pushed_length
    simp only [mode_of_none hrx, shifted] at hle ⊢
    omega
  · rw [h.pass.pass_ends_of_some hrx, hwhole, pass_of_some hrx]
    simp only
    rw [h.fill.spiPioRead_popped]
    refine Nat.mul_le_mul_right _ ?_
    have hticked := h.fill.tick
    have hcount := hticked.hw.fifo.count
    have hlost := hticked.lossless hfits
    have hshifted := hticked.shifted_eq hrx
    have hfill := shifted_le_fill j waits b s
    have htick : shifted j.configureTransferMode (j.fill waits b s).2.hw ≤ shifted
        j.configureTransferMode (Spi.tick waits j.configureTransferMode b (j.fill waits b s).2.hw) :=
      (tick_advances waits).done
    simp only [tick_popped] at hcount
    simp only at hshifted hlost
    omega

/-- The passes, as they would go on without an end. -/
def passes (j : Job) (waits : Bool) (b : Bus) (i : ℕ) : Pio :=
  (fun s => (j.pass waits b s).2)^[i] j.spiConfigure

theorem passes_succ {i : ℕ} :
    j.passes waits b (i + 1) = (j.pass waits b (j.passes waits b i)).2 :=
  Function.iterate_succ_apply' _ _ _

theorem passes_inv (i : ℕ) : Inv j waits b 0 (j.passes waits b i) := by
  induction i with
  | zero => exact start_inv
  | succ i ih =>
    rw [passes_succ]
    exact ih.pass

theorem transfer_inv (fuel : ℕ) : Inv j waits b 0 (j.spiPioTransfer waits b fuel).2 :=
  retry_invariant start_inv fun _ h => h.pass

theorem ends_of_shifted (hfits : j.Fits waits) {i : ℕ}
    (hall : j.frames ≤ shifted j.configureTransferMode (j.passes waits b i).hw) :
    ∃ fuel, (j.spiPioTransfer waits b fuel).1 := by
  refine ⟨i + 1 + 1, retry_of_iterate ?_⟩
  have hends := (passes_inv i).ends_after hfits hall
  rw [← passes_succ] at hends
  exact hends

/-- Under a fair schedule all words are shifted. -/
theorem all_shifted (hfits : j.Fits waits) (hfair : FairSchedule b.schedule) :
    ∃ i, j.frames ≤ shifted j.configureTransferMode (j.passes waits b i).hw := by
  refine @Service.all_served _ (service j.configureTransferMode b)
    (fun i => (j.passes waits b i).hw) (fun i => ?_) (fun i => ?_) hfair _ (fun i hlt => ?_) <;>
    simp only [passes_succ]
  · exact pass_advances
  · exact pass_accesses
  · exact (passes_inv i).feeds hfits hlt

theorem Inv.fill_pushed (h : Inv j waits b 0 s) :
    s.hw.pushed.length ≤ (j.fill waits b s).2.hw.pushed.length := by
  unfold Job.fill
  cases j.pTxData with
  | none => exact le_rfl
  | some tx =>
    simp only
    rw [h.spiPioWrite_pushed]
    exact Nat.le_add_right _ _

theorem popped_le_pass (h : Inv j waits b 0 s) : s.hw.popped ≤ (j.pass waits b s).2.hw.popped := by
  rcases hrx : j.pRxData with _ | rx
  · rw [pass_of_none hrx]
    exact fill_popped.ge
  · rw [pass_of_some hrx]
    simp only
    rw [h.fill.spiPioRead_popped, fill_popped]
    exact Nat.le_add_right _ _

/-- The last pass leaves every word that came in read, -/
theorem Inv.last_popped {rx : Cells UInt8} (h : Inv j waits b 0 s) (hfits : j.Fits waits)
    (hlast : (j.pass waits b s).1) (hrx : j.pRxData = some rx) :
    (j.pass waits b s).2.hw.popped = j.frames ∧ (j.pass waits b s).2.hw.received = j.frames := by
  have hwhole : j.size.toNat = j.frames * j.frame.nBytes :=
    (Nat.div_mul_cancel (Nat.dvd_of_mod_eq_zero hfits.1)).symm
  rw [h.pass_ends_of_some hrx, hwhole] at hlast
  have hall := Nat.le_of_mul_le_mul_right hlast j.frame.nBytes_pos
  have hpopped := popped_le_pass h
  have hend := h.pass.rx_end
  have hcount := h.pass.hw.fifo.count
  have hshifted := h.pass.shifted_le hfits
  rw [h.pass.shifted_eq hrx] at hshifted
  omega

/-- and every frame written. -/
theorem Inv.last_pushed {tx : Cells UInt8} (h : Inv j waits b 0 s) (hfits : j.Fits waits)
    (hlast : (j.pass waits b s).1) (htx : j.pTxData = some tx) :
    (j.pass waits b s).2.hw.pushed.length = j.frames := by
  have hend := h.pass.tx_end
  rcases hrx : j.pRxData with _ | rx
  · have hwhole : j.size.toNat = j.frames * j.frame.nBytes :=
      (Nat.div_mul_cancel (Nat.dvd_of_mod_eq_zero hfits.1)).symm
    rw [h.pass_ends_of_none hrx, hwhole] at hlast
    have hall := Nat.le_of_mul_le_mul_right hlast j.frame.nBytes_pos
    rw [pass_of_none hrx] at hend ⊢
    exact le_antisymm hend (hall.trans h.fill_pushed)
  · have hmode : j.configureTransferMode = .xfmTr := by
      unfold configureTransferMode
      rw [htx, hrx]
    obtain ⟨-, hreceived⟩ := h.last_popped hfits hlast hrx
    have hshifted := h.pass.shifted_eq hrx
    have hlength := h.pass.pushed_length
    simp only [hmode, shifted] at hshifted
    omega

theorem transfer_last (hended : (j.spiPioTransfer waits b m).1) : ∃ s, Inv j waits b 0 s ∧
    (j.pass waits b s).1 ∧ j.spiPioTransfer waits b m = j.pass waits b s := by
  obtain ⟨s, hinv, heq⟩ := retry_last hended start_inv fun _ h => h.pass
  exact ⟨s, hinv, by rw [← heq]; exact hended, heq⟩

theorem pioOk_of_fits (hfits : j.Fits waits) : j.PioOk waits where
  ends b hruns := by
    rcases hruns with hfair | ⟨fuel, hall⟩
    · obtain ⟨i, hi⟩ := all_shifted hfits hfair
      exact ends_of_shifted hfits hi
    · by_cases hended : (j.spiPioTransfer waits b fuel).1
      · exact ⟨fuel, hended⟩
      · rw [spiPioTransfer, retry_eq_iterate hended] at hall
        exact ends_of_shifted hfits hall
  pushes b fuel tx hended htx := by
    obtain ⟨s, hinv, hlast, heq⟩ := transfer_last hended
    rw [heq, hinv.pass.pushed tx htx, hinv.last_pushed hfits hlast htx]
  stores b fuel rx hended hrx := by
    obtain ⟨s, hinv, hlast, heq⟩ := transfer_last hended
    obtain ⟨hpopped, hreceived⟩ := hinv.last_popped hfits hlast hrx
    have hwhole : j.frames * j.frame.nBytes = j.size.toNat :=
      Nat.div_mul_cancel (Nat.dvd_of_mod_eq_zero hfits.1)
    rw [heq, hreceived, hwhole]
    refine ⟨rfl, fun k hk => hinv.pass.stored (hinv.pass.lossless hfits) k ?_⟩
    rwa [hpopped, hwhole]
  inside b fuel := by
    have hinv : Inv j waits b 0 (j.spiPioTransfer waits b fuel).2 := transfer_inv fuel
    refine ⟨hinv.inside, fun k hk => hinv.kept k (le_trans ?_ hk)⟩
    exact (Nat.mul_le_mul_right _ hinv.rx_end).trans (Nat.div_mul_le_self _ _)
  keeps b fuel _ := (transfer_inv fuel).lossless hfits

/-! ### What goes wrong otherwise -/

/-- A word is tried before each access. -/
def oneEach : Bus := ⟨fun _ => 0, fun _ => 1⟩

/-- A buffer that ends within a frame is never at its end. -/
theorem fits_of_ends_whole (h : j.PioOk waits) : j.size.toNat % j.frame.nBytes = 0 := by
  obtain ⟨fuel, hended⟩ := h.ends oneEach (.inl fun k => ⟨k, le_rfl, Nat.one_pos⟩)
  obtain ⟨s, hinv, hlast, -⟩ := transfer_last hended
  have hwhole : ∀ i ≤ j.frames, j.size.toNat ≤ i * j.frame.nBytes →
      j.size.toNat % j.frame.nBytes = 0 := by
    intro i hi hle
    have hat : j.size.toNat = j.frames * j.frame.nBytes := le_antisymm
      (hle.trans (Nat.mul_le_mul_right _ hi)) (Nat.div_mul_le_self _ _)
    rw [hat, Nat.mul_mod_left]
  rcases hrx : j.pRxData with _ | rx
  · exact hwhole _ hinv.tx_end ((hinv.pass_ends_of_none hrx).1 hlast)
  · exact hwhole _ hinv.rx_end ((hinv.pass_ends_of_some hrx).1 hlast)

theorem pushed_read {n : ℕ} : (j.spiPioRead waits b n s).hw.pushed = s.hw.pushed :=
  (spiPioRead_rel (R := fun c c' => c'.pushed = c.pushed) (fun _ => rfl) (fun h h' => h'.trans h)
    fun _ => tick_pushed waits).trans (tick_pushed waits)

theorem lost_le_read {n : ℕ} : (tick waits j.configureTransferMode b s.hw).lost ≤
    (j.spiPioRead waits b n s).hw.lost :=
  spiPioRead_rel (R := fun c c' => c.lost ≤ c'.lost) (fun _ => le_rfl) le_trans
    fun _ => tick_lost_le waits

theorem lost_le_fill : s.hw.lost ≤ (j.fill waits b s).2.hw.lost := by
  unfold Job.fill
  cases j.pTxData with
  | none => exact le_rfl
  | some tx =>
    exact (tick_lost_le waits).trans (spiPioWrite_rel (R := fun c c' => c.lost ≤ c'.lost)
      (fun _ => le_rfl) le_trans fun _ _ => tick_lost_le waits)

theorem lost_le_pass : s.hw.lost ≤ (j.pass waits b s).2.hw.lost := by
  rcases hrx : j.pRxData with _ | rx
  · rw [pass_of_none hrx]
    exact lost_le_fill
  · rw [pass_of_some hrx]
    exact lost_le_fill.trans ((tick_lost_le waits).trans lost_le_read)

/-- To receive nothing is to ask for `2 ^ 32` frames. -/
theorem pos_of_receives (h : j.PioOk waits) (hmode : j.configureTransferMode = .xfmRo) :
    0 < j.size := by
  by_contra hzero
  have hsize : j.size.toNat = 0 := Nat.eq_zero_of_not_pos fun hpos =>
    hzero (UInt32.lt_iff_toNat_lt.2 hpos)
  obtain ⟨rx, hrx⟩ := rx_of_mode (j := j) (by rw [hmode]; exact nofun)
  have hinv : Inv j waits oneEach 0 j.spiConfigure := start_inv
  have hlast := (hinv.pass_ends_of_some hrx).2 (hsize.trans_le (Nat.zero_le _))
  have hone : j.spiPioTransfer waits oneEach 1 = j.pass waits oneEach j.spiConfigure :=
    if_pos hlast
  obtain ⟨hreceived, -⟩ := h.stores oneEach 1 rx (by rw [hone]; exact hlast) hrx
  rw [hone, hsize] at hreceived
  have hnone := (Nat.mul_eq_zero.1 hreceived).resolve_right j.frame.nBytes_pos.ne'
  have hwait : Waiting j.configureTransferMode j.spiConfigure.hw := by
    rw [hmode]
    refine ⟨?_, Nat.zero_lt_succ _⟩
    simp only [spiConfigure]
    rw [if_pos hmode]
    exact Nat.succ_ne_zero _
  have hadv : (service j.configureTransferMode oneEach).Advances j.spiConfigure.hw
      (j.pass waits oneEach j.spiConfigure).2.hw := pass_advances
  have hserved := hadv.serves hwait 0 le_rfl (pass_accesses (s := j.spiConfigure)) Nat.one_pos
  simp only [service] at hserved
  rw [hinv.pass.shifted_eq hrx, hnone] at hserved
  cases hserved

/-- Without a clock that waits, words come in as long as there are some to be clocked. -/
theorem iterate_shift_received {c : Controller} (h : m ≤ c.toClock) :
    ((shift false .xfmRo b)^[m] c).received = c.received + m := by
  induction m generalizing c with
  | zero => rfl
  | succ m ih =>
    have hshift : shift false .xfmRo b c = receive b { c with toClock := c.toClock - 1 } := by
      simp only [shift]
      rw [if_neg (by simp; omega)]
    rw [Function.iterate_succ_apply, ih (by rw [hshift, receive_toClock]; simp only; omega), hshift,
      receive_received]
    simp only
    omega

theorem tick_received {mode : XfmMode} {c : Controller} : (Spi.tick waits mode b c).received =
    ((shift waits mode b)^[b.schedule c.accesses] c).received := rfl

/-- 65 words come in before the first access. -/
def burst : Bus := ⟨fun _ => 0, fun k => if k = 0 then 65 else 1⟩

theorem burst_fair : FairSchedule burst.schedule := by
  refine fun k => ⟨k, le_rfl, ?_⟩
  simp only [burst]
  split_ifs <;> omega

/-- What a receiver loses it waits for without an end. -/
theorem room_of_receives (h : j.PioOk false) (hmode : j.configureTransferMode = .xfmRo)
    (hwhole : j.size.toNat % j.frame.nBytes = 0) (hpos : 0 < j.size) :
    j.frames ≤ halSpiFifoLength := by
  by_contra hlong
  simp only [halSpiFifoLength] at hlong
  obtain ⟨rx, hrx⟩ := rx_of_mode (j := j) (by rw [hmode]; exact nofun)
  have hclocked := clocked_eq hwhole hpos
  have hsize : j.size.toNat = j.frames * j.frame.nBytes :=
    (Nat.div_mul_cancel (Nat.dvd_of_mod_eq_zero hwhole)).symm
  have hstart : 0 < (j.pass false burst j.spiConfigure).2.hw.lost := by
    have hinv : Inv j false burst 0 j.spiConfigure := start_inv
    have hticked := hinv.tick.hw.fifo
    have hcount := hticked.count
    have hrx_le := hticked.rx_le
    have hreceived : (Spi.tick false j.configureTransferMode burst j.spiConfigure.hw).received =
        0 + 65 := by
      have hclock : 65 ≤ j.spiConfigure.hw.toClock := by
        simp only [spiConfigure]
        rw [if_pos hmode, hclocked]
        omega
      rw [hmode, tick_received, show burst.schedule j.spiConfigure.hw.accesses = 65 from rfl,
        iterate_shift_received hclock]
      rfl
    simp only [tick_popped, halSpiFifoLength] at hcount hrx_le
    rw [hreceived, show j.spiConfigure.hw.popped = 0 from rfl] at hcount
    have hlost : (Spi.tick false j.configureTransferMode burst j.spiConfigure.hw).lost ≤
        (j.pass false burst j.spiConfigure).2.hw.lost := by
      rw [pass_of_some hrx, fill_of_mode hmode]
      exact lost_le_read
    omega
  have hkeeps : ∀ s : Pio, s = j.spiConfigure ∨ 0 < s.hw.lost →
      0 < (j.pass false burst s).2.hw.lost := by
    rintro s (rfl | hlost)
    · exact hstart
    · exact hlost.trans_le lost_le_pass
  obtain ⟨fuel, hended⟩ := h.ends burst (.inl burst_fair)
  obtain ⟨s, ⟨hinv, hlost⟩, heq⟩ := retry_last
    (I := fun s => Inv j false burst 0 s ∧ (s = j.spiConfigure ∨ 0 < s.hw.lost)) hended
    ⟨start_inv, .inl rfl⟩ fun s hs => ⟨hs.1.pass, .inr (hkeeps s hs.2)⟩
  have hlast : (j.pass false burst s).1 := by
    rw [← heq]
    exact hended
  rw [hinv.pass_ends_of_some hrx, hsize] at hlast
  have hall := Nat.le_of_mul_le_mul_right hlast j.frame.nBytes_pos
  have hpopped := popped_le_pass hinv
  have hcount := hinv.pass.hw.fifo.count
  have hcame := hinv.pass.hw.came
  rw [hmode, Came, hclocked] at hcame
  have hpass := hkeeps s hlost
  omega

/-- Nothing is shifted before the first 66 accesses, and all there is before the others. -/
def held : Bus := ⟨fun _ => 0, fun k => if k < 66 then 0 else halSpiFifoLength⟩

theorem tick_held {mode : XfmMode} {c : Controller} (h : c.accesses < 66) :
    Spi.tick waits mode held c = { c with accesses := c.accesses + 1 } := by
  unfold Spi.tick
  rw [show held.schedule c.accesses = 0 from if_pos h]
  rfl

theorem iterate_pushFrame_held {tx : Cells UInt8} (h : s.hw.accesses + m ≤ 66) :
    ((j.pushFrame waits held tx)^[m] s).hw.sent = s.hw.sent ∧
      ((j.pushFrame waits held tx)^[m] s).hw.accesses = s.hw.accesses + m := by
  induction m generalizing s with
  | zero => exact ⟨rfl, rfl⟩
  | succ m ih =>
    have hone : (j.pushFrame waits held tx s).hw.sent = s.hw.sent ∧
        (j.pushFrame waits held tx s).hw.accesses = s.hw.accesses + 1 := by
      rw [pushFrame_hw, writeTxdr, tick_held (by omega)]
      exact ⟨rfl, rfl⟩
    obtain ⟨hsent, haccesses⟩ := ih (s := j.pushFrame waits held tx s) (by omega)
    rw [Function.iterate_succ_apply]
    exact ⟨hsent.trans hone.1, by omega⟩

theorem shift_txFifo {c : Controller} :
    (shift waits .xfmTr b c).txFifo.length = c.txFifo.length - 1 := by
  unfold shift
  rcases htx : c.txFifo with _ | ⟨w, ws⟩
  · rw [htx]
    rfl
  · simp only [receive]
    split_ifs <;> rfl

theorem tick_drains {c : Controller} (h : c.txFifo.length ≤ b.schedule c.accesses) :
    (Spi.tick waits .xfmTr b c).txFifo.length = 0 := by
  have hall : ∀ m c, ((shift waits .xfmTr b)^[m] c).txFifo.length = c.txFifo.length - m := by
    intro m
    induction m with
    | zero => exact fun _ => rfl
    | succ m ih =>
      intro c
      rw [Function.iterate_succ_apply, ih, shift_txFifo]
      omega
  exact (hall _ c).trans (by omega)

theorem Inv.tick_drains_held (h : Inv j waits held 0 s) (hmode : j.configureTransferMode = .xfmTr)
    (hlate : 66 ≤ s.hw.accesses) :
    (Spi.tick waits j.configureTransferMode held s.hw).txFifo.length = 0 := by
  rw [hmode]
  refine tick_drains (h.hw.fifo.tx_le.trans_eq ?_)
  exact (if_neg (by omega)).symm

/-- What 66 accesses leave, if nothing is shifted meanwhile: a transmit FIFO that is full. -/
theorem held_first (waits : Bool) {tx rx : Cells UInt8} (htx : j.pTxData = some tx) (hrx : j.pRxData = some rx)
    (hlong : halSpiFifoLength < j.frames) :
    66 ≤ (j.pass waits held j.spiConfigure).2.hw.accesses ∧
      halSpiFifoLength ≤ (j.pass waits held j.spiConfigure).2.hw.pushed.length ∧
      (j.pass waits held j.spiConfigure).2.hw.popped = 0 := by
  have hmode : j.configureTransferMode = .xfmTr := by
    unfold configureTransferMode
    rw [htx, hrx]
  have hinv : Inv j waits held 0 j.spiConfigure := start_inv
  have hlevel : (Spi.tick waits j.configureTransferMode held j.spiConfigure.hw).txFifo.length
      = 0 := by
    rw [tick_held (Nat.zero_lt_succ _)]
    rfl
  have hmax : (j.spiTxMax waits held j.spiConfigure).1 = halSpiFifoLength := by
    have hnone : j.spiConfigure.hw.pushed.length = 0 := rfl
    rw [hinv.spiTxMax_eq, hlevel, hnone]
    exact min_eq_right hlong.le
  have haccess : (j.spiTxMax waits held j.spiConfigure).2.hw.accesses = 1 := rfl
  have hnosent : (j.spiTxMax waits held j.spiConfigure).2.hw.sent = [] :=
    congrArg Controller.sent (tick_held (Nat.zero_lt_succ _))
  have hfill : (j.fill waits held j.spiConfigure).2 =
      (j.pushFrame waits held tx)^[halSpiFifoLength] (j.spiTxMax waits held j.spiConfigure).2 := by
    simp only [Job.fill, htx, Job.spiPioWrite, hmax]
  have hpush : (j.fill waits held j.spiConfigure).2.hw.sent = [] ∧
      (j.fill waits held j.spiConfigure).2.hw.accesses = 65 := by
    rw [hfill]
    have hlate : (j.spiTxMax waits held j.spiConfigure).2.hw.accesses + halSpiFifoLength = 65 := by
      rw [haccess, halSpiFifoLength]
    exact (iterate_pushFrame_held (by omega)).imp (·.trans hnosent) (·.trans hlate)
  obtain ⟨hsent, haccesses⟩ := hpush
  have hpushed : halSpiFifoLength ≤ (j.fill waits held j.spiConfigure).2.hw.pushed.length := by
    rw [hfill, iterate_pushFrame_pushed]
    exact Nat.le_add_left _ _
  have hempty : (Spi.tick waits j.configureTransferMode held
      (j.fill waits held j.spiConfigure).2.hw).rxFifo.length = 0 := by
    have hcount := hinv.fill.hw.fifo.count
    have hcame := hinv.fill.hw.came
    rw [hmode, Came, hsent, List.length_nil] at hcame
    rw [tick_held (by omega)]
    simp only
    omega
  rw [pass_of_some hrx]
  refine ⟨?_, ?_, ?_⟩ <;> simp only
  · have hclock : (j.fill waits held j.spiConfigure).2.hw.accesses + 1 ≤
        (j.spiPioRead waits held j.frame.nBytes (j.fill waits held j.spiConfigure).2).hw.accesses :=
      spiPioRead_advances.clock
    omega
  · rw [pushed_read]
    exact hpushed
  · rw [hinv.fill.spiPioRead_popped, fill_popped, hempty, Nat.min_zero]
    rfl

/-- What is sent has answers: 64 fill the receive FIFO before the first is read, and there is no
room for that of a frame more. -/
theorem room_of_exchanges (h : j.PioOk waits) (hmode : j.configureTransferMode = .xfmTr) :
    j.frames ≤ halSpiFifoLength := by
  by_contra hlong
  obtain ⟨tx, htx⟩ := tx_of_mode (j := j) (by rw [hmode]; exact nofun)
  obtain ⟨rx, hrx⟩ := rx_of_mode (j := j) (by rw [hmode]; exact nofun)
  obtain ⟨hlate, hpushed, hpopped⟩ := held_first waits htx hrx (not_le.1 hlong)
  have hinv : Inv j waits held 0 (j.pass waits held j.spiConfigure).2 := start_inv.pass
  have hmore : halSpiFifoLength < (j.fill waits held
      (j.pass waits held j.spiConfigure).2).2.hw.pushed.length := by
    simp only [Job.fill, htx]
    rw [hinv.spiPioWrite_pushed, hinv.tick_drains_held hmode hlate]
    simp only [halSpiFifoLength] at hlong hpushed ⊢
    omega
  have hticked := hinv.fill.tick
  have hcount := hticked.hw.fifo.count
  have hrx_le := hticked.hw.fifo.rx_le
  have hcame := hticked.hw.came
  have hlength := hticked.pushed_length
  have hdrained := hinv.fill.tick_drains_held hmode (hlate.trans fill_advances.clock)
  rw [hmode, Came] at hcame
  rw [hmode] at hcount hrx_le hlength hdrained
  simp only [tick_pushed, tick_popped, fill_popped] at hcount hrx_le hlength hcame
  have hlost : 0 < (Spi.tick waits .xfmTr held
      (j.fill waits held (j.pass waits held j.spiConfigure).2).2.hw).lost := by omega
  have hpass : 0 < (j.pass waits held (j.pass waits held j.spiConfigure).2).2.hw.lost := by
    rw [pass_of_some hrx]
    rw [← hmode] at hlost
    exact hlost.trans_le lost_le_read
  have hagain : ¬ (j.pass waits held j.spiConfigure).1 := by
    rw [start_inv.pass_ends_of_some hrx]
    have hnone : j.spiConfigure.hw.popped = 0 := rfl
    have hsize : j.frames * j.frame.nBytes ≤ j.size.toNat := Nat.div_mul_le_self _ _
    have hpos := Nat.mul_pos (by omega : 0 < j.frames) j.frame.nBytes_pos
    rw [hnone, Nat.zero_mul]
    omega
  have hkept := h.keeps held 2 hmode
  have htwo : (j.spiPioTransfer waits held 2).2 =
      (j.pass waits held (j.pass waits held j.spiConfigure).2).2 := by
    rw [spiPioTransfer, retry, if_neg hagain, retry]
    split_ifs <;> rfl
  rw [htwo] at hkept
  omega

theorem fits_of_pioOk (h : j.PioOk waits) : j.Fits waits := by
  have hwhole := fits_of_ends_whole h
  refine ⟨hwhole, ?_⟩
  rcases hmode : j.configureTransferMode with _ | _ | _
  · exact room_of_exchanges h hmode
  · trivial
  · have hpos := pos_of_receives h hmode
    refine ⟨hpos, ?_⟩
    cases waits with
    | true => exact .inl rfl
    | false => exact .inr (room_of_receives h hmode hwhole hpos)

end Runs

theorem pioOk_iff (waits : Bool) (j : Job) : j.PioOk waits ↔ j.Fits waits :=
  ⟨fits_of_pioOk, pioOk_of_fits⟩

/-- 65 bytes both ways. -/
def exchange65 : Job where
  frame := .byte
  pTxData := some fun _ => 0
  pRxData := some fun _ => 0
  size := 65
  some_data := .inl rfl

theorem exchange65_not_pioOk : ¬ exchange65.PioOk true :=
  fun h => absurd (room_of_exchanges h rfl) (by decide)

end Edk2Rk3576.Spi.Job
