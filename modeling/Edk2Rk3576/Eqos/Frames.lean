import Edk2Rk3576.Eqos.Receive

/-!
# The bytes of a frame

`Receive` copies out of a receive buffer as many bytes as the MAC says the frame has. `Transmit`
fills in the media header, and hands the DMA engine a descriptor whose words hold the length next to
control bits.
-/

namespace Edk2Rk3576

open Cells

section Receive

/-- What a `Receive` hands out comes from the receive buffer of its descriptor, and none of it goes
behind the caller's. -/
structure ReceiveConfined (c : ReceiveCall) (e : EqosState) : Prop where
  source : ∀ rxBuffers : Cells UInt8, Mirror rxBuffers (eqosRxBuffer e.rxCurrent) e.rxBuffers
      (eqosRxBuffer e.rxCurrent) eqosRxBufferSize →
    (eqosSnpReceive c { e with rxBuffers := rxBuffers }).map Prod.fst =
      (eqosSnpReceive c e).map Prod.fst
  room : ∀ r, eqosSnpReceive c e = .ok r → ∀ k, c.bufferSize ≤ k →
    r.1.buffer k = c.buffer.target k

/-- The call gets to copy a good frame. -/
structure CopiesFrame (c : ReceiveCall) (e : EqosState) : Prop where
  releases : Releases c e
  good : (eqosCheckRxDescriptor (e.rxDescs e.rxCurrent).tdes3).1 = efiSuccess
  mapped : e.rxBuffersMap e.rxCurrent ≠ none

/-- The call copies a frame that is longer than a receive buffer. -/
structure OverlongFrame (c : ReceiveCall) (e : EqosState) : Prop extends CopiesFrame c e where
  addr_ne : e.rxBuffersAddr ≠ 0
  overlong : eqosRxBufferSize < rxFrameLength (e.rxDescs e.rxCurrent).tdes3

variable {c : ReceiveCall} {e : EqosState} {rxBuffers : Cells UInt8} {frameLength : ℕ}

/-- The outputs once the descriptor has been given back, or not. -/
def ReceiveCall.givenBack (c : ReceiveCall) (rxBuffersAddr : ℕ) (out : ReceiveOut) :
    Except EqosHalt ReceiveOut :=
  if rxBuffersAddr = 0 then .error .rxBuffersAddrNull
  else .ok (if efiError c.dmaMap.status then { out with status := c.dmaMap.status } else out)

theorem eqosReleaseDesc_out (c : ReceiveCall) (out : ReceiveOut) (e : EqosState) :
    (eqosReleaseDesc c.dmaMap out (eqosDmaUnmapRxDescriptor e.rxCurrent e)).map Prod.fst =
      c.givenBack e.rxBuffersAddr out := by
  rw [eqosDmaUnmapRxDescriptor_eq, ReceiveCall.givenBack, eqosReleaseDesc, eqosDmaMapRxDescriptor]
  dsimp only
  rw [if_neg (not_not.2 (Function.update_self ..))]
  by_cases haddr : e.rxBuffersAddr = 0
  · rw [if_pos haddr, if_pos haddr]
    rfl
  · rw [if_neg haddr, if_neg haddr]
    by_cases herr : efiError c.dmaMap.status = true
    · rw [if_pos herr, if_pos herr]
      change Except.map _ (if efiError c.dmaMap.status = true then _ else _) = _
      rw [if_pos herr]
      rfl
    · rw [if_neg herr, if_neg herr]
      rfl

theorem eqosCheckRxDescriptor_length {tdes3 : UInt32}
    (h : (eqosCheckRxDescriptor tdes3).1 = efiSuccess) :
    (eqosCheckRxDescriptor tdes3).2 = rxFrameLength tdes3 ∧ rxOwned tdes3 = false := by
  unfold eqosCheckRxDescriptor at h ⊢
  split_ifs at h ⊢ with howned herr hzero
  · cases h
  · cases h
  · cases h
  · exact ⟨rfl, Bool.eq_false_iff.2 howned⟩

/-- A call that gets to look at the descriptor. -/
theorem eqosSnpReceive_takes (hbuffer : c.buffer.isNull = false)
    (hstate : e.snpMode.state = .initialized) (hlock : c.lock = true) :
    eqosSnpReceive c e = eqosTakeFrame c e := by
  have hnone : eqosStateError .initialized e = none := by
    rw [eqosStateError, if_neg (by rw [hstate]; decide), if_neg (not_not.2 hstate)]
  rw [eqosSnpReceive, if_neg (by rw [hbuffer]; decide), hnone]
  dsimp only
  rw [if_neg (by rw [hlock]; decide)]

/-- A call that gets to copy a frame. -/
theorem eqosSnpReceive_copies (h : CopiesFrame c e) :
    (eqosSnpReceive c e).map Prod.fst = c.givenBack e.rxBuffersAddr
      (c.copied e.snpMode e.rxBuffers (eqosRxBuffer e.rxCurrent)
        (rxFrameLength (e.rxDescs e.rxCurrent).tdes3)) := by
  have hlength := (eqosCheckRxDescriptor_length h.good).1
  have hfits := h.releases.fits h.good
  rw [eqosSnpReceive_takes h.releases.buffer h.releases.state h.releases.lock, eqosTakeFrame]
  dsimp only
  rw [h.good, if_neg (by decide), if_neg (by decide), if_neg (Nat.not_lt.2 hfits), if_neg h.mapped,
    eqosReleaseDesc_out, hlength]

theorem ReceiveCall.givenBack_buffer {rxBuffersAddr : ℕ} {out r : ReceiveOut}
    (h : c.givenBack rxBuffersAddr out = .ok r) : r.buffer = out.buffer := by
  unfold ReceiveCall.givenBack at h
  split_ifs at h
  · cases h
    rfl
  · cases h
    rfl

theorem ReceiveCall.givenBack_of_ne {rxBuffersAddr : ℕ} (h : rxBuffersAddr ≠ 0)
    (out : ReceiveOut) : ∃ r, c.givenBack rxBuffersAddr out = .ok r ∧ r.buffer = out.buffer := by
  rw [ReceiveCall.givenBack, if_neg h]
  split_ifs
  · exact ⟨_, rfl, rfl⟩
  · exact ⟨_, rfl, rfl⟩

/-- The call answers the same whatever the receive buffers hold, and leaves the caller's alone. -/
def Uncopied (c : ReceiveCall) (e : EqosState)
    (run : EqosState → Except EqosHalt (ReceiveOut × EqosState)) : Prop :=
  ∃ answer : Except EqosHalt ReceiveOut,
    (∀ rxBuffers, (run { e with rxBuffers := rxBuffers }).map Prod.fst = answer) ∧
      ∀ out, answer = .ok out → out.buffer = c.buffer.target

variable {run run' : EqosState → Except EqosHalt (ReceiveOut × EqosState)}

theorem Uncopied.congr (h : Uncopied c e run)
    (heq : ∀ rxBuffers, run' { e with rxBuffers := rxBuffers } =
      run { e with rxBuffers := rxBuffers }) : Uncopied c e run' := by
  obtain ⟨answer, hanswer, hbuffer⟩ := h
  exact ⟨answer, fun rxBuffers => by rw [heq, hanswer], hbuffer⟩

theorem Uncopied.ok (out : ReceiveOut) (hbuffer : out.buffer = c.buffer.target) :
    Uncopied c e fun e => .ok (out, e) :=
  ⟨.ok out, fun _ => rfl, fun _ hout => by cases hout; exact hbuffer⟩

theorem Uncopied.error (halt : EqosHalt) : Uncopied c e fun _ => .error halt :=
  ⟨.error halt, fun _ => rfl, nofun⟩

/-- All other frames are not copied. -/
theorem eqosTakeFrame_uncopied (h : ¬ CopiesFrame c e)
    (hbuffer : c.buffer.isNull = false) (hstate : e.snpMode.state = .initialized)
    (hlock : c.lock = true) : Uncopied c e (eqosTakeFrame c) := by
  rcases eqosCheckRxDescriptor_cases (e.rxDescs e.rxCurrent).tdes3 with
    ⟨howned, hcheck⟩ | ⟨howned, hcheck | hcheck⟩
  · refine (Uncopied.ok (c.out efiNotReady) rfl).congr fun rxBuffers => ?_
    rw [eqosTakeFrame]
    dsimp only
    rw [if_pos hcheck]
  · by_cases hmap : e.rxBuffersMap e.rxCurrent = none
    · refine (Uncopied.error .rxBuffersMapNull).congr fun rxBuffers => ?_
      rw [eqosTakeFrame]
      dsimp only
      rw [if_neg (by rw [hcheck]; decide), if_pos (by rw [hcheck]; decide), if_pos hmap]
    · refine ⟨c.givenBack e.rxBuffersAddr (c.out efiDeviceError), fun rxBuffers => ?_,
        fun r hr => ?_⟩
      · rw [eqosTakeFrame]
        dsimp only
        rw [if_neg (by rw [hcheck]; decide), if_pos (by rw [hcheck]; decide), if_neg hmap, hcheck]
        exact eqosReleaseDesc_out c _ { e with rxBuffers := rxBuffers }
      · rw [c.givenBack_buffer hr]
        rfl
  · by_cases hfits : c.bufferSize < (eqosCheckRxDescriptor (e.rxDescs e.rxCurrent).tdes3).2
    · refine (Uncopied.ok { c.out efiBufferTooSmall with
        bufferSize := (eqosCheckRxDescriptor (e.rxDescs e.rxCurrent).tdes3).2 } rfl).congr
          fun rxBuffers => ?_
      rw [eqosTakeFrame]
      dsimp only
      rw [if_neg (by rw [hcheck]; decide), if_neg (by rw [hcheck]; decide), if_pos hfits]
    · have hmap : e.rxBuffersMap e.rxCurrent = none := by
        by_contra hmap
        exact h ⟨⟨hbuffer, hstate, hlock, howned, fun _ => not_lt.1 hfits⟩, hcheck, hmap⟩
      refine (Uncopied.error .rxBuffersMapNull).congr fun rxBuffers => ?_
      rw [eqosTakeFrame]
      dsimp only
      rw [if_neg (by rw [hcheck]; decide), if_neg (by rw [hcheck]; decide), if_neg hfits,
        if_pos hmap]

/-- All other calls copy nothing. -/
theorem eqosSnpReceive_uncopied (h : ¬ CopiesFrame c e) : Uncopied c e (eqosSnpReceive c) := by
  cases hbuffer : c.buffer.isNull with
  | true =>
    refine (Uncopied.ok (c.out efiInvalidParameter) rfl).congr fun rxBuffers => ?_
    rw [eqosSnpReceive, if_pos hbuffer]
  | false =>
    cases hstate : eqosStateError .initialized e with
    | some status =>
      refine (Uncopied.ok (c.out status) rfl).congr fun rxBuffers => ?_
      have hother : eqosStateError .initialized { e with rxBuffers := rxBuffers } = some status :=
        hstate
      rw [eqosSnpReceive, if_neg (by rw [hbuffer]; decide), hother]
    | none =>
      have hinit := eqosStateError_eq_none hstate
      cases hlock : c.lock with
      | false =>
        refine (Uncopied.ok (c.out efiAccessDenied) rfl).congr fun rxBuffers => ?_
        have hother : eqosStateError .initialized { e with rxBuffers := rxBuffers } = none := hstate
        rw [eqosSnpReceive, if_neg (by rw [hbuffer]; decide), hother]
        dsimp only
        rw [if_pos hlock]
      | true =>
        exact (eqosTakeFrame_uncopied h hbuffer hinit hlock).congr fun _ =>
          eqosSnpReceive_takes hbuffer hinit hlock

theorem ReceiveCall.copied_congr {mode : EfiSimpleNetworkMode} {rxBuffers' : Cells UInt8}
    {frame : ℕ} (h : Mirror rxBuffers frame rxBuffers' frame eqosRxBufferSize)
    (hlength : frameLength ≤ eqosRxBufferSize) :
    c.copied mode rxBuffers frame frameLength = c.copied mode rxBuffers' frame frameLength := by
  have hheader : ∀ k < etherHeadSize, rxBuffers (frame + k) = rxBuffers' (frame + k) :=
    fun k hk => h k (hk.trans (by decide))
  have hbuffer : c.buffer.target.write 0 frameLength (fun k => rxBuffers (frame + k)) =
      c.buffer.target.write 0 frameLength fun k => rxBuffers' (frame + k) :=
    write_congr fun k hk => h k (hk.trans_le hlength)
  have hsrc : rxBuffers.slice (frame + 6) netEtherAddrLen =
      rxBuffers'.slice (frame + 6) netEtherAddrLen := by
    refine slice_congr fun k hk => ?_
    rw [Nat.add_assoc]
    exact hheader _ (by simp only [netEtherAddrLen, etherHeadSize] at hk ⊢; omega)
  have hdest : rxBuffers.slice frame netEtherAddrLen = rxBuffers'.slice frame netEtherAddrLen :=
    slice_congr fun k hk => hheader k (hk.trans (by decide))
  rw [ReceiveCall.copied, ReceiveCall.copied, hbuffer, hsrc, hdest, hheader 12 (by decide),
    hheader 13 (by decide)]

theorem ReceiveCall.copied_byte {mode : EfiSimpleNetworkMode} {frame k : ℕ}
    (h : k < frameLength) :
    (c.copied mode rxBuffers frame frameLength).buffer (0 + k) = rxBuffers (frame + k) := by
  dsimp only [ReceiveCall.copied]
  exact write_add h

theorem ReceiveCall.copied_room {mode : EfiSimpleNetworkMode} {frame k : ℕ}
    (h : frameLength ≤ k) :
    (c.copied mode rxBuffers frame frameLength).buffer k = c.buffer.target k := by
  dsimp only [ReceiveCall.copied]
  exact write_of_notMem (by omega)

/-- A byte behind the receive buffer is handed out. -/
theorem OverlongFrame.not_confined (h : OverlongFrame c e) : ¬ ReceiveConfined c e := by
  intro hconfined
  let behind := eqosRxBuffer e.rxCurrent + eqosRxBufferSize
  have hsource := hconfined.source (Function.update e.rxBuffers behind (e.rxBuffers behind + 1))
    fun k hk => Function.update_of_ne (by omega) _ _
  have hcopies : CopiesFrame c { e with
      rxBuffers := Function.update e.rxBuffers behind (e.rxBuffers behind + 1) } :=
    ⟨⟨h.releases.buffer, h.releases.state, h.releases.lock, h.releases.completed,
      h.releases.fits⟩, h.good, h.mapped⟩
  rw [eqosSnpReceive_copies hcopies, eqosSnpReceive_copies h.toCopiesFrame] at hsource
  dsimp only at hsource
  obtain ⟨out, hout, hbuffer⟩ := c.givenBack_of_ne h.addr_ne (c.copied e.snpMode e.rxBuffers
    (eqosRxBuffer e.rxCurrent) (rxFrameLength (e.rxDescs e.rxCurrent).tdes3))
  rw [hout] at hsource
  have hbuffer' := c.givenBack_buffer hsource
  rw [hbuffer] at hbuffer'
  have hbyte := congrFun hbuffer' (0 + eqosRxBufferSize)
  rw [ReceiveCall.copied_byte h.overlong, ReceiveCall.copied_byte h.overlong,
    Function.update_self] at hbyte
  have hnat := congrArg UInt8.toNat hbyte
  rw [UInt8.toNat_add] at hnat
  change (e.rxBuffers behind).toNat = ((e.rxBuffers behind).toNat + 1) % 256 at hnat
  omega

/-- What a `Receive` hands out is its descriptor's, and stays inside the caller's buffer, unless the
frame is longer than the receive buffer: its length is checked against zero and the caller's. -/
theorem eqosSnpReceive_confined_iff : ReceiveConfined c e ↔ ¬ OverlongFrame c e := by
  refine ⟨fun hconfined h => h.not_confined hconfined, fun hshort => ?_⟩
  by_cases hcopies : CopiesFrame c e
  · have heq := eqosSnpReceive_copies hcopies
    refine ⟨fun rxBuffers hsame => ?_, fun r hr k hk => ?_⟩
    · have hcopies' : CopiesFrame c { e with rxBuffers := rxBuffers } :=
        ⟨⟨hcopies.releases.buffer, hcopies.releases.state, hcopies.releases.lock,
          hcopies.releases.completed, hcopies.releases.fits⟩, hcopies.good, hcopies.mapped⟩
      rw [eqosSnpReceive_copies hcopies', heq]
      dsimp only
      by_cases haddr : e.rxBuffersAddr = 0
      · rw [ReceiveCall.givenBack, ReceiveCall.givenBack, if_pos haddr, if_pos haddr]
      · have hlength : rxFrameLength (e.rxDescs e.rxCurrent).tdes3 ≤ eqosRxBufferSize :=
          not_lt.1 fun hover => hshort ⟨hcopies, haddr, hover⟩
        rw [ReceiveCall.copied_congr hsame hlength]
    · rw [hr] at heq
      have hfits := hcopies.releases.fits hcopies.good
      rw [(eqosCheckRxDescriptor_length hcopies.good).1] at hfits
      rw [c.givenBack_buffer heq.symm, ReceiveCall.copied_room (hfits.trans hk)]
  · obtain ⟨answer, hanswer, hbuffer⟩ := eqosSnpReceive_uncopied hcopies
    refine ⟨fun rxBuffers _ => (hanswer rxBuffers).trans (hanswer e.rxBuffers).symm,
      fun r hr k _ => ?_⟩
    have hout := hanswer e.rxBuffers
    rw [show ({ e with rxBuffers := e.rxBuffers } : EqosState) = e from rfl, hr] at hout
    rw [hbuffer r.1 hout.symm]

/-- The last part of a frame of 2000 bytes: the length is that of all of it. -/
def lastOf2000 : RxCompletion := ⟨0, 0x100007d0, fun _ => 0, by decide⟩

/-- A run that has such a part come in, with a call that has room for it. -/
theorem eqosSnpReceive_reads_on : ¬ ∀ t c, EqosTrace.Reaches (fun _ _ => True) (boundAt 0x2000) t →
    ReceiveConfined c t.eqos := by
  intro h
  have hrun : ∃ t, EqosTrace.Reaches (fun _ _ => True) (boundAt 0x2000) t ∧
      OverlongFrame (receiveInto dmaMapDone) t.eqos :=
    ⟨_, ReachedOk.start.of_run (fun _ _ _ => trivial) (rfl : runOk EqosTrace.step
      [.snpStart, .snpInitialize (startMapping 2), .rxDone lastOf2000] _ = .ok _),
      ⟨⟨rfl, rfl, rfl, by decide, fun _ => by decide⟩, by decide, by decide⟩, by decide, by decide⟩
  obtain ⟨t, ht, hover⟩ := hrun
  exact hover.not_confined (h t _ ht)

end Receive

section Transmit

/-- The 14 bits for the length of the buffer, and the 15 for that of the frame, in the words of a
transmit descriptor that also hold its control bits. -/
def eqosTdes2TxB1lMask : UInt32 := 0x3fff
def eqosTdes3TxFlMask : UInt32 := 0x7fff

/-- The source address a header is to have, where that of the interface is `currentAddress`. -/
def TransmitCall.source (c : TransmitCall) (currentAddress : EfiMacAddress) : EfiMacAddress :=
  if c.srcAddr.isNull then currentAddress else c.srcAddr.target

/-- The frame starts with the media header the call asks for, and is else the caller's. -/
structure HeaderFilled (currentAddress : EfiMacAddress) (c : TransmitCall) (frame : Cells UInt8) :
    Prop where
  dest : ∀ k < netEtherAddrLen, frame k = c.destAddr.target k
  source : ∀ k < netEtherAddrLen, frame (netEtherAddrLen + k) = c.source currentAddress k
  protocol : (frame 12).toNat * 256 + (frame 13).toNat = c.protocol.target.toNat
  rest : ∀ k, etherHeadSize ≤ k → frame k = c.frame k

/-- The descriptor has one buffer, whole and the DMA engine's. -/
structure WholeFrame (deviceAddress : UInt64) (length : ℕ) (desc : EqosDmaDescriptor) : Prop where
  address : desc.tdes1.toNat * 2 ^ 32 + desc.tdes0.toNat = deviceAddress.toNat
  buffer1Length : (desc.tdes2 &&& eqosTdes2TxB1lMask).toNat = length
  frameLength : (desc.tdes3 &&& eqosTdes3TxFlMask).toNat = length
  tdes2 : desc.tdes2 &&& ~~~eqosTdes2TxB1lMask = eqosTdes2TxIoc
  tdes3 : desc.tdes3 &&& ~~~eqosTdes3TxFlMask = eqosTdes3TxOwn ||| eqosTdes3TxFd ||| eqosTdes3TxLd

/-- What is to be queued for a call. -/
structure TransmitEncodes (currentAddress : EfiMacAddress) (c : TransmitCall) (frame : Cells UInt8)
    (buffer : ℕ) (desc : EqosDmaDescriptor) : Prop where
  header : c.headerSize ≠ 0 → HeaderFilled currentAddress c frame
  unchanged : c.headerSize = 0 → frame = c.frame
  buffer : buffer = c.buffer
  desc : WholeFrame c.dmaMap.deviceAddress c.bufferSize desc

section Words

variable {control mask x y : UInt32} {bits n : ℕ}

theorem or_and_words : (x ||| y) &&& mask = x &&& mask ||| y &&& mask :=
  UInt32.toBitVec_inj.1 BitVec.and_or_distrib_right

theorem and_not_of_and_eq_zero (h : x &&& mask = 0) : x &&& ~~~mask = x := by
  have hsplit : x &&& mask ||| x &&& ~~~mask = x := by
    refine UInt32.toBitVec_inj.1 ?_
    ext i hi
    simp only [UInt32.toBitVec_or, UInt32.toBitVec_and, UInt32.toBitVec_not, BitVec.getElem_or,
      BitVec.getElem_and, BitVec.getElem_not]
    cases x.toBitVec[i] <;> cases mask.toBitVec[i] <;> rfl
  rwa [h, UInt32.zero_or] at hsplit

theorem and_not_of_and_eq (h : x &&& mask = x) : x &&& ~~~mask = 0 := by
  rw [← h, UInt32.and_assoc, UInt32.and_not_self, UInt32.and_zero]

theorem length_and (hmask : mask.toNat = 2 ^ bits - 1) (hn : n < 2 ^ bits) :
    UInt32.ofNat n &&& mask = UInt32.ofNat n := by
  have hlt := mask.toNat_lt
  refine UInt32.toNat_inj.1 ?_
  rw [UInt32.toNat_and, hmask, Nat.and_two_pow_sub_one_eq_mod,
    UInt32.toNat_ofNat_of_lt' (show n < 2 ^ 32 by omega), Nat.mod_eq_of_lt hn]

/-- The length is in its field exactly where it fits it. -/
theorem or_and_length (hmask : mask.toNat = 2 ^ bits - 1) (hcontrol : control &&& mask = 0) :
    ((control ||| UInt32.ofNat n) &&& mask).toNat = n ↔ n < 2 ^ bits := by
  have hpos := Nat.two_pow_pos bits
  have hlt := mask.toNat_lt
  constructor
  · intro hlength
    have hle : ((control ||| UInt32.ofNat n) &&& mask).toNat ≤ mask.toNat := by
      rw [UInt32.toNat_and]
      exact Nat.and_le_right
    omega
  · intro hn
    rw [or_and_words, hcontrol, UInt32.zero_or, length_and hmask hn,
      UInt32.toNat_ofNat_of_lt' (show n < 2 ^ 32 by omega)]

/-- It then leaves the control bits alone. -/
theorem or_and_control (hmask : mask.toNat = 2 ^ bits - 1) (hcontrol : control &&& mask = 0)
    (hn : n < 2 ^ bits) : (control ||| UInt32.ofNat n) &&& ~~~mask = control := by
  rw [or_and_words, and_not_of_and_eq_zero hcontrol, and_not_of_and_eq (length_and hmask hn),
    UInt32.or_zero]

end Words

variable {c : TransmitCall} {e e' : EqosState} {frame : Cells UInt8}
  {currentAddress : EfiMacAddress}

/-- The descriptor of a frame that is accepted. -/
def TransmitCall.desc (c : TransmitCall) : EqosDmaDescriptor :=
  let numberOfBytes := UInt32.ofNat (c.dmaMap.numberOfBytes c.bufferSize)
  { tdes0 := c.dmaMap.deviceAddress.toUInt32
    tdes1 := (c.dmaMap.deviceAddress >>> 32).toUInt32
    tdes2 := eqosTdes2TxIoc ||| numberOfBytes
    tdes3 := eqosTdes3TxOwn ||| eqosTdes3TxFd ||| eqosTdes3TxLd ||| numberOfBytes }

/-- A call that is accepted queues its buffer, with the frame it has filled in. -/
structure Queues (c : TransmitCall) (e : EqosState) (r : EfiStatus × Cells UInt8 × EqosState) :
    Prop where
  frame : r.2.1 = if c.headerSize ≠ 0 then c.filledIn else c.frame
  buffer : r.2.2.txBuffers e.txNext = c.buffer
  desc : r.2.2.txDescs e.txNext = c.desc

theorem eqosSnpTransmit_queues : Yields (fun _ => True)
    (fun r => r.1 = efiSuccess → Queues c e r) (eqosSnpTransmit c e) := by
  have hrefused : ∀ {status : EfiStatus} {r : Cells UInt8 × EqosState}, efiError status = true →
      (status, r).1 = efiSuccess → Queues c e (status, r) := by
    intro status r herr hok
    rw [show status = efiSuccess from hok] at herr
    cases herr
  unfold eqosSnpTransmit
  refine Yields.ite (fun _ => hrefused efiError_invalidParameter) fun _ => ?_
  split
  · rename_i hstate
    exact hrefused (eqosStateError_isError hstate)
  · refine Yields.ite (fun _ => hrefused efiError_invalidParameter) fun _ => ?_
    refine Yields.ite (fun _ => hrefused (efiError_encodeError 5)) fun _ => ?_
    refine Yields.ite (fun _ => hrefused efiError_accessDenied) fun _ => ?_
    unfold eqosQueueFrame
    refine Yields.ite (fun _ => hrefused (efiError_encodeError 6)) fun _ => ?_
    refine Yields.bind (P := fun r => efiError r.1 = true ∨
      r.2.txBuffers e.txNext = c.buffer ∧ r.2.txDescs e.txNext = c.desc) ?_ ?_
    · unfold eqosDmaMapTxDescriptor
      refine Yields.ite (fun _ => trivial) fun _ => Yields.ite (fun _ => trivial) fun _ => ?_
      exact Yields.ite (fun herr => .inl herr) fun _ =>
        .inr ⟨Function.update_self .., Function.update_self ..⟩
    · rintro r (herr | ⟨hbuffer, hdesc⟩)
      · exact Yields.ite (fun _ => hrefused herr) fun hno => absurd herr hno
      · exact Yields.ite (fun herr => hrefused herr) fun _ _ => ⟨rfl, hbuffer, hdesc⟩

section Header

variable {k : ℕ}

theorem TransmitCall.filledIn_dest (h : k < netEtherAddrLen) :
    c.filledIn k = c.destAddr.target k := by
  have hk : k < 6 := h
  dsimp only [TransmitCall.filledIn]
  rw [Function.update_of_ne (by omega), Function.update_of_ne (by omega),
    write_of_notMem (by omega)]
  nth_rewrite 1 [← Nat.zero_add k]
  exact write_add h

theorem TransmitCall.filledIn_source (h : k < netEtherAddrLen) :
    c.filledIn (netEtherAddrLen + k) = c.srcAddr.target k := by
  have hk : k < 6 := h
  dsimp only [TransmitCall.filledIn]
  rw [Function.update_of_ne (by rw [netEtherAddrLen]; omega),
    Function.update_of_ne (by rw [netEtherAddrLen]; omega)]
  exact write_add h

theorem TransmitCall.filledIn_protocol :
    (c.filledIn 12).toNat * 256 + (c.filledIn 13).toNat = c.protocol.target.toNat := by
  dsimp only [TransmitCall.filledIn]
  rw [Function.update_of_ne (by decide), Function.update_self, Function.update_self]
  have hhigh : (((c.protocol.target &&& 0xFF00) >>> 8).toUInt8).toNat =
      c.protocol.target.toNat / 256 % 256 % 256 := by
    rw [UInt16.toNat_toUInt8, UInt16.toNat_shiftRight, UInt16.toNat_and]
    change (c.protocol.target.toNat &&& 0xFF00) >>> 8 % 256 = _
    rw [Nat.shiftRight_and_distrib, Nat.shiftRight_eq_div_pow]
    exact congrArg (· % 256) (Nat.and_two_pow_sub_one_eq_mod _ 8)
  have hlow : ((c.protocol.target &&& 0xFF).toUInt8).toNat =
      c.protocol.target.toNat % 256 % 256 := by
    rw [UInt16.toNat_toUInt8, UInt16.toNat_and]
    exact congrArg (· % 256) (Nat.and_two_pow_sub_one_eq_mod _ 8)
  have hlt := c.protocol.target.toNat_lt
  omega

theorem TransmitCall.filledIn_rest (h : etherHeadSize ≤ k) : c.filledIn k = c.frame k := by
  have hk : 14 ≤ k := h
  dsimp only [TransmitCall.filledIn]
  rw [Function.update_of_ne (by omega), Function.update_of_ne (by omega),
    write_of_notMem (by rw [netEtherAddrLen]; omega),
    write_of_notMem (by rw [netEtherAddrLen]; omega)]

end Header

/-- The header needs a source address, and gets what is at address zero where the call has none. -/
theorem filledIn_header_iff : HeaderFilled currentAddress c c.filledIn ↔
    (c.srcAddr.isNull = true → ∀ k < netEtherAddrLen, c.srcAddr.target k = currentAddress k) := by
  constructor
  · intro h hnull k hk
    rw [← c.filledIn_source hk, h.source k hk, TransmitCall.source, if_pos hnull]
  · intro h
    refine ⟨fun k hk => c.filledIn_dest hk, fun k hk => ?_, c.filledIn_protocol,
      fun k hk => c.filledIn_rest hk⟩
    rw [c.filledIn_source hk, TransmitCall.source]
    split_ifs with hnull
    · exact h hnull k hk
    · rfl

/-- The length fits its field of either word. -/
theorem desc_wholeFrame_iff (hbytes : c.dmaMap.numberOfBytes c.bufferSize = c.bufferSize) :
    WholeFrame c.dmaMap.deviceAddress c.bufferSize c.desc ↔ c.bufferSize < 2 ^ 14 := by
  have hb1l : eqosTdes2TxB1lMask.toNat = 2 ^ 14 - 1 := by decide
  have hfl : eqosTdes3TxFlMask.toNat = 2 ^ 15 - 1 := by decide
  constructor
  · intro h
    have hlength := h.buffer1Length
    rw [TransmitCall.desc, hbytes] at hlength
    exact (or_and_length hb1l (by decide)).1 hlength
  · intro h
    have hlonger : c.bufferSize < 2 ^ 15 := by omega
    rw [TransmitCall.desc, hbytes]
    refine ⟨?_, (or_and_length hb1l (by decide)).2 h, (or_and_length hfl (by decide)).2 hlonger,
      or_and_control hb1l (by decide) h, or_and_control hfl (by decide) hlonger⟩
    have hlt := c.dmaMap.deviceAddress.toNat_lt
    dsimp only
    rw [UInt64.toNat_toUInt32, UInt64.toNat_toUInt32, UInt64.toNat_shiftRight,
      Nat.shiftRight_eq_div_pow]
    change c.dmaMap.deviceAddress.toNat / 2 ^ 32 % 2 ^ 32 * 2 ^ 32 + _ = _
    omega

/-- An accepted frame is what the call asks for exactly where its length fits the descriptor and
the source address does not come from a null pointer. -/
theorem eqosSnpTransmit_encodes_iff {c : TransmitCall} {e e' : EqosState} {frame : Cells UInt8}
    {currentAddress : EfiMacAddress}
    (hbytes : c.dmaMap.numberOfBytes c.bufferSize = c.bufferSize)
    (haccepted : eqosSnpTransmit c e = .ok (efiSuccess, frame, e')) :
    TransmitEncodes currentAddress c frame (e'.txBuffers e.txNext) (e'.txDescs e.txNext) ↔
      c.bufferSize < 2 ^ 14 ∧ (c.headerSize ≠ 0 → c.srcAddr.isNull = true →
        ∀ k < netEtherAddrLen, c.srcAddr.target k = currentAddress k) := by
  have hqueues := eqosSnpTransmit_queues (c := c) (e := e)
  rw [haccepted] at hqueues
  obtain ⟨hframe, hbuffer, hdesc⟩ := hqueues rfl
  dsimp only at hframe hbuffer hdesc
  rw [hdesc]
  constructor
  · intro h
    refine ⟨(desc_wholeFrame_iff hbytes).1 h.desc, fun hheader => ?_⟩
    have hfilled := h.header hheader
    rw [hframe, if_pos hheader] at hfilled
    exact filledIn_header_iff.1 hfilled
  · rintro ⟨hlength, hsource⟩
    refine ⟨fun hheader => ?_, fun hheader => ?_, hbuffer, (desc_wholeFrame_iff hbytes).2 hlength⟩
    · rw [hframe, if_pos hheader]
      exact filledIn_header_iff.2 (hsource hheader)
    · rw [hframe, if_neg (not_not.2 hheader)]

/-- A call that has the header filled in, from the interface or from an address of its own. -/
def transmitFrom (srcAddr : OptPointer EfiMacAddress) : TransmitCall where
  headerSize := etherHeadSize
  bufferSize := 60
  buffer := 0x3000
  frame := fun _ => 0
  srcAddr := srcAddr
  destAddr := ⟨false, fun _ => 0xff⟩
  protocol := ⟨false, 0x0800⟩
  lock := true
  dmaMap := dmaMapDone

/-- The interface, started, accepts both. -/
theorem transmitFrom_accepted (srcAddr : OptPointer EfiMacAddress) :
    ∃ t frame e', EqosTrace.Reaches (fun _ _ => True) (boundAt 0x2000) t ∧
      eqosSnpTransmit (transmitFrom srcAddr) t.eqos = .ok (efiSuccess, frame, e') :=
  ⟨_, _, _, ReachedOk.start.of_run (fun _ _ _ => trivial) (rfl : runOk EqosTrace.step
    [.snpStart, .snpInitialize (startMapping 2)] _ = .ok _), rfl⟩

theorem eqosSnpTransmit_encodes_own : ∃ (t : EqosTrace) (frame : Cells UInt8) (e' : EqosState),
    eqosSnpTransmit (transmitFrom ⟨false, fun _ => 2⟩) t.eqos = .ok (efiSuccess, frame, e') ∧
      TransmitEncodes (fun _ => 4) (transmitFrom ⟨false, fun _ => 2⟩) frame
        (e'.txBuffers t.eqos.txNext) (e'.txDescs t.eqos.txNext) := by
  obtain ⟨t, frame, e', -, haccepted⟩ := transmitFrom_accepted ⟨false, fun _ => 2⟩
  exact ⟨t, frame, e', haccepted,
    (eqosSnpTransmit_encodes_iff rfl haccepted).2 ⟨by decide, nofun⟩⟩

/-- A call with no source address sends what lies at address zero. -/
theorem eqosSnpTransmit_null_source : ¬ ∀ currentAddress (t : EqosTrace) c frame e',
    EqosTrace.Reaches (fun _ _ => True) (boundAt 0x2000) t →
      c.dmaMap.numberOfBytes c.bufferSize = c.bufferSize →
      eqosSnpTransmit c t.eqos = .ok (efiSuccess, frame, e') →
      TransmitEncodes currentAddress c frame (e'.txBuffers t.eqos.txNext)
        (e'.txDescs t.eqos.txNext) := by
  intro h
  obtain ⟨t, frame, e', ht, haccepted⟩ := transmitFrom_accepted ⟨true, fun _ => 0⟩
  have hencodes := h (fun _ => 4) t _ frame e' ht rfl haccepted
  have hqueues := eqosSnpTransmit_queues (c := transmitFrom ⟨true, fun _ => 0⟩) (e := t.eqos)
  rw [haccepted] at hqueues
  have hframe := (hqueues rfl).frame
  have hfilled := hencodes.header (by decide)
  rw [show frame = (transmitFrom ⟨true, fun _ => 0⟩).filledIn from hframe] at hfilled
  exact absurd (filledIn_header_iff.1 hfilled rfl 0 (by decide)) (by decide)

end Transmit

end Edk2Rk3576
