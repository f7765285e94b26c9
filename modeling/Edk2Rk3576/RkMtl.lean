import Edk2Rk3576.Efi
import Edk2Rk3576.Lib.Runs

/-!
# The secure monitor's mailbox

`RkMtlLib` hands messages to the secure firmware through one mailbox in shared memory. Who owns it
is told by its status: the sender marks it busy and rings the doorbell, an SMC call, the peer marks
it free with its reply, during the call or later.

The mailbox is kept with what a run has put into it. Between reading the status as free and using
the mailbox the peer does not touch it. The assertion behind a timeout is taken to be compiled out.
-/

namespace Edk2Rk3576

def mtlPollFlag : UInt32 := 0
def mtlChannelBusy : UInt32 := 0
def mtlChannelFree : UInt32 := 1

/-- Response time out value on a channel, 1 s. -/
def responseTimeout : ℕ := 1000000

def mtlPollWaitTime : ℕ := 100000

/-- The mailbox in front of its payload. -/
structure MtlMailbox where
  channelStatus : UInt32
  flags : UInt32
  length : UInt32
  messageHeader : UInt32
  deriving DecidableEq

/-- `PcdRkMtlMailBoxSize`, and where in the mailbox the payload starts, behind the header. -/
structure MtlLayout where
  mailboxSize : ℕ
  payloadOffset : ℕ
  size_lt : mailboxSize < 2 ^ 32
  header_le : 4 ≤ payloadOffset

def MtlLayout.payloadSize (layout : MtlLayout) : ℕ := layout.mailboxSize - layout.payloadOffset

/-- The mailbox, the messages that were sent since it was last free, and the headers of all messages
either side has put into it, the last one first. -/
structure MtlChannel where
  mailbox : MtlMailbox
  outstanding : ℕ
  messages : List UInt32

def MtlChannel.isFree (c : MtlChannel) : Bool := decide (c.mailbox.channelStatus = mtlChannelFree)

/-- The peer writes the mailbox, or does not. A channel that it frees has had its reply. -/
def MtlChannel.peerWrites (c : MtlChannel) : Option MtlMailbox → MtlChannel
  | none => c
  | some mailbox =>
    { mailbox
      outstanding := if mailbox.channelStatus = mtlChannelFree then 0 else c.outstanding
      messages := mailbox.messageHeader :: c.messages }

section Functions

-- what the peer does in front of each look at the channel
variable (peer : ℕ → Option MtlMailbox)

/-- The look behind the loop. -/
def mtlLastLook (k : ℕ) (c : MtlChannel) : EfiStatus × MtlChannel :=
  let c := c.peerWrites (peer k)
  if c.isFree then (efiSuccess, c) else (efiTimeout, c)

/-- The loop of `MtlWaitUntilChannelFree`, from look `k` on. -/
def mtlWaitLoop : ℕ → ℕ → ℕ → MtlChannel → EfiStatus × MtlChannel
  | 0, k, _, c => mtlLastLook peer k c
  | fuel + 1, k, timeOutInMicroSeconds, c =>
    if timeOutInMicroSeconds = 0 then mtlLastLook peer k c
    else
      let c := c.peerWrites (peer k)
      if c.isFree then (efiSuccess, c)
      else if timeOutInMicroSeconds < mtlPollWaitTime then mtlLastLook peer (k + 1) c
      else mtlWaitLoop fuel (k + 1) (timeOutInMicroSeconds - mtlPollWaitTime) c

def mtlWaitUntilChannelFree (timeOutInMicroSeconds : ℕ) (c : MtlChannel) :
    EfiStatus × MtlChannel :=
  mtlWaitLoop peer (timeOutInMicroSeconds / mtlPollWaitTime + 1) 0 timeOutInMicroSeconds c

/-- A message in the mailbox, in front of the doorbell. -/
def MtlChannel.put (c : MtlChannel) (messageHeader payloadLength : UInt32) : MtlChannel where
  mailbox :=
    { channelStatus := mtlChannelBusy
      flags := mtlPollFlag
      messageHeader
      length := payloadLength + 4 }
  outstanding := c.outstanding + 1
  messages := messageHeader :: c.messages

/-- `smc` is what the doorbell's call returns, and what the peer does to the mailbox meanwhile. -/
def mtlSendMessage (messageHeader payloadLength : UInt32) (smc : UInt64 × Option MtlMailbox)
    (c : MtlChannel) : EfiStatus × MtlChannel :=
  if c.mailbox.channelStatus ≠ mtlChannelFree then (efiDeviceError, c)
  else
    let c := (c.put messageHeader payloadLength).peerWrites smc.2
    if smc.1 ≠ 0 then (efiDeviceError, c) else (efiSuccess, c)

/-- The header and the payload's length, where the message is received. -/
def mtlReceiveMessage (c : MtlChannel) : Except EfiStatus (UInt32 × UInt32) × MtlChannel :=
  let r := mtlWaitUntilChannelFree peer responseTimeout c
  if efiError r.1 then (.error r.1, r.2)
  else (.ok (r.2.mailbox.messageHeader, r.2.mailbox.length - 4), r.2)

end Functions

/-- A call of the library, or the peer between calls. -/
inductive MtlStep
  | send (messageHeader payloadLength : UInt32) (smc : UInt64 × Option MtlMailbox)
  | receive (peer : ℕ → Option MtlMailbox)
  | peer (mailbox : Option MtlMailbox)

def mtlStep (c : MtlChannel) : MtlStep → MtlChannel
  | .send messageHeader payloadLength smc => (mtlSendMessage messageHeader payloadLength smc c).2
  | .receive peer => (mtlReceiveMessage peer c).2
  | .peer mailbox => c.peerWrites mailbox

section Channel

variable {layout : MtlLayout} {c : MtlChannel} {mailbox : MtlMailbox} {peer : ℕ → Option MtlMailbox}
  {messageHeader payloadLength : UInt32} {smc : UInt64 × Option MtlMailbox}

/-- A message is outstanding on a busy channel only, and the last one's header is in the mailbox. -/
structure MtlChannel.Consistent (c : MtlChannel) : Prop where
  free : c.mailbox.channelStatus = mtlChannelFree → c.outstanding = 0
  outstanding_le : c.outstanding ≤ 1
  last : ∀ h, c.messages.head? = some h → c.mailbox.messageHeader = h

theorem consistent_start (mailbox : MtlMailbox) : MtlChannel.Consistent ⟨mailbox, 0, []⟩ :=
  ⟨fun _ => rfl, Nat.zero_le _, by simp⟩

theorem MtlChannel.Consistent.peerWrites (h : c.Consistent) (w : Option MtlMailbox) :
    (c.peerWrites w).Consistent := by
  cases w with
  | none => exact h
  | some mailbox =>
    refine ⟨fun hfree => if_pos hfree, ?_, fun _ hh => Option.some.inj hh⟩
    simp only [MtlChannel.peerWrites]
    split_ifs
    · exact Nat.zero_le _
    · exact h.outstanding_le

/-- The channel as the looks of a wait find it. -/
def looks (peer : ℕ → Option MtlMailbox) : ℕ → ℕ → MtlChannel → List MtlChannel
  | 0, _, _ => []
  | n + 1, k, c => c.peerWrites (peer k) :: looks peer n (k + 1) (c.peerWrites (peer k))

theorem MtlChannel.Consistent.looks : ∀ {n k c}, MtlChannel.Consistent c →
    ∀ c' ∈ looks peer n k c, c'.Consistent
  | 0, _, _, _, _, hmem => by simp [Edk2Rk3576.looks] at hmem
  | n + 1, k, c, h, c', hmem => by
    rw [Edk2Rk3576.looks, List.mem_cons] at hmem
    rcases hmem with rfl | hmem
    · exact h.peerWrites _
    · exact (h.peerWrites _).looks c' hmem

/-- What a wait that looks `n` times comes to: the first look that finds the channel free ends it. -/
def WaitEnds (peer : ℕ → Option MtlMailbox) (n k : ℕ) (c : MtlChannel)
    (r : EfiStatus × MtlChannel) : Prop :=
  (r.1 = efiSuccess ∧ (looks peer n k c).find? MtlChannel.isFree = some r.2)
    ∨ (r.1 = efiTimeout ∧ (looks peer n k c).find? MtlChannel.isFree = none
      ∧ r.2 ∈ looks peer n k c)

theorem waitEnds_found {n k : ℕ} (hfree : (c.peerWrites (peer k)).isFree = true) :
    WaitEnds peer (n + 1) k c (efiSuccess, c.peerWrites (peer k)) :=
  Or.inl ⟨rfl, by rw [looks, List.find?_cons_of_pos hfree]⟩

theorem WaitEnds.cons {n k : ℕ} {r : EfiStatus × MtlChannel}
    (h : WaitEnds peer n (k + 1) (c.peerWrites (peer k)) r)
    (hfree : (c.peerWrites (peer k)).isFree = false) : WaitEnds peer (n + 1) k c r := by
  have hneg : ¬ (c.peerWrites (peer k)).isFree = true := by simp [hfree]
  rcases h with ⟨hstatus, hfind⟩ | ⟨hstatus, hfind, hmem⟩
  · refine Or.inl ⟨hstatus, ?_⟩
    rw [looks, List.find?_cons_of_neg hneg, hfind]
  · refine Or.inr ⟨hstatus, ?_, List.mem_cons_of_mem _ hmem⟩
    rw [looks, List.find?_cons_of_neg hneg, hfind]

theorem waitEnds_lastLook {k : ℕ} : WaitEnds peer 1 k c (mtlLastLook peer k c) := by
  unfold mtlLastLook
  cases hfree : (c.peerWrites (peer k)).isFree with
  | true => simpa [hfree] using waitEnds_found hfree
  | false => exact Or.inr ⟨by simp [hfree], by simp [looks, hfree], by simp [looks, hfree]⟩

theorem waitEnds_loop : ∀ {n fuel k : ℕ} {c : MtlChannel}, n ≤ fuel →
    WaitEnds peer (n + 1) k c (mtlWaitLoop peer fuel k (n * mtlPollWaitTime) c)
  | 0, fuel, k, c, _ => by
    have hlook : mtlWaitLoop peer fuel k (0 * mtlPollWaitTime) c = mtlLastLook peer k c := by
      rw [Nat.zero_mul]
      cases fuel <;> rfl
    rw [hlook]
    exact waitEnds_lastLook
  | n + 1, 0, _, _, h => absurd h (by omega)
  | n + 1, fuel + 1, k, c, h => by
    have hpos : (n + 1) * mtlPollWaitTime ≠ 0 := by
      rw [mtlPollWaitTime]
      omega
    have hlong : ¬ (n + 1) * mtlPollWaitTime < mtlPollWaitTime := by
      rw [mtlPollWaitTime]
      omega
    have hrest : (n + 1) * mtlPollWaitTime - mtlPollWaitTime = n * mtlPollWaitTime := by
      rw [Nat.succ_mul, Nat.add_sub_cancel]
    rw [mtlWaitLoop, if_neg hpos]
    simp only []
    cases hfree : (c.peerWrites (peer k)).isFree with
    | true => exact waitEnds_found hfree
    | false =>
      rw [if_neg (by simp), if_neg hlong, hrest]
      exact (waitEnds_loop (by omega)).cons hfree

theorem waitEnds_receive :
    WaitEnds peer 11 0 c (mtlWaitUntilChannelFree peer responseTimeout c) :=
  @waitEnds_loop peer 10 11 0 c (by omega)

theorem receive_of_found {c' : MtlChannel}
    (h : (looks peer 11 0 c).find? MtlChannel.isFree = some c') :
    mtlReceiveMessage peer c
      = (.ok (c'.mailbox.messageHeader, c'.mailbox.length - 4), c') := by
  rcases @waitEnds_receive c peer with ⟨hstatus, hfind⟩ | ⟨-, hfind, -⟩
  · rw [hfind, Option.some.injEq] at h
    simp [mtlReceiveMessage, hstatus, h]
  · rw [hfind] at h
    cases h

theorem receive_of_not_found (h : (looks peer 11 0 c).find? MtlChannel.isFree = none) :
    (mtlReceiveMessage peer c).1 = .error efiTimeout := by
  rcases @waitEnds_receive c peer with ⟨-, hfind⟩ | ⟨hstatus, -, -⟩
  · rw [hfind] at h
    cases h
  · simp [mtlReceiveMessage, hstatus, efiTimeout, efiError_encodeError]

theorem receive_mem : (mtlReceiveMessage peer c).2 ∈ looks peer 11 0 c := by
  have hsnd : (mtlReceiveMessage peer c).2 = (mtlWaitUntilChannelFree peer responseTimeout c).2 := by
    unfold mtlReceiveMessage
    simp only []
    split_ifs <;> rfl
  rw [hsnd]
  rcases @waitEnds_receive c peer with ⟨-, hfind⟩ | ⟨-, -, hmem⟩
  · exact List.mem_of_find?_eq_some hfind
  · exact hmem

theorem MtlChannel.Consistent.put (h : c.Consistent)
    (hfree : c.mailbox.channelStatus = mtlChannelFree) :
    (c.put messageHeader payloadLength).Consistent := by
  have hbusy : mtlChannelBusy ≠ mtlChannelFree := by decide
  refine ⟨fun hfree => absurd hfree hbusy, ?_, fun _ hh => Option.some.inj hh⟩
  simp [MtlChannel.put, h.free hfree]

theorem MtlChannel.Consistent.send (h : c.Consistent) :
    (mtlSendMessage messageHeader payloadLength smc c).2.Consistent := by
  unfold mtlSendMessage
  split_ifs with hbusy hsmc
  · exact h
  · exact (h.put (not_not.1 hbusy)).peerWrites _
  · exact (h.put (not_not.1 hbusy)).peerWrites _

theorem MtlChannel.Consistent.step (h : c.Consistent) (step : MtlStep) :
    (mtlStep c step).Consistent := by
  cases step with
  | send messageHeader payloadLength smc => exact h.send
  | receive peer => exact h.looks _ receive_mem
  | peer mailbox => exact h.peerWrites mailbox

/-- What a step has to do: keep at most one message outstanding, leave the channel's status if it
fails to send, and report the last message and a payload inside the mailbox if it receives. -/
def MtlStep.Lawful (layout : MtlLayout) (c : MtlChannel) (step : MtlStep) : Prop :=
  (mtlStep c step).outstanding ≤ 1 ∧
  match step with
  | .send messageHeader payloadLength smc =>
    efiError (mtlSendMessage messageHeader payloadLength smc c).1 = true →
      (mtlStep c step).mailbox.channelStatus = c.mailbox.channelStatus
  | .receive peer =>
    ∀ messageHeader payloadLength,
      (mtlReceiveMessage peer c).1 = .ok (messageHeader, payloadLength) →
        (∀ h, (mtlStep c step).messages.head? = some h → messageHeader = h)
          ∧ payloadLength.toNat ≤ layout.payloadSize
  | .peer _ => True

/-- The doorbell's call does not fail with the channel left busy, and a length the peer leaves with
the channel free covers the header and ends inside the mailbox. -/
def MtlStep.Meets (layout : MtlLayout) (c : MtlChannel) : MtlStep → Prop
  | .send _ _ smc => c.isFree = true →
    smc.1 = 0 ∨ ∃ mailbox, smc.2 = some mailbox ∧ mailbox.channelStatus = mtlChannelFree
  | .receive peer => ∀ c', (looks peer 11 0 c).find? MtlChannel.isFree = some c' →
    4 ≤ c'.mailbox.length.toNat ∧ c'.mailbox.length.toNat ≤ 4 + layout.payloadSize
  | .peer _ => True

theorem send_status_iff :
    (efiError (mtlSendMessage messageHeader payloadLength smc c).1 = true →
        (mtlSendMessage messageHeader payloadLength smc c).2.mailbox.channelStatus
          = c.mailbox.channelStatus)
      ↔ (c.isFree = true →
        smc.1 = 0 ∨ ∃ mailbox, smc.2 = some mailbox ∧ mailbox.channelStatus = mtlChannelFree) := by
  by_cases hfree : c.mailbox.channelStatus = mtlChannelFree
  · have hbusy : mtlChannelBusy ≠ mtlChannelFree := by decide
    by_cases hsmc : smc.1 = 0
    · simp [mtlSendMessage, hfree, hsmc]
    · cases hpeer : smc.2 with
      | none =>
        simp [mtlSendMessage, MtlChannel.put, hfree, hsmc, hpeer, MtlChannel.peerWrites,
          MtlChannel.isFree, hbusy]
      | some mailbox =>
        simp [mtlSendMessage, hfree, hsmc, hpeer, MtlChannel.peerWrites, MtlChannel.isFree]
  · simp [mtlSendMessage, hfree, MtlChannel.isFree]

/-- The length without the header, which wraps below it, is inside the payload. -/
theorem payloadLength_le_iff {length : UInt32} : (length - 4).toNat ≤ layout.payloadSize
    ↔ 4 ≤ length.toNat ∧ length.toNat ≤ 4 + layout.payloadSize := by
  have hlt := length.toNat_lt
  have hsize := layout.size_lt
  have hheader := layout.header_le
  have h4 : (4 : UInt32).toNat = 4 := rfl
  rw [UInt32.toNat_sub, h4, MtlLayout.payloadSize]
  omega

theorem MtlStep.lawful_iff (h : c.Consistent) (step : MtlStep) :
    step.Lawful layout c ↔ step.Meets layout c := by
  have hle := (h.step step).outstanding_le
  unfold MtlStep.Lawful
  rw [and_iff_right hle]
  cases step with
  | send messageHeader payloadLength smc => exact send_status_iff
  | peer mailbox => exact Iff.rfl
  | receive peer =>
    simp only [MtlStep.Meets]
    cases hfind : (looks peer 11 0 c).find? MtlChannel.isFree with
    | none =>
      rw [receive_of_not_found hfind]
      simp
    | some c' =>
      have hlast := (h.looks c' (List.mem_of_find?_eq_some hfind)).last
      simp only [mtlStep, receive_of_found hfind, Except.ok.injEq, Prod.mk.injEq, and_imp,
        Option.some.injEq]
      constructor
      · rintro hall _ rfl
        exact payloadLength_le_iff.1 (hall _ _ rfl rfl).2
      · rintro hmeets _ _ rfl rfl
        exact ⟨hlast, payloadLength_le_iff.2 (hmeets c' rfl)⟩

/-- What holds at each step of a run from a mailbox on. -/
def MtlRun (P : MtlChannel → MtlStep → Prop) (mailbox : MtlMailbox) (steps : List MtlStep) : Prop :=
  AlongRun (fun c step => (Except.ok (mtlStep c step) : Except Empty MtlChannel)) P ⟨mailbox, 0, []⟩
    steps

/-- The steps of a run all do what they have to exactly if they all meet the condition. -/
theorem mtlRun_lawful_iff (layout : MtlLayout) (mailbox : MtlMailbox) (steps : List MtlStep) :
    MtlRun (fun c step => step.Lawful layout c) mailbox steps
      ↔ MtlRun (fun c step => step.Meets layout c) mailbox steps := by
  have hstep : ∀ c step, MtlChannel.Consistent c →
      Yields (fun _ : Empty => False) MtlChannel.Consistent (.ok (mtlStep c step)) :=
    fun _ step h => h.step step
  exact AlongRun.iff_of_invariant hstep (fun _ step h => step.lawful_iff h)
    (consistent_start mailbox)

/-- The mailbox of the boards, its payload behind seven words. -/
def rk3576Mailbox : MtlLayout where
  mailboxSize := 0x100
  payloadOffset := 28
  size_lt := by decide
  header_le := by decide

def freeMailbox : MtlMailbox where
  channelStatus := mtlChannelFree
  flags := 0
  length := 0
  messageHeader := 0

/-- What a call the monitor does not know returns. -/
def smcUnknown : UInt64 := 0xFFFFFFFFFFFFFFFF

/-- A doorbell that fails leaves the channel busy, so that no later send gets through; and a reply
without a length is received with a payload far behind the mailbox. -/
theorem mtlRun_not_lawful :
    ¬ MtlRun (fun c step => step.Lawful rk3576Mailbox c) freeMailbox
        [.send 0x10 0 (smcUnknown, none)]
      ∧ (mtlSendMessage 0x10 0 (0, none)
        (mtlSendMessage 0x10 0 (smcUnknown, none) ⟨freeMailbox, 0, []⟩).2).1 = efiDeviceError
      ∧ ¬ MtlRun (fun c step => step.Lawful rk3576Mailbox c) freeMailbox
        [.send 0x10 0 (0, some freeMailbox), .receive fun _ => none] := by
  have hsmc : smcUnknown ≠ 0 := by decide
  refine ⟨fun h => ?_, ?_, fun h => ?_⟩
  · rcases send_status_iff.1 h.1.2 rfl with hzero | ⟨mailbox, hsome, -⟩
    · exact hsmc hzero
    · cases hsome
  · simp [mtlSendMessage, MtlChannel.put, MtlChannel.peerWrites, freeMailbox, mtlChannelBusy,
      mtlChannelFree, hsmc]
  · have hconsistent := (consistent_start freeMailbox).step (.send 0x10 0 (0, some freeMailbox))
    have hlength := ((MtlStep.lawful_iff hconsistent _).1 h.2.1 _ rfl).1
    exact absurd hlength (by decide)

end Channel

end Edk2Rk3576
