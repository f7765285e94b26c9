import Edk2Rk3576.Ohci.Reset
import Edk2Rk3576.Lib.Runs

/-!
# Runs of the controller

Transfers of every kind are submitted in any order, interrupt transfers are cancelled, the timer
passes, the controller is reset, and writes back what it likes in between and while a transfer waits
for it.
-/

namespace Edk2Rk3576.Ohci

open Cells UnitPool

variable {D : DmaLib} {base₀ : DmaState} {top : ℕ} {dev : OhciDev} {att tds : ℕ → List ℕ}
  {other leaked : List (ℕ × ℕ)}

section Steps

/-- The device, and the buffers of requests that no context could be allocated for. -/
structure OhciTrace where
  dev : OhciDev
  leaked : List (ℕ × ℕ)

inductive OhciEvent
  | submit (req : InterruptRequest) (answer : InterruptAnswer)
  | cancel (req : InterruptRequest) (answer : InterruptAnswer)
  | bulk (req : BulkRequest) (answer : MapAnswer) (polls : ℕ → ControllerPoll)
  | control (req : ControlRequest) (reqAnswer dataAnswer : MapAnswer) (polls : ℕ → ControllerPoll)
  | timer
  | reset
  | write (w : ControllerWrite)

def ohciStep (D : DmaLib) (t : OhciTrace) : OhciEvent → Except OhciHalt OhciTrace
  | .submit req answer =>
    ohciAsyncInterruptTransfer D req answer true true t.dev >>= fun r =>
      .ok ⟨r.dev, if ¬ efiError r.status ∧ answer.entryNull then
        (answer.bufHost, efiSizeToPages req.dataLength) :: t.leaked else t.leaked⟩
  | .cancel req answer =>
    ohciAsyncInterruptTransfer D req answer false true t.dev >>= fun r => .ok ⟨r.dev, t.leaked⟩
  | .bulk req answer polls =>
    ohciBulkTransfer D req answer polls t.dev >>= fun r => .ok ⟨r.dev, t.leaked⟩
  | .control req reqAnswer dataAnswer polls =>
    ohciControlTransfer D req reqAnswer dataAnswer polls t.dev >>= fun r => .ok ⟨r.dev, t.leaked⟩
  | .timer => ohciHouseKeeper t.dev >>= fun r => .ok ⟨r.2.2, t.leaked⟩
  | .reset => ohciReset D t.dev >>= fun r => .ok ⟨r.2, t.leaked⟩
  | .write w => .ok ⟨t.dev.write w, t.leaked⟩

/-- An endpoint of a device, which is not the one for control transfers that every list begins
with. -/
structure InterruptRequest.Valid (req : InterruptRequest) : Prop where
  address : req.deviceAddress < 128
  endPoint : 0x80 ≤ req.endPointAddress ∧ req.endPointAddress < 0x90
  named : ¬ (req.deviceAddress = 0 ∧ req.endPointAddress = 0x80)

/-- A buffer that is mapped is mapped whole, to 32-bit addresses. -/
structure InterruptAnswer.Lawful (answer : InterruptAnswer) (req : InterruptRequest) : Prop where
  host : answer.bufHost ≠ 0
  mapping : answer.mapping ≠ 0
  whole : answer.mapLength = req.dataLength
  fits : answer.mapPyhAddr + answer.mapLength ≤ 2 ^ 32

/-- What a run takes from the callers, from the DMA library, and from a reset: that memory lasts for
the lists. -/
def OhciAllowed (D : DmaLib) (t : OhciTrace) : OhciEvent → Prop
  | .submit req answer =>
    req.Valid ∧ 0 < req.maximumPacketLength % 2 ^ 8 ∧ answer.Lawful req
  | .cancel req _ => req.Valid
  | .bulk req answer _ => answer.Lawful req.dataLength
  | .control req reqAnswer dataAnswer _ =>
    reqAnswer.mapping ≠ 0 ∧ dataAnswer.Lawful req.dataLength
  | .timer => True
  | .reset => ∀ freed, ohciFreeIntTransferMemory t.dev = .ok freed →
    ∃ made, ohciInitializeInterruptList D freed = .ok (efiSuccess, made) ∧ made.intervalList 5 0 ≠ 0
  | .write _ => True

variable {req : InterruptRequest} {answer : InterruptAnswer}

theorem submit_sound (hD : D.Lawful top) (htop : top ≤ 2 ^ 32)
    (h : TransfersSound top base₀ other leaked dev att tds) (hvalid : req.Valid)
    (hmax : 0 < req.maximumPacketLength % 2 ^ 8) (hanswer : answer.Lawful req) :
    ∃ r att' tds', ohciAsyncInterruptTransfer D req answer true true dev = .ok r ∧
      TransfersSound top base₀ other (if ¬ efiError r.status ∧ answer.entryNull then
        (answer.bufHost, efiSizeToPages req.dataLength) :: leaked else leaked) r.dev att' tds' := by
  obtain ⟨base, hsound, hB, hM, hk⟩ := h.held
  obtain ⟨r, hok, hsubmitted⟩ := ohciAsyncInterruptTransfer_ok hD htop hsound h.sched h.items_live
    hmax hanswer.host hanswer.whole
  rcases hsubmitted with ⟨hstatus, hundone⟩ | ⟨hstatus, hnull, hundone⟩ |
    ⟨n, a, head, new, dev', hn, hlevel, hstatus, hnull, hlength, hpolled, hbegun, haddress, hnum,
      hpieces, hdev⟩
  · refine ⟨r, att, tds, hok, ?_⟩
    rw [if_neg fun hcase => hcase.1 hstatus]
    exact h.undone hundone hB hM hk
  · refine ⟨r, att, tds, hok, ?_⟩
    rw [if_pos ⟨hstatus, hnull⟩]
    exact h.undone hundone ((hB.cons _).trans List.perm_middle.symm) hM hk
  · obtain ⟨haddr, ⟨hlow, hhigh⟩, -⟩ := hvalid
    have hmod : req.endPointAddress &&& 0xF = req.endPointAddress % 16 :=
      Nat.and_two_pow_sub_one_eq_mod req.endPointAddress 4
    refine ⟨r, Function.update att n (a :: att n), Function.update tds head new, hok, ?_⟩
    rw [if_neg fun hcase => Bool.eq_false_iff.1 hnull hcase.2, hdev]
    refine h.started hn hlevel hbegun (hB.cons _) (hM.cons _) hk ⟨⟨hlow, hhigh⟩, hpolled, ?_, ?_,
      hanswer.host, hanswer.mapping, ⟨hmax, Nat.mod_lt _ (by decide)⟩, hlength, hbegun.chain.pointer,
      answer.mapPyhAddr, req.dataToggle, ?_, ?_⟩
    · exact haddress.trans (Nat.mod_eq_of_lt haddr)
    · rw [hmod] at hnum
      exact hnum.trans (Nat.mod_mod _ _)
    · change answer.mapPyhAddr + req.dataLength ≤ 2 ^ 32
      rw [← hanswer.whole]
      exact hanswer.fits
    · change new.map (TdDescriptor.fixed ∘ fun x => (dev'.td x).unlinked) = _
      rw [← List.map_map, hpieces]
      rfl

theorem cancel_sound (htop : top ≤ 2 ^ 32)
    (h : TransfersSound top base₀ other leaked dev att tds) (hvalid : req.Valid) :
    ∃ r att', ohciAsyncInterruptTransfer D req answer false true dev = .ok r ∧
      TransfersSound top base₀ other leaked r.dev att' tds ∧
      (req.dataLength ≤ maxBytesPerTd → r.dev.interruptContextList =
        dev.interruptContextList.filter fun e =>
          !e.isOf req.deviceAddress req.endPointAddress) := by
  obtain ⟨-, hend, hnamed⟩ := hvalid
  by_cases hin : req.endPointAddress &&& 0x80 = 0
  · have hbit : req.endPointAddress &&& 0x80 ≠ 0 := by
      obtain ⟨hlow, hhigh⟩ := hend
      generalize req.endPointAddress = endPointAddress at hlow hhigh
      interval_cases endPointAddress <;> decide
    exact absurd hin hbit
  have hasync : ohciAsyncInterruptTransfer D req answer false true dev =
      ohciInterruptTransfer D req answer false 0 true true dev := by
    rw [ohciAsyncInterruptTransfer, if_neg (by simpa using hin)]
    exact if_neg Bool.false_ne_true
  rw [hasync, ohciInterruptTransfer]
  by_cases hlong : maxBytesPerTd < req.dataLength
  · rw [if_pos hlong]
    exact ⟨_, att, rfl, h, fun hle => by omega⟩
  · rw [if_neg hlong]
    obtain ⟨r, att', hok, hsound, hcontexts⟩ := h.cancelled htop hend hnamed
    exact ⟨r, att', hok, hsound, fun _ => hcontexts⟩

theorem keeps_write (w : ControllerWrite) : Keeps dev (dev.write w) := by
  rcases w with ⟨p, w⟩ | ⟨p, w⟩
  · refine ⟨rfl, fun x => ?_, fun _ => rfl⟩
    change (Function.update dev.ed p ((dev.ed p).writeBack w) x).place = _
    by_cases hx : x = p
    · rw [hx, Function.update_self]
      rfl
    · rw [Function.update_of_ne hx]
  · refine ⟨rfl, fun _ => rfl, fun x => ?_⟩
    change (Function.update dev.td p ((dev.td p).writeBack w) x).fixed = _
    by_cases hx : x = p
    · rw [hx, Function.update_self]
      rfl
    · rw [Function.update_of_ne hx]

/-- The state of a run. -/
def OhciSound (top : ℕ) (base₀ : DmaState) (other : List (ℕ × ℕ)) (t : OhciTrace) : Prop :=
  ∃ att tds, TransfersSound top base₀ other t.leaked t.dev att tds

theorem ohciStep_sound {t : OhciTrace} (hD : D.Lawful top) (htop : top ≤ 2 ^ 32)
    (h : OhciSound top base₀ other t) : ∀ event, OhciAllowed D t event →
      ∃ t', ohciStep D t event = .ok t' ∧ OhciSound top base₀ other t'
  | .submit req answer, ⟨hvalid, hmax, hanswer⟩ => by
    obtain ⟨att, tds, hsound⟩ := h
    obtain ⟨r, att', tds', hok, hsound'⟩ := submit_sound hD htop hsound hvalid hmax hanswer
    refine ⟨⟨r.dev, if ¬ efiError r.status ∧ answer.entryNull then
      (answer.bufHost, efiSizeToPages req.dataLength) :: t.leaked else t.leaked⟩, ?_, att', tds',
      hsound'⟩
    rw [ohciStep, hok]
    rfl
  | .cancel req answer, hvalid => by
    obtain ⟨att, tds, hsound⟩ := h
    obtain ⟨r, att', hok, hsound', -⟩ := @cancel_sound D _ _ _ _ _ _ _ req answer htop hsound hvalid
    refine ⟨⟨r.dev, t.leaked⟩, ?_, att', tds, hsound'⟩
    rw [ohciStep, hok]
    rfl
  | .bulk req answer polls, hanswer => by
    obtain ⟨att, tds, hsound⟩ := h
    obtain ⟨base, hpool, hB, hM, hk⟩ := hsound.held
    obtain ⟨r, hok, hsettled, hquiet, -⟩ := ohciBulkTransfer_ok polls hD htop hpool hanswer
    refine ⟨⟨r.dev, t.leaked⟩, ?_, att, tds, hsound.settled hsettled hquiet hB hM hk⟩
    rw [ohciStep, hok]
    rfl
  | .control req reqAnswer dataAnswer polls, ⟨hreq, hanswer⟩ => by
    obtain ⟨att, tds, hsound⟩ := h
    obtain ⟨base, hpool, hB, hM, hk⟩ := hsound.held
    obtain ⟨r, hok, hsettled, hquiet, -⟩ := ohciControlTransfer_ok polls hD htop hpool hreq hanswer
    refine ⟨⟨r.dev, t.leaked⟩, ?_, att, tds, hsound.settled hsettled hquiet hB hM hk⟩
    rw [ohciStep, hok]
    rfl
  | .timer, _ => by
    obtain ⟨att, tds, hsound⟩ := h
    obtain ⟨reports, restored, dev', served, rest, hok, hpassed⟩ := hsound.housekept htop
    refine ⟨⟨dev', t.leaked⟩, ?_, att, tds, hsound.keeps hpassed.keeps⟩
    rw [ohciStep, hok]
    rfl
  | .reset, hlasts => by
    obtain ⟨att, tds, hsound⟩ := h
    obtain ⟨freed, hfree, hgiven⟩ := hsound.free htop
    obtain ⟨made, hmade, hroot⟩ := hlasts freed hfree
    refine ⟨⟨made.operational, t.leaked⟩, ?_, _, _, hgiven.made hD htop hmade hroot⟩
    rw [ohciStep, ohciReset, hfree]
    change ((ohciInitializeInterruptList D freed >>= _) >>= _) = _
    rw [hmade]
    rfl
  | .write w, _ => by
    obtain ⟨att, tds, hsound⟩ := h
    exact ⟨_, rfl, att, tds, hsound.keeps (keeps_write w)⟩

end Steps

section Boot

/-- A device is started with a pool in use: it has no transfers and no lists, and is reset. -/
structure OhciBoot (D : DmaLib) (top : ℕ) (base₀ : DmaState) (dev₀ dev : OhciDev) : Prop where
  pool : ∃ poolNull check4G which4G pool d,
    usbHcInitMemPool D poolNull check4G which4G base₀ = (some pool, d) ∧
      ReachedOk (poolStep D) PoolAllowed ⟨pool, d, []⟩ dev₀.mem
  idle : dev₀.interruptContextList = []
  unmade : ∀ level index, dev₀.intervalList level index = 0
  reset : ohciReset D dev₀ = .ok (efiSuccess, dev)
  root : dev.intervalList 5 0 ≠ 0

/-- There is nothing to free of lists that are not there. -/
theorem ohciFreeLevels_unmade (h : ∀ level index, dev.intervalList level index = 0) :
    ∀ count level, ohciFreeLevels count level dev = .ok dev := by
  have hlevel : ∀ level count index, ohciFreeLevel level count index dev = .ok dev := by
    intro level count
    induction count with
    | zero => exact fun _ => rfl
    | succ count ih =>
      intro index
      rw [ohciFreeLevel, if_neg (not_not.2 (h level index))]
      exact ih (index + 1)
  intro count
  induction count with
  | zero => exact fun _ => rfl
  | succ count ih =>
    intro level
    rw [ohciFreeLevels, hlevel]
    exact ih (level + 1)

theorem OhciBoot.sound {dev₀ : OhciDev} (h : OhciBoot D top base₀ dev₀ dev) (hD : D.Lawful top)
    (htop : top ≤ 2 ^ 32) : OhciSound top base₀ dev₀.mem.live ⟨dev, []⟩ := by
  obtain ⟨poolNull, check4G, which4G, pool, d, hinit, hreached⟩ := h.pool
  have hgiven : Given top base₀ dev₀.mem.live [] dev₀ :=
    ⟨⟨base₀, poolSound_of_reached hD hinit hreached, .refl _, .refl _, rfl⟩, .refl _, h.idle⟩
  have hfree : ohciFreeIntTransferMemory dev₀ = .ok dev₀ := by
    rw [ohciFreeIntTransferMemory, h.idle]
    exact ohciFreeLevels_unmade h.unmade 6 0
  have hreset := h.reset
  rw [ohciReset, hfree] at hreset
  change (ohciInitializeInterruptList D dev₀ >>= fun r => Except.ok (r.1, r.2.operational)) = _ at hreset
  rcases hmade : ohciInitializeInterruptList D dev₀ with halt | ⟨status, made⟩ <;>
    rw [hmade] at hreset
  · cases hreset
  · obtain ⟨rfl, rfl⟩ := Prod.mk.inj (Except.ok.inj hreset)
    exact ⟨_, _, hgiven.made hD htop hmade h.root⟩

theorem ohciSound_of_reached {dev₀ : OhciDev} {t : OhciTrace} (hD : D.Lawful top)
    (htop : top ≤ 2 ^ 32) (hboot : OhciBoot D top base₀ dev₀ dev)
    (h : ReachedOk (ohciStep D) (OhciAllowed D) ⟨dev, []⟩ t) :
    OhciSound top base₀ dev₀.mem.live t := by
  have hstep : ∀ t event, OhciSound top base₀ dev₀.mem.live t → OhciAllowed D t event →
      Yields (fun _ => False) (OhciSound top base₀ dev₀.mem.live) (ohciStep D t event) :=
    fun t event ht hevent => by
      obtain ⟨t', hok, hsound⟩ := ohciStep_sound hD htop ht event hevent
      rw [hok]
      exact hsound
  exact h.invariant (hboot.sound hD htop) hstep

end Boot

section Example

/-- A controller over the pool, with no list yet. -/
def bumpDev : OhciDev where
  mem := ⟨bumpTrace.pool, bumpTrace.dma, []⟩
  ed := fun _ => .zeroed
  td := fun _ => .zeroed
  hccaInterruptTable := fun _ => 0
  intervalList := fun _ _ => 0
  interruptContextList := []
  controlHead := 0
  bulkHead := 0
  periodicEnable := false
  controlEnable := false
  bulkEnable := false

/-- A mouse, polled every ten frames. -/
def bumpRequest : InterruptRequest := ⟨1, 0x81, false, 8, 0, 10, 20⟩

def bumpAnswer : InterruptAnswer := ⟨efiSuccess, 0x100000, efiSuccess, 20, 0x100000, 7, false⟩

/-- A block is read from a disk. -/
def bumpBulk : BulkRequest := ⟨false, 1, 0x82, 64, 130, 0, 3⟩

/-- A descriptor is read from a device. -/
def bumpControl : ControlRequest := ⟨false, false, 1, false, 64, .dataIn, 18, 3⟩

def bumpMap (length : ℕ) : MapAnswer := ⟨efiSuccess, length, 0x200000, 8⟩

theorem bumpMap_lawful : (bumpMap 130).Lawful bumpBulk.dataLength ∧
    (bumpMap 18).Lawful bumpControl.dataLength :=
  ⟨⟨by decide, rfl, by decide⟩, by decide, rfl, by decide⟩

/-- A controller that does not get through. -/
def bumpPolls : ℕ → ControllerPoll := fun _ => ⟨[], false⟩

/-- The lists are made over the pool, and a transfer is submitted. -/
theorem bumpDev_run : ∃ (dev : OhciDev) (t : OhciTrace),
    OhciBoot bumpDma (2 ^ 32) .idle bumpDev dev ∧
      ReachedOk (ohciStep bumpDma) (OhciAllowed bumpDma) ⟨dev, []⟩ t ∧
      t.dev.interruptContextList.length = 1 := by
  have hcheck : (match ohciReset bumpDma bumpDev with
      | .error _ => false
      | .ok (status, dev) => decide (status = efiSuccess ∧ dev.intervalList 5 0 ≠ 0) &&
        match ohciStep bumpDma ⟨dev, []⟩ (.submit bumpRequest bumpAnswer) with
        | .error _ => false
        | .ok t => decide (t.dev.interruptContextList.length = 1)) = true := by
    decide +kernel
  rcases hlists : ohciReset bumpDma bumpDev with e | ⟨status, dev⟩ <;>
    rw [hlists] at hcheck
  · cases hcheck
  rw [Bool.and_eq_true] at hcheck
  obtain ⟨hmade, hcheck⟩ := hcheck
  obtain ⟨rfl, hroot⟩ := of_decide_eq_true hmade
  rcases hsubmit : ohciStep bumpDma ⟨dev, []⟩ (.submit bumpRequest bumpAnswer) with e | t <;>
    rw [hsubmit] at hcheck
  · cases hcheck
  refine ⟨dev, t, ⟨⟨false, false, 0, bumpTrace.pool, bumpTrace.dma, bumpTrace_init, .start⟩, rfl,
    fun _ _ => rfl, hlists, hroot⟩, ReachedOk.start.next _ ?_ hsubmit, of_decide_eq_true hcheck⟩
  exact ⟨⟨by decide, by decide, by decide⟩, by decide, by decide, by decide, rfl, by decide⟩

end Example

end Edk2Rk3576.Ohci
