import Edk2Rk3576.DwMmc.Trb
import Edk2Rk3576.Lib.Runs

/-!
# The queue of the SD and eMMC driver

A call of `PassThru` makes a request, and then queues it or runs it itself; calls from a higher
priority come in between. `ProcessAsyncTaskList` runs the head of the queue, and the removal of the
card and `ResetDevice` empty it.
-/

namespace Edk2Rk3576.DwMmc

def efiNoMedia : EfiStatus := encodeError 12
def efiAborted : EfiStatus := encodeError 21

/-- What the controller shows while it runs a command, and how long its driver is given. -/
structure ExecEnv where
  sched : CommandSchedule
  data : Cells (BitVec 8)
  blk : StatusBlk
  fuel : ℕ

/-- Where a call is. -/
inductive Stage
  /-- in `DwMmcCreateTrb`, with the writes that are left before `DwMmcHcStartDma` -/
  | setUp (rest : List RegWrite)
  | created
  /-- out of the wait for an empty queue -/
  | ready
  /-- in `DwMmcExecTrb`, with the writes that are left before the command -/
  | exec (rest : List RegWrite)
  | result

structure Call where
  trb : Trb
  dmaReset : Bool
  exec : ExecEnv
  stage : Stage

/-- The driver, with the calls under way, the innermost first. -/
structure QueueState where
  mediaPresent : Bool
  regs : Reg → ℕ
  calls : List Call
  queue : List Trb
  nextId : ℕ
  /-- A loop at `TPL_NOTIFY` does not end. -/
  stuck : Bool
  trace : List Event

inductive Input
  | passThru (event : Bool) (p : CommandPacket) (env : CreateEnv) (exec : ExecEnv)
  | proceed
  | timer (exec : ExecEnv)
  | cardRemoval
  | resetDevice

variable (card : CardType) (s : QueueState) (c : Call) (calls : List Call) (t : Trb)
  (rest : List Trb) (w : RegWrite) (stage : Stage) (x : ExecEnv) (status : EfiStatus)

/-! The steps of a call. -/

/-- A call with its request made, up to where the controller is set up. -/
def newCall (env : CreateEnv) : Call where
  trb := t
  dmaReset := env.dmaReset
  exec := x
  stage := if t.setUp = [] then .created else .setUp t.setUp

def passThru (event : Bool) (p : CommandPacket) (env : CreateEnv) : QueueState :=
  if s.mediaPresent then
    let created := createTrb card p env s.nextId event
    { s with
      nextId := s.nextId + 1
      trace := s.trace ++ created.events
      calls := created.trb.toList.map (fun t => newCall t x env) ++ s.calls }
  else s

/-- The innermost call goes on. -/
def advance : QueueState := { s with calls := { c with stage := stage } :: calls }

/-- The innermost call writes a register. -/
def writeStep : QueueState :=
  { s with
    regs := writeReg s.regs w
    calls :=
      { c with trb := { c.trb with written := c.trb.written ++ [w] }, stage := stage } :: calls }

/-- The innermost call returns. -/
def leave (es : List Event) : QueueState := { s with calls := calls, trace := s.trace ++ es }

def insertTail : QueueState :=
  { s with
    calls := calls
    queue := s.queue ++ [c.trb]
    trace := s.trace ++ [.accepted c.trb.id] }

/-- The innermost call gives its command. -/
def giveCommand : QueueState :=
  { s with
    calls := { c with stage := .result } :: calls
    trace := s.trace ++ [.command c.trb s.regs] }

def proceed : QueueState :=
  match s.calls with
  | [] => s
  | c :: calls =>
    match c.stage with
    | .setUp (w :: rest) => writeStep s c calls w (.setUp rest)
    | .setUp [] =>
      if c.dmaReset then advance s c calls .created
      else leave s calls [.released c.trb.id .dataMap]
    | .created =>
      if c.trb.event then insertTail s c calls
      else if s.queue.isEmpty then advance s c calls .ready
      else s
    | .ready =>
      if c.exec.sched.idle then advance s c calls (.exec (fifoWrites card c.trb.packet))
      else leave s calls (freeTrb c.trb)
    | .exec (w :: rest) => writeStep s c calls w (.exec rest)
    | .exec [] => giveCommand s c calls
    | .result =>
      match execAndWait card c.trb.packet c.exec.sched c.exec.data c.exec.blk c.exec.fuel with
      | none => s
      | some _ => leave s calls (freeTrb c.trb)

/-! The timer. -/

def finish : QueueState :=
  { s with queue := rest, trace := s.trace ++ (freeTrb t ++ [.signalled t.id status]) }

/-- What follows `Done`. -/
def finishOrWait : QueueState :=
  if status = efiNotReady then
    if t.packet.timeout = 0 then { s with queue := t :: rest }
    else if t.timeout = 0 then finish s t rest efiTimeout
    else { s with queue := { t with timeout := t.timeout - 1 } :: rest }
  else finish s t rest status

def checkResult : QueueState :=
  match dwMmcCheckTrbResult card t.packet x.sched x.fuel 0 with
  | none => { s with queue := t :: rest, stuck := true }
  | some status => finishOrWait s t rest status

/-- The request as `DwMmcExecTrb` leaves it. -/
def begun : Trb :=
  { t with
    started := true
    written := if x.sched.idle then t.written ++ fifoWrites card t.packet else t.written }

/-- `DwMmcExecTrb` up to its command, which it gives if the card is idle. -/
def start : QueueState :=
  let regs := if x.sched.idle then writeRegs s.regs (fifoWrites card t.packet) else s.regs
  { s with
    regs := regs
    queue := begun card t x :: rest
    trace := s.trace ++ (.executed t.id ::
      if x.sched.idle then [.command (begun card t x) regs] else []) }

def processAsyncTaskList : QueueState :=
  match s.queue with
  | [] => s
  | t :: rest =>
    if ¬ s.mediaPresent then finishOrWait s t rest efiNoMedia
    else if t.started then checkResult card s t rest x
    else
      match dwMmcExecTrb card t.packet x.sched x.data x.blk x.fuel with
      | none => { start card s t rest x with stuck := true }
      | some r =>
        if efiError r.status then
          finishOrWait (start card s t rest x) (begun card t x) rest r.status
        else checkResult card (start card s t rest x) (begun card t x) rest x

/-! The whole queue. -/

/-- The events of a queue all of whose requests are taken off. -/
def flushed (queue : List Trb) : List Event :=
  queue.flatMap fun t => .signalled t.id status :: freeTrb t

def flush : QueueState := { s with queue := [], trace := s.trace ++ flushed status s.queue }

def cardRemoval : QueueState :=
  if s.mediaPresent then { flush s efiNoMedia with mediaPresent := false } else s

def resetDevice : QueueState := if s.mediaPresent then flush s efiAborted else s

def queueStep (i : Input) : QueueState :=
  if s.stuck then s
  else
    match i with
    | .passThru event p env exec => passThru card s exec event p env
    | .proceed => proceed card s
    | .timer exec => processAsyncTaskList card s exec
    | .cardRemoval => cardRemoval s
    | .resetDevice => resetDevice s

/-- The driver before any request. -/
def idleQueue (mediaPresent : Bool) (regs : Reg → ℕ) : QueueState where
  mediaPresent := mediaPresent
  regs := regs
  calls := []
  queue := []
  nextId := 0
  stuck := false
  trace := []

/-! What is to hold of a run. -/

/-- The mappings of the requests under way. -/
def QueueState.held : List (ℕ × Mapping) :=
  s.calls.flatMap (fun c => c.trb.held) ++ s.queue.flatMap Trb.held

structure QueueSound : Prop where
  /-- Accepted requests are executed at most once, in the order of the queue. -/
  executed : (executed s.trace).Sublist (accepted s.trace) ∧ (accepted s.trace).Nodup
  /-- One that has left the queue has been signalled and freed once, one in it neither. -/
  finished : ∀ id ∈ accepted s.trace,
    if id ∈ s.queue.map Trb.id then
      ((signalled s.trace).map Prod.fst).count id = 0 ∧ (freed s.trace).count id = 0
    else ((signalled s.trace).map Prod.fst).count id = 1 ∧ (freed s.trace).count id = 1
  final : ∀ e ∈ signalled s.trace, e.2 ≠ efiNotReady
  /-- A mapping has been released once, or its request is under way and it has not. -/
  mappings : ∀ m ∈ mapped s.trace, (released s.trace).count m + s.held.count m = 1
  commands : ∀ t regs, .command t regs ∈ s.trace → t.Own card regs

/-! When it does. -/

/-- No request that is still to be given to the controller has set it up. -/
def Unclaimed : Prop :=
  (∀ c ∈ calls, c.stage ≠ .result → c.trb.written = []) ∧
    ∀ t ∈ rest, t.started = false → t.written = []

/-- No step writes over what another request has set up, and the reset of the DMA does not fail. -/
def QueueState.Fit : Input → Prop
  | .passThru _ p env _ => s.mediaPresent → Creates card p env
  | .proceed =>
    match s.calls with
    | [] => True
    | c :: calls =>
      match c.stage with
      | .setUp [] => c.dmaReset
      | .setUp (_ :: _) | .exec (_ :: _) => Unclaimed calls s.queue
      | _ => True
  | .timer x =>
    match s.queue with
    | [] => True
    | t :: rest => s.mediaPresent → t.started = false → x.sched.idle →
        fifoWrites card t.packet ≠ [] → Unclaimed s.calls rest
  | _ => True

end Edk2Rk3576.DwMmc
