import Edk2Rk3576.DwMmc.Fifo
import Edk2Rk3576.Lib.Polling
import Mathlib.Data.Nat.Find

/-!
# A command of the card

`DwMmcExecTrb` gives the controller a command and waits until it is done, in one way for an eMMC and
in another for an SD card, and `DwMmcWaitTrbResult` then waits for its data. The loops differ in
what ends them: one has no budget, one forgets that it has used its own up.
-/

namespace Edk2Rk3576.DwMmc

inductive CardType
  | emmc
  | sd
  deriving DecidableEq

inductive SdMmcCommandType
  | bc
  | bcr
  | ac
  | adtc
  deriving DecidableEq

inductive SdMmcResponseType
  | r1
  | r1b
  | r2
  | r3
  | r4
  | r5
  | r5b
  | r6
  | r7

/-! The command indices of the two standards. -/

def emmcGoIdleState : ℕ := 0
def emmcSendOpCond : ℕ := 1
def emmcAllSendCid : ℕ := 2
def emmcSetRelativeAddr : ℕ := 3
def emmcSendCsd : ℕ := 9
def emmcStopTransmission : ℕ := 12
def emmcSendStatus : ℕ := 13
def sdGoIdleState : ℕ := 0
def sdSetRelativeAddr : ℕ := 3
def sdSendCsd : ℕ := 9
def sdSendCid : ℕ := 10
def sdStopTransmission : ℕ := 12
def sdSendTuningBlock : ℕ := 19
def sdSendScr : ℕ := 51

/-- A command packet, whose buffers `PassThru` has found to be there. -/
structure CommandPacket where
  commandIndex : ℕ
  commandType : SdMmcCommandType
  responseType : SdMmcResponseType
  commandArgument : BitVec 32
  inTransferLength : UInt32
  outTransferLength : UInt32
  timeout : UInt64

variable (card : CardType) (p : CommandPacket)

/-! What `DwMmcCreateTrb` makes of it. -/

def CommandPacket.read : Bool := p.inTransferLength ≠ 0

def CommandPacket.dataLen : UInt32 :=
  if p.inTransferLength ≠ 0 then p.inTransferLength else p.outTransferLength

def CommandPacket.useFifo : Bool := card = .sd ∧ p.commandIndex ≠ sdSendTuningBlock

/-! The word for `CMD`. -/

def cmdIndex (x : ℕ) : BitVec 32 := BitVec.ofNat 32 x &&& 0x3F
def bitCmdResponseExpect : BitVec 32 := 1 <<< 6
def bitCmdLongResponse : BitVec 32 := 1 <<< 7
def bitCmdCheckResponseCrc : BitVec 32 := 1 <<< 8
def bitCmdDataExpected : BitVec 32 := 1 <<< 9
def bitCmdRead : BitVec 32 := 0 <<< 10
def bitCmdWrite : BitVec 32 := 1 <<< 10
def bitCmdSendAutoStop : BitVec 32 := 1 <<< 12
def bitCmdWaitPrvdataComplete : BitVec 32 := 1 <<< 13
def bitCmdStopAbortCmd : BitVec 32 := 1 <<< 14
def bitCmdSendInit : BitVec 32 := 1 <<< 15
def bitCmdUseHoldReg : BitVec 32 := 1 <<< 29

/-- The bits for the data of a command. -/
def dataCmd : BitVec 32 :=
  if p.inTransferLength ≠ 0 then bitCmdWaitPrvdataComplete ||| bitCmdDataExpected ||| bitCmdRead
  else if p.outTransferLength ≠ 0 then
    bitCmdWaitPrvdataComplete ||| bitCmdDataExpected ||| bitCmdWrite
  else 0

def emmcCmd : BitVec 32 :=
  let cmd := cmdIndex p.commandIndex
  let cmd :=
    if p.commandType = .ac ∨ p.commandType = .adtc then
      cmd ||| (if p.commandIndex = emmcSetRelativeAddr then bitCmdSendInit
        else if p.commandIndex = emmcSendStatus then bitCmdWaitPrvdataComplete
        else if p.commandIndex = emmcStopTransmission then bitCmdStopAbortCmd
        else 0) ||| dataCmd p ||| bitCmdResponseExpect ||| bitCmdCheckResponseCrc
    else
      cmd ||| (if p.commandIndex = emmcGoIdleState then bitCmdSendInit
        else if p.commandIndex = emmcSendOpCond then bitCmdResponseExpect
        else if p.commandIndex = emmcAllSendCid then
          bitCmdResponseExpect ||| bitCmdLongResponse ||| bitCmdCheckResponseCrc ||| bitCmdSendInit
        else 0)
  let cmd :=
    match p.responseType with
    | .r2 => cmd ||| bitCmdResponseExpect ||| bitCmdCheckResponseCrc ||| bitCmdLongResponse
    | .r3 => cmd ||| bitCmdResponseExpect
    | _ => cmd
  cmd ||| bitCmdUseHoldReg ||| cmdStartBit

def sdCmd : BitVec 32 :=
  let cmd := cmdIndex p.commandIndex
  let cmd :=
    if p.commandType = .ac ∨ p.commandType = .adtc then
      cmd ||| (if p.commandIndex = sdSetRelativeAddr then bitCmdSendInit
        else if p.commandIndex = sdStopTransmission then bitCmdStopAbortCmd
        else 0) ||| dataCmd p ||| bitCmdResponseExpect ||| bitCmdCheckResponseCrc |||
          bitCmdSendAutoStop
    else cmd ||| if p.commandIndex = sdGoIdleState then bitCmdSendInit else 0
  let cmd :=
    match p.responseType with
    | .r2 => cmd ||| bitCmdResponseExpect ||| bitCmdCheckResponseCrc ||| bitCmdLongResponse
    | .r3 => cmd ||| bitCmdResponseExpect
    | .r1b | .r4 | .r6 | .r7 => cmd ||| bitCmdResponseExpect ||| bitCmdCheckResponseCrc
    | _ => cmd
  cmd ||| bitCmdUseHoldReg ||| cmdStartBit

/-- `Trb->UseBE`, which the SCR alone sets. -/
def CommandPacket.useBe : Bool :=
  (p.commandType = .ac ∨ p.commandType = .adtc) ∧ p.commandIndex = sdSendScr

/-- The words written for a command: `BYTCNT` and `BLKSIZ` if the FIFO is used, `CMDARG`, `CMD`. -/
structure IssuedCommand where
  sizes : Option (UInt32 × UInt32)
  cmdArg : BitVec 32
  cmd : BitVec 32

/-- The FIFO set-up of `DwSdExecTrb`. -/
def fifoSizes : UInt32 × UInt32 :=
  let bytCnt := if p.read then p.inTransferLength else p.outTransferLength
  (bytCnt, if bytCnt > UInt32.ofNat dwMmcBlockSize then UInt32.ofNat dwMmcBlockSize else bytCnt)

def issuedCommand : IssuedCommand where
  sizes := if p.useFifo card then some (fifoSizes p) else none
  cmdArg := p.commandArgument
  cmd := match card with
    | .emmc => emmcCmd p
    | .sd => sdCmd p

/-- The four response words of a status block. -/
abbrev StatusBlk := ℕ → BitVec 32

/-- What the controller shows at each read of a register in each of the loops, and its response
words, once a command is done and before. -/
structure CommandSchedule where
  status : ℕ → BitVec 32
  rintsts : ℕ → BitVec 32
  answer : StatusBlk
  stale : StatusBlk
  fifo : FifoSchedule
  execIdsts : ℕ → BitVec 32
  checkRintsts : ℕ → BitVec 32
  checkIdsts : ℕ → BitVec 32

structure CommandResult where
  status : EfiStatus
  issued : Option IssuedCommand
  resp : StatusBlk

variable (sched : CommandSchedule) (data : Cells (BitVec 8)) (blk : StatusBlk) (fuel : ℕ)

def dwMmcStsDataBusy : BitVec 32 := 1 <<< 9
def dwMmcIdstsTi : BitVec 32 := 1 <<< 0
def dwMmcIdstsRi : BitVec 32 := 1 <<< 1

/-- The card is idle within the budget. -/
def CommandSchedule.idle : Bool :=
  (pollFor (fun n => if sched.status n &&& dwMmcStsDataBusy = 0 then some () else none)
    dwMmcHcGenericTimeout 0).isSome

def errMask : BitVec 32 :=
  let base := dwMmcIntEbe ||| dwMmcIntHle ||| dwMmcIntRto ||| dwMmcIntRcrc ||| dwMmcIntRe |||
    dwMmcIntDrt ||| dwMmcIntSbe
  match card with
  | .emmc => base ||| dwMmcIntDcrc
  | .sd => if p.inTransferLength ≠ 0 ∨ p.outTransferLength ≠ 0 then base ||| dwMmcIntDcrc else base

/-- The workaround for a CSD or CID: the first 15 bytes of the response are those from the second
on. -/
def csdShift (resp : StatusBlk) : StatusBlk := fun i =>
  if i < 4 then wordOf fun r => streamByte resp (if 4 * i + r < 15 then 4 * i + r + 1 else 15)
  else resp i

/-- The status block after the response registers have been read into it. -/
def readResponse (resp : StatusBlk) : StatusBlk :=
  let one : StatusBlk := fun i => if i = 0 then resp 0 else blk i
  let blk :=
    match p.responseType with
    | .r1 | .r1b | .r3 | .r4 | .r5 => one
    | .r6 | .r7 => if card = .sd then one else blk
    | .r2 => fun i => if i < 4 then resp i else blk i
    | .r5b => blk
  if card = .emmc ∧ p.commandIndex = emmcSendCsd ∨
      card = .sd ∧ (p.commandIndex = sdSendCsd ∨ p.commandIndex = sdSendCid) then csdShift blk
  else blk

/-- A pass of the command wait of an eMMC, which starts its budget anew. That the data is not over
yet does not keep it from ending. -/
def emmcPass (n : ℕ) : Option EfiStatus :=
  if sched.rintsts n &&& errMask .emmc p ≠ 0 then some efiDeviceError
  else if sched.rintsts n &&& dwMmcIntCmdDone ≠ 0 then some efiSuccess
  else none

def dwEmmcExecTrb : Option CommandResult :=
  if sched.idle then
    match pollFor (emmcPass p sched) fuel 0 with
    | none => none
    | some (status, _) =>
      some ⟨status, some (issuedCommand .emmc p),
        if efiError status then blk else readResponse .emmc p blk sched.answer⟩
  else some ⟨efiTimeout, none, blk⟩

/-- The reads that the command wait of an SD card has a budget for. -/
def sdReads : ℕ := 10000 - 1

/-- The interrupt status that the wait ends with, whether the command is done or not. -/
def sdIntStatus : BitVec 32 :=
  match pollFor (fun n => if sched.rintsts n &&& dwMmcIntCmdDone ≠ 0 then some n else none)
    sdReads 0 with
  | some (n, _) => sched.rintsts n
  | none => sched.rintsts (sdReads - 1)

/-- The bit of `IDSTS` that tells that the data is over. -/
def dmaBit : BitVec 32 := if p.inTransferLength ≠ 0 then dwMmcIdstsRi else dwMmcIdstsTi

/-- A wait for that bit, without a budget. -/
def waitDma (idsts : ℕ → BitVec 32) : Option EfiStatus :=
  (pollFor (fun n => if idsts n &&& dmaBit p ≠ 0 then some efiSuccess else none) fuel 0).map
    Prod.fst

def CommandPacket.fifoTrb : FifoTrb := ⟨p.read, p.useBe, p.dataLen⟩

/-- The data of an SD command. -/
def sdData : Option EfiStatus :=
  if p.dataLen = 0 then some efiSuccess
  else if p.useFifo .sd then (transferFifo p.fifoTrb sched.fifo fuel data fuel).1
  else waitDma p fuel sched.execIdsts

def dwSdExecTrb : Option CommandResult :=
  if sched.idle then
    let intStatus := sdIntStatus sched
    if intStatus &&& errMask .sd p ≠ 0 then
      some ⟨efiDeviceError, some (issuedCommand .sd p), blk⟩
    else
      match sdData p sched data fuel with
      | none => none
      | some status =>
        let resp := if intStatus &&& dwMmcIntCmdDone ≠ 0 then sched.answer else sched.stale
        some ⟨status, some (issuedCommand .sd p),
          if efiError status then blk else readResponse .sd p blk resp⟩
  else some ⟨efiTimeout, none, blk⟩

def dwMmcExecTrb : Option CommandResult :=
  match card with
  | .emmc => dwEmmcExecTrb p sched blk fuel
  | .sd => dwSdExecTrb p sched data blk fuel

def dwMmcIntAcd : BitVec 32 := 1 <<< 14

/-- `DwMmcCheckTrbResult`, in pass `n` of its caller. -/
def dwMmcCheckTrbResult (n : ℕ) : Option EfiStatus :=
  if p.useFifo card then
    if p.dataLen = 0 then some efiSuccess
    else if sched.checkRintsts n &&& dwMmcIntAcd = 0 then some efiNotReady
    else if sched.checkRintsts n &&& dwMmcIntDto = 0 then some efiNotReady
    else some efiSuccess
  else if p.dataLen = 0 then some efiSuccess
  else waitDma p fuel sched.checkIdsts

/-- A pass of `DwMmcWaitTrbResult`; its result has no status if the check does not return. -/
def checkPass (n : ℕ) : Option (Option EfiStatus) :=
  match dwMmcCheckTrbResult card p sched fuel n with
  | none => some none
  | some status => if status ≠ efiNotReady then some (some status) else none

def dwMmcWaitTrbResult : Option EfiStatus :=
  let passes := if p.timeout = 0 then fuel else p.timeout.toNat
  match pollFor (checkPass card p sched fuel) passes 0 with
  | some (status, _) => status
  | none => if p.timeout = 0 then none else some efiTimeout

/-- The command and the wait for its data, as a blocking `PassThru` has them. -/
def execAndWait : Option CommandResult :=
  match dwMmcExecTrb card p sched data blk fuel with
  | none => none
  | some r =>
    if efiError r.status then some r
    else (dwMmcWaitTrbResult card p sched fuel).map fun status => { r with status := status }

/-! What a command's outcome is to mean. -/

/-- Read `n` is the first that shows a bit. -/
def FirstShows (reads : ℕ → BitVec 32) (bits : BitVec 32) (n : ℕ) : Prop :=
  reads n &&& bits ≠ 0 ∧ ∀ m < n, reads m &&& bits = 0

/-- The command has been seen done, in a read without any error bit. -/
def CommandDone : Prop :=
  ∃ n, FirstShows sched.rintsts dwMmcIntCmdDone n ∧ sched.rintsts n &&& errMask card p = 0 ∧
    (card = .sd → n < sdReads)

/-- All bytes have been moved and the transfer has been seen over, or its DMA has been. -/
def DataDone : Prop :=
  p.dataLen ≠ 0 →
    if p.useFifo card then
      (∃ fuel, (transferFifo p.fifoTrb sched.fifo fuel data fuel).1 = some efiSuccess) ∧
        ∃ n < p.timeout.toNat, sched.checkRintsts n &&& dwMmcIntDto ≠ 0
    else ∃ n, FirstShows sched.checkIdsts (dmaBit p) n

/-- The command returns, and a success means that it is done, with its own response. -/
structure CommandSound : Prop where
  returns : ∃ fuel r, execAndWait card p sched data blk fuel = some r
  success : ∀ fuel r, execAndWait card p sched data blk fuel = some r → r.status = efiSuccess →
    CommandDone card p sched ∧ DataDone card p sched data ∧
      r.resp = readResponse card p blk sched.answer

/-! When it does. -/

/-- The controller ends the data phase of an SD command. -/
def DataEnds : Prop :=
  p.dataLen ≠ 0 →
    if p.useFifo .sd then
      ∃ fuel status, (transferFifo p.fifoTrb sched.fifo fuel data fuel).1 = some status
    else (∃ n, sched.execIdsts n &&& dmaBit p ≠ 0) ∧ ∃ n, sched.checkIdsts n &&& dmaBit p ≠ 0

/-- It ends it with success. -/
def DataSucceeds : Prop :=
  p.dataLen ≠ 0 →
    if p.useFifo .sd then
      (∃ fuel, (transferFifo p.fifoTrb sched.fifo fuel data fuel).1 = some efiSuccess) ∧
        ∃ n < p.timeout.toNat, sched.checkRintsts n &&& dwMmcIntAcd ≠ 0 ∧
          sched.checkRintsts n &&& dwMmcIntDto ≠ 0
    else (∃ n, sched.execIdsts n &&& dmaBit p ≠ 0) ∧ ∃ n, sched.checkIdsts n &&& dmaBit p ≠ 0

/-- An eMMC shows an error or that the command is done, and then that its data is. -/
def EmmcAnswers : Prop :=
  ∃ n, FirstShows sched.rintsts (errMask .emmc p ||| dwMmcIntCmdDone) n ∧
    (sched.rintsts n &&& errMask .emmc p = 0 → p.dataLen ≠ 0 →
      ∃ m, sched.checkIdsts m &&& dmaBit p ≠ 0)

/-- An SD card shows within the budget that the command is done, and ends its data; or it does not,
and shows an error at the end of the budget or has its data fail. -/
def SdAnswers : Prop :=
  (∃ n < sdReads, FirstShows sched.rintsts dwMmcIntCmdDone n ∧
    (sched.rintsts n &&& errMask .sd p = 0 → DataEnds p sched data)) ∨
  (∀ n < sdReads, sched.rintsts n &&& dwMmcIntCmdDone = 0) ∧
    (sched.rintsts (sdReads - 1) &&& errMask .sd p = 0 →
      DataEnds p sched data ∧ ¬ DataSucceeds p sched data)

def Answers : Prop :=
  match card with
  | .emmc => EmmcAnswers p sched
  | .sd => SdAnswers p sched data

section Waits

variable {card p sched data blk fuel} {reads : ℕ → BitVec 32} {bits : BitVec 32} {n : ℕ}
  {status : EfiStatus} {r : CommandResult}

theorem firstShows_unique {m : ℕ} (h : FirstShows reads bits n) (h' : FirstShows reads bits m) :
    n = m := by
  rcases Nat.lt_trichotomy n m with hlt | rfl | hlt
  · exact absurd (h'.2 n hlt) h.1
  · rfl
  · exact absurd (h.2 m hlt) h'.1

theorem waitDma_eq_some (h : waitDma p fuel reads = some status) :
    status = efiSuccess ∧ ∃ n, FirstShows reads (dmaBit p) n := by
  rw [waitDma, Option.map_eq_some_iff] at h
  obtain ⟨⟨st, left⟩, hpoll, rfl⟩ := h
  obtain ⟨n, -, hpass, hfirst⟩ := pollFor_eq_some hpoll
  rw [Nat.zero_add] at hpass
  split_ifs at hpass with hn
  refine ⟨(Option.some.inj hpass).symm, n, hn, fun m hm => ?_⟩
  have hnone := hfirst m hm
  rw [Nat.zero_add] at hnone
  split_ifs at hnone with hm'
  exact not_not.mp hm'

theorem waitDma_of_shows (h : reads n &&& dmaBit p ≠ 0) (hn : n < fuel) :
    waitDma p fuel reads = some efiSuccess := by
  have hsome : (pollFor (fun n => if reads n &&& dmaBit p ≠ 0 then some efiSuccess else none)
      fuel 0).isSome := by
    rw [pollFor_isSome]
    refine ⟨n, hn, ?_⟩
    rw [Nat.zero_add, if_pos h]
    rfl
  obtain ⟨r, hr⟩ := Option.isSome_iff_exists.mp hsome
  have hwait : waitDma p fuel reads = some r.1 := by
    rw [waitDma, hr]
    rfl
  rw [hwait, (waitDma_eq_some hwait).1]

theorem useFifo_emmc : p.useFifo .emmc = false := rfl

/-! The wait for the data. -/

/-- A check that does not say that it is not ready ends the wait in its first pass. -/
theorem waitTrbResult_of_check (htime : p.timeout ≠ 0)
    (h : ∀ status, dwMmcCheckTrbResult card p sched fuel 0 = some status → status ≠ efiNotReady) :
    dwMmcWaitTrbResult card p sched fuel = dwMmcCheckTrbResult card p sched fuel 0 := by
  have hpos : 0 < p.timeout.toNat := Nat.pos_of_ne_zero fun heq =>
    htime (UInt64.toNat_inj.mp heq)
  have hpass : checkPass card p sched fuel (0 + 0) =
      some (dwMmcCheckTrbResult card p sched fuel 0) := by
    rw [Nat.zero_add, checkPass]
    rcases hcheck : dwMmcCheckTrbResult card p sched fuel 0 with _ | status
    · rfl
    · exact if_pos (h status hcheck)
  rw [dwMmcWaitTrbResult, if_neg htime, pollFor_of_first hpass nofun hpos]

theorem waitTrbResult_noData (htime : p.timeout ≠ 0) (hdata : p.dataLen = 0) :
    dwMmcWaitTrbResult card p sched fuel = some efiSuccess := by
  have hcheck : dwMmcCheckTrbResult card p sched fuel 0 = some efiSuccess := by
    rw [dwMmcCheckTrbResult]
    split <;> rfl
  rw [waitTrbResult_of_check htime, hcheck]
  intro status heq
  rw [hcheck] at heq
  cases heq
  decide

theorem waitTrbResult_dma (htime : p.timeout ≠ 0) (hdata : p.dataLen ≠ 0)
    (hfifo : p.useFifo card = false) :
    dwMmcWaitTrbResult card p sched fuel = waitDma p fuel sched.checkIdsts := by
  have hcheck : dwMmcCheckTrbResult card p sched fuel 0 = waitDma p fuel sched.checkIdsts := by
    rw [dwMmcCheckTrbResult, if_neg (by simp [hfifo]), if_neg hdata]
  rw [waitTrbResult_of_check htime, hcheck]
  intro status heq
  rw [hcheck] at heq
  rw [(waitDma_eq_some heq).1]
  decide

/-- The pass of the wait that sees the transfer over. -/
theorem checkPass_fifo (hdata : p.dataLen ≠ 0) (hfifo : p.useFifo card = true) :
    checkPass card p sched fuel n =
      if sched.checkRintsts n &&& dwMmcIntAcd ≠ 0 ∧ sched.checkRintsts n &&& dwMmcIntDto ≠ 0 then
        some (some efiSuccess)
      else none := by
  rw [checkPass, dwMmcCheckTrbResult, if_pos hfifo, if_neg hdata]
  by_cases hacd : sched.checkRintsts n &&& dwMmcIntAcd = 0
  · rw [if_pos hacd, if_neg fun h => h.1 hacd]
    rfl
  · by_cases hdto : sched.checkRintsts n &&& dwMmcIntDto = 0
    · rw [if_neg hacd, if_pos hdto, if_neg fun h => h.2 hdto]
      rfl
    · rw [if_neg hacd, if_neg hdto, if_pos ⟨hacd, hdto⟩]
      rfl

theorem waitTrbResult_fifo (htime : p.timeout ≠ 0) (hdata : p.dataLen ≠ 0)
    (hfifo : p.useFifo card = true) :
    ∃ status, dwMmcWaitTrbResult card p sched fuel = some status ∧
      (status = efiSuccess ↔ ∃ n < p.timeout.toNat,
        sched.checkRintsts n &&& dwMmcIntAcd ≠ 0 ∧ sched.checkRintsts n &&& dwMmcIntDto ≠ 0) := by
  rw [dwMmcWaitTrbResult, if_neg htime, if_neg htime]
  rcases hpoll : pollFor (checkPass card p sched fuel) p.timeout.toNat 0 with _ | ⟨st, left⟩
  · refine ⟨efiTimeout, rfl, fun h => absurd h (encodeError_ne_success 18), ?_⟩
    rintro ⟨n, hn, hshows⟩
    have hsome : (pollFor (checkPass card p sched fuel) p.timeout.toNat 0).isSome := by
      rw [pollFor_isSome]
      refine ⟨n, hn, ?_⟩
      rw [Nat.zero_add, checkPass_fifo hdata hfifo, if_pos hshows]
      rfl
    rw [hpoll] at hsome
    cases hsome
  · obtain ⟨n, hn, hpass, -⟩ := pollFor_eq_some hpoll
    rw [Nat.zero_add, checkPass_fifo hdata hfifo] at hpass
    split_ifs at hpass with hshows
    obtain rfl := Option.some.inj hpass
    exact ⟨efiSuccess, rfl, fun _ => ⟨n, hn, hshows⟩, fun _ => rfl⟩

/-! The eMMC. -/

theorem and_or_ne_zero {x y z : BitVec 32} : x &&& (y ||| z) ≠ 0 ↔ x &&& y ≠ 0 ∨ x &&& z ≠ 0 := by
  rw [BitVec.and_or_distrib_left]
  exact (not_congr BitVec.or_eq_zero_iff).trans not_and_or

theorem emmcPass_isSome : (emmcPass p sched n).isSome ↔
    sched.rintsts n &&& (errMask .emmc p ||| dwMmcIntCmdDone) ≠ 0 := by
  rw [emmcPass, and_or_ne_zero]
  split_ifs with herr hdone
  · exact iff_of_true rfl (.inl herr)
  · exact iff_of_true rfl (.inr hdone)
  · exact iff_of_false nofun (not_or.mpr ⟨herr, hdone⟩)

theorem emmcWait_eq_some {left : ℕ} (h : pollFor (emmcPass p sched) fuel 0 = some (status, left)) :
    ∃ n, FirstShows sched.rintsts (errMask .emmc p ||| dwMmcIntCmdDone) n ∧
      emmcPass p sched n = some status := by
  obtain ⟨n, -, hpass, hfirst⟩ := pollFor_eq_some h
  rw [Nat.zero_add] at hpass
  refine ⟨n, ⟨emmcPass_isSome.mp (by rw [hpass]; rfl), fun m hm => ?_⟩, hpass⟩
  have hnone := hfirst m hm
  rw [Nat.zero_add] at hnone
  refine not_not.mp fun hne => ?_
  have hsome := emmcPass_isSome.mpr hne
  rw [hnone] at hsome
  cases hsome

/-- A command that is done without an error has been seen done first then. -/
theorem commandDone_emmc
    (h : FirstShows sched.rintsts (errMask .emmc p ||| dwMmcIntCmdDone) n)
    (herr : sched.rintsts n &&& errMask .emmc p = 0) : CommandDone .emmc p sched := by
  refine ⟨n, ⟨(and_or_ne_zero.mp h.1).resolve_left (not_not.mpr herr), fun m hm => ?_⟩, herr,
    nofun⟩
  have hzero := h.2 m hm
  rw [BitVec.and_or_distrib_left] at hzero
  exact (BitVec.or_eq_zero_iff.mp hzero).2

theorem execAndWait_emmc (hidle : sched.idle = true) {left : ℕ}
    (hwait : pollFor (emmcPass p sched) fuel 0 = some (status, left)) :
    execAndWait .emmc p sched data blk fuel =
      if efiError status then some ⟨status, some (issuedCommand .emmc p), blk⟩
      else (dwMmcWaitTrbResult .emmc p sched fuel).map fun st =>
        ⟨st, some (issuedCommand .emmc p), readResponse .emmc p blk sched.answer⟩ := by
  rw [execAndWait, dwMmcExecTrb, dwEmmcExecTrb, if_pos hidle, hwait]
  dsimp only
  split <;> rfl

/-- A run that returns has been answered, and its success means what it says. -/
theorem emmc_run (htime : p.timeout ≠ 0) (hidle : sched.idle = true)
    (h : execAndWait .emmc p sched data blk fuel = some r) :
    EmmcAnswers p sched ∧ (r.status = efiSuccess → CommandDone .emmc p sched ∧
      DataDone .emmc p sched data ∧ r.resp = readResponse .emmc p blk sched.answer) := by
  rcases hwait : pollFor (emmcPass p sched) fuel 0 with _ | ⟨status, left⟩
  · rw [execAndWait, dwMmcExecTrb, dwEmmcExecTrb, if_pos hidle, hwait] at h
    cases h
  rw [execAndWait_emmc hidle hwait] at h
  obtain ⟨n, hfirst, hpass⟩ := emmcWait_eq_some hwait
  rw [emmcPass] at hpass
  split_ifs at hpass with herr hdone
  · cases hpass
    cases h
    exact ⟨⟨n, hfirst, fun hzero => absurd hzero herr⟩,
      fun hs => absurd hs (encodeError_ne_success 7)⟩
  · cases hpass
    rw [if_neg (by decide), Option.map_eq_some_iff] at h
    obtain ⟨st, hst, rfl⟩ := h
    have hdma : p.dataLen ≠ 0 → ∃ m, FirstShows sched.checkIdsts (dmaBit p) m := fun hdata => by
      rw [waitTrbResult_dma htime hdata useFifo_emmc] at hst
      exact (waitDma_eq_some hst).2
    refine ⟨⟨n, hfirst, fun _ hdata => ?_⟩,
      fun _ => ⟨commandDone_emmc hfirst (not_not.mp herr), hdma, rfl⟩⟩
    obtain ⟨m, hm⟩ := hdma hdata
    exact ⟨m, hm.1⟩

theorem emmc_returns (htime : p.timeout ≠ 0) (hidle : sched.idle = true)
    (h : EmmcAnswers p sched) : ∃ fuel r, execAndWait .emmc p sched data blk fuel = some r := by
  obtain ⟨n, hfirst, hdata⟩ := h
  have hsome : ∀ fuel, n < fuel →
      ∃ st, pollFor (emmcPass p sched) fuel 0 = some st := fun fuel hn => by
    refine Option.isSome_iff_exists.mp (pollFor_isSome.mpr ⟨n, hn, ?_⟩)
    rw [Nat.zero_add]
    exact emmcPass_isSome.mpr hfirst.1
  by_cases herr : sched.rintsts n &&& errMask .emmc p = 0
  · by_cases hlen : p.dataLen = 0
    · obtain ⟨⟨status, left⟩, hwait⟩ := hsome (n + 1) (Nat.lt_succ_self n)
      refine ⟨n + 1, ?_⟩
      rw [execAndWait_emmc hidle hwait, waitTrbResult_noData htime hlen]
      split <;> exact ⟨_, rfl⟩
    · obtain ⟨m, hm⟩ := hdata herr hlen
      obtain ⟨⟨status, left⟩, hwait⟩ := hsome (n + m + 1) (by omega)
      refine ⟨n + m + 1, ?_⟩
      rw [execAndWait_emmc hidle hwait, waitTrbResult_dma htime hlen useFifo_emmc,
        waitDma_of_shows hm (by omega)]
      split <;> exact ⟨_, rfl⟩
  · obtain ⟨⟨status, left⟩, hwait⟩ := hsome (n + 1) (Nat.lt_succ_self n)
    obtain ⟨m, hm, hpass⟩ := emmcWait_eq_some hwait
    rw [firstShows_unique hm hfirst, emmcPass, if_pos herr] at hpass
    cases hpass
    refine ⟨n + 1, ?_⟩
    rw [execAndWait_emmc hidle hwait]
    exact ⟨_, rfl⟩

/-! The SD card. -/

theorem sdIntStatus_cases :
    (∃ n < sdReads, FirstShows sched.rintsts dwMmcIntCmdDone n ∧
        sdIntStatus sched = sched.rintsts n) ∨
      (∀ n < sdReads, sched.rintsts n &&& dwMmcIntCmdDone = 0) ∧
        sdIntStatus sched = sched.rintsts (sdReads - 1) := by
  rw [sdIntStatus]
  rcases hpoll : pollFor (fun n => if sched.rintsts n &&& dwMmcIntCmdDone ≠ 0 then some n else none)
    sdReads 0 with _ | ⟨m, left⟩
  · refine .inr ⟨fun n hn => not_not.mp fun hne => ?_, rfl⟩
    have hsome : (pollFor (fun n =>
        if sched.rintsts n &&& dwMmcIntCmdDone ≠ 0 then some n else none) sdReads 0).isSome := by
      rw [pollFor_isSome]
      refine ⟨n, hn, ?_⟩
      rw [Nat.zero_add, if_pos hne]
      rfl
    rw [hpoll] at hsome
    cases hsome
  · obtain ⟨n, hn, hpass, hfirst⟩ := pollFor_eq_some hpoll
    rw [Nat.zero_add] at hpass
    split_ifs at hpass with hshows
    obtain rfl := Option.some.inj hpass
    refine .inl ⟨n, hn, ⟨hshows, fun m hm => ?_⟩, rfl⟩
    have hnone := hfirst m hm
    rw [Nat.zero_add] at hnone
    split_ifs at hnone with hne
    exact not_not.mp hne

/-- The response that is read after the wait. -/
def sdResponse (sched : CommandSchedule) : StatusBlk :=
  if sdIntStatus sched &&& dwMmcIntCmdDone ≠ 0 then sched.answer else sched.stale

theorem execAndWait_sd_error (hidle : sched.idle = true)
    (herr : sdIntStatus sched &&& errMask .sd p ≠ 0) :
    execAndWait .sd p sched data blk fuel =
      some ⟨efiDeviceError, some (issuedCommand .sd p), blk⟩ := by
  rw [execAndWait, dwMmcExecTrb, dwSdExecTrb, if_pos hidle, if_pos herr]
  rfl

theorem execAndWait_sd (hidle : sched.idle = true)
    (herr : sdIntStatus sched &&& errMask .sd p = 0) :
    execAndWait .sd p sched data blk fuel =
      (sdData p sched data fuel).bind fun status =>
        if efiError status then some ⟨status, some (issuedCommand .sd p), blk⟩
        else (dwMmcWaitTrbResult .sd p sched fuel).map fun st =>
          ⟨st, some (issuedCommand .sd p), readResponse .sd p blk (sdResponse sched)⟩ := by
  rw [execAndWait, dwMmcExecTrb, dwSdExecTrb, if_pos hidle, if_neg (not_not.mpr herr)]
  rcases sdData p sched data fuel with _ | status
  · rfl
  · dsimp only [Option.bind_some]
    split <;> rfl

/-- A run that returns with no error seen has had its data end. -/
theorem sd_run (htime : p.timeout ≠ 0) (hidle : sched.idle = true)
    (herr : sdIntStatus sched &&& errMask .sd p = 0)
    (h : execAndWait .sd p sched data blk fuel = some r) :
    DataEnds p sched data ∧ (r.status = efiSuccess → DataSucceeds p sched data ∧
      DataDone .sd p sched data ∧ r.resp = readResponse .sd p blk (sdResponse sched)) := by
  rw [execAndWait_sd hidle herr] at h
  obtain ⟨status, hstatus, h⟩ := Option.bind_eq_some_iff.mp h
  by_cases hlen : p.dataLen = 0
  · refine ⟨fun hne => absurd hlen hne, fun _ => ⟨fun hne => absurd hlen hne,
      fun hne => absurd hlen hne, ?_⟩⟩
    rw [sdData, if_pos hlen] at hstatus
    cases hstatus
    rw [if_neg (by decide), Option.map_eq_some_iff] at h
    obtain ⟨st, -, rfl⟩ := h
    rfl
  rw [sdData, if_neg hlen] at hstatus
  rcases hfifo : p.useFifo .sd with _ | _
  · rw [if_neg (by simp [hfifo])] at hstatus
    obtain ⟨hsuccess, n, hn⟩ := waitDma_eq_some hstatus
    rw [hsuccess, if_neg (by decide), waitTrbResult_dma htime hlen hfifo,
      Option.map_eq_some_iff] at h
    obtain ⟨st, hst, rfl⟩ := h
    obtain ⟨-, m, hm⟩ := waitDma_eq_some hst
    have hends : (∃ n, sched.execIdsts n &&& dmaBit p ≠ 0) ∧
        ∃ n, sched.checkIdsts n &&& dmaBit p ≠ 0 := ⟨⟨n, hn.1⟩, m, hm.1⟩
    simp only [DataEnds, DataSucceeds, DataDone, hfifo]
    exact ⟨fun _ => hends, fun _ => ⟨fun _ => hends, fun _ => ⟨m, hm⟩, trivial⟩⟩
  · rw [if_pos hfifo] at hstatus
    simp only [DataEnds, DataSucceeds, DataDone, hfifo]
    refine ⟨fun _ => ⟨fuel, status, hstatus⟩, fun hs => ?_⟩
    split at h
    · next herror =>
      cases h
      rw [show status = efiSuccess from hs] at herror
      cases herror
    · next hok =>
      obtain rfl := transferFifo_status hstatus (Bool.eq_false_of_not_eq_true hok)
      obtain ⟨st, hst, hiff⟩ := @waitTrbResult_fifo .sd p sched fuel htime hlen hfifo
      rw [hst] at h
      cases h
      obtain ⟨n, hn, hacd, hdto⟩ := hiff.mp hs
      exact ⟨fun _ => ⟨⟨fuel, hstatus⟩, n, hn, hacd, hdto⟩,
        fun _ => ⟨⟨fuel, hstatus⟩, n, hn, hdto⟩, rfl⟩

theorem sd_returns (htime : p.timeout ≠ 0) (hidle : sched.idle = true)
    (herr : sdIntStatus sched &&& errMask .sd p = 0) (h : DataEnds p sched data) :
    ∃ fuel r, execAndWait .sd p sched data blk fuel = some r := by
  simp only [execAndWait_sd hidle herr, sdData]
  by_cases hlen : p.dataLen = 0
  · refine ⟨0, ?_⟩
    rw [if_pos hlen, Option.bind_some, if_neg (by decide), waitTrbResult_noData htime hlen]
    exact ⟨_, rfl⟩
  have hends := h hlen
  rcases hfifo : p.useFifo .sd with _ | _
  · rw [if_neg (by simp [hfifo])] at hends
    obtain ⟨⟨n, hn⟩, m, hm⟩ := hends
    refine ⟨n + m + 1, ?_⟩
    rw [if_neg hlen, if_neg nofun, waitDma_of_shows hn (by omega), Option.bind_some,
      if_neg (by decide), waitTrbResult_dma htime hlen hfifo, waitDma_of_shows hm (by omega)]
    exact ⟨_, rfl⟩
  · rw [if_pos hfifo] at hends
    obtain ⟨fuel, status, hstatus⟩ := hends
    obtain ⟨st, hst, -⟩ := @waitTrbResult_fifo .sd p sched fuel htime hlen hfifo
    refine ⟨fuel, ?_⟩
    rw [if_neg hlen, if_pos rfl, hstatus, Option.bind_some, hst]
    split <;> exact ⟨_, rfl⟩

theorem sd_succeeds (htime : p.timeout ≠ 0) (hidle : sched.idle = true)
    (herr : sdIntStatus sched &&& errMask .sd p = 0) (h : DataSucceeds p sched data) :
    ∃ fuel r, execAndWait .sd p sched data blk fuel = some r ∧ r.status = efiSuccess := by
  simp only [execAndWait_sd hidle herr, sdData]
  by_cases hlen : p.dataLen = 0
  · refine ⟨0, ?_⟩
    rw [if_pos hlen, Option.bind_some, if_neg (by decide), waitTrbResult_noData htime hlen]
    exact ⟨_, rfl, rfl⟩
  have hsucceeds := h hlen
  rcases hfifo : p.useFifo .sd with _ | _
  · rw [if_neg (by simp [hfifo])] at hsucceeds
    obtain ⟨⟨n, hn⟩, m, hm⟩ := hsucceeds
    refine ⟨n + m + 1, ?_⟩
    rw [if_neg hlen, if_neg nofun, waitDma_of_shows hn (by omega), Option.bind_some,
      if_neg (by decide), waitTrbResult_dma htime hlen hfifo, waitDma_of_shows hm (by omega)]
    exact ⟨_, rfl, rfl⟩
  · rw [if_pos hfifo] at hsucceeds
    obtain ⟨⟨fuel, hstatus⟩, hseen⟩ := hsucceeds
    obtain ⟨st, hst, hiff⟩ := @waitTrbResult_fifo .sd p sched fuel htime hlen hfifo
    refine ⟨fuel, ?_⟩
    rw [if_neg hlen, if_pos rfl, hstatus, Option.bind_some, if_neg (by decide), hst]
    exact ⟨_, rfl, hiff.mpr hseen⟩

theorem execAndWait_busy (hidle : sched.idle = false) :
    execAndWait card p sched data blk fuel = some ⟨efiTimeout, none, blk⟩ := by
  cases card with
  | emmc =>
    rw [execAndWait, dwMmcExecTrb, dwEmmcExecTrb, if_neg (by simp [hidle])]
    rfl
  | sd =>
    rw [execAndWait, dwMmcExecTrb, dwSdExecTrb, if_neg (by simp [hidle])]
    rfl

/-- A success comes without an error at the end of the command wait. -/
theorem sd_noError (hidle : sched.idle = true)
    (h : execAndWait .sd p sched data blk fuel = some r) (hs : r.status = efiSuccess) :
    sdIntStatus sched &&& errMask .sd p = 0 := by
  by_contra herr
  rw [execAndWait_sd_error hidle herr] at h
  cases h
  exact encodeError_ne_success 7 hs

/-- The two ways to answer, by the interrupt status that the wait ends with. -/
theorem sdAnswers_iff : SdAnswers p sched data ↔
    (∃ n < sdReads, FirstShows sched.rintsts dwMmcIntCmdDone n ∧
        sdIntStatus sched = sched.rintsts n ∧
        (sdIntStatus sched &&& errMask .sd p = 0 → DataEnds p sched data)) ∨
      (∀ n < sdReads, sched.rintsts n &&& dwMmcIntCmdDone = 0) ∧
        (sdIntStatus sched &&& errMask .sd p = 0 →
          DataEnds p sched data ∧ ¬ DataSucceeds p sched data) := by
  rw [SdAnswers]
  rcases @sdIntStatus_cases sched with ⟨n, hn, hfirst, heq⟩ | ⟨hnone, heq⟩
  · rw [heq]
    refine or_congr ⟨?_, ?_⟩ (and_congr_right fun hnone => absurd (hnone n hn) hfirst.1)
    · rintro ⟨m, hm, hfirst', hends⟩
      obtain rfl := firstShows_unique hfirst hfirst'
      exact ⟨n, hn, hfirst, rfl, hends⟩
    · rintro ⟨m, hm, hfirst', -, hends⟩
      exact ⟨n, hn, hfirst, hends⟩
  · rw [heq]
    refine or_congr (iff_of_false ?_ ?_) Iff.rfl
    · rintro ⟨m, hm, hfirst, -⟩
      exact hfirst.1 (hnone m hm)
    · rintro ⟨m, hm, hfirst, -⟩
      exact hfirst.1 (hnone m hm)

theorem sd_sound_iff (htime : p.timeout ≠ 0) (hidle : sched.idle = true) :
    CommandSound .sd p sched data blk ↔ SdAnswers p sched data := by
  constructor
  · intro h
    obtain ⟨fuel, r, hrun⟩ := h.returns
    rcases @sdIntStatus_cases sched with ⟨n, hn, hfirst, heq⟩ | ⟨hnone, heq⟩
    · exact .inl ⟨n, hn, hfirst, fun herr => (sd_run htime hidle (heq ▸ herr) hrun).1⟩
    · refine .inr ⟨hnone, fun herr => ⟨(sd_run htime hidle (heq ▸ herr) hrun).1, fun hsucc => ?_⟩⟩
      obtain ⟨fuel, r, hrun, hs⟩ := sd_succeeds htime hidle (heq ▸ herr) hsucc
      obtain ⟨⟨n, hfirst, -, hn⟩, -⟩ := h.success fuel r hrun hs
      exact hfirst.1 (hnone n (hn rfl))
  · intro h
    rcases sdAnswers_iff.mp h with ⟨n, hn, hfirst, heq, hends⟩ | ⟨hnone, hends⟩
    · refine ⟨?_, fun fuel r hrun hs => ?_⟩
      · by_cases herr : sdIntStatus sched &&& errMask .sd p = 0
        · exact sd_returns htime hidle herr (hends herr)
        · exact ⟨0, _, execAndWait_sd_error hidle herr⟩
      · have herr := sd_noError hidle hrun hs
        obtain ⟨-, hdone, hresp⟩ := (sd_run htime hidle herr hrun).2 hs
        rw [sdResponse, heq, if_pos hfirst.1] at hresp
        exact ⟨⟨n, hfirst, heq ▸ herr, fun _ => hn⟩, hdone, hresp⟩
    · refine ⟨?_, fun fuel r hrun hs => ?_⟩
      · by_cases herr : sdIntStatus sched &&& errMask .sd p = 0
        · exact sd_returns htime hidle herr (hends herr).1
        · exact ⟨0, _, execAndWait_sd_error hidle herr⟩
      · have herr := sd_noError hidle hrun hs
        exact absurd ((sd_run htime hidle herr hrun).2 hs).1 (hends herr).2

end Waits

/-- A command's outcome is what it is to mean exactly when the controller stays busy, so that it is
not given the command, or answers it. -/
theorem execAndWait_sound_iff (card : CardType) (p : CommandPacket) (sched : CommandSchedule)
    (data : Cells (BitVec 8)) (blk : StatusBlk) (htime : p.timeout ≠ 0) :
    CommandSound card p sched data blk ↔ sched.idle = false ∨ Answers card p sched data := by
  rcases hidle : sched.idle with _ | _
  · refine iff_of_true ⟨⟨0, _, execAndWait_busy hidle⟩, fun fuel r hrun hs => ?_⟩ (.inl rfl)
    rw [execAndWait_busy hidle] at hrun
    cases hrun
    exact absurd hs (encodeError_ne_success 18)
  · rw [or_iff_right nofun]
    cases card with
    | emmc =>
      constructor
      · intro h
        obtain ⟨fuel, r, hrun⟩ := h.returns
        exact (emmc_run htime hidle hrun).1
      · intro h
        exact ⟨emmc_returns htime hidle h, fun fuel r hrun => (emmc_run htime hidle hrun).2⟩
    | sd => exact sd_sound_iff htime hidle

/-- An idle controller that shows the same interrupt status always. -/
def steadySchedule (rintsts : BitVec 32) : CommandSchedule where
  status _ := 0
  rintsts _ := rintsts
  answer _ := 0
  stale _ := 0
  fifo := twoWords
  execIdsts _ := 0
  checkRintsts _ := 0
  checkIdsts _ := 0

theorem steadySchedule_idle (rintsts : BitVec 32) : (steadySchedule rintsts).idle = true := by
  rw [CommandSchedule.idle, pollFor_isSome]
  refine ⟨0, by decide, ?_⟩
  rw [if_pos (show (steadySchedule rintsts).status 0 &&& dwMmcStsDataBusy = 0 from
    BitVec.zero_and)]
  rfl

/-- `SEND_STATUS`, which has no data. -/
def sendStatus : CommandPacket where
  commandIndex := 13
  commandType := .ac
  responseType := .r1
  commandArgument := 0x10000
  inTransferLength := 0
  outTransferLength := 0
  timeout := 1000000

theorem execAndWait_sound_sendStatus :
    CommandSound .emmc sendStatus (steadySchedule dwMmcIntCmdDone) (fun _ => 0) fun _ => 0 :=
  (execAndWait_sound_iff .emmc sendStatus (steadySchedule dwMmcIntCmdDone) (fun _ => 0)
    (fun _ => 0) (by decide)).mpr
      (.inr ⟨0, ⟨by decide, nofun⟩, fun _ hdata => absurd (by decide) hdata⟩)

/-- When the controller shows nothing, the wait for an eMMC does not return and the one for an SD
card returns with success. -/
theorem execAndWait_not_sound :
    ¬ CommandSound .emmc sendStatus (steadySchedule 0) (fun _ => 0) (fun _ => 0) ∧
      ¬ CommandSound .sd sendStatus (steadySchedule 0) (fun _ => 0) (fun _ => 0) := by
  constructor
  · intro h
    obtain ⟨fuel, r, hrun⟩ := h.returns
    obtain ⟨⟨n, hfirst, -⟩, -⟩ := emmc_run (by decide) (steadySchedule_idle 0) hrun
    exact hfirst.1 BitVec.zero_and
  · intro h
    have herr : sdIntStatus (steadySchedule 0) &&& errMask .sd sendStatus = 0 := by
      rcases @sdIntStatus_cases (steadySchedule 0) with ⟨n, -, -, heq⟩ | ⟨-, heq⟩
      · rw [heq]
        exact BitVec.zero_and
      · rw [heq]
        exact BitVec.zero_and
    obtain ⟨fuel, r, hrun, hs⟩ := sd_succeeds (by decide) (steadySchedule_idle 0) herr
      fun hdata => absurd (by decide) hdata
    obtain ⟨⟨n, hfirst, -⟩, -⟩ := h.success fuel r hrun hs
    exact hfirst.1 BitVec.zero_and

end Edk2Rk3576.DwMmc
