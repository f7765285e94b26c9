import Edk2Rk3576.Efi
import Edk2Rk3576.Lib.Cells
import Edk2Rk3576.Lib.Masks
import Edk2Rk3576.Lib.Polling
import Edk2Rk3576.Lib.Tries
import Mathlib.Logic.Function.Basic

/-!
# The DDC of the HDMI transmitter

The I2C master of the transmitter moves one byte at a time, at the register of the sink its interface
registers say. How the hardware answers is told try by try: the hot plug status, the interrupt status
at each poll, and what the data register then holds, or whether the sink took the byte.
-/

namespace Edk2Rk3576.Hdmi

open Cells

/-- The registers of the transmitter that are written here. -/
inductive HdmiReg
  | timerBaseConfig0
  | i2cmSmSclConfig0
  | i2cmFmSclConfig0
  | i2cmControl0
  | i2cmInterfaceControl0
  | i2cmInterfaceControl1
  | i2cmInterfaceWrdata03
  | mainunit0IntMaskN
  | mainunit1IntMaskN
  | mainunit1IntClear
  | globalSwdisable
  | hdcp2logicConfig0
  | linkConfig0
  | scrambConfig0
  | fltConfig0
  | frameComposerConfig9
  | pktschedPktEn
  | pktschedPktControl0
  deriving DecidableEq

def i2cmAddr : UInt32 := 0xff000
def i2cmSlvaddr : UInt32 := 0xfe0
def i2cmWrMask : UInt32 := 0x1e
def i2cmExtRead : UInt32 := 0x10
def i2cmFmRead : UInt32 := 0x4
def i2cmFmWrite : UInt32 := 0x2
def i2cmFmEn : UInt32 := 0x1
def i2cmSegPtr : UInt32 := 0x7f80
def i2cmSegAddr : UInt32 := 0x7f

/-- The bits of `MAINUNIT_1_INT_STATUS`, `MASK_N` and `CLEAR`. -/
def i2cmOpDone : UInt32 := 0x1
def i2cmReadRequest : UInt32 := 0x2
def i2cmNackRcvd : UInt32 := 0x4

def hdmiHpdPortLevel : UInt32 := 0x40
def hdmiLevelInt : UInt32 := 0x8

def ddcCiAddr : UInt8 := 0x37
def ddcSegmentAddr : UInt16 := 0x30
def ddcAddr : UInt16 := 0x50
def scdcAddr : UInt16 := 0x54

structure DwHdmiQpI2c where
  slaveReg : UInt8
  isSegment : Bool
  isRegAddr : Bool

/-- What the master is set to: the slave, the segment and the register. -/
structure DdcAddress where
  slave : UInt32
  segment : UInt32
  reg : UInt32
  deriving DecidableEq

/-- A byte read, and where it is stored. -/
structure DdcRead where
  pos : ℕ
  address : DdcAddress
  intr : UInt32
  value : UInt8

structure DdcState where
  i2c : DwHdmiQpI2c
  regs : HdmiReg → UInt32
  /-- The buffer of a message that reads. -/
  buf : Cells UInt8
  /-- What the transfer has read. -/
  reads : List DdcRead
  /-- The SCDC registers of the sink. -/
  scdc : Cells UInt8

/-- How the hardware answers a try. -/
structure DdcAnswer where
  hpdStatus : UInt32
  intStatus : ℕ → UInt32
  rdData : DdcAddress → UInt32
  taken : Bool

/-- The tries of a byte, the bytes of a message, and the messages of a transfer. -/
abbrev ByteAnswer := ℕ → DdcAnswer
abbrev MsgAnswer := ℕ → ByteAnswer
abbrev XferAnswer := ℕ → MsgAnswer

namespace DdcState

variable (s : DdcState)

/-- `DwHdmiQpRegWrite`. -/
def regWrite (r : HdmiReg) (value : UInt32) : DdcState :=
  { s with regs := Function.update s.regs r value }

/-- `DwHdmiQpRegMod`. -/
def regMod (r : HdmiReg) (value mask : UInt32) : DdcState :=
  s.regWrite r (s.regs r &&& ~~~mask ||| value)

/-- What the interface registers say. -/
def address : DdcAddress :=
  let control := s.regs .i2cmInterfaceControl0
  ⟨(control &&& i2cmSlvaddr) >>> 5,
    if control &&& i2cmExtRead ≠ 0 then (s.regs .i2cmInterfaceControl1 &&& i2cmSegPtr) >>> 7 else 0,
    (control &&& i2cmAddr) >>> 12⟩

/-- The reset of the master after a try that failed. -/
def reset : DdcState :=
  (s.regWrite .i2cmControl0 0x01).regMod .i2cmInterfaceControl0 0 i2cmWrMask

def nextReg : DdcState := { s with i2c := { s.i2c with slaveReg := s.i2c.slaveReg + 1 } }

/-- A sink that takes the byte has it in the register. -/
def take : DdcState :=
  if s.address.slave = scdcAddr.toUInt32 then
    { s with scdc :=
        Function.update s.scdc s.address.reg.toNat (s.regs .i2cmInterfaceWrdata03).toUInt8 }
  else s

def store (r : DdcRead) : DdcState :=
  { s with buf := Function.update s.buf r.pos r.value, reads := s.reads ++ [r] }

end DdcState

section Bytes

variable (hpdTimeoutFlag : Bool)

def dwHdmiReadHpd (a : DdcAnswer) : Bool :=
  a.hpdStatus &&& (hdmiHpdPortLevel ||| hdmiLevelInt) != 0 || hpdTimeoutFlag

/-- `Intr`, where the wait does not run out. -/
def DdcAnswer.intr (a : DdcAnswer) : Option UInt32 :=
  (pollFor (fun k =>
    let intr := a.intStatus k &&& (i2cmOpDone ||| i2cmReadRequest ||| i2cmNackRcvd)
    if intr ≠ 0 then some intr else none) 20 0).map Prod.fst

/-- How the tries of a byte end: at a sink that is gone, or at an interrupt that is no NACK. -/
inductive ByteEnd
  | disconnected
  | answered (attempt : ℕ) (intr : UInt32)

/-- A try, the same for both directions but for what starts it. `Retry` is less by ten for a wait
that runs out, and by one for a NACK. -/
def i2cmTry (start : DdcAnswer → DdcState → DdcState) (b : ByteAnswer) (t : ℕ) :
    EfiStatus × DdcState → TryEnd ByteEnd × EfiStatus × DdcState
  | (status, s) =>
    if !dwHdmiReadHpd hpdTimeoutFlag (b t) then (.done .disconnected, status, s)
    else
      let s := start (b t) s
      match (b t).intr with
      | none => (.again 10, efiTimeout, s.reset)
      | some intr =>
        let s := s.regWrite .mainunit1IntClear intr
        if intr &&& i2cmNackRcvd ≠ 0 then (.again 1, efiDeviceError, s.reset)
        else (.done (.answered t intr), status, s)

def i2cmRead (_ : DdcAnswer) (s : DdcState) : DdcState :=
  if s.i2c.isSegment then s.regMod .i2cmInterfaceControl0 i2cmExtRead i2cmWrMask
  else s.regMod .i2cmInterfaceControl0 i2cmFmRead i2cmWrMask

def i2cmWrite (value : UInt8) (a : DdcAnswer) (s : DdcState) : DdcState :=
  let s := s.regWrite .i2cmInterfaceWrdata03 value.toUInt32
  let s := s.regMod .i2cmInterfaceControl0 (s.i2c.slaveReg.toUInt32 <<< 12) i2cmAddr
  let s := s.regMod .i2cmInterfaceControl0 i2cmFmWrite i2cmWrMask
  if a.taken then s.take else s

def i2cmRetries : ℕ := 50

/-- The loop over the tries. `Status` is of the last one. -/
def i2cmTries (start : DdcAnswer → DdcState → DdcState) (b : ByteAnswer) (s : DdcState) :
    Option ByteEnd × EfiStatus × DdcState :=
  tryFor (i2cmTry hpdTimeoutFlag start b) i2cmRetries 0 (efiSuccess, s)

/-- The loop of `DwHdmiI2cRead`, from byte `k` on. -/
def i2cReadBytes (a : MsgAnswer) (pos : ℕ) : (length k : ℕ) → DdcState → EfiStatus × DdcState
  | 0, _, s => (efiSuccess, { s with i2c := { s.i2c with isSegment := false } })
  | length + 1, k, s =>
    let s := s.regMod .i2cmInterfaceControl0 (s.i2c.slaveReg.toUInt32 <<< 12) i2cmAddr
    match i2cmTries hpdTimeoutFlag i2cmRead (a k) s with
    | (none, r) => r
    | (some .disconnected, _, s) => (efiDeviceError, s)
    | (some (.answered t intr), _, s) =>
      let s := s.store ⟨pos + k, s.address, intr, ((a k t).rdData s.address &&& 0xff).toUInt8⟩
      i2cReadBytes a pos length (k + 1)
        (s.nextReg.regMod .i2cmInterfaceControl0 0 i2cmWrMask)

def dwHdmiI2cRead (a : MsgAnswer) (pos length : ℕ) (s : DdcState) : EfiStatus × DdcState :=
  let s := if s.i2c.isRegAddr then s else { s with i2c := ⟨0, s.i2c.isSegment, true⟩ }
  i2cReadBytes hpdTimeoutFlag a pos length 0 s

/-- The loop of `DwHdmiI2cWrite`, from byte `k` on. -/
def i2cWriteBytes (a : MsgAnswer) : List UInt8 → (k : ℕ) → DdcState → EfiStatus × DdcState
  | [], _, s => (efiSuccess, s)
  | value :: buf, k, s =>
    match i2cmTries hpdTimeoutFlag (i2cmWrite value) (a k) s with
    | (some .disconnected, _, s) => (efiDeviceError, s)
    | (none, status, s) => (status, s.regMod .i2cmInterfaceControl0 0 i2cmWrMask)
    | (some (.answered _ _), _, s) =>
      i2cWriteBytes a buf (k + 1) (s.regMod .i2cmInterfaceControl0 0 i2cmWrMask).nextReg

def dwHdmiI2cWrite (a : MsgAnswer) (buf : List UInt8) (s : DdcState) : EfiStatus × DdcState :=
  if s.i2c.isRegAddr then i2cWriteBytes hpdTimeoutFlag a buf 0 s
  else
    i2cWriteBytes hpdTimeoutFlag a buf.tail 0
      { s with i2c := ⟨buf.headD 0, s.i2c.isSegment, true⟩ }

end Bytes

section Messages

variable (hpdTimeoutFlag : Bool)

/-- An `i2c_msg`: one with `I2C_M_RD` reads into the buffer from `pos` on. -/
inductive I2cMsg
  | read (addr : UInt16) (pos len : ℕ)
  | write (addr : UInt16) (buf : List UInt8)

def I2cMsg.addr : I2cMsg → UInt16
  | read addr _ _ => addr
  | write addr _ => addr

def I2cMsg.len : I2cMsg → ℕ
  | read _ _ len => len
  | write _ buf => buf.length

/-- `*buf`. -/
def I2cMsg.first (s : DdcState) : I2cMsg → UInt8
  | read _ pos _ => s.buf pos
  | write _ buf => buf.headD 0

/-- The address and the length of a message that sets the segment. -/
def I2cMsg.isSegment (m : I2cMsg) : Bool := m.addr == ddcSegmentAddr && m.len == 1

def dwHdmiQpI2cMsg (a : MsgAnswer) (m : I2cMsg) (s : DdcState) : EfiStatus × DdcState :=
  if m.isSegment then
    let s := { s with i2c := { s.i2c with isSegment := true } }
    let s := s.regMod .i2cmInterfaceControl1 ddcSegmentAddr.toUInt32 i2cmSegAddr
    (efiSuccess, s.regMod .i2cmInterfaceControl1 ((m.first s).toUInt32 <<< 7) i2cmSegPtr)
  else
    match m with
    | .read _ pos len => dwHdmiI2cRead hpdTimeoutFlag a pos len s
    | .write _ buf => dwHdmiI2cWrite hpdTimeoutFlag a buf s

/-- The loop over the messages, from number `i` on. -/
def dwHdmiQpI2cMsgs (a : XferAnswer) : ℕ → List I2cMsg → DdcState → EfiStatus × DdcState
  | _, [], s => (efiSuccess, s)
  | i, m :: msgs, s =>
    let r := dwHdmiQpI2cMsg hpdTimeoutFlag (a i) m s
    if efiError r.1 then r else dwHdmiQpI2cMsgs a (i + 1) msgs r.2

/-- How a transfer starts: the interrupts unmasked, and the slave set. -/
def xferStart (addr : UInt8) (s : DdcState) : DdcState :=
  let muted := i2cmNackRcvd ||| i2cmOpDone
  let s := s.regMod .mainunit1IntMaskN muted muted
  let s := s.regMod .i2cmInterfaceControl0 (addr.toUInt32 <<< 5) i2cmSlvaddr
  { s with i2c := ⟨s.i2c.slaveReg, false, false⟩, reads := [] }

/-- `DwHdmiQpI2cXfer`, of the message `m` and those behind it. -/
def dwHdmiQpI2cXfer (a : XferAnswer) (m : I2cMsg) (msgs : List I2cMsg) (s : DdcState) :
    EfiStatus × DdcState :=
  let addr := m.addr.toUInt8
  if addr == ddcCiAddr then (efiUnsupported, s)
  else if (m :: msgs).any fun m => m.len == 0 then (efiUnsupported, s)
  else
    let addr := if addr == ddcSegmentAddr.toUInt8 && m.len == 1 then ddcAddr.toUInt8 else addr
    let r := dwHdmiQpI2cMsgs hpdTimeoutFlag a 0 (m :: msgs) (xferStart addr s)
    (r.1, r.2.regMod .mainunit1IntMaskN 0 (i2cmNackRcvd ||| i2cmOpDone))

/-- `DwHdmiScdcRead`, into a buffer of its own. -/
def dwHdmiScdcRead (a : XferAnswer) (register : UInt8) (s : DdcState) : EfiStatus × DdcState :=
  dwHdmiQpI2cXfer hpdTimeoutFlag a (.write scdcAddr [register]) [.read scdcAddr 0 1] s

def dwHdmiScdcWrite (a : XferAnswer) (register value : UInt8) (s : DdcState) :
    EfiStatus × DdcState :=
  dwHdmiQpI2cXfer hpdTimeoutFlag a (.write scdcAddr [register, value]) [] s

end Messages

/-! ## Fields of the interface registers -/

section Fields

variable {old value mask field : UInt32}

theorem mod_and_of_apart (hfield : mask &&& field = 0) (hvalue : value &&& mask = value) :
    (old &&& ~~~mask ||| value) &&& field = old &&& field := by
  have hfield := congrArg UInt32.toBitVec hfield
  have hvalue := congrArg UInt32.toBitVec hvalue
  apply UInt32.eq_of_toBitVec_eq
  simpa using BitMask.write_and_of_apart (c := old.toBitVec) hvalue hfield

theorem mod_and_self (hvalue : value &&& mask = value) :
    (old &&& ~~~mask ||| value) &&& mask = value := by
  have hvalue := congrArg UInt32.toBitVec hvalue
  apply UInt32.eq_of_toBitVec_eq
  simpa using BitMask.write_and (c := old.toBitVec) hvalue

theorem place_reg (r : UInt8) : r.toUInt32 <<< 12 &&& i2cmAddr = r.toUInt32 <<< 12 := by
  have h : ∀ x : BitVec 8, x.setWidth 32 <<< 12 &&& 0xff000#32 = x.setWidth 32 <<< 12 := by
    decide +kernel
  apply UInt32.eq_of_toBitVec_eq
  simpa [i2cmAddr] using h r.toBitVec

theorem reg_place (r : UInt8) : r.toUInt32 <<< 12 >>> 12 = r.toUInt32 := by
  have h : ∀ x : BitVec 8, x.setWidth 32 <<< 12 >>> 12 = x.setWidth 32 := by decide +kernel
  apply UInt32.eq_of_toBitVec_eq
  simpa using h r.toBitVec

end Fields

/-! ## The tries of a byte -/

section Tries

variable {hpdTimeoutFlag : Bool} {start : DdcAnswer → DdcState → DdcState} {b : ByteAnswer}
  {s s' s'' : DdcState} {r : HdmiReg} {t : ℕ} {value mask intr : UInt32} {I : DdcState → Prop}

/-- The slave and the segment are as they were, and nothing is read. -/
structure SameSetting (s s' : DdcState) : Prop where
  i2c : s'.i2c = s.i2c
  buf : s'.buf = s.buf
  reads : s'.reads = s.reads
  slave : s'.regs .i2cmInterfaceControl0 &&& i2cmSlvaddr
    = s.regs .i2cmInterfaceControl0 &&& i2cmSlvaddr
  segment : s'.regs .i2cmInterfaceControl1 = s.regs .i2cmInterfaceControl1

theorem SameSetting.refl : SameSetting s s := ⟨rfl, rfl, rfl, rfl, rfl⟩

theorem SameSetting.trans (h : SameSetting s s') (h' : SameSetting s' s'') : SameSetting s s'' :=
  ⟨h'.i2c.trans h.i2c, h'.buf.trans h.buf, h'.reads.trans h.reads, h'.slave.trans h.slave,
    h'.segment.trans h.segment⟩

theorem regMod_self : (s.regMod r value mask).regs r = s.regs r &&& ~~~mask ||| value :=
  Function.update_self _ _ _

theorem regWrite_of_ne {r' : HdmiReg} (h : r' ≠ r) : (s.regWrite r value).regs r' = s.regs r' :=
  Function.update_of_ne h _ _

theorem sameSetting_regWrite (h₀ : .i2cmInterfaceControl0 ≠ r) (h₁ : .i2cmInterfaceControl1 ≠ r) :
    SameSetting s (s.regWrite r value) :=
  ⟨rfl, rfl, rfl, by rw [regWrite_of_ne h₀], regWrite_of_ne h₁⟩

theorem sameSetting_regMod (hmask : mask &&& i2cmSlvaddr = 0) (hvalue : value &&& mask = value) :
    SameSetting s (s.regMod .i2cmInterfaceControl0 value mask) :=
  ⟨rfl, rfl, rfl, by rw [regMod_self, mod_and_of_apart hmask hvalue], regWrite_of_ne (by decide)⟩

theorem sameSetting_reset : SameSetting s s.reset :=
  (sameSetting_regWrite (by decide) (by decide)).trans (sameSetting_regMod (by decide) (by decide))

theorem sameSetting_take : SameSetting s s.take := by
  unfold DdcState.take
  split_ifs
  · exact ⟨rfl, rfl, rfl, rfl, rfl⟩
  · exact .refl

theorem sameSetting_read {a : DdcAnswer} : SameSetting s (i2cmRead a s) := by
  unfold i2cmRead
  split_ifs
  · exact sameSetting_regMod (by decide) (by decide)
  · exact sameSetting_regMod (by decide) (by decide)

theorem sameSetting_write {a : DdcAnswer} {v : UInt8} : SameSetting s (i2cmWrite v a s) := by
  have hset : SameSetting s (i2cmWrite v { a with taken := false } s) :=
    ((sameSetting_regWrite (by decide) (by decide)).trans
      (sameSetting_regMod (by decide) (place_reg _))).trans
        (sameSetting_regMod (by decide) (by decide))
  unfold i2cmWrite at hset ⊢
  rcases a.taken
  · exact hset
  · exact hset.trans sameSetting_take

/-- How a try ends, by its answer. -/
def byteEnds (hpdTimeoutFlag : Bool) (b : ByteAnswer) (t : ℕ) : TryEnd ByteEnd :=
  if !dwHdmiReadHpd hpdTimeoutFlag (b t) then .done .disconnected
  else
    match (b t).intr with
    | none => .again 10
    | some intr => if intr &&& i2cmNackRcvd ≠ 0 then .again 1 else .done (.answered t intr)

/-- What a try does, and how it ends. -/
theorem i2cmTry_cases (t : ℕ) (st : EfiStatus × DdcState) :
    (dwHdmiReadHpd hpdTimeoutFlag (b t) = false ∧
      byteEnds hpdTimeoutFlag b t = .done .disconnected ∧
      i2cmTry hpdTimeoutFlag start b t st = (.done .disconnected, st)) ∨
    dwHdmiReadHpd hpdTimeoutFlag (b t) = true ∧
      ((byteEnds hpdTimeoutFlag b t = .again 10 ∧ i2cmTry hpdTimeoutFlag start b t st
          = (.again 10, efiTimeout, (start (b t) st.2).reset)) ∨
        (∃ intr, byteEnds hpdTimeoutFlag b t = .again 1 ∧ i2cmTry hpdTimeoutFlag start b t st
          = (.again 1, efiDeviceError,
              ((start (b t) st.2).regWrite .mainunit1IntClear intr).reset)) ∨
        ∃ intr, byteEnds hpdTimeoutFlag b t = .done (.answered t intr) ∧
          i2cmTry hpdTimeoutFlag start b t st
            = (.done (.answered t intr), st.1,
                (start (b t) st.2).regWrite .mainunit1IntClear intr)) := by
  obtain ⟨status, s⟩ := st
  unfold byteEnds i2cmTry
  rcases dwHdmiReadHpd hpdTimeoutFlag (b t)
  · exact .inl ⟨rfl, rfl, rfl⟩
  · refine .inr ⟨rfl, ?_⟩
    rcases (b t).intr with _ | intr
    · exact .inl ⟨rfl, rfl⟩
    · by_cases hnack : intr &&& i2cmNackRcvd ≠ 0
      · exact .inr (.inl ⟨intr, by simp [hnack]⟩)
      · exact .inr (.inr ⟨intr, by simp [hnack]⟩)

theorem i2cmTry_ends (t : ℕ) (st : EfiStatus × DdcState) :
    (i2cmTry hpdTimeoutFlag start b t st).1 = byteEnds hpdTimeoutFlag b t := by
  rcases @i2cmTry_cases hpdTimeoutFlag start b t st with ⟨-, hends, htry⟩ | ⟨-, ⟨hends, htry⟩ |
    ⟨intr, hends, htry⟩ | ⟨intr, hends, htry⟩⟩ <;> rw [hends, htry]

/-- A try keeps what its steps keep. -/
theorem i2cmTry_keeps (hstart : ∀ a s, I s → I (start a s))
    (hclear : ∀ s v, I s → I (s.regWrite .mainunit1IntClear v)) (hreset : ∀ s, I s → I s.reset)
    (t : ℕ) (st : EfiStatus × DdcState) (h : I st.2) :
    I (i2cmTry hpdTimeoutFlag start b t st).2.2 := by
  rcases @i2cmTry_cases hpdTimeoutFlag start b t st with ⟨-, -, htry⟩ | ⟨-, ⟨-, htry⟩ |
    ⟨intr, -, htry⟩ | ⟨intr, -, htry⟩⟩ <;> rw [htry]
  · exact h
  · exact hreset _ (hstart _ _ h)
  · exact hreset _ (hclear _ _ (hstart _ _ h))
  · exact hclear _ _ (hstart _ _ h)

theorem i2cmTries_keeps (hstart : ∀ a s, I s → I (start a s))
    (hclear : ∀ s v, I s → I (s.regWrite .mainunit1IntClear v)) (hreset : ∀ s, I s → I s.reset)
    (h : I s) : I (i2cmTries hpdTimeoutFlag start b s).2.2 :=
  tryFor_invariant (I := fun st : EfiStatus × DdcState => I st.2) h
    (i2cmTry_keeps hstart hclear hreset)

/-- The byte is answered at try number `t`. -/
def Answered (hpdTimeoutFlag : Bool) (b : ByteAnswer) (t : ℕ) (intr : UInt32) : Prop :=
  Made (byteEnds hpdTimeoutFlag b) i2cmRetries 0 t ∧
    byteEnds hpdTimeoutFlag b t = .done (.answered t intr)

theorem attempt_of_answered {n : ℕ} (s : DdcState)
    (h : byteEnds hpdTimeoutFlag b n = .done (.answered t intr)) : n = t := by
  rcases @i2cmTry_cases hpdTimeoutFlag i2cmRead b n (efiSuccess, s) with ⟨-, hends, -⟩ | ⟨-, ⟨hends, -⟩ |
    ⟨i, hends, -⟩ | ⟨i, hends, -⟩⟩ <;> rw [hends] at h <;> cases h
  rfl

theorem Answered.unique {t' : ℕ} {intr' : UInt32} (h : Answered hpdTimeoutFlag b t intr)
    (h' : Answered hpdTimeoutFlag b t' intr') : t = t' ∧ intr = intr' := by
  obtain rfl := h.1.unique h'.1 (by rw [Nat.zero_add, h.2]) (by rw [Nat.zero_add, h'.2])
  cases h.2.symm.trans h'.2
  exact ⟨rfl, rfl⟩

theorem i2cmTries_answered_iff :
    (i2cmTries hpdTimeoutFlag start b s).1 = some (.answered t intr)
      ↔ Answered hpdTimeoutFlag b t intr := by
  rw [i2cmTries, tryFor_eq_some_iff i2cmTry_ends]
  constructor
  · rintro ⟨n, hmade, hends⟩
    rw [Nat.zero_add] at hends
    obtain rfl := attempt_of_answered s hends
    exact ⟨hmade, hends⟩
  · rintro ⟨hmade, hends⟩
    exact ⟨t, hmade, by rwa [Nat.zero_add]⟩

/-- The state the answered try leaves. -/
theorem i2cmTries_of_answered (hstart : ∀ a s, I s → I (start a s))
    (hclear : ∀ s v, I s → I (s.regWrite .mainunit1IntClear v)) (hreset : ∀ s, I s → I s.reset)
    (h : I s) (ht : (i2cmTries hpdTimeoutFlag start b s).1 = some (.answered t intr)) :
    ∃ s', I s' ∧ (i2cmTries hpdTimeoutFlag start b s).2.2
      = (start (b t) s').regWrite .mainunit1IntClear intr := by
  obtain ⟨n, -, ⟨status, s'⟩, hs', hlast, hend⟩ := @tryFor_last _ _
    (i2cmTry hpdTimeoutFlag start b) i2cmRetries 0 (efiSuccess, s) (fun st => I st.2) (by decide) h
    (i2cmTry_keeps hstart hclear hreset)
  rw [Nat.zero_add, i2cmTry_ends] at hend
  rw [Nat.zero_add] at hlast
  rcases hend with ⟨r, hover, hsome⟩ | ⟨c, -, hnone⟩
  · rw [i2cmTries] at ht ⊢
    rw [hsome] at ht
    cases ht
    obtain rfl := attempt_of_answered s hover
    refine ⟨s', hs', ?_⟩
    rw [← hlast]
    rcases @i2cmTry_cases hpdTimeoutFlag start b n (status, s') with ⟨-, hends, -⟩ | ⟨-,
      ⟨hends, -⟩ | ⟨i, hends, -⟩ | ⟨i, hends, htry⟩⟩ <;> rw [hends] at hover <;> cases hover
    rw [htry]
  · rw [i2cmTries, hnone] at ht
    cases ht

/-- Tries that are used up end with an error. -/
theorem i2cmTries_error (h : (i2cmTries hpdTimeoutFlag start b s).1 = none) :
    efiError (i2cmTries hpdTimeoutFlag start b s).2.1 = true := by
  obtain ⟨n, -, ⟨status, s'⟩, -, hlast, hend⟩ := @tryFor_last _ _
    (i2cmTry hpdTimeoutFlag start b) i2cmRetries 0 (efiSuccess, s) (fun _ => True) (by decide) trivial
    fun _ _ _ => trivial
  rcases hend with ⟨r, -, hsome⟩ | ⟨c, hagain, -⟩
  · rw [i2cmTries, hsome] at h
    cases h
  · rw [i2cmTries, ← hlast]
    rcases @i2cmTry_cases hpdTimeoutFlag start b (0 + n) (status, s') with ⟨-, -, htry⟩ | ⟨-,
      ⟨-, htry⟩ | ⟨i, -, htry⟩ | ⟨i, -, htry⟩⟩ <;> rw [htry] at hagain ⊢
    · cases hagain
    · exact efiError_encodeError _
    · exact efiError_deviceError
    · cases hagain

end Tries

end Edk2Rk3576.Hdmi
