import Edk2Rk3576.Hdmi.EdidBlock

/-!
# SCDC over the DDC

A transfer that reads leaves the registers of the sink as they were. One that writes changes a single
register, and it does so where one of its tries is taken, be it one that counts as a failure.
-/

namespace Edk2Rk3576.Hdmi

open Cells

section Kept

variable {hpdTimeoutFlag : Bool} {p : ℕ → Prop} {s s' s'' : DdcState} {r : HdmiReg}
  {value mask : UInt32} {a : XferAnswer}

/-- The scrambler is as it was, and so are the registers of the sink but for some. -/
structure SinkKept (p : ℕ → Prop) (s s' : DdcState) : Prop where
  scramb : s'.regs .scrambConfig0 = s.regs .scrambConfig0
  scdc : ∀ r, ¬ p r → s'.scdc r = s.scdc r

theorem SinkKept.refl : SinkKept p s s := ⟨rfl, fun _ _ => rfl⟩

theorem SinkKept.trans (h : SinkKept p s s') (h' : SinkKept p s' s'') : SinkKept p s s'' :=
  ⟨h'.scramb.trans h.scramb, fun r hr => (h'.scdc r hr).trans (h.scdc r hr)⟩

theorem sinkKept_regWrite (hr : .scrambConfig0 ≠ r) : SinkKept p s (s.regWrite r value) :=
  ⟨regWrite_of_ne hr, fun _ _ => rfl⟩

theorem sinkKept_regMod (hr : .scrambConfig0 ≠ r) : SinkKept p s (s.regMod r value mask) :=
  sinkKept_regWrite hr

theorem sinkKept_reset : SinkKept p s s.reset :=
  (sinkKept_regWrite (by decide)).trans (sinkKept_regMod (by decide))

theorem sinkKept_read {b : DdcAnswer} : SinkKept p s (i2cmRead b s) := by
  unfold i2cmRead
  split_ifs
  · exact sinkKept_regMod (by decide)
  · exact sinkKept_regMod (by decide)

/-- A transfer with the sink, behind the byte that names the register. -/
def scdcStart (register : UInt8) (s : DdcState) : DdcState :=
  { xferStart scdcAddr.toUInt8 s with i2c := ⟨register, false, true⟩ }

theorem sinkKept_scdcStart {register : UInt8} : SinkKept p s (scdcStart register s) :=
  ⟨rfl, fun _ _ => rfl⟩

theorem readTries_kept {b : ByteAnswer} :
    SinkKept p s (i2cmTries hpdTimeoutFlag i2cmRead b s).2.2 :=
  i2cmTries_keeps (fun _ _ h => h.trans sinkKept_read)
    (fun _ _ h => h.trans (sinkKept_regWrite (by decide))) (fun _ h => h.trans sinkKept_reset) .refl

theorem i2cReadBytes_kept {a : MsgAnswer} {pos : ℕ} : ∀ (length k : ℕ) (s : DdcState),
    SinkKept p s (i2cReadBytes hpdTimeoutFlag a pos length k s).2
  | 0, _, _ => ⟨rfl, fun _ _ => rfl⟩
  | length + 1, k, s => by
    unfold i2cReadBytes
    have hset : SinkKept p s (s.regMod .i2cmInterfaceControl0 (s.i2c.slaveReg.toUInt32 <<< 12)
        i2cmAddr) := sinkKept_regMod (by decide)
    have htries := hset.trans (@readTries_kept hpdTimeoutFlag p _ (a k))
    simp only []
    generalize i2cmTries hpdTimeoutFlag i2cmRead (a k) (s.regMod .i2cmInterfaceControl0
      (s.i2c.slaveReg.toUInt32 <<< 12) i2cmAddr) = x at htries ⊢
    obtain ⟨_ | _ | ⟨t, intr⟩, status, s'⟩ := x
    · exact htries
    · exact htries
    · have hnext : SinkKept p s' ((s'.store ⟨pos + k, s'.address, intr,
          (((a k) t).rdData s'.address &&& 0xff).toUInt8⟩).nextReg.regMod .i2cmInterfaceControl0 0
            i2cmWrMask) := ⟨regWrite_of_ne (by decide), fun _ _ => rfl⟩
      exact (htries.trans hnext).trans (i2cReadBytes_kept length (k + 1) _)

theorem dwHdmiScdcRead_kept {register : UInt8} :
    SinkKept p s (dwHdmiScdcRead hpdTimeoutFlag a register s).2 := by
  have hread := sinkKept_scdcStart.trans
    (@i2cReadBytes_kept hpdTimeoutFlag p (a 1) 0 1 0 (scdcStart register s))
  have hmsgs : dwHdmiScdcRead hpdTimeoutFlag a register s
      = let r := i2cReadBytes hpdTimeoutFlag (a 1) 0 1 0 (scdcStart register s)
        let r := if efiError r.1 then r else (efiSuccess, r.2)
        (r.1, r.2.regMod .mainunit1IntMaskN 0 (i2cmNackRcvd ||| i2cmOpDone)) := rfl
  rw [hmsgs]
  refine SinkKept.trans ?_ (sinkKept_regMod (by decide))
  split_ifs
  · exact hread
  · exact hread

end Kept

section Write

variable {hpdTimeoutFlag : Bool} {b : ByteAnswer} {s : DdcState} {value register : UInt8}
  {Q : UInt8 → Prop}

theorem setTo_scdcStart : SetTo scdcAddr.toUInt32 0 (scdcStart register s) :=
  have h : SetTo scdcAddr.toUInt8.toUInt32 0 (xferStart scdcAddr.toUInt8 s) :=
    setTo_xferStart (by decide) (by decide)
  ⟨h.slave, rfl⟩

/-- A byte that the sink takes is in the register that is counted. -/
theorem i2cmWrite_scdc (hset : SetTo scdcAddr.toUInt32 0 s) (a : DdcAnswer) :
    (i2cmWrite value a s).scdc
      = if a.taken then Function.update s.scdc s.i2c.slaveReg.toNat value else s.scdc := by
  let w := i2cmWrite value { a with taken := false } s
  have hw : i2cmWrite value a s = if a.taken then w.take else w := rfl
  have hsame : SameSetting s w := sameSetting_write
  have hreg : w.address.reg = s.i2c.slaveReg.toUInt32 := by
    change (w.regs .i2cmInterfaceControl0 &&& i2cmAddr) >>> 12 = _
    rw [show w = DdcState.regMod _ .i2cmInterfaceControl0 i2cmFmWrite i2cmWrMask from rfl,
      regMod_self, mod_and_of_apart (by decide) (by decide), regMod_self,
      mod_and_self (place_reg _), reg_place]
    rfl
  have hslave : w.address.slave = scdcAddr.toUInt32 := (hset.same hsame).slave
  have hdata : (w.regs .i2cmInterfaceWrdata03).toUInt8 = value := UInt8.toUInt8_toUInt32 value
  rw [hw]
  rcases a.taken
  · rfl
  · rw [if_pos rfl, if_pos rfl, DdcState.take, if_pos hslave, hreg, hdata,
      UInt8.toNat_toUInt32]
    rfl

/-- The sink takes the byte in a try that is made. -/
def WriteTaken (hpdTimeoutFlag : Bool) (b : ByteAnswer) : Prop :=
  ∃ n, Made (byteEnds hpdTimeoutFlag b) i2cmRetries 0 n ∧
    dwHdmiReadHpd hpdTimeoutFlag (b n) = true ∧ (b n).taken = true

/-- What a try does to the registers of the sink. -/
theorem i2cmTry_scdc {t : ℕ} {st : EfiStatus × DdcState} (hset : SetTo scdcAddr.toUInt32 0 st.2) :
    (i2cmTry hpdTimeoutFlag (i2cmWrite value) b t st).2.2.scdc
      = if dwHdmiReadHpd hpdTimeoutFlag (b t) = true ∧ (b t).taken = true
        then Function.update st.2.scdc st.2.i2c.slaveReg.toNat value else st.2.scdc := by
  have hwrite := @i2cmWrite_scdc st.2 value hset (b t)
  rcases @i2cmTry_cases hpdTimeoutFlag (i2cmWrite value) b t st with ⟨hhpd, -, htry⟩ | ⟨hhpd,
    ⟨-, htry⟩ | ⟨intr, -, htry⟩ | ⟨intr, -, htry⟩⟩ <;> rw [htry]
  · simp [hhpd]
  all_goals
    simp only [hhpd, true_and]
    exact hwrite

/-- What the tries of a byte keep, at a sink whose register is counted. -/
structure Writing (s s' : DdcState) : Prop where
  same : SameSetting s s'
  kept : SinkKept (· = s.i2c.slaveReg.toNat) s s'

theorem Writing.of_kept {s' s'' : DdcState} (h : Writing s s') (hsame : SameSetting s' s'')
    (hkept : SinkKept (· = s.i2c.slaveReg.toNat) s' s'') : Writing s s'' :=
  ⟨h.same.trans hsame, h.kept.trans hkept⟩

theorem take_regs (s : DdcState) : s.take.regs = s.regs := by
  unfold DdcState.take
  split_ifs <;> rfl

theorem Writing.write {s' : DdcState} (hset : SetTo scdcAddr.toUInt32 0 s) (h : Writing s s')
    (a : DdcAnswer) : Writing s (i2cmWrite value a s') := by
  refine h.of_kept sameSetting_write ⟨?_, fun r hr => ?_⟩
  · unfold i2cmWrite
    rcases a.taken
    · rfl
    · exact congrFun (take_regs _) _
  · have hslave : s'.i2c.slaveReg = s.i2c.slaveReg := congrArg DwHdmiQpI2c.slaveReg h.same.i2c
    rw [i2cmWrite_scdc (hset.same h.same)]
    split_ifs
    · rw [hslave]
      exact Function.update_of_ne hr _ _
    · rfl

theorem writeTries_writing (hset : SetTo scdcAddr.toUInt32 0 s) (t : ℕ)
    (st : EfiStatus × DdcState) (h : Writing s st.2) :
    Writing s (i2cmTry hpdTimeoutFlag (i2cmWrite value) b t st).2.2 :=
  i2cmTry_keeps (fun a _ h => h.write hset a)
    (fun _ _ h => h.of_kept (sameSetting_regWrite (by decide) (by decide))
      (sinkKept_regWrite (by decide)))
    (fun _ h => h.of_kept sameSetting_reset sinkKept_reset) t st h

/-- The tries of a byte bring the register to where `Q` has it if one of them is taken. -/
theorem writeTries_brings_iff (hset : SetTo scdcAddr.toUInt32 0 s) (hQ : Q value) :
    Q ((i2cmTries hpdTimeoutFlag (i2cmWrite value) b s).2.2.scdc s.i2c.slaveReg.toNat)
      ↔ Q (s.scdc s.i2c.slaveReg.toNat) ∨ WriteTaken hpdTimeoutFlag b := by
  have hbrings := @tryFor_brings_iff _ _ (i2cmTry hpdTimeoutFlag (i2cmWrite value) b)
    (byteEnds hpdTimeoutFlag b) i2cmRetries 0 (efiSuccess, s) i2cmTry_ends
    (fun st => Writing s st.2) (fun st => Q (st.2.scdc s.i2c.slaveReg.toNat))
    (fun t => dwHdmiReadHpd hpdTimeoutFlag (b t) = true ∧ (b t).taken = true)
    ⟨.refl, .refl⟩ (writeTries_writing hset) fun t st h => by
      have hslave : st.2.i2c.slaveReg = s.i2c.slaveReg := congrArg DwHdmiQpI2c.slaveReg h.same.i2c
      rw [i2cmTry_scdc (hset.same h.same), hslave]
      split_ifs with htaken
      · rw [Function.update_self]
        exact ⟨fun _ => .inr htaken, fun _ => hQ⟩
      · exact ⟨.inl, fun h => h.resolve_right htaken⟩
  simp only [Nat.zero_add] at hbrings
  exact hbrings

def ByteAnswered (hpdTimeoutFlag : Bool) (b : ByteAnswer) : Prop :=
  ∃ t intr, Answered hpdTimeoutFlag b t intr

/-- What a write of a register leaves, told by the answers to its byte. -/
structure ScdcWritten (hpdTimeoutFlag : Bool) (b : ByteAnswer) (register value : UInt8)
    (s : DdcState) (r : EfiStatus × DdcState) : Prop where
  status : efiError r.1 = false ↔ ByteAnswered hpdTimeoutFlag b
  kept : SinkKept (· = register.toNat) s r.2
  brings : ∀ Q : UInt8 → Prop, Q value →
    (Q (r.2.scdc register.toNat) ↔ Q (s.scdc register.toNat) ∨ WriteTaken hpdTimeoutFlag b)

theorem dwHdmiScdcWrite_written (a : XferAnswer) :
    ScdcWritten hpdTimeoutFlag (a 0 0) register value s
      (dwHdmiScdcWrite hpdTimeoutFlag a register value s) := by
  have hset : SetTo scdcAddr.toUInt32 0 (scdcStart register s) := setTo_scdcStart
  have hwriting := @tryFor_invariant _ _ (i2cmTry hpdTimeoutFlag (i2cmWrite value) (a 0 0))
    i2cmRetries 0 (efiSuccess, scdcStart register s) (fun st => Writing (scdcStart register s) st.2)
    ⟨.refl, .refl⟩ (writeTries_writing hset)
  have hbrings : ∀ Q : UInt8 → Prop, Q value → _ := fun Q hQ =>
    @writeTries_brings_iff hpdTimeoutFlag (a 0 0) _ _ Q hset hQ
  have hanswered := @i2cmTries_answered_iff hpdTimeoutFlag (i2cmWrite value) (a 0 0)
    (scdcStart register s)
  have herror := @i2cmTries_error hpdTimeoutFlag (i2cmWrite value) (a 0 0) (scdcStart register s)
  change Writing _ (i2cmTries hpdTimeoutFlag (i2cmWrite value) (a 0 0) _).2.2 at hwriting
  have hxfer : dwHdmiScdcWrite hpdTimeoutFlag a register value s
      = let r := i2cWriteBytes hpdTimeoutFlag (a 0) [value] 0 (scdcStart register s)
        let r := if efiError r.1 then r else (efiSuccess, r.2)
        (r.1, r.2.regMod .mainunit1IntMaskN 0 (i2cmNackRcvd ||| i2cmOpDone)) := rfl
  rw [hxfer, i2cWriteBytes]
  generalize i2cmTries hpdTimeoutFlag (i2cmWrite value) (a 0 0) (scdcStart register s) = x
    at hwriting hbrings hanswered herror ⊢
  obtain ⟨found, status, s'⟩ := x
  have hleaves : ∀ r : EfiStatus × DdcState,
      (efiError r.1 = false ↔ ByteAnswered hpdTimeoutFlag (a 0 0)) →
      r.2.regs .scrambConfig0 = s'.regs .scrambConfig0 → r.2.scdc = s'.scdc →
      ScdcWritten hpdTimeoutFlag (a 0 0) register value s r := fun r hstatus hscramb hscdc =>
    ⟨hstatus, sinkKept_scdcStart.trans ⟨hscramb.trans hwriting.kept.scramb, fun reg hreg => by
      rw [hscdc]
      exact hwriting.kept.scdc reg hreg⟩, fun Q hQ => by
      rw [hscdc]
      exact hbrings Q hQ⟩
  rcases found with _ | _ | ⟨t, intr⟩
  · have hnone : efiError status = true := herror rfl
    simp only [hnone, if_true]
    refine hleaves _ ⟨fun h => ?_, ?_⟩ rfl rfl
    · rw [hnone] at h
      cases h
    · rintro ⟨t, intr, h⟩
      cases hanswered.2 h
  · refine hleaves _ ⟨fun h => ?_, ?_⟩ rfl rfl
    · cases efiError_deviceError.symm.trans h
    · rintro ⟨t, intr, h⟩
      cases hanswered.2 h
  · exact hleaves _ ⟨fun _ => ⟨t, intr, hanswered.1 rfl⟩, fun _ => efiError_success⟩ rfl rfl

end Write

end Edk2Rk3576.Hdmi
