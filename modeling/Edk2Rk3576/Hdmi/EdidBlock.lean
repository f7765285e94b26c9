import Edk2Rk3576.Edid.Model
import Edk2Rk3576.Hdmi.Ddc
import Mathlib.Data.List.GetD
import Mathlib.Tactic.IntervalCases

/-!
# Reading a block of the EDID

A block is read in one transfer. The bytes stored are those up to the first one that is not answered,
each from the register of its place in the EDID.
-/

namespace Edk2Rk3576.Hdmi

open Cells

/-- `DwHdmiReadEdidBlock`, into the EDID buffer. -/
def dwHdmiReadEdidBlock (hpdTimeoutFlag : Bool) (a : XferAnswer) (blockIndex : UInt8) (s : DdcState) :
    EfiStatus × DdcState :=
  let baseAddr := blockIndex * 128
  let segment := blockIndex >>> 1
  let address := I2cMsg.write ddcAddr [baseAddr]
  let read := I2cMsg.read ddcAddr (blockIndex.toNat * edidBlockSize) edidBlockSize
  if segment > 0 then
    dwHdmiQpI2cXfer hpdTimeoutFlag a (.write ddcSegmentAddr [segment]) [address, read] s
  else dwHdmiQpI2cXfer hpdTimeoutFlag a address [read] s

def storeReads (rs : List DdcRead) (m : Cells UInt8) : Cells UInt8 :=
  rs.foldl (fun m r => Function.update m r.pos r.value) m

theorem storeReads_append (rs rs' : List DdcRead) (m : Cells UInt8) :
    storeReads (rs ++ rs') m = storeReads rs' (storeReads rs m) := List.foldl_append

/-- Where nothing is stored. -/
theorem storeReads_of_ne {i : ℕ} : ∀ {rs : List DdcRead} {m : Cells UInt8},
    (∀ r ∈ rs, r.pos ≠ i) → storeReads rs m i = m i
  | [], _, _ => rfl
  | r :: rs, m, h => by
    have hrest : ∀ r' ∈ rs, r'.pos ≠ i := fun r' hr' => h r' (List.mem_cons_of_mem _ hr')
    rw [storeReads, List.foldl_cons, ← storeReads, storeReads_of_ne hrest]
    exact Function.update_of_ne (h r List.mem_cons_self).symm _ _

section Run

variable {hpdTimeoutFlag : Bool} {a : MsgAnswer} {pos n k : ℕ} {address : ℕ → DdcAddress}
  {rs : List DdcRead} {ok : Bool} {s s' : DdcState} {slave segment : UInt32}

/-- What byte `k` of a message is read and stored as. -/
def ddcRead (a : MsgAnswer) (pos : ℕ) (address : ℕ → DdcAddress) (k t : ℕ) (intr : UInt32) :
    DdcRead :=
  ⟨pos + k, address k, intr, ((a k t).rdData (address k) &&& 0xff).toUInt8⟩

/-- The bytes read of the `n` from byte `k` on, and whether it is all of them. -/
inductive ReadRun (hpdTimeoutFlag : Bool) (a : MsgAnswer) (pos : ℕ) (address : ℕ → DdcAddress) :
    ℕ → ℕ → List DdcRead → Bool → Prop
  | all (k : ℕ) : ReadRun hpdTimeoutFlag a pos address 0 k [] true
  | stop {n k : ℕ} (h : ∀ t intr, ¬ Answered hpdTimeoutFlag (a k) t intr) :
      ReadRun hpdTimeoutFlag a pos address (n + 1) k [] false
  | byte {n k t : ℕ} {intr : UInt32} {rs : List DdcRead} {ok : Bool}
      (h : Answered hpdTimeoutFlag (a k) t intr)
      (rest : ReadRun hpdTimeoutFlag a pos address n (k + 1) rs ok) :
      ReadRun hpdTimeoutFlag a pos address (n + 1) k (ddcRead a pos address k t intr :: rs) ok

theorem ReadRun.mem (h : ReadRun hpdTimeoutFlag a pos address n k rs ok) :
    ∀ r ∈ rs, ∃ i, k ≤ i ∧ i < k + n ∧ r.pos = pos + i ∧ r.address = address i := by
  induction h with
  | all | stop => exact fun _ hr => absurd hr List.not_mem_nil
  | @byte n k t intr rs ok _ _ ih =>
    intro r hr
    rcases List.mem_cons.1 hr with rfl | hr
    · exact ⟨k, by omega, by omega, rfl, rfl⟩
    · obtain ⟨i, hk, hi, heq⟩ := ih r hr
      exact ⟨i, by omega, by omega, heq⟩

theorem ReadRun.length_eq (h : ReadRun hpdTimeoutFlag a pos address n k rs true) : rs.length = n := by
  generalize hok : true = ok at h
  induction h with
  | all => rfl
  | stop => cases hok
  | byte _ _ ih => rw [List.length_cons, ih hok]

/-- The buffer has the bytes that were read. -/
theorem ReadRun.slice (h : ReadRun hpdTimeoutFlag a pos address n k rs true) (m : Cells UInt8) :
    (storeReads rs m).slice (pos + k) n = rs.map DdcRead.value := by
  generalize hok : true = ok at h
  induction h generalizing m with
  | all => rfl
  | stop => cases hok
  | @byte n k t intr rs ok hans rest ih =>
    subst hok
    have hfirst : storeReads (ddcRead a pos address k t intr :: rs) m (pos + k)
        = (ddcRead a pos address k t intr).value := by
      rw [storeReads, List.foldl_cons, ← storeReads, storeReads_of_ne]
      · exact Function.update_self _ _ _
      · intro r hr
        obtain ⟨i, hi, -, hpos, -⟩ := rest.mem r hr
        omega
    have hrest := ih (Function.update m (pos + k) (ddcRead a pos address k t intr).value) rfl
    rw [List.map_cons, ← hrest, Cells.slice, List.range_succ_eq_map, List.map_cons, List.map_map,
      Nat.add_zero, hfirst, Cells.slice]
    exact congrArg _ (List.map_congr_left fun j _ => by
      rw [Function.comp_apply, show pos + k + j.succ = pos + (k + 1) + j by omega]
      rfl)

/-- The run is of all the bytes, with interrupts that have `D`. -/
theorem ReadRun.iff {D : UInt32 → Prop} {content : ℕ → UInt8}
    (h : ReadRun hpdTimeoutFlag a pos address n k rs ok) :
    ok = true ∧ (∀ r ∈ rs, D r.intr) ∧ rs.map DdcRead.value = (List.range' k n).map content
      ↔ ∀ i, k ≤ i → i < k + n → ∃ t intr, Answered hpdTimeoutFlag (a i) t intr ∧ D intr ∧
        content i = ((a i t).rdData (address i) &&& 0xff).toUInt8 := by
  induction h with
  | all k => exact ⟨fun _ i hk hi => absurd hi (by omega), fun _ => ⟨rfl, by simp, rfl⟩⟩
  | @stop n k hno =>
    refine ⟨fun h => (nomatch h.1), fun h => ?_⟩
    obtain ⟨t, intr, hans, -⟩ := h k (by omega) (by omega)
    exact absurd hans (hno t intr)
  | @byte n k t intr rs ok hans _ ih =>
    rw [List.range'_succ, List.map_cons, List.map_cons]
    constructor
    · rintro ⟨hok, hD, hvalue⟩ i hk hi
      obtain ⟨hhead, htail⟩ := List.cons.inj hvalue
      rcases Nat.eq_or_lt_of_le hk with rfl | hlt
      · exact ⟨t, intr, hans, hD _ List.mem_cons_self, hhead.symm⟩
      · exact ih.1 ⟨hok, fun r hr => hD r (List.mem_cons_of_mem _ hr), htail⟩ i hlt (by omega)
    · intro h
      obtain ⟨t', intr', hans', hD, hvalue⟩ := h k (by omega) (by omega)
      obtain ⟨rfl, rfl⟩ := hans.unique hans'
      obtain ⟨hok, hDs, hvalues⟩ := ih.2 fun i hi hlt => h i (by omega) (by omega)
      refine ⟨hok, List.forall_mem_cons.2 ⟨hD, hDs⟩, ?_⟩
      rw [hvalues, hvalue]
      rfl

/-- The master is set to a slave and a segment. -/
structure SetTo (slave segment : UInt32) (s : DdcState) : Prop where
  slave : (s.regs .i2cmInterfaceControl0 &&& i2cmSlvaddr) >>> 5 = slave
  segment : (if s.i2c.isSegment then (s.regs .i2cmInterfaceControl1 &&& i2cmSegPtr) >>> 7 else 0)
    = segment

theorem SetTo.same (h : SetTo slave segment s) (hsame : SameSetting s s') : SetTo slave segment s' :=
  ⟨by rw [hsame.slave, h.slave], by rw [hsame.i2c, hsame.segment, h.segment]⟩

/-- The register is the one the driver counts. -/
def AtReg (s : DdcState) : Prop :=
  s.regs .i2cmInterfaceControl0 &&& i2cmAddr = s.i2c.slaveReg.toUInt32 <<< 12

theorem extRead_and {x : UInt32} : x &&& i2cmExtRead = x &&& i2cmWrMask &&& i2cmExtRead := by
  rw [UInt32.and_assoc]
  rfl

/-- A read is of the slave and the segment that are set, at the register counted. -/
theorem address_of_read {b : DdcAnswer} (hset : SetTo slave segment s) (hreg : AtReg s) {v : UInt32} :
    ((i2cmRead b s).regWrite .mainunit1IntClear v).address
      = ⟨slave, segment, s.i2c.slaveReg.toUInt32⟩ := by
  have hsame : SameSetting s ((i2cmRead b s).regWrite .mainunit1IntClear v) :=
    sameSetting_read.trans (sameSetting_regWrite (by decide) (by decide))
  have hcontrol : ((i2cmRead b s).regWrite .mainunit1IntClear v).regs .i2cmInterfaceControl0
      = s.regs .i2cmInterfaceControl0 &&& ~~~i2cmWrMask
        ||| if s.i2c.isSegment then i2cmExtRead else i2cmFmRead := by
    rw [regWrite_of_ne (by decide), i2cmRead]
    split_ifs <;> exact regMod_self
  have hkind : (if s.i2c.isSegment then i2cmExtRead else i2cmFmRead) &&& i2cmWrMask
      = if s.i2c.isSegment then i2cmExtRead else i2cmFmRead := by
    split_ifs <;> rfl
  unfold DdcState.address
  dsimp only
  congr 1
  · exact (hset.same hsame).slave
  · rw [← (hset.same hsame).segment, hsame.i2c, hcontrol, extRead_and, mod_and_self hkind]
    rcases s.i2c.isSegment
    · exact if_neg (by decide)
    · exact if_pos (by decide)
  · rw [hcontrol, mod_and_of_apart (by decide) hkind, hreg, reg_place]

theorem AtReg.modWrMask (h : AtReg s) {value : UInt32} (hvalue : value &&& i2cmWrMask = value) :
    AtReg (s.regMod .i2cmInterfaceControl0 value i2cmWrMask) := by
  rw [AtReg, regMod_self, mod_and_of_apart (by decide) hvalue]
  exact h

theorem AtReg.write (h : AtReg s) {r : HdmiReg} (hr : .i2cmInterfaceControl0 ≠ r) {v : UInt32} :
    AtReg (s.regWrite r v) := by
  rw [AtReg, regWrite_of_ne hr]
  exact h

theorem AtReg.read (h : AtReg s) (b : DdcAnswer) : AtReg (i2cmRead b s) := by
  unfold i2cmRead
  split_ifs <;> exact h.modWrMask rfl

/-- How the tries of a read end. -/
theorem readTries_cases {b : ByteAnswer} (hset : SetTo slave segment s) (hreg : AtReg s) :
    ∃ status s', SameSetting s s' ∧
      (((∀ t intr, ¬ Answered hpdTimeoutFlag b t intr) ∧
        (i2cmTries hpdTimeoutFlag i2cmRead b s = (some .disconnected, status, s') ∨
          i2cmTries hpdTimeoutFlag i2cmRead b s = (none, status, s') ∧ efiError status = true)) ∨
      ∃ t intr, Answered hpdTimeoutFlag b t intr ∧
        i2cmTries hpdTimeoutFlag i2cmRead b s = (some (.answered t intr), status, s') ∧
        s'.address = ⟨slave, segment, s.i2c.slaveReg.toUInt32⟩) := by
  have hstart : ∀ b s', SameSetting s s' ∧ AtReg s' →
      SameSetting s (i2cmRead b s') ∧ AtReg (i2cmRead b s') := fun b s' h =>
    ⟨h.1.trans sameSetting_read, h.2.read b⟩
  have hclear : ∀ s' v, SameSetting s s' ∧ AtReg s' →
      SameSetting s (s'.regWrite .mainunit1IntClear v) ∧
        AtReg (s'.regWrite .mainunit1IntClear v) := fun s' v h =>
    ⟨h.1.trans (sameSetting_regWrite (by decide) (by decide)), h.2.write (by decide)⟩
  have hreset : ∀ s', SameSetting s s' ∧ AtReg s' → SameSetting s s'.reset ∧ AtReg s'.reset :=
    fun s' h => ⟨h.1.trans sameSetting_reset, (h.2.write (by decide)).modWrMask rfl⟩
  have hkept := (@i2cmTries_keeps hpdTimeoutFlag _ b s _ hstart hclear hreset ⟨.refl, hreg⟩).1
  have hiff := @i2cmTries_answered_iff hpdTimeoutFlag i2cmRead b s
  rcases htries : i2cmTries hpdTimeoutFlag i2cmRead b s with ⟨_ | _ | ⟨t, intr⟩, status, s'⟩
  · have herror := i2cmTries_error (congrArg Prod.fst htries)
    simp only [htries] at hkept hiff herror
    exact ⟨status, s', hkept, .inl ⟨fun t intr h => (nomatch hiff.2 h), .inr ⟨rfl, herror⟩⟩⟩
  · simp only [htries] at hkept hiff
    exact ⟨status, s', hkept, .inl ⟨fun t intr h => (nomatch hiff.2 h), .inl rfl⟩⟩
  · obtain ⟨s₂, ⟨hsame, hreg₂⟩, hs'⟩ := i2cmTries_of_answered hstart hclear hreset ⟨.refl, hreg⟩
      (congrArg Prod.fst htries)
    simp only [htries] at hkept hiff hs'
    refine ⟨status, s', hkept, .inr ⟨t, intr, hiff.1 rfl, rfl, ?_⟩⟩
    rw [hs', address_of_read (hset.same hsame) hreg₂, hsame.i2c]

/-- What a message that reads leaves. -/
structure ReadLeaves (rs : List DdcRead) (ok : Bool) (s : DdcState) (r : EfiStatus × DdcState) :
    Prop where
  reads : r.2.reads = s.reads ++ rs
  buf : r.2.buf = storeReads rs s.buf
  success : ok = true → r.1 = efiSuccess
  error : ok = false → efiError r.1 = true

def byteAddress (slave segment : UInt32) (base : UInt8) (k : ℕ) : DdcAddress :=
  ⟨slave, segment, (base + UInt8.ofNat k).toUInt32⟩

theorem i2cReadBytes_run {base : UInt8} (hset : SetTo slave segment s)
    (hslaveReg : s.i2c.slaveReg = base + UInt8.ofNat k) :
    ∃ rs ok, ReadRun hpdTimeoutFlag a pos (byteAddress slave segment base) n k rs ok ∧
      ReadLeaves rs ok s (i2cReadBytes hpdTimeoutFlag a pos n k s) := by
  induction n generalizing k s with
  | zero => exact ⟨[], true, .all k, (List.append_nil _).symm, rfl, fun _ => rfl, nofun⟩
  | succ n ih =>
    have hsame : SameSetting s (s.regMod .i2cmInterfaceControl0 (s.i2c.slaveReg.toUInt32 <<< 12)
        i2cmAddr) := sameSetting_regMod (by decide) (place_reg _)
    have hreg : AtReg (s.regMod .i2cmInterfaceControl0 (s.i2c.slaveReg.toUInt32 <<< 12) i2cmAddr) := by
      rw [AtReg, regMod_self, mod_and_self (place_reg _)]
      rfl
    rw [i2cReadBytes]
    obtain ⟨status, s', hkept, ⟨hno, htries⟩ | ⟨t, intr, hans, htries, haddress⟩⟩ :=
      @readTries_cases hpdTimeoutFlag _ _ _ (a k) (hset.same hsame) hreg
    · have hkept := hsame.trans hkept
      refine ⟨[], false, .stop hno, ?_⟩
      rcases htries with htries | ⟨htries, herror⟩ <;> dsimp only <;> rw [htries]
      · exact ⟨by rw [hkept.reads, List.append_nil], hkept.buf, nofun, fun _ => efiError_deviceError⟩
      · exact ⟨by rw [hkept.reads, List.append_nil], hkept.buf, nofun, fun _ => herror⟩
    · have hkept := hsame.trans hkept
      have hbyte : s'.address = byteAddress slave segment base k := by
        rw [haddress, hsame.i2c, hslaveReg]
        rfl
      dsimp only
      rw [htries]
      dsimp only
      rw [hbyte]
      have hset' : SetTo slave segment (((s'.store (ddcRead a pos (byteAddress slave segment base) k
          t intr)).nextReg).regMod .i2cmInterfaceControl0 0 i2cmWrMask) := by
        have h := hset.same hkept
        have hnext : SetTo slave segment (s'.store (ddcRead a pos (byteAddress slave segment base) k
          t intr)).nextReg := ⟨h.slave, h.segment⟩
        exact hnext.same (sameSetting_regMod (by decide) rfl)
      obtain ⟨rs, ok, hrun, hleaves⟩ := ih hset' (k := k + 1) (by
        change s'.i2c.slaveReg + 1 = base + UInt8.ofNat (k + 1)
        rw [hkept.i2c, hslaveReg, UInt8.add_assoc, UInt8.ofNat_add]
        rfl)
      refine ⟨_, ok, .byte hans hrun, ?_, ?_, hleaves.success, hleaves.error⟩
      · refine hleaves.reads.trans ?_
        change s'.reads ++ [_] ++ rs = _
        rw [hkept.reads, List.append_assoc, List.singleton_append]
      · refine hleaves.buf.trans ?_
        change storeReads rs (Function.update s'.buf _ _) = _
        rw [hkept.buf]
        rfl

/-- The message that says where to read, and the one that reads. -/
theorem readMsgs_run {a : XferAnswer} {i : ℕ} {base : UInt8} (hset : SetTo slave segment s)
    (hregAddr : s.i2c.isRegAddr = false) :
    ∃ rs ok, ReadRun hpdTimeoutFlag (a (i + 1)) pos (byteAddress slave segment base) n 0 rs ok ∧
      ReadLeaves rs ok s (dwHdmiQpI2cMsgs hpdTimeoutFlag a i
        [.write ddcAddr [base], .read ddcAddr pos n] s) := by
  have hwrite : dwHdmiQpI2cMsg hpdTimeoutFlag (a i) (.write ddcAddr [base]) s
      = (efiSuccess, { s with i2c := ⟨base, s.i2c.isSegment, true⟩ }) := by
    change dwHdmiI2cWrite hpdTimeoutFlag (a i) [base] s = _
    rw [dwHdmiI2cWrite, hregAddr]
    rfl
  have hset' : SetTo slave segment { s with i2c := ⟨base, s.i2c.isSegment, true⟩ } :=
    ⟨hset.slave, hset.segment⟩
  obtain ⟨rs, ok, hrun, hleaves⟩ := @i2cReadBytes_run hpdTimeoutFlag (a (i + 1)) pos n 0 _ _ _ base
    hset' (UInt8.add_zero base).symm
  refine ⟨rs, ok, hrun, ?_⟩
  have hread : dwHdmiQpI2cMsg hpdTimeoutFlag (a (i + 1)) (.read ddcAddr pos n)
      { s with i2c := ⟨base, s.i2c.isSegment, true⟩ }
      = i2cReadBytes hpdTimeoutFlag (a (i + 1)) pos n 0
        { s with i2c := ⟨base, s.i2c.isSegment, true⟩ } := rfl
  rw [dwHdmiQpI2cMsgs, hwrite]
  dsimp only
  rw [efiError_success, if_neg Bool.false_ne_true, dwHdmiQpI2cMsgs, hread]
  rcases ok
  · rw [if_pos (hleaves.error rfl)]
    exact ⟨hleaves.reads, hleaves.buf, nofun, fun _ => hleaves.error rfl⟩
  · rw [if_neg (by rw [hleaves.success rfl, efiError_success]; exact Bool.false_ne_true)]
    exact ⟨hleaves.reads, hleaves.buf, fun _ => rfl, nofun⟩

/-- The interrupts of the master are masked. -/
def Masked (s : DdcState) : Prop :=
  s.regs .mainunit1IntMaskN &&& (i2cmNackRcvd ||| i2cmOpDone) = 0

theorem setTo_xferStart {addr : UInt8} (haddr : addr.toUInt32 <<< 5 &&& i2cmSlvaddr
    = addr.toUInt32 <<< 5) (hshift : addr.toUInt32 <<< 5 >>> 5 = addr.toUInt32) :
    SetTo addr.toUInt32 0 (xferStart addr s) := by
  refine ⟨?_, rfl⟩
  change (((s.regMod .mainunit1IntMaskN _ _).regMod .i2cmInterfaceControl0 (addr.toUInt32 <<< 5)
    i2cmSlvaddr).regs _ &&& _) >>> 5 = _
  rw [regMod_self, mod_and_self haddr, hshift]

/-- The message of a transfer that reads a block. -/
def edidReadMsg (block : ℕ) : ℕ := if block < 2 then 1 else 2

/-- The place of a byte of a block in the EDID, as the segment and the register. -/
def edidAddress (block : ℕ) : ℕ → DdcAddress :=
  byteAddress ddcAddr.toUInt32 (UInt32.ofNat (block / 2)) (UInt8.ofNat block * 128)

structure BlockRead (hpdTimeoutFlag : Bool) (a : XferAnswer) (block : ℕ) (s : DdcState)
    (r : EfiStatus × DdcState) (rs : List DdcRead) (ok : Bool) : Prop where
  run : ReadRun hpdTimeoutFlag (a (edidReadMsg block)) (block * edidBlockSize) (edidAddress block)
    edidBlockSize 0 rs ok
  reads : r.2.reads = rs
  buf : r.2.buf = storeReads rs s.buf
  masked : Masked r.2
  success : ok = true → r.1 = efiSuccess
  error : ok = false → efiError r.1 = true

theorem setTo_segment {v : UInt8} (hset : SetTo slave 0 s)
    (hv : v.toUInt32 <<< 7 &&& i2cmSegPtr = v.toUInt32 <<< 7)
    (hshift : v.toUInt32 <<< 7 >>> 7 = v.toUInt32) {a : MsgAnswer} :
    ∃ s', dwHdmiQpI2cMsg hpdTimeoutFlag a (.write ddcSegmentAddr [v]) s = (efiSuccess, s') ∧
      SetTo slave v.toUInt32 s' ∧ s'.i2c.isRegAddr = s.i2c.isRegAddr ∧ s'.reads = s.reads ∧
      s'.buf = s.buf := by
  refine ⟨_, rfl, ⟨?_, ?_⟩, rfl, rfl, rfl⟩
  · rw [DdcState.regMod, regWrite_of_ne (by decide), DdcState.regMod, regWrite_of_ne (by decide)]
    exact hset.slave
  · change ((DdcState.regMod _ .i2cmInterfaceControl1 (v.toUInt32 <<< 7) i2cmSegPtr).regs _ &&& _)
      >>> 7 = _
    rw [regMod_self, mod_and_self hv, hshift]

/-- The interrupts are masked behind the messages. -/
theorem masked_xfer {s : DdcState} :
    Masked (s.regMod .mainunit1IntMaskN 0 (i2cmNackRcvd ||| i2cmOpDone)) := by
  rw [Masked, regMod_self]
  exact mod_and_self rfl

theorem dwHdmiReadEdidBlock_run {a : XferAnswer} {block : ℕ} (hblock : block ≤ 4) :
    ∃ rs ok, BlockRead hpdTimeoutFlag a block s
      (dwHdmiReadEdidBlock hpdTimeoutFlag a (UInt8.ofNat block) s) rs ok := by
  have hstart : SetTo ddcAddr.toUInt32 0 (xferStart ddcAddr.toUInt8 s) :=
    @setTo_xferStart s ddcAddr.toUInt8 (by decide) (by decide)
  rcases Nat.lt_or_ge block 2 with hlt | hge
  · have hxfer : dwHdmiReadEdidBlock hpdTimeoutFlag a (UInt8.ofNat block) s
        = let r := dwHdmiQpI2cMsgs hpdTimeoutFlag a 0
            [.write ddcAddr [UInt8.ofNat block * 128], .read ddcAddr (block * edidBlockSize)
              edidBlockSize] (xferStart ddcAddr.toUInt8 s)
          (r.1, r.2.regMod .mainunit1IntMaskN 0 (i2cmNackRcvd ||| i2cmOpDone)) := by
      interval_cases block <;> rfl
    obtain ⟨rs, ok, hrun, hleaves⟩ := @readMsgs_run hpdTimeoutFlag (block * edidBlockSize)
      edidBlockSize _ _ _ a 0 (UInt8.ofNat block * 128) hstart rfl
    have hmsg : edidReadMsg block = 0 + 1 := if_pos hlt
    have hsegment : UInt32.ofNat (block / 2) = 0 := by rw [Nat.div_eq_of_lt hlt]; rfl
    rw [hxfer]
    exact ⟨rs, ok, by rw [hmsg, edidAddress, hsegment]; exact hrun, hleaves.reads, hleaves.buf,
      masked_xfer, hleaves.success, hleaves.error⟩
  · obtain ⟨s', hsegment, hset, hregAddr, hreads, hbuf⟩ :=
      @setTo_segment hpdTimeoutFlag _ _ (UInt8.ofNat block >>> 1) hstart
        (by interval_cases block <;> decide) (by interval_cases block <;> decide) (a 0)
    have hxfer : dwHdmiReadEdidBlock hpdTimeoutFlag a (UInt8.ofNat block) s
        = let r := dwHdmiQpI2cMsgs hpdTimeoutFlag a 1
            [.write ddcAddr [UInt8.ofNat block * 128], .read ddcAddr (block * edidBlockSize)
              edidBlockSize] s'
          (r.1, r.2.regMod .mainunit1IntMaskN 0 (i2cmNackRcvd ||| i2cmOpDone)) := by
      have hmsgs : ∀ msgs, dwHdmiQpI2cMsgs hpdTimeoutFlag a 0
          (.write ddcSegmentAddr [UInt8.ofNat block >>> 1] :: msgs) (xferStart ddcAddr.toUInt8 s)
          = dwHdmiQpI2cMsgs hpdTimeoutFlag a 1 msgs s' := fun msgs => by
        rw [dwHdmiQpI2cMsgs, hsegment]
        rfl
      rw [← hmsgs]
      interval_cases block <;> rfl
    obtain ⟨rs, ok, hrun, hleaves⟩ := @readMsgs_run hpdTimeoutFlag (block * edidBlockSize)
      edidBlockSize _ _ _ a 1 (UInt8.ofNat block * 128) hset hregAddr
    have hmsg : edidReadMsg block = 1 + 1 := if_neg (by omega)
    have hseg : UInt32.ofNat (block / 2) = (UInt8.ofNat block >>> 1).toUInt32 := by
      interval_cases block <;> rfl
    rw [hxfer]
    exact ⟨rs, ok, by rw [hmsg, edidAddress, hseg]; exact hrun,
      by rw [← List.nil_append rs, ← show s'.reads = [] from hreads]; exact hleaves.reads,
      by rw [← show s'.buf = s.buf from hbuf]; exact hleaves.buf, masked_xfer, hleaves.success,
      hleaves.error⟩

end Run

end Edk2Rk3576.Hdmi
