import Edk2Rk3576.Efi
import Edk2Rk3576.Lib.BitFields
import Edk2Rk3576.Lib.LinearRange
import Edk2Rk3576.Lib.Masks
import Mathlib.Logic.Function.Basic
import Mathlib.Tactic.SplitIfs

/-!
# The RK860x regulators

A CPU's regulator over I2C. The driver takes a voltage to a selector, a quotient of words cut to a
byte, and merges it into a register that in one variant of the chip has the enable bit too. The
request is not checked and the selector is not masked: outside of the selector's range another
selector is written, or the bits beside it.
-/

namespace Edk2Rk3576.Rk860x

/-- `RK860X_REGULATOR_CONFIG`. -/
structure Config where
  volReg : BitVec 8
  sleepReg : BitVec 8
  enReg : BitVec 8
  sleepEnReg : BitVec 8
  volMask : BitVec 8
  numVoltages : BitVec 16
  vselMin : BitVec 32
  vselStep : BitVec 32
  deriving DecidableEq

def rk860xVsel0A : BitVec 8 := 0x00
def rk860xVsel1A : BitVec 8 := 0x01
def rk860xVsel0B : BitVec 8 := 0x06
def rk860xVsel1B : BitVec 8 := 0x07

def rk860xVselBuckEn : BitVec 8 := 0x80
def rk860xVselANselMask : BitVec 8 := 0x3F
def rk860xVselBNselMask : BitVec 8 := 0xff

def rk860xId1 : BitVec 8 := 0x03
def rk860xDieIdMask : BitVec 8 := 0x0F
def rk860xChipId0001 : BitVec 8 := 8
def rk860xChipId0203 : BitVec 8 := 10

def rk860xNvoltages64 : BitVec 16 := 64
def rk860xNvoltages160 : BitVec 16 := 160

def config0001 : Config where
  vselMin := 712500
  vselStep := 12500
  numVoltages := rk860xNvoltages64
  volMask := rk860xVselANselMask
  sleepReg := rk860xVsel1A
  volReg := rk860xVsel0A
  enReg := rk860xVsel0A
  sleepEnReg := rk860xVsel1A

def config0203 : Config where
  vselMin := 500000
  vselStep := 6250
  numVoltages := rk860xNvoltages160
  volMask := rk860xVselBNselMask
  sleepReg := rk860xVsel1B
  volReg := rk860xVsel0B
  enReg := rk860xVsel0A
  sleepEnReg := rk860xVsel1A

/-- How a transfer ends. One that ends in an error may have reached the chip all the same. -/
structure Outcome where
  status : EfiStatus
  lands : Bool

/-- The chip's registers, how many transfers there were, and what was to be written. -/
structure Chip where
  regs : BitVec 8 → BitVec 8
  transfers : ℕ
  writes : List (BitVec 8 × BitVec 8)

section Driver

variable (i2c : ℕ → Outcome)

/-- With an error status, the value is not looked at. -/
def readRegister (address : BitVec 8) (s : Chip) : EfiStatus × BitVec 8 × Chip :=
  ((i2c s.transfers).status, s.regs address, { s with transfers := s.transfers + 1 })

def writeRegister (address value : BitVec 8) (s : Chip) : EfiStatus × Chip :=
  let o := i2c s.transfers
  (o.status,
    { regs := if efiError o.status && !o.lands then s.regs else Function.update s.regs address value
      transfers := s.transfers + 1
      writes := s.writes ++ [(address, value)] })

def clearAndSetRegister (address clear set : BitVec 8) (s : Chip) : EfiStatus × Chip :=
  match readRegister i2c address s with
  | (status, value, s) =>
    if efiError status then (status, s)
    else writeRegister i2c address (value &&& ~~~clear ||| set) s

def initConfig (s : Chip) : Except EfiStatus Config :=
  match readRegister i2c rk860xId1 s with
  | (status, chipId, _) =>
    if efiError status then .error status
    else if chipId &&& rk860xDieIdMask = rk860xChipId0001 then .ok config0001
    else if chipId &&& rk860xDieIdMask = rk860xChipId0203 then .ok config0203
    else .error efiUnsupported

variable (cfg : Config)

def voltageReg (suspend : Bool) : BitVec 8 := if suspend then cfg.sleepReg else cfg.volReg

def enableReg (suspend : Bool) : BitVec 8 := if suspend then cfg.sleepEnReg else cfg.enReg

def getVoltage (suspend : Bool) (s : Chip) : EfiStatus × BitVec 32 × Chip :=
  match readRegister i2c (voltageReg cfg suspend) s with
  | (status, value, s) =>
    (status, (value &&& cfg.volMask).setWidth 32 * cfg.vselStep + cfg.vselMin, s)

def setVoltage (voltage : BitVec 32) (suspend : Bool) (s : Chip) : EfiStatus × Chip :=
  let value := ((voltage - cfg.vselMin) / cfg.vselStep).setWidth 8
  clearAndSetRegister i2c (voltageReg cfg suspend) cfg.volMask value s

def getEnable (suspend : Bool) (s : Chip) : EfiStatus × BitVec 8 × Chip :=
  match readRegister i2c (enableReg cfg suspend) s with
  | (status, value, s) => (status, value &&& rk860xVselBuckEn, s)

def setEnable (enable suspend : Bool) (s : Chip) : EfiStatus × Chip :=
  let value := if enable then rk860xVselBuckEn else 0
  clearAndSetRegister i2c (enableReg cfg suspend) rk860xVselBuckEn value s

end Driver

/-! ### What a set voltage comes to -/

def Config.range (cfg : Config) : LinearRange := ⟨cfg.vselMin.toNat, cfg.vselStep.toNat⟩

/-- The selector's bits have a number for the voltage. -/
def Config.Represents (cfg : Config) (voltage : BitVec 32) : Prop :=
  cfg.vselMin.toNat ≤ voltage.toNat ∧
    voltage.toNat < cfg.vselMin.toNat + cfg.vselStep.toNat * (cfg.volMask.toNat + 1)

instance (cfg : Config) (voltage : BitVec 32) : Decidable (cfg.Represents voltage) :=
  inferInstanceAs (Decidable (_ ∧ _))

/-- What is set is read back, to a step, beside bits that are as they were. What cannot be set is
turned down. -/
structure SetAgrees (i2c : ℕ → Outcome) (cfg : Config) (voltage : BitVec 32) (suspend : Bool)
    (s : Chip) : Prop where
  reads : (setVoltage i2c cfg voltage suspend s).1 = efiSuccess →
    let v := (getVoltage i2c cfg suspend (setVoltage i2c cfg voltage suspend s).2).2.1
    v.toNat ≤ voltage.toNat ∧ voltage.toNat < v.toNat + cfg.vselStep.toNat
  keeps : (setVoltage i2c cfg voltage suspend s).1 = efiSuccess →
    let s' := (setVoltage i2c cfg voltage suspend s).2
    (∀ a ≠ voltageReg cfg suspend, s'.regs a = s.regs a) ∧
      s'.regs (voltageReg cfg suspend) &&& ~~~cfg.volMask =
        s.regs (voltageReg cfg suspend) &&& ~~~cfg.volMask ∧
      ∀ suspend', (getEnable i2c cfg suspend' s').2.1 = (getEnable i2c cfg suspend' s).2.1
  commutes : ∀ enable suspend',
    let v := setVoltage i2c cfg voltage suspend s
    let e := setEnable i2c cfg enable suspend' s
    let ve := setEnable i2c cfg enable suspend' v.2
    let ev := setVoltage i2c cfg voltage suspend e.2
    v.1 = efiSuccess → ve.1 = efiSuccess → e.1 = efiSuccess → ev.1 = efiSuccess →
      ve.2.regs = ev.2.regs
  rejects : ¬ cfg.Represents voltage →
    efiError (setVoltage i2c cfg voltage suspend s).1 = true ∧
      (setVoltage i2c cfg voltage suspend s).2.writes = s.writes

/-- What the two variants have in common: the selector's mask covers the low bits, no selector
wraps, and where a register has both the selector and the enable bit they are apart. -/
structure Config.WellFormed (cfg : Config) : Prop where
  step_pos : 0 < cfg.vselStep.toNat
  mask : ∀ v : BitVec 8, v.toNat ≤ cfg.volMask.toNat → v &&& cfg.volMask = v
  fits : cfg.vselMin.toNat + cfg.vselStep.toNat * (cfg.volMask.toNat + 1) ≤ 2 ^ 32
  apart : ∀ suspend suspend', voltageReg cfg suspend = enableReg cfg suspend' →
    cfg.volMask &&& rk860xVselBuckEn = 0#8

theorem initConfig_wellFormed {i2c : ℕ → Outcome} {s : Chip} {cfg : Config}
    (h : initConfig i2c s = .ok cfg) : cfg.WellFormed := by
  unfold initConfig at h
  rcases readRegister i2c rk860xId1 s with ⟨status, chipId, s'⟩
  simp only [] at h
  split_ifs at h
  · obtain rfl := Except.ok.inj h
    exact ⟨by decide, by decide, by decide, by decide⟩
  · obtain rfl := Except.ok.inj h
    exact ⟨by decide, by decide, by decide, by decide⟩

section Agreement

variable {i2c : ℕ → Outcome} {cfg : Config} {voltage : BitVec 32} {suspend : Bool} {s : Chip}
  {a clear set : BitVec 8}

theorem clearAndSetRegister_eq : clearAndSetRegister i2c a clear set s =
    if efiError (i2c s.transfers).status then
      ((i2c s.transfers).status, { s with transfers := s.transfers + 1 })
    else writeRegister i2c a (s.regs a &&& ~~~clear ||| set) { s with transfers := s.transfers + 1 } :=
  rfl

/-- Where a change of a register returns success, the register is changed. -/
theorem clearAndSetRegister_success
    (h : (clearAndSetRegister i2c a clear set s).1 = efiSuccess) :
    (clearAndSetRegister i2c a clear set s).2.regs =
      Function.update s.regs a (s.regs a &&& ~~~clear ||| set) := by
  rw [clearAndSetRegister_eq] at h ⊢
  split_ifs at h ⊢ with hread
  · simp only [] at h
    rw [h, efiError_success] at hread
    cases hread
  · simp only [writeRegister] at h ⊢
    rw [h, efiError_success]
    rfl

/-- The selector is the number of the voltage in the range. -/
theorem selector_toNat (hcfg : cfg.WellFormed) (h : cfg.Represents voltage) :
    (((voltage - cfg.vselMin) / cfg.vselStep).setWidth 8).toNat =
        (voltage.toNat - cfg.vselMin.toNat) / cfg.vselStep.toNat ∧
      (voltage.toNat - cfg.vselMin.toNat) / cfg.vselStep.toNat ≤ cfg.volMask.toNat := by
  have hle : (voltage.toNat - cfg.vselMin.toNat) / cfg.vselStep.toNat ≤ cfg.volMask.toNat := by
    rw [← Nat.lt_add_one_iff, Nat.div_lt_iff_lt_mul hcfg.step_pos, Nat.mul_comm]
    have := h.2
    have := h.1
    omega
  refine ⟨?_, hle⟩
  have hmask := cfg.volMask.isLt
  rw [BitVec.toNat_setWidth, BitVec.toNat_udiv, BitVec.toNat_sub_of_le h.1,
    Nat.mod_eq_of_lt (by omega)]

theorem selector_and (hcfg : cfg.WellFormed) (h : cfg.Represents voltage) :
    ((voltage - cfg.vselMin) / cfg.vselStep).setWidth 8 &&& cfg.volMask =
      ((voltage - cfg.vselMin) / cfg.vselStep).setWidth 8 := by
  obtain ⟨heq, hle⟩ := selector_toNat hcfg h
  exact hcfg.mask _ (heq ▸ hle)

/-- The selector, decoded as the driver decodes it. -/
theorem selector_decoded (hcfg : cfg.WellFormed) (h : cfg.Represents voltage) :
    let v := (((voltage - cfg.vselMin) / cfg.vselStep).setWidth 8).setWidth 32 * cfg.vselStep +
      cfg.vselMin
    v.toNat ≤ voltage.toNat ∧ voltage.toNat < v.toNat + cfg.vselStep.toNat := by
  intro v
  obtain ⟨heq, hle⟩ := selector_toNat hcfg h
  obtain ⟨n, hn⟩ : ∃ n, n = (voltage.toNat - cfg.vselMin.toNat) / cfg.vselStep.toNat := ⟨_, rfl⟩
  rw [← hn] at heq hle
  have hmeets : cfg.range.Meets n voltage.toNat := by
    rw [LinearRange.meets_iff hcfg.step_pos, hn, Int.natCast_ediv, Nat.cast_sub h.1]
    rfl
  have hmul : cfg.vselStep.toNat * n ≤ cfg.vselStep.toNat * cfg.volMask.toNat :=
    Nat.mul_le_mul_left _ hle
  have hfits := hcfg.fits
  have hpos := hcfg.step_pos
  rw [Nat.mul_add, Nat.mul_one] at hfits
  have hmask := cfg.volMask.isLt
  have hv : v.toNat = cfg.range.value n := by
    show (_ * _ + _ : BitVec 32).toNat = cfg.vselMin.toNat + cfg.vselStep.toNat * n
    rw [BitVec.toNat_add, BitVec.toNat_mul, BitVec.toNat_setWidth, heq,
      Nat.mod_eq_of_lt (a := n) (by omega), Nat.mul_comm n, Nat.mod_eq_of_lt (by omega),
      Nat.mod_eq_of_lt (by omega), Nat.add_comm]
  have hlt := hmeets.lt hcfg.step_pos
  have hle := hmeets.le
  rw [← hv] at hlt hle
  exact ⟨by exact_mod_cast hle, by exact_mod_cast hlt⟩

/-- What a success of `setVoltage` leaves in the registers. -/
theorem setVoltage_regs (h : (setVoltage i2c cfg voltage suspend s).1 = efiSuccess) :
    (setVoltage i2c cfg voltage suspend s).2.regs = Function.update s.regs (voltageReg cfg suspend)
      (s.regs (voltageReg cfg suspend) &&& ~~~cfg.volMask |||
        ((voltage - cfg.vselMin) / cfg.vselStep).setWidth 8) := clearAndSetRegister_success h

theorem setEnable_regs {enable : Bool} (h : (setEnable i2c cfg enable suspend s).1 = efiSuccess) :
    (setEnable i2c cfg enable suspend s).2.regs = Function.update s.regs (enableReg cfg suspend)
      (s.regs (enableReg cfg suspend) &&& ~~~rk860xVselBuckEn |||
        if enable then rk860xVselBuckEn else 0) := clearAndSetRegister_success h

theorem reads_of_represents (hcfg : cfg.WellFormed) (hrep : cfg.Represents voltage)
    (h : (setVoltage i2c cfg voltage suspend s).1 = efiSuccess) :
    let v := (getVoltage i2c cfg suspend (setVoltage i2c cfg voltage suspend s).2).2.1
    v.toNat ≤ voltage.toNat ∧ voltage.toNat < v.toNat + cfg.vselStep.toNat := by
  have hdec := selector_decoded hcfg hrep
  simp only [getVoltage, readRegister]
  rw [setVoltage_regs h, Function.update_self, BitMask.write_and (selector_and hcfg hrep)]
  exact hdec

theorem keeps_of_represents (hcfg : cfg.WellFormed) (hrep : cfg.Represents voltage)
    (h : (setVoltage i2c cfg voltage suspend s).1 = efiSuccess) :
    let s' := (setVoltage i2c cfg voltage suspend s).2
    (∀ a ≠ voltageReg cfg suspend, s'.regs a = s.regs a) ∧
      s'.regs (voltageReg cfg suspend) &&& ~~~cfg.volMask =
        s.regs (voltageReg cfg suspend) &&& ~~~cfg.volMask ∧
      ∀ suspend', (getEnable i2c cfg suspend' s').2.1 = (getEnable i2c cfg suspend' s).2.1 := by
  have hout := BitMask.write_and_not (c := s.regs (voltageReg cfg suspend)) (selector_and hcfg hrep)
  simp only [getEnable, readRegister]
  rw [setVoltage_regs h]
  refine ⟨fun a ha => Function.update_of_ne ha _ _, ?_, fun suspend' => ?_⟩
  · rw [Function.update_self, hout]
  · by_cases hreg : enableReg cfg suspend' = voltageReg cfg suspend
    · have happart := hcfg.apart suspend suspend' hreg.symm
      have hen : rk860xVselBuckEn = ~~~cfg.volMask &&& rk860xVselBuckEn :=
        (BitMask.not_and_of_apart happart).symm
      rw [hreg, Function.update_self, hen, ← BitVec.and_assoc, hout, BitVec.and_assoc]
    · rw [Function.update_of_ne hreg]

theorem commutes_of_represents (hcfg : cfg.WellFormed) (hrep : cfg.Represents voltage)
    (enable suspend' : Bool) :
    let v := setVoltage i2c cfg voltage suspend s
    let e := setEnable i2c cfg enable suspend' s
    let ve := setEnable i2c cfg enable suspend' v.2
    let ev := setVoltage i2c cfg voltage suspend e.2
    v.1 = efiSuccess → ve.1 = efiSuccess → e.1 = efiSuccess → ev.1 = efiSuccess →
      ve.2.regs = ev.2.regs := by
  intro v e ve ev hv hve he hev
  have hbit : (if enable then rk860xVselBuckEn else 0) &&& rk860xVselBuckEn =
      if enable then rk860xVselBuckEn else 0 := by
    cases enable <;> rfl
  rw [setEnable_regs hve, setVoltage_regs hv, setVoltage_regs hev, setEnable_regs he]
  by_cases hreg : voltageReg cfg suspend = enableReg cfg suspend'
  · rw [hreg, Function.update_self, Function.update_self, Function.update_idem,
      Function.update_idem,
      BitMask.write_comm (selector_and hcfg hrep) hbit (hcfg.apart suspend suspend' hreg)]
  · rw [Function.update_of_ne (Ne.symm hreg), Function.update_of_ne hreg,
      Function.update_comm hreg]

/-- Get and set agree exactly on the voltages that the selector represents: nothing but a failure
to read the register turns down the others. -/
theorem setAgrees_iff {s₀ : Chip} (hcfg : initConfig i2c s₀ = .ok cfg) :
    SetAgrees i2c cfg voltage suspend s ↔
      cfg.Represents voltage ∨ efiError (i2c s.transfers).status = true := by
  have hwf := initConfig_wellFormed hcfg
  constructor
  · intro h
    by_contra hneither
    obtain ⟨hrep, hread⟩ := not_or.mp hneither
    have hwrites := (h.rejects hrep).2
    rw [setVoltage, clearAndSetRegister_eq, if_neg hread] at hwrites
    simp [writeRegister] at hwrites
  · rintro (hrep | hread)
    · exact ⟨reads_of_represents hwf hrep, keeps_of_represents hwf hrep,
        commutes_of_represents hwf hrep, fun hnot => absurd hrep hnot⟩
    · have hset : setVoltage i2c cfg voltage suspend s =
          ((i2c s.transfers).status, { s with transfers := s.transfers + 1 }) := by
        rw [setVoltage, clearAndSetRegister_eq, if_pos hread]
      have hfail : (setVoltage i2c cfg voltage suspend s).1 ≠ efiSuccess := by
        intro hs
        rw [hset] at hs
        simp only [] at hs
        rw [hs, efiError_success] at hread
        cases hread
      refine ⟨fun hs => absurd hs hfail, fun hs => absurd hs hfail,
        fun _ _ hs => absurd hs hfail, fun _ => ?_⟩
      rw [hset]
      exact ⟨hread, rfl⟩

end Agreement

/-- A chip of the first variant, that answers. -/
def answeringChip : Chip where
  regs := fun a => if a = rk860xId1 then rk860xChipId0001 else 0
  transfers := 0
  writes := []

theorem answeringChip_setAgrees :
    SetAgrees (fun _ => ⟨efiSuccess, true⟩) config0001 800000 false answeringChip :=
  (@setAgrees_iff _ _ _ _ _ answeringChip rfl).mpr (.inl (by decide))

/-- A request of 0.7 V is read back as 1.2625 V. -/
theorem lowVoltage_not_setAgrees :
    let i2c : ℕ → Outcome := fun _ => ⟨efiSuccess, true⟩
    let s := setVoltage i2c config0001 700000 false answeringChip
    initConfig i2c answeringChip = .ok config0001 ∧ s.1 = efiSuccess ∧
      (getVoltage i2c config0001 false s.2).2.1 = 1262500 ∧
      ¬ SetAgrees i2c config0001 700000 false answeringChip := by
  refine ⟨rfl, rfl, by decide, fun h => ?_⟩
  exact absurd (h.rejects (by decide)).1 (by decide)

end Edk2Rk3576.Rk860x
