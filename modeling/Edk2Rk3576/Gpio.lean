import Edk2Rk3576.Lib.EnabledFields
import Mathlib.Tactic.IntervalCases

/-!
# Pins

Five banks of 32 pins. The direction of a pin and the level it drives are a bit each of the bank's
controller, and its function is four bits of the I/O controller; all of these registers have write
enables. No two pins share a bit, though the registers of the banks are at addresses of no one
pattern, so over any run of calls each pin has what was set for it last.
-/

namespace Edk2Rk3576.Gpio

section Model

abbrev Registers := ℕ → BitVec 32

inductive GpioPinDirection
  | input
  | output
  deriving DecidableEq

def GpioPinDirection.value : GpioPinDirection → ℕ
  | input => 0
  | output => 1

inductive GpioPinPull
  | none
  | down
  | up
  deriving DecidableEq

inductive GpioPinDrive
  | default
  | disable
  | drive0
  | drive1
  | drive2
  | drive3
  | drive4
  | drive5
  deriving DecidableEq

/-- `GPIO_IOMUX_CONFIG`; the name is for messages. -/
structure GpioIomuxConfig where
  group : ℕ
  pin : ℕ
  function : ℕ
  pull : GpioPinPull
  drive : GpioPinDrive

def gpioBase (n : ℕ) : ℕ := if n = 0 then 0x27320000 else 0x2AE10000 + (n - 1) * 0x10000
def gpioSwportDr (pin : ℕ) : ℕ := if pin < 16 then 0x0000 else 0x0004
def gpioSwportDdr (pin : ℕ) : ℕ := if pin < 16 then 0x0008 else 0x000C
def gpioWriteMask (pin : ℕ) : BitVec 32 := 1#32 <<< (pin % 16 + 16)
def gpioValueMask (pin value : ℕ) : BitVec 32 := BitVec.ofNat 32 value <<< (pin % 16)

def rk3576IocGrfBase : ℕ := 0x26040000
def iomuxShift (pin : ℕ) : ℕ := pin % 4 * 4
def iomuxMask (pin : ℕ) : BitVec 32 := 0xF#32 <<< (iomuxShift pin + 16)

def gpioIomuxReg : (group pin : ℕ) → ℕ
  | 0, pin =>
    if pin < 16 then rk3576IocGrfBase + pin / 4 * 4
    else rk3576IocGrfBase + 0x2004 + (pin - 16) / 4 * 4
  | 1, pin => rk3576IocGrfBase + 0x4020 + pin / 4 * 4
  | 2, pin => rk3576IocGrfBase + 0x4040 + pin / 4 * 4
  | 3, pin => rk3576IocGrfBase + 0x4060 + pin / 4 * 4
  | 4, pin =>
    if pin < 16 then rk3576IocGrfBase + 0x4080 + pin / 4 * 4
    else if pin < 24 then rk3576IocGrfBase + 0xA390 + (pin - 16) / 4 * 4
    else rk3576IocGrfBase + 0xB398 + (pin - 24) / 4 * 4
  -- in a debug build an `ASSERT` stops here
  | _, _ => 0

/-- `MmioWrite32`, to a register with write enables. -/
def mmioWrite32 (address : ℕ) (value : BitVec 32) (regs : Registers) : Registers :=
  Function.update regs address (writeEnabled (regs address) value)

variable (group pin : ℕ)

def gpioPinSetDirection (direction : GpioPinDirection) : Registers → Registers :=
  mmioWrite32 (gpioBase group + gpioSwportDdr pin)
    (gpioWriteMask pin ||| gpioValueMask pin direction.value)

def gpioPinWrite (value : Bool) : Registers → Registers :=
  mmioWrite32 (gpioBase group + gpioSwportDr pin)
    (gpioWriteMask pin ||| gpioValueMask pin value.toNat)

def gpioPinRead (regs : Registers) : Bool :=
  decide (regs (gpioBase group + gpioSwportDr pin) &&& gpioValueMask pin 1 ≠ 0#32)

def gpioPinSetFunction (function : ℕ) : Registers → Registers :=
  mmioWrite32 (gpioIomuxReg group pin)
    (iomuxMask pin ||| BitVec.ofNat 32 function <<< iomuxShift pin)

/-- A pull is dropped, with a message. -/
def gpioPinSetPull (_pull : GpioPinPull) (regs : Registers) : Registers := regs

/-- So is a drive strength. -/
def gpioPinSetDrive (_drive : GpioPinDrive) (regs : Registers) : Registers := regs

def gpioSetIomuxConfig (configs : List GpioIomuxConfig) (regs : Registers) : Registers :=
  configs.foldl (fun regs mux =>
    let regs := gpioPinSetFunction mux.group mux.pin mux.function regs
    let regs := gpioPinSetPull mux.pull regs
    if mux.drive ≠ .default then gpioPinSetDrive mux.drive regs else regs) regs

inductive GpioCall
  | setDirection (group pin : ℕ) (direction : GpioPinDirection)
  | write (group pin : ℕ) (value : Bool)
  | setFunction (group pin function : ℕ)
  | setIomuxConfig (configs : List GpioIomuxConfig)

def GpioCall.exec : GpioCall → Registers → Registers
  | setDirection group pin direction => gpioPinSetDirection group pin direction
  | write group pin value => gpioPinWrite group pin value
  | setFunction group pin function => gpioPinSetFunction group pin function
  | setIomuxConfig configs => gpioSetIomuxConfig configs

def gpioRun (calls : List GpioCall) (regs : Registers) : Registers :=
  calls.foldl (fun regs call => call.exec regs) regs

end Model

section Fields

inductive GpioKind
  | direction
  | level
  | function
  deriving DecidableEq

/-- What can be set of a pin. -/
structure GpioSetting where
  kind : GpioKind
  group : ℕ
  pin : ℕ
  deriving DecidableEq

namespace GpioSetting

def register (i : GpioSetting) : ℕ :=
  match i.kind with
  | .direction => gpioBase i.group + gpioSwportDdr i.pin
  | .level => gpioBase i.group + gpioSwportDr i.pin
  | .function => gpioIomuxReg i.group i.pin

/-- Where it is in the register. -/
def shift (i : GpioSetting) : ℕ :=
  match i.kind with
  | .function => iomuxShift i.pin
  | _ => i.pin % 16

def width (i : GpioSetting) : ℕ :=
  match i.kind with
  | .function => 4
  | _ => 1

theorem shift_add_width_le (i : GpioSetting) : i.shift + i.width ≤ 16 := by
  obtain ⟨kind, group, pin⟩ := i
  cases kind <;> simp only [shift, width, iomuxShift] <;> omega

theorem width_dvd_shift (i : GpioSetting) : i.width ∣ i.shift := by
  obtain ⟨kind, group, pin⟩ := i
  cases kind
  case function => exact Nat.dvd_mul_left 4 (pin % 4)
  all_goals exact one_dvd _

theorem width_congr {i j : GpioSetting} (h : i.kind = j.kind) : i.width = j.width := by
  rw [width, width, h]

theorem toNat_mask_lt (i : GpioSetting) :
    (BitVec.ofNat 32 (2 ^ i.width - 1) <<< i.shift).toNat < 2 ^ 16 := by
  have hle := i.shift_add_width_le
  have hpow : 2 ^ i.width * 2 ^ i.shift ≤ 2 ^ 16 := by
    rw [← Nat.pow_add, Nat.add_comm]
    exact Nat.pow_le_pow_right (by omega) hle
  have hpos := Nat.two_pow_pos i.shift
  have hw : 2 ^ i.width ≤ 2 ^ 16 := Nat.pow_le_pow_right (by omega) (by omega)
  have hmul : (2 ^ i.width - 1) * 2 ^ i.shift < 2 ^ 16 := by
    rw [Nat.sub_mul]
    omega
  rw [BitVec.toNat_shiftLeft, BitVec.toNat_ofNat, Nat.shiftLeft_eq,
    Nat.mod_eq_of_lt (by omega : 2 ^ i.width - 1 < 2 ^ 32)]
  omega

/-- The bits of the register that are for it. -/
def field (i : GpioSetting) : EnabledField where
  register := i.register
  mask := BitVec.ofNat 32 (2 ^ i.width - 1) <<< i.shift
  small := i.toNat_mask_lt

/-- A value in its place. -/
def place (i : GpioSetting) (value : ℕ) : BitVec 32 := BitVec.ofNat 32 value <<< i.shift

/-- One of a pin there is. -/
structure Valid (i : GpioSetting) : Prop where
  group : i.group < 5
  pin : i.pin < 32

variable {i j : GpioSetting} {g g' p p' value : ℕ}

/-- The function registers of the banks do not run into one another. -/
theorem gpioIomuxReg_inj (hg : g < 5) (hg' : g' < 5) (hp : p < 32) (hp' : p' < 32)
    (h : gpioIomuxReg g p = gpioIomuxReg g' p') : g = g' ∧ p / 4 = p' / 4 := by
  interval_cases g <;> interval_cases g' <;>
    simp only [gpioIomuxReg, rk3576IocGrfBase] at h <;> (try split_ifs at h) <;> omega

theorem gpioIomuxReg_lt (hg : g < 5) (hp : p < 32) : gpioIomuxReg g p < 0x26050000 := by
  interval_cases g <;> simp only [gpioIomuxReg, rk3576IocGrfBase] <;> (try split_ifs) <;> omega

theorem le_gpioBase : 0x27320000 ≤ gpioBase g := by
  rw [gpioBase]
  split_ifs <;> omega

/-- The controllers of the banks do not run into one another. -/
theorem gpioBase_add_inj {x y : ℕ} (hg : g < 5) (hg' : g' < 5) (hx : x < 0x10000) (hy : y < 0x10000)
    (h : gpioBase g + x = gpioBase g' + y) : g = g' ∧ x = y := by
  rw [gpioBase, gpioBase] at h
  split_ifs at h <;> omega

theorem gpioSwportDr_lt : gpioSwportDr p < 8 := by
  rw [gpioSwportDr]
  split_ifs <;> omega

theorem gpioSwportDdr_eq : gpioSwportDdr p = gpioSwportDr p + 8 := by
  rw [gpioSwportDdr, gpioSwportDr]
  split_ifs <;> rfl

theorem gpioSwportDr_inj (hp : p < 32) (hp' : p' < 32) (h : gpioSwportDr p = gpioSwportDr p')
    (hmod : p % 16 = p' % 16) : p = p' := by
  rw [gpioSwportDr, gpioSwportDr] at h
  split_ifs at h <;> omega

/-- Settings that share a register are of one kind and bank, and of pins near each other. -/
theorem register_inj (hi : i.Valid) (hj : j.Valid) (h : i.register = j.register) :
    i.kind = j.kind ∧ i.group = j.group ∧ (i.shift = j.shift → i.pin = j.pin) := by
  obtain ⟨kind, g, p⟩ := i
  obtain ⟨kind', g', p'⟩ := j
  have hg : g < 5 := hi.group
  have hg' : g' < 5 := hj.group
  have hp : p < 32 := hi.pin
  have hp' : p' < 32 := hj.pin
  have hfunction := gpioIomuxReg_lt hg hp
  have hfunction' := gpioIomuxReg_lt hg' hp'
  have hbase := @le_gpioBase g
  have hbase' := @le_gpioBase g'
  have hlow := @gpioSwportDr_lt p
  have hlow' := @gpioSwportDr_lt p'
  cases kind <;> cases kind' <;> simp only [register, gpioSwportDdr_eq] at h
  case function.function =>
    obtain ⟨hgroup, hquarter⟩ := gpioIomuxReg_inj hg hg' hp hp' h
    refine ⟨rfl, hgroup, fun hshift => ?_⟩
    simp only [shift, iomuxShift] at hshift
    change p = p'
    omega
  case direction.direction =>
    obtain ⟨hgroup, hport⟩ := gpioBase_add_inj hg hg' (by omega) (by omega) h
    exact ⟨rfl, hgroup, gpioSwportDr_inj hp hp' (Nat.add_right_cancel hport)⟩
  case level.level =>
    obtain ⟨hgroup, hport⟩ := gpioBase_add_inj hg hg' (by omega) (by omega) h
    exact ⟨rfl, hgroup, gpioSwportDr_inj hp hp' hport⟩
  case direction.level | level.direction =>
    have hport := (gpioBase_add_inj hg hg' (by omega) (by omega) h).2
    omega
  all_goals omega

/-- Bits below and bits above a place. -/
theorem masks_apart (h : i.shift + i.width ≤ j.shift) :
    i.field.mask &&& j.field.mask = 0#32 := by
  refine BitVec.eq_of_getLsbD_eq fun k hk => ?_
  simp only [field, BitVec.getLsbD_and, BitVec.getLsbD_shiftLeft, BitVec.getLsbD_ofNat,
    Nat.testBit_two_pow_sub_one]
  by_cases hlow : k < j.shift
  · simp [hlow]
  · simp [show ¬ k - i.shift < i.width by omega]

/-- No two settings share a bit. -/
theorem field_apart (hi : i.Valid) (hj : j.Valid) (hne : i ≠ j) : i.field.Apart j.field := by
  by_cases hreg : i.register = j.register
  · obtain ⟨hkind, hgroup, hpin⟩ := register_inj hi hj hreg
    have hshift : i.shift ≠ j.shift := fun heq => hne (by
      obtain ⟨kind, g, p⟩ := i
      obtain ⟨kind', g', p'⟩ := j
      obtain rfl : kind = kind' := hkind
      obtain rfl : g = g' := hgroup
      obtain rfl : p = p' := hpin heq
      rfl)
    -- fields of one kind are of one width, at multiples of it
    obtain ⟨x, hx⟩ := i.width_dvd_shift
    obtain ⟨y, hy⟩ := j.width_dvd_shift
    have hwidth := width_congr hkind
    rw [← hwidth] at hy
    refine Or.inr ?_
    rcases Nat.lt_or_ge x y with hlt | hge
    · refine masks_apart ?_
      have := Nat.mul_le_mul_left i.width hlt
      rw [Nat.mul_succ] at this
      omega
    · have hlt : y < x := lt_of_le_of_ne hge fun heq => hshift (by rw [hx, hy, heq])
      rw [BitVec.and_comm]
      refine masks_apart ?_
      have := Nat.mul_le_mul_left i.width hlt
      rw [Nat.mul_succ] at this
      omega
  · exact Or.inl hreg

theorem place_and_mask (hvalue : value < 2 ^ i.width) :
    i.place value &&& i.field.mask = i.place value := by
  rw [place, field, ← BitVec.shiftLeft_and_distrib, ← BitVec.ofNat_and,
    Nat.and_two_pow_sub_one_eq_mod, Nat.mod_eq_of_lt hvalue]

/-- The word the code writes sets the field. -/
theorem mmioWrite32_eq {word : BitVec 32} (hvalue : value < 2 ^ i.width)
    (hword : word = BitVec.ofNat 32 (2 ^ i.width - 1) <<< (i.shift + 16) ||| i.place value) :
    mmioWrite32 i.register word = i.field.write (i.place value) := by
  funext regs
  rw [mmioWrite32, EnabledField.write, place_and_mask hvalue, hword, BitVec.shiftLeft_add]
  rfl

end GpioSetting

end Fields

section Runs

open GpioSetting EnabledField

variable {call : GpioCall} {calls : List GpioCall} {configs : List GpioIomuxConfig}
variable {i : GpioSetting} {regs : Registers} {group pin function : ℕ}

/-- What a call sets, in order. -/
def GpioCall.settings : GpioCall → List (GpioSetting × ℕ)
  | setDirection group pin direction => [(⟨.direction, group, pin⟩, direction.value)]
  | write group pin value => [(⟨.level, group, pin⟩, value.toNat)]
  | setFunction group pin function => [(⟨.function, group, pin⟩, function)]
  | setIomuxConfig configs =>
    configs.map fun mux => (⟨.function, mux.group, mux.pin⟩, mux.function)

/-- The pins are ones there are, and a function is one of sixteen. -/
def GpioCall.Allowed (call : GpioCall) : Prop :=
  ∀ w ∈ call.settings, w.1.Valid ∧ w.2 < 2 ^ w.1.width

/-- The last value that the calls set, if they set any. -/
def lastSet (calls : List GpioCall) (i : GpioSetting) : Option ℕ :=
  lastWrite (calls.flatMap GpioCall.settings) i

def placed (w : GpioSetting × ℕ) : GpioSetting × BitVec 32 := (w.1, w.1.place w.2)

theorem lastWrite_placed : ∀ {ws : List (GpioSetting × ℕ)},
    lastWrite (ws.map placed) i = (lastWrite ws i).map i.place
  | [] => rfl
  | w :: ws => by
    rw [List.map_cons, lastWrite, lastWrite, lastWrite_placed]
    rcases lastWrite ws i with _ | v
    · by_cases hi : w.1 = i
      · subst hi
        simp [placed]
      · simp [placed, hi]
    · rfl

theorem gpioPinSetDirection_eq {direction : GpioPinDirection} :
    gpioPinSetDirection group pin direction = (field ⟨.direction, group, pin⟩).write
      (place ⟨.direction, group, pin⟩ direction.value) := by
  have hvalue : direction.value < 2 := by cases direction <;> decide
  exact mmioWrite32_eq (i := ⟨.direction, group, pin⟩) hvalue rfl

theorem gpioPinWrite_eq {value : Bool} :
    gpioPinWrite group pin value = (field ⟨.level, group, pin⟩).write
      (place ⟨.level, group, pin⟩ value.toNat) :=
  mmioWrite32_eq (i := ⟨.level, group, pin⟩) value.toNat_lt rfl

theorem gpioPinSetFunction_eq (hfunction : function < 2 ^ 4) :
    gpioPinSetFunction group pin function = (field ⟨.function, group, pin⟩).write
      (place ⟨.function, group, pin⟩ function) :=
  mmioWrite32_eq (i := ⟨.function, group, pin⟩) hfunction rfl

/-- A table of functions is its entries, in order; what it asks for of pulls and drive strengths is
dropped. -/
theorem gpioSetIomuxConfig_eq (h : (GpioCall.setIomuxConfig configs).Allowed) :
    gpioSetIomuxConfig configs regs
      = writeAll field ((GpioCall.setIomuxConfig configs).settings.map placed) regs := by
  induction configs generalizing regs with
  | nil => rfl
  | cons mux configs ih =>
    have hfirst := (h _ List.mem_cons_self).2
    have hrest := @ih (gpioPinSetFunction mux.group mux.pin mux.function regs)
      fun w hw => h w (List.mem_cons_of_mem _ hw)
    have hstep : gpioSetIomuxConfig (mux :: configs) regs
        = gpioSetIomuxConfig configs (gpioPinSetFunction mux.group mux.pin mux.function regs) := by
      rw [gpioSetIomuxConfig, List.foldl_cons, ← gpioSetIomuxConfig]
      simp only [gpioPinSetPull, gpioPinSetDrive, ite_self]
    rw [hstep, hrest, gpioPinSetFunction_eq hfirst]
    rfl

theorem GpioCall.exec_eq (h : call.Allowed) :
    call.exec regs = writeAll field (call.settings.map placed) regs := by
  cases call with
  | setDirection group pin direction => exact congrFun gpioPinSetDirection_eq regs
  | write group pin value => exact congrFun gpioPinWrite_eq regs
  | setFunction group pin function =>
    exact congrFun (gpioPinSetFunction_eq (h _ List.mem_cons_self).2) regs
  | setIomuxConfig configs => exact gpioSetIomuxConfig_eq h

theorem gpioRun_eq (hall : ∀ call ∈ calls, call.Allowed) :
    gpioRun calls regs
      = writeAll field ((calls.flatMap GpioCall.settings).map placed) regs := by
  induction calls generalizing regs with
  | nil => rfl
  | cons call calls ih =>
    have hrest := @ih (call.exec regs) fun c hc => hall c (List.mem_cons_of_mem call hc)
    change gpioRun calls (call.exec regs) = _
    rw [hrest, GpioCall.exec_eq (hall call List.mem_cons_self), List.flatMap_cons, List.map_append,
      writeAll, writeAll, writeAll, List.foldl_append]

/-- After a run a setting has the value set last, whatever was set of other pins; one never set is
as it was. -/
theorem gpioRun_read (hall : ∀ call ∈ calls, call.Allowed) (hi : i.Valid) :
    i.field.read (gpioRun calls regs)
      = ((lastSet calls i).map i.place).getD (i.field.read regs) := by
  have hvalid : ∀ w ∈ calls.flatMap GpioCall.settings, w.1.Valid ∧ w.2 < 2 ^ w.1.width := by
    intro w hw
    obtain ⟨call, hcall, hmem⟩ := List.mem_flatMap.1 hw
    exact hall call hcall w hmem
  have hapart : ∀ w ∈ (calls.flatMap GpioCall.settings).map placed, w.1 ≠ i →
      w.1.field.Apart i.field := by
    intro w hw hne
    obtain ⟨v, hv, rfl⟩ := List.mem_map.1 hw
    exact field_apart (hvalid v hv).1 hi hne
  rw [gpioRun_eq hall, read_writeAll hapart, lastWrite_placed, lastSet]
  rcases hlast : lastWrite (calls.flatMap GpioCall.settings) i with _ | v
  · rfl
  · have hv := (hvalid _ (mem_of_lastWrite hlast)).2
    exact place_and_mask hv

/-- The level of a pin, as it is read back. -/
theorem gpioPinRead_eq : gpioPinRead group pin regs
    = decide ((field ⟨.level, group, pin⟩).read regs ≠ 0#32) := rfl

theorem place_level_ne_zero {value : ℕ} (hvalue : value < 2) :
    place ⟨.level, group, pin⟩ value ≠ 0#32 ↔ value ≠ 0 := by
  have hshift : pin % 16 < 16 := Nat.mod_lt _ (by omega)
  obtain rfl | rfl : value = 0 ∨ value = 1 := by omega
  · simp [place]
  · refine iff_of_true (fun h => ?_) Nat.one_ne_zero
    have hnat : (1#32 <<< (pin % 16)).toNat = 0 := congrArg BitVec.toNat h
    have hpow : 2 ^ (pin % 16) < 2 ^ 32 := Nat.pow_lt_pow_right (by omega) (by omega)
    rw [BitVec.toNat_shiftLeft, BitVec.toNat_ofNat, Nat.one_mod, Nat.one_shiftLeft,
      Nat.mod_eq_of_lt hpow] at hnat
    exact absurd hnat (Nat.two_pow_pos _).ne'

/-- Over a run each pin has the direction, level and function set for it last, and its level is read
back. -/
theorem gpio_run (hall : ∀ call ∈ calls, call.Allowed) (hgroup : group < 5) (hpin : pin < 32) :
    (∀ kind, (field ⟨kind, group, pin⟩).read (gpioRun calls regs)
        = ((lastSet calls ⟨kind, group, pin⟩).map (place ⟨kind, group, pin⟩)).getD
          ((field ⟨kind, group, pin⟩).read regs))
      ∧ gpioPinRead group pin (gpioRun calls regs)
        = ((lastSet calls ⟨.level, group, pin⟩).map fun v => decide (v ≠ 0)).getD
          (gpioPinRead group pin regs) := by
  refine ⟨fun kind => gpioRun_read hall ⟨hgroup, hpin⟩, ?_⟩
  rw [gpioPinRead_eq, gpioRun_read hall ⟨hgroup, hpin⟩, gpioPinRead_eq]
  rcases hlast : lastSet calls ⟨.level, group, pin⟩ with _ | v
  · rfl
  · obtain ⟨call, hcall, hmem⟩ := List.mem_flatMap.1 (mem_of_lastWrite hlast)
    have hv := (hall call hcall _ hmem).2
    exact decide_eq_decide.2 (place_level_ne_zero hv)

/-- A pin set up as an output and driven, and the function of another. -/
theorem gpio_run_output :
    gpioPinRead 4 17 (gpioRun [.setDirection 4 17 .output, .write 4 17 true,
      .setIomuxConfig [⟨4, 16, 3, .up, .drive0⟩]] fun _ => 0#32) = true := by
  refine ((@gpio_run _ (fun _ => 0#32) 4 17 (fun call hcall => ?_) (by decide)
    (by decide)).2).trans (by decide)
  simp only [List.mem_cons, List.not_mem_nil, or_false] at hcall
  rcases hcall with rfl | rfl | rfl
  all_goals
    intro w hw
    obtain rfl := List.mem_singleton.1 hw
    exact ⟨⟨by decide, by decide⟩, by decide⟩

end Runs

end Edk2Rk3576.Gpio
