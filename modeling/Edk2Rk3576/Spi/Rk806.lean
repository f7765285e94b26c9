import Edk2Rk3576.Efi
import Edk2Rk3576.Lib.LinearRange
import Mathlib.Data.Fintype.Basic

/-!
# The voltages of the RK806

`RK806RegulatorInit` sets a regulator's voltage and turns it on. The setters choose one of the
regulator's ranges by the voltage, and take the selector from it in words of 32 bits: what is below
every range is not turned down, and what is above them all gets the last, which is fixed.
-/

namespace Edk2Rk3576.Spi

/-- What the setters read of `rk8xx_reg_info`. -/
structure RegInfo where
  minUv : UInt32
  stepUv : UInt32
  vselReg : UInt8
  vselMask : UInt8
  minSel : UInt8
  deriving DecidableEq

section Tables

def na : ℤ := -1

def rk806BuckOnVsel (n : UInt8) : UInt8 := 0x1a + n - 1
def rk806NldoOnVsel (n : UInt8) : UInt8 := 0x43 + n - 1
def rk806PldoOnVsel (n : UInt8) : UInt8 := 0x4e + n - 1
def rk806BuckVselMask : UInt8 := 0xff
def rk806NldoVselMask : UInt8 := 0xff
def rk806PldoVselMask : UInt8 := 0xff

def rk806PowerEn (n : UInt8) : UInt8 := 0x00 + n
def rk806NldoEn (n : UInt8) : UInt8 := 0x03 + n
def rk806PldoEn (n : UInt8) : UInt8 := 0x04 + n

/-- The rows of `rk806_buck`, three for each of ten. -/
def rk806Buck : List RegInfo := (List.range 10).flatMap fun n =>
  let reg := rk806BuckOnVsel (UInt8.ofNat (n + 1))
  [⟨500000, 6250, reg, rk806BuckVselMask, 0x00⟩, ⟨1500000, 25000, reg, rk806BuckVselMask, 0xa1⟩,
    ⟨3400000, 0, reg, rk806BuckVselMask, 0xee⟩]

/-- The rows of `rk806_nldo`, two for each of five. -/
def rk806Nldo : List RegInfo := (List.range 5).flatMap fun n =>
  let reg := rk806NldoOnVsel (UInt8.ofNat (n + 1))
  [⟨500000, 12500, reg, rk806NldoVselMask, 0x00⟩, ⟨3400000, 0, reg, rk806NldoVselMask, 0xE8⟩]

/-- The rows of `rk806_pldo`, two for each of six. -/
def rk806Pldo : List RegInfo := (List.range 6).flatMap fun n =>
  let reg := rk806PldoOnVsel (UInt8.ofNat (n + 1))
  [⟨500000, 12500, reg, rk806PldoVselMask, 0x00⟩, ⟨3400000, 0, reg, rk806PldoVselMask, 0xE8⟩]

end Tables

/-! ### The bus -/

structure PmicWrite where
  csId : UInt32
  reg : UInt32
  byte : UInt8
  deriving DecidableEq

/-- How many registers were read, and what was written. -/
structure Pmic where
  reads : ℕ
  writes : List PmicWrite

section Setters

variable (answer : ℕ → UInt8)

/-- The status is that of `SPI_PioTransfer`, which returns success only. -/
def pmicRegRead (s : Pmic) : EfiStatus × UInt8 × Pmic :=
  (efiSuccess, answer s.reads, { s with reads := s.reads + 1 })

def pmicRegWrite (csId reg : UInt32) (byte : UInt8) (s : Pmic) : EfiStatus × Pmic :=
  (efiSuccess, { s with writes := s.writes ++ [⟨csId, reg, byte⟩] })

def pmicClrSetBits (csId reg clr set : UInt32) (s : Pmic) : EfiStatus × Pmic :=
  match pmicRegRead answer s with
  | (ret, byte, s) =>
    if ret ≠ efiSuccess then (ret, s)
    else
      let byte := (byte.toUInt32 &&& ~~~clr ||| set).toUInt8
      match pmicRegRead answer (pmicRegWrite csId reg byte s).2 with
      | (ret, _, s) => (ret, s)

def getBuckReg (num : ℕ) (uvolt : Int32) : Option RegInfo :=
  if uvolt < 1500000 then rk806Buck[num * 3 + 0]?
  else if uvolt < 3400000 then rk806Buck[num * 3 + 1]?
  else rk806Buck[num * 3 + 2]?

/-- `get_nldo_reg` and `get_pldo_reg`, on their table. -/
def getLdoReg (table : List RegInfo) (num : ℕ) (uvolt : Int32) : Option RegInfo :=
  if uvolt < 3400000 then table[num * 2]? else table[num * 2 + 1]?

def getNldoReg := getLdoReg rk806Nldo
def getPldoReg := getLdoReg rk806Pldo

/-- The request is taken as unsigned, as the minimum is. -/
def RegInfo.code (info : RegInfo) (uvolt : Int32) : UInt32 :=
  if info.stepUv = 0 then info.minSel.toUInt32
  else (uvolt.toUInt32 - info.minUv) / info.stepUv + info.minSel.toUInt32

/-- The body of the three setters, with the row that the request gets. No row is off the table. -/
def setVoltage (info : Option RegInfo) (regId : UInt32) (uvolt : Int32) (s : Pmic) :
    EfiStatus × Pmic :=
  match info with
  | none => (efiSuccess, s)
  | some info =>
    let csId := (regId &&& 0xf00) >>> 8
    if (info.vselReg.toNat : ℤ) = na then (efiInvalidParameter, s)
    else pmicClrSetBits answer csId info.vselReg.toUInt32 info.vselMask.toUInt32 (info.code uvolt) s

def buckSetVoltage (regId : UInt32) (uvolt : Int32) : Pmic → EfiStatus × Pmic :=
  setVoltage answer (getBuckReg (regId &&& 0x0f).toNat uvolt) regId uvolt

def nldoSetVoltage (regId : UInt32) (uvolt : Int32) : Pmic → EfiStatus × Pmic :=
  setVoltage answer (getNldoReg (regId &&& 0x0f).toNat uvolt) regId uvolt

def pldoSetVoltage (regId : UInt32) (uvolt : Int32) : Pmic → EfiStatus × Pmic :=
  setVoltage answer (getPldoReg (regId &&& 0x0f).toNat uvolt) regId uvolt

/-- A bit to set, or to clear, and the bit that makes the chip take it. -/
def enableBits (enable : Bool) (bit mask : ℕ) : UInt8 :=
  UInt8.ofNat ((if enable then 1 else 0) <<< bit ||| 1 <<< mask)

def buckSetEnable (regId : UInt32) (enable : Bool) (s : Pmic) : EfiStatus × Pmic :=
  let csId := (regId &&& 0xf00) >>> 8
  let buck := (regId &&& 0x0f).toNat
  let enReg := rk806PowerEn (UInt8.ofNat (buck / 4))
  pmicRegWrite csId enReg.toUInt32 (enableBits enable (buck % 4) (buck % 4 + 4)) s

def nldoSetEnable (regId : UInt32) (enable : Bool) (s : Pmic) : EfiStatus × Pmic :=
  let csId := (regId &&& 0xf00) >>> 8
  let ldo := (regId &&& 0x0f).toNat
  if ldo < 4 then
    pmicRegWrite csId (rk806NldoEn 0).toUInt32 (enableBits enable (ldo % 4) (ldo % 4 + 4)) s
  else pmicRegWrite csId (rk806NldoEn 2).toUInt32 (if enable then 0x44 else 0x40) s

/-- Off the last of six, the source returns a status it has not set. -/
def pldoSetEnable (regId : UInt32) (enable : Bool) (s : Pmic) : EfiStatus × Pmic :=
  let csId := (regId &&& 0xf00) >>> 8
  let pldo := (regId &&& 0x0f).toNat
  if pldo < 3 then
    pmicRegWrite csId (rk806PldoEn 0).toUInt32 (enableBits enable (pldo + 1) (pldo + 5)) s
  else if pldo = 3 then
    pmicRegWrite csId (rk806PldoEn 1).toUInt32 (enableBits enable 0 4) s
  else if pldo = 4 then
    pmicRegWrite csId (rk806PldoEn 1).toUInt32 (enableBits enable 1 5) s
  else if pldo = 5 then
    pmicRegWrite csId (rk806PldoEn 0).toUInt32 (enableBits enable 0 4) s
  else (efiSuccess, s)

def buck : UInt32 := (0x0 : UInt32) <<< 4
def nldo : UInt32 := (0x1 : UInt32) <<< 4
def pldo : UInt32 := (0x2 : UInt32) <<< 4

/-- `regulator_init_data`. The source's name says millivolts, its users give microvolts. -/
structure RegulatorInitData where
  regId : UInt32
  initVoltageMv : Int32

def rk806RegulatorInit (d : RegulatorInitData) (s : Pmic) : Pmic :=
  let s :=
    if d.regId &&& 0xf0 = buck then
      (buckSetEnable d.regId true (buckSetVoltage answer d.regId d.initVoltageMv s).2).2
    else if d.regId &&& 0xf0 = nldo then
      (nldoSetEnable d.regId true (nldoSetVoltage answer d.regId d.initVoltageMv s).2).2
    else s
  if d.regId &&& 0xf0 = pldo then
    (pldoSetEnable d.regId true (pldoSetVoltage answer d.regId d.initVoltageMv s).2).2
  else s

end Setters

/-! ### The regulators -/

inductive RegKind
  | buck (num : Fin 10)
  | nldo (num : Fin 5)
  | pldo (num : Fin 6)
  deriving DecidableEq

/-- `master_num` and `slaver_num`. -/
structure Regulator where
  onSlaver : Bool
  kind : RegKind
  deriving DecidableEq

namespace RegKind

/-- A kind's tag, and the number. -/
def bits : RegKind → UInt32
  | buck num => Spi.buck ||| UInt32.ofNat num
  | nldo num => Spi.nldo ||| UInt32.ofNat num
  | pldo num => Spi.pldo ||| UInt32.ofNat num

def vselReg : RegKind → UInt8
  | buck num => rk806BuckOnVsel (UInt8.ofNat (num + 1))
  | nldo num => rk806NldoOnVsel (UInt8.ofNat (num + 1))
  | pldo num => rk806PldoOnVsel (UInt8.ofNat (num + 1))

/-- The rows of the regulator, each from its selector up to the next. -/
def ranges : RegKind → List RegInfo
  | buck num => (rk806Buck.drop (num * 3)).take 3
  | nldo num => (rk806Nldo.drop (num * 2)).take 2
  | pldo num => (rk806Pldo.drop (num * 2)).take 2

/-- The row that the setter chooses. -/
def chosen (uvolt : Int32) : RegKind → Option RegInfo
  | buck num => getBuckReg num uvolt
  | nldo num => getNldoReg num uvolt
  | pldo num => getPldoReg num uvolt

end RegKind

def master : UInt32 := (0x0 : UInt32) <<< 8
def slaver : UInt32 := (0x1 : UInt32) <<< 8

def Regulator.regId (r : Regulator) : UInt32 := (if r.onSlaver then slaver else master) ||| r.kind.bits

def Regulator.csId (r : Regulator) : UInt32 := if r.onSlaver then 1 else 0

/-- The row that the chip decodes a selector by. -/
def rangeOf (ranges : List RegInfo) (sel : UInt8) : Option RegInfo :=
  ranges.reverse.find? fun info => info.minSel ≤ sel

def RegInfo.range (info : RegInfo) : LinearRange := ⟨info.minUv.toNat, info.stepUv.toNat⟩

/-- The selector is what was computed, is one of the chosen row, and decodes to the request, or
below it by less than a step. -/
structure RegKind.Selects (k : RegKind) (uvolt : Int32) (sel : UInt8) (info : RegInfo) : Prop where
  chosen : k.chosen uvolt = some info
  fits : (info.code uvolt).toNat = sel.toNat
  decoded : rangeOf k.ranges sel = some info
  meets : info.range.Meets (sel.toNat - info.minSel.toNat) uvolt.toInt

/-- Whatever the run writes to the regulator's selector is what the request calls for. -/
def Regulator.NeverOvershoots (r : Regulator) (answer : ℕ → UInt8) (uvolt : Int32) : Prop :=
  ∀ w ∈ (rk806RegulatorInit answer ⟨r.regId, uvolt⟩ ⟨0, []⟩).writes,
    w.csId = r.csId → w.reg = r.kind.vselReg.toUInt32 → ∃ info, r.kind.Selects uvolt w.byte info

section Selectors

variable {k : RegKind} {info : RegInfo} {uvolt : Int32}

theorem RegKind.chosen_buck (n : Fin 10) (uvolt : Int32) :
    (RegKind.buck n).chosen uvolt = some
      (if uvolt < 1500000 then ⟨500000, 6250, (RegKind.buck n).vselReg, 0xff, 0x00⟩
      else if uvolt < 3400000 then ⟨1500000, 25000, (RegKind.buck n).vselReg, 0xff, 0xa1⟩
      else ⟨3400000, 0, (RegKind.buck n).vselReg, 0xff, 0xee⟩) := by
  have h : rk806Buck[(n : ℕ) * 3 + 0]? = some ⟨500000, 6250, (RegKind.buck n).vselReg, 0xff, 0x00⟩ ∧
      rk806Buck[(n : ℕ) * 3 + 1]? = some ⟨1500000, 25000, (RegKind.buck n).vselReg, 0xff, 0xa1⟩ ∧
      rk806Buck[(n : ℕ) * 3 + 2]? = some ⟨3400000, 0, (RegKind.buck n).vselReg, 0xff, 0xee⟩ := by
    revert n
    decide
  unfold chosen getBuckReg
  split_ifs
  · exact h.1
  · exact h.2.1
  · exact h.2.2

theorem RegKind.chosen_nldo (n : Fin 5) (uvolt : Int32) :
    (RegKind.nldo n).chosen uvolt = some
      (if uvolt < 3400000 then ⟨500000, 12500, (RegKind.nldo n).vselReg, 0xff, 0x00⟩
      else ⟨3400000, 0, (RegKind.nldo n).vselReg, 0xff, 0xE8⟩) := by
  have h : rk806Nldo[(n : ℕ) * 2]? = some ⟨500000, 12500, (RegKind.nldo n).vselReg, 0xff, 0x00⟩ ∧
      rk806Nldo[(n : ℕ) * 2 + 1]? = some ⟨3400000, 0, (RegKind.nldo n).vselReg, 0xff, 0xE8⟩ := by
    revert n
    decide
  unfold chosen getNldoReg getLdoReg
  split_ifs
  · exact h.1
  · exact h.2

theorem RegKind.chosen_pldo (n : Fin 6) (uvolt : Int32) :
    (RegKind.pldo n).chosen uvolt = some
      (if uvolt < 3400000 then ⟨500000, 12500, (RegKind.pldo n).vselReg, 0xff, 0x00⟩
      else ⟨3400000, 0, (RegKind.pldo n).vselReg, 0xff, 0xE8⟩) := by
  have h : rk806Pldo[(n : ℕ) * 2]? = some ⟨500000, 12500, (RegKind.pldo n).vselReg, 0xff, 0x00⟩ ∧
      rk806Pldo[(n : ℕ) * 2 + 1]? = some ⟨3400000, 0, (RegKind.pldo n).vselReg, 0xff, 0xE8⟩ := by
    revert n
    decide
  unfold chosen getPldoReg getLdoReg
  split_ifs
  · exact h.1
  · exact h.2

/-- Above the row's minimum the words do not wrap. -/
theorem RegInfo.code_toNat (hs : info.stepUv ≠ 0) (hmin : (info.minUv.toNat : ℤ) ≤ uvolt.toInt)
    (hfit : (uvolt.toInt - info.minUv.toNat).toNat / info.stepUv.toNat + info.minSel.toNat < 2 ^ 32) :
    (info.code uvolt).toNat =
      (uvolt.toInt - info.minUv.toNat).toNat / info.stepUv.toNat + info.minSel.toNat := by
  have hpos : 0 ≤ uvolt := Int32.le_iff_toInt_le.mpr (by rw [Int32.toInt_zero]; omega)
  have hu : (uvolt.toUInt32.toNat : ℤ) = uvolt.toInt := by
    rw [Int32.toNat_toUInt32_of_le hpos, ← Int32.toNat_toInt, Int.toNat_of_nonneg (by omega)]
  have hsub : (uvolt.toUInt32 - info.minUv).toNat = (uvolt.toInt - info.minUv.toNat).toNat := by
    rw [UInt32.toNat_sub_of_le _ _ (UInt32.le_iff_toNat_le.mpr (by omega))]
    omega
  rw [code, if_neg hs, UInt32.toNat_add, UInt32.toNat_div, hsub, UInt8.toNat_toUInt32,
    Nat.mod_eq_of_lt hfit]

theorem rangeOf_append {pre post : List RegInfo} {sel : UInt8} (hsel : info.minSel ≤ sel)
    (hpost : ∀ i ∈ post, sel < i.minSel) :
    rangeOf (pre ++ info :: post) sel = some info := by
  have hnone : post.reverse.find? (fun i => i.minSel ≤ sel) = none := by
    rw [List.find?_eq_none]
    intro i hi
    simpa using hpost i (List.mem_reverse.mp hi)
  rw [rangeOf, List.reverse_append, List.reverse_cons, List.append_assoc, List.find?_append, hnone,
    Option.none_or, List.singleton_append, List.find?_cons_of_pos (by simpa using hsel)]

/-- In a row with steps, what is at its minimum or above it is met. -/
theorem RegKind.selects_iff (pre : List RegInfo) {post : List RegInfo} (top : ℕ) {next : ℕ}
    (hchosen : k.chosen uvolt = some info) (hranges : k.ranges = pre ++ info :: post)
    (hs : info.stepUv ≠ 0) (htop : top < 256) (hmin : info.minSel.toNat ≤ top)
    (hpost : ∀ i ∈ post, top < i.minSel.toNat)
    (hlt : uvolt.toInt < next)
    (hnext : next ≤ info.minUv.toNat + info.stepUv.toNat * (top - info.minSel.toNat + 1)) :
    (∃ i, k.Selects uvolt (info.code uvolt).toUInt8 i) ↔ (info.minUv.toNat : ℤ) ≤ uvolt.toInt := by
  constructor
  · rintro ⟨i, h⟩
    obtain rfl : info = i := Option.some.inj (hchosen.symm.trans h.chosen)
    exact h.meets.base_le
  · intro hle
    have hs' : 0 < info.stepUv.toNat := Nat.pos_of_ne_zero fun h =>
      hs (UInt32.toNat_inj.mp h)
    obtain ⟨q, hqdef⟩ : ∃ q, q = (uvolt.toInt - info.minUv.toNat).toNat / info.stepUv.toNat :=
      ⟨_, rfl⟩
    have hq : q < top - info.minSel.toNat + 1 := by
      rw [hqdef, Nat.div_lt_iff_lt_mul hs']
      rw [Nat.mul_comm] at hnext
      omega
    have hcode : (info.code uvolt).toNat = q + info.minSel.toNat := by
      rw [hqdef]
      exact RegInfo.code_toNat hs hle (by rw [← hqdef]; omega)
    have hsel : ((info.code uvolt).toUInt8).toNat = (info.code uvolt).toNat := by
      rw [UInt32.toNat_toUInt8, Nat.mod_eq_of_lt (by omega)]
    have hdec : rangeOf k.ranges (info.code uvolt).toUInt8 = some info := by
      rw [hranges]
      refine rangeOf_append (UInt8.le_iff_toNat_le.mpr (by omega)) fun i hi => ?_
      have := hpost i hi
      exact UInt8.lt_iff_toNat_lt.mpr (by omega)
    refine ⟨info, hchosen, hsel.symm, hdec, ?_⟩
    rw [LinearRange.meets_iff hs', hsel, hcode, Nat.add_sub_cancel, hqdef, Int.natCast_ediv,
      Int.toNat_of_nonneg (by omega)]
    rfl

/-- A fixed row meets its own voltage only. -/
theorem RegKind.selects_fixed_iff (pre post : List RegInfo) (hchosen : k.chosen uvolt = some info)
    (hranges : k.ranges = pre ++ info :: post) (hs : info.stepUv = 0)
    (hpost : ∀ i ∈ post, info.minSel < i.minSel) :
    (∃ i, k.Selects uvolt (info.code uvolt).toUInt8 i) ↔ uvolt.toInt = info.minUv.toNat := by
  have hcode : info.code uvolt = info.minSel.toUInt32 := by rw [RegInfo.code, if_pos hs]
  have hs' : info.range.step = 0 := by rw [RegInfo.range, hs]; rfl
  rw [hcode, UInt8.toUInt8_toUInt32]
  constructor
  · rintro ⟨i, h⟩
    obtain rfl : info = i := Option.some.inj (hchosen.symm.trans h.chosen)
    exact (LinearRange.meets_iff_of_step_eq_zero hs').mp h.meets
  · intro h
    refine ⟨info, hchosen, ?_, ?_, (LinearRange.meets_iff_of_step_eq_zero hs').mpr h⟩
    · rw [hcode, UInt8.toNat_toUInt32]
    · rw [hranges]
      exact rangeOf_append UInt8.le_rfl hpost

/-- The row chosen is the regulator's, and its selector meets what the regulators reach. -/
structure RegKind.Chooses (k : RegKind) (uvolt : Int32) (info : RegInfo) : Prop where
  chosen : k.chosen uvolt = some info
  vselReg : info.vselReg = k.vselReg
  vselMask : info.vselMask = 0xff
  selects_iff : (∃ i, k.Selects uvolt (info.code uvolt).toUInt8 i) ↔
    500000 ≤ uvolt.toInt ∧ uvolt.toInt ≤ 3400000

theorem RegKind.chooses_buck (n : Fin 10) : ∃ info, (RegKind.buck n).Chooses uvolt info := by
  have hranges : (RegKind.buck n).ranges = [⟨500000, 6250, (RegKind.buck n).vselReg, 0xff, 0x00⟩,
      ⟨1500000, 25000, (RegKind.buck n).vselReg, 0xff, 0xa1⟩,
      ⟨3400000, 0, (RegKind.buck n).vselReg, 0xff, 0xee⟩] := by
    revert n
    decide
  have hrow := RegKind.chosen_buck n uvolt
  by_cases h₁ : uvolt < 1500000
  · rw [if_pos h₁] at hrow
    have hlt : uvolt.toInt < 1500000 := Int32.lt_iff_toInt_lt.mp h₁
    refine ⟨_, hrow, rfl, rfl, (selects_iff [] 0xa0 hrow hranges
      (by decide : (6250 : UInt32) ≠ 0) (by omega) (Nat.zero_le _) ?_ hlt
      (by decide : 1500000 ≤ 500000 + 6250 * (0xa0 - 0 + 1))).trans ?_⟩
    · simp
    · exact ⟨fun h => ⟨h, by omega⟩, fun h => h.1⟩
  · rw [if_neg h₁] at hrow
    have hge : 1500000 ≤ uvolt.toInt := not_lt.mp (Int32.lt_iff_toInt_lt.not.mp h₁)
    by_cases h₂ : uvolt < 3400000
    · rw [if_pos h₂] at hrow
      have hlt : uvolt.toInt < 3400000 := Int32.lt_iff_toInt_lt.mp h₂
      refine ⟨_, hrow, rfl, rfl, (selects_iff [_] 0xed hrow hranges
        (by decide : (25000 : UInt32) ≠ 0) (by omega) (by decide : (0xa1 : UInt8).toNat ≤ 0xed) ?_
        hlt (by decide : 3400000 ≤ 1500000 + 25000 * (0xed - 0xa1 + 1))).trans ?_⟩
      · simp
      · exact ⟨fun _ => ⟨by omega, by omega⟩, fun _ => hge⟩
    · rw [if_neg h₂] at hrow
      have hge : 3400000 ≤ uvolt.toInt := not_lt.mp (Int32.lt_iff_toInt_lt.not.mp h₂)
      refine ⟨_, hrow, rfl, rfl,
        (selects_fixed_iff [_, _] [] hrow hranges rfl (by simp)).trans ?_⟩
      constructor
      · intro h
        have h : uvolt.toInt = 3400000 := h
        omega
      · intro h
        have h : uvolt.toInt = 3400000 := by omega
        exact h

/-- The two kinds of LDO have rows of the same voltages. -/
theorem RegKind.chooses_ldo (hranges : k.ranges = [⟨500000, 12500, k.vselReg, 0xff, 0x00⟩,
      ⟨3400000, 0, k.vselReg, 0xff, 0xE8⟩])
    (hrow : k.chosen uvolt = some (if uvolt < 3400000 then ⟨500000, 12500, k.vselReg, 0xff, 0x00⟩
      else ⟨3400000, 0, k.vselReg, 0xff, 0xE8⟩)) : ∃ info, k.Chooses uvolt info := by
  by_cases h₁ : uvolt < 3400000
  · rw [if_pos h₁] at hrow
    have hlt : uvolt.toInt < 3400000 := Int32.lt_iff_toInt_lt.mp h₁
    refine ⟨_, hrow, rfl, rfl, (selects_iff [] 0xe7 hrow hranges
      (by decide : (12500 : UInt32) ≠ 0) (by omega) (Nat.zero_le _) ?_ hlt
      (by decide : 3400000 ≤ 500000 + 12500 * (0xe7 - 0 + 1))).trans ?_⟩
    · simp
    · exact ⟨fun h => ⟨h, by omega⟩, fun h => h.1⟩
  · rw [if_neg h₁] at hrow
    have hge : 3400000 ≤ uvolt.toInt := not_lt.mp (Int32.lt_iff_toInt_lt.not.mp h₁)
    refine ⟨_, hrow, rfl, rfl,
      (selects_fixed_iff [_] [] hrow hranges rfl (by simp)).trans ?_⟩
    constructor
    · intro h
      have h : uvolt.toInt = 3400000 := h
      omega
    · intro h
      have h : uvolt.toInt = 3400000 := by omega
      exact h

theorem RegKind.chooses (k : RegKind) (uvolt : Int32) : ∃ info, k.Chooses uvolt info := by
  cases k with
  | buck n => exact chooses_buck n
  | nldo n =>
    refine chooses_ldo ?_ (chosen_nldo n uvolt)
    revert n
    decide
  | pldo n =>
    refine chooses_ldo ?_ (chosen_pldo n uvolt)
    revert n
    decide

end Selectors

section Run

variable {answer : ℕ → UInt8} {info : RegInfo} {uvolt : Int32} {regId : UInt32} {s : Pmic}

theorem setVoltage_writes (hmask : info.vselMask = 0xff) :
    (setVoltage answer (some info) regId uvolt s).2.writes = s.writes ++
      [⟨(regId &&& 0xf00) >>> 8, info.vselReg.toUInt32, (info.code uvolt).toUInt8⟩] := by
  have hna : (info.vselReg.toNat : ℤ) ≠ na := by unfold na; omega
  have hbyte : ((answer s.reads).toUInt32 &&& ~~~(0xff : UInt8).toUInt32 |||
      info.code uvolt).toUInt8 = (info.code uvolt).toUInt8 := by
    have hclear : ~~~(0xff : UInt8) = 0 := rfl
    simp [hclear]
  simp only [setVoltage, if_neg hna, hmask, pmicClrSetBits, pmicRegRead, pmicRegWrite, ne_eq,
    not_true_eq_false, if_false]
  rw [hbyte]

/-! What turning a regulator on writes does not depend on what was written before. -/

theorem buckSetEnable_writes : (buckSetEnable regId true s).2.writes =
    s.writes ++ (buckSetEnable regId true ⟨0, []⟩).2.writes := rfl

theorem nldoSetEnable_writes : (nldoSetEnable regId true s).2.writes =
    s.writes ++ (nldoSetEnable regId true ⟨0, []⟩).2.writes := by
  simp only [nldoSetEnable]
  split_ifs
  · rfl
  · rfl

theorem pldoSetEnable_writes : (pldoSetEnable regId true s).2.writes =
    s.writes ++ (pldoSetEnable regId true ⟨0, []⟩).2.writes := by
  simp only [pldoSetEnable]
  split_ifs
  · rfl
  · rfl
  · rfl
  · rfl
  · exact (List.append_nil _).symm

/-- The selector is written once, and nothing else goes to its register. -/
theorem rk806RegulatorInit_writes (r : Regulator) (answer : ℕ → UInt8) (uvolt : Int32) : ∃ info rest, r.kind.Chooses uvolt info ∧
    (∀ w ∈ rest, w.reg ≠ r.kind.vselReg.toUInt32) ∧
    (rk806RegulatorInit answer ⟨r.regId, uvolt⟩ ⟨0, []⟩).writes =
      ⟨r.csId, r.kind.vselReg.toUInt32, (info.code uvolt).toUInt8⟩ :: rest := by
  obtain ⟨info, hinfo⟩ := r.kind.chooses uvolt
  obtain ⟨onSlaver, kind⟩ := r
  cases kind with
  | buck n =>
    have hid : ∀ (b : Bool) (n : Fin 10), let r : Regulator := ⟨b, .buck n⟩
        r.regId &&& 0xf0 = buck ∧ (r.regId &&& 0x0f).toNat = n ∧
          (r.regId &&& 0xf00) >>> 8 = r.csId ∧ ∀ w ∈ (buckSetEnable r.regId true ⟨0, []⟩).2.writes,
            w.reg ≠ r.kind.vselReg.toUInt32 := by decide
    obtain ⟨htag, hnum, hcs, hen⟩ := hid onSlaver n
    have hpldo : ¬ buck = pldo := by decide
    have hrow : getBuckReg n uvolt = some info := hinfo.chosen
    refine ⟨info, _, hinfo, hen, ?_⟩
    simp only [rk806RegulatorInit, htag, if_true, if_neg hpldo, buckSetVoltage, hnum, hrow]
    rw [buckSetEnable_writes, setVoltage_writes hinfo.vselMask, hcs, hinfo.vselReg]
    rfl
  | nldo n =>
    have hid : ∀ (b : Bool) (n : Fin 5), let r : Regulator := ⟨b, .nldo n⟩
        r.regId &&& 0xf0 = nldo ∧ (r.regId &&& 0x0f).toNat = n ∧
          (r.regId &&& 0xf00) >>> 8 = r.csId ∧ ∀ w ∈ (nldoSetEnable r.regId true ⟨0, []⟩).2.writes,
            w.reg ≠ r.kind.vselReg.toUInt32 := by decide
    obtain ⟨htag, hnum, hcs, hen⟩ := hid onSlaver n
    have hbuck : ¬ nldo = buck := by decide
    have hpldo : ¬ nldo = pldo := by decide
    have hrow : getNldoReg n uvolt = some info := hinfo.chosen
    refine ⟨info, _, hinfo, hen, ?_⟩
    simp only [rk806RegulatorInit, htag, if_true, if_neg hbuck, if_neg hpldo, nldoSetVoltage, hnum,
      hrow]
    rw [nldoSetEnable_writes, setVoltage_writes hinfo.vselMask, hcs, hinfo.vselReg]
    rfl
  | pldo n =>
    have hid : ∀ (b : Bool) (n : Fin 6), let r : Regulator := ⟨b, .pldo n⟩
        r.regId &&& 0xf0 = pldo ∧ (r.regId &&& 0x0f).toNat = n ∧
          (r.regId &&& 0xf00) >>> 8 = r.csId ∧ ∀ w ∈ (pldoSetEnable r.regId true ⟨0, []⟩).2.writes,
            w.reg ≠ r.kind.vselReg.toUInt32 := by decide
    obtain ⟨htag, hnum, hcs, hen⟩ := hid onSlaver n
    have hbuck : ¬ pldo = buck := by decide
    have hnldo : ¬ pldo = nldo := by decide
    have hrow : getPldoReg n uvolt = some info := hinfo.chosen
    refine ⟨info, _, hinfo, hen, ?_⟩
    simp only [rk806RegulatorInit, htag, if_true, if_neg hbuck, if_neg hnldo, pldoSetVoltage, hnum,
      hrow]
    rw [pldoSetEnable_writes, setVoltage_writes hinfo.vselMask, hcs, hinfo.vselReg]
    rfl

theorem neverOvershoots_iff_selects (r : Regulator) (answer : ℕ → UInt8) (uvolt : Int32) : ∃ info, r.kind.Chooses uvolt info ∧
    (r.NeverOvershoots answer uvolt ↔ ∃ i, r.kind.Selects uvolt (info.code uvolt).toUInt8 i) := by
  obtain ⟨info, rest, hinfo, hrest, hwrites⟩ := rk806RegulatorInit_writes r answer uvolt
  refine ⟨info, hinfo, ?_⟩
  rw [Regulator.NeverOvershoots, hwrites]
  constructor
  · intro h
    exact h _ List.mem_cons_self rfl rfl
  · intro h w hw _ hreg
    rcases List.mem_cons.mp hw with rfl | hw
    · exact h
    · exact absurd hreg (hrest w hw)

/-- A regulator's selector is what the request calls for exactly where its steps reach. Below them
the selector is another one's, and above them it is that of a fixed voltage. -/
theorem neverOvershoots_iff (r : Regulator) (answer : ℕ → UInt8) (uvolt : Int32) :
    r.NeverOvershoots answer uvolt ↔ 500000 ≤ uvolt.toInt ∧ uvolt.toInt ≤ 3400000 := by
  obtain ⟨info, hinfo, h⟩ := neverOvershoots_iff_selects r answer uvolt
  exact h.trans hinfo.selects_iff

/-- For 450 mV the first buck gets the selector of 1.0125 V. -/
theorem lowRequest_overshoots :
    (rk806RegulatorInit (fun _ => 0) ⟨(⟨false, .buck 0⟩ : Regulator).regId, 450000⟩ ⟨0, []⟩).writes =
        [⟨0, 0x1a, 82⟩, ⟨0, 0x00, 0x11⟩] ∧
      ¬ ∀ (r : Regulator) (answer : ℕ → UInt8) (uvolt : Int32), r.NeverOvershoots answer uvolt := by
  refine ⟨by decide, fun h => ?_⟩
  obtain ⟨info, hinfo, hsel⟩ := neverOvershoots_iff_selects ⟨false, .buck 0⟩ (fun _ => 0) 450000
  exact absurd (hinfo.selects_iff.mp (hsel.mp (h _ _ _))).1 (by decide)

end Run

end Edk2Rk3576.Spi
