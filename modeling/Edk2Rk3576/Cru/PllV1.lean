import Edk2Rk3576.Lib.BitFields
import Edk2Rk3576.Lib.Polling
import Edk2Rk3576.Lib.Runs
import Edk2Rk3576.Lib.Searches
import Edk2Rk3576.Lib.WriteEnable
import Mathlib.Order.Nat
import Mathlib.Tactic.IntervalCases

/-!
# Setting a PLL

`HAL_CRU_SetPllV1Freq` takes the settings of a rate from a table, or searches for some in words of
32 bits, and programs the PLL with them; `HAL_CRU_GetPllV1Freq` reads the rate back. The fraction is
programmed only if there is one, so that of an earlier rate can stay.
-/

namespace Edk2Rk3576.Cru

def mhz : ℕ := 1000000
def pllInputOscRate : ℕ := 24 * mhz
def vcoMinHz : ℕ := 2250 * mhz
def vcoMaxHz : ℕ := 4500 * mhz
def foutMinHz : ℕ := 37 * mhz
def foutMaxHz : ℕ := 4500 * mhz

inductive HalStatus
  | ok
  | error
  | inval
  | timeout
  deriving DecidableEq

/-- What there is of `PLL_CONFIG` for these PLLs. -/
structure PllConfig where
  rate : ℕ
  p : ℕ
  m : ℕ
  s : ℕ
  k : ℕ
  deriving DecidableEq

/-! ### The search for settings

It leaves a record of the products and shifts that it puts in words of 32 bits, as they are without
them. -/

section Search

variable (fin fout : ℕ)

/-- The body of the loop over `m`. -/
def tryM (s fvco p m : ℕ) : List ℕ × Option PllConfig :=
  if fvco < m * fin % 2 ^ 32 / p then ([m * fin], none)
  else
    ([m * fin, (m + 1) * fin],
      if fvco < (m + 1) * fin % 2 ^ 32 / p then
        let fref := fin / p
        let ffrac := (fvco + 2 ^ 64 - m * fref) % 2 ^ 64
        let fout' := ffrac * 65536 % 2 ^ 64
        some ⟨fout, p, m, s, fout' / fref % 2 ^ 32⟩
      else none)

/-- The body of the loop over `s`. -/
def tryS (s : ℕ) : List ℕ × Option PllConfig :=
  let fvco := fout * 2 ^ s % 2 ^ 32
  if fvco < vcoMinHz ∨ vcoMaxHz < fvco then ([fout * 2 ^ s], none)
  else
    let found := searchUp (fun p => searchUp (tryM fin fout s fvco p) 64 960) 1 4
    (fout * 2 ^ s :: found.1, found.2)

def cruPllV1SetByAuto : List ℕ × Option PllConfig :=
  if fin = 0 ∨ fout = 0 ∨ fout = fin then ([], none)
  else if foutMaxHz < fout ∨ fout < foutMinHz then ([], none)
  else searchUp (tryS fin fout) 0 7

end Search

/-! ### The registers -/

structure PllRegs where
  con0 : BitVec 32
  con1 : BitVec 32
  con2 : BitVec 32
  mode : BitVec 32
  deriving DecidableEq

def pllcon0M : BitField 32 := ⟨0x3ff, 0⟩
def pllcon1P : BitField 32 := ⟨0x3f, 0⟩
def pllcon1S : BitField 32 := ⟨0x7, 6⟩
def pllcon2K : BitField 32 := ⟨0xffff, 0⟩
def pwrdown : BitField 32 := ⟨1, 13⟩

/-- `WRITE_REG_MASK_WE`: the upper half of what is written enables the bits of the lower. -/
def writeRegMaskWe (reg msk val : BitVec 32) : BitVec 32 :=
  let w := msk <<< 16 ||| val
  let we := w >>> 16
  reg &&& ~~~we ||| w &&& we

def writeField (f : BitField 32) (v : ℕ) (reg : BitVec 32) : BitVec 32 :=
  writeRegMaskWe reg f.bits (BitVec.ofNat 32 v <<< f.shift)

def readField (f : BitField 32) (reg : BitVec 32) : ℕ := ((reg &&& f.bits) >>> f.shift).toNat

section Fields

variable {f g : BitField 32} {reg msk val : BitVec 32} {v n : ℕ}

/-- The bits that are enabled are set, the others are kept. -/
theorem writeRegMaskWe_eq (hmsk : msk.toNat < 2 ^ 16) (hval : val &&& msk = val) :
    writeRegMaskWe reg msk val = reg &&& ~~~msk ||| val := writeEnabled_eq hmsk hval

/-- A field of `n` bits, in the lower half of a word. -/
structure IsField (f : BitField 32) (n : ℕ) : Prop where
  mask : f.mask = BitVec.ofNat 32 (2 ^ n - 1)
  low : n + f.shift ≤ 16

theorem IsField.place (h : IsField f n) (hv : v < 2 ^ n) :
    f.place (BitVec.ofNat 32 v) = BitVec.ofNat 32 v <<< f.shift := by
  have hand : BitVec.ofNat 32 v &&& f.mask = BitVec.ofNat 32 v := by
    rw [h.mask, ← BitVec.ofNat_and, Nat.and_two_pow_sub_one_eq_mod, Nat.mod_eq_of_lt hv]
  rw [BitField.place, hand]

theorem IsField.toNat_shiftLeft (h : IsField f n) (hv : v < 2 ^ n) :
    (BitVec.ofNat 32 v <<< f.shift).toNat = v * 2 ^ f.shift ∧ v * 2 ^ f.shift < 2 ^ 16 := by
  have hlt : v * 2 ^ f.shift < 2 ^ 16 := by
    have hle : 2 ^ n * 2 ^ f.shift ≤ 2 ^ 16 := by
      rw [← Nat.pow_add]
      exact Nat.pow_le_pow_right (by omega) h.low
    exact (Nat.mul_lt_mul_of_pos_right hv (Nat.two_pow_pos _)).trans_le hle
  have hv' : v ≤ v * 2 ^ f.shift := Nat.le_mul_of_pos_right _ (Nat.two_pow_pos _)
  have hsmall : v < 2 ^ 32 := by omega
  refine ⟨?_, hlt⟩
  rw [BitVec.toNat_shiftLeft, BitVec.toNat_ofNat, Nat.mod_eq_of_lt hsmall, Nat.shiftLeft_eq,
    Nat.mod_eq_of_lt (by omega)]

theorem IsField.bits_lt (h : IsField f n) : f.bits.toNat < 2 ^ 16 := by
  rw [BitField.bits, h.mask, (h.toNat_shiftLeft (Nat.sub_lt (Nat.two_pow_pos _) Nat.one_pos)).1]
  exact (h.toNat_shiftLeft (Nat.sub_lt (Nat.two_pow_pos _) Nat.one_pos)).2

theorem IsField.write_eq (h : IsField f n) (hv : v < 2 ^ n) :
    writeField f v reg = f.set reg (BitVec.ofNat 32 v) := by
  have hinside : BitVec.ofNat 32 v <<< f.shift &&& f.bits = BitVec.ofNat 32 v <<< f.shift := by
    rw [← h.place hv, BitField.place_and_bits]
  rw [writeField, writeRegMaskWe_eq h.bits_lt hinside, BitField.set, h.place hv]

/-- What is written to a field is read back, -/
theorem IsField.read_write (h : IsField f n) (hv : v < 2 ^ n) :
    readField f (writeField f v reg) = v := by
  obtain ⟨hnat, -⟩ := h.toNat_shiftLeft hv
  rw [h.write_eq hv, readField, BitField.set_and_bits, h.place hv, BitVec.toNat_ushiftRight, hnat,
    Nat.shiftRight_eq_div_pow, Nat.mul_div_cancel _ (Nat.two_pow_pos _)]

/-- and what is beside it is left alone. -/
theorem IsField.read_write_of_apart (h : IsField f n) (hv : v < 2 ^ n)
    (hapart : f.bits &&& g.bits = 0#32) : readField g (writeField f v reg) = readField g reg := by
  rw [h.write_eq hv, readField, BitField.set_and hapart, readField]

theorem isField_m : IsField pllcon0M 10 := ⟨rfl, by decide⟩
theorem isField_p : IsField pllcon1P 6 := ⟨rfl, by decide⟩
theorem isField_s : IsField pllcon1S 3 := ⟨rfl, by decide⟩
theorem isField_k : IsField pllcon2K 16 := ⟨rfl, by decide⟩
theorem isField_pwrdown : IsField pwrdown 1 := ⟨rfl, by decide⟩

end Fields

/-- What the fields come to. There is no rate when the divider is zero. -/
def pllRate (p m s k : ℕ) : Option ℕ :=
  if p = 0 then none
  else
    let rate := pllInputOscRate * m / p
    let rate := if k ≠ 0 then rate + pllInputOscRate / p * k / 65536 else rate
    some (rate / 2 ^ s % 2 ^ 32)

/-- A step of the fraction makes a difference of that much, rounded up to one hertz. -/
def resolution (p s : ℕ) : ℕ := (pllInputOscRate + p * 65536 * 2 ^ s - 1) / (p * 65536 * 2 ^ s)

def Near (a b r : ℕ) : Prop := a ≤ b + r ∧ b ≤ a + r

instance {a b r : ℕ} : Decidable (Near a b r) := inferInstanceAs (Decidable (_ ∧ _))

/-- Settings that fit in the fields and come near their rate. -/
def PllConfig.Good (c : PllConfig) : Prop :=
  c.p < 64 ∧ c.m < 1024 ∧ c.s < 8 ∧ c.k < 65536 ∧
    ∃ rate ∈ pllRate c.p c.m c.s c.k, Near rate c.rate (resolution c.p c.s)

instance {c : PllConfig} : Decidable c.Good := inferInstanceAs (Decidable (_ ∧ _))

/-- A PLL without a mode has no mask for it. The table of settings ends at the first of rate zero,
and can be missing. -/
structure PllSetup where
  modeShift : ℕ
  modeMask : BitVec 32
  lockShift : ℕ
  rateTable : List PllConfig
  mode_ok : modeMask = 0#32 ∨ modeMask = 3#32 <<< modeShift ∧ modeShift ≤ 14
  table_good : ∀ c ∈ rateTable, c.Good

def rkPllModeSlow : ℕ := 0
def rkPllModeNormal : ℕ := 1

namespace PllSetup

variable (pSetup : PllSetup)

def pllMode (s : PllRegs) : ℕ :=
  if pSetup.modeMask ≠ 0#32 then ((s.mode &&& pSetup.modeMask) >>> pSetup.modeShift).toNat
  else rkPllModeNormal

def halCruGetPllV1Freq (s : PllRegs) : Option ℕ :=
  if pSetup.pllMode s = rkPllModeSlow then some pllInputOscRate
  else if pSetup.pllMode s = rkPllModeNormal then
    pllRate (readField pllcon1P s.con1) (readField pllcon0M s.con0) (readField pllcon1S s.con1)
      (readField pllcon2K s.con2)
  else some 32768

def cruPllV1GetSettings (rate : ℕ) : List ℕ × Option PllConfig :=
  match pSetup.rateTable.find? (·.rate = rate) with
  | some c => ([], some c)
  | none => cruPllV1SetByAuto pllInputOscRate rate

def writeMode (mode : ℕ) (s : PllRegs) : PllRegs :=
  if pSetup.modeMask ≠ 0#32 then
    { s with
      mode := writeRegMaskWe s.mode pSetup.modeMask (BitVec.ofNat 32 mode <<< pSetup.modeShift) }
  else s

def powerDown (s : PllRegs) : PllRegs := { s with con1 := writeField pwrdown 1 s.con1 }

def writeConfig (c : PllConfig) (s : PllRegs) : PllRegs :=
  let s := { s with con0 := writeField pllcon0M c.m s.con0 }
  let s := { s with con1 := writeField pllcon1P c.p s.con1 }
  let s := { s with con1 := writeField pllcon1S c.s s.con1 }
  if c.k ≠ 0 then { s with con2 := writeField pllcon2K c.k s.con2 } else s

def powerUp (s : PllRegs) : PllRegs := { s with con1 := writeField pwrdown 0 s.con1 }

/-- The rate that is asked for, and what the PLL answers when it is asked whether it has locked. -/
structure Call where
  rate : UInt32
  con6 : ℕ → BitVec 32

/-- Whether the wait for the lock ends in time. -/
def locks (c : Call) : Bool :=
  (pollFor (fun n => if c.con6 n &&& (1#32 <<< pSetup.lockShift) ≠ 0#32 then some () else none)
    24000000 0).isSome

/-- The status, the registers and the record of the search. -/
def halCruSetPllV1Freq (c : Call) (s : PllRegs) : Option (HalStatus × PllRegs × List ℕ) :=
  match pSetup.halCruGetPllV1Freq s with
  | none => none
  | some freq =>
    if c.rate.toNat = freq then some (.ok, s, [])
    else if c.rate.toNat < foutMinHz then some (.inval, s, [])
    else if foutMaxHz < c.rate.toNat then some (.inval, s, [])
    else
      match pSetup.cruPllV1GetSettings c.rate.toNat with
      | (vs, none) => some (.error, s, vs)
      | (vs, some config) =>
        let s := pSetup.writeMode rkPllModeSlow s
        let s := powerDown s
        let s := writeConfig config s
        let s := powerUp s
        if pSetup.locks c then some (.ok, pSetup.writeMode rkPllModeNormal s, vs)
        else some (.timeout, s, vs)

def setStep (s : PllRegs) (c : Call) : Except Unit PllRegs :=
  match pSetup.halCruSetPllV1Freq c s with
  | none => .error ()
  | some (_, s', _) => .ok s'

/-! ### What a call is to do -/

/-- The rate read back is the one set, as near as the fraction allows. -/
def Agrees (rate : ℕ) (s : PllRegs) : Prop :=
  ∃ freq ∈ pSetup.halCruGetPllV1Freq s,
    Near freq rate (resolution (readField pllcon1P s.con1) (readField pllcon1S s.con1))

instance {rate : ℕ} {s : PllRegs} : Decidable (pSetup.Agrees rate s) :=
  inferInstanceAs (Decidable (∃ freq ∈ pSetup.halCruGetPllV1Freq s, _))

/-- A rate of the range that a call sets is the one read back, and no word of the search wraps. -/
def CallOk (s : PllRegs) (c : Call) : Prop :=
  ∀ r ∈ pSetup.halCruSetPllV1Freq c s,
    (r.1 = .ok → foutMinHz ≤ c.rate.toNat → c.rate.toNat ≤ foutMaxHz →
      pSetup.Agrees c.rate.toNat r.2.1) ∧ ∀ v ∈ r.2.2, v < 2 ^ 32

instance {s : PllRegs} {c : Call} : Decidable (pSetup.CallOk s c) :=
  inferInstanceAs (Decidable (∀ r ∈ pSetup.halCruSetPllV1Freq c s, _))

/-- The VCO runs below the last multiple of the input that a word of 32 bits holds, and there is a
fraction, or none is left from before. -/
def VcoExact (rate : ℕ) (s : PllRegs) : Prop :=
  ∃ i ≤ 6, vcoMinHz ≤ rate * 2 ^ i ∧ rate * 2 ^ i < 2 ^ 32 / pllInputOscRate * pllInputOscRate ∧
    (pllInputOscRate ≤ rate * 2 ^ i % pllInputOscRate * 65536 ∨ readField pllcon2K s.con2 = 0)

instance {rate : ℕ} {s : PllRegs} : Decidable (VcoExact rate s) :=
  inferInstanceAs (Decidable (∃ i, i ≤ 6 ∧ _))

/-- The settings are exact: those of the table have a fraction, or none is left from before. -/
def SettingsExact (rate : ℕ) (s : PllRegs) : Prop :=
  (∀ config ∈ pSetup.rateTable.find? (·.rate = rate),
    config.k ≠ 0 ∨ readField pllcon2K s.con2 = 0) ∧
  (pSetup.rateTable.find? (·.rate = rate) = none → VcoExact rate s)

/-- When a call does what it is to do. -/
def CallExact (s : PllRegs) (c : Call) : Prop :=
  pSetup.halCruGetPllV1Freq s = some c.rate.toNat ∨ c.rate.toNat < foutMinHz ∨
    pSetup.SettingsExact c.rate.toNat s

instance {rate : ℕ} {s : PllRegs} : Decidable (pSetup.SettingsExact rate s) :=
  inferInstanceAs (Decidable (_ ∧ _))

instance {s : PllRegs} {c : Call} : Decidable (pSetup.CallExact s c) :=
  inferInstanceAs (Decidable (_ ∨ _ ∨ _))

end PllSetup

/-! ### What the search finds -/

section Search

variable {rate i l : ℕ}

/-- The multiple of the input that the VCO runs at, or just above, and the fraction. -/
def exactConfig (rate i : ℕ) : PllConfig where
  rate := rate
  p := 1
  m := rate * 2 ^ i / pllInputOscRate
  s := i
  k := rate * 2 ^ i % pllInputOscRate * 65536 / pllInputOscRate

theorem pllInputOscRate_eq : pllInputOscRate = 24000000 := rfl

/-- What the fraction comes to is less than what it stands for, by no more than one of its steps. -/
theorem fraction_near (r : ℕ) : 24000000 * (r * 65536 / 24000000) / 65536 ≤ r ∧
    r ≤ 24000000 * (r * 65536 / 24000000) / 65536 + 367 := by
  omega

theorem near_of_vco {x : ℕ} (hi : i ≤ 6) (hle : x ≤ rate * 2 ^ i) (hge : rate * 2 ^ i ≤ x + 367) :
    Near (x / 2 ^ i) rate (resolution 1 i) := by
  simp only [Near, resolution, pllInputOscRate_eq]
  interval_cases i <;> omega

/-- The settings lose less than a step of the fraction, and what is lost in rounding. -/
theorem exactConfig_good (hi : i ≤ 6)
    (hlt : rate * 2 ^ i < 2 ^ 32 / pllInputOscRate * pllInputOscRate) :
    (exactConfig rate i).Good := by
  simp only [pllInputOscRate_eq] at hlt
  have hsplit := Nat.div_add_mod (rate * 2 ^ i) 24000000
  obtain ⟨hle, hge⟩ := fraction_near (rate * 2 ^ i % 24000000)
  have hx : (24000000 * (rate * 2 ^ i / 24000000) +
      24000000 * (rate * 2 ^ i % 24000000 * 65536 / 24000000) / 65536) / 2 ^ i < 2 ^ 32 :=
    (Nat.div_le_self _ _).trans_lt (by omega)
  have hrate : pllRate 1 (rate * 2 ^ i / 24000000) i
      (rate * 2 ^ i % 24000000 * 65536 / 24000000) =
      some ((24000000 * (rate * 2 ^ i / 24000000) +
        24000000 * (rate * 2 ^ i % 24000000 * 65536 / 24000000) / 65536) / 2 ^ i) := by
    rw [pllRate, if_neg one_ne_zero]
    simp only [pllInputOscRate_eq, Nat.div_one]
    split_ifs with hk
    · rw [Nat.mod_eq_of_lt hx]
    · rw [not_not.1 hk] at hx ⊢
      rw [Nat.mul_zero, Nat.zero_div, Nat.add_zero] at hx ⊢
      rw [Nat.mod_eq_of_lt hx]
  simp only [PllConfig.Good, exactConfig, pllInputOscRate_eq]
  refine ⟨by omega, by omega, by omega, by omega, ?_⟩
  exact ⟨_, hrate, near_of_vco hi (by omega) (by omega)⟩

theorem tryM_of_lt {s fvco : ℕ} (hl : (l + 1) * pllInputOscRate ≤ fvco) (hlt : fvco < 2 ^ 32) :
    tryM pllInputOscRate rate s fvco 1 l =
      ([l * pllInputOscRate, (l + 1) * pllInputOscRate], none) := by
  simp only [pllInputOscRate_eq] at hl ⊢
  rw [tryM, Nat.mod_eq_of_lt (by omega), Nat.mod_eq_of_lt (by omega), Nat.div_one, Nat.div_one,
    if_neg (by omega), if_neg (by omega)]

theorem tryM_found (hlt : rate * 2 ^ i < 2 ^ 32 / pllInputOscRate * pllInputOscRate) :
    tryM pllInputOscRate rate i (rate * 2 ^ i) 1 (rate * 2 ^ i / pllInputOscRate) =
      ([rate * 2 ^ i / pllInputOscRate * pllInputOscRate,
        (rate * 2 ^ i / pllInputOscRate + 1) * pllInputOscRate], some (exactConfig rate i)) := by
  have hfrac : (rate * 2 ^ i + 2 ^ 64 - rate * 2 ^ i / pllInputOscRate * pllInputOscRate) % 2 ^ 64 =
      rate * 2 ^ i % pllInputOscRate := by
    simp only [pllInputOscRate_eq] at hlt ⊢
    omega
  have hk : rate * 2 ^ i % pllInputOscRate * 65536 % 2 ^ 64 / pllInputOscRate % 2 ^ 32 =
      rate * 2 ^ i % pllInputOscRate * 65536 / pllInputOscRate := by
    have hr : rate * 2 ^ i % pllInputOscRate < pllInputOscRate := Nat.mod_lt _ (by decide)
    generalize rate * 2 ^ i % pllInputOscRate = r at hr
    simp only [pllInputOscRate_eq] at hr ⊢
    rw [Nat.mod_eq_of_lt (by omega : r * 65536 < 2 ^ 64), Nat.mod_eq_of_lt (by omega)]
  have hlow : ¬ rate * 2 ^ i < rate * 2 ^ i / pllInputOscRate * pllInputOscRate % 2 ^ 32 := by
    simp only [pllInputOscRate_eq] at hlt ⊢
    omega
  have hhigh : rate * 2 ^ i < (rate * 2 ^ i / pllInputOscRate + 1) * pllInputOscRate % 2 ^ 32 := by
    simp only [pllInputOscRate_eq] at hlt ⊢
    omega
  simp only [tryM, Nat.div_one]
  rw [if_neg hlow, if_pos hhigh, hfrac, hk, exactConfig]

/-- Below the last multiple of the input that 32 bits hold, nothing wraps around. -/
theorem tryS_found (hmin : vcoMinHz ≤ rate * 2 ^ i)
    (hlt : rate * 2 ^ i < 2 ^ 32 / pllInputOscRate * pllInputOscRate) :
    (tryS pllInputOscRate rate i).2 = some (exactConfig rate i) ∧
      ∀ v ∈ (tryS pllInputOscRate rate i).1, v < 2 ^ 32 := by
  have hsmall : rate * 2 ^ i < 2 ^ 32 := hlt.trans_le (Nat.div_mul_le_self _ _)
  have hmax : ¬ vcoMaxHz < rate * 2 ^ i := by
    simp only [pllInputOscRate_eq] at hlt
    simp only [vcoMaxHz, mhz]
    omega
  have hm : (searchUp (tryM pllInputOscRate rate i (rate * 2 ^ i) 1) 64 960).2 =
      some (exactConfig rate i) ∧
      ∀ v ∈ (searchUp (tryM pllInputOscRate rate i (rate * 2 ^ i) 1) 64 960).1, v < 2 ^ 32 := by
    refine searchUp_found (k := rate * 2 ^ i / pllInputOscRate) ?_ ?_ (fun l _ hl => ?_) ?_
    · simp only [vcoMinHz, mhz] at hmin
      simp only [pllInputOscRate_eq] at hlt ⊢
      omega
    · simp only [pllInputOscRate_eq] at hlt ⊢
      omega
    · have hle : (l + 1) * pllInputOscRate ≤ rate * 2 ^ i :=
        (Nat.mul_le_mul_right _ hl).trans (Nat.div_mul_le_self _ _)
      rw [tryM_of_lt hle hsmall]
      refine ⟨rfl, List.forall_mem_cons.2 ⟨?_, List.forall_mem_singleton.2 (hle.trans_lt hsmall)⟩⟩
      exact (Nat.mul_le_mul_right _ l.le_succ).trans_lt (hle.trans_lt hsmall)
    · rw [tryM_found hlt]
      refine ⟨rfl, List.forall_mem_cons.2 ⟨?_, List.forall_mem_singleton.2 ?_⟩⟩ <;>
        (simp only [pllInputOscRate_eq] at hlt ⊢; omega)
  have hp : (searchUp (fun p => searchUp (tryM pllInputOscRate rate i (rate * 2 ^ i) p) 64 960)
      1 4).2 = some (exactConfig rate i) ∧
      ∀ v ∈ (searchUp (fun p => searchUp (tryM pllInputOscRate rate i (rate * 2 ^ i) p) 64 960)
        1 4).1, v < 2 ^ 32 :=
    searchUp_found le_rfl (by omega) (fun l hl hlt => absurd hlt (by omega)) hm
  rw [tryS, Nat.mod_eq_of_lt hsmall]
  simp only
  rw [if_neg (not_or.2 ⟨not_lt.2 hmin, hmax⟩)]
  exact ⟨hp.1, List.forall_mem_cons.2 ⟨hsmall, hp.2⟩⟩

theorem tryS_of_lt (h : rate * 2 ^ l < vcoMinHz) :
    tryS pllInputOscRate rate l = ([rate * 2 ^ l], none) := by
  have hsmall : rate * 2 ^ l < 2 ^ 32 := h.trans (by decide)
  rw [tryS, Nat.mod_eq_of_lt hsmall, if_pos (.inl h)]

theorem cruPllV1SetByAuto_eq (hrate : foutMinHz ≤ rate) (hlt : rate < 2 ^ 32) :
    cruPllV1SetByAuto pllInputOscRate rate = searchUp (tryS pllInputOscRate rate) 0 7 := by
  simp only [foutMinHz, mhz] at hrate
  have hinput : ¬ (pllInputOscRate = 0 ∨ rate = 0 ∨ rate = pllInputOscRate) := by
    simp only [pllInputOscRate_eq]
    omega
  have hrange : ¬ (foutMaxHz < rate ∨ rate < foutMinHz) := by
    simp only [foutMaxHz, foutMinHz, mhz]
    omega
  rw [cruPllV1SetByAuto, if_neg hinput, if_neg hrange]

theorem cruPllV1SetByAuto_found (hrate : foutMinHz ≤ rate) (hi : i ≤ 6)
    (hmin : vcoMinHz ≤ rate * 2 ^ i)
    (hlt : rate * 2 ^ i < 2 ^ 32 / pllInputOscRate * pllInputOscRate) :
    (cruPllV1SetByAuto pllInputOscRate rate).2 = some (exactConfig rate i) ∧
      ∀ v ∈ (cruPllV1SetByAuto pllInputOscRate rate).1, v < 2 ^ 32 := by
  have hle : rate ≤ rate * 2 ^ i := Nat.le_mul_of_pos_right _ (Nat.two_pow_pos _)
  rw [cruPllV1SetByAuto_eq hrate ((hle.trans_lt hlt).trans_le (Nat.div_mul_le_self _ _))]
  refine searchUp_found (Nat.zero_le _) (by omega) (fun l _ hl => ?_) (tryS_found hmin hlt)
  have hhalf : rate * 2 ^ l * 2 ≤ rate * 2 ^ i := by
    rw [Nat.mul_assoc, ← Nat.pow_succ]
    exact Nat.mul_le_mul_left _ (Nat.pow_le_pow_right (by omega) hl)
  have hlow : rate * 2 ^ l < vcoMinHz := by
    simp only [pllInputOscRate_eq] at hlt
    simp only [vcoMinHz, mhz]
    omega
  rw [tryS_of_lt hlow]
  exact ⟨rfl, List.forall_mem_singleton.2 (hlow.trans (by decide))⟩

/-- From there on something does. -/
theorem tryS_wraps (hmin : 2 ^ 32 / pllInputOscRate * pllInputOscRate ≤ rate * 2 ^ i) :
    ∃ v ∈ (tryS pllInputOscRate rate i).1, 2 ^ 32 ≤ v := by
  by_cases hsmall : rate * 2 ^ i < 2 ^ 32
  · refine ⟨(2 ^ 32 / pllInputOscRate + 1) * pllInputOscRate, ?_, by decide⟩
    have hrange : ¬ (rate * 2 ^ i < vcoMinHz ∨ vcoMaxHz < rate * 2 ^ i) := by
      simp only [pllInputOscRate_eq] at hmin
      simp only [vcoMinHz, vcoMaxHz, mhz]
      omega
    have hm : (2 ^ 32 / pllInputOscRate + 1) * pllInputOscRate ∈
        (searchUp (tryM pllInputOscRate rate i (rate * 2 ^ i) 1) 64 960).1 := by
      refine mem_searchUp (k := 2 ^ 32 / pllInputOscRate) (by decide) (by decide)
        (fun l _ hl => ?_) ?_
      · rw [tryM_of_lt ((Nat.mul_le_mul_right _ hl).trans hmin) hsmall]
      · have hlow : ¬ rate * 2 ^ i < 2 ^ 32 / pllInputOscRate * pllInputOscRate % 2 ^ 32 / 1 :=
          not_lt.2 (hmin.trans' (by decide))
        rw [tryM, if_neg hlow]
        exact List.mem_cons_of_mem _ List.mem_cons_self
    rw [tryS, Nat.mod_eq_of_lt hsmall]
    simp only
    rw [if_neg hrange]
    exact List.mem_cons_of_mem _ (mem_searchUp le_rfl (by omega)
      (fun l hl hlt => absurd hlt (by omega)) hm)
  · refine ⟨rate * 2 ^ i, ?_, not_lt.1 hsmall⟩
    simp only [tryS]
    split_ifs <;> exact List.mem_cons_self

/-- No word of the search wraps around just when the VCO is to run below that. -/
theorem cruPllV1SetByAuto_fits_iff (hrate : foutMinHz ≤ rate) (hlt : rate < 2 ^ 32) :
    (∀ v ∈ (cruPllV1SetByAuto pllInputOscRate rate).1, v < 2 ^ 32) ↔
      ∃ i ≤ 6, vcoMinHz ≤ rate * 2 ^ i ∧
        rate * 2 ^ i < 2 ^ 32 / pllInputOscRate * pllInputOscRate := by
  constructor
  · intro h
    have hsix : vcoMinHz ≤ rate * 2 ^ 6 := by
      simp only [foutMinHz, mhz] at hrate
      simp only [vcoMinHz, mhz]
      omega
    have hex : ∃ i, vcoMinHz ≤ rate * 2 ^ i := ⟨6, hsix⟩
    refine ⟨Nat.find hex, Nat.find_min' hex hsix, Nat.find_spec hex, ?_⟩
    by_contra hhigh
    obtain ⟨v, hv, hwraps⟩ := tryS_wraps (not_lt.1 hhigh)
    have hmem := mem_searchUp (n := 7) (Nat.zero_le _)
      (by have := Nat.find_min' hex hsix; omega)
      (fun l _ hl => by rw [tryS_of_lt (not_le.1 (Nat.find_min hex hl))]) hv
    rw [← cruPllV1SetByAuto_eq hrate hlt] at hmem
    exact absurd (h v hmem) (not_lt.2 hwraps)
  · rintro ⟨i, hi, hmin, hhigh⟩
    exact (cruPllV1SetByAuto_found hrate hi hmin hhigh).2

end Search

/-! ### What is programmed -/

namespace PllSetup

variable {pSetup : PllSetup} {s : PllRegs} {c : Call} {config : PllConfig} {mode : ℕ}

/-- The registers hold the settings; the fraction stays if there is none. -/
structure Holds (config : PllConfig) (k : ℕ) (s : PllRegs) : Prop where
  m_eq : readField pllcon0M s.con0 = config.m
  p_eq : readField pllcon1P s.con1 = config.p
  s_eq : readField pllcon1S s.con1 = config.s
  k_eq : readField pllcon2K s.con2 = k

theorem holds_writeConfig (h : config.Good) :
    Holds config (if config.k ≠ 0 then config.k else readField pllcon2K s.con2)
      (writeConfig config s) := by
  obtain ⟨hp, hm, hs, hk, -⟩ := h
  unfold writeConfig
  split_ifs with hfrac
  · refine ⟨isField_m.read_write hm, ?_, isField_s.read_write hs, isField_k.read_write hk⟩
    simp only
    rw [isField_s.read_write_of_apart hs (by decide), isField_p.read_write hp]
  · refine ⟨isField_m.read_write hm, ?_, isField_s.read_write hs, rfl⟩
    simp only
    rw [isField_s.read_write_of_apart hs (by decide), isField_p.read_write hp]

theorem Holds.powerUp {k : ℕ} (h : Holds config k s) : Holds config k (powerUp s) := by
  refine ⟨h.m_eq, ?_, ?_, h.k_eq⟩ <;> unfold PllSetup.powerUp <;> simp only
  · rw [isField_pwrdown.read_write_of_apart (by decide) (by decide), h.p_eq]
  · rw [isField_pwrdown.read_write_of_apart (by decide) (by decide), h.s_eq]

theorem Holds.writeMode {k : ℕ} (h : Holds config k s) :
    Holds config k (pSetup.writeMode mode s) := by
  unfold PllSetup.writeMode
  split_ifs
  · exact ⟨h.m_eq, h.p_eq, h.s_eq, h.k_eq⟩
  · exact h

theorem con2_writeMode : (pSetup.writeMode mode s).con2 = s.con2 := by
  unfold PllSetup.writeMode
  split_ifs <;> rfl

/-- A mode that is written is read back. -/
theorem pllMode_writeMode : pSetup.pllMode (pSetup.writeMode rkPllModeNormal s) = rkPllModeNormal := by
  unfold pllMode PllSetup.writeMode
  split_ifs with hmask
  · obtain ⟨hbits, hshift⟩ := pSetup.mode_ok.resolve_left hmask
    have hfield : IsField ⟨3#32, pSetup.modeShift⟩ 2 := ⟨rfl, by simp only; omega⟩
    simp only
    rw [hbits]
    exact hfield.read_write (by decide : rkPllModeNormal < 2 ^ 2)
  · rfl

/-- Programmed with good settings, and no fraction left from before, the rate is near. -/
theorem agrees_of_holds {k : ℕ} (hgood : config.Good) (hholds : Holds config k s)
    (hmode : pSetup.pllMode s = rkPllModeNormal) (hk : k = config.k) :
    pSetup.Agrees config.rate s := by
  obtain ⟨-, -, -, -, hnear⟩ := hgood
  have hget : pSetup.halCruGetPllV1Freq s = pllRate config.p config.m config.s config.k := by
    rw [halCruGetPllV1Freq, hmode, if_neg (by decide), if_pos rfl, hholds.p_eq, hholds.m_eq,
      hholds.s_eq, hholds.k_eq, hk]
  unfold Agrees
  rw [hget, hholds.p_eq, hholds.s_eq]
  exact hnear

/-- The settings a call gets, when it is exact. -/
theorem settings_of_exact {rate : ℕ} (hrate : foutMinHz ≤ rate)
    (h : pSetup.SettingsExact rate s) :
    ∃ config, (pSetup.cruPllV1GetSettings rate).2 = some config ∧ config.rate = rate ∧
      config.Good ∧ (config.k ≠ 0 ∨ readField pllcon2K s.con2 = 0) ∧
      ∀ v ∈ (pSetup.cruPllV1GetSettings rate).1, v < 2 ^ 32 := by
  rcases hfind : pSetup.rateTable.find? (·.rate = rate) with _ | config
  · obtain ⟨i, hi, hmin, hlt, hk⟩ := h.2 hfind
    obtain ⟨hfound, hvs⟩ := cruPllV1SetByAuto_found hrate hi hmin hlt
    have hget : pSetup.cruPllV1GetSettings rate = cruPllV1SetByAuto pllInputOscRate rate := by
      rw [cruPllV1GetSettings, hfind]
    rw [hget]
    refine ⟨exactConfig rate i, hfound, rfl, exactConfig_good hi hlt, hk.imp_left fun hle => ?_, hvs⟩
    exact (Nat.div_pos hle (by decide)).ne'
  · have hget : pSetup.cruPllV1GetSettings rate = ([], some config) := by
      rw [cruPllV1GetSettings, hfind]
    have hrate' : config.rate = rate := by simpa using List.find?_some hfind
    rw [hget]
    exact ⟨config, rfl, hrate', pSetup.table_good _ (List.mem_of_find?_eq_some hfind),
      h.1 config hfind, List.forall_mem_nil _⟩

theorem callOk_of_exact (h : pSetup.CallExact s c) : pSetup.CallOk s c := by
  intro r hr
  unfold halCruSetPllV1Freq at hr
  rcases hget : pSetup.halCruGetPllV1Freq s with _ | freq <;> rw [hget] at hr
  · cases hr
  simp only at hr
  by_cases hsame : c.rate.toNat = freq
  · rw [if_pos hsame] at hr
    cases hr
    exact ⟨fun _ _ _ => ⟨freq, hget, hsame ▸ ⟨Nat.le_add_right _ _, Nat.le_add_right _ _⟩⟩,
      List.forall_mem_nil _⟩
  rw [if_neg hsame] at hr
  by_cases hmin : c.rate.toNat < foutMinHz
  · rw [if_pos hmin] at hr
    cases hr
    exact ⟨nofun, List.forall_mem_nil _⟩
  rw [if_neg hmin] at hr
  by_cases hmax : foutMaxHz < c.rate.toNat
  · rw [if_pos hmax] at hr
    cases hr
    exact ⟨nofun, List.forall_mem_nil _⟩
  rw [if_neg hmax] at hr
  have hexact := (h.resolve_left fun hsame' => hsame (Option.some.inj (hsame'.symm.trans hget)))
    |>.resolve_left hmin
  obtain ⟨config, hfound, hrate, hgood, hk, hvs⟩ := settings_of_exact (not_lt.1 hmin) hexact
  obtain ⟨vs, hsettings⟩ : ∃ vs, pSetup.cruPllV1GetSettings c.rate.toNat = (vs, some config) :=
    ⟨_, Prod.ext rfl hfound⟩
  rw [hsettings] at hvs hr
  simp only at hr
  by_cases hlocks : pSetup.locks c = true
  · rw [if_pos hlocks] at hr
    cases hr
    refine ⟨fun _ _ _ => ?_, hvs⟩
    rw [← hrate]
    refine agrees_of_holds hgood (holds_writeConfig hgood).powerUp.writeMode pllMode_writeMode ?_
    split_ifs with hfrac
    · rfl
    · rw [not_not.1 hfrac]
      exact (congrArg _ con2_writeMode).trans (hk.resolve_left hfrac)
  · rw [if_neg hlocks] at hr
    cases hr
    exact ⟨nofun, hvs⟩

/-- Calls that are exact, each in the state the others before have left, do what they are to do. -/
theorem calls_ok (pSetup : PllSetup) (s : PllRegs) (cs : List Call)
    (h : AlongRun pSetup.setStep pSetup.CallExact s cs) :
    AlongRun pSetup.setStep pSetup.CallOk s cs :=
  h.mono fun _ _ => callOk_of_exact

end PllSetup

/-- `PLL_TABLE`. -/
def pllTable : List PllConfig :=
  [⟨1680000000, 2, 280, 1, 0⟩, ⟨1512000000, 2, 252, 1, 0⟩, ⟨1416000000, 2, 236, 1, 0⟩,
    ⟨1188000000, 2, 198, 1, 0⟩, ⟨1008000000, 2, 336, 2, 0⟩, ⟨1000000000, 3, 500, 2, 0⟩,
    ⟨983040000, 4, 655, 2, 23592⟩, ⟨816000000, 2, 272, 2, 0⟩, ⟨786432000, 2, 262, 2, 9437⟩,
    ⟨100000000, 3, 400, 5, 0⟩]

def gpll : PllSetup where
  modeShift := 2
  modeMask := 3#32 <<< 2
  lockShift := 15
  rateTable := pllTable
  mode_ok := .inr ⟨rfl, by decide⟩
  table_good := by decide

/-- The PLL is in its slow mode, and locks. -/
def slowRegs : PllRegs := ⟨100#32, 1#32, 0#32, 0#32⟩

def call (rate : UInt32) : PllSetup.Call := ⟨rate, fun _ => 0x8000#32⟩

theorem calls_ok_fraction :
    AlongRun gpll.setStep gpll.CallOk slowRegs
      [call 816000000, call 1200000000, call 983040000, call 786432000] :=
  PllSetup.calls_ok gpll slowRegs _ (by decide +kernel)

/-- The fraction of 983.04 MHz stays when 816 MHz are set. -/
theorem staleFraction_not_ok :
    ¬ AlongRun gpll.setStep gpll.CallOk slowRegs [call 983040000, call 816000000] := by
  decide +kernel

end Edk2Rk3576.Cru
