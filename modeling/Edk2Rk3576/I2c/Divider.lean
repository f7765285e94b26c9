import Edk2Rk3576.I2c.Stream
import Mathlib.Algebra.Order.Floor.Div

/-!
# The divider of the I2C clock

`I2cAdapterBaudRate` takes the target up to whole kHz, finds how many periods of eight clocks a
period of SCL and each of its phases need at least, and hands out what is left in proportion. All of
it is done in 32 bits.
-/

namespace Edk2Rk3576

structure I2cSpecValues where
  minLowNs : UInt32
  minHighNs : UInt32
  maxRiseNs : UInt32
  maxFallNs : UInt32
  deriving DecidableEq

def standardModeSpec : I2cSpecValues := ⟨4700, 4000, 1000, 300⟩
def fastModeSpec : I2cSpecValues := ⟨1300, 600, 300, 300⟩
def fastModePlusSpec : I2cSpecValues := ⟨500, 260, 120, 120⟩

def i2cGetSpec (speed : UInt32) : I2cSpecValues :=
  if speed = 1000 then fastModePlusSpec
  else if speed = 400 then fastModeSpec
  else standardModeSpec

/-- `DIV_ROUND_UP`. -/
def divRoundUp (x y : UInt32) : UInt32 := (x + y - 1) / y

/-- `StartSetup` and `Speed` for a target, if it is one the function takes. -/
def i2cSpeedClass (target : UInt32) : Option (UInt32 × UInt32) :=
  if target ≤ 100000 ∧ 1000 ≤ target then some (1, 100)
  else if target ≤ 400000 ∧ 100000 ≤ target then some (0, 400)
  else if target ≤ 1000000 ∧ 400000 < target then some (0, 1000)
  else none

/-- The least divider of a phase. -/
def i2cMinDiv (clkRate ns : UInt32) : UInt32 :=
  let div := divRoundUp (clkRate * ns) (8 * 1000000)
  if div < 1 then 2 else div

/-- The locals before the phases are set. -/
structure I2cMins where
  clkRate : UInt32
  speed : UInt32
  minTotalDiv : UInt32
  minHighNs : UInt32
  minHighDiv : UInt32
  minLowNs : UInt32
  minLowDiv : UInt32

def i2cMins (spec : I2cSpecValues) (target clkRate : UInt32) : I2cMins :=
  let clkRate := divRoundUp clkRate 1000
  let speed := divRoundUp target 1000
  let minHighNs := spec.maxRiseNs + spec.minHighNs
  let minLowNs := spec.maxFallNs + spec.minLowNs
  { clkRate := clkRate
    speed := speed
    minTotalDiv := divRoundUp clkRate (speed * 8)
    minHighNs := minHighNs
    minHighDiv := i2cMinDiv clkRate minHighNs
    minLowNs := minLowNs
    minLowDiv := i2cMinDiv clkRate minLowNs }

def I2cMins.minHoldDiv (m : I2cMins) : UInt32 := m.minHighDiv + m.minLowDiv
def I2cMins.extraDiv (m : I2cMins) : UInt32 := m.minTotalDiv - m.minHoldDiv

/-- `LowDiv` and `HighDiv`. -/
def I2cMins.divs (m : I2cMins) : UInt32 × UInt32 :=
  if m.minHoldDiv ≥ m.minTotalDiv then (m.minLowDiv, m.minHighDiv)
  else
    let extraLowDiv := divRoundUp (m.minLowDiv * m.extraDiv) m.minHoldDiv
    (m.minLowDiv + extraLowDiv, m.minHighDiv + (m.extraDiv - extraLowDiv))

/-- What the context keeps, and the clock divider register. -/
structure I2cRates where
  config : UInt32
  clkDiv : UInt32

def i2cConSdaCfg (cfg : UInt32) : UInt32 := cfg <<< 8
def i2cConStaCfg (cfg : UInt32) : UInt32 := cfg <<< 12

def i2cAdapterBaudRate (target clkRate : UInt32) (s : I2cRates) : EfiStatus × I2cRates :=
  match i2cSpeedClass target with
  | none => (efiInvalidParameter, s)
  | some (startSetup, speed) =>
    let divs := (i2cMins (i2cGetSpec speed) target clkRate).divs
    let highDiv := divs.2 - 1
    let lowDiv := divs.1 - 1
    if highDiv > 0xffff ∨ lowDiv > 0xffff then (efiUnsupported, s)
    else
      (efiSuccess, ⟨i2cConSdaCfg 1 ||| i2cConStaCfg startSetup, highDiv <<< 16 ||| lowDiv⟩)

/-- The products that the function computes. -/
def I2cMins.products (m : I2cMins) : List (UInt32 × UInt32) :=
  [(m.speed, 8), (m.clkRate, m.minHighNs), (m.clkRate, m.minLowNs)] ++
    if m.minHoldDiv ≥ m.minTotalDiv then [] else [(m.minLowDiv, m.extraDiv)]

/-! What it is for. -/

/-- The phases that are programmed, in periods of eight clocks. -/
def I2cRates.low (r : I2cRates) : ℕ := (r.clkDiv &&& 0xffff).toNat + 1
def I2cRates.high (r : I2cRates) : ℕ := (r.clkDiv >>> 16).toNat + 1

/-- No product overflows, the phases are long enough, and SCL is no faster than the target. -/
structure I2cRateSound (spec : I2cSpecValues) (target clkRate : UInt32) (r : I2cRates) : Prop where
  products : ∀ p ∈ (i2cMins spec target clkRate).products, p.1.toNat * p.2.toNat < 2 ^ 32
  low : spec.minLowNs.toNat * clkRate.toNat ≤ 8 * r.low * 10 ^ 9
  high : spec.minHighNs.toNat * clkRate.toNat ≤ 8 * r.high * 10 ^ 9
  rate : clkRate.toNat ≤ 8 * target.toNat * (r.low + r.high)

/-- The low phase with the fall before it, and the high one with the rise. -/
def I2cSpecValues.lowNs (spec : I2cSpecValues) : ℕ := spec.maxFallNs.toNat + spec.minLowNs.toNat
def I2cSpecValues.highNs (spec : I2cSpecValues) : ℕ := spec.maxRiseNs.toNat + spec.minHighNs.toNat

/-- The clock and the least low phase fit in 32 bits, and SCL is slow enough though the target was
rounded up: because the rounded one needs as many periods, or because the phases do. -/
structure I2cRateFits (spec : I2cSpecValues) (target clkRate : ℕ) : Prop where
  clock : clkRate + 999 < 2 ^ 32
  low : (clkRate ⌈/⌉ 1000) * spec.lowNs < 2 ^ 32
  rounded : spec ≠ standardModeSpec → (clkRate ⌈/⌉ 1000) * spec.lowNs + 7999999 < 2 ^ 32
  rate : clkRate ≤ 8 * target * ((clkRate ⌈/⌉ 1000) ⌈/⌉ (8 * (target ⌈/⌉ 1000))) ∨
    (clkRate ⌈/⌉ 1000) * spec.lowNs + 7999999 < 2 ^ 32 ∧
      clkRate ≤ 8 * target * ((clkRate ⌈/⌉ 1000 * spec.lowNs) ⌈/⌉ 8000000 +
        (clkRate ⌈/⌉ 1000 * spec.highNs) ⌈/⌉ 8000000)

/-! Rounding up. -/

section Rounding

variable {x y : UInt32} {a b c d n : ℕ}

theorem divRoundUp_toNat (hy : 0 < y.toNat) :
    (divRoundUp x y).toNat = (x.toNat + y.toNat - 1) % 2 ^ 32 / y.toNat := by
  rw [divRoundUp, UInt32.toNat_div, UInt32.toNat_sub, UInt32.toNat_add]
  congr 1
  change (2 ^ 32 - 1 + (x.toNat + y.toNat) % 2 ^ 32) % 2 ^ 32 = _
  omega

theorem divRoundUp_of_lt (hy : 0 < y.toNat) (h : x.toNat + y.toNat - 1 < 2 ^ 32) :
    (divRoundUp x y).toNat = x.toNat ⌈/⌉ y.toNat := by
  rw [divRoundUp_toNat hy, Nat.mod_eq_of_lt h, Nat.ceilDiv_eq_add_pred_div]

theorem le_mul_ceilDiv (hd : 0 < d) : n ≤ d * (n ⌈/⌉ d) := (ceilDiv_le_iff_le_mul hd).1 le_rfl

theorem mul_ceilDiv_lt (hd : 0 < d) : d * (n ⌈/⌉ d) < n + d := by
  rw [Nat.ceilDiv_eq_add_pred_div]
  have := Nat.mul_div_le (n + d - 1) d
  omega

/-- The least divider of a phase, with what rounding up adds wrapped too. -/
theorem i2cMinDiv_toNat (h : x.toNat * y.toNat < 2 ^ 32) :
    (i2cMinDiv x y).toNat =
      if (x.toNat * y.toNat + 7999999) % 2 ^ 32 < 8000000 then 2
      else (x.toNat * y.toNat + 7999999) % 2 ^ 32 / 8000000 := by
  have h8 : (8 * 1000000 : UInt32).toNat = 8000000 := by decide
  have hdiv : (divRoundUp (x * y) (8 * 1000000)).toNat =
      (x.toNat * y.toNat + 7999999) % 2 ^ 32 / 8000000 := by
    rw [divRoundUp_toNat (by decide), UInt32.toNat_mul, Nat.mod_eq_of_lt h, h8,
      Nat.add_sub_assoc (by omega)]
  have hone : divRoundUp (x * y) (8 * 1000000) < 1 ↔
      (x.toNat * y.toNat + 7999999) % 2 ^ 32 / 8000000 < 1 := by
    rw [UInt32.lt_iff_toNat_lt, hdiv, UInt32.toNat_one]
  unfold i2cMinDiv
  by_cases hlt : (x.toNat * y.toNat + 7999999) % 2 ^ 32 < 8000000
  · rw [if_pos hlt, if_pos (hone.2 (by omega))]
    rfl
  · rw [if_neg hlt, if_neg (mt hone.1 (by omega)), hdiv]

theorem i2cMinDiv_of_lt (h : x.toNat * y.toNat + 7999999 < 2 ^ 32) :
    (i2cMinDiv x y).toNat =
      if x.toNat * y.toNat = 0 then 2 else (x.toNat * y.toNat) ⌈/⌉ 8000000 := by
  rw [i2cMinDiv_toNat (by omega), Nat.mod_eq_of_lt h, Nat.ceilDiv_eq_add_pred_div,
    Nat.add_sub_assoc (show 1 ≤ 8000000 by omega)]
  by_cases h0 : x.toNat * y.toNat = 0
  · rw [if_pos h0, if_pos (by omega)]
  · rw [if_neg h0, if_neg (by omega)]

/-- What is left of a period is handed out between its phases. -/
theorem divs_toNat {m : I2cMins} (ha : m.minLowDiv.toNat = a) (hb : m.minHighDiv.toNat = b)
    (hd : m.minTotalDiv.toNat = d) (hpos : 0 < a + b) (hsum : a + b < 2 ^ 32)
    (hprod : a * d + (a + b) ≤ 2 ^ 32) :
    m.divs.1.toNat = a + (a * (d - (a + b))) ⌈/⌉ (a + b) ∧
      m.divs.1.toNat + m.divs.2.toNat = max d (a + b) ∧ b ≤ m.divs.2.toNat := by
  have hhold : m.minHoldDiv.toNat = a + b := by
    rw [I2cMins.minHoldDiv, UInt32.toNat_add, ha, hb, Nat.mod_eq_of_lt (by omega), Nat.add_comm]
  have hd32 := m.minTotalDiv.toNat_lt
  rw [I2cMins.divs]
  split_ifs with hle
  · have hle' := UInt32.le_iff_toNat_le.1 hle
    rw [hhold, hd] at hle'
    dsimp only
    rw [ha, hb, Nat.sub_eq_zero_of_le hle', Nat.mul_zero, zero_ceilDiv]
    exact ⟨rfl, by omega, le_rfl⟩
  · have hlt : a + b < d := by
      rw [← hhold, ← hd]
      exact Nat.not_le.1 fun h => hle (UInt32.le_iff_toNat_le.2 h)
    have hextra : m.extraDiv.toNat = d - (a + b) := by
      rw [I2cMins.extraDiv, UInt32.toNat_sub_of_le _ _ (UInt32.le_iff_toNat_le.2 (by omega)), hd,
        hhold]
    have hle' : a * (d - (a + b)) ≤ a * d := Nat.mul_le_mul_left a (Nat.sub_le _ _)
    have hmul : (m.minLowDiv * m.extraDiv).toNat = a * (d - (a + b)) := by
      rw [UInt32.toNat_mul, ha, hextra, Nat.mod_eq_of_lt (by omega)]
    have hq : (divRoundUp (m.minLowDiv * m.extraDiv) m.minHoldDiv).toNat =
        (a * (d - (a + b))) ⌈/⌉ (a + b) := by
      rw [divRoundUp_of_lt (by omega) (by omega), hmul, hhold]
    have hqle : (a * (d - (a + b))) ⌈/⌉ (a + b) ≤ d - (a + b) :=
      (ceilDiv_le_iff_le_mul hpos).2 (Nat.mul_le_mul_right _ (Nat.le_add_right a b))
    dsimp only
    generalize (a * (d - (a + b))) ⌈/⌉ (a + b) = q at hq hqle ⊢
    rw [UInt32.toNat_add, UInt32.toNat_add, UInt32.toNat_sub_of_le _ _
      (UInt32.le_iff_toNat_le.2 (by omega)), ha, hb, hq, hextra]
    omega

end Rounding

/-! The classes. -/

section Classes

variable {spec : I2cSpecValues} {target clkRate startSetup speed : UInt32} {s : I2cRates}

/-- The class a target is in. -/
def InClass (target : UInt32) (spec : I2cSpecValues) : Prop :=
  spec = standardModeSpec ∧ 1000 ≤ target.toNat ∧ target.toNat ≤ 100000 ∨
    spec = fastModeSpec ∧ 100000 < target.toNat ∧ target.toNat ≤ 400000 ∨
    spec = fastModePlusSpec ∧ 400000 < target.toNat ∧ target.toNat ≤ 1000000

theorem inClass_of_eq_some (h : i2cSpeedClass target = some (startSetup, speed)) :
    InClass target (i2cGetSpec speed) ∧
      i2cConSdaCfg 1 ||| i2cConStaCfg startSetup ∈ i2cConfigs := by
  have hle : ∀ n : UInt32, target ≤ n ↔ target.toNat ≤ n.toNat := fun _ => UInt32.le_iff_toNat_le
  have hge : ∀ n : UInt32, n ≤ target ↔ n.toNat ≤ target.toNat := fun _ => UInt32.le_iff_toNat_le
  have hgt : ∀ n : UInt32, n < target ↔ n.toNat < target.toNat := fun _ => UInt32.lt_iff_toNat_lt
  have hnat : UInt32.toNat 1000 = 1000 ∧ UInt32.toNat 100000 = 100000 ∧
      UInt32.toNat 400000 = 400000 ∧ UInt32.toNat 1000000 = 1000000 := by decide
  obtain ⟨h1k, h100k, h400k, h1m⟩ := hnat
  rw [i2cSpeedClass] at h
  simp only [hle, hge, hgt, h1k, h100k, h400k, h1m] at h
  split_ifs at h with h100 h400 h1000
  · cases h
    exact ⟨.inl ⟨rfl, h100.2, h100.1⟩, by decide⟩
  · cases h
    exact ⟨.inr (.inl ⟨rfl, by omega, h400.1⟩), by decide⟩
  · cases h
    exact ⟨.inr (.inr ⟨rfl, h1000.2, h1000.1⟩), by decide⟩

/-- What the classes have in common. -/
theorem InClass.bounds (h : InClass target spec) :
    1000 ≤ target.toNat ∧ target.toNat ≤ 1000000 ∧ spec.highNs ≤ spec.lowNs ∧
      spec.lowNs ≤ 5000 ∧ 1 ≤ spec.highNs ∧ spec.minLowNs.toNat ≤ spec.lowNs ∧
      spec.minHighNs.toNat ≤ spec.highNs ∧ 500 ≤ spec.minLowNs.toNat ∧
      (spec.maxFallNs + spec.minLowNs).toNat = spec.lowNs ∧
      (spec.maxRiseNs + spec.minHighNs).toNat = spec.highNs := by
  rcases h with ⟨rfl, h⟩ | ⟨rfl, h⟩ | ⟨rfl, h⟩
  all_goals
    refine ⟨by omega, by omega, ?_⟩
    decide

/-- The register holds what was accepted. -/
theorem i2cAdapterBaudRate_accepted (hclass : i2cSpeedClass target = some (startSetup, speed))
    (h : (i2cAdapterBaudRate target clkRate s).1 = efiSuccess) :
    (i2cAdapterBaudRate target clkRate s).2.low =
        (i2cMins (i2cGetSpec speed) target clkRate).divs.1.toNat ∧
      (i2cAdapterBaudRate target clkRate s).2.high =
        (i2cMins (i2cGetSpec speed) target clkRate).divs.2.toNat := by
  rw [i2cAdapterBaudRate, hclass] at h ⊢
  dsimp only at h ⊢
  generalize (i2cMins (i2cGetSpec speed) target clkRate).divs = divs at h ⊢
  split_ifs at h ⊢ with hbig
  · cases h
  · have hhigh : (divs.2 - 1).toNat ≤ 65535 := by
      refine Nat.not_lt.1 fun hlt => hbig (.inl ?_)
      exact UInt32.lt_iff_toNat_lt.2 hlt
    have hlow : (divs.1 - 1).toNat ≤ 65535 := by
      refine Nat.not_lt.1 fun hlt => hbig (.inr ?_)
      exact UInt32.lt_iff_toNat_lt.2 hlt
    have hpos : ∀ x : UInt32, (x - 1).toNat ≤ 65535 → (x - 1).toNat + 1 = x.toNat := fun x hx => by
      have := x.toNat_lt
      rw [UInt32.toNat_sub] at hx ⊢
      change (2 ^ 32 - 1 + x.toNat) % 2 ^ 32 ≤ 65535 at hx
      change (2 ^ 32 - 1 + x.toNat) % 2 ^ 32 + 1 = _
      omega
    have hreg : ((divs.2 - 1) <<< 16 ||| (divs.1 - 1)).toNat =
        (divs.2 - 1).toNat * 65536 + (divs.1 - 1).toNat := by
      rw [UInt32.toNat_or, UInt32.toNat_shiftLeft]
      change ((divs.2 - 1).toNat <<< 16 % 2 ^ 32) ||| _ = _
      rw [Nat.mod_eq_of_lt (by rw [Nat.shiftLeft_eq]; omega),
        ← Nat.shiftLeft_add_eq_or_of_lt (by omega), Nat.shiftLeft_eq]
    constructor
    · rw [I2cRates.low, ← hpos _ hlow, UInt32.toNat_and, hreg]
      change (_ &&& (2 ^ 16 - 1)) + 1 = _
      rw [Nat.and_two_pow_sub_one_eq_mod]
      omega
    · rw [I2cRates.high, ← hpos _ hhigh, UInt32.toNat_shiftRight, hreg]
      change _ >>> 16 + 1 = _
      rw [Nat.shiftRight_eq_div_pow]
      omega

/-- The clock and the target in kHz, and the periods of eight clocks in one at the target. -/
theorem i2cMins_toNat (h : InClass target spec) (hclk : clkRate.toNat + 999 < 2 ^ 32) :
    (i2cMins spec target clkRate).clkRate.toNat = clkRate.toNat ⌈/⌉ 1000 ∧
      (i2cMins spec target clkRate).speed.toNat = target.toNat ⌈/⌉ 1000 ∧
      (i2cMins spec target clkRate).minTotalDiv.toNat =
        (clkRate.toNat ⌈/⌉ 1000) ⌈/⌉ (8 * (target.toNat ⌈/⌉ 1000)) := by
  obtain ⟨hmin, hmax, -⟩ := h.bounds
  have h1000 : UInt32.toNat 1000 = 1000 := rfl
  have hclk' : (divRoundUp clkRate 1000).toNat = clkRate.toNat ⌈/⌉ 1000 := by
    rw [divRoundUp_of_lt (by omega) (by omega), h1000]
  have hspeed : (divRoundUp target 1000).toNat = target.toNat ⌈/⌉ 1000 := by
    rw [divRoundUp_of_lt (by omega) (by omega), h1000]
  have hk := @mul_ceilDiv_lt 1000 clkRate.toNat (by omega)
  have hs := @mul_ceilDiv_lt 1000 target.toNat (by omega)
  have hs' := @le_mul_ceilDiv 1000 target.toNat (by omega)
  have hspeed8 : (divRoundUp target 1000 * 8).toNat = 8 * (target.toNat ⌈/⌉ 1000) := by
    rw [UInt32.toNat_mul, hspeed, show UInt32.toNat 8 = 8 from rfl, Nat.mod_eq_of_lt (by omega),
      Nat.mul_comm]
  refine ⟨hclk', hspeed, ?_⟩
  change (divRoundUp (divRoundUp clkRate 1000) (divRoundUp target 1000 * 8)).toNat = _
  rw [divRoundUp_of_lt (by omega) (by omega), hclk', hspeed8]

/-- With a clock that wraps, both phases get the least there is, two periods. -/
theorem divs_of_wrap (h : InClass target spec) (hclk : ¬ clkRate.toNat + 999 < 2 ^ 32) :
    (i2cMins spec target clkRate).divs.1.toNat = 2 := by
  obtain ⟨hmin, hmax, -⟩ := h.bounds
  have hlt := clkRate.toNat_lt
  have h1000 : UInt32.toNat 1000 = 1000 := rfl
  have hzero : divRoundUp clkRate 1000 = 0 := by
    refine UInt32.toNat_inj.1 ?_
    rw [divRoundUp_toNat (by decide), h1000, UInt32.toNat_zero]
    omega
  have hspeed : 0 < (divRoundUp target 1000 * 8).toNat := by
    have hs' := @le_mul_ceilDiv 1000 target.toNat (by omega)
    have hs := @mul_ceilDiv_lt 1000 target.toNat (by omega)
    rw [UInt32.toNat_mul, divRoundUp_of_lt (by omega) (by omega), h1000,
      show UInt32.toNat 8 = 8 from rfl, Nat.mod_eq_of_lt (by omega)]
    omega
  have hspeedlt := (divRoundUp target 1000 * 8).toNat_lt
  have htotal : (i2cMins spec target clkRate).minTotalDiv.toNat = 0 := by
    change (divRoundUp (divRoundUp clkRate 1000) (divRoundUp target 1000 * 8)).toNat = _
    rw [hzero, divRoundUp_of_lt hspeed (by rw [UInt32.toNat_zero]; omega), UInt32.toNat_zero,
      zero_ceilDiv]
  have hmin : ∀ ns, (i2cMinDiv (divRoundUp clkRate 1000) ns).toNat = 2 := fun ns => by
    rw [hzero, i2cMinDiv_of_lt (by rw [UInt32.toNat_zero]; omega), UInt32.toNat_zero, Nat.zero_mul,
      if_pos rfl]
  exact (divs_toNat (hmin _) (hmin _) htotal (by omega) (by omega) (by omega)).1

/-- Of the products only those of the clock can overflow, and the one for the low phase first. -/
theorem products_fit_iff (h : InClass target spec) (hclk : clkRate.toNat + 999 < 2 ^ 32) :
    (∀ p ∈ (i2cMins spec target clkRate).products, p.1.toNat * p.2.toNat < 2 ^ 32) ↔
      (clkRate.toNat ⌈/⌉ 1000) * spec.lowNs < 2 ^ 32 := by
  obtain ⟨hmin, hmax, hHL, hL, -, -, -, -, hlow, hhigh⟩ := h.bounds
  obtain ⟨hkhz, hspeed, htotal⟩ := i2cMins_toNat h hclk
  have hk := @mul_ceilDiv_lt 1000 clkRate.toNat (by omega)
  have hs := @mul_ceilDiv_lt 1000 target.toNat (by omega)
  have hs' := @le_mul_ceilDiv 1000 target.toNat (by omega)
  constructor
  · intro hfit
    have := hfit ((i2cMins spec target clkRate).clkRate, (i2cMins spec target clkRate).minLowNs)
      (List.mem_append_left _ (by simp))
    rw [hkhz] at this
    rwa [← hlow]
  · intro hfit p hp
    have hfit' := (Nat.mul_le_mul_left (clkRate.toNat ⌈/⌉ 1000) hHL).trans_lt hfit
    rcases List.mem_append.1 hp with hp | hp
    · simp only [List.mem_cons, List.not_mem_nil, or_false] at hp
      rcases hp with rfl | rfl | rfl
      · dsimp only
        rw [hspeed]
        change _ * 8 < _
        omega
      · dsimp only
        rw [hkhz]
        exact hhigh ▸ hfit'
      · dsimp only
        rw [hkhz]
        exact hlow ▸ hfit
    · split_ifs at hp with hhold
      · cases hp
      · rw [List.mem_singleton.1 hp]
        -- a low phase of at most 536 periods, of at most 536872
        have hextra : (i2cMins spec target clkRate).extraDiv.toNat ≤ 536872 := by
          refine le_trans (b := (i2cMins spec target clkRate).minTotalDiv.toNat) ?_ ?_
          · rw [I2cMins.extraDiv, UInt32.toNat_sub_of_le _ _ (UInt32.le_of_lt (UInt32.not_le.1 hhold))]
            exact Nat.sub_le _ _
          · rw [htotal]
            refine (ceilDiv_le_iff_le_mul (by omega)).2 ?_
            have : 8 * 536872 ≤ 8 * (target.toNat ⌈/⌉ 1000) * 536872 :=
              Nat.mul_le_mul_right _ (by omega)
            omega
        have hdiv : (i2cMins spec target clkRate).minLowDiv.toNat ≤ 536 := by
          have hprod : (i2cMins spec target clkRate).clkRate.toNat *
              (i2cMins spec target clkRate).minLowNs.toNat < 2 ^ 32 := by
            rw [hkhz]
            exact hlow ▸ hfit
          refine (i2cMinDiv_toNat hprod).trans_le ?_
          split_ifs <;> omega
        exact (Nat.mul_le_mul hdiv hextra).trans_lt (by decide)

theorem phase_long {n ns khz clk a x : ℕ} (hclk : clk ≤ 1000 * khz) (hn : n ≤ ns)
    (ha : khz * ns ≤ 8000000 * a) (hx : a ≤ x) : n * clk ≤ 8 * x * 10 ^ 9 :=
  calc n * clk ≤ ns * (1000 * khz) := Nat.mul_le_mul hn hclk
    _ = 1000 * (khz * ns) := by rw [Nat.mul_left_comm, Nat.mul_comm ns]
    _ ≤ 1000 * (8000000 * a) := Nat.mul_le_mul_left _ ha
    _ ≤ 8 * x * 10 ^ 9 := by omega

theorem le_mul_max {n t a b : ℕ} : n ≤ t * max a b ↔ n ≤ t * a ∨ n ≤ t * b := by
  rcases Nat.le_total a b with hle | hle
  · rw [max_eq_right hle]
    exact ⟨.inr, fun h => h.elim (fun h => h.trans (Nat.mul_le_mul_left _ hle)) id⟩
  · rw [max_eq_left hle]
    exact ⟨.inl, fun h => h.elim id fun h => h.trans (Nat.mul_le_mul_left _ hle)⟩

/-- Where nothing wraps the phases are long enough, and SCL is as slow as the target rounded up and
the phases make it. -/
theorem divs_of_fit (h : InClass target spec) (hclk : clkRate.toNat + 999 < 2 ^ 32)
    (hfit : (clkRate.toNat ⌈/⌉ 1000) * spec.lowNs + 7999999 < 2 ^ 32) :
    spec.minLowNs.toNat * clkRate.toNat ≤
        8 * (i2cMins spec target clkRate).divs.1.toNat * 10 ^ 9 ∧
      spec.minHighNs.toNat * clkRate.toNat ≤
        8 * (i2cMins spec target clkRate).divs.2.toNat * 10 ^ 9 ∧
      (clkRate.toNat ≤ 8 * target.toNat * ((i2cMins spec target clkRate).divs.1.toNat +
          (i2cMins spec target clkRate).divs.2.toNat) ↔
        clkRate.toNat ≤ 8 * target.toNat *
          ((clkRate.toNat ⌈/⌉ 1000) ⌈/⌉ (8 * (target.toNat ⌈/⌉ 1000))) ∨
        clkRate.toNat ≤ 8 * target.toNat *
          ((clkRate.toNat ⌈/⌉ 1000 * spec.lowNs) ⌈/⌉ 8000000 +
            (clkRate.toNat ⌈/⌉ 1000 * spec.highNs) ⌈/⌉ 8000000)) := by
  obtain ⟨hmin, hmax, hHL, hL, hH, hnL, hnH, -, hlow, hhigh⟩ := h.bounds
  obtain ⟨hkhz, hspeed, htotal⟩ := i2cMins_toNat h hclk
  have hk := @mul_ceilDiv_lt 1000 clkRate.toNat (by omega)
  have hk' := @le_mul_ceilDiv 1000 clkRate.toNat (by omega)
  have hs' := @le_mul_ceilDiv 1000 target.toNat (by omega)
  have hfit' : (clkRate.toNat ⌈/⌉ 1000) * spec.highNs + 7999999 < 2 ^ 32 :=
    (Nat.add_le_add_right (Nat.mul_le_mul_left _ hHL) _).trans_lt hfit
  have ha : (i2cMins spec target clkRate).minLowDiv.toNat =
      if clkRate.toNat ⌈/⌉ 1000 * spec.lowNs = 0 then 2
      else (clkRate.toNat ⌈/⌉ 1000 * spec.lowNs) ⌈/⌉ 8000000 := by
    have := @i2cMinDiv_of_lt (divRoundUp clkRate 1000) (spec.maxFallNs + spec.minLowNs)
    rw [hlow, show (divRoundUp clkRate 1000).toNat = _ from hkhz] at this
    exact this hfit
  have hb : (i2cMins spec target clkRate).minHighDiv.toNat =
      if clkRate.toNat ⌈/⌉ 1000 * spec.highNs = 0 then 2
      else (clkRate.toNat ⌈/⌉ 1000 * spec.highNs) ⌈/⌉ 8000000 := by
    have := @i2cMinDiv_of_lt (divRoundUp clkRate 1000) (spec.maxRiseNs + spec.minHighNs)
    rw [hhigh, show (divRoundUp clkRate 1000).toNat = _ from hkhz] at this
    exact this hfit'
  generalize hκ : clkRate.toNat ⌈/⌉ 1000 = κ at *
  have hA := @le_mul_ceilDiv 8000000 (κ * spec.lowNs) (by omega)
  have hB := @le_mul_ceilDiv 8000000 (κ * spec.highNs) (by omega)
  have hA' := @mul_ceilDiv_lt 8000000 (κ * spec.lowNs) (by omega)
  have hB' := @mul_ceilDiv_lt 8000000 (κ * spec.highNs) (by omega)
  have ht : κ ⌈/⌉ (8 * (target.toNat ⌈/⌉ 1000)) ≤ 536872 := by
    refine (ceilDiv_le_iff_le_mul (by omega)).2 ?_
    have : 8 * 536872 ≤ 8 * (target.toNat ⌈/⌉ 1000) * 536872 := Nat.mul_le_mul_right _ (by omega)
    omega
  generalize (κ * spec.lowNs) ⌈/⌉ 8000000 = A at *
  generalize (κ * spec.highNs) ⌈/⌉ 8000000 = B at *
  generalize κ ⌈/⌉ (8 * (target.toNat ⌈/⌉ 1000)) = T at *
  rcases Nat.eq_zero_or_pos κ with h0 | hpos
  · have hzero : clkRate.toNat = 0 := by omega
    rw [hzero, Nat.mul_zero, Nat.mul_zero]
    exact ⟨Nat.zero_le _, Nat.zero_le _, iff_of_true (Nat.zero_le _) (.inl (Nat.zero_le _))⟩
  · have hprod : A * T + (A + B) ≤ 2 ^ 32 := by
      have : A * T ≤ 537 * 536872 := Nat.mul_le_mul (by omega) ht
      omega
    have hposH : 0 < κ * spec.highNs := Nat.mul_pos hpos hH
    have hposL : 0 < κ * spec.lowNs := Nat.mul_pos hpos (hH.trans hHL)
    rw [if_neg hposL.ne'] at ha
    rw [if_neg hposH.ne'] at hb
    obtain ⟨hlowDiv, hsum, hhighDiv⟩ := divs_toNat ha hb htotal (by omega) (by omega) hprod
    refine ⟨phase_long hk' hnL hA (hlowDiv ▸ Nat.le_add_right _ _),
      phase_long hk' hnH hB hhighDiv, ?_⟩
    rw [hsum]
    exact le_mul_max

theorem mod_of_gap {n : ℕ} (h : n < 2 ^ 32) (hgap : ¬ n + 7999999 < 2 ^ 32) :
    (n + 7999999) % 2 ^ 32 < 8000000 := by
  rw [Nat.mod_eq_sub_mod (Nat.not_lt.1 hgap), Nat.mod_eq_of_lt (by omega)]
  omega

/-- The clocks of the standard class whose least phases fit in 32 bits, but not with what rounding up
adds: both are taken to be two periods, and are long enough as halves of a period. -/
theorem divs_of_standard_gap (h : InClass target standardModeSpec)
    (hclk : clkRate.toNat + 999 < 2 ^ 32) (hlow : (clkRate.toNat ⌈/⌉ 1000) * 5000 < 2 ^ 32)
    (hgap : ¬ (clkRate.toNat ⌈/⌉ 1000) * 5000 + 7999999 < 2 ^ 32) :
    4700 * clkRate.toNat ≤
        8 * (i2cMins standardModeSpec target clkRate).divs.1.toNat * 10 ^ 9 ∧
      4000 * clkRate.toNat ≤
        8 * (i2cMins standardModeSpec target clkRate).divs.2.toNat * 10 ^ 9 ∧
      (i2cMins standardModeSpec target clkRate).divs.1.toNat +
          (i2cMins standardModeSpec target clkRate).divs.2.toNat =
        (clkRate.toNat ⌈/⌉ 1000) ⌈/⌉ (8 * (target.toNat ⌈/⌉ 1000)) := by
  obtain ⟨hkhz, hspeed, htotal⟩ := i2cMins_toNat h hclk
  have htarget : 1000 ≤ target.toNat ∧ target.toNat ≤ 100000 := by
    rcases h with ⟨-, h⟩ | ⟨heq, -⟩ | ⟨heq, -⟩
    · exact h
    · exact absurd heq (by decide)
    · exact absurd heq (by decide)
  have hk' := @le_mul_ceilDiv 1000 clkRate.toNat (by omega)
  have hs := @mul_ceilDiv_lt 1000 target.toNat (by omega)
  have hs' := @le_mul_ceilDiv 1000 target.toNat (by omega)
  have hmin : ∀ ns : UInt32, ns.toNat = 5000 →
      (i2cMinDiv (divRoundUp clkRate 1000) ns).toNat = 2 := fun ns hns => by
    have hprod : (divRoundUp clkRate 1000).toNat * ns.toNat = clkRate.toNat ⌈/⌉ 1000 * 5000 := by
      rw [hns, show (divRoundUp clkRate 1000).toNat = _ from hkhz]
    rw [i2cMinDiv_toNat (hprod.trans_lt hlow), hprod, if_pos (mod_of_gap hlow hgap)]
  generalize clkRate.toNat ⌈/⌉ 1000 = κ at *
  generalize target.toNat ⌈/⌉ 1000 = t at *
  have hT := @le_mul_ceilDiv (8 * t) κ (by omega)
  have hT' : κ ⌈/⌉ (8 * t) ≤ κ := (ceilDiv_le_iff_le_mul (by omega)).2 (Nat.le_mul_of_pos_left _ (by omega))
  generalize κ ⌈/⌉ (8 * t) = T at *
  have h800 : κ ≤ 800 * T := hT.trans (Nat.mul_le_mul_right _ (by omega))
  obtain ⟨hlowDiv, hsum, -⟩ := divs_toNat (hmin _ rfl) (hmin _ rfl) htotal (by omega) (by omega)
    (by omega)
  have hq := @mul_ceilDiv_lt 4 (2 * (T - 4)) (by omega)
  have hq' := @le_mul_ceilDiv 4 (2 * (T - 4)) (by omega)
  change _ = 2 + (2 * (T - 4)) ⌈/⌉ 4 at hlowDiv
  refine ⟨?_, ?_, ?_⟩ <;> omega

/-- In the fast class the low phase of such a clock is too short. -/
theorem divs_of_fast_gap (h : InClass target fastModeSpec)
    (hclk : clkRate.toNat + 999 < 2 ^ 32) (hlow : (clkRate.toNat ⌈/⌉ 1000) * 1600 < 2 ^ 32)
    (hgap : ¬ (clkRate.toNat ⌈/⌉ 1000) * 1600 + 7999999 < 2 ^ 32) :
    ¬ 1300 * clkRate.toNat ≤
      8 * (i2cMins fastModeSpec target clkRate).divs.1.toNat * 10 ^ 9 := by
  obtain ⟨hkhz, hspeed, htotal⟩ := i2cMins_toNat h hclk
  have htarget : 100000 < target.toNat ∧ target.toNat ≤ 400000 := by
    rcases h with ⟨heq, -⟩ | ⟨-, h⟩ | ⟨heq, -⟩
    · exact absurd heq (by decide)
    · exact h
    · exact absurd heq (by decide)
  have hk := @mul_ceilDiv_lt 1000 clkRate.toNat (by omega)
  have hs' := @le_mul_ceilDiv 1000 target.toNat (by omega)
  have ha : (i2cMins fastModeSpec target clkRate).minLowDiv.toNat = 2 := by
    have hprod : (divRoundUp clkRate 1000).toNat *
        (fastModeSpec.maxFallNs + fastModeSpec.minLowNs).toNat = clkRate.toNat ⌈/⌉ 1000 * 1600 := by
      rw [show (divRoundUp clkRate 1000).toNat = _ from hkhz]
      rfl
    have hmin := @i2cMinDiv_toNat (divRoundUp clkRate 1000)
      (fastModeSpec.maxFallNs + fastModeSpec.minLowNs)
    rw [hprod, if_pos (mod_of_gap hlow hgap)] at hmin
    exact hmin hlow
  have hb : (i2cMins fastModeSpec target clkRate).minHighDiv.toNat =
      (clkRate.toNat ⌈/⌉ 1000 * 900) ⌈/⌉ 8000000 := by
    have hfit : clkRate.toNat ⌈/⌉ 1000 * 900 + 7999999 < 2 ^ 32 := by
      have hle : clkRate.toNat ⌈/⌉ 1000 ≤ 2684354 := by omega
      exact (Nat.add_le_add_right (Nat.mul_le_mul_right 900 hle) _).trans_lt (by decide)
    have hprod : (divRoundUp clkRate 1000).toNat *
        (fastModeSpec.maxRiseNs + fastModeSpec.minHighNs).toNat = clkRate.toNat ⌈/⌉ 1000 * 900 := by
      rw [show (divRoundUp clkRate 1000).toNat = _ from hkhz]
      rfl
    have hmin := @i2cMinDiv_of_lt (divRoundUp clkRate 1000)
      (fastModeSpec.maxRiseNs + fastModeSpec.minHighNs)
    rw [hprod, if_neg (by omega)] at hmin
    exact hmin hfit
  generalize clkRate.toNat ⌈/⌉ 1000 = κ at *
  generalize target.toNat ⌈/⌉ 1000 = t at *
  have hT : κ ⌈/⌉ (8 * t) ≤ 3330 := by
    refine (ceilDiv_le_iff_le_mul (by omega)).2 ?_
    have : 808 * 3330 ≤ 8 * t * 3330 := Nat.mul_le_mul_right _ (by omega)
    omega
  have hB := @le_mul_ceilDiv 8000000 (κ * 900) (by omega)
  have hB' := @mul_ceilDiv_lt 8000000 (κ * 900) (by omega)
  generalize κ ⌈/⌉ (8 * t) = T at *
  generalize (κ * 900) ⌈/⌉ 8000000 = B at *
  obtain ⟨hlowDiv, -, -⟩ := divs_toNat ha hb htotal (by omega) (by omega) (by omega)
  have hq : (2 * (T - (2 + B))) ⌈/⌉ (2 + B) ≤ 30 := by
    refine (ceilDiv_le_iff_le_mul (by omega)).2 ?_
    omega
  rw [hlowDiv]
  omega

/-- The divider is sound where it fits, and nowhere else. -/
theorem i2cRateSound_iff {r : I2cRates} (h : InClass target spec)
    (hlow : r.low = (i2cMins spec target clkRate).divs.1.toNat)
    (hhigh : r.high = (i2cMins spec target clkRate).divs.2.toNat) :
    I2cRateSound spec target clkRate r ↔ I2cRateFits spec target.toNat clkRate.toNat := by
  obtain ⟨hmin, hmax, -, -, -, -, -, h500, -⟩ := h.bounds
  have hlt := clkRate.toNat_lt
  by_cases hclk : clkRate.toNat + 999 < 2 ^ 32
  · have hproducts := products_fit_iff h hclk
    by_cases hfit : (clkRate.toNat ⌈/⌉ 1000) * spec.lowNs + 7999999 < 2 ^ 32
    · obtain ⟨hl, hh, hrate⟩ := divs_of_fit h hclk hfit
      rw [← hlow, ← hhigh] at hrate
      rw [← hlow] at hl
      rw [← hhigh] at hh
      constructor
      · intro hsound
        refine ⟨hclk, by omega, fun _ => hfit, ?_⟩
        exact (hrate.1 hsound.rate).imp_right fun hle => ⟨hfit, hle⟩
      · intro hfits
        exact ⟨hproducts.2 hfits.low, hl, hh, hrate.2 (hfits.rate.imp_right And.right)⟩
    · have hstandard : (I2cRateSound spec target clkRate r → spec = standardModeSpec) := by
        intro hsound
        have hprod := hproducts.1 hsound.products
        have hk := @mul_ceilDiv_lt 1000 clkRate.toNat (by omega)
        rcases h.imp And.left (Or.imp And.left And.left) with rfl | rfl | rfl
        · rfl
        · have := hsound.low
          rw [hlow] at this
          exact absurd this (divs_of_fast_gap h hclk hprod hfit)
        · refine absurd ?_ hfit
          change clkRate.toNat ⌈/⌉ 1000 * 620 + 7999999 < 2 ^ 32
          omega
      constructor
      · intro hsound
        have hprod := hproducts.1 hsound.products
        obtain rfl := hstandard hsound
        refine ⟨hclk, hprod, fun hne => absurd rfl hne, .inl ?_⟩
        rw [← (divs_of_standard_gap h hclk hprod hfit).2.2, ← hlow, ← hhigh]
        exact hsound.rate
      · intro hfits
        obtain rfl : spec = standardModeSpec := by
          by_contra hne
          exact hfit (hfits.rounded hne)
        obtain ⟨hl, hh, hsum⟩ := divs_of_standard_gap h hclk hfits.low hfit
        rw [← hlow] at hl
        rw [← hhigh] at hh
        refine ⟨hproducts.2 hfits.low, hl, hh, ?_⟩
        rw [hlow, hhigh, hsum]
        exact hfits.rate.resolve_right fun hle => hfit hle.1
  · refine iff_of_false (fun hsound => ?_) fun hfits => hclk hfits.clock
    have hphase := hsound.low
    rw [hlow, divs_of_wrap h hclk] at hphase
    have : 500 * clkRate.toNat ≤ spec.minLowNs.toNat * clkRate.toNat := Nat.mul_le_mul_right _ h500
    omega

/-- A target in whole kHz loses nothing when it is rounded up. -/
theorem rate_of_dvd {target clk : ℕ} (hpos : 0 < target) (hdvd : 1000 ∣ target) :
    clk ≤ 8 * target * ((clk ⌈/⌉ 1000) ⌈/⌉ (8 * (target ⌈/⌉ 1000))) := by
  obtain ⟨khz, rfl⟩ := hdvd
  have hkhz : (1000 * khz) ⌈/⌉ 1000 = khz := by
    rw [Nat.ceilDiv_eq_add_pred_div]
    omega
  rw [hkhz]
  have hclk := @le_mul_ceilDiv 1000 clk (by omega)
  have hperiods := @le_mul_ceilDiv (8 * khz) (clk ⌈/⌉ 1000) (by omega)
  calc clk ≤ 1000 * (clk ⌈/⌉ 1000) := hclk
    _ ≤ 1000 * (8 * khz * ((clk ⌈/⌉ 1000) ⌈/⌉ (8 * khz))) := Nat.mul_le_mul_left _ hperiods
    _ = 8 * (1000 * khz) * ((clk ⌈/⌉ 1000) ⌈/⌉ (8 * khz)) := by
      rw [← Nat.mul_assoc, Nat.mul_left_comm 1000 8 khz]

end Classes

/-- An error changes nothing, and what is accepted is sound exactly when it fits. -/
theorem i2cAdapterBaudRate_iff (target clkRate : UInt32) (s : I2cRates) :
    ((i2cAdapterBaudRate target clkRate s).1 ≠ efiSuccess →
      (i2cAdapterBaudRate target clkRate s).2 = s) ∧
    ∀ startSetup speed, i2cSpeedClass target = some (startSetup, speed) →
      (i2cAdapterBaudRate target clkRate s).1 = efiSuccess →
        (I2cRateSound (i2cGetSpec speed) target clkRate (i2cAdapterBaudRate target clkRate s).2 ↔
          I2cRateFits (i2cGetSpec speed) target.toNat clkRate.toNat) := by
  constructor
  · intro h
    rw [i2cAdapterBaudRate] at h ⊢
    split at h
    · rfl
    · dsimp only at h ⊢
      split_ifs at h ⊢ with hbig
      · rfl
      · exact absurd rfl h
  · intro startSetup speed hclass h
    obtain ⟨hlow, hhigh⟩ := i2cAdapterBaudRate_accepted hclass h
    exact i2cRateSound_iff (inClass_of_eq_some hclass).1 hlow hhigh

/-- 100 kHz out of 200 MHz. -/
theorem i2cAdapterBaudRate_platform :
    I2cRateSound standardModeSpec 100000 200000000
      (i2cAdapterBaudRate 100000 200000000 ⟨0, 0⟩).2 :=
  ((i2cAdapterBaudRate_iff 100000 200000000 ⟨0, 0⟩).2 1 100 (by decide) (by decide)).2
    ⟨by decide, by decide, fun h => absurd rfl h, .inl (rate_of_dvd (by decide) (by decide))⟩

/-- A target of 1001 Hz is taken for one of 2 kHz. -/
theorem i2cAdapterBaudRate_too_fast :
    ¬ ∀ target clkRate s startSetup speed, i2cSpeedClass target = some (startSetup, speed) →
      (i2cAdapterBaudRate target clkRate s).1 = efiSuccess →
        I2cRateSound (i2cGetSpec speed) target clkRate
          (i2cAdapterBaudRate target clkRate s).2 := by
  intro h
  have hrate := (h 1001 200000000 ⟨0, 0⟩ 1 100 (by decide) (by decide)).rate
  exact absurd hrate (by decide)

end Edk2Rk3576
