import Edk2Rk3576.Efi
import Edk2Rk3576.Lib.CUInt
import Edk2Rk3576.Lib.PowerDivider
import Edk2Rk3576.Vop2.Model

/-!
# The clocks of a display

`Vop2CalcCruConfig` finds the rate that a port is clocked with and the dividers for its core, its
output and its interface. The rates are in kHz. It returns its errors in place of a rate.
-/

namespace Edk2Rk3576.Vop2

def connectorDisplayPort : UInt32 := 10
def connectorHdmiA : UInt32 := 11
def connectorEdp : UInt32 := 14
def connectorDsi : UInt32 := 16

def vop2MaxDclkRate : ℕ := 600000

/-- `MaxDclk` of `mVpDataRK3576`. -/
def maxDclk (crtcID : ℕ) : ℕ := if crtcID < 2 then 600000 else 200000

/-- What `Vop2CalcCruConfig` reads. -/
structure CruInputs where
  clock : UInt32
  connectorType : UInt32
  outputMode : UInt32
  outputFlags : UInt32
  dscEnable : Bool
  dscSliceNum : UInt8
  dscCdsClkRate : UInt64
  crtcID : Fin nrVps

namespace CruInputs

variable (x : CruInputs)

def vPixclk : ℕ := x.clock.toNat

/-- `ROCKCHIP_OUTPUT_DUAL_CHANNEL_LEFT_RIGHT_MODE`. -/
def dualChannel : Bool := decide (x.outputFlags &&& 1 ≠ 0)

def yuv420 : Bool := decide (x.outputMode = 14)

def k : ℕ := if x.dualChannel || x.yuv420 then 2 else 1

def dclkCoreRate : ℕ := x.vPixclk / 2

end CruInputs

def logCalculate (input : ℕ) : ℕ := if input = 0 then 0 else shiftsToZero 32 input - 1

/-- The products are of 32 bits; there is nothing when one wraps around. -/
def vop2CalcDclk (childClk maxDclk : ℕ) : Option ℕ :=
  (CUInt.mul 32 childClk 4).bind fun four =>
    if four ≤ maxDclk then some four
    else (CUInt.mul 32 childClk 2).map fun two =>
      if two ≤ maxDclk then two else if childClk ≤ maxDclk then childClk else 0

/-- A divider, the clock that is divided and the rate that the divider is computed for. -/
structure Divider where
  source : ℕ
  rate : ℕ
  quotient : ℕ
  deriving DecidableEq

def Divider.log (d : Divider) : ℕ := logCalculate d.quotient

/-- The quotient is kept in 32 bits. -/
def divider (source rate : ℕ) : Option Divider :=
  (CUInt.div source rate).map (⟨source, rate, · % 2 ^ 32⟩)

/-- The rate and the dividers that are computed for it. The others stay zero. -/
structure CruConfig where
  dclkRate : ℕ
  dclkCore : Option Divider
  dclkOut : Option Divider
  ifPixclk : Option Divider
  ifDclk : Option Divider
  deriving DecidableEq

/-- What is returned as a `UINT64`: a rate, or an error. -/
inductive CruResult
  | error (status : ℕ)
  | rate (config : CruConfig)
  deriving DecidableEq

def CruResult.value : CruResult → ℕ
  | .error status => status
  | .rate config => config.dclkRate

/-- `-RETURN_INVALID_PARAMETER`, and `-EINVAL` below. -/
def negInvalidParameter : ℕ := 2 ^ 64 - efiInvalidParameter

def negEinval : ℕ := 2 ^ 64 - 22

/-! The branches of the connectors. The limit is that of the first port. -/

section Branches

variable (x : CruInputs)

def hdmiConfig : Option CruResult :=
  let ifPixclkRate := x.dclkCoreRate * 2 / x.k
  let ifDclkRate := x.dclkCoreRate / x.k
  let dclkRate := if x.dualChannel || x.yuv420 then x.vPixclk / 2 else x.vPixclk
  (if vop2MaxDclkRate < x.vPixclk then vop2CalcDclk x.dclkCoreRate (maxDclk 0)
    else some dclkRate).bind fun dclkRate =>
      if dclkRate = 0 then some (.error negInvalidParameter)
      else
        (divider dclkRate ifPixclkRate).bind fun ifPixclk =>
          (divider dclkRate ifDclkRate).bind fun ifDclk =>
            (divider dclkRate x.dclkCoreRate).map fun dclkCore =>
              .rate ⟨dclkRate, some dclkCore, none, some ifPixclk, some ifDclk⟩

/-- `IfDclkDiv` is taken from `IfPixclkDiv`. -/
def edpConfig : Option CruResult :=
  let ifPixclkRate := x.vPixclk / x.k
  let ifDclkRate := x.vPixclk / x.k
  let dclkRate := ifPixclkRate * x.k
  (divider dclkRate x.dclkCoreRate).bind fun dclkCore =>
    (divider dclkRate ifPixclkRate).map fun ifPixclk =>
      .rate ⟨dclkRate, some dclkCore, none, some ifPixclk,
        some ⟨dclkRate, ifDclkRate, ifPixclk.quotient⟩⟩

def displayPortConfig : Option CruResult :=
  let dclkOutRate := x.vPixclk / 4 / x.k
  (vop2CalcDclk dclkOutRate (maxDclk 0)).bind fun dclkRate =>
    if dclkRate = 0 then some (.error efiInvalidParameter)
    else
      (divider dclkRate dclkOutRate).bind fun dclkOut =>
        (divider dclkRate x.dclkCoreRate).map fun dclkCore =>
          .rate ⟨dclkRate, some dclkCore, some dclkOut, none, none⟩

/-- The clock of the interface is divided from that of the output; with DSC its rate is in Hz. -/
def dsiConfig : Option CruResult :=
  let dclkOutRate := x.dclkCoreRate / x.k
  (vop2CalcDclk dclkOutRate (maxDclk 0)).bind fun dclkRate =>
    if dclkRate = 0 then some (.error negEinval)
    else
      (if x.dscEnable then CUInt.div dclkRate x.dscSliceNum.toNat else some dclkRate).bind
        fun dclkRate =>
          (divider dclkRate dclkOutRate).bind fun dclkOut =>
            (divider dclkRate x.dclkCoreRate).bind fun dclkCore =>
              (if x.dscEnable then divider (dclkOutRate * 1000) (x.dscCdsClkRate.toNat / 2)
                else some ⟨dclkOutRate, x.dclkCoreRate / x.k, 1⟩).map fun ifPixclk =>
                  .rate ⟨dclkRate, some dclkCore, some dclkOut, some ifPixclk, none⟩

def vop2CalcCruConfig : Option CruResult :=
  if x.dualChannel ∧ x.yuv420 then some (.error negInvalidParameter)
  else if x.connectorType = connectorHdmiA then hdmiConfig x
  else if x.connectorType = connectorEdp then edpConfig x
  else if x.connectorType = connectorDisplayPort then displayPortConfig x
  else if x.connectorType = connectorDsi then dsiConfig x
  else some (.rate ⟨x.vPixclk, none, none, none, none⟩)

/-- `Vop2IfConfig` narrows what it gets to a `UINT32`. -/
def vop2IfConfig (r : CruResult) : ℕ := r.value % 2 ^ 32

/-- The rates that `Vop2Init` hands to `Vop2DscEnable` and `Vop2SetClk`, in Hz. -/
def vop2InitRates (r : CruResult) : List ℕ :=
  let dclkRate := vop2IfConfig r
  (if x.dscEnable then
    if x.dualChannel then [dclkRate * 1000, dclkRate * 1000] else [dclkRate * 1000]
  else []) ++ [dclkRate * 1000]

end Branches

/-! ### What a configuration should be -/

/-- Dividing gives back the rate. -/
def Divider.Ok (d : Divider) : Prop := d.source / 2 ^ d.log = d.rate

structure CruConfig.Ok (c : CruConfig) (limit : ℕ) : Prop where
  le_limit : c.dclkRate ≤ limit
  core : ∀ d ∈ c.dclkCore, d.Ok
  out : ∀ d ∈ c.dclkOut, d.Ok
  pixclk : ∀ d ∈ c.ifPixclk, d.Ok
  dclk : ∀ d ∈ c.ifDclk, d.Ok

/-- A rate is right, and nothing is programmed for an error. -/
def ResultOk (x : CruInputs) : CruResult → Prop
  | .error e => vop2InitRates x (.error e) = []
  | .rate c => c.Ok (maxDclk x.crtcID)

/-- Nothing is divided by zero, nothing wraps around, and the result is right. -/
def CruConfigOk (x : CruInputs) : Prop := ∃ r ∈ vop2CalcCruConfig x, ResultOk x r

/-! ### The condition -/

/-- The greatest multiple of the rate that the limit allows. -/
def dclkOf (out : ℕ) : ℕ :=
  if out * 4 ≤ 600000 then out * 4 else if out * 2 ≤ 600000 then out * 2 else out

/-! The pixel clock `v` with a port of its own limit, for one pixel a clock or two, `k`. -/

section Fits

variable (v k limit : ℕ)

def HdmiFits : Prop :=
  if k = 2 then 4 ≤ v ∧ v ≤ 1200001 ∧ (if v = 600001 then 600000 else v / 2) ≤ limit
  else v = 600001 ∧ 600000 ≤ limit ∨ v % 2 = 0 ∧ 2 ≤ v ∧ v ≤ 600000 ∧ v ≤ limit

def EdpFits : Prop := 2 ≤ v ∧ v / k * k ≤ limit

def DisplayPortFits : Prop :=
  4 * k ≤ v ∧ v % (4 * k) < 2 ∧ v / 4 / k * (2 * k) ≤ 600000 ∧ dclkOf (v / 4 / k) ≤ limit

def DsiFits : Prop :=
  2 * k ≤ v ∧ (k = 2 → v % 4 < 2) ∧ v / 2 / k * k ≤ 600000 ∧ dclkOf (v / 2 / k) ≤ limit

/-- With DSC the rate is that of a slice, and the interface has the clock that DSC asks for. -/
def DsiDscFits (slices cds : ℕ) : Prop :=
  0 < v / 2 / k ∧ v / 2 / k ≤ 600000 ∧ slices ≠ 0 ∧ 2 ≤ cds ∧
    dclkOf (v / 2 / k) / slices ≤ limit ∧
    IsShifted (dclkOf (v / 2 / k) / slices) (v / 2 / k) ∧
    IsShifted (dclkOf (v / 2 / k) / slices) (v / 2) ∧
    IsShifted (v / 2 / k * 1000) (cds / 2)

end Fits

def CruFits (x : CruInputs) : Prop :=
  ¬ (x.dualChannel ∧ x.yuv420) ∧
    if x.connectorType = connectorHdmiA then HdmiFits x.vPixclk x.k (maxDclk x.crtcID)
    else if x.connectorType = connectorEdp then EdpFits x.vPixclk x.k (maxDclk x.crtcID)
    else if x.connectorType = connectorDisplayPort then
      DisplayPortFits x.vPixclk x.k (maxDclk x.crtcID)
    else if x.connectorType = connectorDsi then
      if x.dscEnable then
        DsiDscFits x.vPixclk x.k (maxDclk x.crtcID) x.dscSliceNum.toNat x.dscCdsClkRate.toNat
      else DsiFits x.vPixclk x.k (maxDclk x.crtcID)
    else x.vPixclk ≤ maxDclk x.crtcID

section Dividers

variable {n source rate child : ℕ} {P : CruResult → Prop}

theorem logCalculate_eq (h : n < 2 ^ 32) : logCalculate n = Nat.log2 n := by
  rw [logCalculate]
  split_ifs with hzero
  · rw [hzero, Nat.log2_zero]
  · rw [shiftsToZero_eq hzero h, Nat.add_sub_cancel]

theorem divider_eq (hrate : rate ≠ 0) (hsource : source < 2 ^ 32) :
    divider source rate = some ⟨source, rate, source / rate⟩ := by
  have hlt : source / rate < 2 ^ 32 := Nat.lt_of_le_of_lt (Nat.div_le_self _ _) hsource
  rw [divider, CUInt.div_of_ne hrate, Option.map_some, Nat.mod_eq_of_lt hlt]

/-- The divider is right if there is a right one. -/
theorem divider_ok (hrate : rate ≠ 0) (hsource : source < 2 ^ 32) :
    (⟨source, rate, source / rate⟩ : Divider).Ok ↔ IsShifted source rate := by
  have hlt : source / rate < 2 ^ 32 := Nat.lt_of_le_of_lt (Nat.div_le_self _ _) hsource
  rw [Divider.Ok, Divider.log, logCalculate_eq hlt, div_two_pow_log2_iff (Nat.pos_of_ne_zero hrate)]

theorem exists_bind_divider {f : Divider → Option CruResult} (hsource : source < 2 ^ 32) :
    (∃ r ∈ (divider source rate).bind f, P r) ↔
      rate ≠ 0 ∧ ∃ r ∈ f ⟨source, rate, source / rate⟩, P r := by
  by_cases hrate : rate = 0
  · subst hrate
    simp [divider]
  · rw [divider_eq hrate hsource, Option.bind_some]
    simp [hrate]

theorem exists_map_divider {f : Divider → CruResult} (hsource : source < 2 ^ 32) :
    (∃ r ∈ (divider source rate).map f, P r) ↔
      rate ≠ 0 ∧ P (f ⟨source, rate, source / rate⟩) := by
  by_cases hrate : rate = 0
  · subst hrate
    simp [divider]
  · rw [divider_eq hrate hsource, Option.map_some]
    simp [hrate]

theorem CruConfig.ok_iff {c : CruConfig} {limit : ℕ} : c.Ok limit ↔
    c.dclkRate ≤ limit ∧ (∀ d ∈ c.dclkCore, d.Ok) ∧ (∀ d ∈ c.dclkOut, d.Ok) ∧
      (∀ d ∈ c.ifPixclk, d.Ok) ∧ ∀ d ∈ c.ifDclk, d.Ok :=
  ⟨fun h => ⟨h.le_limit, h.core, h.out, h.pixclk, h.dclk⟩,
    fun ⟨h₁, h₂, h₃, h₄, h₅⟩ => ⟨h₁, h₂, h₃, h₄, h₅⟩⟩

/-- An error is handed on as a rate. -/
theorem not_resultOk_error (x : CruInputs) (e : ℕ) : ¬ ResultOk x (.error e) := by
  simp [ResultOk, vop2InitRates]

theorem calcDclk_eq (h : child < 2 ^ 30) :
    vop2CalcDclk child (maxDclk 0) = some (if child ≤ 600000 then dclkOf child else 0) := by
  have hmax : maxDclk 0 = 600000 := rfl
  rw [vop2CalcDclk, CUInt.mul_of_lt (by omega), CUInt.mul_of_lt (by omega), Option.bind_some,
    Option.map_some, hmax, dclkOf]
  split_ifs <;> first | rfl | omega

/-- The product by four wraps around. -/
theorem calcDclk_eq_none (h : 2 ^ 30 ≤ child) (limit : ℕ) : vop2CalcDclk child limit = none := by
  rw [vop2CalcDclk, CUInt.mul, CUInt.fit, if_neg (by omega)]
  rfl

theorem dclkOf_cases (n : ℕ) : (n * 4 ≤ 600000 ∧ dclkOf n = n * 4) ∨
    (600000 < n * 4 ∧ n * 2 ≤ 600000 ∧ dclkOf n = n * 2) ∨ (600000 < n * 2 ∧ dclkOf n = n) := by
  rw [dclkOf]
  split_ifs <;> omega

theorem dclkOf_lt (h : n ≤ 600000) : dclkOf n < 2 ^ 32 := by
  rcases dclkOf_cases n with ⟨-, heq⟩ | ⟨-, -, heq⟩ | ⟨-, heq⟩ <;> omega

/-- A rate of zero is an error. -/
theorem exists_ite_error {x : CruInputs} {e : ℕ} {c : Option CruResult} :
    (∃ r ∈ if rate = 0 then some (.error e) else c, ResultOk x r) ↔
      rate ≠ 0 ∧ ∃ r ∈ c, ResultOk x r := by
  by_cases hzero : rate = 0
  · rw [if_pos hzero]
    constructor
    · rintro ⟨r, ⟨⟩, hok⟩
      exact absurd hok (not_resultOk_error x e)
    · rintro ⟨hne, -⟩
      exact absurd hzero hne
  · rw [if_neg hzero, and_iff_right hzero]

/-- The rate is one that the limit allows, or there is an error. -/
theorem exists_bind_calcDclk {x : CruInputs} {e : ℕ} {f : ℕ → Option CruResult}
    (hchild : child < 2 ^ 32) :
    (∃ r ∈ (vop2CalcDclk child (maxDclk 0)).bind
      fun d => if d = 0 then some (.error e) else f d, ResultOk x r) ↔
    0 < child ∧ child ≤ 600000 ∧ ∃ r ∈ f (dclkOf child), ResultOk x r := by
  by_cases hwrap : 2 ^ 30 ≤ child
  · rw [calcDclk_eq_none hwrap, Option.bind_none]
    constructor
    · rintro ⟨r, hr, -⟩
      cases hr
    · rintro ⟨-, hle, -⟩
      omega
  · rw [calcDclk_eq (by omega), Option.bind_some, exists_ite_error]
    by_cases hle : child ≤ 600000
    · have hne : dclkOf child ≠ 0 ↔ 0 < child := by
        rcases dclkOf_cases child with ⟨-, heq⟩ | ⟨-, -, heq⟩ | ⟨-, heq⟩ <;> omega
      rw [if_pos hle, hne, and_iff_right hle]
    · simp [hle]

end Dividers

section Connectors

variable (x : CruInputs)

theorem CruInputs.vPixclk_lt : x.vPixclk < 2 ^ 32 := x.clock.toNat_lt

theorem CruInputs.k_cases : ((x.dualChannel || x.yuv420) = false ∧ x.k = 1) ∨
    ((x.dualChannel || x.yuv420) = true ∧ x.k = 2) := by
  rw [CruInputs.k]
  cases x.dualChannel || x.yuv420
  · exact .inl ⟨rfl, rfl⟩
  · exact .inr ⟨rfl, rfl⟩

/-- The dividers of HDMI for a rate. -/
theorem hdmiRate_ok {rate : ℕ} (hrate : rate < 2 ^ 32) :
    (∃ r ∈ (divider rate (x.dclkCoreRate * 2 / x.k)).bind fun ifPixclk =>
      (divider rate (x.dclkCoreRate / x.k)).bind fun ifDclk =>
        (divider rate x.dclkCoreRate).map fun dclkCore =>
          .rate ⟨rate, some dclkCore, none, some ifPixclk, some ifDclk⟩, ResultOk x r) ↔
      x.dclkCoreRate / x.k ≠ 0 ∧ rate ≤ maxDclk x.crtcID ∧ IsShifted rate x.dclkCoreRate ∧
        IsShifted rate (x.dclkCoreRate * 2 / x.k) ∧ IsShifted rate (x.dclkCoreRate / x.k) := by
  rw [exists_bind_divider hrate, exists_bind_divider hrate, exists_map_divider hrate]
  constructor
  · rintro ⟨hpixclk, hdclk, hcore, hok⟩
    exact ⟨hdclk, hok.le_limit, (divider_ok hcore hrate).1 (hok.core _ rfl),
      (divider_ok hpixclk hrate).1 (hok.pixclk _ rfl), (divider_ok hdclk hrate).1 (hok.dclk _ rfl)⟩
  · rintro ⟨hdclk, hlimit, hshiftCore, hshiftPixclk, hshiftDclk⟩
    have hcore : x.dclkCoreRate ≠ 0 := fun hzero => hdclk (by rw [hzero, Nat.zero_div])
    have hpixclk : x.dclkCoreRate * 2 / x.k ≠ 0 := fun hzero =>
      hdclk (Nat.eq_zero_of_le_zero (hzero ▸ Nat.div_le_div_right (by omega)))
    refine ⟨hpixclk, hdclk, hcore, CruConfig.ok_iff.2 ⟨hlimit, ?_, nofun, ?_, ?_⟩⟩
    · rintro d ⟨⟩
      exact (divider_ok hcore hrate).2 hshiftCore
    · rintro d ⟨⟩
      exact (divider_ok hpixclk hrate).2 hshiftPixclk
    · rintro d ⟨⟩
      exact (divider_ok hdclk hrate).2 hshiftDclk

/-- Above the limit of a port, the core's rate is what is multiplied. -/
theorem hdmiLarge_ok (hlarge : 600000 < x.vPixclk) : (∃ r ∈ hdmiConfig x, ResultOk x r) ↔
    HdmiFits x.vPixclk x.k (maxDclk x.crtcID) := by
  have hv := x.vPixclk_lt
  have hchild : x.vPixclk / 2 < 2 ^ 32 := Nat.lt_of_le_of_lt (Nat.div_le_self _ _) hv
  have hcases := dclkOf_cases (x.vPixclk / 2)
  rw [hdmiConfig, if_pos (show vop2MaxDclkRate < _ from hlarge), CruInputs.dclkCoreRate,
    exists_bind_calcDclk hchild, HdmiFits]
  constructor
  · rintro ⟨hpos, hle, hr⟩
    obtain ⟨-, hlimit, -, hpixclk, -⟩ := (hdmiRate_ok x (dclkOf_lt hle)).1 hr
    rcases x.k_cases with ⟨-, hk⟩ | ⟨-, hk⟩ <;> rw [hk] at hpixclk ⊢
    · rw [CruInputs.dclkCoreRate, Nat.div_one, isShifted_of_lt (by omega)] at hpixclk
      rw [if_neg (by decide)]
      omega
    · rw [if_pos rfl]
      split_ifs <;> omega
  · intro hfits
    have hle : x.vPixclk / 2 ≤ 600000 := by
      split_ifs at hfits <;> omega
    refine ⟨by omega, hle, (hdmiRate_ok x (dclkOf_lt hle)).2 ?_⟩
    rw [CruInputs.dclkCoreRate]
    rcases x.k_cases with ⟨-, hk⟩ | ⟨-, hk⟩ <;> rw [hk] at hfits ⊢
    · rw [if_neg (by decide)] at hfits
      rw [Nat.div_one, Nat.div_one, isShifted_of_lt (by omega), isShifted_of_lt (by omega)]
      omega
    · rw [if_pos rfl] at hfits
      rw [isShifted_of_lt (by omega), isShifted_of_lt (by omega), isShifted_of_lt (by omega)]
      split_ifs at hfits <;> omega

theorem hdmiConfig_ok : (∃ r ∈ hdmiConfig x, ResultOk x r) ↔
    HdmiFits x.vPixclk x.k (maxDclk x.crtcID) := by
  by_cases hlarge : 600000 < x.vPixclk
  · exact hdmiLarge_ok x hlarge
  have hsmall : ¬ vop2MaxDclkRate < x.vPixclk := hlarge
  have hv := x.vPixclk_lt
  rw [hdmiConfig, if_neg hsmall, Option.bind_some, exists_ite_error, HdmiFits]
  rcases x.k_cases with ⟨hflag, hk⟩ | ⟨hflag, hk⟩
  · have hrate : (if x.dualChannel || x.yuv420 then x.vPixclk / 2 else x.vPixclk) = x.vPixclk := by
      rw [hflag, if_neg Bool.false_ne_true]
    rw [hrate, hdmiRate_ok x hv, hk, CruInputs.dclkCoreRate, Nat.div_one, Nat.div_one,
      if_neg (by decide)]
    by_cases htwo : 2 ≤ x.vPixclk
    · rw [isShifted_of_lt (by omega), isShifted_of_lt (by omega)]
      omega
    · omega
  · have hrate : (if x.dualChannel || x.yuv420 then x.vPixclk / 2 else x.vPixclk) =
        x.vPixclk / 2 := by
      rw [hflag, if_pos rfl]
    rw [hrate, hdmiRate_ok x (by omega), hk, CruInputs.dclkCoreRate, if_pos rfl,
      if_neg (by omega)]
    by_cases hfour : 4 ≤ x.vPixclk
    · rw [isShifted_of_lt (by omega), isShifted_of_lt (by omega), isShifted_of_lt (by omega)]
      omega
    · omega

theorem edpConfig_ok : (∃ r ∈ edpConfig x, ResultOk x r) ↔
    EdpFits x.vPixclk x.k (maxDclk x.crtcID) := by
  have hv := x.vPixclk_lt
  have hk : x.k = 1 ∨ x.k = 2 := x.k_cases.imp And.right And.right
  have hsource : x.vPixclk / x.k * x.k < 2 ^ 32 :=
    Nat.lt_of_le_of_lt (Nat.div_mul_le_self _ _) hv
  rw [edpConfig, exists_bind_divider hsource, exists_map_divider hsource, EdpFits]
  simp only [ResultOk, CruConfig.ok_iff, CruInputs.dclkCoreRate, Option.mem_some_iff, forall_eq',
    Option.not_mem_none, false_imp_iff, implies_true, true_and]
  constructor
  · rintro ⟨hcore, -, hle, -⟩
    exact ⟨by omega, hle⟩
  · rintro ⟨htwo, hle⟩
    have hcore : x.vPixclk / 2 ≠ 0 := by omega
    have hif : x.vPixclk / x.k ≠ 0 := by
      rcases hk with hk | hk <;> rw [hk] <;> omega
    have hshiftCore : IsShifted (x.vPixclk / x.k * x.k) (x.vPixclk / 2) := by
      rcases hk with hk | hk <;> rw [hk, isShifted_of_lt (by omega)] <;> omega
    have hshiftIf : IsShifted (x.vPixclk / x.k * x.k) (x.vPixclk / x.k) := by
      rcases hk with hk | hk <;> rw [hk, isShifted_of_lt (by omega)] <;> omega
    exact ⟨hcore, hif, hle, (divider_ok hcore hsource).2 hshiftCore,
      (divider_ok hif hsource).2 hshiftIf, (divider_ok hif hsource).2 hshiftIf⟩

theorem displayPortConfig_ok : (∃ r ∈ displayPortConfig x, ResultOk x r) ↔
    DisplayPortFits x.vPixclk x.k (maxDclk x.crtcID) := by
  have hv := x.vPixclk_lt
  have hk : x.k = 1 ∨ x.k = 2 := x.k_cases.imp And.right And.right
  have hchild : x.vPixclk / 4 / x.k < 2 ^ 32 :=
    Nat.lt_of_le_of_lt ((Nat.div_le_self _ _).trans (Nat.div_le_self _ _)) hv
  rw [displayPortConfig, exists_bind_calcDclk hchild, DisplayPortFits]
  constructor
  · rintro ⟨hpos, hle, hr⟩
    have hsource := dclkOf_lt hle
    rw [exists_bind_divider hsource, exists_map_divider hsource] at hr
    obtain ⟨-, hcore, hok⟩ := hr
    have hshift := (divider_ok hcore hsource).1 (hok.core _ rfl)
    have hlimit : dclkOf (x.vPixclk / 4 / x.k) ≤ maxDclk x.crtcID := hok.le_limit
    rw [CruInputs.dclkCoreRate] at hshift hcore
    have hcases := dclkOf_cases (x.vPixclk / 4 / x.k)
    rcases hk with hk | hk <;> rw [hk] at hshift hlimit hcases hpos ⊢ <;>
      rw [isShifted_of_lt (by omega)] at hshift <;> omega
  · rintro ⟨hfour, hmod, hle, hlimit⟩
    have hcases := dclkOf_cases (x.vPixclk / 4 / x.k)
    have hpos : 0 < x.vPixclk / 4 / x.k := by
      rcases hk with hk | hk <;> rw [hk] at hfour ⊢ <;> omega
    have hin : x.vPixclk / 4 / x.k ≤ 600000 := by
      rcases hk with hk | hk <;> rw [hk] at hle ⊢ <;> omega
    have hsource := dclkOf_lt hin
    have hcore : x.vPixclk / 2 ≠ 0 := by omega
    have hshiftCore : IsShifted (dclkOf (x.vPixclk / 4 / x.k)) (x.vPixclk / 2) := by
      rcases hk with hk | hk <;> rw [hk] at hmod hle hcases ⊢ <;>
        rw [isShifted_of_lt (by omega)] <;> omega
    have hshiftOut : IsShifted (dclkOf (x.vPixclk / 4 / x.k)) (x.vPixclk / 4 / x.k) := by
      rw [isShifted_of_lt (by omega)]
      omega
    rw [exists_bind_divider hsource, exists_map_divider hsource]
    refine ⟨hpos, hin, hpos.ne', hcore, CruConfig.ok_iff.2 ⟨hlimit, ?_, ?_, nofun, nofun⟩⟩
    · rintro d ⟨⟩
      exact (divider_ok hcore hsource).2 hshiftCore
    · rintro d ⟨⟩
      exact (divider_ok hpos.ne' hsource).2 hshiftOut

theorem dsiConfig_ok (hdsc : x.dscEnable = false) : (∃ r ∈ dsiConfig x, ResultOk x r) ↔
    DsiFits x.vPixclk x.k (maxDclk x.crtcID) := by
  have hv := x.vPixclk_lt
  have hk : x.k = 1 ∨ x.k = 2 := x.k_cases.imp And.right And.right
  have hchild : x.dclkCoreRate / x.k < 2 ^ 32 :=
    Nat.lt_of_le_of_lt ((Nat.div_le_self _ _).trans (Nat.div_le_self _ _)) hv
  rw [dsiConfig]
  simp only [hdsc, Bool.false_eq_true, if_false, Option.bind_some, Option.map_some]
  rw [exists_bind_calcDclk hchild, DsiFits, CruInputs.dclkCoreRate]
  have hcases := dclkOf_cases (x.vPixclk / 2 / x.k)
  constructor
  · rintro ⟨hpos, hle, hr⟩
    have hsource := dclkOf_lt hle
    rw [exists_bind_divider hsource, exists_bind_divider hsource] at hr
    obtain ⟨-, hcore, r, ⟨⟩, hok⟩ := hr
    have hshift := (divider_ok hcore hsource).1 (hok.core _ rfl)
    have hlimit : dclkOf (x.vPixclk / 2 / x.k) ≤ maxDclk x.crtcID := hok.le_limit
    rcases hk with hk | hk <;> rw [hk] at hshift hlimit hcases hpos hle ⊢ <;>
      rw [isShifted_of_lt (by omega)] at hshift <;> omega
  · rintro ⟨htwo, hmod, hle, hlimit⟩
    have hpos : 0 < x.vPixclk / 2 / x.k := by
      rcases hk with hk | hk <;> rw [hk] at htwo ⊢ <;> omega
    have hin : x.vPixclk / 2 / x.k ≤ 600000 := by
      rcases hk with hk | hk <;> rw [hk] at hle ⊢ <;> omega
    have hsource := dclkOf_lt hin
    have hcore : x.vPixclk / 2 ≠ 0 := by
      rcases hk with hk | hk <;> rw [hk] at htwo <;> omega
    have hshiftCore : IsShifted (dclkOf (x.vPixclk / 2 / x.k)) (x.vPixclk / 2) := by
      rcases hk with hk | hk <;> rw [hk] at hmod hle hcases hpos ⊢ <;>
        rw [isShifted_of_lt (by omega)] <;> omega
    have hshiftOut : IsShifted (dclkOf (x.vPixclk / 2 / x.k)) (x.vPixclk / 2 / x.k) := by
      rw [isShifted_of_lt (by omega)]
      omega
    rw [exists_bind_divider hsource, exists_bind_divider hsource]
    refine ⟨hpos, hin, hpos.ne', hcore, _, rfl,
      CruConfig.ok_iff.2 ⟨hlimit, ?_, ?_, ?_, nofun⟩⟩
    · rintro d ⟨⟩
      exact (divider_ok hcore hsource).2 hshiftCore
    · rintro d ⟨⟩
      exact (divider_ok hpos.ne' hsource).2 hshiftOut
    · rintro d ⟨⟩
      have hlog : logCalculate 1 = 0 := by decide
      rw [Divider.Ok, Divider.log, hlog, Nat.pow_zero, Nat.div_one]

/-- With DSC. -/
theorem dsiConfig_dsc_ok (hdsc : x.dscEnable = true) : (∃ r ∈ dsiConfig x, ResultOk x r) ↔
    DsiDscFits x.vPixclk x.k (maxDclk x.crtcID) x.dscSliceNum.toNat x.dscCdsClkRate.toNat := by
  have hv := x.vPixclk_lt
  have hchild : x.dclkCoreRate / x.k < 2 ^ 32 :=
    Nat.lt_of_le_of_lt ((Nat.div_le_self _ _).trans (Nat.div_le_self _ _)) hv
  rw [dsiConfig]
  simp only [hdsc, if_true]
  rw [exists_bind_calcDclk hchild, DsiDscFits, CruInputs.dclkCoreRate]
  refine and_congr_right fun hpos => and_congr_right fun hin => ?_
  have hsource : dclkOf (x.vPixclk / 2 / x.k) / x.dscSliceNum.toNat < 2 ^ 32 :=
    Nat.lt_of_le_of_lt (Nat.div_le_self _ _) (dclkOf_lt hin)
  have hout : x.vPixclk / 2 / x.k * 1000 < 2 ^ 32 := by omega
  have hcore : x.vPixclk / 2 ≠ 0 := by
    have hle := Nat.div_le_self (x.vPixclk / 2) x.k
    omega
  by_cases hslices : x.dscSliceNum.toNat = 0
  · rw [hslices, CUInt.div_zero, Option.bind_none]
    simp
  · rw [CUInt.div_of_ne hslices, Option.bind_some, exists_bind_divider hsource,
      exists_bind_divider hsource, exists_map_divider hout]
    constructor
    · rintro ⟨-, -, hcds, hok⟩
      exact ⟨hslices, by omega, hok.le_limit, (divider_ok hpos.ne' hsource).1 (hok.out _ rfl),
        (divider_ok hcore hsource).1 (hok.core _ rfl), (divider_ok hcds hout).1 (hok.pixclk _ rfl)⟩
    · rintro ⟨-, htwo, hlimit, hshiftOut, hshiftCore, hshiftIf⟩
      have hcds : x.dscCdsClkRate.toNat / 2 ≠ 0 := by omega
      refine ⟨hpos.ne', hcore, hcds, CruConfig.ok_iff.2 ⟨hlimit, ?_, ?_, ?_, nofun⟩⟩
      · rintro d ⟨⟩
        exact (divider_ok hcore hsource).2 hshiftCore
      · rintro d ⟨⟩
        exact (divider_ok hpos.ne' hsource).2 hshiftOut
      · rintro d ⟨⟩
        exact (divider_ok hcds hout).2 hshiftIf

end Connectors

/-- A monitor of 4K with two channels and YUV420. -/
def dualYuv420 : CruInputs where
  clock := 594000
  connectorType := connectorHdmiA
  outputMode := 14
  outputFlags := 1
  dscEnable := false
  dscSliceNum := 0
  dscCdsClkRate := 0
  crtcID := ⟨0, by decide⟩

end Edk2Rk3576.Vop2
