import Edk2Rk3576.Lib.CUInt
import Edk2Rk3576.Lib.ScaleFactor
import Edk2Rk3576.Vop2.Callees

/-!
# Scaling a window

`Vop2SetPlane` has the window of a port scaled from the size of the source to that on the screen.
The sizes are words of 32 bits, and so is the arithmetic of `Vop2SetupScale`.
-/

namespace Edk2Rk3576.Vop2

inductive ScaleMode
  | none
  | up
  | down
  deriving DecidableEq

def ScaleMode.value : ScaleMode → BitVec 32
  | .none => 0
  | .up => 1
  | .down => 2

/-! `VOP2_SCALE_UP_MODE` and `VOP2_SCALE_DOWN_MODE`, as the numbers they are. -/

def scaleUpBil : ℕ := 1
def scaleUpBic : ℕ := 2
def scaleDownBil : ℕ := 1

/-- The sizes in `CRTC_STATE`; there is something to scale. -/
structure PlaneSizes where
  srcW : UInt32
  srcH : UInt32
  crtcW : UInt32
  crtcH : UInt32
  two_le_srcW : 2 ≤ srcW.toNat
  two_le_srcH : 2 ≤ srcH.toNat
  two_le_crtcW : 2 ≤ crtcW.toNat
  two_le_crtcH : 2 ≤ crtcH.toNat

def getSclMode (src dst : ℕ) : ScaleMode :=
  if src < dst then .up else if dst < src then .down else .none

/-- A subtraction of words. -/
def subWord (x y : ℕ) : ℕ := (x + 2 ^ 32 - y) % 2 ^ 32

def biliSclDn (src dst : ℕ) : Option ℕ :=
  CUInt.div (subWord src 1 <<< 12 % 2 ^ 32) (subWord dst 1)

def biliSclFacCheck (src dst fac : ℕ) : Bool :=
  decide ((fac * subWord dst 1 % 2 ^ 32) >>> 12 < subWord src 1)

def commonSclFacCheck (src dst fac : ℕ) : Bool :=
  decide ((fac * subWord dst 1 % 2 ^ 32) >>> 16 < subWord src 1)

/-- The loop that takes one from the factor until the check is met. -/
def calibrate (check : ℕ → Bool) : ℕ → ℕ → ℕ
  | 0, factor => factor
  | n + 1, factor => if check factor then factor else calibrate check n (subWord factor 1)

/-- The variable `Factor` at the end. Without bilinear filtering, or to scale up, the calibration
starts from the zero that the variable is initialised with. -/
def vop2ScaleFactor (mode : ScaleMode) (filterMode src dst : ℕ) : Option ℕ :=
  if mode = .none then some 0
  else if mode = .down ∧ filterMode = scaleDownBil then
    (biliSclDn src dst).map (calibrate (biliSclFacCheck src dst) 100)
  else some (calibrate (commonSclFacCheck src dst) 100 0)

/-- What one direction is set up with: the sizes as they are used, and the factor before it is
returned as a `UINT16`. -/
structure Scaling where
  mode : ScaleMode
  filterMode : ℕ
  src : ℕ
  dst : ℕ
  factor : ℕ

def Scaling.returned (d : Scaling) : BitVec 32 := BitVec.ofNat 32 (d.factor % 2 ^ 16)

structure ScaleSetup where
  gt2 : Bool
  gt4 : Bool
  hor : Scaling
  ver : Scaling

def scaling (mode : ScaleMode) (filterMode src dst : ℕ) : Option Scaling :=
  (vop2ScaleFactor mode filterMode src dst).map (⟨mode, filterMode, src, dst, ·⟩)

/-! One line is taken from four of the source, or from two. -/

def gt4 (srcH dstH : ℕ) : Bool := decide (4 * dstH % 2 ^ 32 < srcH)

def gt2 (srcH dstH : ℕ) : Bool := !gt4 srcH dstH && decide (2 * dstH % 2 ^ 32 ≤ srcH)

/-- The height that the source has for the scaler. -/
def usedSrcH (srcH dstH : ℕ) : ℕ :=
  if gt4 srcH dstH then srcH >>> 2 else if gt2 srcH dstH then srcH >>> 1 else srcH

/-- To scale down, the width on the screen is made even. -/
def usedDstW (srcW dstW : ℕ) : ℕ :=
  if getSclMode srcW dstW = .down ∧ dstW % 2 = 1 then (dstW + 1) % 2 ^ 32 else dstW

def vop2SetupScale (srcW srcH dstW dstH : ℕ) : Option ScaleSetup :=
  let gt2 := gt2 srcH dstH
  let gt4 := gt4 srcH dstH
  let srcH := usedSrcH srcH dstH
  let horMode := getSclMode srcW dstW
  let verMode := getSclMode srcH dstH
  let horFilter := if horMode = .up then scaleUpBic else scaleDownBil
  let verFilter := if verMode = .up then scaleUpBil else scaleDownBil
  let dstW := usedDstW srcW dstW
  (scaling horMode horFilter srcW dstW).bind fun hor =>
    (scaling verMode verFilter srcH dstH).map fun ver => ⟨gt2, gt4, hor, ver⟩

namespace ScaleSetup

def sclFactorYrgb (r : ScaleSetup) : BitVec 32 := r.ver.returned <<< 16 ||| r.hor.returned

/-- What the setup has `Vop2SetupScale` write. -/
def inputs (r : ScaleSetup) (x : PlaneInputs) : PlaneInputs :=
  { x with
    sclFactor := r.sclFactorYrgb
    gt2 := boolWord r.gt2
    gt4 := boolWord r.gt4
    horSclMode := r.hor.mode.value
    verSclMode := r.ver.mode.value
    horFilterMode := BitVec.ofNat 32 r.hor.filterMode
    verFilterMode := BitVec.ofNat 32 r.ver.filterMode }

end ScaleSetup

/-- `Vop2SetSmartWin` holds the sizes in an `INT32`, and takes one from the width of some sources. -/
def smartSrcW (srcW crtcW : UInt32) : ℕ :=
  if crtcW.toBitVec.slt srcW.toBitVec ∧ srcW.toNat % 16 = 1 then srcW.toNat - 1 else srcW.toNat

namespace PlaneSizes

/-- The width that the source has for the scaler. -/
def usedSrcW (p : PlaneSizes) : LayerType → ℕ
  | .cluster => p.srcW.toNat
  | .esmart => smartSrcW p.srcW p.crtcW

/-- The window that `Vop2SetPlane` sets up, unless it rejects the plane. -/
def acceptedWin (p : PlaneSizes) (crtcID primaryPlaneID : ℕ) : Option Vop2WinData :=
  if maxOutputWidth crtcID < p.crtcW.toBitVec then none else vop2FindWinByPhysID primaryPlaneID

def setupScale (p : PlaneSizes) (type : LayerType) : Option ScaleSetup :=
  vop2SetupScale (p.usedSrcW type) p.srcH.toNat p.crtcW.toNat p.crtcH.toNat

end PlaneSizes

/-! ### What a factor should be -/

def Scaling.shift (d : Scaling) : ℕ :=
  if d.mode = .down ∧ d.filterMode = scaleDownBil then 12 else 16

/-- A factor that fits its half of the register, and is the one that the direction needs. -/
structure Scaling.Ok (d : Scaling) : Prop where
  fits : d.factor < 2 ^ 16
  needed : d.factor = 0 → d.mode = .none
  greatest : d.mode ≠ .none → IsScaleFactor d.shift (d.src - 1) (d.dst - 1) d.factor

/-- Nothing is divided by zero, and both factors are right. -/
def PlaneSizes.SetPlaneOk (p : PlaneSizes) (crtcID primaryPlaneID : ℕ) : Prop :=
  ∀ win ∈ p.acceptedWin crtcID primaryPlaneID, ∃ r ∈ p.setupScale win.type, r.hor.Ok ∧ r.ver.Ok

/-- The sizes are the same, or the source is larger, but not by more than a factor takes. -/
def Reducible (src dst usedDst : ℕ) : Prop :=
  src = dst ∨ (dst < src ∧ src - 1 < 2 ^ 20 ∧ src - 1 ≤ 16 * (usedDst - 1))

section Factors

variable {check : ℕ → Bool} {mode : ScaleMode} {filterMode src dst used n f x y : ℕ}

theorem subWord_of_le (h : y ≤ x) (hx : x < 2 ^ 32) : subWord x y = x - y := by
  rw [subWord]
  omega

theorem getSclMode_down (h : getSclMode src dst = .down) : dst < src := by
  rw [getSclMode] at h
  split_ifs at h with _ hlt
  exact hlt

theorem calibrate_of_check (h : check f) : calibrate check (n + 1) f = f := by
  rw [calibrate, if_pos h]

theorem calibrate_succ (h : ¬ check f) :
    calibrate check (n + 1) f = calibrate check n (subWord f 1) := by
  rw [calibrate, if_neg h]

theorem calibrate_of_never (h : ∀ f, ¬ check f) (hf : f < 2 ^ 32) (hn : n < 2 ^ 32) :
    calibrate check n f = subWord f n := by
  induction n generalizing f with
  | zero =>
    rw [calibrate, subWord]
    omega
  | succ n ih =>
    have hlt : subWord f 1 < 2 ^ 32 := Nat.mod_lt _ (by decide)
    rw [calibrate_succ (h f), ih hlt (by omega)]
    simp only [subWord]
    omega

theorem up_eq : vop2ScaleFactor .up filterMode src used =
    some (calibrate (commonSclFacCheck src used) 100 0) := by
  simp [vop2ScaleFactor]

/-- To scale up there is no factor but zero, or one that does not fit. -/
theorem up_not_ok (d : Scaling)
    (hfactor : d.factor = calibrate (commonSclFacCheck src used) 100 0) (hmode : d.mode = .up) :
    ¬ d.Ok := by
  intro hok
  by_cases hsrc : subWord src 1 = 0
  · have hnever : ∀ f, ¬ commonSclFacCheck src used f := by
      intro f
      simp [commonSclFacCheck, hsrc]
    have hfits := hok.fits
    rw [hfactor, calibrate_of_never hnever (by decide) (by decide)] at hfits
    exact absurd hfits (by decide)
  · have hcheck : commonSclFacCheck src used 0 := by
      simp only [commonSclFacCheck, decide_eq_true_eq, Nat.zero_mul, Nat.zero_mod, Nat.zero_shiftRight]
      omega
    have hnone := hok.needed (hfactor.trans (calibrate_of_check hcheck))
    rw [hmode] at hnone
    cases hnone

theorem biliSclFacCheck_iff (hx : subWord src 1 = x) (hy : subWord used 1 = y) :
    biliSclFacCheck src used f ↔ f * y % 2 ^ 32 < x * 2 ^ 12 := by
  rw [biliSclFacCheck, decide_eq_true_eq, hx, hy, Nat.shiftRight_eq_div_pow,
    Nat.div_lt_iff_lt_mul (Nat.two_pow_pos 12)]

theorem biliSclDn_eq (hx : subWord src 1 = x) (hy : subWord used 1 = y) (hpos : 0 < y) :
    biliSclDn src used = some (x * 2 ^ 12 % 2 ^ 32 / y) := by
  rw [biliSclDn, hx, hy, CUInt.div_of_ne (by omega), Nat.shiftLeft_eq]

theorem down_eq (mode_down : mode = .down) (hfilter : filterMode = scaleDownBil) :
    vop2ScaleFactor mode filterMode src used =
      (biliSclDn src used).map (calibrate (biliSclFacCheck src used) 100) := by
  subst mode_down hfilter
  rfl

/-- The calibration finds the factor at the ratio, or one below. -/
theorem down_factor (hx : subWord src 1 = x) (hy : subWord used 1 = y) (hxpos : 0 < x)
    (hypos : 0 < y) (hsmall : x < 2 ^ 20) :
    vop2ScaleFactor .down scaleDownBil src used = some ((x * 2 ^ 12 - 1) / y) := by
  have hfit : x * 2 ^ 12 < 2 ^ 32 := by omega
  have hmul : ∀ f, f * y ≤ x * 2 ^ 12 → f * y % 2 ^ 32 = f * y :=
    fun f hf => Nat.mod_eq_of_lt (hf.trans_lt hfit)
  rw [down_eq rfl rfl, biliSclDn_eq hx hy hypos, Nat.mod_eq_of_lt hfit, Option.map_some]
  refine congrArg some ?_
  rcases @ratio_cases 12 x y hxpos hypos with ⟨hlt, heq⟩ | ⟨hexact, heq⟩
  · rw [← heq]
    refine calibrate_of_check ((biliSclFacCheck_iff hx hy).2 ?_)
    rwa [hmul _ hlt.le]
  · have hnot : ¬ biliSclFacCheck src used (x * 2 ^ 12 / y) := by
      rw [biliSclFacCheck_iff hx hy, hmul _ hexact.le]
      omega
    have hlt : (x * 2 ^ 12 - 1) / y * y < x * 2 ^ 12 := by
      have hle := Nat.div_mul_le_self (x * 2 ^ 12 - 1) y
      omega
    have hword : x * 2 ^ 12 / y < 2 ^ 32 := (Nat.div_le_self _ _).trans_lt hfit
    have hone : 1 ≤ x * 2 ^ 12 / y := by
      rw [heq]
      exact Nat.le_add_left 1 _
    rw [calibrate_succ hnot, subWord_of_le hone hword, heq, Nat.add_sub_cancel]
    refine calibrate_of_check ((biliSclFacCheck_iff hx hy).2 ?_)
    rwa [hmul _ hlt.le]

/-- The shift of a source that is too large wraps around. -/
theorem down_factor_lt (hx : subWord src 1 = x) (hy : subWord used 1 = y) (hypos : 0 < y)
    (hlarge : 2 ^ 20 ≤ x) :
    ∃ f, vop2ScaleFactor .down scaleDownBil src used = some f ∧ f < (x * 2 ^ 12 - 1) / y := by
  have hyword : y < 2 ^ 32 := by
    rw [← hy]
    exact Nat.mod_lt _ (by decide)
  refine ⟨x * 2 ^ 12 % 2 ^ 32 / y, ?_, ?_⟩
  · rw [down_eq rfl rfl, biliSclDn_eq hx hy hypos, Option.map_some]
    refine congrArg some (calibrate_of_check ((biliSclFacCheck_iff hx hy).2 ?_))
    have hmod := Nat.mod_lt (x * 2 ^ 12 % 2 ^ 32 / y * y) (Nat.two_pow_pos 32)
    omega
  · rw [Nat.lt_iff_add_one_le, Nat.le_div_iff_mul_le hypos, Nat.add_mul]
    have hle := Nat.div_mul_le_self (x * 2 ^ 12 % 2 ^ 32) y
    have hwrap : x * 2 ^ 12 % 2 ^ 32 + 2 ^ 32 ≤ x * 2 ^ 12 := by omega
    omega

/-- To scale down, the factor is right if the ratio fits its half of the register. -/
theorem down_ok (hmode : getSclMode src dst = .down) (hdst : 2 ≤ dst) (hle : dst ≤ used)
    (hused : used ≤ src) (hsrc : src < 2 ^ 32) :
    ∃ d, scaling .down scaleDownBil src used = some d ∧ (d.Ok ↔ Reducible src dst used) := by
  have hlt := getSclMode_down hmode
  have hx : subWord src 1 = src - 1 := subWord_of_le (by omega) hsrc
  have hy : subWord used 1 = used - 1 := subWord_of_le (by omega) (by omega)
  have hgreatest := @isScaleFactor_iff 12 (src - 1) (used - 1)
  by_cases hsmall : src - 1 < 2 ^ 20
  · refine ⟨⟨.down, scaleDownBil, src, used, _⟩,
      by rw [scaling, down_factor hx hy (by omega) (by omega) hsmall]; rfl, ?_⟩
    have hfits : ((src - 1) * 2 ^ 12 - 1) / (used - 1) < 2 ^ 16 ↔ src - 1 ≤ 16 * (used - 1) := by
      rw [Nat.div_lt_iff_lt_mul (by omega)]
      omega
    constructor
    · exact fun hok => .inr ⟨hlt, hsmall, hfits.1 hok.fits⟩
    · rintro (heq | ⟨-, -, hratio⟩)
      · omega
      · refine ⟨hfits.2 hratio, fun hzero => ?_, fun _ => ?_⟩
        · have hpos : 0 < ((src - 1) * 2 ^ 12 - 1) / (used - 1) := Nat.div_pos (by omega) (by omega)
          exact absurd hzero hpos.ne'
        · exact (hgreatest (by omega) (by omega)).2 rfl
  · obtain ⟨f, hf, hsmaller⟩ := down_factor_lt hx hy (by omega) (by omega)
    refine ⟨⟨.down, scaleDownBil, src, used, f⟩, by rw [scaling, hf]; rfl, ?_⟩
    constructor
    · intro hok
      have heq := (hgreatest (by omega) (by omega)).1 (hok.greatest nofun)
      exact absurd heq hsmaller.ne
    · rintro (heq | ⟨-, hsmall', -⟩)
      · omega
      · exact absurd hsmall' hsmall

/-- A direction of the setup. -/
theorem scaling_ok (hfilter : getSclMode src dst ≠ .up → filterMode = scaleDownBil)
    (hdst : 2 ≤ dst) (hsrc : src < 2 ^ 32)
    (hused : getSclMode src dst = .down → dst ≤ used ∧ used ≤ src) :
    ∃ d, scaling (getSclMode src dst) filterMode src used = some d ∧
      (d.Ok ↔ Reducible src dst used) := by
  rcases hmode : getSclMode src dst with _ | _ | _
  · have heq : src = dst := by
      rw [getSclMode] at hmode
      split_ifs at hmode
      omega
    refine ⟨⟨.none, filterMode, src, used, 0⟩, rfl, ?_⟩
    exact iff_of_true ⟨Nat.two_pow_pos 16, fun _ => rfl, fun h => absurd rfl h⟩ (.inl heq)
  · have hlt : src < dst := by
      rw [getSclMode] at hmode
      split_ifs at hmode with hlt
      exact hlt
    refine ⟨⟨.up, filterMode, src, used, _⟩, by rw [scaling, up_eq, Option.map_some], ?_⟩
    refine iff_of_false (up_not_ok _ (by dsimp only) rfl) ?_
    rintro (heq | ⟨hgt, -⟩) <;> omega
  · rw [hfilter (by rw [hmode]; nofun)]
    obtain ⟨hle, hused⟩ := hused hmode
    exact down_ok hmode hdst hle hused hsrc

end Factors

section SetPlane

variable {srcW srcH dstW dstH : ℕ}

theorem usedSrcH_le : usedSrcH srcH dstH ≤ srcH := by
  rw [usedSrcH]
  split_ifs
  · rw [Nat.shiftRight_eq_div_pow]
    exact Nat.div_le_self _ _
  · rw [Nat.shiftRight_eq_div_pow]
    exact Nat.div_le_self _ _
  · exact Nat.le_refl _

theorem usedDstW_bounds (hsrc : srcW < 2 ^ 32) (hmode : getSclMode srcW dstW = .down) :
    dstW ≤ usedDstW srcW dstW ∧ usedDstW srcW dstW ≤ srcW := by
  have hlt := getSclMode_down hmode
  rw [usedDstW]
  split_ifs with hodd
  · omega
  · omega

theorem setupScale_ok (hdstW : 2 ≤ dstW) (hdstH : 2 ≤ dstH) (hsrcW : srcW < 2 ^ 32)
    (hsrcH : srcH < 2 ^ 32) : ∃ r, vop2SetupScale srcW srcH dstW dstH = some r ∧
      (r.hor.Ok ∧ r.ver.Ok ↔ Reducible srcW dstW (usedDstW srcW dstW) ∧
        Reducible (usedSrcH srcH dstH) dstH dstH) := by
  obtain ⟨hor, hhor, hhorOk⟩ := @scaling_ok
    (if getSclMode srcW dstW = .up then scaleUpBic else scaleDownBil) srcW dstW
    (usedDstW srcW dstW) (fun h => if_neg h) hdstW hsrcW (usedDstW_bounds hsrcW)
  obtain ⟨ver, hver, hverOk⟩ := @scaling_ok
    (if getSclMode (usedSrcH srcH dstH) dstH = .up then scaleUpBil else scaleDownBil)
    (usedSrcH srcH dstH) dstH dstH (fun h => if_neg h) hdstH (usedSrcH_le.trans_lt hsrcH)
    (fun hmode => ⟨Nat.le_refl _, (getSclMode_down hmode).le⟩)
  refine ⟨⟨gt2 srcH dstH, gt4 srcH dstH, hor, ver⟩, ?_, and_congr hhorOk hverOk⟩
  rw [vop2SetupScale, hhor, Option.bind_some, hver, Option.map_some]

theorem usedSrcW_lt (p : PlaneSizes) (type : LayerType) : p.usedSrcW type < 2 ^ 32 := by
  have hlt := p.srcW.toNat_lt
  cases type
  · exact hlt
  · rw [PlaneSizes.usedSrcW, smartSrcW]
    split_ifs
    · omega
    · exact hlt

end SetPlane

/-- Factors that fit are what the halves of the register get. -/
theorem sclFactorYrgb_toNat {r : ScaleSetup} (hhor : r.hor.Ok) (hver : r.ver.Ok) :
    r.sclFactorYrgb.toNat = r.ver.factor * 2 ^ 16 + r.hor.factor := by
  have hhorFits := hhor.fits
  have hverFits := hver.fits
  have hreturned : ∀ d : Scaling, d.factor < 2 ^ 16 → d.returned.toNat = d.factor := by
    intro d hd
    rw [Scaling.returned, BitVec.toNat_ofNat, Nat.mod_eq_of_lt hd]
    omega
  rw [ScaleSetup.sclFactorYrgb, BitVec.toNat_or, BitVec.toNat_shiftLeft, hreturned _ hverFits,
    hreturned _ hhorFits, Nat.shiftLeft_eq, Nat.mod_eq_of_lt (by omega), Nat.mul_comm,
    Nat.two_pow_add_eq_or_of_lt hhorFits]

/-- The word is among what `Vop2SetPlane` writes. -/
theorem sclFactorYrgb_written {p : PlaneSizes} {crtcID primaryPlaneID : ℕ} {win : Vop2WinData}
    (h : win ∈ p.acceptedWin crtcID primaryPlaneID) (r : ScaleSetup) (busFormat : BitVec 32)
    {x : PlaneInputs} (hx : x.crtcW = p.crtcW.toBitVec) :
    ∃ offset, vop2Writel offset r.sclFactorYrgb ∈
      vop2SetPlaneWrites crtcID primaryPlaneID busFormat (r.inputs x) := by
  rw [PlaneSizes.acceptedWin] at h
  split_ifs at h with hwide
  · cases h
  · rw [vop2SetPlaneWrites, if_neg (by rw [← hx] at hwide; exact hwide), h]
    cases htype : win.type
    · refine ⟨cluster0Win0SclFactorYrgb + win.regOffset, ?_⟩
      simp only [vop2SetClusterWinWrites, vop2SetupScaleWrites, htype]
      exact List.mem_append_left _ List.mem_cons_self
    · refine ⟨esmart0Region0SclFactorYrgb + win.regOffset, ?_⟩
      simp only [vop2SetSmartWinWrites, vop2SetupScaleWrites, htype]
      exact List.mem_append_left _ List.mem_cons_self

theorem setPlaneOk_iff (p : PlaneSizes) (crtcID primaryPlaneID : ℕ) :
    p.SetPlaneOk crtcID primaryPlaneID ↔ ∀ win ∈ p.acceptedWin crtcID primaryPlaneID,
      Reducible (p.usedSrcW win.type) p.crtcW.toNat
        (usedDstW (p.usedSrcW win.type) p.crtcW.toNat) ∧
      Reducible (usedSrcH p.srcH.toNat p.crtcH.toNat) p.crtcH.toNat p.crtcH.toNat := by
  refine forall₂_congr fun win _ => ?_
  obtain ⟨r, hr, hok⟩ := setupScale_ok p.two_le_crtcW p.two_le_crtcH (usedSrcW_lt p win.type)
    p.srcH.toNat_lt
  rw [PlaneSizes.setupScale, ← hok, hr]
  simp

/-- A picture that is to be enlarged by a half. -/
def enlarged : PlaneSizes where
  srcW := 1280
  srcH := 720
  crtcW := 1920
  crtcH := 1080
  two_le_srcW := by decide
  two_le_srcH := by decide
  two_le_crtcW := by decide
  two_le_crtcH := by decide

theorem enlarged_not_setPlaneOk : ¬ enlarged.SetPlaneOk 0 2 := by
  intro h
  have hwin : enlarged.acceptedWin 0 2 = some ⟨2, .esmart, 2, 0⟩ := rfl
  obtain ⟨r, hr, hhor, -⟩ := h _ hwin
  have hzero : ∀ r ∈ enlarged.setupScale .esmart, r.hor.factor = 0 ∧ r.hor.mode = .up := by
    decide
  obtain ⟨hfactor, hmode⟩ := hzero r hr
  rw [hhor.needed hfactor] at hmode
  cases hmode

end Edk2Rk3576.Vop2
