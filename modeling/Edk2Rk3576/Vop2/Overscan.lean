import Edk2Rk3576.Lib.CInt
import Edk2Rk3576.Vop2.Callees

/-!
# The overscan window

`Vop2PostConfig` shows the picture in a window inside of the active one, as large as the margins
say, and scales it down to fit. A margin of 100 takes nothing away.
-/

namespace Edk2Rk3576.Vop2

/-- The margins in percent, zero for one that is not set. -/
structure OverScan where
  leftMargin : UInt32
  rightMargin : UInt32
  topMargin : UInt32
  bottomMargin : UInt32
  left_le : leftMargin.toNat ≤ 100
  right_le : rightMargin.toNat ≤ 100
  top_le : topMargin.toNat ≤ 100
  bottom_le : bottomMargin.toNat ≤ 100

/-- A mode of which the starts of the active window, its ends and the lines of a field fit 16
bits. -/
structure FittingMode extends DrmDisplayMode where
  hSync_le : crtcHSyncStart.toNat ≤ crtcHTotal.toNat
  vSync_le : crtcVSyncStart.toNat ≤ crtcVTotal.toNat
  hEnd_lt : crtcHTotal.toNat - crtcHSyncStart.toNat + crtcHDisplay.toNat < 2 ^ 16
  vEnd_lt : crtcVTotal.toNat - crtcVSyncStart.toNat + crtcVDisplay.toNat < 2 ^ 16
  vTotal_lt : crtcVTotal.toNat < 2 ^ 16

def margin (m : UInt32) : ℕ := if m = 0 then 100 else m.toNat

/-- The quotient before it is returned as a `UINT16`. -/
def sclCalScale2 (src dst : ℤ) : Option ℤ :=
  (CInt.sub 32 src 1).bind fun s => (CInt.shiftLeft 32 s 12).bind fun n =>
    (CInt.sub 32 dst 1).bind fun d => CInt.div 32 n d

/-- `HSize` and `VSize`, from the margins on both sides. -/
def postSize (display : BitVec 16) (m n : ℕ) : BitVec 16 :=
  BitVec.ofNat 16 (display.toNat * ((m + n) % 2 ^ 32) % 2 ^ 32 / 200) &&& ~~~1

/-- What the start is moved by, from the margin on its side. -/
def postShift (display : BitVec 16) (m : ℕ) : BitVec 16 :=
  BitVec.ofNat 16 (display.toNat * ((100 + 2 ^ 32 - m) % 2 ^ 32) % 2 ^ 32 / 200)

/-- The words of `Vop2PostConfig`, from the factors. -/
def postWords (t : VpTiming 16) (o : OverScan) (crtcID : ℕ) (hor ver : ℤ) : PostInputs :=
  let hSize := postSize t.hDisplay (margin o.leftMargin) (margin o.rightMargin)
  let vSize := postSize t.vDisplay (margin o.topMargin) (margin o.bottomMargin)
  let hActStart := t.hActStart + postShift t.hDisplay (margin o.leftMargin)
  let vActStart := t.vActStart + postShift t.vDisplay (margin o.topMargin)
  let vActStartF1 := t.vTotal + vActStart + 1
  let hSyncLen : BitVec 32 := if t.hSyncLen < 8 then 8 else t.hSyncLen.setWidth 32
  { hActInfo := packHalves hActStart (hActStart + hSize)
    vActInfo := packHalves vActStart (vActStart + vSize)
    sclFactor := packHalves (BitVec.ofInt 16 ver) (BitVec.ofInt 16 hor)
    sclCtrl := boolWord (t.hDisplay != hSize) ||| boolWord (t.vDisplay != vSize) <<< 1
    vActInfoF1 := packHalves vActStartF1 (vActStartF1 + t.vDisplay)
    preScanHTiming := (bgDly crtcID + t.hDisplay.setWidth 32 >>> 1 - 1) <<< 16 ||| hSyncLen }

def vop2PostConfig (mode : DrmDisplayMode) (o : OverScan) (crtcID : ℕ) : Option PostInputs :=
  let t := vpTiming 16 mode
  let hSize := postSize t.hDisplay (margin o.leftMargin) (margin o.rightMargin)
  let vSize := postSize t.vDisplay (margin o.topMargin) (margin o.bottomMargin)
  (sclCalScale2 t.vDisplay.toNat vSize.toNat).bind fun ver =>
    (sclCalScale2 t.hDisplay.toNat hSize.toNat).map fun hor => postWords t o crtcID hor ver

/-! ### The result -/

def windowStart (w : BitVec 32) : ℕ := w.toNat / 2 ^ 16

def windowEnd (w : BitVec 32) : ℕ := w.toNat % 2 ^ 16

/-- The window is inside of the active one, which begins at `first`. -/
structure Within (w : BitVec 32) (first size : ℕ) : Prop where
  start : first ≤ windowStart w
  ordered : windowStart w ≤ windowEnd w
  stop : windowEnd w ≤ first + size

def windowSize (w : BitVec 32) : ℕ := windowEnd w - windowStart w

/-- What a factor stands for. -/
def scaleOf (src dst : ℤ) : ℤ := ((src - 1) * 2 ^ 12).tdiv (dst - 1)

namespace FittingMode

variable (m : FittingMode)

def hDisplay : ℕ := m.crtcHDisplay.toNat
def vDisplay : ℕ := m.crtcVDisplay.toNat
def hFirst : ℕ := m.crtcHTotal.toNat - m.crtcHSyncStart.toNat
def vFirst : ℕ := m.crtcVTotal.toNat - m.crtcVSyncStart.toNat

/-- The first active line of field 1. -/
def vFirstF1 : ℕ := m.crtcVTotal.toNat + m.vFirst + 1

structure PostWordsOk (x : PostInputs) : Prop where
  hAct : Within x.hActInfo m.hFirst m.hDisplay
  vAct : Within x.vActInfo m.vFirst m.vDisplay
  vActF1 : m.interlaced → Within x.vActInfoF1 m.vFirstF1 m.vDisplay
  horEnable : x.sclCtrl.getLsbD 0 ↔ windowSize x.hActInfo < m.hDisplay
  verEnable : x.sclCtrl.getLsbD 1 ↔ windowSize x.vActInfo < m.vDisplay
  horFactor : ((x.sclFactor.toNat % 2 ^ 16 : ℕ) : ℤ) = scaleOf m.hDisplay (windowSize x.hActInfo)
  verFactor : ((x.sclFactor.toNat / 2 ^ 16 : ℕ) : ℤ) = scaleOf m.vDisplay (windowSize x.vActInfo)

def PostConfigOk (o : OverScan) (crtcID : ℕ) : Prop :=
  ∃ x ∈ vop2PostConfig m.toDrmDisplayMode o crtcID, m.PostWordsOk x

end FittingMode

/-- The size of the window, and what its start is moved by, without a wrap. -/
def shownSize (display m n : ℕ) : ℕ := display * (m + n) / 200 / 2 * 2

def shownShift (display m : ℕ) : ℕ := display * (100 - m) / 200

/-- A factor for the sizes, or a single line of which nothing is shown. -/
def ScaleFits (src dst : ℕ) : Prop := src = 1 ∧ dst = 0 ∨ 2 ≤ dst ∧ src - 1 < 16 * (dst - 1)

section Direction

variable {display first : BitVec 16} {m n : ℕ}

theorem margin_le {m : UInt32} (h : m.toNat ≤ 100) : margin m ≤ 100 := by
  rw [margin]
  split_ifs
  · exact Nat.le_refl _
  · exact h

theorem shownSize_le (hm : m ≤ 100) (hn : n ≤ 100) (d : ℕ) :
    shownShift d m + shownSize d m n ≤ d := by
  have hround : shownSize d m n ≤ d * (m + n) / 200 := Nat.div_mul_le_self _ 2
  have hsum : d * (100 - m) + d * (m + n) ≤ 200 * d := by
    rw [← Nat.mul_add, Nat.mul_comm 200]
    exact Nat.mul_le_mul_left d (by omega)
  rw [shownShift]
  omega

theorem and_not_one (x : BitVec 16) : x &&& ~~~(1 : BitVec 16) = (x >>> 1) <<< 1 := by
  refine BitVec.eq_of_getLsbD_eq fun i hi => ?_
  simp only [BitVec.getLsbD_and, BitVec.getLsbD_not, BitVec.getLsbD_shiftLeft,
    BitVec.getLsbD_ushiftRight, BitVec.ofNat_eq_ofNat, BitVec.getLsbD_one]
  rcases i with _ | i
  · simp
  · simp [hi, Nat.add_comm 1 i]

theorem postSize_toNat (hm : m ≤ 100) (hn : n ≤ 100) :
    (postSize display m n).toNat = shownSize display.toNat m n := by
  have hd := display.isLt
  have hle : display.toNat * (m + n) ≤ display.toNat * 200 :=
    Nat.mul_le_mul_left _ (by omega)
  have hsum : (m + n) % 2 ^ 32 = m + n := by omega
  rw [postSize, and_not_one, hsum, Nat.mod_eq_of_lt (by omega),
    BitVec.toNat_shiftLeft, BitVec.toNat_ushiftRight, BitVec.toNat_ofNat, Nat.shiftLeft_eq,
    Nat.shiftRight_eq_div_pow, Nat.mod_eq_of_lt (by omega), shownSize]
  omega

theorem postShift_toNat (hm : m ≤ 100) :
    (postShift display m).toNat = shownShift display.toNat m := by
  have hd := display.isLt
  have hle : display.toNat * (100 - m) ≤ display.toNat * 100 := Nat.mul_le_mul_left _ (by omega)
  have hmargin : (100 + 2 ^ 32 - m) % 2 ^ 32 = 100 - m := by omega
  rw [postShift, hmargin, Nat.mod_eq_of_lt (by omega), BitVec.toNat_ofNat,
    Nat.mod_eq_of_lt (by omega), shownShift]

theorem packHalves_toNat (hi lo : BitVec 16) :
    (packHalves hi lo).toNat = hi.toNat * 2 ^ 16 + lo.toNat := by
  have hhi := hi.isLt
  have hlo := lo.isLt
  rw [packHalves, BitVec.toNat_or, BitVec.toNat_shiftLeft, BitVec.toNat_setWidth,
    BitVec.toNat_setWidth, Nat.mod_eq_of_lt (hhi.trans (by decide)),
    Nat.mod_eq_of_lt (hlo.trans (by decide)), Nat.shiftLeft_eq, Nat.mod_eq_of_lt (by omega),
    Nat.mul_comm, Nat.two_pow_add_eq_or_of_lt hlo]

theorem windowStart_packHalves (hi lo : BitVec 16) : windowStart (packHalves hi lo) = hi.toNat := by
  have hlo := lo.isLt
  rw [windowStart, packHalves_toNat]
  omega

theorem windowEnd_packHalves (hi lo : BitVec 16) : windowEnd (packHalves hi lo) = lo.toNat := by
  have hlo := lo.isLt
  rw [windowEnd, packHalves_toNat]
  omega

/-- The window as it is written. -/
theorem post_window (hm : m ≤ 100) (hn : n ≤ 100) (hend : first.toNat + display.toNat < 2 ^ 16) :
    windowStart (packHalves (first + postShift display m)
        (first + postShift display m + postSize display m n)) =
      first.toNat + shownShift display.toNat m ∧
    windowEnd (packHalves (first + postShift display m)
        (first + postShift display m + postSize display m n)) =
      first.toNat + shownShift display.toNat m + shownSize display.toNat m n := by
  have hle := shownSize_le hm hn display.toNat
  have hstart : (first + postShift display m).toNat =
      first.toNat + shownShift display.toNat m := by
    rw [BitVec.toNat_add, postShift_toNat hm, Nat.mod_eq_of_lt (by omega)]
  rw [windowStart_packHalves, windowEnd_packHalves]
  refine ⟨hstart, ?_⟩
  rw [BitVec.toNat_add, hstart, postSize_toNat hm hn, Nat.mod_eq_of_lt (by omega)]

/-- It is inside of the active one, and as large as the margins say. -/
theorem post_within (first display : BitVec 16) (hm : m ≤ 100) (hn : n ≤ 100) (hend : first.toNat + display.toNat < 2 ^ 16) :
    Within (packHalves (first + postShift display m)
        (first + postShift display m + postSize display m n)) first.toNat display.toNat ∧
    windowSize (packHalves (first + postShift display m)
        (first + postShift display m + postSize display m n)) =
      shownSize display.toNat m n := by
  have hle := shownSize_le hm hn display.toNat
  obtain ⟨hstart, hstop⟩ := post_window hm hn hend
  refine ⟨⟨?_, ?_, ?_⟩, ?_⟩
  · rw [hstart]
    omega
  · rw [hstart, hstop]
    omega
  · rw [hstop]
    omega
  · rw [windowSize, hstart, hstop]
    omega

end Direction

section Factor

variable {s d : ℕ} {q : ℤ}

theorem ofInt_toNat_eq (q : ℤ) : ((BitVec.ofInt 16 q).toNat : ℤ) = q ↔ 0 ≤ q ∧ q < 2 ^ 16 := by
  rw [BitVec.toNat_ofInt]
  omega

/-- Nothing is divided by zero: the sizes of windows are even. -/
theorem sclCalScale2_eq (hs : s < 2 ^ 16) (hd : d ≤ 2 ^ 16) (heven : d % 2 = 0) :
    sclCalScale2 ((s + 1 : ℕ) : ℤ) d = some (scaleOf ((s + 1 : ℕ) : ℤ) d) := by
  have hsub : CInt.sub 32 ((s + 1 : ℕ) : ℤ) 1 = some (s : ℤ) := by
    rw [CInt.sub_of_fits (by rw [CInt.Fits]; omega)]
    exact congrArg some (by omega)
  have hshift : CInt.shiftLeft 32 (s : ℤ) 12 = some ((s * 2 ^ 12 : ℕ) : ℤ) :=
    CInt.shiftLeft_natCast (n := 12) (by decide) (by omega)
  have hsubd : CInt.sub 32 (d : ℤ) 1 = some ((d : ℤ) - 1) :=
    CInt.sub_of_fits (by rw [CInt.Fits]; omega)
  have hne : (d : ℤ) - 1 ≠ 0 := by omega
  have hfits : CInt.Fits 32 (((s * 2 ^ 12 : ℕ) : ℤ).tdiv (d - 1)) := by
    have habs := Int.natAbs_tdiv_le_natAbs ((s * 2 ^ 12 : ℕ) : ℤ) (d - 1)
    rw [CInt.Fits]
    omega
  rw [sclCalScale2, hsub, Option.bind_some, hshift, Option.bind_some, hsubd, Option.bind_some,
    CInt.div, if_neg hne, CInt.fit_of_fits hfits, scaleOf]
  push_cast
  rw [add_sub_cancel_right]

/-- The quotient is what is returned. -/
theorem scaleOf_fits (heven : d % 2 = 0) :
    ((BitVec.ofInt 16 (scaleOf ((s + 1 : ℕ) : ℤ) d)).toNat : ℤ) = scaleOf ((s + 1 : ℕ) : ℤ) d ↔
      ScaleFits (s + 1) d := by
  have hn : (((s + 1 : ℕ) : ℤ) - 1) * 2 ^ 12 = ((s * 2 ^ 12 : ℕ) : ℤ) := by
    push_cast
    rw [add_sub_cancel_right]
  rw [ofInt_toNat_eq, scaleOf, hn, ScaleFits]
  rcases Nat.eq_zero_or_pos d with rfl | hpos
  · rw [show ((0 : ℕ) : ℤ) - 1 = -1 by rfl, Int.tdiv_neg, Int.tdiv_one]
    omega
  · have hpred : (d : ℤ) - 1 = ((d - 1 : ℕ) : ℤ) := by omega
    rw [hpred, ← Int.ofNat_tdiv]
    have hdiv : s * 2 ^ 12 / (d - 1) < 2 ^ 16 ↔ s * 2 ^ 12 < 2 ^ 16 * (d - 1) :=
      Nat.div_lt_iff_lt_mul (by omega)
    constructor
    · rintro ⟨-, hlt⟩
      have hlt := hdiv.1 (by exact_mod_cast hlt)
      exact .inr ⟨by omega, by omega⟩
    · rintro (⟨-, hzero⟩ | ⟨-, hlt⟩)
      · omega
      · exact ⟨Int.natCast_nonneg _, by exact_mod_cast hdiv.2 (by omega)⟩

end Factor

theorem shownSize_even (d m n : ℕ) : shownSize d m n % 2 = 0 := Nat.mul_mod_left _ _

/-- A factor of a direction, from its display size and its margins. -/
theorem post_factor (display : BitVec 16) {m n : ℕ} (hm : m ≤ 100) (hn : n ≤ 100)
    (hpos : 0 < display.toNat) :
    sclCalScale2 display.toNat (postSize display m n).toNat =
      some (scaleOf display.toNat (shownSize display.toNat m n)) ∧
    (((BitVec.ofInt 16 (scaleOf display.toNat (shownSize display.toNat m n))).toNat : ℤ) =
        scaleOf display.toNat (shownSize display.toNat m n) ↔
      ScaleFits display.toNat (shownSize display.toNat m n)) := by
  have hlt := display.isLt
  have hle := shownSize_le hm hn display.toNat
  have heven := shownSize_even display.toNat m n
  rw [postSize_toNat hm hn]
  generalize shownSize display.toNat m n = d at hle heven
  obtain ⟨s, hs⟩ := Nat.exists_eq_succ_of_ne_zero hpos.ne'
  rw [hs]
  exact ⟨sclCalScale2_eq (by omega) (by omega) heven, scaleOf_fits heven⟩

theorem packHalves_mod (hi lo : BitVec 16) : (packHalves hi lo).toNat % 2 ^ 16 = lo.toNat :=
  windowEnd_packHalves hi lo

theorem packHalves_div (hi lo : BitVec 16) : (packHalves hi lo).toNat / 2 ^ 16 = hi.toNat :=
  windowStart_packHalves hi lo

theorem sclCtrl_bits (a b : Bool) : (boolWord a ||| boolWord b <<< 1).getLsbD 0 = a ∧
    (boolWord a ||| boolWord b <<< 1).getLsbD 1 = b := by
  cases a <;> cases b <;> decide

/-- A direction is scaled down exactly when the window is smaller. -/
theorem scaleDown_iff {display : BitVec 16} {m n : ℕ} (hm : m ≤ 100) (hn : n ≤ 100) :
    (display != postSize display m n) = true ↔ shownSize display.toNat m n < display.toNat := by
  have hle := shownSize_le hm hn display.toNat
  rw [bne_iff_ne, ne_eq, ← BitVec.toNat_inj, postSize_toNat hm hn]
  omega

/-- The window of field 1 starts from the start that has been moved, and is as large as the active
one. -/
theorem fieldOne_within (total first display : BitVec 16) {m : ℕ} (hm : m ≤ 100)
    (hend : first.toNat + display.toNat < 2 ^ 16) :
    Within (packHalves (total + (first + postShift display m) + 1)
        (total + (first + postShift display m) + 1 + display))
      (total.toNat + first.toNat + 1) display.toNat ↔
    shownShift display.toNat m = 0 ∧
      total.toNat + first.toNat + 1 + display.toNat < 2 ^ 16 := by
  have hle := shownSize_le hm (Nat.zero_le 100) display.toNat
  have htotal := total.isLt
  have hstart : (total + (first + postShift display m) + 1).toNat =
      (total.toNat + (first.toNat + shownShift display.toNat m) + 1) % 2 ^ 16 := by
    rw [BitVec.toNat_add, BitVec.toNat_add, BitVec.toNat_add, postShift_toNat hm]
    simp only [BitVec.ofNat_eq_ofNat, BitVec.toNat_ofNat]
    omega
  have hlast : (total + (first + postShift display m) + 1 + display).toNat =
      ((total + (first + postShift display m) + 1).toNat + display.toNat) % 2 ^ 16 :=
    BitVec.toNat_add _ _
  constructor
  · rintro ⟨hfirst, hordered, hstop⟩
    rw [windowStart_packHalves, hstart] at hfirst
    rw [windowStart_packHalves, windowEnd_packHalves, hlast, hstart] at hordered
    rw [windowEnd_packHalves, hlast, hstart] at hstop
    omega
  · rintro ⟨hshift, hfit⟩
    rw [hshift, Nat.mod_eq_of_lt (by omega)] at hstart
    rw [hstart, Nat.mod_eq_of_lt (by omega)] at hlast
    refine ⟨?_, ?_, ?_⟩
    · rw [windowStart_packHalves, hstart]
      omega
    · rw [windowStart_packHalves, windowEnd_packHalves, hstart, hlast]
      omega
    · rw [windowEnd_packHalves, hlast]
      omega

namespace FittingMode

variable (m : FittingMode)

theorem hDisplay_toNat : (vpTiming 16 m.toDrmDisplayMode).hDisplay.toNat = m.hDisplay := by
  have h := m.hEnd_lt
  rw [vpTiming, BitVec.toNat_setWidth, Nat.mod_eq_of_lt (by omega), hDisplay]

theorem vDisplay_toNat : (vpTiming 16 m.toDrmDisplayMode).vDisplay.toNat = m.vDisplay := by
  have h := m.vEnd_lt
  rw [vpTiming, BitVec.toNat_setWidth, Nat.mod_eq_of_lt (by omega), vDisplay]

theorem hActStart_toNat : (vpTiming 16 m.toDrmDisplayMode).hActStart.toNat = m.hFirst := by
  have h := m.hEnd_lt
  rw [vpTiming, BitVec.toNat_setWidth, BitVec.toNat_sub_of_le m.hSync_le,
    Nat.mod_eq_of_lt (by omega), hFirst]

theorem vActStart_toNat : (vpTiming 16 m.toDrmDisplayMode).vActStart.toNat = m.vFirst := by
  have h := m.vEnd_lt
  rw [vpTiming, BitVec.toNat_setWidth, BitVec.toNat_sub_of_le m.vSync_le,
    Nat.mod_eq_of_lt (by omega), vFirst]

theorem vTotal_toNat : (vpTiming 16 m.toDrmDisplayMode).vTotal.toNat = m.crtcVTotal.toNat := by
  rw [vpTiming, BitVec.toNat_setWidth, Nat.mod_eq_of_lt m.vTotal_lt]

/-- The size of the window that the margins leave. -/
def hSize (o : OverScan) : ℕ := shownSize m.hDisplay (margin o.leftMargin) (margin o.rightMargin)

def vSize (o : OverScan) : ℕ := shownSize m.vDisplay (margin o.topMargin) (margin o.bottomMargin)

/-- What the top margin moves the first line by. -/
def vShift (o : OverScan) : ℕ := shownShift m.vDisplay (margin o.topMargin)

variable {m} {o : OverScan} {crtcID : ℕ}

/-- The words are right exactly when the factors fit, and field 1 is not moved. -/
theorem postWordsOk_iff : m.PostWordsOk (postWords (vpTiming 16 m.toDrmDisplayMode) o crtcID
      (scaleOf m.hDisplay (m.hSize o)) (scaleOf m.vDisplay (m.vSize o))) ↔
    ((BitVec.ofInt 16 (scaleOf m.hDisplay (m.hSize o))).toNat : ℤ) =
      scaleOf m.hDisplay (m.hSize o) ∧
    ((BitVec.ofInt 16 (scaleOf m.vDisplay (m.vSize o))).toNat : ℤ) =
      scaleOf m.vDisplay (m.vSize o) ∧
    (m.interlaced → m.vShift o = 0 ∧ m.vFirstF1 + m.vDisplay < 2 ^ 16) := by
  have hleft := margin_le o.left_le
  have hright := margin_le o.right_le
  have htop := margin_le o.top_le
  have hbottom := margin_le o.bottom_le
  have hwin := post_within (vpTiming 16 m.toDrmDisplayMode).hActStart
    (vpTiming 16 m.toDrmDisplayMode).hDisplay hleft hright
  have vwin := post_within (vpTiming 16 m.toDrmDisplayMode).vActStart
    (vpTiming 16 m.toDrmDisplayMode).vDisplay htop hbottom
  have hF1 := fieldOne_within (vpTiming 16 m.toDrmDisplayMode).vTotal
    (vpTiming 16 m.toDrmDisplayMode).vActStart (vpTiming 16 m.toDrmDisplayMode).vDisplay htop
  have hdown := @scaleDown_iff (vpTiming 16 m.toDrmDisplayMode).hDisplay _ _ hleft hright
  have vdown := @scaleDown_iff (vpTiming 16 m.toDrmDisplayMode).vDisplay _ _ htop hbottom
  rw [m.hDisplay_toNat] at hwin hdown
  rw [m.vDisplay_toNat] at vwin vdown hF1
  rw [m.hActStart_toNat] at hwin
  rw [m.vActStart_toNat] at vwin hF1
  rw [m.vTotal_toNat] at hF1
  obtain ⟨hWithin, hWindow⟩ := hwin m.hEnd_lt
  obtain ⟨vWithin, vWindow⟩ := vwin m.vEnd_lt
  have hF1 := hF1 m.vEnd_lt
  constructor
  · rintro ⟨-, -, hfield, -, -, hhor, hver⟩
    simp only [postWords, packHalves_mod, packHalves_div, hWindow, vWindow] at hhor hver
    exact ⟨hhor, hver, fun hi => hF1.1 (hfield hi)⟩
  · rintro ⟨hhor, hver, hfield⟩
    refine ⟨hWithin, vWithin, fun hi => hF1.2 (hfield hi), ?_, ?_, ?_, ?_⟩
    · simp only [postWords, hWindow]
      rw [(sclCtrl_bits _ _).1]
      exact hdown
    · simp only [postWords, vWindow]
      rw [(sclCtrl_bits _ _).2]
      exact vdown
    · simp only [postWords, packHalves_mod, hWindow]
      exact hhor
    · simp only [postWords, packHalves_div, vWindow]
      exact hver

/-- A mode that shows something has its words. -/
theorem postConfig_eq (hpos : 0 < m.hDisplay) (vpos : 0 < m.vDisplay) :
    vop2PostConfig m.toDrmDisplayMode o crtcID =
      some (postWords (vpTiming 16 m.toDrmDisplayMode) o crtcID
        (scaleOf m.hDisplay (m.hSize o)) (scaleOf m.vDisplay (m.vSize o))) := by
  have hor := (post_factor (vpTiming 16 m.toDrmDisplayMode).hDisplay (margin_le o.left_le)
    (margin_le o.right_le) (by rwa [m.hDisplay_toNat])).1
  have ver := (post_factor (vpTiming 16 m.toDrmDisplayMode).vDisplay (margin_le o.top_le)
    (margin_le o.bottom_le) (by rwa [m.vDisplay_toNat])).1
  rw [vop2PostConfig]
  simp only [hor, ver, Option.bind_some, Option.map_some]
  rw [m.hDisplay_toNat, m.vDisplay_toNat]
  rfl

theorem factor_fits_iff {d p q : ℕ} (hp : p ≤ 100) (hq : q ≤ 100) (hpos : 0 < d) (hlt : d < 2 ^ 16) :
    ((BitVec.ofInt 16 (scaleOf d (shownSize d p q))).toNat : ℤ) = scaleOf d (shownSize d p q) ↔
      ScaleFits d (shownSize d p q) := by
  have h := (post_factor (BitVec.ofNat 16 d) hp hq (by rw [BitVec.toNat_ofNat]; omega)).2
  rwa [BitVec.toNat_ofNat, Nat.mod_eq_of_lt hlt] at h

/-- A mode without a pixel or a line shifts below zero. -/
theorem postConfig_eq_none (h : m.hDisplay = 0 ∨ m.vDisplay = 0) :
    vop2PostConfig m.toDrmDisplayMode o crtcID = none := by
  rw [vop2PostConfig]
  rcases h with h | h
  · simp only [m.hDisplay_toNat, h]
    rw [Option.bind_eq_none_iff]
    exact fun _ _ => rfl
  · simp only [m.vDisplay_toNat, h]
    rfl

theorem scaleFits_pos {src dst : ℕ} (h : ScaleFits src dst) (hle : dst ≤ src) : 0 < src := by
  rcases h with ⟨rfl, -⟩ | ⟨htwo, -⟩ <;> omega

theorem postConfigOk_iff (m : FittingMode) (o : OverScan) (crtcID : ℕ) :
    m.PostConfigOk o crtcID ↔
      ScaleFits m.hDisplay (m.hSize o) ∧ ScaleFits m.vDisplay (m.vSize o) ∧
        (m.interlaced → m.vShift o = 0 ∧ m.vFirstF1 + m.vDisplay < 2 ^ 16) := by
  by_cases hpos : 0 < m.hDisplay ∧ 0 < m.vDisplay
  · have hend := m.hEnd_lt
    have vend := m.vEnd_lt
    have hfits := factor_fits_iff (margin_le o.left_le) (margin_le o.right_le) hpos.1
      (by rw [hDisplay]; omega)
    have vfits := factor_fits_iff (margin_le o.top_le) (margin_le o.bottom_le) hpos.2
      (by rw [vDisplay]; omega)
    rw [PostConfigOk, postConfig_eq hpos.1 hpos.2]
    simp only [Option.mem_some_iff, exists_eq_left']
    rw [postWordsOk_iff]
    exact and_congr hfits (and_congr vfits Iff.rfl)
  · have hnone : vop2PostConfig m.toDrmDisplayMode o crtcID = none :=
      postConfig_eq_none (by omega)
    constructor
    · rintro ⟨x, hx, -⟩
      rw [hnone] at hx
      cases hx
    · rintro ⟨hhor, hver, -⟩
      have hle := shownSize_le (margin_le o.left_le) (margin_le o.right_le) m.hDisplay
      have vle := shownSize_le (margin_le o.top_le) (margin_le o.bottom_le) m.vDisplay
      exact absurd ⟨scaleFits_pos hhor (by rw [hSize]; omega), scaleFits_pos hver (by rw [vSize]; omega)⟩ hpos

end FittingMode

/-- 1080 lines, interlaced. -/
def fullHdInterlaced : FittingMode where
  flags := drmModeFlagInterlace
  crtcHDisplay := 1920
  crtcHSyncStart := 2008
  crtcHSyncEnd := 2052
  crtcHTotal := 2200
  crtcVDisplay := 540
  crtcVSyncStart := 542
  crtcVSyncEnd := 547
  crtcVTotal := 562
  hSync_le := by decide
  vSync_le := by decide
  hEnd_lt := by decide
  vEnd_lt := by decide
  vTotal_lt := by decide

/-- A tenth of the lines is taken away at the top. -/
def topOverScan : OverScan where
  leftMargin := 0
  rightMargin := 0
  topMargin := 90
  bottomMargin := 0
  left_le := by decide
  right_le := by decide
  top_le := by decide
  bottom_le := by decide

theorem fullHdInterlaced_not_postConfigOk : ¬ fullHdInterlaced.PostConfigOk topOverScan 0 := by
  rintro ⟨x, hx, hok⟩
  have hlast : ∀ x ∈ vop2PostConfig fullHdInterlaced.toDrmDisplayMode topOverScan 0,
      fullHdInterlaced.vFirstF1 + fullHdInterlaced.vDisplay < windowEnd x.vActInfoF1 := by
    decide
  exact absurd (hok.vActF1 rfl).stop (Nat.not_le_of_lt (hlast x hx))

end Edk2Rk3576.Vop2
