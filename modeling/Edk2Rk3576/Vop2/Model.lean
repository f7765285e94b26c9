import Edk2Rk3576.Efi
import Edk2Rk3576.Lib.BitFields
import Edk2Rk3576.Lib.ShadowRegs

/-!
# The video ports of the VOP2

The display controller cannot be read back safely, so `Vop2Dxe` edits a shadow of its registers.
Modelled are the calls that set a port up, start and stop it, with the registers that they write
themselves. What goes to no VOP2 register, clocks and power domains, is left out.
-/

namespace Edk2Rk3576.Vop2

/-- `mRegsBackup` and `mVpDeferOffset`, the registers by their offset. -/
abbrev Vop2Regs := ShadowRegs ℕ (BitVec 32)

abbrev Vop2Write := RegWrite ℕ (BitVec 32)

/-- No mask is zero, and `WriteMask` is never set. -/
def vop2MaskWrite (offset : ℕ) (f : BitField 32) (value : BitVec 32) : Vop2Write where
  offset
  value cachedVal := f.set cachedVal value

def vop2Writel (offset : ℕ) (value : BitVec 32) : Vop2Write where
  offset
  value _ := value

def regCfgDone : ℕ := 0x000
def autoGatingCtrl : ℕ := 0x008
def sysAxiHurryCtrl0Imd : ℕ := 0x014
def sysAxiHurryCtrl1Imd : ℕ := 0x018
def sysPdCtrl : ℕ := 0x034
def sysCtrlLineFlag0 : ℕ := 0x70
def ovlCtrl : ℕ := 0x600
def ovlMix0SrcColorCtrl : ℕ := 0x620
def vp0DspCtrl : ℕ := 0xC00
def vp0MipiCtrl : ℕ := 0xC04
def vp0ColorBarCtrl : ℕ := 0xC08
def vp0DspBg : ℕ := 0xC2C
def vp0DspHTotalHsEnd : ℕ := 0xC48
def vp0DspHActStEnd : ℕ := 0xC4C
def vp0DspVTotalVsEnd : ℕ := 0xC50
def vp0DspVActStEnd : ℕ := 0xC54
def vp0DspVsStEndF1 : ℕ := 0xC58
def vp0DspVActStEndF1 : ℕ := 0xC5C
def vp0AcmCtrl : ℕ := 0xCD0

/-- A flag at a bit, `EN_MASK`. -/
def enable (shift : ℕ) : BitField 32 := ⟨1, shift⟩

/-! The fields of `VP_DSP_CTRL`. -/

def outMode : BitField 32 := ⟨0xF, 0⟩
def coreDclkDivEn : BitField 32 := enable 4
def p2iEn : BitField 32 := enable 5
def dspFiledPol : BitField 32 := enable 6
def interlaceEn : BitField 32 := enable 7
def dataSwap : BitField 32 := ⟨0x1F, 8⟩
def postDspOutR2y : BitField 32 := enable 15
def preDitherDownEn : BitField 32 := enable 16
def ditherDownEn : BitField 32 := enable 17
def standbyEn : BitField 32 := enable 31

def dspRbSwap : BitVec 32 := 0x2
def dspRgSwap : BitVec 32 := 0x4

/-! Fields of the other registers. -/

def dclkDiv2 : BitField 32 := ⟨0x3, 4⟩
def axiPortUrgencyEn : BitField 32 := enable 24
def postUrgencyEn : BitField 32 := enable 8
def postUrgencyThl : BitField 32 := ⟨0xF, 16⟩
def postUrgencyThh : BitField 32 := ⟨0xF, 20⟩
def dspLineFlagNum0 : BitField 32 := ⟨0x1FFF, 0⟩
def dspLineFlagNum1 : BitField 32 := ⟨0x1FFF, 16⟩
def acmBypassEn : BitField 32 := enable 0

/-- `AUTO_GATING_EN` and `ACLK_PRE_AUTO_GATING_EN`. -/
def autoGatingMask : BitVec 32 := 0x80000080

def nrVps : ℕ := 3

theorem nrVps_pos : 0 < nrVps := by decide

def vpOffset (crtcID : ℕ) : ℕ := crtcID * 0x100

def versionRk3568 : ℕ := 0x4015
def versionRk3588 : ℕ := 0x4017
def versionRk3576 : ℕ := 0x5019

def drmModeFlagInterlace : BitVec 32 := 0x10
def drmModeFlagDblClk : BitVec 32 := 0x1000

structure DrmDisplayMode where
  flags : BitVec 32
  crtcHDisplay : BitVec 32
  crtcHSyncStart : BitVec 32
  crtcHSyncEnd : BitVec 32
  crtcHTotal : BitVec 32
  crtcVDisplay : BitVec 32
  crtcVSyncStart : BitVec 32
  crtcVSyncEnd : BitVec 32
  crtcVTotal : BitVec 32
  deriving DecidableEq

def DrmDisplayMode.interlaced (mode : DrmDisplayMode) : Bool :=
  decide (mode.flags &&& drmModeFlagInterlace ≠ 0)

def DrmDisplayMode.dblClk (mode : DrmDisplayMode) : Bool :=
  decide (mode.flags &&& drmModeFlagDblClk ≠ 0)

structure ConnectorState where
  displayMode : DrmDisplayMode
  busFormat : BitVec 32
  outputMode : BitVec 32
  outputInterface : BitVec 32
  deriving DecidableEq

/-- The port is one that there is. -/
structure CrtcState where
  crtcID : ℕ
  feature : BitVec 32
  crtcID_lt : crtcID < nrVps
  deriving DecidableEq

structure DisplayState where
  connectorState : ConnectorState
  crtcState : CrtcState
  deriving DecidableEq

def outModeP888 : BitVec 32 := 0
def outModeYuv420 : BitVec 32 := 14
def outModeAaaa : BitVec 32 := 15

def featureOutput10bit : BitVec 32 := 1

def outputIfBt656 : BitVec 32 := 0x4
def outputIfDp : BitVec 32 := 0x600
def outputIfHdmi : BitVec 32 := 0x1800

def busFmtRgb565_1x16 : BitVec 32 := 0x1017
def busFmtRgb666_1x18 : BitVec 32 := 0x1009
def busFmtRgb666_1x24Cpadhi : BitVec 32 := 0x1015
def busFmtRgb666_1x7x3Spwg : BitVec 32 := 0x1010
def busFmtRgb666_1x7x3Jeida : BitVec 32 := 0x101b
def busFmtUyvy8_2x8 : BitVec 32 := 0x2006
def busFmtVyuy8_2x8 : BitVec 32 := 0x2007
def busFmtYuyv8_2x8 : BitVec 32 := 0x2008
def busFmtYvyu8_2x8 : BitVec 32 := 0x2009
def busFmtUyvy8_1x16 : BitVec 32 := 0x200f
def busFmtVyuy8_1x16 : BitVec 32 := 0x2010
def busFmtYuyv8_1x16 : BitVec 32 := 0x2011
def busFmtYvyu8_1x16 : BitVec 32 := 0x2012
def busFmtYuv10_1x30 : BitVec 32 := 0x2016
def busFmtYuv8_1x24 : BitVec 32 := 0x2025
def busFmtUyyvyy8_0_5x24 : BitVec 32 := 0x2026
def busFmtUyyvyy10_0_5x30 : BitVec 32 := 0x2027

/-- The cases of `IsYUVOutput`, and of `Rk3576BusFormatIsYuv`. -/
def isYuvOutput (busFormat : BitVec 32) : Bool :=
  busFormat ∈ [busFmtYuv8_1x24, busFmtYuv10_1x30, busFmtUyyvyy8_0_5x24, busFmtUyyvyy10_0_5x30,
    busFmtYuyv8_2x8, busFmtYvyu8_2x8, busFmtUyvy8_2x8, busFmtVyuy8_2x8,
    busFmtYuyv8_1x16, busFmtYvyu8_1x16, busFmtUyvy8_1x16, busFmtVyuy8_1x16]

/-- The condition of `IsUVSwap`, and of `Rk3576NeedsRbSwap`. -/
def isUvSwap (busFormat outputMode : BitVec 32) : Bool :=
  (busFormat = busFmtYuv8_1x24 ∨ busFormat = busFmtYuv10_1x30) ∧
    (outputMode = outModeAaaa ∨ outputMode = outModeP888)

def isRgb666 (busFormat : BitVec 32) : Bool :=
  busFormat ∈ [busFmtRgb666_1x18, busFmtRgb666_1x24Cpadhi, busFmtRgb666_1x7x3Spwg,
    busFmtRgb666_1x7x3Jeida]

/-- Without the 10 bit feature, AAAA is folded to P888. -/
def foldOutputMode (feature outputMode : BitVec 32) : BitVec 32 :=
  if outputMode = outModeAaaa ∧ feature &&& featureOutput10bit = 0 then outModeP888 else outputMode

/-- The locals that `Vop2Init` keeps in 16 bits and `Rk3576VpComputeRegs` in 32. -/
structure VpTiming (w : ℕ) where
  hSyncLen : BitVec w
  hDisplay : BitVec w
  hTotal : BitVec w
  hActStart : BitVec w
  vSyncLen : BitVec w
  vDisplay : BitVec w
  vTotal : BitVec w
  vActStart : BitVec w

def vpTiming (w : ℕ) (mode : DrmDisplayMode) : VpTiming w where
  hSyncLen := (mode.crtcHSyncEnd - mode.crtcHSyncStart).setWidth w
  hDisplay := mode.crtcHDisplay.setWidth w
  hTotal := mode.crtcHTotal.setWidth w
  hActStart := (mode.crtcHTotal - mode.crtcHSyncStart).setWidth w
  vSyncLen := (mode.crtcVSyncEnd - mode.crtcVSyncStart).setWidth w
  vDisplay := mode.crtcVDisplay.setWidth w
  vTotal := mode.crtcVTotal.setWidth w
  vActStart := (mode.crtcVTotal - mode.crtcVSyncStart).setWidth w

namespace VpTiming

variable {w : ℕ}

def hActEnd (t : VpTiming w) : BitVec w := t.hActStart + t.hDisplay

def vActEnd (t : VpTiming w) : BitVec w := t.vActStart + t.vDisplay

def vActStartF1 (t : VpTiming w) : BitVec w := t.vTotal + t.vActStart + 1

def vActEndF1 (t : VpTiming w) : BitVec w := t.vActStartF1 + t.vDisplay

/-- The total that is programmed: both fields of an interlaced mode. -/
def vTotalAll (t : VpTiming w) (interlaced : Bool) : BitVec w :=
  if interlaced then t.vTotal + (t.vTotal + 1) else t.vTotal

/-- The end of the active lines, for the line flag. -/
def actEnd (t : VpTiming w) (interlaced : Bool) : BitVec w :=
  if interlaced then t.vActEndF1 else t.vActEnd

end VpTiming

/-- `(Hi << 16) | Lo`, widened to a register first. -/
def packHalves {w : ℕ} (hi lo : BitVec w) : BitVec 32 := hi.setWidth 32 <<< 16 ||| lo.setWidth 32

end Edk2Rk3576.Vop2
