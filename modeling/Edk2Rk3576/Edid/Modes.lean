import Edk2Rk3576.Efi
import Edk2Rk3576.Lib.Cells

/-!
# Display modes

The predefined modes, how they are looked up, and which modes a sink and the display controller
support.
-/

namespace Edk2Rk3576

open Cells

structure DisplayMode where
  vic : UInt32
  oscFreq : UInt32
  hActive : UInt32
  hFrontPorch : UInt32
  hSync : UInt32
  hBackPorch : UInt32
  hSyncActive : UInt32
  vActive : UInt32
  vFrontPorch : UInt32
  vSync : UInt32
  vBackPorch : UInt32
  vSyncActive : UInt32
  denActive : UInt32
  clkActive : UInt32
  deriving DecidableEq

structure HdmiSinkInfo where
  hdmi20Supported : Bool
  hdmi20SpeedLimited : Bool
  scdcSupported : Bool

structure DisplaySinkInfo where
  isHdmi : Bool
  hdmiInfo : HdmiSinkInfo
  selectableRgbRange : Bool
  preferredMode : DisplayMode

structure ConnectorState where
  edid : Cells UInt8
  type : UInt32
  sinkInfo : DisplaySinkInfo

def vopPixelClockMin : UInt32 := 25175
def vopPixelClockMax : UInt32 := 600000
def vopHorizontalResMin : UInt32 := 640
def vopHorizontalResMax : UInt32 := 4096
def vopVerticalResMin : UInt32 := 480
def vopVerticalResMax : UInt32 := 4320
def drmModeConnectorHdmia : UInt32 := 11

def isDisplayModeSupported (c : ConnectorState) (m : DisplayMode) : Bool :=
  if m.oscFreq < vopPixelClockMin || m.oscFreq > vopPixelClockMax
      || m.hActive < vopHorizontalResMin || m.hActive > vopHorizontalResMax
      || m.vActive < vopVerticalResMin || m.vActive > vopVerticalResMax then false
  else if c.type == drmModeConnectorHdmia then
    !(m.oscFreq > 340000
      && (!c.sinkInfo.hdmiInfo.hdmi20Supported || c.sinkInfo.hdmiInfo.hdmi20SpeedLimited
        || !c.sinkInfo.hdmiInfo.scdcSupported))
  else true

/-- `mDisplayModes`. -/
def displayModes : List DisplayMode :=
  [ ⟨1, 25175, 640, 16, 96, 48, 0, 480, 10, 2, 33, 0, 0, 0⟩,
    ⟨0, 40000, 800, 40, 128, 88, 1, 600, 1, 4, 23, 1, 0, 0⟩,
    ⟨0, 65000, 1024, 24, 136, 160, 0, 768, 3, 6, 29, 0, 0, 0⟩,
    ⟨0, 81750, 1152, 64, 120, 184, 0, 864, 3, 4, 26, 1, 0, 0⟩,
    ⟨4, 74250, 1280, 110, 40, 220, 1, 720, 5, 5, 20, 1, 0, 0⟩,
    ⟨0, 79500, 1280, 64, 128, 192, 0, 768, 3, 7, 20, 1, 0, 0⟩,
    ⟨0, 83500, 1280, 72, 128, 200, 0, 800, 3, 6, 22, 1, 0, 0⟩,
    ⟨0, 108000, 1280, 96, 112, 312, 1, 960, 1, 3, 36, 1, 0, 0⟩,
    ⟨0, 108000, 1280, 48, 112, 248, 1, 1024, 1, 3, 38, 1, 0, 0⟩,
    ⟨0, 85500, 1360, 64, 112, 256, 1, 768, 3, 6, 18, 1, 0, 0⟩,
    ⟨0, 121750, 1400, 88, 144, 232, 0, 1050, 3, 4, 32, 1, 0, 0⟩,
    ⟨0, 106500, 1440, 80, 152, 232, 0, 900, 3, 6, 25, 1, 0, 0⟩,
    ⟨0, 108000, 1600, 24, 80, 96, 1, 900, 1, 3, 96, 1, 0, 0⟩,
    ⟨0, 162000, 1600, 64, 192, 304, 1, 1200, 1, 3, 46, 1, 0, 0⟩,
    ⟨0, 146250, 1680, 104, 176, 280, 0, 1050, 3, 6, 30, 1, 0, 0⟩,
    ⟨16, 148500, 1920, 88, 44, 148, 1, 1080, 4, 5, 36, 1, 0, 0⟩,
    ⟨0, 154000, 1920, 48, 32, 80, 1, 1200, 3, 6, 26, 0, 0, 0⟩,
    ⟨0, 162000, 2048, 26, 80, 96, 1, 1152, 1, 3, 44, 1, 0, 0⟩,
    ⟨90, 198000, 2560, 248, 44, 148, 1, 1080, 4, 5, 11, 1, 0, 0⟩,
    ⟨0, 241500, 2560, 48, 32, 80, 1, 1440, 3, 5, 33, 1, 0, 0⟩,
    ⟨0, 268500, 2560, 48, 32, 80, 1, 1600, 3, 6, 37, 0, 0, 0⟩,
    ⟨0, 319750, 3440, 48, 32, 80, 1, 1440, 3, 10, 28, 0, 0, 0⟩,
    ⟨95, 297000, 3840, 176, 88, 296, 1, 2160, 8, 10, 72, 1, 0, 0⟩,
    ⟨97, 594000, 3840, 176, 88, 296, 1, 2160, 8, 10, 72, 1, 0, 0⟩,
    ⟨100, 297000, 4096, 88, 88, 128, 1, 2160, 8, 10, 72, 1, 0, 0⟩,
    ⟨102, 594000, 4096, 88, 88, 128, 1, 2160, 8, 10, 72, 1, 0, 0⟩ ]

/-- `DisplayModeVRefresh`, by way of `DrmModeVRefresh`: `VTotal` is an `int` there. -/
def displayModeVRefresh (m : DisplayMode) : UInt32 :=
  let hTotal := m.hActive + m.hFrontPorch + m.hSync + m.hBackPorch
  let vTotal := m.vActive + m.vFrontPorch + m.vSync + m.vBackPorch
  if hTotal > 0 && vTotal > 0 then
    (m.oscFreq * 1000 / hTotal + (vTotal.toInt32 / 2).toUInt32) / vTotal
  else 0

def getPredefinedDisplayModeByVic (vic : UInt8) : Option DisplayMode :=
  displayModes.find? fun m => m.vic == vic.toUInt32

def getPredefinedDisplayModeByResolution (horizontalResolution verticalResolution refreshRate : UInt32) :
    Option DisplayMode :=
  displayModes.find? fun m => m.hActive == horizontalResolution && m.vActive == verticalResolution
    && displayModeVRefresh m == refreshRate

/-- The clocks are at most the tolerance apart, by the absolute value of an `INT32`. -/
def clocksMatch (a b clockTolerance : UInt32) : Bool :=
  let d := (a - b).toInt32
  !((if d < 0 then -d else d).toUInt32 > clockTolerance)

/-- `MatchPredefinedDisplayMode`: all but the code and the clock are the same. -/
def matchPredefinedDisplayMode (m : DisplayMode) (clockTolerance : UInt32) : Option DisplayMode :=
  displayModes.find? fun p =>
    { m with vic := p.vic, oscFreq := p.oscFreq } == p
      && clocksMatch m.oscFreq p.oscFreq clockTolerance

def convertHdmiToCeaVic (vic : UInt8) : UInt8 :=
  match vic with
  | 1 => 95
  | 2 => 94
  | 3 => 93
  | 4 => 98
  | _ => 0

end Edk2Rk3576
