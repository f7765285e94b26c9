import Edk2Rk3576.Lib.ShadowTrace
import Edk2Rk3576.Vop2.Calls

/-!
# What else the driver writes

The registers that the other functions of `Vop2Dxe` write, and in what order: the overlay's layers,
the interfaces, the colors, the post scaler, the compression and the windows. The version is that
of the RK3576. A value that comes out of longer arithmetic, a scale factor or a divider, is a
parameter, so that it may be any.
-/

namespace Edk2Rk3576.Vop2

abbrev Vop2RegStep := RegStep ℕ (BitVec 32)

section Overlay

def ovlLayerSel : ℕ := 0x604
def ovlBgMixCtrl : ℕ := 0x670
def ovlVpOffset (crtcID : ℕ) : ℕ := crtcID * 0x100

inductive LayerType
  | cluster
  | esmart
  deriving DecidableEq

structure Vop2WinData where
  physID : ℕ
  type : LayerType
  layerSelWinID : ℕ
  regOffset : ℕ

/-- `mWinDataRK3588`. -/
def winData : List Vop2WinData :=
  [⟨0, .cluster, 0, 0⟩, ⟨1, .cluster, 1, 0x200⟩, ⟨6, .cluster, 4, 0x400⟩, ⟨7, .cluster, 5, 0x600⟩,
    ⟨2, .esmart, 2, 0⟩, ⟨3, .esmart, 3, 0x200⟩, ⟨8, .esmart, 6, 0x400⟩, ⟨9, .esmart, 7, 0x600⟩]

def nrLayers : ℕ := 6

def vop2FindWinByPhysID (physID : ℕ) : Option Vop2WinData :=
  (winData.take nrLayers).find? fun w => w.physID = physID

structure Vop2PlaneMask where
  attachedLayers : List ℕ
  primaryPlaneId : ℕ

/-- A nibble for each mixer layer, `0xf` for one that is disabled. -/
def layerSel (attachedLayers : List ℕ) : BitVec 32 :=
  attachedLayers.zipIdx.foldl (fun sel layer =>
    match vop2FindWinByPhysID layer.1 with
    | none => sel
    | some win => BitField.set ⟨0xF, layer.2 * 4⟩ sel (BitVec.ofNat 32 win.layerSelWinID)) 0xFFFF

/-- The writes of `Vop2GlobalInitial`, for the layers that the ports have. -/
def vop2GlobalInitialWrites (planes : ℕ → Vop2PlaneMask) : List Vop2Write :=
  (List.range nrVps).map fun vp =>
    vop2Writel (ovlLayerSel + ovlVpOffset vp) (layerSel (planes vp).attachedLayers)

end Overlay

section Interfaces

def dspIfEn : ℕ := 0x028
def dspIfCtrl : ℕ := 0x02C
def dspIfPol : ℕ := 0x030
def hdmi0IfCtrl : ℕ := 0x184
def vp0ClkCtrl : ℕ := 0xC0C

def outputIfHas (connector : ConnectorState) (bit : ℕ) : Bool :=
  connector.outputInterface.getLsbD bit

/-- What `Vop2IfConfig` reads besides the connector, and the dividers of `Vop2CalcCruConfig`. -/
structure IfInputs where
  mipiDsMode : Bool
  holdMode : Bool
  ifPixclkDiv : BitVec 32
  ifDclkDiv : BitVec 32
  dclkCoreDiv : BitVec 32
  dclkOutDiv : BitVec 32
  deriving Inhabited

/-- A MIPI interface: its bits for the mode, the enable, the multiplexer and the divider. -/
def vop2MipiIf (modeSel en : ℕ) (mux pixclk : BitField 32) (vpo : ℕ) (x : IfInputs)
    (val : BitVec 32) : List Vop2Write :=
  (if x.mipiDsMode then [vop2MaskWrite dspIfCtrl (enable modeSel) 1] else [])
  ++ [vop2MaskWrite dspIfEn (enable en) 1, vop2MaskWrite dspIfEn mux val,
    vop2MaskWrite dspIfCtrl pixclk x.ifPixclkDiv]
  ++ if x.holdMode then
    [vop2MaskWrite (vp0MipiCtrl + vpo) (enable 28) 1, vop2MaskWrite (vp0MipiCtrl + vpo) (enable 30) 1]
  else []

/-- An eDP interface, and the second HDMI one. -/
def vop2EdpIf (en : ℕ) (mux dclk pixclk : BitField 32) (crtcID : ℕ) (x : IfInputs) :
    List Vop2Write :=
  [vop2MaskWrite dspIfEn (enable en) 1, vop2MaskWrite dspIfEn mux (BitVec.ofNat 32 crtcID),
    vop2MaskWrite dspIfCtrl dclk x.ifDclkDiv, vop2MaskWrite dspIfCtrl pixclk x.ifPixclkDiv]

def vop2DpIf (en : ℕ) (mux pol : BitField 32) (crtcID : ℕ) (val : BitVec 32) : List Vop2Write :=
  [vop2MaskWrite dspIfEn (enable en) 1, vop2MaskWrite dspIfEn mux (BitVec.ofNat 32 crtcID),
    vop2MaskWrite dspIfPol pol val]

/-- The polarity of the pins, and what the MIPI branches leave in the same variable. -/
def ifVal (crtcID : ℕ) (connector : ConnectorState) : BitVec 32 × BitVec 32 :=
  let flags := connector.displayMode.flags
  let val := (if flags.getLsbD 1 then 0 else 1) ||| (if flags.getLsbD 3 then 0 else 2)
  let val0 := if outputIfHas connector 5 then if crtcID = 2 then 0 else 1 else val
  let val1 :=
    if outputIfHas connector 6 then if crtcID = 2 then 0 else if crtcID = 3 then 1 else 3 else val0
  (val0, val1)

/-- The word of `HDMI0_IF_CTRL`, which goes past the shadow. -/
def hdmi0IfCtrlWord (crtcID : ℕ) (val : BitVec 32) : BitVec 32 :=
  0x80000003 ||| (BitVec.ofNat 32 crtcID &&& 0x3) <<< 2 ||| (val &&& 0x3) <<< 4

def onIf (connector : ConnectorState) (bit : ℕ) (ws : List Vop2Write) : List Vop2Write :=
  if outputIfHas connector bit then ws else []

/-- The interfaces up to the first HDMI one. -/
def vop2IfConfigFront (crtcID : ℕ) (connector : ConnectorState) (x : IfInputs) : List Vop2Write :=
  let vpo := vpOffset crtcID
  let val := ifVal crtcID connector
  onIf connector 5 (vop2MipiIf 11 6 (enable 20) ⟨3, 24⟩ vpo x val.1)
  ++ onIf connector 6 (vop2MipiIf 12 7 ⟨3, 21⟩ ⟨3, 26⟩ vpo x val.2)
  ++ onIf connector 7 (vop2EdpIf 2 ⟨3, 16⟩ ⟨3, 16⟩ ⟨3, 18⟩ crtcID x)
  ++ onIf connector 8 (vop2EdpIf 4 ⟨3, 18⟩ ⟨3, 20⟩ ⟨3, 22⟩ crtcID x)

def vop2IfConfigBack (crtcID : ℕ) (connector : ConnectorState) (x : IfInputs) : List Vop2Write :=
  let val := ifVal crtcID connector
  onIf connector 12 (vop2EdpIf 5 ⟨3, 18⟩ ⟨3, 20⟩ ⟨3, 22⟩ crtcID x)
  ++ onIf connector 9 (vop2DpIf 0 ⟨3, 12⟩ ⟨7, 8⟩ crtcID val.2)
  ++ onIf connector 10 (vop2DpIf 1 ⟨3, 14⟩ ⟨7, 12⟩ crtcID val.2)
  ++ [vop2MaskWrite (vp0ClkCtrl + vpOffset crtcID) ⟨3, 0⟩ x.dclkCoreDiv,
    vop2MaskWrite (vp0ClkCtrl + vpOffset crtcID) ⟨3, 2⟩ x.dclkOutDiv]

def vop2IfConfigSteps (crtcID : ℕ) (connector : ConnectorState) (x : IfInputs) :
    List Vop2RegStep :=
  (vop2IfConfigFront crtcID connector x).map .edit
  ++ (if outputIfHas connector 11 then
    [.past (vop2Writel hdmi0IfCtrl (hdmi0IfCtrlWord crtcID (ifVal crtcID connector).2))] else [])
  ++ (vop2IfConfigBack crtcID connector x).map .edit

end Interfaces

section Post

def vp0PreScanHTiming : ℕ := 0xC30
def vp0PostDspHActInfo : ℕ := 0xC34
def vp0PostDspVActInfo : ℕ := 0xC38
def vp0PostSclFactorYrgb : ℕ := 0xC3C
def vp0PostSclCtrl : ℕ := 0xC40
def vp0PostDspVActInfoF1 : ℕ := 0xC44
def vp0BcshCtrl : ℕ := 0xC60
def vp0BcshBcs : ℕ := 0xC64
def vp0BcshH : ℕ := 0xC68
def vp0BcshColor : ℕ := 0xC6C

def bcshOutModeNormalVideo : BitVec 32 := 3

/-- Whether the colors are changed, and to what, and the mode of `Vop2ConvertCSCMode`. -/
structure BcshInputs where
  bcshEnable : Bool
  postCscMode : BitVec 32
  brightness : BitVec 32
  contrast : BitVec 32
  saturation : BitVec 32
  sinHue : BitVec 32
  cosHue : BitVec 32

/-- Without a display info nothing is written. The overlay is YUV if the output is, so that the
conversions are not both off if the colors are changed. -/
def vop2TvConfigWrites (crtcID : ℕ) (busFormat : BitVec 32) : Option BcshInputs → List Vop2Write
  | none => []
  | some x =>
    let vpo := vpOffset crtcID
    let yuv := isYuvOutput busFormat
    [vop2MaskWrite (vp0BcshCtrl + vpo) (enable 4) (boolWord (x.bcshEnable && !yuv)),
      vop2MaskWrite (vp0BcshCtrl + vpo) (enable 0) (boolWord (x.bcshEnable && !yuv)),
      vop2MaskWrite (vp0BcshCtrl + vpo) ⟨3, 6⟩ x.postCscMode,
      vop2MaskWrite (vp0BcshCtrl + vpo) ⟨3, 2⟩ x.postCscMode]
    ++ if x.bcshEnable then
      [vop2MaskWrite (vp0BcshBcs + vpo) ⟨0xFF, 0⟩ x.brightness,
        vop2MaskWrite (vp0BcshBcs + vpo) ⟨0x1FF, 8⟩ x.contrast,
        vop2MaskWrite (vp0BcshBcs + vpo) ⟨0x3FF, 20⟩ x.saturation,
        vop2MaskWrite (vp0BcshH + vpo) ⟨0x1FF, 0⟩ x.sinHue,
        vop2MaskWrite (vp0BcshH + vpo) ⟨0x1FF, 16⟩ x.cosHue,
        vop2MaskWrite (vp0BcshBcs + vpo) ⟨3, 30⟩ bcshOutModeNormalVideo,
        vop2MaskWrite (vp0BcshColor + vpo) (enable 31) 1]
    else [vop2MaskWrite (vp0BcshColor + vpo) (enable 31) 0]

/-- The words of the post scaler, from the mode and the margins. -/
structure PostInputs where
  hActInfo : BitVec 32
  vActInfo : BitVec 32
  sclFactor : BitVec 32
  sclCtrl : BitVec 32
  vActInfoF1 : BitVec 32
  preScanHTiming : BitVec 32
  deriving Inhabited

/-- `Rk3576BgDly`. -/
def bgDly (crtcID : ℕ) : BitVec 32 := if crtcID = 0 then 20 else 16

def vop2PostConfigWrites (crtcID : ℕ) (interlaced : Bool) (x : PostInputs) : List Vop2Write :=
  let vpo := vpOffset crtcID
  [vop2Writel (vp0PostDspHActInfo + vpo) x.hActInfo,
    vop2Writel (vp0PostDspVActInfo + vpo) x.vActInfo,
    vop2Writel (vp0PostSclFactorYrgb + vpo) x.sclFactor,
    vop2Writel (vp0PostSclCtrl + vpo) x.sclCtrl]
  ++ (if interlaced then [vop2Writel (vp0PostDspVActInfoF1 + vpo) x.vActInfoF1] else [])
  ++ [vop2MaskWrite (ovlBgMixCtrl + ovlVpOffset crtcID) ⟨0xFF, 24⟩ (bgDly crtcID),
    vop2Writel (vp0PreScanHTiming + vpo) x.preScanHTiming]

end Post

section Dsc

def dscSysCtrl : ℕ := 0x200
def dscRst : ℕ := 0x204
def dscCfgDone : ℕ := 0x208
def dscInitDly : ℕ := 0x20C
def dscHTotalHsEnd : ℕ := 0x210
def dscHActStEnd : ℕ := 0x214
def dscVTotalVsEnd : ℕ := 0x218
def dscVActStEnd : ℕ := 0x21C
def dscPps0 : ℕ := 0x4000
def dscCtrl0 : ℕ := 0x40A0

/-- Which of the two compressors a port gets. -/
structure DscSelect where
  dscId : Fin 2
  dualChannel : Bool

/-- What goes to a compressor. -/
structure DscInputs where
  mipiDsMode : Bool
  interfaceMode : BitVec 32
  pixelNum : BitVec 32
  txpClkDiv : BitVec 32
  pxlClkDiv : BitVec 32
  cdsClkDiv : BitVec 32
  dlyNum : BitVec 32
  hTotalHsEnd : BitVec 32
  hActStEnd : BitVec 32
  vTotalVsEnd : BitVec 32
  vActStEnd : BitVec 32
  ctrl0 : BitVec 32
  pps : ℕ → BitVec 32
  deriving Inhabited

/-- The compressor's power domain is opened first. -/
def vop2DscEnableWrites (dscId : Fin 2) (crtcID : ℕ) (dual : Bool) (x : DscInputs) :
    List Vop2Write :=
  let ctrl := dscId.val * 0x30
  let decoder := dscId.val * 0x100
  [vop2MaskWrite sysPdCtrl (enable (5 + dscId.val)) 0,
    vop2MaskWrite (dscInitDly + ctrl) (enable 16) 1,
    vop2MaskWrite (dscSysCtrl + ctrl) ⟨3, 0⟩ (BitVec.ofNat 32 crtcID),
    vop2MaskWrite (dscSysCtrl + ctrl) ⟨1, 2⟩ (boolWord !dual),
    vop2MaskWrite (dscSysCtrl + ctrl) ⟨3, 4⟩ x.interfaceMode,
    vop2MaskWrite (dscSysCtrl + ctrl) ⟨3, 6⟩ (x.pixelNum >>> 1),
    vop2MaskWrite (dscSysCtrl + ctrl) ⟨3, 14⟩ x.txpClkDiv,
    vop2MaskWrite (dscSysCtrl + ctrl) ⟨1, 8⟩ x.pxlClkDiv,
    vop2MaskWrite (dscSysCtrl + ctrl) ⟨3, 12⟩ x.cdsClkDiv,
    vop2MaskWrite (dscSysCtrl + ctrl) (enable 17) (boolWord !x.mipiDsMode),
    vop2MaskWrite (dscSysCtrl + ctrl) ⟨3, 18⟩ (boolWord x.mipiDsMode)]
  ++ (if x.mipiDsMode then [] else
    [vop2MaskWrite (dscInitDly + ctrl) ⟨1, 16⟩ 0,
      vop2MaskWrite (dscInitDly + ctrl) ⟨0xFFFF, 0⟩ x.dlyNum,
      vop2MaskWrite (dscHTotalHsEnd + ctrl) ⟨0xFFFFFFFF, 0⟩ x.hTotalHsEnd,
      vop2MaskWrite (dscHActStEnd + ctrl) ⟨0xFFFFFFFF, 0⟩ x.hActStEnd,
      vop2MaskWrite (dscVTotalVsEnd + ctrl) ⟨0xFFFFFFFF, 0⟩ x.vTotalVsEnd,
      vop2MaskWrite (dscVActStEnd + ctrl) ⟨0xFFFFFFFF, 0⟩ x.vActStEnd])
  ++ [vop2MaskWrite (dscRst + ctrl) (enable 0) 1, vop2Writel (dscCtrl0 + decoder) x.ctrl0]
  ++ (List.range 22).map (fun i => vop2Writel (dscPps0 + decoder + i * 4) (x.pps i))
  ++ [vop2Writel (dscCtrl0 + decoder) (x.ctrl0 ||| 0x80000000)]

/-- The compressors that a port gets, if it is compressed. -/
def dscIds : Option DscSelect → List (Fin 2)
  | none => []
  | some sel => if sel.dualChannel then [0, 1] else [sel.dscId]

def vop2InitDscWrites (crtcID : ℕ) (dsc : Option DscSelect) (x : Fin 2 → DscInputs) :
    List Vop2Write :=
  (dscIds dsc).flatMap fun dscId =>
    vop2DscEnableWrites dscId crtcID (dsc.any DscSelect.dualChannel) (x dscId)

def vop2DscCfgDoneWrites (dsc : Option DscSelect) : List Vop2Write :=
  (dscIds dsc).map fun dscId => vop2MaskWrite (dscCfgDone + dscId.val * 0x30) (enable 0) 1

end Dsc

section Plane

def cluster0Win0Ctrl0 : ℕ := 0x1000
def cluster0Win0Ctrl1 : ℕ := 0x1004
def cluster0Win0YrgbMst : ℕ := 0x1010
def cluster0Win0Vir : ℕ := 0x1018
def cluster0Win0ActInfo : ℕ := 0x1020
def cluster0Win0DspInfo : ℕ := 0x1024
def cluster0Win0DspSt : ℕ := 0x1028
def cluster0Win0SclFactorYrgb : ℕ := 0x1030
def cluster0Ctrl : ℕ := 0x1100
def esmart0Ctrl0 : ℕ := 0x1800
def esmart0Ctrl1 : ℕ := 0x1804
def esmart0AxiCtrl : ℕ := 0x1808
def esmart0Region0Ctrl : ℕ := 0x1810
def esmart0Region0YrgbMst : ℕ := 0x1814
def esmart0Region0Vir : ℕ := 0x181C
def esmart0Region0ActInfo : ℕ := 0x1820
def esmart0Region0DspInfo : ℕ := 0x1824
def esmart0Region0DspSt : ℕ := 0x1828
def esmart0Region0SclCtrl : ℕ := 0x1830
def esmart0Region0SclFactorYrgb : ℕ := 0x1834
def esmart0AlphaMap : ℕ := 0x18D8
def esmart0PortSelImd : ℕ := 0x18F4
def esmart0DlyNum : ℕ := 0x18F8

/-- What a window shows, and what `Vop2SetupScale` makes of it. -/
structure PlaneInputs where
  crtcW : BitVec 32
  actInfo : BitVec 32
  dspInfo : BitVec 32
  dspSt : BitVec 32
  xVirtual : BitVec 32
  dmaAddress : BitVec 32
  format : BitVec 32
  cscMode : BitVec 32
  yMirror : Bool
  sclFactor : BitVec 32
  gt2 : BitVec 32
  gt4 : BitVec 32
  horSclMode : BitVec 32
  verSclMode : BitVec 32
  horFilterMode : BitVec 32
  verFilterMode : BitVec 32

def vop2SetupScaleWrites (win : Vop2WinData) (x : PlaneInputs) : List Vop2Write :=
  match win.type with
  | .cluster =>
    [vop2Writel (cluster0Win0SclFactorYrgb + win.regOffset) x.sclFactor,
      vop2MaskWrite (cluster0Win0Ctrl1 + win.regOffset) ⟨1, 28⟩ x.gt2,
      vop2MaskWrite (cluster0Win0Ctrl1 + win.regOffset) ⟨1, 29⟩ x.gt4,
      vop2MaskWrite (cluster0Win0Ctrl1 + win.regOffset) ⟨3, 12⟩ x.horSclMode,
      vop2MaskWrite (cluster0Win0Ctrl1 + win.regOffset) ⟨3, 14⟩ x.verSclMode]
  | .esmart =>
    [vop2Writel (esmart0Region0SclFactorYrgb + win.regOffset) x.sclFactor,
      vop2MaskWrite (esmart0Region0Ctrl + win.regOffset) ⟨1, 8⟩ x.gt2,
      vop2MaskWrite (esmart0Region0Ctrl + win.regOffset) ⟨1, 9⟩ x.gt4,
      vop2MaskWrite (esmart0Region0SclCtrl + win.regOffset) ⟨3, 0⟩ x.horSclMode,
      vop2MaskWrite (esmart0Region0SclCtrl + win.regOffset) ⟨3, 4⟩ x.verSclMode,
      vop2MaskWrite (esmart0Region0SclCtrl + win.regOffset) ⟨3, 2⟩ x.horFilterMode,
      vop2MaskWrite (esmart0Region0SclCtrl + win.regOffset) ⟨3, 6⟩ x.verFilterMode]

def vop2SetClusterWinWrites (crtcID : ℕ) (busFormat : BitVec 32) (win : Vop2WinData)
    (x : PlaneInputs) : List Vop2Write :=
  vop2SetupScaleWrites win x
  ++ [vop2MaskWrite (cluster0Win0Ctrl0 + win.regOffset) ⟨0x1F, 1⟩ x.format,
    vop2Writel (cluster0Win0Vir + win.regOffset) x.xVirtual,
    vop2Writel (cluster0Win0YrgbMst + win.regOffset) x.dmaAddress,
    vop2Writel (cluster0Win0ActInfo + win.regOffset) x.actInfo,
    vop2Writel (cluster0Win0DspInfo + win.regOffset) x.dspInfo,
    vop2Writel (cluster0Win0DspSt + win.regOffset) x.dspSt,
    vop2MaskWrite (cluster0Win0Ctrl0 + win.regOffset) (enable 0) 1,
    vop2MaskWrite (cluster0Win0Ctrl0 + win.regOffset) (enable 9) (boolWord (isYuvOutput busFormat)),
    vop2MaskWrite (cluster0Win0Ctrl0 + win.regOffset) ⟨3, 10⟩ x.cscMode,
    vop2MaskWrite (cluster0Ctrl + win.regOffset) (enable 0) 1,
    vop2Writel regCfgDone (cfgDone crtcID)]

/-- `Rk3576EsmartBusId`, `Rk3576EsmartYrgbRid` and `Rk3576EsmartUvRid`. -/
def esmartAxiIds (winIndex : ℕ) : BitVec 32 × BitVec 32 × BitVec 32 :=
  match winIndex with
  | 0 => (0, 0x10, 0x11)
  | 1 => (0, 0x12, 0x13)
  | 2 => (1, 0x0A, 0x0B)
  | _ => (1, 0x0C, 0x0D)

def vop2SetSmartWinWrites (crtcID : ℕ) (busFormat : BitVec 32) (win : Vop2WinData)
    (x : PlaneInputs) : List Vop2Write :=
  let ids := esmartAxiIds (win.regOffset / 0x200)
  vop2SetupScaleWrites win x
  ++ [vop2MaskWrite (esmart0PortSelImd + win.regOffset) ⟨3, 0⟩ (BitVec.ofNat 32 crtcID),
    vop2MaskWrite (esmart0DlyNum + win.regOffset) ⟨0xFF, 0⟩ 0,
    vop2MaskWrite (esmart0AxiCtrl + win.regOffset) ⟨1, 1⟩ ids.1,
    vop2MaskWrite (esmart0Ctrl1 + win.regOffset) ⟨0x1F, 4⟩ ids.2.1,
    vop2MaskWrite (esmart0Ctrl1 + win.regOffset) ⟨0x1F, 12⟩ ids.2.2,
    vop2Writel (esmart0AlphaMap + win.regOffset) 0xFFFFFFFF,
    vop2MaskWrite (esmart0Ctrl1 + win.regOffset) (enable 31) (boolWord x.yMirror),
    vop2MaskWrite (esmart0Region0Ctrl + win.regOffset) ⟨0x1F, 1⟩ x.format,
    vop2Writel (esmart0Region0Vir + win.regOffset) x.xVirtual,
    vop2Writel (esmart0Region0YrgbMst + win.regOffset) x.dmaAddress,
    vop2Writel (esmart0Region0ActInfo + win.regOffset) x.actInfo,
    vop2Writel (esmart0Region0DspInfo + win.regOffset) x.dspInfo,
    vop2Writel (esmart0Region0DspSt + win.regOffset) x.dspSt,
    vop2MaskWrite (esmart0Region0Ctrl + win.regOffset) (enable 0) 1,
    vop2MaskWrite (esmart0Ctrl0 + win.regOffset) (enable 1) (boolWord (isYuvOutput busFormat)),
    vop2MaskWrite (esmart0Ctrl0 + win.regOffset) ⟨3, 2⟩ x.cscMode,
    vop2Writel regCfgDone (cfgDone crtcID)]

/-- `MaxOutput.Width` of `mVpDataRK3576`. -/
def maxOutputWidth (crtcID : ℕ) : BitVec 32 :=
  if crtcID = 0 then 4096 else if crtcID = 1 then 2560 else 1920

def vop2SetPlaneWrites (crtcID primaryPlaneID : ℕ) (busFormat : BitVec 32) (x : PlaneInputs) :
    List Vop2Write :=
  if maxOutputWidth crtcID < x.crtcW then []
  else match vop2FindWinByPhysID primaryPlaneID with
    | none => []
    | some win =>
      match win.type with
      | .cluster => vop2SetClusterWinWrites crtcID busFormat win x
      | .esmart => vop2SetSmartWinWrites crtcID busFormat win x

end Plane

end Edk2Rk3576.Vop2
