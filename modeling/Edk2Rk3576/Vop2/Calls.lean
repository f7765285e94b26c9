import Edk2Rk3576.Vop2.Model

/-!
# Setting up a video port

`Vop2Init` sets a port up, field by field and with timings of 16 bits, `Vop2Enable` and
`Vop2Disable` take it out of standby and into it. `Rk3576VpComputeRegs` computes what the registers
of the port should hold, as whole words and with timings of 32 bits.
-/

namespace Edk2Rk3576.Vop2

def vp0Timings : List ℕ :=
  [vp0DspHTotalHsEnd, vp0DspHActStEnd, vp0DspVTotalVsEnd, vp0DspVActStEnd, vp0DspVsStEndF1,
    vp0DspVActStEndF1]

/-- The output control and the timings of the ports. -/
def vpWords : Set ℕ := {o | ∃ vp < nrVps, ∃ r ∈ vp0DspCtrl :: vp0Timings, o = r + vpOffset vp}

/-- A function that writes none of them: `Vop2IfConfig` the interfaces, dividers and `MIPI_CTRL`,
`Vop2TVConfigUpdate` the `BCSH` registers, `Vop2PostConfig` the `POST` ones, the `DSC` functions
theirs, and `Vop2GlobalInitial` the overlay's layers. -/
structure OtherRegs where
  run : Vop2Regs → Vop2Regs
  leaves : ∀ regs : Vop2Regs, regs.Leaves vpWords (run regs)

/-- The first call takes the shadow from what the registers hold. -/
def vop2PreInit (globalInit : Bool) (hardware : ℕ → BitVec 32) (globalInitial : OtherRegs)
    (regs : Vop2Regs) : Vop2Regs :=
  if globalInit then regs else globalInitial.run { regs with shadow := hardware }

/-- `HActive` of the video timing must be 4-pixel aligned. -/
def vop2ModeFixup (mode : DrmDisplayMode) : DrmDisplayMode :=
  if mode.crtcHDisplay % 4 ≠ 0 then
    let alignOffset := 4 - mode.crtcHDisplay % 4
    { mode with
      crtcHDisplay := mode.crtcHDisplay + alignOffset
      crtcHSyncStart := mode.crtcHSyncStart + alignOffset
      crtcHSyncEnd := mode.crtcHSyncEnd + alignOffset
      crtcHTotal := mode.crtcHTotal + alignOffset }
  else mode

/-- Only port 0 can tell the memory scheduler that it runs out of pixels. -/
def vop2PortUrgency (version crtcID : ℕ) : List Vop2Write :=
  if version = versionRk3576 ∧ crtcID = 0 then
    [vop2MaskWrite sysAxiHurryCtrl0Imd axiPortUrgencyEn 1,
      vop2MaskWrite sysAxiHurryCtrl1Imd axiPortUrgencyEn 1,
      vop2MaskWrite (vp0ColorBarCtrl + vpOffset crtcID) postUrgencyEn 1,
      vop2MaskWrite (vp0ColorBarCtrl + vpOffset crtcID) postUrgencyThl 4,
      vop2MaskWrite (vp0ColorBarCtrl + vpOffset crtcID) postUrgencyThh 6]
  else []

def vop2PostColorSwap (version crtcID : ℕ) (connector : ConnectorState) : Vop2Write :=
  let dateSwap := if isUvSwap connector.busFormat connector.outputMode then dspRbSwap else 0
  let dateSwap :=
    if version = versionRk3588 ∧ connector.outputInterface &&& (outputIfHdmi ||| outputIfDp) ≠ 0 ∧
        (connector.busFormat = busFmtYuv8_1x24 ∨ connector.busFormat = busFmtYuv10_1x30) then
      dateSwap ||| dspRgSwap
    else dateSwap
  vop2MaskWrite (vp0DspCtrl + vpOffset crtcID) dataSwap dateSwap

/-- `DitherDownEn` and `PreDitherDownEn`, which the RGB formats of fewer bits leave as it is found
on the stack. -/
def vop2Dither (busFormat : BitVec 32) (stack : BitVec 8) : BitVec 8 × BitVec 8 :=
  if busFormat = busFmtRgb565_1x16 then (1, stack)
  else if isRgb666 busFormat then (1, stack)
  else if busFormat = busFmtYuv8_1x24 ∨ busFormat = busFmtUyyvyy8_0_5x24 then (0, 1)
  else (0, 0)

/-- The second field, and the bits that belong to it. `VSyncLen` is added in an `int`. -/
def vop2InitField1 (vpo : ℕ) (interlaced : Bool) (t : VpTiming 16) : List Vop2Write :=
  if interlaced then
    [vop2Writel (vp0DspVActStEndF1 + vpo) (packHalves t.vActStartF1 t.vActEndF1),
      vop2Writel (vp0DspVsStEndF1 + vpo)
        (packHalves (t.vTotal.setWidth 32) (t.vTotal.setWidth 32 + t.vSyncLen.setWidth 32)),
      vop2MaskWrite (vp0DspCtrl + vpo) interlaceEn 1,
      vop2MaskWrite (vp0DspCtrl + vpo) dspFiledPol 1,
      vop2MaskWrite (vp0DspCtrl + vpo) p2iEn 1]
  else
    [vop2MaskWrite (vp0DspCtrl + vpo) interlaceEn 0, vop2MaskWrite (vp0DspCtrl + vpo) p2iEn 0]

/-- Only the RK3568 sets `CORE_DCLK_DIV_EN`. -/
def vop2InitDclkDiv (version vpo : ℕ) (connector : ConnectorState) : List Vop2Write :=
  if version = versionRk3568 then
    if connector.displayMode.dblClk ∨ connector.outputInterface &&& outputIfBt656 ≠ 0 then
      [vop2MaskWrite (vp0DspCtrl + vpo) coreDclkDivEn 1]
    else [vop2MaskWrite (vp0DspCtrl + vpo) coreDclkDivEn 0]
  else []

def boolWord (b : Bool) : BitVec 32 := if b then 1 else 0

/-- What `Vop2Init` does to the display's state. -/
def vop2InitState (ds : DisplayState) : DisplayState :=
  { ds with
    connectorState :=
      { ds.connectorState with
        displayMode := vop2ModeFixup ds.connectorState.displayMode
        outputMode := foldOutputMode ds.crtcState.feature ds.connectorState.outputMode } }

/-- The writes of `Vop2Init` while the port's output control is deferred. `stack` is what the local
`PreDitherDownEn` holds before anything is assigned to it. -/
def vop2InitWrites (version crtcID : ℕ) (connector : ConnectorState) (stack : BitVec 8) :
    List Vop2Write :=
  let vpo := vpOffset crtcID
  let interlaced := connector.displayMode.interlaced
  let t := vpTiming 16 connector.displayMode
  let dither := vop2Dither connector.busFormat stack
  let yuvOverlay := boolWord (isYuvOutput connector.busFormat)
  [vop2PostColorSwap version crtcID connector,
    vop2MaskWrite (vp0DspCtrl + vpo) outMode connector.outputMode,
    vop2MaskWrite (vp0DspCtrl + vpo) ditherDownEn (dither.1.setWidth 32),
    vop2MaskWrite (vp0DspCtrl + vpo) preDitherDownEn (dither.2.setWidth 32),
    vop2MaskWrite ovlCtrl (enable crtcID) yuvOverlay,
    vop2Writel (vp0DspHTotalHsEnd + vpo) (packHalves t.hTotal t.hSyncLen),
    vop2Writel (vp0DspHActStEnd + vpo) (packHalves t.hActStart t.hActEnd),
    vop2Writel (vp0DspVActStEnd + vpo) (packHalves t.vActStart t.vActEnd)]
  ++ vop2InitField1 vpo interlaced t
  ++ [vop2Writel (vp0DspVTotalVsEnd + vpo) (packHalves (t.vTotalAll interlaced) t.vSyncLen)]
  ++ vop2InitDclkDiv version vpo connector
  ++ [vop2MaskWrite (vp0MipiCtrl + vpo) dclkDiv2
      (if connector.outputMode = outModeYuv420 then 0x3 else 0),
    vop2Writel (vp0DspBg + vpo) 0,
    vop2MaskWrite (vp0DspCtrl + vpo) postDspOutR2y yuvOverlay]

def vop2InitLineFlag (crtcID : ℕ) (actEnd : BitVec 32) : List Vop2Write :=
  [vop2MaskWrite (sysCtrlLineFlag0 + crtcID * 4) dspLineFlagNum0 actEnd,
    vop2MaskWrite (sysCtrlLineFlag0 + crtcID * 4) dspLineFlagNum1 actEnd]

def vop2Init (version : ℕ) (ds : DisplayState) (ifConfig postConfig : OtherRegs)
    (stack : BitVec 8) (regs : Vop2Regs) : Vop2Regs :=
  let crtcID := ds.crtcState.crtcID
  let connector := (vop2InitState ds).connectorState
  let mode := connector.displayMode
  let regs := ifConfig.run (regs.writeAll (vop2PortUrgency version crtcID))
  let regs := regs.defer (vp0DspCtrl + vpOffset crtcID)
  let regs := regs.writeAll (vop2InitWrites version crtcID connector stack)
  let regs := postConfig.run (regs.flush (vp0DspCtrl + vpOffset crtcID))
  regs.writeAll
    (vop2InitLineFlag crtcID (((vpTiming 16 mode).actEnd mode.interlaced).setWidth 32))

/-- `CFG_DONE_EN` and the port's bits. -/
def cfgDone (crtcID : ℕ) : BitVec 32 :=
  0x8000 ||| BitVec.ofNat 32 (2 ^ crtcID) ||| BitVec.ofNat 32 (2 ^ crtcID) <<< 16

/-- One mixer of a port. -/
def vop2EnableMixer (crtcID mix : ℕ) : List Vop2Write :=
  let base := ovlMix0SrcColorCtrl + crtcID * 0x100 + mix * 0x10
  [vop2Writel (base + 0x0) 0x00FF01A1, vop2Writel (base + 0x4) 0x00FF0060,
    vop2Writel (base + 0x8) 0x00000020, vop2Writel (base + 0xC) 0x00000074]

def vop2EnableWrites (crtcID : ℕ) : List Vop2Write :=
  (List.range 3).flatMap (vop2EnableMixer crtcID)
  ++ [vop2Writel sysPdCtrl 0,
    vop2MaskWrite (vp0AcmCtrl + vpOffset crtcID) acmBypassEn 0,
    vop2MaskWrite (vp0DspCtrl + vpOffset crtcID) standbyEn 0,
    vop2Writel regCfgDone (cfgDone crtcID)]

/-- `autoGating` is what `AUTO_GATING_CTRL` holds. -/
def vop2Enable (crtcID : ℕ) (autoGating : BitVec 32) (dscCfgDone : OtherRegs) (regs : Vop2Regs) :
    Vop2Regs :=
  let regs := regs.direct autoGatingCtrl (autoGating &&& ~~~autoGatingMask)
  dscCfgDone.run (regs.writeAll (vop2EnableWrites crtcID))

def vop2DisableWrites (crtcID : ℕ) : List Vop2Write :=
  [vop2MaskWrite (vp0DspCtrl + vpOffset crtcID) standbyEn 1,
    vop2Writel regCfgDone (cfgDone crtcID)]

def vop2Disable (crtcID : ℕ) (regs : Vop2Regs) : Vop2Regs :=
  regs.writeAll (vop2DisableWrites crtcID)

/-- The words for a port. -/
structure Rk3576VpRegs where
  dspCtrlStandby : BitVec 32
  dspCtrlActive : BitVec 32
  hTotalHsEnd : BitVec 32
  hActStEnd : BitVec 32
  vTotalVsEnd : BitVec 32
  vActStEnd : BitVec 32
  mipiCtrl : BitVec 32
  dspBg : BitVec 32
  lineFlag : BitVec 32
  interlaced : Bool
  vActStEndF1 : BitVec 32
  vsStEndF1 : BitVec 32

/-- What a format adds to `VP_DSP_CTRL`. -/
def rk3576DitherSetup (busFormat dspCtrl : BitVec 32) : BitVec 32 :=
  if busFormat = busFmtRgb565_1x16 then dspCtrl ||| ditherDownEn.bits
  else if isRgb666 busFormat then dspCtrl ||| ditherDownEn.bits
  else if busFormat = busFmtYuv8_1x24 ∨ busFormat = busFmtUyyvyy8_0_5x24 then
    dspCtrl ||| preDitherDownEn.bits
  else dspCtrl

/-- The value of `VP_DSP_CTRL` out of standby, as it is accumulated. -/
def rk3576DspCtrl (connector : ConnectorState) (outputMode : BitVec 32) : BitVec 32 :=
  let dspCtrl := outMode.place outputMode
  let swap := if isUvSwap connector.busFormat outputMode then dspRbSwap else 0
  let dspCtrl := dspCtrl ||| dataSwap.place swap
  let dspCtrl :=
    if isYuvOutput connector.busFormat then dspCtrl ||| postDspOutR2y.bits else dspCtrl
  let dspCtrl := rk3576DitherSetup connector.busFormat dspCtrl
  let dspCtrl :=
    if connector.displayMode.interlaced then
      dspCtrl ||| interlaceEn.bits ||| dspFiledPol.bits ||| p2iEn.bits
    else dspCtrl
  if connector.displayMode.dblClk then dspCtrl ||| coreDclkDivEn.bits else dspCtrl

/-- The words for a mode whose timings fit. -/
def rk3576VpRegs (ds : DisplayState) : Rk3576VpRegs :=
  let connector := ds.connectorState
  let mode := connector.displayMode
  let t := vpTiming 32 mode
  let outputMode := foldOutputMode ds.crtcState.feature connector.outputMode
  let dspCtrl := rk3576DspCtrl connector outputMode
  let actEnd := t.actEnd mode.interlaced
  { dspCtrlStandby := dspCtrl ||| standbyEn.bits
    dspCtrlActive := dspCtrl
    hTotalHsEnd := packHalves t.hTotal t.hSyncLen
    hActStEnd := packHalves t.hActStart t.hActEnd
    vTotalVsEnd := packHalves (t.vTotalAll mode.interlaced) t.vSyncLen
    vActStEnd := packHalves t.vActStart t.vActEnd
    mipiCtrl := if outputMode = outModeYuv420 then dclkDiv2.place 0x3 else 0
    dspBg := 0
    lineFlag := packHalves actEnd actEnd
    interlaced := mode.interlaced
    vActStEndF1 := if mode.interlaced then packHalves t.vActStartF1 t.vActEndF1 else 0
    vsStEndF1 := if mode.interlaced then packHalves t.vTotal (t.vTotal + t.vSyncLen) else 0 }

/-- The state of the display, unless it is a null pointer. -/
def rk3576VpComputeRegs : Option DisplayState → Except EfiStatus Rk3576VpRegs
  | none => .error efiInvalidParameter
  | some ds =>
    let mode := ds.connectorState.displayMode
    let t := vpTiming 32 mode
    if t.hTotal > 0xFFFF#32 ∨ t.hActEnd > 0xFFFF#32 ∨ t.hSyncLen > 0xFFFF#32 ∨
        t.vTotal > 0xFFFF#32 ∨ t.vActEnd > 0xFFFF#32 ∨ t.vSyncLen > 0xFFFF#32 then
      .error efiUnsupported
    else if mode.interlaced ∧ (t.vActEndF1 > 0xFFFF#32 ∨ t.vTotal + t.vSyncLen > 0xFFFF#32) then
      .error efiUnsupported
    else if t.vTotalAll mode.interlaced > 0xFFFF#32 then .error efiUnsupported
    else .ok (rk3576VpRegs ds)

end Edk2Rk3576.Vop2
