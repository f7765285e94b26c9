import Edk2Rk3576.Hdmi.PhyConfig
import Edk2Rk3576.Hdmi.Scdc
import Edk2Rk3576.Lcd.DrmMode

/-!
# Setting up the HDMI link

`DwHdmiQpSetup` goes through the transmitter, the PHY and the SCDC registers of the sink. From 3.4
Gbit/s on the clock of TMDS is a fortieth of the bit rate and the data is scrambled; each of the three
is to say which it is.
-/

namespace Edk2Rk3576.Hdmi

def avpDatapathVideoSwdisable : UInt32 := 0x40
def hdcp2Bypass : UInt32 := 0x1
def opmodeFrl : UInt32 := 0x1
def opmodeFrl4Lanes : UInt32 := 0x100
def opmodeDvi : UInt32 := 0x10
def keepoutRekeyCfg : UInt32 := 0x300
def keepoutRekeyAlways : UInt32 := 0x200
def pktschedAviTxEn : UInt32 := 0x2000
def pktschedVsiTxEn : UInt32 := 0x1000
def pktschedGcpTxEn : UInt32 := 0x8

def hdmiSignalingModeDvi : UInt8 := 1

def scdcTmdsConfig : UInt8 := 0x20
def scdcTmdsBitClockRatioBy40 : UInt8 := 0x2
def scdcScramblingEnable : UInt8 := 0x1

/-- What the set up reads of the display state and of the device. -/
structure HdmiDisplay where
  sinkInfo : DisplaySinkInfo
  displayMode : Lcd.DrmDisplayMode
  displayModeVic : UInt32
  signalingMode : UInt8

/-- The transmitter with the sink, and the PHY. -/
structure HdmiLink where
  ddc : DdcState
  phy : PhyRegs

/-- How the hardware answers: what the reset of the PHY leaves, its status, and the transfers with the
sink. -/
structure SetupAnswer where
  bank : PhyRegs
  pllStatus : PhyStatus
  laneStatus : PhyStatus
  config0 : XferAnswer
  tmdsConfig : ℕ → XferAnswer
  readback : XferAnswer

section Model

/-- Steps [0] to [2]. -/
def setupController (s : DdcState) : DdcState :=
  let s := s.regWrite .mainunit0IntMaskN 0
  let s := s.regWrite .mainunit1IntMaskN 0
  let s := s.regWrite .timerBaseConfig0 0x179A7B00
  let s := s.regWrite .i2cmControl0 0x01
  let s := s.regWrite .i2cmSmSclConfig0 0x085c085c
  let s := s.regWrite .i2cmFmSclConfig0 0x085c085c
  let s := s.regMod .i2cmInterfaceControl0 0 i2cmFmEn
  let s := s.regWrite .mainunit1IntClear (i2cmOpDone ||| i2cmNackRcvd)
  let s := s.regWrite .pktschedPktEn 0
  let s := s.regWrite .pktschedPktControl0 0
  s.regMod .globalSwdisable 0 avpDatapathVideoSwdisable

/-- Steps [6] to [7b]: the scrambling is switched off, whatever the bit rate. -/
def setupOpmode (hdmiMode : Bool) (s : DdcState) : DdcState :=
  let s := s.regMod .hdcp2logicConfig0 hdcp2Bypass hdcp2Bypass
  let s := s.regMod .linkConfig0 (if hdmiMode then 0 else opmodeDvi)
    (opmodeFrl ||| opmodeFrl4Lanes ||| opmodeDvi)
  s.regWrite .scrambConfig0 0

variable (hpdTimeoutFlag : Bool)

def scdcRetries : ℕ := 3

/-- A try to clear `TMDS_CONFIG`. -/
def scdcRetry (a : ℕ → XferAnswer) (retry : ℕ) (s : DdcState) : TryEnd Unit × DdcState :=
  let r := dwHdmiScdcWrite hpdTimeoutFlag (a retry) scdcTmdsConfig 0 s
  (if efiError r.1 then .again ⟨1, Nat.one_pos⟩ else .done (), r.2)

/-- Step [7c]. A sink that is not reached is left as it is. -/
def setupScdc (a : SetupAnswer) (sinkInfo : DisplaySinkInfo) (s : DdcState) : DdcState :=
  if sinkInfo.hdmiInfo.scdcSupported then
    let s := (dwHdmiScdcWrite hpdTimeoutFlag a.config0 0x31 0x00 s).2
    let r := tryFor (scdcRetry hpdTimeoutFlag a.tmdsConfig) scdcRetries 0 s
    if r.1.isSome then (dwHdmiScdcRead hpdTimeoutFlag a.readback scdcTmdsConfig r.2).2 else r.2
  else s

def convertCeaToHdmiVic (ceaVic : UInt8) : UInt8 :=
  match ceaVic with
  | 95 => 1
  | 94 => 2
  | 93 => 3
  | 98 => 4
  | _ => 0

/-- `HdmiConfigInfoframes`, of which packets are sent. -/
def hdmiConfigInfoframes (vic : UInt32) (s : DdcState) : DdcState :=
  let s := s.regMod .pktschedPktEn pktschedAviTxEn pktschedAviTxEn
  let s := s.regMod .pktschedPktEn 0 pktschedVsiTxEn
  if convertCeaToHdmiVic vic.toUInt8 = 0 then s
  else s.regMod .pktschedPktEn pktschedVsiTxEn pktschedVsiTxEn

/-- Step [9]. -/
def setupInfoframes (vic : UInt32) (s : DdcState) : DdcState :=
  let s := s.regMod .frameComposerConfig9 keepoutRekeyAlways keepoutRekeyCfg
  let s := s.regWrite .fltConfig0 0
  hdmiConfigInfoframes vic s

/-- Step [11]. -/
def setupGcp (s : DdcState) : DdcState :=
  let s := s.regWrite .pktschedPktControl0 2
  s.regMod .pktschedPktEn pktschedGcpTxEn pktschedGcpTxEn

/-- What the search for a configuration yields. `undefined` is for a division by zero. -/
def pllFound (undefined : Option RoPllConfig) (bitRate : UInt32) : Option RoPllConfig :=
  (ropllConfig bitRate.toNat).getD undefined

variable (undefined : Option RoPllConfig)

def dwHdmiQpSetup (a : SetupAnswer) (d : HdmiDisplay) (s : HdmiLink) : EfiStatus × HdmiLink :=
  let bitRate := d.displayMode.clock * 10
  let ddc := setupController s.ddc
  let r := hdptxRopllCmnConfig (pllFound undefined bitRate) a.bank a.pllStatus s.phy
  if efiError r.1 then (r.1, ⟨ddc, r.2⟩)
  else
    let hdmiMode := d.signalingMode != hdmiSignalingModeDvi
    let ddc := setupOpmode hdmiMode ddc
    let ddc := setupScdc hpdTimeoutFlag a d.sinkInfo ddc
    let ddc := if hdmiMode then setupInfoframes d.displayModeVic ddc else ddc
    let r := hdptxRopllTmdsModeConfig bitRate a.laneStatus r.2
    if efiError r.1 then (r.1, ⟨ddc, r.2⟩)
    else (efiSuccess, ⟨if hdmiMode then setupGcp ddc else ddc, r.2⟩)

end Model

section Scdc

variable {hpdTimeoutFlag : Bool} {a : ℕ → XferAnswer} {retry : ℕ} {s s' : DdcState} {c : ℕ+}

theorem scdcRetry_again_iff : (scdcRetry hpdTimeoutFlag a retry s).1 = .again c
    ↔ c = 1 ∧ ¬ ByteAnswered hpdTimeoutFlag (a retry 0 0) := by
  have hstatus := (@dwHdmiScdcWrite_written hpdTimeoutFlag s 0 scdcTmdsConfig (a retry)).status
  unfold scdcRetry
  simp only []
  rw [← hstatus, Bool.not_eq_false]
  split_ifs with h
  · refine ⟨fun hagain => ?_, fun hc => ?_⟩
    · cases hagain
      exact ⟨rfl, h⟩
    · rw [hc.1]
      rfl
  · simp [h]

/-- How a try ends does not depend on the state. -/
theorem scdcRetry_ends (s s' : DdcState) :
    (scdcRetry hpdTimeoutFlag a retry s).1 = (scdcRetry hpdTimeoutFlag a retry s').1 := by
  have hstatus := (@dwHdmiScdcWrite_written hpdTimeoutFlag s 0 scdcTmdsConfig (a retry)).status
  have hstatus' := (@dwHdmiScdcWrite_written hpdTimeoutFlag s' 0 scdcTmdsConfig (a retry)).status
  have herror : efiError (dwHdmiScdcWrite hpdTimeoutFlag (a retry) scdcTmdsConfig 0 s).1
      = efiError (dwHdmiScdcWrite hpdTimeoutFlag (a retry) scdcTmdsConfig 0 s').1 :=
    Bool.eq_iff_iff.2 (by rw [← Bool.not_eq_false, ← Bool.not_eq_false, hstatus, hstatus'])
  unfold scdcRetry
  simp only []
  rw [herror]

/-- The sink takes a write of `TMDS_CONFIG`: one behind others that are not answered. -/
def TmdsConfigTaken (hpdTimeoutFlag : Bool) (a : ℕ → XferAnswer) : Prop :=
  ∃ retry < scdcRetries, (∀ k < retry, ¬ ByteAnswered hpdTimeoutFlag (a k 0 0)) ∧
    WriteTaken hpdTimeoutFlag (a retry 0 0)

theorem made_scdcRetry_iff {n : ℕ} :
    Made (fun retry => (scdcRetry hpdTimeoutFlag a retry s).1) scdcRetries 0 n
      ↔ (∀ k < n, ¬ ByteAnswered hpdTimeoutFlag (a k 0 0)) ∧ n < scdcRetries := by
  rw [made_iff_lt fun k c h => (scdcRetry_again_iff.1 h).1]
  simp only [Nat.zero_add, scdcRetry_again_iff, exists_eq_left]

/-- What the tries leave in the sink. -/
theorem scdcRetries_brings_iff {Q : UInt8 → Prop} (hQ : Q 0) :
    Q ((tryFor (scdcRetry hpdTimeoutFlag a) scdcRetries 0 s).2.scdc scdcTmdsConfig.toNat)
      ↔ Q (s.scdc scdcTmdsConfig.toNat) ∨ TmdsConfigTaken hpdTimeoutFlag a := by
  rw [@tryFor_brings_iff _ _ (scdcRetry hpdTimeoutFlag a)
    (fun retry => (scdcRetry hpdTimeoutFlag a retry s).1) scdcRetries 0 s
    (fun _ s' => scdcRetry_ends s' s) (fun _ => True) (fun s' => Q (s'.scdc scdcTmdsConfig.toNat))
    (fun retry => WriteTaken hpdTimeoutFlag (a retry 0 0)) trivial (fun _ _ _ => trivial)
    fun retry s' _ => (dwHdmiScdcWrite_written (a retry)).brings Q hQ]
  simp only [made_scdcRetry_iff, Nat.zero_add, TmdsConfigTaken]
  refine or_congr_right (exists_congr fun n => ?_)
  tauto

theorem scdcRetries_kept {p : ℕ → Prop} (hp : p scdcTmdsConfig.toNat) :
    SinkKept p s (tryFor (scdcRetry hpdTimeoutFlag a) scdcRetries 0 s).2 := by
  refine tryFor_invariant (I := SinkKept p s) .refl fun retry s' h => h.trans ?_
  have hwritten := @dwHdmiScdcWrite_written hpdTimeoutFlag s' 0 scdcTmdsConfig (a retry)
  exact ⟨hwritten.kept.scramb, fun r hr => hwritten.kept.scdc r fun heq => hr (heq ▸ hp)⟩

end Scdc

section Kept

variable {hpdTimeoutFlag : Bool} {a : SetupAnswer} {sinkInfo : DisplaySinkInfo} {s : DdcState}
  {p : ℕ → Prop} {vic : UInt32}

theorem setupInfoframes_kept : SinkKept p s (setupInfoframes vic s) := by
  unfold setupInfoframes hdmiConfigInfoframes
  simp only []
  split_ifs <;> exact ⟨rfl, fun _ _ => rfl⟩

theorem setupGcp_kept : SinkKept p s (setupGcp s) := ⟨rfl, fun _ _ => rfl⟩

theorem setupScdc_scramb :
    (setupScdc hpdTimeoutFlag a sinkInfo s).regs .scrambConfig0 = s.regs .scrambConfig0 := by
  have hconfig0 := (@dwHdmiScdcWrite_written hpdTimeoutFlag s 0x00 0x31 a.config0).kept.scramb
  have hretries := (@scdcRetries_kept hpdTimeoutFlag a.tmdsConfig
    (dwHdmiScdcWrite hpdTimeoutFlag a.config0 0x31 0x00 s).2 (fun _ => True) trivial).scramb
  unfold setupScdc
  simp only []
  split_ifs
  · rw [← hconfig0, ← hretries]
    exact (@dwHdmiScdcRead_kept hpdTimeoutFlag (fun _ => True) _ a.readback scdcTmdsConfig).scramb
  · rw [← hconfig0, ← hretries]
  · rfl

/-- `TMDS_CONFIG` is cleared where the sink takes a write. -/
theorem setupScdc_brings_iff (hscdc : sinkInfo.hdmiInfo.scdcSupported = true) {Q : UInt8 → Prop}
    (hQ : Q 0) : Q ((setupScdc hpdTimeoutFlag a sinkInfo s).scdc scdcTmdsConfig.toNat)
      ↔ Q (s.scdc scdcTmdsConfig.toNat) ∨ TmdsConfigTaken hpdTimeoutFlag a.tmdsConfig := by
  have hconfig0 := (@dwHdmiScdcWrite_written hpdTimeoutFlag s 0x00 0x31 a.config0).kept
  rw [← hconfig0.scdc scdcTmdsConfig.toNat (by decide), ← scdcRetries_brings_iff hQ]
  unfold setupScdc
  rw [if_pos hscdc]
  simp only []
  split_ifs
  · rw [(@dwHdmiScdcRead_kept hpdTimeoutFlag (fun _ => False) _ a.readback scdcTmdsConfig).scdc _
      not_false]
  · rfl

end Kept

section Link

variable {hpdTimeoutFlag : Bool} {undefined : Option RoPllConfig} {a : SetupAnswer}
  {d : HdmiDisplay} {s : HdmiLink}

/-- What a set up that succeeds leaves. -/
structure SetupLeaves (hpdTimeoutFlag : Bool) (a : SetupAnswer) (d : HdmiDisplay)
    (s s' : HdmiLink) : Prop where
  phy : Agrees s'.phy
    (if d.displayMode.clock * 10 ≥ 3400000 then bitrateClk40 else bitrateClk10)
  source : s'.ddc.regs .scrambConfig0 = 0
  sink : d.sinkInfo.hdmiInfo.scdcSupported = true → ∀ Q : UInt8 → Prop, Q 0 →
    (Q (s'.ddc.scdc scdcTmdsConfig.toNat) ↔
      Q (s.ddc.scdc scdcTmdsConfig.toNat) ∨ TmdsConfigTaken hpdTimeoutFlag a.tmdsConfig)

theorem dwHdmiQpSetup_leaves
    (h : (dwHdmiQpSetup hpdTimeoutFlag undefined a d s).1 = efiSuccess) :
    SetupLeaves hpdTimeoutFlag a d s (dwHdmiQpSetup hpdTimeoutFlag undefined a d s).2 := by
  unfold dwHdmiQpSetup at h ⊢
  simp only [] at h ⊢
  generalize hdptxRopllCmnConfig (pllFound undefined (d.displayMode.clock * 10)) a.bank a.pllStatus
    s.phy = pll at h ⊢
  by_cases hpll : efiError pll.1 = true
  · rw [if_pos hpll] at h
    rw [h] at hpll
    cases efiError_success.symm.trans hpll
  rw [if_neg hpll] at h ⊢
  have hphy := @hdptxRopllTmdsModeConfig_agrees pll.2 (d.displayMode.clock * 10) a.laneStatus
  generalize hdptxRopllTmdsModeConfig (d.displayMode.clock * 10) a.laneStatus pll.2 = lanes
    at h hphy ⊢
  by_cases hlanes : efiError lanes.1 = true
  · rw [if_pos hlanes] at h
    rw [h] at hlanes
    cases efiError_success.symm.trans hlanes
  rw [if_neg hlanes]
  -- the scrambler and the sink are set in steps [6] to [7c], and kept by what follows
  generalize (d.signalingMode != hdmiSignalingModeDvi) = hdmiMode
  have hsource := @setupScdc_scramb hpdTimeoutFlag a d.sinkInfo
    (setupOpmode hdmiMode (setupController s.ddc))
  have hsink := @setupScdc_brings_iff hpdTimeoutFlag a d.sinkInfo
    (setupOpmode hdmiMode (setupController s.ddc))
  generalize setupScdc hpdTimeoutFlag a d.sinkInfo (setupOpmode hdmiMode (setupController s.ddc))
    = ddc at hsource hsink ⊢
  have hkept : SinkKept (fun _ => False) ddc
      (if hdmiMode then setupGcp (if hdmiMode then setupInfoframes d.displayModeVic ddc else ddc)
        else if hdmiMode then setupInfoframes d.displayModeVic ddc else ddc) := by
    rcases hdmiMode
    · exact .refl
    · exact setupInfoframes_kept.trans setupGcp_kept
  refine ⟨hphy, hkept.scramb.trans (hsource.trans rfl), fun hscdc Q hQ => ?_⟩
  rw [hkept.scdc _ not_false, hsink hscdc hQ]
  rfl

/-- The transfers with the sink have no part in the status. -/
theorem dwHdmiQpSetup_status (config0 : XferAnswer) (tmdsConfig : ℕ → XferAnswer)
    (readback : XferAnswer) :
    (dwHdmiQpSetup hpdTimeoutFlag undefined { a with config0, tmdsConfig, readback } d s).1
      = (dwHdmiQpSetup hpdTimeoutFlag undefined a d s).1 := by
  unfold dwHdmiQpSetup
  simp only []
  split_ifs <;> rfl

/-- The PHY, the transmitter and a sink that has SCDC say the same of the coding, and it is the one of
the bit rate, which is in kbit/s. -/
structure LinkAgrees (bitRate : ℕ) (sinkInfo : DisplaySinkInfo) (s : HdmiLink) : Prop where
  phy : Agrees s.phy (if 3400000 ≤ bitRate then bitrateClk40 else bitrateClk10)
  source : s.ddc.regs .scrambConfig0 ≠ 0 ↔ 3400000 ≤ bitRate
  sink : sinkInfo.hdmiInfo.scdcSupported = true →
    s.ddc.scdc scdcTmdsConfig.toNat &&& (scdcTmdsBitClockRatioBy40 ||| scdcScramblingEnable)
      = if 3400000 ≤ bitRate then scdcTmdsBitClockRatioBy40 ||| scdcScramblingEnable else 0

/-- A sink without SCDC, one that is clear, and one that takes a write. -/
def SinkClears (hpdTimeoutFlag : Bool) (a : SetupAnswer) (sinkInfo : DisplaySinkInfo)
    (s : HdmiLink) : Prop :=
  sinkInfo.hdmiInfo.scdcSupported = true →
    s.ddc.scdc scdcTmdsConfig.toNat &&& (scdcTmdsBitClockRatioBy40 ||| scdcScramblingEnable) = 0 ∨
      TmdsConfigTaken hpdTimeoutFlag a.tmdsConfig

/-- Only the PHY goes by the bit rate. -/
theorem SetupLeaves.linkAgrees_iff {s' : HdmiLink} {bitRate : ℕ}
    (h : SetupLeaves hpdTimeoutFlag a d s s')
    (hbitRate : (d.displayMode.clock * 10).toNat = bitRate) :
    LinkAgrees bitRate d.sinkInfo s' ↔
      bitRate < 3400000 ∧ SinkClears hpdTimeoutFlag a d.sinkInfo s := by
  have hfast : d.displayMode.clock * 10 ≥ 3400000 ↔ 3400000 ≤ bitRate := by
    rw [← hbitRate]
    exact UInt32.le_iff_toNat_le
  have hphy := h.phy
  simp only [hfast] at hphy
  constructor
  · intro hagrees
    have hslow : ¬ 3400000 ≤ bitRate := fun hle => hagrees.source.2 hle h.source
    refine ⟨Nat.lt_of_not_le hslow, fun hscdc => ?_⟩
    have hclear := hagrees.sink hscdc
    rw [if_neg hslow] at hclear
    exact (h.sink hscdc (fun v => v &&& _ = 0) (by decide)).1 hclear
  · rintro ⟨hslow, hclears⟩
    refine ⟨hphy, ⟨fun hne => absurd h.source hne, fun hle => by omega⟩, fun hscdc => ?_⟩
    rw [if_neg (by omega)]
    exact (h.sink hscdc (fun v => v &&& _ = 0) (by decide)).2 (hclears hscdc)

variable {c : ConnectorState} {m : DisplayMode} {drm : Lcd.DrmDisplayMode} {vic : UInt32}
  {signalingMode : UInt8}

/-- The device, with a mode of the sink. -/
def hdmiDisplay (c : ConnectorState) (m : DisplayMode) (drm : Lcd.DrmDisplayMode) (vic : UInt32)
    (signalingMode : UInt8) : HdmiDisplay :=
  ⟨c.sinkInfo, Lcd.displayModeToDrm m drm, vic, signalingMode⟩

theorem bitRate_toNat (h : 10 * m.oscFreq.toNat < 2 ^ 32) :
    ((hdmiDisplay c m drm vic signalingMode).displayMode.clock * 10).toNat
      = 10 * m.oscFreq.toNat := by
  change (m.oscFreq * 10).toNat = _
  rw [UInt32.toNat_mul, Nat.mul_comm]
  exact Nat.mod_eq_of_lt h

/-- Of the modes that are supported, those of less than 3.4 Gbit/s are set up alike everywhere, and
only if the sink is clear in the end. -/
theorem linkAgrees_iff_of_supported (hmode : isDisplayModeSupported c m = true)
    (h : (dwHdmiQpSetup hpdTimeoutFlag undefined a (hdmiDisplay c m drm vic signalingMode) s).1
      = efiSuccess) :
    LinkAgrees (10 * m.oscFreq.toNat) c.sinkInfo
        (dwHdmiQpSetup hpdTimeoutFlag undefined a (hdmiDisplay c m drm vic signalingMode) s).2 ↔
      10 * m.oscFreq.toNat < 3400000 ∧ SinkClears hpdTimeoutFlag a c.sinkInfo s := by
  have hle : ¬ m.oscFreq > vopPixelClockMax := fun hgt => by
    simp [isDisplayModeSupported, hgt] at hmode
  have hmax : m.oscFreq.toNat ≤ 600000 := UInt32.le_iff_toNat_le.1 (UInt32.not_lt.1 hle)
  exact (dwHdmiQpSetup_leaves h).linkAgrees_iff (bitRate_toNat (by omega))

/-- Below 3.4 Gbit/s the PHY and the transmitter say a tenth and no scrambling, and all three agree if
and only if the sink has been clear or takes a write. A write that fails does not fail the set up. -/
theorem dwHdmiQpSetup_linkAgrees_iff (hrate : 10 * m.oscFreq.toNat < 3400000)
    (h : (dwHdmiQpSetup hpdTimeoutFlag undefined a (hdmiDisplay c m drm vic signalingMode) s).1
      = efiSuccess) :
    let r := (dwHdmiQpSetup hpdTimeoutFlag undefined a (hdmiDisplay c m drm vic signalingMode) s).2
    Agrees r.phy bitrateClk10 ∧ r.ddc.regs .scrambConfig0 = 0 ∧
      (LinkAgrees (10 * m.oscFreq.toNat) c.sinkInfo r ↔
        SinkClears hpdTimeoutFlag a c.sinkInfo s) ∧
      ∀ config0 tmdsConfig readback, (dwHdmiQpSetup hpdTimeoutFlag undefined
        { a with config0, tmdsConfig, readback } (hdmiDisplay c m drm vic signalingMode) s).1
          = efiSuccess := by
  have hleaves := dwHdmiQpSetup_leaves h
  have hbitRate := @bitRate_toNat c m drm vic signalingMode (by omega)
  have hslow : ¬ (hdmiDisplay c m drm vic signalingMode).displayMode.clock * 10 ≥ 3400000 := by
    rw [ge_iff_le, UInt32.le_iff_toNat_le, hbitRate]
    exact not_le.2 hrate
  have hphy := hleaves.phy
  rw [if_neg hslow] at hphy
  have hagrees := hleaves.linkAgrees_iff hbitRate
  exact ⟨hphy, hleaves.source, hagrees.trans (and_iff_right hrate),
    fun config0 tmdsConfig readback =>
      (dwHdmiQpSetup_status config0 tmdsConfig readback).trans h⟩

end Link

/-! ### Links that are set up -/

/-- A sink of HDMI 2.0 that prefers 3840x2160@60. -/
def hdmi20Connector : ConnectorState where
  edid _ := 0
  type := drmModeConnectorHdmia
  sinkInfo :=
    { isHdmi := true
      hdmiInfo := ⟨true, false, true⟩
      selectableRgbRange := false
      preferredMode := ⟨97, 594000, 3840, 176, 88, 296, 1, 2160, 8, 10, 72, 1, 0, 0⟩ }

def mode1080 : DisplayMode := ⟨16, 148500, 1920, 88, 44, 148, 1, 1080, 4, 5, 36, 1, 0, 0⟩

/-- Every try has the same answer. -/
def sinkAnswer (intStatus : UInt32) (taken : Bool) : XferAnswer := fun _ _ _ =>
  ⟨hdmiHpdPortLevel, fun _ => intStatus, fun _ => 0, taken⟩

/-- The set up of a sink that has been left scrambling, with a PHY that is ready at once. -/
def setupScrambled (m : DisplayMode) (sink : XferAnswer) : EfiStatus × HdmiLink :=
  dwHdmiQpSetup false none
    { bank := fun _ => 0
      pllStatus := fun _ _ => 0xc
      laneStatus := fun _ _ => 0xa
      config0 := sink
      tmdsConfig := fun _ => sink
      readback := sink }
    (hdmiDisplay hdmi20Connector m .zero m.vic 0)
    ⟨⟨⟨0, false, false⟩, fun _ => 0, fun _ => 0, [], fun _ => 3⟩, fun _ => 0⟩

theorem dwHdmiQpSetup_linkAgrees_taken :
    (setupScrambled mode1080 (sinkAnswer i2cmOpDone true)).1 = efiSuccess ∧
      LinkAgrees 1485000 hdmi20Connector.sinkInfo
        (setupScrambled mode1080 (sinkAnswer i2cmOpDone true)).2 := by
  have hsuccess : (setupScrambled mode1080 (sinkAnswer i2cmOpDone true)).1 = efiSuccess := by
    decide +kernel
  have htaken : TmdsConfigTaken false fun _ => sinkAnswer i2cmOpDone true :=
    ⟨0, by decide, fun k hk => absurd hk (Nat.not_lt_zero k), 0, made_zero.2 (by decide), by decide,
      rfl⟩
  exact ⟨hsuccess, (dwHdmiQpSetup_linkAgrees_iff (by decide) hsuccess).2.2.1.2 fun _ => .inr htaken⟩

/-- A sink that answers nothing stays scrambled, and 3840x2160@60 gets a clock of a fortieth without
scrambling. -/
theorem dwHdmiQpSetup_not_linkAgrees :
    (isDisplayModeSupported hdmi20Connector mode1080 = true ∧
      (setupScrambled mode1080 (sinkAnswer i2cmNackRcvd false)).1 = efiSuccess ∧
      ¬ LinkAgrees 1485000 hdmi20Connector.sinkInfo
        (setupScrambled mode1080 (sinkAnswer i2cmNackRcvd false)).2) ∧
    isDisplayModeSupported hdmi20Connector hdmi20Connector.sinkInfo.preferredMode = true ∧
      (setupScrambled hdmi20Connector.sinkInfo.preferredMode (sinkAnswer i2cmOpDone true)).1
        = efiSuccess ∧
      ¬ LinkAgrees 5940000 hdmi20Connector.sinkInfo
        (setupScrambled hdmi20Connector.sinkInfo.preferredMode (sinkAnswer i2cmOpDone true)).2 := by
  have hmode : isDisplayModeSupported hdmi20Connector mode1080 = true := by decide
  have hfast : isDisplayModeSupported hdmi20Connector hdmi20Connector.sinkInfo.preferredMode = true
    := by decide
  have hsuccess : (setupScrambled mode1080 (sinkAnswer i2cmNackRcvd false)).1 = efiSuccess := by
    decide +kernel
  have hsuccess_fast : (setupScrambled hdmi20Connector.sinkInfo.preferredMode
      (sinkAnswer i2cmOpDone true)).1 = efiSuccess := by
    decide +kernel
  refine ⟨⟨hmode, hsuccess, fun hagrees => ?_⟩, hfast, hsuccess_fast, fun hagrees => ?_⟩
  · obtain ⟨-, hclears⟩ := (linkAgrees_iff_of_supported hmode hsuccess).1 hagrees
    rcases hclears rfl with hclear | ⟨retry, -, -, n, -, -, htaken⟩
    · cases hclear
    · cases htaken
  · obtain ⟨hslow, -⟩ := (linkAgrees_iff_of_supported hfast hsuccess_fast).1 hagrees
    exact absurd hslow (by decide)

end Edk2Rk3576.Hdmi
