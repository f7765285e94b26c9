import Edk2Rk3576.Vop2.Callees
import Edk2Rk3576.Vop2.History

/-!
# The shadow over a run of display operations

Between the operations the shadow of a register is what the hardware holds, but for `STANDBY` of
port 0: the HDMI setup takes the port out of standby past the shadow. The next `Vop2Init` of the
port writes the shadow's bit.
-/

namespace Edk2Rk3576.Vop2

open BitField BitMask ShadowRegs

variable {hardware : ℕ → BitVec 32} {crtcID o : ℕ} {v : BitVec 32} {f : BitField 32}
  {w : Vop2Write} {ws : List Vop2Write} {regs : Vop2Regs} {m : ReadBackRegs ℕ (BitVec 32)}

/-- The words of `mRegsBackup`. -/
def rk3568MaxReg : ℕ := 0x1ED0

/-- The loop of the backup reads a quarter of the words. -/
def regsBackup (hardware : ℕ → BitVec 32) (o : ℕ) : BitVec 32 :=
  if o / 4 < rk3568MaxReg / 4 then hardware o else 0

/-- What the parts of `Vop2Init` read besides the display's state. -/
structure InitInputs where
  stack : BitVec 8
  ifInputs : IfInputs
  bcsh : Option BcshInputs
  post : PostInputs
  dsc : Option DscSelect
  dscInputs : Fin 2 → DscInputs
  deriving Inhabited

inductive Vop2Op
  | preInit
  | init (ds : DisplayState) (x : InitInputs)
  | setPlane (ds : DisplayState) (primaryPlaneID : ℕ) (x : PlaneInputs)
  | enable (ds : DisplayState) (dsc : Option DscSelect)
  | disable (ds : DisplayState)
  | hdmiSetup

/-- What `Vop2Init` writes after the output control. -/
def vop2InitPost (ds : DisplayState) (x : InitInputs) : List Vop2Write :=
  let crtcID := ds.crtcState.crtcID
  let connector := (vop2InitState ds).connectorState
  vop2TvConfigWrites crtcID connector.busFormat x.bcsh
  ++ vop2PostConfigWrites crtcID connector.displayMode.interlaced x.post
  ++ vop2InitDscWrites crtcID x.dsc x.dscInputs

def vop2InitTail (ds : DisplayState) (x : InitInputs) : List Vop2Write :=
  let mode := (vop2InitState ds).connectorState.displayMode
  vop2InitPost ds x
  ++ vop2InitLineFlag ds.crtcState.crtcID
    (((vpTiming 16 mode).actEnd mode.interlaced).setWidth 32)

/-- What `Vop2Init` does before the output control is deferred. -/
def vop2InitFront (ds : DisplayState) (x : InitInputs) : List Vop2RegStep :=
  (vop2PortUrgency versionRk3576 ds.crtcState.crtcID).map .edit
  ++ vop2IfConfigSteps ds.crtcState.crtcID (vop2InitState ds).connectorState x.ifInputs

def vop2InitWindow (ds : DisplayState) (x : InitInputs) : List Vop2Write :=
  vop2InitWrites versionRk3576 ds.crtcState.crtcID (vop2InitState ds).connectorState x.stack

def vop2InitSteps (ds : DisplayState) (x : InitInputs) : List Vop2RegStep :=
  vop2InitFront ds x
  ++ (deferredEdits (dspCtrlOf ds.crtcState.crtcID) (vop2InitWindow ds x)
  ++ (vop2InitTail ds x).map .edit)

/-- The automatic gating is switched off in what the register holds. -/
def vop2EnableSteps (crtcID : ℕ) (dsc : Option DscSelect) : List Vop2RegStep :=
  .past ⟨autoGatingCtrl, fun held => held &&& ~~~autoGatingMask⟩
  :: (vop2EnableWrites crtcID ++ vop2DscCfgDoneWrites dsc).map .edit

/-- The registers of the VOP2 that `DwHdmiQpSetup` writes: port 0 goes into standby and out of it. -/
def dwHdmiQpSetupSteps : List Vop2RegStep :=
  [.past ⟨vp0DspCtrl, fun dspCtrl => dspCtrl ||| standbyEn.bits⟩,
    .past (vop2Writel regCfgDone 0x00018001),
    .past ⟨vp0DspCtrl, fun dspCtrl => dspCtrl &&& ~~~standbyEn.bits⟩,
    .past (vop2Writel regCfgDone 0x00018001)]

/-- A later call of `Vop2PreInit` does nothing. -/
def Vop2Op.steps : Vop2Op → List Vop2RegStep
  | .preInit => []
  | .init ds x => vop2InitSteps ds x
  | .setPlane ds primaryPlaneID x =>
    (vop2SetPlaneWrites ds.crtcState.crtcID primaryPlaneID ds.connectorState.busFormat x).map .edit
  | .enable ds dsc => vop2EnableSteps ds.crtcState.crtcID dsc
  | .disable ds => (vop2DisableWrites ds.crtcState.crtcID).map .edit
  | .hdmiSetup => dwHdmiQpSetupSteps

/-- The first call takes the shadow from what the registers hold. -/
def vop2PreInitSteps (hardware : ℕ → BitVec 32) (planes : ℕ → Vop2PlaneMask) :
    List Vop2RegStep :=
  .load (regsBackup hardware) :: (vop2GlobalInitialWrites planes).map .edit

/-- A run starts with `Vop2PreInit`, which makes the state that the others need. -/
def vop2Trace (hardware : ℕ → BitVec 32) (planes : ℕ → Vop2PlaneMask) (ops : List Vop2Op) :
    List Vop2RegStep :=
  vop2PreInitSteps hardware planes ++ ops.flatMap Vop2Op.steps

/-- The offset whose word of `mRegsBackup` a step uses. -/
def RegStepInBackup : Vop2RegStep → Prop
  | .edit w => w.offset / 4 < rk3568MaxReg
  | .defer o | .flush o => o / 4 < rk3568MaxReg
  | .past _ | .load _ => True

/-- The driver's bus carries what it would carry if the registers were read back: a field write
keeps what the hardware holds outside of its field, and the deferred ones are one write. -/
structure ShadowCoherent (hardware : ℕ → BitVec 32) (trace : List Vop2RegStep) : Prop where
  bus : ((vop2Start.regs).steps hardware trace).bus
    = ((⟨none, []⟩ : ReadBackRegs ℕ (BitVec 32)).steps hardware trace).bus
  index : ∀ s ∈ trace, RegStepInBackup s

/-- The registers that are only written as a whole, and past the shadow, or that are not in the
backup. -/
def untracked (o : ℕ) : Prop := o = regCfgDone ∨ o = autoGatingCtrl ∨ o = hdmi0IfCtrl ∨ 0x1ED0 ≤ o

instance : DecidablePred untracked := fun _ => inferInstanceAs (Decidable (_ ∨ _ ∨ _ ∨ _))

instance : DecidablePred (· ∈ vpWords) := fun o =>
  inferInstanceAs (Decidable (∃ vp < nrVps, ∃ r ∈ vp0DspCtrl :: vp0Timings, o = r + vpOffset vp))

/-- How the shadow's word and the hardware's may differ. -/
def wordsNear (o : ℕ) (shadow held : BitVec 32) : Prop :=
  untracked o ∨
    if o = vp0DspCtrl then shadow &&& ~~~standbyEn.bits = held &&& ~~~standbyEn.bits
    else shadow = held

theorem wordsNear_refl (o : ℕ) (v : BitVec 32) : wordsNear o v v := by
  unfold wordsNear
  split_ifs <;> exact Or.inr rfl

theorem wordsNear.eq {a b : BitVec 32} (hab : wordsNear o a b) (ho : ¬ untracked o)
    (hne : o ≠ vp0DspCtrl) : a = b := by
  rcases hab with hun | hab
  · exact absurd hun ho
  · rwa [if_neg hne] at hab

theorem wordsNear.outside {a b : BitVec 32} (hab : wordsNear o a b) (ho : ¬ untracked o) :
    a &&& ~~~standbyEn.bits = b &&& ~~~standbyEn.bits := by
  rcases hab with hun | hab
  · exact absurd hun ho
  · split_ifs at hab
    · exact hab
    · rw [hab]

/-- A write in the backup that is none of the ports' words, and of the whole register if the shadow
is not kept. -/
structure Routine (w : Vop2Write) : Prop where
  notMem : w.offset ∉ vpWords
  index : w.offset / 4 < rk3568MaxReg
  whole : untracked w.offset → ∀ a b, w.value a = w.value b

theorem routine_writel (ho : o ∉ vpWords ∧ o / 4 < rk3568MaxReg) : Routine (vop2Writel o v) :=
  ⟨ho.1, ho.2, fun _ _ _ => rfl⟩

theorem routine_mask (ho : o ∉ vpWords ∧ ¬ untracked o) : Routine (vop2MaskWrite o f v) := by
  refine ⟨ho.1, ?_, fun h => absurd h ho.2⟩
  have hlt : o < 0x1ED0 := by
    by_contra hle
    exact ho.2 (Or.inr (Or.inr (Or.inr (Nat.le_of_not_lt hle))))
  exact (Nat.div_le_self _ _).trans_lt hlt

theorem Routine.safe (hw : Routine w) : (RegStep.edit w).Safe wordsNear := by
  intro a b hab
  by_cases hun : untracked w.offset
  · exact hw.whole hun a b
  · have hmem : vp0DspCtrl ∈ vpWords := dspCtrlOf_mem nrVps_pos
    rw [hab.eq hun fun heq => hw.notMem (heq.symm ▸ hmem)]

theorem routine_urgency (hid : crtcID < nrVps) :
    ∀ w ∈ vop2PortUrgency versionRk3576 crtcID, Routine w := by
  rw [nrVps] at hid
  unfold vop2PortUrgency
  split_ifs with hport
  · obtain ⟨-, rfl⟩ := hport
    simp (disch := decide) [routine_mask]
  · simp

theorem routine_tvConfig {busFormat : BitVec 32} {x : Option BcshInputs} (hid : crtcID < nrVps) :
    ∀ w ∈ vop2TvConfigWrites crtcID busFormat x, Routine w := by
  rw [nrVps] at hid
  cases x with
  | none => simp [vop2TvConfigWrites]
  | some x =>
    cases hb : x.bcshEnable <;> interval_cases crtcID <;>
      simp (disch := decide) [vop2TvConfigWrites, hb, routine_mask]

theorem routine_postConfig {interlaced : Bool} {x : PostInputs} (hid : crtcID < nrVps) :
    ∀ w ∈ vop2PostConfigWrites crtcID interlaced x, Routine w := by
  rw [nrVps] at hid
  unfold vop2PostConfigWrites
  interval_cases crtcID <;> split_ifs <;> simp (disch := decide) [routine_mask, routine_writel]

theorem routine_pps {dscId : Fin 2} {pps : ℕ → BitVec 32} :
    ∀ w ∈ (List.range 22).map fun i => vop2Writel (dscPps0 + dscId * 0x100 + i * 4) (pps i),
      Routine w := by
  have hpps : ∀ dscId : Fin 2, ∀ i < 22, dscPps0 + dscId * 0x100 + i * 4 ∉ vpWords ∧
      (dscPps0 + dscId * 0x100 + i * 4) / 4 < rk3568MaxReg := by
    decide
  rw [List.forall_mem_map]
  exact fun i hi => routine_writel (hpps dscId i (List.mem_range.1 hi))

theorem routine_dscEnable {dscId : Fin 2} {dual : Bool} {x : DscInputs} :
    ∀ w ∈ vop2DscEnableWrites dscId crtcID dual x, Routine w := by
  unfold vop2DscEnableWrites
  simp only [List.forall_mem_append]
  refine ⟨⟨⟨⟨?_, ?_⟩, ?_⟩, routine_pps⟩, ?_⟩ <;> obtain ⟨d, hd⟩ := dscId
  · interval_cases d <;> simp (disch := decide) [routine_mask]
  · cases x.mipiDsMode <;> interval_cases d <;> simp (disch := decide) [routine_mask]
  · interval_cases d <;> simp (disch := decide) [routine_mask, routine_writel]
  · interval_cases d <;> simp (disch := decide) [routine_writel]

theorem routine_initDsc {dsc : Option DscSelect} {x : Fin 2 → DscInputs} :
    ∀ w ∈ vop2InitDscWrites crtcID dsc x, Routine w := by
  intro w hw
  obtain ⟨dscId, -, hw⟩ := List.mem_flatMap.1 hw
  exact routine_dscEnable w hw

theorem routine_dscCfgDone {dsc : Option DscSelect} :
    ∀ w ∈ vop2DscCfgDoneWrites dsc, Routine w := by
  unfold vop2DscCfgDoneWrites
  rw [List.forall_mem_map]
  have hdone : ∀ dscId : Fin 2, dscCfgDone + dscId * 0x30 ∉ vpWords ∧
      ¬ untracked (dscCfgDone + dscId * 0x30) := by
    decide
  exact fun dscId _ => routine_mask (hdone dscId)

theorem routine_lineFlag {actEnd : BitVec 32} (hid : crtcID < nrVps) :
    ∀ w ∈ vop2InitLineFlag crtcID actEnd, Routine w := by
  rw [nrVps] at hid
  unfold vop2InitLineFlag
  interval_cases crtcID <;> simp (disch := decide) [routine_mask]

theorem routine_initPost {ds : DisplayState} {x : InitInputs} :
    ∀ w ∈ vop2InitPost ds x, Routine w := by
  have hid := ds.crtcState.crtcID_lt
  unfold vop2InitPost
  simp only [List.forall_mem_append]
  exact ⟨⟨routine_tvConfig hid, routine_postConfig hid⟩, routine_initDsc⟩

theorem routine_initTail {ds : DisplayState} {x : InitInputs} :
    ∀ w ∈ vop2InitTail ds x, Routine w := by
  unfold vop2InitTail
  simp only [List.forall_mem_append]
  exact ⟨routine_initPost, routine_lineFlag ds.crtcState.crtcID_lt⟩

theorem routine_globalInitial {planes : ℕ → Vop2PlaneMask} :
    ∀ w ∈ vop2GlobalInitialWrites planes, Routine w := by
  unfold vop2GlobalInitialWrites
  rw [List.forall_mem_map]
  intro vp hvp
  rw [List.mem_range, nrVps] at hvp
  interval_cases vp <;> exact routine_writel (by decide)

theorem routine_onIf {connector : ConnectorState} {bit : ℕ} (hws : ∀ w ∈ ws, Routine w) :
    ∀ w ∈ onIf connector bit ws, Routine w := by
  unfold onIf
  split_ifs
  · exact hws
  · simp

theorem routine_mipiIf {modeSel en : ℕ} {mux pixclk : BitField 32} {x : IfInputs}
    (hid : crtcID < nrVps) :
    ∀ w ∈ vop2MipiIf modeSel en mux pixclk (vpOffset crtcID) x v, Routine w := by
  rw [nrVps] at hid
  unfold vop2MipiIf
  simp only [List.forall_mem_append]
  refine ⟨⟨?_, ?_⟩, ?_⟩
  · cases x.mipiDsMode <;> simp (disch := decide) [routine_mask]
  · simp (disch := decide) [routine_mask]
  · cases x.holdMode <;> interval_cases crtcID <;> simp (disch := decide) [routine_mask]

theorem routine_edpIf {en : ℕ} {mux dclk pixclk : BitField 32} {x : IfInputs} :
    ∀ w ∈ vop2EdpIf en mux dclk pixclk crtcID x, Routine w := by
  simp (disch := decide) [vop2EdpIf, routine_mask]

theorem routine_dpIf {en : ℕ} {mux pol : BitField 32} :
    ∀ w ∈ vop2DpIf en mux pol crtcID v, Routine w := by
  simp (disch := decide) [vop2DpIf, routine_mask]

theorem routine_ifConfigFront {connector : ConnectorState} {x : IfInputs} (hid : crtcID < nrVps) :
    ∀ w ∈ vop2IfConfigFront crtcID connector x, Routine w := by
  unfold vop2IfConfigFront
  simp only [List.forall_mem_append]
  exact ⟨⟨⟨routine_onIf (routine_mipiIf hid), routine_onIf (routine_mipiIf hid)⟩,
    routine_onIf routine_edpIf⟩, routine_onIf routine_edpIf⟩

theorem routine_ifConfigBack {connector : ConnectorState} {x : IfInputs} (hid : crtcID < nrVps) :
    ∀ w ∈ vop2IfConfigBack crtcID connector x, Routine w := by
  unfold vop2IfConfigBack
  simp only [List.forall_mem_append]
  refine ⟨⟨⟨routine_onIf routine_edpIf, routine_onIf routine_dpIf⟩, routine_onIf routine_dpIf⟩, ?_⟩
  rw [nrVps] at hid
  interval_cases crtcID <;> simp (disch := decide) [routine_mask]

theorem routine_clusterWin {win : Vop2WinData} {busFormat : BitVec 32} {x : PlaneInputs}
    (htype : win.type = .cluster) (hoffset : win.regOffset ∈ [0, 0x200, 0x400, 0x600]) :
    ∀ w ∈ vop2SetClusterWinWrites crtcID busFormat win x, Routine w := by
  obtain ⟨physID, type, layerSelWinID, regOffset⟩ := win
  obtain rfl : type = .cluster := htype
  simp only [List.mem_cons, List.not_mem_nil, or_false] at hoffset
  rcases hoffset with rfl | rfl | rfl | rfl <;>
    simp (disch := decide) [vop2SetClusterWinWrites, vop2SetupScaleWrites, routine_mask,
      routine_writel]

/-- The windows that are found end inside of the backup. -/
theorem routine_smartWin {win : Vop2WinData} {busFormat : BitVec 32} {x : PlaneInputs}
    (htype : win.type = .esmart) (hoffset : win.regOffset ∈ [0, 0x200]) :
    ∀ w ∈ vop2SetSmartWinWrites crtcID busFormat win x, Routine w := by
  obtain ⟨physID, type, layerSelWinID, regOffset⟩ := win
  obtain rfl : type = .esmart := htype
  simp only [List.mem_cons, List.not_mem_nil, or_false] at hoffset
  rcases hoffset with rfl | rfl <;>
    simp (disch := decide) [vop2SetSmartWinWrites, vop2SetupScaleWrites, routine_mask,
      routine_writel]

theorem winData_offsets : ∀ win ∈ winData.take nrLayers,
    (win.type = .cluster ∧ win.regOffset ∈ [0, 0x200, 0x400, 0x600]) ∨
      (win.type = .esmart ∧ win.regOffset ∈ [0, 0x200]) := by
  decide

theorem routine_setPlane {primaryPlaneID : ℕ} {busFormat : BitVec 32} {x : PlaneInputs} :
    ∀ w ∈ vop2SetPlaneWrites crtcID primaryPlaneID busFormat x, Routine w := by
  unfold vop2SetPlaneWrites
  split_ifs
  · simp
  rcases hfind : vop2FindWinByPhysID primaryPlaneID with _ | win
  · simp
  rcases winData_offsets win (List.mem_of_find?_eq_some hfind) with
    ⟨htype, hoffset⟩ | ⟨htype, hoffset⟩
  · simpa only [htype] using routine_clusterWin htype hoffset
  · simpa only [htype] using routine_smartWin htype hoffset

theorem not_untracked_dspCtrl (hid : crtcID < nrVps) : ¬ untracked (dspCtrlOf crtcID) := by
  rw [nrVps] at hid
  interval_cases crtcID <;> decide

/-- A write of `STANDBY` is all that decides it. -/
theorem safe_standby (hid : crtcID < nrVps) :
    (RegStep.edit (vop2MaskWrite (dspCtrlOf crtcID) standbyEn v)).Safe wordsNear := by
  intro a b hab
  have houtside := hab.outside (not_untracked_dspCtrl hid)
  simp only [vop2MaskWrite, BitField.set, houtside]

/-- A write of an operation other than `Vop2Init`. -/
def Ordinary (crtcID : ℕ) (w : Vop2Write) : Prop :=
  Routine w ∨ ∃ v, w = vop2MaskWrite (dspCtrlOf crtcID) standbyEn v

theorem Ordinary.safe (hid : crtcID < nrVps) (hw : Ordinary crtcID w) :
    (RegStep.edit w).Safe wordsNear := by
  rcases hw with hw | ⟨v, rfl⟩
  · exact hw.safe
  · exact safe_standby hid

theorem index_dspCtrl (hid : crtcID < nrVps) : dspCtrlOf crtcID / 4 < rk3568MaxReg := by
  rw [nrVps] at hid
  interval_cases crtcID <;> decide

theorem Ordinary.index (hid : crtcID < nrVps) (hw : Ordinary crtcID w) :
    w.offset / 4 < rk3568MaxReg := by
  rcases hw with hw | ⟨v, rfl⟩
  · exact hw.index
  · exact index_dspCtrl hid

theorem routine_enableMixer {mix : ℕ} (hid : crtcID < nrVps) (hmix : mix < 3) :
    ∀ w ∈ vop2EnableMixer crtcID mix, Routine w := by
  rw [nrVps] at hid
  interval_cases crtcID <;> interval_cases mix <;>
    simp (disch := decide) [vop2EnableMixer, routine_writel]

theorem ordinary_enable (hid : crtcID < nrVps) :
    ∀ w ∈ vop2EnableWrites crtcID, Ordinary crtcID w := by
  unfold vop2EnableWrites
  simp only [List.forall_mem_append, List.forall_mem_cons]
  have hacm : Routine (vop2MaskWrite (vp0AcmCtrl + vpOffset crtcID) acmBypassEn 0) := by
    rw [nrVps] at hid
    interval_cases crtcID <;> exact routine_mask (by decide)
  refine ⟨?_, Or.inl (routine_writel (by decide)), Or.inl hacm, Or.inr ⟨0, rfl⟩,
    Or.inl (routine_writel (by decide)), List.forall_mem_nil _⟩
  intro w hw
  obtain ⟨mix, hmix, hw⟩ := List.mem_flatMap.1 hw
  exact Or.inl (routine_enableMixer hid (List.mem_range.1 hmix) w hw)

theorem ordinary_disable : ∀ w ∈ vop2DisableWrites crtcID, Ordinary crtcID w := by
  unfold vop2DisableWrites
  simp only [List.forall_mem_cons]
  exact ⟨Or.inr ⟨1, rfl⟩, Or.inl (routine_writel (by decide)), List.forall_mem_nil _⟩

/-- In the window every other write is of a register whose shadow is what the hardware holds. -/
theorem safe_initWrites {connector : ConnectorState} {stack : BitVec 8} (hid : crtcID < nrVps) :
    ∀ w ∈ vop2InitWrites versionRk3576 crtcID connector stack, w.offset ≠ dspCtrlOf crtcID →
      (RegStep.edit w).Safe wordsNear := by
  intro w hw hne a b hab
  have hoffset : ¬ untracked w.offset ∧ w.offset ≠ vp0DspCtrl := by
    rw [dspCtrlOf, vp0DspCtrl, vpOffset] at hne
    rw [nrVps] at hid
    rcases offset_vop2InitWrites connector w hw with hoffset | ⟨r, hoffset, hle, hlt⟩
    · rw [hoffset]
      decide
    · rw [vp0DspCtrl] at hle
      rw [hoffset, vpOffset] at hne ⊢
      unfold untracked regCfgDone autoGatingCtrl hdmi0IfCtrl vp0DspCtrl
      omega
  rw [hab.eq hoffset.1 hoffset.2]

theorem safe_initWindow {ds : DisplayState} {x : InitInputs} : ∀ w ∈ vop2InitWindow ds x,
    w.offset ≠ dspCtrlOf ds.crtcState.crtcID → (RegStep.edit w).Safe wordsNear :=
  safe_initWrites ds.crtcState.crtcID_lt

theorem index_initWrites {connector : ConnectorState} {stack : BitVec 8} (hid : crtcID < nrVps) :
    ∀ w ∈ vop2InitWrites versionRk3576 crtcID connector stack,
      w.offset / 4 < rk3568MaxReg := by
  intro w hw
  rw [nrVps] at hid
  rcases offset_vop2InitWrites connector w hw with hoffset | ⟨r, hoffset, hle, hlt⟩
  · rw [hoffset]
    decide
  · rw [hoffset, vpOffset, rk3568MaxReg]
    omega

/-- A step that leaves the words of the output controls alone. -/
def RoutineStep : Vop2RegStep → Prop
  | .edit w => Routine w
  | .past w => untracked w.offset
  | _ => False

variable {s : Vop2RegStep} {ss : List Vop2RegStep} {p : BitVec 32 × BitVec 32}

/-- A step that defers nothing, is as if read back, and stays in the backup. -/
structure Harmless (s : Vop2RegStep) : Prop where
  safe : s.Safe wordsNear
  atOnce : s.AtOnce
  inBackup : RegStepInBackup s

theorem RoutineStep.harmless (hs : RoutineStep s) : Harmless s := by
  cases s with
  | edit w => exact ⟨Routine.safe hs, trivial, Routine.index hs⟩
  | past w => exact ⟨fun _ _ _ => Or.inl hs, trivial, trivial⟩
  | defer o => exact hs.elim
  | flush o => exact hs.elim
  | load shadow => exact hs.elim

theorem Ordinary.harmless (hid : crtcID < nrVps) (hw : Ordinary crtcID w) : Harmless (.edit w) :=
  ⟨hw.safe hid, trivial, hw.index hid⟩

theorem RoutineStep.touch (hs : RoutineStep s) : s.touch vp0DspCtrl p = p := by
  cases s with
  | edit w =>
    have hmem : vp0DspCtrl ∈ vpWords := dspCtrlOf_mem nrVps_pos
    have hne : w.offset ≠ vp0DspCtrl := fun heq => Routine.notMem hs (heq.symm ▸ hmem)
    exact if_neg hne
  | past w =>
    have hport : ¬ untracked vp0DspCtrl := not_untracked_dspCtrl nrVps_pos
    have hne : w.offset ≠ vp0DspCtrl := fun heq => hport (heq ▸ hs)
    exact if_neg hne
  | defer o => exact hs.elim
  | flush o => exact hs.elim
  | load shadow => exact hs.elim

theorem RoutineStep.leaves {regs' : Vop2Regs} (hs : RoutineStep s) (h : regs.Leaves vpWords regs') :
    regs.Leaves vpWords (regs'.step hardware s) := by
  cases s with
  | edit w => exact h.write (Routine.notMem hs)
  | past w =>
    refine h.direct fun hmem => ?_
    have hlt := mem_vpWords_lt hmem
    have hge := mem_vpWords_ge hmem
    have hs : untracked w.offset := hs
    unfold untracked regCfgDone autoGatingCtrl hdmi0IfCtrl at hs
    rw [vp0DspCtrl] at hge
    omega
  | defer o => exact hs.elim
  | flush o => exact hs.elim
  | load shadow => exact hs.elim

theorem leaves_routine {regs' : Vop2Regs} (hss : ∀ s ∈ ss, RoutineStep s)
    (h : regs.Leaves vpWords regs') : regs.Leaves vpWords (regs'.steps hardware ss) := by
  induction ss generalizing regs' with
  | nil => exact h
  | cons s ss ih =>
    exact ih (fun t ht => hss t (List.mem_cons_of_mem _ ht)) ((hss s List.mem_cons_self).leaves h)

/-- Steps of another function. -/
def routineRegs (hardware : ℕ → BitVec 32) (ss : List Vop2RegStep)
    (hss : ∀ s ∈ ss, RoutineStep s) : OtherRegs where
  run regs := regs.steps hardware ss
  leaves regs := leaves_routine hss (Leaves.refl _ regs)

theorem touch_routine (hss : ∀ s ∈ ss, RoutineStep s) :
    ss.foldl (RegStep.touch vp0DspCtrl) p = p := by
  induction ss with
  | nil => rfl
  | cons s ss ih =>
    rw [List.foldl_cons, (hss s List.mem_cons_self).touch]
    exact ih fun t ht => hss t (List.mem_cons_of_mem _ ht)

theorem routineSteps (hws : ∀ w ∈ ws, Routine w) :
    ∀ s ∈ ws.map (RegStep.edit : Vop2Write → _), RoutineStep s := by
  rw [List.forall_mem_map]
  exact hws

theorem routine_ifConfig (ds : DisplayState) (x : InitInputs) : ∀ s ∈ vop2IfConfigSteps
    ds.crtcState.crtcID (vop2InitState ds).connectorState x.ifInputs, RoutineStep s := by
  have hid := ds.crtcState.crtcID_lt
  unfold vop2IfConfigSteps
  simp only [List.forall_mem_append]
  refine ⟨⟨routineSteps (routine_ifConfigFront hid), ?_⟩, routineSteps (routine_ifConfigBack hid)⟩
  split_ifs
  · rw [List.forall_mem_singleton]
    exact Or.inr (Or.inr (Or.inl rfl))
  · exact fun s hs => nomatch hs

/-- The steps are those of the call. -/
theorem steps_vop2Init (ds : DisplayState) (x : InitInputs) :
    regs.steps hardware (vop2InitSteps ds x)
      = vop2Init versionRk3576 ds (routineRegs hardware _ (routine_ifConfig ds x))
        (routineRegs hardware _ (routineSteps (@routine_initPost ds x))) x.stack regs := by
  simp only [vop2InitSteps, vop2InitFront, vop2InitTail, List.map_append, ShadowRegs.steps_append,
    ShadowRegs.steps_edits, steps_deferredEdits, vop2Init, routineRegs]
  rfl

theorem steps_vop2Enable {dsc : Option DscSelect} :
    regs.steps hardware (vop2EnableSteps crtcID dsc)
      = vop2Enable crtcID (held hardware regs.bus autoGatingCtrl)
        (routineRegs hardware _ (routineSteps (@routine_dscCfgDone dsc))) regs := by
  simp only [vop2EnableSteps, ShadowRegs.steps_cons, List.map_append, ShadowRegs.steps_append,
    ShadowRegs.steps_edits, vop2Enable, routineRegs]
  rfl

theorem routine_initFront (ds : DisplayState) (x : InitInputs) :
    ∀ s ∈ vop2InitFront ds x, RoutineStep s :=
  List.forall_mem_append.2 ⟨routineSteps (routine_urgency ds.crtcState.crtcID_lt),
    routine_ifConfig ds x⟩

/-- The words of a register that the shadow and the hardware hold, if only routine steps were
taken. -/
theorem coupled_routine (hc : Coupled wordsNear hardware regs m) (hss : ∀ s ∈ ss, RoutineStep s) :
    Coupled wordsNear hardware (regs.steps hardware ss) (m.steps hardware ss) ∧
      (regs.steps hardware ss).words hardware vp0DspCtrl = regs.words hardware vp0DspCtrl := by
  refine ⟨hc.steps wordsNear_refl fun s hs => (hss s hs).harmless.safe, ?_⟩
  rw [words_steps hc.deferred fun s hs => (hss s hs).harmless.atOnce, touch_routine hss]

/-- `STANDBY` of port 0, in the shadow and in the hardware. -/
structure StandbyBits where
  shadow : Bool
  hardware : Bool

def standbyBits (p : BitVec 32 × BitVec 32) : StandbyBits := ⟨p.1.getLsbD 31, p.2.getLsbD 31⟩

def Vop2Op.standby (s : StandbyBits) : Vop2Op → StandbyBits
  | .enable ds _ => if ds.crtcState.crtcID = 0 then ⟨false, false⟩ else s
  | .disable ds => if ds.crtcState.crtcID = 0 then ⟨true, true⟩ else s
  | .hdmiSetup => { s with hardware := false }
  | .preInit | .init _ _ | .setPlane _ _ _ => s

def Vop2Op.initsPort0 : Vop2Op → Prop
  | .init ds _ => ds.crtcState.crtcID = 0
  | _ => False

/-- Whenever port 0 is set up, the shadow knows whether it is in standby. -/
def StandbyKnown (s : StandbyBits) : List Vop2Op → Prop
  | [] => True
  | op :: ops => (op.initsPort0 → s.shadow = s.hardware) ∧ StandbyKnown (op.standby s) ops

theorem getLsbD_standby_zero (c : BitVec 32) : (standbyEn.set c 0).getLsbD 31 = false := by
  simp [BitField.set, BitField.place, standbyEn, enable, BitField.bits]

theorem getLsbD_standby_one (c : BitVec 32) : (standbyEn.set c 1).getLsbD 31 = true := by
  simp [BitField.set, BitField.place, standbyEn, enable, BitField.bits]

theorem getLsbD_of_and {a b : BitVec 32} :
    a &&& standbyEn.bits = b &&& standbyEn.bits ↔ a.getLsbD 31 = b.getLsbD 31 := by
  rw [and_standby, and_standby]
  cases a.getLsbD 31 <;> cases b.getLsbD 31 <;> decide

theorem setAll_dspCtrl_standby (connector : ConnectorState) (stack : BitVec 8) (c : BitVec 32) :
    (setAll (dspCtrlFields connector stack) c).getLsbD 31 = c.getLsbD 31 := by
  have hnames : ∀ interlaced, ∀ f ∈ dspCtrlNames interlaced, f.bits &&& standbyEn.bits = 0#32 := by
    decide
  refine getLsbD_of_and.1 (setAll_and ?_)
  rw [map_dspCtrlFields]
  exact hnames _

theorem fold_initWindow (ds : DisplayState) (x : InitInputs) (c : BitVec 32) :
    (writesTo (dspCtrlOf ds.crtcState.crtcID) (vop2InitWindow ds x)).foldl (fun c w => w.value c) c
      = setAll (dspCtrlFields (vop2InitState ds).connectorState x.stack) c := by
  rw [vop2InitWindow, dspCtrlOf, writesTo_dspCtrl, List.foldl_map]
  rfl

/-- The one write of the output control is as if read back, if the shadow knows of the standby. -/
theorem sameFold_iff {ds : DisplayState} {x : InitInputs}
    (hc : Coupled wordsNear hardware regs m) :
    SameFold hardware (dspCtrlOf ds.crtcState.crtcID) (vop2InitWindow ds x) regs
      ↔ (ds.crtcState.crtcID = 0 → (standbyBits (regs.words hardware vp0DspCtrl)).shadow
        = (standbyBits (regs.words hardware vp0DspCtrl)).hardware) := by
  have hid := ds.crtcState.crtcID_lt
  have hnear := hc.near (dspCtrlOf ds.crtcState.crtcID)
  have htracked := not_untracked_dspCtrl hid
  rw [SameFold, fold_initWindow, fold_initWindow]
  constructor
  · intro hfold hport
    have hbit := congrArg (fun c => BitVec.getLsbD c 31) hfold
    simp only [setAll_dspCtrl_standby] at hbit
    rwa [hport] at hbit
  · intro hbits
    have heq : regs.shadow (dspCtrlOf ds.crtcState.crtcID)
        = held hardware regs.bus (dspCtrlOf ds.crtcState.crtcID) := by
      by_cases hport : ds.crtcState.crtcID = 0
      · refine eq_of_and_eq (getLsbD_of_and.2 ?_) (hnear.outside htracked)
        rw [hport]
        exact hbits hport
      · refine hnear.eq htracked fun heq => hport ?_
        rw [dspCtrlOf, vpOffset] at heq
        omega
    rw [heq]

theorem standbyBits_initWindow {ds : DisplayState} {x : InitInputs}
    (hbits : ds.crtcState.crtcID = 0 → (standbyBits (regs.words hardware vp0DspCtrl)).shadow
      = (standbyBits (regs.words hardware vp0DspCtrl)).hardware) :
    standbyBits ((regs.steps hardware (deferredEdits (dspCtrlOf ds.crtcState.crtcID)
      (vop2InitWindow ds x))).words hardware vp0DspCtrl)
      = standbyBits (regs.words hardware vp0DspCtrl) := by
  by_cases hport : ds.crtcState.crtcID = 0
  · have hctrl : vp0DspCtrl = dspCtrlOf ds.crtcState.crtcID := by
      rw [hport]
      rfl
    have hsame := hbits hport
    rw [hctrl] at hsame ⊢
    rw [words_deferredEdits, fold_initWindow]
    simp only [standbyBits, setAll_dspCtrl_standby, words] at hsame ⊢
    rw [← hsame]
  · have hne : (0 : ℕ) ≠ ds.crtcState.crtcID := Ne.symm hport
    have hother : vp0DspCtrl ≠ dspCtrlOf ds.crtcState.crtcID := by
      rw [dspCtrlOf, vpOffset]
      omega
    have hnone : writesTo vp0DspCtrl (vop2InitWindow ds x) = [] := writesTo_other hne _
    rw [words_deferredEdits_other hother hnone]

variable {ds : DisplayState} {x : InitInputs} {op : Vop2Op} {ops : List Vop2Op}

theorem coupled_init (hc : Coupled wordsNear hardware regs m)
    (hbits : ds.crtcState.crtcID = 0 → (standbyBits (regs.words hardware vp0DspCtrl)).shadow
      = (standbyBits (regs.words hardware vp0DspCtrl)).hardware) :
    Coupled wordsNear hardware (regs.steps hardware (vop2InitSteps ds x))
        (m.steps hardware (vop2InitSteps ds x)) ∧
      standbyBits ((regs.steps hardware (vop2InitSteps ds x)).words hardware vp0DspCtrl)
        = standbyBits (regs.words hardware vp0DspCtrl) := by
  obtain ⟨hfront, hfrontWords⟩ := coupled_routine hc (routine_initFront ds x)
  rw [← hfrontWords] at hbits ⊢
  have hwindow := hfront.deferredEdits wordsNear_refl (safe_initWindow (x := x))
    ((sameFold_iff hfront).2 hbits)
  obtain ⟨htail, htailWords⟩ := coupled_routine hwindow (routineSteps (routine_initTail (x := x)))
  rw [vop2InitSteps, ShadowRegs.steps_append, ShadowRegs.steps_append, ReadBackRegs.steps_append,
    ReadBackRegs.steps_append]
  refine ⟨htail, ?_⟩
  rw [← standbyBits_initWindow hbits]
  exact congrArg standbyBits htailWords

/-- Once the shadow is wrong about the standby, the write that follows differs. -/
theorem init_bus_ne (hc : Coupled wordsNear hardware regs m)
    (hport : ds.crtcState.crtcID = 0)
    (hbits : (standbyBits (regs.words hardware vp0DspCtrl)).shadow
      ≠ (standbyBits (regs.words hardware vp0DspCtrl)).hardware) :
    (regs.steps hardware (vop2InitSteps ds x)).bus ≠ (m.steps hardware (vop2InitSteps ds x)).bus := by
  obtain ⟨hfront, hfrontWords⟩ := coupled_routine hc (routine_initFront ds x)
  rw [← hfrontWords] at hbits
  intro hbus
  rw [vop2InitSteps, ShadowRegs.steps_append, ShadowRegs.steps_append, ReadBackRegs.steps_append,
    ReadBackRegs.steps_append] at hbus
  have hwindow := bus_eq_of_steps hfront.same.steps hbus
  have hfold := (hfront.deferredEdits_bus_iff wordsNear_refl safe_initWindow).1 hwindow
  exact hbits ((sameFold_iff hfront).1 hfold hport)

theorem writesTo_routine (hws : ∀ w ∈ ws, Routine w) : writesTo vp0DspCtrl ws = [] := by
  refine List.filter_eq_nil_iff.2 fun w hw heq => ?_
  have hmem : vp0DspCtrl ∈ vpWords := dspCtrlOf_mem nrVps_pos
  exact (hws w hw).notMem (of_decide_eq_true heq ▸ hmem)

theorem harmless_hdmiSetup : ∀ s ∈ dwHdmiQpSetupSteps, Harmless s := by
  have hdone : Harmless (.past (vop2Writel regCfgDone 0x00018001)) :=
    RoutineStep.harmless (Or.inl rfl)
  have hctrl : ∀ g : BitVec 32 → BitVec 32,
      (∀ b, g b &&& ~~~standbyEn.bits = b &&& ~~~standbyEn.bits) →
        Harmless (.past ⟨vp0DspCtrl, g⟩) := by
    refine fun g hg => ⟨fun a b hab => Or.inr ?_, trivial, trivial⟩
    have houtside := hab.outside (not_untracked_dspCtrl nrVps_pos)
    exact houtside.trans (hg b).symm
  unfold dwHdmiQpSetupSteps
  simp only [List.forall_mem_cons]
  refine ⟨hctrl _ fun b => ?_, hdone, hctrl _ fun b => ?_, hdone, fun s hs => nomatch hs⟩
  · rw [BitVec.and_or_distrib_right, BitVec.and_not_self]
    exact BitVec.or_zero
  · rw [BitVec.and_assoc, BitVec.and_self]

theorem harmless_steps (hop : ¬ ∃ ds x, op = .init ds x) : ∀ s ∈ op.steps, Harmless s := by
  cases op with
  | preInit => exact fun s hs => nomatch hs
  | init ds x => exact absurd ⟨ds, x, rfl⟩ hop
  | setPlane ds primaryPlaneID x =>
    exact fun s hs => (routineSteps routine_setPlane s hs).harmless
  | enable ds dsc =>
    have hid := ds.crtcState.crtcID_lt
    refine List.forall_mem_cons.2 ⟨RoutineStep.harmless (Or.inr (Or.inl rfl)), ?_⟩
    rw [List.forall_mem_map, List.forall_mem_append]
    exact ⟨fun w hw => (ordinary_enable hid w hw).harmless hid,
      fun w hw => Ordinary.harmless hid (Or.inl (routine_dscCfgDone w hw))⟩
  | disable ds =>
    have hid := ds.crtcState.crtcID_lt
    refine List.forall_mem_map.2 fun w hw => (ordinary_disable w hw).harmless hid
  | hdmiSetup => exact harmless_hdmiSetup

/-- What the writes of an operation make of `STANDBY`, where one of them is of it. -/
theorem standbyBits_edits {v : BitVec 32} {b : Bool}
    (hws : writesTo vp0DspCtrl ws
      = if 0 = crtcID then [vop2MaskWrite vp0DspCtrl standbyEn v] else [])
    (hv : ∀ c, (standbyEn.set c v).getLsbD 31 = b) :
    standbyBits ((ws.map RegStep.edit).foldl (RegStep.touch vp0DspCtrl) p)
      = if crtcID = 0 then ⟨b, b⟩ else standbyBits p := by
  rw [RegStep.touch_edits, hws]
  by_cases hport : crtcID = 0
  · rw [if_pos hport.symm, if_pos hport, List.foldl_cons, List.foldl_nil, standbyBits]
    exact congrArg₂ StandbyBits.mk (hv p.1) (hv p.1)
  · rw [if_neg (Ne.symm hport), if_neg hport, List.foldl_nil]

/-- The words of port 0's output control, as an operation leaves them. -/
theorem standbyBits_steps (hop : ¬ ∃ ds x, op = .init ds x) :
    standbyBits (op.steps.foldl (RegStep.touch vp0DspCtrl) p) = op.standby (standbyBits p) := by
  have hport0 := nrVps_pos
  cases op with
  | preInit => rfl
  | init ds x => exact absurd ⟨ds, x, rfl⟩ hop
  | setPlane ds primaryPlaneID x =>
    rw [Vop2Op.steps, touch_routine (routineSteps routine_setPlane)]
    rfl
  | enable ds dsc =>
    have hpast : RoutineStep (.past ⟨autoGatingCtrl, fun held => held &&& ~~~autoGatingMask⟩) :=
      Or.inr (Or.inl rfl)
    rw [Vop2Op.steps, vop2EnableSteps, List.foldl_cons, hpast.touch]
    refine standbyBits_edits ?_ getLsbD_standby_zero
    rw [writesTo_append, writesTo_routine routine_dscCfgDone, List.append_nil]
    exact writesTo_vop2Enable ds.crtcState.crtcID_lt hport0
  | disable ds =>
    exact standbyBits_edits (writesTo_vop2Disable ds.crtcState.crtcID_lt hport0) getLsbD_standby_one
  | hdmiSetup =>
    have hclear : ∀ c : BitVec 32, ((c ||| standbyEn.bits) &&& ~~~standbyEn.bits).getLsbD 31
        = false := by
      intro c
      simp [standbyEn, enable, BitField.bits]
    exact congrArg (StandbyBits.mk _) (hclear p.2)

theorem coupled_step (hc : Coupled wordsNear hardware regs m)
    (hknown : op.initsPort0 → (standbyBits (regs.words hardware vp0DspCtrl)).shadow
      = (standbyBits (regs.words hardware vp0DspCtrl)).hardware) :
    Coupled wordsNear hardware (regs.steps hardware op.steps) (m.steps hardware op.steps) ∧
      standbyBits ((regs.steps hardware op.steps).words hardware vp0DspCtrl)
        = op.standby (standbyBits (regs.words hardware vp0DspCtrl)) := by
  by_cases hop : ∃ ds x, op = .init ds x
  · obtain ⟨ds, x, rfl⟩ := hop
    exact coupled_init hc hknown
  · refine ⟨hc.steps wordsNear_refl fun s hs => (harmless_steps hop s hs).safe, ?_⟩
    rw [words_steps hc.deferred fun s hs => (harmless_steps hop s hs).atOnce,
      standbyBits_steps hop]

theorem bus_steps_iff (hc : Coupled wordsNear hardware regs m) :
    (regs.steps hardware (ops.flatMap Vop2Op.steps)).bus
        = (m.steps hardware (ops.flatMap Vop2Op.steps)).bus
      ↔ StandbyKnown (standbyBits (regs.words hardware vp0DspCtrl)) ops := by
  induction ops generalizing regs m with
  | nil => exact iff_of_true hc.bus trivial
  | cons op ops ih =>
    rw [List.flatMap_cons, ShadowRegs.steps_append, ReadBackRegs.steps_append, StandbyKnown]
    by_cases hknown : op.initsPort0 → (standbyBits (regs.words hardware vp0DspCtrl)).shadow
        = (standbyBits (regs.words hardware vp0DspCtrl)).hardware
    · obtain ⟨hnext, hbits⟩ := coupled_step hc hknown
      rw [ih hnext, hbits]
      exact ⟨fun h => ⟨hknown, h⟩, And.right⟩
    · refine iff_of_false (fun hbus => ?_) fun h => hknown h.1
      cases op with
      | init ds x =>
        obtain ⟨hport, hbits⟩ := Classical.not_imp.1 hknown
        exact init_bus_ne hc hport hbits (bus_eq_of_steps hc.same.steps hbus)
      | preInit => exact hknown fun h => h.elim
      | setPlane ds primaryPlaneID x => exact hknown fun h => h.elim
      | enable ds dsc => exact hknown fun h => h.elim
      | disable ds => exact hknown fun h => h.elim
      | hdmiSetup => exact hknown fun h => h.elim

/-- The backup, and what `Vop2GlobalInitial` writes after it. -/
theorem coupled_preInit (planes : ℕ → Vop2PlaneMask) :
    Coupled wordsNear hardware ((vop2Start.regs).steps hardware (vop2PreInitSteps hardware planes))
        (ReadBackRegs.steps hardware ⟨none, []⟩ (vop2PreInitSteps hardware planes)) ∧
      ((vop2Start.regs).steps hardware (vop2PreInitSteps hardware planes)).words hardware vp0DspCtrl
        = (hardware vp0DspCtrl, hardware vp0DspCtrl) := by
  have hload : Coupled wordsNear hardware
      ((vop2Start.regs).step hardware (.load (regsBackup hardware)))
      (ReadBackRegs.step hardware ⟨none, []⟩ (.load (regsBackup hardware))) := by
    refine ⟨rfl, rfl, rfl, fun o => ?_⟩
    by_cases ho : o / 4 < rk3568MaxReg / 4
    · have heq : regsBackup hardware o = hardware o := if_pos ho
      have hnear : wordsNear o (regsBackup hardware o) (hardware o) := heq ▸ wordsNear_refl o _
      exact hnear
    · refine Or.inl (Or.inr (Or.inr (Or.inr ?_)))
      rw [rk3568MaxReg] at ho
      omega
  obtain ⟨hc, hwords⟩ := coupled_routine hload (routineSteps (@routine_globalInitial planes))
  exact ⟨hc, hwords⟩

theorem inBackup_init : ∀ s ∈ vop2InitSteps ds x, RegStepInBackup s := by
  have hid := ds.crtcState.crtcID_lt
  unfold vop2InitSteps deferredEdits
  simp only [List.forall_mem_append, List.forall_mem_cons]
  refine ⟨fun s hs => (routine_initFront ds x s hs).harmless.inBackup,
    ⟨index_dspCtrl hid, ?_, index_dspCtrl hid, fun s hs => nomatch hs⟩,
    fun s hs => (routineSteps routine_initTail s hs).harmless.inBackup⟩
  rw [List.forall_mem_map]
  exact index_initWrites hid

theorem inBackup_trace (planes : ℕ → Vop2PlaneMask) :
    ∀ s ∈ vop2Trace hardware planes ops, RegStepInBackup s := by
  unfold vop2Trace vop2PreInitSteps
  simp only [List.forall_mem_append, List.forall_mem_cons]
  refine ⟨⟨trivial, fun s hs => (routineSteps routine_globalInitial s hs).harmless.inBackup⟩, ?_⟩
  intro s hs
  obtain ⟨op, -, hs⟩ := List.mem_flatMap.1 hs
  by_cases hop : ∃ ds x, op = .init ds x
  · obtain ⟨ds, x, rfl⟩ := hop
    exact inBackup_init s hs
  · exact (harmless_steps hop s hs).inBackup

theorem bus_trace_iff (planes : ℕ → Vop2PlaneMask) :
    ((vop2Start.regs).steps hardware (vop2Trace hardware planes ops)).bus
        = (ReadBackRegs.steps hardware ⟨none, []⟩ (vop2Trace hardware planes ops)).bus
      ↔ StandbyKnown (standbyBits (hardware vp0DspCtrl, hardware vp0DspCtrl)) ops := by
  obtain ⟨hc, hwords⟩ := @coupled_preInit hardware planes
  have hiff := @bus_steps_iff _ _ _ ops hc
  rwa [hwords, ← ShadowRegs.steps_append, ← ReadBackRegs.steps_append] at hiff

/-- The shadow stands for the registers in the runs whose set ups of port 0 know of its standby. -/
theorem shadowCoherent_iff (hardware : ℕ → BitVec 32) (planes : ℕ → Vop2PlaneMask)
    (ops : List Vop2Op) : ShadowCoherent hardware (vop2Trace hardware planes ops)
      ↔ StandbyKnown (standbyBits (hardware vp0DspCtrl, hardware vp0DspCtrl)) ops :=
  ⟨fun h => (bus_trace_iff planes).1 h.bus,
    fun h => ⟨(bus_trace_iff planes).2 h, inBackup_trace planes⟩⟩

/-- After the HDMI setup of a port that was disabled, the next set up puts it back into standby. -/
theorem not_shadowCoherent_hdmiSetup :
    ¬ ShadowCoherent (fun _ => 0) (vop2Trace (fun _ => 0) (fun _ => ⟨[], 0⟩)
      [.disable (display mode1080p rgb888), .hdmiSetup, .init (display mode1080p rgb888) default]) := by
  intro h
  have hknown := (bus_trace_iff _).1 h.bus
  exact absurd (hknown.2.2.1 rfl) (by decide)

end Edk2Rk3576.Vop2
