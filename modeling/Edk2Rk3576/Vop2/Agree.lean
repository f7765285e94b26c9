import Edk2Rk3576.Lib.Runs
import Edk2Rk3576.Vop2.Native

/-!
# The two computations of a port's registers

`Vop2Init` and `Rk3576VpComputeRegs` come to the same words if the mode fits, the format does not
read the stack, and the bits of the output control that `Vop2Init` leaves as they are say what the
mode does: nothing, unless it is double clocked.
-/

namespace Edk2Rk3576.Vop2

open BitField ShadowRegs

variable {ds : DisplayState} {ifConfig postConfig : OtherRegs} {stack : BitVec 8} {regs : Vop2Regs}

/-- The driver between calls. -/
structure Vop2State where
  regs : Vop2Regs
  globalInit : Bool

def vop2Start : Vop2State where
  regs := ⟨fun _ => 0, none, []⟩
  globalInit := false

inductive Vop2Step
  | preInit (hardware : ℕ → BitVec 32) (globalInitial : OtherRegs)
  | init (ds : DisplayState) (ifConfig postConfig : OtherRegs) (stack : BitVec 8)
  | enable (ds : DisplayState) (autoGating : BitVec 32) (dscCfgDone : OtherRegs)
  | disable (ds : DisplayState)

/-- The bus carries what the last call has written. -/
def vop2Step (s : Vop2State) (step : Vop2Step) : Vop2State :=
  let regs := { s.regs with bus := [] }
  match step with
  | .preInit hardware globalInitial =>
    ⟨vop2PreInit s.globalInit hardware globalInitial regs, true⟩
  | .init ds ifConfig postConfig stack =>
    { s with regs := vop2Init versionRk3576 ds ifConfig postConfig stack regs }
  | .enable ds autoGating dscCfgDone =>
    { s with regs := vop2Enable ds.crtcState.crtcID autoGating dscCfgDone regs }
  | .disable ds => { s with regs := vop2Disable ds.crtcState.crtcID regs }

def Vop2State.standby (s : Vop2State) (crtcID : ℕ) : Bool :=
  (s.regs.shadow (vp0DspCtrl + vpOffset crtcID)).getLsbD 31

/-- The words that were written last are the computed ones. -/
structure WordsAgree (native : Rk3576VpRegs) (standby : Bool) (crtcID : ℕ) (regs : Vop2Regs) :
    Prop where
  timings : ∀ t ∈ native.timings, (regs.written (t.1 + vpOffset crtcID)).head? = some t.2
  dspCtrl : (regs.written (vp0DspCtrl + vpOffset crtcID)).head?
    = some (if standby then native.dspCtrlStandby else native.dspCtrlActive)

/-- What was written to a timing register has the mode's own values in its halves. -/
def Untruncated (mode : DrmDisplayMode) (crtcID : ℕ) (regs : Vop2Regs) : Prop :=
  ∀ h ∈ (vpTiming 32 mode).halves mode.interlaced,
    ∀ v ∈ regs.written (h.1 + vpOffset crtcID), v >>> 16 = h.2.1 ∧ v &&& 0xFFFF#32 = h.2.2

/-- A port is set up as computed, and not at all with timings that the computation declines. -/
def InitAgrees (ds : DisplayState) (standby : Bool) (regs : Vop2Regs) : Prop :=
  match rk3576VpComputeRegs (some (vop2InitState ds)) with
  | .ok native => WordsAgree native standby ds.crtcState.crtcID regs
  | .error _ => Untruncated (vop2InitState ds).connectorState.displayMode ds.crtcState.crtcID regs

/-- The mode fits, the output control holds nothing but `STANDBY` where `Vop2Init` leaves it, and
`CORE_DCLK_DIV` if the mode is double clocked, and what is on the stack is not read or clear. -/
def InitMeets (ds : DisplayState) (stack : BitVec 8) (dspCtrl : BitVec 32) : Prop :=
  let connector := (vop2InitState ds).connectorState
  let mode := connector.displayMode
  (vpTiming 32 mode).Fits mode.interlaced ∧
  dspCtrl &&& dspCtrlKept mode.interlaced = dclkDivWord mode ∧
  (readsStack connector.busFormat = true → stack &&& 1 = 0)

def Vop2Step.Agrees (s : Vop2State) (step : Vop2Step) : Prop :=
  match step with
  | .init ds _ _ _ => InitAgrees ds (s.standby ds.crtcState.crtcID) (vop2Step s step).regs
  | _ => True

def Vop2Step.Meets (s : Vop2State) : Vop2Step → Prop
  | .init ds _ _ stack =>
    InitMeets ds stack (s.regs.shadow (vp0DspCtrl + vpOffset ds.crtcState.crtcID))
  | _ => True

theorem ushiftRight_le (v : BitVec 32) : v >>> 16 ≤ 0xFFFF#32 := by
  have hlt := v.isLt
  rw [BitVec.le_def, BitVec.toNat_ushiftRight, Nat.shiftRight_eq_div_pow]
  exact Nat.le_of_lt_succ (Nat.div_lt_of_lt_mul hlt)

theorem and_le_halves (v : BitVec 32) : v &&& 0xFFFF#32 ≤ 0xFFFF#32 := by
  rw [BitVec.le_def, BitVec.toNat_and]
  exact Nat.and_le_right

/-- The registers are the same, whatever the width of the locals. -/
theorem exists_half_16 {mode : DrmDisplayMode} :
    ∀ p ∈ (vpTiming 32 mode).halves mode.interlaced,
      ∃ q ∈ (vpTiming 16 mode).halves mode.interlaced, q.1 = p.1 := by
  cases mode.interlaced <;> simp [VpTiming.halves]

/-- A mode that does not fit is programmed all the same, and cut off. -/
theorem not_untruncated
    (h : ¬ (vpTiming 32 (vop2InitState ds).connectorState.displayMode).Fits
      (vop2InitState ds).connectorState.displayMode.interlaced) :
    ¬ Untruncated (vop2InitState ds).connectorState.displayMode ds.crtcState.crtcID
      (vop2Init versionRk3576 ds ifConfig postConfig stack regs) := by
  intro huntruncated
  obtain ⟨p, hp, hlt⟩ := exists_half_of_not_fits h
  obtain ⟨q, hq, hoffset⟩ := exists_half_16 p hp
  have hmem : packHalves q.2.1 q.2.2 ∈
      (vop2Init versionRk3576 ds ifConfig postConfig stack regs).written
        (p.1 + vpOffset ds.crtcState.crtcID) := by
    rw [← hoffset, timing_vop2Init q hq]
    exact List.mem_cons_self
  obtain ⟨hhi, hlo⟩ := huntruncated p hp _ hmem
  rcases hlt with hlt | hlt
  · rw [← hhi] at hlt
    exact BitVec.not_lt.2 (ushiftRight_le _) hlt
  · rw [← hlo] at hlt
    exact BitVec.not_lt.2 (and_le_halves _) hlt

/-- The words agree if what is kept and what is read of the stack does. -/
theorem wordsAgree_iff
    (h : (vpTiming 32 (vop2InitState ds).connectorState.displayMode).Fits
      (vop2InitState ds).connectorState.displayMode.interlaced) :
    WordsAgree (rk3576VpRegs (vop2InitState ds))
        ((regs.shadow (vp0DspCtrl + vpOffset ds.crtcState.crtcID)).getLsbD 31) ds.crtcState.crtcID
        (vop2Init versionRk3576 ds ifConfig postConfig stack regs)
      ↔ regs.shadow (vp0DspCtrl + vpOffset ds.crtcState.crtcID)
          &&& dspCtrlKept (vop2InitState ds).connectorState.displayMode.interlaced
            = dclkDivWord (vop2InitState ds).connectorState.displayMode ∧
        (readsStack (vop2InitState ds).connectorState.busFormat = true → stack &&& 1 = 0) := by
  obtain ⟨hactive, hstandby⟩ := rk3576VpRegs_dspCtrl ds
  have hdspCtrl := (@dspCtrl_vop2Init ds ifConfig postConfig stack regs).2
  have htimings : ∀ t ∈ (rk3576VpRegs (vop2InitState ds)).timings,
      ((vop2Init versionRk3576 ds ifConfig postConfig stack regs).written
        (t.1 + vpOffset ds.crtcState.crtcID)).head? = some t.2 := by
    intro t ht
    rw [timings_eq, ← words_of_fits h, ← vpTiming_16] at ht
    obtain ⟨p, hp, rfl⟩ := List.mem_map.1 ht
    rw [halvesWord, timing_vop2Init p hp]
    rfl
  rw [← setAll_dspCtrl_iff hactive, ← hstandby]
  constructor
  · intro hagree
    have hword := hagree.dspCtrl
    rw [hdspCtrl, List.head?_cons, Option.some.injEq] at hword
    exact hword
  · intro hword
    refine ⟨htimings, ?_⟩
    rw [hdspCtrl, List.head?_cons, hword]

theorem initAgrees_iff (ds : DisplayState) (ifConfig postConfig : OtherRegs) (stack : BitVec 8)
    (regs : Vop2Regs) :
    InitAgrees ds ((regs.shadow (vp0DspCtrl + vpOffset ds.crtcState.crtcID)).getLsbD 31)
        (vop2Init versionRk3576 ds ifConfig postConfig stack regs)
      ↔ InitMeets ds stack (regs.shadow (vp0DspCtrl + vpOffset ds.crtcState.crtcID)) := by
  unfold InitAgrees InitMeets
  rw [compute_eq]
  by_cases hfits : (vpTiming 32 (vop2InitState ds).connectorState.displayMode).Fits
      (vop2InitState ds).connectorState.displayMode.interlaced
  · rw [if_pos hfits, and_iff_right hfits]
    exact wordsAgree_iff hfits
  · rw [if_neg hfits]
    exact iff_of_false (not_untruncated hfits) fun h => hfits h.1

theorem Vop2Step.agrees_iff (s : Vop2State) (step : Vop2Step) : step.Agrees s ↔ step.Meets s := by
  cases step with
  | init ds ifConfig postConfig stack =>
    exact initAgrees_iff ds ifConfig postConfig stack { s.regs with bus := [] }
  | preInit hardware globalInitial => exact Iff.rfl
  | enable ds autoGating dscCfgDone => exact Iff.rfl
  | disable ds => exact Iff.rfl

/-- What holds at each call of a run. -/
def Vop2Run (P : Vop2State → Vop2Step → Prop) (steps : List Vop2Step) : Prop :=
  AlongRun (fun s step => (Except.ok (vop2Step s step) : Except Empty Vop2State)) P vop2Start steps

/-- The two computations agree at every call of a run exactly if every call meets the condition. -/
theorem vop2Run_agrees_iff (steps : List Vop2Step) :
    Vop2Run (fun s step => step.Agrees s) steps ↔ Vop2Run (fun s step => step.Meets s) steps := by
  have hstep : ∀ s step, True → Yields (fun _ : Empty => False) (fun _ => True)
      (.ok (vop2Step s step)) := fun _ _ _ => trivial
  exact AlongRun.iff_of_invariant hstep (fun s step _ => step.agrees_iff s) trivial

def noOtherRegs : OtherRegs where
  run regs := regs
  leaves regs := Leaves.refl _ regs

def mode1080p : DrmDisplayMode where
  flags := 0x5
  crtcHDisplay := 1920
  crtcHSyncStart := 2008
  crtcHSyncEnd := 2052
  crtcHTotal := 2200
  crtcVDisplay := 1080
  crtcVSyncStart := 1084
  crtcVSyncEnd := 1089
  crtcVTotal := 1125

def mode1080i : DrmDisplayMode where
  flags := 0x15
  crtcHDisplay := 1920
  crtcHSyncStart := 2008
  crtcHSyncEnd := 2052
  crtcHTotal := 2200
  crtcVDisplay := 540
  crtcVSyncStart := 542
  crtcVSyncEnd := 547
  crtcVTotal := 562

def rgb888 : BitVec 32 := 0x100a

/-- A mode on port 0, over HDMI. -/
def display (mode : DrmDisplayMode) (busFormat : BitVec 32) : DisplayState where
  connectorState :=
    { displayMode := mode
      busFormat
      outputMode := outModeP888
      outputInterface := 0x800 }
  crtcState :=
    { crtcID := 0
      feature := 0
      crtcID_lt := nrVps_pos }

/-- From clear registers, a mode after an interlaced one keeps the field polarity, a double clocked
one lacks the divider, a format of fewer bits takes what the stack holds, and a line that is too
long is cut off. -/
theorem vop2Run_not_agrees :
    ¬ Vop2Run (fun s step => step.Agrees s)
        [.preInit (fun _ => 0) noOtherRegs,
          .init (display mode1080i rgb888) noOtherRegs noOtherRegs 0,
          .init (display mode1080p rgb888) noOtherRegs noOtherRegs 0] ∧
      ¬ Vop2Run (fun s step => step.Agrees s)
        [.preInit (fun _ => 0) noOtherRegs,
          .init (display { mode1080i with flags := 0x1015 } rgb888) noOtherRegs noOtherRegs 0] ∧
      ¬ Vop2Run (fun s step => step.Agrees s)
        [.preInit (fun _ => 0) noOtherRegs,
          .init (display mode1080p busFmtRgb565_1x16) noOtherRegs noOtherRegs 1] ∧
      ¬ Vop2Run (fun s step => step.Agrees s)
        [.preInit (fun _ => 0) noOtherRegs,
          .init (display { mode1080p with crtcHTotal := 0x10000 } rgb888) noOtherRegs noOtherRegs
            0] := by
  refine ⟨fun h => ?_, fun h => ?_, fun h => ?_, fun h => ?_⟩
  · have hmeets := (Vop2Step.agrees_iff _ _).1 h.2.2.1
    have hkept : (vop2Init versionRk3576 (display mode1080i rgb888) noOtherRegs noOtherRegs 0
        ⟨fun _ => 0, none, []⟩).shadow (vp0DspCtrl + vpOffset 0) &&& dspCtrlKept false
          = dclkDivWord mode1080p := hmeets.2.1
    have hshadow := (@dspCtrl_vop2Init (display mode1080i rgb888) noOtherRegs noOtherRegs 0
      ⟨fun _ => 0, none, []⟩).1
    rw [show (display mode1080i rgb888).crtcState.crtcID = 0 from rfl] at hshadow
    rw [hshadow] at hkept
    exact absurd hkept (by decide)
  · have hmeets := (Vop2Step.agrees_iff _ _).1 h.2.1
    exact absurd hmeets.2.1 (by decide)
  · have hmeets := (Vop2Step.agrees_iff _ _).1 h.2.1
    exact absurd (hmeets.2.2 (by decide)) (by decide)
  · have hmeets := (Vop2Step.agrees_iff _ _).1 h.2.1
    exact absurd (hmeets.1 _ List.mem_cons_self) (by decide)

end Edk2Rk3576.Vop2
