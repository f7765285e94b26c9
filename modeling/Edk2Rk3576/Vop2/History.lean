import Edk2Rk3576.Vop2.Agree
import Mathlib.Tactic.IntervalCases

/-!
# Ports that only show plain modes

Apart from `STANDBY`, no call changes the bits of a port's output control that `Vop2Init` leaves as
they are for a progressive mode. So if they are clear when the driver starts, the two computations
agree at every call of a run whose modes are progressive and single clocked.
-/

namespace Edk2Rk3576.Vop2

open BitField ShadowRegs

variable {ds : DisplayState} {ifConfig postConfig other : OtherRegs} {stack : BitVec 8}
  {regs : Vop2Regs} {crtcID vp o : ℕ}

def dspCtrlOf (vp : ℕ) : ℕ := vp0DspCtrl + vpOffset vp

theorem dspCtrlOf_mem (hvp : vp < nrVps) : dspCtrlOf vp ∈ vpWords :=
  mem_vpWords hvp List.mem_cons_self

/-- The registers of the port that a call sets up. -/
theorem offset_vop2InitWrites (connector : ConnectorState) :
    ∀ w ∈ vop2InitWrites versionRk3576 crtcID connector stack,
      w.offset = ovlCtrl ∨ ∃ r, w.offset = r + vpOffset crtcID ∧ vp0DspCtrl ≤ r ∧ r < 0xD00 := by
  unfold vop2InitWrites vop2InitField1
  simp only [dclkDiv_rk3576]
  cases connector.displayMode.interlaced with
  | false =>
    simp [vop2PostColorSwap, vop2MaskWrite, vop2Writel, vp0DspCtrl,
      vp0DspHTotalHsEnd, vp0DspHActStEnd, vp0DspVActStEnd, vp0DspVTotalVsEnd, vp0MipiCtrl, vp0DspBg]
  | true =>
    simp [vop2PostColorSwap, vop2MaskWrite, vop2Writel, vp0DspCtrl,
      vp0DspHTotalHsEnd, vp0DspHActStEnd, vp0DspVActStEnd, vp0DspVTotalVsEnd, vp0MipiCtrl, vp0DspBg,
      vp0DspVActStEndF1, vp0DspVsStEndF1]

theorem writesTo_other (hne : vp ≠ crtcID) (connector : ConnectorState) :
    writesTo (dspCtrlOf vp) (vop2InitWrites versionRk3576 crtcID connector stack) = [] := by
  refine List.filter_eq_nil_iff.2 fun w hw => ?_
  rw [decide_eq_true_iff, dspCtrlOf, vp0DspCtrl, vpOffset]
  rcases offset_vop2InitWrites connector w hw with hoffset | ⟨r, hoffset, hle, hlt⟩
  · rw [hoffset, ovlCtrl]
    omega
  · rw [vp0DspCtrl] at hle
    rw [hoffset, vpOffset]
    omega

theorem shadow_vop2Init (hvp : vp < nrVps) :
    (vop2Init versionRk3576 ds ifConfig postConfig stack regs).shadow (dspCtrlOf vp)
      = if vp = ds.crtcState.crtcID then
          setAll (dspCtrlFields (vop2InitState ds).connectorState stack)
            (regs.shadow (dspCtrlOf vp))
        else regs.shadow (dspCtrlOf vp) := by
  split_ifs with hport
  · rw [hport]
    exact dspCtrl_vop2Init.1
  · obtain ⟨start, hstart, hend⟩ := vop2Init_words versionRk3576 ds ifConfig postConfig stack regs
    rw [hend.shadow _ (dspCtrlOf_mem hvp), shadow_flush, shadow_writeAll, writesTo_other hport,
      List.foldl_nil, shadow_defer, hstart.shadow _ (dspCtrlOf_mem hvp)]

theorem writesTo_vop2Enable (hid : crtcID < nrVps) (hvp : vp < nrVps) :
    writesTo (dspCtrlOf vp) (vop2EnableWrites crtcID)
      = if vp = crtcID then [vop2MaskWrite (dspCtrlOf vp) standbyEn 0] else [] := by
  rw [nrVps] at hid hvp
  interval_cases crtcID <;> interval_cases vp <;> rfl

theorem shadow_vop2Enable {autoGating : BitVec 32} (hid : crtcID < nrVps) (hvp : vp < nrVps) :
    (vop2Enable crtcID autoGating other regs).shadow (dspCtrlOf vp)
      = if vp = crtcID then standbyEn.set (regs.shadow (dspCtrlOf vp)) 0
        else regs.shadow (dspCtrlOf vp) := by
  unfold vop2Enable
  simp only []
  rw [(other.leaves _).shadow _ (dspCtrlOf_mem hvp), shadow_writeAll, writesTo_vop2Enable hid hvp,
    shadow_direct]
  split_ifs <;> rfl

theorem writesTo_vop2Disable (hid : crtcID < nrVps) (hvp : vp < nrVps) :
    writesTo (dspCtrlOf vp) (vop2DisableWrites crtcID)
      = if vp = crtcID then [vop2MaskWrite (dspCtrlOf vp) standbyEn 1] else [] := by
  rw [nrVps] at hid hvp
  interval_cases crtcID <;> interval_cases vp <;> rfl

theorem shadow_vop2Disable (hid : crtcID < nrVps) (hvp : vp < nrVps) :
    (vop2Disable crtcID regs).shadow (dspCtrlOf vp)
      = if vp = crtcID then standbyEn.set (regs.shadow (dspCtrlOf vp)) 1
        else regs.shadow (dspCtrlOf vp) := by
  rw [vop2Disable, shadow_writeAll, writesTo_vop2Disable hid hvp]
  split_ifs <;> rfl

/-- No port has a bit set that `Vop2Init` leaves as it is for a progressive mode. -/
def Vop2State.Clear (s : Vop2State) : Prop :=
  ∀ vp < nrVps, s.regs.shadow (dspCtrlOf vp) &&& dspCtrlKept false = 0#32

/-- The registers are clear where the driver starts, and a mode is progressive, single clocked,
fits, and has a format that does not read the stack. -/
def Vop2Step.Plain : Vop2Step → Prop
  | .preInit hardware _ => ∀ vp < nrVps, hardware (dspCtrlOf vp) &&& dspCtrlKept false = 0#32
  | .init ds _ _ _ =>
    let connector := (vop2InitState ds).connectorState
    let mode := connector.displayMode
    mode.interlaced = false ∧ mode.dblClk = false ∧ (vpTiming 32 mode).Fits false ∧
      readsStack connector.busFormat = false
  | _ => True

theorem standby_set_and_kept (c v : BitVec 32) :
    standbyEn.set c v &&& dspCtrlKept false = c &&& dspCtrlKept false :=
  set_and (by decide)

theorem names_and_kept : ∀ f ∈ dspCtrlNames false, f.bits &&& dspCtrlKept false = 0#32 := by decide

/-- A call with a plain mode leaves the bits clear, on all ports. -/
theorem Vop2State.Clear.step {s : Vop2State} (h : s.Clear) {step : Vop2Step} (hplain : step.Plain) :
    (vop2Step s step).Clear := by
  intro vp hvp
  have hclear := h vp hvp
  cases step with
  | preInit hardware globalInitial =>
    simp only [vop2Step, vop2PreInit]
    split_ifs
    · exact hclear
    · rw [(globalInitial.leaves _).shadow _ (dspCtrlOf_mem hvp)]
      exact hplain vp hvp
  | init ds ifConfig postConfig stack =>
    simp only [vop2Step]
    rw [shadow_vop2Init hvp]
    split_ifs
    · rw [setAll_and, hclear]
      rw [map_dspCtrlFields, hplain.1]
      exact names_and_kept
    · exact hclear
  | enable ds autoGating dscCfgDone =>
    simp only [vop2Step]
    rw [shadow_vop2Enable ds.crtcState.crtcID_lt hvp]
    split_ifs
    · rw [standby_set_and_kept, hclear]
    · exact hclear
  | disable ds =>
    simp only [vop2Step]
    rw [shadow_vop2Disable ds.crtcState.crtcID_lt hvp]
    split_ifs
    · rw [standby_set_and_kept, hclear]
    · exact hclear

theorem Vop2State.Clear.meets {s : Vop2State} (h : s.Clear) {step : Vop2Step}
    (hplain : step.Plain) : step.Meets s := by
  cases step with
  | init ds ifConfig postConfig stack =>
    obtain ⟨hinterlaced, hdblClk, hfits, hformat⟩ := hplain
    refine ⟨by rwa [hinterlaced], ?_, fun hreads => ?_⟩
    · have hclear := h _ ds.crtcState.crtcID_lt
      rw [dclkDivWord, hdblClk, hinterlaced]
      exact hclear.trans (by decide)
    · rw [hformat] at hreads
      cases hreads
  | preInit hardware globalInitial => trivial
  | enable ds autoGating dscCfgDone => trivial
  | disable ds => trivial

/-- In a run of plain calls the two computations agree throughout. -/
theorem agrees_of_plain {steps : List Vop2Step} (h : ∀ step ∈ steps, step.Plain) :
    Vop2Run (fun s step => step.Agrees s) steps := by
  have hstep : ∀ s step, Vop2State.Clear s → Vop2Step.Plain step →
      Yields (fun _ : Empty => False) Vop2State.Clear (.ok (vop2Step s step)) :=
    fun _ _ hs hplain => hs.step hplain
  have hstart : vop2Start.Clear := fun _ _ => BitVec.zero_and
  exact AlongRun.of_forall hstep
    (fun s step hs hplain => (step.agrees_iff s).2 (hs.meets hplain)) hstart h

end Edk2Rk3576.Vop2
