import Edk2Rk3576.Vop2.Calls

/-!
# What a port's registers hold

`Vop2Init` writes each timing register of its port once, and the output control once, with what the
fields that it sets leave of the shadow.
-/

namespace Edk2Rk3576.Vop2

open BitField ShadowRegs

variable {ds : DisplayState} {ifConfig postConfig : OtherRegs} {stack : BitVec 8}
  {regs : Vop2Regs} {crtcID o : ℕ}

theorem mem_vpWords {r : ℕ} (hid : crtcID < nrVps) (hr : r ∈ vp0DspCtrl :: vp0Timings) :
    r + vpOffset crtcID ∈ vpWords :=
  ⟨crtcID, hid, r, hr, rfl⟩

theorem mem_vpWords_ge (h : o ∈ vpWords) : vp0DspCtrl ≤ o := by
  obtain ⟨vp, -, r, hr, rfl⟩ := h
  have hwords : ∀ r ∈ vp0DspCtrl :: vp0Timings, vp0DspCtrl ≤ r := by decide
  exact Nat.le_add_right_of_le (hwords r hr)

theorem mem_vpWords_lt (h : o ∈ vpWords) : o < 0x1000 := by
  obtain ⟨vp, hvp, r, hr, rfl⟩ := h
  have hwords : ∀ r ∈ vp0DspCtrl :: vp0Timings, r < 0xD00 := by decide
  have hlt := hwords r hr
  rw [nrVps] at hvp
  rw [vpOffset]
  omega

/-- Within the registers of a port, seven are its words. -/
theorem mem_vpWords_mod (h : o ∈ vpWords) :
    o % 0x100 ∈ [0x00, 0x48, 0x4C, 0x50, 0x54, 0x58, 0x5C] := by
  have hwords : ∀ r ∈ vp0DspCtrl :: vp0Timings,
      r % 0x100 ∈ [0x00, 0x48, 0x4C, 0x50, 0x54, 0x58, 0x5C] := by
    decide
  obtain ⟨vp, -, r, hr, rfl⟩ := h
  rw [vpOffset, Nat.add_mul_mod_self_right]
  exact hwords r hr

theorem urgency_leaves {version : ℕ} :
    regs.Leaves vpWords (regs.writeAll (vop2PortUrgency version crtcID)) := by
  refine (Leaves.refl _ _).writeAll fun w hw hmem => ?_
  have hge := mem_vpWords_ge hmem
  have hmod := mem_vpWords_mod hmem
  unfold vop2PortUrgency at hw
  split_ifs at hw with hport
  · obtain ⟨-, rfl⟩ := hport
    simp only [List.mem_cons, List.not_mem_nil, or_false] at hw
    rcases hw with rfl | rfl | rfl | rfl | rfl
    · exact absurd hge (by decide)
    · exact absurd hge (by decide)
    · exact absurd hmod (by decide)
    · exact absurd hmod (by decide)
    · exact absurd hmod (by decide)
  · cases hw

theorem lineFlag_leaves {actEnd : BitVec 32} (hid : crtcID < nrVps) :
    regs.Leaves vpWords (regs.writeAll (vop2InitLineFlag crtcID actEnd)) := by
  refine (Leaves.refl _ _).writeAll fun w hw hmem => ?_
  have hge := mem_vpWords_ge hmem
  have hoffset : w.offset = sysCtrlLineFlag0 + crtcID * 4 := by
    simp only [vop2InitLineFlag, List.mem_cons, List.not_mem_nil, or_false] at hw
    rcases hw with rfl | rfl <;> rfl
  rw [hoffset, sysCtrlLineFlag0, vp0DspCtrl] at hge
  rw [nrVps] at hid
  omega

/-- The writes of a call, with the port's output control deferred. -/
theorem vop2Init_words (version : ℕ) (ds : DisplayState) (ifConfig postConfig : OtherRegs)
    (stack : BitVec 8) (regs : Vop2Regs) :
    ∃ start : Vop2Regs, regs.Leaves vpWords start ∧
      ((((start.defer (vp0DspCtrl + vpOffset ds.crtcState.crtcID)).writeAll
        (vop2InitWrites version ds.crtcState.crtcID (vop2InitState ds).connectorState stack)).flush
          (vp0DspCtrl + vpOffset ds.crtcState.crtcID)).Leaves vpWords
        (vop2Init version ds ifConfig postConfig stack regs)) :=
  ⟨_, urgency_leaves.trans (ifConfig.leaves _),
    (postConfig.leaves _).trans (lineFlag_leaves ds.crtcState.crtcID_lt)⟩

/-- A word that is written once, other than the output control. -/
theorem written_vop2Init {version : ℕ} {v : BitVec 32} (ho : o ∈ vpWords)
    (hne : o ≠ vp0DspCtrl + vpOffset ds.crtcState.crtcID)
    (hw : writesTo o (vop2InitWrites version ds.crtcState.crtcID
      (vop2InitState ds).connectorState stack) = [vop2Writel o v]) :
    (vop2Init version ds ifConfig postConfig stack regs).written o = v :: regs.written o := by
  obtain ⟨start, hstart, hend⟩ := vop2Init_words version ds ifConfig postConfig stack regs
  have hd : (start.defer (vp0DspCtrl + vpOffset ds.crtcState.crtcID)).deferred ≠ some o :=
    fun h => hne (Option.some.inj h).symm
  rw [hend.written o ho, written_flush, if_neg hne, written_writeAll_once hd hw, written_defer,
    hstart.written o ho]
  rfl

def interlaceFields (interlaced : Bool) : List (BitField 32 × BitVec 32) :=
  if interlaced then [(interlaceEn, 1), (dspFiledPol, 1), (p2iEn, 1)]
  else [(interlaceEn, 0), (p2iEn, 0)]

/-- The fields of the output control, as they are set. -/
def dspCtrlFields (connector : ConnectorState) (stack : BitVec 8) :
    List (BitField 32 × BitVec 32) :=
  let dither := vop2Dither connector.busFormat stack
  let swap := if isUvSwap connector.busFormat connector.outputMode then dspRbSwap else 0
  [(dataSwap, swap), (outMode, connector.outputMode), (ditherDownEn, dither.1.setWidth 32),
    (preDitherDownEn, dither.2.setWidth 32)]
  ++ interlaceFields connector.displayMode.interlaced
  ++ [(postDspOutR2y, boolWord (isYuvOutput connector.busFormat))]

/-- Which fields these are. -/
def dspCtrlNames (interlaced : Bool) : List (BitField 32) :=
  [dataSwap, outMode, ditherDownEn, preDitherDownEn] ++ (interlaceFields interlaced).map Prod.fst
  ++ [postDspOutR2y]

theorem map_dspCtrlFields (connector : ConnectorState) (stack : BitVec 8) :
    (dspCtrlFields connector stack).map Prod.fst
      = dspCtrlNames connector.displayMode.interlaced := by
  simp [dspCtrlFields, dspCtrlNames]

theorem apart_dspCtrlNames : ∀ interlaced, Apart (dspCtrlNames interlaced) := by decide

theorem dclkDiv_rk3576 {connector : ConnectorState} :
    vop2InitDclkDiv versionRk3576 (vpOffset crtcID) connector = [] := if_neg (by decide)

/-- The overlay's control is in front of the ports' registers. -/
theorem ovlCtrl_ne {r : ℕ} (hr : 0x600 < r) : ¬ (0x600 = r + vpOffset crtcID) := by omega

theorem writesTo_dspCtrl (connector : ConnectorState) :
    writesTo (vp0DspCtrl + vpOffset crtcID)
        (vop2InitWrites versionRk3576 crtcID connector stack)
      = (dspCtrlFields connector stack).map fun f =>
        vop2MaskWrite (vp0DspCtrl + vpOffset crtcID) f.1 f.2 := by
  have hswap : ¬ (versionRk3576 = versionRk3588) := by decide
  unfold vop2InitWrites dspCtrlFields interlaceFields vop2InitField1
  simp only [dclkDiv_rk3576]
  cases connector.displayMode.interlaced with
  | false =>
    simp [vop2PostColorSwap, hswap, vop2MaskWrite, vop2Writel, vp0DspCtrl, ovlCtrl, ovlCtrl_ne,
      vp0DspHTotalHsEnd, vp0DspHActStEnd, vp0DspVActStEnd, vp0DspVTotalVsEnd, vp0MipiCtrl, vp0DspBg]
  | true =>
    simp [vop2PostColorSwap, hswap, vop2MaskWrite, vop2Writel, vp0DspCtrl, ovlCtrl, ovlCtrl_ne,
      vp0DspHTotalHsEnd, vp0DspHActStEnd, vp0DspVActStEnd, vp0DspVTotalVsEnd, vp0MipiCtrl, vp0DspBg,
      vp0DspVActStEndF1, vp0DspVsStEndF1]

/-- The output control goes over the bus once. -/
theorem dspCtrl_vop2Init :
    (vop2Init versionRk3576 ds ifConfig postConfig stack regs).shadow
        (vp0DspCtrl + vpOffset ds.crtcState.crtcID)
      = setAll (dspCtrlFields (vop2InitState ds).connectorState stack)
        (regs.shadow (vp0DspCtrl + vpOffset ds.crtcState.crtcID)) ∧
    (vop2Init versionRk3576 ds ifConfig postConfig stack regs).written
        (vp0DspCtrl + vpOffset ds.crtcState.crtcID)
      = setAll (dspCtrlFields (vop2InitState ds).connectorState stack)
          (regs.shadow (vp0DspCtrl + vpOffset ds.crtcState.crtcID))
        :: regs.written (vp0DspCtrl + vpOffset ds.crtcState.crtcID) := by
  obtain ⟨start, hstart, hend⟩ := vop2Init_words versionRk3576 ds ifConfig postConfig stack regs
  have hmem : vp0DspCtrl + vpOffset ds.crtcState.crtcID ∈ vpWords :=
    mem_vpWords ds.crtcState.crtcID_lt List.mem_cons_self
  have hset : ((start.defer (vp0DspCtrl + vpOffset ds.crtcState.crtcID)).writeAll
      (vop2InitWrites versionRk3576 ds.crtcState.crtcID (vop2InitState ds).connectorState
        stack)).shadow (vp0DspCtrl + vpOffset ds.crtcState.crtcID)
      = setAll (dspCtrlFields (vop2InitState ds).connectorState stack)
        (regs.shadow (vp0DspCtrl + vpOffset ds.crtcState.crtcID)) := by
    rw [shadow_writeAll, writesTo_dspCtrl, List.foldl_map, shadow_defer, hstart.shadow _ hmem]
    rfl
  refine ⟨?_, ?_⟩
  · rw [hend.shadow _ hmem, shadow_flush, hset]
  · rw [hend.written _ hmem, written_flush, if_pos rfl, hset, written_writeAll_deferred rfl,
      written_defer, hstart.written _ hmem]

/-- The timing registers, with what goes into their halves. -/
def VpTiming.halves {w : ℕ} (t : VpTiming w) (interlaced : Bool) :
    List (ℕ × BitVec 32 × BitVec 32) :=
  [(vp0DspHTotalHsEnd, t.hTotal.setWidth 32, t.hSyncLen.setWidth 32),
    (vp0DspHActStEnd, t.hActStart.setWidth 32, t.hActEnd.setWidth 32),
    (vp0DspVActStEnd, t.vActStart.setWidth 32, t.vActEnd.setWidth 32),
    (vp0DspVTotalVsEnd, (t.vTotalAll interlaced).setWidth 32, t.vSyncLen.setWidth 32)]
  ++ if interlaced then
    [(vp0DspVActStEndF1, t.vActStartF1.setWidth 32, t.vActEndF1.setWidth 32),
      (vp0DspVsStEndF1, t.vTotal.setWidth 32, t.vTotal.setWidth 32 + t.vSyncLen.setWidth 32)]
  else []

theorem writesTo_timing (connector : ConnectorState) :
    ∀ h ∈ (vpTiming 16 connector.displayMode).halves connector.displayMode.interlaced,
      writesTo (h.1 + vpOffset crtcID) (vop2InitWrites versionRk3576 crtcID connector stack)
        = [vop2Writel (h.1 + vpOffset crtcID) (packHalves h.2.1 h.2.2)] := by
  unfold vop2InitWrites VpTiming.halves vop2InitField1
  simp only [dclkDiv_rk3576]
  cases connector.displayMode.interlaced with
  | false =>
    simp [vop2PostColorSwap, vop2MaskWrite, vop2Writel, vp0DspCtrl, ovlCtrl, ovlCtrl_ne,
      vp0DspHTotalHsEnd, vp0DspHActStEnd, vp0DspVActStEnd, vp0DspVTotalVsEnd, vp0MipiCtrl, vp0DspBg,
      packHalves]
  | true =>
    simp [vop2PostColorSwap, vop2MaskWrite, vop2Writel, vp0DspCtrl, ovlCtrl, ovlCtrl_ne,
      vp0DspHTotalHsEnd, vp0DspHActStEnd, vp0DspVActStEnd, vp0DspVTotalVsEnd, vp0MipiCtrl, vp0DspBg,
      vp0DspVActStEndF1, vp0DspVsStEndF1, packHalves]

theorem halves_mem {w : ℕ} {t : VpTiming w} {interlaced : Bool} :
    ∀ h ∈ t.halves interlaced, h.1 ∈ vp0Timings := by
  cases interlaced <;> simp [VpTiming.halves, vp0Timings]

theorem timings_ne : ∀ r ∈ vp0Timings, r ≠ vp0DspCtrl := by decide

/-- Each timing register is written once, with the halves of the locals. -/
theorem timing_vop2Init :
    ∀ h ∈ (vpTiming 16 (vop2InitState ds).connectorState.displayMode).halves
        (vop2InitState ds).connectorState.displayMode.interlaced,
      (vop2Init versionRk3576 ds ifConfig postConfig stack regs).written
          (h.1 + vpOffset ds.crtcState.crtcID)
        = packHalves h.2.1 h.2.2 :: regs.written (h.1 + vpOffset ds.crtcState.crtcID) := by
  intro h hh
  have hmem := halves_mem h hh
  refine written_vop2Init (mem_vpWords ds.crtcState.crtcID_lt (List.mem_cons_of_mem _ hmem)) ?_
    (writesTo_timing _ h hh)
  exact fun heq => timings_ne _ hmem (Nat.add_right_cancel heq)

end Edk2Rk3576.Vop2
