import Edk2Rk3576.Vop2.Words
import Mathlib.Tactic.Simps.Basic

/-!
# The words that are computed for a port

The computation puts together what `Vop2Init` puts into the fields of the output control, and the
locals of 16 bits are those of 32, cut off.
-/

namespace Edk2Rk3576.Vop2

open BitField BitMask ShadowRegs

variable {connector : ConnectorState} {mode : DrmDisplayMode} {stack : BitVec 8} {c : BitVec 32}

section Timings

variable {t : VpTiming 32} {interlaced : Bool}

/-- What `Rk3576VpComputeRegs` holds against 16 bits. -/
def VpTiming.bounded (t : VpTiming 32) (interlaced : Bool) : List (BitVec 32) :=
  [t.hTotal, t.hActEnd, t.hSyncLen, t.vTotal, t.vActEnd, t.vSyncLen]
  ++ if interlaced then [t.vActEndF1, t.vTotal + t.vSyncLen, t.vTotal + (t.vTotal + 1)] else []

def VpTiming.Fits (t : VpTiming 32) (interlaced : Bool) : Prop :=
  ∀ x ∈ t.bounded interlaced, x ≤ 0xFFFF#32

instance : Decidable (t.Fits interlaced) :=
  inferInstanceAs (Decidable (∀ x ∈ t.bounded interlaced, x ≤ 0xFFFF#32))

theorem setWidth_lo {x : BitVec 32} (h : x ≤ 0xFFFF#32) : (x.setWidth 16).setWidth 32 = x := by
  have hlt : x.toNat < 2 ^ 16 := Nat.lt_succ_of_le (BitVec.le_def.1 h)
  apply BitVec.eq_of_toNat_eq
  rw [BitVec.toNat_setWidth, BitVec.toNat_setWidth, Nat.mod_eq_of_lt hlt,
    Nat.mod_eq_of_lt x.isLt]

theorem setWidth_hi (x : BitVec 32) : (x.setWidth 16).setWidth 32 <<< 16 = x <<< 16 := by
  ext i hi
  have hlt : i - 16 < 16 := by omega
  have hget : x.getLsbD (i - 16) = x[i - 16] := BitVec.getLsbD_eq_getElem (by omega)
  simp [BitVec.getElem_shiftLeft, hlt, hget]

theorem packHalves_setWidth {hi lo : BitVec 32} (h : lo ≤ 0xFFFF#32) :
    packHalves ((hi.setWidth 16).setWidth 32) ((lo.setWidth 16).setWidth 32)
      = packHalves hi lo := by
  rw [packHalves, packHalves, BitVec.setWidth_eq, BitVec.setWidth_eq, BitVec.setWidth_eq,
    BitVec.setWidth_eq, setWidth_hi, setWidth_lo h]

/-- The locals, cut off to 16 bits. -/
@[simps] def VpTiming.cut (t : VpTiming 32) : VpTiming 16 where
  hSyncLen := t.hSyncLen.setWidth 16
  hDisplay := t.hDisplay.setWidth 16
  hTotal := t.hTotal.setWidth 16
  hActStart := t.hActStart.setWidth 16
  vSyncLen := t.vSyncLen.setWidth 16
  vDisplay := t.vDisplay.setWidth 16
  vTotal := t.vTotal.setWidth 16
  vActStart := t.vActStart.setWidth 16

theorem vpTiming_16 : vpTiming 16 mode = (vpTiming 32 mode).cut := by
  simp [vpTiming, VpTiming.cut]

@[simp] theorem cut_hActEnd : t.cut.hActEnd = t.hActEnd.setWidth 16 :=
  (BitVec.setWidth_add _ _ (by decide)).symm

@[simp] theorem cut_vActEnd : t.cut.vActEnd = t.vActEnd.setWidth 16 :=
  (BitVec.setWidth_add _ _ (by decide)).symm

@[simp] theorem cut_vActStartF1 : t.cut.vActStartF1 = t.vActStartF1.setWidth 16 := by
  rw [VpTiming.vActStartF1, VpTiming.vActStartF1, BitVec.setWidth_add _ _ (by decide),
    BitVec.setWidth_add _ _ (by decide)]
  rfl

@[simp] theorem cut_vActEndF1 : t.cut.vActEndF1 = t.vActEndF1.setWidth 16 := by
  rw [VpTiming.vActEndF1, VpTiming.vActEndF1, BitVec.setWidth_add _ _ (by decide), cut_vActStartF1]
  rfl

@[simp] theorem cut_vTotalAll :
    t.cut.vTotalAll interlaced = (t.vTotalAll interlaced).setWidth 16 := by
  unfold VpTiming.vTotalAll
  cases interlaced with
  | false => rfl
  | true =>
    simp only [if_true]
    rw [BitVec.setWidth_add _ _ (by decide), BitVec.setWidth_add _ _ (by decide)]
    rfl

/-- The register's word. -/
def halvesWord (h : ℕ × BitVec 32 × BitVec 32) : ℕ × BitVec 32 := (h.1, packHalves h.2.1 h.2.2)

/-- A mode that fits goes into the registers as it is. -/
theorem words_of_fits (h : t.Fits interlaced) :
    (t.cut.halves interlaced).map halvesWord = (t.halves interlaced).map halvesWord := by
  cases interlaced with
  | false =>
    simp only [VpTiming.Fits, VpTiming.bounded, Bool.false_eq_true, if_false, List.append_nil,
      List.forall_mem_cons, List.not_mem_nil, false_implies, implies_true, and_true] at h
    obtain ⟨-, hHActEnd, hHSyncLen, -, hVActEnd, hVSyncLen⟩ := h
    simp [VpTiming.halves, halvesWord, packHalves_setWidth, hHActEnd, hHSyncLen, hVActEnd,
      hVSyncLen]
  | true =>
    simp only [VpTiming.Fits, VpTiming.bounded, if_true, List.cons_append, List.nil_append,
      List.forall_mem_cons, List.not_mem_nil, false_implies, implies_true, and_true] at h
    obtain ⟨-, hHActEnd, hHSyncLen, hVTotal, hVActEnd, hVSyncLen, hVActEndF1, -⟩ := h
    have hVsEndF1 : packHalves ((t.vTotal.setWidth 16).setWidth 32)
        ((t.vTotal.setWidth 16).setWidth 32 + (t.vSyncLen.setWidth 16).setWidth 32)
        = packHalves t.vTotal (t.vTotal + t.vSyncLen) := by
      rw [setWidth_lo hVTotal, setWidth_lo hVSyncLen]
    simp [VpTiming.halves, halvesWord, packHalves_setWidth, hHActEnd, hHSyncLen, hVActEnd,
      hVSyncLen, hVActEndF1, hVsEndF1]

/-- What does not fit is in a half. -/
theorem exists_half_of_not_fits (h : ¬ t.Fits interlaced) :
    ∃ p ∈ t.halves interlaced, 0xFFFF#32 < p.2.1 ∨ 0xFFFF#32 < p.2.2 := by
  have hhalf : ∀ x ∈ t.bounded interlaced, ∃ p ∈ t.halves interlaced, x = p.2.1 ∨ x = p.2.2 := by
    cases interlaced <;> simp [VpTiming.bounded, VpTiming.halves, VpTiming.vTotalAll]
  unfold VpTiming.Fits at h
  push Not at h
  obtain ⟨x, hx, hlt⟩ := h
  obtain ⟨p, hp, rfl | rfl⟩ := hhalf x hx
  · exact ⟨p, hp, Or.inl (BitVec.not_le.1 hlt)⟩
  · exact ⟨p, hp, Or.inr (BitVec.not_le.1 hlt)⟩

theorem fits_iff : t.Fits interlaced ↔
    ¬ (t.hTotal > 0xFFFF#32 ∨ t.hActEnd > 0xFFFF#32 ∨ t.hSyncLen > 0xFFFF#32 ∨
      t.vTotal > 0xFFFF#32 ∨ t.vActEnd > 0xFFFF#32 ∨ t.vSyncLen > 0xFFFF#32) ∧
    ¬ (interlaced = true ∧ (t.vActEndF1 > 0xFFFF#32 ∨ t.vTotal + t.vSyncLen > 0xFFFF#32)) ∧
    ¬ t.vTotalAll interlaced > 0xFFFF#32 := by
  unfold VpTiming.Fits VpTiming.bounded VpTiming.vTotalAll
  cases interlaced with
  | false =>
    simp only [Bool.false_eq_true, if_false, List.append_nil, List.forall_mem_cons,
      List.not_mem_nil, false_implies, implies_true, and_true, gt_iff_lt, not_or, BitVec.not_lt,
      false_and, not_false_eq_true, true_and, and_assoc]
    constructor
    · rintro ⟨hHTotal, hHActEnd, hHSyncLen, hVTotal, hVActEnd, hVSyncLen⟩
      exact ⟨hHTotal, hHActEnd, hHSyncLen, hVTotal, hVActEnd, hVSyncLen, hVTotal⟩
    · rintro ⟨hHTotal, hHActEnd, hHSyncLen, hVTotal, hVActEnd, hVSyncLen, -⟩
      exact ⟨hHTotal, hHActEnd, hHSyncLen, hVTotal, hVActEnd, hVSyncLen⟩
  | true =>
    simp only [if_true, List.cons_append, List.nil_append, List.forall_mem_cons, List.not_mem_nil,
      false_implies, implies_true, and_true, gt_iff_lt, not_or, BitVec.not_lt, true_and, and_assoc]

/-- The computation declines what does not fit. -/
theorem compute_eq (ds : DisplayState) : rk3576VpComputeRegs (some ds)
    = if (vpTiming 32 ds.connectorState.displayMode).Fits ds.connectorState.displayMode.interlaced
      then .ok (rk3576VpRegs ds) else .error efiUnsupported := by
  unfold rk3576VpComputeRegs
  simp only []
  by_cases hfits :
      (vpTiming 32 ds.connectorState.displayMode).Fits ds.connectorState.displayMode.interlaced
  · obtain ⟨hfirst, hfield1, htotal⟩ := fits_iff.1 hfits
    rw [if_pos hfits, if_neg hfirst, if_neg hfield1, if_neg htotal]
  · rw [if_neg hfits]
    split_ifs with hfirst hfield1 htotal
    · rfl
    · rfl
    · rfl
    · exact absurd (fits_iff.2 ⟨hfirst, hfield1, htotal⟩) hfits

end Timings

/-- The timing registers and their words. -/
def Rk3576VpRegs.timings (native : Rk3576VpRegs) : List (ℕ × BitVec 32) :=
  [(vp0DspHTotalHsEnd, native.hTotalHsEnd), (vp0DspHActStEnd, native.hActStEnd),
    (vp0DspVActStEnd, native.vActStEnd), (vp0DspVTotalVsEnd, native.vTotalVsEnd)]
  ++ if native.interlaced then
    [(vp0DspVActStEndF1, native.vActStEndF1), (vp0DspVsStEndF1, native.vsStEndF1)]
  else []

theorem foldOutputMode_idem (feature outputMode : BitVec 32) :
    foldOutputMode feature (foldOutputMode feature outputMode)
      = foldOutputMode feature outputMode := by
  unfold foldOutputMode
  split_ifs <;> rfl

section DspCtrl

theorem or_flag {f : BitField 32} (hf : f.mask = 1) (b : Bool) (x : BitVec 32) :
    (if b then x ||| f.bits else x) = x ||| f.place (boolWord b) := by
  cases b <;> simp [place, bits, boolWord, hf]

theorem or_interlaced (interlaced : Bool) (x : BitVec 32) :
    (if interlaced then x ||| interlaceEn.bits ||| dspFiledPol.bits ||| p2iEn.bits else x)
      = x ||| values (interlaceFields interlaced) := by
  cases interlaced with
  | false => exact BitVec.or_zero.symm
  | true =>
    rw [if_pos rfl, BitVec.or_assoc, BitVec.or_assoc]
    exact congrArg _ (by decide)

/-- A format adds what `Vop2Init` sets for it with a clear stack. -/
theorem or_dither (busFormat x : BitVec 32) : rk3576DitherSetup busFormat x
    = x ||| ditherDownEn.place ((vop2Dither busFormat 0).1.setWidth 32)
      ||| preDitherDownEn.place ((vop2Dither busFormat 0).2.setWidth 32) := by
  unfold rk3576DitherSetup vop2Dither
  split_ifs <;> simp [place, bits, ditherDownEn, preDitherDownEn, enable]

/-- The bit that only the computation sets. -/
def dclkDivWord (mode : DrmDisplayMode) : BitVec 32 := coreDclkDivEn.place (boolWord mode.dblClk)

theorem rk3576DspCtrl_eq (connector : ConnectorState) :
    rk3576DspCtrl connector connector.outputMode
      = dclkDivWord connector.displayMode ||| values (dspCtrlFields connector 0) := by
  have horder : ∀ a b c d e i f : BitVec 32, a ||| b ||| c ||| d ||| e ||| i ||| f
      = f ||| (b ||| (a ||| (d ||| (e ||| 0#32))) ||| i ||| (c ||| 0#32)) := by
    intros
    rw [BitVec.or_zero, BitVec.or_zero]
    ac_rfl
  unfold rk3576DspCtrl dspCtrlFields
  simp only []
  rw [or_flag rfl, or_flag rfl, or_interlaced, or_dither, values_append, values_append]
  exact horder _ _ _ _ _ _ _

/-- The bits of the output control that `Vop2Init` leaves as they are, but for `STANDBY`. -/
def dspCtrlKept (interlaced : Bool) : BitVec 32 :=
  ~~~(cover (dspCtrlNames interlaced) ||| standbyEn.bits)

example : dspCtrlKept true = 0x7FFC6010 ∧ dspCtrlKept false = 0x7FFC6050 := by decide

/-- The formats that `Vop2Init` takes `PreDitherDownEn` from the stack for. -/
def readsStack (busFormat : BitVec 32) : Bool :=
  busFormat = busFmtRgb565_1x16 ∨ isRgb666 busFormat

theorem place_preDither_iff {busFormat : BitVec 32} :
    preDitherDownEn.place ((vop2Dither busFormat stack).2.setWidth 32)
        = preDitherDownEn.place ((vop2Dither busFormat 0).2.setWidth 32)
      ↔ (readsStack busFormat = true → stack &&& 1 = 0) := by
  have hstack : ∀ stack : BitVec 8, preDitherDownEn.place (stack.setWidth 32)
      = preDitherDownEn.place ((0 : BitVec 8).setWidth 32) ↔ stack &&& 1 = 0 := by
    decide
  unfold vop2Dither readsStack
  split_ifs with h565 h666
  · simpa [h565] using hstack stack
  · simpa [h666] using hstack stack
  · simp [h565, h666]
  · simp [h565, h666]

theorem values_eq_iff : values (dspCtrlFields connector stack) = values (dspCtrlFields connector 0)
    ↔ (readsStack connector.busFormat = true → stack &&& 1 = 0) := by
  rw [← place_preDither_iff]
  have hapart : ∀ stack, Apart ((dspCtrlFields connector stack).map Prod.fst) := by
    intro stack
    rw [map_dspCtrlFields]
    exact apart_dspCtrlNames _
  constructor
  · intro h
    have hfield : ∀ stack, values (dspCtrlFields connector stack) &&& preDitherDownEn.bits
        = preDitherDownEn.place ((vop2Dither connector.busFormat stack).2.setWidth 32) :=
      fun stack => values_and_bits (hapart stack) (by simp [dspCtrlFields])
    rw [← hfield, h, hfield]
  · intro h
    have hdown : (vop2Dither connector.busFormat stack).1
        = (vop2Dither connector.busFormat 0).1 := by
      unfold vop2Dither
      split_ifs <;> rfl
    unfold dspCtrlFields
    simp only [List.cons_append, values, hdown, h]

/-- The words for a port in standby, and out of it. -/
def standbyWord (standby : Bool) : BitVec 32 := if standby then standbyEn.bits else 0#32

theorem and_standby (c : BitVec 32) : c &&& standbyEn.bits = standbyWord (c.getLsbD 31) := by
  have hbits : standbyEn.bits = BitVec.twoPow 32 31 := by decide
  rw [hbits, BitVec.and_twoPow]
  unfold standbyWord
  split_ifs
  · rw [hbits]
  · rfl

/-- What `Vop2Init` keeps is `STANDBY` and what is left of it then. -/
theorem kept_eq (interlaced : Bool) (c : BitVec 32) :
    c &&& ~~~cover (dspCtrlNames interlaced)
      = standbyWord (c.getLsbD 31) ||| c &&& dspCtrlKept interlaced := by
  have hsplit : ~~~cover (dspCtrlNames interlaced)
      = standbyEn.bits ||| dspCtrlKept interlaced := by
    cases interlaced <;> decide
  rw [hsplit, BitVec.and_or_distrib_left, and_standby]

theorem cover_and_words (interlaced standby : Bool) (mode : DrmDisplayMode) :
    cover (dspCtrlNames interlaced) &&& (standbyWord standby ||| dclkDivWord mode) = 0#32 := by
  unfold dclkDivWord
  cases interlaced <;> cases standby <;> cases mode.dblClk <;> decide

theorem kept_and_standby (interlaced standby : Bool) :
    dspCtrlKept interlaced &&& standbyWord standby = 0#32 := by
  cases interlaced <;> cases standby <;> decide

theorem dclkDivWord_and_kept (interlaced : Bool) (mode : DrmDisplayMode) :
    dclkDivWord mode &&& dspCtrlKept interlaced = dclkDivWord mode := by
  unfold dclkDivWord
  cases interlaced <;> cases mode.dblClk <;> decide

/-- The output control comes to the same where what is kept of it does. -/
theorem setAll_dspCtrl_iff {native : BitVec 32}
    (hnative : native = dclkDivWord connector.displayMode ||| values (dspCtrlFields connector 0)) :
    setAll (dspCtrlFields connector stack) c
        = (if c.getLsbD 31 then native ||| standbyEn.bits else native)
      ↔ c &&& dspCtrlKept connector.displayMode.interlaced = dclkDivWord connector.displayMode ∧
        (readsStack connector.busFormat = true → stack &&& 1 = 0) := by
  have hset : setAll (dspCtrlFields connector stack) c
      = c &&& ~~~cover (dspCtrlNames connector.displayMode.interlaced)
        ||| values (dspCtrlFields connector stack) := by
    rw [← map_dspCtrlFields connector stack]
    refine setAll_eq c ?_
    rw [map_dspCtrlFields]
    exact apart_dspCtrlNames _
  have hinside : ∀ stack, values (dspCtrlFields connector stack)
      &&& cover (dspCtrlNames connector.displayMode.interlaced)
        = values (dspCtrlFields connector stack) := by
    intro stack
    rw [← map_dspCtrlFields connector stack]
    exact values_and_cover _
  have hword : (if c.getLsbD 31 then native ||| standbyEn.bits else native)
      = (standbyWord (c.getLsbD 31) ||| dclkDivWord connector.displayMode)
        ||| values (dspCtrlFields connector 0) := by
    rw [hnative]
    unfold standbyWord
    split_ifs
    · rw [BitVec.or_comm, BitVec.or_assoc]
    · rw [BitVec.zero_or]
  have hkept : c &&& dspCtrlKept connector.displayMode.interlaced
      &&& dspCtrlKept connector.displayMode.interlaced
        = c &&& dspCtrlKept connector.displayMode.interlaced := by
    rw [BitVec.and_assoc, BitVec.and_self]
  rw [hset, hword, or_eq_or_iff (hinside stack) (hinside 0) and_and_not_eq_zero
    (cover_and_words _ _ _), values_eq_iff, kept_eq]
  refine and_congr_left fun _ => ?_
  rw [or_eq_or_iff hkept (dclkDivWord_and_kept _ _) (kept_and_standby _ _) (kept_and_standby _ _)]
  exact and_iff_right rfl

end DspCtrl

theorem timings_eq (ds : DisplayState) : (rk3576VpRegs ds).timings
    = ((vpTiming 32 ds.connectorState.displayMode).halves
      ds.connectorState.displayMode.interlaced).map halvesWord := by
  unfold Rk3576VpRegs.timings rk3576VpRegs VpTiming.halves
  cases hinterlaced : ds.connectorState.displayMode.interlaced <;> simp [halvesWord, hinterlaced]

theorem rk3576VpRegs_dspCtrl (ds : DisplayState) :
    (rk3576VpRegs (vop2InitState ds)).dspCtrlActive
        = dclkDivWord (vop2InitState ds).connectorState.displayMode
          ||| values (dspCtrlFields (vop2InitState ds).connectorState 0) ∧
      (rk3576VpRegs (vop2InitState ds)).dspCtrlStandby
        = (rk3576VpRegs (vop2InitState ds)).dspCtrlActive ||| standbyEn.bits := by
  have hfold : foldOutputMode (vop2InitState ds).crtcState.feature
      (vop2InitState ds).connectorState.outputMode = (vop2InitState ds).connectorState.outputMode :=
    foldOutputMode_idem _ _
  refine ⟨?_, rfl⟩
  rw [← rk3576DspCtrl_eq]
  exact congrArg (rk3576DspCtrl (vop2InitState ds).connectorState) hfold

end Edk2Rk3576.Vop2
