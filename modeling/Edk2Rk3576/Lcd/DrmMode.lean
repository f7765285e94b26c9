import Edk2Rk3576.Edid.Modes

/-!
# DRM modes

`DisplayModeToDrm` makes a DRM mode of a display mode, in a structure that other modes may have been
in before: it adds flags to the flags that are there, and keeps a refresh rate that is there.
-/

namespace Edk2Rk3576.Lcd

def drmModeFlagPhsync : UInt32 := 0x1
def drmModeFlagNhsync : UInt32 := 0x2
def drmModeFlagPvsync : UInt32 := 0x4
def drmModeFlagNvsync : UInt32 := 0x8
def drmModeFlagInterlace : UInt32 := 0x10
def drmModeFlagDblscan : UInt32 := 0x20
def drmModeFlagPpixdata : UInt32 := 0x80000000

/-- What a conversion reads and writes of a `DRM_DISPLAY_MODE`. -/
structure DrmDisplayMode where
  clock : UInt32
  hDisplay : UInt32
  hSyncStart : UInt32
  hSyncEnd : UInt32
  hTotal : UInt32
  vDisplay : UInt32
  vSyncStart : UInt32
  vSyncEnd : UInt32
  vTotal : UInt32
  vRefresh : UInt32
  vScan : UInt32
  flags : UInt32
  deriving DecidableEq

namespace DrmDisplayMode

/-- A structure that is initialised with zero. -/
def zero : DrmDisplayMode := ⟨0, 0, 0, 0, 0, 0, 0, 0, 0, 0, 0, 0⟩

def interlace (d : DrmDisplayMode) : Bool := d.flags &&& drmModeFlagInterlace != 0

def dblscan (d : DrmDisplayMode) : Bool := d.flags &&& drmModeFlagDblscan != 0

end DrmDisplayMode

/-- The frames a second, rounded; `VTotal` is an `int` where it is halved. -/
def frameRate (d : DrmDisplayMode) : UInt32 :=
  (d.clock * 1000 / d.hTotal + (d.vTotal.toInt32 / 2).toUInt32) / d.vTotal

def drmModeVRefresh (d : DrmDisplayMode) : UInt32 :=
  if d.vRefresh > 0 then d.vRefresh
  else if d.hTotal > 0 ∧ d.vTotal > 0 then
    let refresh := frameRate d
    let refresh := if d.interlace then refresh * 2 else refresh
    let refresh := if d.dblscan then refresh / 2 else refresh
    if d.vScan > 1 then refresh / d.vScan else refresh
  else 0

/-- What `DisplayModeToDrm` sets before it works out the refresh rate. -/
def drmModeTimings (m : DisplayMode) (d : DrmDisplayMode) : DrmDisplayMode :=
  let flags := d.flags ||| if m.hSyncActive ≠ 0 then drmModeFlagPhsync else drmModeFlagNhsync
  let flags := flags ||| if m.vSyncActive ≠ 0 then drmModeFlagPvsync else drmModeFlagNvsync
  let flags := flags ||| if m.clkActive ≠ 0 then drmModeFlagPpixdata else 0
  let hSyncStart := m.hActive + m.hFrontPorch
  let hSyncEnd := hSyncStart + m.hSync
  let vSyncStart := m.vActive + m.vFrontPorch
  let vSyncEnd := vSyncStart + m.vSync
  { d with
    flags := flags
    clock := m.oscFreq
    hDisplay := m.hActive
    hSyncStart := hSyncStart
    hSyncEnd := hSyncEnd
    hTotal := hSyncEnd + m.hBackPorch
    vDisplay := m.vActive
    vSyncStart := vSyncStart
    vSyncEnd := vSyncEnd
    vTotal := vSyncEnd + m.vBackPorch }

def displayModeToDrm (m : DisplayMode) (d : DrmDisplayMode) : DrmDisplayMode :=
  let d := drmModeTimings m d
  { d with vRefresh := drmModeVRefresh d }

/-- The modes are converted into the structure one after the other. -/
def convertAll (d : DrmDisplayMode) (ms : List DisplayMode) : DrmDisplayMode :=
  ms.foldl (fun d m => displayModeToDrm m d) d

/-- The flags a mode adds. -/
def drmFlags (m : DisplayMode) : UInt32 :=
  (if m.hSyncActive ≠ 0 then drmModeFlagPhsync else drmModeFlagNhsync) |||
    (if m.vSyncActive ≠ 0 then drmModeFlagPvsync else drmModeFlagNvsync) |||
    (if m.clkActive ≠ 0 then drmModeFlagPpixdata else 0)

/-- The refresh rate of a mode in a structure that has none. -/
def freshVRefresh (d : DrmDisplayMode) (m : DisplayMode) : UInt32 :=
  (displayModeToDrm m { d with vRefresh := 0 }).vRefresh

/-- A mode of its own, as `DisplayModeVRefresh` has it. -/
theorem freshVRefresh_zero (m : DisplayMode) :
    freshVRefresh .zero m = displayModeVRefresh m := by
  have hflags : ∀ f, (f = drmModeFlagInterlace ∨ f = drmModeFlagDblscan) →
      (displayModeToDrm m .zero).flags &&& f = 0 := by
    rintro f (rfl | rfl) <;> simp only [displayModeToDrm, drmModeTimings] <;> split_ifs <;> rfl
  have hi := hflags _ (.inl rfl)
  have hd := hflags _ (.inr rfl)
  simp only [displayModeToDrm, drmModeTimings, DrmDisplayMode.zero] at hi hd
  simp only [freshVRefresh, displayModeToDrm, drmModeTimings, drmModeVRefresh, displayModeVRefresh, frameRate,
    DrmDisplayMode.interlace, DrmDisplayMode.dblscan, DrmDisplayMode.zero, hi, hd]
  simp

section Flags

variable {a b mask : UInt32} {d : DrmDisplayMode} {m : DisplayMode} {ms : List DisplayMode}

theorem or_and_of_disjoint (h : b &&& mask = 0) : (a ||| b) &&& mask = a &&& mask := by
  rw [← UInt32.toBitVec_inj] at h ⊢
  simp only [UInt32.toBitVec_and, UInt32.toBitVec_or, UInt32.toBitVec_zero] at h ⊢
  rw [BitVec.and_or_distrib_right, h, BitVec.or_zero]

theorem flags_displayModeToDrm : (displayModeToDrm m d).flags = d.flags ||| drmFlags m := by
  simp only [displayModeToDrm, drmModeTimings, drmFlags, UInt32.or_assoc]

theorem drmFlags_and (h : mask = drmModeFlagInterlace ∨ mask = drmModeFlagDblscan) :
    drmFlags m &&& mask = 0 := by
  rcases h with rfl | rfl <;> unfold drmFlags <;> split_ifs <;> rfl

theorem and_displayModeToDrm (h : mask = drmModeFlagInterlace ∨ mask = drmModeFlagDblscan) :
    (displayModeToDrm m d).flags &&& mask = d.flags &&& mask := by
  rw [flags_displayModeToDrm, or_and_of_disjoint (drmFlags_and h)]

/-- The flags of all the modes. -/
def allFlags : List DisplayMode → UInt32
  | [] => 0
  | m :: ms => drmFlags m ||| allFlags ms

theorem or_or_eq_iff : a ||| b ||| mask = mask ↔ a ||| mask = mask ∧ b ||| mask = mask := by
  refine ⟨fun h => ⟨?_, ?_⟩, fun ⟨ha, hb⟩ => by rw [UInt32.or_assoc, hb, ha]⟩
  · calc a ||| mask = a ||| (a ||| b ||| mask) := by rw [h]
      _ = a ||| b ||| mask := by rw [← UInt32.or_assoc, ← UInt32.or_assoc, UInt32.or_self]
      _ = mask := h
  · calc b ||| mask = b ||| (a ||| b ||| mask) := by rw [h]
      _ = a ||| b ||| mask := by
        rw [UInt32.or_comm a b, ← UInt32.or_assoc, ← UInt32.or_assoc, UInt32.or_self]
      _ = mask := h

theorem allFlags_or_eq_iff :
    ∀ {ms : List DisplayMode}, allFlags ms ||| mask = mask ↔ ∀ m ∈ ms, drmFlags m ||| mask = mask
  | [] => by simp [allFlags]
  | m :: ms => by rw [allFlags, or_or_eq_iff, allFlags_or_eq_iff, List.forall_mem_cons]

theorem flags_convertAll : ∀ {ms : List DisplayMode} {d : DrmDisplayMode},
    (convertAll d ms).flags = d.flags ||| allFlags ms
  | [], _ => by simp [convertAll, allFlags]
  | m :: ms, d => by
    have ih := @flags_convertAll ms (displayModeToDrm m d)
    rw [flags_displayModeToDrm, UInt32.or_assoc] at ih
    exact ih

end Flags

section Refresh

variable {d d' : DrmDisplayMode} {m : DisplayMode} {ms : List DisplayMode}

/-- What the rate depends on beside the mode. -/
structure SameScan (d d' : DrmDisplayMode) : Prop where
  interlace : d.interlace = d'.interlace
  dblscan : d.dblscan = d'.dblscan
  vScan : d.vScan = d'.vScan

theorem sameScan_displayModeToDrm : SameScan (displayModeToDrm m d) d :=
  ⟨congrArg (· != 0) (and_displayModeToDrm (.inl rfl)),
    congrArg (· != 0) (and_displayModeToDrm (.inr rfl)), rfl⟩

theorem SameScan.trans {d'' : DrmDisplayMode} (h : SameScan d d') (h' : SameScan d' d'') :
    SameScan d d'' :=
  ⟨h.interlace.trans h'.interlace, h.dblscan.trans h'.dblscan, h.vScan.trans h'.vScan⟩

theorem sameScan_convertAll : ∀ {ms : List DisplayMode} {d : DrmDisplayMode},
    SameScan (convertAll d ms) d
  | [], _ => ⟨rfl, rfl, rfl⟩
  | m :: ms, d => by
    have ih := @sameScan_convertAll ms (displayModeToDrm m d)
    exact ih.trans sameScan_displayModeToDrm

theorem sameScan_drmModeTimings : SameScan (drmModeTimings m d) d :=
  ⟨(sameScan_displayModeToDrm (m := m)).interlace, (sameScan_displayModeToDrm (m := m)).dblscan, rfl⟩

theorem SameScan.freshVRefresh (h : SameScan d d') : freshVRefresh d m = freshVRefresh d' m := by
  have hi : (drmModeTimings m { d with vRefresh := 0 }).interlace
      = (drmModeTimings m { d' with vRefresh := 0 }).interlace :=
    sameScan_drmModeTimings.interlace.trans
      (h.interlace.trans sameScan_drmModeTimings.interlace.symm)
  have hd : (drmModeTimings m { d with vRefresh := 0 }).dblscan
      = (drmModeTimings m { d' with vRefresh := 0 }).dblscan :=
    sameScan_drmModeTimings.dblscan.trans (h.dblscan.trans sameScan_drmModeTimings.dblscan.symm)
  have hv : (drmModeTimings m { d with vRefresh := 0 }).vScan
      = (drmModeTimings m { d' with vRefresh := 0 }).vScan := h.vScan
  have hfresh : ∀ e, Lcd.freshVRefresh e m
      = drmModeVRefresh (drmModeTimings m { e with vRefresh := 0 }) := fun _ => rfl
  rw [hfresh, hfresh]
  unfold drmModeVRefresh
  rw [hi, hd, hv]
  rfl

theorem vRefresh_displayModeToDrm :
    (displayModeToDrm m d).vRefresh = if d.vRefresh = 0 then freshVRefresh d m else d.vRefresh := by
  split_ifs with h
  · rw [freshVRefresh, ← h]
  · have hpos : d.vRefresh > 0 := UInt32.pos_iff_ne_zero.2 h
    exact if_pos hpos

/-- The first rate of the modes. -/
def firstVRefresh (d : DrmDisplayMode) (ms : List DisplayMode) : UInt32 :=
  ((ms.map (freshVRefresh d)).find? (· != 0)).getD 0

theorem vRefresh_convertAll : ∀ {ms : List DisplayMode} {d : DrmDisplayMode},
    (convertAll d ms).vRefresh = if d.vRefresh = 0 then firstVRefresh d ms else d.vRefresh
  | [], d => by
    split_ifs with h
    · exact h
    · rfl
  | m :: ms, d => by
    have ih := @vRefresh_convertAll ms (displayModeToDrm m d)
    have hfirst : firstVRefresh (displayModeToDrm m d) ms = firstVRefresh d ms := by
      unfold firstVRefresh
      rw [List.map_congr_left fun m' _ =>
        (sameScan_displayModeToDrm (m := m) (d := d)).freshVRefresh (m := m')]
    rw [vRefresh_displayModeToDrm, hfirst] at ih
    refine ih.trans ?_
    by_cases h : d.vRefresh = 0
    · by_cases hm : freshVRefresh d m = 0
      · rw [if_pos h, if_pos hm, if_pos h, firstVRefresh, firstVRefresh, List.map_cons,
          List.find?_cons_of_neg (by simp [hm])]
      · rw [if_pos h, if_neg hm, if_pos h, firstVRefresh, List.map_cons,
          List.find?_cons_of_pos (by simp [hm])]
        rfl
    · rw [if_neg h, if_neg h, if_neg h]

end Refresh

section Histories

variable {d : DrmDisplayMode} {m : DisplayMode} {ms : List DisplayMode}

/-- The modes before the last one leave nothing that it would not bring itself: no other flag, and no
other refresh rate. -/
structure LeavesNothing (d : DrmDisplayMode) (ms : List DisplayMode) (m : DisplayMode) : Prop where
  flags : ∀ m' ∈ ms, drmFlags m' ||| (d.flags ||| drmFlags m) = d.flags ||| drmFlags m
  vRefresh : d.vRefresh = 0 → firstVRefresh d ms = 0 ∨ firstVRefresh d ms = freshVRefresh d m

/-- Two structures that a mode is converted into are the same when their flags and their rates are. -/
theorem displayModeToDrm_eq_iff {d' : DrmDisplayMode} (h : d'.vScan = d.vScan) :
    displayModeToDrm m d' = displayModeToDrm m d ↔
      (displayModeToDrm m d').flags = (displayModeToDrm m d).flags ∧
        (displayModeToDrm m d').vRefresh = (displayModeToDrm m d).vRefresh := by
  refine ⟨fun heq => by rw [heq]; exact ⟨rfl, rfl⟩, fun ⟨hflags, hrefresh⟩ => ?_⟩
  have hother : ∀ e : DrmDisplayMode, displayModeToDrm m e =
      { displayModeToDrm m .zero with
        vScan := e.vScan
        flags := (displayModeToDrm m e).flags
        vRefresh := (displayModeToDrm m e).vRefresh } := fun _ => rfl
  rw [hother d', hother d, h, hflags, hrefresh]

theorem flags_convertAll_concat :
    (displayModeToDrm m (convertAll d ms)).flags = (displayModeToDrm m d).flags ↔
      ∀ m' ∈ ms, drmFlags m' ||| (d.flags ||| drmFlags m) = d.flags ||| drmFlags m := by
  have hor : d.flags ||| allFlags ms ||| drmFlags m
      = allFlags ms ||| (d.flags ||| drmFlags m) := by
    rw [UInt32.or_comm d.flags, UInt32.or_assoc]
  rw [flags_displayModeToDrm, flags_displayModeToDrm, flags_convertAll, hor, allFlags_or_eq_iff]

theorem vRefresh_convertAll_concat :
    (displayModeToDrm m (convertAll d ms)).vRefresh = (displayModeToDrm m d).vRefresh ↔
      (d.vRefresh = 0 → firstVRefresh d ms = 0 ∨ firstVRefresh d ms = freshVRefresh d m) := by
  rw [vRefresh_displayModeToDrm, vRefresh_displayModeToDrm, vRefresh_convertAll,
    sameScan_convertAll.freshVRefresh]
  by_cases h : d.vRefresh = 0
  · by_cases hfirst : firstVRefresh d ms = 0
    · simp [h, hfirst]
    · simp [h, hfirst]
  · simp [h]

end Histories

section Range

variable {d : DrmDisplayMode} {m : DisplayMode}

/-- Each step of working out the rate has a divisor, and a result that its type holds. -/
structure RefreshInRange (d : DrmDisplayMode) : Prop where
  clock : d.clock.toNat * 1000 < 2 ^ 32
  hTotal : d.hTotal ≠ 0
  vTotalInt : d.vTotal.toNat < 2 ^ 31
  sum : (d.clock * 1000 / d.hTotal).toNat + (d.vTotal.toInt32 / 2).toUInt32.toNat < 2 ^ 32
  vTotal : d.vTotal ≠ 0
  interlace : d.interlace → (frameRate d).toNat * 2 < 2 ^ 32

/-- The totals of a display mode. -/
def hTotal (m : DisplayMode) : UInt32 := m.hActive + m.hFrontPorch + m.hSync + m.hBackPorch

def vTotal (m : DisplayMode) : UInt32 := m.vActive + m.vFrontPorch + m.vSync + m.vBackPorch

/-- The lines drawn in a second. -/
def lineRate (m : DisplayMode) : ℕ := m.oscFreq.toNat * 1000 / (hTotal m).toNat

theorem toNat_half_int {v : UInt32} (h : v.toNat < 2 ^ 31) :
    (v.toInt32 / 2).toUInt32.toNat = v.toNat / 2 := by
  have hv : v.toInt32 = Int32.ofNat v.toNat := by
    rw [← UInt32.toInt32_ofNat', UInt32.ofNat_toNat]
  have hdiv : v.toInt32 / 2 = Int32.ofNat (v.toNat / 2) := by
    rw [hv, Int32.ofNat_div h (by decide)]
    rfl
  rw [hdiv, Int32.toUInt32_ofNat', UInt32.toNat_ofNat']
  omega

/-- What keeps the computation for a mode in range. -/
structure RefreshBounds (d : DrmDisplayMode) (m : DisplayMode) : Prop where
  clock : m.oscFreq.toNat * 1000 < 2 ^ 32
  vTotal : (vTotal m).toNat < 2 ^ 31
  sum : lineRate m + (Lcd.vTotal m).toNat / 2 < 2 ^ 32
  interlace : d.interlace →
    (lineRate m + (Lcd.vTotal m).toNat / 2) / (Lcd.vTotal m).toNat * 2 < 2 ^ 32

theorem toNat_lineRate (h : m.oscFreq.toNat * 1000 < 2 ^ 32) :
    (m.oscFreq * 1000 / hTotal m).toNat = lineRate m := by
  rw [UInt32.toNat_div, UInt32.toNat_mul, lineRate, show (1000 : UInt32).toNat = 1000 from rfl,
    Nat.mod_eq_of_lt h]

theorem toNat_frameRate (hclock : m.oscFreq.toNat * 1000 < 2 ^ 32)
    (hv : (vTotal m).toNat < 2 ^ 31) (hsum : lineRate m + (vTotal m).toNat / 2 < 2 ^ 32) :
    (frameRate (drmModeTimings m d)).toNat
      = (lineRate m + (vTotal m).toNat / 2) / (vTotal m).toNat := by
  change ((m.oscFreq * 1000 / hTotal m + ((vTotal m).toInt32 / 2).toUInt32) / vTotal m).toNat = _
  rw [UInt32.toNat_div, UInt32.toNat_add, toNat_lineRate hclock, toNat_half_int hv,
    Nat.mod_eq_of_lt hsum]

theorem refreshInRange_iff : RefreshInRange (drmModeTimings m d) ↔
    hTotal m ≠ 0 ∧ vTotal m ≠ 0 ∧ RefreshBounds d m := by
  have hinterlace : (drmModeTimings m d).interlace = d.interlace := sameScan_drmModeTimings.interlace
  constructor
  · rintro ⟨hclock, hh, hvInt, hsum, hv, hi⟩
    change m.oscFreq.toNat * 1000 < _ at hclock
    change (vTotal m).toNat < _ at hvInt
    change (m.oscFreq * 1000 / hTotal m).toNat + ((vTotal m).toInt32 / 2).toUInt32.toNat < _ at hsum
    rw [toNat_lineRate hclock, toNat_half_int hvInt] at hsum
    rw [hinterlace, toNat_frameRate hclock hvInt hsum] at hi
    exact ⟨hh, hv, hclock, hvInt, hsum, hi⟩
  · rintro ⟨hh, hv, hclock, hvInt, hsum, hi⟩
    refine ⟨hclock, hh, hvInt, ?_, hv, ?_⟩
    · change (m.oscFreq * 1000 / hTotal m).toNat + ((vTotal m).toInt32 / 2).toUInt32.toNat < _
      rw [toNat_lineRate hclock, toNat_half_int hvInt]
      exact hsum
    · rw [hinterlace, toNat_frameRate hclock hvInt hsum]
      exact hi

/-- What a history leaves in the structure is what its last mode alone would, exactly where the modes
before leave nothing; and the rate of that mode is worked out in range exactly where its totals are
positive and its clock and lines are within bounds. -/
theorem convertAll_last_iff (d : DrmDisplayMode) (ms : List DisplayMode) (m : DisplayMode) :
    (convertAll d (ms ++ [m]) = convertAll d [m] ↔ LeavesNothing d ms m) ∧
      (RefreshInRange (drmModeTimings m (convertAll d ms)) ↔
        hTotal m ≠ 0 ∧ vTotal m ≠ 0 ∧ RefreshBounds d m) := by
  constructor
  · rw [convertAll, List.foldl_append]
    change displayModeToDrm m (convertAll d ms) = displayModeToDrm m d ↔ _
    rw [displayModeToDrm_eq_iff sameScan_convertAll.vScan, flags_convertAll_concat,
      vRefresh_convertAll_concat]
    exact ⟨fun ⟨hflags, hrefresh⟩ => ⟨hflags, hrefresh⟩, fun h => ⟨h.flags, h.vRefresh⟩⟩
  · rw [refreshInRange_iff]
    have hinterlace := (@sameScan_convertAll ms d).interlace
    refine and_congr_right fun _ => and_congr_right fun _ => ⟨fun h => ?_, fun h => ?_⟩
    · exact ⟨h.clock, h.vTotal, h.sum, fun hi => h.interlace (hinterlace.trans hi)⟩
    · exact ⟨h.clock, h.vTotal, h.sum, fun hi => h.interlace (hinterlace.symm.trans hi)⟩

/-- After 640x480 at 60 Hz, 3840x2160 at 30 Hz has both polarities of sync, and 60 Hz. -/
theorem convertAll_keeps_history :
    let vga : DisplayMode := ⟨1, 25175, 640, 16, 96, 48, 0, 480, 10, 2, 33, 0, 0, 0⟩
    let uhd : DisplayMode := ⟨95, 297000, 3840, 176, 88, 296, 1, 2160, 8, 10, 72, 1, 0, 0⟩
    vga ∈ displayModes ∧ uhd ∈ displayModes ∧
      convertAll .zero [vga, uhd] ≠ convertAll .zero [uhd] ∧
      (convertAll .zero [vga, uhd]).flags = 0xf ∧ (convertAll .zero [uhd]).flags = 0x5 ∧
      (convertAll .zero [vga, uhd]).vRefresh = 60 ∧ (convertAll .zero [uhd]).vRefresh = 30 := by
  decide

end Range

end Edk2Rk3576.Lcd
