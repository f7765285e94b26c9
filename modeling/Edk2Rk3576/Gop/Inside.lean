import Edk2Rk3576.Gop.Lcd

/-!
# The frame a blit stays in

The check adds a corner to a size with the wrap-around of `UINTN`. A rectangle whose sums do not wrap
is then in the frame, and so is every pixel touched. One whose sums wrap can pass the check too, and
then one of the two blitters leaves the frame.
-/

namespace Edk2Rk3576

variable (m : GopMode) (op : BltOperation) (bltBuffer : Bool) (p : BltArgs)

/-- The pixels `LcdGraphicsBlt` touches of a rectangle. -/
def GopMode.rows (x y n h : ℕ) : Set ℕ :=
  {i | ∃ r < h, ∃ k < n, i = (m.index x (y + r) + k) % frameSpan}

/-- The pixels `LcdGraphicsBlt90` touches of a rectangle. -/
def GopMode.columns (x y w h : ℕ) : Set ℕ :=
  {i | ∃ r < h, ∃ k < w, i = m.index90 (x + k) (y + r) % frameSpan}

/-- Where neither sum of a corner and the size wraps. -/
def BltArgs.Unwrapped (x y : UInt64) : Prop :=
  x.toNat + p.width.toNat < 2 ^ 64 ∧ y.toNat + p.height.toNat < 2 ^ 64

/-- Of the rectangles the operation checks, the sums do not wrap. -/
structure BltArgs.NoWrap : Prop where
  source : op.readsVideo = true → p.Unwrapped p.sourceX p.sourceY
  destination : op.writesVideo = true → p.Unwrapped p.destinationX p.destinationY

theorem mem_rows {x y n h i : ℕ} :
    i ∈ m.rows x y n h ↔ ∃ r < h, ∃ k < n, i = (m.index x (y + r) + k) % frameSpan := Iff.rfl

theorem mem_columns {x y w h i : ℕ} :
    i ∈ m.columns x y w h ↔ ∃ r < h, ∃ k < w, i = m.index90 (x + k) (y + r) % frameSpan := Iff.rfl

theorem exists_or_grid {h n i : ℕ} {d c : ℕ → ℕ → ℕ} :
    (∃ y < h, ∃ k < n, i = d y k ∨ i = c y k)
      ↔ (∃ y < h, ∃ k < n, i = c y k) ∨ ∃ y < h, ∃ k < n, i = d y k := by
  constructor
  · rintro ⟨y, hy, k, hk, hi | hi⟩
    · exact Or.inr ⟨y, hy, k, hk, hi⟩
    · exact Or.inl ⟨y, hy, k, hk, hi⟩
  · rintro (⟨y, hy, k, hk, hi⟩ | ⟨y, hy, k, hk, hi⟩)
    · exact ⟨y, hy, k, hk, Or.inr hi⟩
    · exact ⟨y, hy, k, hk, Or.inl hi⟩

/-- An accepted `LcdGraphicsBlt` touches the rows of the rectangles it checks. -/
theorem lcdGraphicsBlt_touches
    (h : lcdGraphicsBltCheckParameters m op bltBuffer p = efiSuccess) (s : BltState) (i : ℕ) :
    i ∈ (lcdGraphicsBlt m op bltBuffer p s).2.touched ↔ i ∈ s.touched
      ∨ op.readsVideo = true ∧ i ∈ m.rows p.sourceX.toNat p.sourceY.toNat (p.widthInBytes / 4)
          p.height.toNat
      ∨ op.writesVideo = true ∧ i ∈ m.rows p.destinationX.toNat p.destinationY.toNat
          (p.widthInBytes / 4) p.height.toNat := by
  unfold lcdGraphicsBlt
  simp only [h, efiError_success, Bool.false_eq_true, if_false]
  cases op with
  | videoFill =>
    refine (touches_countUp (fun y => touches_countUp (fun x =>
      touches_storePixel _ _) _) _ s i).trans ?_
    simp [BltOperation.readsVideo, BltOperation.writesVideo, mem_rows]
  | videoToBltBuffer =>
    refine (touches_countUp (fun y => touches_countUp (fun x =>
      touches_pixelToBuffer _ _) _) _ s i).trans ?_
    simp [BltOperation.readsVideo, BltOperation.writesVideo, mem_rows]
  | bufferToVideo =>
    refine (touches_countUp (fun y => touches_countUp (fun x =>
      touches_storePixel _ _) _) _ s i).trans ?_
    simp [BltOperation.readsVideo, BltOperation.writesVideo, mem_rows]
  | videoToVideo =>
    simp only [BltOperation.readsVideo, BltOperation.writesVideo, true_and, mem_rows]
    rw [← exists_or_grid]
    split_ifs
    · exact touches_countDown (fun y => touches_moveRow _ _ _) _ s i
    · exact touches_countUp (fun y => touches_moveRow _ _ _) _ s i
  | other => simp [BltOperation.readsVideo, BltOperation.writesVideo]

/-- An accepted `LcdGraphicsBlt90` touches the columns of the rectangles it checks. -/
theorem lcdGraphicsBlt90_touches
    (h : lcdGraphicsBltCheckParameters m op bltBuffer p = efiSuccess) (s : BltState) (i : ℕ) :
    i ∈ (lcdGraphicsBlt90 m op bltBuffer p s).2.touched ↔ i ∈ s.touched
      ∨ op.readsVideo = true
        ∧ i ∈ m.columns p.sourceX.toNat p.sourceY.toNat p.width.toNat p.height.toNat
      ∨ op.writesVideo = true
        ∧ i ∈ m.columns p.destinationX.toNat p.destinationY.toNat p.width.toNat p.height.toNat := by
  unfold lcdGraphicsBlt90
  simp only [h, efiError_success, Bool.false_eq_true, if_false]
  cases op with
  | videoFill =>
    refine (touches_countUp (fun y => touches_countUp (fun x =>
      touches_storePixel _ _) _) _ s i).trans ?_
    simp [BltOperation.readsVideo, BltOperation.writesVideo, mem_columns]
  | videoToBltBuffer =>
    refine (touches_countUp (fun y => touches_countUp (fun x =>
      touches_pixelToBuffer _ _) _) _ s i).trans ?_
    simp [BltOperation.readsVideo, BltOperation.writesVideo, mem_columns]
  | bufferToVideo =>
    refine (touches_countUp (fun y => touches_countUp (fun x =>
      touches_storePixel _ _) _) _ s i).trans ?_
    simp [BltOperation.readsVideo, BltOperation.writesVideo, mem_columns]
  | videoToVideo =>
    simp only [BltOperation.readsVideo, BltOperation.writesVideo, true_and, mem_columns]
    rw [← exists_or_grid]
    split_ifs
    · exact touches_countDown (fun y => touches_countUp (fun x => touches_movePixel _ _) _) _ s i
    · exact touches_countUp (fun y => touches_countUp (fun x => touches_movePixel _ _) _) _ s i
  | other => simp [BltOperation.readsVideo, BltOperation.writesVideo]

theorem widthInBytes_div_four : p.widthInBytes / 4 = p.width.toNat % 2 ^ 62 := by
  unfold BltArgs.widthInBytes
  omega

theorem mod_of_eq {a r q w : ℕ} (h : a = r + w * q) (hr : r < w) : a % w = r := by
  rw [h, Nat.add_mul_mod_self_left, Nat.mod_eq_of_lt hr]

/-- Where the turned frame has the pixel at `x`, `y` of the picture. -/
def GopMode.turned (x y : ℕ) : ℕ := m.verticalResolution - 1 - y + x * m.verticalResolution

theorem GopMode.index90_mod {x y : ℕ} (hx : x < m.horizontalResolution)
    (hy : y < m.verticalResolution) :
    m.index90 x y % frameSpan = m.turned x y
      ∧ m.turned x y < m.horizontalResolution * m.verticalResolution := by
  have h : (x + 1) * m.verticalResolution ≤ m.horizontalResolution * m.verticalResolution :=
    Nat.mul_le_mul_right _ hx
  have hv := m.vertical_lt
  have hf := m.fits
  rw [Nat.add_mul, Nat.one_mul] at h
  unfold GopMode.index90 GopMode.turned frameSpan
  omega

/-- A pixel of the row above the first one. -/
theorem GopMode.index_above {x : ℕ} (hx : x < m.horizontalResolution) :
    m.index x (2 ^ 64 - 1) % frameSpan = 2 ^ 62 - (m.horizontalResolution - x) := by
  have hH := m.horizontal_lt
  refine mod_of_eq (q := 4 * m.horizontalResolution - 1) ?_ (by unfold frameSpan; omega)
  unfold GopMode.index frameSpan
  omega

/-- The pixel above that, and to the left of the first column. -/
theorem GopMode.index_above_left :
    m.index (2 ^ 64 - 1) (2 ^ 64 - 1) % frameSpan = 2 ^ 62 - 1 - m.horizontalResolution := by
  have hH := m.horizontal_lt
  refine mod_of_eq (q := 4 * m.horizontalResolution + 3) ?_ (by unfold frameSpan; omega)
  unfold GopMode.index frameSpan
  omega

theorem GopMode.vertical_sub_one (h : 0 < m.verticalResolution) :
    (m.verticalResolution + (2 ^ 32 - 1)) % 2 ^ 32 = m.verticalResolution - 1 := by
  have hV := m.vertical_lt
  omega

/-- In the turned frame, a pixel to the left of the first column. -/
theorem GopMode.index90_left {y : ℕ} (h : 0 < m.verticalResolution) (hy : y < 2 ^ 32) :
    m.index90 (2 ^ 64 - 1) y % frameSpan = 2 ^ 62 - 1 - y := by
  refine mod_of_eq (q := 4 * m.verticalResolution + 3) ?_ (by unfold frameSpan; omega)
  unfold GopMode.index90 frameSpan
  rw [m.vertical_sub_one h]
  omega

/-- In the turned frame, the pixel of the row above in the second column to the left. -/
theorem GopMode.index90_above_left (h : 0 < m.verticalResolution) :
    m.index90 (2 ^ 64 - 2) (2 ^ 64 - 1) % frameSpan = 2 ^ 62 - m.verticalResolution := by
  have hV := m.vertical_lt
  refine mod_of_eq (q := 4 * m.verticalResolution - 1) ?_ (by unfold frameSpan; omega)
  unfold GopMode.index90 frameSpan
  rw [m.vertical_sub_one h]
  omega

/-- A rectangle whose sums do not wrap is in the frame, in both layouts. -/
theorem GopMode.rect_inside {x y : UInt64} (hin : m.beyond p x y = false) (h : p.Unwrapped x y) :
    (∀ i ∈ m.rows x.toNat y.toNat (p.widthInBytes / 4) p.height.toNat,
        i < m.horizontalResolution * m.verticalResolution)
      ∧ ∀ i ∈ m.columns x.toNat y.toNat p.width.toNat p.height.toNat,
        i < m.horizontalResolution * m.verticalResolution := by
  have hH := m.horizontal_lt
  simp only [GopMode.beyond, Bool.or_eq_false_iff, decide_eq_false_iff_not, not_lt] at hin
  obtain ⟨hiny, hinx⟩ := hin
  obtain ⟨hnx, hny⟩ := h
  rw [Nat.mod_eq_of_lt hnx] at hinx
  rw [Nat.mod_eq_of_lt hny] at hiny
  rw [widthInBytes_div_four, Nat.mod_eq_of_lt (by omega)]
  constructor
  · rintro i ⟨r, hr, k, hk, rfl⟩
    have hi := m.index_lt (show x.toNat + k < m.horizontalResolution by omega)
      (show y.toNat + r < m.verticalResolution by omega)
    unfold GopMode.index at hi ⊢
    exact (Nat.mod_le _ _).trans_lt (by omega)
  · rintro i ⟨r, hr, k, hk, rfl⟩
    obtain ⟨hi, hlt⟩ := m.index90_mod (show x.toNat + k < m.horizontalResolution by omega)
      (show y.toNat + r < m.verticalResolution by omega)
    rw [hi]
    exact hlt

/-- The pixels either blitter touches of a rectangle are in the frame exactly if its sums do not
wrap. -/
theorem GopMode.rect_inside_iff {x y : UInt64} (hw : p.width ≠ 0) (hh : p.height ≠ 0)
    (hin : m.beyond p x y = false) :
    ((∀ i ∈ m.rows x.toNat y.toNat (p.widthInBytes / 4) p.height.toNat,
        i < m.horizontalResolution * m.verticalResolution)
      ∧ ∀ i ∈ m.columns x.toNat y.toNat p.width.toNat p.height.toNat,
        i < m.horizontalResolution * m.verticalResolution)
      ↔ p.Unwrapped x y := by
  refine ⟨?_, m.rect_inside p hin⟩
  have hw' := p.width_pos hw
  have hh' := p.height_pos hh
  have hlt := p.width.toNat_lt
  have hlt' := p.height.toNat_lt
  have hx := x.toNat_lt
  have hy := y.toNat_lt
  have hH := m.horizontal_lt
  have hV := m.vertical_lt
  have hf := m.fits
  simp only [GopMode.beyond, Bool.or_eq_false_iff, decide_eq_false_iff_not, not_lt] at hin
  obtain ⟨hiny, hinx⟩ := hin
  rw [widthInBytes_div_four]
  rintro ⟨hrows, hcols⟩
  have hrow : ∀ r < p.height.toNat, 0 < p.width.toNat % 2 ^ 62 →
      m.index x.toNat (y.toNat + r) % frameSpan < _ :=
    fun r hr hpos => hrows _ ⟨r, hr, 0, hpos, rfl⟩
  have hcol : ∀ r < p.height.toNat, ∀ k < p.width.toNat,
      m.index90 (x.toNat + k) (y.toNat + r) % frameSpan < _ :=
    fun r hr k hk => hcols _ ⟨r, hr, k, hk, rfl⟩
  have hpos : 0 < m.verticalResolution :=
    Nat.pos_of_mul_pos_left ((Nat.zero_le _).trans_lt (hcol 0 hh' 0 hw'))
  by_cases hxw : x.toNat + p.width.toNat < 2 ^ 64
  · refine ⟨hxw, ?_⟩
    by_contra hyw
    have h := hrow (2 ^ 64 - 1 - y.toNat) (by omega) (by omega)
    rw [show y.toNat + (2 ^ 64 - 1 - y.toNat) = 2 ^ 64 - 1 by omega,
      m.index_above (by omega)] at h
    omega
  · exfalso
    by_cases hyw : y.toNat + p.height.toNat < 2 ^ 64
    · have h := hcol 0 hh' (2 ^ 64 - 1 - x.toNat) (by omega)
      rw [show x.toNat + (2 ^ 64 - 1 - x.toNat) = 2 ^ 64 - 1 by omega,
        m.index90_left hpos (by omega)] at h
      omega
    by_cases hx₁ : x.toNat = 2 ^ 64 - 1
    · have h := hrow (2 ^ 64 - 1 - y.toNat) (by omega) (by omega)
      rw [hx₁, show y.toNat + (2 ^ 64 - 1 - y.toNat) = 2 ^ 64 - 1 by omega,
        m.index_above_left] at h
      omega
    · have h := hcol (2 ^ 64 - 1 - y.toNat) (by omega) (2 ^ 64 - 2 - x.toNat) (by omega)
      rw [show x.toNat + (2 ^ 64 - 2 - x.toNat) = 2 ^ 64 - 2 by omega,
        show y.toNat + (2 ^ 64 - 1 - y.toNat) = 2 ^ 64 - 1 by omega,
        m.index90_above_left hpos] at h
      omega

theorem lcdGraphicsBltCheckParameters_success :
    lcdGraphicsBltCheckParameters m op bltBuffer p = efiSuccess ↔ (p.width ≠ 0 ∧ p.height ≠ 0)
      ∧ (op.usesBuffer = true → bltBuffer = true)
      ∧ (op.readsVideo = true → m.beyond p p.sourceX p.sourceY = false)
      ∧ (op.writesVideo = true → m.beyond p p.destinationX p.destinationY = false) := by
  have hne : efiInvalidParameter ≠ efiSuccess := encodeError_ne_success 2
  unfold lcdGraphicsBltCheckParameters
  split_ifs with h₁ h₂ h₃ h₄
  · exact iff_of_false hne fun h => h₁.elim h.1.1 h.1.2
  · refine iff_of_false hne fun h => ?_
    rw [Bool.and_eq_true, Bool.not_eq_true'] at h₂
    rw [h.2.1 h₂.2] at h₂
    exact Bool.noConfusion h₂.1
  · refine iff_of_false hne fun h => ?_
    rw [Bool.and_eq_true] at h₃
    rw [h.2.2.1 h₃.1] at h₃
    exact Bool.noConfusion h₃.2
  · refine iff_of_false hne fun h => ?_
    rw [Bool.and_eq_true] at h₄
    rw [h.2.2.2 h₄.1] at h₄
    exact Bool.noConfusion h₄.2
  · refine iff_of_true rfl ⟨not_or.1 h₁, fun hu => ?_, fun hr => ?_, fun hw => ?_⟩
    · simpa [hu] using h₂
    · simpa [hr] using h₃
    · simpa [hw] using h₄

/-- Both blitters stay in the frame. -/
structure InsideFrame (s : BltState) : Prop where
  plain : ∀ i ∈ (lcdGraphicsBlt m op bltBuffer p s).2.touched,
    i < m.horizontalResolution * m.verticalResolution
  turned : ∀ i ∈ (lcdGraphicsBlt90 m op bltBuffer p s).2.touched,
    i < m.horizontalResolution * m.verticalResolution

theorem insideFrame_iff (h : lcdGraphicsBltCheckParameters m op bltBuffer p = efiSuccess)
    (frame : Cells UInt32) (buffer : Cells UInt8) :
    InsideFrame m op bltBuffer p ⟨frame, buffer, []⟩ ↔ p.NoWrap op := by
  have hb := lcdGraphicsBlt_touches m op bltBuffer p h ⟨frame, buffer, []⟩
  have ht := lcdGraphicsBlt90_touches m op bltBuffer p h ⟨frame, buffer, []⟩
  obtain ⟨⟨hw, hh⟩, -, hr, hd⟩ := (lcdGraphicsBltCheckParameters_success m op bltBuffer p).1 h
  simp only [List.not_mem_nil, false_or] at hb ht
  constructor
  · rintro ⟨hplain, hturned⟩
    refine ⟨fun ho => (m.rect_inside_iff p hw hh (hr ho)).1 ⟨?_, ?_⟩,
      fun ho => (m.rect_inside_iff p hw hh (hd ho)).1 ⟨?_, ?_⟩⟩
    · exact fun i hi => hplain i ((hb i).2 (Or.inl ⟨ho, hi⟩))
    · exact fun i hi => hturned i ((ht i).2 (Or.inl ⟨ho, hi⟩))
    · exact fun i hi => hplain i ((hb i).2 (Or.inr ⟨ho, hi⟩))
    · exact fun i hi => hturned i ((ht i).2 (Or.inr ⟨ho, hi⟩))
  · rintro ⟨hns, hnd⟩
    refine ⟨fun i hi => ?_, fun i hi => ?_⟩
    · rcases (hb i).1 hi with ⟨ho, hi⟩ | ⟨ho, hi⟩
      · exact ((m.rect_inside_iff p hw hh (hr ho)).2 (hns ho)).1 i hi
      · exact ((m.rect_inside_iff p hw hh (hd ho)).2 (hnd ho)).1 i hi
    · rcases (ht i).1 hi with ⟨ho, hi⟩ | ⟨ho, hi⟩
      · exact ((m.rect_inside_iff p hw hh (hr ho)).2 (hns ho)).2 i hi
      · exact ((m.rect_inside_iff p hw hh (hd ho)).2 (hnd ho)).2 i hi

/-- What the check accepts stays in the frame exactly if no sum it makes wraps. -/
theorem lcdGraphicsBlt_inside_iff :
    (lcdGraphicsBltCheckParameters m op bltBuffer p = efiSuccess → ∀ frame buffer,
        InsideFrame m op bltBuffer p ⟨frame, buffer, []⟩)
      ↔ (lcdGraphicsBltCheckParameters m op bltBuffer p = efiSuccess → p.NoWrap op) := by
  refine forall_congr' fun h => ?_
  constructor
  · intro hin
    exact (insideFrame_iff m op bltBuffer p h (fun _ => 0) fun _ => 0).1 (hin _ _)
  · intro hno frame buffer
    exact (insideFrame_iff m op bltBuffer p h frame buffer).2 hno

/-- A display of 640 by 480 pixels. -/
def vgaMode : GopMode := ⟨640, 480, by decide, by decide, by decide⟩

/-- One pixel filled at `x = 2 ^ 64 - 1` of the first row: the check accepts it, and the pixel before
the frame is written. -/
theorem lcdGraphicsBlt_leaves_frame :
    ¬ ∀ m op bltBuffer p, lcdGraphicsBltCheckParameters m op bltBuffer p = efiSuccess →
      ∀ frame buffer, InsideFrame m op bltBuffer p ⟨frame, buffer, []⟩ := by
  intro h
  have hin := (h vgaMode .videoFill true ⟨0, 0, 0xffffffffffffffff, 0, 1, 1, 0⟩ (by decide)
    (fun _ => 0) fun _ => 0).plain (2 ^ 62 - 1) (by decide)
  exact absurd hin (by decide)

end Edk2Rk3576
