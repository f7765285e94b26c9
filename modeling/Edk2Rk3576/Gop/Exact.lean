import Mathlib.Data.Nat.ModEq
import Mathlib.Tactic.IntervalCases
import Mathlib.Tactic.Ring
import Edk2Rk3576.Gop.SimpleFb
import Edk2Rk3576.Gop.Turned

/-!
# Where the simple frame buffer is exact

`SimpleFbBlt` relies on its caller for everything that `LcdGraphicsBltCheckParameters` checks, for
rows of the blt buffer that do not overlap, and for a copy within the frame that does not go down
onto rows it has still to read.
-/

namespace Edk2Rk3576

open Cells

variable (m : SimpleFbMode) (op : BltOperation) (bltBuffer tmpAllocated : Bool) (p : BltArgs)

/-- The rectangles overlap, and the copy goes down. -/
structure BltArgs.CopiesDown : Prop where
  below : p.sourceY < p.destinationY
  rows : p.destinationY.toNat < p.sourceY.toNat + p.height.toNat
  left : p.sourceX.toNat < p.destinationX.toNat + p.width.toNat
  right : p.destinationX.toNat < p.sourceX.toNat + p.width.toNat

/-- No two rows of the rectangle share a byte of the blt buffer. -/
def BltArgs.RowsApart : Prop :=
  ∀ k, 0 < k → k < p.height.toNat →
    4 * p.width.toNat ≤ k * p.rowDelta % bufferSpan
      ∧ k * p.rowDelta % bufferSpan + 4 * p.width.toNat ≤ bufferSpan

/-- What `SimpleFbBlt` leaves to its caller. -/
structure SimpleFbMode.Careful : Prop where
  buffer : op.usesBuffer = true → bltBuffer = true
  source : op.readsVideo = true → m.InFrame p p.sourceX p.sourceY
  destination : op.writesVideo = true → m.InFrame p p.destinationX p.destinationY
  copy : op = .videoToVideo → ¬ p.CopiesDown
  apart : op = .videoToBltBuffer → p.RowsApart

/-- The calls that do nothing: an empty rectangle, an operation there is not, no memory for a
row. -/
def BltArgs.DoesNothing : Prop :=
  p.width = 0 ∨ p.height = 0 ∨ op = .other ∨ op = .videoToVideo ∧ tmpAllocated = false

section Exact

variable {m op bltBuffer tmpAllocated p} {s : BltState}

theorem BltArgs.DoesNothing.meetsLaw (h : p.DoesNothing op tmpAllocated) :
    m.MeetsLaw op p s (simpleFbBlt m op bltBuffer tmpAllocated p s) := by
  unfold simpleFbBlt
  by_cases hempty : p.width = 0 ∨ p.height = 0
  · have hcells : ∀ i, i ∉ p.cells := by
      rintro i ⟨hrow, hcol⟩
      rcases hempty with hw | hh
      · rw [hw] at hcol
        exact absurd hcol (Nat.not_lt_zero _)
      · rw [hh] at hrow
        exact absurd hrow (Nat.not_lt_zero _)
    rw [if_pos hempty]
    refine Or.inr ⟨efiError_success, hempty.imp_right Or.inl, ?_⟩
    cases op with
    | videoFill => exact ⟨⟨fun i hi => absurd hi (hcells i), fun _ _ => rfl⟩, rfl⟩
    | bufferToVideo => exact ⟨⟨fun i hi => absurd hi (hcells i), fun _ _ => rfl⟩, rfl⟩
    | videoToBltBuffer => exact ⟨⟨fun i hi => absurd hi.1 (hcells i.1), fun _ _ => rfl⟩, rfl⟩
    | videoToVideo => exact ⟨⟨fun i hi => absurd hi (hcells i), fun _ _ => rfl⟩, rfl⟩
    | other => trivial
  · rw [if_neg hempty]
    rcases h with hw | hh | rfl | ⟨rfl, rfl⟩
    · exact absurd (Or.inl hw) hempty
    · exact absurd (Or.inr hh) hempty
    · exact Or.inl ⟨efiError_invalidParameter, rfl, rfl⟩
    · exact Or.inl ⟨efiError_encodeError 9, rfl, rfl⟩

/-- Two bytes of rows that are apart are the same byte of the rectangle. -/
theorem BltArgs.RowsApart.byte_lt (h : p.RowsApart) {base r r' b b' : ℕ} (hr : r < r')
    (hr' : r' < p.height.toNat) (hb : b < 4 * p.width.toNat) (hb' : b' < 4 * p.width.toNat) :
    ¬ (r * p.rowDelta + base + b) % bufferSpan = (r' * p.rowDelta + base + b') % bufferSpan := by
  obtain ⟨k, rfl⟩ := Nat.exists_eq_add_of_lt hr
  intro he
  obtain ⟨hlow, hhigh⟩ := h (k + 1) (by omega) (by omega)
  have hsum : (r + k + 1) * p.rowDelta + base + b'
      = r * p.rowDelta + base + ((k + 1) * p.rowDelta + b') := by ring
  rw [hsum] at he
  have hmod : b % bufferSpan = ((k + 1) * p.rowDelta + b') % bufferSpan :=
    Nat.ModEq.add_left_cancel' _ he
  rw [← Nat.mod_add_mod, Nat.mod_eq_of_lt (by omega), Nat.mod_eq_of_lt (by omega)] at hmod
  omega

theorem BltArgs.offset_add (x y : UInt64) (i : (ℕ × ℕ) × ℕ) :
    p.offset x y i.1 + i.2
      = i.1.1 * p.rowDelta + (y.toNat * p.rowDelta + x.toNat * 4) + (i.1.2 * 4 + i.2) := by
  unfold BltArgs.offset
  ring

theorem BltArgs.RowsApart.inj (h : p.RowsApart) (hW : 4 * p.width.toNat ≤ bufferSpan)
    {x y : UInt64} {i i' : (ℕ × ℕ) × ℕ} (hi : i ∈ p.bytes) (hi' : i' ∈ p.bytes)
    (he : (p.offset x y i.1 + i.2) % bufferSpan = (p.offset x y i'.1 + i'.2) % bufferSpan) :
    i = i' := by
  obtain ⟨⟨hr, hc⟩, hj⟩ := hi
  obtain ⟨⟨hr', hc'⟩, hj'⟩ := hi'
  rw [p.offset_add, p.offset_add] at he
  rcases Nat.lt_trichotomy i.1.1 i'.1.1 with hlt | heq | hgt
  · exact absurd he (h.byte_lt hlt hr' (by omega) (by omega))
  · rw [heq] at he
    have hmod : (i.1.2 * 4 + i.2) % bufferSpan = (i'.1.2 * 4 + i'.2) % bufferSpan :=
      Nat.ModEq.add_left_cancel' _ he
    rw [Nat.mod_eq_of_lt (by omega), Nat.mod_eq_of_lt (by omega)] at hmod
    exact Prod.ext (Prod.ext heq (by omega)) (by omega)
  · exact absurd he.symm (h.byte_lt hgt hr (by omega) (by omega))

/-- A pixel read back fills its four bytes of the blt buffer. -/
theorem filled_pixelToBuffer {x y : UInt64} {t : BltState} (i : ℕ × ℕ) (n : ℕ) :
    Filled ((fun j => (i, j)) '' {j | j < 4})
        (fun i : (ℕ × ℕ) × ℕ => (p.offset x y i.1 + i.2) % bufferSpan)
        (fun i => pixelByte (t.frame (n % frameSpan)) i.2) t.buffer
        (t.pixelToBuffer (p.offset x y i) n).buffer
      ∧ (t.pixelToBuffer (p.offset x y i) n).frame = t.frame := by
  have hring : Filled {j | j < 4} (fun j => (p.offset x y i + j) % bufferSpan)
      (pixelByte (t.frame (n % frameSpan))) t.buffer
      (t.pixelToBuffer (p.offset x y i) n).buffer := filled_rmodify (by decide) (by decide)
  exact ⟨Filled.image hring, rfl⟩

/-- Two loops that read a rectangle of the frame back. -/
theorem filled_readBack (hin : m.InFrame p p.sourceX p.sourceY) (hap : p.RowsApart) {x y : UInt64} :
    Filled p.bytes (fun i => (p.offset x y i.1 + i.2) % bufferSpan)
        (fun i => pixelByte (s.frame (m.at p.sourceX p.sourceY i.1)) i.2) s.buffer
        (countUp (fun r => countUp (fun c t => BltState.pixelToBuffer t (p.offset x y (r, c))
          (m.fbPixel p.sourceX.toNat (p.sourceY.toNat + r) + c)) p.width.toNat) p.height.toNat
          s).buffer
      ∧ (countUp (fun r => countUp (fun c t => BltState.pixelToBuffer t (p.offset x y (r, c))
          (m.fbPixel p.sourceX.toNat (p.sourceY.toNat + r) + c)) p.width.toNat) p.height.toNat
          s).frame = s.frame := by
  have hW : 4 * p.width.toNat ≤ bufferSpan := by
    have hr := hin.right
    have hw := m.maxWidth
    unfold bufferSpan
    omega
  have hbytes : p.bytes = {i | ∃ r < p.height.toNat, i ∈ {i | i.1 ∈ p.row r ∧ i.2 < 4}} := by
    ext i
    constructor
    · exact fun hi => ⟨i.1.1, hi.1.1, ⟨rfl, hi.1.2⟩, hi.2⟩
    · exact fun ⟨r, hr, hi⟩ => ⟨p.row_subset hr hi.1, hi.2⟩
  have hmem : ∀ r < p.height.toNat, ∀ c < p.width.toNat,
      ∀ i ∈ (fun j => ((r, c), j)) '' {j | j < 4}, i ∈ p.bytes := by
    rintro r hr c hc _ ⟨j, hj, rfl⟩
    exact ⟨⟨hr, hc⟩, hj⟩
  rw [hbytes]
  refine filled_countUp BltState.buffer (fun t => t.frame = s.frame) rfl (fun r hr t ht _ => ?_)
    fun r hr r' hr' i hi i' hi' he => ?_
  · have hrow : {i : (ℕ × ℕ) × ℕ | i.1 ∈ p.row r ∧ i.2 < 4}
        = {i | ∃ c < p.width.toNat, i ∈ (fun j => ((r, c), j)) '' {j | j < 4}} := by
      ext ⟨⟨i, c⟩, j⟩
      constructor
      · rintro ⟨⟨rfl, hc⟩, hj⟩
        exact ⟨c, hc, j, hj, rfl⟩
      · rintro ⟨c, hc, j, hj, he⟩
        cases he
        exact ⟨⟨rfl, hc⟩, hj⟩
    rw [hrow]
    refine filled_countUp BltState.buffer (fun t => t.frame = s.frame) ht (fun c hc t ht _ => ?_)
      fun c hc c' hc' i hi i' hi' he => ?_
    · obtain ⟨hfill, hframe⟩ := filled_pixelToBuffer (p := p) (x := x) (y := y) (t := t) (r, c)
        (m.fbPixel p.sourceX.toNat (p.sourceY.toNat + r) + c)
      refine ⟨⟨?_, hfill.kept⟩, hframe.trans ht⟩
      rintro _ ⟨j, hj, rfl⟩
      rw [hfill.filled _ ⟨j, hj, rfl⟩, m.at_mod (i := (r, c)) hin ⟨hr, hc⟩, ht]
    · have heq := hap.inj hW (hmem r hr c' (by omega) i hi) (hmem r hr c hc i' hi') he
      obtain ⟨j, -, rfl⟩ := hi
      obtain ⟨j', -, rfl⟩ := hi'
      cases heq
      exact Nat.lt_irrefl _ hc'
  · have heq := hap.inj hW (⟨p.row_subset (by omega) hi.1, hi.2⟩ : i ∈ p.bytes)
      ⟨p.row_subset hr hi'.1, hi'.2⟩ he
    have hrow : i.1.1 = r' := hi.1.1
    have hrow' : i'.1.1 = r := hi'.1.1
    rw [heq] at hrow
    omega

/-- A row copied within the frame. -/
theorem filled_moveRow {x y x' y' : UInt64} (hd : m.InFrame p x y) (hc : m.InFrame p x' y')
    (hw : 0 < p.width.toNat) {t : BltState} {r : ℕ} (hr : r < p.height.toNat) :
    Filled (p.row r) (m.at x y) (fun i => t.frame (m.at x' y' i)) t.frame
        (t.moveRow (m.fbPixel x.toNat (y.toNat + r)) (m.fbPixel x'.toNat (y'.toNat + r))
          p.width.toNat).frame
      ∧ (t.moveRow (m.fbPixel x.toNat (y.toNat + r)) (m.fbPixel x'.toNat (y'.toNat + r))
          p.width.toNat).buffer = t.buffer := by
  have hdr := hd.right
  have hdb := hd.bottom
  have hcr := hc.right
  have hcb := hc.bottom
  obtain ⟨hrow, hkept, hbuf⟩ := frame_moveRow (s := t) (n := p.width.toNat)
    (m.index_add_le hw hdr (show y.toNat + r < _ by omega)) hw
    (m.index_add_le hw hcr (show y'.toNat + r < _ by omega))
  rw [m.fbPixel_eq, m.fbPixel_eq]
  refine ⟨⟨?_, fun k hk => hkept k fun c hc he => hk (r, c) ⟨rfl, hc⟩ ?_⟩, hbuf⟩
  · rintro ⟨_, c⟩ ⟨rfl, hc⟩
    unfold SimpleFbMode.at
    rw [← m.index_add, ← m.index_add]
    exact hrow c hc
  · unfold SimpleFbMode.at
    rw [he, m.index_add]

/-- A copy within the frame that does not go down onto its source. -/
theorem filled_moveRows (hc : m.InFrame p p.sourceX p.sourceY)
    (hd : m.InFrame p p.destinationX p.destinationY) (hw : 0 < p.width.toNat)
    (hdown : ¬ p.CopiesDown) :
    Filled p.cells (m.at p.destinationX p.destinationY)
        (fun i => s.frame (m.at p.sourceX p.sourceY i)) s.frame
        (countUp (fun r t => BltState.moveRow t
          (m.fbPixel p.destinationX.toNat (p.destinationY.toNat + r))
          (m.fbPixel p.sourceX.toNat (p.sourceY.toNat + r)) p.width.toNat) p.height.toNat s).frame
      ∧ (countUp (fun r t => BltState.moveRow t
          (m.fbPixel p.destinationX.toNat (p.destinationY.toNat + r))
          (m.fbPixel p.sourceX.toNat (p.sourceY.toNat + r)) p.width.toNat) p.height.toNat
          s).buffer = s.buffer := by
  have hcr := hc.right
  have hdr := hd.right
  rw [← p.rows_eq]
  refine filled_countUp BltState.frame (fun t => t.buffer = s.buffer) rfl
    (fun r hr t ht hdone => ?_) fun r hr r' hr' i hi i' hi' he => ?_
  · obtain ⟨hrow, hbuf⟩ := filled_moveRow hd hc hw (t := t) hr
    refine ⟨⟨fun i hi => ?_, hrow.kept⟩, hbuf.trans ht⟩
    rw [hrow.filled i hi]
    -- no row above has been copied onto what this one reads
    refine hdone.kept _ fun j ⟨r', hr', hj⟩ he => hdown ?_
    obtain ⟨hi₁, hi₂⟩ := hi
    obtain ⟨hj₁, hj₂⟩ := hj
    unfold SimpleFbMode.at at he
    rw [m.index_inj (by omega) (by omega)] at he
    exact ⟨UInt64.lt_iff_toNat_lt.2 (by omega), by omega, by omega, by omega⟩
  · have heq := m.at_inj hd (p.row_subset (by omega) hi) (p.row_subset hr hi') he
    have hrow : i.1 = r' := hi.1
    have hrow' : i'.1 = r := hi'.1
    rw [heq] at hrow
    omega

/-- A careful call meets the law. -/
theorem SimpleFbMode.Careful.meetsLaw (h : m.Careful op bltBuffer p)
    (hno : ¬ p.DoesNothing op tmpAllocated) :
    m.MeetsLaw op p s (simpleFbBlt m op bltBuffer tmpAllocated p s) := by
  unfold BltArgs.DoesNothing at hno
  push Not at hno
  obtain ⟨hw, hh, hop, htmp⟩ := hno
  have hrect : m.RectanglesInFrame op p := Or.inr (Or.inr ⟨h.source, h.destination⟩)
  unfold simpleFbBlt
  rw [if_neg (by rintro (hno | hno); exacts [hw hno, hh hno])]
  cases op with
  | videoFill =>
    obtain rfl := h.buffer rfl
    exact Or.inr ⟨efiError_success, hrect,
      filled_storePixels (h.destination rfl) fun t ht r c => rfl⟩
  | bufferToVideo =>
    obtain rfl := h.buffer rfl
    refine Or.inr ⟨efiError_success, hrect,
      filled_storePixels (h.destination rfl) fun t ht r c => ?_⟩
    unfold BltState.bufferPixel
    rw [ht]
    rfl
  | videoToBltBuffer =>
    obtain rfl := h.buffer rfl
    exact Or.inr ⟨efiError_success, hrect, filled_readBack (h.source rfl) (h.apart rfl)⟩
  | videoToVideo =>
    obtain rfl : tmpAllocated = true := by simpa using htmp rfl
    refine Or.inr ⟨efiError_success, hrect, ?_⟩
    rw [pixels_of_inFrame (h.source rfl)]
    exact filled_moveRows (h.source rfl) (h.destination rfl) (p.width_pos hw) (h.copy rfl)
  | other => exact absurd rfl hop

/-- Rows that are not apart share a byte. -/
theorem BltArgs.exists_shared (h : ¬ p.RowsApart) (hw : 0 < p.width.toNat) (x y : UInt64) :
    ∃ i ∈ p.bytes, ∃ i' ∈ p.bytes, i.1.1 ≠ i'.1.1
      ∧ (p.offset x y i.1 + i.2) % bufferSpan = (p.offset x y i'.1 + i'.2) % bufferSpan := by
  unfold BltArgs.RowsApart at h
  push Not at h
  obtain ⟨k, hk, hkh, hlow⟩ := h
  have hq := Nat.mod_lt (k * p.rowDelta) (show 0 < bufferSpan by decide)
  generalize hqe : k * p.rowDelta % bufferSpan = q at hlow hq
  have hkq : k * p.rowDelta ≡ q [MOD bufferSpan] := by
    rw [← hqe]
    exact (Nat.mod_modEq _ _).symm
  by_cases hq4 : q < 4 * p.width.toNat
  · refine ⟨((0, q / 4), q % 4), ⟨⟨by show 0 < _; omega, by show q / 4 < _; omega⟩,
      by show q % 4 < 4; omega⟩, ((k, 0), 0), ⟨⟨hkh, hw⟩, Nat.zero_lt_succ 3⟩, hk.ne, ?_⟩
    rw [p.offset_add, p.offset_add]
    have hrow : 0 * p.rowDelta + (y.toNat * p.rowDelta + x.toNat * 4) + (q / 4 * 4 + q % 4)
        = y.toNat * p.rowDelta + x.toNat * 4 + q := by omega
    have hrow' : k * p.rowDelta + (y.toNat * p.rowDelta + x.toNat * 4) + (0 * 4 + 0)
        = y.toNat * p.rowDelta + x.toNat * 4 + k * p.rowDelta := by omega
    show _ % _ = _ % _
    simp only [hrow, hrow']
    exact (Nat.ModEq.add_left _ hkq).symm
  · have hlow := hlow (by omega)
    refine ⟨((0, 0), 0), ⟨⟨by show 0 < _; omega, hw⟩, by decide⟩,
      ((k, (bufferSpan - q) / 4), (bufferSpan - q) % 4),
      ⟨⟨hkh, by show (bufferSpan - q) / 4 < _; omega⟩, by show (bufferSpan - q) % 4 < 4; omega⟩,
      hk.ne, ?_⟩
    rw [p.offset_add, p.offset_add]
    have hrow : 0 * p.rowDelta + (y.toNat * p.rowDelta + x.toNat * 4) + (0 * 4 + 0)
        = y.toNat * p.rowDelta + x.toNat * 4 + 0 := by omega
    have hrow' : k * p.rowDelta + (y.toNat * p.rowDelta + x.toNat * 4)
          + ((bufferSpan - q) / 4 * 4 + (bufferSpan - q) % 4)
        = y.toNat * p.rowDelta + x.toNat * 4 + (k * p.rowDelta + (bufferSpan - q)) := by omega
    show _ % _ = _ % _
    simp only [hrow, hrow']
    refine Nat.ModEq.add_left _ ?_
    have hring : q + (bufferSpan - q) ≡ 0 [MOD bufferSpan] := by
      rw [Nat.add_sub_cancel' hq.le]
      exact Nat.modEq_zero_iff_dvd.2 dvd_rfl
    exact ((Nat.ModEq.add_right _ hkq).trans hring).symm

theorem pixelByte_white {j : ℕ} (hj : j < 4) : pixelByte 0xffffffff j = 255 := by
  interval_cases j <;> rfl

theorem pixelByte_black (j : ℕ) : pixelByte 0 j = 0 := by
  simp [pixelByte]

/-- A buffer whose rows share a byte cannot hold every picture. -/
theorem not_filled_readBack (hin : m.InFrame p p.sourceX p.sourceY) (hw : 0 < p.width.toNat)
    (h : ¬ p.RowsApart) {x y : UInt64} :
    ∃ frame : Cells UInt32, ∀ buffer buffer' : Cells UInt8,
      ¬ Filled p.bytes (fun i => (p.offset x y i.1 + i.2) % bufferSpan)
        (fun i => pixelByte (frame (m.at p.sourceX p.sourceY i.1)) i.2) buffer buffer' := by
  obtain ⟨i, hi, i', hi', hrow, he⟩ := p.exists_shared h hw x y
  refine ⟨fun k => if k = m.at p.sourceX p.sourceY i.1 then 0xffffffff else 0,
    fun buffer buffer' hfill => ?_⟩
  have hwhite := hfill.filled i hi
  have hblack := hfill.filled i' hi'
  have hne : m.at p.sourceX p.sourceY i'.1 ≠ m.at p.sourceX p.sourceY i.1 :=
    fun hno => hrow (congrArg Prod.fst (m.at_inj hin hi.1 hi'.1 hno.symm))
  simp only [if_pos, if_neg hne, pixelByte_white hi.2, pixelByte_black] at hwhite hblack
  rw [he, hblack] at hwhite
  exact absurd hwhite (by decide)

/-- A column of the source with a column of the destination below it. -/
theorem BltArgs.CopiesDown.exists_column (h : p.CopiesDown) (hw : 0 < p.width.toNat) :
    ∃ a a', a < p.width.toNat ∧ a' < p.width.toNat
      ∧ p.destinationX.toNat + a = p.sourceX.toNat + a' := by
  obtain ⟨-, -, hleft, hright⟩ := h
  rcases Nat.le_total p.sourceX.toNat p.destinationX.toNat with hle | hle
  · exact ⟨0, p.destinationX.toNat - p.sourceX.toNat, hw, by omega, by omega⟩
  · exact ⟨p.sourceX.toNat - p.destinationX.toNat, 0, by omega, hw, by omega⟩

/-- How far a copy down has carried the pixel at `a` of the first row: with the first row to the
destination's first row, and with row `d`, which that row is by then, to its row `d`. -/
structure SimpleFbMode.CarriedTwice (m : SimpleFbMode) (p : BltArgs) (v : UInt32) (a d a' r : ℕ)
    (frame : Cells UInt32) : Prop where
  source : r = 0 → frame (m.at p.sourceX p.sourceY (0, a)) = v
  first : 0 < r → frame (m.at p.destinationX p.destinationY (0, a)) = v
  again : d < r → frame (m.at p.destinationX p.destinationY (d, a')) = v

theorem SimpleFbMode.CarriedTwice.next {v : UInt32} {a d a' r : ℕ} {t : BltState}
    (h : m.CarriedTwice p v a d a' r t.frame) (hc : m.InFrame p p.sourceX p.sourceY)
    (hd : m.InFrame p p.destinationX p.destinationY) (hr : r < p.height.toNat) (hdpos : 0 < d)
    (ha : a < p.width.toNat) (ha' : a' < p.width.toNat)
    (hread : m.at p.sourceX p.sourceY (d, a') = m.at p.destinationX p.destinationY (0, a)) :
    m.CarriedTwice p v a d a' (r + 1) (BltState.moveRow t
      (m.fbPixel p.destinationX.toNat (p.destinationY.toNat + r))
      (m.fbPixel p.sourceX.toNat (p.sourceY.toNat + r)) p.width.toNat).frame := by
  obtain ⟨hrow, -⟩ := filled_moveRow hd hc (Nat.zero_lt_of_lt ha) (t := t) hr
  have hother : ∀ i ∈ p.cells, i.1 ≠ r → ∀ j ∈ p.row r,
      m.at p.destinationX p.destinationY i ≠ m.at p.destinationX p.destinationY j :=
    fun i hi hne j hj he =>
      hne ((congrArg Prod.fst (m.at_inj hd hi (p.row_subset hr hj) he)).trans hj.1)
  refine ⟨fun hno => by omega, fun _ => ?_, fun hdr => ?_⟩
  · rcases Nat.eq_zero_or_pos r with rfl | hpos
    · rw [hrow.filled (0, a) ⟨rfl, ha⟩]
      exact h.source rfl
    · rw [hrow.kept _ (hother (0, a) ⟨by omega, ha⟩ hpos.ne)]
      exact h.first hpos
  · rcases Nat.lt_succ_iff_lt_or_eq.1 hdr with hlt | rfl
    · rw [hrow.kept _ (hother (d, a') ⟨by omega, ha'⟩ hlt.ne)]
      exact h.again hlt
    · rw [hrow.filled (d, a') ⟨rfl, ha'⟩, hread]
      exact h.first hdpos

/-- A copy down onto its source carries a pixel twice. -/
theorem BltArgs.CopiesDown.not_filled (h : p.CopiesDown) (hc : m.InFrame p p.sourceX p.sourceY)
    (hd : m.InFrame p p.destinationX p.destinationY) (hw : 0 < p.width.toNat)
    (buffer : Cells UInt8) :
    ∃ frame : Cells UInt32,
      ¬ Filled p.cells (m.at p.destinationX p.destinationY)
        (fun i => frame (m.at p.sourceX p.sourceY i)) frame
        (countUp (fun r t => BltState.moveRow t
          (m.fbPixel p.destinationX.toNat (p.destinationY.toNat + r))
          (m.fbPixel p.sourceX.toNat (p.sourceY.toNat + r)) p.width.toNat) p.height.toNat
          ⟨frame, buffer, []⟩).frame := by
  have hcr := hc.right
  obtain ⟨a, a', ha, ha', hcol⟩ := h.exists_column hw
  have hbelow := h.below
  have hrows := h.rows
  obtain ⟨d, hd'⟩ := Nat.exists_eq_add_of_lt (UInt64.lt_iff_toNat_lt.1 hbelow)
  have hread : m.at p.sourceX p.sourceY (d + 1, a')
      = m.at p.destinationX p.destinationY (0, a) := by
    unfold SimpleFbMode.at
    rw [hd', ← hcol]
    rfl
  refine ⟨m.dot (p.sourceX.toNat + a) p.sourceY.toNat, fun hfill => ?_⟩
  have hinv := countUp_invariant (n := p.height.toNat)
    (s := (⟨m.dot (p.sourceX.toNat + a) p.sourceY.toNat, buffer, []⟩ : BltState))
    (f := fun r t => BltState.moveRow t
      (m.fbPixel p.destinationX.toNat (p.destinationY.toNat + r))
      (m.fbPixel p.sourceX.toNat (p.sourceY.toNat + r)) p.width.toNat)
    (fun r t => m.CarriedTwice p 1 a (d + 1) a' r t.frame)
    ⟨fun _ => if_pos rfl, fun hno => absurd hno (Nat.lt_irrefl 0), fun hno => by omega⟩
    fun r hr t ht => ht.next hc hd hr (Nat.succ_pos d) ha ha' hread
  have hcarried := hinv.again (by omega)
  rw [hfill.filled (d + 1, a') ⟨by show d + 1 < _; omega, ha'⟩] at hcarried
  have hblack : m.dot (p.sourceX.toNat + a) p.sourceY.toNat
      (m.at p.sourceX p.sourceY (d + 1, a')) = 0 := by
    refine if_neg fun hno => ?_
    unfold SimpleFbMode.at at hno
    rw [m.index_inj (by show p.sourceX.toNat + a' < _; omega) (by omega)] at hno
    have hrow := hno.2
    simp only [] at hrow
    omega
  rw [hblack] at hcarried
  exact absurd hcarried (by decide)

theorem SimpleFbMode.meetsLaw_success {s' : BltState} (hw : p.width ≠ 0) (hh : p.height ≠ 0) :
    m.MeetsLaw op p s (some (efiSuccess, s'))
      ↔ ((op.readsVideo = true → m.InFrame p p.sourceX p.sourceY)
          ∧ (op.writesVideo = true → m.InFrame p p.destinationX p.destinationY))
        ∧ m.Exact p s s' op := by
  constructor
  · rintro (⟨herr, -⟩ | ⟨-, hrect, hexact⟩)
    · exact absurd herr (by simp)
    · rcases hrect with hno | hno | hrect
      exacts [absurd hno hw, absurd hno hh, ⟨hrect, hexact⟩]
  · exact fun ⟨hrect, hexact⟩ => Or.inr ⟨efiError_success, Or.inr (Or.inr hrect), hexact⟩

end Exact

/-- `SimpleFbBlt` meets the law on every picture and buffer exactly if it does nothing, or its caller
is careful. -/
theorem simpleFbBlt_meetsLaw_iff :
    (∀ frame buffer, m.MeetsLaw op p ⟨frame, buffer, []⟩
        (simpleFbBlt m op bltBuffer tmpAllocated p ⟨frame, buffer, []⟩))
      ↔ p.DoesNothing op tmpAllocated ∨ m.Careful op bltBuffer p := by
  constructor
  · intro h
    by_cases hno : p.DoesNothing op tmpAllocated
    · exact Or.inl hno
    have hcall := hno
    unfold BltArgs.DoesNothing at hcall
    push Not at hcall
    obtain ⟨hw, hh, hop, htmp⟩ := hcall
    have hempty : ¬ (p.width = 0 ∨ p.height = 0) := by
      rintro (hno | hno)
      exacts [hw hno, hh hno]
    refine Or.inr ?_
    unfold simpleFbBlt at h
    simp only [if_neg hempty] at h
    cases op with
    | videoFill =>
      cases bltBuffer with
      | false => exact absurd (h (fun _ => 0) fun _ => 0) id
      | true =>
        obtain ⟨⟨hsrc, hdst⟩, -⟩ := (m.meetsLaw_success hw hh).1 (h (fun _ => 0) fun _ => 0)
        exact ⟨fun _ => rfl, hsrc, hdst, nofun, nofun⟩
    | bufferToVideo =>
      cases bltBuffer with
      | false => exact absurd (h (fun _ => 0) fun _ => 0) id
      | true =>
        obtain ⟨⟨hsrc, hdst⟩, -⟩ := (m.meetsLaw_success hw hh).1 (h (fun _ => 0) fun _ => 0)
        exact ⟨fun _ => rfl, hsrc, hdst, nofun, nofun⟩
    | videoToBltBuffer =>
      cases bltBuffer with
      | false => exact absurd (h (fun _ => 0) fun _ => 0) id
      | true =>
        obtain ⟨⟨hsrc, hdst⟩, -⟩ := (m.meetsLaw_success hw hh).1 (h (fun _ => 0) fun _ => 0)
        refine ⟨fun _ => rfl, hsrc, hdst, nofun, fun _ => ?_⟩
        by_contra hap
        obtain ⟨frame, hnot⟩ := not_filled_readBack (hsrc rfl) (p.width_pos hw) hap
          (x := p.destinationX) (y := p.destinationY)
        exact hnot _ _ ((m.meetsLaw_success hw hh).1 (h frame fun _ => 0)).2.1
    | videoToVideo =>
      obtain rfl : tmpAllocated = true := by simpa using htmp rfl
      obtain ⟨⟨hsrc, hdst⟩, -⟩ := (m.meetsLaw_success hw hh).1 (h (fun _ => 0) fun _ => 0)
      refine ⟨nofun, hsrc, hdst, fun _ hdown => ?_, nofun⟩
      obtain ⟨frame, hnot⟩ := hdown.not_filled (hsrc rfl) (hdst rfl) (p.width_pos hw) fun _ => 0
      have hexact := ((m.meetsLaw_success hw hh).1 (h frame fun _ => 0)).2.1
      rw [pixels_of_inFrame (hsrc rfl)] at hexact
      exact hnot hexact
    | other => exact absurd rfl hop
  · intro h frame buffer
    by_cases hno : p.DoesNothing op tmpAllocated
    · exact hno.meetsLaw
    · exact (h.resolve_left hno).meetsLaw hno

/-- The mode there is where the boot loader has set up none. -/
def fullHdMode : SimpleFbMode := simpleFbMode 0 0 0 0

/-- A copy of two rows one row down does not meet the law. -/
theorem simpleFbBlt_copies_down :
    ¬ ∀ m op bltBuffer tmpAllocated p frame buffer, SimpleFbMode.MeetsLaw m op p
        ⟨frame, buffer, []⟩ (simpleFbBlt m op bltBuffer tmpAllocated p ⟨frame, buffer, []⟩) := by
  intro h
  have hin : fullHdMode.InFrame ⟨0, 0, 0, 1, 1, 2, 0⟩ 0 0 := ⟨by decide, by decide⟩
  have hin' : fullHdMode.InFrame ⟨0, 0, 0, 1, 1, 2, 0⟩ 0 1 := ⟨by decide, by decide⟩
  have hdown : BltArgs.CopiesDown ⟨0, 0, 0, 1, 1, 2, 0⟩ :=
    ⟨by decide, by decide, by decide, by decide⟩
  obtain ⟨frame, hnot⟩ := hdown.not_filled hin hin' (by decide) fun _ => 0
  have hlaw := h fullHdMode .videoToVideo false true ⟨0, 0, 0, 1, 1, 2, 0⟩ frame fun _ => 0
  exact hnot ((SimpleFbMode.meetsLaw_success (by decide) (by decide)).1 hlaw).2.1

end Edk2Rk3576
