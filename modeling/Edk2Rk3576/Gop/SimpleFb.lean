import Edk2Rk3576.Efi
import Edk2Rk3576.Gop.Memory
import Edk2Rk3576.Lib.Filling

/-!
# The simple frame buffer

`SimpleFbBlt` works on the frame buffer the boot loader has set up. It looks at no parameter: a
rectangle beyond the frame is filled or copied all the same. A copy within the frame goes row by row
from the top through a row of its own, which keeps a row from overwriting itself but not the rows
below it.
-/

namespace Edk2Rk3576

open Cells

/-- A mode of the sizes that `ReadVop2State` accepts. -/
structure SimpleFbMode extends GopMode where
  minWidth : 320 ≤ horizontalResolution
  maxWidth : horizontalResolution ≤ 7680
  minHeight : 240 ≤ verticalResolution
  maxHeight : verticalResolution ≤ 4320

def SimpleFbMode.ofSize (w h : ℕ) (hs : (320 ≤ w ∧ w ≤ 7680) ∧ 240 ≤ h ∧ h ≤ 4320) :
    SimpleFbMode where
  horizontalResolution := w
  verticalResolution := h
  horizontal_lt := by omega
  vertical_lt := by omega
  fits := by
    have := Nat.mul_le_mul hs.1.2 hs.2.2
    omega
  minWidth := hs.1.1
  maxWidth := hs.1.2
  minHeight := hs.2.1
  maxHeight := hs.2.2

/-- One pair of registers of `ReadVop2State`, the frame buffer address and the display size. -/
def readVop2Pair (yrgbMst dspInfo : UInt32) : Option SimpleFbMode :=
  let w := dspInfo.toNat % 2 ^ 16 + 1
  let h := dspInfo.toNat / 2 ^ 16 % 2 ^ 16 + 1
  if yrgbMst ≠ 0 ∧ dspInfo ≠ 0 then
    if hs : (320 ≤ w ∧ w ≤ 7680) ∧ 240 ≤ h ∧ h ≤ 4320 then some (.ofSize w h hs) else none
  else none

/-- The mode the entry point installs: of the primary registers, the alternate ones, or the
default. -/
def simpleFbMode (yrgbMst dspInfo yrgbMstAlt dspInfoAlt : UInt32) : SimpleFbMode :=
  ((readVop2Pair yrgbMst dspInfo).or (readVop2Pair yrgbMstAlt dspInfoAlt)).getD
    (.ofSize 1920 1080 (by omega))

variable (m : SimpleFbMode) (op : BltOperation) (bltBuffer tmpAllocated : Bool) (p : BltArgs)

/-- `FbPixel`, as the index of the pixel: a row has `PixelsPerScanLine * 4` bytes, in 32 bits. -/
def SimpleFbMode.fbPixel (x y : ℕ) : ℕ := (y * (m.horizontalResolution * 4 % 2 ^ 32) + x * 4) / 4

/-- A pixel with the reserved byte zero. -/
def withoutReserved (v : UInt32) : UInt32 := v &&& 0x00ffffff

/-- `SimpleFbBlt`; it has no result where it reads through a blt buffer that is `NULL`. -/
def simpleFbBlt (s : BltState) : Option (EfiStatus × BltState) :=
  let source := fun row => m.fbPixel p.sourceX.toNat (p.sourceY.toNat + row)
  let destination := fun row => m.fbPixel p.destinationX.toNat (p.destinationY.toNat + row)
  let width := p.width.toNat
  let height := p.height.toNat
  if p.width = 0 ∨ p.height = 0 then some (efiSuccess, s)
  else
    match op with
    | .videoFill =>
      if !bltBuffer then none
      else
        let fillColor := withoutReserved (s.bufferPixel 0)
        some (efiSuccess, countUp (fun row => countUp (fun col s =>
          s.storePixel (destination row + col) fillColor) width) height s)
    | .bufferToVideo =>
      if !bltBuffer then none
      else
        some (efiSuccess, countUp (fun row => countUp (fun col s =>
          s.storePixel (destination row + col) (withoutReserved (s.bufferPixel
            ((p.sourceY.toNat + row) * p.rowDelta + p.sourceX.toNat * 4 + col * 4)))) width) height s)
    | .videoToBltBuffer =>
      if !bltBuffer then none
      else
        some (efiSuccess, countUp (fun row => countUp (fun col s =>
          s.pixelToBuffer
            ((p.destinationY.toNat + row) * p.rowDelta + p.destinationX.toNat * 4 + col * 4)
            (source row + col)) width) height s)
    | .videoToVideo =>
      if !tmpAllocated then some (efiOutOfResources, s)
      else
        some (efiSuccess, countUp (fun row s =>
          s.moveRow (destination row) (source row) (p.widthInBytes / 4)) height s)
    | .other => some (efiInvalidParameter, s)

/-- A rectangle, by row and column. -/
def BltArgs.cells : Set (ℕ × ℕ) := {i | i.1 < p.height.toNat ∧ i.2 < p.width.toNat}

/-- The bytes of a rectangle of the blt buffer, by row, column and byte. -/
def BltArgs.bytes : Set ((ℕ × ℕ) × ℕ) := {i | i.1 ∈ p.cells ∧ i.2 < 4}

def SimpleFbMode.at (x y : UInt64) (i : ℕ × ℕ) : ℕ := m.index (x.toNat + i.2) (y.toNat + i.1)

/-- The offset in the blt buffer of a pixel of the rectangle there. -/
def BltArgs.offset (x y : UInt64) (i : ℕ × ℕ) : ℕ :=
  (y.toNat + i.1) * p.rowDelta + x.toNat * 4 + i.2 * 4

/-- The exact fill or copy of a rectangle. -/
def SimpleFbMode.Exact (s s' : BltState) : BltOperation → Prop
  | .videoFill =>
    Filled p.cells (m.at p.destinationX p.destinationY)
        (fun _ => withoutReserved (s.bufferPixel 0)) s.frame s'.frame
      ∧ s'.buffer = s.buffer
  | .bufferToVideo =>
    Filled p.cells (m.at p.destinationX p.destinationY)
        (fun i => withoutReserved (s.bufferPixel (p.offset p.sourceX p.sourceY i))) s.frame s'.frame
      ∧ s'.buffer = s.buffer
  | .videoToBltBuffer =>
    Filled p.bytes (fun i => (p.offset p.destinationX p.destinationY i.1 + i.2) % bufferSpan)
        (fun i => pixelByte (s.frame (m.at p.sourceX p.sourceY i.1)) i.2) s.buffer s'.buffer
      ∧ s'.frame = s.frame
  | .videoToVideo =>
    Filled p.cells (m.at p.destinationX p.destinationY)
        (fun i => s.frame (m.at p.sourceX p.sourceY i)) s.frame s'.frame
      ∧ s'.buffer = s.buffer
  | .other => True

/-- The video rectangles of an operation are in the frame, or empty. -/
def SimpleFbMode.RectanglesInFrame : Prop :=
  p.width = 0 ∨ p.height = 0
    ∨ (op.readsVideo = true → m.InFrame p p.sourceX p.sourceY)
      ∧ (op.writesVideo = true → m.InFrame p p.destinationX p.destinationY)

/-- A `Blt` fails and writes nothing, or its rectangles are in the frame and the fill or copy is
exact. -/
def SimpleFbMode.MeetsLaw (s : BltState) : Option (EfiStatus × BltState) → Prop
  | none => False
  | some (status, s') =>
    efiError status = true ∧ s'.frame = s.frame ∧ s'.buffer = s.buffer
      ∨ efiError status = false ∧ m.RectanglesInFrame op p ∧ m.Exact p s s' op

section Pixels

variable {m p} {x y : UInt64} {s : BltState}

theorem SimpleFbMode.fbPixel_eq (x y : ℕ) : m.fbPixel x y = m.index x y := by
  have hw := m.maxWidth
  have hstride : m.horizontalResolution * 4 % 2 ^ 32 = m.horizontalResolution * 4 :=
    Nat.mod_eq_of_lt (by omega)
  unfold SimpleFbMode.fbPixel GopMode.index
  rw [hstride, ← Nat.mul_assoc]
  omega

theorem SimpleFbMode.at_inj (h : m.InFrame p x y) {i i' : ℕ × ℕ} (hi : i ∈ p.cells)
    (hi' : i' ∈ p.cells) (he : m.at x y i = m.at x y i') : i = i' := by
  have hr := h.right
  obtain ⟨h₁, h₂⟩ := hi
  obtain ⟨h₁', h₂'⟩ := hi'
  unfold SimpleFbMode.at at he
  rw [m.index_inj (by omega) (by omega)] at he
  exact Prod.ext (by omega) (by omega)

theorem SimpleFbMode.at_mod (h : m.InFrame p x y) {i : ℕ × ℕ} (hi : i ∈ p.cells) :
    (m.fbPixel x.toNat (y.toNat + i.1) + i.2) % frameSpan = m.at x y i := by
  have hr := h.right
  have hb := h.bottom
  obtain ⟨h₁, h₂⟩ := hi
  rw [m.fbPixel_eq, m.index_add, m.index_mod (by omega) (by omega)]
  rfl

/-- The part of a rectangle a row is. -/
def BltArgs.row (p : BltArgs) (r : ℕ) : Set (ℕ × ℕ) := {i | i.1 = r ∧ i.2 < p.width.toNat}

theorem BltArgs.row_subset {r : ℕ} (hr : r < p.height.toNat) : p.row r ⊆ p.cells :=
  fun _ hi => ⟨hi.1 ▸ hr, hi.2⟩

theorem BltArgs.rows_eq : {i | ∃ r < p.height.toNat, i ∈ p.row r} = p.cells := by
  ext i
  constructor
  · rintro ⟨r, hr, hi⟩
    exact p.row_subset hr hi
  · exact fun hi => ⟨i.1, hi.1, rfl, hi.2⟩

theorem BltArgs.cols_eq (r : ℕ) : {i | ∃ c < p.width.toNat, i ∈ ({(r, c)} : Set (ℕ × ℕ))} = p.row r := by
  ext ⟨i, j⟩
  simp only [Set.mem_ofPred_eq, Set.mem_singleton_iff, Prod.mk.injEq, BltArgs.row]
  constructor
  · rintro ⟨c, hc, rfl, rfl⟩
    exact ⟨rfl, hc⟩
  · rintro ⟨rfl, hj⟩
    exact ⟨j, hj, rfl, rfl⟩

/-- Two loops that store what the blt buffer says. -/
theorem filled_storePixels (hin : m.InFrame p x y) {v : ℕ × ℕ → UInt32}
    {val : BltState → ℕ → ℕ → UInt32}
    (hval : ∀ t : BltState, t.buffer = s.buffer → ∀ r c, val t r c = v (r, c)) :
    Filled p.cells (m.at x y) v s.frame
        (countUp (fun r => countUp (fun c t =>
          t.storePixel (m.fbPixel x.toNat (y.toNat + r) + c) (val t r c)) p.width.toNat)
          p.height.toNat s).frame
      ∧ (countUp (fun r => countUp (fun c t =>
          t.storePixel (m.fbPixel x.toNat (y.toNat + r) + c) (val t r c)) p.width.toNat)
          p.height.toNat s).buffer = s.buffer := by
  rw [← p.rows_eq]
  refine filled_countUp BltState.frame (fun t => t.buffer = s.buffer) rfl (fun r hr t ht _ => ?_)
    fun r hr r' hr' i hi i' hi' he => ?_
  · rw [← p.cols_eq]
    refine filled_countUp BltState.frame (fun t => t.buffer = s.buffer) ht (fun c hc t ht _ => ?_)
      fun c hc c' hc' i hi i' hi' he => ?_
    · have hmem : (r, c) ∈ p.cells := ⟨hr, hc⟩
      refine ⟨?_, ht⟩
      unfold BltState.storePixel
      rw [hval t ht, m.at_mod hin hmem]
      exact Filled.update
    · obtain rfl := Set.mem_singleton_iff.1 hi
      obtain rfl := Set.mem_singleton_iff.1 hi'
      have := congrArg Prod.snd (m.at_inj hin ⟨hr, show c' < _ by omega⟩ ⟨hr, hc⟩ he)
      exact absurd this (by simpa using hc'.ne)
  · have := congrArg Prod.fst (m.at_inj hin (p.row_subset (by omega) hi) (p.row_subset hr hi') he)
    rw [hi.1, hi'.1] at this
    omega

end Pixels

end Edk2Rk3576
