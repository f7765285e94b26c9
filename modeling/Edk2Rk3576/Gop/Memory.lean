import Edk2Rk3576.Lib.Cells
import Edk2Rk3576.Lib.Loops

/-!
# Frame buffer and blt buffer

What a `Blt` works on: the frame buffer, pixel by pixel, the caller's blt buffer, byte by byte, and
which pixels of the frame buffer it has touched so far.

Pointers are 64-bit. `FrameBuffer + i` wraps after `2 ^ 62` pixels, and a byte offset into the blt
buffer after `2 ^ 64`; the sums and products an index or an offset is made of wrap as well, at
`2 ^ 64`, which is lost in these.
-/

namespace Edk2Rk3576

open Cells

def frameSpan : ℕ := 2 ^ 62

def bufferSpan : ℕ := 2 ^ 64

structure BltState where
  frame : Cells UInt32
  buffer : Cells UInt8
  touched : List ℕ

/-- The resolution of a mode, whose frame is in memory with room beside it. -/
structure GopMode where
  horizontalResolution : ℕ
  verticalResolution : ℕ
  horizontal_lt : horizontalResolution < 2 ^ 32
  vertical_lt : verticalResolution < 2 ^ 32
  fits : 4 * (horizontalResolution * verticalResolution) + 2 ^ 35 ≤ 2 ^ 64

inductive BltOperation
  | videoFill
  | videoToBltBuffer
  | bufferToVideo
  | videoToVideo
  | other
  deriving DecidableEq

namespace BltOperation

/-- The operations that read from the video buffer. -/
def readsVideo : BltOperation → Bool
  | videoToBltBuffer => true
  | videoToVideo => true
  | _ => false

/-- The operations that write into the video buffer. -/
def writesVideo : BltOperation → Bool
  | videoFill => true
  | bufferToVideo => true
  | videoToVideo => true
  | _ => false

/-- The operations that work on the blt buffer. -/
def usesBuffer : BltOperation → Bool
  | videoFill => true
  | bufferToVideo => true
  | videoToBltBuffer => true
  | _ => false

end BltOperation

/-- The rectangles of a `Blt`, all `UINTN`. -/
structure BltArgs where
  sourceX : UInt64
  sourceY : UInt64
  destinationX : UInt64
  destinationY : UInt64
  width : UInt64
  height : UInt64
  delta : UInt64

namespace BltArgs

variable (p : BltArgs)

/-- `Width * 4`, the bytes of a row. -/
def widthInBytes : ℕ := p.width.toNat * 4 % 2 ^ 64

/-- `Delta`, or the bytes of a row where it is zero. -/
def rowDelta : ℕ := if p.delta = 0 then p.widthInBytes else p.delta.toNat

theorem width_pos (h : p.width ≠ 0) : 0 < p.width.toNat :=
  Nat.pos_of_ne_zero fun hno => h (UInt64.toNat_inj.1 hno)

theorem height_pos (h : p.height ≠ 0) : 0 < p.height.toNat :=
  Nat.pos_of_ne_zero fun hno => h (UInt64.toNat_inj.1 hno)

end BltArgs

/-- A rectangle that is in the frame. -/
structure GopMode.InFrame (m : GopMode) (p : BltArgs) (x y : UInt64) : Prop where
  right : x.toNat + p.width.toNat ≤ m.horizontalResolution
  bottom : y.toNat + p.height.toNat ≤ m.verticalResolution

/-- Byte `j` of a pixel. -/
def pixelByte (v : UInt32) (j : ℕ) : UInt8 := UInt8.ofNat (v.toNat / 256 ^ j)

namespace BltState

variable (s : BltState)

/-- The four bytes of the blt buffer from offset `a`. -/
def bufferPixel (a : ℕ) : UInt32 :=
  UInt32.ofNat ((s.buffer (a % bufferSpan)).toNat
    + 2 ^ 8 * (s.buffer ((a + 1) % bufferSpan)).toNat
    + 2 ^ 16 * (s.buffer ((a + 2) % bufferSpan)).toNat
    + 2 ^ 24 * (s.buffer ((a + 3) % bufferSpan)).toNat)

def setBufferPixel (a : ℕ) (v : UInt32) : BltState :=
  { s with buffer := rmodify bufferSpan s.buffer (a % bufferSpan) 4 fun j _ => pixelByte v j }

/-- `FrameBuffer[i] = v`. -/
def storePixel (i : ℕ) (v : UInt32) : BltState :=
  { s with
    frame := Function.update s.frame (i % frameSpan) v
    touched := i % frameSpan :: s.touched }

/-- A pixel of the frame buffer into the blt buffer. -/
def pixelToBuffer (a i : ℕ) : BltState :=
  { s.setBufferPixel a (s.frame (i % frameSpan)) with touched := i % frameSpan :: s.touched }

/-- A pixel of the frame buffer to another place there. -/
def movePixel (d i : ℕ) : BltState :=
  { s with
    frame := Function.update s.frame (d % frameSpan) (s.frame (i % frameSpan))
    touched := d % frameSpan :: i % frameSpan :: s.touched }

/-- `CopyMem` of `n` pixels within the frame buffer: all are read before any is written. -/
def moveRow (d i n : ℕ) : BltState :=
  { s with
    frame := rmodify frameSpan s.frame (d % frameSpan) n fun k _ => s.frame ((i + k) % frameSpan)
    touched := ((List.range n).map fun k => (d + k) % frameSpan)
      ++ ((List.range n).map fun k => (i + k) % frameSpan) ++ s.touched }

end BltState

/-- Whatever it works on, `f` touches the pixels in `t`, and no others. -/
def Touches (f : BltState → BltState) (t : Set ℕ) : Prop :=
  ∀ s i, i ∈ (f s).touched ↔ i ∈ s.touched ∨ i ∈ t

section Touches

variable {f : ℕ → BltState → BltState} {t : ℕ → Set ℕ}

theorem touches_storePixel (i : ℕ) (v : BltState → UInt32) :
    Touches (fun s => s.storePixel i (v s)) {i % frameSpan} := by
  intro s j
  simp [BltState.storePixel, or_comm]

theorem touches_pixelToBuffer (a i : ℕ) :
    Touches (fun s => s.pixelToBuffer a i) {i % frameSpan} := by
  intro s j
  simp [BltState.pixelToBuffer, or_comm]

theorem touches_movePixel (d i : ℕ) :
    Touches (fun s => s.movePixel d i) {d % frameSpan, i % frameSpan} := by
  intro s j
  simp only [BltState.movePixel, List.mem_cons, Set.mem_insert_iff, Set.mem_singleton_iff]
  tauto

theorem touches_moveRow (d i n : ℕ) :
    Touches (fun s => s.moveRow d i n)
      {j | ∃ k < n, j = (d + k) % frameSpan ∨ j = (i + k) % frameSpan} := by
  intro s j
  simp only [BltState.moveRow, List.mem_append, List.mem_map, List.mem_range, Set.mem_ofPred_eq]
  constructor
  · rintro ((⟨k, hk, rfl⟩ | ⟨k, hk, rfl⟩) | h)
    · exact Or.inr ⟨k, hk, Or.inl rfl⟩
    · exact Or.inr ⟨k, hk, Or.inr rfl⟩
    · exact Or.inl h
  · rintro (h | ⟨k, hk, rfl | rfl⟩)
    · exact Or.inr h
    · exact Or.inl (Or.inl ⟨k, hk, rfl⟩)
    · exact Or.inl (Or.inr ⟨k, hk, rfl⟩)

theorem touches_countUp (h : ∀ y, Touches (f y) (t y)) :
    ∀ n, Touches (countUp f n) {i | ∃ y < n, i ∈ t y}
  | 0, s, i => by simp [countUp]
  | n + 1, s, i => by
    rw [countUp, h n, touches_countUp h n, Set.mem_ofPred_eq, Set.mem_ofPred_eq]
    constructor
    · rintro ((hs | ⟨y, hy, hi⟩) | hi)
      · exact Or.inl hs
      · exact Or.inr ⟨y, by omega, hi⟩
      · exact Or.inr ⟨n, by omega, hi⟩
    · rintro (hs | ⟨y, hy, hi⟩)
      · exact Or.inl (Or.inl hs)
      · rcases Nat.lt_succ_iff_lt_or_eq.1 hy with hlt | rfl
        · exact Or.inl (Or.inr ⟨y, hlt, hi⟩)
        · exact Or.inr hi

theorem touches_countDown (h : ∀ y, Touches (f y) (t y)) :
    ∀ n, Touches (countDown f n) {i | ∃ y < n, i ∈ t y}
  | 0, s, i => by simp [countDown]
  | n + 1, s, i => by
    rw [countDown, touches_countDown h n, h n, Set.mem_ofPred_eq, Set.mem_ofPred_eq]
    constructor
    · rintro ((hs | hi) | ⟨y, hy, hi⟩)
      · exact Or.inl hs
      · exact Or.inr ⟨n, by omega, hi⟩
      · exact Or.inr ⟨y, by omega, hi⟩
    · rintro (hs | ⟨y, hy, hi⟩)
      · exact Or.inl (Or.inl hs)
      · rcases Nat.lt_succ_iff_lt_or_eq.1 hy with hlt | rfl
        · exact Or.inr ⟨y, hlt, hi⟩
        · exact Or.inl (Or.inr hi)

end Touches

/-- The index of the pixel at `x`, `y` of the picture. -/
def GopMode.index (m : GopMode) (x y : ℕ) : ℕ := y * m.horizontalResolution + x

section Index

variable {m : GopMode} {s : BltState} {x y x' y' w : ℕ}

theorem GopMode.index_add (m : GopMode) (x y k : ℕ) : m.index x y + k = m.index (x + k) y := by
  unfold GopMode.index
  omega

theorem GopMode.index_lt (hx : x < m.horizontalResolution) (hy : y < m.verticalResolution) :
    m.index x y < m.horizontalResolution * m.verticalResolution := by
  have h : (y + 1) * m.horizontalResolution ≤ m.verticalResolution * m.horizontalResolution :=
    Nat.mul_le_mul_right _ hy
  rw [Nat.add_mul, Nat.one_mul, Nat.mul_comm m.verticalResolution] at h
  unfold GopMode.index
  omega

theorem GopMode.index_mod (hx : x < m.horizontalResolution) (hy : y < m.verticalResolution) :
    m.index x y % frameSpan = m.index x y := by
  have h := m.index_lt hx hy
  have hf := m.fits
  exact Nat.mod_eq_of_lt (by unfold frameSpan; omega)

theorem GopMode.index_inj (hx : x < m.horizontalResolution) (hx' : x' < m.horizontalResolution) :
    m.index x y = m.index x' y' ↔ x = x' ∧ y = y' := by
  refine ⟨fun h => ?_, fun ⟨h₁, h₂⟩ => by rw [h₁, h₂]⟩
  have hmod := congrArg (· % m.horizontalResolution) h
  have hdiv := congrArg (· / m.horizontalResolution) h
  unfold GopMode.index at hmod hdiv
  simp only [Nat.mul_add_mod_self_right, Nat.mod_eq_of_lt hx, Nat.mod_eq_of_lt hx'] at hmod
  have hpos : 0 < m.horizontalResolution := by omega
  simp only [Nat.mul_comm _ m.horizontalResolution, Nat.mul_add_div hpos, Nat.div_eq_of_lt hx,
    Nat.div_eq_of_lt hx', Nat.add_zero] at hdiv
  exact ⟨hmod, hdiv⟩

theorem GopMode.index_add_le (hw : 0 < w) (hx : x + w ≤ m.horizontalResolution)
    (hy : y < m.verticalResolution) : m.index x y + w ≤ frameSpan := by
  have hi := m.index_lt (show x + (w - 1) < m.horizontalResolution by omega) hy
  have hf := m.fits
  rw [← m.index_add] at hi
  unfold frameSpan
  omega

/-- A row moved within the frame. -/
theorem frame_moveRow {d c n : ℕ} (hd : d + n ≤ frameSpan) (hn : 0 < n) (hc : c + n ≤ frameSpan) :
    (∀ k < n, (s.moveRow d c n).frame (d + k) = s.frame (c + k))
      ∧ (∀ i, (∀ k < n, i ≠ d + k) → (s.moveRow d c n).frame i = s.frame i)
      ∧ (s.moveRow d c n).buffer = s.buffer := by
  have hdm : d % frameSpan = d := Nat.mod_eq_of_lt (by omega)
  unfold BltState.moveRow
  simp only [hdm]
  rw [rmodify_eq_modify hd]
  refine ⟨fun k hk => ?_, fun i hi => ?_, trivial⟩
  · rw [modify_add hk, Nat.mod_eq_of_lt (by omega)]
  · refine modify_of_notMem fun hno => hi (i - d) (by omega) (by omega)

end Index

end Edk2Rk3576
