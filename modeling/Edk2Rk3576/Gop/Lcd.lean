import Edk2Rk3576.Efi
import Edk2Rk3576.Gop.Memory

/-!
# The LCD graphics output

`LcdGraphicsBlt` works on a frame buffer of rows, and `LcdGraphicsBlt90` on one that shows the same
picture turned by 90 degrees, where a row of the picture runs up a column. Both check their
rectangles with `LcdGraphicsBltCheckParameters`.
-/

namespace Edk2Rk3576

variable (m : GopMode) (op : BltOperation) (bltBuffer : Bool) (p : BltArgs)

/-- Whether the check finds a rectangle at `x`, `y` beyond the display. -/
def GopMode.beyond (x y : UInt64) : Bool :=
  decide (m.verticalResolution < (y.toNat + p.height.toNat) % 2 ^ 64)
    || decide (m.horizontalResolution < (x.toNat + p.width.toNat) % 2 ^ 64)

/-- `LcdGraphicsBltCheckParameters`; `bltBuffer` says whether a blt buffer is given. -/
def lcdGraphicsBltCheckParameters : EfiStatus :=
  if p.width = 0 ∨ p.height = 0 then efiInvalidParameter
  -- in a debug build an `ASSERT` stops here
  else if !bltBuffer && op.usesBuffer then efiInvalidParameter
  else if op.readsVideo && m.beyond p p.sourceX p.sourceY then efiInvalidParameter
  else if op.writesVideo && m.beyond p p.destinationX p.destinationY then efiInvalidParameter
  else efiSuccess

/-- The index of the pixel at `x`, `y` of the picture in the turned frame. -/
def GopMode.index90 (x y : ℕ) : ℕ :=
  ((m.verticalResolution + (2 ^ 32 - 1)) % 2 ^ 32 + (2 ^ 64 - y % 2 ^ 64))
    + x * m.verticalResolution

/-- `LcdGraphicsBlt`. -/
def lcdGraphicsBlt (s : BltState) : EfiStatus × BltState :=
  let status := lcdGraphicsBltCheckParameters m op bltBuffer p
  let source := fun y => m.index p.sourceX.toNat (p.sourceY.toNat + y)
  let destination := fun y => m.index p.destinationX.toNat (p.destinationY.toNat + y)
  let pixels := p.widthInBytes / 4
  let height := p.height.toNat
  if efiError status then (status, s)
  else
    match op with
    | .videoFill =>
      (efiSuccess, countUp (fun y => countUp (fun x s =>
        s.storePixel (destination y + x) (s.bufferPixel 0)) pixels) height s)
    | .videoToBltBuffer =>
      (efiSuccess, countUp (fun y => countUp (fun x s =>
        s.pixelToBuffer
          ((p.destinationY.toNat + y) * p.rowDelta + p.destinationX.toNat * 4 + x * 4)
          (source y + x)) pixels) height s)
    | .bufferToVideo =>
      (efiSuccess, countUp (fun y => countUp (fun x s =>
        s.storePixel (destination y + x)
          (s.bufferPixel ((p.sourceY.toNat + y) * p.rowDelta + p.sourceX.toNat * 4 + x * 4)))
        pixels) height s)
    | .videoToVideo =>
      let row := fun y s => BltState.moveRow s (destination y) (source y) pixels
      (efiSuccess, if p.sourceY < p.destinationY then countDown row height s
        else countUp row height s)
    | .other => (efiInvalidParameter, s)

/-- `LcdGraphicsBlt90`. -/
def lcdGraphicsBlt90 (s : BltState) : EfiStatus × BltState :=
  let status := lcdGraphicsBltCheckParameters m op bltBuffer p
  let source := fun x y => m.index90 (p.sourceX.toNat + x) (p.sourceY.toNat + y)
  let destination := fun x y => m.index90 (p.destinationX.toNat + x) (p.destinationY.toNat + y)
  let width := p.width.toNat
  let height := p.height.toNat
  if efiError status then (status, s)
  else
    match op with
    | .videoFill =>
      (efiSuccess, countUp (fun y => countUp (fun x s =>
        s.storePixel (destination x y) (s.bufferPixel 0)) width) height s)
    | .videoToBltBuffer =>
      (efiSuccess, countUp (fun y => countUp (fun x s =>
        s.pixelToBuffer
          ((p.destinationY.toNat + y) * p.rowDelta + (p.destinationX.toNat + x) * 4)
          (source x y)) width) height s)
    | .bufferToVideo =>
      (efiSuccess, countUp (fun y => countUp (fun x s =>
        s.storePixel (destination x y)
          (s.bufferPixel ((p.sourceY.toNat + y) * p.rowDelta + (p.sourceX.toNat + x) * 4)))
        width) height s)
    | .videoToVideo =>
      let row := fun y => countUp (fun x s => BltState.movePixel s (destination x y) (source x y))
        width
      (efiSuccess, if p.sourceY < p.destinationY then countDown row height s
        else countUp row height s)
    | .other => (efiInvalidParameter, s)

end Edk2Rk3576
