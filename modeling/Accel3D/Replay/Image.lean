/-
A buffer as an image file.

The file is a portable pixmap: a header with width and height, and three bytes for each pixel, row by row. The 5-6-5
pixels are widened to eight bits a channel.
-/
import Accel3D.Frame.Buffer

namespace Accel3D

/-- there is no image of a buffer that the layout gives no place -/
structure MissingBuffer where
  buffer : Buffer
deriving DecidableEq, Repr

def MissingBuffer.message (e : MissingBuffer) : String :=
  e.buffer.name ++ " buffer is not allocated in the current frame buffer layout"

namespace Image

/-- red, green and blue of a pixel -/
def putPixel (pixel : UInt16) (out : ByteArray) : ByteArray :=
  let c := Argb.ofRgb565 pixel.toUInt32
  ((out.push c.r).push c.g).push c.b

/-- `n` pixels from column `x` on -/
def putRow (pixel : UInt32 → UInt16) : Nat → UInt32 → ByteArray → ByteArray
  | 0, _, out => out
  | n + 1, x, out => putRow pixel n (x + 1) (putPixel (pixel x) out)

/-- `n` rows from row `y` on -/
def putRows (pixel : UInt32 → UInt32 → UInt16) (width : Nat) : Nat → UInt32 → ByteArray → ByteArray
  | 0, _, out => out
  | n + 1, y, out => putRows pixel width n (y + 1) (putRow (pixel · y) width 0 out)

/-- format, width, height and largest channel value -/
def header (width height : UInt32) : ByteArray :=
  ("P6\n" ++ toString width.toNat ++ " " ++ toString height.toNat ++ "\n255\n").toUTF8

/-- the file of a buffer's upper left part -/
def encode (f : FrameBuffer) (buffer : Buffer) (width height : UInt32) : Except MissingBuffer ByteArray :=
  if (f.offsetOf buffer).isSome then
    let pixel (x y : UInt32) : UInt16 := (f.pixel? buffer x y).getD 0
    .ok (putRows pixel width.toNat height.toNat 0 (header width height))
  else .error ⟨buffer⟩

end Image
end Accel3D
