/-
The pixels packed into one write through the linear frame buffer.

A bus value of 32 bits holds two pixels of 16 bits, one pixel of 32 bits, or a depth over a 16-bit color. What is missing
comes from zaColor: alpha from its high byte, depth from its low half. A byte mask that leaves out a half of the bus
value drops the pixels in that half; the depth over a color lies in the upper half.
-/
import Accel3D.Color
import Accel3D.Register.Mode

namespace Accel3D

/-- the 16-bit color formats of the linear frame buffer -/
inductive LinearColor where
  | rgb565
  | rgb555
  | argb1555
deriving DecidableEq, Repr, Inhabited

/-- what a write packs -/
inductive LinearFormat where
  | twoColors (c : LinearColor)
  | oneColor (hasAlpha : Bool)
  | depthAndColor (c : LinearColor)
  | twoDepths
deriving DecidableEq, Repr, Inhabited

/-- the format of a code; the other codes are reserved -/
def LinearFormat.ofCode? : Nat → Option LinearFormat
  | 0 => some (.twoColors .rgb565)
  | 1 => some (.twoColors .rgb555)
  | 2 => some (.twoColors .argb1555)
  | 4 => some (.oneColor false)
  | 5 => some (.oneColor true)
  | 12 => some (.depthAndColor .rgb565)
  | 13 => some (.depthAndColor .rgb555)
  | 14 => some (.depthAndColor .argb1555)
  | 15 => some .twoDepths
  | _ => none

/-- which parts of a pixel a write brings; `highDepth` is a depth from the upper half of a depth and color write -/
structure LinearParts where
  color : Bool
  alpha : Bool
  depth : Bool
  highDepth : Bool
deriving DecidableEq, Repr, Inhabited

namespace LinearParts

def nothing : LinearParts := ⟨false, false, false, false⟩

/-- whether a write brings anything -/
def any (p : LinearParts) : Bool := p.color || p.alpha || p.depth || p.highDepth

/-- the parts that lie in the lower half taken out -/
def dropLow (p : LinearParts) : LinearParts := { nothing with highDepth := p.highDepth }

/-- the depth in the upper half taken out -/
def dropHighDepth (p : LinearParts) : LinearParts := { p with highDepth := false }

end LinearParts

/-- one pixel of a write -/
structure LinearPixel where
  color : Argb
  depth : UInt16
  parts : LinearParts
deriving DecidableEq, Repr, Inhabited

/-- the pixels of a write; `pair` says that two fit in the bus value, which halves the columns of an offset -/
structure LinearPixels where
  first : LinearPixel
  second : LinearPixel
  pair : Bool
deriving DecidableEq, Repr, Inhabited

namespace LinearPixels

/-- a 16-bit color; its alpha bit, or the unused one, may lie lowest -/
def unpack16 (format : LinearColor) (alphaLow : Bool) (w : UInt32) : Argb :=
  match format, alphaLow with
  | .rgb565, _ => Argb.ofRgb565 w
  | .rgb555, false => Argb.ofRgb555 w
  | .rgb555, true => Argb.ofRgb555 (w >>> 1)
  | .argb1555, false => Argb.ofArgb1555 w
  | .argb1555, true => (Argb.ofRgb555 (w >>> 1)).withAlpha (if bit w 0 then 0xFF else 0)

/-- a 32-bit color; its alpha byte may lie lowest -/
def unpack32 (alphaLow : Bool) (w : UInt32) : Argb := Argb.ofWord (if alphaLow then rotateByteDown w else w)

/-- a color with the missing alpha filled in and its lanes in order -/
def arrange (mode : LinearMode) (za : UInt32) (hasAlpha : Bool) (c : Argb) : Argb :=
  let c := if hasAlpha then c else c.withAlpha (za >>> 24).toUInt8
  if mode.redBlueSwapped then c.swapRedBlue else c

/-- the pixels of a bus value in a format -/
def unpack (mode : LinearMode) (format : LinearFormat) (data za : UInt32) : LinearPixels :=
  let low := data &&& (0xFFFF : UInt32)
  let high := data >>> 16
  match format with
  | .twoColors c =>
    let hasAlpha := c == .argb1555
    let pixel (w : UInt32) : LinearPixel :=
      ⟨arrange mode za hasAlpha (unpack16 c mode.alphaLow w), za.toUInt16, ⟨true, hasAlpha, false, false⟩⟩
    ⟨pixel low, pixel high, true⟩
  | .oneColor hasAlpha =>
    let color := arrange mode za hasAlpha (unpack32 mode.alphaLow data)
    ⟨⟨color, za.toUInt16, ⟨true, hasAlpha, false, false⟩⟩, ⟨color, za.toUInt16, .nothing⟩, false⟩
  | .depthAndColor c =>
    let hasAlpha := c == .argb1555
    let color := arrange mode za hasAlpha (unpack16 c mode.alphaLow low)
    ⟨⟨color, high.toUInt16, ⟨true, hasAlpha, false, true⟩⟩, ⟨color, za.toUInt16, .nothing⟩, false⟩
  | .twoDepths =>
    let color := Argb.black.withAlpha (za >>> 24).toUInt8
    let pixel (w : UInt32) : LinearPixel := ⟨color, w.toUInt16, ⟨false, false, true, false⟩⟩
    ⟨pixel low, pixel high, true⟩

/-- the pixels without the halves that a byte mask leaves out -/
def mask (p : LinearPixels) (byteMask : UInt32) : LinearPixels :=
  let withParts (q : LinearPixel) (parts : LinearParts) : LinearPixel := { q with parts := parts }
  let p :=
    if byteMask &&& (0x0000FFFF : UInt32) = 0 then { p with first := withParts p.first p.first.parts.dropLow } else p
  if byteMask &&& (0xFFFF0000 : UInt32) = 0 then
    { p with first := withParts p.first p.first.parts.dropHighDepth, second := withParts p.second .nothing }
  else p

end LinearPixels
end Accel3D
