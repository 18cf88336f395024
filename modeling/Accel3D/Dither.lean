/-
Ordered dithering of 8-bit channels to the 5-6-5 frame buffer format.

Each pixel adds a threshold from a 4x4 matrix that repeats over the screen. There are two matrices, a true 4x4 one and
a 2x2 one written out to 4x4. Without dithering the channels are cut to their high bits.
-/
import Accel3D.Register.Mode

namespace Accel3D

/-- the two threshold matrices -/
inductive DitherMatrix where
  | four
  | two
deriving DecidableEq, Repr, Inhabited

/-- the 16 thresholds, row by row -/
def DitherMatrix.values : DitherMatrix → Vector Nat 16
  | four => #v[0, 8, 2, 10, 12, 4, 14, 6, 3, 11, 1, 9, 15, 7, 13, 5]
  | two => #v[2, 10, 2, 10, 14, 6, 14, 6, 2, 10, 2, 10, 14, 6, 14, 6]

/-- remainder of a coordinate modulo 4 -/
def matrixIndex (x : Int) : Fin 4 := Fin.ofNat 4 (x % 4).toNat

/-- the threshold at a pixel -/
def DitherMatrix.threshold (m : DitherMatrix) (x y : Int) : Nat := m.values[4 * (matrixIndex y).val + (matrixIndex x).val]

/-- dithering of one row of pixels -/
structure Dither where
  enabled : Bool
  matrix : DitherMatrix
  y : Int
deriving DecidableEq, Repr

namespace Dither

def ofMode (mode : FrameMode) (y : Int) : Dither := ⟨mode.dithering, if mode.dither2x2 then .two else .four, y⟩

/-- threshold of the selected matrix -/
def value (d : Dither) (x : Int) : Int := d.matrix.threshold x d.y

/-- threshold of the 4x4 matrix, which LOD and fog use always -/
def value4 (d : Dither) (x : Int) : Int := DitherMatrix.four.threshold x d.y

/-- an 8-bit value with a threshold, cut to five bits -/
def fiveBits (v threshold : Int) : Int := (2 * v - v / 16 + v / 128 + threshold) / 2 / 8

/-- an 8-bit value with a threshold, cut to six bits -/
def sixBits (v threshold : Int) : Int := (4 * v - v / 16 + v / 64 + threshold) / 4 / 4

/-- the low byte of a number -/
def lowByte (n : Int) : UInt16 := UInt16.ofNat (n % 256).toNat

def pack565 (r g b : Int) : UInt16 := (lowByte r <<< 11) ||| (lowByte g <<< 5) ||| lowByte b

/-- the 5-6-5 value that is stored for a color at column `x` -/
def quantize (d : Dither) (x r g b : Int) : UInt16 :=
  if d.enabled then
    let t := d.value x
    pack565 (fiveBits r t) (sixBits g t) (fiveBits b t)
  else pack565 (r / 8) (g / 4) (b / 8)

end Dither
end Accel3D
