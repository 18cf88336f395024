/-
Depth values of a pixel.

Colors are iterated with 12 fraction bits, Z with 12 and W with 32. An iterated value is cut to its range either by
clamping or by wrapping; a wrapped value just below the range gives its lower end and one just above gives its upper
end. W and, on request, Z can also be coded as floating depth: four bits count the leading zeros and twelve bits hold
the inverted digits after the leading one, so that a larger value has a smaller code.
-/
import Accel3D.Color

namespace Accel3D

/-- a whole number cut to 0 up to `high`: clamped, or wrapped to `bits` bits with -1 and high + 1 kept at the ends -/
def cut (clamp : Bool) (bits : Nat) (high : Nat) (value : Int) : Nat :=
  if clamp then min value.toNat high
  else
    let wrapped := (value % 2 ^ bits).toNat
    if wrapped = 2 ^ bits - 1 then 0
    else if wrapped = high + 1 then high
    else wrapped % (high + 1)

/-- an iterated color channel in eight bits -/
def cutChannel (clamp : Bool) (iterated : Int32) : UInt8 := UInt8.ofNat (cut clamp 12 0xFF (iterated.toInt / 4096))

/-- an iterated color in eight bits a channel -/
def cutColor (clamp : Bool) (r g b a : Int32) : Argb :=
  ⟨cutChannel clamp a, cutChannel clamp r, cutChannel clamp g, cutChannel clamp b⟩

/-- an iterated Z in 16 bits -/
def cutZ (clamp : Bool) (z : Int32) : Nat := cut clamp 20 0xFFFF (z.toInt / 4096)

/-- the whole part of an iterated W in eight bits -/
def cutW (clamp : Bool) (w : Int64) : Nat := cut clamp 16 0xFF (w >>> 32).toInt16.toInt

/-- floating depth of a 32-bit number; one below 2^16 has the largest code -/
def floatDepth (n : Nat) : Nat :=
  if n < 2 ^ (16 : Nat) then 0xFFFF
  else
    let zeros := 31 - n.log2
    zeros * 4096 + (2 ^ (32 : Nat) - 1 - n) / 2 ^ (19 - zeros) % 4096 + 1

/-- floating depth of W: zero when one of the 16 bits above the fraction is set -/
def floatW (w : Int64) : Nat :=
  let n := w.toUInt64.toNat
  if n / 2 ^ (32 : Nat) % 2 ^ (16 : Nat) = 0 then floatDepth (n % 2 ^ (32 : Nat)) else 0

/-- floating depth of Z: zero when one of its four high bits is set -/
def floatZ (z : Int32) : Nat :=
  let n := z.toUInt32.toNat
  if n < 2 ^ (28 : Nat) then floatDepth (16 * n) else 0

end Accel3D
