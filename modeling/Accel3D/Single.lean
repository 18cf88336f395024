/-
IEEE single-precision words read as fixed point.

The float registers take a single and hold it as fixed point with a given number of fraction bits, truncated towards
zero. The conversion looks only at the exponent field, the fraction field with the implied leading one, and the sign
bit: a zero or a subnormal is treated like any other exponent, and so are infinities and NaN. A shift past the width of
the result gives the largest magnitude; a shift that stays within the width drops the bits that leave it.

`ofByte` goes the other way for the small whole numbers that packed colors hold.
-/
import Accel3D.Word

namespace Accel3D.Single

/-- biased exponent field -/
def exponent (w : UInt32) : Nat := field w 23 8

/-- fraction field with the implied leading one -/
def significand (w : UInt32) : Nat := field w 0 23 + 2 ^ (23 : Nat)

/-- sign bit -/
def negative (w : UInt32) : Bool := bit w 31

/-- magnitude of the word times 2^fraction, truncated; `width` is where the shift saturates -/
def scaled (width : Nat) (w : UInt32) (fraction : Int) : Nat :=
  let shift : Int := exponent w - 150 + fraction
  if shift < 0 then significand w >>> (-shift).toNat
  else if shift < width then significand w <<< shift.toNat
  else 2 ^ (width - 1) - 1

/-- 32-bit fixed point with `fraction` fraction bits -/
def toFixed32 (w : UInt32) (fraction : Int) : Int32 :=
  let magnitude := Int32.ofNat (scaled 32 w fraction)
  if negative w then -magnitude else magnitude

/-- 64-bit fixed point with `fraction` fraction bits -/
def toFixed64 (w : UInt32) (fraction : Int) : Int64 :=
  let magnitude := Int64.ofNat (scaled 64 w fraction)
  if negative w then -magnitude else magnitude

/-- the single that holds a whole number from 0 to 255 -/
def ofByte (n : UInt8) : UInt32 :=
  if n = 0 then 0
  else
    let top := n.toNat.log2
    UInt32.ofNat ((127 + top) <<< 23 + (n.toNat - 2 ^ top) <<< (23 - top))

end Accel3D.Single
