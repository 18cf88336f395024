/-
The reciprocal and logarithm unit.

The chip never divides. The magnitude of a 16.32 number is cut to 32 bits (moved down by 16 when it has bits above
2^32), shifted so that its highest one leads, and its next 9 bits select a table entry; the 8 bits below interpolate
between that entry and the next. The logarithm is that of 1/|x|, rounded to 8 fraction bits. A magnitude that leaves
nothing in the 32 bits has no reciprocal: the largest value stands for it.

`recip` has 15 fraction bits; a reciprocal too large for the 32-bit result loses its high bits.
-/
import Accel3D.Reciprocal.Table

namespace Accel3D

/-- reciprocal with 15 fraction bits, and logarithm of the magnitude of the reciprocal with 8 -/
structure Reciprocal where
  recip : Int32
  log2 : Int
deriving DecidableEq, Repr, Inhabited

namespace Reciprocal

/-- the logarithm that stands for a reciprocal out of range -/
def infiniteLog : Int := 1000 * 256

/-- the 32 bits of a magnitude that the unit looks at, and by how many bits they were moved down -/
def window (magnitude : Nat) : Nat × Nat :=
  if magnitude / 2 ^ (32 : Nat) % 2 ^ (16 : Nat) = 0 then (magnitude % 2 ^ (32 : Nat), 0)
  else (magnitude / 2 ^ (16 : Nat) % 2 ^ (32 : Nat), 16)

/-- zeros above the highest one of a 32-bit number -/
def leadingZeros (n : Nat) : Nat := if n = 0 then 32 else 31 - n.log2

/-- the value between two table columns at a fraction of 8 bits, rounded down -/
def blend (low high fraction : Nat) : Nat := (low * (256 - fraction) + high * fraction) / 256

/-- reciprocal and logarithm of the mantissa of a normalized 32-bit number, both with 22 fraction bits -/
def interpolate (normal : Nat) : Entry :=
  let i := normal / 2 ^ (22 : Nat) % 512
  let fraction := normal / 2 ^ (14 : Nat) % 256
  have h : i < 512 := Nat.mod_lt _ (by decide)
  let low := table[i]
  let high := table[i + 1]
  ⟨blend low.recip high.recip fraction, blend low.log high.log fraction⟩

/-- `n` moved up by `shift` places in 32 bits, or down when the shift is negative -/
def place (n : Nat) (shift : Int) : UInt32 :=
  if shift < 0 then UInt32.ofNat (n >>> (-shift).toNat) else UInt32.ofNat (n <<< shift.toNat)

/-- reciprocal and logarithm of a 16.32 number -/
def of (value : Int64) : Reciprocal :=
  let negative : Bool := value < 0
  let (bits, moved) := window value.toInt.natAbs
  if bits = 0 then ⟨if negative then Int32.minValue else Int32.maxValue, infiniteLog⟩
  else
    let zeros := leadingZeros bits
    let scale : Int := (zeros : Int) - moved
    let mantissa := interpolate (bits <<< zeros)
    let recip := (place mantissa.recip (scale - 6)).toInt32
    ⟨if negative then -recip else recip, (scale + 1) * 256 - ((mantissa.log + 2 ^ (13 : Nat)) / 2 ^ (14 : Nat) : Nat)⟩

end Reciprocal
end Accel3D
