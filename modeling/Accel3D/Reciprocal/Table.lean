/-
The table of the reciprocal unit: reciprocal and base-2 logarithm at the 513 mantissas from 1 to 2.

Entry i stands for the mantissa 1 + i/512. Its reciprocal and its logarithm have 22 fraction bits and are rounded down.
The digits of the logarithm come from repeated squaring: squaring a number between 1 and 2 doubles its logarithm, and
the digit is 1 exactly when the square reaches 2. The squares are kept to 40 fraction bits, which is enough for 22
digits at all 513 mantissas.
-/
import Accel3D.Word

namespace Accel3D.Reciprocal

/-- fraction bits of the squares -/
def guardBits : Nat := 40

/-- the first n binary digits of the logarithm of a number from 1 up to 2, given with `guardBits` fraction bits -/
def logDigits : Nat → Nat → Nat
  | 0, _ => 0
  | n + 1, x =>
    let square := x * x / 2 ^ guardBits
    if square < 2 ^ (guardBits + 1) then logDigits n square else 2 ^ n + logDigits n (square / 2)

/-- base-2 logarithm of v / 512 with 22 fraction bits, for v from 512 on -/
def logOf (v : Nat) : Nat :=
  (v.log2 - 9) * 2 ^ (22 : Nat) + logDigits 22 (v * 2 ^ guardBits / 2 ^ v.log2)

structure Entry where
  recip : Nat
  log : Nat
deriving DecidableEq, Repr, Inhabited

/-- the entry for the mantissa 1 + i/512 -/
def entry (i : Nat) : Entry := ⟨2 ^ (31 : Nat) / (512 + i), logOf (512 + i)⟩

def table : Vector Entry 513 := Vector.ofFn fun i => entry i

theorem getElem_table (i : Nat) (h : i < 513) : table[i] = entry i := by
  simp [table]

end Accel3D.Reciprocal
