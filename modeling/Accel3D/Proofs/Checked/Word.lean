/-
Arithmetic that stops where a number leaves its range.

The rules of the chip are stated in whole numbers without bound, and the chip works with words. `word?` keeps a whole
number if 32 bits with a sign hold it, and `byte?` one of eight bits. From here on a function whose name ends in a
question mark does what its namesake does and passes each number on its way through them: it gives a value only if no
number on the way is out of range, and then the value of its namesake. The quantizer reads its cut colors from a table
of 2048 entries there, where a color out of range names no entry or a wrong one.

Results: `scaled?_eq` (a difference of bytes by a weight of up to 16 bits), `quantize?_eq` (colors of eight bits are in
the table).
-/
import Mathlib.Algebra.Group.Int.Defs
import Mathlib.Algebra.Group.Nat.Defs
import Accel3D.Dither

namespace Accel3D

/-! ## Words and bytes -/

/-- a whole number, if 32 bits with a sign hold it -/
def word? (n : Int) : Option Int := if Int32.minValue.toInt ≤ n ∧ n ≤ Int32.maxValue.toInt then some n else none

/-- a whole number, if it is from 0 to 255 -/
def byte? (n : Int) : Option Int := if 0 ≤ n ∧ n ≤ 255 then some n else none

theorem word?_eq {n : Int} (h : n.natAbs < 2 ^ 31) : word? n = some n := by
  have hmin : Int32.minValue.toInt = -(2 ^ 31) := Int32.toInt_minValue
  have hmax : Int32.maxValue.toInt = 2 ^ 31 - 1 := Int32.toInt_maxValue
  refine if_pos ?_
  omega

theorem bind_word? {α : Type} {n : Int} (h : n.natAbs < 2 ^ 31) (next : Int → Option α) :
    (word? n >>= next) = next n := by
  rw [word?_eq h]
  rfl

theorem toNat_byte (v : UInt8) : 0 ≤ (v.toNat : Int) ∧ (v.toNat : Int) ≤ 255 := by
  have h : v.toNat < 256 := v.toNat_lt
  omega

theorem byte?_eq {n : Int} (h : 0 ≤ n ∧ n ≤ 255) : byte? n = some n := if_pos h

example : word? (2 ^ 31 - 1) = some (2 ^ 31 - 1) ∧ word? (2 ^ 31) = none := by decide

/-- a value scaled by a weight of 256 parts -/
def scaled? (v weight : Int) : Option Int := do
  let weight ← word? weight
  let product ← word? (v * weight)
  return product / 256

theorem natAbs_product_le {v weight : Int} (hv : v.natAbs ≤ 255) (hw : weight.natAbs ≤ 65536) :
    (v * weight).natAbs ≤ 16711680 := by
  rw [Int.natAbs_mul]
  exact Nat.mul_le_mul hv hw

/-- a difference of bytes may be scaled by any weight of up to 16 bits -/
theorem scaled?_eq {v weight : Int} (hv : v.natAbs ≤ 255) (hw : weight.natAbs ≤ 65536) :
    scaled? v weight = some (v * weight / 256) := by
  have hproduct := natAbs_product_le hv hw
  rw [scaled?, bind_word? (by omega), bind_word? (by omega)]
  rfl

theorem natAbs_scaled_le {v weight : Int} (hv : v.natAbs ≤ 255) (hw : weight.natAbs ≤ 65536) :
    (v * weight / 256).natAbs ≤ 65536 := by
  have hproduct := natAbs_product_le hv hw
  omega

/-! ## The dither table -/

theorem DitherMatrix.threshold_lt (m : DitherMatrix) (x y : Int) : m.threshold x y < 16 := by
  have hvalues : ∀ i : Fin 16, m.values[i.val] < 16 := by
    cases m <;> decide
  exact hvalues ⟨4 * (matrixIndex y).val + (matrixIndex x).val, by omega⟩

namespace Dither

theorem value_lt (d : Dither) (x : Int) : 0 ≤ d.value x ∧ d.value x < 16 := by
  have h := d.matrix.threshold_lt x d.y
  unfold value
  omega

theorem value_emod (d : Dither) (x : Int) : d.value (x % 4) = d.value x := by
  simp only [value, DitherMatrix.threshold, matrixIndex, Int.emod_emod_of_dvd x (Int.dvd_refl 4)]

theorem value4_lt (d : Dither) (x : Int) : 0 ≤ d.value4 x ∧ d.value4 x < 16 := by
  have h := DitherMatrix.four.threshold_lt x d.y
  unfold value4
  omega

/-- a row of the table: for each color and each of four columns the color cut to five bits and to six -/
def table (d : Dither) : Vector Int 2048 :=
  Vector.ofFn fun i =>
    let v : Int := i.val / 8
    let threshold := d.value (i.val / 2 % 4)
    if i.val % 2 = 0 then fiveBits v threshold else sixBits v threshold

/-- where a color stands in its row of the table -/
def place (x v : Int) (green : Bool) : Int := 8 * v + 2 * (x % 4) + if green then 1 else 0

/-- a color read from the table, if it stands there -/
def lookup? (d : Dither) (x v : Int) (green : Bool) : Option Int :=
  if 0 ≤ place x v green then d.table[(place x v green).toNat]? else none

/-- the 5-6-5 value of a color of eight bits a channel, dithered by the table -/
def quantize? (d : Dither) (x r g b : Int) : Option UInt16 := do
  let r ← byte? r
  let g ← byte? g
  let b ← byte? b
  if d.enabled then return pack565 (← d.lookup? x r false) (← d.lookup? x g true) (← d.lookup? x b false)
  else return pack565 (r / 8) (g / 4) (b / 8)

theorem place_lt {v : Int} (x : Int) (h : 0 ≤ v ∧ v ≤ 255) (green : Bool) :
    0 ≤ place x v green ∧ place x v green < 2048 := by
  unfold place
  omega

/-- **A color of eight bits stands in the table,** cut with the threshold of its column. -/
theorem lookup?_eq (d : Dither) {v : Int} (x : Int) (h : 0 ≤ v ∧ v ≤ 255) (green : Bool) :
    d.lookup? x v green = some (if green then sixBits v (d.value x) else fiveBits v (d.value x)) := by
  obtain ⟨hlow, hhigh⟩ := place_lt x h green
  have hlt : (place x v green).toNat < 2048 := by omega
  -- the place holds the color, the column and the kind of channel
  have hparts : (((place x v green).toNat : Int) / 8 = v ∧ ((place x v green).toNat : Int) / 2 % 4 = x % 4) ∧
      ((place x v green).toNat % 2 = 0 ↔ green = false) := by
    unfold place
    cases green <;> simp <;> omega
  have hentry : d.table[(place x v green).toNat] =
      if (place x v green).toNat % 2 = 0 then fiveBits v (d.value (x % 4)) else sixBits v (d.value (x % 4)) := by
    rw [table, Vector.getElem_ofFn]
    simp only [hparts]
  rw [lookup?, if_pos hlow, Vector.getElem?_eq_getElem hlt, hentry, value_emod]
  simp only [hparts.2]
  cases green <;> rfl

theorem quantize?_eq (d : Dither) (x : Int) {r g b : Int} (hr : 0 ≤ r ∧ r ≤ 255) (hg : 0 ≤ g ∧ g ≤ 255)
    (hb : 0 ≤ b ∧ b ≤ 255) : d.quantize? x r g b = some (d.quantize x r g b) := by
  rw [quantize?, byte?_eq hr, byte?_eq hg, byte?_eq hb]
  simp only [Option.bind_eq_bind, Option.bind_some, d.lookup?_eq x hr, d.lookup?_eq x hg, d.lookup?_eq x hb, quantize]
  split <;> rfl

end Dither

end Accel3D
