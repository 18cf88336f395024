/-
The reciprocal unit at powers of two.

A power of two keeps its only bit through the unit: the window that is divided starts at it or is moved so far that it
holds it (`Reciprocal.window_two_pow`), normalized it is the mantissa 1.0, and there the table needs no interpolation and
its logarithm is 0 (`Reciprocal.interpolate_one`). What is left is a bit to be moved back, which loses nothing as long as
it stays inside 31 bits.

Results: `Reciprocal.of_two_pow`.
-/
import Mathlib.Algebra.Group.Int.Defs
import Mathlib.Algebra.Group.Nat.Defs
import Accel3D.Reciprocal

namespace Accel3D

/-! ## Powers of two as words -/

theorem two_pow_lt {n k : Nat} (h : n < k) : (2 : Int) ^ n < 2 ^ k := by
  exact_mod_cast Nat.pow_lt_pow_right (by decide : 1 < 2) h

theorem toInt_two_pow {n : Nat} (hn : n < 63) : (Int64.ofInt (2 ^ n)).toInt = 2 ^ n := by
  have hpow : (0 : Int) < 2 ^ n := Int.pow_pos (by decide)
  exact Int64.toInt_ofInt_of_le (Int.le_trans (by decide) (Int.le_of_lt hpow)) (two_pow_lt hn)

theorem two_pow_not_neg {n : Nat} (hn : n < 63) : ¬ Int64.ofInt (2 ^ n) < 0 := by
  have hpow : (0 : Int) < 2 ^ n := Int.pow_pos (by decide)
  rw [Int64.lt_iff_toInt_lt, toInt_two_pow hn]
  exact Int.not_lt.2 (Int.le_of_lt hpow)

/-! ## Reciprocals -/

namespace Reciprocal

theorem window_two_pow {n : Nat} (h : n < 48) : ∃ m moved, window (2 ^ n) = (2 ^ m, moved) ∧ m + moved = n ∧ m < 32 := by
  unfold window
  by_cases hn : n < 32
  · have hsmall : 2 ^ n < 2 ^ 32 := Nat.pow_lt_pow_right (by decide) hn
    refine ⟨n, 0, ?_, Nat.add_zero n, hn⟩
    rw [Nat.div_eq_of_lt hsmall, Nat.zero_mod, if_pos rfl, Nat.mod_eq_of_lt hsmall]
  · have hdiv : ∀ k ≤ n, 2 ^ n / 2 ^ k = 2 ^ (n - k) := fun k hk => Nat.pow_div hk (by decide)
    have hhigh : 2 ^ (n - 32) < 2 ^ 16 := Nat.pow_lt_pow_right (by decide) (by omega)
    have hlow : 2 ^ (n - 16) < 2 ^ 32 := Nat.pow_lt_pow_right (by decide) (by omega)
    refine ⟨n - 16, 16, ?_, by omega, by omega⟩
    rw [hdiv 32 (by omega), hdiv 16 (by omega), Nat.mod_eq_of_lt hhigh, Nat.mod_eq_of_lt hlow,
      if_neg (Nat.ne_of_gt (Nat.two_pow_pos _))]

theorem interpolate_one : interpolate (2 ^ 31) = ⟨2 ^ 22, 0⟩ := by decide +kernel

theorem place_two_pow {m n : Nat} {shift : Int} (h : (m : Int) + shift = n) :
    place (2 ^ m) shift = UInt32.ofNat (2 ^ n) := by
  unfold place
  split
  · rw [Nat.shiftRight_eq_div_pow, Nat.pow_div (by omega) (by decide)]
    congr 2
    omega
  · rw [Nat.shiftLeft_eq, ← Nat.pow_add]
    congr 2
    omega

/-- **The reciprocal of a power of two is exact,** and so is its logarithm, while the reciprocal has 31 bits. -/
theorem of_two_pow {n : Nat} (h : 17 ≤ n) (h' : n ≤ 47) :
    of (Int64.ofInt (2 ^ n)) = ⟨Int32.ofInt (2 ^ (47 - n)), 256 * (32 - n)⟩ := by
  obtain ⟨m, moved, hwindow, hsum, hm⟩ := window_two_pow (show n < 48 by omega)
  have hvalue : (Int64.ofInt (2 ^ n)).toInt = 2 ^ n := toInt_two_pow (by omega)
  have hpositive : ¬ Int64.ofInt (2 ^ n) < 0 := two_pow_not_neg (by omega)
  have hbits : 2 ^ m <<< (31 - m) = 2 ^ 31 := by
    rw [Nat.shiftLeft_eq, ← Nat.pow_add, Nat.add_sub_cancel' (by omega)]
  have hzeros : leadingZeros (2 ^ m) = 31 - m := by
    rw [leadingZeros, if_neg (Nat.ne_of_gt (Nat.two_pow_pos m)), Nat.log2_two_pow]
  have habs : ((2 : Int) ^ n).natAbs = 2 ^ n := Int.natAbs_pow 2 n
  unfold of
  rw [hvalue, habs, hwindow]
  simp only [if_neg (Nat.ne_of_gt (Nat.two_pow_pos m)), hzeros, hbits, interpolate_one, decide_eq_false hpositive,
    Bool.false_eq_true, if_false]
  rw [place_two_pow (n := 47 - n) (by omega)]
  congr 1
  omega

end Reciprocal
end Accel3D
