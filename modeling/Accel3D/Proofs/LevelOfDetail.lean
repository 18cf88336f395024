/-
Levels of detail.

The logarithm of a reciprocal is a whole number for the octave of the magnitude, less the logarithm of its mantissa,
rounded to 8 fraction bits. The rounded part runs from 0 to a whole octave, so from one octave to the next the logarithm
falls as it does within each (`Reciprocal.logarithm_anti`); zero has a logarithm above all others. The level of a
triangle is half the negated logarithm of a squared length, so it rises as the length does, as long as the sum of the
two squares has 63 bits (`TextureUnit.toInt_footprint`): that of two steps that are both as low as they can be has not,
and wraps.

Results: `TextureUnit.lod_order`.
-/
import Mathlib.Algebra.Order.Ring.Int
import Accel3D.Proofs.ReciprocalAccuracy
import Accel3D.Proofs.Sampling

namespace Accel3D

/-! ## Logarithms -/

namespace Reciprocal

/-- the logarithm of a mantissa, between the two entries that are looked up, rounded to 8 fraction bits -/
def fraction (n : Nat) : Nat := (chord logs (position n) / 256 + 2 ^ 13) / 2 ^ 14

def logarithm (m : Nat) : Int :=
  if (window m).1 = 0 then infiniteLog else (scale m + 1) * 256 - fraction (normal m)

theorem log2_of (v : Int64) : (of v).log2 = logarithm v.toInt.natAbs := by
  by_cases h : (window v.toInt.natAbs).1 = 0
  · unfold of logarithm
    simp only [h, if_true]
  · rw [of_eq h, logarithm, if_neg h, fraction, log_interpolate]

theorem log2_neg (v : Int64) : (of (-v)).log2 = (of v).log2 := by
  have hmin : (-Int64.minValue) = Int64.minValue := by decide
  by_cases h : v = Int64.minValue
  · rw [h, hmin]
  · have hlow : v.toInt ≠ -2 ^ 63 := fun hv => h (Int64.toInt_inj.1 hv)
    have hle := v.le_toInt
    rw [log2_of, log2_of, toInt_neg (by omega), Int.natAbs_neg]

theorem fraction_le (n : Nat) : fraction n ≤ 256 := by
  have hchord := chord_logs_le (position_le n)
  unfold fraction
  omega

theorem fraction_mono {n m : Nat} (h : 2 ^ 31 ≤ n) (hnm : n ≤ m) (h' : m < 2 ^ 32) : fraction n ≤ fraction m := by
  have hlogs := interpolate_log_mono h hnm h'
  rw [log_interpolate, log_interpolate] at hlogs
  exact Nat.div_le_div_right (Nat.add_le_add_right hlogs _)

theorem logarithm_eq {m : Nat} (h : m ≠ 0) (h' : m < 2 ^ 48) :
    logarithm m = (32 - m.log2) * 256 - fraction (normal m) := by
  obtain ⟨hwindow, hscale, -⟩ := normal_spec h h'
  rw [logarithm, if_neg hwindow]
  omega

theorem logarithm_zero : logarithm 0 = infiniteLog := rfl

/-- **A larger magnitude has no larger logarithm of its reciprocal.** -/
theorem logarithm_anti {a b : Nat} (hab : a ≤ b) (hb : b < 2 ^ 48) : logarithm b ≤ logarithm a := by
  rcases Nat.eq_zero_or_pos b with rfl | hpos
  · rw [Nat.le_zero.1 hab]
  have hlogb := logarithm_eq (Nat.ne_of_gt hpos) hb
  rcases Nat.eq_zero_or_pos a with rfl | hpos'
  · have hinfinite : infiniteLog = 256000 := rfl
    rw [logarithm_zero, hinfinite, hlogb]
    omega
  have ha : a ≠ 0 := Nat.ne_of_gt hpos'
  have hloga := logarithm_eq ha (Nat.lt_of_le_of_lt hab hb)
  rcases Nat.lt_or_eq_of_le (log2_mono ha hab) with hless | hsame
  · have hle := fraction_le (normal a)
    omega
  · obtain ⟨-, -, -, hlow, -⟩ := normal_spec ha (Nat.lt_of_le_of_lt hab hb)
    obtain ⟨-, -, -, -, hhigh⟩ := normal_spec (Nat.ne_of_gt hpos) hb
    have hle := fraction_mono hlow (normal_mono ha hab hb hsame) hhigh
    omega

end Reciprocal

/-! ## Footprints -/

namespace TextureUnit

/-- the square of the length of a step in texture space, with all its bits -/
def squaredLength (ds dt : Int64) : Int :=
  ds.toInt / 2 ^ 14 * (ds.toInt / 2 ^ 14) + dt.toInt / 2 ^ 14 * (dt.toInt / 2 ^ 14)

/-- steps of S and T of 46 bits, and not both at the lower end of that range -/
structure StepFits (ds dt : Int64) : Prop where
  s : -2 ^ 45 ≤ ds.toInt ∧ ds.toInt < 2 ^ 45
  t : -2 ^ 45 ≤ dt.toInt ∧ dt.toInt < 2 ^ 45
  above : -2 ^ 45 + 2 ^ 14 ≤ ds.toInt ∨ -2 ^ 45 + 2 ^ 14 ≤ dt.toInt

/-- the square of a part of 32 bits; only that of the lowest has 63 -/
theorem mul_self_bounds {x : Int} (h : -2 ^ 31 ≤ x) (h' : x < 2 ^ 31) :
    0 ≤ x * x ∧ x * x ≤ 2 ^ 62 ∧ (-2 ^ 31 < x → x * x < 2 ^ 62) := by
  refine ⟨mul_self_nonneg x, ?_, fun hlow => ?_⟩
  · exact mul_self_le_mul_self_of_le_of_neg_le (show x ≤ 2 ^ 31 by omega) (by omega)
  · have hle := mul_self_le_mul_self_of_le_of_neg_le (show x ≤ 2 ^ 31 - 1 by omega) (by omega)
    omega

theorem toInt_square {v : Int64} (h : -2 ^ 45 ≤ v.toInt ∧ v.toInt < 2 ^ 45) :
    ((v >>> 14) * (v >>> 14)).toInt = v.toInt / 2 ^ 14 * (v.toInt / 2 ^ 14) := by
  obtain ⟨hlow, hhigh, -⟩ := mul_self_bounds (x := v.toInt / 2 ^ 14) (by omega) (by omega)
  have hshift : (v >>> 14).toInt = v.toInt / 2 ^ 14 := toInt_shiftRight v (n := 14) (by decide)
  rw [Int64.toInt_mul, hshift, Int.bmod_eq_of_le (by omega) (by omega)]

/-- **The footprint of a step is the square of its length,** unless both S and T are as low as they can be. -/
theorem toInt_footprint {ds dt : Int64} (h : StepFits ds dt) :
    (footprint ds dt).toInt = squaredLength ds dt ∧ 0 ≤ squaredLength ds dt ∧ squaredLength ds dt < 2 ^ 63 := by
  have hs := h.s
  have ht := h.t
  obtain ⟨hslow, hshigh, hsabove⟩ := mul_self_bounds (x := ds.toInt / 2 ^ 14) (by omega) (by omega)
  obtain ⟨htlow, hthigh, htabove⟩ := mul_self_bounds (x := dt.toInt / 2 ^ 14) (by omega) (by omega)
  have hfits : squaredLength ds dt < 2 ^ 63 := by
    unfold squaredLength
    rcases h.above with habove | habove
    · have hless := hsabove (by omega)
      omega
    · have hless := htabove (by omega)
      omega
  refine ⟨?_, Int.add_nonneg hslow htlow, hfits⟩
  rw [footprint, Int64.toInt_add, toInt_square h.s, toInt_square h.t]
  exact Int.bmod_eq_of_le (Int.le_trans (by decide) (Int.add_nonneg hslow htlow)) hfits

/-- the larger of the squared lengths of the steps in X and in Y -/
def reach (g : TexGradients) : Int := max (squaredLength g.s.dx g.t.dx) (squaredLength g.s.dy g.t.dy)

/-- both steps have a footprint that does not wrap -/
def StepsFit (g : TexGradients) : Prop := StepFits g.s.dx g.t.dx ∧ StepFits g.s.dy g.t.dy

theorem lodBase_eq (g : TexGradients) :
    lodBase g = Int.tdiv (12 * 256 - Reciprocal.logarithm
      (max (footprint g.s.dx g.t.dx).toInt (footprint g.s.dy g.t.dy).toInt / 2 ^ 16).natAbs) 2 := by
  have hlarger : ∀ x y : Int64, (if x < y then y else x).toInt = max x.toInt y.toInt := fun x y => by
    rw [max_def_lt]
    simp only [Int64.lt_iff_toInt_lt]
    split <;> rfl
  have hmoved : ∀ v : Int64, (v >>> 16).toInt = v.toInt / 2 ^ 16 := fun v => toInt_shiftRight v (n := 16) (by decide)
  simp only [lodBase, Reciprocal.log2_of, hmoved, hlarger]
  rfl

/-- **A longer step has no lower level.** -/
theorem lodBase_mono {g h : TexGradients} (hg : StepsFit g) (hh : StepsFit h) (hgh : reach g ≤ reach h) :
    lodBase g ≤ lodBase h := by
  obtain ⟨hgx, hgx0, -⟩ := toInt_footprint hg.1
  obtain ⟨hgy, -, -⟩ := toInt_footprint hg.2
  obtain ⟨hhx, -, hhx'⟩ := toInt_footprint hh.1
  obtain ⟨hhy, -, hhy'⟩ := toInt_footprint hh.2
  have hlow : 0 ≤ reach g := le_max_of_le_left hgx0
  have hhigh : reach h < 2 ^ 63 := max_lt hhx' hhy'
  have hmoved : reach g / 2 ^ 16 ≤ reach h / 2 ^ 16 := Int.ediv_le_ediv (by decide) hgh
  have hlog := Reciprocal.logarithm_anti (a := (reach g / 2 ^ 16).natAbs) (b := (reach h / 2 ^ 16).natAbs) (by omega)
    (by omega)
  rw [lodBase_eq, lodBase_eq, hgx, hgy, hhx, hhy]
  exact Int.tdiv_le_tdiv (by decide) (Int.sub_le_sub_left hlog _)

/-- **Levels follow lengths.** From 0 to 2^48 the logarithm of the reciprocal falls as the number grows, and that of
every number is that of its negative. So with steps of S and T of 46 bits, of which no two of one direction are at the
lower end of that range, neither footprint wraps and the level of a triangle does not fall as the larger of them
grows. -/
theorem lod_order :
    (∀ a b : Int64, 0 ≤ a.toInt → a.toInt ≤ b.toInt → b.toInt < 2 ^ 48 →
      (Reciprocal.of b).log2 ≤ (Reciprocal.of a).log2 ∧ (Reciprocal.of (-a)).log2 = (Reciprocal.of a).log2) ∧
    ∀ g h : TexGradients, StepsFit g → StepsFit h →
      ((footprint g.s.dx g.t.dx).toInt = squaredLength g.s.dx g.t.dx ∧
        (footprint g.s.dy g.t.dy).toInt = squaredLength g.s.dy g.t.dy) ∧
      (reach g ≤ reach h → lodBase g ≤ lodBase h) := by
  refine ⟨fun a b ha hab hb => ⟨?_, Reciprocal.log2_neg a⟩, fun g h hg hh => ⟨?_, lodBase_mono hg hh⟩⟩
  · rw [Reciprocal.log2_of, Reciprocal.log2_of]
    exact Reciprocal.logarithm_anti (by omega) (by omega)
  · exact ⟨(toInt_footprint hg.1).1, (toInt_footprint hg.2).1⟩

/-- S goes by one texel, and by three, for each pixel -/
theorem lod_order_three_texels :
    let one : TexGradients := ⟨⟨0, 0x100000000, 0⟩, ⟨0, 0, 0x100000000⟩, ⟨0, 0, 0⟩⟩
    let three : TexGradients := ⟨⟨0, 0x300000000, 0⟩, ⟨0, 0, 0x100000000⟩, ⟨0, 0, 0⟩⟩
    (StepsFit one ∧ StepsFit three) ∧ (reach one ≤ reach three ∧ lodBase one ≤ lodBase three) ∧
      (Reciprocal.of 0x300000000).log2 ≤ (Reciprocal.of 0x100000000).log2 := by
  intro one three
  have hone : StepsFit one := ⟨⟨by decide, by decide, by decide⟩, ⟨by decide, by decide, by decide⟩⟩
  have hthree : StepsFit three := ⟨⟨by decide, by decide, by decide⟩, ⟨by decide, by decide, by decide⟩⟩
  have hreach : reach one ≤ reach three := by decide
  refine ⟨⟨hone, hthree⟩, ⟨hreach, (lod_order.2 one three hone hthree).2 hreach⟩, ?_⟩
  exact (lod_order.1 0x100000000 0x300000000 (by decide) (by decide) (by decide)).1

/-- **The footprint of the two lowest steps wraps.** Steps of S and T that are both just above -2^45 have the longest
footprint there is, but a level below that of a step in S alone; and where both directions have such steps their
footprints are negative, below that of no step at all, with a level above it. -/
theorem lod_base_wraps :
    let low : Int64 := -0x1FFFFFFFFFFF
    let none : Gradient Int64 := ⟨0, 0, 0⟩
    let single : TexGradients := ⟨⟨0, -low, 0⟩, none, none⟩
    let double : TexGradients := ⟨⟨0, low, 0⟩, ⟨0, low, 0⟩, none⟩
    let both : TexGradients := ⟨⟨0, low, low⟩, ⟨0, low, low⟩, none⟩
    |low.toInt| < 2 ^ 45 ∧ |(-low).toInt| < 2 ^ 45 ∧
      (reach single ≤ reach double ∧ lodBase double < lodBase single) ∧
      (max (footprint low low).toInt (footprint low low).toInt ≤ max (footprint 0 0).toInt (footprint 0 0).toInt ∧
        lodBase TexGradients.zero < lodBase both) := by
  simp only [lodBase_eq]
  decide +kernel

end TextureUnit
end Accel3D
