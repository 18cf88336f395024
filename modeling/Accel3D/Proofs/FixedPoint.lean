/-
Singles read as fixed point: what is kept, what is dropped and where the result saturates.

A finite single stands for a number x (`Single.number?`), and y = x 2^n is what the conversion cuts off behind the
point. It moves the significand of 24 bits to its place first. Only the length of the move is compared with the width of
the result, so the bits that a shorter move pushes out are dropped: y is truncated and wraps (`placed_of_lt`) until its
magnitude reaches the width and 23 bits more, and from there on it saturates (`placed_of_le`). Below the width nothing
is pushed out. In the band of magnitudes between the two the result is never the saturated one, which is odd, while the
moved significand is even; it may have the other sign, and it may be zero.

Results: `toFixed32_of_number`, `toFixed64_of_number` (a number that fits is held exactly), `fixed_saturation` (where
the conversion truncates, where it wraps and where it saturates), `fixed_overflow_wraps` (three overflows that do not
saturate).
-/
import Mathlib.Algebra.Order.Field.Power
import Mathlib.Algebra.Order.Floor.Semifield
import Mathlib.Data.Rat.Floor
import Mathlib.Tactic.Linarith
import Mathlib.Tactic.NormNum
import Accel3D.Single

namespace Accel3D.Single

/-! ## The number of a single -/

/-- the magnitude of a single: the leading one is implied unless the exponent field is 0 -/
def magnitude (w : UInt32) : ℚ :=
  if exponent w = 0 then field w 0 23 * (2 : ℚ) ^ (-149 : ℤ) else significand w * (2 : ℚ) ^ ((exponent w : ℤ) - 150)

def value (w : UInt32) : ℚ := if negative w then -magnitude w else magnitude w

/-- the number that a single stands for; infinities and the words for no number have none -/
def number? (w : UInt32) : Option ℚ := if exponent w = 255 then none else some (value w)

theorem value_of_number {w : UInt32} {x : ℚ} (h : number? w = some x) : value w = x := by
  unfold number? at h
  split at h
  · cases h
  · exact Option.some.inj h

def towardZero (q : ℚ) : Int := if q < 0 then -⌊-q⌋ else ⌊q⌋

theorem towardZero_of_nonneg {q : ℚ} (h : 0 ≤ q) : towardZero q = ⌊q⌋ := if_neg (not_lt.2 h)

theorem towardZero_neg (q : ℚ) : towardZero (-q) = -towardZero q := by
  unfold towardZero
  obtain h | rfl | h := lt_trichotomy q 0
  · rw [if_neg (by linarith), if_pos h, Int.neg_neg]
  · norm_num
  · rw [if_pos (by linarith), if_neg (by linarith), neg_neg]

theorem abs_towardZero_le (q : ℚ) : |(towardZero q : ℚ)| ≤ |q| := by
  unfold towardZero
  split
  · rename_i h
    have hfloor : (0 : ℚ) ≤ ⌊-q⌋ := by exact_mod_cast Int.floor_nonneg.2 (by linarith)
    rw [Int.cast_neg, abs_neg, abs_of_nonneg hfloor, abs_of_neg h]
    exact Int.floor_le (-q)
  · rename_i h
    have hfloor : (0 : ℚ) ≤ ⌊q⌋ := by exact_mod_cast Int.floor_nonneg.2 (not_lt.1 h)
    rw [abs_of_nonneg hfloor, abs_of_nonneg (not_lt.1 h)]
    exact Int.floor_le q

theorem towardZero_intCast (d : Int) : towardZero d = d := by
  unfold towardZero
  split
  · rw [← Int.cast_neg, Int.floor_intCast, Int.neg_neg]
  · exact Int.floor_intCast d

theorem significand_bounds (w : UInt32) : 2 ^ 23 ≤ significand w ∧ significand w < 2 ^ 24 := by
  have hlt := field_lt w 0 23
  unfold significand
  omega

theorem magnitude_nonneg (w : UInt32) : 0 ≤ magnitude w := by
  unfold magnitude
  split <;> positivity

theorem abs_value (w : UInt32) : |value w| = magnitude w := by
  unfold value
  split
  · rw [abs_neg, abs_of_nonneg (magnitude_nonneg w)]
  · exact abs_of_nonneg (magnitude_nonneg w)

/-! ## Moving the significand -/

/-- the number of places that the significand is moved up -/
def move (w : UInt32) (n : Int) : Int := exponent w - 150 + n

theorem magnitude_mul {w : UInt32} (h : exponent w ≠ 0) (n : Int) :
    magnitude w * 2 ^ n = significand w * (2 : ℚ) ^ move w n := by
  rw [magnitude, if_neg h, mul_assoc, ← zpow_add₀ (by norm_num), move]

/-- a number below every single that has an implied one is less than 1, also after 126 fraction bits -/
theorem magnitude_mul_lt_one {w : UInt32} (h : exponent w = 0) {n : Int} (hn : n ≤ 126) : magnitude w * 2 ^ n < 1 := by
  have hfield : (field w 0 23 : ℚ) < 2 ^ (23 : ℤ) := by exact_mod_cast field_lt w 0 23
  have hplace : (2 : ℚ) ^ ((-149 : ℤ) + n) ≤ 2 ^ (-23 : ℤ) := zpow_le_zpow_right₀ (by norm_num) (by omega)
  rw [magnitude, if_pos h, mul_assoc, ← zpow_add₀ (by norm_num)]
  calc (field w 0 23 : ℚ) * 2 ^ ((-149 : ℤ) + n) < 2 ^ (23 : ℤ) * 2 ^ (-23 : ℤ) :=
        mul_lt_mul hfield hplace (by positivity) (by positivity)
    _ = 1 := by norm_num

theorem scaled_down (width : Nat) {w : UInt32} {n : Int} {k : Nat} (hmove : move w n = -k) (hk : k ≠ 0) :
    scaled width w n = significand w / 2 ^ k := by
  have hneg : move w n < 0 := by omega
  have hplaces : (-move w n).toNat = k := by omega
  calc scaled width w n = significand w >>> (-move w n).toNat := if_pos hneg
    _ = significand w / 2 ^ k := by rw [hplaces, Nat.shiftRight_eq_div_pow]

/-- a move up by less than the width is a product, and a longer one saturates -/
theorem scaled_up (width : Nat) {w : UInt32} {n : Int} {k : Nat} (hmove : move w n = k) :
    scaled width w n = if k < width then significand w * 2 ^ k else 2 ^ (width - 1) - 1 := by
  have hneg : ¬ move w n < 0 := by omega
  have hplaces : (move w n).toNat = k := by omega
  have hscaled : scaled width w n =
      if move w n < width then significand w <<< (move w n).toNat else 2 ^ (width - 1) - 1 := if_neg hneg
  rw [hscaled, hplaces, Nat.shiftLeft_eq, hmove]
  simp only [Nat.cast_lt]

theorem significand_mul_lt (width : Nat) (w : UInt32) (k : Nat) :
    significand w * 2 ^ k < 2 ^ (width + 23) ↔ k < width := by
  obtain ⟨hlow, hhigh⟩ := significand_bounds w
  constructor
  · intro h
    have hpow : 2 ^ (23 + k) < 2 ^ (width + 23) := by
      rw [Nat.pow_add]
      exact (Nat.mul_le_mul_right _ hlow).trans_lt h
    have := (Nat.pow_lt_pow_iff_right (by decide)).1 hpow
    omega
  · intro h
    calc significand w * 2 ^ k < 2 ^ 24 * 2 ^ k := Nat.mul_lt_mul_of_pos_right hhigh (Nat.two_pow_pos k)
      _ = 2 ^ (24 + k) := (Nat.pow_add 2 24 k).symm
      _ ≤ 2 ^ (width + 23) := Nat.pow_le_pow_right (by decide) (by omega)

theorem magnitude_mul_up {w : UInt32} {n : Int} (hn : n ≤ 126) {k : Nat} (hmove : move w n = k) :
    magnitude w * 2 ^ n = ((significand w * 2 ^ k : Nat) : ℚ) := by
  have h0 : exponent w ≠ 0 := by unfold move at hmove; omega
  rw [magnitude_mul h0, hmove, zpow_natCast, Nat.cast_mul, Nat.cast_pow]
  rfl

theorem magnitude_mul_up_lt (width : Nat) {w : UInt32} {n : Int} (hn : n ≤ 126) {k : Nat} (hmove : move w n = k) :
    magnitude w * 2 ^ n < 2 ^ (width + 23) ↔ k < width := by
  rw [← significand_mul_lt width w k, magnitude_mul_up hn hmove]
  exact_mod_cast Iff.rfl

/-- **The conversion of a magnitude**: cut off behind the point, until its move is as long as the width. -/
theorem scaled_eq (width : Nat) (w : UInt32) {n : Int} (hn : n ≤ 126) :
    scaled width w n =
      if magnitude w * 2 ^ n < 2 ^ (width + 23) then ⌊magnitude w * 2 ^ n⌋₊ else 2 ^ (width - 1) - 1 := by
  obtain ⟨-, hhigh⟩ := significand_bounds w
  have hpowers : (1 : ℚ) ≤ 2 ^ (width + 23) := one_le_pow₀ (by norm_num)
  by_cases h0 : exponent w = 0
  · -- a tiny number: its implied one, which is none of its own, is moved out with the rest
    have hone := magnitude_mul_lt_one h0 hn
    obtain ⟨k, hk⟩ : ∃ k : Nat, move w n = -((k + 24 : Nat) : Int) := ⟨(-move w n).toNat - 24, by unfold move; omega⟩
    have hout : significand w / 2 ^ (k + 24) = 0 :=
      Nat.div_eq_of_lt (hhigh.trans_le (Nat.pow_le_pow_right (by decide) (by omega)))
    rw [scaled_down width hk (by omega), hout, if_pos (hone.trans_le hpowers), Nat.floor_eq_zero.2 hone]
  · by_cases hdown : move w n < 0
    · obtain ⟨k, hk⟩ : ∃ k : Nat, move w n = -((k + 1 : Nat) : Int) := ⟨(-move w n).toNat - 1, by omega⟩
      have hquotient : magnitude w * 2 ^ n = (significand w : ℚ) / (2 ^ (k + 1) : Nat) := by
        rw [magnitude_mul h0, hk, zpow_neg, zpow_natCast, div_eq_mul_inv, Nat.cast_pow]
        rfl
      have hless : magnitude w * 2 ^ n < 2 ^ (width + 23) := by
        have hsmall : (significand w : ℚ) < 2 ^ (width + 23) * (2 ^ (k + 1) : Nat) := by
          have hpow : 2 ^ 24 ≤ 2 ^ (width + 23) * 2 ^ (k + 1) := by
            rw [← Nat.pow_add]
            exact Nat.pow_le_pow_right (by decide) (by omega)
          exact_mod_cast hhigh.trans_le hpow
        rw [hquotient, div_lt_iff₀ (by positivity)]
        exact hsmall
      rw [if_pos hless, scaled_down width hk (by omega), hquotient, Nat.floor_div_eq_div]
    · obtain ⟨k, hk⟩ : ∃ k : Nat, move w n = (k : Int) := ⟨(move w n).toNat, by omega⟩
      rw [scaled_up width hk, magnitude_mul_up hn hk, Nat.floor_natCast, ← magnitude_mul_up hn hk]
      simp only [magnitude_mul_up_lt width hn hk]

/-! ## The sign -/

/-- the converted magnitude with the sign of the word -/
def placed (width : Nat) (w : UInt32) (n : Int) : Int :=
  if negative w then -(scaled width w n : Int) else scaled width w n

theorem toFixed32_eq (w : UInt32) (n : Int) : toFixed32 w n = Int32.ofInt (placed 32 w n) := by
  unfold toFixed32 placed
  cases negative w with
  | true =>
    show -Int32.ofNat _ = Int32.ofInt (-_)
    rw [Int32.ofInt_neg, Int32.ofInt_eq_ofNat]
  | false => exact Int32.ofInt_eq_ofNat.symm

theorem toFixed64_eq (w : UInt32) (n : Int) : toFixed64 w n = Int64.ofInt (placed 64 w n) := by
  unfold toFixed64 placed
  cases negative w with
  | true =>
    show -Int64.ofNat _ = Int64.ofInt (-_)
    rw [Int64.ofInt_neg, Int64.ofInt_eq_ofNat]
  | false => exact Int64.ofInt_eq_ofNat.symm

/-- the largest magnitude of a word with the sign of a number -/
def limit (width : Nat) (y : ℚ) : Int :=
  if y < 0 then -((2 ^ (width - 1) - 1 : Nat) : Int) else (2 ^ (width - 1) - 1 : Nat)

theorem abs_value_mul (w : UInt32) (n : Int) : |value w * 2 ^ n| = magnitude w * 2 ^ n := by
  rw [abs_mul, abs_value, abs_of_pos (zpow_pos (by norm_num) n)]

section Placed

variable (width : Nat) (w : UInt32) {n : Int} (hn : n ≤ 126)
include hn

/-- **Below the width and 23 bits more** the number is cut off behind the point. -/
theorem placed_of_lt (h : |value w * 2 ^ n| < 2 ^ (width + 23)) : placed width w n = towardZero (value w * 2 ^ n) := by
  rw [abs_value_mul] at h
  have hnonneg : 0 ≤ magnitude w * 2 ^ n := mul_nonneg (magnitude_nonneg w) (zpow_nonneg (by norm_num) n)
  have hfloor : (scaled width w n : Int) = towardZero (magnitude w * 2 ^ n) := by
    rw [scaled_eq width w hn, if_pos h, towardZero_of_nonneg hnonneg, Int.natCast_floor_eq_floor hnonneg]
  unfold placed value
  rw [hfloor]
  cases negative w with
  | true => exact (neg_mul (magnitude w) (2 ^ n) ▸ towardZero_neg _).symm
  | false => rfl

/-- **From there on** the largest magnitude stands for it. -/
theorem placed_of_le (h : 2 ^ (width + 23) ≤ |value w * 2 ^ n|) : placed width w n = limit width (value w * 2 ^ n) := by
  rw [abs_value_mul] at h
  have hpositive : 0 < magnitude w * 2 ^ n := (by positivity : (0 : ℚ) < 2 ^ (width + 23)).trans_le h
  have hscaled : scaled width w n = 2 ^ (width - 1) - 1 := by rw [scaled_eq width w hn, if_neg (not_lt.2 h)]
  unfold placed value limit
  rw [hscaled]
  cases negative w with
  | true =>
    have hsign : -magnitude w * 2 ^ n < 0 := by linarith
    exact (if_pos hsign).symm
  | false => exact (if_neg (not_lt.2 hpositive.le)).symm

/-- what is not saturated is even, or has 24 bits -/
theorem even_or_short (h : |value w * 2 ^ n| < 2 ^ (width + 23)) :
    2 ∣ placed width w n ∨ (placed width w n).natAbs < 2 ^ 24 := by
  rw [abs_value_mul] at h
  obtain ⟨-, hhigh⟩ := significand_bounds w
  have habs : (placed width w n).natAbs = scaled width w n := by
    unfold placed
    split <;> omega
  rw [← Int.natAbs_dvd_natAbs, habs]
  by_cases hdown : move w n < 0
  · obtain ⟨k, hk⟩ : ∃ k : Nat, move w n = -((k + 1 : Nat) : Int) := ⟨(-move w n).toNat - 1, by omega⟩
    rw [scaled_down width hk (by omega)]
    exact .inr ((Nat.div_le_self _ _).trans_lt hhigh)
  · obtain ⟨k, hk⟩ : ∃ k : Nat, move w n = (k : Int) := ⟨(move w n).toNat, by omega⟩
    rw [scaled_up width hk, if_pos ((magnitude_mul_up_lt width hn hk).1 h)]
    cases k with
    | zero => exact .inr (by omega)
    | succ k => exact .inl ⟨significand w * 2 ^ k, by rw [Nat.pow_succ]; ring⟩

end Placed

/-! ## The results -/

section Number

variable {w : UInt32} {x : ℚ} (hx : number? w = some x) {n : Int} (hn : n ≤ 126)
include hx hn

/-- a number that is whole after the move, and fits, is held as it is -/
theorem toFixed32_of_number {d : Int} (hd : x * 2 ^ n = d) (hfit : |d| < 2 ^ 55) :
    toFixed32 w n = Int32.ofInt d := by
  rw [← value_of_number hx] at hd
  have hsize : |value w * 2 ^ n| < 2 ^ (32 + 23) := by
    rw [hd]
    exact_mod_cast hfit
  rw [toFixed32_eq, placed_of_lt 32 w hn hsize, hd, towardZero_intCast]

theorem toFixed64_of_number {d : Int} (hd : x * 2 ^ n = d) (hfit : |d| < 2 ^ 87) :
    toFixed64 w n = Int64.ofInt d := by
  rw [← value_of_number hx] at hd
  have hsize : |value w * 2 ^ n| < 2 ^ (64 + 23) := by
    rw [hd]
    exact_mod_cast hfit
  rw [toFixed64_eq, placed_of_lt 64 w hn hsize, hd, towardZero_intCast]

end Number

/-- how a word of `width` bits comes from a number: it is the number cut off behind the point, if that fits; it has the
low bits of it up to 23 bits more; and it is the largest magnitude from there on, and only there -/
structure Converts (width : Nat) (y : ℚ) (result : Int) : Prop where
  truncates : |y| < 2 ^ (width - 1) → result = towardZero y
  wraps : |y| < 2 ^ (width + 23) → result = (towardZero y).bmod (2 ^ width)
  saturates : result = limit width y ↔ 2 ^ (width + 23) ≤ |y|

/-- an even number does not wrap to the largest magnitude, and a short one does not either -/
theorem bmod_ne_limit {width : Nat} (hwidth : width = 32 ∨ width = 64) {m : Int} (h : 2 ∣ m ∨ m.natAbs < 2 ^ 24)
    (y : ℚ) :
    m.bmod (2 ^ width) ≠ limit width y := by
  rw [limit, Int.bmod_def]
  obtain rfl | rfl := hwidth <;> split <;> split <;> omega

theorem bmod_limit {width : Nat} (hwidth : width = 32 ∨ width = 64) (y : ℚ) :
    (limit width y).bmod (2 ^ width) = limit width y := by
  unfold limit
  obtain rfl | rfl := hwidth <;> split <;> decide

theorem converts_placed {width : Nat} (hwidth : width = 32 ∨ width = 64) (w : UInt32) {n : Int} (hn : n ≤ 126) :
    Converts width (value w * 2 ^ n) ((placed width w n).bmod (2 ^ width)) where
  truncates h := by
    have hless : |value w * 2 ^ n| < 2 ^ (width + 23) :=
      h.trans_le (pow_le_pow_right₀ (by norm_num) (by omega))
    have hsize : |towardZero (value w * 2 ^ n)| < 2 ^ (width - 1) := by
      exact_mod_cast (abs_towardZero_le _).trans_lt h
    obtain ⟨hlow, hhigh⟩ := abs_lt.1 hsize
    rw [placed_of_lt width w hn hless]
    refine Int.bmod_eq_of_le ?_ ?_ <;> obtain rfl | rfl := hwidth <;> omega
  wraps h := by rw [placed_of_lt width w hn h]
  saturates := by
    refine ⟨fun h => ?_, fun h => ?_⟩
    · by_contra hless
      exact bmod_ne_limit hwidth (even_or_short width w hn (not_le.1 hless)) _ h
    · rw [placed_of_le width w hn h, bmod_limit hwidth]

/-- **Where the conversion saturates.** A finite single, times 2^n, is cut off behind the point as long as it fits into
the word. The largest magnitude with its sign stands for it when it is 2^55 or more, and for 64 bits 2^87, and only
then; a number between that does not fit keeps the low bits of its whole part. -/
theorem fixed_saturation {w : UInt32} {x : ℚ} (hx : number? w = some x) {n : Int} (hn : n ≤ 126) :
    Converts 32 (x * 2 ^ n) (toFixed32 w n).toInt ∧ Converts 64 (x * 2 ^ n) (toFixed64 w n).toInt := by
  have hvalue := value_of_number hx
  have h32 := converts_placed (.inl rfl) w hn
  have h64 := converts_placed (.inr rfl) w hn
  rw [hvalue] at h32 h64
  rw [toFixed32_eq, toFixed64_eq, Int32.toInt_ofInt, Int64.toInt_ofInt]
  exact ⟨h32, h64⟩

theorem number_two_pow {w : UInt32} {e : Nat} (hexponent : exponent w = e + 127) (he : e < 128)
    (hsignificand : significand w = 2 ^ 23) : number? w = some (if negative w then -2 ^ e else 2 ^ e) := by
  have hfinite : exponent w ≠ 255 := by omega
  have hnormal : exponent w ≠ 0 := by omega
  have hplace : ((exponent w : ℤ) - 150) = (e : ℤ) - 23 := by omega
  have hmagnitude : magnitude w = 2 ^ e := by
    rw [magnitude, if_neg hnormal, hsignificand, hplace, zpow_sub₀ (by norm_num), zpow_natCast, zpow_ofNat,
      Nat.cast_pow, Nat.cast_ofNat, mul_div_cancel₀ _ (by norm_num)]
  rw [number?, if_neg hfinite, value, hmagnitude]

/-- a color of 2^19 has 2^31 as its fixed point, which wraps to the least word -/
theorem fixed_saturation_band :
    number? 0x49000000 = some (2 ^ 19) ∧ (12 : Int) ≤ 126 ∧ Converts 32 (2 ^ 19 * 2 ^ 12) (-2 ^ 31) := by
  have hnumber : number? 0x49000000 = some (2 ^ 19) := number_two_pow (by decide) (by decide) (by decide)
  have hresult : (toFixed32 0x49000000 12).toInt = -2 ^ 31 := by decide
  exact ⟨hnumber, by decide, hresult ▸ (fixed_saturation hnumber (n := 12) (by decide)).1⟩

/-- **Three overflows that do not saturate**: positive numbers too large for the word become the least word, with 12
fraction bits in 32 and with 32 fraction bits in 64, or zero -/
theorem fixed_overflow_wraps :
    (number? 0x49000000 = some (2 ^ 19) ∧ 2 ^ 31 ≤ |(2 : ℚ) ^ 19 * 2 ^ 12| ∧
      (toFixed32 0x49000000 12).toInt = -2 ^ 31) ∧
    (number? 0x49800000 = some (2 ^ 20) ∧ 2 ^ 31 ≤ |(2 : ℚ) ^ 20 * 2 ^ 12| ∧ (toFixed32 0x49800000 12).toInt = 0) ∧
    number? 0x4F000000 = some (2 ^ 31) ∧ 2 ^ 63 ≤ |(2 : ℚ) ^ 31 * 2 ^ 32| ∧
      (toFixed64 0x4F000000 32).toInt = -2 ^ 63 := by
  have hlarge : ∀ i j : Nat, 2 ^ (i + j) ≤ |(2 : ℚ) ^ i * 2 ^ j| := fun i j => by
    rw [← pow_add]
    exact le_abs_self _
  refine ⟨⟨?_, ?_, by decide⟩, ⟨?_, ?_, by decide⟩, ?_, ?_, by decide⟩
  · exact number_two_pow (by decide) (by decide) (by decide)
  · exact hlarge 19 12
  · exact number_two_pow (by decide) (by decide) (by decide)
  · exact (pow_le_pow_right₀ (by norm_num) (by decide)).trans (hlarge 20 12)
  · exact number_two_pow (by decide) (by decide) (by decide)
  · exact hlarge 31 32

end Accel3D.Single
