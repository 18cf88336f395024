/-
Accuracy and order of reciprocals.

Of a magnitude the unit looks at 32 bits, moves them up until the highest one leads (`normal_spec`), and looks them up.
The reciprocal it finds is moved by as many bits in turn. So within an octave of magnitudes everything follows what is
looked up, and from one octave to the next the shift decides: the reciprocal falls as the magnitude grows, without any
exception (`uncut_anti`), and is as accurate for small magnitudes as for large ones (`uncut_accuracy`).

That is the reciprocal with all its bits (`uncut`); the last shift cuts it to 32. Above 2^16 nothing is lost by that
(`uncut_lt_iff`): 2^16 itself has the reciprocal 2^31, one more than a signed number can hold. There and below, what is
left may be of any size and sign, and for the smallest numbers is zero.

Results: `reciprocal_accuracy`, `reciprocal_order`, and `reciprocal_wraps` for the numbers that are too small.
-/
import Mathlib.Algebra.Order.Group.Abs
import Accel3D.Proofs.Interpolation
import Accel3D.Proofs.Reciprocal

namespace Accel3D.Reciprocal

/-! ## Normalized magnitudes -/

/-- what of a magnitude is looked at: all of it below 2^32, and all but the 16 lowest bits from there on -/
def kept (m : Nat) : Nat := if m < 2 ^ 32 then m else m / 2 ^ 16 * 2 ^ 16

/-- the bits of a magnitude that are looked at, moved up until the highest one leads 32 bits -/
def normal (m : Nat) : Nat := (window m).1 <<< leadingZeros (window m).1

/-- by how many bits a magnitude is moved up for that -/
def scale (m : Nat) : Int := (leadingZeros (window m).1 : Int) - (window m).2

theorem window_eq {m : Nat} (h : m < 2 ^ 48) : window m = if m < 2 ^ 32 then (m, 0) else (m / 2 ^ 16, 16) := by
  unfold window
  by_cases hm : m < 2 ^ 32
  · rw [if_pos (by omega), if_pos hm, Nat.mod_eq_of_lt hm]
  · rw [if_neg (by omega), if_neg hm, Nat.mod_eq_of_lt (by omega)]

/-- a number of 32 bits, normalized -/
theorem shiftLeft_leadingZeros {b : Nat} (h : b ≠ 0) (h' : b < 2 ^ 32) :
    leadingZeros b = 31 - b.log2 ∧ b.log2 ≤ 31 ∧ (b <<< leadingZeros b) * 2 ^ b.log2 = b * 2 ^ 31 ∧
      2 ^ 31 ≤ b <<< leadingZeros b ∧ b <<< leadingZeros b < 2 ^ 32 := by
  have hlog : b.log2 < 32 := (Nat.log2_lt h).2 h'
  have hzeros : leadingZeros b = 31 - b.log2 := by rw [leadingZeros, if_neg h]
  have hup : ∀ {k n}, k + (31 - b.log2) = n → 2 ^ k * 2 ^ (31 - b.log2) = 2 ^ n := fun h => by rw [← Nat.pow_add, h]
  have hlow := Nat.mul_le_mul_right (2 ^ (31 - b.log2)) (Nat.log2_self_le h)
  have hhigh := Nat.mul_lt_mul_of_pos_right (Nat.lt_log2_self (n := b)) (Nat.two_pow_pos (31 - b.log2))
  rw [hup (n := 31) (by omega)] at hlow
  rw [hup (n := 32) (by omega)] at hhigh
  rw [hzeros, Nat.shiftLeft_eq, Nat.mul_assoc, Nat.mul_comm (2 ^ _) (2 ^ _), hup (n := 31) (by omega)]
  exact ⟨rfl, by omega, rfl, hlow, hhigh⟩

theorem log2_div {m : Nat} (h : 2 ^ 32 ≤ m) : (m / 2 ^ 16).log2 + 16 = m.log2 := by
  have hlog : 32 ≤ m.log2 := (Nat.le_log2 (by omega)).2 h
  obtain ⟨k, hk⟩ : ∃ k, m.log2 = k + 16 := ⟨m.log2 - 16, by omega⟩
  have hlow : 2 ^ k * 2 ^ 16 ≤ m := by
    rw [← Nat.pow_add, ← hk]
    exact Nat.log2_self_le (by omega)
  have hhigh : m < 2 ^ (k + 1) * 2 ^ 16 := by
    rw [← Nat.pow_add, Nat.add_right_comm, ← hk]
    exact Nat.lt_log2_self
  have hk' : (m / 2 ^ 16).log2 = k := (Nat.log2_eq_iff (by omega)).2
    ⟨(Nat.le_div_iff_mul_le (by decide)).2 hlow, (Nat.div_lt_iff_lt_mul (by decide)).2 hhigh⟩
  omega

/-- **What normalizing does to a magnitude:** its highest one becomes bit 31, and nothing is lost of what is kept. -/
theorem normal_spec {m : Nat} (h : m ≠ 0) (h' : m < 2 ^ 48) :
    (window m).1 ≠ 0 ∧ scale m = 31 - m.log2 ∧ normal m * 2 ^ m.log2 = kept m * 2 ^ 31 ∧
      2 ^ 31 ≤ normal m ∧ normal m < 2 ^ 32 := by
  unfold normal scale kept
  rw [window_eq h']
  split
  · rename_i hm
    obtain ⟨hzeros, hlog, hmul, hrange⟩ := shiftLeft_leadingZeros h hm
    refine ⟨h, ?_, hmul, hrange⟩
    dsimp only
    omega
  · rename_i hm
    have hdiv := log2_div (Nat.not_lt.1 hm)
    obtain ⟨hzeros, hlog, hmul, hrange⟩ := shiftLeft_leadingZeros (b := m / 2 ^ 16) (by omega) (by omega)
    refine ⟨by dsimp only; omega, ?_, ?_, hrange⟩
    · dsimp only
      omega
    · rw [← hdiv, Nat.pow_add, ← Nat.mul_assoc, hmul, Nat.mul_right_comm]

theorem kept_le (m : Nat) : kept m ≤ m := by
  unfold kept
  split
  · exact Nat.le_refl m
  · exact Nat.div_mul_le_self m _

theorem kept_mono {a b : Nat} (h : a ≤ b) : kept a ≤ kept b := by
  unfold kept
  split <;> split <;> omega

/-- within an octave a larger magnitude is not smaller when it is normalized -/
theorem normal_mono {a b : Nat} (ha : a ≠ 0) (hab : a ≤ b) (hb : b < 2 ^ 48) (h : a.log2 = b.log2) :
    normal a ≤ normal b := by
  obtain ⟨-, -, hna, -⟩ := normal_spec ha (Nat.lt_of_le_of_lt hab hb)
  obtain ⟨-, -, hnb, -⟩ := normal_spec (m := b) (by omega) hb
  refine Nat.le_of_mul_le_mul_right ?_ (Nat.two_pow_pos a.log2)
  rw [hna, h, hnb]
  exact Nat.mul_le_mul_right _ (kept_mono hab)

/-! ## Reciprocals of any size -/

/-- a number moved up by `shift` places, or down when the shift is negative, with all the bits that it then has -/
def placed (n : Nat) (shift : Int) : Nat := if shift < 0 then n >>> (-shift).toNat else n <<< shift.toNat

theorem place_eq (n : Nat) (shift : Int) : place n shift = UInt32.ofNat (placed n shift) :=
  (apply_ite UInt32.ofNat _ _ _).symm

theorem placed_eq {shift : Int} {up down : Nat} (h : (up : Int) - down = shift) (n : Nat) :
    placed n shift = n * 2 ^ up / 2 ^ down := by
  unfold placed
  split
  · obtain ⟨k, rfl⟩ : ∃ k, down = k + up := ⟨down - up, by omega⟩
    rw [show (-shift).toNat = k by omega, Nat.shiftRight_eq_div_pow, Nat.pow_add]
    exact (Nat.mul_div_mul_right _ _ (Nat.two_pow_pos up)).symm
  · obtain ⟨k, rfl⟩ : ∃ k, up = k + down := ⟨up - down, by omega⟩
    rw [show shift.toNat = k by omega, Nat.shiftLeft_eq, Nat.pow_add, ← Nat.mul_assoc]
    exact (Nat.mul_div_cancel _ (Nat.two_pow_pos down)).symm

/-- the reciprocal of a magnitude, with 15 fraction bits, before it is cut to 32 bits -/
def uncut (m : Nat) : Nat := placed (interpolate (normal m)).recip (scale m - 6)

theorem uncut_eq_chord (m : Nat) : uncut m = placed (chord recips (position (normal m)) / 256) (scale m - 6) := by
  rw [uncut, recip_interpolate]

theorem uncut_eq {m : Nat} (h : m ≠ 0) (h' : m < 2 ^ 48) :
    uncut m = (interpolate (normal m)).recip * 2 ^ 25 / 2 ^ m.log2 := by
  obtain ⟨-, hscale, -⟩ := normal_spec h h'
  exact placed_eq (by omega) _

/-- the reciprocal of a power of two is exact -/
theorem uncut_two_pow {n : Nat} (h : n ≤ 47) : uncut (2 ^ n) = 2 ^ (47 - n) := by
  have hne : 2 ^ n ≠ 0 := Nat.ne_of_gt (Nat.two_pow_pos n)
  have hlt : 2 ^ n < 2 ^ 48 := Nat.pow_lt_pow_right (by decide) (by omega)
  have hkept : kept (2 ^ n) = 2 ^ n := by
    unfold kept
    split
    · rfl
    · rename_i hlarge
      have hn : 16 ≤ n := by
        refine Nat.le_of_not_lt fun hn => hlarge ?_
        exact Nat.pow_lt_pow_right (by decide) (by omega)
      exact Nat.div_mul_cancel (Nat.pow_dvd_pow 2 hn)
  obtain ⟨-, -, hmul, -⟩ := normal_spec hne hlt
  rw [hkept, Nat.log2_two_pow, Nat.mul_comm] at hmul
  have hnormal : normal (2 ^ n) = 2 ^ 31 := Nat.eq_of_mul_eq_mul_left (Nat.two_pow_pos n) hmul
  rw [uncut_eq hne hlt, hnormal, interpolate_one, Nat.log2_two_pow]
  exact Nat.pow_div (x := 2) h (by decide)

theorem log2_mono {a b : Nat} (ha : a ≠ 0) (hab : a ≤ b) : a.log2 ≤ b.log2 :=
  (Nat.le_log2 (by omega)).2 (Nat.le_trans (Nat.log2_self_le ha) hab)

/-- **A larger magnitude has no larger reciprocal.** -/
theorem uncut_anti {a b : Nat} (ha : a ≠ 0) (hab : a ≤ b) (hb : b < 2 ^ 48) : uncut b ≤ uncut a := by
  have hb0 : b ≠ 0 := by omega
  have ha' : a < 2 ^ 48 := Nat.lt_of_le_of_lt hab hb
  rw [uncut_eq ha ha', uncut_eq hb0 hb]
  rcases Nat.lt_or_eq_of_le (log2_mono ha hab) with hless | hsame
  · calc (interpolate (normal b)).recip * 2 ^ 25 / 2 ^ b.log2
        ≤ 2 ^ 22 * 2 ^ 25 / 2 ^ (a.log2 + 1) :=
          Nat.div_le_div (Nat.mul_le_mul_right _ (interpolate_recip_range _).2)
            (Nat.pow_le_pow_right (by decide) hless) (Nat.ne_of_gt (Nat.two_pow_pos _))
      _ = 2 ^ 21 * 2 ^ 25 / 2 ^ a.log2 := by
          rw [Nat.pow_succ 2 a.log2, show 2 ^ 22 * 2 ^ 25 = 2 ^ 21 * 2 ^ 25 * 2 from rfl]
          exact Nat.mul_div_mul_right _ _ (by decide)
      _ ≤ (interpolate (normal a)).recip * 2 ^ 25 / 2 ^ a.log2 :=
          Nat.div_le_div_right (Nat.mul_le_mul_right _ (interpolate_recip_range _).1)
  · obtain ⟨-, -, -, hlow, -⟩ := normal_spec ha ha'
    obtain ⟨-, -, -, -, hhigh⟩ := normal_spec hb0 hb
    rw [hsame]
    exact Nat.div_le_div_right (Nat.mul_le_mul_right _
      (interpolate_recip_anti hlow (normal_mono ha hab hb hsame) hhigh))

/-- a reciprocal is below 2^31 from 2^16 on, excluded -/
theorem uncut_lt_iff {m : Nat} (h : m ≠ 0) (h' : m < 2 ^ 48) : uncut m < 2 ^ 31 ↔ 2 ^ 16 < m := by
  have hlast : uncut (2 ^ 16) = 2 ^ 31 := uncut_two_pow (by decide)
  have hfirst : uncut (2 ^ 16 + 1) < 2 ^ 31 := by
    rw [uncut_eq_chord]
    decide +kernel
  constructor
  · intro hlt
    refine Nat.lt_of_not_le fun hm => ?_
    have hle := uncut_anti h hm (by decide)
    omega
  · intro hm
    exact Nat.lt_of_le_of_lt (uncut_anti (by decide) hm h') hfirst

theorem uncut_pos {m : Nat} (h : m ≠ 0) (h' : m ≤ 2 ^ 47) : 0 < uncut m := by
  have hlast : uncut (2 ^ 47) = 1 := uncut_two_pow (by decide)
  have hle := uncut_anti h h' (by decide)
  omega

/-- what is not kept of a magnitude weighs little: a reciprocal has no more than 15 bits where it is dropped -/
theorem uncut_mul_le_kept {m : Nat} (h' : m < 2 ^ 48) : uncut m * m ≤ uncut m * kept m + 2 ^ 31 := by
  by_cases hm : m < 2 ^ 32
  · rw [kept, if_pos hm]
    exact Nat.le_add_right _ _
  · have hone : uncut (2 ^ 32) = 2 ^ 15 := uncut_two_pow (by decide)
    have hle : uncut m ≤ 2 ^ 15 := hone ▸ uncut_anti (by decide) (Nat.not_lt.1 hm) h'
    have hdropped : m ≤ kept m + 2 ^ 16 := by
      rw [kept, if_neg hm]
      omega
    calc uncut m * m ≤ uncut m * kept m + uncut m * 2 ^ 16 := by
          rw [← Nat.mul_add]
          exact Nat.mul_le_mul_left _ hdropped
      _ ≤ uncut m * kept m + 2 ^ 31 := Nat.add_le_add_left (Nat.mul_le_mul_right _ hle) _

/-- **Reciprocals are accurate, whatever their size.** A magnitude times its reciprocal is one, that is 2^47, up to the
2^15th part above and, but for what the fraction bits cannot hold, the 2^20th part below. -/
theorem uncut_accuracy {m : Nat} (h : m ≠ 0) (h' : m < 2 ^ 48) :
    uncut m * m ≤ 2 ^ 47 + 2 ^ 32 ∧ 2 ^ 47 ≤ (uncut m + 1) * m + 2 ^ 27 := by
  obtain ⟨-, -, hnormal, hlow, hhigh⟩ := normal_spec h h'
  obtain ⟨habove, hbelow⟩ := interpolate_accuracy hlow hhigh
  have hdropped := uncut_mul_le_kept h'
  have hfloor := Nat.div_mul_le_self ((interpolate (normal m)).recip * 2 ^ 25) (2 ^ m.log2)
  have hceil := Nat.lt_mul_div_succ ((interpolate (normal m)).recip * 2 ^ 25) (Nat.two_pow_pos m.log2)
  rw [← uncut_eq h h'] at hfloor hceil
  generalize (interpolate (normal m)).recip = r at *
  -- moving a factor from the octave of the magnitude to its normalized form
  have hmoved : ∀ k, k * kept m * 2 ^ 31 = k * 2 ^ m.log2 * normal m := fun k => by
    rw [Nat.mul_assoc, ← hnormal, Nat.mul_comm (normal m), Nat.mul_assoc]
  constructor
  · have hkept : uncut m * kept m * 2 ^ 31 ≤ (2 ^ 53 + 2 ^ 36 + 2 ^ 33) * 2 ^ 25 := by
      calc uncut m * kept m * 2 ^ 31 = uncut m * 2 ^ m.log2 * normal m := hmoved _
        _ ≤ r * 2 ^ 25 * normal m := Nat.mul_le_mul_right _ hfloor
        _ = r * normal m * 2 ^ 25 := Nat.mul_right_comm _ _ _
        _ ≤ (2 ^ 53 + 2 ^ 36 + 2 ^ 33) * 2 ^ 25 := Nat.mul_le_mul_right _ habove
    omega
  · have hkept : 2 ^ 53 * 2 ^ 25 ≤ (uncut m + 1) * kept m * 2 ^ 31 + 2 ^ 33 * 2 ^ 25 := by
      calc 2 ^ 53 * 2 ^ 25 ≤ (r * normal m + 2 ^ 33) * 2 ^ 25 := Nat.mul_le_mul_right _ hbelow
        _ = r * 2 ^ 25 * normal m + 2 ^ 33 * 2 ^ 25 := by rw [Nat.add_mul, Nat.mul_right_comm]
        _ ≤ (uncut m + 1) * 2 ^ m.log2 * normal m + 2 ^ 33 * 2 ^ 25 := by
            rw [Nat.mul_comm (uncut m + 1)]
            exact Nat.add_le_add_right (Nat.mul_le_mul_right _ (Nat.le_of_lt hceil)) _
        _ = (uncut m + 1) * kept m * 2 ^ 31 + 2 ^ 33 * 2 ^ 25 := by rw [hmoved]
    have hwhole : (uncut m + 1) * kept m ≤ (uncut m + 1) * m := Nat.mul_le_mul_left _ (kept_le m)
    omega

/-! ## Reciprocals of words -/

/-- the reciprocal of a number's magnitude, before it is cut -/
def whole (v : Int64) : Nat := uncut v.toInt.natAbs

/-- what the unit gives for a number that it does not take for zero -/
theorem of_eq {v : Int64} (h : (window v.toInt.natAbs).1 ≠ 0) :
    of v =
      ⟨if v < 0 then -Int32.ofNat (whole v) else Int32.ofNat (whole v),
        (scale v.toInt.natAbs + 1) * 256 - (((interpolate (normal v.toInt.natAbs)).log + 2 ^ 13) / 2 ^ 14 : Nat)⟩ := by
  unfold of
  simp only [h, if_false, place_eq, decide_eq_true_eq]
  rfl

theorem recip_of_pos {v : Int64} (h : 0 < v.toInt) (h' : v.toInt < 2 ^ 48) :
    (of v).recip = Int32.ofNat (whole v) := by
  have hwindow := (normal_spec (m := v.toInt.natAbs) (by omega) (by omega)).1
  have hsign : ¬ v < 0 := fun hneg => Int.lt_asymm h (Int64.lt_iff_toInt_lt.1 hneg)
  rw [of_eq hwindow, if_neg hsign]

theorem recip_of_neg {v : Int64} (h : v.toInt < 0) (h' : -2 ^ 48 < v.toInt) :
    (of v).recip = -Int32.ofNat (whole v) := by
  have hwindow := (normal_spec (m := v.toInt.natAbs) (by omega) (by omega)).1
  have hsign : v < 0 := Int64.lt_iff_toInt_lt.2 h
  rw [of_eq hwindow, if_pos hsign]

theorem toInt_neg {v : Int64} (h : -2 ^ 63 < v.toInt) : (-v).toInt = -v.toInt := by
  have hle := v.toInt_lt
  rw [Int64.toInt_neg, Int.bmod_eq_of_le (by omega) (by omega)]

/-- the sign of the reciprocal is that of the number, also where the 32 bits are too few -/
theorem recip_neg {v : Int64} (h : 0 < v.toInt) (h' : v.toInt < 2 ^ 48) : (of (-v)).recip = -(of v).recip := by
  have hneg := toInt_neg (v := v) (by omega)
  rw [recip_of_pos h h', recip_of_neg (by omega) (by omega), whole, whole, hneg, Int.natAbs_neg]

theorem toInt_ofNat_uncut {m : Nat} (h : 2 ^ 16 < m) (h' : m < 2 ^ 48) :
    (Int32.ofNat (uncut m)).toInt = uncut m ∧ (-Int32.ofNat (uncut m)).toInt = -uncut m := by
  have hlt : uncut m < 2 ^ 31 := (uncut_lt_iff (by omega) h').2 h
  have hvalue := Int32.toInt_ofNat_of_lt hlt
  refine ⟨hvalue, ?_⟩
  rw [Int32.toInt_neg, hvalue, Int.bmod_eq_of_le (by omega) (by omega)]

/-! ## The unit -/

/-- `of`, with every index, product and sum on the way checked -/
def of? (value : Int64) : Option Reciprocal :=
  let negative : Bool := value < 0
  let (bits, moved) := window value.toInt.natAbs
  if bits = 0 then some ⟨if negative then Int32.minValue else Int32.maxValue, infiniteLog⟩
  else do
    let zeros := leadingZeros bits
    let scale : Int := (zeros : Int) - moved
    let mantissa ← interpolate? (bits <<< zeros)
    let rounded ← word? (mantissa.log + 2 ^ 13)
    let recip := (place mantissa.recip (scale - 6)).toInt32
    return ⟨if negative then -recip else recip, (scale + 1) * 256 - (rounded / 2 ^ 14 : Nat)⟩

/-- **No number takes the unit out of its table or out of 32 bits.** -/
theorem of?_eq (v : Int64) : of? v = some (of v) := by
  have hrounded : ∀ n, word? ((interpolate n).log + 2 ^ 13) = some ((interpolate n).log + 2 ^ 13) := fun n => by
    have hle := interpolate_log_le n
    exact if_pos (by omega)
  unfold of? of
  generalize window v.toInt.natAbs = w
  obtain ⟨bits, moved⟩ := w
  simp only [interpolate?_eq, hrounded, Option.bind_eq_bind, Option.bind_some]
  split <;> rfl

/-- **The reciprocal is accurate from 2^16 to 2^48,** both excluded, for numbers of either sign: it has the sign of the
number or is zero, and times the number it is one, that is 2^47, up to the 2^14th part and two units of the reciprocal.
For no number of 64 bits is anything looked up outside of the table or multiplied or added beyond 32 bits. -/
theorem reciprocal_accuracy (v : Int64) :
    of? v = some (of v) ∧
      (2 ^ 16 < |v.toInt| → |v.toInt| < 2 ^ 48 →
        (0 ≤ v.toInt → 0 ≤ (of v).recip.toInt) ∧ (v.toInt ≤ 0 → (of v).recip.toInt ≤ 0) ∧
          |(|(of v).recip.toInt| * |v.toInt| - 2 ^ 47)| ≤ 2 ^ 47 / 2 ^ 14 + 2 * |v.toInt|) := by
  refine ⟨of?_eq v, fun hlow hhigh => ?_⟩
  obtain ⟨m, hm⟩ : ∃ m : Nat, |v.toInt| = m := ⟨v.toInt.natAbs, Int.abs_eq_natAbs _⟩
  have hnat : v.toInt.natAbs = m := by
    rw [Int.abs_eq_natAbs] at hm
    exact Int.ofNat.inj hm
  have hwhole : whole v = uncut m := congrArg uncut hnat
  obtain ⟨hvalue, hnegated⟩ := toInt_ofNat_uncut (m := m) (by omega) (by omega)
  obtain ⟨habove, hbelow⟩ := uncut_accuracy (m := m) (by omega) (by omega)
  have herror : |((uncut m : Int) * m - 2 ^ 47)| ≤ 2 ^ 47 / 2 ^ 14 + 2 * (m : Int) := by
    rw [Nat.succ_mul] at hbelow
    have hcast : ((uncut m * m : Nat) : Int) = (uncut m : Int) * m := Int.natCast_mul _ _
    rw [← hcast, abs_le]
    omega
  rcases lt_or_gt_of_ne (show v.toInt ≠ 0 by omega) with hneg | hpos
  · have hrecip : (of v).recip.toInt = -uncut m := by rw [recip_of_neg hneg (by omega), hwhole, hnegated]
    rw [hrecip, abs_neg, abs_of_nonneg (Int.natCast_nonneg _), hm]
    exact ⟨fun h => absurd hneg (not_lt.2 h), fun _ => by omega, herror⟩
  · have hrecip : (of v).recip.toInt = uncut m := by rw [recip_of_pos hpos (by omega), hwhole, hvalue]
    rw [hrecip, abs_of_nonneg (Int.natCast_nonneg _), hm]
    exact ⟨fun _ => by omega, fun h => absurd hpos (not_lt.2 h), herror⟩

/-- W is minus three quarters -/
theorem reciprocal_accuracy_three_quarters :
    let v : Int64 := -0xC0000000
    2 ^ 16 < |v.toInt| ∧ |v.toInt| < 2 ^ 48 ∧ (of v).recip.toInt ≤ 0 ∧
      |(|(of v).recip.toInt| * |v.toInt| - 2 ^ 47)| ≤ 2 ^ 47 / 2 ^ 14 + 2 * |v.toInt| := by
  intro v
  have hlow : 2 ^ 16 < |v.toInt| := by decide
  have hhigh : |v.toInt| < 2 ^ 48 := by decide
  obtain ⟨-, haccurate⟩ := reciprocal_accuracy v
  obtain ⟨-, hsign, herror⟩ := haccurate hlow hhigh
  exact ⟨hlow, hhigh, hsign (by decide), herror⟩

/-- **Reciprocals keep sign and order, but only 32 bits.** Before it is cut the reciprocal of a positive number falls as
the number grows, is accurate down to the smallest number and positive up to 2^47. What is returned is its lowest 32
bits as a signed number, and for the negative number the negative of that. It is the reciprocal itself just for the
numbers above 2^16; among those the sign and the order are kept. -/
theorem reciprocal_order {a b : Int64} (ha : 0 < a.toInt) (hab : a.toInt ≤ b.toInt) (hb : b.toInt ≤ 2 ^ 47) :
    (0 < whole b ∧ whole b ≤ whole a ∧ whole a * a.toInt ≤ 2 ^ 47 + 2 ^ 32 ∧
      2 ^ 47 ≤ (whole a + 1) * a.toInt + 2 ^ 27) ∧
    ((of a).recip.toInt = (whole a : Int).bmod (2 ^ 32) ∧ (of (-a)).recip = -(of a).recip) ∧
    ((of a).recip.toInt = whole a ↔ 2 ^ 16 < a.toInt) ∧
    (2 ^ 16 < a.toInt → 0 < (of b).recip.toInt ∧ (of b).recip.toInt ≤ (of a).recip.toInt ∧
      (of a).recip ≤ Int32.maxValue ∧ (of (-a)).recip.toInt = -(of a).recip.toInt) := by
  have hm : ∀ {v : Int64}, 0 < v.toInt → v.toInt ≤ 2 ^ 47 →
      v.toInt.natAbs ≠ 0 ∧ v.toInt.natAbs < 2 ^ 48 ∧ (v.toInt.natAbs : Int) = v.toInt := by omega
  obtain ⟨ha0, ha', haabs⟩ := hm ha (by omega)
  obtain ⟨hb0, hb', hbabs⟩ := hm (v := b) (by omega) hb
  have hpos : 0 < whole b := uncut_pos hb0 (by omega)
  have hanti : whole b ≤ whole a := uncut_anti ha0 (by omega) hb'
  obtain ⟨habove, hbelow⟩ := uncut_accuracy ha0 ha'
  have hreturned : (of a).recip.toInt = (whole a : Int).bmod (2 ^ 32) := by
    rw [recip_of_pos ha (by omega)]
    exact Int32.toInt_ofNat'
  have hneg := recip_neg ha (by omega)
  have hfits : 2 ^ 16 < a.toInt → (of a).recip.toInt = whole a ∧ (of (-a)).recip.toInt = -whole a := fun h => by
    obtain ⟨hvalue, hnegated⟩ := toInt_ofNat_uncut (m := a.toInt.natAbs) (by omega) ha'
    rw [hneg, recip_of_pos ha (by omega)]
    exact ⟨hvalue, hnegated⟩
  refine ⟨⟨hpos, hanti, ?_, ?_⟩, ⟨hreturned, hneg⟩, ⟨fun h => ?_, fun h => (hfits h).1⟩, fun h => ?_⟩
  · rw [← haabs]
    exact_mod_cast habove
  · rw [← haabs]
    exact_mod_cast hbelow
  · have hword := (of a).recip.toInt_lt
    have hlt : whole a < 2 ^ 31 := by omega
    have hlarge := (uncut_lt_iff ha0 ha').1 hlt
    omega
  · obtain ⟨hvalue, hnegated⟩ := hfits h
    have hbvalue : (of b).recip.toInt = whole b := by
      rw [recip_of_pos (by omega) (by omega)]
      exact (toInt_ofNat_uncut (by omega) hb').1
    refine ⟨by omega, by omega, ?_, by omega⟩
    exact Int32.le_iff_toInt_le.2 (of a).recip.toInt_le

/-- one half and three quarters -/
theorem reciprocal_order_half :
    let a : Int64 := 0x80000000
    let b : Int64 := 0xC0000000
    0 < a.toInt ∧ a.toInt ≤ b.toInt ∧ b.toInt ≤ 2 ^ 47 ∧ 2 ^ 16 < a.toInt ∧
      0 < (of b).recip.toInt ∧ (of b).recip.toInt ≤ (of a).recip.toInt ∧
      (of (-a)).recip.toInt = -(of a).recip.toInt := by
  intro a b
  have ha : 0 < a.toInt := by decide
  have hab : a.toInt ≤ b.toInt := by decide
  have hb : b.toInt ≤ 2 ^ 47 := by decide
  have hlarge : 2 ^ 16 < a.toInt := by decide
  obtain ⟨hpos, hle, -, hneg⟩ := (reciprocal_order ha hab hb).2.2.2 hlarge
  exact ⟨ha, hab, hb, hlarge, hpos, hle, hneg⟩

/-- **Reciprocals of tiny numbers lose their high bits.** That of the smallest number is zero, though zero itself has
the largest; that of 2^16 is negative, and is not changed by the sign of the number; and of two numbers below, the
larger can have the larger. -/
theorem reciprocal_wraps :
    (of 0).recip = Int32.maxValue ∧ (whole 1 = 2 ^ 47 ∧ (of 1).recip = 0) ∧
      (whole 0x10000 = 2 ^ 31 ∧ (of 0x10000).recip = Int32.minValue ∧ (of (-0x10000)).recip = Int32.minValue) ∧
      (of 20000).recip < (of 30000).recip := by
  have hvalue : ∀ v : Int64, 0 < v.toInt → v.toInt < 2 ^ 48 → (of v).recip =
      Int32.ofNat (placed (chord recips (position (normal v.toInt.natAbs)) / 256) (scale v.toInt.natAbs - 6)) :=
    fun v h h' => by rw [recip_of_pos h h', whole, uncut_eq_chord]
  have hlow : (of 0x10000).recip = Int32.minValue := by
    rw [hvalue _ (by decide) (by decide)]
    decide +kernel
  have hneg : (of (-0x10000)).recip = -(of 0x10000).recip := recip_neg (by decide) (by decide)
  have hone : whole 1 = 2 ^ 47 := uncut_two_pow (n := 0) (by decide)
  have hword : whole 0x10000 = 2 ^ 31 := uncut_two_pow (n := 16) (by decide)
  refine ⟨rfl, ⟨hone, ?_⟩, ⟨hword, hlow, ?_⟩, ?_⟩
  · rw [hvalue _ (by decide) (by decide)]
    decide +kernel
  · rw [hneg, hlow]
    decide
  · rw [hvalue _ (by decide) (by decide), hvalue _ (by decide) (by decide)]
    decide +kernel

end Accel3D.Reciprocal
