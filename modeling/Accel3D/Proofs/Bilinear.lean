/-
The bilinear filter.

The filter blends two channels of a color at once, as two lanes of one word with a byte of room above each. A difference
of words borrows from the upper lane when the lower one is negative, and a product spills over into the rooms; but the
word is the sum of its lanes, so a product by a fraction is the sum of the two products (`toNat_lerpLanes`), and what a
quotient by 256 leaves of the upper one below its lane is less than the room and is masked out. Each lane is blended as
if it were alone (`field_lerpLanes`), and so is each channel (`field_bilinear`).

Results: `bilinear_by_channel`.
-/
import Mathlib.Tactic.Ring
import Accel3D.Proofs.Halfword
import Accel3D.Proofs.MarkedBits
import Accel3D.Texture.Sample

namespace Accel3D

/-! ## Blends of numbers -/

/-- the number on the way from `a` to `b` at a fraction of 256, rounded down -/
def lerp (a b fraction : Int) : Int := a + (b - a) * fraction / 256

def lerpCorners (c00 c01 c10 c11 s t : Int) : Int := lerp (lerp c00 c01 s) (lerp c10 c11 s) t

theorem lerp_zero (a b : Int) : lerp a b 0 = a := by simp [lerp]

theorem lerp_bounds {a b fraction high : Int} (ha : 0 ≤ a ∧ a ≤ high) (hb : 0 ≤ b ∧ b ≤ high)
    (hf : 0 ≤ fraction ∧ fraction ≤ 255) : 0 ≤ lerp a b fraction ∧ lerp a b fraction ≤ high := by
  have hweights : 0 ≤ a * (256 - fraction) ∧ 0 ≤ b * fraction ∧
      a * (256 - fraction) ≤ high * (256 - fraction) ∧ b * fraction ≤ high * fraction :=
    ⟨Int.mul_nonneg ha.1 (by omega), Int.mul_nonneg hb.1 hf.1, Int.mul_le_mul_of_nonneg_right ha.2 (by omega),
      Int.mul_le_mul_of_nonneg_right hb.2 hf.1⟩
  have hsum : lerp a b fraction = (a * (256 - fraction) + b * fraction) / 256 := by
    have hmoved : a * (256 - fraction) + b * fraction = (b - a) * fraction + a * 256 := by ring
    rw [hmoved, Int.add_mul_ediv_right _ _ (by decide), lerp, Int.add_comm]
  have htop : high * (256 - fraction) + high * fraction = 256 * high := by ring
  omega

theorem bit_shiftRight (w : UInt32) (i : Nat) : bit (w >>> 8) i = bit w (8 + i) := by
  rw [bit, UInt32.toNat_shiftRight, Nat.testBit_shiftRight]
  rfl

theorem bit_shiftLeft (w : UInt32) (i : Nat) (hi : i < 24) : bit (w <<< 8) (8 + i) = bit w i := by
  have hinside : 8 + i < 32 := by omega
  rw [bit, UInt32.toNat_shiftLeft, Nat.testBit_mod_two_pow]
  simp [hinside, bit]

/-! ## Lanes -/

/-- the lowest bits of the two lanes of a word -/
def IsLane (low : Nat) : Prop := low = 0 ∨ low = 16

/-- a word with bytes 1 and 3 masked out is the sum of its lanes -/
theorem toNat_and_lanes (w : UInt32) : (w &&& 0x00FF00FF).toNat = field w 0 8 + 65536 * field w 16 8 := by
  have hlow : field w 0 8 < 2 ^ 16 := (field_lt w 0 8).trans (by decide)
  have hmask : ∀ j < 32, Nat.testBit 0x00FF00FF j = if j < 16 then decide (j < 8) else decide (j - 16 < 8) := by decide
  apply Nat.eq_of_testBit_eq
  intro j
  rw [UInt32.toNat_and, Nat.add_comm, show 65536 = 2 ^ 16 from rfl, Nat.testBit_two_pow_mul_add _ hlow,
    Nat.testBit_and]
  simp only [field, Nat.testBit_mod_two_pow, Nat.testBit_shiftRight]
  by_cases hj : j < 32
  · rw [show UInt32.toNat 0x00FF00FF = 0x00FF00FF from rfl, hmask j hj]
    split
    · rw [Nat.zero_add, Bool.and_comm]
    · rw [Bool.and_comm, Nat.add_sub_cancel' (by omega)]
  · have hw : w.toNat.testBit j = false := bit_of_le w (Nat.not_lt.1 hj)
    rw [hw, Bool.false_and, if_neg (by omega), decide_eq_false (by omega), Bool.false_and]

/-- the word of a blend: the products of the lanes add up before the quotient is taken -/
theorem toNat_lerpLanes (a b fraction : UInt32) :
    ((lerpLanes a b fraction).toNat : Int) = (field a 0 8 + 65536 * field a 16 8 +
      ((field b 0 8 - field a 0 8) * fraction.toNat +
        65536 * ((field b 16 8 - field a 16 8) * fraction.toNat)) % 2 ^ 32 / 256) % 2 ^ 32 := by
  have hword : ∀ w : UInt32, w &&& 0x00FF00FF = UInt32.ofInt (field w 0 8 + 65536 * field w 16 8) := fun w => by
    rw [← ofInt32_toNat (w &&& _), toNat_and_lanes]
    rfl
  have hproduct : ((b &&& 0x00FF00FF) - (a &&& 0x00FF00FF)) * fraction =
      UInt32.ofInt ((field b 0 8 - field a 0 8) * fraction.toNat +
        65536 * ((field b 16 8 - field a 16 8) * fraction.toNat)) := by
    rw [hword, hword, UInt32.sub_eq_add_neg, ← UInt32.ofInt_neg, ← UInt32.ofInt_add, ← ofInt32_toNat fraction,
      ← UInt32.ofInt_mul, ofInt32_toNat]
    congr 1
    ring
  have hnat : ∀ n : Int, ((UInt32.ofInt n).toNat : Int) = n % 4294967296 := fun n => by
    rw [UInt32.ofInt, UInt32.toNat_ofNat']
    omega
  simp only [lerpLanes]
  rw [hproduct, UInt32.toNat_add, UInt32.toNat_shiftRight, toNat_and_lanes, Nat.shiftRight_eq_div_pow, Int.natCast_mod,
    Int.natCast_add, Int.natCast_div, hnat]
  rfl

/-- **A lane is blended as if it were alone.** -/
theorem field_lerpLanes (a b fraction : UInt32) (hf : fraction.toNat < 256) {low : Nat} (hlow : IsLane low) :
    (field (lerpLanes a b fraction) low 8 : Int) = lerp (field a low 8) (field b low 8) fraction.toNat := by
  have hbounds : ∀ (w : UInt32) (low : Nat), 0 ≤ (field w low 8 : Int) ∧ (field w low 8 : Int) ≤ 255 := fun w low => by
    have := field_lt w low 8
    omega
  have hfraction : 0 ≤ (fraction.toNat : Int) ∧ (fraction.toNat : Int) ≤ 255 := by omega
  have hlower := lerp_bounds (hbounds a 0) (hbounds b 0) hfraction
  have hupper := lerp_bounds (hbounds a 16) (hbounds b 16) hfraction
  have hvalue := toNat_lerpLanes a b fraction
  unfold lerp at hlower hupper ⊢
  generalize hp : (field b 0 8 - field a 0 8 : Int) * fraction.toNat = lower at hlower hvalue
  generalize hq : (field b 16 8 - field a 16 8 : Int) * fraction.toNat = upper at hupper hvalue
  rcases hlow with rfl | rfl
  · rw [hp]
    simp only [field, Nat.shiftRight_eq_div_pow] at *
    omega
  · rw [hq]
    simp only [field, Nat.shiftRight_eq_div_pow] at *
    omega

theorem field_blend {s t : UInt32} (hs : s.toNat < 256) (ht : t.toNat < 256) (t00 t01 t10 t11 : UInt32) {low : Nat}
    (hlow : IsLane low) : (field (lerpLanes (lerpLanes t00 t01 s) (lerpLanes t10 t11 s) t) low 8 : Int) =
      lerpCorners (field t00 low 8) (field t01 low 8) (field t10 low 8) (field t11 low 8) s.toNat t.toNat := by
  rw [lerpCorners, field_lerpLanes _ _ t ht hlow, field_lerpLanes _ _ s hs hlow, field_lerpLanes _ _ s hs hlow]

theorem fields_weave (high low : UInt32) :
    let w := ((high <<< 8) &&& 0xFF00FF00) ||| (low &&& 0x00FF00FF)
    ∀ lane, IsLane lane → field w lane 8 = field low lane 8 ∧ field w (8 + lane) 8 = field high lane 8 := by
  intro w lane hlane
  have hmask : ∀ i < 8, (bit 0xFF00FF00 (lane + i) = false ∧ bit 0x00FF00FF (lane + i) = true) ∧
      bit 0xFF00FF00 (8 + (lane + i)) = true ∧ bit 0x00FF00FF (8 + (lane + i)) = false := by
    rcases hlane with rfl | rfl <;> decide
  have hinside : lane ≤ 16 := by
    rcases hlane with rfl | rfl <;> decide
  refine ⟨field_ext fun i hi => ?_, field_ext fun i hi => ?_⟩
  · obtain ⟨⟨hh, hl⟩, -⟩ := hmask i hi
    rw [bit_or, bit_and, bit_and, hh, hl, Bool.and_false, Bool.and_true, Bool.false_or]
  · obtain ⟨-, hh, hl⟩ := hmask i hi
    rw [Nat.add_assoc, bit_or, bit_and, bit_and, hh, hl, Bool.and_false, Bool.and_true, Bool.or_false,
      bit_shiftLeft _ _ (by omega)]

/-! ## Channels -/

/-- a channel of a color -/
inductive Channel where
  | alpha
  | red
  | green
  | blue
deriving DecidableEq, Repr

def Channel.low : Channel → Nat
  | alpha => 24
  | red => 16
  | green => 8
  | blue => 0

def Argb.channel (c : Argb) : Channel → UInt8
  | .alpha => c.a
  | .red => c.r
  | .green => c.g
  | .blue => c.b

theorem Argb.ext_channel {c d : Argb} (h : ∀ k, c.channel k = d.channel k) : c = d := by
  have ha : c.a = d.a := h .alpha
  have hr : c.r = d.r := h .red
  have hg : c.g = d.g := h .green
  have hb : c.b = d.b := h .blue
  rcases c with ⟨a, r, g, b⟩
  rcases d with ⟨a', r', g', b'⟩
  rw [Argb.mk.injEq]
  exact ⟨ha, hr, hg, hb⟩

theorem toNat_channel_ofWord (w : UInt32) (k : Channel) : ((Argb.ofWord w).channel k).toNat = field w k.low 8 := by
  cases k <;> simp [Argb.ofWord, Argb.channel, Channel.low, field]

/-- a channel of a blended color -/
theorem field_bilinear {s t : UInt32} (hs : s.toNat < 256) (ht : t.toNat < 256) (t00 t01 t10 t11 : UInt32)
    (k : Channel) : (field (bilinear t00 t01 t10 t11 s t) k.low 8 : Int) =
      lerpCorners (field t00 k.low 8) (field t01 k.low 8) (field t10 k.low 8) (field t11 k.low 8) s.toNat t.toNat := by
  have hshift : ∀ (w : UInt32) (low : Nat), field (w >>> 8) low 8 = field w (8 + low) 8 := fun w low =>
    field_ext fun i _ => by rw [bit_shiftRight, Nat.add_assoc]
  have heven := fun low (hlow : IsLane low) => field_blend hs ht t00 t01 t10 t11 hlow
  have hodd := fun low (hlow : IsLane low) => field_blend hs ht (t00 >>> 8) (t01 >>> 8) (t10 >>> 8) (t11 >>> 8) hlow
  simp only [hshift] at hodd
  have hweave := fun low (hlow : IsLane low) =>
    fields_weave (lerpLanes (lerpLanes (t00 >>> 8) (t01 >>> 8) s) (lerpLanes (t10 >>> 8) (t11 >>> 8) s) t)
      (lerpLanes (lerpLanes t00 t01 s) (lerpLanes t10 t11 s) t) low hlow
  cases k with
  | alpha => exact (congrArg Nat.cast (hweave 16 (.inr rfl)).2).trans (hodd 16 (.inr rfl))
  | red => exact (congrArg Nat.cast (hweave 16 (.inr rfl)).1).trans (heven 16 (.inr rfl))
  | green => exact (congrArg Nat.cast (hweave 0 (.inl rfl)).2).trans (hodd 0 (.inl rfl))
  | blue => exact (congrArg Nat.cast (hweave 0 (.inl rfl)).1).trans (heven 0 (.inl rfl))

/-- **The filter is exact in each channel.** A channel of four blended texels is what that channel of the texels gives
alone, at any two fractions of 256, whatever the other channels are: texels with the same values in one channel give the
same value in it. -/
theorem bilinear_by_channel (s t : UInt32) (hs : s < 256) (ht : t < 256) (t00 t01 t10 t11 : UInt32) (k : Channel) :
    let value (w : UInt32) : Int := ((Argb.ofWord w).channel k).toNat
    value (bilinear t00 t01 t10 t11 s t) =
      lerpCorners (value t00) (value t01) (value t10) (value t11) s.toNat t.toNat ∧
    ∀ u00 u01 u10 u11, value u00 = value t00 → value u01 = value t01 → value u10 = value t10 → value u11 = value t11 →
      value (bilinear u00 u01 u10 u11 s t) = value (bilinear t00 t01 t10 t11 s t) := by
  intro value
  have hvalue : ∀ t00 t01 t10 t11, value (bilinear t00 t01 t10 t11 s t) =
      lerpCorners (value t00) (value t01) (value t10) (value t11) s.toNat t.toNat := by
    intro t00 t01 t10 t11
    simp only [value, toNat_channel_ofWord]
    exact field_bilinear hs ht t00 t01 t10 t11 k
  refine ⟨hvalue t00 t01 t10 t11, fun u00 u01 u10 u11 h00 h01 h10 h11 => ?_⟩
  rw [hvalue, hvalue, h00, h01, h10, h11]

/-- green falls and alpha, in the lane above it, rises: the difference of green borrows from that of alpha -/
theorem bilinear_by_channel_borrow :
    let value (w : UInt32) : Int := ((Argb.ofWord w).channel .green).toNat
    (0x55 : UInt32) < 256 ∧ (0xAA : UInt32) < 256 ∧
    value (bilinear 0x0000FF00 0xFF000100 0x80FF8000 0x01000000 0x55 0xAA) =
      lerpCorners 0xFF 0x01 0x80 0x00 0x55 0xAA ∧ lerpCorners 0xFF 0x01 0x80 0x00 0x55 0xAA = 113 := by
  intro value
  have hs : (0x55 : UInt32) < 256 := by decide
  have ht : (0xAA : UInt32) < 256 := by decide
  exact ⟨hs, ht, (bilinear_by_channel 0x55 0xAA hs ht 0x0000FF00 0xFF000100 0x80FF8000 0x01000000 .green).1, by decide⟩

end Accel3D
