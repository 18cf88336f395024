/-
Floating depth.

The code of a number counts the leading zeros above twelve inverted digits, and one is added. So within an octave the
code falls by one for each step of the number, a step being the 4096th part of where the octave starts (`floatDepth_eq`),
and an octave ends just above the start of the next. The one that is added carries the highest code of the lowest octave
past 16 bits: the sixteen numbers from 2^16 on have code 2^16, above the code of all that are smaller. Everywhere else
the code falls as the number grows and has 16 bits (`floatCode_le_iff`, `floatCode_le`).

A pixel with such a depth is compared at 2^16 and stored at 0; every other depth is stored as it was compared.

Results: `float_depth_order`, `float_depth_spills`.
-/
import Accel3D.Proofs.DepthOrder

namespace Accel3D

/-! ## Codes of numbers -/

/-- the inverted digits of a number after its leading one: twelve digits, where steps of `d` divide its octave -/
theorem inverted_digits {n d m : Nat} (hlow : d * 4096 ≤ n) (hhigh : n < d * 8192) (hrange : 2 ^ 32 = d * (8192 * m)) :
    (4096 ≤ n / d ∧ n / d < 8192) ∧ (2 ^ 32 - 1 - n) / d % 4096 + n / d = 8191 := by
  have hd : 0 < d := Nat.pos_of_ne_zero (by rintro rfl; omega)
  have hm : 0 < m := Nat.pos_of_ne_zero (by rintro rfl; omega)
  have hq : 4096 ≤ n / d ∧ n / d < 8192 :=
    ⟨(Nat.le_div_iff_mul_le hd).2 (by rwa [Nat.mul_comm]), (Nat.div_lt_iff_lt_mul hd).2 (by rwa [Nat.mul_comm])⟩
  -- the rest of the range is the rest of its steps, and part of a step
  have hdigits : (2 ^ 32 - 1 - n) / d = 8192 * m - 1 - n / d := by
    have hn := Nat.div_add_mod n d
    have hr := Nat.mod_lt n hd
    have hproduct : d * (8192 * m - 1 - n / d) = d * (8192 * m) - d - d * (n / d) := by
      rw [Nat.mul_sub, Nat.mul_sub, Nat.mul_one]
    have hroom : d * (n / d) + d ≤ d * (8192 * m) := by
      rw [← Nat.mul_succ]
      exact Nat.mul_le_mul_left d (by omega)
    refine Nat.div_eq_of_lt_le ?_ ?_
    · rw [Nat.mul_comm]
      omega
    · rw [Nat.succ_mul, Nat.mul_comm]
      omega
  refine ⟨hq, ?_⟩
  rw [hdigits]
  omega

/-- **The code of a number falls by one for each step of the number within its octave.** -/
theorem floatDepth_eq {n : Nat} (h : 2 ^ 16 ≤ n) (h' : n < 2 ^ 32) :
    (4096 ≤ n / 2 ^ (n.log2 - 12) ∧ n / 2 ^ (n.log2 - 12) < 8192) ∧
      floatDepth n + n / 2 ^ (n.log2 - 12) = (33 - n.log2) * 4096 := by
  have hn : n ≠ 0 := by omega
  have hlog : 16 ≤ n.log2 := (Nat.le_log2 hn).2 h
  have hlog' : n.log2 < 32 := (Nat.log2_lt hn).2 h'
  have hsplit : ∀ {a b c : Nat}, a = b + c → 2 ^ a = 2 ^ b * 2 ^ c := fun h => by rw [h, Nat.pow_add]
  have hlow : 2 ^ (n.log2 - 12) * 4096 ≤ n := by
    refine Nat.le_trans (Nat.le_of_eq ?_) (Nat.log2_self_le hn)
    exact (hsplit (c := 12) (by omega)).symm
  have hhigh : n < 2 ^ (n.log2 - 12) * 8192 := by
    refine Nat.lt_of_lt_of_le Nat.lt_log2_self (Nat.le_of_eq ?_)
    exact hsplit (c := 13) (by omega)
  have hrange : 2 ^ 32 = 2 ^ (n.log2 - 12) * (8192 * 2 ^ (31 - n.log2)) := by
    have hrest : 2 ^ (44 - n.log2) = 8192 * 2 ^ (31 - n.log2) := hsplit (b := 13) (by omega)
    rw [← hrest]
    exact hsplit (by omega)
  obtain ⟨hq, hdigits⟩ := inverted_digits hlow hhigh hrange
  have hscale : 19 - (31 - n.log2) = n.log2 - 12 := by omega
  refine ⟨hq, ?_⟩
  simp only [floatDepth, Nat.not_lt.2 h, if_false, hscale]
  omega

theorem floatDepth_anti {a b : Nat} (ha : 2 ^ 16 ≤ a) (hab : a ≤ b) (hb : b < 2 ^ 32) : floatDepth b ≤ floatDepth a := by
  obtain ⟨hqa, hcodea⟩ := floatDepth_eq ha (Nat.lt_of_le_of_lt hab hb)
  obtain ⟨hqb, hcodeb⟩ := floatDepth_eq (Nat.le_trans ha hab) hb
  have hlog : a.log2 ≤ b.log2 := (Nat.le_log2 (by omega)).2 (Nat.le_trans (Nat.log2_self_le (by omega)) hab)
  have hlogb : b.log2 < 32 := (Nat.log2_lt (by omega)).2 hb
  rcases Nat.lt_or_eq_of_le hlog with hless | hsame
  · omega
  · have hsteps : a / 2 ^ (a.log2 - 12) ≤ b / 2 ^ (a.log2 - 12) := Nat.div_le_div_right hab
    rw [← hsame] at hcodeb
    omega

/-- a code has 16 bits, but for that of the sixteen numbers from 2^16 on, which is 2^16 -/
theorem floatDepth_le {n : Nat} (h : n < 2 ^ 32) :
    floatDepth n ≤ 0x10000 ∧ (floatDepth n = 0x10000 ↔ n / 16 = 4096) := by
  by_cases hn : n < 2 ^ 16
  · simp only [floatDepth, hn, if_true]
    omega
  · obtain ⟨hq, hcode⟩ := floatDepth_eq (Nat.not_lt.1 hn) h
    have hlog : 16 ≤ n.log2 := (Nat.le_log2 (by omega)).2 (Nat.not_lt.1 hn)
    have hlow : 2 ^ n.log2 ≤ n := Nat.log2_self_le (by omega)
    rcases Nat.lt_or_eq_of_le hlog with hless | hsame
    · have hlarge : 2 ^ 17 ≤ n := Nat.le_trans (Nat.pow_le_pow_right (by decide) hless) hlow
      omega
    · rw [← hsame] at hcode hq
      omega

/-- the code of a number of any size: none of 2^32 or more is told from another -/
def floatCode (n : Nat) : Nat := if n < 2 ^ 32 then floatDepth n else 0

/-- codes have 16 bits with one exception -/
theorem floatCode_le (n : Nat) : floatCode n ≤ 0x10000 ∧ (floatCode n = 0x10000 ↔ n / 16 = 4096) := by
  unfold floatCode
  split
  · rename_i h
    exact floatDepth_le h
  · omega

/-- codes fall as numbers grow, with the same exception -/
theorem floatCode_le_iff {a b : Nat} (hab : a ≤ b) :
    floatCode b ≤ floatCode a ↔ ¬ (a < 2 ^ 16 ∧ b / 16 = 4096) := by
  by_cases hb : b < 2 ^ 32
  · have ha : a < 2 ^ 32 := Nat.lt_of_le_of_lt hab hb
    simp only [floatCode, ha, hb, if_true]
    by_cases hsmall : a < 2 ^ 16
    · have hcode : floatDepth a = 0xFFFF := if_pos hsmall
      have hle := floatDepth_le hb
      omega
    · have hanti := floatDepth_anti (Nat.not_lt.1 hsmall) hab hb
      omega
  · simp only [floatCode, hb, if_false]
    omega

/-! ## Codes of W and Z -/

/-- the number that W's code is of: what is above its 48 lowest bits is not looked at -/
def depthOfW (w : Int64) : Nat := w.toUInt64.toNat % 2 ^ 48

/-- the number that Z's code is of -/
def depthOfZ (z : Int32) : Nat := 16 * z.toUInt32.toNat

theorem floatW_eq (w : Int64) : floatW w = floatCode (depthOfW w) := by
  have hparts : depthOfW w / 2 ^ 32 = w.toUInt64.toNat / 2 ^ 32 % 2 ^ 16 ∧
      depthOfW w % 2 ^ 32 = w.toUInt64.toNat % 2 ^ 32 := by
    unfold depthOfW
    omega
  unfold floatW floatCode
  simp only [← hparts.1, ← hparts.2]
  by_cases h : depthOfW w < 2 ^ 32
  · rw [if_pos (Nat.div_eq_of_lt h), if_pos h, Nat.mod_eq_of_lt h]
  · rw [if_neg (by omega), if_neg h]

theorem floatZ_eq (z : Int32) : floatZ z = floatCode (depthOfZ z) := by
  unfold floatZ floatCode depthOfZ
  by_cases h : z.toUInt32.toNat < 2 ^ 28
  · rw [if_pos h, if_pos (by omega)]
  · rw [if_neg h, if_neg (by omega)]

theorem depthOfW_of_nonneg {w : Int64} (h : 0 ≤ w.toInt) (h' : w.toInt < 2 ^ 48) : (depthOfW w : Int) = w.toInt := by
  have hword : w.toInt = if 2 * w.toUInt64.toNat < 2 ^ 64 then (w.toUInt64.toNat : Int)
      else w.toUInt64.toNat - (2 ^ 64 : Nat) := w.toBitVec.toInt_eq_toNat_cond
  have hlt : w.toUInt64.toNat < 2 ^ 64 := w.toUInt64.toNat_lt
  unfold depthOfW
  split at hword <;> omega

theorem depthOfZ_of_nonneg {z : Int32} (h : 0 ≤ z.toInt) : (depthOfZ z : Int) = 16 * z.toInt := by
  have hword : z.toInt = if 2 * z.toUInt32.toNat < 2 ^ 32 then (z.toUInt32.toNat : Int)
      else z.toUInt32.toNat - (2 ^ 32 : Nat) := z.toBitVec.toInt_eq_toNat_cond
  have hlt : z.toUInt32.toNat < 2 ^ 32 := z.toUInt32.toNat_lt
  unfold depthOfZ
  split at hword <;> omega

/-- the codes of W fall as W grows, and have 16 bits, with the exception of sixteen numbers -/
theorem floatW_order {a b : Int64} (ha : 0 ≤ a.toInt) (hab : a.toInt ≤ b.toInt) (hb : b.toInt < 2 ^ 48) :
    (floatW a ≤ 0xFFFF ↔ a.toInt / 16 ≠ 4096) ∧
      (floatW b ≤ floatW a ↔ ¬ (a.toInt < 65536 ∧ b.toInt / 16 = 4096)) := by
  have hda := depthOfW_of_nonneg ha (by omega)
  have hdb := depthOfW_of_nonneg (w := b) (by omega) hb
  have hcode := floatCode_le (depthOfW a)
  have horder := floatCode_le_iff (a := depthOfW a) (b := depthOfW b) (by omega)
  rw [floatW_eq, floatW_eq, horder]
  omega

/-- the codes of Z too, with the exception of one number -/
theorem floatZ_order {a b : Int32} (ha : 0 ≤ a.toInt) (hab : a.toInt ≤ b.toInt) :
    (floatZ a ≤ 0xFFFF ↔ a.toInt ≠ 4096) ∧ (floatZ b ≤ floatZ a ↔ ¬ (a.toInt < 4096 ∧ b.toInt = 4096)) := by
  have hda := depthOfZ_of_nonneg ha
  have hdb := depthOfZ_of_nonneg (z := b) (by omega)
  have hcode := floatCode_le (depthOfZ a)
  have horder := floatCode_le_iff (a := depthOfZ a) (b := depthOfZ b) (by omega)
  rw [floatZ_eq, floatZ_eq, horder]
  omega

/-! ## Depths of pixels -/

namespace PixelRules

variable (rules : PixelRules) (f : Fragment)

def floatSource : Nat := if rules.hasFloatZ && rules.frame.floatDepth then depthOfZ f.z else depthOfW f.w

theorem rawDepth_eq (h : rules.frame.wBuffer = true) : rules.rawDepth f = floatCode (rules.floatSource f) := by
  simp only [rawDepth, floatSource, h, Bool.not_true, Bool.false_eq_true, if_false]
  split
  · exact floatZ_eq f.z
  · exact floatW_eq f.w

/-- whether a pixel's depth is the code that has more than 16 bits; a bias brings it back -/
def spills : Bool := rules.frame.wBuffer && !rules.frame.depthBias && rules.floatSource f / 16 == 4096

theorem depth_range :
    if rules.spills f then rules.depth f = 0x10000 else 0 ≤ rules.depth f ∧ rules.depth f ≤ 0xFFFF := by
  cases hw : rules.frame.wBuffer with
  | false =>
    have hbounds := rules.depth_bounds hw f
    simp only [spills, hw, Bool.false_and, Bool.false_eq_true, if_false]
    omega
  | true =>
    cases hbias : rules.frame.depthBias with
    | true =>
      simp only [spills, depth, hbias, Bool.not_true, Bool.and_false, Bool.false_and, Bool.false_eq_true, if_true,
        if_false]
      omega
    | false =>
      have hcode := floatCode_le (rules.floatSource f)
      simp only [spills, depth, hw, hbias, rules.rawDepth_eq f hw, Bool.not_false, Bool.true_and, beq_iff_eq,
        Bool.false_eq_true, if_false]
      split <;> omega

end PixelRules

namespace Pipeline

variable {p : Pipeline} {pos : PixelPosition} {f : Fragment} {c : Canvas} {d : PixelDepth}

theorem depth_of_enter (h : (p.enter pos f c).2 = some d) :
    d.depth = p.rules.depth f ∧
      p.rules.depthPasses d.depth (if p.rules.frame.depthTest then (p.surface.aux pos.x pos.screenY).map c.memory.read16
        else none) = true := by
  simp only [enter, entry] at h
  generalize (if p.rules.frame.depthTest then (p.surface.aux pos.x pos.screenY).map c.memory.read16
    else none) = stored at h ⊢
  by_cases hclip : (p.rules.frame.clipping && !p.rules.clip.contains pos.x pos.screenY) = true
  · simp only [hclip, if_true, Canvas.judge, reduceCtorEq] at h
  · cases hstipple : (p.rules.stippleTest c.stipple pos.x pos.y).2 with
    | false =>
      simp only [hclip, hstipple, Bool.not_false, Bool.false_eq_true, if_true, if_false, Canvas.judge,
        reduceCtorEq] at h
    | true =>
      by_cases hpasses : p.rules.depthPasses (p.rules.depth f) stored = true
      · simp only [hclip, hstipple, hpasses, Bool.not_true, Bool.false_eq_true, if_true, if_false, Canvas.judge] at h
        obtain rfl := Option.some.inj h
        exact ⟨rfl, hpasses⟩
      · simp only [hclip, hstipple, hpasses, Bool.not_true, Bool.false_eq_true, if_false, Canvas.judge,
          reduceCtorEq] at h

theorem read16_settle {a : UInt32} (haux : p.surface.aux pos.x pos.screenY = some a)
    (hwrite : p.rules.frame.writeAux = true) (hplanes : p.rules.frame.alphaPlanes = false) (hsize : 1 < c.memory.size)
    (dither : Dither) (color : Argb) :
    (p.settle pos dither d color f c).memory.read16 a = UInt16.ofInt d.depth := by
  simp only [settle, Pipeline.writeAux, hwrite, haux, hplanes, if_true, Bool.false_eq_true, if_false]
  exact Memory.read16_write16 _ _ _ (by rwa [size_writeColor])

end Pipeline

/-- **Floating depths are ordered and have 16 bits, with one exception.** Codes fall as W and Z grow and have 16 bits,
but for the sixteen numbers W from 2^16 and the number Z = 2^12, whose code is 2^16. A pixel's depth has 16 bits unless
it is that code. It is the depth that was compared, if the comparison is not with a constant, and the depth that is
stored, if depths are; but for that code 0 is stored. -/
theorem float_depth_order {v w : Int64} (hv : 0 ≤ v.toInt) (hvw : v.toInt ≤ w.toInt) (hw : w.toInt < 2 ^ 48)
    {y z : Int32} (hy : 0 ≤ y.toInt) (hyz : y.toInt ≤ z.toInt)
    {p : Pipeline} {pos : PixelPosition} {f : Fragment} {c : Canvas} {d : PixelDepth}
    (henter : (p.enter pos f c).2 = some d) :
    ((floatW v ≤ 0xFFFF ↔ v.toInt / 16 ≠ 4096) ∧
      (floatW w ≤ floatW v ↔ ¬ (v.toInt < 65536 ∧ w.toInt / 16 = 4096))) ∧
    ((floatZ y ≤ 0xFFFF ↔ y.toInt ≠ 4096) ∧ (floatZ z ≤ floatZ y ↔ ¬ (y.toInt < 4096 ∧ z.toInt = 4096))) ∧
    (if p.rules.spills f then d.depth = 0x10000 else 0 ≤ d.depth ∧ d.depth ≤ 0xFFFF) ∧
    ∀ a, p.surface.aux pos.x pos.screenY = some a →
      (p.rules.frame.depthTest = true → p.rules.frame.depthFromConstant = false →
        p.rules.frame.depthFunction.passes d.depth (c.memory.read16 a).toNat = true) ∧
      ∀ (dither : Dither) (color : Argb) (c' : Canvas), 1 < c'.memory.size → p.rules.frame.writeAux = true →
        p.rules.frame.alphaPlanes = false →
        (((p.settle pos dither d color f c').memory.read16 a).toNat : Int) =
          if p.rules.spills f then 0 else d.depth := by
  obtain ⟨hdepth, hpasses⟩ := Pipeline.depth_of_enter henter
  have hrange := p.rules.depth_range f
  rw [← hdepth] at hrange
  refine ⟨floatW_order hv hvw hw, floatZ_order hy hyz, hrange, fun a haux => ⟨fun htest hconstant => ?_, ?_⟩⟩
  · simpa only [haux, htest, hconstant, PixelRules.depthPasses, if_true, Option.map_some, Bool.false_eq_true,
      if_false] using hpasses
  · intro dither color c' hsize hwrite hplanes
    rw [Pipeline.read16_settle haux hwrite hplanes hsize dither color]
    split at hrange
    · rename_i hspills
      rw [hrange, if_pos hspills]
      rfl
    · rename_i hspills
      rw [toNat_ofInt16 _ hrange.1 (by omega), if_neg hspills]
      exact Int.toNat_of_nonneg hrange.1

/-- the pipeline of a register file that tests for greater depths from W, with color at 0 and depths at 32 -/
def wBufferPipeline : Pipeline where
  rules := PixelRules.ofRegisters .voodoo2 (RegisterFile.zero.set Reg.fbzMode 0x698) Combine.plain
  fog := FogTable.zero
  surface := ⟨0, some 32, 4⟩

/-- a pixel whose W is one half -/
theorem float_depth_order_half :
    let pos : PixelPosition := ⟨0, 0, 0⟩
    let f : Fragment := ⟨Argb.black, 0, 0x80000000⟩
    let c : Canvas := ⟨Memory.zeroed 6, Counters.zero, 0⟩
    let stored := (wBufferPipeline.settle pos ⟨false, .four, 0⟩ ⟨0x1000, 0x1000⟩ Argb.black f c).memory.read16 32
    floatW 0x80000000 ≤ floatW 0x40000000 ∧ floatZ 0x2000 ≤ floatZ 0x1800 ∧
      (wBufferPipeline.enter pos f c).2 = some ⟨0x1000, 0x1000⟩ ∧ (stored.toNat : Int) = 0x1000 := by
  intro pos f c stored
  have henter : (wBufferPipeline.enter pos f c).2 = some ⟨0x1000, 0x1000⟩ := by decide +kernel
  obtain ⟨hw, hz, -, hpixel⟩ := float_depth_order (v := 0x40000000) (w := 0x80000000) (by decide) (by decide)
    (by decide) (y := 0x1800) (z := 0x2000) (by decide) (by decide) henter
  have hsize : 1 < c.memory.size := by
    rw [show c.memory.size = 2 ^ 6 from size_filledBytes 0 6]
    decide
  have hstored := (hpixel 32 rfl).2 ⟨false, .four, 0⟩ Argb.black c hsize rfl rfl
  have hspills : wBufferPipeline.rules.spills f = false := by decide +kernel
  rw [hspills, if_neg Bool.false_ne_true] at hstored
  exact ⟨hw.2.2 (by decide), hz.2.2 (by decide), henter, hstored⟩

/-- **One code has 17 bits.** The code of W = 2^16 is above all others, also those of smaller numbers, and so is that of
Z = 2^12. A pixel with that W passes as farther than the farthest stored depth, and what is stored is the nearest. -/
theorem float_depth_spills :
    let pos : PixelPosition := ⟨0, 0, 0⟩
    let f : Fragment := ⟨Argb.black, 0, 0x10000⟩
    let c : Canvas := ⟨(Memory.zeroed 6).write16 32 0xFFFF, Counters.zero, 0⟩
    (floatW 0xFFFF = 0xFFFF ∧ floatW 0x10000 = 0x10000) ∧ (floatZ 0xFFF = 0xFFFF ∧ floatZ 0x1000 = 0x10000) ∧
      (wBufferPipeline.enter pos f c).2 = some ⟨0x10000, 0x10000⟩ ∧
      (wBufferPipeline.settle pos ⟨false, .four, 0⟩ ⟨0x10000, 0x10000⟩ Argb.black f c).memory.read16 32 = 0 := by
  intro pos f c
  have henter : (wBufferPipeline.enter pos f c).2 = some ⟨0x10000, 0x10000⟩ := by decide +kernel
  have hstored : (wBufferPipeline.settle pos ⟨false, .four, 0⟩ ⟨0x10000, 0x10000⟩ Argb.black f c).memory.read16 32 =
      0 := by decide +kernel
  exact ⟨by decide, by decide, henter, hstored⟩

end Accel3D
