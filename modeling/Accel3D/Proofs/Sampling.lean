/-
Filters at texel centres, and perspective by a power of two.

At the centre of a texel both fractions of the bilinear filter are zero: the half texel that is taken off leads to where
the texel starts (`TextureUnit.start_of_centre`). The blend is then its first corner, which is the texel that a point
sample takes, whatever the other three are (`TextureUnit.sampleBilinear_of_centre`). Which filter is asked for does not
matter there.

The reciprocal of a power of two is a power of two. So a coordinate that is divided by W is moved by as many bits; the
product wraps in 64 bits, but of what wraps nothing is left in the 32 bits that are kept after the shift
(`toInt32_shiftRight`). A sample with perspective is then a sample without it, of coordinates moved before.

Results: `TextureUnit.sample_at_centre`, `TextureUnit.sample_by_power`.
-/
import Accel3D.Proofs.Bilinear
import Accel3D.Proofs.Reciprocal

namespace Accel3D

/-! ## Switches of a texture mode -/

namespace TextureMode

def withFilters (m : TextureMode) (on : Bool) : TextureMode := { m with minifyBilinear := on, magnifyBilinear := on }

def withPerspective (m : TextureMode) (on : Bool) : TextureMode := { m with perspective := on }

theorem decode_withFilters {w v : UInt32} {on : Bool} (h : EqualBut [1, 2] w v) (h1 : bit w 1 = on)
    (h2 : bit w 2 = on) : decode w = (decode v).withFilters on := by
  simp only [decode, withFilters, h1, h2, h 0 (by decide), h 3 (by decide), h 4 (by decide), h 5 (by decide),
    h 6 (by decide), h 7 (by decide), h 31 (by decide), h.field_eq 8 4 (by decide)]

theorem decode_withPerspective {w v : UInt32} {on : Bool} (h : EqualBut [0] w v) (h0 : bit w 0 = on) :
    decode w = (decode v).withPerspective on := by
  simp only [decode, withPerspective, h0, h 1 (by decide), h 2 (by decide), h 3 (by decide), h 4 (by decide),
    h 5 (by decide), h 6 (by decide), h 7 (by decide), h 31 (by decide), h.field_eq 8 4 (by decide)]

variable (w : UInt32)

theorem bit_set {m : UInt32} {i : Nat} (h : bit m i = true) : bit (w ||| m) i = true := by
  rw [bit_or, h, Bool.or_true]

theorem bit_cleared {m : UInt32} {i : Nat} (h : bit m i = false) : bit (w &&& m) i = false := by
  rw [bit_and, h, Bool.and_false]

theorem decode_filtered : decode (w ||| 6) = (decode w).withFilters true :=
  decode_withFilters (.or (by decide) w) (bit_set w (by decide)) (bit_set w (by decide))

theorem decode_unfiltered : decode (w &&& 0xFFFFFFF9) = (decode w).withFilters false :=
  decode_withFilters (.and (by decide) w) (bit_cleared w (by decide)) (bit_cleared w (by decide))

theorem decode_perspective : decode (w ||| 1) = (decode w).withPerspective true :=
  decode_withPerspective (.or (by decide) w) (bit_set w (by decide))

theorem decode_affine : decode (w &&& 0xFFFFFFFE) = (decode w).withPerspective false :=
  decode_withPerspective (.and (by decide) w) (bit_cleared w (by decide))

end TextureMode

namespace TextureUnit

/-! ## Centres of texels -/

/-- at the centre of a texel of a level: the 8 bits below the texel's number are one half -/
structure Footing.AtCentre (f : Footing) (level : Nat) : Prop where
  s : (f.s >>> (level + 10)) % 256 = 128
  t : (f.t >>> (level + 10)) % 256 = 128

/-- half a texel before the centre of a texel is where the texel starts -/
theorem start_of_centre {v : Int} {level : Nat} (h : (v >>> (level + 10)) % 256 = 128) :
    ((v >>> (level + 10)) - 128) % 256 = 0 ∧ ((v >>> (level + 10)) - 128) / 256 = v >>> (level + 18) := by
  have hquotient : v >>> (level + 18) = (v >>> (level + 10)) / 256 :=
    (Int.shiftRight_add v (level + 10) 8).trans (Int.shiftRight_eq_div_pow _ 8)
  rw [hquotient]
  omega

/-- where a texel starts the fraction is zero, however many of its bits a unit has -/
theorem fraction_eq_zero {mask : Int32} (hmask : mask &&& 0xFF = mask) {v : Int} (hv : v % 256 = 0) :
    (Int32.ofInt v &&& mask).toUInt32 = 0 := by
  have hlow : Int32.ofInt v &&& 0xFF = 0 := by
    rw [← Int32.toBitVec_inj, Int32.toBitVec_and, ← BitVec.toNat_inj, BitVec.toNat_and]
    show (BitVec.ofInt 32 v).toNat &&& (2 ^ 8 - 1) = 0
    rw [Nat.and_two_pow_sub_one_eq_mod, BitVec.toNat_ofInt]
    omega
  rw [← hmask, Int32.and_comm mask, ← Int32.and_assoc, hlow, Int32.zero_and]
  rfl

theorem ofWord_bilinear_zero (t00 t01 t10 t11 : UInt32) :
    Argb.ofWord (bilinear t00 t01 t10 t11 0 0) = Argb.ofWord t00 := by
  refine Argb.ext_channel fun k => UInt8.toNat_inj.1 (Int.ofNat.inj ?_)
  have hblend := field_bilinear (s := 0) (t := 0) (by decide) (by decide) t00 t01 t10 t11 k
  have hzero : ((0 : UInt32).toNat : Int) = 0 := rfl
  rw [hzero, lerpCorners, lerp_zero, lerp_zero] at hblend
  rw [toNat_channel_ofWord, toNat_channel_ofWord]
  exact hblend

theorem sampleBilinear_of_centre (u : TextureUnit) (hmask : u.bilinearMask &&& 0xFF = u.bilinearMask)
    (mode : TextureMode) (l : Level) {level : Nat} {f : Footing} (h : f.AtCentre level) :
    Argb.ofWord (u.sampleBilinear mode l level f) = Argb.ofWord (u.samplePoint mode l level f) := by
  obtain ⟨hs, hs'⟩ := start_of_centre h.s
  obtain ⟨ht, ht'⟩ := start_of_centre h.t
  simp only [sampleBilinear, fraction_eq_zero hmask hs, fraction_eq_zero hmask ht, ofWord_bilinear_zero, hs', ht']
  rfl

/-- the level that a pixel is fetched from -/
def levelOf (u : TextureUnit) (mode : TextureMode) (x : Int) (dither : Dither) (c : TexCoords) (lodBase : Int) : Fin 9 :=
  fetchLevel u.params (pixelLod u.params mode dither x (footing mode c lodBase).lod)

/-- a sample whose two filters agree does not ask which one is meant -/
theorem sample_withFilters (u : TextureUnit) (mode : TextureMode) (on : Bool) (x : Int) (dither : Dither)
    (c : TexCoords) (lodBase : Int) :
    let f := footing mode c lodBase
    let level := u.levelOf mode x dither c lodBase
    let l := levelAt u.params mode.format level
    u.sample (mode.withFilters on) x dither c lodBase =
      (Argb.ofWord (if on then u.sampleBilinear mode l level f else u.samplePoint mode l level f),
        pixelLod u.params mode dither x f.lod) := by
  intro f level l
  let lod := pixelLod u.params mode dither x f.lod
  have hfilter : (if lod = u.params.lodMin.toInt then on else on) = on := ite_self on
  show (Argb.ofWord (if (if lod = u.params.lodMin.toInt then on else on) = true then u.sampleBilinear mode l level f
    else u.samplePoint mode l level f), lod) = _
  rw [hfilter]

/-- **At the centre of a texel the filters take that texel.** There a sample with both filters is the sample with none,
and so is its level: on every revision, with any parameters and texels, for every texture mode, and for coordinates of
either sign and outside of the texture. The coordinates are those that the unit looks up, with 18 fraction bits: divided
by W if the mode has perspective, and the origin if it clamps a negative W. -/
theorem sample_at_centre {u : TextureUnit} {r : Revision} (hu : u.bilinearMask = r.bilinearMask) (w : UInt32) (x : Int)
    (dither : Dither) (c : TexCoords) (lodBase : Int)
    (h : (footing (.decode w) c lodBase).AtCentre (u.levelOf (.decode w) x dither c lodBase)) :
    u.sample (.decode (w ||| 6)) x dither c lodBase = u.sample (.decode (w &&& 0xFFFFFFF9)) x dither c lodBase := by
  have hmask : u.bilinearMask &&& 0xFF = u.bilinearMask := by
    rw [hu]
    cases r <;> decide
  rw [TextureMode.decode_filtered, TextureMode.decode_unfiltered, sample_withFilters, sample_withFilters]
  exact Prod.ext (u.sampleBilinear_of_centre hmask _ _ h) rfl

/-- a unit whose texel 3 is red, its neighbour on the right green, and all others black -/
def redTexel : TextureUnit :=
  { initial .voodoo2 0 4 with memory := ((Memory.zeroed 4).write8 3 0xE0).write8 4 0x1C }

/-- above the texture, where T is clamped to its first row -/
theorem sample_at_centre_red :
    let c : TexCoords := ⟨0x380000000, -0x80000000, 0⟩
    let dither : Dither := ⟨false, .four, 0⟩
    let value (w : UInt32) := redTexel.sample (.decode w) 0 dither c 0
    redTexel.bilinearMask = Revision.bilinearMask .voodoo2 ∧
    (footing (.decode 0x80) c 0).AtCentre (redTexel.levelOf (.decode 0x80) 0 dither c 0) ∧
    value (0x80 ||| 6) = value (0x80 &&& 0xFFFFFFF9) ∧ value (0x80 &&& 0xFFFFFFF9) = (⟨0xFF, 0xFF, 0, 0⟩, 0) := by
  intro c dither value
  have hu : redTexel.bilinearMask = Revision.bilinearMask .voodoo2 := rfl
  have hcentre : (footing (.decode 0x80) c 0).AtCentre (redTexel.levelOf (.decode 0x80) 0 dither c 0) :=
    ⟨by decide +kernel, by decide +kernel⟩
  exact ⟨hu, hcentre, sample_at_centre hu 0x80 0 dither c 0 hcentre, by decide +kernel⟩

end TextureUnit

/-! ## Shifts of 64-bit numbers -/

theorem smod_ofNat {n : Nat} (hn : n < 64) : (BitVec.ofNat 64 n).smod 64 = BitVec.ofNat 64 n := by
  have hall : ∀ n : Fin 64, (BitVec.ofNat 64 n).smod 64 = BitVec.ofNat 64 n := by decide
  exact hall ⟨n, hn⟩

theorem toInt_shiftLeft (v : Int64) {n : Nat} (hn : n < 64) :
    (v <<< Int64.ofNat n).toInt = (v.toInt * 2 ^ n).bmod (2 ^ 64) := by
  have hmod : n % 2 ^ 64 = n := Nat.mod_eq_of_lt (by omega)
  show (v <<< Int64.ofNat n).toBitVec.toInt = (v.toBitVec.toInt * 2 ^ n).bmod (2 ^ 64)
  rw [Int64.toBitVec_shiftLeft, Int64.toBitVec_ofNat', smod_ofNat hn, BitVec.shiftLeft_eq', BitVec.toNat_ofNat, hmod,
    BitVec.toInt_shiftLeft, BitVec.toInt_eq_toNat_bmod, Int.bmod_mul_bmod, Nat.shiftLeft_eq]
  push_cast
  rfl

theorem toInt_shiftRight (v : Int64) {n : Nat} (hn : n < 64) : (v >>> Int64.ofNat n).toInt = v.toInt / 2 ^ n := by
  have hmod : n % 2 ^ 64 = n := Nat.mod_eq_of_lt (by omega)
  show (v >>> Int64.ofNat n).toBitVec.toInt = v.toBitVec.toInt / 2 ^ n
  rw [Int64.toBitVec_shiftRight, Int64.toBitVec_ofNat', smod_ofNat hn, BitVec.sshiftRight_eq', BitVec.toNat_ofNat, hmod,
    BitVec.toInt_sshiftRight, Int.shiftRight_eq_div_pow]
  push_cast
  rfl

/-- the low half of a wrapped number, moved down by at most half a word, does not depend on the wrap -/
theorem toInt32_shiftRight {v : Int64} {x : Int} (hv : v.toInt = x.bmod (2 ^ 64)) {n : Nat} (hn : n ≤ 32) :
    (v >>> Int64.ofNat n).toInt32.toInt = (x / 2 ^ n).bmod (2 ^ 32) := by
  have hpow : 2 ^ 64 = 2 ^ n * (2 ^ 32 * 2 ^ (32 - n)) := by
    rw [← Nat.pow_add, ← Nat.pow_add]
    congr 1
    omega
  have hwrap : v.toInt = x - 2 ^ n * ((2 ^ 32 : Nat) * (2 ^ (32 - n) * x.bdiv (2 ^ 64))) := by
    have hcast : ((2 ^ 64 : Nat) : Int) = 2 ^ n * ((2 ^ 32 : Nat) * 2 ^ (32 - n)) := by exact_mod_cast hpow
    rw [hv, Int.bmod_eq_self_sub_mul_bdiv, hcast, Int.mul_assoc, Int.mul_assoc]
  have hpositive : (2 : Int) ^ n ≠ 0 := (Int.pow_pos (by decide)).ne'
  rw [Int64.toInt_toInt32, toInt_shiftRight v (by omega), hwrap, Int.sub_mul_ediv_left _ _ hpositive,
    Int.sub_mul_bmod_self_left]

/-! ## Perspective -/

namespace TextureUnit

/-- a coordinate times 2^k: moved up and wrapped, or moved down and rounded down -/
def scaled (v : Int64) (k : Int) : Int64 := if 0 ≤ k then v <<< Int64.ofInt k else v >>> Int64.ofInt (-k)

theorem toInt_scaled (v : Int64) {k : Int} (hk : -63 ≤ k) (hk' : k ≤ 63) :
    (scaled v k).toInt = (v.toInt * 2 ^ k.toNat / 2 ^ (-k).toNat).bmod (2 ^ 64) := by
  unfold scaled
  split
  · obtain ⟨n, rfl⟩ : ∃ n : Nat, k = n := ⟨k.toNat, by omega⟩
    have hdown : (-(n : Int)).toNat = 0 := by omega
    rw [hdown, Int.pow_zero, Int.ediv_one]
    exact toInt_shiftLeft v (by omega)
  · obtain ⟨n, rfl⟩ : ∃ n : Nat, k = -n := ⟨(-k).toNat, by omega⟩
    have hup : (-(n : Int)).toNat = 0 := by omega
    rw [Int.neg_neg, hup, Int.pow_zero, Int.mul_one]
    show (v >>> Int64.ofNat n).toInt = (v.toInt / 2 ^ n).bmod (2 ^ 64)
    rw [← toInt_shiftRight v (by omega)]
    exact (Int64.toInt_bmod _).symm

theorem cut_scaled (v : Int) {k : Int} (hk : -15 ≤ k) :
    2 ^ (15 + k).toNat * v / 2 ^ 29 = v * 2 ^ k.toNat / 2 ^ (-k).toNat / 2 ^ 14 := by
  have hexponents : 15 + k.toNat = (15 + k).toNat + (-k).toNat := by omega
  have hpow : ∀ n : Nat, (0 : Int) < 2 ^ n := fun n => Int.pow_pos (by decide)
  calc 2 ^ (15 + k).toNat * v / 2 ^ 29
      = 2 ^ (-k).toNat * (2 ^ (15 + k).toNat * v) / (2 ^ (-k).toNat * 2 ^ 29) :=
        (Int.mul_ediv_mul_of_pos _ _ (hpow _)).symm
    _ = 2 ^ 15 * (v * 2 ^ k.toNat) / (2 ^ 15 * (2 ^ (-k).toNat * 2 ^ 14)) := by
        rw [← Int.mul_assoc, ← Int.pow_add, Nat.add_comm, ← hexponents, Int.pow_add, Int.mul_assoc,
          Int.mul_comm (2 ^ k.toNat), Int.mul_left_comm (2 ^ 15) (2 ^ (-k).toNat), ← Int.pow_add 2 15 14]
    _ = v * 2 ^ k.toNat / (2 ^ (-k).toNat * 2 ^ 14) := Int.mul_ediv_mul_of_pos _ _ (hpow 15)
    _ = v * 2 ^ k.toNat / 2 ^ (-k).toNat / 2 ^ 14 := (Int.ediv_ediv_of_nonneg (hpow _).le).symm

/-- a coordinate divided by 2^-k is the coordinate scaled by 2^k -/
theorem divided_eq_scaled (v : Int64) {k : Int} (hk : -15 ≤ k) (hk' : k ≤ 15) :
    ((Int64.ofInt (2 ^ (15 + k).toNat) * v) >>> 29).toInt32.toInt = (scaled v k >>> 14).toInt32.toInt := by
  have hfactor : (Int64.ofInt (2 ^ (15 + k).toNat)).toInt = 2 ^ (15 + k).toNat := toInt_two_pow (by omega)
  have hproduct := Int64.toInt_mul (Int64.ofInt (2 ^ (15 + k).toNat)) v
  rw [hfactor] at hproduct
  have hdivided := toInt32_shiftRight hproduct (n := 29) (by decide)
  have hscaled := toInt32_shiftRight (toInt_scaled v (k := k) (by omega) (by omega)) (n := 14) (by decide)
  rw [← cut_scaled v.toInt hk] at hscaled
  exact hdivided.trans hscaled.symm

theorem scaled_zero (v : Int64) : scaled v 0 = v := by
  have hshift := toInt_shiftLeft v (n := 0) (by decide)
  rw [Int.pow_zero, Int.mul_one] at hshift
  exact Int64.toInt_inj.1 (hshift.trans (Int64.toInt_bmod v))

theorem footing_of_nonneg (mode : TextureMode) (s t : Int64) {w : Int64} (hw : ¬ w < 0) (lodBase : Int) :
    footing mode ⟨s, t, w⟩ lodBase =
      if mode.perspective then perspective ⟨s, t, w⟩ lodBase else affine ⟨s, t, w⟩ lodBase := by
  simp only [footing, hw, decide_false, Bool.and_false, Bool.false_eq_true, if_false]

theorem perspective_two_pow (s t w : Int64) (lodBase : Int) {k : Int} (hk : -15 ≤ k) (hk' : k ≤ 15) :
    perspective ⟨s, t, Int64.ofInt (2 ^ (32 - k).toNat)⟩ lodBase =
      affine ⟨scaled s k, scaled t k, w⟩ (lodBase + 256 * k) := by
  have hrecip : (Int32.ofInt (2 ^ (47 - (32 - k).toNat))).toInt64 = Int64.ofInt (2 ^ (15 + k).toNat) := by
    have hexponent : 47 - (32 - k).toNat = (15 + k).toNat := by omega
    have hpow : (0 : Int) < 2 ^ (15 + k).toNat := Int.pow_pos (by decide)
    rw [hexponent, ← Int64.toInt_inj, Int32.toInt_toInt64, toInt_two_pow (by omega),
      Int32.toInt_ofInt_of_le (Int.le_trans (by decide) hpow.le) (two_pow_lt (by omega))]
  have hdivided := fun v => divided_eq_scaled v hk hk'
  simp only [perspective, affine, Reciprocal.of_two_pow (n := (32 - k).toNat) (by omega) (by omega), hrecip, hdivided]
  congr 1
  omega

theorem footing_two_pow (mode : TextureMode) (s t : Int64) {w : Int64} (hw : 0 < w) (lodBase : Int) {k : Int}
    (hk : -15 ≤ k) (hk' : k ≤ 15) :
    footing (mode.withPerspective true) ⟨s, t, Int64.ofInt (2 ^ (32 - k).toNat)⟩ lodBase =
      footing (mode.withPerspective false) ⟨scaled s k, scaled t k, w⟩ (lodBase + 256 * k) := by
  have hpower : ¬ Int64.ofInt (2 ^ (32 - k).toNat) < 0 := two_pow_not_neg (by omega)
  have hw' : ¬ w < 0 := by
    rw [Int64.lt_iff_toInt_lt] at hw ⊢
    exact hw.not_gt
  rw [footing_of_nonneg _ _ _ hpower, footing_of_nonneg _ _ _ hw']
  exact perspective_two_pow s t w lodBase hk hk'

/-- a sample knows of perspective what its footing says -/
theorem sample_withPerspective (u : TextureUnit) (mode : TextureMode) {on on' : Bool} (x : Int) (dither : Dither)
    {c c' : TexCoords} {lodBase lodBase' : Int}
    (h : footing (mode.withPerspective on) c lodBase = footing (mode.withPerspective on') c' lodBase') :
    u.sample (mode.withPerspective on) x dither c lodBase = u.sample (mode.withPerspective on') x dither c' lodBase' := by
  unfold sample
  rw [h]
  rfl

/-- **Perspective by a power of two scales the coordinates.** A sample with perspective whose W is 2^(32 - k), that is
2^-k with its 32 fraction bits, is the sample without perspective of coordinates scaled by 2^k, from a level higher by
k; for any coordinates, also where the product wraps. For W = 1 both are samples of the same coordinates. -/
theorem sample_by_power (u : TextureUnit) (m : UInt32) (x : Int) (dither : Dither) (s t w : Int64) (hw : 0 < w)
    (lodBase k : Int) (hk : -15 ≤ k) (hk' : k ≤ 15) :
    u.sample (.decode (m ||| 1)) x dither ⟨s, t, Int64.ofInt (2 ^ (32 - k).toNat)⟩ lodBase =
      u.sample (.decode (m &&& 0xFFFFFFFE)) x dither ⟨scaled s k, scaled t k, w⟩ (lodBase + 256 * k) ∧
    u.sample (.decode (m ||| 1)) x dither ⟨s, t, Int64.ofInt (2 ^ 32)⟩ lodBase =
      u.sample (.decode (m &&& 0xFFFFFFFE)) x dither ⟨s, t, Int64.ofInt (2 ^ 32)⟩ lodBase := by
  rw [TextureMode.decode_perspective, TextureMode.decode_affine]
  have hone : (0 : Int64) < Int64.ofInt (2 ^ 32) := by decide
  have hfooting := footing_two_pow (.decode m) s t hw lodBase hk hk'
  have hsame := footing_two_pow (.decode m) s t hone lodBase (k := 0) (by decide) (by decide)
  rw [scaled_zero, scaled_zero, Int.mul_zero, Int.add_zero] at hsame
  exact ⟨u.sample_withPerspective _ x dither hfooting, u.sample_withPerspective _ x dither hsame⟩

/-- W is an eighth; 8 times S wraps -/
theorem sample_by_power_wrapping :
    let value (w : UInt32) := redTexel.sample (.decode w) 0 ⟨false, .four, 0⟩
    (0 : Int64) < 1 ∧ (-15 : Int) ≤ 3 ∧ (3 : Int) ≤ 15 ∧
    value (6 ||| 1) ⟨0x4000000070000000, -0x10000000, Int64.ofInt (2 ^ 29)⟩ 0 =
      value (6 &&& 0xFFFFFFFE) ⟨0x380000000, -0x80000000, 1⟩ (0 + 256 * 3) ∧
    value (6 &&& 0xFFFFFFFE) ⟨0x380000000, -0x80000000, 1⟩ (0 + 256 * 3) = (⟨0xFF, 0xFF, 0, 0⟩, 0) := by
  intro value
  have hw : (0 : Int64) < 1 := by decide
  refine ⟨hw, by decide, by decide, ?_, by decide +kernel⟩
  exact (sample_by_power redTexel 6 0 ⟨false, .four, 0⟩ 0x4000000070000000 (-0x10000000) 1 hw 0 3 (by decide)
    (by decide)).1

end TextureUnit
end Accel3D
