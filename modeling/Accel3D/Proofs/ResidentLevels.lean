/-
Which level a sample is fetched from.

A unit holds all nine levels of detail, or those of one parity (`TexParams.bit_levelsPresent`). So of two levels that
follow each other one is held, and a level that is not can be replaced by the next; but after the last there is none. A
unit that holds the odd levels has nothing from 8 on, and there the level is 8 all the same. Below, and on every other
unit everywhere, the level that is fetched is the first one held from the level that the pixel asks for.

Results: `TextureUnit.sample_level`.
-/
import Mathlib.Order.Bounds.Basic
import Accel3D.Proofs.Sampling

namespace Accel3D

namespace TexParams

variable (mode : LodMode)

/-- the levels that a unit holds: those up to 8, and of its parity if two units share them -/
theorem bit_levelsPresent (l : Nat) :
    bit (levelsPresent mode) l = true ↔ l ≤ 8 ∧ (mode.split = true → l % 2 = mode.odd.toNat) := by
  have hmasks : ∀ l < 32, (bit 0x1FF l = true ↔ l ≤ 8) ∧ (bit 0x155 l = true ↔ l ≤ 8 ∧ l % 2 = 0) ∧
      (bit 0x0AA l = true ↔ l ≤ 8 ∧ l % 2 = 1) := by decide
  rcases Nat.lt_or_ge l 32 with hl | hl
  · obtain ⟨hall, heven, hodd⟩ := hmasks l hl
    unfold levelsPresent
    cases mode.split <;> cases mode.odd <;> simp [hall, heven, hodd]
  · rw [bit_of_le _ hl]
    simp only [Bool.false_eq_true, false_iff]
    omega

theorem bit_levelsPresent_succ {l : Nat} (hl : l < 8) (h : bit (levelsPresent mode) l ≠ true) :
    bit (levelsPresent mode) (l + 1) = true := by
  have hodd := mode.odd.toNat_lt
  rw [ne_eq, bit_levelsPresent] at h
  rw [bit_levelsPresent]
  by_cases hsplit : mode.split = true
  · simp only [hsplit, true_imp_iff] at h ⊢
    omega
  · exact ⟨by omega, fun hsplit' => absurd hsplit' hsplit⟩

theorem limits_derive (regs : RegisterFile) (memoryMask addressMask addressShift : UInt32) :
    let p := derive regs memoryMask addressMask addressShift
    (0 ≤ p.lodMin.toInt ∧ p.lodMin.toInt < 4096) ∧ (0 ≤ p.lodMax.toInt ∧ p.lodMax.toInt < 4096) := by
  have hlimit : ∀ n < 64, (Int32.ofNat (64 * n)).toInt = 64 * n := fun n hn => by
    rw [Int32.toInt_ofNat_of_lt (by omega)]
    omega
  have hfield : ∀ low, field (regs.get Reg.textureLod) low 6 < 64 := fun low => field_lt _ low 6
  have hmin := hlimit _ (hfield 0)
  have hmax := hlimit _ (hfield 6)
  have hmin' := hfield 0
  have hmax' := hfield 6
  simp only [derive, LodMode.decode]
  omega

end TexParams

namespace TextureUnit

/-- the level that a pixel asks for: the whole part of its level of detail, and no more than the last -/
def askedLevel (lod : Int) : Nat := min (lod / 256).toNat 8

theorem val_fetchLevel (p : TexParams) (lod : Int) : (fetchLevel p lod).val =
    min (if bit p.lodMask (lod / 256).toNat then (lod / 256).toNat else (lod / 256).toNat + 1) 8 := by
  refine Nat.mod_eq_of_lt ?_
  omega

/-- the levels that can be fetched for a pixel: those held, from the level that it asks for -/
def Eligible (p : TexParams) (lod : Int) (l : Nat) : Prop := askedLevel lod ≤ l ∧ bit p.lodMask l = true

variable {p : TexParams} {mode : LodMode} {lod : Int}

/-- there is a level to be fetched but from 8 on in a unit that holds the odd ones -/
theorem exists_eligible_iff (hp : p.lodMask = TexParams.levelsPresent mode) :
    (∃ l, Eligible p lod l) ↔ ¬ (mode.split = true ∧ mode.odd = true ∧ 8 * 256 ≤ lod) := by
  unfold Eligible askedLevel
  rw [hp]
  simp only [TexParams.bit_levelsPresent]
  constructor
  · rintro ⟨l, hasked, hl, hparity⟩ ⟨hsplit, hodd, hlod⟩
    have hl' := hparity hsplit
    rw [hodd, Bool.toNat_true] at hl'
    omega
  · intro hroom
    by_cases hodd : mode.split = true ∧ mode.odd = true
    · have hlod : lod < 8 * 256 := by
        by_contra hlod
        exact hroom ⟨hodd.1, hodd.2, by omega⟩
      exact ⟨7, by omega, by omega, fun _ => by simp [hodd.2]⟩
    · refine ⟨8, by omega, by omega, fun hsplit => ?_⟩
      simp only [hsplit, true_and] at hodd
      simp [hodd]

/-- **The level that is fetched is the first to be fetched for the pixel,** if there is one. -/
theorem fetchLevel_isLeast (hp : p.lodMask = TexParams.levelsPresent mode) (h : ∃ l, Eligible p lod l) :
    IsLeast {l | Eligible p lod l} (fetchLevel p lod).val := by
  have hlevel := val_fetchLevel p lod
  have hcount : ∀ {l}, bit p.lodMask l = true → l ≤ 8 := fun hl => by
    rw [hp, TexParams.bit_levelsPresent] at hl
    exact hl.1
  have hasked : ∀ {l}, Eligible p lod l → min (lod / 256).toNat 8 ≤ l := fun hl => hl.1
  by_cases hwhole : bit p.lodMask (lod / 256).toNat = true
  · -- the level that is asked for is held
    have hle := hcount hwhole
    rw [if_pos hwhole, Nat.min_eq_left hle] at hlevel
    rw [hlevel]
    refine ⟨⟨Nat.min_le_left _ _, hwhole⟩, fun l hl => ?_⟩
    have hl' := hasked hl
    omega
  rw [if_neg hwhole] at hlevel
  rcases Nat.lt_or_ge (lod / 256).toNat 8 with hlow | hhigh
  · -- it is not, but the next one is
    have hnext : bit p.lodMask ((lod / 256).toNat + 1) = true := by
      rw [hp] at hwhole ⊢
      exact TexParams.bit_levelsPresent_succ mode hlow hwhole
    rw [Nat.min_eq_left (by omega)] at hlevel
    rw [hlevel]
    refine ⟨⟨Nat.le_succ_of_le (Nat.min_le_left _ _), hnext⟩, fun l hl => ?_⟩
    have hother : l ≠ (lod / 256).toNat := fun heq => hwhole (heq ▸ hl.2)
    have hl' := hasked hl
    omega
  · -- there is no next one: what can be fetched is the last
    obtain ⟨held, hheld⟩ := h
    have hheld' := hasked hheld
    have hlast := hcount hheld.2
    have heq : held = 8 := by omega
    rw [Nat.min_eq_right (by omega), ← heq] at hlevel
    rw [hlevel]
    refine ⟨hheld, fun l hl => ?_⟩
    have hl' := hasked hl
    omega

/-! ## Samples -/

/-- the level of a pixel is between the limits, whatever the registers are; the upper limit wins if they are crossed -/
theorem pixelLod_range {u : TextureUnit} (hu : u.params = u.currentParams) (mode : TextureMode) (dither : Dither)
    (x lod : Int) : 0 ≤ pixelLod u.params mode dither x lod ∧ pixelLod u.params mode dither x lod < 4096 := by
  obtain ⟨hmin, hmax⟩ := TexParams.limits_derive u.regs u.memory.mask u.addressMask u.addressShift
  rw [hu]
  exact ⟨le_min (le_max_of_le_right hmin.1) hmax.1, (min_le_right _ _).trans_lt hmax.2⟩

/-- what is taken from a level for a pixel, by the filter for its level of detail -/
def texelFrom (u : TextureUnit) (mode : TextureMode) (level : Fin 9) (f : Footing) (lod : Int) : Argb :=
  let l := levelAt u.params mode.format level
  let filtered := if lod = u.params.lodMin.toInt then mode.magnifyBilinear else mode.minifyBilinear
  Argb.ofWord (if filtered then u.sampleBilinear mode l level.val f else u.samplePoint mode l level.val f)

/-- **A sample is fetched from the first level that is held.** For any registers, mode and coordinates: the level of
detail of a pixel is from 0 to 15.75, also if the limits are crossed; its texel is fetched from the first level that the
unit holds from there on, and from 8 on that is the last. There is such a level always but in a unit that holds the odd
ones, for a pixel from 8 on; the level is one of the nine then as well. -/
theorem sample_level {u : TextureUnit} (hu : u.params = u.currentParams) (mode : TextureMode) (x : Int)
    (dither : Dither) (c : TexCoords) (lodBase : Int) :
    let lod := (u.sample mode x dither c lodBase).2
    let level := u.levelOf mode x dither c lodBase
    let registers := LodMode.decode (u.regs.get Reg.textureLod)
    (u.sample mode x dither c lodBase).1 = u.texelFrom mode level (footing mode c lodBase) lod ∧
    0 ≤ lod ∧ lod < 4096 ∧ level.val ≤ 8 ∧
    ((∃ l, Eligible u.params lod l) → IsLeast {l | Eligible u.params lod l} level.val) ∧
    ((∃ l, Eligible u.params lod l) ↔ ¬ (registers.split = true ∧ registers.odd = true ∧ 8 * 256 ≤ lod)) := by
  intro lod level registers
  have hmask : u.params.lodMask = TexParams.levelsPresent registers := by rw [hu]; rfl
  obtain ⟨hlow, hhigh⟩ := pixelLod_range hu mode dither x (footing mode c lodBase).lod
  exact ⟨rfl, hlow, hhigh, Nat.le_of_lt_succ level.isLt, fetchLevel_isLeast hmask, exists_eligible_iff hmask⟩

/-- a unit that holds the odd levels, for levels of detail up to 8, with a red texel in memory after them -/
def oddLevels : TextureUnit :=
  { (initial .voodoo2 0 3).writeRegister Reg.textureLod 0xC0800 with memory := (Memory.zeroed 3).write8 4 0xE0 }.refresh

/-- level 2 is asked for and not held -/
theorem sample_level_three :
    let level := oddLevels.levelOf (.decode 0) 0 ⟨false, .four, 0⟩ ⟨0, 0, 0⟩ 512
    oddLevels.params = oddLevels.currentParams ∧
      IsLeast {l | Eligible oddLevels.params 512 l} level.val ∧ level = 3 := by
  intro level
  have hu : oddLevels.params = oddLevels.currentParams := rfl
  have hlod : (oddLevels.sample (.decode 0) 0 ⟨false, .four, 0⟩ ⟨0, 0, 0⟩ 512).2 = 512 := by decide +kernel
  have hsample := sample_level hu (.decode 0) 0 ⟨false, .four, 0⟩ ⟨0, 0, 0⟩ 512
  rw [hlod] at hsample
  obtain ⟨-, -, -, -, hleast, hexists⟩ := hsample
  exact ⟨hu, hleast (hexists.2 (by decide)), by decide +kernel⟩

/-- **There is no odd level from 8 on.** A unit that holds the odd levels takes a pixel's texel from level 8 there,
which it does not hold: what follows the last of its levels in memory. -/
theorem sample_beyond_odd_levels :
    let sampled := oddLevels.sample (.decode 0) 0 ⟨false, .four, 0⟩ ⟨0, 0, 0⟩ 2048
    oddLevels.params = oddLevels.currentParams ∧
      sampled = (⟨0xFF, 0xFF, 0, 0⟩, 2048) ∧
      oddLevels.levelOf (.decode 0) 0 ⟨false, .four, 0⟩ ⟨0, 0, 0⟩ 2048 = 8 ∧
      (bit oddLevels.params.lodMask 8 = false ∧ ¬ ∃ l, Eligible oddLevels.params 2048 l) ∧
      ∀ level : Fin 9, bit oddLevels.params.lodMask level.val = true →
        oddLevels.texelFrom (.decode 0) level ⟨0, 0, 2048⟩ 2048 = ⟨0xFF, 0, 0, 0⟩ := by
  intro sampled
  have hmask : oddLevels.params.lodMask = TexParams.levelsPresent (.decode 0xC0800) := rfl
  have hnone : ¬ ∃ l, Eligible oddLevels.params 2048 l := fun h => (exists_eligible_iff hmask).1 h (by decide)
  exact ⟨rfl, by decide +kernel, by decide +kernel, ⟨by decide +kernel, hnone⟩, by decide +kernel⟩

end TextureUnit
end Accel3D
