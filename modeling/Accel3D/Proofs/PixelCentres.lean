/-
Parameters at the centres of pixels.

The subpixel correction moves a start value from vertex A to the centre of A's pixel, up to eight sixteenths of a pixel
each way. Steps within the range of their registers are so small that the sum of the two products does not wrap
(`StepsWithin.abs_moved_le`), so the shift divides the whole sum by 16 and rounds it down. From there to another pixel it
goes by whole steps, each of them sixteen sixteenths, and whole numbers go through a quotient that is rounded down: the
one rounding at the start is the rounding of the whole distance from vertex A to the pixel's centre (`valueAt_moved`).

Results: `InRange.writePixel`, `InRange.writeCoord` and `InRange.write` (registers keep steps in range),
`valuesAt_atCentre` (the triangle command), `values_at_centres` (all of it).
-/
import Accel3D.Proofs.DirectValues
import Accel3D.Proofs.HostSide
import Accel3D.Triangle.Parameter

namespace Accel3D

/-! ## One parameter -/

/-- a vertex is at most eight sixteenths from the centre of its pixel, each way -/
theorem Vertex.abs_toCentre_le (v : Vertex) : |v.toCentre.1| ≤ 8 ∧ |v.toCentre.2| ≤ 8 := by
  simp only [toCentre, abs_le]
  omega

theorem moved_div (a : Vertex) (start dx dy x y : Int) :
    start + (a.toCentre.2 * dy + a.toCentre.1 * dx) / 16 + (y - a.pixel.2) * dy + (x - a.pixel.1) * dx =
      start + ((16 * x + 8 - a.x.toInt) * dx + (16 * y + 8 - a.y.toInt) * dy) / 16 := by
  have hx : a.toCentre.1 + 16 * (x - a.pixel.1) = 16 * x + 8 - a.x.toInt := by
    simp only [Vertex.toCentre, Vertex.pixel]
    omega
  have hy : a.toCentre.2 + 16 * (y - a.pixel.2) = 16 * y + 8 - a.y.toInt := by
    simp only [Vertex.toCentre, Vertex.pixel]
    omega
  rw [add_assoc, add_assoc, ← Int.add_mul_ediv_right _ _ (by norm_num : (16 : Int) ≠ 0), ← hx, ← hy]
  congr 2
  ring

namespace Gradient

open SignedWord

variable {α : Type} [Add α] [Mul α] [ShiftRight α] [OfNat α 4] [SignedWord α] {bound : Int}

/-- X and Y steps that are no larger than a bound -/
structure StepsWithin (g : Gradient α) (bound : Int) : Prop where
  dx : |whole g.dx| ≤ bound
  dy : |whole g.dy| ≤ bound

/-- one term replaced by a value within the bound; a start value may be any -/
theorem StepsWithin.replace {g : Gradient α} (h : g.StepsWithin bound) (term : GradientTerm) {v : α}
    (hv : |whole v| ≤ bound) : (term.replace g v).StepsWithin bound := by
  cases term with
  | start => exact ⟨h.dx, h.dy⟩
  | dx => exact ⟨hv, h.dy⟩
  | dy => exact ⟨h.dx, hv⟩

/-- the change from a vertex to the centre of its pixel -/
theorem StepsWithin.abs_moved_le {g : Gradient α} (h : g.StepsWithin bound) (a : Vertex) :
    |a.toCentre.2 * whole g.dy + a.toCentre.1 * whole g.dx| ≤ 16 * bound := by
  obtain ⟨hx, hy⟩ := a.abs_toCentre_le
  calc |a.toCentre.2 * whole g.dy + a.toCentre.1 * whole g.dx|
      ≤ |a.toCentre.2| * |whole g.dy| + |a.toCentre.1| * |whole g.dx| := by
        rw [← abs_mul, ← abs_mul]
        exact abs_add_le _ _
    _ ≤ 8 * bound + 8 * bound :=
        add_le_add (mul_le_mul hy h.dy (abs_nonneg _) (by norm_num)) (mul_le_mul hx h.dx (abs_nonneg _) (by norm_num))
    _ = 16 * bound := by ring

/-- the shift of the correction does not wrap -/
theorem shift_eq {g : Gradient α} (h : g.StepsWithin bound) (hbound : 16 * bound < half α) (a : Vertex) :
    g.shift (wrap a.toCentre.1) (wrap a.toCentre.2) =
      wrap ((a.toCentre.2 * whole g.dy + a.toCentre.1 * whole g.dx) / 16) := by
  have hmoved := abs_le.1 (h.abs_moved_le a)
  have hsum : wrap a.toCentre.2 * g.dy + wrap a.toCentre.1 * g.dx =
      wrap (a.toCentre.2 * whole g.dy + a.toCentre.1 * whole g.dx) := by
    rw [wrap_add, wrap_mul, wrap_mul, wrap_whole, wrap_whole]
  apply whole_injective
  rw [shift, hsum, whole_shift]
  generalize a.toCentre.2 * whole g.dy + a.toCentre.1 * whole g.dx = moved at hmoved ⊢
  rw [whole_wrap (by omega) (by omega), whole_wrap (by omega) (by omega)]

/-- the number of the plane through vertex A at the centre of a pixel, rounded down and wrapped -/
def centre (g : Gradient α) (a : Vertex) (x y : Int) : α :=
  wrap (whole g.start + ((16 * x + 8 - a.x.toInt) * whole g.dx + (16 * y + 8 - a.y.toInt) * whole g.dy) / 16)

/-- **A corrected parameter,** at a pixel. -/
theorem valueAt_moved {g : Gradient α} (h : g.StepsWithin bound) (hbound : 16 * bound < half α) (a : Vertex) (x y : Int) :
    { g with start := g.start + g.shift (wrap a.toCentre.1) (wrap a.toCentre.2) }.valueAt
      (wrap (x - a.pixel.1)) (wrap (y - a.pixel.2)) = g.centre a x y := by
  rw [centre, ← moved_div]
  simp only [valueAt, shift_eq h hbound, wrap_add, wrap_mul, wrap_whole]

theorem recentre32_valueAt {g : Gradient Int32} (h : g.StepsWithin bound) (hbound : 16 * bound < 2 ^ 31) (a : Vertex)
    (x y : Int) : (g.recentre32 a.toCentre).valueAt (Int32.ofInt (x - a.pixel.1)) (Int32.ofInt (y - a.pixel.2)) =
      g.centre a x y :=
  valueAt_moved h hbound a x y

theorem recentre64_valueAt {g : Gradient Int64} (h : g.StepsWithin bound) (hbound : 16 * bound < 2 ^ 63) (a : Vertex)
    (x y : Int) : (g.recentre64 a.toCentre).valueAt (Int64.ofInt (x - a.pixel.1)) (Int64.ofInt (y - a.pixel.2)) =
      g.centre a x y :=
  valueAt_moved h hbound a x y

end Gradient

/-! ## The parameters of a triangle -/

/-- steps in the range of their registers: colors have 24 bits with a sign, Z has fewer than 28 bits without it, and W
is a word of 32 bits moved up by two -/
structure TriangleParameters.InRange (t : TriangleParameters) : Prop where
  red : t.red.StepsWithin (2 ^ 23)
  green : t.green.StepsWithin (2 ^ 23)
  blue : t.blue.StepsWithin (2 ^ 23)
  alpha : t.alpha.StepsWithin (2 ^ 23)
  z : t.z.StepsWithin (2 ^ 27 - 1)
  w : t.w.StepsWithin (2 ^ 45)

/-- steps in the range of their registers: words of 32 bits moved up by 14 at most -/
structure TexGradients.InRange (g : TexGradients) : Prop where
  s : g.s.StepsWithin (2 ^ 45)
  t : g.t.StepsWithin (2 ^ 45)
  w : g.w.StepsWithin (2 ^ 45)

theorem PixelParameter.abs_integer_le (p : PixelParameter) (hp : p ≠ .z) (data : UInt32) :
    |(p.value .integer data).toInt| ≤ 2 ^ 23 := by
  have hvalue : p.value .integer data = Int32.ofInt (signed data 24) := by
    cases p with
    | z => exact absurd rfl hp
    | _ => rfl
  have hlow := signed_lower data 24
  have hhigh := signed_upper data 24
  rw [hvalue, abs_le]
  generalize signed data 24 = v at hlow hhigh ⊢
  rw [Int32.toInt_ofInt_of_le (by omega) (by omega)]
  omega

/-- a word of 32 bits keeps its value when it is moved up in 64 bits -/
theorem toInt_mul_toInt64 (v : Int32) (k : Int64) (hk : 0 ≤ k.toInt ∧ k.toInt ≤ 2 ^ 14) :
    |(v.toInt64 * k).toInt| ≤ 2 ^ 45 := by
  have hv : |v.toInt| ≤ 2 ^ 31 := abs_le.2 ⟨v.le_toInt, v.toInt_lt.le⟩
  have hproduct : |v.toInt * k.toInt| ≤ 2 ^ 45 := by
    calc |v.toInt * k.toInt| = |v.toInt| * |k.toInt| := abs_mul _ _
      _ ≤ 2 ^ 31 * 2 ^ 14 := mul_le_mul hv (abs_le.2 ⟨by omega, hk.2⟩) (abs_nonneg _) (by norm_num)
      _ = 2 ^ 45 := by norm_num
  have hbounds := abs_le.1 hproduct
  rw [Int64.toInt_mul, Int32.toInt_toInt64, Int.bmod_eq_of_le (by omega) (by omega)]
  exact hproduct

/-- a coordinate's integer register has 32 bits, moved up by two or by 14 -/
theorem CoordParameter.abs_integer_le (p : CoordParameter) (data : UInt32) : |(p.value .integer data).toInt| ≤ 2 ^ 45 := by
  have hvalue : ∃ k : Int64, (0 ≤ k.toInt ∧ k.toInt ≤ 2 ^ 14) ∧ p.value .integer data = data.toInt32.toInt64 * k := by
    have hshift : ∀ (v : Int64) (n : Nat), v.toBitVec <<< n = v.toBitVec * BitVec.twoPow 64 n := fun v n =>
      BitVec.shiftLeft_eq_mul_twoPow _ _
    cases p with
    | w =>
      refine ⟨4, by decide, ?_⟩
      rw [← Int64.toBitVec_inj]
      exact hshift _ 2
    | _ =>
      refine ⟨16384, by decide, ?_⟩
      rw [← Int64.toBitVec_inj]
      exact hshift _ 14
  obtain ⟨k, hk, hvalue⟩ := hvalue
  rw [hvalue]
  exact toInt_mul_toInt64 _ k hk

/-- **Integer registers keep the steps in range,** Z's if what is written is. -/
theorem TriangleParameters.InRange.writePixel {t : TriangleParameters} (h : t.InRange) (p : PixelParameter)
    (term : GradientTerm) (data : UInt32) (hz : p = .z → |data.toInt32.toInt| ≤ 2 ^ 27 - 1) :
    (t.writePixel p term (p.value .integer data)).InRange := by
  cases p with
  | red => exact { h with red := h.red.replace term (PixelParameter.red.abs_integer_le (by decide) data) }
  | green => exact { h with green := h.green.replace term (PixelParameter.green.abs_integer_le (by decide) data) }
  | blue => exact { h with blue := h.blue.replace term (PixelParameter.blue.abs_integer_le (by decide) data) }
  | alpha => exact { h with alpha := h.alpha.replace term (PixelParameter.alpha.abs_integer_le (by decide) data) }
  | z => exact { h with z := h.z.replace term (hz rfl) }

/-- integer registers keep the steps of W in range -/
theorem TriangleParameters.InRange.writeCoord {t : TriangleParameters} (h : t.InRange) (p : CoordParameter)
    (term : GradientTerm) (data : UInt32) : (t.writeCoord p term (p.value .integer data)).InRange := by
  cases p with
  | w => exact { h with w := h.w.replace term (CoordParameter.w.abs_integer_le data) }
  | _ => exact h

/-- integer registers keep the steps of the coordinates in range -/
theorem TexGradients.InRange.write {g : TexGradients} (h : g.InRange) (p : CoordParameter) (term : GradientTerm)
    (data : UInt32) : (g.write p term (p.value .integer data)).InRange := by
  cases p with
  | s => exact { h with s := h.s.replace term (CoordParameter.s.abs_integer_le data) }
  | t => exact { h with t := h.t.replace term (CoordParameter.t.abs_integer_le data) }
  | w => exact { h with w := h.w.replace term (CoordParameter.w.abs_integer_le data) }

/-- a pixel's parameters after a correction: those of its centre, each if its own steps are in range -/
structure TriangleParameters.CentredAt (t moved : TriangleParameters) (x y : Int) : Prop where
  red : t.red.StepsWithin (2 ^ 23) →
    moved.red.valueAt (Int32.ofInt (x - t.a.pixel.1)) (Int32.ofInt (y - t.a.pixel.2)) = t.red.centre t.a x y
  green : t.green.StepsWithin (2 ^ 23) →
    moved.green.valueAt (Int32.ofInt (x - t.a.pixel.1)) (Int32.ofInt (y - t.a.pixel.2)) = t.green.centre t.a x y
  blue : t.blue.StepsWithin (2 ^ 23) →
    moved.blue.valueAt (Int32.ofInt (x - t.a.pixel.1)) (Int32.ofInt (y - t.a.pixel.2)) = t.blue.centre t.a x y
  alpha : t.alpha.StepsWithin (2 ^ 23) →
    moved.alpha.valueAt (Int32.ofInt (x - t.a.pixel.1)) (Int32.ofInt (y - t.a.pixel.2)) = t.alpha.centre t.a x y
  z : t.z.StepsWithin (2 ^ 27 - 1) →
    moved.z.valueAt (Int32.ofInt (x - t.a.pixel.1)) (Int32.ofInt (y - t.a.pixel.2)) = t.z.centre t.a x y
  w : t.w.StepsWithin (2 ^ 45) →
    moved.w.valueAt (Int64.ofInt (x - t.a.pixel.1)) (Int64.ofInt (y - t.a.pixel.2)) = t.w.centre t.a x y

theorem TriangleParameters.centredAt_recentre (t : TriangleParameters) (x y : Int) : t.CentredAt t.recentre x y where
  red h := Gradient.recentre32_valueAt h (by norm_num) t.a x y
  green h := Gradient.recentre32_valueAt h (by norm_num) t.a x y
  blue h := Gradient.recentre32_valueAt h (by norm_num) t.a x y
  alpha h := Gradient.recentre32_valueAt h (by norm_num) t.a x y
  z h := Gradient.recentre32_valueAt h (by norm_num) t.a x y
  w h := Gradient.recentre64_valueAt h (by norm_num) t.a x y

namespace TexGradients

def centre (g : TexGradients) (a : Vertex) (x y : Int) : TexCoords :=
  ⟨g.s.centre a x y, g.t.centre a x y, g.w.centre a x y⟩

structure CentredAt (g moved : TexGradients) (a : Vertex) (x y : Int) : Prop where
  s : g.s.StepsWithin (2 ^ 45) →
    (moved.valueAt (Int64.ofInt (x - a.pixel.1)) (Int64.ofInt (y - a.pixel.2))).s = g.s.centre a x y
  t : g.t.StepsWithin (2 ^ 45) →
    (moved.valueAt (Int64.ofInt (x - a.pixel.1)) (Int64.ofInt (y - a.pixel.2))).t = g.t.centre a x y
  w : g.w.StepsWithin (2 ^ 45) →
    (moved.valueAt (Int64.ofInt (x - a.pixel.1)) (Int64.ofInt (y - a.pixel.2))).w = g.w.centre a x y

theorem centredAt_recentre (g : TexGradients) (a : Vertex) (x y : Int) : g.CentredAt (g.recentre a.toCentre) a x y where
  s h := Gradient.recentre64_valueAt h (by norm_num) a x y
  t h := Gradient.recentre64_valueAt h (by norm_num) a x y
  w h := Gradient.recentre64_valueAt h (by norm_num) a x y

theorem InRange.recentre_valueAt {g : TexGradients} (h : g.InRange) (a : Vertex) (x y : Int) :
    (g.recentre a.toCentre).valueAt (Int64.ofInt (x - a.pixel.1)) (Int64.ofInt (y - a.pixel.2)) = g.centre a x y := by
  have hcentred := g.centredAt_recentre a x y
  rw [centre, ← hcentred.s h.s, ← hcentred.t h.t, ← hcentred.w h.w]

end TexGradients

namespace Raster

/-- the iterated values at the centre of a pixel -/
def centreValues (r : Raster) (x y : Int) : Iterators :=
  let t := r.triangle
  { red := t.red.centre t.a x y
    green := t.green.centre t.a x y
    blue := t.blue.centre t.a x y
    alpha := t.alpha.centre t.a x y
    z := t.z.centre t.a x y
    w := t.w.centre t.a x y
    coords := r.stages.map fun s => s.unit.gradients.centre t.a x y }

/-- a triangle whose start values, and those of its stages, were moved to the centre of vertex A's pixel -/
structure Recentred (r r' : Raster) : Prop where
  triangle : r'.triangle = r.triangle.recentre
  gradients : r'.stages.map (fun s => s.unit.gradients) =
    r.stages.map fun s => s.unit.gradients.recentre r.triangle.a.toCentre

/-- **A corrected triangle** has the values of pixel centres. -/
theorem Recentred.valuesAt {r r' : Raster} (h : r.Recentred r') (hr : r.triangle.InRange)
    (hstages : ∀ s ∈ r.stages, s.unit.gradients.InRange) (x y : Int) : r'.valuesAt x y = r.centreValues x y := by
  have hcoords : ∀ dx dy : Int64, (r'.stages.map fun s => s.unit.gradients.valueAt dx dy) =
      r.stages.map fun s => (s.unit.gradients.recentre r.triangle.a.toCentre).valueAt dx dy := by
    intro dx dy
    have hmapped := congrArg (List.map fun g : TexGradients => g.valueAt dx dy) h.gradients
    simpa only [List.map_map, Function.comp_def] using hmapped
  have hcentred := r.triangle.centredAt_recentre x y
  rw [Raster.valuesAt, centreValues, ← hcentred.red hr.red, ← hcentred.green hr.green, ← hcentred.blue hr.blue,
    ← hcentred.alpha hr.alpha, ← hcentred.z hr.z, ← hcentred.w hr.w, h.triangle]
  simp only [hcoords]
  congr 1
  exact List.map_congr_left fun s hs => (hstages s hs).recentre_valueAt r.triangle.a x y

end Raster

/-! ## The triangle command -/

namespace TextureUnit

theorem gradients_refreshAll (u : TextureUnit) : u.refreshAll.gradients = u.gradients := by
  unfold refreshAll refresh
  split <;> rfl

theorem refreshAll_setGradients (u : TextureUnit) (g : TexGradients) :
    { u with gradients := g }.refreshAll = { u.refreshAll with gradients := g } := by
  unfold refreshAll refresh
  by_cases hstale : u.stale = true
  · rw [if_pos hstale, if_pos hstale]
    rfl
  · rw [if_neg hstale, if_neg hstale]
    rfl

end TextureUnit

namespace Chip

/-- the triangle of the current parameters, once the texture units are ready for it -/
def readyRaster (c : Chip) (n : Nat) (base : UInt32) : Raster :=
  (c.modifyTextures n TextureUnit.refreshAll).currentRaster n base

/-- the steps of all parameters are in the range of their registers -/
structure InRange (c : Chip) : Prop where
  triangle : c.frame.triangle.InRange
  textures : ∀ u ∈ c.textures, u.gradients.InRange

/-- the units that texture a triangle, from the far one to the near one, are those of the first `n` that are on -/
theorem gradients_readyRaster (c : Chip) (n : Nat) (base : UInt32) :
    (c.readyRaster n base).stages.map (fun s => s.unit.gradients) =
      (List.range n).reverse.filterMap fun i => c.textures[i]?.bind fun u =>
        u.refreshAll.triangleLod.map fun _ => u.gradients := by
  show List.map _ (List.filterMap _ _) = _
  rw [List.map_filterMap]
  refine List.filterMap_congr fun i hi => ?_
  have hi : i < n := by simpa using hi
  simp only [modifyTextures, Array.getElem?_mapIdx, if_pos hi]
  cases c.textures[i]? with
  | none => rfl
  | some u =>
    rw [Option.map_some, Option.bind_some, ← u.gradients_refreshAll]
    show Option.map _ (u.refreshAll.triangleLod.bind _) = _
    cases u.refreshAll.triangleLod <;> rfl

/-- moving the start values moves those of the triangle, and neither takes a unit out nor brings one in -/
theorem recentred_readyRaster (c : Chip) (n : Nat) (base : UInt32) :
    (c.readyRaster n base).Recentred ((c.recentre n).readyRaster n base) where
  triangle := rfl
  gradients := by
    have hmoved : ((c.readyRaster n base).stages.map fun s =>
        s.unit.gradients.recentre (c.readyRaster n base).triangle.a.toCentre) =
        ((c.readyRaster n base).stages.map fun s => s.unit.gradients).map fun g =>
          g.recentre c.frame.triangle.a.toCentre := by
      rw [List.map_map]
      rfl
    rw [hmoved, gradients_readyRaster, gradients_readyRaster, List.map_filterMap]
    refine List.filterMap_congr fun i hi => ?_
    have hi : i < n := by simpa using hi
    have htexture : (c.recentre n).textures[i]? = c.textures[i]?.map fun u =>
        { u with gradients := u.gradients.recentre c.frame.triangle.a.toCentre } := by
      show (c.textures.mapIdx _)[i]? = _
      rw [Array.getElem?_mapIdx]
      simp only [if_pos hi]
    rw [htexture]
    cases c.textures[i]? with
    | none => rfl
    | some u =>
      have hlod : ∀ v : TextureUnit, { v with gradients := u.gradients.recentre c.frame.triangle.a.toCentre }.triangleLod =
          { v with gradients := u.gradients }.triangleLod := fun v => rfl
      simp only [Option.map_some, Option.bind_some, TextureUnit.refreshAll_setGradients, hlod, Option.map_map]
      rw [← TextureUnit.refreshAll_setGradients]
      rfl

theorem InRange.readyRaster {c : Chip} (h : c.InRange) (n : Nat) (base : UInt32) :
    ∀ s ∈ (c.readyRaster n base).stages, s.unit.gradients.InRange := by
  intro s hs
  have hmem := List.mem_map_of_mem (f := fun s : TextureStage => s.unit.gradients) hs
  rw [gradients_readyRaster] at hmem
  obtain ⟨i, -, hi⟩ := List.mem_filterMap.1 hmem
  obtain ⟨u, hu, hlod⟩ := Option.bind_eq_some_iff.1 hi
  obtain ⟨lod, -, hgradients⟩ := Option.map_eq_some_iff.1 hlod
  rw [← hgradients]
  exact h.textures u (Array.mem_of_getElem? hu)

theorem canvas_atCentre (c : Chip) : c.atCentre.canvas = c.canvas := by
  unfold atCentre
  split <;> rfl

theorem canvas_drawTriangle (c : Chip) (base : UInt32) (hbase : c.atCentre.triangleBase = some base) :
    c.drawTriangle.canvas = (c.atCentre.readyRaster c.textureCount base).draw c.canvas := by
  have hcounted : ∀ d : Chip, (d.modifyFrame fun f => { f with trianglesOut := f.trianglesOut + 1 }).canvas = d.canvas :=
    fun _ => rfl
  have hready : ∀ (d : Chip) (n : Nat) (m : ModeCache),
      ((d.modifyTextures n TextureUnit.refreshAll).withModes m).canvas = d.canvas := fun _ _ _ => rfl
  rw [drawTriangle_eq, hbase]
  show ((c.atCentre.modifyTextures c.textureCount TextureUnit.refreshAll).rasterize c.textureCount base).canvas = _
  rw [rasterize_eq, paintRaster, hcounted, canvas_paint, hready, canvas_atCentre, readyRaster]

/-- **The triangle command** that is asked for the correction draws with the values of pixel centres. -/
theorem valuesAt_atCentre (c : Chip) (hadjust : (ColorPath.decode (c.regs.get Reg.fbzColorPath)).subpixelAdjust = true)
    (h : c.InRange) (base : UInt32) (x y : Int) :
    (c.atCentre.readyRaster c.textureCount base).valuesAt x y = (c.readyRaster c.textureCount base).centreValues x y := by
  rw [atCentre, if_pos hadjust]
  exact (c.recentred_readyRaster c.textureCount base).valuesAt h.triangle (h.readyRaster c.textureCount base) x y

end Chip

/-- **Corrected parameters are those of pixel centres.** A parameter with steps in the range of its register, whose start
value was moved to the centre of vertex A's pixel, has at each pixel the number of its plane through vertex A at the
pixel's centre, rounded down once and wrapped: the parameters of a triangle, the coordinates of a texture unit, and so
every value of every pixel that a triangle command draws when it is asked for the correction. -/
theorem values_at_centres :
    (∀ (t : TriangleParameters) (x y : Int), t.CentredAt t.recentre x y) ∧
    (∀ (g : TexGradients) (a : Vertex) (x y : Int), g.CentredAt (g.recentre a.toCentre) a x y) ∧
    ∀ c : Chip, (ColorPath.decode (c.regs.get Reg.fbzColorPath)).subpixelAdjust = true → c.InRange →
      ∀ base, c.atCentre.triangleBase = some base →
        c.drawTriangle.canvas = (c.atCentre.readyRaster c.textureCount base).draw c.canvas ∧
        ∀ x y, (c.atCentre.readyRaster c.textureCount base).valuesAt x y =
          (c.readyRaster c.textureCount base).centreValues x y := by
  refine ⟨TriangleParameters.centredAt_recentre, TexGradients.centredAt_recentre, fun c hadjust h base hbase => ?_⟩
  exact ⟨c.canvas_drawTriangle base hbase, c.valuesAt_atCentre hadjust h base⟩

/-- a Banshee set up for a triangle from (161, 3), seven sixteenths left of its pixel's centre and five above it, with red
rising along X and twice as much along Y -/
def slantedTriangle : Chip :=
  let calls : List Call := [.writeRegister 0x7C 0x100, .writeRegister 0x44 0x200, .writeRegister 0x41 0x4000000,
    .writeRegister 0x02 161, .writeRegister 0x03 3, .writeRegister 0x05 264, .writeRegister 0x06 417,
    .writeRegister 0x08 0x10000, .writeRegister 0x10 0x10000, .writeRegister 0x18 0x20000]
  ((Chip.initial { ChipConfig.standard with revision := .banshee }).runCalls calls).1

/-- red at the pixel of its vertex A and at one left of it, and a coordinate that falls along Y -/
theorem values_at_centres_slanted :
    let t := slantedTriangle.frame.triangle
    let g : TexGradients := ⟨⟨0, 32, 0⟩, ⟨0, 0, -16⟩, ⟨0, 16, 0⟩⟩
    slantedTriangle.InRange ∧ g.InRange ∧ slantedTriangle.atCentre.triangleBase = some 0 ∧
    t.recentre.red.valueAt (Int32.ofInt (10 - t.a.pixel.1)) (Int32.ofInt (0 - t.a.pixel.2)) = t.red.centre t.a 10 0 ∧
    t.red.centre t.a 10 0 = 0x21000 ∧ t.red.centre t.a 9 0 = 0x11000 ∧
    ((g.recentre t.a.toCentre).valueAt (Int64.ofInt (10 - t.a.pixel.1)) (Int64.ofInt (0 - t.a.pixel.2))).t =
      g.t.centre t.a 10 0 ∧ g.t.centre t.a 10 0 = -5 ∧
    (slantedTriangle.atCentre.readyRaster slantedTriangle.textureCount 0).valuesAt 9 0 =
      (slantedTriangle.readyRaster slantedTriangle.textureCount 0).centreValues 9 0 := by
  intro t g
  have htriangle : t.InRange := by
    refine ⟨⟨?_, ?_⟩, ⟨?_, ?_⟩, ⟨?_, ?_⟩, ⟨?_, ?_⟩, ⟨?_, ?_⟩, ⟨?_, ?_⟩⟩ <;> decide +kernel
  have hzero : TexGradients.zero.InRange := by
    refine ⟨⟨?_, ?_⟩, ⟨?_, ?_⟩, ⟨?_, ?_⟩⟩ <;> decide +kernel
  have htextures : ∀ u ∈ slantedTriangle.textures, u.gradients = TexGradients.zero := by decide +kernel
  have hchip : slantedTriangle.InRange := ⟨htriangle, fun u hu => htextures u hu ▸ hzero⟩
  have hg : g.InRange := by
    refine ⟨⟨?_, ?_⟩, ⟨?_, ?_⟩, ⟨?_, ?_⟩⟩ <;> decide +kernel
  have hadjust : (ColorPath.decode (slantedTriangle.regs.get Reg.fbzColorPath)).subpixelAdjust = true := by
    decide +kernel
  have hbase : slantedTriangle.atCentre.triangleBase = some 0 := by decide +kernel
  obtain ⟨hparameters, hcoords, hcommand⟩ := values_at_centres
  exact ⟨hchip, hg, hbase, (hparameters t 10 0).red htriangle.red, by decide +kernel, by decide +kernel,
    (hcoords g t.a 10 0).t hg.t, by decide +kernel, (hcommand slantedTriangle hadjust hchip 0 hbase).2 9 0⟩

end Accel3D
