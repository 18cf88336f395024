/-
A triangle drawn pixel by pixel, each by itself.

On paper an iterated value lies on a plane: start + y dY + x dX, a whole number, with X and Y counted from the pixel of
vertex A. Drawing evaluates it at the start of a row and from there adds its X step from pixel to pixel, all in words that
wrap. Wrapping goes through sums and products, so the word at a pixel is the number of the plane there, wrapped once
(`step_directValues`, and by induction along the row `runPixels_direct`). That is so of each value and of each texture
stage, wherever the row starts, also left of vertex A, and nothing is carried from one row to the next.

Results: `pixels_eq_direct` (what enters the pipeline), `ordered_covered` (the order of the pixels), `draw_pixelwise` (a
whole triangle).
-/
import Accel3D.Proofs.Coverage

namespace Accel3D

/-! ## Words that wrap -/

/-- a signed word: the whole numbers from `-half` up to `half`, excluded; sums and products wrap, and a shift by four bits
is a sixteenth, rounded down -/
class SignedWord (α : Type) [Add α] [Mul α] [ShiftRight α] [OfNat α 4] where
  half : Int
  wrap : Int → α
  whole : α → Int
  wrap_add (m n : Int) : wrap (m + n) = wrap m + wrap n
  wrap_mul (m n : Int) : wrap (m * n) = wrap m * wrap n
  wrap_whole (v : α) : wrap (whole v) = v
  whole_wrap {n : Int} : -half ≤ n → n < half → whole (wrap n) = n
  whole_injective {v w : α} : whole v = whole w → v = w
  whole_shift (v : α) : whole (v >>> 4) = whole v / 16

instance SignedWord.int32 : SignedWord Int32 where
  half := 2 ^ 31
  wrap := Int32.ofInt
  whole := Int32.toInt
  wrap_add := Int32.ofInt_add
  wrap_mul := Int32.ofInt_mul
  wrap_whole := Int32.ofInt_toInt
  whole_wrap := Int32.toInt_ofInt_of_le
  whole_injective := Int32.toInt_inj.1
  whole_shift v := by
    have hword : (v >>> 4).toBitVec = v.toBitVec.sshiftRight 4 := by
      rw [Int32.toBitVec_shiftRight]
      rfl
    rw [← Int32.toInt_toBitVec, hword, BitVec.toInt_sshiftRight, Int.shiftRight_eq_div_pow]
    rfl

instance SignedWord.int64 : SignedWord Int64 where
  half := 2 ^ 63
  wrap := Int64.ofInt
  whole := Int64.toInt
  wrap_add := Int64.ofInt_add
  wrap_mul := Int64.ofInt_mul
  wrap_whole := Int64.ofInt_toInt
  whole_wrap := Int64.toInt_ofInt_of_le
  whole_injective := Int64.toInt_inj.1
  whole_shift v := by
    have hword : (v >>> 4).toBitVec = v.toBitVec.sshiftRight 4 := by
      rw [Int64.toBitVec_shiftRight]
      rfl
    rw [← Int64.toInt_toBitVec, hword, BitVec.toInt_sshiftRight, Int.shiftRight_eq_div_pow]
    rfl

/-! ## One value -/

namespace Gradient

open SignedWord

variable {α : Type} [Add α] [Mul α] [ShiftRight α] [OfNat α 4] [SignedWord α] (g : Gradient α)

/-- the number of the plane `x` pixels right of the start and `y` below it, wrapped -/
def direct (x y : Int) : α := wrap (whole g.start + y * whole g.dy + x * whole g.dx)

theorem valueAt_wrap (x y : Int) : g.valueAt (wrap x) (wrap y) = g.direct x y := by
  simp only [valueAt, direct, wrap_add, wrap_mul, wrap_whole]

theorem direct_add_dx (x y : Int) : g.direct x y + g.dx = g.direct (x + 1) y := by
  have hplane : whole g.start + y * whole g.dy + (x + 1) * whole g.dx =
      whole g.start + y * whole g.dy + x * whole g.dx + whole g.dx := by ring
  rw [direct, direct, hplane, wrap_add _ (whole g.dx), wrap_whole]

end Gradient

namespace TexGradients

def direct (g : TexGradients) (x y : Int) : TexCoords := ⟨g.s.direct x y, g.t.direct x y, g.w.direct x y⟩

theorem valueAt_wrap (g : TexGradients) (x y : Int) : g.valueAt (Int64.ofInt x) (Int64.ofInt y) = g.direct x y := by
  rw [valueAt, direct, ← g.s.valueAt_wrap, ← g.t.valueAt_wrap, ← g.w.valueAt_wrap]
  rfl

theorem stepX_direct (g : TexGradients) (x y : Int) : g.stepX (g.direct x y) = g.direct (x + 1) y := by
  simp only [stepX, direct, Gradient.direct_add_dx]

end TexGradients

/-! ## A pixel -/

namespace Raster

def directValues (r : Raster) (x y : Int) : Iterators :=
  let t := r.triangle
  let dx := x - t.a.x.toInt / 16
  let dy := y - t.a.y.toInt / 16
  { red := t.red.direct dx dy
    green := t.green.direct dx dy
    blue := t.blue.direct dx dy
    alpha := t.alpha.direct dx dy
    z := t.z.direct dx dy
    w := t.w.direct dx dy
    coords := r.stages.map fun s => s.unit.gradients.direct dx dy }

/-- at the start of a row every value is evaluated -/
theorem valuesAt_eq_directValues (r : Raster) (x y : Int) : r.valuesAt x y = r.directValues x y := by
  simp only [directValues, ← Gradient.valueAt_wrap, ← TexGradients.valueAt_wrap]
  rfl

/-- **The step of a pixel** leads from the values of one pixel to those of the next. -/
theorem step_directValues (r : Raster) (x y : Int) : r.step (r.directValues x y) = r.directValues (x + 1) y := by
  have hx : x + 1 - r.triangle.a.x.toInt / 16 = x - r.triangle.a.x.toInt / 16 + 1 := by ring
  simp only [step, directValues, hx, Gradient.direct_add_dx, List.zipWith_map_right, List.zipWith_self,
    TexGradients.stepX_direct]

/-- a pixel as it enters the pipeline, by its own values -/
def directPixel (r : Raster) (x y : Int) : TexturedPixel :=
  ⟨⟨x, y, screenRow r.flip y⟩, r.fragment (r.directValues x y),
    r.texel x (Dither.ofMode r.pipeline.rules.frame y) (r.directValues x y).coords⟩

theorem drawTextured_directPixel (r : Raster) (x y : Int) (c : Canvas) :
    r.pipeline.drawTextured c (r.directPixel x y) =
      r.drawPixel x y (Dither.ofMode r.pipeline.rules.frame y) (r.directValues x y) c :=
  (r.drawPixel_eq x y _ _ c).symm

/-! ## Rows and triangles -/

/-- a row, by induction on the number of its pixels -/
theorem runPixels_direct (r : Raster) (y : Int) (n : Nat) (x : Int) :
    r.runPixels y (Dither.ofMode r.pipeline.rules.frame y) n x (r.directValues x y) =
      (List.range n).map fun (j : Nat) => r.directPixel (x + j) y := by
  induction n generalizing x with
  | zero => rfl
  | succ n ih =>
    rw [runPixels, step_directValues, ih, List.range_succ_eq_map, List.map_cons, List.map_map]
    congr 1
    · rw [Nat.cast_zero, add_zero]
      rfl
    · refine List.map_congr_left fun j _ => ?_
      rw [Function.comp_apply, Nat.cast_succ, add_right_comm, add_assoc x]

/-- **What enters the pipeline** are the covered pixels, each with its own values. -/
theorem pixels_eq_direct (r : Raster) : r.pixels = (covered r.spans).map fun p => r.directPixel p.1 p.2 := by
  rw [pixels, covered, List.map_flatMap]
  congr 1
  funext s
  rw [spanPixels, valuesAt_eq_directValues, runPixels_direct, List.map_map]
  rfl

/-- the loop over the covered pixels that evaluates each pixel's values anew and counts the pixels -/
def drawPixelwise (r : Raster) (c : Canvas) : Canvas × UInt32 :=
  (covered r.spans).foldl (fun (s : Canvas × UInt32) p =>
    (r.drawPixel p.1 p.2 (Dither.ofMode r.pipeline.rules.frame p.2) (r.directValues p.1 p.2) s.1, s.2 + 1)) (c, 0)

end Raster

theorem foldl_counted {α β : Type} (f : β → α → β) (l : List α) (b : β) (n : UInt32) :
    l.foldl (fun (s : β × UInt32) a => (f s.1 a, s.2 + 1)) (b, n) = (l.foldl f b, n + UInt32.ofNat l.length) := by
  induction l generalizing b n with
  | nil =>
    show (b, n) = (b, n + 0)
    rw [UInt32.add_zero]
  | cons a l ih =>
    have hcount : n + 1 + UInt32.ofNat l.length = n + UInt32.ofNat (l.length + 1) := by
      rw [UInt32.ofNat_add, UInt32.add_assoc, UInt32.add_comm 1]
      rfl
    rw [List.foldl_cons, List.foldl_cons, ih, hcount, List.length_cons]

/-- the covered pixels go from row to row downwards, and in a row from left to right -/
theorem ordered_covered (a b c : Vertex) :
    (covered (triangleSpans a b c)).Pairwise fun p q => p.2 < q.2 ∨ p.2 = q.2 ∧ p.1 < q.1 := by
  rw [covered, List.pairwise_flatMap]
  constructor
  · intro s _
    rw [List.pairwise_map]
    exact List.pairwise_lt_range.imp fun hij => .inr ⟨rfl, by omega⟩
  · have hrows : ((triangleSpans a b c).map Span.y).Pairwise (· < ·) := by
      obtain ⟨first, n, hrows⟩ := rows_triangleSpans a b c
      rw [hrows, List.pairwise_map]
      exact List.pairwise_lt_range.imp fun hij => by omega
    rw [List.pairwise_map] at hrows
    refine hrows.imp fun {s s'} hss p hp q hq => .inl ?_
    obtain ⟨i, -, rfl⟩ := List.mem_map.1 hp
    obtain ⟨j, -, rfl⟩ := List.mem_map.1 hq
    exact hss

/-- **Stepping is direct evaluation.** Drawing a triangle leaves the memory, the counters and the stipple register as
the loop does that visits its covered pixels row by row, each row from left to right, and evaluates every value of every
pixel from its plane; the number of pixels that drawing gives is the number that the loop counts, and is a word. -/
theorem draw_pixelwise (r : Raster) (c : Canvas) :
    r.drawPixelwise c = (r.draw c, UInt32.ofNat r.pixelCount) ∧ r.pixelCount < 2 ^ 32 ∧
      (covered r.spans).Pairwise fun p q => p.2 < q.2 ∨ p.2 = q.2 ∧ p.1 < q.1 := by
  refine ⟨?_, coverage_lt r.triangle.a r.triangle.b r.triangle.c, ordered_covered _ _ _⟩
  rw [Raster.drawPixelwise, foldl_counted (fun (c : Canvas) (p : Int × Int) =>
    r.drawPixel p.1 p.2 (Dither.ofMode r.pipeline.rules.frame p.2) (r.directValues p.1 p.2) c), length_covered,
    UInt32.zero_add, Raster.draw_eq, Raster.pixels_eq_direct, Pipeline.drawAll, List.foldl_map]
  simp only [Raster.drawTextured_directPixel]
  rfl

end Accel3D
