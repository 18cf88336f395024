/-
Triangles without area.

Three vertices on one line give three edges whose slopes are one fraction, cut to one number. Above the middle vertex the
two edges of a row start together and are found at one column. From the middle vertex on one of them starts there, right
on the line, and the other has come from the highest vertex and has lost at each step what was cut off its slope. What
it lacks at the middle vertex (`lack`) is less than a sixteenth of a pixel, and it lacks the same on all rows below. Where
a whole sixteenth lies in this gap the two edges are found one column apart, and if a pixel's centre is there the row has
that pixel, left of the line.

Results: `mem_covered_iff_stray` (which pixels), `coverage_of_collinear` (and where they can be),
`coverage_of_short_line` (they are there at times).
-/
import Mathlib.Order.Interval.Set.UnorderedInterval
import Accel3D.Proofs.Overdraw

namespace Accel3D

/-! ## Found columns -/

/-- X of an edge at a height in parts of 65536, before it is rounded down -/
def Edge.partsAt (e : Edge) (y : Int) : Int := 65536 * e.topX + (y - e.topY) * e.slope

/-- a column is found at `n` or left of it if the edge has not reached the next sixteenth -/
theorem Edge.xAt_le_iff (e : Edge) (y n : Int) : e.xAt y ≤ n ↔ e.partsAt y < 65536 * (n + 1) := by
  unfold xAt partsAt
  generalize (y - e.topY) * e.slope = moved
  omega

/-- a pixel is between two edges as they are found when the sixteenth right of its centre is between the edges before
they are rounded -/
theorem mem_spanBetween_iff_uIoc (long short : Edge) (x y : Int) :
    (spanBetween long short y).start ≤ x ∧ x < (spanBetween long short y).stop ↔
      65536 * (16 * x + 9) ∈ Set.uIoc (long.partsAt (16 * y + 8)) (short.partsAt (16 * y + 8)) := by
  have hlong := long.xAt_le_iff (16 * y + 8) (16 * x + 8)
  have hshort := short.xAt_le_iff (16 * y + 8) (16 * x + 8)
  rw [mem_spanBetween, min_le_iff, lt_max_iff, Set.mem_uIoc]
  omega

theorem slope_congr {p q p' q' : Vertex} (h : p.y.toInt < q.y.toInt) (h' : p'.y.toInt < q'.y.toInt)
    (hdirection : (q.x.toInt - p.x.toInt) * (q'.y.toInt - p'.y.toInt) =
      (q'.x.toInt - p'.x.toInt) * (q.y.toInt - p.y.toInt)) :
    (Edge.between p q).slope = (Edge.between p' q').slope := by
  have hheight : 0 < q.y.toInt - p.y.toInt := by omega
  have hheight' : 0 < q'.y.toInt - p'.y.toInt := by omega
  simp only [Edge.between, if_neg hheight.ne', if_neg hheight'.ne']
  apply le_antisymm
  · exact tdiv_le_tdiv hheight hheight' (by linarith)
  · exact tdiv_le_tdiv hheight' hheight (by linarith)

/-! ## Three vertices on a line -/

/-- three vertices on one line, from the highest to the lowest -/
structure Aligned (top middle bottom : Vertex) : Prop where
  line : cross top middle bottom = 0
  upper : top.y.toInt ≤ middle.y.toInt
  lower : middle.y.toInt ≤ bottom.y.toInt

theorem aligned_of_sortByY {a b c top middle bottom : Vertex} (hsort : sortByY a b c = (top, middle, bottom))
    (hline : cross a b c = 0) : Aligned top middle bottom where
  line := by
    unfold cross at hline ⊢
    simp only [sortByY] at hsort
    split_ifs at hsort <;> simp only [Prod.mk.injEq] at hsort <;> obtain ⟨rfl, rfl, rfl⟩ := hsort <;> linarith
  upper := by grind [sortByY, Int16.lt_iff_toInt_lt]
  lower := by grind [sortByY, Int16.lt_iff_toInt_lt]

/-- what the edge from the highest vertex to the lowest lacks at the middle vertex, in parts of 65536 -/
def lack (top middle bottom : Vertex) : Int :=
  65536 * middle.x.toInt - (Edge.between top bottom).partsAt middle.y.toInt

/-- a pixel on a row below the middle vertex, with the sixteenth right of its centre in the gap that the cut slope
leaves -/
structure Stray (top middle bottom : Vertex) (x y : Int) : Prop where
  row : Crosses middle bottom (16 * y + 8)
  gap : 65536 * (16 * x + 9) ∈ Set.uIoc ((Edge.between top bottom).partsAt (16 * y + 8))
    ((Edge.between top bottom).partsAt (16 * y + 8) + lack top middle bottom)

namespace Aligned

variable {top middle bottom : Vertex} (h : Aligned top middle bottom)
include h

theorem partsAt_upper {f : Int} (hrow : Crosses top middle f) :
    (Edge.between top middle).partsAt f = (Edge.between top bottom).partsAt f := by
  have hline := h.line
  have hlower := h.lower
  have hheight := hrow.height_pos
  have hslope : (Edge.between top middle).slope = (Edge.between top bottom).slope := by
    refine slope_congr (by omega) (by omega) ?_
    unfold cross at hline
    linarith
  simp only [Edge.partsAt, hslope]
  rfl

/-- below the middle vertex the edge that starts there is ahead by what the other lacks -/
theorem partsAt_lower {f : Int} (hrow : Crosses middle bottom f) :
    (Edge.between middle bottom).partsAt f = (Edge.between top bottom).partsAt f + lack top middle bottom := by
  have hline := h.line
  have hupper := h.upper
  have hheight := hrow.height_pos
  have hslope : (Edge.between middle bottom).slope = (Edge.between top bottom).slope := by
    refine slope_congr (by omega) (by omega) ?_
    unfold cross at hline
    linarith
  have hmiddle : (Edge.between middle bottom).partsAt f =
      65536 * middle.x.toInt + (f - middle.y.toInt) * (Edge.between middle bottom).slope := rfl
  rw [hmiddle, hslope, lack]
  unfold Edge.partsAt
  ring

/-- the lack is what is cut off the slope, once for each step down to the middle vertex -/
theorem lack_mul (hheight : top.y.toInt < bottom.y.toInt) :
    lack top middle bottom * (bottom.y.toInt - top.y.toInt) = (middle.y.toInt - top.y.toInt) *
      Int.tmod ((bottom.x.toInt - top.x.toInt) * 65536) (bottom.y.toInt - top.y.toInt) := by
  have hline := h.line
  have hcut := Int.tmod_add_tdiv_mul ((bottom.x.toInt - top.x.toInt) * 65536) (bottom.y.toInt - top.y.toInt)
  have hne : ¬ bottom.y.toInt - top.y.toInt = 0 := by omega
  unfold cross at hline
  simp only [lack, Edge.partsAt, Edge.between, if_neg hne]
  generalize Int.tdiv _ _ = s at hcut ⊢
  generalize Int.tmod _ _ = r at hcut ⊢
  linear_combination 65536 * hline - (middle.y.toInt - top.y.toInt) * hcut

theorem abs_lack_lt (hheight : top.y.toInt < bottom.y.toInt) : |lack top middle bottom| < 65536 := by
  have hupper := h.upper
  have hlower := h.lower
  have htop := And.intro top.y.le_toInt top.y.toInt_lt
  have hbottom := And.intro bottom.y.le_toInt bottom.y.toInt_lt
  have hpos : 0 < bottom.y.toInt - top.y.toInt := by omega
  have hcut : |Int.tmod ((bottom.x.toInt - top.x.toInt) * 65536) (bottom.y.toInt - top.y.toInt)| <
      bottom.y.toInt - top.y.toInt := by
    rw [Int.abs_eq_natAbs, Int.natAbs_tmod]
    have := Nat.mod_lt ((bottom.x.toInt - top.x.toInt) * 65536).natAbs (Int.natAbs_pos.2 hpos.ne')
    omega
  have hmul : |lack top middle bottom| * (bottom.y.toInt - top.y.toInt) < 65536 * (bottom.y.toInt - top.y.toInt) := by
    calc |lack top middle bottom| * (bottom.y.toInt - top.y.toInt)
        = |lack top middle bottom * (bottom.y.toInt - top.y.toInt)| := by rw [abs_mul, abs_of_pos hpos]
      _ = (middle.y.toInt - top.y.toInt) *
            |Int.tmod ((bottom.x.toInt - top.x.toInt) * 65536) (bottom.y.toInt - top.y.toInt)| := by
          rw [h.lack_mul hheight, abs_mul, abs_of_nonneg (by omega : 0 ≤ middle.y.toInt - top.y.toInt)]
      _ ≤ 65535 * |Int.tmod ((bottom.x.toInt - top.x.toInt) * 65536) (bottom.y.toInt - top.y.toInt)| :=
          mul_le_mul_of_nonneg_right (by omega) (abs_nonneg _)
      _ < 65536 * (bottom.y.toInt - top.y.toInt) := by omega
  exact lt_of_mul_lt_mul_right hmul hpos.le

/-- **The pixels of a triangle without area.** -/
theorem mem_covered_iff_stray {a b c : Vertex} (hsort : sortByY a b c = (top, middle, bottom)) (x y : Int) :
    (x, y) ∈ covered (triangleSpans a b c) ↔ Stray top middle bottom x y := by
  have hupper := h.upper
  rw [mem_covered]
  constructor
  · rintro ⟨s, hs, rfl, hx⟩
    obtain ⟨hlong, hspan⟩ := (mem_triangleSpans hsort s).1 hs
    rw [hspan] at hx
    by_cases hmiddle : 16 * s.y + 8 < middle.y.toInt
    · rw [if_pos hmiddle, mem_spanBetween_iff_uIoc, h.partsAt_upper ⟨hlong.started, hmiddle⟩, Set.mem_uIoc] at hx
      omega
    · have hrow : Crosses middle bottom (16 * s.y + 8) := ⟨not_lt.1 hmiddle, hlong.ended⟩
      rw [if_neg hmiddle, mem_spanBetween_iff_uIoc, h.partsAt_lower hrow] at hx
      exact ⟨hrow, hx⟩
  · rintro ⟨hrow, hgap⟩
    have hlong : Crosses top bottom (16 * y + 8) := ⟨hupper.trans hrow.started, hrow.ended⟩
    refine ⟨spanBetween (Edge.between top bottom) (Edge.between middle bottom) y, ?_, rfl, ?_⟩
    · refine (mem_triangleSpans hsort _).2 ⟨hlong, ?_⟩
      show _ = spanBetween _ (if 16 * y + 8 < middle.y.toInt then _ else _) y
      rw [if_neg (not_lt.2 hrow.started)]
    · rwa [mem_spanBetween_iff_uIoc, h.partsAt_lower hrow]

end Aligned

namespace Stray

variable {top middle bottom : Vertex} {x y : Int} (hstray : Stray top middle bottom x y)
include hstray

theorem lack_ne_zero : lack top middle bottom ≠ 0 := by
  intro hlack
  have hgap := hstray.gap
  rw [hlack, add_zero, Set.mem_uIoc] at hgap
  omega

theorem heights (h : Aligned top middle bottom) :
    top.y.toInt < middle.y.toInt ∧ middle.y.toInt < bottom.y.toInt := by
  have hrow := hstray.row.height_pos
  have hupper := h.upper
  refine ⟨lt_of_le_of_ne hupper fun hlevel => hstray.lack_ne_zero ?_, by omega⟩
  have hmul := h.lack_mul (by omega)
  rw [← hlevel, sub_self, zero_mul] at hmul
  exact (mul_eq_zero.1 hmul).resolve_right (by omega)

theorem slope_cut (h : Aligned top middle bottom) :
    ¬ bottom.y.toInt - top.y.toInt ∣ (bottom.x.toInt - top.x.toInt) * 65536 := by
  intro hdvd
  have hrow := hstray.row.height_pos
  have hupper := h.upper
  have hmul := h.lack_mul (by omega)
  rw [Int.tmod_eq_zero_of_dvd hdvd, mul_zero] at hmul
  exact hstray.lack_ne_zero ((mul_eq_zero.1 hmul).resolve_right (by omega))

theorem unique (h : Aligned top middle bottom) {x' : Int} (hstray' : Stray top middle bottom x' y) : x = x' := by
  have hrow := hstray.row.height_pos
  have hupper := h.upper
  have hlack := abs_lt.1 (h.abs_lack_lt (by omega))
  have hgap := hstray.gap
  have hgap' := hstray'.gap
  rw [Set.mem_uIoc] at hgap hgap'
  omega

end Stray

/-- a pixel of a triangle without area is left of the line, by less than two sixteenths -/
theorem Aligned.near_line {a b c top middle bottom : Vertex} {x y : Int} (h : Aligned top middle bottom)
    (hheight : top.y.toInt < bottom.y.toInt) (hmem : ∀ v, v ∈ [top, middle, bottom] ↔ v ∈ [a, b, c])
    (hxy : BetweenEdges a b c x y) :
    lineAt top bottom (16 * y + 8) - 2 < 16 * x + 8 ∧ 16 * x + 8 < lineAt top bottom (16 * y + 8) := by
  have hside : side top bottom middle.point = 0 := by
    rw [side_point, cross_swap bottom top, Int.cast_neg, ← side_point, side_rotate, side_rotate, side_point, h.line,
      Int.cast_zero, neg_zero, neg_zero]
  obtain ⟨l, hl, r, hr, hlow, hhigh⟩ := hxy.exists_columns
  rw [← rowSection_congr fun v => (mem_swap top bottom middle v).symm.trans (hmem v)] at hl hr
  have hleft := lineAt_le_of_mem hheight hside.ge hl
  have hright := le_lineAt_of_mem hheight hside.le hr
  constructor <;> linarith

/-- **Triangles without area** cover nothing, but for what is left where the slope of their line is cut: a row has at
most one pixel, and has it where the sixteenth right of its centre is in the gap between the two edges of a row below the
middle vertex. So the three heights differ, the slope is no whole number of parts, the row is between the middle vertex
and the lowest, and the centre is left of the line by less than two sixteenths of a pixel. -/
theorem coverage_of_collinear {a b c top middle bottom : Vertex} (hsort : sortByY a b c = (top, middle, bottom))
    (hline : cross a b c = 0) :
    (∀ s ∈ triangleSpans a b c, s.width ≤ 1) ∧
    ∀ x y : Int, ((x, y) ∈ covered (triangleSpans a b c) ↔ Stray top middle bottom x y) ∧
      ((x, y) ∈ covered (triangleSpans a b c) →
        (top.y.toInt < middle.y.toInt ∧ middle.y.toInt < bottom.y.toInt) ∧
        (¬ bottom.y.toInt - top.y.toInt ∣ (bottom.x.toInt - top.x.toInt) * 65536) ∧
        Crosses middle bottom (16 * y + 8) ∧
        lineAt top bottom (16 * y + 8) - 2 < 16 * x + 8 ∧ 16 * x + 8 < lineAt top bottom (16 * y + 8)) := by
  have h := aligned_of_sortByY hsort hline
  refine ⟨fun s hs => not_lt.1 fun hwide => ?_, fun x y => ⟨h.mem_covered_iff_stray hsort x y, fun hxy => ?_⟩⟩
  · have hwidth : 1 < (s.stop - s.start).toNat := hwide
    have hfirst := (h.mem_covered_iff_stray hsort s.start s.y).1
      ((mem_covered _ _ _).2 ⟨s, hs, rfl, le_rfl, by omega⟩)
    have hsecond := (h.mem_covered_iff_stray hsort (s.start + 1) s.y).1
      ((mem_covered _ _ _).2 ⟨s, hs, rfl, by omega, by omega⟩)
    have := hfirst.unique h hsecond
    omega
  · have hstray := (h.mem_covered_iff_stray hsort x y).1 hxy
    have hheights := hstray.heights h
    obtain ⟨_, _, _, hsort', -, -, hmem⟩ := sortByY_spec a b c
    obtain ⟨rfl, rfl, rfl⟩ : _ = _ ∧ _ = _ ∧ _ = _ := by simpa only [hsort, Prod.mk.injEq] using hsort'
    exact ⟨hheights, hstray.slope_cut h, hstray.row, h.near_line (by omega) hmem (betweenEdges_of_covered hxy)⟩

/-- a line of three vertices, three sixteenths apart in height, with one pixel -/
theorem coverage_of_short_line : cross ⟨8, 5⟩ ⟨9, 8⟩ ⟨10, 11⟩ = 0 ∧
    ∃ s ∈ triangleSpans ⟨8, 5⟩ ⟨9, 8⟩ ⟨10, 11⟩, s.width ≠ 0 := by
  decide +kernel

/-- the pixel of that line is where it is said to be -/
theorem coverage_of_collinear_short_line :
    sortByY ⟨8, 5⟩ ⟨9, 8⟩ ⟨10, 11⟩ = (⟨8, 5⟩, ⟨9, 8⟩, ⟨10, 11⟩) ∧ cross ⟨8, 5⟩ ⟨9, 8⟩ ⟨10, 11⟩ = 0 ∧
    (∀ s ∈ triangleSpans ⟨8, 5⟩ ⟨9, 8⟩ ⟨10, 11⟩, s.width ≤ 1) ∧
    (0, 0) ∈ covered (triangleSpans ⟨8, 5⟩ ⟨9, 8⟩ ⟨10, 11⟩) ∧ Stray ⟨8, 5⟩ ⟨9, 8⟩ ⟨10, 11⟩ 0 0 ∧
    (16 * (0 : Int) + 8 : ℚ) < lineAt ⟨8, 5⟩ ⟨10, 11⟩ (16 * 0 + 8) := by
  have hsort : sortByY ⟨8, 5⟩ ⟨9, 8⟩ ⟨10, 11⟩ = (⟨8, 5⟩, ⟨9, 8⟩, ⟨10, 11⟩) := by decide
  have hline : cross ⟨8, 5⟩ ⟨9, 8⟩ ⟨10, 11⟩ = 0 := by decide
  have hpixel : (0, 0) ∈ covered (triangleSpans ⟨8, 5⟩ ⟨9, 8⟩ ⟨10, 11⟩) := by decide +kernel
  obtain ⟨hwidth, hpixels⟩ := coverage_of_collinear hsort hline
  obtain ⟨hstray, hnear⟩ := hpixels 0 0
  exact ⟨hsort, hline, hwidth, hpixel, hstray.1 hpixel, (hnear hpixel).2.2.2.2⟩

end Accel3D
