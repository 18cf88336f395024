/-
Triangles on the two sides of a shared edge.

On its own rows the shared edge is found at one column for both triangles, so they overlap only where a triangle's other
edge is found on the wrong side of it. Two edges that start at one vertex are always found in their order, since cutting
slopes towards zero keeps their order (`xAt_le_xAt`). Two edges that end at one vertex may change places, but only where
they are less than a sixteenth of a pixel apart (`lineAt_lt_of_reversed`): an edge that leans right is never found too
far right, and when the left one of the two leans left, so does the right one. Below the shared edge the inner edges of
the two triangles start at its lower end, and above it they end at its upper end, so the same two facts settle all rows.

Results: `between_of_common_top` and `between_of_common_bottom` (the order of the edges of a row),
`overdraw_of_shared_edge` (where a pixel of both triangles can be), `overdraw_of_slivers` (it is there at times).
-/
import Accel3D.Proofs.Coverage

namespace Accel3D

/-! ## Two edges with a common end -/

theorem tdiv_le_tdiv {n n' h h' : Int} (hh : 0 < h) (hh' : 0 < h') (hle : n * h' ≤ n' * h) :
    Int.tdiv n h ≤ Int.tdiv n' h' := by
  obtain ⟨hpos, hneg⟩ := tdiv_bounds n hh
  obtain ⟨hpos', hneg'⟩ := tdiv_bounds n' hh'
  generalize Int.tdiv n h = s at *
  generalize Int.tdiv n' h' = s' at *
  have hprod := mul_pos hh hh'
  rcases le_total 0 n with hn | hn
  · have hn' : 0 ≤ n' := nonneg_of_mul_nonneg_left (le_trans (mul_nonneg hn hh'.le) hle) hh
    have hlow := mul_le_mul_of_nonneg_right (hpos hn).1 hh'.le
    have hhigh := mul_lt_mul_of_pos_right (hpos' hn').2 hh
    exact Int.lt_add_one_iff.1 (lt_of_mul_lt_mul_right (by linarith : s * (h * h') < (s' + 1) * (h * h')) hprod.le)
  · rcases le_total 0 n' with hn' | hn'
    · have hs : s - 1 < 0 := neg_of_mul_neg_left ((hneg hn).1.trans_le hn) hh.le
      have hs' : 0 < s' + 1 := pos_of_mul_pos_left (hn'.trans_lt (hpos' hn').2) hh'.le
      omega
    · have hlow := mul_lt_mul_of_pos_right (hneg hn).1 hh'
      have hhigh := mul_le_mul_of_nonneg_right (hneg' hn').2 hh.le
      have := lt_of_mul_lt_mul_right (by linarith : (s - 1) * (h * h') < s' * (h * h')) hprod.le
      omega

namespace Crosses

variable {top top' bottom bottom' : Vertex} {f : Int}

/-- **Edges that start at one vertex are found in their order.** -/
theorem xAt_le_xAt (h : Crosses top bottom f) (h' : Crosses top bottom' f)
    (hle : lineAt top bottom f ≤ lineAt top bottom' f) :
    (Edge.between top bottom).xAt f ≤ (Edge.between top bottom').xAt f := by
  rw [h.xAt_eq, h'.xAt_eq]
  rcases h.started.eq_or_lt with hstart | hstart
  · simp [hstart]
  · have hd : (0 : ℚ) < f - top.y.toInt := by
      rw [sub_pos]
      exact_mod_cast hstart
    have hslopes : (bottom.x.toInt - top.x.toInt : ℚ) * (bottom'.y.toInt - top.y.toInt) ≤
        (bottom'.x.toInt - top.x.toInt) * (bottom.y.toInt - top.y.toInt) := by
      refine le_of_mul_le_mul_left ?_ hd
      calc (f - top.y.toInt : ℚ) * ((bottom.x.toInt - top.x.toInt) * (bottom'.y.toInt - top.y.toInt))
          = (lineAt top bottom f - top.x.toInt) *
              ((bottom.y.toInt - top.y.toInt) * (bottom'.y.toInt - top.y.toInt)) := by
            linear_combination (-(bottom'.y.toInt - top.y.toInt) : ℚ) * h.lineAt_mul
        _ ≤ (lineAt top bottom' f - top.x.toInt) *
              ((bottom.y.toInt - top.y.toInt) * (bottom'.y.toInt - top.y.toInt)) :=
            mul_le_mul_of_nonneg_right (by linarith) (mul_pos h.height_pos_rat h'.height_pos_rat).le
        _ = (f - top.y.toInt) * ((bottom'.x.toInt - top.x.toInt) * (bottom.y.toInt - top.y.toInt)) := by
            linear_combination (bottom.y.toInt - top.y.toInt : ℚ) * h'.lineAt_mul
    have hfractions : (bottom.x.toInt - top.x.toInt) * (bottom'.y.toInt - top.y.toInt) ≤
        (bottom'.x.toInt - top.x.toInt) * (bottom.y.toInt - top.y.toInt) := by exact_mod_cast hslopes
    have hcut : Int.tdiv ((bottom.x.toInt - top.x.toInt) * 65536) (bottom.y.toInt - top.y.toInt) ≤
        Int.tdiv ((bottom'.x.toInt - top.x.toInt) * 65536) (bottom'.y.toInt - top.y.toInt) :=
      tdiv_le_tdiv h.height_pos h'.height_pos (by linarith)
    have hmoved := Int.ediv_le_ediv (by decide : (0 : Int) < 65536)
      (mul_le_mul_of_nonneg_left hcut (by omega : 0 ≤ f - top.y.toInt))
    exact add_le_add_right hmoved _

theorem bottom_lt_lineAt_iff (h : Crosses top bottom f) :
    (bottom.x.toInt : ℚ) < lineAt top bottom f ↔ bottom.x.toInt < top.x.toInt := by
  have hpos := h.height_pos_rat
  have hend : (0 : ℚ) < bottom.y.toInt - f := by
    rw [sub_pos]
    exact_mod_cast h.ended
  have hline : (lineAt top bottom f - bottom.x.toInt) * (bottom.y.toInt - top.y.toInt) =
      (top.x.toInt - bottom.x.toInt) * (bottom.y.toInt - f) := by
    linear_combination h.lineAt_mul
  rw [← sub_pos, ← mul_pos_iff_of_pos_right hpos, hline, mul_pos_iff_of_pos_right hend, sub_pos, Int.cast_lt]

/-- **Edges that end at one vertex** may be found out of order, but only less than a sixteenth apart. -/
theorem lineAt_lt_of_reversed (h : Crosses top bottom f) (h' : Crosses top' bottom f)
    (hle : lineAt top bottom f ≤ lineAt top' bottom f)
    (hreversed : (Edge.between top' bottom).xAt f < (Edge.between top bottom).xAt f) :
    lineAt top' bottom f < lineAt top bottom f + 1 := by
  have hstep : ((Edge.between top' bottom).xAt f : ℚ) + 1 ≤ (Edge.between top bottom).xAt f := by
    exact_mod_cast hreversed
  rcases le_or_gt top.x.toInt bottom.x.toInt with hx | hx
  · -- the first edge leans right and is not found too far right
    have h1 := (h.xAt_rounding.1 hx).1
    have h2 := h'.xAt_accuracy.1
    linarith
  · -- both edges lean left, and neither is found more than a sixteenth off
    have hx' : bottom.x.toInt < top'.x.toInt :=
      h'.bottom_lt_lineAt_iff.1 ((h.bottom_lt_lineAt_iff.2 hx).trans_le hle)
    have h1 := (h.xAt_rounding.2 hx.le).1
    have h2 := (h'.xAt_rounding.2 hx'.le).2
    linarith

end Crosses

/-! ## One triangle -/

/-- a row on which a triangle is less than a sixteenth of a pixel wide -/
def Narrow (a b c : Vertex) (f : Int) : Prop :=
  ∃ l r : ℚ, l ≤ r ∧ rowSection a b c f = Set.Icc l r ∧ r - l < 1

theorem narrow_of_uIcc {a b c : Vertex} {f : Int} {l r : ℚ} (h : rowSection a b c f = Set.uIcc l r)
    (hclose : |r - l| < 1) : Narrow a b c f :=
  ⟨min l r, max l r, min_le_max, h, by rwa [max_sub_min_eq_abs]⟩

/-- the two edges that a row crosses, if they start at one vertex -/
theorem Crosses.eq_of_common_top {p q r u v : Vertex} {f : Int} (hq : Crosses p q f) (hr : Crosses p r f)
    (hu : u ∈ [p, q, r]) (hv : v ∈ [p, q, r]) (h : Crosses u v f) : u = p ∧ (v = q ∨ v = r) := by
  have h1 := hq.started
  have h2 := hq.ended
  have h3 := hr.ended
  have h4 := h.started
  have h5 := h.ended
  simp only [List.mem_cons, List.not_mem_nil, or_false] at hu hv
  rcases hu with rfl | rfl | rfl <;> rcases hv with rfl | rfl | rfl <;> first | omega | simp

theorem Crosses.eq_of_common_bottom {p q r u v : Vertex} {f : Int} (hq : Crosses q p f) (hr : Crosses r p f)
    (hu : u ∈ [p, q, r]) (hv : v ∈ [p, q, r]) (h : Crosses u v f) : (u = q ∨ u = r) ∧ v = p := by
  have h1 := hq.started
  have h2 := hq.ended
  have h3 := hr.started
  have h4 := h.started
  have h5 := h.ended
  simp only [List.mem_cons, List.not_mem_nil, or_false] at hu hv
  rcases hu with rfl | rfl | rfl <;> rcases hv with rfl | rfl | rfl <;> first | omega | simp

/-- a pixel that is at or right of one of the edges that its row crosses, as they are found, and left of another -/
structure BetweenEdges (a b c : Vertex) (x y : Int) : Prop where
  started : ∃ u ∈ [a, b, c], ∃ v ∈ [a, b, c], Crosses u v (16 * y + 8) ∧
    (Edge.between u v).xAt (16 * y + 8) ≤ 16 * x + 8
  ended : ∃ u ∈ [a, b, c], ∃ v ∈ [a, b, c], Crosses u v (16 * y + 8) ∧
    16 * x + 8 < (Edge.between u v).xAt (16 * y + 8)

theorem betweenEdges_of_covered {a b c : Vertex} {x y : Int} (h : (x, y) ∈ covered (triangleSpans a b c)) :
    BetweenEdges a b c x y := by
  obtain ⟨s, hs, rfl, hx⟩ := (mem_covered _ _ _).1 h
  obtain ⟨u, hu, v, hv, u', hu', v', hv', hlong, hshort, hspan, -⟩ := exists_edges hs
  have hbetween := mem_spanBetween (Edge.between u v) (Edge.between u' v') x s.y
  rw [← hspan, min_le_iff, lt_max_iff] at hbetween
  obtain ⟨hmin, hmax⟩ := hbetween.1 hx
  constructor
  · rcases hmin with h | h
    · exact ⟨u, hu, v, hv, hlong, h⟩
    · exact ⟨u', hu', v', hv', hshort, h⟩
  · rcases hmax with h | h
    · exact ⟨u, hu, v, hv, hlong, h⟩
    · exact ⟨u', hu', v', hv', hshort, h⟩

namespace BetweenEdges

variable {a b c : Vertex} {x y : Int}

theorem swap (h : BetweenEdges a b c x y) : BetweenEdges b a c x y := by
  have hmem : ∀ v, v ∈ [a, b, c] ↔ v ∈ [b, a, c] := fun v => by
    simp only [List.mem_cons]
    tauto
  obtain ⟨hstart, hend⟩ := h
  simp only [hmem] at hstart hend
  exact ⟨hstart, hend⟩

theorem heights (h : BetweenEdges a b c x y) :
    min a.y.toInt (min b.y.toInt c.y.toInt) ≤ 16 * y + 8 ∧ 16 * y + 8 < max a.y.toInt (max b.y.toInt c.y.toInt) := by
  obtain ⟨u, hu, v, hv, ⟨hstart, hend⟩, -⟩ := h.started
  simp only [List.mem_cons, List.not_mem_nil, or_false] at hu hv
  constructor
  · rcases hu with rfl | rfl | rfl <;> omega
  · rcases hv with rfl | rfl | rfl <;> omega

theorem exists_columns (h : BetweenEdges a b c x y) : ∃ l ∈ rowSection a b c (16 * y + 8),
    ∃ r ∈ rowSection a b c (16 * y + 8), l - 2 < 16 * x + 8 ∧ 16 * x + 8 < r := by
  obtain ⟨⟨u, hu, v, hv, hcross, hle⟩, ⟨u', hu', v', hv', hcross', hlt⟩⟩ := h
  refine ⟨_, mem_closedTriangle_of_crosses hu hv hcross, _, mem_closedTriangle_of_crosses hu' hv' hcross', ?_, ?_⟩
  · have : ((Edge.between u v).xAt (16 * y + 8) : ℚ) ≤ 16 * x + 8 := by exact_mod_cast hle
    linarith [hcross.xAt_accuracy.1]
  · have : (16 * x + 8 + 1 : ℚ) ≤ (Edge.between u' v').xAt (16 * y + 8) := by exact_mod_cast hlt
    linarith [hcross'.xAt_accuracy.2]

end BetweenEdges

/-- a pixel between two edges of its row, found in the order in which they are -/
structure Between (u v u' v' : Vertex) (x y : Int) : Prop where
  ordered : lineAt u v (16 * y + 8) < lineAt u' v' (16 * y + 8)
  started : (Edge.between u v).xAt (16 * y + 8) ≤ 16 * x + 8
  ended : 16 * x + 8 < (Edge.between u' v').xAt (16 * y + 8)

section Covered

variable {a b c p q r : Vertex} {x y : Int}

/-- two edges that start at one vertex have the covered pixels of their row between them -/
theorem between_of_common_top (hmem : ∀ v, v ∈ [p, q, r] ↔ v ∈ [a, b, c]) (hq : Crosses p q (16 * y + 8))
    (hr : Crosses p r (16 * y + 8)) (h : BetweenEdges a b c x y) :
    Between p q p r x y ∨ Between p r p q x y := by
  obtain ⟨⟨u, hu, v, hv, hcross, hle⟩, ⟨u', hu', v', hv', hcross', hlt⟩⟩ := h
  simp only [← hmem] at hu hv hu' hv'
  obtain ⟨rfl, rfl | rfl⟩ := hq.eq_of_common_top hr hu hv hcross <;>
    obtain ⟨rfl, rfl | rfl⟩ := hq.eq_of_common_top hr hu' hv' hcross'
  · omega
  · refine .inl ⟨not_le.1 fun hline => ?_, hle, hlt⟩
    have := hr.xAt_le_xAt hq hline
    omega
  · refine .inr ⟨not_le.1 fun hline => ?_, hle, hlt⟩
    have := hq.xAt_le_xAt hr hline
    omega
  · omega

/-- two edges that end at one vertex have the covered pixels of their row between them, or the row is narrow -/
theorem between_of_common_bottom (hmem : ∀ v, v ∈ [p, q, r] ↔ v ∈ [a, b, c]) (hq : Crosses q p (16 * y + 8))
    (hr : Crosses r p (16 * y + 8)) (h : BetweenEdges a b c x y) :
    Narrow a b c (16 * y + 8) ∨ Between q p r p x y ∨ Between r p q p x y := by
  have hrow := rowSection_of_common_bottom hmem hq hr
  obtain ⟨⟨u, hu, v, hv, hcross, hle⟩, ⟨u', hu', v', hv', hcross', hlt⟩⟩ := h
  simp only [← hmem] at hu hv hu' hv'
  obtain ⟨rfl | rfl, rfl⟩ := hq.eq_of_common_bottom hr hu hv hcross <;>
    obtain ⟨rfl | rfl, rfl⟩ := hq.eq_of_common_bottom hr hu' hv' hcross'
  · omega
  · rcases lt_or_ge (lineAt u v' (16 * y + 8)) (lineAt u' v' (16 * y + 8)) with hline | hline
    · exact .inr (.inl ⟨hline, hle, hlt⟩)
    · have hclose := hr.lineAt_lt_of_reversed hq hline (by omega)
      exact .inl (narrow_of_uIcc hrow (by rw [abs_lt]; constructor <;> linarith))
  · rcases lt_or_ge (lineAt u v' (16 * y + 8)) (lineAt u' v' (16 * y + 8)) with hline | hline
    · exact .inr (.inr ⟨hline, hle, hlt⟩)
    · have hclose := hq.lineAt_lt_of_reversed hr hline (by omega)
      exact .inl (narrow_of_uIcc hrow (by rw [abs_lt]; constructor <;> linarith))
  · omega

end Covered

/-! ## Sides -/

/-- a triangle left of a line has its rows left of it -/
theorem le_lineAt_of_mem {p q r : Vertex} {f : Int} {x : ℚ} (h : p.y.toInt < q.y.toInt)
    (hside : side p q r.point ≤ 0) (hx : x ∈ rowSection p q r f) : x ≤ lineAt p q f := by
  obtain ⟨w, hw, hpoint⟩ := side_eq_of_mem hx
  have hheight : (0 : ℚ) < q.y.toInt - p.y.toInt := by
    rw [sub_pos]
    exact_mod_cast h
  rw [side_row h.ne] at hpoint
  have hneg : (x - lineAt p q f) * (q.y.toInt - p.y.toInt) ≤ 0 := by
    rw [hpoint]
    exact mul_nonpos_of_nonneg_of_nonpos hw hside
  linarith [nonpos_of_mul_nonpos_left hneg hheight]

theorem lineAt_le_of_mem {p q r : Vertex} {f : Int} {x : ℚ} (h : p.y.toInt < q.y.toInt)
    (hside : 0 ≤ side p q r.point) (hx : x ∈ rowSection p q r f) : lineAt p q f ≤ x := by
  obtain ⟨w, hw, hpoint⟩ := side_eq_of_mem hx
  have hheight : (0 : ℚ) < q.y.toInt - p.y.toInt := by
    rw [sub_pos]
    exact_mod_cast h
  rw [side_row h.ne] at hpoint
  have hpos : 0 ≤ (x - lineAt p q f) * (q.y.toInt - p.y.toInt) := by
    rw [hpoint]
    exact mul_nonneg hw hside
  linarith [nonneg_of_mul_nonneg_left hpos hheight]

theorem side_rotate (p q r : Vertex) : side q r p.point = side p q r.point := by
  simp only [side, Vertex.point]
  ring

/-! ## Two triangles -/

/-- two triangles with an edge from `p` down to `q`, one left of it and one right of it, which both cover a pixel -/
structure Doubled (p q l r : Vertex) (x y : Int) : Prop where
  down : p.y.toInt < q.y.toInt
  left : side p q l.point < 0
  right : 0 < side p q r.point
  onLeft : BetweenEdges p q l x y
  onRight : BetweenEdges p q r x y

/-- on a row that the edge of a triangle crosses, the triangle's pixels are on its own side of the edge as it is found,
or the row is narrow -/
theorem beside_edge {p q r : Vertex} {x y : Int} (hpq : Crosses p q (16 * y + 8))
    (h : BetweenEdges p q r x y) : Narrow p q r (16 * y + 8) ∨
      (∃ z ∈ rowSection p q r (16 * y + 8), lineAt p q (16 * y + 8) < z) ∧
        (Edge.between p q).xAt (16 * y + 8) ≤ 16 * x + 8 ∨
      (∃ z ∈ rowSection p q r (16 * y + 8), z < lineAt p q (16 * y + 8)) ∧
        16 * x + 8 < (Edge.between p q).xAt (16 * y + 8) := by
  by_cases hr : 16 * y + 8 < r.y.toInt
  · have hpr : Crosses p r (16 * y + 8) := ⟨hpq.started, hr⟩
    have hz : lineAt p r (16 * y + 8) ∈ rowSection p q r (16 * y + 8) :=
      mem_closedTriangle_of_crosses (by simp) (by simp) hpr
    rcases between_of_common_top (fun _ => Iff.rfl) hpq hpr h with hx | hx
    · exact .inr (.inl ⟨⟨_, hz, hx.ordered⟩, hx.started⟩)
    · exact .inr (.inr ⟨⟨_, hz, hx.ordered⟩, hx.ended⟩)
  · have hrq : Crosses r q (16 * y + 8) := ⟨not_lt.1 hr, hpq.ended⟩
    have hz : lineAt r q (16 * y + 8) ∈ rowSection p q r (16 * y + 8) :=
      mem_closedTriangle_of_crosses (by simp) (by simp) hrq
    have hmem : ∀ v, v ∈ [q, p, r] ↔ v ∈ [p, q, r] := fun v =>
      (mem_rotate p r q v).trans (mem_swap p q r v)
    rcases between_of_common_bottom hmem hpq hrq h with hnarrow | hx | hx
    · exact .inl hnarrow
    · exact .inr (.inl ⟨⟨_, hz, hx.ordered⟩, hx.started⟩)
    · exact .inr (.inr ⟨⟨_, hz, hx.ordered⟩, hx.ended⟩)

namespace Doubled

variable {p q l r : Vertex} {x y : Int} (h : Doubled p q l r x y)
include h

/-- a pixel of both triangles is left of the edge, by less than two sixteenths -/
theorem near_edge : lineAt p q (16 * y + 8) - 2 < 16 * x + 8 ∧ 16 * x + 8 < lineAt p q (16 * y + 8) := by
  obtain ⟨-, -, u, hu, -, hlt⟩ := h.onLeft.exists_columns
  obtain ⟨v, hv, -, -, hgt, -⟩ := h.onRight.exists_columns
  have hleft := le_lineAt_of_mem h.down h.left.le hu
  have hright := lineAt_le_of_mem h.down h.right.le hv
  constructor <;> linarith

/-- on the rows of the edge, which both triangles find at one column -/
theorem narrow_of_crosses (hpq : Crosses p q (16 * y + 8)) : Narrow p q l (16 * y + 8) ∨ Narrow p q r (16 * y + 8) := by
  rcases beside_edge hpq h.onLeft with hnarrow | ⟨⟨z, hz, hlt⟩, -⟩ | ⟨-, hx⟩
  · exact .inl hnarrow
  · exact absurd (le_lineAt_of_mem h.down h.left.le hz) (not_le.2 hlt)
  · rcases beside_edge hpq h.onRight with hnarrow | ⟨-, hx'⟩ | ⟨⟨z, hz, hlt⟩, -⟩
    · exact .inr hnarrow
    · omega
    · exact absurd (lineAt_le_of_mem h.down h.right.le hz) (not_le.2 hlt)

/-- on the rows below the edge, where the inner edges of the two triangles start at its lower end -/
theorem narrow_of_below (hbelow : q.y.toInt ≤ 16 * y + 8) : Narrow p q l (16 * y + 8) ∨ Narrow p q r (16 * y + 8) := by
  have hdown := h.down
  have hheights := h.onLeft.heights
  have hheights' := h.onRight.heights
  have hpl : Crosses p l (16 * y + 8) := ⟨by omega, by omega⟩
  have hql : Crosses q l (16 * y + 8) := ⟨by omega, by omega⟩
  have hpr : Crosses p r (16 * y + 8) := ⟨by omega, by omega⟩
  have hqr : Crosses q r (16 * y + 8) := ⟨by omega, by omega⟩
  have hinner : (Edge.between q l).xAt (16 * y + 8) ≤ (Edge.between q r).xAt (16 * y + 8) := by
    have hl := le_lineAt_of_mem h.down h.left.le (mem_closedTriangle_of_crosses (by simp) (by simp) hql)
    have hr := lineAt_le_of_mem h.down h.right.le (mem_closedTriangle_of_crosses (by simp) (by simp) hqr)
    exact hql.xAt_le_xAt hqr (hl.trans hr)
  have houterLeft : lineAt p l (16 * y + 8) ≤ lineAt q l (16 * y + 8) :=
    le_lineAt_of_mem (by omega) (by rw [side_rotate]; exact h.left.le)
      (mem_closedTriangle_of_crosses (by simp) (by simp) hpl)
  have houterRight : lineAt q r (16 * y + 8) ≤ lineAt p r (16 * y + 8) :=
    lineAt_le_of_mem (by omega) (by rw [side_rotate]; exact h.right.le)
      (mem_closedTriangle_of_crosses (by simp) (by simp) hpr)
  rcases between_of_common_bottom (fun v => mem_rotate p q l v) hpl hql h.onLeft with hnarrow | hx | hx
  · exact .inl hnarrow
  · rcases between_of_common_bottom (fun v => mem_rotate p q r v) hpr hqr h.onRight with hnarrow | hx' | hx'
    · exact .inr hnarrow
    · exact absurd houterRight (not_le.2 hx'.ordered)
    · have := hx.ended
      have := hx'.started
      omega
  · exact absurd houterLeft (not_le.2 hx.ordered)

/-- on the rows above the edge, where the inner edges of the two triangles end at its upper end -/
theorem close_of_above (habove : 16 * y + 8 < p.y.toInt) : ∃ u ∈ rowSection p q l (16 * y + 8),
    ∃ v ∈ rowSection p q r (16 * y + 8), |u - v| < 1 := by
  have hdown := h.down
  have hheights := h.onLeft.heights
  have hheights' := h.onRight.heights
  have hlp : Crosses l p (16 * y + 8) := ⟨by omega, by omega⟩
  have hlq : Crosses l q (16 * y + 8) := ⟨by omega, by omega⟩
  have hrp : Crosses r p (16 * y + 8) := ⟨by omega, by omega⟩
  have hrq : Crosses r q (16 * y + 8) := ⟨by omega, by omega⟩
  have hl : lineAt l p (16 * y + 8) ∈ rowSection p q l (16 * y + 8) :=
    mem_closedTriangle_of_crosses (by simp) (by simp) hlp
  have hr : lineAt r p (16 * y + 8) ∈ rowSection p q r (16 * y + 8) :=
    mem_closedTriangle_of_crosses (by simp) (by simp) hrp
  have hinner := (le_lineAt_of_mem h.down h.left.le hl).trans (lineAt_le_of_mem h.down h.right.le hr)
  have houterLeft : lineAt l q (16 * y + 8) ≤ lineAt l p (16 * y + 8) :=
    le_lineAt_of_mem (by omega) (by rw [side_rotate, side_rotate]; exact h.left.le)
      (mem_closedTriangle_of_crosses (by simp) (by simp) hlq)
  have houterRight : lineAt r p (16 * y + 8) ≤ lineAt r q (16 * y + 8) :=
    lineAt_le_of_mem (by omega) (by rw [side_rotate, side_rotate]; exact h.right.le)
      (mem_closedTriangle_of_crosses (by simp) (by simp) hrq)
  refine ⟨_, hl, _, hr, ?_⟩
  rcases between_of_common_top (fun v => mem_rotate p q l v) hlp hlq h.onLeft with hx | hx
  · exact absurd houterLeft (not_le.2 hx.ordered)
  · rcases between_of_common_top (fun v => mem_rotate p q r v) hrp hrq h.onRight with hx' | hx'
    · have hclose := hlp.lineAt_lt_of_reversed hrp hinner (hx'.started.trans_lt hx.ended)
      rw [abs_lt]
      constructor <;> linarith
    · exact absurd houterRight (not_le.2 hx'.ordered)

end Doubled

/-- what is so of a pixel that two triangles on the two sides of an edge both cover -/
structure Overdraw (p q r r' : Vertex) (x y : Int) : Prop where
  /-- the edge is not level -/
  slanted : p.y.toInt ≠ q.y.toInt
  /-- the centre is left of the edge, or of the line that goes on from it, by less than two sixteenths of a pixel -/
  near : lineAt p q (16 * y + 8) - 2 < 16 * x + 8 ∧ 16 * x + 8 < lineAt p q (16 * y + 8)
  /-- on this row one of the triangles is less than a sixteenth wide, or, above the edge, they are less than a sixteenth
  apart -/
  sliver : Narrow p q r (16 * y + 8) ∨ Narrow p q r' (16 * y + 8) ∨
    16 * y + 8 < p.y.toInt ∧ 16 * y + 8 < q.y.toInt ∧
      ∃ u ∈ rowSection p q r (16 * y + 8), ∃ v ∈ rowSection p q r' (16 * y + 8), |u - v| < 1

namespace Overdraw

variable {p q r r' : Vertex} {x y : Int}

theorem symm (h : Overdraw p q r r' x y) : Overdraw p q r' r x y where
  slanted := h.slanted
  near := h.near
  sliver := by
    rcases h.sliver with hr | hr' | ⟨hp, hq, u, hu, v, hv, hclose⟩
    · exact .inr (.inl hr)
    · exact .inl hr'
    · exact .inr (.inr ⟨hp, hq, v, hv, u, hu, by rwa [abs_sub_comm]⟩)

theorem swap (h : Overdraw p q r r' x y) : Overdraw q p r r' x y where
  slanted := h.slanted.symm
  near := by
    rw [lineAt_comm h.slanted.symm]
    exact h.near
  sliver := by
    have hrow : ∀ r, rowSection q p r (16 * y + 8) = rowSection p q r (16 * y + 8) := fun r =>
      rowSection_congr (fun v => (mem_rotate p r q v).trans (mem_swap p q r v)) _
    simp only [Narrow, hrow]
    rcases h.sliver with hr | hr' | ⟨hp, hq, hclose⟩
    · exact .inl hr
    · exact .inr (.inl hr')
    · exact .inr (.inr ⟨hq, hp, hclose⟩)

end Overdraw

theorem Doubled.overdraw {p q l r : Vertex} {x y : Int} (h : Doubled p q l r x y) : Overdraw p q l r x y where
  slanted := h.down.ne
  near := h.near_edge
  sliver := by
    have hdown := h.down
    rcases lt_or_ge (16 * y + 8) p.y.toInt with habove | hp
    · exact .inr (.inr ⟨habove, by omega, h.close_of_above habove⟩)
    · have hnarrow : Narrow p q l (16 * y + 8) ∨ Narrow p q r (16 * y + 8) := by
        rcases lt_or_ge (16 * y + 8) q.y.toInt with hq | hbelow
        · exact h.narrow_of_crosses ⟨hp, hq⟩
        · exact h.narrow_of_below hbelow
      exact hnarrow.imp_right .inl

/-- twice the signed area of a triangle -/
def cross (p q r : Vertex) : Int :=
  (q.x.toInt - p.x.toInt) * (r.y.toInt - p.y.toInt) - (q.y.toInt - p.y.toInt) * (r.x.toInt - p.x.toInt)

theorem side_point (p q r : Vertex) : side p q r.point = -(cross p q r : ℚ) := by
  simp only [side, Vertex.point, cross]
  push_cast
  ring

theorem cross_swap (p q r : Vertex) : cross q p r = -cross p q r := by
  simp only [cross]
  ring

/-- with the edge going down, one of the triangles is left of it and the other right -/
theorem overdraw_of_down {p q r r' : Vertex} {x y : Int} (hdown : p.y.toInt < q.y.toInt)
    (hopposite : cross p q r * cross p q r' < 0) (h : BetweenEdges p q r x y) (h' : BetweenEdges p q r' x y) :
    Overdraw p q r r' x y := by
  rcases mul_neg_iff.1 hopposite with ⟨hr, hr'⟩ | ⟨hr, hr'⟩
  · have hleft : side p q r.point < 0 := by
      rw [side_point, neg_lt_zero]
      exact_mod_cast hr
    have hright : 0 < side p q r'.point := by
      rw [side_point, neg_pos]
      exact_mod_cast hr'
    exact Doubled.overdraw ⟨hdown, hleft, hright, h, h'⟩
  · have hright : 0 < side p q r.point := by
      rw [side_point, neg_pos]
      exact_mod_cast hr
    have hleft : side p q r'.point < 0 := by
      rw [side_point, neg_lt_zero]
      exact_mod_cast hr'
    exact (Doubled.overdraw ⟨hdown, hleft, hright, h', h⟩).symm

/-- two triangles on the two sides of a level edge have no row in common -/
theorem not_level {p q r r' : Vertex} {x y : Int} (hopposite : cross p q r * cross p q r' < 0)
    (h : BetweenEdges p q r x y) (h' : BetweenEdges p q r' x y) : p.y.toInt ≠ q.y.toInt := by
  intro hlevel
  have hcross : ∀ r : Vertex, cross p q r = (q.x.toInt - p.x.toInt) * (r.y.toInt - p.y.toInt) := fun r => by
    simp only [cross, hlevel]
    ring
  rw [hcross, hcross] at hopposite
  have hsquare : (q.x.toInt - p.x.toInt) ^ 2 * ((r.y.toInt - p.y.toInt) * (r'.y.toInt - p.y.toInt)) < 0 := by
    calc (q.x.toInt - p.x.toInt) ^ 2 * ((r.y.toInt - p.y.toInt) * (r'.y.toInt - p.y.toInt))
        = (q.x.toInt - p.x.toInt) * (r.y.toInt - p.y.toInt) *
            ((q.x.toInt - p.x.toInt) * (r'.y.toInt - p.y.toInt)) := by ring
      _ < 0 := hopposite
  have hsides := neg_of_mul_neg_right hsquare (sq_nonneg _)
  have hheights := h.heights
  have hheights' := h'.heights
  rcases mul_neg_iff.1 hsides with ⟨hr, hr'⟩ | ⟨hr, hr'⟩ <;> omega

/-- **Overdraw along a shared edge.** A pixel that is covered by two triangles on the two sides of an edge is left of
the edge by less than two sixteenths of a pixel, on a row where one of the triangles is less than a sixteenth wide or,
above the edge, they are less than a sixteenth apart. All other pixels are covered at most once. -/
theorem overdraw_of_shared_edge (p q r r' : Vertex) (hopposite : cross p q r * cross p q r' < 0) (x y : Int)
    (h : (x, y) ∈ covered (triangleSpans p q r)) (h' : (x, y) ∈ covered (triangleSpans p q r')) :
    Overdraw p q r r' x y := by
  have hedges := betweenEdges_of_covered h
  have hedges' := betweenEdges_of_covered h'
  rcases lt_or_gt_of_ne (not_level hopposite hedges hedges') with hdown | hup
  · exact overdraw_of_down hdown hopposite hedges hedges'
  · have hopposite' : cross q p r * cross q p r' < 0 := by
      rw [cross_swap p q r, cross_swap p q r', neg_mul_neg]
      exact hopposite
    exact (overdraw_of_down hup hopposite' hedges.swap hedges'.swap).swap

/-- **Adjacent triangles can overdraw:** with an edge from (-7, 7) to (10, 280), one triangle a sliver, and with an edge
from (10, 280) to (29, 585), on a row above it. -/
theorem overdraw_of_slivers :
    (cross ⟨-7, 7⟩ ⟨10, 280⟩ ⟨8, 248⟩ * cross ⟨-7, 7⟩ ⟨10, 280⟩ ⟨100, 248⟩ < 0 ∧
      (0, 16) ∈ covered (triangleSpans ⟨-7, 7⟩ ⟨10, 280⟩ ⟨8, 248⟩) ∧
      (0, 16) ∈ covered (triangleSpans ⟨-7, 7⟩ ⟨10, 280⟩ ⟨100, 248⟩)) ∧
    cross ⟨10, 280⟩ ⟨29, 585⟩ ⟨8, 248⟩ * cross ⟨10, 280⟩ ⟨29, 585⟩ ⟨-7, 7⟩ < 0 ∧
      (0, 16) ∈ covered (triangleSpans ⟨10, 280⟩ ⟨29, 585⟩ ⟨8, 248⟩) ∧
      (0, 16) ∈ covered (triangleSpans ⟨10, 280⟩ ⟨29, 585⟩ ⟨-7, 7⟩) := by
  decide +kernel

/-- the sliver of the first of them -/
theorem overdraw_of_shared_edge_sliver :
    cross ⟨-7, 7⟩ ⟨10, 280⟩ ⟨8, 248⟩ * cross ⟨-7, 7⟩ ⟨10, 280⟩ ⟨100, 248⟩ < 0 ∧
    (0, 16) ∈ covered (triangleSpans ⟨-7, 7⟩ ⟨10, 280⟩ ⟨8, 248⟩) ∧
    (0, 16) ∈ covered (triangleSpans ⟨-7, 7⟩ ⟨10, 280⟩ ⟨100, 248⟩) ∧
    Overdraw ⟨-7, 7⟩ ⟨10, 280⟩ ⟨8, 248⟩ ⟨100, 248⟩ 0 16 := by
  have hopposite : cross ⟨-7, 7⟩ ⟨10, 280⟩ ⟨8, 248⟩ * cross ⟨-7, 7⟩ ⟨10, 280⟩ ⟨100, 248⟩ < 0 := by decide
  have h : (0, 16) ∈ covered (triangleSpans ⟨-7, 7⟩ ⟨10, 280⟩ ⟨8, 248⟩) := by decide +kernel
  have h' : (0, 16) ∈ covered (triangleSpans ⟨-7, 7⟩ ⟨10, 280⟩ ⟨100, 248⟩) := by decide +kernel
  exact ⟨hopposite, h, h', overdraw_of_shared_edge _ _ _ _ hopposite 0 16 h h'⟩

end Accel3D
