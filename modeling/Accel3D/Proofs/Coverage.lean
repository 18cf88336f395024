/-
How closely the covered pixels follow a triangle.

On paper an edge meets the sample line of a row at a rational column (`lineAt`), and a row of the closed triangle is the
interval between the two edges that its sample line crosses (`rowSection_eq_uIcc`): seen from the third vertex, a point
of the triangle is on one side of each. The chip cuts the slope of an edge towards zero and rounds the move along it
down. The two errors add up for an edge that leans right and work against each other for one that leans left, so an
edge is found less than two sixteenths of a pixel left of where it is, and less than one right of it (`xAt_accuracy`).
Found columns and pixel centres are whole sixteenths, so no centre of a covered pixel is right of the triangle.

Results: `row_accuracy` (one row), `triangleSpans?_eq` (no step fails), `coverage_accuracy` (all of it).
-/
import Mathlib.Analysis.Convex.Join
import Mathlib.Tactic.Linarith
import Mathlib.Tactic.FieldSimp
import Mathlib.Tactic.SplitIfs
import Accel3D.Proofs.Pixels

namespace Accel3D

/-! ## Edges -/

theorem tdiv_bounds (n : Int) {h : Int} (hh : 0 < h) :
    (0 ≤ n → Int.tdiv n h * h ≤ n ∧ n < (Int.tdiv n h + 1) * h) ∧
    (n ≤ 0 → (Int.tdiv n h - 1) * h < n ∧ n ≤ Int.tdiv n h * h) := by
  have hsum := Int.tdiv_mul_add_tmod n h
  constructor
  · intro hn
    have hlow := Int.tmod_nonneg h hn
    have hhigh := Int.tmod_lt_of_pos n hh
    constructor <;> linarith
  · intro hn
    have hlow := Int.lt_tmod_of_pos n hh
    have hhigh : 0 ≤ Int.tmod (-n) h := Int.tmod_nonneg h (by omega)
    rw [Int.neg_tmod] at hhigh
    constructor <;> linarith

/-- what is left of a move along an edge once its slope is cut towards zero and the move is rounded down -/
theorem moved_bounds {d n h : Int} (hh : 0 < h) (hd : 0 ≤ d) (hd' : d < 65536) :
    (0 ≤ n → d * Int.tdiv (n * 65536) h / 65536 * h ≤ d * n ∧ d * n < (d * Int.tdiv (n * 65536) h / 65536 + 2) * h) ∧
    (n ≤ 0 → (d * Int.tdiv (n * 65536) h / 65536 - 1) * h < d * n ∧
      d * n < (d * Int.tdiv (n * 65536) h / 65536 + 1) * h) := by
  obtain ⟨hpos, hneg⟩ := tdiv_bounds (n * 65536) hh
  generalize Int.tdiv (n * 65536) h = s at hpos hneg ⊢
  have hm : 65536 * (d * s / 65536) ≤ d * s ∧ d * s < 65536 * (d * s / 65536) + 65536 := by omega
  generalize d * s / 65536 = m at hm ⊢
  have hlow := mul_le_mul_of_nonneg_right hm.1 hh.le
  have hhigh := mul_lt_mul_of_pos_right hm.2 hh
  have hheight := mul_lt_mul_of_pos_right hd' hh
  constructor
  · intro hn
    obtain ⟨h1, h2⟩ := hpos (by omega)
    have hcut := mul_le_mul_of_nonneg_left h1 hd
    have hcut' := mul_le_mul_of_nonneg_left h2.le hd
    constructor <;> linarith
  · intro hn
    obtain ⟨h1, h2⟩ := hneg (by omega)
    have hcut := mul_le_mul_of_nonneg_left h1.le hd
    have hcut' := mul_le_mul_of_nonneg_left h2 hd
    constructor <;> linarith

/-- a height at which an edge runs, from its upper end on and before its lower end -/
structure Crosses (top bottom : Vertex) (f : Int) : Prop where
  started : top.y.toInt ≤ f
  ended : f < bottom.y.toInt

/-- where the line through two vertices is at a height -/
def lineAt (p q : Vertex) (f : Int) : ℚ :=
  p.x.toInt + (f - p.y.toInt) * (q.x.toInt - p.x.toInt) / (q.y.toInt - p.y.toInt)

namespace Crosses

variable {top bottom : Vertex} {f : Int}

theorem height_pos (h : Crosses top bottom f) : 0 < bottom.y.toInt - top.y.toInt := by
  have := h.started
  have := h.ended
  omega

theorem height_pos_rat (h : Crosses top bottom f) : (0 : ℚ) < bottom.y.toInt - top.y.toInt := by
  exact_mod_cast h.height_pos

theorem xAt_eq (h : Crosses top bottom f) : (Edge.between top bottom).xAt f = top.x.toInt +
    (f - top.y.toInt) * Int.tdiv ((bottom.x.toInt - top.x.toInt) * 65536) (bottom.y.toInt - top.y.toInt) / 65536 := by
  simp only [Edge.xAt, Edge.between, if_neg h.height_pos.ne']

theorem lineAt_mul (h : Crosses top bottom f) :
    (lineAt top bottom f - top.x.toInt) * (bottom.y.toInt - top.y.toInt) =
      (f - top.y.toInt) * (bottom.x.toInt - top.x.toInt) := by
  have hpos := h.height_pos_rat
  rw [lineAt, add_sub_cancel_left]
  exact div_mul_cancel₀ _ hpos.ne'

/-- the rounding of an edge, by the way it leans -/
theorem xAt_rounding (h : Crosses top bottom f) :
    (top.x.toInt ≤ bottom.x.toInt →
      (Edge.between top bottom).xAt f ≤ lineAt top bottom f ∧
        lineAt top bottom f < (Edge.between top bottom).xAt f + 2) ∧
    (bottom.x.toInt ≤ top.x.toInt →
      (Edge.between top bottom).xAt f - 1 < lineAt top bottom f ∧
        lineAt top bottom f < (Edge.between top bottom).xAt f + 1) := by
  have htop := And.intro top.y.le_toInt top.y.toInt_lt
  have hbottom := And.intro bottom.y.le_toInt bottom.y.toInt_lt
  have hstart := h.started
  have hend := h.ended
  obtain ⟨hright, hleft⟩ := moved_bounds (n := bottom.x.toInt - top.x.toInt) h.height_pos
    (show 0 ≤ f - top.y.toInt by omega) (by omega)
  have hpos := h.height_pos_rat
  have hline := h.lineAt_mul
  rw [h.xAt_eq]
  generalize (f - top.y.toInt) * _ / 65536 = m at hright hleft ⊢
  push_cast
  constructor
  · intro hx
    obtain ⟨h1, h2⟩ := hright (by omega)
    have hlow : (m : ℚ) ≤ lineAt top bottom f - top.x.toInt :=
      le_of_mul_le_mul_right (by rw [hline]; exact_mod_cast h1) hpos
    have hhigh : lineAt top bottom f - top.x.toInt < (m + 2 : ℚ) :=
      lt_of_mul_lt_mul_right (by rw [hline]; exact_mod_cast h2) hpos.le
    constructor <;> linarith
  · intro hx
    obtain ⟨h1, h2⟩ := hleft (by omega)
    have hlow : (m - 1 : ℚ) < lineAt top bottom f - top.x.toInt :=
      lt_of_mul_lt_mul_right (by rw [hline]; exact_mod_cast h1) hpos.le
    have hhigh : lineAt top bottom f - top.x.toInt < (m + 1 : ℚ) :=
      lt_of_mul_lt_mul_right (by rw [hline]; exact_mod_cast h2) hpos.le
    constructor <;> linarith

/-- **An edge is found less than two sixteenths left of where it is, and less than one right of it.** -/
theorem xAt_accuracy (h : Crosses top bottom f) :
    lineAt top bottom f - 2 < (Edge.between top bottom).xAt f ∧
      (Edge.between top bottom).xAt f < lineAt top bottom f + 1 := by
  obtain ⟨hright, hleft⟩ := h.xAt_rounding
  rcases le_total top.x.toInt bottom.x.toInt with hx | hx
  · obtain ⟨h1, h2⟩ := hright hx
    constructor <;> linarith
  · obtain ⟨h1, h2⟩ := hleft hx
    constructor <;> linarith

end Crosses

/-! ## The closed triangle -/

/-- a vertex as a point of the plane, in sixteenths of a pixel -/
def Vertex.point (v : Vertex) : ℚ × ℚ := (v.x.toInt, v.y.toInt)

def closedTriangle (a b c : Vertex) : Set (ℚ × ℚ) := convexHull ℚ {a.point, b.point, c.point}

/-- the columns of a closed triangle at a height -/
def rowSection (a b c : Vertex) (f : Int) : Set ℚ := {x | (x, (f : ℚ)) ∈ closedTriangle a b c}

/-- twice the signed area between a line and a point -/
def side (p q : Vertex) (z : ℚ × ℚ) : ℚ :=
  (z.1 - p.x.toInt) * (q.y.toInt - p.y.toInt) - (z.2 - p.y.toInt) * (q.x.toInt - p.x.toInt)

theorem mem_swap (p q r v : Vertex) : v ∈ [p, r, q] ↔ v ∈ [p, q, r] := by
  simp only [List.mem_cons]
  tauto

theorem mem_rotate (p q r v : Vertex) : v ∈ [r, p, q] ↔ v ∈ [p, q, r] := by
  simp only [List.mem_cons]
  tauto

theorem closedTriangle_congr {a b c a' b' c' : Vertex} (h : ∀ v, v ∈ [a, b, c] ↔ v ∈ [a', b', c']) :
    closedTriangle a b c = closedTriangle a' b' c' := by
  have hset : ∀ a b c : Vertex, ({a.point, b.point, c.point} : Set (ℚ × ℚ)) = Vertex.point '' {v | v ∈ [a, b, c]} := by
    intro a b c
    ext z
    simp [eq_comm]
  rw [closedTriangle, closedTriangle, hset, hset]
  congr 2
  ext v
  exact h v

theorem rowSection_congr {a b c a' b' c' : Vertex} (h : ∀ v, v ∈ [a, b, c] ↔ v ∈ [a', b', c']) (f : Int) :
    rowSection a b c f = rowSection a' b' c' f := by
  rw [rowSection, rowSection, closedTriangle_congr h]

/-- a point of a triangle is as far on the side of the third vertex as its weight says -/
theorem side_eq_of_mem {p q r : Vertex} {z : ℚ × ℚ} (hz : z ∈ closedTriangle p q r) :
    ∃ w : ℚ, 0 ≤ w ∧ side p q z = w * side p q r.point := by
  refine convexHull_min (s := {p.point, q.point, r.point})
    (t := {z | ∃ w : ℚ, 0 ≤ w ∧ side p q z = w * side p q r.point}) ?_ ?_ hz
  · rintro z (rfl | rfl | rfl)
    · exact ⟨0, le_rfl, by simp [side, Vertex.point]⟩
    · exact ⟨0, le_rfl, by simp [side, Vertex.point]; ring⟩
    · exact ⟨1, zero_le_one, (one_mul _).symm⟩
  · rintro z ⟨w, hw, hz⟩ z' ⟨w', hw', hz'⟩ s t hs ht hst
    refine ⟨s * w + t * w', by positivity, ?_⟩
    calc side p q (s • z + t • z')
        = s * side p q z + t * side p q z' + (s + t - 1) * (p.x.toInt * (q.y.toInt - p.y.toInt)
            - p.y.toInt * (q.x.toInt - p.x.toInt)) := by
          simp only [side, Prod.fst_add, Prod.snd_add, Prod.smul_fst, Prod.smul_snd, smul_eq_mul]; ring
      _ = (s * w + t * w') * side p q r.point := by rw [hst, hz, hz']; ring

theorem side_row {p q : Vertex} (h : p.y.toInt ≠ q.y.toInt) (x : ℚ) (f : Int) :
    side p q (x, f) = (x - lineAt p q f) * (q.y.toInt - p.y.toInt) := by
  have hne : (q.y.toInt - p.y.toInt : ℚ) ≠ 0 := by
    rw [sub_ne_zero]
    exact_mod_cast h.symm
  simp only [side, lineAt]
  field_simp
  ring

theorem lineAt_comm {p q : Vertex} (h : p.y.toInt ≠ q.y.toInt) (f : Int) : lineAt p q f = lineAt q p f := by
  have hne : (q.y.toInt - p.y.toInt : ℚ) ≠ 0 := by
    rw [sub_ne_zero]
    exact_mod_cast h.symm
  have hne' : (p.y.toInt - q.y.toInt : ℚ) ≠ 0 := by
    rw [sub_ne_zero]
    exact_mod_cast h
  simp only [lineAt]
  field_simp
  ring

theorem Crosses.lineAt_comm {top bottom : Vertex} {f : Int} (h : Crosses top bottom f) :
    lineAt top bottom f = lineAt bottom top f := Accel3D.lineAt_comm (by have := h.height_pos; omega) f

theorem Crosses.mem_segment {top bottom : Vertex} {f : Int} (h : Crosses top bottom f) :
    (lineAt top bottom f, (f : ℚ)) ∈ segment ℚ top.point bottom.point := by
  have hpos := h.height_pos_rat
  have hstart : (top.y.toInt : ℚ) ≤ f := by exact_mod_cast h.started
  have hend : (f : ℚ) ≤ bottom.y.toInt := by exact_mod_cast h.ended.le
  refine ⟨(bottom.y.toInt - f) / (bottom.y.toInt - top.y.toInt), (f - top.y.toInt) / (bottom.y.toInt - top.y.toInt),
    div_nonneg (by linarith) hpos.le, div_nonneg (by linarith) hpos.le, ?_, ?_⟩
  · field_simp
    ring
  · ext
    · simp only [Vertex.point, lineAt, Prod.fst_add, Prod.smul_fst, smul_eq_mul]
      field_simp
      ring
    · simp only [Vertex.point, Prod.snd_add, Prod.smul_snd, smul_eq_mul]
      field_simp
      ring

theorem mem_closedTriangle_of_crosses {a b c u v : Vertex} {f : Int} (hu : u ∈ [a, b, c]) (hv : v ∈ [a, b, c])
    (h : Crosses u v f) : (lineAt u v f, (f : ℚ)) ∈ closedTriangle a b c := by
  have hmem : ∀ w ∈ [a, b, c], w.point ∈ closedTriangle a b c := by
    intro w hw
    refine subset_convexHull ℚ _ ?_
    simp only [List.mem_cons, List.not_mem_nil, or_false] at hw
    rcases hw with rfl | rfl | rfl <;> simp
  exact (convex_convexHull ℚ _).segment_subset (hmem u hu) (hmem v hv) h.mem_segment

/-- **The row of a triangle** whose vertex `p` is alone on its side of the row: the interval between the two edges
at `p`. -/
theorem rowSection_eq_uIcc {p q r : Vertex} {f : Int}
    (h : Crosses p q f ∧ Crosses p r f ∨ Crosses q p f ∧ Crosses r p f) :
    rowSection p q r f = Set.uIcc (lineAt p q f) (lineAt p r f) := by
  have hq : (lineAt p q f, (f : ℚ)) ∈ closedTriangle p q r := by
    rcases h with ⟨h, -⟩ | ⟨h, -⟩
    · exact mem_closedTriangle_of_crosses (by simp) (by simp) h
    · rw [← h.lineAt_comm]
      exact mem_closedTriangle_of_crosses (by simp) (by simp) h
  have hr : (lineAt p r f, (f : ℚ)) ∈ closedTriangle p q r := by
    rcases h with ⟨-, h⟩ | ⟨-, h⟩
    · exact mem_closedTriangle_of_crosses (by simp) (by simp) h
    · rw [← h.lineAt_comm]
      exact mem_closedTriangle_of_crosses (by simp) (by simp) h
  apply Set.Subset.antisymm
  · -- a point of the row is on opposite sides of the two edges, each seen from the third vertex
    intro x hx
    obtain ⟨w, hw, hside⟩ := side_eq_of_mem hx
    have hx' : (x, (f : ℚ)) ∈ closedTriangle p r q := by
      rwa [closedTriangle_congr (mem_swap p q r)]
    obtain ⟨w', hw', hside'⟩ := side_eq_of_mem hx'
    have hturn : side p r q.point = - side p q r.point := by
      simp only [side, Vertex.point]
      ring
    have hheights : (0 : ℚ) < (q.y.toInt - p.y.toInt) * (r.y.toInt - p.y.toInt) := by
      rcases h with ⟨h, h'⟩ | ⟨h, h'⟩
      · exact mul_pos h.height_pos_rat h'.height_pos_rat
      · exact mul_pos_of_neg_of_neg (by linarith [h.height_pos_rat]) (by linarith [h'.height_pos_rat])
    rw [side_row (by rintro e; simp [e] at hheights)] at hside hside'
    have hprod : (x - lineAt p q f) * (x - lineAt p r f) ≤ 0 := by
      refine nonpos_of_mul_nonpos_left ?_ hheights
      calc (x - lineAt p q f) * (x - lineAt p r f) * ((q.y.toInt - p.y.toInt) * (r.y.toInt - p.y.toInt))
          = (w * side p q r.point) * (w' * side p r q.point) := by rw [← hside, ← hside']; ring
        _ = - (w * w' * side p q r.point ^ 2) := by rw [hturn]; ring
        _ ≤ 0 := by rw [neg_nonpos]; positivity
    rw [Set.mem_uIcc]
    rcases mul_nonpos_iff.1 hprod with ⟨h1, h2⟩ | ⟨h1, h2⟩
    · exact .inl ⟨by linarith, by linarith⟩
    · exact .inr ⟨by linarith, by linarith⟩
  · rw [← segment_eq_uIcc]
    intro x hx
    refine (convex_convexHull ℚ _).segment_subset hq hr ?_
    rw [← Prod.image_mk_segment_left]
    exact Set.mem_image_of_mem _ hx

/-- the row of a triangle with two edges that start at one vertex -/
theorem rowSection_of_common_top {a b c p q r : Vertex} {f : Int} (hmem : ∀ v, v ∈ [p, q, r] ↔ v ∈ [a, b, c])
    (hq : Crosses p q f) (hr : Crosses p r f) : rowSection a b c f = Set.uIcc (lineAt p q f) (lineAt p r f) := by
  rw [← rowSection_congr hmem]
  exact rowSection_eq_uIcc (.inl ⟨hq, hr⟩)

theorem rowSection_of_common_bottom {a b c p q r : Vertex} {f : Int} (hmem : ∀ v, v ∈ [p, q, r] ↔ v ∈ [a, b, c])
    (hq : Crosses q p f) (hr : Crosses r p f) : rowSection a b c f = Set.uIcc (lineAt q p f) (lineAt r p f) := by
  rw [← rowSection_congr hmem, hq.lineAt_comm, hr.lineAt_comm]
  exact rowSection_eq_uIcc (.inr ⟨hq, hr⟩)

/-! ## The rows of a triangle -/

theorem sortByY_spec (a b c : Vertex) : ∃ top middle bottom, sortByY a b c = (top, middle, bottom) ∧
    top.y.toInt = min a.y.toInt (min b.y.toInt c.y.toInt) ∧ bottom.y.toInt = max a.y.toInt (max b.y.toInt c.y.toInt) ∧
    ∀ v, v ∈ [top, middle, bottom] ↔ v ∈ [a, b, c] := by
  unfold sortByY
  simp only [Int16.lt_iff_toInt_lt]
  split_ifs with h1 h2 h3 h2 h3 <;> dsimp only at * <;> refine ⟨_, _, _, rfl, by omega, by omega, fun v => ?_⟩ <;>
    simp only [List.mem_cons] <;> tauto

theorem mem_spanBetween (long short : Edge) (x y : Int) :
    (spanBetween long short y).start ≤ x ∧ x < (spanBetween long short y).stop ↔
      min (long.xAt (16 * y + 8)) (short.xAt (16 * y + 8)) ≤ 16 * x + 8 ∧
        16 * x + 8 < max (long.xAt (16 * y + 8)) (short.xAt (16 * y + 8)) := by
  simp only [spanBetween, pixelCeil]
  omega

/-- a pixel centre is at or beyond a coordinate from that coordinate's pixel on -/
theorem pixelCeil_le_iff (coordinate p : Int) : pixelCeil coordinate ≤ p ↔ coordinate ≤ 16 * p + 8 := by
  unfold pixelCeil
  omega

theorem rows_triangleSpans (a b c : Vertex) : ∃ (first : Int) (n : Nat),
    (triangleSpans a b c).map Span.y = (List.range n).map fun (i : Nat) => first + i := by
  unfold triangleSpans
  obtain ⟨top, middle, bottom⟩ := sortByY a b c
  refine ⟨pixelCeil top.y.toInt, (pixelCeil bottom.y.toInt - pixelCeil top.y.toInt).toNat, ?_⟩
  simp only [List.map_map, Function.comp_def, spanBetween]

/-- the spans of a triangle whose vertices are in order -/
theorem mem_triangleSpans {a b c top middle bottom : Vertex} (hsort : sortByY a b c = (top, middle, bottom))
    (s : Span) : s ∈ triangleSpans a b c ↔ Crosses top bottom (16 * s.y + 8) ∧
      s = spanBetween (Edge.between top bottom) (if 16 * s.y + 8 < middle.y.toInt then Edge.between top middle
        else Edge.between middle bottom) s.y := by
  simp only [triangleSpans, hsort, List.mem_map, List.mem_range]
  constructor
  · rintro ⟨i, hi, hs⟩
    have hy : pixelCeil top.y.toInt + i = s.y := by
      rw [← hs]
      rfl
    rw [hy] at hs
    refine ⟨⟨(pixelCeil_le_iff _ _).1 (by omega), ?_⟩, hs.symm⟩
    exact not_le.1 ((pixelCeil_le_iff _ _).not.1 (by omega))
  · rintro ⟨h, hs⟩
    have hstart := (pixelCeil_le_iff _ _).2 h.started
    have hend := (pixelCeil_le_iff _ _).not.2 (not_le.2 h.ended)
    refine ⟨(s.y - pixelCeil top.y.toInt).toNat, by omega, ?_⟩
    rw [Int.toNat_of_nonneg (by omega), add_sub_cancel]
    exact hs.symm

/-- **The rows that a triangle covers** are those whose sample line is between its highest and its lowest vertex. -/
theorem mem_rows_triangleSpans (a b c : Vertex) (y : Int) : y ∈ (triangleSpans a b c).map Span.y ↔
    min a.y.toInt (min b.y.toInt c.y.toInt) ≤ 16 * y + 8 ∧ 16 * y + 8 < max a.y.toInt (max b.y.toInt c.y.toInt) := by
  obtain ⟨top, middle, bottom, hsort, htop, hbottom, -⟩ := sortByY_spec a b c
  rw [← htop, ← hbottom, List.mem_map]
  constructor
  · rintro ⟨s, hs, rfl⟩
    have hlong := ((mem_triangleSpans hsort s).1 hs).1
    exact ⟨hlong.started, hlong.ended⟩
  · rintro ⟨hstart, hend⟩
    refine ⟨spanBetween (Edge.between top bottom) (if 16 * y + 8 < middle.y.toInt then Edge.between top middle
      else Edge.between middle bottom) y, ?_, rfl⟩
    exact (mem_triangleSpans hsort _).2 ⟨⟨hstart, hend⟩, rfl⟩

/-- what the row of each span is: its height crosses two edges, between which the triangle has its columns -/
theorem exists_edges {a b c : Vertex} {s : Span} (h : s ∈ triangleSpans a b c) :
    ∃ u ∈ [a, b, c], ∃ v ∈ [a, b, c], ∃ u' ∈ [a, b, c], ∃ v' ∈ [a, b, c],
      Crosses u v (16 * s.y + 8) ∧ Crosses u' v' (16 * s.y + 8) ∧
      s = spanBetween (Edge.between u v) (Edge.between u' v') s.y ∧
      rowSection a b c (16 * s.y + 8) = Set.uIcc (lineAt u v (16 * s.y + 8)) (lineAt u' v' (16 * s.y + 8)) := by
  obtain ⟨top, middle, bottom, hsort, htop, hbottom, hmem⟩ := sortByY_spec a b c
  obtain ⟨hlong, hs⟩ := (mem_triangleSpans hsort s).1 h
  have hstart := hlong.started
  have hend := hlong.ended
  simp only [← hmem]
  by_cases hmiddle : 16 * s.y + 8 < middle.y.toInt
  · rw [if_pos hmiddle] at hs
    have hshort : Crosses top middle (16 * s.y + 8) := ⟨hstart, hmiddle⟩
    refine ⟨top, by simp, bottom, by simp, top, by simp, middle, by simp, hlong, hshort, hs, ?_⟩
    exact rowSection_of_common_top (fun v => (mem_swap ..).trans (hmem v)) hlong hshort
  · rw [if_neg hmiddle] at hs
    have hshort : Crosses middle bottom (16 * s.y + 8) := ⟨not_lt.1 hmiddle, hend⟩
    refine ⟨top, by simp, bottom, by simp, middle, by simp, bottom, by simp, hlong, hshort, hs, ?_⟩
    exact rowSection_of_common_bottom (fun v => (mem_rotate ..).trans (hmem v)) hlong hshort

theorem mem_covered (spans : List Span) (x y : Int) :
    (x, y) ∈ covered spans ↔ ∃ s ∈ spans, s.y = y ∧ s.start ≤ x ∧ x < s.stop := by
  simp only [covered, List.mem_flatMap, List.mem_map, List.mem_range, Prod.mk.injEq, Span.width]
  constructor
  · rintro ⟨s, hs, i, hi, hx, hy⟩
    exact ⟨s, hs, hy, by omega, by omega⟩
  · rintro ⟨s, hs, hy, hstart, hstop⟩
    exact ⟨s, hs, (x - s.start).toNat, by omega, by omega, hy⟩

/-- **A row against the triangle's own columns.** Covered centres are less than two sixteenths left of these columns and
never right of them, and centres among them are covered unless they are within two sixteenths of the right end. -/
theorem row_accuracy {a b c : Vertex} {s : Span} (h : s ∈ triangleSpans a b c) : ∃ l r : ℚ, l ≤ r ∧
    rowSection a b c (16 * s.y + 8) = Set.Icc l r ∧ ∀ x : Int,
      (s.start ≤ x ∧ x < s.stop → l - 2 < 16 * x + 8 ∧ 16 * x + 8 < r) ∧
      (l ≤ 16 * x + 8 ∧ 16 * x + 8 < r - 2 → s.start ≤ x ∧ x < s.stop) := by
  obtain ⟨u, -, v, -, u', -, v', -, hlong, hshort, hs, hsection⟩ := exists_edges h
  refine ⟨_, _, min_le_max, hsection, fun x => ?_⟩
  have hx := mem_spanBetween (Edge.between u v) (Edge.between u' v') x s.y
  rw [← hs] at hx
  rw [hx]
  obtain ⟨h1, h2⟩ := hlong.xAt_accuracy
  obtain ⟨h3, h4⟩ := hshort.xAt_accuracy
  generalize (Edge.between u v).xAt _ = p at *
  generalize (Edge.between u' v').xAt _ = q at *
  generalize lineAt u v _ = l at *
  generalize lineAt u' v' _ = r at *
  -- found columns and pixel centres are whole numbers, so less than one apart is not apart
  constructor
  · rintro ⟨hmin, hmax⟩
    constructor
    · rcases min_le_iff.1 hmin with hp | hq
      · have : (p : ℚ) ≤ 16 * x + 8 := by exact_mod_cast hp
        linarith [min_le_left l r]
      · have : (q : ℚ) ≤ 16 * x + 8 := by exact_mod_cast hq
        linarith [min_le_right l r]
    · rcases lt_max_iff.1 hmax with hp | hq
      · have : (16 * x + 8 + 1 : ℚ) ≤ p := by exact_mod_cast hp
        linarith [le_max_left l r]
      · have : (16 * x + 8 + 1 : ℚ) ≤ q := by exact_mod_cast hq
        linarith [le_max_right l r]
  · rintro ⟨hmin, hmax⟩
    constructor
    · rw [min_le_iff]
      rcases min_le_iff.1 hmin with hl | hr
      · have : (p : ℚ) < 16 * x + 8 + 1 := by linarith
        exact .inl (Int.lt_add_one_iff.1 (by exact_mod_cast this))
      · have : (q : ℚ) < 16 * x + 8 + 1 := by linarith
        exact .inr (Int.lt_add_one_iff.1 (by exact_mod_cast this))
    · rw [lt_max_iff]
      rcases lt_max_iff.1 (lt_sub_iff_add_lt.1 hmax) with hl | hr
      · have : (16 * x + 8 : ℚ) < p := by linarith
        exact .inl (by exact_mod_cast this)
      · have : (16 * x + 8 : ℚ) < q := by linarith
        exact .inr (by exact_mod_cast this)

/-! ## Checked evaluation -/

def divide? (n d : Int) : Option Int := if d = 0 then none else some (Int.tdiv n d)

namespace Edge

def between? (top bottom : Vertex) : Option Edge := do
  let height := bottom.y.toInt - top.y.toInt
  let slope ← if height = 0 then some 0 else divide? ((bottom.x.toInt - top.x.toInt) * 65536) height
  return ⟨top.x.toInt, top.y.toInt, slope⟩

def xAt? (e : Edge) (top bottom : Vertex) (y : Int) : Option Int :=
  if top.y.toInt ≤ y ∧ y < bottom.y.toInt then some (e.xAt y) else none

theorem between?_eq (top bottom : Vertex) : between? top bottom = some (between top bottom) := by
  unfold between? between divide?
  by_cases h : bottom.y.toInt - top.y.toInt = 0 <;> simp [h]

theorem xAt?_eq {top bottom : Vertex} {y : Int} (h : Crosses top bottom y) (e : Edge) :
    e.xAt? top bottom y = some (e.xAt y) := if_pos ⟨h.started, h.ended⟩

end Edge

/-- `triangleSpans`, step by step with every division and every height checked -/
def triangleSpans? (a b c : Vertex) : Option (List Span) := do
  let (top, middle, bottom) := sortByY a b c
  let long ← Edge.between? top bottom
  let upper ← Edge.between? top middle
  let lower ← Edge.between? middle bottom
  let first := pixelCeil top.y.toInt
  let last := pixelCeil bottom.y.toInt
  (List.range (last - first).toNat).mapM fun (i : Nat) => do
    let y := first + i
    let p ← long.xAt? top bottom (16 * y + 8)
    let q ← if 16 * y + 8 < middle.y.toInt then upper.xAt? top middle (16 * y + 8)
      else lower.xAt? middle bottom (16 * y + 8)
    return ⟨y, min (pixelCeil p) (pixelCeil q), max (pixelCeil p) (pixelCeil q)⟩

theorem mapM_eq_some {α β : Type} {f : α → Option β} {g : α → β} {l : List α} (h : ∀ a ∈ l, f a = some (g a)) :
    l.mapM f = some (l.map g) := by
  induction l with
  | nil => rfl
  | cons a l ih =>
    rw [List.mapM_cons, h a List.mem_cons_self, ih fun b hb => h b (List.mem_cons_of_mem a hb)]
    rfl

/-- **No step of a triangle's rows fails.** -/
theorem triangleSpans?_eq (a b c : Vertex) : triangleSpans? a b c = some (triangleSpans a b c) := by
  unfold triangleSpans? triangleSpans
  generalize sortByY a b c = sorted
  obtain ⟨top, middle, bottom⟩ := sorted
  simp only [Edge.between?_eq, Option.bind_eq_bind, Option.bind_some]
  refine mapM_eq_some fun i hi => ?_
  have hrow := List.mem_range.1 hi
  have hlong : Crosses top bottom (16 * (pixelCeil top.y.toInt + i) + 8) :=
    ⟨(pixelCeil_le_iff _ _).1 (by omega), not_le.1 ((pixelCeil_le_iff _ _).not.1 (by omega))⟩
  rw [Edge.xAt?_eq hlong, Option.bind_some]
  by_cases hmiddle : 16 * (pixelCeil top.y.toInt + i) + 8 < middle.y.toInt
  · rw [if_pos hmiddle, if_pos hmiddle, Edge.xAt?_eq ⟨hlong.started, hmiddle⟩]
    rfl
  · rw [if_neg hmiddle, if_neg hmiddle, Edge.xAt?_eq ⟨not_lt.1 hmiddle, hlong.ended⟩]
    rfl

/-- **Coverage follows the triangle.** The spans are for the rows whose sample line is between the highest and the
lowest vertex, each once, from top to bottom. In a row where the closed triangle has the columns `l` to `r`, covered
centres are less than two sixteenths of a pixel left of `l` and less than one right of `r`, and all centres from one
right of `l` to two left of `r` are covered. All this is found without a division by zero and without an edge taken
outside of its own heights. -/
theorem coverage_accuracy (a b c : Vertex) :
    ((triangleSpans a b c).map Span.y).Pairwise (· < ·) ∧
    (∀ y : Int, y ∈ (triangleSpans a b c).map Span.y ↔
      min a.y.toInt (min b.y.toInt c.y.toInt) ≤ 16 * y + 8 ∧ 16 * y + 8 < max a.y.toInt (max b.y.toInt c.y.toInt)) ∧
    (∀ s ∈ triangleSpans a b c, s.start ≤ s.stop ∧ ∃ l r : ℚ, l ≤ r ∧
      {x : ℚ | (x, (16 * s.y + 8 : ℚ)) ∈ closedTriangle a b c} = Set.Icc l r ∧ ∀ x : Int,
        (s.start ≤ x ∧ x < s.stop → l - 2 < 16 * x + 8 ∧ (16 * x + 8 : ℚ) < r + 1) ∧
        (l + 1 ≤ 16 * x + 8 ∧ (16 * x + 8 : ℚ) < r - 2 → s.start ≤ x ∧ x < s.stop)) ∧
    triangleSpans? a b c = some (triangleSpans a b c) := by
  refine ⟨?_, mem_rows_triangleSpans a b c, fun s hs => ⟨?_, ?_⟩, triangleSpans?_eq a b c⟩
  · obtain ⟨first, n, hrows⟩ := rows_triangleSpans a b c
    rw [hrows, List.pairwise_map]
    exact List.pairwise_lt_range.imp fun h => by omega
  · obtain ⟨u, -, v, -, u', -, v', -, -, -, hspan, -⟩ := exists_edges hs
    rw [hspan]
    exact min_le_max
  · obtain ⟨l, r, hlr, hsection, hpixels⟩ := row_accuracy hs
    refine ⟨l, r, hlr, ?_, fun x => ⟨fun hx => ?_, fun hx => ?_⟩⟩
    · rw [← hsection, rowSection]
      push_cast
      rfl
    · obtain ⟨h1, h2⟩ := (hpixels x).1 hx
      exact ⟨h1, by linarith⟩
    · exact (hpixels x).2 ⟨by linarith [hx.1], hx.2⟩

/-- the right triangle with legs of four pixels: its top row has three of them -/
theorem coverage_accuracy_right_triangle : (⟨0, 0, 3⟩ : Span) ∈ triangleSpans ⟨0, 0⟩ ⟨64, 0⟩ ⟨0, 64⟩ ∧
    (0 : Int) ≤ 3 ∧ ∃ l r : ℚ, l ≤ r ∧
      {x : ℚ | (x, (16 * (0 : Int) + 8 : ℚ)) ∈ closedTriangle ⟨0, 0⟩ ⟨64, 0⟩ ⟨0, 64⟩} = Set.Icc l r ∧ ∀ x : Int,
        (0 ≤ x ∧ x < 3 → l - 2 < 16 * x + 8 ∧ (16 * x + 8 : ℚ) < r + 1) ∧
        (l + 1 ≤ 16 * x + 8 ∧ (16 * x + 8 : ℚ) < r - 2 → 0 ≤ x ∧ x < 3) := by
  have h : (⟨0, 0, 3⟩ : Span) ∈ triangleSpans ⟨0, 0⟩ ⟨64, 0⟩ ⟨0, 64⟩ := by decide +kernel
  exact ⟨h, (coverage_accuracy ⟨0, 0⟩ ⟨64, 0⟩ ⟨0, 64⟩).2.2.1 _ h⟩

end Accel3D
