/-
What the rows of a triangle do not depend on.

Vertices are sorted by height, so the order in which they are listed can only matter for vertices of one height. Two of
them at the top are joined by a level edge that no row crosses: all rows lie between the two edges that end at the
lowest vertex (`sortedSpans_level_top`). Two of them at the bottom leave all rows between the two edges that start at
the highest (`sortedSpans_level_bottom`). A row does not say which of its edges is the long one (`spanBetween_comm`), so
exchanging the two changes nothing.

A move by whole pixels keeps the order of the heights and the slopes, and moves the column of an edge and the pixel of a
column with it.

Results: `triangleSpans_of_perm`, `triangleSpans_move`, `triangleSpans_symmetries` (both).
-/
import Accel3D.Proofs.Coverage

namespace Accel3D

/-! ## The order of the vertices -/

theorem spanBetween_comm (long short : Edge) (y : Int) : spanBetween long short y = spanBetween short long y := by
  simp only [spanBetween, min_comm, max_comm]

/-- the covered rows of a triangle whose vertices are in order -/
def sortedSpans (top middle bottom : Vertex) : List Span :=
  (List.range (pixelCeil bottom.y.toInt - pixelCeil top.y.toInt).toNat).map fun (i : Nat) =>
    spanBetween (Edge.between top bottom) (if 16 * (pixelCeil top.y.toInt + i) + 8 < middle.y.toInt then
      Edge.between top middle else Edge.between middle bottom) (pixelCeil top.y.toInt + i)

theorem triangleSpans_eq {a b c top middle bottom : Vertex} (h : sortByY a b c = (top, middle, bottom)) :
    triangleSpans a b c = sortedSpans top middle bottom := by
  simp only [triangleSpans, h]
  rfl

/-- the two vertices of a level top may change places -/
theorem sortedSpans_level_top {p q bottom : Vertex} (h : p.y.toInt = q.y.toInt) :
    sortedSpans p q bottom = sortedSpans q p bottom := by
  simp only [sortedSpans, h]
  refine List.map_congr_left fun i hi => ?_
  have hrow : ¬ 16 * (pixelCeil q.y.toInt + i) + 8 < q.y.toInt := not_lt.2 ((pixelCeil_le_iff _ _).1 (by omega))
  rw [if_neg hrow, if_neg hrow, spanBetween_comm]

/-- the two vertices of a level bottom may change places -/
theorem sortedSpans_level_bottom {top p q : Vertex} (h : p.y.toInt = q.y.toInt) :
    sortedSpans top p q = sortedSpans top q p := by
  simp only [sortedSpans, h]
  refine List.map_congr_left fun i hi => ?_
  have hi := List.mem_range.1 hi
  have hrow : 16 * (pixelCeil top.y.toInt + i) + 8 < q.y.toInt :=
    not_le.1 ((pixelCeil_le_iff _ _).not.1 (by omega))
  rw [if_pos hrow, if_pos hrow, spanBetween_comm]

theorem of_perm_pair {P : Vertex → Vertex → Prop} (swap : ∀ p q, P p q → P q p) {p q p' q' : Vertex}
    (h : [p', q'].Perm [p, q]) (hp : P p q) : P p' q' := by
  have hmem := h.subset List.mem_cons_self
  simp only [List.mem_cons, List.not_mem_nil, or_false] at hmem
  rcases hmem with rfl | rfl
  · obtain rfl : q' = q := List.singleton_perm_singleton.1 h.cons_inv
    exact hp
  · obtain rfl : q' = p := List.singleton_perm_singleton.1 (h.trans (.swap _ _ _)).cons_inv
    exact swap _ _ hp

/-- what neighbours in a list of three may change places for, any order of the list will do for -/
theorem of_perm_three {P : Vertex → Vertex → Vertex → Prop} (first : ∀ p q r, P p q r → P q p r)
    (last : ∀ p q r, P p q r → P p r q) {p q r p' q' r' : Vertex} (h : [p', q', r'].Perm [p, q, r]) (hp : P p q r) :
    P p' q' r' := by
  have hmem := h.subset List.mem_cons_self
  simp only [List.mem_cons, List.not_mem_nil, or_false] at hmem
  rcases hmem with rfl | rfl | rfl
  · exact of_perm_pair (last p') h.cons_inv hp
  · exact of_perm_pair (last p') (h.trans (.swap _ _ _)).cons_inv (first _ _ _ hp)
  · have hfront : [p, q, p'].Perm [p', p, q] := (List.Perm.cons p (.swap _ _ _)).trans (.swap _ _ _)
    exact of_perm_pair (last p') (h.trans hfront).cons_inv (first _ _ _ (last _ _ _ hp))

theorem triangleSpans_swap_first (a b c : Vertex) : triangleSpans b a c = triangleSpans a b c := by
  by_cases h : a.y.toInt = b.y.toInt
  · by_cases hc : c.y.toInt < a.y.toInt
    · have hsort : sortByY a b c = (c, a, b) := by simp [sortByY, Int16.lt_iff_toInt_lt, ← h, hc]
      have hsort' : sortByY b a c = (c, b, a) := by simp [sortByY, Int16.lt_iff_toInt_lt, ← h, hc]
      rw [triangleSpans_eq hsort, triangleSpans_eq hsort', sortedSpans_level_bottom h]
    · have hsort : sortByY a b c = (a, b, c) := by simp [sortByY, Int16.lt_iff_toInt_lt, ← h, hc]
      have hsort' : sortByY b a c = (b, a, c) := by simp [sortByY, Int16.lt_iff_toInt_lt, ← h, hc]
      rw [triangleSpans_eq hsort, triangleSpans_eq hsort', sortedSpans_level_top h]
  · have hsort : sortByY b a c = sortByY a b c := by grind [sortByY, Int16.lt_iff_toInt_lt]
    rw [triangleSpans, hsort, triangleSpans]

theorem triangleSpans_swap_last (a b c : Vertex) : triangleSpans a c b = triangleSpans a b c := by
  by_cases h : b.y.toInt = c.y.toInt
  · by_cases hb : b.y.toInt < a.y.toInt
    · have hsort : sortByY a b c = (b, c, a) := by simp [sortByY, Int16.lt_iff_toInt_lt, ← h, hb]
      have hsort' : sortByY a c b = (c, b, a) := by simp [sortByY, Int16.lt_iff_toInt_lt, ← h, hb]
      rw [triangleSpans_eq hsort, triangleSpans_eq hsort', sortedSpans_level_top h]
    · have hsort : sortByY a b c = (a, b, c) := by simp [sortByY, Int16.lt_iff_toInt_lt, ← h, hb]
      have hsort' : sortByY a c b = (a, c, b) := by simp [sortByY, Int16.lt_iff_toInt_lt, ← h, hb]
      rw [triangleSpans_eq hsort, triangleSpans_eq hsort', sortedSpans_level_bottom h]
  · have hsort : sortByY a c b = sortByY a b c := by grind [sortByY, Int16.lt_iff_toInt_lt]
    rw [triangleSpans, hsort, triangleSpans]

/-- **The order of the vertices does not matter.** -/
theorem triangleSpans_of_perm {a b c a' b' c' : Vertex} (h : [a', b', c'].Perm [a, b, c]) :
    triangleSpans a' b' c' = triangleSpans a b c :=
  of_perm_three (P := fun p q r => triangleSpans p q r = triangleSpans a b c)
    (fun p q r hp => (triangleSpans_swap_first p q r).trans hp)
    (fun p q r hp => (triangleSpans_swap_last p q r).trans hp) h rfl

/-! ## Moves by whole pixels -/

def Vertex.move (v : Vertex) (i j : Int) : Vertex := ⟨Int16.ofInt (v.x.toInt + 16 * i), Int16.ofInt (v.y.toInt + 16 * j)⟩

def Span.move (s : Span) (i j : Int) : Span := ⟨s.y + j, s.start + i, s.stop + i⟩

def Edge.move (e : Edge) (i j : Int) : Edge := ⟨e.topX + 16 * i, e.topY + 16 * j, e.slope⟩

/-- a vertex that a move leaves in the range of coordinates -/
structure Vertex.StaysOn (v : Vertex) (i j : Int) : Prop where
  x : -32768 ≤ v.x.toInt + 16 * i ∧ v.x.toInt + 16 * i < 32768
  y : -32768 ≤ v.y.toInt + 16 * j ∧ v.y.toInt + 16 * j < 32768

namespace Vertex.StaysOn

variable {v w : Vertex} {i j : Int}

theorem x_move (h : v.StaysOn i j) : (v.move i j).x.toInt = v.x.toInt + 16 * i :=
  Int16.toInt_ofInt_of_le h.x.1 h.x.2

theorem y_move (h : v.StaysOn i j) : (v.move i j).y.toInt = v.y.toInt + 16 * j :=
  Int16.toInt_ofInt_of_le h.y.1 h.y.2

theorem lt_move (hv : v.StaysOn i j) (hw : w.StaysOn i j) : (v.move i j).y < (w.move i j).y ↔ v.y < w.y := by
  rw [Int16.lt_iff_toInt_lt, Int16.lt_iff_toInt_lt, hv.y_move, hw.y_move]
  omega

theorem between_move (hv : v.StaysOn i j) (hw : w.StaysOn i j) :
    Edge.between (v.move i j) (w.move i j) = (Edge.between v w).move i j := by
  simp only [Edge.between, Edge.move, hv.x_move, hv.y_move, hw.x_move, hw.y_move, add_sub_add_right_eq_sub]

end Vertex.StaysOn

theorem Edge.xAt_move (e : Edge) (i j y : Int) : (e.move i j).xAt (y + 16 * j) = e.xAt y + 16 * i := by
  simp only [Edge.xAt, Edge.move, add_sub_add_right_eq_sub]
  ring

theorem pixelCeil_add (coordinate i : Int) : pixelCeil (coordinate + 16 * i) = pixelCeil coordinate + i := by
  unfold pixelCeil
  omega

theorem spanBetween_move (long short : Edge) (i j y : Int) :
    spanBetween (long.move i j) (short.move i j) (y + j) = (spanBetween long short y).move i j := by
  have hline : 16 * (y + j) + 8 = 16 * y + 8 + 16 * j := by ring
  simp only [spanBetween, Span.move, hline, Edge.xAt_move, pixelCeil_add, min_add_add_right, max_add_add_right]

theorem sortByY_move {a b c top middle bottom : Vertex} {i j : Int} (ha : a.StaysOn i j) (hb : b.StaysOn i j)
    (hc : c.StaysOn i j) (h : sortByY a b c = (top, middle, bottom)) :
    sortByY (a.move i j) (b.move i j) (c.move i j) = (top.move i j, middle.move i j, bottom.move i j) := by
  grind [sortByY, Vertex.StaysOn.lt_move]

theorem sortedSpans_move {top middle bottom : Vertex} {i j : Int} (htop : top.StaysOn i j)
    (hmiddle : middle.StaysOn i j) (hbottom : bottom.StaysOn i j) :
    sortedSpans (top.move i j) (middle.move i j) (bottom.move i j) =
      (sortedSpans top middle bottom).map fun s => s.move i j := by
  simp only [sortedSpans, htop.between_move hmiddle, htop.between_move hbottom, hmiddle.between_move hbottom,
    htop.y_move, hmiddle.y_move, hbottom.y_move, pixelCeil_add, add_sub_add_right_eq_sub, List.map_map]
  refine List.map_congr_left fun n _ => ?_
  have hrow : pixelCeil top.y.toInt + j + n = pixelCeil top.y.toInt + n + j := by ring
  have hline : 16 * (pixelCeil top.y.toInt + n + j) + 8 < middle.y.toInt + 16 * j ↔
      16 * (pixelCeil top.y.toInt + n) + 8 < middle.y.toInt := by omega
  simp only [hrow, hline, Function.comp_apply, ← spanBetween_move, apply_ite (fun e : Edge => e.move i j)]

/-- **A move by whole pixels moves the rows.** -/
theorem triangleSpans_move {a b c : Vertex} {i j : Int} (ha : a.StaysOn i j) (hb : b.StaysOn i j)
    (hc : c.StaysOn i j) :
    triangleSpans (a.move i j) (b.move i j) (c.move i j) = (triangleSpans a b c).map fun s => s.move i j := by
  obtain ⟨top, middle, bottom, hsort, -, -, hmem⟩ := sortByY_spec a b c
  have hstays : ∀ v ∈ [top, middle, bottom], v.StaysOn i j := by
    intro v hv
    rw [hmem] at hv
    simp only [List.mem_cons, List.not_mem_nil, or_false] at hv
    rcases hv with rfl | rfl | rfl
    · exact ha
    · exact hb
    · exact hc
  rw [triangleSpans_eq (sortByY_move ha hb hc hsort), triangleSpans_eq hsort]
  exact sortedSpans_move (hstays top (by simp)) (hstays middle (by simp)) (hstays bottom (by simp))

/-- **The rows of a triangle** are the same in whatever order its vertices are listed, and a move of all three by whole
pixels that leaves them in the range of coordinates moves the rows by as many pixels. -/
theorem triangleSpans_symmetries :
    (∀ a b c a' b' c' : Vertex, [a', b', c'].Perm [a, b, c] → triangleSpans a' b' c' = triangleSpans a b c) ∧
    ∀ (a b c : Vertex) (i j : Int), a.StaysOn i j → b.StaysOn i j → c.StaysOn i j →
      triangleSpans (a.move i j) (b.move i j) (c.move i j) = (triangleSpans a b c).map fun s => s.move i j :=
  ⟨fun _ _ _ _ _ _ h => triangleSpans_of_perm h, fun _ _ _ _ _ ha hb hc => triangleSpans_move ha hb hc⟩

/-- the right triangle with legs of four pixels, whose top is level: listed from its right corner, and five pixels to the
left and two up -/
theorem triangleSpans_symmetries_level_top :
    [(⟨64, 0⟩ : Vertex), ⟨0, 64⟩, ⟨0, 0⟩].Perm [⟨0, 0⟩, ⟨64, 0⟩, ⟨0, 64⟩] ∧
    triangleSpans ⟨64, 0⟩ ⟨0, 64⟩ ⟨0, 0⟩ = triangleSpans ⟨0, 0⟩ ⟨64, 0⟩ ⟨0, 64⟩ ∧
    (Vertex.mk 0 0).StaysOn (-5) (-2) ∧ (Vertex.mk 64 0).StaysOn (-5) (-2) ∧ (Vertex.mk 0 64).StaysOn (-5) (-2) ∧
    triangleSpans ((Vertex.mk 0 0).move (-5) (-2)) ((Vertex.mk 64 0).move (-5) (-2)) ((Vertex.mk 0 64).move (-5) (-2)) =
      (triangleSpans ⟨0, 0⟩ ⟨64, 0⟩ ⟨0, 64⟩).map fun s => s.move (-5) (-2) := by
  have hperm : [(⟨64, 0⟩ : Vertex), ⟨0, 64⟩, ⟨0, 0⟩].Perm [⟨0, 0⟩, ⟨64, 0⟩, ⟨0, 64⟩] := by decide
  have ha : (Vertex.mk 0 0).StaysOn (-5) (-2) := ⟨by decide, by decide⟩
  have hb : (Vertex.mk 64 0).StaysOn (-5) (-2) := ⟨by decide, by decide⟩
  have hc : (Vertex.mk 0 64).StaysOn (-5) (-2) := ⟨by decide, by decide⟩
  exact ⟨hperm, triangleSpans_symmetries.1 _ _ _ _ _ _ hperm, ha, hb, hc,
    triangleSpans_symmetries.2 _ _ _ _ _ ha hb hc⟩

end Accel3D
