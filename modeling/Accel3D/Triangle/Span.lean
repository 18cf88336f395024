/-
The pixels that a triangle covers.

A row is covered when its sample line, half a pixel below its top, lies between the highest and the lowest vertex. In a
row, the covered columns lie between the long edge, from the highest vertex to the lowest, and the short edge on the
other side. Edges are evaluated from their upper end with a slope of 16 fraction bits that is cut towards zero, and a
column starts to be covered at the first pixel centre on or right of the edge.
-/
import Accel3D.Triangle.Gradient

namespace Accel3D

/-- the covered columns of one row, from `start` up to `stop`, excluded -/
structure Span where
  y : Int
  start : Int
  stop : Int
deriving DecidableEq, Repr, Inhabited

/-- number of pixels of a span -/
def Span.width (s : Span) : Nat := (s.stop - s.start).toNat

/-- an edge from its upper end: X there, and the step in X per unit of Y, with 16 fraction bits -/
structure Edge where
  topX : Int
  topY : Int
  slope : Int
deriving DecidableEq, Repr

namespace Edge

/-- the edge between two vertices; a level edge is given the slope 0 -/
def between (top bottom : Vertex) : Edge :=
  let height := bottom.y.toInt - top.y.toInt
  ⟨top.x.toInt, top.y.toInt, if height = 0 then 0 else Int.tdiv ((bottom.x.toInt - top.x.toInt) * 65536) height⟩

/-- X at height `y` -/
def xAt (e : Edge) (y : Int) : Int := e.topX + (y - e.topY) * e.slope / 65536

end Edge

/-- the first pixel whose centre is on or beyond a coordinate -/
def pixelCeil (coordinate : Int) : Int := (coordinate + 7) / 16

/-- three vertices by height; those of one height stay in order -/
def sortByY (a b c : Vertex) : Vertex × Vertex × Vertex :=
  let (a, b) := if b.y < a.y then (b, a) else (a, b)
  if c.y < a.y then (c, a, b) else if c.y < b.y then (a, c, b) else (a, b, c)

/-- the columns that row `y` has between two edges -/
def spanBetween (long short : Edge) (y : Int) : Span :=
  let p := pixelCeil (long.xAt (16 * y + 8))
  let q := pixelCeil (short.xAt (16 * y + 8))
  ⟨y, min p q, max p q⟩

/-- the covered rows of a triangle, from top to bottom -/
def triangleSpans (a b c : Vertex) : List Span :=
  let (top, middle, bottom) := sortByY a b c
  let long := Edge.between top bottom
  let upper := Edge.between top middle
  let lower := Edge.between middle bottom
  let first := pixelCeil top.y.toInt
  let last := pixelCeil bottom.y.toInt
  (List.range (last - first).toNat).map fun (i : Nat) =>
    let y := first + i
    spanBetween long (if 16 * y + 8 < middle.y.toInt then upper else lower) y

/-- number of covered pixels -/
def coverage (spans : List Span) : Nat := (spans.map Span.width).sum

end Accel3D
