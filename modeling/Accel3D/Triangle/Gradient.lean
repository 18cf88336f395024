/-
Triangle parameters: a start value at vertex A and its steps per pixel in X and Y.

Coordinates are 12.4 fixed point. Parameters are words and wrap: 32 bits for colors and Z, 64 bits for W and for the
texture coordinates. The subpixel correction moves a start value from vertex A to the centre of A's pixel; the offset
is in sixteenths of a pixel, so the sum of the steps is divided by 16, rounding down.
-/
import Accel3D.Word

namespace Accel3D

/-- a screen position, four fraction bits -/
structure Vertex where
  x : Int16
  y : Int16
deriving DecidableEq, Repr, Inhabited

/-- the pixel that holds the vertex -/
def Vertex.pixel (v : Vertex) : Int × Int := (v.x.toInt / 16, v.y.toInt / 16)

/-- offset from the vertex to the centre of its pixel, in sixteenths -/
def Vertex.toCentre (v : Vertex) : Int × Int := (8 - v.x.toInt % 16, 8 - v.y.toInt % 16)

/-- value at vertex A and steps per pixel -/
structure Gradient (α : Type) where
  start : α
  dx : α
  dy : α
deriving DecidableEq, Repr, Inhabited

namespace Gradient

/-- the value `x` pixels right of the start and `y` below it -/
@[inline] def valueAt {α : Type} [Add α] [Mul α] (g : Gradient α) (x y : α) : α := g.start + y * g.dy + x * g.dx

/-- the change over `x` and `y` sixteenths of a pixel -/
@[inline] def shift {α : Type} [Add α] [Mul α] [ShiftRight α] [OfNat α 4] (g : Gradient α) (x y : α) : α :=
  (y * g.dy + x * g.dx) >>> 4

/-- the start value moved by `x` and `y` sixteenths of a pixel -/
def recentre32 (g : Gradient Int32) (offset : Int × Int) : Gradient Int32 :=
  { g with start := g.start + g.shift (Int32.ofInt offset.1) (Int32.ofInt offset.2) }

/-- the start value moved by `x` and `y` sixteenths of a pixel -/
def recentre64 (g : Gradient Int64) (offset : Int × Int) : Gradient Int64 :=
  { g with start := g.start + g.shift (Int64.ofInt offset.1) (Int64.ofInt offset.2) }

end Gradient

/-- the vertices and the color, Z and W parameters of a triangle -/
structure TriangleParameters where
  a : Vertex
  b : Vertex
  c : Vertex
  red : Gradient Int32
  green : Gradient Int32
  blue : Gradient Int32
  alpha : Gradient Int32
  z : Gradient Int32
  w : Gradient Int64
deriving DecidableEq, Repr, Inhabited

namespace TriangleParameters

/-- all zero -/
def zero : TriangleParameters :=
  let g32 : Gradient Int32 := ⟨0, 0, 0⟩
  ⟨⟨0, 0⟩, ⟨0, 0⟩, ⟨0, 0⟩, g32, g32, g32, g32, g32, ⟨0, 0, 0⟩⟩

/-- every start value moved from vertex A to the centre of its pixel -/
def recentre (t : TriangleParameters) : TriangleParameters :=
  let offset := t.a.toCentre
  { t with
    red := t.red.recentre32 offset, green := t.green.recentre32 offset, blue := t.blue.recentre32 offset,
    alpha := t.alpha.recentre32 offset, z := t.z.recentre32 offset, w := t.w.recentre64 offset }

end TriangleParameters

/-- a texture coordinate of 14.32 bits, another, and W of 16.32 bits -/
structure TexCoords where
  s : Int64
  t : Int64
  w : Int64
deriving DecidableEq, Repr, Inhabited

/-- the coordinate parameters of one texture unit -/
structure TexGradients where
  s : Gradient Int64
  t : Gradient Int64
  w : Gradient Int64
deriving DecidableEq, Repr, Inhabited

namespace TexGradients

def zero : TexGradients := ⟨⟨0, 0, 0⟩, ⟨0, 0, 0⟩, ⟨0, 0, 0⟩⟩

/-- the coordinates `x` pixels right of the start and `y` below it -/
def valueAt (g : TexGradients) (x y : Int64) : TexCoords := ⟨g.s.valueAt x y, g.t.valueAt x y, g.w.valueAt x y⟩

/-- the coordinates one pixel to the right -/
def stepX (g : TexGradients) (c : TexCoords) : TexCoords := ⟨c.s + g.s.dx, c.t + g.t.dx, c.w + g.w.dx⟩

/-- every start value moved by an offset in sixteenths of a pixel -/
def recentre (g : TexGradients) (offset : Int × Int) : TexGradients :=
  ⟨g.s.recentre64 offset, g.t.recentre64 offset, g.w.recentre64 offset⟩

end TexGradients
end Accel3D
