/-
The triangle setup unit of Voodoo 2.

The host streams vertices of single-precision values. The unit keeps the last three and, from the third on, works out
start values and steps for every parameter that its mode enables. A strip moves every vertex down one slot; a fan keeps
the first. A triangle that faces the wrong way can be dropped; in a strip every second triangle faces the other way.

Vertices are kept as the raw words of their singles.
-/
import Accel3D.Single
import Accel3D.Texture.Unit

namespace Accel3D

/-- sSetupMode -/
structure SetupMode where
  colors : Bool
  alpha : Bool
  z : Bool
  wb : Bool
  w0 : Bool
  st0 : Bool
  w1 : Bool
  st1 : Bool
  fan : Bool
  culling : Bool
  cullingSign : Bool
  disablePingPong : Bool
deriving DecidableEq, Repr

def SetupMode.decode (w : UInt32) : SetupMode where
  colors := bit w 0
  alpha := bit w 1
  z := bit w 2
  wb := bit w 3
  w0 := bit w 4
  st0 := bit w 5
  w1 := bit w 6
  st1 := bit w 7
  fan := bit w 16
  culling := bit w 17
  cullingSign := bit w 18
  disablePingPong := bit w 19

/-- the singles of a vertex, as words -/
structure SetupVertex where
  x : UInt32
  y : UInt32
  z : UInt32
  wb : UInt32
  r : UInt32
  g : UInt32
  b : UInt32
  a : UInt32
  s0 : UInt32
  t0 : UInt32
  w0 : UInt32
  s1 : UInt32
  t1 : UInt32
  w1 : UInt32
deriving DecidableEq, Repr, Inhabited

namespace SetupVertex

def zero : SetupVertex := ⟨0, 0, 0, 0, 0, 0, 0, 0, 0, 0, 0, 0, 0, 0⟩

/-- the vertex that the setup registers hold -/
def ofRegisters (regs : RegisterFile) : SetupVertex where
  x := regs.get Reg.setupX
  y := regs.get Reg.setupY
  z := regs.get Reg.setupZ
  wb := regs.get Reg.setupWb
  r := regs.get Reg.setupRed
  g := regs.get Reg.setupGreen
  b := regs.get Reg.setupBlue
  a := regs.get Reg.setupAlpha
  s0 := regs.get Reg.setupS0
  t0 := regs.get Reg.setupT0
  w0 := regs.get Reg.setupW0
  s1 := regs.get Reg.setupS1
  t1 := regs.get Reg.setupT1
  w1 := regs.get Reg.setupW1

/-- a packed color unpacked into the four color registers -/
def unpackColor (regs : RegisterFile) (data : UInt32) : RegisterFile :=
  let c := Argb.ofWord data
  (((regs.set Reg.setupAlpha (Single.ofByte c.a)).set Reg.setupRed (Single.ofByte c.r)).set
    Reg.setupGreen (Single.ofByte c.g)).set Reg.setupBlue (Single.ofByte c.b)

end SetupVertex

/-! ## The plane of a triangle -/

/-- the terms that the steps of all parameters share -/
structure Plane where
  divisor : Float32
  dx1 : Float32
  dx2 : Float32
  dy1 : Float32
  dy2 : Float32

namespace Plane

/-- the plane over three positions; the divisor is one over twice the signed area -/
def through (x0 y0 x1 y1 x2 y2 : Float32) : Plane where
  divisor := 1.0 / ((x0 - x1) * (y0 - y2) - (x0 - x2) * (y0 - y1))
  dx1 := y0 - y2
  dx2 := y0 - y1
  dy1 := x0 - x1
  dy2 := x0 - x2

/-- X and Y steps of a parameter with these values at the vertices, scaled -/
def steps (p : Plane) (v0 v1 v2 scale : Float32) : Float32 × Float32 :=
  let factor := p.divisor * scale
  (((v0 - v1) * p.dx1 - (v0 - v2) * p.dx2) * factor, ((v0 - v2) * p.dy1 - (v0 - v1) * p.dy2) * factor)

/-- a parameter with 12 fraction bits -/
def gradient32 (p : Plane) (v0 v1 v2 : Float32) : Gradient Int32 :=
  let (dx, dy) := p.steps v0 v1 v2 4096.0
  ⟨(v0 * 4096.0).toInt32, dx.toInt32, dy.toInt32⟩

/-- a parameter with 32 fraction bits -/
def gradient64 (p : Plane) (v0 v1 v2 : Float32) : Gradient Int64 :=
  let (dx, dy) := p.steps v0 v1 v2 4294967296.0
  ⟨(v0 * 4294967296.0).toInt64, dx.toInt64, dy.toInt64⟩

end Plane

/-! ## The unit -/

/-- the last three vertices and how many have come since the strip or fan began -/
structure SetupUnit where
  v0 : SetupVertex
  v1 : SetupVertex
  v2 : SetupVertex
  count : UInt32
deriving DecidableEq, Repr, Inhabited

namespace SetupUnit

def initial : SetupUnit := ⟨.zero, .zero, .zero, 0⟩

/-- a strip or fan begins: its first vertex fills every slot -/
def begin (v : SetupVertex) : SetupUnit := ⟨v, v, v, 1⟩

/-- the next vertex -/
def push (u : SetupUnit) (fan : Bool) (v : SetupVertex) : SetupUnit :=
  ⟨if fan then u.v0 else u.v1, u.v2, v, if u.count = 0xFFFFFFFF then u.count else u.count + 1⟩

/-- three vertices have come -/
def isComplete (u : SetupUnit) : Bool := 3 ≤ u.count

/-- the plane of the three vertices -/
def plane (u : SetupUnit) : Plane :=
  let f := Float32.ofBits
  .through (f u.v0.x) (f u.v0.y) (f u.v1.x) (f u.v1.y) (f u.v2.x) (f u.v2.y)

/-- the sign that a dropped triangle has: the mode's, inverted for every second triangle of a strip -/
def droppedSign (u : SetupUnit) (mode : SetupMode) : Bool :=
  if !mode.fan && !mode.disablePingPong then mode.cullingSign != bit (u.count - 3) 0 else mode.cullingSign

/-- whether the triangle is dropped because of the way it faces -/
def isCulled (u : SetupUnit) (mode : SetupMode) : Bool :=
  mode.culling && (u.plane.divisor < 0.0) == u.droppedSign mode

/-- a position in 12.4 fixed point -/
def position (v : SetupVertex) : Vertex :=
  ⟨(Float32.ofBits v.x * 16.0).toInt16, (Float32.ofBits v.y * 16.0).toInt16⟩

/-- a 32-bit parameter of the triangle -/
def parameter32 (u : SetupUnit) (value : SetupVertex → UInt32) : Gradient Int32 :=
  u.plane.gradient32 (.ofBits (value u.v0)) (.ofBits (value u.v1)) (.ofBits (value u.v2))

/-- a 64-bit parameter of the triangle -/
def parameter64 (u : SetupUnit) (value : SetupVertex → UInt32) : Gradient Int64 :=
  u.plane.gradient64 (.ofBits (value u.v0)) (.ofBits (value u.v1)) (.ofBits (value u.v2))

/-- the triangle's parameters on the frame buffer side -/
def triangle (u : SetupUnit) (mode : SetupMode) (t : TriangleParameters) : TriangleParameters where
  a := position u.v0
  b := position u.v1
  c := position u.v2
  red := if mode.colors then u.parameter32 (·.r) else t.red
  green := if mode.colors then u.parameter32 (·.g) else t.green
  blue := if mode.colors then u.parameter32 (·.b) else t.blue
  alpha := if mode.alpha then u.parameter32 (·.a) else t.alpha
  z := if mode.z then u.parameter32 (·.z) else t.z
  w := if mode.wb then u.parameter64 (·.wb) else t.w

/-- the W of texture unit `i`: its own on the second unit, that of the first, or that of the frame buffer side -/
def textureW (u : SetupUnit) (mode : SetupMode) (i : Nat) (w : Gradient Int64) : Gradient Int64 :=
  if i = 1 && mode.w1 then u.parameter64 (·.w1)
  else if mode.w0 then u.parameter64 (·.w0)
  else if mode.wb then u.parameter64 (·.wb)
  else w

/-- the coordinate parameters of texture unit `i` -/
def gradients (u : SetupUnit) (mode : SetupMode) (i : Nat) (g : TexGradients) : TexGradients :=
  let w := u.textureW mode i g.w
  if i = 1 && mode.st1 then ⟨u.parameter64 (·.s1), u.parameter64 (·.t1), w⟩
  else if mode.st0 then ⟨u.parameter64 (·.s0), u.parameter64 (·.t0), w⟩
  else { g with w := w }

end SetupUnit
end Accel3D
