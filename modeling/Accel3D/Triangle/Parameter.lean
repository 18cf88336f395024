/-
The parameter registers.

A triangle has eight parameters, and each has a start value, an X step and a Y step. They are written as integers or as
singles. Colors and alpha have 24 bits with 12 fraction bits, Z 32 bits with 12, S and T 32 bits with 18, W 32 bits with
30; S, T and W are held with 32 fraction bits. S and T belong to the texture units, W to both sides, the others to the
frame buffer side.
-/
import Accel3D.Single
import Accel3D.Triangle.Gradient

namespace Accel3D

/-- the terms of a gradient, in register order -/
inductive GradientTerm where
  | start
  | dx
  | dy
deriving DecidableEq, Repr, Inhabited

namespace GradientTerm

/-- the gradient with one term replaced -/
def replace {α : Type} (term : GradientTerm) (g : Gradient α) (v : α) : Gradient α :=
  match term with
  | start => { g with start := v }
  | dx => { g with dx := v }
  | dy => { g with dy := v }

def ofIndex : Nat → GradientTerm
  | 0 => start
  | 1 => dx
  | _ => dy

end GradientTerm

/-- parameters of the frame buffer side only, in 32 bits -/
inductive PixelParameter where
  | red
  | green
  | blue
  | z
  | alpha
deriving DecidableEq, Repr, Inhabited

/-- texture coordinates, in 64 bits; W is on both sides -/
inductive CoordParameter where
  | s
  | t
  | w
deriving DecidableEq, Repr, Inhabited

/-- how a register's word is to be read -/
inductive NumberForm where
  | integer
  | single
deriving DecidableEq, Repr, Inhabited

namespace PixelParameter

/-- the value that a word gives -/
def value (p : PixelParameter) (form : NumberForm) (data : UInt32) : Int32 :=
  match form, p with
  | .single, _ => Single.toFixed32 data 12
  | .integer, z => data.toInt32
  | .integer, _ => Int32.ofInt (signed data 24)

end PixelParameter

namespace CoordParameter

/-- the value that a word gives -/
def value (p : CoordParameter) (form : NumberForm) (data : UInt32) : Int64 :=
  match form, p with
  | .single, _ => Single.toFixed64 data 32
  | .integer, w => data.toInt32.toInt64 <<< 2
  | .integer, _ => data.toInt32.toInt64 <<< 14

end CoordParameter

/-- a vertex coordinate that a word gives -/
def NumberForm.coordinate (form : NumberForm) (data : UInt32) : Int16 :=
  match form with
  | .integer => data.toInt32.toInt16
  | .single => (Single.toFixed32 data 4).toInt16

namespace TriangleParameters

/-- one term of a 32-bit parameter replaced -/
def writePixel (t : TriangleParameters) (p : PixelParameter) (term : GradientTerm) (v : Int32) : TriangleParameters :=
  match p with
  | .red => { t with red := term.replace t.red v }
  | .green => { t with green := term.replace t.green v }
  | .blue => { t with blue := term.replace t.blue v }
  | .z => { t with z := term.replace t.z v }
  | .alpha => { t with alpha := term.replace t.alpha v }

/-- one term of a coordinate replaced; only W is held on this side -/
def writeCoord (t : TriangleParameters) (p : CoordParameter) (term : GradientTerm) (v : Int64) : TriangleParameters :=
  match p with
  | .w => { t with w := term.replace t.w v }
  | _ => t

/-- a vertex coordinate replaced: X and Y of A, of B and of C -/
def writeVertex (t : TriangleParameters) (n : Fin 6) (v : Int16) : TriangleParameters :=
  match n with
  | 0 => { t with a := ⟨v, t.a.y⟩ }
  | 1 => { t with a := ⟨t.a.x, v⟩ }
  | 2 => { t with b := ⟨v, t.b.y⟩ }
  | 3 => { t with b := ⟨t.b.x, v⟩ }
  | 4 => { t with c := ⟨v, t.c.y⟩ }
  | 5 => { t with c := ⟨t.c.x, v⟩ }

end TriangleParameters

/-- one term of a coordinate replaced -/
def TexGradients.write (g : TexGradients) (p : CoordParameter) (term : GradientTerm) (v : Int64) : TexGradients :=
  match p with
  | .s => { g with s := term.replace g.s v }
  | .t => { g with t := term.replace g.t v }
  | .w => { g with w := term.replace g.w v }

end Accel3D
