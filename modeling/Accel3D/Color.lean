/-
Colors of eight bits a channel, and the packed formats that expand to them. A packed color is read from the low bits
of a word.

A packed channel is widened by repeating its high bits below, so that zero stays 0 and full intensity becomes 255.
-/
import Accel3D.Word

namespace Accel3D

/-! ## Widening to eight bits -/

def widen2 (v : Nat) : UInt8 := UInt8.ofNat (85 * v)

def widen3 (v : Nat) : UInt8 := UInt8.ofNat (36 * v + v / 2)

def widen4 (v : Nat) : UInt8 := UInt8.ofNat (17 * v)

def widen5 (v : Nat) : UInt8 := UInt8.ofNat (8 * v + v / 4)

def widen6 (v : Nat) : UInt8 := UInt8.ofNat (4 * v + v / 16)

/-! ## Colors -/

/-- alpha, red, green and blue -/
structure Argb where
  a : UInt8
  r : UInt8
  g : UInt8
  b : UInt8
deriving DecidableEq, Repr, Inhabited

namespace Argb

/-- black with alpha 0 -/
def black : Argb := ⟨0, 0, 0, 0⟩

/-- alpha in the high byte, blue in the low byte -/
def ofWord (w : UInt32) : Argb :=
  ⟨(w >>> 24).toUInt8, (w >>> 16).toUInt8, (w >>> 8).toUInt8, w.toUInt8⟩

def toWord (c : Argb) : UInt32 :=
  (c.a.toUInt32 <<< 24) ||| (c.r.toUInt32 <<< 16) ||| (c.g.toUInt32 <<< 8) ||| c.b.toUInt32

/-- the word without its alpha -/
def rgb (c : Argb) : UInt32 := c.toWord &&& 0x00FFFFFF

def withAlpha (c : Argb) (a : UInt8) : Argb := { c with a := a }

/-- red and blue exchanged -/
def swapRedBlue (c : Argb) : Argb := { c with r := c.b, b := c.r }

/-- three bits of red, three of green, two of blue; opaque -/
def ofRgb332 (w : UInt32) : Argb := ⟨0xFF, widen3 (field w 5 3), widen3 (field w 2 3), widen2 (field w 0 2)⟩

/-- five bits of red, six of green, five of blue; opaque -/
def ofRgb565 (w : UInt32) : Argb := ⟨0xFF, widen5 (field w 11 5), widen6 (field w 5 6), widen5 (field w 0 5)⟩

/-- five bits of each color under one unused bit; opaque -/
def ofRgb555 (w : UInt32) : Argb := ⟨0xFF, widen5 (field w 10 5), widen5 (field w 5 5), widen5 (field w 0 5)⟩

/-- one bit of alpha, five bits of each color -/
def ofArgb1555 (w : UInt32) : Argb := (ofRgb555 w).withAlpha (if bit w 15 then 0xFF else 0)

/-- four bits of each channel -/
def ofArgb4444 (w : UInt32) : Argb :=
  ⟨widen4 (field w 12 4), widen4 (field w 8 4), widen4 (field w 4 4), widen4 (field w 0 4)⟩

/-- six bits of each channel, alpha highest -/
def ofArgb6666 (w : UInt32) : Argb :=
  ⟨widen6 (field w 18 6), widen6 (field w 12 6), widen6 (field w 6 6), widen6 (field w 0 6)⟩

/-- one intensity for the three colors -/
def gray (a i : UInt8) : Argb := ⟨a, i, i, i⟩

end Argb
end Accel3D
