/-
The three revisions of the chip and the constants that differ between them.
-/

namespace Accel3D

inductive Revision where
  | voodoo1
  | voodoo2
  | banshee
deriving DecidableEq, Repr, Inhabited

namespace Revision

/-- name of the product -/
def productName : Revision → String
  | voodoo1 => "Voodoo Graphics"
  | voodoo2 => "Voodoo 2"
  | banshee => "Voodoo Banshee"

/-- name in configuration files -/
def key : Revision → String
  | voodoo1 => "Voodoo1"
  | voodoo2 => "Voodoo2"
  | banshee => "Banshee"

def all : List Revision := [voodoo1, voodoo2, banshee]

def ofKey? (s : String) : Option Revision := all.find? fun r => r.key == s

/-- number in a saved state -/
def code : Revision → UInt32
  | voodoo1 => 0
  | voodoo2 => 1
  | banshee => 2

def ofCode? (n : UInt32) : Option Revision := all.find? fun r => r.code == n

/-- has the Voodoo 2 mode bits and registers -/
def isVoodoo2OrLater (r : Revision) : Bool := r != voodoo1

/-- takes buffer addresses from the Banshee registers and draws to the back buffer only -/
def hasBansheeLayout (r : Revision) : Bool := r == banshee

/-- bits of a fog table delta that enter the multiplication -/
def fogDeltaMask : Revision → Nat
  | voodoo1 => 0xFF
  | _ => 0xFC

/-- fraction bits of a bilinear weight -/
def bilinearMask : Revision → Int32
  | voodoo1 => 0xF0
  | _ => 0xFF

/-- bits of a texture base address register -/
def textureAddressMask : Revision → UInt32
  | banshee => 0xFFFFF0
  | _ => 0x0FFFFF

/-- places that a texture base address moves up -/
def textureAddressShift : Revision → UInt32
  | banshee => 0
  | _ => 3

/-- pixels in the width of a frame buffer tile -/
def tileWidth : Revision → UInt32
  | voodoo1 => 64
  | _ => 32

/-- has the second palette, with alpha -/
def hasAlphaPalette (r : Revision) : Bool := r != voodoo1

end Revision
end Accel3D
