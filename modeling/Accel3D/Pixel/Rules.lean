/-
What the pixel pipeline does, as the registers say it.

`PixelRules` holds the registers that stay fixed while a triangle is drawn or a linear write is carried out. `Surface`
says where in the frame buffer memory the pixels lie.
-/
import Accel3D.Combine
import Accel3D.Register.Mode
import Accel3D.Revision

namespace Accel3D

structure PixelRules where
  frame : FrameMode
  path : ColorPath
  alpha : AlphaMode
  fog : FogMode
  combine : Combine
  clip : ClipRect
  color0 : Argb
  color1 : Argb
  fogColor : Argb
  zaColor : UInt32
  chromaKey : UInt32
  chromaRange : ChromaRange
  fogDeltaMask : Nat
  hasFloatZ : Bool
deriving DecidableEq, Repr

namespace PixelRules

/-- the rules of the registers, with a given combine unit -/
def ofRegisters (revision : Revision) (regs : RegisterFile) (combine : Combine) : PixelRules where
  frame := FrameMode.decode (regs.get Reg.fbzMode)
  path := ColorPath.decode (regs.get Reg.fbzColorPath)
  alpha := AlphaMode.decode (regs.get Reg.alphaMode)
  fog := FogMode.decode (regs.get Reg.fogMode)
  combine := combine
  clip := ClipRect.decode (regs.get Reg.clipLeftRight) (regs.get Reg.clipLowYHighY)
  color0 := Argb.ofWord (regs.get Reg.color0)
  color1 := Argb.ofWord (regs.get Reg.color1)
  fogColor := Argb.ofWord (regs.get Reg.fogColor)
  zaColor := regs.get Reg.zaColor
  chromaKey := regs.get Reg.chromaKey
  chromaRange := ChromaRange.decode (regs.get Reg.chromaRange)
  fogDeltaMask := revision.fogDeltaMask
  hasFloatZ := revision.isVoodoo2OrLater

end PixelRules

/-- a color buffer and perhaps an aux buffer, with the same row length -/
structure Surface where
  colorBase : UInt32
  auxBase : Option UInt32
  rowPixels : UInt32
deriving DecidableEq, Repr

namespace Surface

/-- byte distance of a pixel from the start of its buffer -/
def offset (s : Surface) (x y : Int) : UInt32 := (UInt32.ofInt y * s.rowPixels + UInt32.ofInt x) * 2

/-- address of a pixel in the color buffer -/
def color (s : Surface) (x y : Int) : UInt32 := s.colorBase + s.offset x y

/-- address of a pixel in the aux buffer -/
def aux (s : Surface) (x y : Int) : Option UInt32 := s.auxBase.map fun base => base + s.offset x y

end Surface

/-- a pixel's place: raster coordinates for dithering and stippling, and the row after the Y flip for the rest -/
structure PixelPosition where
  x : Int
  y : Int
  screenY : Int
deriving DecidableEq, Repr

/-- the iterated values of a pixel: color, Z with 12 fraction bits and W with 32 -/
structure Fragment where
  color : Argb
  z : Int32
  w : Int64
deriving DecidableEq, Repr

/-- the depth that is tested and stored, and the floating depth of W that fog uses -/
structure PixelDepth where
  depth : Int
  wFloat : Nat
deriving DecidableEq, Repr

end Accel3D
