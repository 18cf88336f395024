/-
The mode registers, decoded.

Each mode register is read once into a record whose fields say what the pipeline does. Reserved codes are given the
meaning that the chip gives them: an unknown blend factor is zero, an unknown comparison cannot occur in three bits.
-/
import Accel3D.Color
import Accel3D.Register.Number

namespace Accel3D

/-! ## Comparisons and blend factors -/

/-- the comparison of the depth and alpha tests -/
inductive Comparison where
  | never
  | less
  | equal
  | lessOrEqual
  | greater
  | notEqual
  | greaterOrEqual
  | always
deriving DecidableEq, Repr, Inhabited

namespace Comparison

def ofCode : Nat → Comparison
  | 0 => never
  | 1 => less
  | 2 => equal
  | 3 => lessOrEqual
  | 4 => greater
  | 5 => notEqual
  | 6 => greaterOrEqual
  | _ => always

/-- whether a new value passes against the reference -/
def passes : Comparison → Int → Int → Bool
  | never, _, _ => false
  | less, x, y => x < y
  | equal, x, y => x == y
  | lessOrEqual, x, y => x ≤ y
  | greater, x, y => x > y
  | notEqual, x, y => x != y
  | greaterOrEqual, x, y => x ≥ y
  | always, _, _ => true

end Comparison

/-- the factor of one term of the frame buffer blend; `special` differs between source and destination -/
inductive BlendFactor where
  | zero
  | sourceAlpha
  | otherColor
  | destAlpha
  | one
  | oneMinusSourceAlpha
  | oneMinusOtherColor
  | oneMinusDestAlpha
  | special
deriving DecidableEq, Repr, Inhabited

def BlendFactor.ofCode : Nat → BlendFactor
  | 1 => sourceAlpha
  | 2 => otherColor
  | 3 => destAlpha
  | 4 => one
  | 5 => oneMinusSourceAlpha
  | 6 => oneMinusOtherColor
  | 7 => oneMinusDestAlpha
  | 15 => special
  | _ => zero

/-- one of the buffers in the frame buffer memory -/
inductive Buffer where
  | front
  | back
  | aux
deriving DecidableEq, Repr, Inhabited

/-- the buffer of a two-bit select field; code 3 selects nothing -/
def Buffer.ofCode? : Nat → Option Buffer
  | 0 => some front
  | 1 => some back
  | 2 => some aux
  | _ => none

/-- name of the buffer -/
def Buffer.name : Buffer → String
  | front => "Front"
  | back => "Back"
  | aux => "Aux"

/-! ## Color path -/

/-- the source of a color or alpha that enters the combine unit as the other input -/
inductive OtherSource where
  | iterated
  | texel
  | color1
  | zero
deriving DecidableEq, Repr, Inhabited

def OtherSource.ofCode : Nat → OtherSource
  | 0 => iterated
  | 1 => texel
  | 2 => color1
  | _ => zero

/-- the source of the local alpha -/
inductive LocalAlphaSource where
  | iterated
  | color0
  | depth
  | w
deriving DecidableEq, Repr, Inhabited

def LocalAlphaSource.ofCode : Nat → LocalAlphaSource
  | 0 => iterated
  | 1 => color0
  | 2 => depth
  | _ => w

/-- the part of fbzColorPath outside the combine unit -/
structure ColorPath where
  otherColor : OtherSource
  otherAlpha : OtherSource
  localIsColor0 : Bool
  localAlpha : LocalAlphaSource
  localFromTexelAlpha : Bool
  subpixelAdjust : Bool
  textureEnable : Bool
  clampIterated : Bool
deriving DecidableEq, Repr

def ColorPath.decode (w : UInt32) : ColorPath where
  otherColor := .ofCode (field w 0 2)
  otherAlpha := .ofCode (field w 2 2)
  localIsColor0 := bit w 4
  localAlpha := .ofCode (field w 5 2)
  localFromTexelAlpha := bit w 7
  subpixelAdjust := bit w 26
  textureEnable := bit w 27
  clampIterated := bit w 28

/-! ## Frame buffer mode -/

/-- fbzMode -/
structure FrameMode where
  clipping : Bool
  chromaKey : Bool
  stipple : Bool
  wBuffer : Bool
  depthTest : Bool
  depthFunction : Comparison
  dithering : Bool
  writeColor : Bool
  writeAux : Bool
  dither2x2 : Bool
  stipplePattern : Bool
  alphaMask : Bool
  drawBuffer : Option Buffer
  depthBias : Bool
  flipY : Bool
  alphaPlanes : Bool
  ditherSubtract : Bool
  depthFromConstant : Bool
  floatDepth : Bool
deriving DecidableEq, Repr

def FrameMode.decode (w : UInt32) : FrameMode where
  clipping := bit w 0
  chromaKey := bit w 1
  stipple := bit w 2
  wBuffer := bit w 3
  depthTest := bit w 4
  depthFunction := .ofCode (field w 5 3)
  dithering := bit w 8
  writeColor := bit w 9
  writeAux := bit w 10
  dither2x2 := bit w 11
  stipplePattern := bit w 12
  alphaMask := bit w 13
  drawBuffer := Buffer.ofCode? (field w 14 2)
  depthBias := bit w 16
  flipY := bit w 17
  alphaPlanes := bit w 18
  ditherSubtract := bit w 19
  depthFromConstant := bit w 20
  floatDepth := bit w 21

/-! ## Alpha, fog and chroma range -/

/-- alphaMode; the alpha of a blend takes either term whole or not at all -/
structure AlphaMode where
  test : Bool
  function : Comparison
  blend : Bool
  sourceColor : BlendFactor
  destColor : BlendFactor
  sourceAlphaOne : Bool
  destAlphaOne : Bool
  reference : Nat
deriving DecidableEq, Repr

def AlphaMode.decode (w : UInt32) : AlphaMode where
  test := bit w 0
  function := .ofCode (field w 1 3)
  blend := bit w 4
  sourceColor := .ofCode (field w 8 4)
  destColor := .ofCode (field w 12 4)
  sourceAlphaOne := field w 16 4 == 4
  destAlphaOne := field w 20 4 == 4
  reference := field w 24 8

/-- what the amount of fog is taken from -/
inductive FogSource where
  | table
  | alpha
  | depth
  | w
deriving DecidableEq, Repr, Inhabited

def FogSource.ofCode : Nat → FogSource
  | 0 => table
  | 1 => alpha
  | 2 => depth
  | _ => w

/-- fogMode -/
structure FogMode where
  enable : Bool
  withoutFogColor : Bool
  fogOnly : Bool
  source : FogSource
  constant : Bool
  dither : Bool
  zones : Bool
deriving DecidableEq, Repr

def FogMode.decode (w : UInt32) : FogMode where
  enable := bit w 0
  withoutFogColor := bit w 1
  fogOnly := bit w 2
  source := .ofCode (field w 3 2)
  constant := bit w 5
  dither := bit w 6
  zones := bit w 7

/-- chromaRange: the upper ends of the key's ranges and how they are combined -/
structure ChromaRange where
  red : UInt8
  green : UInt8
  blue : UInt8
  redOutside : Bool
  greenOutside : Bool
  blueOutside : Bool
  anyChannel : Bool
  enable : Bool
deriving DecidableEq, Repr

def ChromaRange.decode (w : UInt32) : ChromaRange where
  red := (w >>> 16).toUInt8
  green := (w >>> 8).toUInt8
  blue := w.toUInt8
  redOutside := bit w 26
  greenOutside := bit w 25
  blueOutside := bit w 24
  anyChannel := bit w 27
  enable := bit w 28

/-! ## Texture registers -/

/-- the 16 texel formats; 0 to 7 take one byte, the others two -/
inductive TexelFormat where
  | rgb332
  | yiq422
  | a8
  | i8
  | ai44
  | p8
  | alphaP8
  | reserved8
  | argb8332
  | ayiq8422
  | rgb565
  | argb1555
  | argb4444
  | ai88
  | ap88
  | reserved16
deriving DecidableEq, Repr, Inhabited

namespace TexelFormat

def ofCode : Nat → TexelFormat
  | 0 => rgb332
  | 1 => yiq422
  | 2 => a8
  | 3 => i8
  | 4 => ai44
  | 5 => p8
  | 6 => alphaP8
  | 7 => reserved8
  | 8 => argb8332
  | 9 => ayiq8422
  | 10 => rgb565
  | 11 => argb1555
  | 12 => argb4444
  | 13 => ai88
  | 14 => ap88
  | _ => reserved16

/-- takes two bytes -/
def isWide : TexelFormat → Bool
  | argb8332 | ayiq8422 | rgb565 | argb1555 | argb4444 | ai88 | ap88 | reserved16 => true
  | _ => false

end TexelFormat

/-- the part of textureMode outside the combine unit -/
structure TextureMode where
  perspective : Bool
  minifyBilinear : Bool
  magnifyBilinear : Bool
  clampNegativeW : Bool
  lodDither : Bool
  secondNccTable : Bool
  clampS : Bool
  clampT : Bool
  format : TexelFormat
  sequentialUpload : Bool
deriving DecidableEq, Repr

def TextureMode.decode (w : UInt32) : TextureMode where
  perspective := bit w 0
  minifyBilinear := bit w 1
  magnifyBilinear := bit w 2
  clampNegativeW := bit w 3
  lodDither := bit w 4
  secondNccTable := bit w 5
  clampS := bit w 6
  clampT := bit w 7
  format := .ofCode (field w 8 4)
  sequentialUpload := bit w 31

/-- tLOD -/
structure LodMode where
  min : Nat
  max : Nat
  bias : Int
  odd : Bool
  split : Bool
  sIsWider : Bool
  aspect : Nat
  multiBase : Bool
  swizzleUpload : Bool
  swapUpload : Bool
deriving DecidableEq, Repr

def LodMode.decode (w : UInt32) : LodMode where
  min := field w 0 6
  max := field w 6 6
  bias := signed (w >>> 12) 6
  odd := bit w 18
  split := bit w 19
  sIsWider := bit w 20
  aspect := field w 21 2
  multiBase := bit w 24
  swizzleUpload := bit w 25
  swapUpload := bit w 26

/-- tDetail -/
structure DetailMode where
  max : Nat
  bias : Int
  scale : Nat
deriving DecidableEq, Repr

def DetailMode.decode (w : UInt32) : DetailMode where
  max := field w 0 8
  bias := signed (w >>> 8) 6
  scale := field w 14 3

/-! ## Linear frame buffer mode -/

/-- lfbMode -/
structure LinearMode where
  writeFormat : Nat
  writeBuffer : Option Buffer
  readBuffer : Option Buffer
  pixelPipeline : Bool
  redBlueSwapped : Bool
  alphaLow : Bool
  wordSwapWrites : Bool
  byteSwizzleWrites : Bool
  flipY : Bool
  wFromConstant : Bool
  wordSwapReads : Bool
  byteSwizzleReads : Bool
deriving DecidableEq, Repr

def LinearMode.decode (w : UInt32) : LinearMode where
  writeFormat := field w 0 4
  writeBuffer := Buffer.ofCode? (field w 4 2)
  readBuffer := Buffer.ofCode? (field w 6 2)
  pixelPipeline := bit w 8
  redBlueSwapped := bit w 9
  alphaLow := bit w 10
  wordSwapWrites := bit w 11
  byteSwizzleWrites := bit w 12
  flipY := bit w 13
  wFromConstant := bit w 14
  wordSwapReads := bit w 15
  byteSwizzleReads := bit w 16

/-! ## Clip rectangle -/

/-- columns from `left` up to `right` and rows from `low` up to `high`, ends excluded -/
structure ClipRect where
  left : Nat
  right : Nat
  low : Nat
  high : Nat
deriving DecidableEq, Repr, Inhabited

namespace ClipRect

/-- the rectangle of the two clip registers: the lower end in the upper half, ten bits each -/
def decode (leftRight lowHigh : UInt32) : ClipRect :=
  ⟨field leftRight 16 10, field leftRight 0 10, field lowHigh 16 10, field lowHigh 0 10⟩

def contains (c : ClipRect) (x y : Int) : Bool :=
  c.left ≤ x && x < c.right && c.low ≤ y && y < c.high

end ClipRect
end Accel3D
