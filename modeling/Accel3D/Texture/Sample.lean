/-
Sampling a texture, and the texture stage of a pixel.

A pixel's coordinates are divided by W if perspective is on, and moved to 14.18 fixed point. The level of detail is the
triangle's base, corrected by the logarithm of 1/W, biased, optionally dithered, and held between the unit's limits; a
level that is not present is replaced by the next smaller one. From that level the unit takes the texel at the
coordinates, or blends the four around them. The texel then enters the combine equation with the color from the unit
before.
-/
import Accel3D.Combine
import Accel3D.Dither
import Accel3D.Texture.Unit

namespace Accel3D

/-! ## Bilinear filter -/

/-- two channels of two texels blended at once: the channels lie in bytes 0 and 2 of a word -/
def lerpLanes (a b fraction : UInt32) : UInt32 :=
  let a := a &&& 0x00FF00FF
  let b := b &&& 0x00FF00FF
  a + (((b - a) * fraction) >>> 8)

/-- four texels blended, red with blue and alpha with green -/
def bilinear (t00 t01 t10 t11 sFraction tFraction : UInt32) : UInt32 :=
  let lanes (w00 w01 w10 w11 : UInt32) : UInt32 :=
    lerpLanes (lerpLanes w00 w01 sFraction) (lerpLanes w10 w11 sFraction) tFraction
  let redBlue := lanes t00 t01 t10 t11
  let alphaGreen := lanes (t00 >>> 8) (t01 >>> 8) (t10 >>> 8) (t11 >>> 8)
  ((alphaGreen <<< 8) &&& (0xFF00FF00 : UInt32)) ||| (redBlue &&& (0x00FF00FF : UInt32))

namespace TextureUnit

/-! ## Texels -/

/-- the color of a stored texel, by format; the high byte of the mixed formats is alpha -/
def decodeTexel (u : TextureUnit) (format : TexelFormat) (raw : UInt32) : UInt32 :=
  let v := raw.toUInt8
  let ncc := if u.mode.secondNccTable then u.ncc1 else u.ncc0
  let palette : UInt32 := u.palette.get ⟨v.toNat, v.toNat_lt⟩
  let withHighAlpha (color : UInt32) : UInt32 := (color &&& (0x00FFFFFF : UInt32)) ||| ((raw &&& (0xFF00 : UInt32)) <<< 16)
  match format with
  | .rgb332 => (Argb.ofRgb332 raw).toWord
  | .yiq422 => ncc.lookup v
  | .a8 => (Argb.gray v v).toWord
  | .i8 => (Argb.gray 0xFF v).toWord
  | .ai44 => (Argb.gray (widen4 (field raw 4 4)) (widen4 (field raw 0 4))).toWord
  | .p8 => palette
  | .alphaP8 => if u.hasAlphaPalette then u.alphaPalette.get ⟨v.toNat, v.toNat_lt⟩ else 0
  | .reserved8 => 0
  | .argb8332 => withHighAlpha (Argb.ofRgb332 raw).toWord
  | .ayiq8422 => withHighAlpha (ncc.lookup v)
  | .rgb565 => (Argb.ofRgb565 raw).toWord
  | .argb1555 => (Argb.ofArgb1555 raw).toWord
  | .argb4444 => (Argb.ofArgb4444 raw).toWord
  | .ai88 => withHighAlpha (Argb.gray 0xFF v).toWord
  | .ap88 => withHighAlpha palette
  | .reserved16 => 0

/-- the address of texel number `n` of a level that starts at `base` -/
def texelAddress (format : TexelFormat) (base n : UInt32) : UInt32 := if format.isWide then base + n * 2 else base + n

/-- the color of texel number `n` of a level that starts at `base` -/
def fetch (u : TextureUnit) (format : TexelFormat) (base n : UInt32) : UInt32 :=
  let address := texelAddress format base n
  let raw := if format.isWide then (u.memory.read16 address).toUInt32 else (u.memory.read8 address).toUInt32
  u.decodeTexel format raw

/-! ## Coordinates and level -/

/-- S and T with 18 fraction bits, and the level before bias and limits -/
structure Footing where
  s : Int
  t : Int
  lod : Int
deriving DecidableEq, Repr

/-- coordinates as they stand -/
def affine (c : TexCoords) (lodBase : Int) : Footing := ⟨(c.s >>> 14).toInt32.toInt, (c.t >>> 14).toInt32.toInt, lodBase⟩

/-- coordinates divided by W; the product of a coordinate with the reciprocal wraps in 64 bits -/
def perspective (c : TexCoords) (lodBase : Int) : Footing :=
  let r := Reciprocal.of c.w
  let scale (v : Int64) : Int := ((r.recip.toInt64 * v) >>> 29).toInt32.toInt
  ⟨scale c.s, scale c.t, lodBase + r.log2⟩

/-- coordinates and level of a pixel; a negative W may be asked to give the origin -/
def footing (mode : TextureMode) (c : TexCoords) (lodBase : Int) : Footing :=
  let f := if mode.perspective then perspective c lodBase else affine c lodBase
  if mode.clampNegativeW && c.w < 0 then { f with s := 0, t := 0 } else f

/-- the level held between the limits: the lower limit first, so that the upper one wins -/
def clampLod (p : TexParams) (lod : Int) : Int := min (max lod p.lodMin.toInt) p.lodMax.toInt

/-- the level of a pixel -/
def pixelLod (p : TexParams) (mode : TextureMode) (dither : Dither) (x lod : Int) : Int :=
  let biased := lod + p.lodBias.toInt
  clampLod p (if mode.lodDither then biased + 16 * dither.value4 x else biased)

/-- the level to fetch from: the whole part, or the next level if that one is not present, at most 8 -/
def fetchLevel (p : TexParams) (lod : Int) : Fin 9 :=
  let whole := (lod / 256).toNat
  Fin.ofNat 9 (min (if bit p.lodMask whole then whole else whole + 1) 8)

/-! ## Point and bilinear samples -/

/-- the level that is sampled -/
structure Level where
  base : UInt32
  sMax : UInt32
  tMax : UInt32
  format : TexelFormat
deriving DecidableEq, Repr

/-- the level to fetch from, by the parameters -/
def levelAt (p : TexParams) (format : TexelFormat) (l : Fin 9) : Level where
  base := p.lodOffset[l]
  sMax := p.widthMask >>> UInt32.ofNat l.val
  tMax := p.heightMask >>> UInt32.ofNat l.val
  format := format

/-- a texel coordinate brought into the level: held at the edges if clamping, then wrapped -/
def wrapCoord (clamp : Bool) (limit : UInt32) (v : Int) : UInt32 :=
  let v := if clamp then min (max v 0) limit.toNat else v
  UInt32.ofInt v &&& limit

/-- the number of the texel in column `s` and row `t` -/
def texelNumber (l : Level) (s t : UInt32) : UInt32 := t * (l.sMax + 1) + s

/-- the texel at the coordinates -/
def samplePoint (u : TextureUnit) (mode : TextureMode) (l : Level) (level : Nat) (f : Footing) : UInt32 :=
  let s := wrapCoord mode.clampS l.sMax (f.s >>> (level + 18))
  let t := wrapCoord mode.clampT l.tMax (f.t >>> (level + 18))
  u.fetch l.format l.base (texelNumber l s t)

/-- the four texels around the coordinates, blended; half a texel is taken off so that a texel's centre is exact -/
def sampleBilinear (u : TextureUnit) (mode : TextureMode) (l : Level) (level : Nat) (f : Footing) : UInt32 :=
  let s := (f.s >>> (level + 10)) - 128
  let t := (f.t >>> (level + 10)) - 128
  let sFraction := (Int32.ofInt s &&& u.bilinearMask).toUInt32
  let tFraction := (Int32.ofInt t &&& u.bilinearMask).toUInt32
  let s0 := wrapCoord mode.clampS l.sMax (s / 256)
  let s1 := wrapCoord mode.clampS l.sMax (s / 256 + 1)
  let t0 := wrapCoord mode.clampT l.tMax (t / 256)
  let t1 := wrapCoord mode.clampT l.tMax (t / 256 + 1)
  let texel (s t : UInt32) : UInt32 := u.fetch l.format l.base (texelNumber l s t)
  bilinear (texel s0 t0) (texel s1 t0) (texel s0 t1) (texel s1 t1) sFraction tFraction

/-- the texel of a pixel and its level -/
def sample (u : TextureUnit) (mode : TextureMode) (x : Int) (dither : Dither) (c : TexCoords) (lodBase : Int) :
    Argb × Int :=
  let p := u.params
  let f := footing mode c lodBase
  let lod := pixelLod p mode dither x f.lod
  let level := fetchLevel p lod
  let l := levelAt p mode.format level
  let filtered := if lod = p.lodMin.toInt then mode.magnifyBilinear else mode.minifyBilinear
  let texel := if filtered then u.sampleBilinear mode l level.val f else u.samplePoint mode l level.val f
  (Argb.ofWord texel, lod)

/-- the blend factor that grows as the level falls below the detail bias -/
def detailFactor (p : TexParams) (lod : Int) : Int :=
  let bias := p.detailBias.toInt
  if bias ≤ lod then 0
  else min ((bias - lod) * 2 ^ p.detailScale.toNat / 256) p.detailMax.toInt

end TextureUnit

/-- a texture unit at work on a triangle -/
structure TextureStage where
  unit : TextureUnit
  mode : TextureMode
  combine : Combine
  lodBase : Int

namespace TextureStage

/-- the unit with the mode of its own register -/
def ofUnit (u : TextureUnit) (lodBase : Int) (combine : Combine) : TextureStage := ⟨u, u.mode, combine, lodBase⟩

/-- the color after this unit, from the color after the unit before -/
def process (stage : TextureStage) (x : Int) (dither : Dither) (c : TexCoords) (other : Argb) : Argb :=
  let (texel, lod) := stage.unit.sample stage.mode x dither c stage.lodBase
  stage.combine.run other texel ⟨texel, TextureUnit.detailFactor stage.unit.params lod, lod⟩

end TextureStage
end Accel3D
