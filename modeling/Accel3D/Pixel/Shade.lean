/-
Fog and the frame buffer blend.

Both work on whole numbers and end in a clamp to eight bits. A factor of eight bits has one added before the scaling by
1/256.
-/
import Accel3D.Dither
import Accel3D.Frame.Fog
import Accel3D.Pixel.Depth
import Accel3D.Pixel.Rules

namespace Accel3D

/-- red, green and blue as whole numbers -/
structure Rgb where
  r : Int
  g : Int
  b : Int
deriving DecidableEq, Repr, Inhabited

namespace Rgb

def ofArgb (c : Argb) : Rgb := ⟨c.r.toNat, c.g.toNat, c.b.toNat⟩

def map (f : Int → Int) (c : Rgb) : Rgb := ⟨f c.r, f c.g, f c.b⟩

def zip (f : Int → Int → Int) (c d : Rgb) : Rgb := ⟨f c.r d.r, f c.g d.g, f c.b d.b⟩

def zero : Rgb := ⟨0, 0, 0⟩

end Rgb

/-- nearest number from 0 to 255 -/
def clamp255 (n : Int) : Int := min (max n 0) 255

namespace PixelRules

/-! ## Fog -/

/-- amount of fog from the table: the entry of W's floating depth, moved towards the next by the lower bits -/
def fogFromTable (rules : PixelRules) (table : FogTable) (dither : Dither) (x : Int) (wFloat : Nat) : Int :=
  let i : Fin 64 := Fin.ofNat 64 (wFloat / 1024)
  let delta := table.delta[i].toNat
  let product : Int := ((delta &&& rules.fogDeltaMask) * (wFloat / 4 % 256) : Nat)
  let signed := if rules.fog.zones && delta.testBit 1 then -product else product
  let moved := signed / 64
  let dithered := if rules.fog.dither then moved + dither.value4 x else moved
  table.blend[i].toNat + dithered / 16

/-- amount of fog on a pixel -/
def fogAmount (rules : PixelRules) (table : FogTable) (dither : Dither) (x : Int) (depth : PixelDepth) (f : Fragment) :
    Int :=
  match rules.fog.source with
  | .table => rules.fogFromTable table dither x depth.wFloat
  | .alpha => f.color.a.toNat
  | .depth => cutZ rules.path.clampIterated f.z / 256
  | .w => cutW rules.path.clampIterated f.w

/-- the fog term of a pixel of this color: all of the fog color, or the way towards it by the amount of fog -/
def fogTerm (rules : PixelRules) (table : FogTable) (dither : Dither) (x : Int) (depth : PixelDepth) (f : Fragment)
    (color : Rgb) : Rgb :=
  let fogColor := Rgb.ofArgb rules.fogColor
  if rules.fog.constant then fogColor
  else
    let target := if rules.fog.withoutFogColor then Rgb.zero else fogColor
    let way := if rules.fog.fogOnly then target else Rgb.zip (· - ·) target color
    let amount := rules.fogAmount table dither x depth f
    way.map fun v => v * (amount + 1) / 256

/-- the color with fog -/
def applyFog (rules : PixelRules) (table : FogTable) (dither : Dither) (x : Int) (depth : PixelDepth) (f : Fragment)
    (color : Rgb) : Rgb :=
  let term := rules.fogTerm table dither x depth f color
  (if rules.fog.fogOnly then term else Rgb.zip (· + ·) color term).map clamp255

/-! ## Frame buffer blend -/

/-- a stored pixel with eight bits a channel, low bits zero -/
def destColor (stored : UInt16) : Rgb :=
  let v := stored.toNat
  ⟨(v / 2048 % 32 * 8 : Nat), (v / 32 % 64 * 4 : Nat), (v % 32 * 8 : Nat)⟩

/-- the stored color with the dither taken off -/
def subtractDither (threshold : Int) (c : Rgb) : Rgb :=
  ⟨(2 * c.r + 15 - threshold) / 2, (4 * c.g + 15 - threshold) / 4, (2 * c.b + 15 - threshold) / 2⟩

/-- a value scaled by one factor of the blend, `other` being the same channel of the other color; `special` is what
the special factor gives -/
def scaleBy (factor : BlendFactor) (v other sourceAlpha destAlpha special : Int) : Int :=
  match factor with
  | .zero => 0
  | .sourceAlpha => v * (sourceAlpha + 1) / 256
  | .otherColor => v * (other + 1) / 256
  | .destAlpha => v * (destAlpha + 1) / 256
  | .one => v
  | .oneMinusSourceAlpha => v * (256 - sourceAlpha) / 256
  | .oneMinusOtherColor => v * (256 - other) / 256
  | .oneMinusDestAlpha => v * (256 - destAlpha) / 256
  | .special => v * (special + 1) / 256

/-- one channel of the blend; the special factors are the saturated source alpha and the color before fog -/
def blendChannel (mode : AlphaMode) (source dest preFog sourceAlpha destAlpha : Int) : Int :=
  clamp255 (scaleBy mode.sourceColor source dest sourceAlpha destAlpha (min sourceAlpha (256 - destAlpha)) +
    scaleBy mode.destColor dest source sourceAlpha destAlpha preFog)

/-- alpha of the blend -/
def blendAlpha (mode : AlphaMode) (sourceAlpha destAlpha : Int) : Int :=
  clamp255 ((if mode.sourceAlphaOne then sourceAlpha else 0) + (if mode.destAlphaOne then destAlpha else 0))

/-- the color and alpha that are stored over a color buffer pixel and an aux buffer pixel -/
def blend (rules : PixelRules) (dither : Dither) (x : Int) (stored : UInt16) (storedAux : Option UInt16)
    (source : Rgb) (sourceAlpha : Int) (preFog : Rgb) : Rgb × Int :=
  let raw := destColor stored
  let dest := if rules.frame.ditherSubtract then subtractDither (dither.value x) raw else raw
  let destAlpha : Int := if rules.frame.alphaPlanes then ((storedAux.map fun v => (v.toNat : Int)).getD 255) else 255
  let channel (s d p : Int) : Int := blendChannel rules.alpha s d p sourceAlpha destAlpha
  (⟨channel source.r dest.r preFog.r, channel source.g dest.g preFog.g, channel source.b dest.b preFog.b⟩,
   blendAlpha rules.alpha sourceAlpha destAlpha)

end PixelRules
end Accel3D
