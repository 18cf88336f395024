/-
The pixel pipeline.

A pixel enters (`enter`): the clip, stipple and depth tests, and the depth value. Its color then comes from the color
path (`shade`) or is given and only tested (`check`). Last it is stored (`settle`): fog, blend, dither, write. A pixel
that fails a test is counted under that test and changes nothing else, except that a rotating stipple has moved on.

`Canvas` is what drawing changes: frame buffer memory, counters and the stipple register. `Pipeline` is what stays.
-/
import Accel3D.Memory
import Accel3D.Pixel.Counters
import Accel3D.Pixel.Shade

namespace Accel3D

structure Canvas where
  memory : Memory
  counters : Counters
  stipple : UInt32

structure Pipeline where
  rules : PixelRules
  fog : FogTable
  surface : Surface

/-- the canvas with a verdict carried out: a rejected pixel is counted -/
def Canvas.judge {α : Type} (c : Canvas) : Except Reject α → Canvas × Option α
  | .ok a => (c, some a)
  | .error r => ({ c with counters := c.counters.reject r }, none)

namespace PixelRules

/-! ## Tests on the way in -/

/-- the stipple register after a pixel, and whether the pixel passes: a pattern of 8 by 4 pixels, or one bit after the
other -/
def stippleTest (rules : PixelRules) (stipple : UInt32) (x y : Int) : UInt32 × Bool :=
  if !rules.frame.stipple then (stipple, true)
  else if rules.frame.stipplePattern then (stipple, bit stipple (8 * (y % 4).toNat + (7 - (x % 8).toNat)))
  else
    let rotated := rotateOne stipple
    (rotated, bit rotated 31)

/-- the depth of a pixel before the bias -/
def rawDepth (rules : PixelRules) (f : Fragment) : Nat :=
  if !rules.frame.wBuffer then cutZ rules.path.clampIterated f.z
  else if rules.hasFloatZ && rules.frame.floatDepth then floatZ f.z
  else floatW f.w

/-- the depth of a pixel; the bias is the low half of zaColor, signed -/
def depth (rules : PixelRules) (f : Fragment) : Int :=
  let raw : Int := rules.rawDepth f
  if rules.frame.depthBias then min (max (raw + signed rules.zaColor 16) 0) 0xFFFF else raw

/-- whether a depth passes against the stored one; without an aux buffer it always does -/
def depthPasses (rules : PixelRules) (depth : Int) (stored : Option UInt16) : Bool :=
  match stored with
  | none => true
  | some s =>
    let source : Int := if rules.frame.depthFromConstant then field rules.zaColor 0 16 else depth
    rules.frame.depthFunction.passes source s.toNat

/-! ## Tests on the color -/

/-- a key channel against a range -/
def inRange (v low high : UInt8) (outside : Bool) : Bool := (low ≤ v && v ≤ high) != outside

/-- whether a color is the chroma key, or in the key's range -/
def matchesKey (rules : PixelRules) (c : Argb) : Bool :=
  let range := rules.chromaRange
  let key := Argb.ofWord rules.chromaKey
  if range.enable then
    let red := inRange c.r key.r range.red range.redOutside
    let green := inRange c.g key.g range.green range.greenOutside
    let blue := inRange c.b key.b range.blue range.blueOutside
    if range.anyChannel then red || green || blue else red && green && blue
  else c.rgb == key.rgb

/-- rejects a color that matches the chroma key -/
def chromaTest (rules : PixelRules) (c : Argb) : Except Reject Unit :=
  if rules.frame.chromaKey && rules.matchesKey c then .error .chroma else .ok ()

/-- rejects an even alpha when the alpha mask is on -/
def maskTest (rules : PixelRules) (a : UInt8) : Except Reject Unit :=
  if rules.frame.alphaMask && a.toNat % 2 == 0 then .error .alpha else .ok ()

/-- the alpha test -/
def alphaTest (rules : PixelRules) (a : UInt8) : Except Reject Unit :=
  if rules.alpha.test && !rules.alpha.function.passes a.toNat rules.alpha.reference then .error .alpha else .ok ()

/-! ## Color path -/

/-- the color that enters the combine unit as the other color, its alpha still that of its source -/
def otherColor (rules : PixelRules) (f : Fragment) (texel : Argb) : Argb :=
  match rules.path.otherColor with
  | .iterated => f.color
  | .texel => texel
  | .color1 => rules.color1
  | .zero => Argb.black

/-- the alpha that goes with the other color -/
def otherAlpha (rules : PixelRules) (f : Fragment) (texel : Argb) : UInt8 :=
  match rules.path.otherAlpha with
  | .iterated => f.color.a
  | .texel => texel.a
  | .color1 => rules.color1.a
  | .zero => 0

/-- the local alpha -/
def localAlpha (rules : PixelRules) (f : Fragment) : UInt8 :=
  match rules.path.localAlpha with
  | .iterated => f.color.a
  | .color0 => rules.color0.a
  | .depth => UInt8.ofNat (cutZ rules.path.clampIterated f.z)
  | .w => UInt8.ofNat (cutW rules.path.clampIterated f.w)

/-- the local color: color 0 or the iterated color, as a mode bit or the texel's highest alpha bit says -/
def localColor (rules : PixelRules) (f : Fragment) (texel : Argb) : Argb :=
  let useColor0 := if rules.path.localFromTexelAlpha then 128 ≤ texel.a else rules.path.localIsColor0
  (if useColor0 then rules.color0 else f.color).withAlpha (rules.localAlpha f)

/-- the color of a pixel by the color path, or the test that rejects it -/
def colorOf (rules : PixelRules) (f : Fragment) (texel : Argb) : Except Reject Argb := do
  let other := rules.otherColor f texel
  rules.chromaTest other
  let other := other.withAlpha (rules.otherAlpha f texel)
  rules.maskTest other.a
  let color := rules.combine.run other (rules.localColor f texel) ⟨texel, 0, 0⟩
  rules.alphaTest color.a
  return color

/-- a given color, or the test that rejects it -/
def testColor (rules : PixelRules) (c : Argb) : Except Reject Argb := do
  rules.chromaTest c
  rules.maskTest c.a
  rules.alphaTest c.a
  return c

end PixelRules

namespace Pipeline

/-- the depth of a pixel, or the test that rejects it, and the stipple register after it -/
def entry (p : Pipeline) (c : Canvas) (pos : PixelPosition) (f : Fragment) : UInt32 × Except Reject PixelDepth :=
  let rules := p.rules
  if rules.frame.clipping && !rules.clip.contains pos.x pos.screenY then (c.stipple, .error .clipped)
  else
    let (stipple, passes) := rules.stippleTest c.stipple pos.x pos.y
    if !passes then (stipple, .error .stippled)
    else
      let depth := rules.depth f
      let stored := if rules.frame.depthTest then (p.surface.aux pos.x pos.screenY).map c.memory.read16 else none
      if rules.depthPasses depth stored then (stipple, .ok ⟨depth, floatW f.w⟩) else (stipple, .error .depth)

/-- the tests on the way in: the pixel is counted, and has a depth if it passes -/
def enter (p : Pipeline) (pos : PixelPosition) (f : Fragment) (c : Canvas) : Canvas × Option PixelDepth :=
  let (stipple, verdict) := p.entry c pos f
  Canvas.judge { c with counters := c.counters.enter, stipple := stipple } verdict

/-- the color path: a color if the pixel passes its tests -/
def shade (p : Pipeline) (f : Fragment) (texel : Argb) (c : Canvas) : Canvas × Option Argb :=
  c.judge (p.rules.colorOf f texel)

/-- the tests on a given color -/
def check (p : Pipeline) (color : Argb) (c : Canvas) : Canvas × Option Argb := c.judge (p.rules.testColor color)

/-- the color and alpha to be stored -/
def finalColor (p : Pipeline) (memory : Memory) (pos : PixelPosition) (dither : Dither) (depth : PixelDepth)
    (color : Argb) (f : Fragment) : Rgb × Int :=
  let rules := p.rules
  let preFog := Rgb.ofArgb color
  let fogged := if rules.fog.enable then rules.applyFog p.fog dither pos.x depth f preFog else preFog
  if rules.alpha.blend then
    rules.blend dither pos.x (memory.read16 (p.surface.color pos.x pos.screenY))
      ((p.surface.aux pos.x pos.screenY).map memory.read16) fogged color.a.toNat preFog
  else (fogged, color.a.toNat)

/-- a value written to the color buffer, if the rules have it written -/
def writeColor (p : Pipeline) (pos : PixelPosition) (v : UInt16) (m : Memory) : Memory :=
  if p.rules.frame.writeColor then m.write16 (p.surface.color pos.x pos.screenY) v else m

/-- a value written to the aux buffer, if there is one and the rules have it written -/
def writeAux (p : Pipeline) (pos : PixelPosition) (v : UInt16) (m : Memory) : Memory :=
  if p.rules.frame.writeAux then
    match p.surface.aux pos.x pos.screenY with
    | none => m
    | some address => m.write16 address v
  else m

/-- fog, blend, dither and the write -/
def settle (p : Pipeline) (pos : PixelPosition) (dither : Dither) (depth : PixelDepth) (color : Argb) (f : Fragment)
    (c : Canvas) : Canvas :=
  let (rgb, alpha) := p.finalColor c.memory pos dither depth color f
  let aux := if p.rules.frame.alphaPlanes then alpha else depth.depth
  { c with
    memory := p.writeAux pos (UInt16.ofInt aux) (p.writeColor pos (dither.quantize pos.x rgb.r rgb.g rgb.b) c.memory)
    counters := c.counters.drawn 1 }

/-- a pixel of a linear write, from entry to write: its color is given -/
def drawGiven (p : Pipeline) (pos : PixelPosition) (dither : Dither) (f : Fragment) (c : Canvas) : Canvas :=
  match p.enter pos f c with
  | (c, none) => c
  | (c, some depth) =>
    match p.check f.color c with
    | (c, none) => c
    | (c, some color) => p.settle pos dither depth color f c

end Pipeline
end Accel3D
