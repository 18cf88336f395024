/-
The combine equation of the texture units and of the color path.

Each channel starts from the other input or zero, subtracts the local input if asked, scales by a blend factor, adds the
local color or the local alpha if asked, clamps to eight bits and is inverted if asked. The blend factor is complemented
to 255 minus the factor unless the reverse bit is set, and one is added to it before the scaling by 1/256, so that a
factor of 255 keeps the value.
-/
import Accel3D.Color

namespace Accel3D

/-- what a channel is scaled by -/
inductive CombineFactor where
  | zero
  | localColor
  | otherAlpha
  | localAlpha
  | texelAlpha
  | texelColor
  | detail
  | lodFraction
deriving DecidableEq, Repr, Inhabited

namespace CombineFactor

/-- the factor codes of the colors of the color path -/
def ofColorPathColor : Nat → CombineFactor
  | 1 => localColor
  | 2 => otherAlpha
  | 3 => localAlpha
  | 4 => texelAlpha
  | 5 => texelColor
  | _ => zero

/-- the factor codes of the alpha of the color path -/
def ofColorPathAlpha : Nat → CombineFactor
  | 1 => localAlpha
  | 2 => otherAlpha
  | 3 => localAlpha
  | 4 => texelAlpha
  | _ => zero

/-- the factor codes of a texture unit -/
def ofTexture : Nat → CombineFactor
  | 1 => localColor
  | 2 => otherAlpha
  | 3 => localAlpha
  | 4 => detail
  | 5 => lodFraction
  | _ => zero

end CombineFactor

/-- what a channel has added to it -/
inductive CombineAddend where
  | zero
  | localColor
  | localAlpha
deriving DecidableEq, Repr, Inhabited

namespace CombineAddend

def ofColor : Nat → CombineAddend
  | 1 => localColor
  | 2 => localAlpha
  | _ => zero

/-- any code but 0 adds the local alpha -/
def ofAlpha : Nat → CombineAddend
  | 0 => zero
  | _ => localAlpha

end CombineAddend

/-- the equation of the colors or of alpha -/
structure CombineChannel where
  zeroOther : Bool
  subtractLocal : Bool
  factor : CombineFactor
  reverse : Bool
  addend : CombineAddend
  invert : Bool
deriving DecidableEq, Repr, Inhabited

/-- the equations of a combine unit -/
structure Combine where
  color : CombineChannel
  alpha : CombineChannel
deriving DecidableEq, Repr, Inhabited

/-- inputs from outside the other and local colors -/
structure CombineInputs where
  texel : Argb
  detail : Int
  lod : Int
deriving DecidableEq, Repr

namespace Combine

/-- nothing selected: the output is the other input scaled by 256/256 -/
def plain : Combine :=
  let channel : CombineChannel := ⟨false, false, .zero, false, .zero, false⟩
  ⟨channel, channel⟩

/-- the unit that fbzColorPath describes -/
def ofColorPath (w : UInt32) : Combine where
  color := ⟨bit w 8, bit w 9, .ofColorPathColor (field w 10 3), bit w 13, .ofColor (field w 14 2), bit w 16⟩
  alpha := ⟨bit w 17, bit w 18, .ofColorPathAlpha (field w 19 3), bit w 22, .ofAlpha (field w 23 2), bit w 25⟩

/-- the unit that textureMode describes -/
def ofTextureMode (w : UInt32) : Combine where
  color := ⟨bit w 12, bit w 13, .ofTexture (field w 14 3), bit w 17, .ofColor (field w 18 2), bit w 20⟩
  alpha := ⟨bit w 21, bit w 22, .ofTexture (field w 23 3), bit w 26, .ofAlpha (field w 27 2), bit w 29⟩

/-- the number with its low eight bits inverted: 255 - n for a number of eight bits -/
def complement (n : Int) : Int := n - 2 * (n % 256) + 255

/-- the nearest number of eight bits -/
def clampByte (n : Int) : UInt8 := UInt8.ofNat (min n.toNat 255)

/-- a channel's inputs: the channel of the other, local and texel colors, and the alphas -/
structure ChannelInputs where
  other : UInt8
  own : UInt8
  texel : UInt8
  otherAlpha : UInt8
  ownAlpha : UInt8
  texelAlpha : UInt8
  detail : Int
  lod : Int

/-- the selected blend factor, before the complement -/
def ChannelInputs.factor (i : ChannelInputs) : CombineFactor → Int
  | .zero => 0
  | .localColor => i.own.toNat
  | .otherAlpha => i.otherAlpha.toNat
  | .localAlpha => i.ownAlpha.toNat
  | .texelAlpha => i.texelAlpha.toNat
  | .texelColor => i.texel.toNat
  | .detail => i.detail
  | .lodFraction => i.lod % 256

/-- the selected addend -/
def ChannelInputs.addend (i : ChannelInputs) : CombineAddend → Int
  | .zero => 0
  | .localColor => i.own.toNat
  | .localAlpha => i.ownAlpha.toNat

/-- the value that is scaled -/
def ChannelInputs.base (i : ChannelInputs) (zeroOther subtractLocal : Bool) : Int :=
  (if zeroOther then 0 else (i.other.toNat : Int)) - (if subtractLocal then (i.own.toNat : Int) else 0)

/-- the equation of one channel -/
def runChannel (c : CombineChannel) (i : ChannelInputs) : UInt8 :=
  let selected := i.factor c.factor
  let factor := if c.reverse then selected else complement selected
  let scaled := i.base c.zeroOther c.subtractLocal * (factor + 1) / 256
  let value := clampByte (scaled + i.addend c.addend)
  if c.invert then value ^^^ 255 else value

/-- the output color; the alpha of `own` is the local alpha -/
def run (u : Combine) (other own : Argb) (inputs : CombineInputs) : Argb :=
  let t := inputs.texel
  let channel (c : CombineChannel) (o l x : UInt8) : UInt8 :=
    runChannel c ⟨o, l, x, other.a, own.a, t.a, inputs.detail, inputs.lod⟩
  ⟨channel u.alpha other.a own.a t.a, channel u.color other.r own.r t.r, channel u.color other.g own.g t.g,
   channel u.color other.b own.b t.b⟩

end Combine
end Accel3D
