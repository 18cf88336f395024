/-
Level parameters of a texture unit, derived from its registers.

A texture has nine levels of detail, each half the size of the one before. The parameters say which levels are present,
where each starts in texture memory, how wide and high the largest is, and the range and bias of the level that a
pixel selects. They depend on the registers only, so they may be derived at any time after the last write.
-/
import Accel3D.Register.Mode

namespace Accel3D

/-- levels are 4.8 fixed point; bit n of `lodMask` says that level n is present -/
structure TexParams where
  lodMin : Int32
  lodMax : Int32
  lodBias : Int32
  lodMask : UInt32
  lodOffset : Vector UInt32 9
  widthMask : UInt32
  heightMask : UInt32
  detailMax : Int32
  detailBias : Int32
  detailScale : UInt32
deriving DecidableEq

namespace TexParams

/-- before the first derivation -/
def initial : TexParams := ⟨0, 0, 0, 0x1FF, Vector.replicate 9 0, 0xFF, 0xFF, 0, 0, 0⟩

/-- the levels that a unit holds: all, or every second one when two units split the levels -/
def levelsPresent (mode : LodMode) : UInt32 :=
  if mode.split then if mode.odd then 0x0AA else 0x155 else 0x1FF

/-- number of texels of level `l`, at least 4 -/
def levelSize (widthMask heightMask : UInt32) (l : Nat) : UInt32 :=
  let texels := ((widthMask >>> UInt32.ofNat l) + 1) * ((heightMask >>> UInt32.ofNat l) + 1)
  if texels < 4 then 4 else texels

/-- bytes that level `l` takes: none when it is not present, twice its texels for formats of two bytes -/
def levelBytes (present widthMask heightMask : UInt32) (wide : Bool) (l : Nat) : UInt32 :=
  if bit present l then levelSize widthMask heightMask l <<< (if wide then 1 else 0) else 0

/-- `start` followed by where each of `n` more levels begins, the first of them after level `l` -/
def accumulate (bytes : Nat → UInt32) (start : UInt32) (l : Nat) : Nat → List UInt32
  | 0 => [start]
  | n + 1 => start :: accumulate bytes (start + bytes l) (l + 1) n

/-- where the levels begin, before the wrap: one after the other from a single base, or the first three from bases of
their own and the others after the third of those -/
def levelStarts (bytes : Nat → UInt32) (multiBase : Bool) (base base1 base2 base38 : UInt32) : List UInt32 :=
  if multiBase then base :: base1 :: base2 :: accumulate bytes base38 3 5 else accumulate bytes base 0 8

/-- the parameters of the registers, for a memory of this address mask -/
def derive (regs : RegisterFile) (memoryMask addressMask addressShift : UInt32) : TexParams :=
  let lod := LodMode.decode (regs.get Reg.textureLod)
  let detail := DetailMode.decode (regs.get Reg.textureDetail)
  let wide := (TextureMode.decode (regs.get Reg.textureMode)).format.isWide
  let present := levelsPresent lod
  let narrowed := (0xFF : UInt32) >>> UInt32.ofNat lod.aspect
  let widthMask := if lod.sIsWider then 0xFF else narrowed
  let heightMask := if lod.sIsWider then narrowed else 0xFF
  let base (r : Reg) : UInt32 := (regs.get r &&& addressMask) <<< addressShift
  let starts := levelStarts (levelBytes present widthMask heightMask wide) lod.multiBase (base Reg.textureBase)
    (base Reg.textureBase1) (base Reg.textureBase2) (base Reg.textureBase38)
  { lodMin := Int32.ofNat (64 * lod.min)
    lodMax := Int32.ofNat (64 * lod.max)
    lodBias := Int32.ofInt (64 * lod.bias)
    lodMask := present
    lodOffset := Vector.ofFn fun i => (starts.getD i.val 0) &&& memoryMask
    widthMask := widthMask
    heightMask := heightMask
    detailMax := Int32.ofNat detail.max
    detailBias := Int32.ofInt (256 * detail.bias)
    detailScale := UInt32.ofNat detail.scale }

end TexParams
end Accel3D
