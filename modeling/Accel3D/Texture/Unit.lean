/-
A texture unit: its memory, registers, coordinate parameters, narrow channel tables and palettes.

Level parameters and table colors are derived when they are needed. `stale` says that a texture register was written
since the parameters were last derived; `refresh` derives them, and the table colors with them. A write to the
difference registers of the first table whose highest bit is set goes to the palette instead, and is not stored.
-/
import Accel3D.Memory
import Accel3D.Reciprocal
import Accel3D.Revision
import Accel3D.Texture.Ncc
import Accel3D.Texture.Params
import Accel3D.Triangle.Gradient

namespace Accel3D

structure TextureUnit where
  index : UInt64
  memory : Memory
  regs : RegisterFile
  gradients : TexGradients
  params : TexParams
  stale : Bool
  ncc0 : NccTable
  ncc1 : NccTable
  palette : Vector UInt32 256
  alphaPalette : Vector UInt32 256
  hasAlphaPalette : Bool
  bilinearMask : Int32
  addressMask : UInt32
  addressShift : UInt32
  linearUpload : Bool

namespace TextureUnit

/-- the largest number of units -/
def maxCount : Nat := 2

/-- a unit whose lowest level is this or more is switched off -/
def disabledLod : Int := 8 * 256

/-- a unit with 2^k bytes of zero memory -/
def initial (revision : Revision) (index : UInt64) (k : Nat) : TextureUnit where
  index := index
  memory := Memory.zeroed k
  regs := RegisterFile.zero
  gradients := TexGradients.zero
  params := TexParams.initial
  stale := true
  ncc0 := NccTable.initial
  ncc1 := NccTable.initial
  palette := Vector.replicate 256 0
  alphaPalette := Vector.replicate 256 0
  hasAlphaPalette := revision.hasAlphaPalette
  bilinearMask := revision.bilinearMask
  addressMask := revision.textureAddressMask
  addressShift := revision.textureAddressShift
  linearUpload := revision.hasBansheeLayout

/-- the raw textureMode word -/
def modeWord (u : TextureUnit) : UInt32 := u.regs.get Reg.textureMode

def mode (u : TextureUnit) : TextureMode := TextureMode.decode u.modeWord

/-! ## Register writes -/

/-- whether a register enters the level parameters -/
def isTextureRegister (r : Reg) : Bool := Reg.textureMode ≤ r && r ≤ Reg.textureBase38

/-- the table and the register in it that a register number names: 24 registers from nccTable on -/
def nccRegister? (r : Reg) : Option (Bool × Fin 12) :=
  if Reg.nccTable.val ≤ r.val && r.val < Reg.nccTable.val + 24 then
    let n := r.val - Reg.nccTable.val
    some (12 ≤ n, Fin.ofNat 12 n)
  else none

/-- the palette entry that a palette write names: seven bits of the data over the lowest bit of the register -/
def paletteIndex (n : Fin 12) (data : UInt32) : Fin 256 := Fin.ofNat 256 (2 * field data 24 7 + n.val % 2)

def writePalette (u : TextureUnit) (n : Fin 12) (data : UInt32) : TextureUnit :=
  let i := paletteIndex n data
  { u with
    palette := u.palette.set i (0xFF000000 ||| data)
    alphaPalette :=
      if u.hasAlphaPalette then u.alphaPalette.set i (Argb.ofArgb6666 data).toWord else u.alphaPalette }

/-- store a register -/
def store (u : TextureUnit) (r : Reg) (data : UInt32) : TextureUnit := { u with regs := u.regs.set r data }

/-- a register write -/
def writeRegister (u : TextureUnit) (r : Reg) (data : UInt32) : TextureUnit :=
  if isTextureRegister r then { u.store r data with stale := true }
  else match nccRegister? r with
    | none => u.store r data
    | some (true, n) => { u.store r data with ncc1 := u.ncc1.write n data }
    | some (false, n) =>
      if 4 ≤ n.val && bit data 31 then u.writePalette n data
      else { u.store r data with ncc0 := u.ncc0.write n data }

/-! ## Derived state -/

/-- the level parameters of the current registers -/
def currentParams (u : TextureUnit) : TexParams :=
  TexParams.derive u.regs u.memory.mask u.addressMask u.addressShift

/-- table colors worked out -/
def refreshTables (u : TextureUnit) : TextureUnit := { u with ncc0 := u.ncc0.refresh, ncc1 := u.ncc1.refresh }

/-- level parameters brought up to date, and the table colors with them -/
def refresh (u : TextureUnit) : TextureUnit :=
  if u.stale then { u.refreshTables with params := u.currentParams, stale := false } else u

/-- all derived state brought up to date -/
def refreshAll (u : TextureUnit) : TextureUnit := u.refresh.refreshTables

/-- square of the length of a step in texture space -/
def footprint (ds dt : Int64) : Int64 := (ds >>> 14) * (ds >>> 14) + (dt >>> 14) * (dt >>> 14)

/-- level for the larger of the X and Y steps: half the logarithm of the squared length -/
def lodBase (g : TexGradients) : Int :=
  let x := footprint g.s.dx g.t.dx
  let y := footprint g.s.dy g.t.dy
  let larger := if x < y then y else x
  Int.tdiv (12 * 256 - (Reciprocal.of (larger >>> 16)).log2) 2

/-- the level base of a unit whose derived state is up to date, unless the unit is switched off -/
def triangleLod (u : TextureUnit) : Option Int :=
  if u.params.lodMin.toInt < disabledLod then some (lodBase u.gradients) else none

/-- the unit made ready for a triangle, and its level base -/
def begin (u : TextureUnit) : TextureUnit × Option Int :=
  let u := u.refreshAll
  (u, u.triangleLod)

/-! ## Uploads -/

/-- where the first byte of an upload goes: linear from level 0, or the level, row and column in the offset; a level
above 8 takes nothing -/
def uploadAddress (u : TextureUnit) (offset : UInt32) : Option UInt32 :=
  let p := u.params
  if u.linearUpload then some (p.lodOffset[0] + (offset <<< 2))
  else
    let level := field offset 15 4
    if h : level < 9 then
      let t := UInt32.ofNat (field offset 7 8)
      let rowTexels := (p.widthMask >>> UInt32.ofNat level) + 1
      let base := p.lodOffset[level]
      if u.mode.format.isWide then
        let s := (offset <<< 1) &&& (0xFE : UInt32)
        some (base + 2 * (t * rowTexels + s))
      else
        let s := (if u.mode.sequentialUpload then offset <<< 2 else offset <<< 1) &&& (0xFC : UInt32)
        some (base + (t * rowTexels + s))
    else none

/-- the data of an upload after the swaps that tLOD asks for -/
def uploadData (u : TextureUnit) (data : UInt32) : UInt32 :=
  let lod := LodMode.decode (u.regs.get Reg.textureLod)
  let data := if lod.swizzleUpload then swapBytes data else data
  if lod.swapUpload then swapHalves data else data

/-- four bytes written through the texture aperture at a dword offset -/
def upload (u : TextureUnit) (offset data : UInt32) : TextureUnit :=
  let u := u.refresh
  match u.uploadAddress offset with
  | none => u
  | some address =>
    let word := u.uploadData data
    { u with memory := u.memory.write32 address word }

end TextureUnit
end Accel3D
