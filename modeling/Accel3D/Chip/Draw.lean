/-
The triangle command.

The start values are first moved to the centre of vertex A's pixel, if fbzColorPath asks for it; they stay moved even
when nothing is drawn, so a second command moves them again. Without a color buffer to draw to nothing else happens. The
texture units that take part then bring their derived state up to date, and every covered pixel goes through the texture
stages and the pixel pipeline. A unit that is switched off takes no part, and so does every unit when texturing is off.
-/
import Accel3D.Chip.State
import Accel3D.Triangle.Raster

namespace Accel3D.Chip

/-- bit 6 of fbiInit3 takes the texture units out -/
def texturesRemoved (c : Chip) : Bool := bit (c.regs.get Reg.fbiInit3) 6

/-- number of units, from the first on, that texture a triangle -/
def textureCount (c : Chip) : Nat :=
  if (ColorPath.decode (c.regs.get Reg.fbzColorPath)).textureEnable && !c.texturesRemoved then
    min c.textures.size TextureUnit.maxCount
  else 0

/-- the first `n` texture units changed by a function -/
def modifyTextures (c : Chip) (n : Nat) (f : TextureUnit → TextureUnit) : Chip :=
  { c with textures := c.textures.mapIdx fun (i : Nat) u => if i < n then f u else u }

/-- the start values moved to the centre of vertex A's pixel, on the frame buffer side and in the first `n` units -/
def recentre (c : Chip) (n : Nat) : Chip :=
  let offset := c.frame.triangle.a.toCentre
  let c := c.modifyTextures n fun u => { u with gradients := u.gradients.recentre offset }
  c.modifyFrame fun f => { f with triangle := f.triangle.recentre }

/-- the key of the current mode words, with `n` texture units at work -/
def modeKey (c : Chip) (n : Nat) : ModeKey :=
  let texture (i : Nat) : Option UInt32 := if i < n then c.textures[i]?.map TextureUnit.modeWord else none
  .ofModes (c.regs.get Reg.fbzColorPath) (c.regs.get Reg.alphaMode) (c.regs.get Reg.fogMode) (c.regs.get Reg.fbzMode)
    (texture 0) (texture 1)

/-- the stages of the first `n` units, from the far one to the near one -/
def textureStages (c : Chip) (n : Nat) (entry : ModeEntry) : List TextureStage :=
  (List.range n).reverse.filterMap fun i => do
    let u ← c.textures[i]?
    let base ← u.triangleLod
    return TextureStage.ofUnit u base (entry.texture i)

/-- the triangle of the current parameters, with `n` texture units at work -/
def raster (c : Chip) (n : Nat) (entry : ModeEntry) (colorBase : UInt32) : Raster :=
  let rules := PixelRules.ofRegisters c.revision c.regs entry.color
  { triangle := c.frame.triangle
    stages := c.textureStages n entry
    pipeline := ⟨rules, c.frame.fog, c.frame.surface colorBase⟩
    flip := c.frame.layout.flip rules.frame.flipY }

/-- the current triangle drawn into a color buffer and counted; a full cache leaves the mode entry out -/
def rasterize (c : Chip) (n : Nat) (colorBase : UInt32) : Chip :=
  let key := c.modeKey n
  let (modes, found) := c.modes.fetch key
  let r := c.raster n (found.getD (ModeEntry.ofKey key)) colorBase
  let c := { c with modes := modes.credit key r.pixelCount }
  (c.paint r.draw).modifyFrame fun f => { f with trianglesOut := f.trianglesOut + 1 }

/-- the triangle command -/
def drawTriangle (c : Chip) : Chip :=
  let n := c.textureCount
  let c := if (ColorPath.decode (c.regs.get Reg.fbzColorPath)).subpixelAdjust then c.recentre n else c
  match c.frame.drawOffset c.revision (FrameMode.decode (c.regs.get Reg.fbzMode)).drawBuffer with
  | none => c
  | some base => (c.modifyTextures n TextureUnit.refreshAll).rasterize n base

end Accel3D.Chip
