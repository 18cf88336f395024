/-
The chip: its register file, frame buffer side, texture units, write queue, setup unit and cache of decoded modes.
-/
import Accel3D.Chip.Config
import Accel3D.Frame.Buffer
import Accel3D.ModeCache
import Accel3D.Setup
import Accel3D.Texture.Unit
import Accel3D.WriteQueue

namespace Accel3D

structure Chip where
  config : ChipConfig
  regs : RegisterFile
  frame : FrameBuffer
  textures : Array TextureUnit
  queue : WriteQueue
  setup : SetupUnit
  modes : ModeCache

namespace Chip

/-- a chip of a configuration that was checked -/
def initial (config : ChipConfig) : Chip where
  config := config
  regs := RegisterFile.zero
  frame := FrameBuffer.initial (ChipConfig.logBytes config.frameMegabytes)
  textures := Array.ofFn fun (i : Fin config.textureUnits.toNat) =>
    TextureUnit.initial config.revision (UInt64.ofNat i.val) (ChipConfig.logBytes config.textureMegabytes)
  queue := WriteQueue.empty
  setup := SetupUnit.initial
  modes := ModeCache.empty

/-- a new chip, or the fault of its configuration -/
def make (config : ChipConfig) : Except ConfigError Chip := do
  config.validate
  return initial config

def revision (c : Chip) : Revision := c.config.revision

/-- the overlay address that Banshee swaps to -/
def overlay (c : Chip) : Option UInt32 :=
  if c.revision.hasBansheeLayout then some (c.regs.get Reg.leftOverlayBuf) else none

/-- the frame buffer side changed by a function -/
@[inline] def modifyFrame (c : Chip) (f : FrameBuffer → FrameBuffer) : Chip :=
  match c with
  | ⟨config, regs, frame, textures, queue, setup, modes⟩ => ⟨config, regs, f frame, textures, queue, setup, modes⟩

/-- one texture unit changed by a function; a missing unit is none -/
@[inline] def modifyTexture (c : Chip) (i : Nat) (f : TextureUnit → TextureUnit) : Chip :=
  match c with
  | ⟨config, regs, frame, textures, queue, setup, modes⟩ =>
    ⟨config, regs, frame, textures.modify i f, queue, setup, modes⟩

/-- something drawn into the frame buffer with the stipple register -/
@[inline] def paint (c : Chip) (draw : Canvas → Canvas) : Chip :=
  match c with
  | ⟨config, regs, frame, textures, queue, setup, modes⟩ =>
    match frame.paint (regs.get Reg.stipple) draw with
    | (frame, stipple) => ⟨config, regs.set Reg.stipple stipple, frame, textures, queue, setup, modes⟩

end Chip
end Accel3D
