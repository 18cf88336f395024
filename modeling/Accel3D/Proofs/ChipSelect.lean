/-
Which chips a register write reaches.

The chip select bits of an address name the frame buffer side and the texture units that a write is for. Storing looks
at them, and so does each effect for itself: vertices, parameters and the fog table are for the selected chips
(`Command.heedsSelect`). Commands are carried out whatever is selected, and write-through registers are stored
everywhere. Two more kinds of register do not look at the bits either: a packed color sets the four setup colors, and on
Banshee a buffer register changes the layout and resets the buffers, on a frame buffer side that the write is not for.

Results: `chip_select` (what a write leaves alone on the chips that it does not select); `packed_color_unselected` (the
registers of the frame buffer side after a packed color for a texture unit).
-/
import Accel3D.Proofs.Display

namespace Accel3D

/-! ## Registers and their effects -/

namespace Reg

/-- the registers that start a command, for whatever chips -/
def isCommand (r : Reg) : Bool :=
  [triangleCmd, floatTriangleCmd, nopCmd, fastfillCmd, swapbufferCmd, beginTriCmd, drawTriCmd].contains r

/-- the registers that hold Banshee's buffers -/
def isBuffer (r : Reg) : Bool := [colBufferAddr, colBufferStride, auxBufferAddr, auxBufferStride].contains r

end Reg

namespace Command

/-- the effects that look at the chips that are selected, or that do nothing -/
def heedsSelect : Command → Bool
  | vertex _ _ => true
  | pixelParameter _ _ _ => true
  | coordParameter _ _ _ => true
  | fogTable _ => true
  | plain => true
  | _ => false

theorem ofRegister_setupArgb (v : Revision) : ofRegister v Reg.setupArgb = unpackColor := by
  cases v <;> decide +kernel

theorem ofRegister_buffer (v : Revision) (hv : v.hasBansheeLayout = true) :
    ∀ r : Reg, r.isBuffer = true → ofRegister v r = bufferRegister r := by
  cases v with
  | voodoo1 => cases hv
  | voodoo2 => cases hv
  | banshee => decide +kernel

/-- all other registers that are neither commands nor write-through have an effect that looks at the selected chips -/
theorem heedsSelect_ofRegister (v : Revision) :
    ∀ r : Reg, r.isCommand = false → (Access.of v r).writeThrough = false → r ≠ Reg.setupArgb →
      (v.hasBansheeLayout && r.isBuffer) = false → (ofRegister v r).heedsSelect = true := by
  cases v <;> decide +kernel

end Command

namespace Chip

/-! ## What a write does to a chip that it does not select -/

/-- the frame buffer side of the chip: its registers, its frame buffer with the triangle, and the setup unit -/
structure FrameSide where
  regs : RegisterFile
  frame : FrameBuffer
  setup : SetupUnit

def frameSide (c : Chip) : FrameSide := ⟨c.regs, c.frame, c.setup⟩

variable (c : Chip) (select : ChipSelect)

theorem getElem_mapSelected (units : Array TextureUnit) (f : TextureUnit → TextureUnit) (i : Nat)
    (h : select.texture i = false) :
    (units.mapIdx fun (j : Nat) u => if select.texture j then f u else u)[i]? = units[i]? := by
  rw [Array.getElem?_mapIdx]
  simp [h]

/-- an effect that looks at the selected chips leaves the frame buffer side alone if that is not one of them -/
theorem frameSide_run (command : Command) (data : UInt32) (hc : command.heedsSelect = true)
    (h : select.frame = false) : (c.run command select data).frameSide = c.frameSide := by
  cases command with
  | coordParameter p term form => simp only [run, writeCoord, h, Bool.false_eq_true, if_false]; rfl
  | vertex n form => simp only [run, h, Bool.false_eq_true, if_false]
  | pixelParameter p term form => simp only [run, h, Bool.false_eq_true, if_false]
  | fogTable n => simp only [run, h, Bool.false_eq_true, if_false]
  | plain => rfl
  | _ => cases hc

theorem textures_run (command : Command) (data : UInt32) (hc : command.heedsSelect = true) (i : Nat)
    (h : select.texture i = false) : (c.run command select data).textures[i]? = c.textures[i]? := by
  cases command with
  | coordParameter p term form =>
    simp only [run, writeCoord]
    rw [getElem_mapSelected select _ (fun u => { u with gradients := u.gradients.write p term _ }) i h]
    split <;> rfl
  | vertex n form => simp only [run]; split <;> rfl
  | pixelParameter p term form => simp only [run]; split <;> rfl
  | fogTable n => simp only [run]; split <;> rfl
  | plain => rfl
  | _ => cases hc

theorem frameSide_storeRegister (r : Reg) (data : UInt32) (h : select.frame = false) :
    (c.storeRegister select r data).frameSide = c.frameSide := by
  simp only [storeRegister, h, Bool.false_eq_true, if_false]
  rfl

theorem textures_storeRegister (r : Reg) (data : UInt32) (i : Nat) (h : select.texture i = false) :
    (c.storeRegister select r data).textures[i]? = c.textures[i]? := by
  simp only [storeRegister]
  rw [getElem_mapSelected select _ (fun u => u.writeRegister r data) i h]
  split <;> rfl

theorem updateLayout_unselected (r : Reg) (h : select.frame = false) : c.updateLayout select r = c := by
  simp only [updateLayout, h, Bool.false_and, Bool.false_eq_true, if_false]

theorem textures_updateLayout (r : Reg) : (c.updateLayout select r).textures = c.textures := by
  unfold updateLayout
  split <;> rfl

/-- a write that is not write-through reaches the chips that it selects -/
theorem reach_eq (w : RegisterWrite) (h : (Access.of c.revision (register w)).writeThrough = false) :
    c.reach w = ChipSelect.ofAddress w.offset := by
  rw [reach, h, if_neg Bool.false_ne_true]

theorem frameSide_execute (w : RegisterWrite) (hreach : c.reach w = ChipSelect.ofAddress w.offset)
    (h : (ChipSelect.ofAddress w.offset).frame = false) :
    (c.execute w).frameSide = (c.run (c.command w) (ChipSelect.ofAddress w.offset) w.data).frameSide := by
  rw [execute_eq, hreach, updateLayout_unselected _ _ _ h, stored, hreach, frameSide_storeRegister _ _ _ _ h]

theorem textures_execute (w : RegisterWrite) (hreach : c.reach w = ChipSelect.ofAddress w.offset) (i : Nat)
    (h : (ChipSelect.ofAddress w.offset).texture i = false) :
    (c.execute w).textures[i]? = (c.run (c.command w) (ChipSelect.ofAddress w.offset) w.data).textures[i]? := by
  rw [execute_eq, textures_updateLayout, stored, hreach, textures_storeRegister _ _ _ _ i h]

/-! ## Isolation -/

/-- what a write changes on a frame buffer side that it does not select: a packed color the setup colors, and one of
Banshee's buffer registers the layout and the buffers -/
def unselectedSide (w : RegisterWrite) : FrameSide :=
  if register w = Reg.setupArgb then { c.frameSide with regs := SetupVertex.unpackColor c.regs w.data }
  else if c.revision.hasBansheeLayout && (register w).isBuffer then
    { c.frameSide with frame := c.frame.writeBuffer (register w) w.data }
  else c.frameSide

/-- **Chip select isolates the texture units, and the frame buffer side but for two kinds of register.** A write of a
register that is neither write-through nor a command leaves every texture unit alone that it does not select. It leaves
the frame buffer side alone if it does not select it, unless the register is that of a packed color or, on Banshee, a
buffer register: the one sets the four setup colors, the other the layout and the buffers. -/
theorem chip_select (w : RegisterWrite) (hthrough : (Access.of c.revision (register w)).writeThrough = false)
    (hcommand : (register w).isCommand = false) :
    (∀ i, (ChipSelect.ofAddress w.offset).texture i = false → (c.execute w).textures[i]? = c.textures[i]?) ∧
    ((ChipSelect.ofAddress w.offset).frame = false → (c.execute w).frameSide = c.unselectedSide w) := by
  have hreach := c.reach_eq w hthrough
  by_cases hcolor : register w = Reg.setupArgb
  · have hc : c.command w = .unpackColor := by rw [command, hcolor, Command.ofRegister_setupArgb]
    refine ⟨fun i hi => ?_, fun hf => ?_⟩
    · rw [c.textures_execute w hreach i hi, hc]
      rfl
    · rw [c.frameSide_execute w hreach hf, hc, unselectedSide, if_pos hcolor]
      rfl
  · by_cases hbuffer : (c.revision.hasBansheeLayout && (register w).isBuffer) = true
    · obtain ⟨hb, hr⟩ := Bool.and_eq_true_iff.1 hbuffer
      have hc : c.command w = .bufferRegister (register w) := Command.ofRegister_buffer c.revision hb _ hr
      refine ⟨fun i hi => ?_, fun hf => ?_⟩
      · rw [c.textures_execute w hreach i hi, hc]
        rfl
      · rw [c.frameSide_execute w hreach hf, hc, unselectedSide, if_neg hcolor, if_pos hbuffer]
        rfl
    · have hc : (c.command w).heedsSelect = true :=
        Command.heedsSelect_ofRegister c.revision _ hcommand hthrough hcolor (Bool.eq_false_iff.2 hbuffer)
      refine ⟨fun i hi => ?_, fun hf => ?_⟩
      · rw [c.textures_execute w hreach i hi, textures_run c _ _ _ hc i hi]
      · rw [c.frameSide_execute w hreach hf, frameSide_run c _ _ _ hc hf, unselectedSide, if_neg hcolor, if_neg hbuffer]

/-- a Banshee with one texture unit -/
def smallBanshee : Chip := initial { ChipConfig.standard with revision := .banshee, textureUnits := 1 }

/-- a stride that is written to the texture unit alone changes the length of the rows -/
theorem chip_select_stride :
    let w : RegisterWrite := ⟨0x27C, 0x100⟩
    (smallBanshee.execute w).frameSide = smallBanshee.unselectedSide w ∧
      (smallBanshee.unselectedSide w).frame.layout.rowPixels = 128 ∧ smallBanshee.frame.layout.rowPixels = 0 := by
  refine ⟨(smallBanshee.chip_select _ ?_ ?_).2 ?_, ?_, ?_⟩ <;> decide +kernel

/-- a packed color that is written to a texture unit alone sets the setup colors of the frame buffer side -/
theorem packed_color_unselected :
    let c := initial ChipConfig.standard
    let w : RegisterWrite := ⟨0x29B, 0xFF112233⟩
    (Access.of c.revision (register w)).write = true ∧ (Access.of c.revision (register w)).writeThrough = false ∧
      (register w).isCommand = false ∧ (ChipSelect.ofAddress w.offset).frame = false ∧
      (c.execute w).regs.get Reg.setupRed = 0x41880000 ∧ c.regs.get Reg.setupRed = 0 := by
  decide +kernel

end Chip
end Accel3D
