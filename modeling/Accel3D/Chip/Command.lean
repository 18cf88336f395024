/-
What a register write does.

A write first has its effect, seen by the registers as they were, and is then stored: in the frame buffer side's
register file and in each texture unit, as far as the write reaches them. A write of a layout register takes effect
after it is stored. Parameters, vertices and the fog table go to the selected chips; commands and the packed color are
carried out whatever chips are selected.
-/
import Accel3D.Chip.Draw
import Accel3D.Frame.Fill
import Accel3D.Register.Access
import Accel3D.Triangle.Parameter

namespace Accel3D

/-- the effect of a write beyond its storing -/
inductive Command where
  | vertex (n : Fin 6) (form : NumberForm)
  | pixelParameter (p : PixelParameter) (term : GradientTerm) (form : NumberForm)
  | coordParameter (p : CoordParameter) (term : GradientTerm) (form : NumberForm)
  | triangle
  | nop
  | fastFill
  | swapBuffer
  | fogTable (n : Fin 32)
  | bufferRegister (r : Reg)
  | announceSwap
  | unpackColor
  | beginStrip
  | extendStrip
  | plain
deriving DecidableEq, Repr

namespace Command

/-- the parameter register at a place in its block: eight start values, eight X steps, eight Y steps -/
def ofParameterIndex (i : Nat) (form : NumberForm) : Command :=
  let term := GradientTerm.ofIndex (i / 8)
  match i % 8 with
  | 0 => pixelParameter .red term form
  | 1 => pixelParameter .green term form
  | 2 => pixelParameter .blue term form
  | 3 => pixelParameter .z term form
  | 4 => pixelParameter .alpha term form
  | 5 => coordParameter .s term form
  | 6 => coordParameter .t term form
  | _ => coordParameter .w term form

/-- place in a block of `n` registers from `first` on -/
def place? (first : Reg) (n : Nat) (r : Reg) : Option Nat :=
  if first.val ≤ r.val && r.val < first.val + n then some (r.val - first.val) else none

/-- the effect of the registers that stand in blocks -/
def ofBlock? (r : Reg) : Option Command :=
  (place? Reg.vertexAx 6 r).map (fun i => vertex (Fin.ofNat 6 i) .integer)
    <|> (place? Reg.floatVertexAx 6 r).map (fun i => vertex (Fin.ofNat 6 i) .single)
    <|> (place? Reg.startR 24 r).map (ofParameterIndex · .integer)
    <|> (place? Reg.floatStartR 24 r).map (ofParameterIndex · .single)
    <|> (place? Reg.fogTable 32 r).map (fun i => fogTable (Fin.ofNat 32 i))

/-- the effect of the registers that stand alone -/
def ofSingleRegister (r : Reg) : Command :=
  if r = Reg.triangleCmd ∨ r = Reg.floatTriangleCmd then triangle
  else if r = Reg.nopCmd then nop
  else if r = Reg.fastfillCmd then fastFill
  else if r = Reg.swapbufferCmd then swapBuffer
  else if r = Reg.setupArgb then unpackColor
  else if r = Reg.beginTriCmd then beginStrip
  else if r = Reg.drawTriCmd then extendStrip
  else plain

/-- the effect of Banshee's own registers -/
def ofBanshee? (r : Reg) : Option Command :=
  (place? Reg.colBufferAddr 4 r).map (fun _ => bufferRegister r)
    <|> (if r = Reg.swapPending then some announceSwap else none)

/-- the effect of a register -/
def ofRegister (revision : Revision) (r : Reg) : Command :=
  let own := if revision.hasBansheeLayout then ofBanshee? r else none
  (ofBlock? r <|> own).getD (ofSingleRegister r)

end Command

namespace Chip

/-! ## Effects -/

/-- a coordinate parameter written to the selected chips -/
def writeCoord (c : Chip) (select : ChipSelect) (p : CoordParameter) (term : GradientTerm) (v : Int64) : Chip :=
  let c := if select.frame then c.modifyFrame fun f => { f with triangle := f.triangle.writeCoord p term v } else c
  { c with
    textures := c.textures.mapIdx fun (i : Nat) u =>
      if select.texture i then { u with gradients := u.gradients.write p term v } else u }

/-- the counters that a no-operation command clears: bit 0 those of pixels, bit 1 that of triangles -/
def clearCounters (c : Chip) (data : UInt32) : Chip :=
  c.modifyFrame fun f =>
    { f with
      counters := if bit data 0 then f.counters.clearRegisters else f.counters
      trianglesOut := if bit data 1 then 0 else f.trianglesOut }

/-- the fast fill command -/
def fastFill (c : Chip) : Chip :=
  let mode := FrameMode.decode (c.regs.get Reg.fbzMode)
  c.paint (FastFill.ofRegisters c.regs c.frame.layout (c.frame.drawOffset c.revision mode.drawBuffer)).run

/-- the triangle of the setup unit taken over as the current parameters -/
def takeSetup (c : Chip) (mode : SetupMode) : Chip :=
  let textures := c.textures.mapIdx fun (i : Nat) u => { u with gradients := c.setup.gradients mode i u.gradients }
  let triangle := c.setup.triangle mode c.frame.triangle
  { c with textures := textures }.modifyFrame fun f => { f with triangle := triangle }

/-- a vertex added to the strip or fan; a full triangle that faces the right way is drawn -/
def extendStrip (c : Chip) : Chip :=
  let mode := SetupMode.decode (c.regs.get Reg.setupMode)
  let vertices := c.setup.push mode.fan (SetupVertex.ofRegisters c.regs)
  let c := { c with setup := vertices }
  if vertices.isComplete && !vertices.isCulled mode then (c.takeSetup mode).drawTriangle else c

/-- the effect of a write, before it is stored -/
def run (c : Chip) (command : Command) (select : ChipSelect) (data : UInt32) : Chip :=
  match command with
  | .vertex n form =>
    if select.frame then
      c.modifyFrame fun f => { f with triangle := f.triangle.writeVertex n (form.coordinate data) }
    else c
  | .pixelParameter p term form =>
    if select.frame then
      c.modifyFrame fun f => { f with triangle := f.triangle.writePixel p term (p.value form data) }
    else c
  | .coordParameter p term form => c.writeCoord select p term (p.value form data)
  | .triangle => c.drawTriangle
  | .nop => c.clearCounters data
  | .fastFill => c.fastFill
  | .swapBuffer => c.modifyFrame fun f => f.swapCommand data c.overlay
  | .fogTable n => if select.frame then c.modifyFrame fun f => { f with fog := f.fog.write n data } else c
  | .bufferRegister r => c.modifyFrame fun f => f.writeBuffer r data
  | .announceSwap => c.modifyFrame FrameBuffer.announceSwap
  | .unpackColor => { c with regs := SetupVertex.unpackColor c.regs data }
  | .beginStrip => { c with setup := SetupUnit.begin (SetupVertex.ofRegisters c.regs) }
  | .extendStrip => c.extendStrip
  | .plain => c

/-! ## Storing -/

/-- a word stored in the register files of the selected chips -/
def storeRegister (c : Chip) (select : ChipSelect) (r : Reg) (data : UInt32) : Chip :=
  let c := if select.frame then { c with regs := c.regs.set r data } else c
  { c with
    textures := c.textures.mapIdx fun (i : Nat) u => if select.texture i then u.writeRegister r data else u }

/-- registers that the layout of Voodoo 1 and 2 follows from -/
def isLayoutRegister (r : Reg) : Bool :=
  [Reg.fbiInit1, Reg.fbiInit2, Reg.fbiInit3, Reg.fbiInit5, Reg.fbiInit6].contains r

/-- the layout worked out again after a write that it follows from -/
def updateLayout (c : Chip) (select : ChipSelect) (r : Reg) : Chip :=
  if select.frame && !c.revision.hasBansheeLayout && isLayoutRegister r then
    c.modifyFrame fun f => f.relayout c.revision c.regs
  else c

/-- a register write carried out: its effect, its storing, its layout -/
def execute (c : Chip) (w : RegisterWrite) : Chip :=
  let r := Reg.ofAddress w.offset
  let select := ChipSelect.ofAddress w.offset
  let reach := if (Access.of c.revision r).writeThrough then ChipSelect.all else select
  let c := c.run (Command.ofRegister c.revision r) select w.data
  (c.storeRegister reach r w.data).updateLayout reach r

end Chip
end Accel3D
