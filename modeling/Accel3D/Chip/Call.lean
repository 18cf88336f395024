/-
The chip as its host sees it: the calls that the host makes, one after the other.

With deferred writes, a register write that has the queue right waits in the queue. The queue is carried out, oldest
write first, before anything that could tell the difference: a read, a write of another kind, a retrace, or a further
write when the queue is full. `runCalls` makes a list of calls and gives the value of each read.
-/
import Accel3D.Chip.Command
import Accel3D.Chip.Linear

namespace Accel3D
namespace Chip

/-! ## The queue -/

/-- the writes that wait are carried out -/
def flush (c : Chip) : Chip :=
  match c.queue.writes with
  | [] => c
  | writes => writes.foldl execute { c with queue := WriteQueue.empty }

/-- a write put in the queue, which is emptied first if it is full -/
def enqueue (c : Chip) (w : RegisterWrite) : Chip :=
  let c := if c.queue.isFull then c.flush else c
  { c with queue := c.queue.push w }

/-! ## Registers -/

/-- a write of a register, at a dword address with chip select bits -/
def writeRegister (c : Chip) (offset data : UInt32) : Chip :=
  let access := Access.of c.revision (Reg.ofAddress offset)
  if !access.write then c
  else if c.config.deferWrites && access.queued then c.enqueue ⟨offset, data⟩
  else c.flush.execute ⟨offset, data⟩

/-- the status register: room in the queue, retrace, front buffer, pending swaps -/
def status (c : Chip) : UInt32 :=
  let room : Nat := if c.queue.isEmpty then 0x3F else min (c.queue.freeSpace / 2) 0x3D
  let retrace : UInt32 := if c.frame.inRetrace then 0x40 else 0
  let buffers : UInt32 :=
    if c.revision.hasBansheeLayout then 0 else (c.frame.front.toUInt32 <<< 10) ||| (0xFFFF000 : UInt32)
  let pending : UInt32 := if c.frame.swap.pending < 7 then c.frame.swap.pending else 7
  UInt32.ofNat room ||| retrace ||| buffers ||| (pending <<< 28)

/-- a counter as a register shows it, in 24 bits -/
def shownCounter (n : UInt32) : UInt32 := n &&& 0xFFFFFF

/-- the value of a readable register, with no write waiting -/
def registerValue (c : Chip) (r : Reg) : UInt32 :=
  if r = Reg.status then c.status
  else if r = Reg.fbiPixelsIn then shownCounter c.frame.counters.pixelsIn
  else if r = Reg.fbiChromaFail then shownCounter c.frame.counters.chromaFail
  else if r = Reg.fbiZfuncFail then shownCounter c.frame.counters.depthFail
  else if r = Reg.fbiAfuncFail then shownCounter c.frame.counters.alphaFail
  else if r = Reg.fbiPixelsOut then shownCounter c.frame.counters.pixelsOut
  else if r = Reg.fbiTrianglesOut then shownCounter c.frame.trianglesOut
  else if r = Reg.fbiSwapHistory then c.frame.swap.history
  else c.regs.get r

/-- a read of a register -/
def readRegister (c : Chip) (offset : UInt32) : Chip × UInt32 :=
  let r := Reg.ofAddress offset
  if (Access.of c.revision r).read then
    let c := c.flush
    (c, c.registerValue r)
  else (c, 0xFFFFFFFF)

/-! ## Apertures and retrace -/

/-- a write through the texture aperture: bits 19 and 20 of the offset name the unit -/
def writeTexture (c : Chip) (offset data : UInt32) : Chip :=
  c.flush.modifyTexture (field offset 19 2) fun u => u.upload offset data

/-- a write through the linear frame buffer; a byte mask leaves out halves of the data -/
def writeLinear (c : Chip) (offset data byteMask : UInt32) : Chip := c.flush.linearWrite offset data byteMask

/-- a read through the linear frame buffer -/
def readLinear (c : Chip) (offset : UInt32) : Chip × UInt32 :=
  let c := c.flush
  (c, c.linearRead offset)

/-- the start of a vertical retrace -/
def retrace (c : Chip) : Chip :=
  let c := c.flush
  let overlay := c.overlay
  c.modifyFrame fun f => f.retrace overlay

/-- the end of a vertical retrace -/
def endRetrace (c : Chip) : Chip := c.modifyFrame FrameBuffer.endRetrace

end Chip

/-! ## Runs -/

/-- what a host can ask of the chip -/
inductive Call where
  | writeRegister (offset data : UInt32)
  | readRegister (offset : UInt32)
  | writeTexture (offset data : UInt32)
  | writeLinear (offset data byteMask : UInt32)
  | readLinear (offset : UInt32)
  | retrace
  | endRetrace
  | flush
deriving DecidableEq, Repr

/-- one call, and the value that it reads -/
def Chip.step (c : Chip) : Call → Chip × Option UInt32
  | .writeRegister offset data => (c.writeRegister offset data, none)
  | .readRegister offset => let (c, v) := c.readRegister offset; (c, some v)
  | .writeTexture offset data => (c.writeTexture offset data, none)
  | .writeLinear offset data byteMask => (c.writeLinear offset data byteMask, none)
  | .readLinear offset => let (c, v) := c.readLinear offset; (c, some v)
  | .retrace => (c.retrace, none)
  | .endRetrace => (c.endRetrace, none)
  | .flush => (c.flush, none)

/-- a list of calls in order, and the values read -/
def Chip.runCalls (c : Chip) : List Call → Chip × List UInt32
  | [] => (c, [])
  | call :: rest =>
    let (c, v) := c.step call
    let (c, values) := c.runCalls rest
    (c, v.toList ++ values)

end Accel3D
