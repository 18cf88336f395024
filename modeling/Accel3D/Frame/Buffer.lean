/-
The frame buffer side of the chip: memory and its layout, buffer swaps, fog table, counters and triangle parameters.

A swap command is pending until it is carried out, at once or, when it is synced, at the first vertical retrace at which
its interval has passed since the last swap. A swap moves the front buffer on to the next color buffer, or on Banshee
takes the front buffer from the overlay register; it also records how many retraces have passed since the last one.
-/
import Accel3D.Frame.Fog
import Accel3D.Frame.Layout
import Accel3D.Memory
import Accel3D.Pixel.Counters
import Accel3D.Pixel.Pipeline
import Accel3D.Triangle.Gradient

namespace Accel3D

structure SwapState where
  pending : UInt32
  retraces : UInt32
  syncPending : Bool
  interval : UInt32
  dontSwap : Bool
  history : UInt32
deriving DecidableEq, Repr, Inhabited

namespace SwapState

def initial : SwapState := ⟨0, 0, false, 0, false, 0⟩

/-- a swap announced ahead of its command -/
def announce (s : SwapState) : SwapState := { s with pending := s.pending + 1 }

/-- a swap command: bits 1 to 8 are the interval, bit 9 keeps the buffers -/
def command (s : SwapState) (data : UInt32) : SwapState :=
  { s with
    pending := s.pending + 1
    syncPending := true
    interval := UInt32.ofNat (field data 1 8)
    dontSwap := bit data 9 }

/-- a swap carried out: the retraces since the last one enter the history, at most 15 -/
def finish (s : SwapState) : SwapState :=
  { s with
    history := (s.history <<< 4) ||| (if s.retraces < 15 then s.retraces else 15)
    pending := if s.pending = 0 then 0 else s.pending - 1
    retraces := 0
    syncPending := false }

/-- one more retrace, counted up to 250 -/
def retrace (s : SwapState) : SwapState :=
  { s with retraces := if s.retraces < 250 then s.retraces + 1 else s.retraces }

/-- whether a synced swap is due -/
def isDue (s : SwapState) : Bool := s.syncPending && s.interval ≤ s.retraces

end SwapState

structure FrameBuffer where
  memory : Memory
  layout : FrameLayout
  front : UInt64
  back : UInt64
  fog : FogTable
  swap : SwapState
  inRetrace : Bool
  counters : Counters
  trianglesOut : UInt32
  triangle : TriangleParameters

namespace FrameBuffer

/-- a frame buffer of 2^k bytes -/
def initial (k : Nat) : FrameBuffer where
  memory := Memory.zeroed k
  layout := FrameLayout.initial
  front := 0
  back := 1
  fog := FogTable.zero
  swap := SwapState.initial
  inRetrace := false
  counters := Counters.zero
  trianglesOut := 0
  triangle := TriangleParameters.zero

/-! ## Buffers -/

/-- offset of a buffer, if it has a place -/
def offsetOf (f : FrameBuffer) : Buffer → Option UInt32
  | .front => f.layout.colorOffset f.front
  | .back => f.layout.colorOffset f.back
  | .aux => f.layout.aux

/-- offset of the color buffer that a select field draws to; the aux buffer is none, and Banshee draws to the back
buffer always -/
def drawOffset (f : FrameBuffer) (revision : Revision) (select : Option Buffer) : Option UInt32 :=
  if revision.hasBansheeLayout then f.offsetOf .back
  else match select with
    | some .front => f.offsetOf .front
    | some .back => f.offsetOf .back
    | _ => none

/-- the stored pixel of a buffer in screen coordinates -/
def pixel? (f : FrameBuffer) (buffer : Buffer) (x y : UInt32) : Option UInt16 :=
  (f.offsetOf buffer).map fun base => f.memory.read16 (base + (y * f.layout.rowPixels + x) * 2)

/-- the layout worked out again; without a third buffer, a buffer number that meant it becomes 0 -/
def relayout (f : FrameBuffer) (revision : Revision) (regs : RegisterFile) : FrameBuffer :=
  let layout := FrameLayout.ofRegisters revision regs f.memory.mask
  let number (n : UInt64) : UInt64 := if !layout.hasThird && n == 2 then 0 else n
  { f with layout := layout, front := number f.front, back := number f.back }

/-- a Banshee buffer register written; the buffer numbers go back to their first values -/
def writeBuffer (f : FrameBuffer) (r : Reg) (data : UInt32) : FrameBuffer :=
  { f with layout := f.layout.writeBuffer r data f.memory.mask, front := 0, back := 1 }

/-! ## Swaps -/

/-- the buffers moved on: on Banshee the overlay's address becomes the front buffer's, otherwise the front buffer is the
next of two or three -/
def rotate (f : FrameBuffer) (overlay : Option UInt32) : FrameBuffer :=
  match overlay with
  | some address => { f with layout := f.layout.setFront address f.memory.mask }
  | none =>
    if f.swap.dontSwap then f
    else if f.layout.hasThird then
      let front := (f.front + 1) % 3
      { f with front := front, back := (front + 1) % 3 }
    else
      let front := 1 - f.front
      { f with front := front, back := 1 - front }

/-- a swap carried out -/
def swapNow (f : FrameBuffer) (overlay : Option UInt32) : FrameBuffer :=
  let f := f.rotate overlay
  { f with swap := f.swap.finish }

/-- a swap announced ahead of its command -/
def announceSwap (f : FrameBuffer) : FrameBuffer := { f with swap := f.swap.announce }

/-- a swap command: at once when bit 0 is clear -/
def swapCommand (f : FrameBuffer) (data : UInt32) (overlay : Option UInt32) : FrameBuffer :=
  let f := { f with swap := f.swap.command data }
  if bit data 0 then f else f.swapNow overlay

/-- the start of a vertical retrace -/
def retrace (f : FrameBuffer) (overlay : Option UInt32) : FrameBuffer :=
  let f := { f with inRetrace := true, swap := f.swap.retrace }
  if f.swap.isDue then f.swapNow overlay else f

/-- the end of a vertical retrace -/
def endRetrace (f : FrameBuffer) : FrameBuffer := { f with inRetrace := false }

/-! ## Drawing -/

/-- the surface of a color buffer, with the aux buffer if there is one -/
def surface (f : FrameBuffer) (colorBase : UInt32) : Surface := ⟨colorBase, f.layout.aux, f.layout.rowPixels⟩

/-- what a drawing function does to the memory, the counters and a stipple register -/
@[inline] def paint (f : FrameBuffer) (stipple : UInt32) (draw : Canvas → Canvas) : FrameBuffer × UInt32 :=
  match f with
  | ⟨memory, layout, front, back, fog, swap, inRetrace, counters, trianglesOut, triangle⟩ =>
    match draw ⟨memory, counters, stipple⟩ with
    | ⟨memory, counters, stipple⟩ =>
      (⟨memory, layout, front, back, fog, swap, inRetrace, counters, trianglesOut, triangle⟩, stipple)

end FrameBuffer
end Accel3D
