/-
Where the color and aux buffers lie in the frame buffer memory.

On Voodoo 1 and 2 the layout follows from the fbiInit registers: a buffer size in pages of 4096 bytes, and either two
color buffers and an aux buffer, three color buffers, or three color buffers and an aux buffer. On Banshee each address
and stride has a register of its own. Offsets beyond the memory are moved to its last byte.
-/
import Accel3D.Register.Number
import Accel3D.Revision

namespace Accel3D

structure FrameLayout where
  color : Vector (Option UInt32) 3
  aux : Option UInt32
  rowPixels : UInt32
  yOrigin : Int32
deriving DecidableEq, Repr

/-- the row on the screen of a raster row: flipped in ten bits about an origin if the raster is upside down -/
def screenRow (flip : Option Int) (y : Int) : Int :=
  match flip with
  | none => y
  | some origin => (origin - y) % 1024

namespace FrameLayout

/-- before any layout register is written: two color buffers at the start of the memory -/
def initial : FrameLayout := ⟨#v[some 0, some 0, none], none, 0, 0⟩

/-- offset of a color buffer, by its number -/
def colorOffset (l : FrameLayout) (n : UInt64) : Option UInt32 := (l.color[n.toNat]?).join

/-- has a third color buffer -/
def hasThird (l : FrameLayout) : Bool := (l.color[2]).isSome

/-- the origin that rows are flipped about, if they are flipped -/
def flip (l : FrameLayout) (flipped : Bool) : Option Int := if flipped then some l.yOrigin.toInt else none

/-! ## Voodoo 1 and 2 -/

/-- how the memory is shared: code 1 is three color buffers, 2 three and an aux buffer, others two and an aux buffer -/
def allocation (revision : Revision) (regs : RegisterFile) : Nat :=
  let triple := bit (regs.get Reg.fbiInit2) 4
  if triple then 1
  else if revision.isVoodoo2OrLater then field (regs.get Reg.fbiInit5) 9 2
  else 0

/-- row length in tiles; Voodoo 2 has a bit above and a bit below the four that Voodoo 1 has -/
def tilesPerRow (revision : Revision) (regs : RegisterFile) : Nat :=
  let tiles := field (regs.get Reg.fbiInit1) 4 4
  if revision.isVoodoo2OrLater then
    32 * field (regs.get Reg.fbiInit1) 24 1 + 2 * tiles + field (regs.get Reg.fbiInit6) 30 1
  else tiles

/-- bytes from one buffer to the next -/
def bufferSize (regs : RegisterFile) : UInt32 := UInt32.ofNat (field (regs.get Reg.fbiInit2) 11 9) * 4096

/-- the layout of the fbiInit registers, in a memory with this last address -/
def ofRegisters (revision : Revision) (regs : RegisterFile) (last : UInt32) : FrameLayout :=
  let size := bufferSize regs
  let place (n : UInt32) : Option UInt32 := some (if n * size < last then n * size else last)
  let (third, aux) := match allocation revision regs with
    | 1 => (place 2, none)
    | 2 => (place 2, place 3)
    | _ => (none, place 2)
  { color := #v[place 0, place 1, third]
    aux := aux
    rowPixels := revision.tileWidth * UInt32.ofNat (tilesPerRow revision regs)
    yOrigin := Int32.ofNat (field (regs.get Reg.fbiInit3) 22 10) }

/-! ## Banshee -/

/-- an address register: within the memory, a multiple of 16 -/
def address (data last : UInt32) : UInt32 := data &&& last &&& 0xFFFFFFF0

/-- pixels in a stride: tiles of 64 pixels, or bytes -/
def stride (data : UInt32) : UInt32 :=
  if bit data 15 then UInt32.ofNat (64 * field data 0 7) else UInt32.ofNat (field data 0 14 / 2)

/-- the layout after a write of a buffer register; the aux stride has no effect -/
def writeBuffer (l : FrameLayout) (r : Reg) (data last : UInt32) : FrameLayout :=
  if r = Reg.colBufferAddr then { l with color := l.color.set 1 (some (address data last)) }
  else if r = Reg.colBufferStride then { l with rowPixels := stride data }
  else if r = Reg.auxBufferAddr then { l with aux := some (address data last) }
  else l

/-- the layout with the overlay's buffer in front -/
def setFront (l : FrameLayout) (overlay last : UInt32) : FrameLayout :=
  { l with color := l.color.set 0 (some (address overlay last)) }

end FrameLayout
end Accel3D
