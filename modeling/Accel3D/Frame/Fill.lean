/-
The fast fill: the clip rectangle filled with color 1 and the constant depth.

Each row is filled first in the color buffer, dithered, and then in the aux buffer, as far as each is to be written. The
pixels of the color part count as drawn.
-/
import Accel3D.Dither
import Accel3D.Frame.Buffer

namespace Accel3D

/-- a fill: the rectangle, what is stored in it and where; rows are flipped as `flip` says -/
structure FastFill where
  clip : ClipRect
  mode : FrameMode
  color : Argb
  depth : UInt16
  colorBase : Option UInt32
  auxBase : Option UInt32
  rowPixels : UInt32
  flip : Option Int

namespace FastFill

/-- the fill of the registers -/
def ofRegisters (regs : RegisterFile) (layout : FrameLayout) (drawOffset : Option UInt32) : FastFill :=
  let mode := FrameMode.decode (regs.get Reg.fbzMode)
  { clip := ClipRect.decode (regs.get Reg.clipLeftRight) (regs.get Reg.clipLowYHighY)
    mode := mode
    color := Argb.ofWord (regs.get Reg.color1)
    depth := (regs.get Reg.zaColor).toUInt16
    colorBase := if mode.writeColor then drawOffset else none
    auxBase := if mode.writeAux then layout.aux else none
    rowPixels := layout.rowPixels
    flip := layout.flip mode.flipY }

/-- columns of the rectangle -/
def width (f : FastFill) : Nat := f.clip.right - f.clip.left

/-- rows of the rectangle -/
def height (f : FastFill) : Nat := f.clip.high - f.clip.low

/-- address of a pixel of a screen row in the buffer at `base` -/
def address (f : FastFill) (base : UInt32) (x : Nat) (row : Int) : UInt32 :=
  Surface.color ⟨base, none, f.rowPixels⟩ x row

/-- `n` pixels of a screen row from column `x` on, each with its value -/
def fillRun (f : FastFill) (base : UInt32) (row : Int) (value : Nat → UInt16) : Nat → Nat → Memory → Memory
  | 0, _, m => m
  | n + 1, x, m => fillRun f base row value n (x + 1) (m.write16 (f.address base x row) (value x))

/-- the value of the color buffer at a pixel -/
def colorAt (f : FastFill) (y : Int) (x : Nat) : UInt16 :=
  (Dither.ofMode f.mode y).quantize x f.color.r.toNat f.color.g.toNat f.color.b.toNat

/-- the color part of row `y` -/
def fillColor (f : FastFill) (y : Int) (c : Canvas) : Canvas :=
  match f.colorBase with
  | none => c
  | some base =>
    { c with
      memory := f.fillRun base (screenRow f.flip y) (f.colorAt y) f.width f.clip.left c.memory
      counters := c.counters.drawn (UInt32.ofNat f.width) }

/-- the aux part of row `y` -/
def fillAux (f : FastFill) (y : Int) (c : Canvas) : Canvas :=
  match f.auxBase with
  | none => c
  | some base =>
    { c with memory := f.fillRun base (screenRow f.flip y) (fun _ => f.depth) f.width f.clip.left c.memory }

/-- `n` rows from row `y` on -/
def fillRows (f : FastFill) : Nat → Nat → Canvas → Canvas
  | 0, _, c => c
  | n + 1, y, c => fillRows f n (y + 1) (f.fillAux y (f.fillColor y c))

/-- the whole rectangle -/
def run (f : FastFill) (c : Canvas) : Canvas := f.fillRows f.height f.clip.low c

end FastFill
end Accel3D
