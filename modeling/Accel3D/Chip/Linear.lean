/-
The linear frame buffer: pixels written and read by address.

An offset names a row of 1024 columns. A write either stores its pixels directly, dithered, or sends each through the
pixel pipeline. A direct write drops what would lie past the end of the memory instead of wrapping; every pixel that it
brings counts as drawn all the same. A read gives two pixels, or all ones where there is nothing to read.
-/
import Accel3D.Chip.State
import Accel3D.Linear.Pixels

namespace Accel3D

/-- a write at a place: the column of its first pixel, the raster row and the screen row -/
structure LinearWrite where
  pixels : LinearPixels
  x : Int
  y : Int
  screenY : Int
deriving DecidableEq, Repr

namespace LinearWrite

/-- data and byte mask after the swaps that lfbMode asks for -/
def swapWord (bytes words : Bool) (w : UInt32) : UInt32 :=
  let w := if bytes then swapBytes w else w
  if words then swapHalves w else w

/-- the write of a bus value, unless its format is reserved -/
def decode? (mode : LinearMode) (layout : FrameLayout) (za offset data byteMask : UInt32) : Option LinearWrite :=
  (LinearFormat.ofCode? mode.writeFormat).map fun format =>
    let swap := swapWord mode.byteSwizzleWrites mode.wordSwapWrites
    let pixels := (LinearPixels.unpack mode format (swap data) za).mask (swap byteMask)
    let place := if pixels.pair then offset <<< 1 else offset
    let y : Int := field place 10 10
    ⟨pixels, field place 0 10, y, screenRow (layout.flip mode.flipY) y⟩

/-! ## Direct writes -/

/-- a halfword stored in a buffer, if the pixel does not lie past the end of the memory -/
def storeInside (m : Memory) (base pixel : UInt32) (v : UInt16) : Memory :=
  if base.toNat + 2 * pixel.toNat < m.size then m.write16 (base + 2 * pixel) v else m

/-- what the aux buffer takes from a pixel: alpha when it holds alpha, else the depth -/
def auxValue (mode : FrameMode) (p : LinearPixel) : Option UInt16 :=
  if mode.alphaPlanes then if p.parts.alpha then some p.color.a.toUInt16 else none
  else if p.parts.depth || p.parts.highDepth then some p.depth
  else none

/-- one pixel stored directly: color at column `x`, and what the aux buffer takes -/
def storePixel (mode : FrameMode) (surface : Surface) (y x : Int) (pixel : UInt32) (p : LinearPixel) (c : Canvas) :
    Canvas :=
  if !p.parts.any then c
  else
    let value := (Dither.ofMode mode y).quantize x p.color.r.toNat p.color.g.toNat p.color.b.toNat
    let m := if p.parts.color then storeInside c.memory surface.colorBase pixel value else c.memory
    let m := match surface.auxBase, auxValue mode p with
      | some base, some v => storeInside m base pixel v
      | _, _ => m
    { c with memory := m, counters := c.counters.drawn 1 }

/-- both pixels stored directly -/
def runDirect (w : LinearWrite) (mode : FrameMode) (surface : Surface) (c : Canvas) : Canvas :=
  let pixel := UInt32.ofInt w.screenY * surface.rowPixels + UInt32.ofInt w.x
  let c := storePixel mode surface w.y w.x pixel w.pixels.first c
  storePixel mode surface w.y (w.x + 1) (pixel + 1) w.pixels.second c

/-! ## Writes through the pipeline -/

/-- the values of a pixel that enter the pipeline: the depth is Z, and the top of W's fraction unless that comes from
zaColor -/
def fragment (mode : LinearMode) (za : UInt32) (p : LinearPixel) : Fragment :=
  let top : UInt32 := if mode.wFromConstant then za <<< 16 else p.depth.toUInt32 <<< 16
  ⟨p.color, Int32.ofNat (p.depth.toNat * 4096), Int64.ofNat top.toNat⟩

/-- one pixel sent through the pipeline -/
def drawPixel (pipeline : Pipeline) (mode : LinearMode) (w : LinearWrite) (x : Int) (p : LinearPixel) (c : Canvas) :
    Canvas :=
  if !p.parts.any then c
  else
    pipeline.drawGiven ⟨x, w.y, w.screenY⟩ (Dither.ofMode pipeline.rules.frame w.y)
      (fragment mode pipeline.rules.zaColor p) c

/-- both pixels sent through the pipeline -/
def runPipeline (w : LinearWrite) (pipeline : Pipeline) (mode : LinearMode) (c : Canvas) : Canvas :=
  drawPixel pipeline mode w (w.x + 1) w.pixels.second (drawPixel pipeline mode w w.x w.pixels.first c)

end LinearWrite

namespace Chip

/-- a write through the linear frame buffer, on a chip with no write waiting -/
def linearWrite (c : Chip) (offset data byteMask : UInt32) : Chip :=
  let mode := LinearMode.decode (c.regs.get Reg.lfbMode)
  match LinearWrite.decode? mode c.frame.layout (c.regs.get Reg.zaColor) offset data byteMask,
      c.frame.drawOffset c.revision mode.writeBuffer with
  | some w, some base =>
    let surface := c.frame.surface base
    if mode.pixelPipeline then
      let rules := PixelRules.ofRegisters c.revision c.regs Combine.plain
      let pipeline : Pipeline := ⟨rules, c.frame.fog, surface⟩
      c.paint (w.runPipeline pipeline mode)
    else
      let frameMode := FrameMode.decode (c.regs.get Reg.fbzMode)
      c.paint (w.runDirect frameMode surface)
  | _, _ => c

/-- the buffer that linear reads take from -/
def linearReadBase (c : Chip) (mode : LinearMode) : Option UInt32 :=
  if c.revision.hasBansheeLayout then c.frame.offsetOf .back
  else mode.readBuffer.bind c.frame.offsetOf

/-- two pixels read through the linear frame buffer, on a chip with no write waiting -/
def linearRead (c : Chip) (offset : UInt32) : UInt32 :=
  let mode := LinearMode.decode (c.regs.get Reg.lfbMode)
  match c.linearReadBase mode with
  | none => 0xFFFFFFFF
  | some base =>
    let x := UInt32.ofNat (field offset 0 9 * 2)
    let y := screenRow (c.frame.layout.flip mode.flipY) (field offset 9 10)
    let pixel := UInt32.ofInt y * c.frame.layout.rowPixels + x
    let m := c.frame.memory
    if base.toNat + 2 * pixel.toNat < m.size then
      let address := base + 2 * pixel
      let pair := (m.read16 address).toUInt32 ||| ((m.read16 (address + 2)).toUInt32 <<< 16)
      let pair := if mode.wordSwapReads then swapHalves pair else pair
      if mode.byteSwizzleReads then swapBytes pair else pair
    else 0xFFFFFFFF

end Chip
end Accel3D
