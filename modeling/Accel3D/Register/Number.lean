/-
Register numbers.

The chip has 256 registers of 32 bits. A register's number is its byte offset divided by four. A register address adds
four chip select bits above the number: bit 0 selects the frame buffer side, bits 1 and 2 the two texture units; no bit
set selects all of them. Higher bits are ignored.
-/
import Accel3D.Word

namespace Accel3D

/-- a register number -/
abbrev Reg := Fin 256

namespace Reg

/-- the register at a byte offset -/
def atByte (offset : Nat) : Reg := Fin.ofNat 256 (offset / 4)

/-- the register that an address names -/
def ofAddress (address : UInt32) : Reg := Fin.ofNat 256 address.toNat

def status : Reg := atByte 0x000
def vertexAx : Reg := atByte 0x008
def startR : Reg := atByte 0x020
def triangleCmd : Reg := atByte 0x080
def floatVertexAx : Reg := atByte 0x088
def floatStartR : Reg := atByte 0x0A0
def floatTriangleCmd : Reg := atByte 0x100
def fbzColorPath : Reg := atByte 0x104
def fogMode : Reg := atByte 0x108
def alphaMode : Reg := atByte 0x10C
def fbzMode : Reg := atByte 0x110
def lfbMode : Reg := atByte 0x114
def clipLeftRight : Reg := atByte 0x118
def clipLowYHighY : Reg := atByte 0x11C
def nopCmd : Reg := atByte 0x120
def fastfillCmd : Reg := atByte 0x124
def swapbufferCmd : Reg := atByte 0x128
def fogColor : Reg := atByte 0x12C
def zaColor : Reg := atByte 0x130
def chromaKey : Reg := atByte 0x134
def chromaRange : Reg := atByte 0x138
def stipple : Reg := atByte 0x140
def color0 : Reg := atByte 0x144
def color1 : Reg := atByte 0x148
def fbiPixelsIn : Reg := atByte 0x14C
def fbiChromaFail : Reg := atByte 0x150
def fbiZfuncFail : Reg := atByte 0x154
def fbiAfuncFail : Reg := atByte 0x158
def fbiPixelsOut : Reg := atByte 0x15C
def fogTable : Reg := atByte 0x160
def colBufferAddr : Reg := atByte 0x1EC
def colBufferStride : Reg := atByte 0x1F0
def auxBufferAddr : Reg := atByte 0x1F4
def auxBufferStride : Reg := atByte 0x1F8
def fbiInit1 : Reg := atByte 0x214
def fbiInit2 : Reg := atByte 0x218
def fbiInit3 : Reg := atByte 0x21C
def fbiInit5 : Reg := atByte 0x244
def fbiInit6 : Reg := atByte 0x248
def swapPending : Reg := atByte 0x24C
def leftOverlayBuf : Reg := atByte 0x250
def fbiSwapHistory : Reg := atByte 0x258
def fbiTrianglesOut : Reg := atByte 0x25C
def setupMode : Reg := atByte 0x260
def setupX : Reg := atByte 0x264
def setupY : Reg := atByte 0x268
def setupArgb : Reg := atByte 0x26C
def setupRed : Reg := atByte 0x270
def setupGreen : Reg := atByte 0x274
def setupBlue : Reg := atByte 0x278
def setupAlpha : Reg := atByte 0x27C
def setupZ : Reg := atByte 0x280
def setupWb : Reg := atByte 0x284
def setupW0 : Reg := atByte 0x288
def setupS0 : Reg := atByte 0x28C
def setupT0 : Reg := atByte 0x290
def setupW1 : Reg := atByte 0x294
def setupS1 : Reg := atByte 0x298
def setupT1 : Reg := atByte 0x29C
def drawTriCmd : Reg := atByte 0x2A0
def beginTriCmd : Reg := atByte 0x2A4
def textureMode : Reg := atByte 0x300
def textureLod : Reg := atByte 0x304
def textureDetail : Reg := atByte 0x308
def textureBase : Reg := atByte 0x30C
def textureBase1 : Reg := atByte 0x310
def textureBase2 : Reg := atByte 0x314
def textureBase38 : Reg := atByte 0x318
def nccTable : Reg := atByte 0x324

end Reg

/-- which chips a register write reaches -/
structure ChipSelect where
  bits : Nat
deriving DecidableEq, Repr

namespace ChipSelect

/-- all chips -/
def all : ChipSelect := ⟨15⟩

/-- the chip select bits of a register address; none set means all -/
def ofAddress (address : UInt32) : ChipSelect :=
  let selected := field address 8 4
  if selected = 0 then all else ⟨selected⟩

/-- reaches the frame buffer side -/
def frame (s : ChipSelect) : Bool := s.bits.testBit 0

/-- reaches texture unit `i` -/
def texture (s : ChipSelect) (i : Nat) : Bool := s.bits.testBit (i + 1)

end ChipSelect

/-- 256 registers -/
structure RegisterFile where
  words : Vector UInt32 256

namespace RegisterFile

def zero : RegisterFile := ⟨Vector.replicate 256 0⟩

def get (f : RegisterFile) (r : Reg) : UInt32 := f.words[r]

def set (f : RegisterFile) (r : Reg) (v : UInt32) : RegisterFile := ⟨f.words.set r v⟩

/-- a read gives what was last written to the register -/
theorem get_set (f : RegisterFile) (r q : Reg) (v : UInt32) :
    (f.set r v).get q = if r = q then v else f.get q := by
  simp only [get, set, Fin.getElem_fin, Vector.getElem_set, Fin.ext_iff]

end RegisterFile
end Accel3D
