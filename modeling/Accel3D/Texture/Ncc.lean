/-
Narrow channel tables: 8-bit texels as a luminance and two color differences.

A table has twelve registers. Four hold 16 luminances of one byte each; four hold the first and four the second color
difference, each as three signed numbers of nine bits. A texel's high four bits choose the luminance, its next two the
first difference and its low two the second. The 256 colors are worked out when they are next needed after a write.
-/
import Accel3D.Word

namespace Accel3D

/-- red, green and blue parts of a color difference -/
structure ColorDifference where
  r : Int32
  g : Int32
  b : Int32
deriving DecidableEq, Repr, Inhabited

/-- three signed fields of nine bits, red highest -/
def ColorDifference.decode (w : UInt32) : ColorDifference :=
  ⟨Int32.ofInt (signed (w >>> 18) 9), Int32.ofInt (signed (w >>> 9) 9), Int32.ofInt (signed w 9)⟩

structure NccTable where
  registers : Vector UInt32 12
  y : Vector Int32 16
  i : Vector ColorDifference 4
  q : Vector ColorDifference 4
  texels : Vector UInt32 256
  stale : Bool
deriving DecidableEq

namespace NccTable

/-- registers zero, opaque black texels, still to be worked out -/
def initial : NccTable :=
  ⟨Vector.replicate 12 0, Vector.replicate 16 0, Vector.replicate 4 ⟨0, 0, 0⟩, Vector.replicate 4 ⟨0, 0, 0⟩,
   Vector.replicate 256 0xFF000000, true⟩

/-- the luminances after a write of luminance register `n` -/
def writeLuminance (y : Vector Int32 16) (n : Fin 4) (data : UInt32) : Vector Int32 16 :=
  let byte (w : UInt32) : Int32 := Int32.ofNat w.toUInt8.toNat
  (((y.set (4 * n) (byte data)).set (4 * n + 1) (byte (data >>> 8))).set
    (4 * n + 2) (byte (data >>> 16))).set (4 * n + 3) (byte (data >>> 24))

/-- the table after a write of one of its registers -/
def write (t : NccTable) (n : Fin 12) (data : UInt32) : NccTable :=
  let stored := { t with registers := t.registers.set n data, stale := true }
  let part := Fin.ofNat 4 n.val
  if n.val < 4 then { stored with y := writeLuminance t.y part data }
  else if n.val < 8 then { stored with i := t.i.set part (ColorDifference.decode data) }
  else { stored with q := t.q.set part (ColorDifference.decode data) }

/-- nearest number of eight bits -/
def channel (sum : Int) : UInt32 := UInt32.ofNat (min sum.toNat 255)

/-- the color of a texel value -/
def color (t : NccTable) (n : Fin 256) : UInt32 :=
  let y := t.y[n.val / 16].toInt
  let i := t.i[Fin.ofNat 4 (n.val / 4)]
  let q := t.q[Fin.ofNat 4 n.val]
  (0xFF000000 : UInt32) ||| (channel (y + i.r.toInt + q.r.toInt) <<< 16) ||| (channel (y + i.g.toInt + q.g.toInt) <<< 8) |||
    channel (y + i.b.toInt + q.b.toInt)

/-- the table with its colors worked out -/
def refresh (t : NccTable) : NccTable :=
  if t.stale then { t with texels := Vector.ofFn t.color, stale := false } else t

/-- the stored color of a texel value -/
def lookup (t : NccTable) (n : UInt8) : UInt32 := t.texels.get ⟨n.toNat, n.toNat_lt⟩

end NccTable
end Accel3D
