/-
The fog table: 64 blend values and the differences to the next.

A fog register holds two entries: difference and blend value of an even entry in its low half, of the odd entry after it
in its high half.
-/
import Accel3D.Word

namespace Accel3D

structure FogTable where
  blend : Vector UInt8 64
  delta : Vector UInt8 64
deriving DecidableEq

namespace FogTable

def zero : FogTable := ⟨Vector.replicate 64 0, Vector.replicate 64 0⟩

/-- two neighbouring entries of a table set -/
def setPair (v : Vector UInt8 64) (n : Fin 32) (even odd : UInt8) : Vector UInt8 64 :=
  (v.set (2 * n.val) even).set (2 * n.val + 1) odd

/-- the table after a write of its register `n` -/
def write (t : FogTable) (n : Fin 32) (data : UInt32) : FogTable where
  delta := setPair t.delta n data.toUInt8 (data >>> 16).toUInt8
  blend := setPair t.blend n (data >>> 8).toUInt8 (data >>> 24).toUInt8

end FogTable
end Accel3D
