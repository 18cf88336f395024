/-
The chip's memories: bytes whose number is a power of two.

An address is any 32-bit word and wraps modulo the size, so every access is valid. A halfword is stored low byte
first, and its two bytes wrap separately, so one may lie at the end of the memory and the other at its start.

Results: `read8_write8` (what a read gives after a write), `size_write8` and `size_write16` (a write keeps the size).
-/
import Accel3D.Word

namespace Accel3D

theorem size_setByte (b : ByteArray) (i : Nat) (v : UInt8) (h : i < b.size) : (b.set i v h).size = b.size := by
  cases b; exact Array.size_set ..

/-- 2^k copies of one byte -/
def filledBytes (v : UInt8) : Nat → ByteArray
  | 0 => ByteArray.mk #[v]
  | k + 1 => let half := filledBytes v k; half ++ half

theorem size_filledBytes (v : UInt8) (k : Nat) : (filledBytes v k).size = 2 ^ k := by
  induction k with
  | zero => rfl
  | succ k ih => simp only [filledBytes, ByteArray.size_append, ih]; omega

structure Memory where
  contents : ByteArray
  logSize : Nat
  size_eq : contents.size = 2 ^ logSize

namespace Memory

/-- number of bytes -/
def size (m : Memory) : Nat := m.contents.size

/-- memory of 2^k zero bytes -/
def zeroed (k : Nat) : Memory := ⟨filledBytes 0 k, k, size_filledBytes 0 k⟩

/-- the memory that holds these bytes, if their number is a power of two -/
def ofBytes? (b : ByteArray) : Option Memory :=
  if h : b.size = 2 ^ b.size.log2 then some ⟨b, b.size.log2, h⟩ else none

/-- largest address before the wrap -/
def mask (m : Memory) : UInt32 := UInt32.ofNat (m.size - 1)

/-- where an address lies: its remainder modulo the size -/
def index (m : Memory) (address : UInt32) : Nat := address.toNat % m.contents.size

theorem index_lt (m : Memory) (address : UInt32) : m.index address < m.contents.size := by
  apply Nat.mod_lt
  rw [m.size_eq]
  exact Nat.two_pow_pos _

def read8 (m : Memory) (address : UInt32) : UInt8 := m.contents.get (m.index address) (m.index_lt address)

def write8 (m : Memory) (address : UInt32) (v : UInt8) : Memory :=
  ⟨m.contents.set (m.index address) v (m.index_lt address), m.logSize, (size_setByte ..).trans m.size_eq⟩

def read16 (m : Memory) (address : UInt32) : UInt16 :=
  (m.read8 address).toUInt16 ||| ((m.read8 (address + 1)).toUInt16 <<< 8)

def write16 (m : Memory) (address : UInt32) (v : UInt16) : Memory :=
  (m.write8 address v.toUInt8).write8 (address + 1) (v >>> 8).toUInt8

/-- the bytes of `w`, lowest first, from `address` on -/
def write32 (m : Memory) (address : UInt32) (w : UInt32) : Memory :=
  (((m.write8 address w.toUInt8).write8 (address + 1) (w >>> 8).toUInt8).write8
    (address + 2) (w >>> 16).toUInt8).write8 (address + 3) (w >>> 24).toUInt8

/-- every byte set to `v` -/
def fill (m : Memory) (v : UInt8) : Memory := ⟨filledBytes v m.logSize, m.logSize, size_filledBytes v m.logSize⟩

theorem size_write8 (m : Memory) (address : UInt32) (v : UInt8) : (m.write8 address v).size = m.size :=
  size_setByte ..

theorem size_write16 (m : Memory) (address : UInt32) (v : UInt16) : (m.write16 address v).size = m.size := by
  simp [write16, size_write8]

theorem index_write8 (m : Memory) (a b : UInt32) (v : UInt8) : (m.write8 a v).index b = m.index b := by
  show b.toNat % (m.write8 a v).size = b.toNat % m.size
  rw [size_write8]

theorem get_setByte (c : ByteArray) (i j : Nat) (v : UInt8) (hi : i < c.size) (hj : j < (c.set i v hi).size) :
    (c.set i v hi).get j hj = if i = j then v else c.get j (size_setByte c i v hi ▸ hj) := by
  cases c with
  | mk data => exact Array.getElem_set ..

/-- a read gives the value last written at the same place, and elsewhere what was there before -/
theorem read8_write8 (m : Memory) (a b : UInt32) (v : UInt8) :
    (m.write8 a v).read8 b = if m.index a = m.index b then v else m.read8 b := by
  have hget : ∀ j (hj : j < (m.write8 a v).contents.size), j = m.index b →
      (m.write8 a v).contents.get j hj = if m.index a = m.index b then v else m.read8 b := by
    rintro j hj rfl
    exact get_setByte ..
  exact hget _ _ (m.index_write8 a b v)

end Memory
end Accel3D
