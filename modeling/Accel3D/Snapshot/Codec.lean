/-
Codecs: a writer and a reader of the same bytes.

A codec puts a value behind the bytes written so far and gets one from the front of what is left to read. Numbers are
little-endian, of fixed size. Codecs of pairs, vectors and sequences are made from the codecs of their parts, so that a
format is one expression that serves both directions.

A reader refuses to go past a limit, before it looks whether the bytes are there. The elements of a container count
ahead: as long as an element waits, the footprint that its container gives to it is reserved.
-/
import Accel3D.Memory

namespace Accel3D

/-- why bytes cannot be read -/
inductive CodecError where
  | endOfBytes
  | unknownVariant
  | invalidFlag
  | limitExceeded
  | memoryLength
deriving DecidableEq, Repr, Inhabited

/-- bytes, how many are read already, and how many are reserved for elements that wait -/
structure Reader where
  bytes : ByteArray
  position : Nat
  reserved : Nat

namespace Reader

/-- what a reader may read or reserve altogether -/
def limit : Nat := 1000000000

def ofBytes (bytes : ByteArray) : Reader := ⟨bytes, 0, 0⟩

/-- refuses `n` further bytes if they would go past the limit -/
def claim (r : Reader) (n : Nat) : Except CodecError Unit :=
  if r.position + r.reserved + n ≤ limit then .ok () else .error .limitExceeded

/-- room reserved for `n` bytes -/
def reserve (r : Reader) (n : Nat) : Except CodecError Reader := do
  r.claim n
  return { r with reserved := r.reserved + n }

/-- reserved room given back -/
def release (r : Reader) (n : Nat) : Reader := { r with reserved := r.reserved - n }

/-- whether `n` more bytes are there -/
def has (r : Reader) (n : Nat) : Bool := r.position + n ≤ r.bytes.size

/-- the next byte -/
def next (r : Reader) : Except CodecError (UInt8 × Reader) :=
  if h : r.position < r.bytes.size then .ok (r.bytes.get r.position h, { r with position := r.position + 1 })
  else .error .endOfBytes

/-- the next `n` bytes -/
def take (r : Reader) (n : Nat) : Except CodecError (ByteArray × Reader) :=
  if r.has n then .ok (r.bytes.extract r.position (r.position + n), { r with position := r.position + n })
  else .error .endOfBytes

/-- the number in the next `n` bytes, lowest first -/
def number (r : Reader) : Nat → Except CodecError (Nat × Reader)
  | 0 => .ok (0, r)
  | n + 1 => do
    let (low, r) ← r.next
    let (high, r) ← r.number n
    return (low.toNat + 256 * high, r)

end Reader

structure Codec (α : Type) where
  put : α → ByteArray → ByteArray
  get : Reader → Except CodecError (α × Reader)

namespace Codec

variable {α β : Type}

/-- the bytes of one value -/
def encode (c : Codec α) (v : α) : ByteArray := c.put v ByteArray.empty

/-! ## Combinators -/

/-- the same bytes for another type -/
def map (c : Codec α) (pack : α → β) (unpack : β → α) : Codec β where
  put v out := c.put (unpack v) out
  get r := do
    let (v, r) ← c.get r
    return (pack v, r)

/-- the same bytes for another type, some values of which are refused -/
def refine (c : Codec α) (pack : α → Except CodecError β) (unpack : β → α) : Codec β where
  put v out := c.put (unpack v) out
  get r := do
    let (v, r) ← c.get r
    return (← pack v, r)

/-- one value after the other -/
def pair (first : Codec α) (second : Codec β) : Codec (α × β) where
  put v out := second.put v.2 (first.put v.1 out)
  get r := do
    let (a, r) ← first.get r
    let (b, r) ← second.get r
    return ((a, b), r)

/-- the elements of a vector, each reserved until it is read -/
def getVector (footprint : Nat) (c : Codec α) : (n : Nat) → Reader → Except CodecError (Vector α n × Reader)
  | 0, r => .ok (#v[], r)
  | n + 1, r => do
    let (v, r) ← getVector footprint c n r
    let (a, r) ← c.get (r.release footprint)
    return (v.push a, r)

/-- `n` values -/
def vector (footprint : Nat) (c : Codec α) (n : Nat) : Codec (Vector α n) where
  put v out := v.foldl (fun out a => c.put a out) out
  get r := do c.getVector footprint n (← r.reserve (n * footprint))

/-- elements read behind those read already, each reserved until it is read -/
def getSequence (footprint : Nat) (c : Codec α) : Nat → Array α → Reader → Except CodecError (Array α × Reader)
  | 0, read, r => .ok (read, r)
  | n + 1, read, r => do
    let (a, r) ← c.get (r.release footprint)
    getSequence footprint c n (read.push a) r

/-! ## Numbers -/

/-- a number of `size` bytes, lowest first -/
def putNumber : (size : Nat) → Nat → ByteArray → ByteArray
  | 0, _, out => out
  | size + 1, n, out => putNumber size (n / 256) (out.push (UInt8.ofNat n))

/-- numbers of `size` bytes -/
def number (size : Nat) : Codec Nat where
  put n out := putNumber size n out
  get r := do
    r.claim size
    if r.has size then r.number size else throw .endOfBytes

def byte : Codec UInt8 := (number 1).map UInt8.ofNat UInt8.toNat

def word32 : Codec UInt32 := (number 4).map UInt32.ofNat UInt32.toNat

def word64 : Codec UInt64 := (number 8).map UInt64.ofNat UInt64.toNat

def int16 : Codec Int16 := (number 2).map (fun n => (UInt16.ofNat n).toInt16) (fun v => v.toUInt16.toNat)

def int32 : Codec Int32 := word32.map UInt32.toInt32 Int32.toUInt32

def int64 : Codec Int64 := word64.map UInt64.toInt64 Int64.toUInt64

/-! ## Flags, options, sequences, memories -/

/-- one byte, 0 or 1 -/
def flag : Codec Bool :=
  byte.refine (fun b => if b = 0 then .ok false else if b = 1 then .ok true else .error .invalidFlag)
    (fun v => if v then 1 else 0)

/-- a tag byte, 0 or 1, and the value if the tag is 1 -/
def optional (c : Codec α) : Codec (Option α) where
  put v out := match v with
    | none => byte.put 0 out
    | some a => c.put a (byte.put 1 out)
  get r := do
    let (tag, r) ← byte.get r
    if tag = 0 then return (none, r)
    else if tag = 1 then
      let (a, r) ← c.get r
      return (some a, r)
    else throw .unknownVariant

/-- the number of elements in 64 bits, and the elements -/
def sequence (footprint : Nat) (c : Codec α) : Codec (Array α) where
  put v out := v.foldl (fun out a => c.put a out) (word64.put (UInt64.ofNat v.size) out)
  get r := do
    let (n, r) ← word64.get r
    c.getSequence footprint n.toNat #[] (← r.reserve (n.toNat * footprint))

/-- the number of bytes in 64 bits, and the bytes; their number is a power of two -/
def memory : Codec Memory where
  put m out := word64.put (UInt64.ofNat m.size) out ++ m.contents
  get r := do
    let (n, r) ← word64.get r
    r.claim n.toNat
    if n.toNat ≠ 2 ^ n.toNat.log2 then throw .memoryLength
    else
      let (bytes, r) ← r.take n.toNat
      match Memory.ofBytes? bytes with
      | some m => return (m, r)
      | none => throw .memoryLength

end Codec
end Accel3D
