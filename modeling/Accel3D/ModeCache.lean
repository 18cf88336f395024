/-
The cache of decoded mode words.

An entry holds the combine units decoded from the mode words of a triangle, and counts what was drawn with them. Its
key is the mode words without the bits that cannot change how a pixel is drawn. Entries lie in 97 buckets; a bucket has
its last used entry in front. The cache holds at most 1024 entries: a new key then gets no entry.

Results: `fetch` gives an entry of the key it was asked for (`key_fetch`).
-/
import Accel3D.Combine

namespace Accel3D

/-- mode words with the bits cleared that cannot change a pixel -/
structure ModeKey where
  colorPath : UInt32
  alphaMode : UInt32
  fogMode : UInt32
  frameMode : UInt32
  texture0 : UInt32
  texture1 : UInt32
deriving DecidableEq, Repr, Inhabited

namespace ModeKey

/-- without subpixel adjust and texture enable -/
def reduceColorPath (w : UInt32) : UInt32 := w &&& 0xF3FFFFFF

/-- without the alpha reference; without the comparison and the blend factors when they are not used -/
def reduceAlphaMode (w : UInt32) : UInt32 :=
  let w := w &&& 0x00FFFFFF
  let w := if bit w 0 then w else w &&& 0xFFFFFFF1
  if bit w 4 then w else w &&& 0xFF0000FF

/-- zero when fog is off -/
def reduceFogMode (w : UInt32) : UInt32 := if bit w 0 then w else 0

/-- without the draw buffer -/
def reduceFrameMode (w : UInt32) : UInt32 := w &&& 0xFFFF3FFF

/-- without the table select and the upload order; the format is cut to its class -/
def reduceTextureMode (w : UInt32) : UInt32 :=
  let w := w &&& 0x7FFFFFDF
  let format := field w 8 4
  let kind : UInt32 := if format < 8 then 0 else if 10 ≤ format && format ≤ 12 then 10 else 8
  (w &&& (0xFFFFF0FF : UInt32)) ||| (kind <<< 8)

/-- stands for a texture unit that takes no part -/
def noTexture : UInt32 := 0xFFFFFFFF

/-- the key of the mode words of a triangle -/
def ofModes (colorPath alphaMode fogMode frameMode : UInt32) (texture0 texture1 : Option UInt32) : ModeKey where
  colorPath := reduceColorPath colorPath
  alphaMode := reduceAlphaMode alphaMode
  fogMode := reduceFogMode fogMode
  frameMode := reduceFrameMode frameMode
  texture0 := (texture0.map reduceTextureMode).getD noTexture
  texture1 := (texture1.map reduceTextureMode).getD noTexture

/-- the bucket of a key: its words mixed by rotation and exclusive or, modulo 97 -/
def bucket (k : ModeKey) : Fin 97 :=
  let mixed := [k.frameMode, k.alphaMode, k.fogMode, k.texture0, k.texture1].foldl
    (fun hash w => rotateOne hash ^^^ w) k.colorPath
  Fin.ofNat 97 mixed.toNat

end ModeKey

structure ModeEntry where
  key : ModeKey
  color : Combine
  texture0 : Combine
  texture1 : Combine
  polygons : UInt32
  pixels : UInt64
deriving DecidableEq, Repr, Inhabited

namespace ModeEntry

/-- the units decoded from a key, with nothing drawn yet -/
def ofKey (k : ModeKey) : ModeEntry where
  key := k
  color := Combine.ofColorPath k.colorPath
  texture0 := Combine.ofTextureMode k.texture0
  texture1 := Combine.ofTextureMode k.texture1
  polygons := 0
  pixels := 0

/-- the combine unit of texture unit `i` -/
def texture (e : ModeEntry) (i : Nat) : Combine := if i = 0 then e.texture0 else e.texture1

/-- one more polygon of `pixels` pixels -/
def credit (e : ModeEntry) (pixels : Nat) : ModeEntry :=
  { e with polygons := e.polygons + 1, pixels := e.pixels + UInt64.ofNat pixels }

end ModeEntry

/-- the entries, how many they are, and whether a new key was ever told that there is no room -/
structure ModeCache where
  buckets : Vector (List ModeEntry) 97
  length : Nat
  warned : Bool

namespace ModeCache

def capacity : Nat := 1024

def empty : ModeCache := ⟨Vector.replicate 97 [], 0, false⟩

/-- all entries, bucket by bucket, front first -/
def entries (c : ModeCache) : List ModeEntry := c.buckets.toList.flatten

def setBucket (c : ModeCache) (i : Fin 97) (entries : List ModeEntry) : ModeCache :=
  { c with buckets := c.buckets.set i entries }

/-- the entry of a key and the other entries of a bucket, in order -/
def takeKey (k : ModeKey) : List ModeEntry → Option (ModeEntry × List ModeEntry)
  | [] => none
  | e :: rest =>
    if e.key = k then some (e, rest)
    else (takeKey k rest).map fun (found, others) => (found, e :: others)

/-- a new entry in front of its bucket -/
def insertNew (c : ModeCache) (k : ModeKey) : ModeCache :=
  { c.setBucket k.bucket (ModeEntry.ofKey k :: c.buckets[k.bucket]) with length := c.length + 1 }

/-- the entry of a key, moved to the front of its bucket; a new key gets a new entry if there is room -/
def fetch (c : ModeCache) (k : ModeKey) : ModeCache × Option ModeEntry :=
  match takeKey k c.buckets[k.bucket] with
  | some (e, others) => (c.setBucket k.bucket (e :: others), some e)
  | none =>
    if capacity ≤ c.length then ({ c with warned := true }, none) else (c.insertNew k, some (ModeEntry.ofKey k))

/-- one more polygon counted for the entry in front of the key's bucket, if it is the key's -/
def credit (c : ModeCache) (k : ModeKey) (pixels : Nat) : ModeCache :=
  match c.buckets[k.bucket] with
  | [] => c
  | e :: rest => if e.key = k then c.setBucket k.bucket (e.credit pixels :: rest) else c

theorem key_takeKey {k : ModeKey} {es : List ModeEntry} {e : ModeEntry} (others : List ModeEntry)
    (h : takeKey k es = some (e, others)) : e.key = k := by
  induction es generalizing others with
  | nil => simp [takeKey] at h
  | cons x xs ih =>
    simp only [takeKey] at h
    split at h
    · rename_i hx
      simp only [Option.some.injEq, Prod.mk.injEq] at h
      rw [← h.1]; exact hx
    · obtain ⟨p, hp, heq⟩ := Option.map_eq_some_iff.1 h
      simp only [Prod.mk.injEq] at heq
      exact ih p.2 (by rw [hp, ← heq.1])

theorem key_fetch {c : ModeCache} {k : ModeKey} {e : ModeEntry} (h : (c.fetch k).2 = some e) : e.key = k := by
  cases ht : takeKey k c.buckets[k.bucket] with
  | some p =>
    simp only [fetch, ht, Option.some.injEq] at h
    rw [← h]; exact key_takeKey p.2 ht
  | none =>
    simp only [fetch, ht] at h
    split at h
    · simp at h
    · simp only [Option.some.injEq] at h
      rw [← h]; rfl

end ModeCache
end Accel3D
