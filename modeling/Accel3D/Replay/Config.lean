/-
The configuration of a replay: the chip, and the image that is written at the end.

It is read from a TOML document with the tables chip and output. What is not given has a default; keys that are not
known are ignored; a value of the wrong kind, or a number out of its range, is refused. A table may also be given as an
array of its values in order, as far as it goes.
-/
import Accel3D.Chip.Config
import Accel3D.Register.Mode
import Accel3D.Toml.Document

namespace Accel3D

/-- the buffers that an image can be made of -/
inductive ImageBuffer where
  | front
  | back
deriving DecidableEq, Repr, Inhabited

namespace ImageBuffer

/-- name in configuration files -/
def key : ImageBuffer → String
  | front => "Front"
  | back => "Back"

def ofKey? (s : String) : Option ImageBuffer := [front, back].find? fun b => b.key == s

def buffer : ImageBuffer → Buffer
  | front => .front
  | back => .back

end ImageBuffer

/-- which image is written, and where -/
structure ImageConfig where
  buffer : ImageBuffer
  path : String
  width : UInt32
  height : UInt32
deriving DecidableEq, Repr

structure ReplayConfig where
  chip : ChipConfig
  image : ImageConfig
deriving DecidableEq, Repr

def ImageConfig.standard : ImageConfig := ⟨.front, "voodoo-frame.ppm", 640, 480⟩

namespace ReplayConfig

def standard : ReplayConfig := ⟨.standard, .standard⟩

open Toml (Value)

/-! ## Values -/

/-- a number of 32 bits -/
def word? : Value → Option UInt32
  | .integer n => if 0 ≤ n ∧ n < 2 ^ (32 : Nat) then some (UInt32.ofInt n) else none
  | _ => none

/-- a count -/
def count? : Value → Option UInt64
  | .integer n => if 0 ≤ n then some (UInt64.ofInt n) else none
  | _ => none

def flag? : Value → Option Bool
  | .boolean b => some b
  | _ => none

def text? : Value → Option String
  | .string s => some s
  | _ => none

/-- a table or an array with nothing in it -/
def isNothing : Value → Bool
  | .table _ entries => entries.isEmpty
  | .array values => values.isEmpty
  | .tables elements => elements.isEmpty
  | _ => false

/-- a name: a string, or a table that holds nothing under this one key -/
def name? : Value → Option String
  | .string s => some s
  | .table _ [(key, v)] => if isNothing v then some key else none
  | _ => none

/-- the value of a choice by name -/
def choice? {α : Type} (ofKey? : String → Option α) (v : Value) : Option α := (name? v).bind ofKey?

/-! ## Tables -/

/-- the values of a table, by key or by place; a date or time has none of the keys -/
inductive Fields where
  | byKey (entries : Toml.Entries)
  | byPlace (values : List Value)

namespace Fields

def ofValue? : Value → Option Fields
  | .table _ entries => some (.byKey entries)
  | .moment _ => some (.byKey [])
  | .array values => some (.byPlace values)
  | .tables elements => some (.byPlace elements)
  | _ => none

/-- the value of the field with this place and key -/
def find? (f : Fields) (place : Nat) (key : String) : Option Value :=
  match f with
  | byKey entries => entries.lookup key
  | byPlace values => values[place]?

/-- a field read: its default if it is not given, nothing if it is wrong -/
def read {α : Type} (f : Fields) (place : Nat) (key : String) (read? : Value → Option α) (default : α) : Option α :=
  match f.find? place key with
  | none => some default
  | some v => read? v

end Fields

/-- the chip's table -/
def chip? (v : Value) : Option ChipConfig := do
  let f ← Fields.ofValue? v
  let standard := ChipConfig.standard
  return {
    revision := ← f.read 0 "revision" (choice? Revision.ofKey?) standard.revision
    frameMegabytes := ← f.read 1 "fb_memory_mb" word? standard.frameMegabytes
    textureMegabytes := ← f.read 2 "tmu_memory_mb" word? standard.textureMegabytes
    textureUnits := ← f.read 3 "tmu_count" count? standard.textureUnits
    deferWrites := ← f.read 4 "defer_fifo" flag? standard.deferWrites }

/-- the image's table -/
def image? (v : Value) : Option ImageConfig := do
  let f ← Fields.ofValue? v
  let standard := ImageConfig.standard
  return {
    buffer := ← f.read 0 "buffer" (choice? ImageBuffer.ofKey?) standard.buffer
    path := ← f.read 1 "path" text? standard.path
    width := ← f.read 2 "width" word? standard.width
    height := ← f.read 3 "height" word? standard.height }

/-- the configuration of a document -/
def parse? (text : String) : Option ReplayConfig := do
  let f : Fields := .byKey (← Toml.parse? text)
  return {
    chip := ← f.read 0 "chip" chip? .standard
    image := ← f.read 1 "output" image? .standard }

end ReplayConfig
end Accel3D
