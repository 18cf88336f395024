/-
Reading a trace.

A trace has one command a line. What follows a # is a comment, and a line with nothing else is no command:

  w REGISTER VALUE     a register write; the register is a name or 0x and its byte offset, perhaps @ and one hexadecimal
                       digit that selects chips
  tex OFFSET VALUE     a write through the texture aperture
  lfb OFFSET VALUE     a write through the linear frame buffer, perhaps with a byte mask behind it
  vblank               a vertical retrace, or as many as a number behind it says
  flush                carries out the writes that wait
-/
import Accel3D.Register.Name
import Accel3D.Text.Blank
import Accel3D.Trace.Command
import Accel3D.Trace.Literal

namespace Accel3D.Trace

/-! ## Registers -/

/-- a character of a register's name -/
def isNameChar (c : Char) : Bool := c.isAlphanum || c = '_' || c = '.'

/-- a register as it is written: its name or offset, and the chips, none of them meaning all -/
structure RegisterText where
  name : List Char
  chips : Nat
deriving DecidableEq, Repr

/-- a word that can stand for a register -/
def RegisterText.ofWord? (word : List Char) : Option RegisterText :=
  let name := word.takeWhile isNameChar
  if name.isEmpty then none
  else match word.dropWhile isNameChar with
    | [] => some ⟨name, 0⟩
    | ['@', digit] => (Text.digitIn? 16 digit).map fun chips => ⟨name, chips⟩
    | _ => none

/-- a value, as part of a line -/
def value (word : List Char) : Except LineError UInt32 := (readValue word).mapError .literal

/-- the register number that a name or a byte offset stands for -/
def findRegister (revision : Revision) (name : List Char) : Except LineError UInt32 :=
  match stripHexMark name with
  | some _ => do
    let offset ← value name
    if offset % 4 ≠ 0 ∨ 1024 ≤ offset then throw (.registerOffset offset)
    return offset / 4
  | none =>
    let text := String.ofList name
    match Reg.find? revision text with
    | some r => .ok (UInt32.ofNat r.val)
    | none => .error (.unknownRegister text)

/-! ## Lines -/

/-- the verb that a line begins with -/
inductive Verb where
  | register
  | texture
  | linear
  | retrace
  | flush
deriving DecidableEq, Repr

def Verb.ofWord? (word : List Char) : Option Verb :=
  if word = ['w'] then some register
  else if word = ['t', 'e', 'x'] then some texture
  else if word = ['l', 'f', 'b'] then some linear
  else if word = ['v', 'b', 'l', 'a', 'n', 'k'] then some retrace
  else if word = ['f', 'l', 'u', 's', 'h'] then some flush
  else none

/-- a register write -/
def registerCommand (revision : Revision) (register : RegisterText) (data : List Char) :
    Except LineError TraceCommand := do
  let number ← findRegister revision register.name
  let data ← value data
  return .register (number ||| UInt32.ofNat (256 * register.chips)) data

/-- a texture write -/
def textureCommand (offset data : List Char) (mask : Option (List Char)) : Except LineError TraceCommand := do
  let offset ← value offset
  let data ← value data
  if mask.isSome then throw .textureMask
  return .texture offset data

/-- a write through the linear frame buffer -/
def linearCommand (offset data : List Char) (mask : Option (List Char)) : Except LineError TraceCommand := do
  let offset ← value offset
  let data ← value data
  let mask ← match mask with
    | some word => value word
    | none => pure 0xFFFFFFFF
  return .linear offset data mask

/-- the command of a verb and the words behind it, if they are as many as the verb takes -/
def command? (revision : Revision) : Verb → List (List Char) → Option (Except LineError TraceCommand)
  | .register, [register, data] => (RegisterText.ofWord? register).map (registerCommand revision · data)
  | .texture, [offset, data] => some (textureCommand offset data none)
  | .texture, [offset, data, mask] => some (textureCommand offset data (some mask))
  | .linear, [offset, data] => some (linearCommand offset data none)
  | .linear, [offset, data, mask] => some (linearCommand offset data (some mask))
  | .retrace, [] => some (.ok (.retrace 1))
  | .retrace, [count] => some ((value count).map .retrace)
  | .flush, [] => some (.ok .flush)
  | _, _ => none

/-- the part of a line before its comment -/
def stripComment (line : List Char) : List Char := line.takeWhile (· ≠ '#')

/-- the command of a line, if it has one -/
def readLine (revision : Revision) (line : List Char) : Except LineError (Option TraceCommand) :=
  let line := stripComment line
  match Text.words line with
  | [] => .ok none
  | verb :: words =>
    match (Verb.ofWord? verb).bind (command? revision · words) with
    | some command => command.map some
    | none => .error (.unrecognized (String.ofList (Text.trim line)))

/-- the command of a line with its number -/
def readNumberedLine (revision : Revision) (line : List Char × Nat) : Except TraceError (Option TraceCommand) :=
  (readLine revision line.1).mapError fun cause => ⟨line.2, cause⟩

/-- the commands of a trace, or its first line that is none -/
def read (revision : Revision) (text : String) : Except TraceError (List TraceCommand) := do
  let found ← ((Text.lines text.toList).zipIdx 1).mapM (readNumberedLine revision)
  return found.filterMap id

end Accel3D.Trace
