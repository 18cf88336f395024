/-
Values in a trace.

A value is a word of 32 bits: hexadecimal digits behind 0x, in which underscores have no meaning; a decimal behind a
minus sign, in two's complement; a plain decimal; or a single, which ends in f and gives its bits.
-/
import Accel3D.Trace.Error

namespace Accel3D.Trace

/-- the text behind 0x -/
def stripHexMark : List Char → Option (List Char)
  | '0' :: 'x' :: rest => some rest
  | '0' :: 'X' :: rest => some rest
  | _ => none

/-- the text before a last f -/
def stripSingleMark (cs : List Char) : Option (List Char) :=
  if cs.getLast? = some 'f' then some cs.dropLast else none

/-- hexadecimal digits, with the fault of the value that they stand in -/
def readHex (value digits : List Char) : Except LiteralError UInt32 :=
  ((Text.readNatural 16 (2 ^ (32 : Nat)) (digits.filter (· ≠ '_'))).map UInt32.ofNat).mapError
    (.hex (String.ofList value))

/-- a single, with the fault of the value that it stands in -/
def readSingle (value text : List Char) : Except LiteralError UInt32 :=
  (Single.read text).mapError (.single (String.ofList value))

/-- a plain decimal, or the negative of the one behind a minus sign -/
def readDecimal (value : List Char) : Except LiteralError UInt32 :=
  let word := match value with
    | '-' :: rest => (Text.readInteger 32 rest).map fun v => UInt32.ofInt (-v)
    | _ => (Text.readNatural 10 (2 ^ (32 : Nat)) value).map UInt32.ofNat
  word.mapError (.decimal (String.ofList value))

/-- the word that a value writes -/
def readValue (value : List Char) : Except LiteralError UInt32 :=
  match stripHexMark value with
  | some digits => readHex value digits
  | none =>
    match stripSingleMark value with
    | some text => readSingle value text
    | none => readDecimal value

end Accel3D.Trace
