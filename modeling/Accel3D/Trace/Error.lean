/-
What can be wrong with a trace.

A fault is reported as a chain of causes, from the line that has it down to the numeral that cannot be read.
-/
import Accel3D.Single.Decimal

namespace Accel3D.Trace

/-- a value that cannot be read, with its text -/
inductive LiteralError where
  | hex (text : String) (fault : Text.NumeralFault)
  | decimal (text : String) (fault : Text.NumeralFault)
  | single (text : String) (fault : Single.DecimalFault)
deriving DecidableEq, Repr

/-- the causes, outermost first -/
def LiteralError.causes : LiteralError → List String
  | hex text fault => ["Invalid hex value '" ++ text ++ "'", fault.message]
  | decimal text fault => ["Invalid value '" ++ text ++ "'", fault.message]
  | single text fault => ["Invalid float value '" ++ text ++ "'", fault.message]

/-- a line that is no command -/
inductive LineError where
  | literal (cause : LiteralError)
  | registerOffset (offset : UInt32)
  | unknownRegister (name : String)
  | textureMask
  | unrecognized (line : String)
deriving DecidableEq, Repr

/-- a word in hexadecimal digits, the letters in upper case -/
def hexText (w : UInt32) : String := String.ofList ((Nat.toDigits 16 w.toNat).map Char.toUpper)

/-- the causes, outermost first -/
def LineError.causes : LineError → List String
  | literal cause => cause.causes
  | registerOffset offset => ["Register offset 0x" ++ hexText offset ++ " is not an aligned register address"]
  | unknownRegister name => ["Unknown register '" ++ name ++ "'"]
  | textureMask => ["Texture writes take no byte mask"]
  | unrecognized line => ["Unrecognized command '" ++ line ++ "'"]

end Accel3D.Trace

namespace Accel3D

/-- the first line of a trace that is no command; lines count from 1 -/
structure TraceError where
  line : Nat
  cause : Trace.LineError
deriving DecidableEq, Repr

namespace TraceError

/-- the line -/
def headline (e : TraceError) : String := "Trace line " ++ toString e.line

/-- the whole chain of causes in one line -/
def message (e : TraceError) : String := ": ".intercalate (e.headline :: e.cause.causes)

end TraceError
end Accel3D
