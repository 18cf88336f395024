/-
Whole numbers written in digits.

A numeral is an optional sign and at least one digit. It is read from the left, and the first fault decides: a character
that is no digit, or a digit that takes the number out of its range.
-/
import Accel3D.Word

namespace Accel3D.Text

/-- why a numeral cannot be read -/
inductive NumeralFault where
  | empty
  | invalidDigit
  | tooLarge
  | tooSmall
deriving DecidableEq, Repr, Inhabited

def NumeralFault.message : NumeralFault → String
  | empty => "cannot parse integer from empty string"
  | invalidDigit => "invalid digit found in string"
  | tooLarge => "number too large to fit in target type"
  | tooSmall => "number too small to fit in target type"

/-- value of a character as a digit: 0 to 9, then the letters in either case -/
def digitValue? (c : Char) : Option Nat :=
  if '0' ≤ c && c ≤ '9' then some (c.toNat - 48)
  else if 'a' ≤ c && c ≤ 'z' then some (c.toNat - 87)
  else if 'A' ≤ c && c ≤ 'Z' then some (c.toNat - 55)
  else none

/-- value of a character as a digit in a base -/
def digitIn? (base : Nat) (c : Char) : Option Nat := (digitValue? c).filter (· < base)

/-- a decimal digit -/
def isDigit (c : Char) : Bool := (digitIn? 10 c).isSome

/-- the number that digits write in a base -/
def digitsValue (base : Nat) (cs : List Char) : Nat := cs.foldl (fun n c => base * n + (digitIn? base c).getD 0) 0

/-- a sign, if there is one, and what follows it; true is minus -/
def readSign : List Char → Bool × List Char
  | '-' :: rest => (true, rest)
  | '+' :: rest => (false, rest)
  | cs => (false, cs)

/-- digits read behind the number `n`; one that reaches `bound` is a fault -/
def readDigits (base bound : Nat) (fault : NumeralFault) : List Char → Nat → Except NumeralFault Nat
  | [], n => .ok n
  | c :: rest, n =>
    match digitIn? base c with
    | none => .error .invalidDigit
    | some d =>
      if base * n + d < bound then readDigits base bound fault rest (base * n + d) else .error fault

/-- a number below `bound`; a plus sign may stand before it -/
def readNatural (base bound : Nat) : List Char → Except NumeralFault Nat
  | [] => .error .empty
  | ['+'] => .error .invalidDigit
  | '+' :: digits => readDigits base bound .tooLarge digits 0
  | digits => readDigits base bound .tooLarge digits 0

/-- a decimal number of `bits` bits in two's complement, with a sign if wanted -/
def readInteger (bits : Nat) : List Char → Except NumeralFault Int
  | ['-'] => .error .invalidDigit
  | '-' :: digits => (readDigits 10 (2 ^ (bits - 1) + 1) .tooSmall digits 0).map fun n => -(n : Int)
  | digits => (readNatural 10 (2 ^ (bits - 1)) digits).map fun n => (n : Int)

end Accel3D.Text
