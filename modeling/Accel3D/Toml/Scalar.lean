/-
Numbers, truth values, dates and times of TOML.

A date is checked against the calendar and a time against the clock. A whole number has 64 bits in two's complement. A
number with a fraction or an exponent must not be so large that it rounds to infinity in double precision, unless it is
negative.
-/
import Accel3D.Toml.Text
import Accel3D.Toml.Value

namespace Accel3D.Toml

/-! ## Digits -/

/-- further digits, single underscores between digits left out -/
def readMoreDigits (base : Nat) : List Char → List Char × List Char
  | '_' :: c :: rest =>
    if (Text.digitIn? base c).isSome then
      let (digits, rest) := readMoreDigits base rest
      (c :: digits, rest)
    else ([], '_' :: c :: rest)
  | c :: rest =>
    if (Text.digitIn? base c).isSome then
      let (digits, rest) := readMoreDigits base rest
      (c :: digits, rest)
    else ([], c :: rest)
  | [] => ([], [])

/-- at least one digit, single underscores between digits left out -/
def readDigits (base : Nat) : Read (List Char)
  | c :: rest =>
    if (Text.digitIn? base c).isSome then
      let (digits, rest) := readMoreDigits base rest
      some (c :: digits, rest)
    else none
  | [] => none

/-- the digits of a whole decimal: a zero stands alone -/
def readWhole : Read (List Char)
  | '0' :: rest => some (['0'], rest)
  | cs => readDigits 10 cs

/-! ## Whole numbers -/

/-- the base that a mark names -/
def readBase : List Char → Option (Nat × List Char)
  | '0' :: 'x' :: rest => some (16, rest)
  | '0' :: 'o' :: rest => some (8, rest)
  | '0' :: 'b' :: rest => some (2, rest)
  | _ => none

/-- a number that 64 bits hold -/
def integer? (n : Int) : Option Value := if -(2 ^ (63 : Nat)) ≤ n ∧ n < 2 ^ (63 : Nat) then some (.integer n) else none

/-- a whole number; in another base than ten it has no sign -/
def readInteger : Read Value := fun cs =>
  match readBase cs with
  | some (base, rest) => do
    let (digits, rest) ← readDigits base rest
    return (← integer? (Text.digitsValue base digits), rest)
  | none => do
    let (negative, rest) := Text.readSign cs
    let (digits, rest) ← readWhole rest
    let n : Int := Text.digitsValue 10 digits
    return (← integer? (if negative then -n else n), rest)

/-! ## Numbers with a fraction -/

/-- the digits behind a point, if there is one -/
def readFraction : Read (List Char)
  | '.' :: rest => readDigits 10 rest
  | cs => some ([], cs)

/-- an exponent, if there is one -/
def readExponent : Read Int
  | [] => some (0, [])
  | c :: rest =>
    if c = 'e' ∨ c = 'E' then do
      let (negative, rest) := Text.readSign rest
      let (digits, rest) ← readDigits 10 rest
      let n : Int := Text.digitsValue 10 digits
      return (if negative then -n else n, rest)
    else some (0, c :: rest)

/-- whether `digits` times a power of ten rounds to infinity in double precision -/
def overflows (digits : Nat) (exponent : Int) : Bool :=
  if digits = 0 then false
  else if 400 < exponent then true
  else if exponent < -((digits.log2 : Int) + 1) then false
  else
    let bound := 2 ^ (1024 : Nat) - 2 ^ (970 : Nat)
    if 0 ≤ exponent then bound ≤ digits * 10 ^ exponent.toNat else bound * 10 ^ (-exponent).toNat ≤ digits

/-- a number that has a fraction or an exponent -/
def readFinite : Read Value := fun cs => do
  let (negative, rest) := Text.readSign cs
  let (whole, afterWhole) ← readWhole rest
  let (fraction, afterFraction) ← readFraction afterWhole
  let (exponent, rest) ← readExponent afterFraction
  if afterWhole.length = rest.length then none
  else
    let digits := Text.digitsValue 10 (whole ++ fraction)
    let exponent := exponent - fraction.length
    if !negative && overflows digits exponent then none else some (.float (.finite negative digits exponent), rest)

/-- one of the words for infinity and for no number -/
def readFloatWord : Read Value := fun cs =>
  let (negative, rest) := Text.readSign cs
  match rest with
  | 'i' :: 'n' :: 'f' :: rest => some (.float (.infinite negative), rest)
  | 'n' :: 'a' :: 'n' :: rest => some (.float (.notANumber negative), rest)
  | _ => none

/-! ## Truth values -/

def readBoolean : Read Value
  | 't' :: 'r' :: 'u' :: 'e' :: rest => some (.boolean true, rest)
  | 'f' :: 'a' :: 'l' :: 's' :: 'e' :: rest => some (.boolean false, rest)
  | _ => none

/-! ## Dates and times -/

/-- a number in exactly `n` digits, between two bounds -/
def readField (n low high : Nat) : Read Nat := fun cs =>
  let digits := cs.take n
  let v := Text.digitsValue 10 digits
  if digits.length = n ∧ digits.all Text.isDigit ∧ low ≤ v ∧ v ≤ high then some (v, cs.drop n) else none

/-- what follows an expected character -/
def expect (c : Char) : List Char → Option (List Char)
  | [] => none
  | d :: rest => if d = c then some rest else none

/-- days of a month -/
def daysIn (year month : Nat) : Nat :=
  if month = 2 then if year % 4 = 0 ∧ (year % 100 ≠ 0 ∨ year % 400 = 0) then 29 else 28
  else if [4, 6, 9, 11].contains month then 30
  else 31

/-- what follows a date -/
def skipDate (cs : List Char) : Option (List Char) := do
  let (year, cs) ← readField 4 0 9999 cs
  let (month, cs) ← readField 2 1 12 (← expect '-' cs)
  let (_, cs) ← readField 2 1 (daysIn year month) (← expect '-' cs)
  return cs

/-- what follows hours and minutes -/
def skipMinutes (cs : List Char) : Option (List Char) := do
  let (_, cs) ← readField 2 0 23 cs
  let (_, cs) ← readField 2 0 59 (← expect ':' cs)
  return cs

/-- what follows a time of day: seconds may be 60 and may have a fraction -/
def skipTime (cs : List Char) : Option (List Char) := do
  let (_, cs) ← readField 2 0 60 (← expect ':' (← skipMinutes cs))
  match cs with
  | '.' :: c :: rest => return if Text.isDigit c then rest.dropWhile Text.isDigit else cs
  | _ => return cs

/-- what follows the distance from universal time, if it is given -/
def skipZone : List Char → List Char
  | 'Z' :: rest => rest
  | 'z' :: rest => rest
  | '+' :: rest => (skipMinutes rest).getD ('+' :: rest)
  | '-' :: rest => (skipMinutes rest).getD ('-' :: rest)
  | cs => cs

/-- what follows the time behind a date, if it is given -/
def skipDayTime (cs : List Char) : List Char :=
  match cs with
  | [] => []
  | c :: rest => if c = 'T' ∨ c = 't' ∨ c = ' ' then ((skipTime rest).map skipZone).getD cs else cs

/-- a date, a time, or a date and a time -/
def readMoment : Read Value := fun cs =>
  match (skipDate cs).map skipDayTime <|> skipTime cs with
  | none => none
  | some rest => some (.moment (String.ofList (cs.take (cs.length - rest.length))), rest)

/-! ## All of them -/

/-- a number, a date or a time -/
def readNumber : Read Value := fun cs => readMoment cs <|> readFinite cs <|> readFloatWord cs <|> readInteger cs

/-- a value without parts that is no string -/
def readScalarValue : Read Value
  | [] => none
  | c :: rest =>
    if Text.isDigit c || c = '+' || c = '-' then readNumber (c :: rest)
    else readBoolean (c :: rest) <|> readFloatWord (c :: rest)

end Accel3D.Toml
