/-
Decimal numbers read as IEEE singles.

A decimal is an optional sign, digits with a point among them or at an end, and perhaps a power of ten; or one of the
words for infinity and for no number, in any case. Its value is rounded to the nearest single, and to the even one of
two that are equally near. Values beyond the largest single become infinity.
-/
import Accel3D.Text.Numeral

namespace Accel3D.Single

/-! ## Rounding -/

/-- the word of infinity -/
def infinity : UInt32 := 0x7F800000

/-- the word for no number -/
def notANumber : UInt32 := 0x7FC00000

/-- largest `e` with 2^e ≤ n / d, for positive `n` and `d` -/
def floorLog (n d : Nat) : Int :=
  let e : Int := (n.log2 : Int) - d.log2
  let reached := if 0 ≤ e then d * 2 ^ e.toNat ≤ n else d ≤ n * 2 ^ (-e).toNat
  if reached then e else e - 1

/-- a quotient rounded to the nearest whole number, a half to the even one -/
def roundDiv (n d : Nat) : Nat :=
  let q := n / d
  let r := n % d
  if d < 2 * r ∨ (2 * r = d ∧ q % 2 = 1) then q + 1 else q

/-- n / d as a multiple of 2^e, rounded -/
def roundTo (n d : Nat) (e : Int) : Nat :=
  if 0 ≤ e then roundDiv n (d * 2 ^ e.toNat) else roundDiv (n * 2 ^ (-e).toNat) d

/-- the single nearest to n / d: 24 digits from the leading one on, but none below 2^-149 -/
def ofRatio (n d : Nat) : UInt32 :=
  if n = 0 then 0
  else
    let e := max (-149) (floorLog n d - 23)
    let w := (e + 149).toNat * 2 ^ (23 : Nat) + roundTo n d e
    if w < infinity.toNat then UInt32.ofNat w else infinity

/-- the single nearest to `digits` times a power of ten; the powers that no digits could bring back are not computed -/
def ofDecimal (digits : Nat) (exponent : Int) : UInt32 :=
  if digits = 0 then 0
  else if 40 < exponent then infinity
  else if exponent < -((digits.log2 : Int) + 60) then 0
  else if 0 ≤ exponent then ofRatio (digits * 10 ^ exponent.toNat) 1
  else ofRatio digits (10 ^ (-exponent).toNat)

/-! ## Text -/

/-- why a decimal cannot be read -/
inductive DecimalFault where
  | empty
  | invalid
deriving DecidableEq, Repr, Inhabited

def DecimalFault.message : DecimalFault → String
  | empty => "cannot parse float from empty string"
  | invalid => "invalid float literal"

/-- the power of ten at the end of a decimal; no text is no power -/
def readExponent? : List Char → Option Int
  | [] => some 0
  | c :: rest =>
    if c = 'e' ∨ c = 'E' then
      let (negative, digits) := Text.readSign rest
      if digits.isEmpty || !digits.all Text.isDigit then none
      else some (if negative then -(Text.digitsValue 10 digits : Int) else Text.digitsValue 10 digits)
    else none

/-- the digits behind the point, and what follows them -/
def readFraction (cs : List Char) : List Char × List Char :=
  match cs with
  | '.' :: rest => (rest.takeWhile Text.isDigit, rest.dropWhile Text.isDigit)
  | rest => ([], rest)

/-- digits and power of ten of a decimal without its sign -/
def readMagnitude? (cs : List Char) : Option (Nat × Int) :=
  let whole := cs.takeWhile Text.isDigit
  let (fraction, rest) := readFraction (cs.dropWhile Text.isDigit)
  if whole.isEmpty && fraction.isEmpty then none
  else (readExponent? rest).map fun e => (Text.digitsValue 10 (whole ++ fraction), e - fraction.length)

/-- the words for infinity and for no number -/
def readWord? (cs : List Char) : Option UInt32 :=
  let name := String.ofList (cs.map Char.toLower)
  if name = "inf" ∨ name = "infinity" then some infinity
  else if name = "nan" then some notANumber
  else none

/-- the word with its sign bit -/
def withSign (negative : Bool) (w : UInt32) : UInt32 := if negative then w ||| 0x80000000 else w

/-- the single that a text writes -/
def read (cs : List Char) : Except DecimalFault UInt32 :=
  if cs.isEmpty then .error .empty
  else
    let (negative, rest) := Text.readSign cs
    match readMagnitude? rest with
    | some (digits, exponent) => .ok (withSign negative (ofDecimal digits exponent))
    | none =>
      match readWord? rest with
      | some w => .ok (withSign negative w)
      | none => .error .invalid

end Accel3D.Single
