/-
Characters, gaps and quoted strings of TOML.

Readers take characters and give what they read with the rest. A basic string, in quotation marks, has escapes; a
literal string, in apostrophes, has none. Either may stand in triple marks and then go over several lines: a line break
right after the marks is dropped, and up to two marks may stand before the closing ones.
-/
import Accel3D.Text.Numeral

namespace Accel3D.Toml

/-- a reader gives a value and what is left, or refuses -/
abbrev Read (α : Type) := List Char → Option (α × List Char)

/-! ## Characters and gaps -/

def quotationMark : Char := '\x22'

def apostrophe : Char := '\x27'

/-- blank or tabulator -/
def isSpace (c : Char) : Bool := c = ' ' || c = '\t'

/-- a character of a comment: no control character but the tabulator -/
def isText (c : Char) : Bool := c = '\t' || (0x20 ≤ c.toNat && c.toNat ≠ 0x7F)

def skipSpace (cs : List Char) : List Char := cs.dropWhile isSpace

/-- what follows a line break -/
def newline? : List Char → Option (List Char)
  | '\n' :: rest => some rest
  | '\r' :: '\n' :: rest => some rest
  | _ => none

def skipComment : List Char → List Char
  | '#' :: rest => rest.dropWhile isText
  | cs => cs

/-- what follows a line that has at most a comment left -/
def endLine? (cs : List Char) : Option (List Char) :=
  let rest := skipComment (skipSpace cs)
  if rest.isEmpty then some [] else newline? rest

/-- without blanks, line breaks and comments in front; `comment` says that a comment has begun -/
def skipGapFrom : (comment : Bool) → List Char → List Char
  | _, '\r' :: '\n' :: rest => skipGapFrom false rest
  | _, '\n' :: rest => skipGapFrom false rest
  | true, c :: rest => if isText c then skipGapFrom true rest else c :: rest
  | false, c :: rest => if isSpace c then skipGapFrom false rest else if c = '#' then skipGapFrom true rest else c :: rest
  | _, [] => []

/-- without the gap in front that may stand between the values of an array -/
def skipGap (cs : List Char) : List Char := skipGapFrom false cs

/-! ## Escapes -/

/-- a character by its number in `n` hexadecimal digits -/
def readScalar (n : Nat) : Read Char := fun cs =>
  match (cs.take n).mapM (Text.digitIn? 16) with
  | none => none
  | some digits =>
    let v := digits.foldl (fun v d => 16 * v + d) 0
    if digits.length = n ∧ v.isValidChar then some (Char.ofNat v, cs.drop n) else none

/-- the character of an escape, behind its backslash -/
def readEscape : Read Char
  | 'b' :: rest => some ('\x08', rest)
  | 't' :: rest => some ('\t', rest)
  | 'n' :: rest => some ('\n', rest)
  | 'f' :: rest => some ('\x0c', rest)
  | 'r' :: rest => some ('\r', rest)
  | '\\' :: rest => some ('\\', rest)
  | 'u' :: rest => readScalar 4 rest
  | 'U' :: rest => readScalar 8 rest
  | c :: rest => if c = quotationMark then some (c, rest) else none
  | [] => none

/-! ## Strings -/

/-- which of the two kinds of string is read -/
inductive StringKind where
  | basic
  | plain
deriving DecidableEq, Repr

def StringKind.mark : StringKind → Char
  | basic => quotationMark
  | plain => apostrophe

/-- the character of an escape in a string that has escapes -/
def StringKind.escape? (kind : StringKind) (cs : List Char) : Option (Read Char × List Char) :=
  match kind, cs with
  | basic, '\\' :: rest => some (readEscape, rest)
  | _, _ => none

/-- a string on one line, behind its mark; `read` are its characters so far, last one first -/
def readLineString (kind : StringKind) : (fuel : Nat) → (read : List Char) → Read String
  | 0, _, _ => none
  | fuel + 1, read, cs =>
    match kind.escape? cs with
    | some (escape, rest) => do
      let (c, rest) ← escape rest
      readLineString kind fuel (c :: read) rest
    | none =>
      match cs with
      | [] => none
      | c :: rest =>
        if c = kind.mark then some (String.ofList read.reverse, rest)
        else if isText c then readLineString kind fuel (c :: read) rest
        else none

/-- without blanks and line breaks in front -/
def skipBreaks : List Char → List Char
  | '\r' :: '\n' :: rest => skipBreaks rest
  | '\n' :: rest => skipBreaks rest
  | c :: rest => if isSpace c then skipBreaks rest else c :: rest
  | [] => []

/-- what follows a line break that a backslash hides, with all blanks and line breaks behind it -/
def hiddenBreak? (cs : List Char) : Option (List Char) := (newline? (skipSpace cs)).map skipBreaks

/-- a string over several lines, behind its marks; `read` are its characters so far, last one first -/
def readBlockString (kind : StringKind) : (fuel : Nat) → (read : List Char) → Read String
  | 0, _, _ => none
  | fuel + 1, read, cs =>
    match kind.escape? cs with
    | some (escape, rest) =>
      match hiddenBreak? rest with
      | some rest => readBlockString kind fuel read rest
      | none => do
        let (c, rest) ← escape rest
        readBlockString kind fuel (c :: read) rest
    | none =>
      match newline? cs with
      | some rest => readBlockString kind fuel ('\n' :: read) rest
      | none =>
        let marks := (cs.takeWhile (· = kind.mark)).length
        if 3 ≤ marks then
          let kept := min (marks - 3) 2
          some (String.ofList (read.reverse ++ List.replicate kept kind.mark), cs.drop (kept + 3))
        else match cs with
          | [] => none
          | c :: rest => if isText c then readBlockString kind fuel (c :: read) rest else none

/-- a string of one kind on one line -/
def readQuoted (kind : StringKind) : Read String
  | [] => none
  | c :: rest => if c = kind.mark then readLineString kind (rest.length + 1) [] rest else none

/-- a string of one kind, on one line or on several -/
def readStringOf (kind : StringKind) (cs : List Char) : Option (String × List Char) :=
  if cs.take 3 = [kind.mark, kind.mark, kind.mark] then
    let body := cs.drop 3
    let body := (newline? body).getD body
    readBlockString kind (body.length + 1) [] body
  else readQuoted kind cs

/-- a string -/
def readString : Read String
  | [] => none
  | c :: rest =>
    if c = quotationMark then readStringOf .basic (c :: rest)
    else if c = apostrophe then readStringOf .plain (c :: rest)
    else none

end Accel3D.Toml
