/-
White space, and text split by it.

The blank characters are those with the White_Space property of Unicode. A text has lines, divided by line feeds, and a
line has words, divided by blanks. A carriage return before a line feed is a blank like others, so it needs no rule.
-/

namespace Accel3D.Text

/-- White_Space outside the one range of neighbours below U+000E -/
def isBlankBeyond (c : Char) : Bool :=
  [0x20, 0x85, 0xA0, 0x1680, 0x2028, 0x2029, 0x202F, 0x205F, 0x3000].contains c.toNat ||
    (0x2000 ≤ c.toNat && c.toNat ≤ 0x200A)

/-- a character with the White_Space property -/
def isBlank (c : Char) : Bool := (0x09 ≤ c.toNat && c.toNat ≤ 0x0D) || isBlankBeyond c

/-- without the blanks at both ends -/
def trim (cs : List Char) : List Char := ((cs.dropWhile isBlank).reverse.dropWhile isBlank).reverse

/-- the lines after a line whose characters so far are `current`, last one first -/
def linesFrom (current : List Char) : List Char → List (List Char)
  | [] => [current.reverse]
  | c :: rest => if c = '\n' then current.reverse :: linesFrom [] rest else linesFrom (c :: current) rest

/-- the lines of a text; after a last line feed there is an empty one -/
def lines (cs : List Char) : List (List Char) := linesFrom [] cs

/-- a word put in front of others, unless it is empty -/
def consWord (word : List Char) (rest : List (List Char)) : List (List Char) :=
  if word.isEmpty then rest else word :: rest

/-- the words after a word whose characters so far are `current`, last one first -/
def wordsFrom (current : List Char) : List Char → List (List Char)
  | [] => consWord current.reverse []
  | c :: rest => if isBlank c then consWord current.reverse (wordsFrom [] rest) else wordsFrom (c :: current) rest

/-- the words of a line: the longest runs without blanks -/
def words (cs : List Char) : List (List Char) := wordsFrom [] cs

end Accel3D.Text
