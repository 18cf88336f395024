/-
Reading a TOML document.

A document has lines: a key and its value, the header of a table in brackets, or of one more table in double brackets.
The keys after a header belong to its table. A key may have parts divided by points, each of which names a table.
Arrays and tables in braces may be nested, up to a limit.

Result: `parse?` gives the entries of the outermost table, or nothing when the text is no document.
-/
import Accel3D.Toml.Scalar

namespace Accel3D.Toml

/-- neither brackets nor the parts of a key go to this depth -/
def depthLimit : Nat := 80

/-! ## Keys -/

/-- a character of a key without quotes -/
def isKeyChar (c : Char) : Bool := c.isAlphanum || c = '_' || c = '-'

/-- one part of a key -/
def readKeyPart : Read String
  | [] => none
  | c :: rest =>
    if c = quotationMark then readQuoted .basic (c :: rest)
    else if c = apostrophe then readQuoted .plain (c :: rest)
    else
      let name := (c :: rest).takeWhile isKeyChar
      if name.isEmpty then none else some (String.ofList name, (c :: rest).dropWhile isKeyChar)

/-- the parts of a key, with the blanks around them -/
def readKeyParts : (fuel : Nat) → Read (List String)
  | 0, _ => none
  | fuel + 1, cs => do
    let (part, rest) ← readKeyPart (skipSpace cs)
    match skipSpace rest with
    | '.' :: rest =>
      let (parts, rest) ← readKeyParts fuel rest
      return (part :: parts, rest)
    | rest => return ([part], rest)

/-- a key: its path and its last part -/
def readKey : Read (List String × String) := fun cs => do
  let (parts, rest) ← readKeyParts (cs.length + 1) cs
  if depthLimit ≤ parts.length then none
  else match parts.reverse with
    | last :: path => return ((path.reverse, last), rest)
    | [] => none

/-! ## Values -/

/-- the values of an array behind its bracket -/
def readArray (readValue : Read Value) : (fuel : Nat) → Read (List Value)
  | 0, _ => none
  | fuel + 1, cs =>
    match skipGap cs with
    | ']' :: rest => some ([], rest)
    | cs => do
      let (v, rest) ← readValue cs
      match skipGap rest with
      | ',' :: rest =>
        let (values, rest) ← readArray readValue fuel rest
        return (v :: values, rest)
      | ']' :: rest => return ([v], rest)
      | _ => none

/-- a key, an equals sign and a value -/
def readPair (readValue : Read Value) : Read (List String × String × Value) := fun cs => do
  let ((path, key), rest) ← readKey cs
  let (v, rest) ← readValue (skipSpace (← expect '=' rest))
  return ((path, key, v), rest)

/-- the pairs of a table in braces, added to those read already -/
def readPairs (readValue : Read Value) : (fuel : Nat) → Entries → Read Entries
  | 0, _, _ => none
  | fuel + 1, entries, cs => do
    let ((path, key, v), rest) ← readPair readValue cs
    let (_, entries) ← addPath path key v .braces entries
    match skipSpace rest with
    | ',' :: rest => readPairs readValue fuel entries rest
    | '\x7d' :: rest => return (entries, rest)
    | _ => none

/-- a table in braces behind its brace -/
def readBraces (readValue : Read Value) : Read Entries := fun cs =>
  match skipSpace cs with
  | '\x7d' :: rest => some ([], rest)
  | rest => readPairs readValue (rest.length + 1) [] rest

/-- a value without parts -/
def readLeaf : Read Value := fun cs =>
  ((readString cs).map fun (s, rest) => (.string s, rest)) <|> readScalarValue cs

/-- a value whose parts are read in a given way -/
def readNested (readPart : Read Value) : Read Value
  | '[' :: rest => (readArray readPart (rest.length + 1) rest).map fun (vs, rest) => (.array vs, rest)
  | '\x7b' :: rest => (readBraces readPart rest).map fun (entries, rest) => (.table .braces entries, rest)
  | cs => readLeaf cs

/-- a value with at most `depth` brackets around its innermost part -/
def readValueWithin : (depth : Nat) → Read Value
  | 0 => readLeaf
  | depth + 1 => readNested (readValueWithin depth)

/-- a value; fewer brackets than the limit may be around its innermost part -/
def readValue : Read Value := readValueWithin (depthLimit - 1)

/-! ## Lines -/

/-- the outermost table so far, and the path of the table that keys are added to -/
structure Document where
  entries : Entries
  current : List String

namespace Document

def empty : Document := ⟨[], []⟩

/-- a change of the table at a path of headers; the outermost table counts as one with a header -/
def change (d : Document) (path : List String) (change : TableChange) : Option Entries :=
  (changeTable false change path .header d.entries).map Prod.snd

/-- a value added under a key -/
def addValue (d : Document) (path : List String) (key : String) (v : Value) : Option Document :=
  (d.change d.current (addPath path key v)).map fun entries => { d with entries := entries }

/-- a table begun by its header -/
def beginTable (d : Document) (path : List String) (key : String) : Option Document :=
  (d.change path (openTable key)).map fun entries => ⟨entries, path ++ [key]⟩

/-- one more table begun by a header in double brackets -/
def beginFurtherTable (d : Document) (path : List String) (key : String) : Option Document :=
  (d.change path (appendTable key)).map fun entries => ⟨entries, path ++ [key]⟩

/-- the document after a line that is not blank, with what is left of the line -/
def readLine (d : Document) : Read Document
  | '[' :: '[' :: rest => do
    let ((path, key), rest) ← readKey rest
    let rest ← expect ']' (← expect ']' rest)
    return (← d.beginFurtherTable path key, rest)
  | '[' :: rest => do
    let ((path, key), rest) ← readKey rest
    let rest ← expect ']' rest
    return (← d.beginTable path key, rest)
  | cs => do
    let ((path, key, v), rest) ← readPair readValue cs
    return (← d.addValue path key v, rest)

/-- the document after all lines -/
def readLines : (fuel : Nat) → Document → List Char → Option Document
  | 0, _, _ => none
  | fuel + 1, d, cs =>
    let cs := skipSpace cs
    if cs.isEmpty then some d
    else match endLine? cs with
      | some rest => readLines fuel d rest
      | none => do
        let (d, rest) ← d.readLine cs
        readLines fuel d (← endLine? rest)

end Document

/-- without the mark of the byte order in front -/
def skipOrderMark : List Char → List Char
  | c :: rest => if c.toNat = 0xFEFF then rest else c :: rest
  | [] => []

/-- the entries of a document -/
def parse? (text : String) : Option Entries :=
  let cs := skipOrderMark text.toList
  (Document.readLines (cs.length + 1) .empty cs).map Document.entries

end Accel3D.Toml
