/-
Values of a TOML document, and how tables grow.

A table is known by how it came to be, because that decides who may add to it. A table under its own header, or between
braces, is complete. A table that was only passed through, by a header or by a dotted key, may still grow in the same
way, and one that headers passed through may still get its own header.
-/

namespace Accel3D.Toml

/-- how a table came to be: it has a header, stands between braces, was passed by a header, or by a dotted key -/
inductive TableOrigin where
  | header
  | braces
  | passedByHeader
  | passedByKey
deriving DecidableEq, Repr, Inhabited

/-- a number with a fraction or an exponent, as it is written, or one of the words for none -/
inductive FloatLiteral where
  | finite (negative : Bool) (digits : Nat) (exponent : Int)
  | infinite (negative : Bool)
  | notANumber (negative : Bool)
deriving DecidableEq, Repr, Inhabited

/-- `tables` are the tables under double brackets; a date or time is kept as text -/
inductive Value where
  | string (s : String)
  | integer (n : Int)
  | float (f : FloatLiteral)
  | boolean (b : Bool)
  | moment (text : String)
  | array (values : List Value)
  | table (origin : TableOrigin) (entries : List (String × Value))
  | tables (elements : List Value)
deriving Inhabited

/-- keys in the order in which they came, each once -/
abbrev Entries := List (String × Value)

/-- the entries with another value for a key that they have -/
def replaceEntry (key : String) (v : Value) (entries : Entries) : Entries :=
  entries.map fun (k, old) => (k, if k = key then v else old)

/-- what can be done to a table: it may refuse -/
abbrev TableChange := TableOrigin → Entries → Option (TableOrigin × Entries)

/-- whether a path may go on through a table: never between braces, and by a dotted key only where none has a header -/
def TableOrigin.passable (origin : TableOrigin) (dotted : Bool) : Bool :=
  match origin with
  | braces => false
  | header => !dotted
  | _ => true

/-- the value at a key after a change further down its path -/
def changeAt (dotted : Bool) (change : TableChange) : Option Value → Option Value
  | none =>
    (change (if dotted then .passedByKey else .passedByHeader) []).map fun (o, entries) => .table o entries
  | some (.table origin entries) =>
    if origin.passable dotted then (change origin entries).map fun (o, entries) => .table o entries else none
  | some (.tables elements) =>
    match elements.reverse with
    | .table origin entries :: earlier =>
      (change origin entries).map fun (o, entries) => .tables (Value.table o entries :: earlier).reverse
    | _ => none
  | some _ => none

/-- the table at the end of a path changed; tables missing on the way are made, and of tables under double brackets the
path takes the last -/
def changeTable (dotted : Bool) (change : TableChange) : List String → TableChange
  | [], origin, entries => change origin entries
  | key :: path, origin, entries =>
    (changeAt dotted (changeTable dotted change path) (entries.lookup key)).map fun v =>
      (origin, if (entries.lookup key).isSome then replaceEntry key v entries else entries ++ [(key, v)])

/-- a new key in a table; a dotted key ends in a table that dotted keys made, a plain key in one that they did not -/
def addKey (dotted : Bool) (key : String) (v : Value) : TableChange := fun origin entries =>
  if (origin == .passedByKey) != dotted then none
  else if (entries.lookup key).isSome then none
  else some (origin, entries ++ [(key, v)])

/-- a value under a key with its path, in a table -/
def addPath (path : List String) (key : String) (v : Value) : TableChange :=
  changeTable true (addKey (!path.isEmpty) key v) path

/-- the table of a header, new or passed by other headers only -/
def openTable (key : String) : TableChange := fun origin entries =>
  match entries.lookup key with
  | none => some (origin, entries ++ [(key, .table .header [])])
  | some (.table .passedByHeader inner) => some (origin, replaceEntry key (.table .header inner) entries)
  | some _ => none

/-- a further table under double brackets -/
def appendTable (key : String) : TableChange := fun origin entries =>
  match entries.lookup key with
  | none => some (origin, entries ++ [(key, .tables [.table .header []])])
  | some (.tables elements) => some (origin, replaceEntry key (.tables (elements ++ [.table .header []])) entries)
  | some _ => none

end Accel3D.Toml
