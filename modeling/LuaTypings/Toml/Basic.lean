/-
LuaTypings/Toml/Basic.lean

TOML values, and how the lines of a document build its tables.  A table remembers what made
it.  A header makes a table once, and may come late for a table that other headers have only
passed through.  A dotted key makes the tables on its way, and may not enter a table that a
header has made.  A value is never extended.
-/

namespace LuaTypings

/-- What made a table. -/
inductive TableOrigin where
  /-- A header of its own. -/
  | header
  /-- Headers of tables in it. -/
  | implied
  /-- A dotted key. -/
  | dotted
  deriving DecidableEq, Repr

/-- A TOML value. -/
inductive Toml where
  | string (s : String)
  | integer (n : Int)
  /-- A truth value, a fraction or a point in time. -/
  | scalar
  | array (items : List Toml)
  | inlineTable (entries : List (String × Toml))
  | table (origin : TableOrigin) (entries : List (String × Toml))
  /-- The tables of repeated headers. -/
  | tables (elements : List (List (String × Toml)))
  deriving Inhabited, Repr

namespace Toml

/-- The entries of a table, in the order in which they came. -/
abbrev Entries := List (String × Toml)

namespace Entries

/-- Replaces the value of a key. -/
def replace (es : Entries) (key : String) (v : Toml) : Entries :=
  es.map fun e => if e.1 = key then (key, v) else e

/-- Moves a key to the end, with a new value. -/
def moveLast (es : Entries) (key : String) (v : Toml) : Entries :=
  es.filter (fun e => e.1 ≠ key) ++ [(key, v)]

/-- Changes the table at the end of a path.  The tables on the way that are not there are made;
`made` says by what, and whether the path may enter tables that headers have made. -/
def change (made : TableOrigin) (f : TableOrigin → Entries → Option Entries) :
    List String → TableOrigin → Entries → Option Entries
  | [], origin, es => f origin es
  | key :: path, _, es =>
    match es.lookup key with
    | none => (change made f path made []).map fun sub => es ++ [(key, .table made sub)]
    | some (.table origin sub) =>
      if made = .dotted ∧ origin = .header then none
      else (change made f path origin sub).map fun sub => es.replace key (.table origin sub)
    | some (.tables elements) =>
      match elements.reverse with
      | [] => none
      | last :: before =>
        (change made f path .header last).map fun last =>
          es.replace key (.tables (last :: before).reverse)
    | some _ => none

/-- Adds an entry with a key that is new. -/
def add (key : String) (v : Toml) (es : Entries) : Option Entries :=
  if (es.lookup key).isSome then none else some (es ++ [(key, v)])

/-- Adds a value below a dotted key.  The last table on the way must be one that dotted keys
make. -/
def addAt (path : List String) (key : String) (v : Toml) (es : Entries) : Option Entries :=
  if path.isEmpty then es.add key v
  else change .dotted (fun origin es => if origin = .dotted then es.add key v else none)
    path .header es

/-- Makes the table of a header. -/
def openTable (path : List String) (key : String) (es : Entries) : Option Entries :=
  change .implied (fun _ es =>
    match es.lookup key with
    | none => some (es ++ [(key, .table .header [])])
    | some (.table .implied sub) => some (es.moveLast key (.table .header sub))
    | some _ => none) path .header es

/-- Makes one more table of a repeated header. -/
def openElement (path : List String) (key : String) (es : Entries) : Option Entries :=
  change .implied (fun _ es =>
    match es.lookup key with
    | none => some (es ++ [(key, .tables [[]])])
    | some (.tables elements) => some (es.replace key (.tables (elements ++ [[]])))
    | some _ => none) path .header es

end Entries

end Toml

end LuaTypings
