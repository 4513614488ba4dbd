/-
LuaTypings/Toml/Parser.lean

Values and documents in TOML.  A document is a sequence of lines: a header says which table
the entries behind it go to, and an entry adds a value below a key.  A value may have several
lines only in an array or in a string of several lines.
-/
import LuaTypings.Toml.Basic
import LuaTypings.Toml.Number

namespace LuaTypings.Toml

open Reading

/-! ### Values -/

/-- A value that holds no other values. -/
def plainValue : Reading Toml :=
  (do return .string (← stringValue))
    <|> (do exactly "true" <|> exactly "false" <|> dateTime <|> float; return .scalar)
    <|> (do return .integer (← integerValue))

/-- An array; a comma may stand behind its last item. -/
def arrayOf (value : Reading Toml) : Reading Toml := do
  exactly "["
  let items ← separated (do gap; let v ← value; gap; return v)
  if !items.isEmpty then let _ ← perhaps (exactly ",")
  gap
  exactly "]"
  return .array items

/-- An entry. -/
def entry (value : Reading Toml) : Reading ((List String × String) × Toml) := do
  let k ← key
  exactly "="
  blanks
  return (k, ← value)

/-- An inline table. -/
def inlineTableOf (value : Reading Toml) : Reading Toml := do
  exactly "\x7b"
  let pairs ← separated (do let e ← entry value; blanks; return e)
  blanks
  exactly "\x7d"
  match pairs.foldlM (fun (es : Entries) p => es.addAt p.1.1 p.1.2 p.2) [] with
  | some es => return .inlineTable es
  | none => failure

/-- How many arrays and inline tables may lie in each other. -/
def maxLevels : Nat := 79

/-- A value with so many levels of arrays and inline tables. -/
def value : Nat → Reading Toml
  | 0 => plainValue
  | levels + 1 => plainValue <|> arrayOf (value levels) <|> inlineTableOf (value levels)

/-! ### Documents -/

/-- What a line does. -/
inductive Line where
  | nothing
  | header (key : List String × String)
  | repeatedHeader (key : List String × String)
  | entry (key : List String × String) (v : Toml)

/-- A line. -/
def line : Reading Line := do
  blanks
  let l ← (do exactly "[["; let k ← key; exactly "]]"; return Line.repeatedHeader k)
    <|> (do exactly "["; let k ← key; exactly "]"; return Line.header k)
    <|> (do let e ← entry (value maxLevels); return Line.entry e.1 e.2)
    <|> pure .nothing
  lineEnd
  return l

/-- A line of a text that is not at its end. -/
def nextLine : Reading Line := fun cs => if cs.isEmpty then none else line cs

/-- The path of the table that entries go to, and all tables. -/
abbrev Building := List String × Entries

/-- What a line does to the tables. -/
def Building.add (b : Building) : Line → Option Building
  | .nothing => some b
  | .header k => (b.2.openTable k.1 k.2).map fun es => (k.1 ++ [k.2], es)
  | .repeatedHeader k => (b.2.openElement k.1 k.2).map fun es => (k.1 ++ [k.2], es)
  | .entry k v =>
    (b.2.change .implied (fun _ es => es.addAt k.1 k.2 v) b.1 .header).map fun es => (b.1, es)

/-- A mark of the byte order at the front says nothing. -/
def dropMark : List Char → List Char
  | '\ufeff' :: cs => cs
  | cs => cs

/-- The entries of a document, if the text is one. -/
def document? (text : String) : Option Entries :=
  match repeated nextLine (dropMark text.toList) with
  | some (lines, []) => (lines.foldlM Building.add ([], [])).map Prod.snd
  | _ => none

end LuaTypings.Toml
