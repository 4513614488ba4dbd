/-
LuaTypings/Json/Shape.lean

JSON values of an expected shape.  A record is an object, or a list of its fields in order;
an unknown key is ignored and a repeated one is a mistake.  The entries of a record are looked
at in the order of the text, and a missing field is only missed when all of them are right.
So the first mistake is found in one pass over the entries (`firstMistake?`), and the fields
are picked up afterwards.
-/
import LuaTypings.Json.Scan
import LuaTypings.Text.Quoted

namespace LuaTypings.Json

/-! ### Mistakes in shape -/

/-- What a text has in the place of something else. -/
inductive Found where
  | null
  | bool (b : Bool)
  | integer (n : Int)
  | real (spelling : String)
  | string (s : String)
  | list
  | object
  deriving DecidableEq, Repr

/-- What stands at the root of a value. -/
def found : Json → Found
  | .null => .null
  | .bool b => .bool b
  | .integer n => .integer n
  | .real spelling => .real spelling
  | .string s => .string s
  | .array _ => .list
  | .object _ => .object

/-- A word between grave accents. -/
def ticked (s : String) : String := "\x60" ++ s ++ "\x60"

/-- What was found, as messages name it. -/
def Found.text : Found → String
  | .null => "null"
  | .bool true => "boolean " ++ ticked "true"
  | .bool false => "boolean " ++ ticked "false"
  | .integer n => "integer " ++ ticked (toString n)
  | .real spelling => "floating point " ++ ticked spelling
  | .string s => "string " ++ Text.quoted s
  | .list => "sequence"
  | .object => "map"

/-- What is wrong with the shape of a value. -/
inductive Mistake where
  | missingField (name : String)
  | duplicateField (name : String)
  /-- A word that is none of the expected ones. -/
  | unknownVariant (name : String) (expected : List String)
  | invalidType (found : Found) (expected : String)
  | invalidValue (found : Found) (expected : String)
  /-- A list with the wrong number of items. -/
  | invalidLength (length : Nat) (expected : String)
  deriving DecidableEq, Repr

/-- The text of a mistake. -/
def Mistake.message : Mistake → String
  | .missingField name => "missing field " ++ ticked name
  | .duplicateField name => "duplicate field " ++ ticked name
  | .unknownVariant name expected =>
    "unknown variant " ++ ticked name ++ ", expected one of "
      ++ String.intercalate ", " (expected.map ticked)
  | .invalidType found expected => "invalid type: " ++ found.text ++ ", expected " ++ expected
  | .invalidValue found expected => "invalid value: " ++ found.text ++ ", expected " ++ expected
  | .invalidLength length expected =>
    "invalid length " ++ toString length ++ ", expected " ++ expected

/-! ### Simple values -/

/-- A way to read a value. -/
abbrev Reader (α : Type) := Json → Except Mistake α

namespace Reader

/-- A string. -/
def text : Reader String
  | .string s => .ok s
  | j => .error (.invalidType j.found "a string")

/-- A truth value. -/
def flag : Reader Bool
  | .bool b => .ok b
  | j => .error (.invalidType j.found "a boolean")

/-- A whole number of 64 bits with a sign. -/
def int64 : Reader Int64
  | .integer n =>
    if Int64.minValue.toInt ≤ n ∧ n ≤ Int64.maxValue.toInt then .ok (Int64.ofInt n)
    else .error (.invalidValue (.integer n) "i64")
  | j => .error (.invalidType j.found "i64")

/-- A value that may be null. -/
def option {α : Type} (r : Reader α) : Reader (Option α)
  | .null => .ok none
  | j => (r j).map some

/-- All items of a list; the first mistake wins. -/
def all {α : Type} (r : Reader α) : List Json → Except Mistake (List α)
  | [] => .ok []
  | j :: js =>
    match r j with
    | .error e => .error e
    | .ok a =>
      match all r js with
      | .error e => .error e
      | .ok as => .ok (a :: as)

/-- A list. -/
def list {α : Type} (r : Reader α) : Reader (List α)
  | .array items => all r items
  | j => .error (.invalidType j.found "a sequence")

/-- The mistake that a reader finds in a value. -/
def mistake? {α : Type} (r : Reader α) (j : Json) : Option Mistake :=
  match r j with
  | .ok _ => none
  | .error e => some e

end Reader

/-! ### Records -/

/-- A field of a record: its name, and the mistake in a value that it may not have. -/
structure FieldRule where
  name : String
  mistake? : Json → Option Mistake

/-- A field that is read in some way. -/
def FieldRule.of {α : Type} (name : String) (r : Reader α) : FieldRule := ⟨name, r.mistake?⟩

/-- The first mistake among the entries of a record, where the fields `seen` came before. -/
def firstMistake? (rules : List FieldRule) (seen : List String) :
    List (String × Json) → Option Mistake
  | [] => none
  | (key, value) :: entries =>
    match rules.find? fun r => r.name == key with
    | none => firstMistake? rules seen entries
    | some rule =>
      if seen.contains key then some (.duplicateField key)
      else (rule.mistake? value).or (firstMistake? rules (key :: seen) entries)

/-- The fields of a record, and what is wrong if one of them is missing. -/
structure Fields where
  entries : List (String × Json)
  missing : String → Mistake

namespace Fields

/-- A field that must be there. -/
def required {α : Type} (fs : Fields) (name : String) (r : Reader α) : Except Mistake α :=
  match fs.entries.lookup name with
  | some j => r j
  | none => .error (fs.missing name)

/-- A field that has a value when it is not there. -/
def withDefault {α : Type} (fs : Fields) (name : String) (fallback : α) (r : Reader α) :
    Except Mistake α :=
  match fs.entries.lookup name with
  | some j => r j
  | none => .ok fallback

end Fields

/-- The number of things with their name. -/
def counted (n : Nat) (what : String) : String :=
  toString n ++ " " ++ what ++ (if n = 1 then "" else "s")

/-- A record that is an object. -/
def objectFields (rules : List FieldRule) (entries : List (String × Json)) :
    Except Mistake Fields :=
  match firstMistake? rules [] entries with
  | some e => .error e
  | none => .ok ⟨entries, .missingField⟩

/-- A record that is a list of its fields.  A field that must be there and is not makes the
list too short. -/
def listFields (kind : String) (rules : List FieldRule) (items : List Json) :
    Except Mistake Fields :=
  let entries := (rules.map FieldRule.name).zip items
  match firstMistake? rules [] entries with
  | some e => .error e
  | none =>
    .ok ⟨entries, fun _ =>
      .invalidLength items.length (kind ++ " with " ++ counted rules.length "element")⟩

/-- A record of the named kind, as an object or as a list of its fields. -/
def record {α : Type} (kind : String) (rules : List FieldRule)
    (build : Fields → Except Mistake α) : Reader α
  | .object entries => do build (← objectFields rules entries)
  | .array items => do
    let a ← build (← listFields kind rules items)
    if rules.length < items.length then
      .error (.invalidLength items.length (counted rules.length "element" ++ " in sequence"))
    else .ok a
  | j => .error (.invalidType j.found kind)

/-- A record that is always an object. -/
def objectOnly {α : Type} (kind : String) (build : List (String × Json) → Except Mistake α) :
    Reader α
  | .object entries => build entries
  | j => .error (.invalidType j.found kind)

end LuaTypings.Json
