/-
LuaTypings/HostType/Basic.lean

Type expressions of the host language, as its display strings denote them, and the display
string of an expression.  `spell` writes arguments in angle brackets with a comma and a
space between them, an array as square brackets with a comma for every further dimension, a
nullable type with a question mark and a pointer with an asterisk.
-/
import LuaTypings.Text.Letter

namespace LuaTypings

/-- A type expression of the host language. -/
inductive HostType where
  /-- A name with its generic arguments. -/
  | named (name : String) (args : List HostType)
  /-- An array with `rank` dimensions. -/
  | array (element : HostType) (rank : Nat)
  /-- A value that may be absent. -/
  | nullable (inner : HostType)
  /-- An unmanaged pointer or a by-reference value. -/
  | pointer (target : HostType)
  deriving Inhabited, Repr

namespace HostType

/-- The characters of a type name: letters and numbers of any script, and five signs. -/
def isNameChar (c : Char) : Bool :=
  Text.isLetterOrNumber c || c == '_' || c == '.' || c == '+' || c == '\x60' || c == '@'

mutual

/-- The display string of a type expression. -/
def spell : HostType → List Char
  | .named name [] => name.toList
  | .named name (arg :: args) => name.toList ++ '<' :: (spell arg ++ spellRest args)
  | .array element rank => spell element ++ '[' :: (List.replicate (rank - 1) ',' ++ [']'])
  | .nullable inner => spell inner ++ ['?']
  | .pointer target => spell target ++ ['*']

/-- The arguments behind the first one, with their commas, and the closing bracket. -/
def spellRest : List HostType → List Char
  | [] => ['>']
  | arg :: args => ',' :: ' ' :: (spell arg ++ spellRest args)

end

end HostType

end LuaTypings
