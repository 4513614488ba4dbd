/-
LuaTypings/Spelling.lean

How host types are spelled in Lua annotations.  A builtin type has its own name, a generic
parameter in scope stays bare, and every other type is its Lua path below the root table.
Arrays get brackets, nullable types become unions with `nil`, and pointers are opaque.
-/
import LuaTypings.Builtin
import LuaTypings.HostName
import LuaTypings.RenderError

namespace LuaTypings

/-- The names that matter to the spelling of types. -/
structure Spelling where
  /-- What stands in front of the path of every user type. -/
  root : String
  /-- The generic parameters in scope. -/
  scope : List String := []
  deriving Repr

namespace Spelling

/-! ### Unions -/

/-- Adds the alternative `nil`, unless it is there already or everything is admitted. -/
def orNil (lua : String) : String :=
  if lua = "any" ∨ "|nil".toList.isSuffixOf lua.toList then lua else lua ++ "|nil"

/-- Puts a union in parentheses. -/
def grouped (lua : String) : String :=
  if '|' ∈ lua.toList then "(" ++ lua ++ ")" else lua

/-- The generic name that makes its argument nullable, in its four spellings. -/
def nullableNames : List String :=
  ["Nullable", "System.Nullable", "Nullable\x601", "System.Nullable\x601"]

/-- Whether a name is a spelling of the generic nullable type. -/
def isNullableName (name : String) : Bool := nullableNames.contains name

/-! ### Types -/

/-- The Lua path of a user type, below the root table. -/
def path (s : Spelling) (name : String) : String := s.root ++ HostName.luaPath name

/-- A name without arguments. -/
def simpleName (s : Spelling) (name : String) : String :=
  if s.scope.contains name then name
  else match Builtin.ofHost? name with
    | some b => b.spelling
    | none => s.path name

mutual

/-- The annotation for a type expression. -/
def type (s : Spelling) : HostType → String
  | .named name [] => s.simpleName name
  | .named name [arg] =>
    if isNullableName name then orNil (s.type arg)
    else s.path name ++ "<" ++ s.type arg ++ ">"
  | .named name (arg :: args) =>
    s.path name ++ "<" ++ String.intercalate ", " (s.type arg :: s.types args) ++ ">"
  | .array element rank =>
    grouped (s.type element) ++ String.join (List.replicate rank "[]")
  | .nullable inner => orNil (s.type inner)
  | .pointer _ => "any"

/-- The annotations for several type expressions. -/
def types (s : Spelling) : List HostType → List String
  | [] => []
  | t :: ts => s.type t :: s.types ts

end

/-! ### Display strings -/

/-- The type that a display string denotes. -/
def parse (display : String) : Except RenderError HostType :=
  match HostType.parse display with
  | .ok t => .ok t
  | .error fault => .error (.malformedType display fault)

/-- The annotation for a result: none for `void`. -/
def result (s : Spelling) (display : String) : Except RenderError (Option String) :=
  if Builtin.isVoid display then .ok none
  else match parse display with
    | .ok t => .ok (some (s.type t))
    | .error e => .error e

/-- The annotation for a value: `nil` for `void`. -/
def value (s : Spelling) (display : String) : Except RenderError String :=
  match s.result display with
  | .ok (some lua) => .ok lua
  | .ok none => .ok "nil"
  | .error e => .error e

/-- The annotations for several values; the first error wins. -/
def values (s : Spelling) : List String → Except RenderError (List String)
  | [] => .ok []
  | d :: ds =>
    match s.value d with
    | .error e => .error e
    | .ok lua =>
      match s.values ds with
      | .error e => .error e
      | .ok luas => .ok (lua :: luas)

end Spelling

end LuaTypings
