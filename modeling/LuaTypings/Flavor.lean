/-
LuaTypings/Flavor.lean

The two Lua bindings that annotations are written for, and where their conventions differ.
xLua keeps all host types below one root table and makes an instance by calling the class;
toLua makes every type a global table with a function `New`.
-/

namespace LuaTypings

/-- A Lua binding. -/
inductive Flavor where
  | xlua
  | tolua
  deriving DecidableEq, Repr

/-- How the table of a type is declared. -/
inductive TableScope where
  /-- As a local variable with the last segment of the type's path. -/
  | localTable
  /-- As a global table with the type's full path. -/
  | globalTable
  deriving DecidableEq, Repr

/-- Where the value of an enumeration member comes from. -/
inductive MemberValue where
  /-- From the captured literal, or from the position if none was captured. -/
  | constant
  /-- From the position. -/
  | ordinal
  deriving DecidableEq, Repr

/-- What a binding decides. -/
structure Conventions where
  /-- The root table in front of every type path, with its dot. -/
  root : String
  tables : TableScope
  /-- Whether a class gets a function that makes an instance. -/
  hasFactory : Bool
  members : MemberValue
  deriving DecidableEq, Repr

namespace Flavor

/-- The bindings in the order in which they are written by default. -/
def all : List Flavor := [.xlua, .tolua]

/-- The name of a binding, which also starts the names of its files. -/
def name : Flavor → String
  | .xlua => "xlua"
  | .tolua => "tolua"

/-- The decisions of a binding. -/
def conventions : Flavor → Conventions
  | .xlua => ⟨"CS.", .localTable, false, .constant⟩
  | .tolua => ⟨"", .globalTable, true, .ordinal⟩

/-- The root table of a binding. -/
def root (f : Flavor) : String := f.conventions.root

/-- The binding with exactly this name. -/
def ofName? (name : String) : Option Flavor := all.find? fun f => f.name = name

/-- The binding with this name, ASCII capitals read as small letters. -/
def ofText? (text : String) : Except String Flavor :=
  let lower := String.ofList (text.toList.map Char.toLower)
  match ofName? lower with
  | some f => .ok f
  | none => .error lower

/-- The message for a name that is no binding's. -/
def unknownMessage (lower : String) : String :=
  "unknown flavor '" ++ lower ++ "' (expected xlua or tolua)"

end Flavor

end LuaTypings
