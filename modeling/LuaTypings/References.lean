/-
LuaTypings/References.lean

Which types are declared and which are only mentioned.  A type that is mentioned without
being declared gets a stub, so that the annotations never name an unknown type.  Names are
compared by their Lua paths.
-/
import LuaTypings.Annotations
import LuaTypings.BaseName

namespace LuaTypings

/-- The declared types, and the mentioned ones that are not declared, each once and in the
order in which they were met. -/
structure References where
  declared : List String := []
  missing : List String := []
  deriving DecidableEq, Repr

namespace References

/-- Adds a name at the end, unless it is there. -/
def insertNew (names : List String) (name : String) : List String :=
  if names.contains name then names else names ++ [name]

/-- The Lua path of a declaration. -/
def pathOf (d : Declaration) : String := HostName.luaPath d.fullName

/-- Adds the paths of declarations. -/
def declare (r : References) (types : List Declaration) : References :=
  { r with declared := (types.map pathOf).foldl insertNew r.declared }

/-- Whether a name needs no declaration: it is empty, a builtin type or a parameter in scope. -/
def isExempt (scope : List String) (name : String) : Bool :=
  name.isEmpty || (Builtin.ofHost? name).isSome || scope.contains name

/-- Whether mentioning a type with these parameters in scope adds a missing name. -/
def isNew (r : References) (scope : List String) (display : String) : Bool :=
  let name := baseName display
  !isExempt scope name && !r.declared.contains name && !r.missing.contains name

/-- Records a mentioned type. -/
def mention (r : References) (scope : List String) (display : String) : References :=
  if r.isNew scope display then { r with missing := r.missing ++ [baseName display] } else r

/-- Records everything that a declaration mentions. -/
def mentionAll (r : References) (d : Declaration) : References :=
  d.mentions.foldl (fun r display => r.mention d.scope display) r

/-- Whether the type that a display string is built on is declared. -/
def isDeclared (r : References) (display : String) : Bool := r.declared.contains (baseName display)

/-- The stub of a missing type: an empty class and its table. -/
def stubLines (root name : String) : List String :=
  ["---@class " ++ root ++ name, root ++ name ++ " = \x7b\x7d"]

/-- The text of all stubs; it is empty if nothing is missing. -/
def stubText (r : References) (root : String) : String :=
  if r.missing.isEmpty then ""
  else Annotations.metaHeader ++ Annotations.unlines (r.missing.flatMap (stubLines root))

end References

end LuaTypings
