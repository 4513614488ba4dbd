/-
LuaTypings/Catalog/Basic.lean

A catalog: the declarations that an analyzer exports, in order, and how many symbols it
looked at.  A declaration without a name cannot be written anywhere, so a catalog with one
is refused; the first such declaration is the one that is reported.
-/
import LuaTypings.Declaration
import LuaTypings.Text.Blank

namespace LuaTypings

/-- What an analyzer hands over. -/
structure Catalog where
  types : List Declaration
  /-- The symbols that the analyzer looked at, exported or not. -/
  analyzedSymbols : UInt64 := 0
  deriving DecidableEq, Repr

namespace Catalog

/-- The first declaration with a blank name, and its position counted from `start`. -/
def blankFrom (start : Nat) : List Declaration → Option (Kind × Nat)
  | [] => none
  | d :: ds => if Text.isBlankText d.name then some (d.kind, start) else blankFrom (start + 1) ds

/-- The first declaration with a blank name, and its position. -/
def firstBlank? (c : Catalog) : Option (Kind × Nat) := blankFrom 0 c.types

end Catalog

end LuaTypings
