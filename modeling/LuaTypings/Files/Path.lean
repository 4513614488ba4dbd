/-
LuaTypings/Files/Path.lean

Paths as texts.  A path is a sequence of pieces between slashes; an empty piece, and a single
dot that is not the first piece, are no components of it.  The ancestors of a path are the
path itself, the path cut behind each component but the last, and the directory that it starts
from.
-/
import LuaTypings.Text.Pieces

namespace LuaTypings.Path

/-- The pieces between the slashes. -/
def pieces (cs : List Char) : List (List Char) := Text.pieces '/' cs

/-- A path below another one.  An absolute path stays what it is, and nothing is put in front
of a path below the empty one. -/
def join (base path : String) : String :=
  if path.toList.head? = some '/' ∨ base.isEmpty then path
  else if base.toList.getLast? = some '/' then base ++ path
  else base ++ "/" ++ path

/-- Whether a piece is a component; `isFirst` says that nothing stands in front of it. -/
def isComponent (piece : List Char) (isFirst : Bool) : Bool :=
  !piece.isEmpty && (isFirst || piece != ['.'])

/-- The paths that end with one of the components, where the pieces are given last first. -/
def ancestorsOf : List (List Char) → List (List Char)
  | [] => []
  | piece :: before =>
    let above := ancestorsOf before
    if isComponent piece before.isEmpty then
      ['/'].intercalate (piece :: before).reverse :: above
    else above

/-- A path and its ancestors, innermost first. -/
def ancestors (path : String) : List String :=
  let start := if path.toList.head? = some '/' then "/" else ""
  path :: ((ancestorsOf (pieces path.toList).reverse).map String.ofList ++ [start]).drop 1

/-- The directory that a path is in. -/
def parent? (path : String) : Option String := (ancestors path)[1]?

end LuaTypings.Path
