/-
LuaTypings/RenderError.lean

What keeps a declaration from being rendered.  It is either a display string that denotes no
type or an empty name, and it costs no more than the one declaration.
-/
import LuaTypings.HostType.Parser

namespace LuaTypings

/-- The kinds of names that must not be empty. -/
inductive NameKind where
  | type
  | field
  | method
  | delegate
  deriving DecidableEq, Repr

/-- The word for a kind of name in messages. -/
def NameKind.word : NameKind → String
  | .type => "type"
  | .field => "field"
  | .method => "method"
  | .delegate => "delegate"

/-- Why a declaration cannot be rendered. -/
inductive RenderError where
  /-- A display string that denotes no type. -/
  | malformedType (display : String) (fault : HostType.Fault)
  /-- A name that is empty. -/
  | emptyName (kind : NameKind)
  deriving DecidableEq, Repr

/-- The text of the error. -/
def RenderError.message : RenderError → String
  | .malformedType display fault => "Malformed type '" ++ display ++ "': " ++ fault.reason
  | .emptyName kind => "Empty " ++ kind.word ++ " name"

end LuaTypings
