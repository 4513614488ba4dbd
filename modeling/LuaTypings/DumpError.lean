/-
LuaTypings/DumpError.lean

What ends a dump: a directory or a file that cannot be made.  A declaration that cannot be
rendered ends nothing; its error is wrapped where one declaration is all that was asked for.
-/
import LuaTypings.Files.Store
import LuaTypings.RenderError

namespace LuaTypings

/-- Why annotations cannot be written. -/
inductive DumpError where
  /-- The output directory cannot be made. -/
  | createDir (path : String) (cause : FileError)
  /-- A file cannot be written. -/
  | write (path : String) (cause : FileError)
  /-- The one declaration that was asked for cannot be rendered. -/
  | render (cause : RenderError)
  deriving DecidableEq, Repr

namespace DumpError

/-- The text of an error. -/
def message : DumpError → String
  | createDir path cause => "Failed to create output directory " ++ path ++ ": " ++ cause.message
  | write path cause => "Failed to write " ++ path ++ ": " ++ cause.message
  | render cause => "Format error: " ++ cause.message

/-- The text of what is behind an error. -/
def cause : DumpError → String
  | createDir _ cause => cause.message
  | write _ cause => cause.message
  | render cause => cause.message

end DumpError

/-- Writes a file, or says which one cannot be written. -/
def FileStore.put {m : Type → Type} [Monad m] [FileStore m] (path text : String) :
    m (Except DumpError Unit) := do
  match ← FileStore.write path text with
  | .ok () => return .ok ()
  | .error e => return .error (.write path e)

end LuaTypings
