/-
LuaTypings/RunError.lean

What ends a run, and how it is told: first what could not be done, then why, down to the words
of the system.
-/
import LuaTypings.Catalog.Decode
import LuaTypings.DumpError
import LuaTypings.Settings
import LuaTypings.Text.Quoted

namespace LuaTypings

/-- Why a run ends without a result. -/
inductive RunError where
  /-- The file of the catalog cannot be read. -/
  | readCatalog (path : String) (cause : FileError)
  /-- The file holds no catalog. -/
  | badCatalog (path : String) (cause : CatalogError)
  /-- The annotations of one binding cannot be written. -/
  | dump (flavor : Flavor) (cause : DumpError)
  /-- The directory of a file cannot be made. -/
  | createDir (path : String) (cause : FileError)
  /-- A file cannot be written. -/
  | write (path : String) (cause : FileError)
  /-- The configuration file cannot be read. -/
  | readConfig (path : String) (cause : FileError)
  /-- The configuration file is none. -/
  | badConfig (path : String)
  /-- The choices make no settings. -/
  | settings (cause : SettingsError)
  deriving DecidableEq, Repr

namespace RunError

open Text (quoted)

/-- What could not be done. -/
def message : RunError → String
  | readCatalog path _ => "Failed to load catalog " ++ quoted path
  | badCatalog path _ => "Failed to load catalog " ++ quoted path
  | dump flavor _ => "Failed to dump " ++ flavor.name ++ " annotations"
  | createDir path _ => "Failed to create directory " ++ quoted path
  | write path _ => "Failed to write " ++ quoted path
  | readConfig path _ => "Failed to read config file: " ++ quoted path
  | badConfig path => "Failed to parse config file: " ++ quoted path
  | settings cause => cause.message

/-- Why it could not be done, nearest cause first. -/
def causes : RunError → List String
  | readCatalog path cause =>
    ["Failed to read catalog " ++ path ++ ": " ++ cause.message, cause.message]
  | badCatalog _ cause => [cause.message]
  | dump _ cause => [cause.message, cause.cause]
  | createDir _ cause => [cause.message]
  | write _ cause => [cause.message]
  | readConfig _ cause => [cause.message]
  | badConfig _ => []
  | settings _ => []

/-- The whole story. -/
def chain (e : RunError) : List String := e.message :: e.causes

end RunError

end LuaTypings
