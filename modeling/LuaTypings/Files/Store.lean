/-
LuaTypings/Files/Store.lean

What the program asks of the world: directories, files and a log.  Code that needs files is
written over any monad with a `FileStore`, so that it runs on the real files as well as on a
tree in memory.  Every operation may fail, and says why.
-/

namespace LuaTypings

/-- Why an operation on files fails. -/
inductive FileError where
  | notFound
  /-- Something is there already. -/
  | occupied
  | notDirectory
  | isDirectory
  | nameTooLong
  /-- The path holds the null character. -/
  | nullInPath
  /-- Anything else, in the words of the system. -/
  | other (text : String)
  deriving DecidableEq, Repr

/-- The text of an error. -/
def FileError.message : FileError → String
  | .notFound => "No such file or directory (os error 2)"
  | .occupied => "File exists (os error 17)"
  | .notDirectory => "Not a directory (os error 20)"
  | .isDirectory => "Is a directory (os error 21)"
  | .nameTooLong => "File name too long (os error 36)"
  | .nullInPath => "file name contained an unexpected NUL byte"
  | .other text => text

/-- Directories and files. -/
class FileStore (m : Type → Type) where
  /-- Creates a directory and those that it is in; one that is there is fine. -/
  createDirs : String → m (Except FileError Unit)
  /-- Creates a file with this text or replaces its text. -/
  write : String → String → m (Except FileError Unit)
  /-- The text of a file. -/
  read : String → m (Except FileError String)

/-- How important an event is. -/
inductive Level where
  | info
  | warn
  | error
  deriving DecidableEq, Repr

/-- The word for a level. -/
def Level.word : Level → String
  | .info => "INFO"
  | .warn => "WARN"
  | .error => "ERROR"

/-- An event of a run. -/
structure Event where
  level : Level
  message : String
  deriving DecidableEq, Repr

/-- A log of events. -/
class EventLog (m : Type → Type) where
  /-- Adds an event at the end. -/
  record : Event → m Unit

namespace EventLog

variable {m : Type → Type} [EventLog m]

/-- Records that something is done. -/
def info (message : String) : m Unit := record ⟨.info, message⟩

/-- Records that something is left out. -/
def warn (message : String) : m Unit := record ⟨.warn, message⟩

/-- Records that something has failed. -/
def error (message : String) : m Unit := record ⟨.error, message⟩

end EventLog

end LuaTypings
