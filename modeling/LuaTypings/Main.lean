/-
LuaTypings/Main.lean

The program on the real files.  Events go to the standard output, what is wrong goes to the
standard error, and the status says how it ended.
-/
import LuaTypings.Program

namespace LuaTypings

/-- Why the system refuses an operation on files. -/
def FileError.ofSystem : IO.Error → FileError
  | .noFileOrDirectory .. => .notFound
  | .alreadyExists .. => .occupied
  | .inappropriateType _ 20 _ => .notDirectory
  | .inappropriateType _ 21 _ => .isDirectory
  | e => .other (toString e)

/-- An operation on files whose failure is a result. -/
def attempt {α : Type} (act : IO α) : IO (Except FileError α) := do
  match ← act.toBaseIO with
  | .ok a => return .ok a
  | .error e => return .error (.ofSystem e)

instance : FileStore IO where
  createDirs path := if path.isEmpty then return .ok () else attempt (IO.FS.createDirAll path)
  write path text := attempt (IO.FS.writeFile path text)
  read path := attempt (IO.FS.readFile path)

instance : EventLog IO where
  record event := IO.println (event.level.word ++ " " ++ event.message)

namespace Program

/-- The usage of the program. -/
def usage : String := String.intercalate "\n"
  ["Generate EmmyLua annotations for xLua and toLua bindings", "",
   "Usage: emmydump [OPTIONS] <COMMAND>", "",
   "Commands:",
   "  dump   Merge generic instances and write annotation files",
   "  merge  Merge generic instances only and write the resulting catalog",
   "  help   Print this message or the help of the given subcommand(s)", "",
   "Options:",
   "  -v, --verbose  Enable verbose output",
   "  -d, --debug    Enable debug output",
   "  -h, --help     Print help"]

/-- Tells the user how the program ended. -/
def tell : Ending → IO Unit
  | .done => return ()
  | .help => IO.println usage
  | .wrong => IO.eprintln usage
  | .failed e => IO.eprintln (Ending.failure e)

end Program

end LuaTypings

open LuaTypings in
/-- Runs the program. -/
def main (args : List String) : IO UInt32 := do
  let ending ← Program.run (← IO.getEnv Program.configVariable) args
  Program.tell ending
  return UInt32.ofNat ending.code
