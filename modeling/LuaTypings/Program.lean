/-
LuaTypings/Program.lean

What the program does on request.  A dump takes its settings from the configuration file and
the command line, and writes a report if it is asked to.
-/
import LuaTypings.CommandLine
import LuaTypings.Config
import LuaTypings.Run

namespace LuaTypings.Program

open Text (quoted)

/-- How the program ends. -/
inductive Ending where
  | done
  /-- The usage is explained, as it was asked for. -/
  | help
  /-- The command line is wrong. -/
  | wrong
  | failed (e : RunError)
  deriving DecidableEq, Repr

namespace Ending

/-- The status that the program gives back. -/
def code : Ending → Nat
  | done => 0
  | help => 0
  | wrong => 2
  | failed _ => 1

/-- The ending of a run. -/
def ofResult {α : Type} : Except RunError α → Ending
  | .ok _ => done
  | .error e => failed e

/-- What a failed run says first. -/
def failure (e : RunError) : String := "Error: " ++ e.message

end Ending

variable {m : Type → Type} [Monad m] [FileStore m] [EventLog m]

/-- What a configuration file chooses; nothing, if there is none. -/
def loadConfig : Option String → m (Except RunError Choices)
  | none => return .ok {}
  | some path => do
    match ← FileStore.read path with
    | .error e => return .error (.readConfig path e)
    | .ok text =>
      match Config.ofText? text with
      | none => return .error (.badConfig path)
      | some choices => return .ok choices

/-- Writes the report of a run, if a path for it is given. -/
def reportTo (summary : Summary) : Option String → m (Except RunError Unit)
  | none => return .ok ()
  | some path => Run.writeReport summary path

/-- The message about a run that is complete. -/
def doneMessage (settings : Settings) (s : Summary) : String :=
  "Done: " ++ toString s.definitions ++ " type definitions, " ++ toString s.filesWritten
    ++ " files in " ++ quoted settings.directory

/-- A dump with these settings, and its report. -/
def dumpWith (settings : Settings) (input : String) (report : Option String) :
    m (Except RunError Unit) := do
  match ← Run.dump input settings with
  | .error e => return .error e
  | .ok summary =>
    match ← reportTo summary report with
    | .error e => return .error e
    | .ok () =>
      EventLog.info (doneMessage settings summary)
      return .ok ()

/-- A dump with the settings that a file and the command line choose. -/
def dump (input : String) (config report : Option String) (choices : Choices) :
    m (Except RunError Unit) := do
  match ← loadConfig config with
  | .error e => return .error e
  | .ok file =>
    match Settings.resolve file choices with
    | .error e => return .error (.settings e)
    | .ok settings => dumpWith settings input report

/-- Does what is asked for. -/
def answer : CommandLine.Request → m Ending
  | .help => return .help
  | .wrong => return .wrong
  | .dump input config report choices => do
    return .ofResult (← dump input config report choices)
  | .merge input output => do return .ofResult (← Run.merge input output)

/-- The variable that names a configuration file. -/
def configVariable : String := "EMMYDUMP_CONFIG"

/-- Does what a command line asks for. -/
def run (environment : Option String) (args : List String) : m Ending :=
  answer (CommandLine.parse environment args)

end LuaTypings.Program
