/-
LuaTypings/Settings.lean

The settings of a run.  They are chosen in a configuration file and on the command line, where
a choice on the command line goes before the same choice in the file.  Without an output
directory there are no settings; everything else has a default.
-/
import LuaTypings.Flavor

namespace LuaTypings

/-- What a file or a command line chooses. -/
structure Choices where
  directory : Option String := none
  /-- The size of a chunk in units of 1024 bytes. -/
  thresholdKib : Option UInt64 := none
  flavors : List Flavor := []
  deriving DecidableEq, Repr

/-- What a run needs to know. -/
structure Settings where
  directory : String
  /-- The size of a chunk in bytes. -/
  threshold : Nat
  flavors : List Flavor
  deriving DecidableEq, Repr

/-- Why choices make no settings. -/
inductive SettingsError where
  | noDirectory
  | zeroThreshold
  | hugeThreshold (kib : UInt64)
  deriving DecidableEq, Repr

/-- The text of an error. -/
def SettingsError.message : SettingsError → String
  | .noDirectory => "No output directory given (use --output or [output] directory)"
  | .zeroThreshold => "chunk threshold must be at least 1 KiB"
  | .hugeThreshold kib => "chunk threshold of " ++ toString kib ++ " KiB is too large"

namespace Settings

/-- The size of a chunk in bytes, where none is chosen. -/
def defaultThreshold : Nat := 512000

/-- The number of sizes that there are: a size is a 64-bit word. -/
def sizes : Nat := 18446744073709551616

/-- The size of a chunk in bytes. -/
def thresholdOf : Option UInt64 → Except SettingsError Nat
  | none => .ok defaultThreshold
  | some kib =>
    if kib = 0 then .error .zeroThreshold
    else if kib.toNat * 1024 < sizes then .ok (kib.toNat * 1024)
    else .error (.hugeThreshold kib)

/-- The first list that is not empty, each binding once. -/
def flavorsOf (first second : List Flavor) : List Flavor :=
  (if !first.isEmpty then first else if !second.isEmpty then second else Flavor.all).eraseDups

/-- The settings that a file and a command line choose. -/
def resolve (file line : Choices) : Except SettingsError Settings :=
  match line.directory.or file.directory with
  | none => .error .noDirectory
  | some directory =>
    match thresholdOf (line.thresholdKib.or file.thresholdKib) with
    | .error e => .error e
    | .ok threshold => .ok ⟨directory, threshold, flavorsOf line.flavors file.flavors⟩

end Settings

end LuaTypings
