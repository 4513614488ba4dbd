/-
LuaTypings/Config.lean

The configuration file: a TOML document with the sections `output` and `flavors`.  A key that
means nothing is refused.  A section may also be a list of its values in the order of their
keys; what is missing there is not chosen, and further items are ignored.
-/
import LuaTypings.Settings
import LuaTypings.Toml.Parser

namespace LuaTypings.Config

/-- A path. -/
def path? : Toml → Option String
  | .string s => some s
  | _ => none

/-- A number of units that is not negative. -/
def count? : Toml → Option UInt64
  | .integer n => if 0 ≤ n then some (UInt64.ofNat n.toNat) else none
  | _ => none

/-- Whether a value holds nothing. -/
def holdsNothing : Toml → Bool
  | .array items => items.isEmpty
  | .inlineTable entries => entries.isEmpty
  | .table _ entries => entries.isEmpty
  | .tables elements => elements.isEmpty
  | _ => false

/-- A binding that is the only key of a table, with nothing as its value. -/
def soleFlavor? : Toml.Entries → Option Flavor
  | [(name, content)] => if holdsNothing content then Flavor.ofName? name else none
  | _ => none

/-- A binding: its name, or its name as the only key of a table. -/
def flavor? : Toml → Option Flavor
  | .string s => Flavor.ofName? s
  | .inlineTable entries => soleFlavor? entries
  | _ => none

/-- Several bindings. -/
def flavors? : Toml → Option (List Flavor)
  | .array items => items.mapM flavor?
  | .tables elements => elements.mapM soleFlavor?
  | _ => none

/-- The entries of a table. -/
def entries? : Toml → Option Toml.Entries
  | .inlineTable entries => some entries
  | .table _ entries => some entries
  | _ => none

/-- One entry of the section on output. -/
def addOutput (c : Choices) (e : String × Toml) : Option Choices :=
  if e.1 = "directory" then (path? e.2).map fun s => { c with directory := some s }
  else if e.1 = "chunk_threshold_kib" then (count? e.2).map fun n => { c with thresholdKib := some n }
  else none

/-- One entry of the section on bindings. -/
def addFlavors (c : Choices) (e : String × Toml) : Option Choices :=
  if e.1 = "enabled" then (flavors? e.2).map fun fs => { c with flavors := fs }
  else none

/-- A section, as a table or as a list of the values of its keys. -/
def addSection (keys : List String) (add : Choices → String × Toml → Option Choices) (c : Choices) :
    Toml → Option Choices
  | .array items => (keys.zip items).foldlM add c
  | v => (entries? v).bind fun es => es.foldlM add c

/-- One section. -/
def add (c : Choices) (e : String × Toml) : Option Choices :=
  if e.1 = "output" then addSection ["directory", "chunk_threshold_kib"] addOutput c e.2
  else if e.1 = "flavors" then addSection ["enabled"] addFlavors c e.2
  else none

/-- What a configuration file chooses, if its text is one. -/
def ofText? (text : String) : Option Choices :=
  (Toml.document? text).bind fun es => es.foldlM add {}

end LuaTypings.Config
