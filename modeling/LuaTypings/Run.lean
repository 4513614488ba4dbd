/-
LuaTypings/Run.lean

The two things that the program does with a catalog.  A dump merges the generic instances and
writes the annotations for one binding after the other, until one of them fails.  A merge
writes the merged catalog, which is a catalog again.
-/
import LuaTypings.Catalog.Encode
import LuaTypings.Generics
import LuaTypings.RunError
import LuaTypings.Summary

namespace LuaTypings.Run

open Text (quoted)

variable {m : Type → Type} [Monad m] [FileStore m] [EventLog m]

/-! ### Files -/

/-- Reads a catalog. -/
def loadCatalog (path : String) : m (Except RunError Catalog) := do
  match ← FileStore.read path with
  | .error e => return .error (.readCatalog path e)
  | .ok text =>
    match Catalog.ofText text with
    | .error e => return .error (.badCatalog path e)
    | .ok catalog => return .ok catalog

/-- Writes a file, in a directory that is there. -/
def writeText (path text : String) : m (Except RunError Unit) := do
  match ← FileStore.write path text with
  | .error e => return .error (.write path e)
  | .ok () => return .ok ()

/-- Writes a file, and makes its directory before. -/
def writeFile (path text : String) : m (Except RunError Unit) := do
  match (Path.parent? path).filter (!·.isEmpty) with
  | none => writeText path text
  | some parent =>
    match ← FileStore.createDirs parent with
    | .error e => return .error (.createDir parent e)
    | .ok () => writeText path text

/-! ### Dumping -/

/-- The message about bindings that are not reached. -/
def failedMessage (f : Flavor) (done : List DumpReport) (total : Nat) : String :=
  f.name ++ " failed after " ++ toString done.length ++ " of " ++ toString total
    ++ " flavors (" ++ toString (Summary.chunkCount done) ++ " files written so far)"

/-- The messages about a binding that is done. -/
def doneMessages (r : DumpReport) : List String :=
  [r.flavor.name ++ ": generated " ++ toString r.files.length ++ " files",
   r.flavor.name ++ ": " ++ toString r.missing.length ++ " unexported type references"]

/-- Dumps declarations for one binding after the other, behind those that are done. -/
def dumpFlavors (settings : Settings) (types : List Declaration) (done : List DumpReport) :
    List Flavor → m (Except RunError (List DumpReport))
  | [] => return .ok done
  | f :: fs => do
    match ← Dump.run f settings.threshold settings.directory types with
    | .ok report =>
      (doneMessages report).forM EventLog.info
      dumpFlavors settings types (done ++ [report]) fs
    | .error e =>
      EventLog.error (failedMessage f done settings.flavors.length)
      return .error (.dump f e)

/-- The messages about a catalog and what merging makes of it. -/
def mergeMessages (catalog : Catalog) (merged : Generics.Merged) : List String :=
  ["Analyzed " ++ toString catalog.analyzedSymbols ++ " symbols",
   "Produced " ++ toString merged.types.length ++ " type definitions",
   "Merged " ++ toString merged.dropped ++ " generic instances into "
     ++ toString merged.created ++ " definitions"]

/-- Merges and dumps a catalog. -/
def dumpCatalog (path : String) (settings : Settings) (catalog : Catalog) :
    m (Except RunError Summary) := do
  let merged := Generics.merge catalog.types
  (mergeMessages catalog merged).forM EventLog.info
  match ← dumpFlavors settings merged.types [] settings.flavors with
  | .error e => return .error e
  | .ok reports =>
    return .ok
      { catalog := path
        analyzedSymbols := catalog.analyzedSymbols
        catalogTypes := catalog.types.length
        definitions := merged.types.length
        merged := merged.dropped
        reports }

/-- Writes the annotations of a catalog. -/
def dump (path : String) (settings : Settings) : m (Except RunError Summary) := do
  match ← loadCatalog path with
  | .error e => return .error e
  | .ok catalog => dumpCatalog path settings catalog

/-- Writes the report of a run. -/
def writeReport (summary : Summary) (path : String) : m (Except RunError Unit) := do
  match ← writeFile path summary.toJson.pretty with
  | .error e => return .error e
  | .ok () =>
    EventLog.info ("Wrote run report to " ++ quoted path)
    return .ok ()

/-! ### Merging -/

/-- The message about what merging leaves. -/
def remainMessage (merged : Generics.Merged) : String :=
  "Merged " ++ toString merged.dropped ++ " generic instances, "
    ++ toString merged.types.length ++ " type definitions remain"

/-- Writes the merged catalog, and gives the number of instances that were dropped. -/
def mergeCatalog (output : String) (catalog : Catalog) : m (Except RunError Nat) := do
  let merged := Generics.merge catalog.types
  EventLog.info (remainMessage merged)
  match ← writeFile output { catalog with types := merged.types }.toText with
  | .error e => return .error e
  | .ok () =>
    EventLog.info ("Wrote merged catalog to " ++ quoted output)
    return .ok merged.dropped

/-- Merges the catalog in a file. -/
def merge (path output : String) : m (Except RunError Nat) := do
  match ← loadCatalog path with
  | .error e => return .error e
  | .ok catalog => mergeCatalog output catalog

end LuaTypings.Run
