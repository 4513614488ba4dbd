/-
LuaTypings/Dump.lean

Writes the annotations of a catalog for one binding.  Every declaration is entered into the
namespace index, everything that it mentions is recorded, and its block goes to the chunks;
then follow the index and the stubs of what is mentioned but not declared.  A declaration that
cannot be rendered is left out and reported.  A file that cannot be written ends the dump.
-/
import LuaTypings.Block
import LuaTypings.Chunk
import LuaTypings.NamespaceIndex
import LuaTypings.References

namespace LuaTypings

/-! ### What is reported -/

/-- A declaration that is left out. -/
structure Skipped where
  kind : Kind
  fullName : String
  location : Option String
  error : RenderError
  deriving DecidableEq, Repr

namespace Skipped

/-- A declaration and why it cannot be rendered. -/
def of (d : Declaration) (error : RenderError) : Skipped :=
  ⟨d.kind, d.fullName, d.header.location, error⟩

/-- The warning about a declaration that is left out. -/
def warning (s : Skipped) : String :=
  "Skipping " ++ s.kind.word ++ " " ++ s.fullName
    ++ " (" ++ s.location.getD "unknown location" ++ "): " ++ s.error.message

end Skipped

/-- What a dump has done. -/
structure DumpReport where
  flavor : Flavor
  /-- The number of declarations in the chunks. -/
  emitted : Nat
  /-- The number of declarations that are left out. -/
  failed : Nat
  /-- The declarations that are left out, in their order. -/
  skipped : List Skipped
  /-- The paths of the chunks. -/
  files : List String
  namespaceFile : String
  /-- The number of names in the namespace index. -/
  namespaceCount : Nat
  stubFile : String
  /-- The names that have stubs. -/
  missing : List String
  deriving DecidableEq, Repr

namespace Dump

/-- The message about a dump that is complete. -/
def doneMessage (r : DumpReport) : String :=
  r.flavor.name ++ ": emitted " ++ toString r.emitted ++ " types into "
    ++ toString r.files.length ++ " files, " ++ toString r.failed ++ " failed, "
    ++ toString r.missing.length ++ " unexported references"

/-- The message about a dump that has ended early. -/
def abortMessage (f : Flavor) (emitted files : Nat) (e : DumpError) : String :=
  f.name ++ ": aborted after " ++ toString emitted ++ " types (" ++ toString files
    ++ " files written): " ++ e.message

/-! ### The two other files -/

section

variable {m : Type → Type} [Monad m] [FileStore m]

/-- The path of the namespace index. -/
def namespacePath (f : Flavor) (dir : String) : String :=
  Path.join dir (f.name ++ "_namespace.lua")

/-- Writes the namespace index and gives its path. -/
def writeNamespaces (f : Flavor) (dir : String) (index : NamespaceIndex) :
    m (Except DumpError String) := do
  let path := namespacePath f dir
  match ← FileStore.put path (index.text f.root) with
  | .ok () => return .ok path
  | .error e => return .error e

/-- Writes the stubs of missing types to a file and gives its path. -/
def writeStubs (root dir file : String) (references : References) :
    m (Except DumpError String) := do
  let path := Path.join dir file
  match ← FileStore.put path (references.stubText root) with
  | .ok () => return .ok path
  | .error e => return .error e

/-- The name of the file with the stubs. -/
def stubFile (f : Flavor) : String := f.name ++ "_unexported.lua"

end

/-! ### The declarations -/

/-- How far a dump is. -/
structure Progress where
  index : NamespaceIndex := {}
  references : References := {}
  writer : ChunkWriter
  /-- The number of declarations that the writer has taken. -/
  emitted : Nat := 0
  /-- The number of chunks that were written when the writer had taken the last one. -/
  counted : Nat := 0
  /-- The number of declarations that are left out. -/
  failed : Nat := 0
  skipped : List Skipped := []
  deriving DecidableEq, Repr

namespace Progress

/-- The beginning of a dump: all declarations are known. -/
def start (f : Flavor) (threshold : Nat) (dir : String) (types : List Declaration) : Progress :=
  { references := References.declare {} types, writer := { dir, stem := f.name, threshold } }

/-- Enters a declaration into the index and records what it mentions. -/
def survey (p : Progress) (d : Declaration) : Progress :=
  { p with index := p.index.register d.space d.name, references := p.references.mentionAll d }

/-- The writer has taken a declaration. -/
def took (p : Progress) (writer : ChunkWriter) : Progress :=
  { p with writer, emitted := p.emitted + 1, counted := writer.files.length }

/-- A declaration is left out. -/
def skip (p : Progress) (s : Skipped) : Progress :=
  { p with failed := p.failed + 1, skipped := p.skipped ++ [s] }

end Progress

variable {m : Type → Type} [Monad m] [FileStore m] [EventLog m]

/-- One declaration. -/
def takeOne (f : Flavor) (d : Declaration) (p : Progress) :
    m (Except DumpError Unit × Progress) := do
  let p := p.survey d
  match Block.render f d with
  | .error e =>
    let s := Skipped.of d e
    EventLog.warn s.warning
    return (.ok (), p.skip s)
  | .ok block =>
    match ← p.writer.append block with
    | (.ok (), writer) => return (.ok (), p.took writer)
    | (.error e, writer) => return (.error e, { p with writer })

/-- All declarations, until one of them ends the dump. -/
def takeAll (f : Flavor) : List Declaration → Progress → m (Except DumpError Unit × Progress)
  | [], p => return (.ok (), p)
  | d :: ds, p => do
    match ← takeOne f d p with
    | (.ok (), p) => takeAll f ds p
    | (.error e, p) => return (.error e, p)

/-- Writes the last chunk, and counts it. -/
def finishChunks (p : Progress) : m (Except DumpError Unit × Progress) := do
  match ← p.writer.flush with
  | (.ok (), writer) => return (.ok (), { p with writer, counted := writer.files.length })
  | (.error e, writer) => return (.error e, { p with writer })

/-- Writes the index and the stubs, and reports on everything. -/
def finish (f : Flavor) (dir : String) (p : Progress) : m (Except DumpError DumpReport) := do
  match ← writeNamespaces f dir p.index with
  | .error e => return .error e
  | .ok namespaceFile =>
    match ← writeStubs f.root dir (stubFile f) p.references with
    | .error e => return .error e
    | .ok stubs =>
      return .ok
        { flavor := f
          emitted := p.emitted
          failed := p.failed
          skipped := p.skipped
          files := p.writer.paths
          namespaceFile
          namespaceCount := p.index.size
          stubFile := stubs
          missing := p.references.missing }

/-- All files of a dump into a directory that is there. -/
def writeFiles (f : Flavor) (dir : String) (types : List Declaration) (p : Progress) :
    m (Except DumpError DumpReport × Progress) := do
  match ← takeAll f types p with
  | (.error e, p) => return (.error e, p)
  | (.ok (), p) =>
    match ← finishChunks p with
    | (.error e, p) => return (.error e, p)
    | (.ok (), p) => return (← finish f dir p, p)

/-- Makes the directory and writes all files. -/
def perform (f : Flavor) (dir : String) (types : List Declaration) (p : Progress) :
    m (Except DumpError DumpReport × Progress) := do
  match ← FileStore.createDirs dir with
  | .error e => return (.error (.createDir dir e), p)
  | .ok () => writeFiles f dir types p

/-- Dumps declarations for a binding, and logs how it ended. -/
def run (f : Flavor) (threshold : Nat) (dir : String) (types : List Declaration) :
    m (Except DumpError DumpReport) := do
  match ← perform f dir types (.start f threshold dir types) with
  | (.ok report, _) =>
    EventLog.info (doneMessage report)
    return .ok report
  | (.error e, p) =>
    EventLog.error (abortMessage f p.emitted p.counted e)
    return .error e

end Dump

end LuaTypings
