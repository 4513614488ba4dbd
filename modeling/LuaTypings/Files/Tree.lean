/-
LuaTypings/Files/Tree.lean

A file tree in memory.  An entry is known by its location, the names from the root down to
it; the root itself is always a directory.  A path is followed piece by piece: what it goes
through must be there and be a directory, a dot stays and two dots go up, at the root to the
root itself.  `World` is such a tree with a log, and every operation on files is a function on
it.

There are directories and text files and nothing else.  Links, permissions and special files are
left out: an entry has one location, and whether it can be read or written depends on the path and
on the directories and files that are there.
-/
import LuaTypings.Files.Path
import LuaTypings.Files.Store

namespace LuaTypings

/-- What is at a location. -/
inductive FileEntry where
  | directory
  | file (text : String)
  deriving DecidableEq, Repr

/-- The names from the root down. -/
abbrev Location := List String

/-- Entries below the root, at most one for each location that counts: the first. -/
structure FileTree where
  entries : List (Location × FileEntry) := []
  deriving DecidableEq, Repr

namespace FileTree

/-- What is at a location. -/
def get? (t : FileTree) (l : Location) : Option FileEntry :=
  if l.isEmpty then some .directory else t.entries.lookup l

/-- Puts an entry at a location; the order of the other entries stays. -/
def set (t : FileTree) (l : Location) (e : FileEntry) : FileTree :=
  ⟨(l, e) :: t.entries.filter fun p => p.1 != l⟩

/-! ### Following a path -/

/-- The longest name of an entry, in bytes. -/
def maxNameBytes : Nat := 255

/-- The longest path, in bytes. -/
def maxPathBytes : Nat := 4095

/-- Looks for a name in a directory. -/
def find (t : FileTree) (here : Location) (name : String) : Except FileError (Option FileEntry) :=
  if maxNameBytes < name.utf8ByteSize then .error .nameTooLong
  else .ok (t.get? (here ++ [name]))

/-- Goes from a directory through one piece of a path, which must lead to a directory. -/
def through (t : FileTree) (here : Location) (piece : String) : Except FileError Location :=
  if piece = "." then .ok here
  else if piece = ".." then .ok here.dropLast
  else match t.find here piece with
    | .error e => .error e
    | .ok (some .directory) => .ok (here ++ [piece])
    | .ok (some (.file _)) => .error .notDirectory
    | .ok none => .error .notFound

/-- Goes through several pieces. -/
def throughAll (t : FileTree) (here : Location) : List String → Except FileError Location
  | [] => .ok here
  | piece :: rest =>
    match t.through here piece with
    | .ok next => t.throughAll next rest
    | .error e => .error e

/-- Where a path ends: in a directory that it names by dots or as the root, or at a name in a
directory, where the path may end with a slash. -/
inductive Target where
  | directory (here : Location)
  | entry (parent : Location) (name : String) (hasSlash : Bool)
  deriving DecidableEq, Repr

/-- Follows a path to its end, which need not be there: nobody has looked for its name. -/
def follow (t : FileTree) (path : String) : Except FileError Target :=
  if '\x00' ∈ path.toList then .error .nullInPath
  else if path.isEmpty then .error .notFound
  else if maxPathBytes < path.utf8ByteSize then .error .nameTooLong
  else
    let pieces := ((Path.pieces path.toList).filter (!·.isEmpty)).map String.ofList
    match pieces.getLast? with
    | none => .ok (.directory [])
    | some last =>
      match t.throughAll [] pieces.dropLast with
      | .error e => .error e
      | .ok parent =>
        if last = "." then .ok (.directory parent)
        else if last = ".." then .ok (.directory parent.dropLast)
        else .ok (.entry parent last (path.toList.getLast? == some '/'))

/-! ### Operations -/

/-- Creates one directory. -/
def createDir (t : FileTree) (path : String) : Except FileError FileTree :=
  match t.follow path with
  | .error e => .error e
  | .ok (.directory _) => .error .occupied
  | .ok (.entry parent name _) =>
    match t.find parent name with
    | .error e => .error e
    | .ok (some _) => .error .occupied
    | .ok none => .ok (t.set (parent ++ [name]) .directory)

/-- Whether a path leads to a directory. -/
def isDir (t : FileTree) (path : String) : Bool :=
  match t.follow path with
  | .error _ => false
  | .ok (.directory _) => true
  | .ok (.entry parent name _) => t.get? (parent ++ [name]) = some .directory

/-- Creates a directory, unless it is there. -/
def ensureDir (t : FileTree) (path : String) : Except FileError FileTree :=
  match t.createDir path with
  | .ok t => .ok t
  | .error e => if t.isDir path then .ok t else .error e

/-- Creates the first of several directories, each in the next one, and first those that it
needs.  The tree is what has been created, also when that was not enough. -/
def createAll (t : FileTree) : List String → Except FileError Unit × FileTree
  | [] => (.ok (), t)
  | path :: above =>
    if path.isEmpty then (.ok (), t)
    else match t.createDir path with
      | .ok t => (.ok (), t)
      | .error .notFound =>
        match t.createAll above with
        | (.error e, t) => (.error e, t)
        | (.ok (), t) =>
          match t.ensureDir path with
          | .ok t => (.ok (), t)
          | .error e => (.error e, t)
      | .error e => (if t.isDir path then .ok () else .error e, t)

/-- Creates a directory and those that it is in. -/
def createDirs (t : FileTree) (path : String) : Except FileError Unit × FileTree :=
  t.createAll (Path.ancestors path)

/-- Creates a file or replaces its text.  A path with a slash at its end is refused before
anyone looks for its name. -/
def write (t : FileTree) (path text : String) : Except FileError FileTree :=
  match t.follow path with
  | .error e => .error e
  | .ok (.directory _) => .error .isDirectory
  | .ok (.entry parent name hasSlash) =>
    if hasSlash then .error .isDirectory
    else match t.find parent name with
      | .error e => .error e
      | .ok (some .directory) => .error .isDirectory
      | .ok _ => .ok (t.set (parent ++ [name]) (.file text))

/-- The text of a file. -/
def read (t : FileTree) (path : String) : Except FileError String :=
  match t.follow path with
  | .error e => .error e
  | .ok (.directory _) => .error .isDirectory
  | .ok (.entry parent name hasSlash) =>
    match t.find parent name with
    | .error e => .error e
    | .ok none => .error .notFound
    | .ok (some .directory) => .error .isDirectory
    | .ok (some (.file text)) => if hasSlash then .error .notDirectory else .ok text

end FileTree

/-! ### The world in memory -/

/-- A file tree and a log, last event first. -/
structure World where
  files : FileTree := {}
  log : List Event := []
  deriving DecidableEq, Repr

instance : FileStore (StateM World) where
  createDirs path := fun w =>
    match w.files.createDirs path with
    | (result, files) => (result, { w with files })
  write path text := fun w =>
    match w.files.write path text with
    | .ok files => (.ok (), { w with files })
    | .error e => (.error e, w)
  read path := fun w => (w.files.read path, w)

instance : EventLog (StateM World) where
  record event := fun w => ((), { w with log := event :: w.log })

end LuaTypings
