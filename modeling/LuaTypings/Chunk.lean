/-
LuaTypings/Chunk.lean

Files of bounded size.  Blocks are collected in a buffer until the next one would take it past the
threshold; then the buffer is written to a file and begun anew.  It always begins with the header,
so a writer has something to write exactly if its buffer is larger than that.  A block is never
cut, so one that is larger than the threshold fills a file of its own.  No block is lost or written
twice: what stands below the headers of the files that are written, and then of the buffer, are the
blocks in their order.  A file that cannot be written leaves everything in the buffer.
-/
import LuaTypings.Annotations
import LuaTypings.DumpError
import LuaTypings.Files.Path

namespace LuaTypings

/-- A chunk that is written: where it is, and its text with the header. -/
structure ChunkFile where
  path : String
  text : String
  deriving DecidableEq, Repr

/-- Chunks that are written one after the other. -/
structure ChunkWriter where
  /-- The directory of the chunks. -/
  dir : String
  /-- How the name of every chunk begins. -/
  stem : String
  /-- The number of bytes that a chunk of several blocks must not exceed. -/
  threshold : Nat
  /-- The text of the next chunk: the header, and the blocks that wait. -/
  buffer : String := Annotations.metaHeader
  /-- The number of the next chunk. -/
  nextIndex : Nat := 0
  /-- The chunks that are written. -/
  files : List ChunkFile := []
  deriving DecidableEq, Repr

namespace ChunkWriter

/-- The path of a chunk by its number. -/
def pathOf (dir stem : String) (index : Nat) : String :=
  Path.join dir (stem ++ "_dump_" ++ toString index ++ ".lua")

/-- The chunk that the buffer would make. -/
def next (w : ChunkWriter) : ChunkFile := ⟨pathOf w.dir w.stem w.nextIndex, w.buffer⟩

/-- The paths of the chunks that are written. -/
def paths (w : ChunkWriter) : List String := w.files.map ChunkFile.path

/-- The size of the buffer, in bytes. -/
def size (w : ChunkWriter) : Nat := w.buffer.utf8ByteSize

/-- Whether there is more in the buffer than the header. -/
def hasContent (w : ChunkWriter) : Bool := Annotations.metaHeader.utf8ByteSize < w.size

/-- Whether a block of this size has to go to another chunk than those in the buffer. -/
def isFullFor (w : ChunkWriter) (block : String) : Bool :=
  w.hasContent && w.threshold < w.size + block.utf8ByteSize

/-- The writer after the next chunk is written: the buffer is begun anew. -/
def advance (w : ChunkWriter) : ChunkWriter :=
  { w with
    buffer := Annotations.metaHeader
    nextIndex := w.nextIndex + 1
    files := w.files ++ [w.next] }

/-- The writer with one more block in the buffer. -/
def push (w : ChunkWriter) (block : String) : ChunkWriter := { w with buffer := w.buffer ++ block }

variable {m : Type → Type} [Monad m] [FileStore m]

/-- Writes the buffer, if there is content. -/
def flush (w : ChunkWriter) : m (Except DumpError Unit × ChunkWriter) := do
  if w.hasContent then
    match ← FileStore.put w.next.path w.next.text with
    | .ok () => return (.ok (), w.advance)
    | .error e => return (.error e, w)
  else return (.ok (), w)

/-- Takes a block, and writes the buffer as soon as it exceeds the threshold. -/
def pushAndFlush (w : ChunkWriter) (block : String) : m (Except DumpError Unit × ChunkWriter) :=
  let w := w.push block
  if w.threshold < w.size then w.flush else return (.ok (), w)

/-- Appends a block.  If it does not fit to those in the buffer, these are written before. -/
def append (w : ChunkWriter) (block : String) : m (Except DumpError Unit × ChunkWriter) := do
  if w.isFullFor block then
    match ← w.flush with
    | (.ok (), w) => w.pushAndFlush block
    | (.error e, w) => return (.error e, w)
  else w.pushAndFlush block

end ChunkWriter

end LuaTypings
