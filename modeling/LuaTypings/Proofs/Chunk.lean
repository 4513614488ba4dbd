/-
LuaTypings/Proofs/Chunk.lean

What a chunk writer does if every file can be written.  `settled`, `pushed` and `taken` are the
writers behind a flush, a pushed block and an appended one.  What a pushed block and a written chunk
keep is kept by all of them (`IsKept`): that the chunks are numbered from zero and the index is the
next number (`Numbered`), and that the header stands in front of the buffer and of every chunk
(`Headed`).  Each action writes the chunks by which the writer grows (`adds_append`), and where the
header stands in front, a block is added to the contents and nowhere cut (`contents_taken`).
-/
import LuaTypings.Chunk
import LuaTypings.Proofs.Files.Writes

namespace LuaTypings

/-! ### Headers -/

/-- What stands below the header in a text that begins with it. -/
def belowHeader (text : String) : String :=
  String.ofList (text.toList.drop Annotations.metaHeader.toList.length)

theorem belowHeader_append (body : String) : belowHeader (Annotations.metaHeader ++ body) = body := by
  rw [belowHeader, String.toList_append, List.drop_left, String.ofList_toList]

theorem belowHeader_metaHeader : belowHeader Annotations.metaHeader = "" := by
  simpa using belowHeader_append ""

/-- A chunk as a file. -/
def ChunkFile.output (c : ChunkFile) : TextFile := ⟨c.path, c.text⟩

/-- What stands below the header of a chunk. -/
def ChunkFile.body (c : ChunkFile) : String := belowHeader c.text

namespace ChunkWriter

/-- The blocks that wait in the buffer. -/
def pending (w : ChunkWriter) : String := belowHeader w.buffer

/-! ### Writers behind an action -/

/-- The writer when the buffer is written. -/
def settled (w : ChunkWriter) : ChunkWriter := if w.hasContent then w.advance else w

/-- The writer when a block is pushed, and written if it exceeds the threshold. -/
def pushed (w : ChunkWriter) (block : String) : ChunkWriter :=
  let w := w.push block
  if w.threshold < w.size then w.settled else w

/-- The writer when a block is appended. -/
def taken (w : ChunkWriter) (block : String) : ChunkWriter :=
  if w.isFullFor block then w.settled.pushed block else w.pushed block

/-! ### Properties that are kept -/

/-- A property of writers that still holds when a block is pushed and when the pending ones are
written. -/
structure IsKept (P : ChunkWriter → Prop) : Prop where
  push : ∀ {w : ChunkWriter} (block : String), P w → P (w.push block)
  advance : ∀ {w : ChunkWriter}, w.hasContent = true → P w → P w.advance

section IsKept

variable {P : ChunkWriter → Prop} {w : ChunkWriter}

theorem IsKept.settled (hP : IsKept P) (h : P w) : P w.settled := by
  unfold ChunkWriter.settled
  split_ifs with hcontent
  · exact hP.advance hcontent h
  · exact h

theorem IsKept.pushed (hP : IsKept P) (block : String) (h : P w) : P (w.pushed block) := by
  unfold ChunkWriter.pushed
  dsimp only
  split_ifs
  · exact hP.settled (hP.push block h)
  · exact hP.push block h

theorem IsKept.taken (hP : IsKept P) (block : String) (h : P w) : P (w.taken block) := by
  unfold ChunkWriter.taken
  split_ifs
  · exact hP.pushed block (hP.settled h)
  · exact hP.pushed block h

theorem IsKept.foldl (hP : IsKept P) (blocks : List String) (h : P w) :
    P (blocks.foldl ChunkWriter.taken w) := by
  induction blocks generalizing w with
  | nil => exact h
  | cons block blocks ih => exact ih (hP.taken block h)

theorem isKept_threshold (threshold : Nat) : IsKept fun w => w.threshold = threshold where
  push _ h := h
  advance _ h := h

end IsKept

/-! ### Headers in front -/

/-- The buffer is the header and the blocks that wait, and each chunk is the header and a body that
is not empty. -/
structure Headed (w : ChunkWriter) : Prop where
  buffer : w.buffer = Annotations.metaHeader ++ w.pending
  texts : ∀ c ∈ w.files, c.text = Annotations.metaHeader ++ c.body
  bodies : ∀ c ∈ w.files, c.body ≠ ""

section Headed

variable {w : ChunkWriter}

theorem headed_start (dir stem : String) (threshold : Nat) :
    ChunkWriter.Headed { dir, stem, threshold } where
  buffer := by rw [pending, belowHeader_metaHeader, String.append_empty]
  texts := List.forall_mem_nil _
  bodies := List.forall_mem_nil _

theorem Headed.size_eq (h : w.Headed) :
    w.size = Annotations.metaHeader.utf8ByteSize + w.pending.utf8ByteSize := by
  rw [size, h.buffer, String.utf8ByteSize_append]

/-- There is something to write exactly if blocks wait. -/
theorem Headed.hasContent_iff (h : w.Headed) : w.hasContent = true ↔ w.pending ≠ "" := by
  rw [hasContent, decide_eq_true_iff, h.size_eq, Nat.lt_add_right_iff_pos, Nat.pos_iff_ne_zero,
    ne_eq, String.utf8ByteSize_eq_zero_iff]

theorem Headed.hasContent_eq_false_iff (h : w.Headed) : w.hasContent = false ↔ w.pending = "" := by
  rw [← Bool.not_eq_true, h.hasContent_iff, not_ne_iff]

theorem Headed.pending_push (h : w.Headed) (block : String) :
    (w.push block).pending = w.pending ++ block := by
  show belowHeader (w.buffer ++ block) = _
  rw [h.buffer, String.append_assoc, belowHeader_append]

theorem pending_advance (w : ChunkWriter) : w.advance.pending = "" := belowHeader_metaHeader

/-- A block goes behind the header, and a chunk that is written takes the header with it. -/
theorem isKept_headed : IsKept Headed where
  push {w} block h :=
    { buffer := by
        rw [h.pending_push, ← String.append_assoc, ← h.buffer]
        rfl
      texts := h.texts
      bodies := h.bodies }
  advance {w} hcontent h :=
    { buffer := by
        rw [pending_advance, String.append_empty]
        rfl
      texts := List.forall_mem_append.mpr ⟨h.texts, List.forall_mem_singleton.mpr h.buffer⟩
      bodies := List.forall_mem_append.mpr
        ⟨h.bodies, List.forall_mem_singleton.mpr (h.hasContent_iff.mp hcontent)⟩ }

end Headed

/-! ### Files -/

section Adds

variable {σ τ : Type}

/-- An action leads from one state to another and writes the chunks that are new.  `writer` is
the writer in a state. -/
def Adds (writer : σ → ChunkWriter) (x : StateM World (Except DumpError Unit × σ)) (s s' : σ) :
    Prop :=
  ∃ chunks, (writer s').files = (writer s).files ++ chunks ∧
    Writes reached x (chunks.map ChunkFile.output) s'

variable {writer : σ → ChunkWriter} {writer' : τ → ChunkWriter}
  {x : StateM World (Except DumpError Unit × σ)}

/-- An action that writes no file and keeps the chunks adds none. -/
theorem Adds.none {s s' : σ} (hfiles : (writer s').files = (writer s).files)
    (hx : Writes reached x [] s') : Adds writer x s s' :=
  ⟨[], by rw [hfiles, List.append_nil], hx⟩

theorem Adds.state_eq {s s' s'' : σ} {w w' : World} (hx : Adds writer x s s')
    (h : x w = ((.ok (), s''), w')) : s'' = s' := by
  obtain ⟨chunks, -, hwrites⟩ := hx
  exact hwrites.state_eq h

theorem Adds.trans {s s' s'' : σ}
    {k : Except DumpError Unit × σ → StateM World (Except DumpError Unit × σ)}
    (hx : Adds writer x s s') (hk : Adds writer (k (.ok (), s')) s' s'')
    (herror : ∀ e s, k (.error e, s) = pure (.error e, s)) : Adds writer (x >>= k) s s'' := by
  obtain ⟨first, hfirst, hwrites⟩ := hx
  obtain ⟨second, hsecond, hwrites'⟩ := hk
  refine ⟨first ++ second, by rw [hsecond, hfirst, List.append_assoc], ?_⟩
  rw [List.map_append]
  exact hwrites.bindState hwrites' fun e s => ⟨_, herror e s, rfl⟩

/-- What an action adds is what it adds to the state around its own. -/
theorem Adds.around {s s' : σ} {t t' : τ}
    {k : Except DumpError Unit × σ → StateM World (Except DumpError Unit × τ)}
    (hx : Adds writer x s s') (hs : (writer' t).files = (writer s).files)
    (hs' : (writer' t').files = (writer s').files) (hok : k (.ok (), s') = pure (.ok (), t'))
    (herror : ∀ e s, ∃ t, k (.error e, s) = pure (.error e, t)) :
    Adds writer' (x >>= k) t t' := by
  obtain ⟨chunks, hchunks, hwrites⟩ := hx
  refine ⟨chunks, by rw [hs, hs', hchunks], ?_⟩
  rw [← List.append_nil (chunks.map ChunkFile.output)]
  refine hwrites.bindState (hok ▸ Writes.pure rfl) fun e s => ?_
  obtain ⟨t, ht⟩ := herror e s
  exact ⟨_, ht, rfl⟩

end Adds

theorem adds_flush (w : ChunkWriter) : Adds id w.flush w w.settled := by
  unfold flush settled
  split_ifs
  · -- one file, and the writer only changes if it is written
    exact ⟨[w.next], rfl, (Writes.put w.next.path w.next.text).andReturn ⟨_, rfl, rfl⟩
      fun _ => ⟨_, rfl, rfl⟩⟩
  · exact Adds.none rfl (Writes.pure rfl)

theorem adds_pushAndFlush (w : ChunkWriter) (block : String) :
    Adds id (w.pushAndFlush block) w (w.pushed block) := by
  unfold pushAndFlush pushed
  dsimp only
  split_ifs
  · exact adds_flush (w.push block)
  · exact Adds.none rfl (Writes.pure rfl)

theorem adds_append (w : ChunkWriter) (block : String) :
    Adds id (w.append block) w (w.taken block) := by
  unfold append taken
  split_ifs
  · exact (adds_flush w).trans (adds_pushAndFlush w.settled block) fun _ _ => rfl
  · exact adds_pushAndFlush w block

/-! ### Contents -/

section Contents

variable {w : ChunkWriter}

/-- The bodies of the chunks, and then what is pending. -/
def contents (w : ChunkWriter) : String := String.join (w.files.map ChunkFile.body) ++ w.pending

theorem contents_start (dir stem : String) (threshold : Nat) :
    ChunkWriter.contents { dir, stem, threshold } = "" := by
  rw [contents, pending, belowHeader_metaHeader]
  rfl

theorem contents_push (h : w.Headed) (block : String) :
    (w.push block).contents = w.contents ++ block := by
  rw [contents, h.pending_push]
  exact (String.append_assoc ..).symm

theorem contents_advance (w : ChunkWriter) : w.advance.contents = w.contents := by
  rw [contents, pending_advance, String.append_empty]
  show String.join ((w.files ++ [w.next]).map ChunkFile.body) = _
  rw [List.map_append, List.map_singleton, String.join_append, String.join_cons, String.join_nil,
    String.append_empty]
  rfl

theorem contents_settled (w : ChunkWriter) : w.settled.contents = w.contents := by
  unfold settled
  split_ifs
  · exact contents_advance w
  · rfl

theorem contents_pushed (h : w.Headed) (block : String) :
    (w.pushed block).contents = w.contents ++ block := by
  unfold pushed
  dsimp only
  split_ifs
  · rw [contents_settled, contents_push h]
  · exact contents_push h block

/-- A block is added to the contents as it is. -/
theorem contents_taken (h : w.Headed) (block : String) :
    (w.taken block).contents = w.contents ++ block := by
  unfold taken
  split_ifs
  · rw [contents_pushed (isKept_headed.settled h), contents_settled]
  · exact contents_pushed h block

/-- A writer that has settled has nothing pending. -/
theorem pending_settled (h : w.Headed) : w.settled.pending = "" := by
  unfold settled
  split_ifs with hcontent
  · exact pending_advance w
  · exact h.hasContent_eq_false_iff.mp (eq_false_of_ne_true hcontent)

theorem Headed.buffer_settled (h : w.Headed) : w.settled.buffer = Annotations.metaHeader := by
  rw [(isKept_headed.settled h).buffer, pending_settled h, String.append_empty]

/-- What is pending makes one chunk more. -/
theorem Headed.files_settled (h : w.Headed) :
    w.settled.files = w.files ++ if w.pending = "" then [] else [w.next] := by
  unfold settled
  split_ifs with hcontent hnone
  · exact absurd hnone (h.hasContent_iff.mp hcontent)
  · rfl
  · exact (List.append_nil _).symm
  · exact absurd (h.hasContent_iff.mpr ‹_›) hcontent

end Contents

/-! ### Names -/

/-- How the name of a chunk ends. -/
def ending (index : Nat) : String := "_dump_" ++ toString index ++ ".lua"

theorem ending_injective {i j : Nat} (h : ending i = ending j) : i = j := by
  rw [ending, ending, String.append_left_inj, String.append_right_inj] at h
  exact Text.eq_of_toString_eq h

theorem isPiece_ending (index : Nat) : Path.IsPiece (ending index) := by
  have hdigits : '/' ∉ Nat.toDigits 10 index := fun hmem =>
    absurd (Nat.isDigit_of_mem_toDigits (by decide) (by decide) hmem) (by decide)
  constructor <;> simp [ending, hdigits]

theorem pathOf_eq (dir stem : String) (index : Nat) :
    pathOf dir stem index = Path.join dir stem ++ ending index := by
  have hhead : (ending index).toList.head? ≠ some '/' := fun h =>
    (isPiece_ending index).2 (List.mem_of_mem_head? h)
  rw [← Path.join_append dir stem hhead, pathOf, ending]
  simp only [String.append_assoc]

/-- Chunks of different numbers are different files. -/
theorem apart_pathOf (t : FileTree) (dir stem : String) {i j : Nat} (h : i ≠ j) :
    t.Apart (pathOf dir stem i) (pathOf dir stem j) := by
  rw [pathOf_eq, pathOf_eq]
  exact FileTree.apart_append t _ (isPiece_ending i) (isPiece_ending j) (mt ending_injective h)

/-- The chunks of a writer are in a directory and have one stem and their numbers, and the next number
is that behind them. -/
structure Numbered (dir stem : String) (w : ChunkWriter) : Prop where
  dir_eq : w.dir = dir
  stem_eq : w.stem = stem
  index_eq : w.nextIndex = w.files.length
  paths_eq : w.paths = (List.range w.files.length).map (pathOf dir stem)

theorem numbered_start (dir stem : String) (threshold : Nat) :
    ChunkWriter.Numbered dir stem { dir, stem, threshold } := ⟨rfl, rfl, rfl, rfl⟩

/-- The chunk that is due has the number of those that are written. -/
theorem Numbered.path_next {dir stem : String} {w : ChunkWriter} (h : w.Numbered dir stem) :
    w.next.path = pathOf dir stem w.files.length := by
  rw [next, h.dir_eq, h.stem_eq, h.index_eq]

theorem isKept_numbered (dir stem : String) : IsKept (Numbered dir stem) where
  push _ h := ⟨h.dir_eq, h.stem_eq, h.index_eq, h.paths_eq⟩
  advance {w} _ h :=
    { dir_eq := h.dir_eq
      stem_eq := h.stem_eq
      index_eq := by rw [advance, List.length_append, List.length_singleton, h.index_eq]
      paths_eq := by
        show (w.files ++ [w.next]).map ChunkFile.path = _
        rw [advance, List.length_append, List.length_singleton, List.range_succ, List.map_append,
          List.map_append, List.map_singleton, List.map_singleton, h.path_next, ← h.paths_eq]
        rfl }

end ChunkWriter

end LuaTypings
