/-
LuaTypings/Proofs/Chunk/Refusals.lean

A chunk writer whose files cannot always be written.  `FickleTree` is a file tree that may refuse
any attempt to write, in whatever pattern; its verdicts are part of the state.  A `Session` is a
writer on such a tree, and its calls append blocks and flush.  What a flush can do is said once
(`flush_cases`): there is nothing to write, the next chunk is written, or nothing changes.

A writer that stays intact (`IsIntact`) has numbered its chunks from zero, its index is the next
number, and its buffer begins with the header.  Each chunk can be read back: header first, and then a
body that is not empty.  One call keeps this and adds at most its block (`isIntact_next`), and so do
several (`isIntact_foldl`).

Main result: `keeps_blocks`.
-/
import LuaTypings.Proofs.Chunk

namespace LuaTypings

/-! ### A tree that may refuse -/

/-- A file tree that may refuse to write.  Each attempt takes the next verdict; without a
verdict there is no refusal. -/
structure FickleTree where
  files : FileTree := {}
  /-- Why the next attempts are refused, or none for one that is not. -/
  verdicts : List (Option FileError) := []

instance : FileStore (StateM FickleTree) where
  createDirs path := fun t =>
    match t.files.createDirs path with
    | (result, files) => (result, { t with files })
  write path text := fun t =>
    match t.verdicts.head?.join with
    | some e => (.error e, { t with verdicts := t.verdicts.tail })
    | none =>
      match t.files.write path text with
      | .ok files => (.ok (), { files, verdicts := t.verdicts.tail })
      | .error e => (.error e, { t with verdicts := t.verdicts.tail })
  read path := fun t => (t.files.read path, t)

/-- An attempt to write a file writes it or leaves the files as they are. -/
theorem put_cases (t : FickleTree) (path text : String) :
    (∃ l verdicts, t.files.fileAt? path = some l ∧
      (FileStore.put path text : StateM FickleTree _) t =
        (.ok (), ⟨t.files.set l (.file text), verdicts⟩)) ∨
    ∃ e verdicts, (FileStore.put path text : StateM FickleTree _) t =
      (.error e, ⟨t.files, verdicts⟩) := by
  rcases hverdict : t.verdicts.head?.join with - | e
  · rcases hwrite : t.files.write path text with e | files
    · right
      refine ⟨.write path e, t.verdicts.tail, ?_⟩
      simp only [FileStore.put, bind, StateT.bind, FileStore.write, hverdict, hwrite]
      rfl
    · left
      obtain ⟨l, hl⟩ := FileTree.fileAt?_of_write hwrite
      rw [FileTree.write_of_fileAt? hl] at hwrite
      refine ⟨l, t.verdicts.tail, hl, ?_⟩
      simp only [FileStore.put, bind, StateT.bind, FileStore.write, hverdict,
        FileTree.write_of_fileAt? hl]
      rfl
  · right
    refine ⟨.write path e, t.verdicts.tail, ?_⟩
    simp only [FileStore.put, bind, StateT.bind, FileStore.write, hverdict]
    rfl

namespace ChunkWriter

/-- What a flush does: there is nothing to write, or the next chunk is written, or nothing but
the verdicts changes. -/
theorem flush_cases (w : ChunkWriter) (t : FickleTree) :
    (w.hasContent = false ∧ (w.flush : StateM FickleTree _) t = ((.ok (), w), t)) ∨
    (w.hasContent = true ∧ ∃ l verdicts, t.files.fileAt? w.next.path = some l ∧
      (w.flush : StateM FickleTree _) t =
        ((.ok (), w.advance), ⟨t.files.set l (.file w.next.text), verdicts⟩)) ∨
    ∃ e verdicts, (w.flush : StateM FickleTree _) t = ((.error e, w), ⟨t.files, verdicts⟩) := by
  unfold flush
  split_ifs with hcontent
  · rcases put_cases t w.next.path w.next.text with ⟨l, verdicts, hl, hput⟩ | ⟨e, verdicts, hput⟩
    · refine Or.inr (Or.inl ⟨hcontent, l, verdicts, hl, ?_⟩)
      simp only [bind, StateT.bind, hput]
      rfl
    · refine Or.inr (Or.inr ⟨e, verdicts, ?_⟩)
      simp only [bind, StateT.bind, hput]
      rfl
  · exact Or.inl ⟨by simpa using hcontent, rfl⟩

/-! ### Writers that are intact -/

/-- The chunks of a writer are numbered from zero, and its index is the next number.  Its buffer and
each chunk begin with the header, no chunk has an empty body, and each of them is in the tree. -/
structure IsIntact (dir stem : String) (w : ChunkWriter) (t : FileTree) : Prop where
  numbered : w.Numbered dir stem
  headed : w.Headed
  read : ∀ c ∈ w.files, t.read c.path = .ok (Annotations.metaHeader ++ c.body)

variable {dir stem : String} {w : ChunkWriter} {t : FileTree}

/-- The chunk that is due has the next number, the header, and the pending blocks. -/
theorem IsIntact.next_eq (h : IsIntact dir stem w t) :
    w.next = ⟨pathOf dir stem w.files.length, Annotations.metaHeader ++ w.pending⟩ := by
  rw [← h.numbered.path_next, ← h.headed.buffer]
  rfl

theorem IsIntact.push (h : IsIntact dir stem w t) (block : String) :
    IsIntact dir stem (w.push block) t :=
  ⟨(isKept_numbered dir stem).push block h.numbered, isKept_headed.push block h.headed, h.read⟩

/-- A chunk that is written leaves those before it as they are. -/
theorem IsIntact.advance (h : IsIntact dir stem w t) (hcontent : w.hasContent = true)
    {l : Location} (hl : t.fileAt? w.next.path = some l) :
    IsIntact dir stem w.advance (t.set l (.file w.next.text)) where
  numbered := (isKept_numbered dir stem).advance hcontent h.numbered
  headed := isKept_headed.advance hcontent h.headed
  read c hc := by
    rcases List.mem_append.mp hc with hc | hc
    · -- it has a smaller number, so it is another file
      have hpath : c.path ∈ w.paths := List.mem_map_of_mem hc
      rw [h.numbered.paths_eq] at hpath
      obtain ⟨i, hi, hpathOf⟩ := List.mem_map.mp hpath
      have hne : w.files.length ≠ i := Nat.ne_of_gt (List.mem_range.mp hi)
      refine FileTree.read_set_of_ne hl ?_ (h.read c hc)
      rw [h.numbered.path_next] at hl
      rw [← hpathOf]
      exact apart_pathOf t dir stem hne l hl
    · rw [List.mem_singleton.mp hc, FileTree.read_set hl]
      exact congrArg Except.ok h.headed.buffer

/-- A flush keeps the writer intact and its contents as they are. -/
theorem isIntact_flush {t : FickleTree} (h : IsIntact dir stem w t.files) :
    IsIntact dir stem ((w.flush : StateM FickleTree _) t).1.2
        ((w.flush : StateM FickleTree _) t).2.files ∧
      ((w.flush : StateM FickleTree _) t).1.2.contents = w.contents := by
  rcases flush_cases w t with ⟨-, hflush⟩ | ⟨hcontent, l, verdicts, hl, hflush⟩ |
    ⟨e, verdicts, hflush⟩
  · rw [hflush]
    exact ⟨h, rfl⟩
  · rw [hflush]
    exact ⟨h.advance hcontent hl, contents_advance w⟩
  · rw [hflush]
    exact ⟨h, rfl⟩

/-- A block that is pushed is added to the contents, whether it can be written or not. -/
theorem isIntact_pushAndFlush {t : FickleTree} (h : IsIntact dir stem w t.files) (block : String) :
    IsIntact dir stem ((w.pushAndFlush block : StateM FickleTree _) t).1.2
        ((w.pushAndFlush block : StateM FickleTree _) t).2.files ∧
      ((w.pushAndFlush block : StateM FickleTree _) t).1.2.contents = w.contents ++ block := by
  rw [← contents_push h.headed]
  unfold pushAndFlush
  split_ifs
  · exact isIntact_flush (h.push block)
  · exact ⟨h.push block, rfl⟩

end ChunkWriter

/-! ### Sessions -/

/-- What is asked of a chunk writer. -/
inductive ChunkCall where
  | append (block : String)
  | flush

/-- What a call does. -/
def ChunkCall.perform {m : Type → Type} [Monad m] [FileStore m] (w : ChunkWriter) :
    ChunkCall → m (Except DumpError Unit × ChunkWriter)
  | .append block => w.append block
  | .flush => w.flush

/-- A chunk writer at work on a tree that may refuse. -/
structure Session where
  writer : ChunkWriter
  tree : FickleTree

namespace Session

/-- The result of a call. -/
def result (s : Session) (c : ChunkCall) : Except DumpError Unit :=
  ((c.perform s.writer : StateM FickleTree _) s.tree).1.1

/-- The session after a call, also one that has failed. -/
def next (s : Session) (c : ChunkCall) : Session where
  writer := ((c.perform s.writer : StateM FickleTree _) s.tree).1.2
  tree := ((c.perform s.writer : StateM FickleTree _) s.tree).2

/-- Whether there is no room for a block: the pending ones have to be written before, and
cannot be. -/
def isStuck (s : Session) (block : String) : Bool :=
  s.writer.isFullFor block && !(s.result .flush).isOk

/-- The blocks that a call takes. -/
def taken (s : Session) : ChunkCall → List String
  | .append block => if s.isStuck block then [] else [block]
  | .flush => []

/-- The blocks that several calls take. -/
def takenAll (s : Session) : List ChunkCall → List String
  | [] => []
  | c :: cs => s.taken c ++ (s.next c).takenAll cs

variable {s : Session} {block : String} {dir stem : String}

/-- A flush that succeeds has written the buffer, if there was anything in it. -/
theorem next_flush_of_ok (h : s.result .flush = .ok ()) :
    (s.next .flush).writer = s.writer.settled := by
  simp only [result, ChunkCall.perform] at h
  simp only [next, ChunkCall.perform, ChunkWriter.settled]
  rcases s.writer.flush_cases s.tree with ⟨hcontent, hflush⟩ | ⟨hcontent, l, verdicts, -, hflush⟩ |
    ⟨e, verdicts, hflush⟩
  · rw [hflush, hcontent]
    rfl
  · rw [hflush, hcontent]
    rfl
  · rw [hflush] at h
    cases h

/-- A flush that fails leaves the writer and the files as they are. -/
theorem next_flush_of_error {e : DumpError} (h : s.result .flush = .error e) :
    (s.next .flush).writer = s.writer ∧ (s.next .flush).tree.files = s.tree.files := by
  simp only [result, ChunkCall.perform] at h
  simp only [next, ChunkCall.perform]
  rcases s.writer.flush_cases s.tree with ⟨-, hflush⟩ | ⟨-, l, verdicts, -, hflush⟩ |
    ⟨e', verdicts, hflush⟩
  · -- with nothing pending and with a chunk written there is no error
    rw [hflush] at h
    cases h
  · rw [hflush] at h
    cases h
  · rw [hflush]
    exact ⟨rfl, rfl⟩

theorem isStuck_iff : s.isStuck block = true ↔
    s.writer.isFullFor block = true ∧ ∃ e, s.result .flush = .error e := by
  rw [isStuck, Bool.and_eq_true]
  rcases s.result .flush with e | _
  · simp [Except.isOk, Except.toBool]
  · simp [Except.isOk, Except.toBool]

/-- A writer without room for a block keeps what it has, and says why. -/
theorem next_append_of_stuck (h : s.isStuck block = true) :
    s.result (.append block) = s.result .flush ∧
      (s.next (.append block)).writer = s.writer ∧
      (s.next (.append block)).tree.files = s.tree.files := by
  obtain ⟨hfull, e, herror⟩ := isStuck_iff.mp h
  obtain ⟨hwriter, hfiles⟩ := next_flush_of_error herror
  have happend : (s.writer.append block : StateM FickleTree _) s.tree =
      ((.error e, s.writer), (s.next .flush).tree) := by
    unfold ChunkWriter.append
    rw [if_pos hfull]
    rcases hflush : (s.writer.flush : StateM FickleTree _) s.tree with ⟨⟨r, w⟩, t⟩
    simp only [result, next, ChunkCall.perform, hflush] at herror hwriter ⊢
    simp only [bind, StateT.bind, hflush, herror, hwriter]
    rfl
  refine ⟨?_, ?_, ?_⟩
  · rw [herror, result, ChunkCall.perform, happend]
  · rw [next, ChunkCall.perform, happend]
  · rw [next, ChunkCall.perform, happend]
    exact hfiles

/-- One call keeps the writer intact, and adds the block that it takes to the contents. -/
theorem isIntact_next (h : s.writer.IsIntact dir stem s.tree.files) (c : ChunkCall) :
    (s.next c).writer.IsIntact dir stem (s.next c).tree.files ∧
      (s.next c).writer.contents = s.writer.contents ++ String.join (s.taken c) := by
  cases c with
  | flush =>
    rw [taken, String.join_nil, String.append_empty]
    exact ChunkWriter.isIntact_flush h
  | append block =>
    rw [taken]
    split_ifs with hstuck
    · -- nothing is pushed
      obtain ⟨-, hwriter, hfiles⟩ := next_append_of_stuck hstuck
      rw [hwriter, hfiles, String.join_nil, String.append_empty]
      exact ⟨h, rfl⟩
    · rw [String.join_cons, String.join_nil, String.append_empty]
      unfold next ChunkCall.perform ChunkWriter.append
      dsimp only
      split_ifs with hfull
      · -- the pending blocks are written before, and then the block is pushed
        obtain ⟨hintact, hcontents⟩ := ChunkWriter.isIntact_flush h
        rcases hflush : (s.writer.flush : StateM FickleTree _) s.tree with ⟨⟨e | _, w⟩, t⟩
        · refine absurd (isStuck_iff.mpr ⟨hfull, e, ?_⟩) hstuck
          rw [result, ChunkCall.perform, hflush]
        · rw [hflush] at hintact hcontents
          rw [← hcontents]
          simp only [bind, StateT.bind, hflush]
          exact ChunkWriter.isIntact_pushAndFlush hintact block
      · exact ChunkWriter.isIntact_pushAndFlush h block

/-- Several calls keep the writer intact, and add the blocks that they take. -/
theorem isIntact_foldl (h : s.writer.IsIntact dir stem s.tree.files) (calls : List ChunkCall) :
    (calls.foldl next s).writer.IsIntact dir stem (calls.foldl next s).tree.files ∧
      (calls.foldl next s).writer.contents =
        s.writer.contents ++ String.join (s.takenAll calls) := by
  induction calls generalizing s with
  | nil => exact ⟨h, by simp [takenAll]⟩
  | cons c calls ih =>
    obtain ⟨hintact, hcontents⟩ := isIntact_next h c
    obtain ⟨hintact', hcontents'⟩ := ih hintact
    refine ⟨hintact', ?_⟩
    rw [List.foldl_cons, hcontents', hcontents, takenAll, String.join_append, String.append_assoc]

/-- A session that begins: nothing is pending, and no chunk is written. -/
def start (dir stem : String) (threshold : Nat) (tree : FickleTree) : Session :=
  ⟨{ dir, stem, threshold }, tree⟩

theorem isIntact_start (dir stem : String) (threshold : Nat) (tree : FickleTree) :
    (start dir stem threshold tree).writer.IsIntact dir stem tree.files :=
  ⟨ChunkWriter.numbered_start dir stem threshold, ChunkWriter.headed_start dir stem threshold,
    List.forall_mem_nil _⟩

/-- **Nothing is lost when files cannot be written.**  After any calls, whatever attempts are
refused, the chunks are numbered from zero and can be read back, none is empty, the index is the next
number, and the buffer begins with the header.  So the chunk that is due has the next number, and below
its header are the pending blocks.  The bodies with these behind them are the blocks that have been
taken, in their order.  A flush that succeeds has written the chunk that is due, if there is anything
in it, and leaves nothing pending; one that fails leaves the writer as it is.  So does an append that has
to write the pending blocks before and cannot; any other append takes its block. -/
theorem keeps_blocks (dir stem : String) (threshold : Nat) (tree : FickleTree)
    (calls : List ChunkCall) :
    let s := calls.foldl next (start dir stem threshold tree)
    s.writer.IsIntact dir stem s.tree.files ∧
    s.writer.next = ⟨ChunkWriter.pathOf dir stem s.writer.files.length,
      Annotations.metaHeader ++ s.writer.pending⟩ ∧
    String.join (s.writer.files.map ChunkFile.body) ++ s.writer.pending =
      String.join ((start dir stem threshold tree).takenAll calls) ∧
    (s.result .flush = .ok () →
      (s.next .flush).writer.buffer = Annotations.metaHeader ∧
        (s.next .flush).writer.files =
          s.writer.files ++ if s.writer.pending = "" then [] else [s.writer.next]) ∧
    (∀ e, s.result .flush = .error e → (s.next .flush).writer = s.writer) ∧
    (∀ block e, s.writer.isFullFor block = true → s.result .flush = .error e →
      s.taken (.append block) = [] ∧ s.result (.append block) = .error e ∧
        (s.next (.append block)).writer = s.writer) ∧
    ∀ block, (s.writer.isFullFor block = true → s.result .flush = .ok ()) →
      s.taken (.append block) = [block] := by
  intro s
  obtain ⟨hintact, hcontents⟩ := isIntact_foldl (isIntact_start dir stem threshold tree) calls
  have hstart := ChunkWriter.contents_start dir stem threshold
  rw [start, hstart, String.empty_append] at hcontents
  refine ⟨hintact, hintact.next_eq, hcontents, ?written, fun e he => (next_flush_of_error he).1,
    ?stuck, ?taken⟩
  case written =>
    intro hok
    rw [next_flush_of_ok hok]
    exact ⟨hintact.headed.buffer_settled, hintact.headed.files_settled⟩
  case stuck =>
    intro block e hfull herror
    have hstuck : s.isStuck block = true := isStuck_iff.mpr ⟨hfull, e, herror⟩
    obtain ⟨hresult, hwriter, -⟩ := next_append_of_stuck hstuck
    exact ⟨by rw [taken, if_pos hstuck], hresult.trans herror, hwriter⟩
  case taken =>
    intro block hroom
    rw [taken, if_neg]
    rw [isStuck_iff]
    rintro ⟨hfull, e, herror⟩
    rw [hroom hfull] at herror
    cases herror

-- The first attempt to write and the fourth are refused: a block is offered again, and one that
-- is taken waits for the flush.
example :
    let s := start "out" "x" 14
      ⟨⟨[(["out"], .directory)]⟩, [some .notFound, none, none, some .notFound]⟩
    let calls := [.append "abcd", .append "efgh", .append "efgh", .append "ijklmn", .flush]
    s.takenAll calls = ["abcd", "efgh", "ijklmn"] ∧
      (calls.foldl next s).writer.files.map ChunkFile.body = ["abcd", "efgh", "ijklmn"] := by
  decide +kernel

end Session

end LuaTypings
