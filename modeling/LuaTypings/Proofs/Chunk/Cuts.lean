/-
LuaTypings/Proofs/Chunk/Cuts.lean

How a chunk writer cuts blocks into chunks.  A cut (`IsCut`) divides the blocks into groups that
follow one another, and each group keeps the threshold or is a single block.  The writer adds a
block to the last group exactly if the group then keeps the threshold, so it stays ahead of
every other cut (`StaysAhead`): it has no more groups, and where it has as many, its last group
is the end of the other one's last group.  One block keeps this (`StaysAhead.extend`,
`StaysAhead.start`, `exists_holds_taken`), and so do all of them (`exists_holds_foldl`).

Main result: `writeBlocks_least`.  Blocks that are empty are left out of it, because the writer
cannot tell an empty block from none.
-/
import LuaTypings.Proofs.Chunk
import Mathlib.Data.List.Forall2
import Mathlib.Data.List.Infix

namespace LuaTypings

/-! ### Cuts -/

/-- The text of a chunk of these blocks. -/
def chunkText (group : List String) : String := Annotations.metaHeader ++ String.join group

/-- The size of a chunk of these blocks, in bytes. -/
def chunkSize (group : List String) : Nat := (chunkText group).utf8ByteSize

/-- Blocks are divided into groups that follow one another.  A group keeps the threshold or is
a single block. -/
structure IsCut (threshold : Nat) (blocks : List String) (groups : List (List String)) : Prop where
  flatten : groups.flatten = blocks
  ne_nil : ∀ g ∈ groups, g ≠ []
  fits : ∀ g ∈ groups, chunkSize g ≤ threshold ∨ g.length = 1

theorem chunkSize_append (group group' : List String) :
    chunkSize (group ++ group') = chunkSize group + (String.join group').utf8ByteSize := by
  simp only [chunkSize, chunkText, String.join_append, String.utf8ByteSize_append, Nat.add_assoc]

/-- A group is at least as large as its end. -/
theorem chunkSize_le_of_suffix {group group' : List String} (h : group <:+ group') :
    chunkSize group ≤ chunkSize group' := by
  obtain ⟨front, rfl⟩ := h
  simp only [chunkSize, chunkText, String.join_append, String.utf8ByteSize_append]
  omega

namespace IsCut

variable {threshold : Nat} {blocks : List String} {groups : List (List String)}
  {group : List String} {block : String}

theorem nil (threshold : Nat) : IsCut threshold [] [] := ⟨rfl, by simp, by simp⟩

/-- What keeps a threshold keeps a higher one. -/
theorem mono (h : IsCut threshold blocks groups) {threshold' : Nat} (hle : threshold ≤ threshold') :
    IsCut threshold' blocks groups where
  flatten := h.flatten
  ne_nil := h.ne_nil
  fits g hg := (h.fits g hg).imp_left fun hsize => Nat.le_trans hsize hle

theorem append (h : IsCut threshold blocks groups) {more : List String}
    {others : List (List String)} (h' : IsCut threshold more others) :
    IsCut threshold (blocks ++ more) (groups ++ others) where
  flatten := by rw [List.flatten_append, h.flatten, h'.flatten]
  ne_nil := List.forall_mem_append.mpr ⟨h.ne_nil, h'.ne_nil⟩
  fits := List.forall_mem_append.mpr ⟨h.fits, h'.fits⟩

theorem singleton (hne : group ≠ []) (hfits : chunkSize group ≤ threshold ∨ group.length = 1) :
    IsCut threshold group [group] := ⟨by simp, by simpa using hne, by simpa using hfits⟩

/-- The groups in front of the last one are a cut of the blocks in front of it. -/
theorem init (h : IsCut threshold blocks (groups ++ [group])) :
    IsCut threshold groups.flatten groups where
  flatten := rfl
  ne_nil g hg := h.ne_nil g (List.mem_append_left _ hg)
  fits g hg := h.fits g (List.mem_append_left _ hg)

/-- A cut of blocks that end with `block` has it alone in the last group, or together with the
end of a cut of the other blocks. -/
theorem exists_of_append (h : IsCut threshold (blocks ++ [block]) groups) :
    ∃ init, (groups = init ++ [[block]] ∧ IsCut threshold blocks init) ∨
      ∃ g, groups = init ++ [g ++ [block]] ∧ chunkSize (g ++ [block]) ≤ threshold ∧
        IsCut threshold blocks (init ++ [g]) := by
  rcases List.eq_nil_or_concat groups with rfl | ⟨init, last, hconcat⟩
  · exact absurd h.flatten (by simp)
  rw [List.concat_eq_append] at hconcat
  subst hconcat
  have hlast : last ∈ init ++ [last] := List.mem_append_right _ (List.mem_singleton_self last)
  rcases List.eq_nil_or_concat last with rfl | ⟨g, b, rfl⟩
  · exact absurd rfl (h.ne_nil [] hlast)
  rw [List.concat_eq_append] at h hlast ⊢
  have hflatten := h.flatten
  rw [List.flatten_append, List.flatten_singleton, ← List.append_assoc,
    List.append_singleton_inj] at hflatten
  obtain ⟨hblocks, rfl⟩ := hflatten
  refine ⟨init, ?_⟩
  by_cases hg : g = []
  · left
    rw [hg, List.append_nil] at hblocks
    rw [hg, List.nil_append]
    exact ⟨rfl, hblocks ▸ h.init⟩
  · -- two blocks and more have to keep the threshold, and so does what is left of them
    right
    have hsize : chunkSize (g ++ [b]) ≤ threshold := by
      refine (h.fits _ hlast).resolve_right fun hone => hg ?_
      simpa using hone
    refine ⟨g, rfl, hsize, ?_⟩
    rw [← hblocks]
    refine h.init.append (singleton hg (Or.inl ?_))
    rw [chunkSize_append] at hsize
    omega

end IsCut

/-! ### Staying ahead -/

/-- A cut into as few groups as can be. -/
structure IsLeastCut (threshold : Nat) (blocks : List String) (groups : List (List String)) : Prop
    extends IsCut threshold blocks groups where
  length_le : ∀ others, IsCut threshold blocks others → groups.length ≤ others.length

/-- A least cut whose last group is as short as can be: where another cut has as many groups,
its last group ends with that of this one. -/
structure StaysAhead (threshold : Nat) (blocks : List String) (groups : List (List String)) : Prop
    extends IsLeastCut threshold blocks groups where
  suffix : ∀ others, IsCut threshold blocks others → groups.length = others.length →
    groups.getLastD [] <:+ others.getLastD []

namespace StaysAhead

variable {threshold : Nat} {blocks : List String} {groups : List (List String)}
  {group : List String} {block : String}

theorem nil (threshold : Nat) : StaysAhead threshold [] [] where
  toIsCut := IsCut.nil threshold
  length_le _ _ := Nat.zero_le _
  suffix _ _ _ := List.nil_suffix

/-- A block joins the last group if the group then keeps the threshold. -/
theorem extend (h : StaysAhead threshold blocks (groups ++ [group]))
    (hsize : chunkSize (group ++ [block]) ≤ threshold) :
    StaysAhead threshold (blocks ++ [block]) (groups ++ [group ++ [block]]) where
  toIsCut := by
    rw [← h.flatten, List.flatten_append, List.flatten_singleton, List.append_assoc]
    exact h.toIsCut.init.append (IsCut.singleton (by simp) (Or.inl hsize))
  length_le others hothers := by
    obtain ⟨init, ⟨rfl, hinit⟩ | ⟨g, rfl, -, hg⟩⟩ := hothers.exists_of_append
    · have hle := h.length_le init hinit
      simp only [List.length_append, List.length_singleton] at hle ⊢
      omega
    · have hle := h.length_le (init ++ [g]) hg
      simpa using hle
  suffix others hothers hlength := by
    obtain ⟨init, ⟨rfl, hinit⟩ | ⟨g, rfl, -, hg⟩⟩ := hothers.exists_of_append
    · -- a cut with the block alone has more groups
      have hle := h.length_le init hinit
      simp only [List.length_append, List.length_singleton] at hle hlength
      omega
    · have hend := h.suffix (init ++ [g]) hg (by simpa using hlength)
      rw [List.getLastD_concat, List.getLastD_concat] at hend ⊢
      exact List.suffix_append_self_iff.mpr hend

/-- A block begins a group if the last group would not keep the threshold with it. -/
theorem start (h : StaysAhead threshold blocks groups)
    (hsize : groups ≠ [] → threshold < chunkSize (groups.getLastD [] ++ [block])) :
    StaysAhead threshold (blocks ++ [block]) (groups ++ [[block]]) where
  toIsCut := h.toIsCut.append (IsCut.singleton (by simp) (Or.inr rfl))
  length_le others hothers := by
    obtain ⟨init, ⟨rfl, hinit⟩ | ⟨g, rfl, hfits, hg⟩⟩ := hothers.exists_of_append
    · simpa using h.length_le init hinit
    · -- with as few groups, the last one would have had room for the block
      have hle := h.length_le (init ++ [g]) hg
      have hne : groups.length ≠ (init ++ [g]).length := by
        intro heq
        have hend := h.suffix (init ++ [g]) hg heq
        rw [List.getLastD_concat] at hend
        have hlast : groups.getLastD [] ++ [block] <:+ g ++ [block] :=
          List.suffix_append_self_iff.mpr hend
        have hsmall := chunkSize_le_of_suffix hlast
        have hsome : groups ≠ [] := by
          rintro rfl
          simp at heq
        have hlarge := hsize hsome
        omega
      simp only [List.length_append, List.length_singleton] at hle hne ⊢
      omega
  suffix others hothers _ := by
    rw [List.getLastD_concat]
    obtain ⟨init, ⟨rfl, -⟩ | ⟨g, rfl, -, -⟩⟩ := hothers.exists_of_append
    · rw [List.getLastD_concat]
    · rw [List.getLastD_concat]
      exact List.suffix_append g [block]

end StaysAhead

/-! ### The groups of a writer -/

namespace ChunkWriter

/-- The groups that a writer has made of the blocks so far. -/
inductive Holds (w : ChunkWriter) : List (List String) → Prop
  /-- All groups are in the chunks, and the last one was too large to wait. -/
  | written {groups} (pending : w.pending = "")
      (bodies : w.files.map ChunkFile.body = groups.map String.join)
      (large : groups ≠ [] → w.threshold < chunkSize (groups.getLastD [])) : w.Holds groups
  /-- The last group is pending. -/
  | pending {groups group} (pending : w.pending = String.join group) (ne : w.pending ≠ "")
      (bodies : w.files.map ChunkFile.body = groups.map String.join) :
      w.Holds (groups ++ [group])

variable {w : ChunkWriter} {blocks : List String} {groups : List (List String)} {block : String}

/-- The bodies of the chunks when the pending blocks are written, too. -/
theorem bodies_settled (hheaded : w.Headed) (h : w.pending ≠ "") :
    w.settled.files.map ChunkFile.body = w.files.map ChunkFile.body ++ [w.pending] := by
  rw [hheaded.files_settled, if_neg h, List.map_append]
  rfl

theorem Holds.bodies_settled (hheaded : w.Headed) (h : w.Holds groups) :
    w.settled.files.map ChunkFile.body = groups.map String.join := by
  cases h with
  | written pending bodies _ =>
    rw [hheaded.files_settled, if_pos pending, List.append_nil, bodies]
  | pending pending ne bodies =>
    rw [ChunkWriter.bodies_settled hheaded ne, bodies, pending, List.map_append, List.map_singleton]

/-- The buffer is a chunk of the blocks that wait in it. -/
theorem size_eq_chunkSize (hheaded : w.Headed) {group : List String}
    (hpending : w.pending = String.join group) : w.size = chunkSize group := by
  rw [size, hheaded.buffer, hpending, chunkSize, chunkText]

/-- A writer with nothing pending begins a group. -/
theorem holds_pushed (hheaded : w.Headed) (hblock : block ≠ "") (hpending : w.pending = "")
    (hbodies : w.files.map ChunkFile.body = groups.map String.join) :
    (w.pushed block).Holds (groups ++ [[block]]) := by
  have hpush : (w.push block).pending = String.join [block] := by
    rw [hheaded.pending_push, hpending]
    simp
  have hcontent : (w.push block).pending ≠ "" := by
    rw [hheaded.pending_push, hpending]
    simpa using hblock
  have hheaded' := isKept_headed.push block hheaded
  have hsize := size_eq_chunkSize hheaded' hpush
  unfold pushed
  dsimp only
  split_ifs with hlarge
  · -- the block is written at once
    refine .written (pending_settled hheaded') ?_ fun _ => ?_
    · rw [ChunkWriter.bodies_settled hheaded' hcontent, hpush, List.map_append, List.map_singleton]
      exact congrArg (· ++ _) hbodies
    · rw [(isKept_threshold _).settled rfl, List.getLastD_concat, ← hsize]
      exact hlarge
  · exact .pending hpush hcontent hbodies

/-- A block that is appended joins the last group or begins one, and the groups stay ahead. -/
theorem exists_holds_taken (hheaded : w.Headed) (h : w.Holds groups)
    (hahead : StaysAhead w.threshold blocks groups) (hblock : block ≠ "") :
    ∃ groups', (w.taken block).Holds groups' ∧
      StaysAhead w.threshold (blocks ++ [block]) groups' := by
  cases h with
  | written pending bodies large =>
    refine ⟨groups ++ [[block]], ?_, hahead.start fun hne => ?_⟩
    · have hempty : w.hasContent = false := hheaded.hasContent_eq_false_iff.mpr pending
      rw [taken, if_neg (by simp [isFullFor, hempty])]
      exact holds_pushed hheaded hblock pending bodies
    · rw [chunkSize_append]
      exact Nat.lt_add_right _ (large hne)
  | @pending groups group pending ne bodies =>
    have hsize : w.size + block.utf8ByteSize = chunkSize (group ++ [block]) := by
      rw [chunkSize_append, ← size_eq_chunkSize hheaded pending]
      simp
    have hfull : w.isFullFor block = true ↔ w.threshold < chunkSize (group ++ [block]) := by
      simp [isFullFor, hheaded.hasContent_iff, ne, hsize]
    unfold taken
    split_ifs with hlarge
    · refine ⟨groups ++ [group] ++ [[block]], ?_, hahead.start fun _ => ?_⟩
      · refine holds_pushed (isKept_headed.settled hheaded) hblock (pending_settled hheaded) ?_
        rw [ChunkWriter.bodies_settled hheaded ne, bodies, pending, List.map_append,
          List.map_singleton]
      · rw [List.getLastD_concat]
        exact hfull.mp hlarge
    · have hroom : chunkSize (group ++ [block]) ≤ w.threshold := Nat.not_lt.mp (mt hfull.mpr hlarge)
      refine ⟨groups ++ [group ++ [block]], ?_, hahead.extend hroom⟩
      have hjoin : (w.push block).pending = String.join (group ++ [block]) := by
        rw [hheaded.pending_push, pending]
        simp
      have hsmall : ¬ (w.push block).threshold < (w.push block).size := by
        -- its buffer is the chunk of the longer group
        rw [size_eq_chunkSize (isKept_headed.push block hheaded) hjoin]
        exact Nat.not_lt.mpr hroom
      unfold pushed
      dsimp only
      rw [if_neg hsmall]
      refine .pending hjoin ?_ bodies
      rw [hheaded.pending_push]
      simp [hblock]

/-- The groups of several blocks. -/
theorem exists_holds_foldl (hheaded : w.Headed) (h : w.Holds groups)
    (hahead : StaysAhead w.threshold blocks groups) {more : List String}
    (hmore : ∀ block ∈ more, block ≠ "") :
    ∃ groups', (more.foldl taken w).Holds groups' ∧
      StaysAhead w.threshold (blocks ++ more) groups' := by
  induction more generalizing w blocks groups with
  | nil => exact ⟨groups, h, by rwa [List.append_nil]⟩
  | cons block more ih =>
    obtain ⟨hblock, hmore⟩ := List.forall_mem_cons.mp hmore
    obtain ⟨groups', hholds, hstays⟩ := exists_holds_taken hheaded h hahead hblock
    have hthreshold : (w.taken block).threshold = w.threshold := (isKept_threshold _).taken block rfl
    rw [← hthreshold] at hstays ⊢
    obtain ⟨groups'', hholds', hstays'⟩ :=
      ih (isKept_headed.taken block hheaded) hholds hstays hmore
    rw [List.append_assoc] at hstays'
    exact ⟨groups'', hholds', hstays'⟩

/-! ### Writing all blocks -/

/-- Appends blocks one after the other and writes what is pending in the end.  A file that
cannot be written ends it. -/
def writeBlocks {m : Type → Type} [Monad m] [FileStore m] :
    List String → ChunkWriter → m (Except DumpError Unit × ChunkWriter)
  | [], w => w.flush
  | block :: blocks, w => do
    match ← w.append block with
    | (.ok (), w) => writeBlocks blocks w
    | (.error e, w) => return (.error e, w)

/-- The writer when all blocks are written. -/
def writtenAll (dir stem : String) (threshold : Nat) (blocks : List String) : ChunkWriter :=
  (blocks.foldl taken { dir, stem, threshold }).settled

theorem adds_writeBlocks (blocks : List String) (w : ChunkWriter) :
    Adds id (writeBlocks blocks w) w (blocks.foldl taken w).settled := by
  induction blocks generalizing w with
  | nil => exact adds_flush w
  | cons block blocks ih =>
    exact (adds_append w block).trans (ih (w.taken block)) fun _ _ => rfl

/-- What is kept of a writer that begins holds when all blocks are written. -/
theorem kept_writtenAll {P : ChunkWriter → Prop} (hP : IsKept P) {dir stem : String}
    {threshold : Nat} (hstart : P { dir, stem, threshold }) (blocks : List String) :
    P (writtenAll dir stem threshold blocks) := hP.settled (hP.foldl blocks hstart)

theorem numbered_writtenAll (dir stem : String) (threshold : Nat) (blocks : List String) :
    (writtenAll dir stem threshold blocks).Numbered dir stem :=
  kept_writtenAll (isKept_numbered dir stem) (numbered_start dir stem threshold) blocks

theorem headed_writtenAll (dir stem : String) (threshold : Nat) (blocks : List String) :
    (writtenAll dir stem threshold blocks).Headed :=
  kept_writtenAll isKept_headed (headed_start dir stem threshold) blocks

/-- All chunks are different files. -/
theorem Numbered.pairwise_apart {dir stem : String} (h : w.Numbered dir stem) (t : FileTree) :
    ((w.files.map ChunkFile.output).map TextFile.path).Pairwise t.Apart := by
  have hmap : (w.files.map ChunkFile.output).map TextFile.path = w.paths := List.map_map
  rw [hmap, h.paths_eq, List.pairwise_map]
  exact List.nodup_range.imp fun hne => apart_pathOf t dir stem hne

theorem exists_groups (dir stem : String) (threshold : Nat) (hblocks : ∀ block ∈ blocks, block ≠ "") :
    ∃ groups, IsLeastCut threshold blocks groups ∧
      (writtenAll dir stem threshold blocks).files.map ChunkFile.body = groups.map String.join := by
  have hheaded := headed_start dir stem threshold
  have hstart : ChunkWriter.Holds { dir, stem, threshold } [] :=
    .written belowHeader_metaHeader rfl (absurd rfl)
  obtain ⟨groups, hholds, hahead⟩ :=
    exists_holds_foldl hheaded hstart (StaysAhead.nil threshold) hblocks
  exact ⟨groups, hahead.toIsLeastCut, hholds.bodies_settled (isKept_headed.foldl blocks hheaded)⟩

/-- What is written if all files can be. -/
theorem writes_writeBlocks (dir stem : String) (threshold : Nat) (blocks : List String) :
    Writes reached (writeBlocks blocks { dir, stem, threshold } : StateM World _)
      ((writtenAll dir stem threshold blocks).files.map ChunkFile.output)
      (writtenAll dir stem threshold blocks) := by
  obtain ⟨chunks, hchunks, hwrites⟩ := adds_writeBlocks blocks { dir, stem, threshold }
  have hall : (writtenAll dir stem threshold blocks).files = chunks := hchunks
  rw [hall]
  exact hwrites

variable {dir stem : String} {threshold : Nat} {world world' : World}

theorem writeBlocks_succeeds_iff :
    (∃ w world', (writeBlocks blocks { dir, stem, threshold } : StateM World _) world =
      ((.ok (), w), world')) ↔
      ∀ path ∈ (writtenAll dir stem threshold blocks).paths, ∃ l, world.files.fileAt? path = some l := by
  obtain ⟨hresult, -⟩ := writes_writeBlocks dir stem threshold blocks world
  have hall : (world.files.writeAll
      ((writtenAll dir stem threshold blocks).files.map ChunkFile.output)).1 = .ok () ↔
        ∀ o ∈ (writtenAll dir stem threshold blocks).files.map ChunkFile.output,
          ∃ l, world.files.fileAt? o.path = some l := FileTree.writeAll_eq_ok_iff
  rw [paths, List.forall_mem_map]
  rw [List.forall_mem_map] at hall
  refine Iff.trans ?_ hall
  constructor
  · rintro ⟨w, world', h⟩
    rw [h] at hresult
    rcases hfiles : (world.files.writeAll
      ((writtenAll dir stem threshold blocks).files.map ChunkFile.output)).1 with e | _
    · rw [hfiles] at hresult
      cases hresult
    · rfl
  · intro hfiles
    rw [hfiles] at hresult
    exact ⟨_, _, Prod.ext (reached_eq_ok hresult) rfl⟩

/-- A run that succeeds has written the chunks, and each can be read back. -/
theorem writeBlocks_eq_ok
    (h : (writeBlocks blocks { dir, stem, threshold } : StateM World _) world =
      ((.ok (), w), world')) :
    w = writtenAll dir stem threshold blocks ∧
      ∀ c ∈ w.files, world'.files.read c.path = .ok c.text := by
  obtain ⟨hresult, hfiles⟩ := writes_writeBlocks dir stem threshold blocks world
  rw [h] at hresult hfiles
  rcases hall : (world.files.writeAll
    ((writtenAll dir stem threshold blocks).files.map ChunkFile.output)).1 with e | _
  · rw [hall] at hresult
    cases hresult
  · rw [hall] at hresult
    obtain rfl : w = writtenAll dir stem threshold blocks := Except.ok.inj hresult
    refine ⟨rfl, fun c hc => ?_⟩
    have hapart := (numbered_writtenAll dir stem threshold blocks).pairwise_apart world.files
    rw [hfiles]
    exact FileTree.read_writeAll hall hapart (List.mem_map_of_mem hc)

/-- **Chunks keep the threshold and are as few as can be.**  Blocks that are not empty can be
written exactly if each of the chunks can.  Then the chunks are numbered from zero, and they hold
the groups of a least cut: a chunk keeps the threshold or has a single block, and no other cut
has fewer groups.  So a higher threshold never makes more chunks. -/
theorem writeBlocks_least (dir stem : String) {blocks : List String}
    (hblocks : ∀ block ∈ blocks, block ≠ "") :
    (∀ threshold world,
      (∃ w world', (writeBlocks blocks { dir, stem, threshold } : StateM World _) world =
        ((.ok (), w), world')) ↔
      ∀ path ∈ (writtenAll dir stem threshold blocks).paths,
        ∃ l, world.files.fileAt? path = some l) ∧
    (∀ threshold world w world',
      (writeBlocks blocks { dir, stem, threshold } : StateM World _) world = ((.ok (), w), world') →
      ∃ groups, IsLeastCut threshold blocks groups ∧
        w.paths = (List.range groups.length).map (pathOf dir stem) ∧
        List.Forall₂ (fun path group => world'.files.read path = .ok (chunkText group))
          w.paths groups) ∧
    ∀ threshold threshold' world w world' world₁ w₁ world₁',
      (writeBlocks blocks { dir, stem, threshold } : StateM World _) world = ((.ok (), w), world') →
      (writeBlocks blocks { dir, stem, threshold := threshold' } : StateM World _) world₁ =
        ((.ok (), w₁), world₁') →
      threshold ≤ threshold' → w₁.paths.length ≤ w.paths.length := by
  refine ⟨fun threshold world => writeBlocks_succeeds_iff, ?_, ?_⟩
  · intro threshold world w world' h
    obtain ⟨rfl, hread⟩ := writeBlocks_eq_ok h
    obtain ⟨groups, hleast, hbodies⟩ := exists_groups dir stem threshold hblocks
    have hpaths := (numbered_writtenAll dir stem threshold blocks).paths_eq
    have htexts := (headed_writtenAll dir stem threshold blocks).texts
    have hlength := congrArg List.length hbodies
    rw [List.length_map, List.length_map] at hlength
    refine ⟨groups, hleast, hlength ▸ hpaths, ?_⟩
    have hgroups : List.Forall₂ Eq ((writtenAll dir stem threshold blocks).files.map ChunkFile.body)
        (groups.map String.join) := by
      rw [hbodies, List.forall₂_same]
      exact fun _ _ => rfl
    rw [List.forall₂_map_left_iff, List.forall₂_map_right_iff] at hgroups
    rw [paths, List.forall₂_map_left_iff]
    have hchunks : ∀ c ∈ (writtenAll dir stem threshold blocks).files,
        world'.files.read c.path = .ok (Annotations.metaHeader ++ c.body) := fun c hc => by
      rw [hread c hc, htexts c hc]
    refine ((List.forall₂_and_left _ _).mpr ⟨hchunks, hgroups⟩).imp ?_
    rintro c g ⟨hc, hbody⟩
    rw [hc, hbody, chunkText]
  · intro threshold threshold' world w world' world₁ w₁ world₁' h h₁ hle
    obtain ⟨rfl, -⟩ := writeBlocks_eq_ok h
    obtain ⟨rfl, -⟩ := writeBlocks_eq_ok h₁
    obtain ⟨groups, hleast, hbodies⟩ := exists_groups dir stem threshold hblocks
    obtain ⟨groups', hleast', hbodies'⟩ := exists_groups dir stem threshold' hblocks
    have hlength := congrArg List.length hbodies
    have hlength' := congrArg List.length hbodies'
    rw [List.length_map, List.length_map] at hlength hlength'
    rw [paths, paths, List.length_map, List.length_map, hlength, hlength']
    exact hleast'.length_le groups (hleast.toIsCut.mono hle)

/-- Two blocks that share a chunk, and one that is larger than the threshold. -/
theorem writeBlocks_least_large :
    (∀ block ∈ ["ab", "c", "defgh"], block ≠ "") ∧ ∃ w world',
      (writeBlocks ["ab", "c", "defgh"] { dir := "out", stem := "x", threshold := 14 } :
        StateM World _) { files := ⟨[(["out"], .directory)]⟩ } = ((.ok (), w), world') ∧
      w.paths = ["out/x_dump_0.lua", "out/x_dump_1.lua"] ∧
      ∃ groups, IsLeastCut 14 ["ab", "c", "defgh"] groups ∧ groups.length = w.paths.length := by
  have hblocks : ∀ block ∈ ["ab", "c", "defgh"], block ≠ "" := by decide
  obtain ⟨hsucceeds, hcut, -⟩ := writeBlocks_least "out" "x" hblocks
  have hpaths : (writtenAll "out" "x" 14 ["ab", "c", "defgh"]).paths =
      ["out/x_dump_0.lua", "out/x_dump_1.lua"] := by decide +kernel
  have hplaces : ∀ path ∈ (writtenAll "out" "x" 14 ["ab", "c", "defgh"]).paths,
      ∃ l, (⟨[(["out"], .directory)]⟩ : FileTree).fileAt? path = some l := by
    rw [hpaths]
    have hall : ∀ path ∈ ["out/x_dump_0.lua", "out/x_dump_1.lua"],
        ((⟨[(["out"], .directory)]⟩ : FileTree).fileAt? path).isSome = true := by decide +kernel
    exact fun path hpath => Option.isSome_iff_exists.mp (hall path hpath)
  obtain ⟨w, world', h⟩ := (hsucceeds 14 { files := ⟨[(["out"], .directory)]⟩ }).mpr hplaces
  obtain ⟨groups, hleast, -, hread⟩ := hcut 14 _ w world' h
  refine ⟨hblocks, w, world', h, ?_, groups, hleast, hread.length_eq.symm⟩
  rw [(writeBlocks_eq_ok h).1, hpaths]

end ChunkWriter

end LuaTypings
