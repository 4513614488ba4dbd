/-
LuaTypings/Proofs/Run/AbortMessage.lean

What is logged about a dump that ends early.  The chunks are counted whenever the writer has taken a
block, and one append may write two of them: the pending blocks, and then its own block because this
is too large by itself.  If only the second is refused, the first is written and never counted
(`append_error`).  Nothing else is missed: what is pending keeps the threshold, and with nothing
pending the last chunk does not (`Tidy`), so the sizes of the two chunks tell this case from all
others.

Main result: `abort_message_iff`.
-/
import LuaTypings.Proofs.Dump.Rerun
import LuaTypings.Proofs.Run.Aborted

namespace LuaTypings

/-- A file that is larger than the threshold comes behind one that is not, as when one append writes
the pending blocks and then its own. -/
def IsHalfway (threshold : Nat) (before : List TextFile) (o : TextFile) : Prop :=
  threshold < o.text.utf8ByteSize ∧ ∃ last ∈ before.getLast?, last.text.utf8ByteSize ≤ threshold

namespace ChunkWriter

variable {w w₁ : ChunkWriter} {block : String} {u u₁ : World} {e : DumpError}

/-! ### Writers between two blocks -/

/-- The last chunk, if there is one, is larger than the threshold. -/
def EndsLarge (w : ChunkWriter) : Prop :=
  ∀ c ∈ w.files.getLast?, w.threshold < c.text.utf8ByteSize

/-- What is pending keeps the threshold, and if nothing is, the last chunk does not. -/
structure Tidy (w : ChunkWriter) : Prop where
  headed : w.Headed
  fits : w.hasContent = true → w.size ≤ w.threshold
  large : w.hasContent = false → w.EndsLarge

/-- A writer with nothing pending is tidy if its last chunk is large. -/
theorem tidy_of_buffer (hheaded : w.Headed) (hbuffer : w.buffer = Annotations.metaHeader)
    (hlarge : w.EndsLarge) : w.Tidy where
  headed := hheaded
  fits hcontent := by
    rw [hasContent, size, hbuffer, decide_eq_true_iff] at hcontent
    exact absurd hcontent (Nat.lt_irrefl _)
  large _ := hlarge

theorem tidy_settled (hheaded : w.Headed) (hlarge : w.threshold < w.size)
    (hempty : w.hasContent = false → w.EndsLarge) : w.settled.Tidy := by
  unfold settled
  split_ifs with hcontent
  · refine tidy_of_buffer (isKept_headed.advance hcontent hheaded) rfl fun c hc => ?_
    have hlast : c = w.next := by simpa [advance, eq_comm] using hc
    rw [hlast]
    exact hlarge
  · exact ⟨hheaded, fun h => absurd h hcontent, hempty⟩

theorem tidy_pushed (hheaded : w.Headed) (h : (w.push block).hasContent = false → w.EndsLarge) :
    (w.pushed block).Tidy := by
  have hpush := isKept_headed.push block hheaded
  unfold pushed
  dsimp only
  split_ifs with hlarge
  · exact tidy_settled hpush hlarge h
  · exact ⟨hpush, fun _ => Nat.not_lt.mp hlarge, h⟩

theorem hasContent_push_eq_false_iff (hheaded : w.Headed) :
    (w.push block).hasContent = false ↔ w.hasContent = false ∧ block = "" := by
  rw [hheaded.hasContent_eq_false_iff, (isKept_headed.push block hheaded).hasContent_eq_false_iff,
    hheaded.pending_push, String.append_eq_empty_iff]

theorem size_push (w : ChunkWriter) (block : String) :
    (w.push block).size = w.size + block.utf8ByteSize := String.utf8ByteSize_append

/-- A writer is tidy whenever it has taken a block. -/
theorem Tidy.taken (h : w.Tidy) (block : String) : (w.taken block).Tidy := by
  unfold ChunkWriter.taken
  split_ifs with hfull
  · -- only a block that is not empty is too much for the pending ones
    obtain ⟨hcontent, hmuch⟩ : w.hasContent = true ∧ w.threshold < w.size + block.utf8ByteSize := by
      simpa [isFullFor] using hfull
    have hfits := h.fits hcontent
    have hheaded := isKept_headed.settled h.headed
    refine tidy_pushed hheaded fun hnone => absurd hmuch ?_
    rw [((hasContent_push_eq_false_iff hheaded).mp hnone).2, String.utf8ByteSize_empty]
    exact Nat.not_lt.mpr hfits
  · exact tidy_pushed h.headed fun hnone =>
      h.large ((hasContent_push_eq_false_iff h.headed).mp hnone).1

/-! ### Writers that are refused a chunk -/

/-- A writer is refused its next chunk, where `all` are the chunks if none is refused.  The chunks
that it has written are counted, up to the last one if the refused one is too large by itself and
the last one is not. -/
structure IsRefused (threshold counted : Nat) (all : List ChunkFile) (w : ChunkWriter)
    (e : DumpError) : Prop where
  error : ∃ cause, e = .write w.next.path cause
  due : w.files ++ [w.next] <+: all
  count : (counted = w.files.length ∧
      ¬ IsHalfway threshold (w.files.map ChunkFile.output) w.next.output) ∨
    (counted + 1 = w.files.length ∧
      IsHalfway threshold (w.files.map ChunkFile.output) w.next.output)

theorem IsRefused.mono {threshold counted : Nat} {all all' : List ChunkFile}
    (h : w.IsRefused threshold counted all e) (hle : all <+: all') :
    w.IsRefused threshold counted all' e :=
  ⟨h.error, h.due.trans hle, h.count⟩

theorem flush_error (h : (w.flush : StateM World _) u = ((.error e, w₁), u₁)) :
    w.hasContent = true ∧ w₁ = w ∧ ∃ cause, e = .write w.next.path cause := by
  unfold flush at h
  split_ifs at h with hcontent
  · simp only [bind, StateT.bind, FileStore.put, write_apply] at h
    rcases hwrite : u.files.write w.next.path w.next.text with cause | t
    · rw [hwrite] at h
      cases h
      exact ⟨hcontent, rfl, cause, rfl⟩
    · rw [hwrite] at h
      cases h
  · cases h

theorem pushAndFlush_error
    (h : (w.pushAndFlush block : StateM World _) u = ((.error e, w₁), u₁)) :
    w.threshold < (w.push block).size ∧ (w.push block).hasContent = true ∧ w₁ = w.push block ∧
      ∃ cause, e = .write w₁.next.path cause := by
  unfold pushAndFlush at h
  split_ifs at h with hlarge
  · obtain ⟨hcontent, rfl, herror⟩ := flush_error h
    exact ⟨hlarge, hcontent, rfl, herror⟩
  · cases h

theorem isKept_files (chunks : List ChunkFile) : IsKept fun w => chunks <+: w.files where
  push _ h := h
  advance _ h := h.trans (List.prefix_append _ _)

theorem files_pushed_of_large (hlarge : w.threshold < (w.push block).size)
    (hcontent : (w.push block).hasContent = true) :
    (w.pushed block).files = (w.push block).files ++ [(w.push block).next] := by
  have hpushed : w.pushed block = (w.push block).settled := if_pos hlarge
  rw [hpushed, settled, if_pos hcontent]
  rfl

/-- A tidy writer that is refused the pending blocks has counted all its chunks. -/
theorem Tidy.isRefused (htidy : w.Tidy) (hcontent : w.hasContent = true) {all : List ChunkFile}
    (herror : ∃ cause, e = .write w.next.path cause) (hdue : w.files ++ [w.next] <+: all) :
    w.IsRefused w.threshold w.files.length all e where
  error := herror
  due := hdue
  count := by
    exact Or.inl ⟨rfl, fun hhalfway => absurd hhalfway.1 (Nat.not_lt.mpr (htidy.fits hcontent))⟩

/-- An append is refused the chunk of the pending blocks, or that of its own block. -/
theorem append_error (htidy : w.Tidy)
    (h : (w.append block : StateM World _) u = ((.error e, w₁), u₁)) :
    w₁.IsRefused w.threshold w.files.length (w.taken block).files e := by
  unfold append at h
  unfold taken
  split_ifs at h ⊢ with hfull
  · have hcontent : w.hasContent = true := (Bool.and_eq_true_iff.mp hfull).1
    rcases bindState_cases h with ⟨e', w₂, u₂, hflush, hend⟩ | ⟨w₂, u₂, hflush, hpush⟩
    · -- the pending blocks are refused
      cases hend
      obtain ⟨-, rfl, hnamed⟩ := flush_error hflush
      refine htidy.isRefused hcontent hnamed ((isKept_files _).pushed block ?_)
      rw [settled, if_pos hcontent]
      exact List.prefix_rfl
    · -- they are written, and the block itself is refused
      have hsettled : w₂ = w.advance := by
        rw [(adds_flush w).state_eq hflush, settled, if_pos hcontent]
      rw [hsettled] at hpush
      obtain ⟨hlarge, hpushed, rfl, herror⟩ := pushAndFlush_error hpush
      rw [settled, if_pos hcontent]
      refine ⟨herror, ?_, Or.inr ⟨?_, ?_, w.next.output, ?_, ?_⟩⟩
      · rw [files_pushed_of_large hlarge hpushed]
      · simp [push, advance]
      · exact hlarge
      · simp [push, advance]
      · exact htidy.fits hcontent
  · obtain ⟨hlarge, hcontent, rfl, herror⟩ := pushAndFlush_error h
    refine ⟨herror, ?_, Or.inl ⟨rfl, ?_⟩⟩
    · rw [files_pushed_of_large hlarge hcontent]
    · -- nothing was pending, and so the last chunk is too large as well
      rintro ⟨-, last, hlast, hsmall⟩
      have hempty : w.hasContent = false := by
        rw [size_push] at hlarge
        simpa [isFullFor, hlarge] using hfull
      obtain ⟨c, hc, rfl⟩ : ∃ c ∈ w.files.getLast?, c.output = last := by
        simpa [push, List.getLast?_map] using hlast
      exact absurd (htidy.large hempty c hc) (Nat.not_lt.mpr hsmall)

end ChunkWriter

namespace Dump

variable {f : Flavor} {threshold : Nat} {dir : String} {types : List Declaration} {p p' : Progress}
  {u u' w w' : World} {e : DumpError}

/-! ### Declarations up to the one that is refused -/

/-- The chunks are counted, and the writer is tidy. -/
structure Progress.InStep (threshold : Nat) (p : Progress) : Prop where
  tidy : p.writer.Tidy
  counted : p.counted = p.writer.files.length
  threshold : p.writer.threshold = threshold

theorem Progress.inStep_start (f : Flavor) (threshold : Nat) (dir : String)
    (types : List Declaration) : (Progress.start f threshold dir types).InStep threshold where
  tidy := ChunkWriter.tidy_of_buffer (ChunkWriter.headed_start dir f.name threshold) rfl
    (by simp [start, ChunkWriter.EndsLarge])
  counted := rfl
  threshold := rfl

theorem Progress.InStep.taken (h : p.InStep threshold) (f : Flavor) (d : Declaration) :
    (p.taken f d).InStep threshold := by
  unfold Progress.taken
  rcases Block.render f d with e | block
  · exact ⟨h.tidy, h.counted, h.threshold⟩
  · exact ⟨h.tidy.taken block, rfl, (ChunkWriter.isKept_threshold threshold).taken block h.threshold⟩

theorem Progress.InStep.foldl (h : p.InStep threshold) (f : Flavor) (types : List Declaration) :
    (types.foldl (Progress.taken f) p).InStep threshold := by
  induction types generalizing p with
  | nil => exact h
  | cons d ds ih => exact ih (h.taken f d)

theorem Progress.files_prefix_foldl (f : Flavor) (types : List Declaration) (p : Progress) :
    p.writer.files <+: (types.foldl (taken f) p).writer.files :=
  (follows_foldl f types p).kept (ChunkWriter.isKept_files _) List.prefix_rfl

theorem takeOne_error {d : Declaration} (hp : p.InStep threshold)
    (h : (takeOne f d p : StateM World _) u = ((.error e, p'), u')) :
    p'.emitted = p.emitted ∧
      p'.writer.IsRefused threshold p'.counted (p.taken f d).writer.files e := by
  unfold Progress.taken
  rcases hrender : Block.render f d with e' | block
  · simp only [takeOne, hrender] at h
    cases h
  · simp only [takeOne, hrender] at h
    rcases bindState_cases h with ⟨e', writer, u₁, happend, hend⟩ | ⟨writer, u₁, -, hend⟩
    · cases hend
      have hrefused := ChunkWriter.append_error hp.tidy happend
      rw [← hp.counted, hp.threshold] at hrefused
      exact ⟨rfl, hrefused⟩
    · cases hend

/-- The declarations in front are taken, and the block of the next one is refused. -/
structure TakesUntil (f : Flavor) (p : Progress) (u : World) (front back : List Declaration)
    (e : DumpError) : Prop where
  taken : ((takeAll f front p : StateM World _) u).1.1 = .ok ()
  refused : ∀ d ∈ back.head?, ((takeAll f (front ++ [d]) p : StateM World _) u).1.1 = .error e

theorem takeAll_error (hp : p.InStep threshold)
    (h : (takeAll f types p : StateM World _) u = ((.error e, p'), u')) :
    ∃ front back, types = front ++ back ∧ TakesUntil f p u front back e ∧
      p'.emitted = (front.foldl (Progress.taken f) p).emitted ∧
      p'.writer.IsRefused threshold p'.counted (types.foldl (Progress.taken f) p).writer.files e := by
  induction types generalizing p u with
  | nil => cases h
  | cons d ds ih =>
    rcases bindState_cases h with ⟨e', q, u₁, hone, hend⟩ | ⟨q, u₁, hone, hrest⟩
    · cases hend
      obtain ⟨hemitted, hrefused⟩ := takeOne_error hp hone
      refine ⟨[], d :: ds, rfl, ⟨rfl, ?_⟩, hemitted,
        hrefused.mono (Progress.files_prefix_foldl f ds _)⟩
      intro d' hd'
      obtain rfl := Option.some.inj hd'
      simp only [List.nil_append, takeAll, bind, StateT.bind, hone]
      rfl
    · obtain rfl := (Progress.adds_takeOne f d p).state_eq hone
      obtain ⟨front, back, rfl, huntil, hemitted, hrefused⟩ := ih (hp.taken f d) hrest
      refine ⟨d :: front, back, rfl, ⟨?_, ?_⟩, hemitted, hrefused⟩
      · simp only [takeAll, bind, StateT.bind, hone]
        exact huntil.taken
      · intro d' hd'
        simp only [List.cons_append, takeAll, bind, StateT.bind, hone]
        exact huntil.refused d' hd'

theorem finishChunks_error (hp : p.InStep threshold)
    (h : (finishChunks p : StateM World _) u = ((.error e, p'), u')) :
    p'.emitted = p.emitted ∧
      p'.writer.IsRefused threshold p'.counted p.closed.writer.files e := by
  rcases bindState_cases h with ⟨e', writer, u₁, hflush, hend⟩ | ⟨writer, u₁, -, hend⟩
  · cases hend
    obtain ⟨hcontent, rfl, hnamed⟩ := ChunkWriter.flush_error hflush
    have hdue : p.writer.files ++ [p.writer.next] <+: p.closed.writer.files := by
      rw [Progress.closed, ChunkWriter.settled, if_pos hcontent]
      exact List.prefix_rfl
    have hrefused := hp.tidy.isRefused hcontent hnamed hdue
    rw [← hp.counted, hp.threshold] at hrefused
    exact ⟨rfl, hrefused⟩
  · cases hend

/-- What is refused beside the chunks is no chunk. -/
theorem finish_error {path : String} {cause : FileError}
    (h : ((finish f dir p : StateM World _) u).1 = .error (.write path cause)) (k : Nat) :
    path ≠ ChunkWriter.pathOf dir f.name k := by
  obtain ⟨hresult, -⟩ := writes_finish f dir p u
  rcases hall : (u.files.writeAll (furtherOutputs f dir p)).1 with e | _
  · rw [h, hall] at hresult
    obtain ⟨before, o, after, cause', hfiles, rfl, -⟩ := FileTree.writeAll_eq_error hall
    obtain ⟨rfl, -⟩ := DumpError.write.inj (Except.error.inj hresult)
    have ho : o.path ∈ (furtherOutputs f dir p).map TextFile.path :=
      List.mem_map_of_mem (hfiles ▸ List.mem_append_right _ List.mem_cons_self)
    obtain ⟨name, hname, hpath⟩ : ∃ name ∈ [f.name ++ "_namespace.lua", stubFile f],
        Path.join dir name = o.path := List.mem_map.mp ho
    intro hchunk
    have hjoin : Path.join dir name = Path.join dir (chunkName f k) := hpath.trans hchunk
    have hmem : name ∈ outputNames f k := List.mem_append_right _ hname
    rw [Path.join_inj (isPiece_of_mem_outputNames hmem) (isEntryName_chunkName f k).1 hjoin] at hname
    exact chunkName_not_mem f k hname
  · rw [h, hall] at hresult
    cases hresult

/-- A dump whose directory is there is refused a chunk. -/
theorem writeFiles_error {k : Nat} {cause : FileError} (hp : p.InStep threshold)
    (h : (writeFiles f dir types p : StateM World _) u =
      ((.error (.write (ChunkWriter.pathOf dir f.name k) cause), p'), u')) :
    ∃ front back, types = front ++ back ∧
      TakesUntil f p u front back (.write (ChunkWriter.pathOf dir f.name k) cause) ∧
      p'.emitted = (front.foldl (Progress.taken f) p).emitted ∧
      p'.writer.IsRefused threshold p'.counted (types.foldl (Progress.taken f) p).closed.writer.files
        (.write (ChunkWriter.pathOf dir f.name k) cause) := by
  rcases bindState_cases h with ⟨e, q, u₁, hall, hend⟩ | ⟨q, u₁, hall, hrest⟩
  · cases hend
    obtain ⟨front, back, htypes, huntil, hemitted, hrefused⟩ := takeAll_error hp hall
    exact ⟨front, back, htypes, huntil, hemitted,
      hrefused.mono ((ChunkWriter.isKept_files _).settled List.prefix_rfl)⟩
  · obtain rfl := (Progress.adds_takeAll f types p).state_eq hall
    rcases bindState_cases hrest with ⟨e, q, u₂, hlast, hend⟩ | ⟨q, u₂, -, hfurther⟩
    · cases hend
      obtain ⟨hemitted, hrefused⟩ := finishChunks_error (hp.foldl f types) hlast
      refine ⟨types, [], (List.append_nil types).symm, ⟨by rw [hall], ?_⟩, hemitted, hrefused⟩
      exact fun d hd => absurd hd (Option.not_mem_none d)
    · -- the index and the stubs are no chunks
      obtain ⟨hend, -⟩ := Prod.mk.inj hfurther
      exact absurd rfl (finish_error (Prod.mk.inj hend).1 k)

/-! ### Files by their paths, messages by their numbers -/

theorem abortMessage_injective {emitted files files' : Nat}
    (h : abortMessage f emitted files e = abortMessage f emitted files' e) : files = files' := by
  simp only [abortMessage, String.append_left_inj, String.append_right_inj] at h
  exact Text.eq_of_toString_eq h

theorem pathOf_injective {i j : Nat}
    (h : ChunkWriter.pathOf dir f.name i = ChunkWriter.pathOf dir f.name j) : i = j := by
  rw [ChunkWriter.pathOf_eq, ChunkWriter.pathOf_eq, String.append_right_inj] at h
  exact ChunkWriter.ending_injective h

theorem nodup_paths_outputs (f : Flavor) (threshold : Nat) (dir : String)
    (types : List Declaration) : ((outputs f threshold dir types).map TextFile.path).Nodup := by
  rw [path_outputs]
  refine (nodup_outputNames f _).map_on fun name hname other hother h => ?_
  exact Path.join_inj (isPiece_of_mem_outputNames hname) (isPiece_of_mem_outputNames hother) h

/-- If paths differ, a path tells the place of its file in a list. -/
theorem eq_of_nodup_paths {before after before' after' : List TextFile} {o o' : TextFile}
    (hnodup : ((before ++ o :: after).map TextFile.path).Nodup)
    (h : before ++ o :: after = before' ++ o' :: after') (hpath : o.path = o'.path) :
    before = before' ∧ o = o' := by
  have ho : o ∈ before ++ o :: after := List.mem_append_right _ List.mem_cons_self
  have ho' : o' ∈ before ++ o :: after := h ▸ List.mem_append_right _ List.mem_cons_self
  obtain rfl := List.inj_on_of_nodup_map hnodup ho ho' hpath
  obtain ⟨-, hafter, hbefore⟩ := List.nodup_append.mp hnodup.of_map
  have hfront : o ∉ before := fun hmem => hbefore o hmem o List.mem_cons_self rfl
  obtain ⟨heq, -, -⟩ :=
    (List.append_cons_inj_of_notMem hfront (List.nodup_cons.mp hafter).1).mp h
  exact ⟨heq, rfl⟩

/-- The chunks of a writer that are followed by another one are the first of all. -/
theorem paths_of_due {chunks : List ChunkFile} {c : ChunkFile}
    (h : chunks ++ [c] <+: (final f threshold dir types).writer.files) :
    chunks.map ChunkFile.path =
        (List.range chunks.length).map (ChunkWriter.pathOf dir f.name) ∧
      c.path = ChunkWriter.pathOf dir f.name chunks.length := by
  have hpaths := (numbered_final f threshold dir types).paths_eq
  set n := (final f threshold dir types).writer.files.length
  have hle : chunks.length + 1 ≤ n := by simpa using h.length_le
  have hprefix : (chunks ++ [c]).map ChunkFile.path <+:
      (List.range n).map (ChunkWriter.pathOf dir f.name) := by
    rw [← hpaths]
    exact h.map ChunkFile.path
  rw [List.prefix_iff_eq_take, ← List.map_take, List.take_range, List.length_map,
    List.length_append, List.length_singleton, Nat.min_eq_left hle, List.range_succ,
    List.map_append, List.map_append, List.map_singleton, List.map_singleton,
    List.append_singleton_inj] at hprefix
  exact hprefix

/-- The file of a chunk stands behind those of the chunks before it. -/
theorem eq_of_due {chunks : List ChunkFile} {c : ChunkFile} {before after : List TextFile}
    {o : TextFile} (horder : outputs f threshold dir types = before ++ o :: after)
    (hdue : chunks ++ [c] <+: (final f threshold dir types).writer.files)
    (hpath : o.path = c.path) : before = chunks.map ChunkFile.output ∧ o = c.output := by
  obtain ⟨rest, hrest⟩ := hdue
  have hnodup := nodup_paths_outputs f threshold dir types
  rw [horder] at hnodup
  have hsame : before ++ o :: after = chunks.map ChunkFile.output ++
      c.output :: (rest.map ChunkFile.output ++
        furtherOutputs f dir (final f threshold dir types)) := by
    rw [← horder, outputs, ← hrest]
    simp
  exact eq_of_nodup_paths hnodup hsame hpath

end Dump

namespace Run

variable {f : Flavor} {threshold : Nat} {dir : String} {types : List Declaration} {w w' : World}
  {e : DumpError}

/-- What a run that fails has logged last. -/
theorem head?_log_of_run_error {t : FileTree} (hmade : w.files.createDirs dir = (.ok (), t))
    (h : (Dump.run f threshold dir types : StateM World _) w = (.error e, w')) :
    ∃ p u, (Dump.writeFiles f dir types (.start f threshold dir types) : StateM World _)
        { w with files := t } = ((.error e, p), u) ∧
      w'.log.head? = some ⟨.error, Dump.abortMessage f p.emitted p.counted e⟩ := by
  have hdirs : (FileStore.createDirs dir : StateM World _) w = (.ok (), { w with files := t }) := by
    rw [createDirs_apply, hmade]
  simp only [Dump.run, Dump.perform, bind, StateT.bind, hdirs] at h
  rcases hend : (Dump.writeFiles f dir types (.start f threshold dir types) : StateM World _)
    { w with files := t } with ⟨⟨e' | report, p⟩, u⟩
  · rw [hend] at h
    cases h
    exact ⟨p, u, rfl, rfl⟩
  · rw [hend] at h
    cases h

/-- A run that is refused a file has made its directory and ends at this file. -/
theorem stopsAt_of_run_error {path : String} {cause : FileError}
    (h : (Dump.run f threshold dir types : StateM World _) w = (.error (.write path cause), w')) :
    ∃ t before o, w.files.createDirs dir = (.ok (), t) ∧ o.path = path ∧
      t.StopsAt w'.files (Dump.outputs f threshold dir types) before o cause := by
  rcases hdirs : w.files.createDirs dir with ⟨e | _, t⟩
  · obtain ⟨hresult, -⟩ := Dump.run_of_not_made hdirs f threshold types
    rw [h] at hresult
    cases hresult
  · have hbad : ∃ o ∈ Dump.outputs f threshold dir types, ∃ e, t.write o.path o.text = .error e := by
      by_contra hall
      push Not at hall
      have hplaces : ∀ o ∈ Dump.outputs f threshold dir types, ∃ l, t.fileAt? o.path = some l := by
        intro o ho
        rcases hwrite : t.write o.path o.text with e | t'
        · exact absurd hwrite (hall o ho e)
        · exact FileTree.fileAt?_of_write hwrite
      obtain ⟨report, v, hrun⟩ := Dump.run_succeeds_iff.mpr ⟨t, hdirs, hplaces⟩
      rw [h] at hrun
      cases hrun
    obtain ⟨before, o, cause', v, hrun, hstops⟩ := run_stopsAt hdirs hbad
    rw [h] at hrun
    obtain ⟨herror, rfl⟩ := Prod.mk.inj hrun
    obtain ⟨rfl, rfl⟩ := DumpError.write.inj (Except.error.inj herror)
    exact ⟨t, before, o, rfl, rfl, hstops⟩

/-- **What the message about a dump says that is refused a chunk.**  The first chunks are written, as
many as the number of the refused one, and the declarations in front are taken.  The message counts
these declarations, without those that are left out.  It counts the chunks, too, exactly if the
refused one keeps the threshold or comes behind one that does not keep it; otherwise it counts one
less. -/
theorem abort_message_iff {k : Nat} {cause : FileError}
    (h : (Dump.run f threshold dir types : StateM World _) w =
      (.error (.write (ChunkWriter.pathOf dir f.name k) cause), w')) :
    ∃ t before o front back,
      w.files.createDirs dir = (.ok (), t) ∧
      t.StopsAt w'.files (Dump.outputs f threshold dir types) before o cause ∧
      before.map TextFile.path = (List.range k).map (ChunkWriter.pathOf dir f.name) ∧
      types = front ++ back ∧
      Dump.TakesUntil f (.start f threshold dir types) { w with files := t } front back
        (.write (ChunkWriter.pathOf dir f.name k) cause) ∧
      (w'.log.head? = some ⟨.error, Dump.abortMessage f (Dump.rendered f front).length k
        (.write (ChunkWriter.pathOf dir f.name k) cause)⟩ ↔ ¬ IsHalfway threshold before o) ∧
      (IsHalfway threshold before o → w'.log.head? = some ⟨.error, Dump.abortMessage f
        (Dump.rendered f front).length (k - 1) (.write (ChunkWriter.pathOf dir f.name k) cause)⟩) := by
  obtain ⟨t, before, o, hmade, hpath, hstops⟩ := stopsAt_of_run_error h
  obtain ⟨p, u, hfiles, hlog⟩ := head?_log_of_run_error hmade h
  obtain ⟨front, back, htypes, huntil, hemitted, hrefused⟩ :=
    Dump.writeFiles_error (Dump.Progress.inStep_start f threshold dir types) hfiles
  -- the writer tells which chunks are written and which one is refused
  obtain ⟨hpaths, hnext⟩ := Dump.paths_of_due hrefused.due
  obtain ⟨cause', hnamed⟩ := hrefused.error
  obtain ⟨hdue, -⟩ := DumpError.write.inj hnamed
  have hk : k = p.writer.files.length := Dump.pathOf_injective (hdue.trans hnext)
  obtain ⟨after, horder⟩ := hstops.order
  obtain ⟨hbefore, ho⟩ := Dump.eq_of_due horder hrefused.due (hpath.trans hdue)
  have hrendered : p.emitted = (Dump.rendered f front).length :=
    (hemitted.trans (Dump.Progress.follows_foldl f front _).emitted).trans (Nat.zero_add _)
  have hcount := hrefused.count
  rw [← hbefore, ← ho, ← hk] at hcount
  rw [hrendered] at hlog
  refine ⟨t, before, o, front, back, hmade, hstops, ?_, htypes, huntil, ?_, ?_⟩
  · rw [hbefore, hk, List.map_map]
    exact hpaths
  · rcases hcount with ⟨heq, hnot⟩ | ⟨hless, hhalfway⟩
    · rw [heq] at hlog
      exact iff_of_true hlog hnot
    · refine iff_of_false (fun htrue => ?_) (not_not_intro hhalfway)
      rw [hlog] at htrue
      have hsame := Dump.abortMessage_injective (Event.mk.inj (Option.some.inj htrue)).2
      omega
  · rcases hcount with ⟨-, hnot⟩ | ⟨hless, -⟩
    · exact fun hhalfway => absurd hhalfway hnot
    · intro _
      rw [hlog, ← hless, Nat.add_sub_cancel]

/-- A directory that has the name of the second chunk. -/
def squatted : World where
  files := ⟨[(["out"], .directory), (["out", "xlua_dump_1.lua"], .directory)]⟩

/-- Both blocks are larger than the threshold, so each is written or refused by its own append. -/
theorem abort_message_iff_squatted :
    ∃ w' before o front back, (Dump.run .xlua 1 "out" (Dump.classesNamed ["A", "B"]) :
        StateM World _) squatted =
          (.error (.write (ChunkWriter.pathOf "out" Flavor.xlua.name 1) .isDirectory), w') ∧
      before.map TextFile.path = ["out/xlua_dump_0.lua"] ∧
      Dump.classesNamed ["A", "B"] = front ++ back ∧
      ¬ IsHalfway 1 before o ∧
      w'.log.head? = some ⟨.error, Dump.abortMessage .xlua (Dump.rendered .xlua front).length 1
        (.write (ChunkWriter.pathOf "out" Flavor.xlua.name 1) .isDirectory)⟩ := by
  have hresult : ((Dump.run .xlua 1 "out" (Dump.classesNamed ["A", "B"]) : StateM World _)
      squatted).1 = .error (.write (ChunkWriter.pathOf "out" Flavor.xlua.name 1) .isDirectory) := by
    decide +kernel
  have hlarge : ∀ p ∈ Dump.outputs .xlua 1 "out" (Dump.classesNamed ["A", "B"]),
      p.path = "out/xlua_dump_0.lua" → 1 < p.text.utf8ByteSize := by
    decide +kernel
  rcases hrun : (Dump.run .xlua 1 "out" (Dump.classesNamed ["A", "B"]) : StateM World _)
    squatted with ⟨result, w'⟩
  rw [hrun] at hresult
  obtain rfl : result = _ := hresult
  obtain ⟨t, before, o, front, back, -, hstops, hpaths, htypes, -, htrue, -⟩ :=
    abort_message_iff hrun
  have hpaths' : before.map TextFile.path = ["out/xlua_dump_0.lua"] := hpaths
  have hnot : ¬ IsHalfway 1 before o := by
    rintro ⟨-, last, hlast, hsmall⟩
    obtain ⟨after, horder⟩ := hstops.order
    have hmem : last ∈ before := List.mem_of_mem_getLast? hlast
    have hpath : last.path ∈ ["out/xlua_dump_0.lua"] := hpaths' ▸ List.mem_map_of_mem hmem
    exact absurd hsmall (Nat.not_le.mpr
      (hlarge last (horder ▸ List.mem_append_left _ hmem) (List.mem_singleton.mp hpath)))
  exact ⟨w', before, o, front, back, rfl, hpaths', htypes, hnot, htrue.mpr hnot⟩

/-- A class, and one with a field. -/
def growing : List Declaration :=
  [.classType { header := { name := "A" } },
    .classType { header := { name := "B" }, fields := [{ name := "c", type := "int" }] }]

/-- The append of the second class writes the chunk of the first one and is refused its own; the
message counts no file. -/
theorem not_abort_message_growing :
    ∃ w', (Dump.run .xlua 70 "out" growing : StateM World _) squatted =
        (.error (.write "out/xlua_dump_1.lua" .isDirectory), w') ∧
      squatted.files.read "out/xlua_dump_0.lua" = .error .notFound ∧
      (∃ text, w'.files.read "out/xlua_dump_0.lua" = .ok text) ∧
      w'.log.head? = some ⟨.error, Dump.abortMessage .xlua 1 0
        (.write "out/xlua_dump_1.lua" .isDirectory)⟩ ∧
      w'.log.head? ≠ some ⟨.error, Dump.abortMessage .xlua 1 1
        (.write "out/xlua_dump_1.lua" .isDirectory)⟩ := by
  have hresult : ((Dump.run .xlua 70 "out" growing : StateM World _) squatted).1 =
      .error (.write "out/xlua_dump_1.lua" .isDirectory) := by
    decide +kernel
  have hread : ((Dump.run .xlua 70 "out" growing : StateM World _) squatted).2.files.read
      "out/xlua_dump_0.lua" =
        .ok "---@meta\n\n---@class CS.A\n---@overload fun(): CS.A\nlocal A = \x7b\x7d\n\n" := by
    decide +kernel
  have hlog : ((Dump.run .xlua 70 "out" growing : StateM World _) squatted).2.log.head? =
      some ⟨.error, Dump.abortMessage .xlua 1 0 (.write "out/xlua_dump_1.lua" .isDirectory)⟩ := by
    decide +kernel
  rcases hrun : (Dump.run .xlua 70 "out" growing : StateM World _) squatted with ⟨result, w'⟩
  rw [hrun] at hresult hread hlog
  obtain rfl : result = _ := hresult
  refine ⟨w', rfl, by decide +kernel, ⟨_, hread⟩, hlog, ?_⟩
  rw [hlog]
  decide +kernel

end Run

end LuaTypings
