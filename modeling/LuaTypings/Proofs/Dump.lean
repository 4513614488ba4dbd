/-
LuaTypings/Proofs/Dump.lean

What a dump writes and reports.  `Progress.taken` is what one declaration changes if its block
can be written; `Follows` says of several declarations what they change altogether, and holds of
any number of them because it holds of one (`follows_taken`, `follows_foldl`).  The actions of a
dump write the files by which their progress grows (`adds_takeAll`, `writes_writeFiles`), all in
different places (`pairwise_apart_outputs`).

Main result: `run_complete`.
-/
import LuaTypings.Dump
import LuaTypings.Proofs.Chunk
import LuaTypings.Proofs.References
import Mathlib.Data.List.Forall2

namespace LuaTypings.Dump

/-! ### What declarations come to -/

/-- The blocks of the declarations that can be rendered. -/
def rendered (f : Flavor) (types : List Declaration) : List String :=
  types.filterMap fun d => (Block.render f d).toOption

/-- The declarations that cannot be rendered, with the reason. -/
def skippedOf (f : Flavor) (types : List Declaration) : List Skipped :=
  types.filterMap fun d =>
    match Block.render f d with
    | .error e => some (.of d e)
    | .ok _ => none

/-- The index of declarations. -/
def indexOf (types : List Declaration) : NamespaceIndex :=
  types.foldl (fun index d => index.register d.space d.name) {}

/-- Every declaration is rendered or skipped. -/
theorem length_rendered_add_length_skippedOf (f : Flavor) (types : List Declaration) :
    (rendered f types).length + (skippedOf f types).length = types.length := by
  induction types with
  | nil => rfl
  | cons d types ih =>
    unfold rendered skippedOf at ih ⊢
    rw [List.filterMap_cons, List.filterMap_cons, List.length_cons, ← ih]
    rcases Block.render f d with e | block
    · exact (Nat.add_assoc ..).symm
    · exact Nat.succ_add ..

namespace Progress

/-- The progress when a declaration is taken or left out. -/
def taken (f : Flavor) (p : Progress) (d : Declaration) : Progress :=
  match Block.render f d with
  | .error e => (p.survey d).skip (.of d e)
  | .ok block => (p.survey d).took (p.writer.taken block)

/-- The progress when the last chunk is written. -/
def closed (p : Progress) : Progress :=
  { p with writer := p.writer.settled, counted := p.writer.settled.files.length }

/-- What is reported in the end. -/
def report (f : Flavor) (dir : String) (p : Progress) : DumpReport :=
  { flavor := f
    emitted := p.emitted
    failed := p.failed
    skipped := p.skipped
    files := p.writer.paths
    namespaceFile := namespacePath f dir
    namespaceCount := p.index.size
    stubFile := Path.join dir (stubFile f)
    missing := p.references.missing }

/-- What several declarations change. -/
structure Follows (f : Flavor) (p : Progress) (types : List Declaration) (p' : Progress) : Prop where
  index : p'.index = types.foldl (fun index d => index.register d.space d.name) p.index
  references : p'.references = types.foldl References.mentionAll p.references
  emitted : p'.emitted = p.emitted + (rendered f types).length
  failed : p'.failed = p.failed + (skippedOf f types).length
  skipped : p'.skipped = p.skipped ++ skippedOf f types
  contents : p.writer.Headed →
    p'.writer.contents = p.writer.contents ++ String.join (rendered f types)
  kept : ∀ {P}, ChunkWriter.IsKept P → P p.writer → P p'.writer

theorem Follows.refl (f : Flavor) (p : Progress) : Follows f p [] p where
  index := rfl
  references := rfl
  emitted := rfl
  failed := rfl
  skipped := (List.append_nil _).symm
  contents _ := by simp [rendered]
  kept _ := id

theorem Follows.trans {f : Flavor} {p p' p'' : Progress} {types types' : List Declaration}
    (h : Follows f p types p') (h' : Follows f p' types' p'') :
    Follows f p (types ++ types') p'' where
  index := by rw [h'.index, h.index, List.foldl_append]
  references := by rw [h'.references, h.references, List.foldl_append]
  emitted := by
    rw [h'.emitted, h.emitted, rendered, rendered, rendered, List.filterMap_append,
      List.length_append, Nat.add_assoc]
  failed := by
    rw [h'.failed, h.failed, skippedOf, skippedOf, skippedOf, List.filterMap_append,
      List.length_append, Nat.add_assoc]
  skipped := by
    rw [h'.skipped, h.skipped, skippedOf, skippedOf, skippedOf, List.filterMap_append,
      List.append_assoc]
  contents hp := by
    rw [h'.contents (h.kept ChunkWriter.isKept_headed hp), h.contents hp, rendered, rendered, rendered, List.filterMap_append,
      String.join_append, String.append_assoc]
  kept hP hp := h'.kept hP (h.kept hP hp)

/-- One declaration: its block is added as it is, or it is skipped and adds nothing. -/
theorem follows_taken (f : Flavor) (p : Progress) (d : Declaration) :
    Follows f p [d] (p.taken f d) := by
  unfold taken
  rcases hrender : Block.render f d with e | block
  · exact
      { index := rfl
        references := rfl
        emitted := by simp [rendered, hrender, survey, skip, Except.toOption]
        failed := by simp [skippedOf, hrender, survey, skip]
        skipped := by simp [skippedOf, hrender, survey, skip]
        contents := fun _ => by simp [rendered, hrender, survey, skip, Except.toOption]
        kept := fun _ => id }
  · exact
      { index := rfl
        references := rfl
        emitted := by simp [rendered, hrender, survey, took, Except.toOption]
        failed := by simp [skippedOf, hrender, survey, took]
        skipped := by simp [skippedOf, hrender, survey, took]
        contents := fun hp => by
          show (p.writer.taken block).contents = _
          rw [ChunkWriter.contents_taken hp]
          simp [rendered, hrender, Except.toOption]
        kept := fun hP => hP.taken block }

theorem follows_foldl (f : Flavor) (types : List Declaration) (p : Progress) :
    Follows f p types (types.foldl (taken f) p) := by
  induction types generalizing p with
  | nil => exact Follows.refl f p
  | cons d types ih => exact (follows_taken f p d).trans (ih (p.taken f d))

/-! ### What the actions write -/

theorem adds_takeOne (f : Flavor) (d : Declaration) (p : Progress) :
    ChunkWriter.Adds writer (takeOne f d p) p (p.taken f d) := by
  unfold takeOne taken
  rcases Block.render f d with e | block
  · -- a warning writes no file
    exact ChunkWriter.Adds.none rfl fun w => ⟨rfl, rfl⟩
  · exact (p.writer.adds_append block).around rfl rfl rfl fun _ _ => ⟨_, rfl⟩

theorem adds_takeAll (f : Flavor) (types : List Declaration) (p : Progress) :
    ChunkWriter.Adds writer (takeAll f types p) p (types.foldl (taken f) p) := by
  induction types generalizing p with
  | nil => exact ChunkWriter.Adds.none rfl (Writes.pure rfl)
  | cons d types ih => exact (adds_takeOne f d p).trans (ih (p.taken f d)) fun _ _ => rfl

theorem adds_finishChunks (p : Progress) :
    ChunkWriter.Adds writer (finishChunks p) p p.closed :=
  p.writer.adds_flush.around rfl rfl rfl fun _ _ => ⟨_, rfl⟩

end Progress

/-! ### All files of a dump -/

/-- The files beside the chunks. -/
def furtherOutputs (f : Flavor) (dir : String) (p : Progress) : List TextFile :=
  [⟨namespacePath f dir, p.index.text f.root⟩,
    ⟨Path.join dir (stubFile f), p.references.stubText f.root⟩]

theorem writes_writeNamespaces (f : Flavor) (dir : String) (index : NamespaceIndex) :
    Writes id (writeNamespaces f dir index : StateM World _)
      [⟨namespacePath f dir, index.text f.root⟩] (namespacePath f dir) :=
  (Writes.put _ _).andReturn ⟨_, rfl, rfl⟩ fun _ => ⟨_, rfl, rfl⟩

theorem writes_writeStubs (root dir file : String) (references : References) :
    Writes id (writeStubs root dir file references : StateM World _)
      [⟨Path.join dir file, references.stubText root⟩] (Path.join dir file) :=
  (Writes.put _ _).andReturn ⟨_, rfl, rfl⟩ fun _ => ⟨_, rfl, rfl⟩

theorem writes_finish (f : Flavor) (dir : String) (p : Progress) :
    Writes id (finish f dir p : StateM World _) (furtherOutputs f dir p) (p.report f dir) := by
  refine (writes_writeNamespaces f dir p.index).bindResult ?_ fun _ => ⟨_, rfl, rfl⟩
  exact (writes_writeStubs f.root dir (stubFile f) p.references).andReturn ⟨_, rfl, rfl⟩
    fun _ => ⟨_, rfl, rfl⟩

/-- The progress of a dump that is complete. -/
def final (f : Flavor) (threshold : Nat) (dir : String) (types : List Declaration) : Progress :=
  (types.foldl (Progress.taken f) (.start f threshold dir types)).closed

/-- The files of a dump. -/
def outputs (f : Flavor) (threshold : Nat) (dir : String) (types : List Declaration) :
    List TextFile :=
  (final f threshold dir types).writer.files.map ChunkFile.output
    ++ furtherOutputs f dir (final f threshold dir types)

theorem writes_writeFiles (f : Flavor) (threshold : Nat) (dir : String)
    (types : List Declaration) :
    Writes Prod.fst (writeFiles f dir types (.start f threshold dir types) : StateM World _)
      (outputs f threshold dir types) ((final f threshold dir types).report f dir) := by
  obtain ⟨first, hfirst, hall⟩ := Progress.adds_takeAll f types (.start f threshold dir types)
  obtain ⟨second, hsecond, hlast⟩ :=
    Progress.adds_finishChunks (types.foldl (Progress.taken f) (.start f threshold dir types))
  have hfiles : (final f threshold dir types).writer.files = first ++ second := by
    rw [final, hsecond, hfirst]
    rfl
  rw [outputs, hfiles, List.map_append, List.append_assoc]
  refine hall.bindState ?_ fun _ _ => ⟨_, rfl, rfl⟩
  refine hlast.bindState ?_ fun _ _ => ⟨_, rfl, rfl⟩
  exact (writes_finish f dir (final f threshold dir types)).andReturn ⟨_, rfl, rfl⟩
    fun _ => ⟨_, rfl, rfl⟩

/-! ### Different places -/

/-- The name of a chunk. -/
def chunkName (f : Flavor) (i : Nat) : String := f.name ++ "_dump_" ++ toString i ++ ".lua"

/-- The names of the files of a dump with this many chunks. -/
def outputNames (f : Flavor) (chunks : Nat) : List String :=
  (List.range chunks).map (chunkName f) ++ [f.name ++ "_namespace.lua", stubFile f]

theorem chunkName_eq (f : Flavor) (i : Nat) : chunkName f i = f.name ++ ChunkWriter.ending i := by
  simp only [chunkName, ChunkWriter.ending, String.append_assoc]

theorem chunkName_injective {f : Flavor} {i j : Nat} (h : chunkName f i = chunkName f j) :
    i = j := by
  rw [chunkName_eq, chunkName_eq, String.append_right_inj] at h
  exact ChunkWriter.ending_injective h

/-- A chunk is neither the index nor the stubs. -/
theorem chunkName_not_mem (f : Flavor) (i : Nat) :
    chunkName f i ∉ [f.name ++ "_namespace.lua", stubFile f] := by
  intro h
  -- the letter behind the first underscore tells the three kinds of files apart
  have hchars : (chunkName f i).toList =
      f.name.toList ++ '_' :: 'd' :: ("ump_".toList ++ (toString i).toList ++ ".lua".toList) := by
    simp [chunkName]
  rcases List.mem_cons.mp h with h | h
  · have hother := congrArg String.toList h
    rw [hchars, String.toList_append] at hother
    have hcut := List.append_cancel_left hother
    simp at hcut
  · have hother := congrArg String.toList (List.mem_singleton.mp h)
    rw [hchars, stubFile, String.toList_append] at hother
    have hcut := List.append_cancel_left hother
    simp at hcut

theorem nodup_outputNames (f : Flavor) (chunks : Nat) : (outputNames f chunks).Nodup := by
  refine List.nodup_append.mpr ⟨?_, ?_, ?_⟩
  · exact List.Nodup.map (fun _ _ => chunkName_injective) List.nodup_range
  · cases f <;> decide
  · rintro a ha b hb rfl
    obtain ⟨i, -, rfl⟩ := List.mem_map.mp ha
    exact chunkName_not_mem f i hb

theorem isPiece_of_mem_outputNames {f : Flavor} {chunks : Nat} {name : String}
    (h : name ∈ outputNames f chunks) : Path.IsPiece name := by
  rcases List.mem_append.mp h with h | h
  · obtain ⟨i, -, rfl⟩ := List.mem_map.mp h
    have hending := ChunkWriter.isPiece_ending i
    rw [chunkName_eq]
    cases f <;> constructor <;> simp [Flavor.name, hending.2]
  · have hall : ∀ name ∈ [f.name ++ "_namespace.lua", stubFile f], Path.IsPiece name := by
      cases f <;> decide
    exact hall name h

/-- What is kept of the writer with which a dump starts holds in the end. -/
theorem kept_final {P : ChunkWriter → Prop} (hP : ChunkWriter.IsKept P) {f : Flavor}
    {threshold : Nat} {dir : String} (hstart : P { dir, stem := f.name, threshold })
    (types : List Declaration) : P (final f threshold dir types).writer :=
  hP.settled ((Progress.follows_foldl f types (.start f threshold dir types)).kept hP hstart)

theorem numbered_final (f : Flavor) (threshold : Nat) (dir : String) (types : List Declaration) :
    (final f threshold dir types).writer.Numbered dir f.name :=
  kept_final (ChunkWriter.isKept_numbered dir f.name)
    (ChunkWriter.numbered_start dir f.name threshold) types

theorem headed_final (f : Flavor) (threshold : Nat) (dir : String) (types : List Declaration) :
    (final f threshold dir types).writer.Headed :=
  kept_final ChunkWriter.isKept_headed (ChunkWriter.headed_start dir f.name threshold) types

/-- A chunk of a dump is one of its files, with the header in front of its body. -/
theorem mem_outputs_of_mem_files {f : Flavor} {threshold : Nat} {dir : String}
    {types : List Declaration} {c : ChunkFile}
    (hc : c ∈ (final f threshold dir types).writer.files) :
    ⟨c.path, Annotations.metaHeader ++ c.body⟩ ∈ outputs f threshold dir types := by
  rw [← (headed_final f threshold dir types).texts c hc]
  exact List.mem_append_left _ (List.mem_map_of_mem hc)

theorem path_outputs (f : Flavor) (threshold : Nat) (dir : String) (types : List Declaration) :
    (outputs f threshold dir types).map TextFile.path =
      (outputNames f (final f threshold dir types).writer.files.length).map (Path.join dir) := by
  rw [outputs, outputNames, List.map_append, List.map_append, List.map_map, List.map_map]
  refine congrArg₂ (· ++ ·) ?_ rfl
  exact (numbered_final f threshold dir types).paths_eq

/-- The files of a dump are all in different places, whatever the tree looks like. -/
theorem pairwise_apart_outputs (t : FileTree) (f : Flavor) (threshold : Nat) (dir : String)
    (types : List Declaration) :
    ((outputs f threshold dir types).map TextFile.path).Pairwise t.Apart := by
  rw [path_outputs, List.pairwise_map]
  refine (nodup_outputNames f _).imp_of_mem fun ha hb hne l hl => ?_
  exact FileTree.fileAt?_join_ne (isPiece_of_mem_outputNames ha) (isPiece_of_mem_outputNames hb)
    hne hl

/-! ### Runs -/

/-- A run that can make the directory writes the files, and reports if all can be written. -/
theorem run_of_made {w : World} {t : FileTree} {dir : String}
    (h : w.files.createDirs dir = (.ok (), t)) (f : Flavor) (threshold : Nat)
    (types : List Declaration) :
    ((run f threshold dir types : StateM World _) w).1 =
        ((t.writeAll (outputs f threshold dir types)).1.map
          fun _ => (final f threshold dir types).report f dir) ∧
      ((run f threshold dir types : StateM World _) w).2.files =
        (t.writeAll (outputs f threshold dir types)).2 := by
  have hdirs : (FileStore.createDirs dir : StateM World _) w = (.ok (), { w with files := t }) := by
    rw [createDirs_apply, h]
  obtain ⟨hresult, hfiles⟩ := writes_writeFiles f threshold dir types { w with files := t }
  simp only [run, perform, bind, StateT.bind, hdirs]
  -- of an early end only the log tells more, and it is no part of the tree
  rcases hend : (writeFiles f dir types (.start f threshold dir types) : StateM World _)
    { w with files := t } with ⟨⟨e | report, p⟩, w'⟩
  · rw [hend] at hresult hfiles
    exact ⟨hresult, hfiles⟩
  · rw [hend] at hresult hfiles
    exact ⟨hresult, hfiles⟩

theorem run_of_not_made {w : World} {t : FileTree} {dir : String} {e : FileError}
    (h : w.files.createDirs dir = (.error e, t)) (f : Flavor) (threshold : Nat)
    (types : List Declaration) :
    ((run f threshold dir types : StateM World _) w).1 = .error (.createDir dir e) ∧
      ((run f threshold dir types : StateM World _) w).2.files = t := by
  have hdirs : (FileStore.createDirs dir : StateM World _) w =
      (.error e, { w with files := t }) := by
    rw [createDirs_apply, h]
  simp only [run, perform, bind, StateT.bind, hdirs]
  exact ⟨rfl, rfl⟩

/-- A run that succeeds has made the directory and written all files. -/
theorem run_eq_ok {f : Flavor} {threshold : Nat} {dir : String} {types : List Declaration}
    {w w' : World} {report : DumpReport}
    (h : (run f threshold dir types : StateM World _) w = (.ok report, w')) :
    ∃ t, w.files.createDirs dir = (.ok (), t) ∧
      (t.writeAll (outputs f threshold dir types)).1 = .ok () ∧
      report = (final f threshold dir types).report f dir ∧
      w'.files = (t.writeAll (outputs f threshold dir types)).2 := by
  rcases hdirs : w.files.createDirs dir with ⟨e | _, t⟩
  · obtain ⟨hrun, -⟩ := run_of_not_made hdirs f threshold types
    rw [h] at hrun
    cases hrun
  · obtain ⟨hresult, hfiles⟩ := run_of_made hdirs f threshold types
    rw [h] at hresult hfiles
    rcases hall : (t.writeAll (outputs f threshold dir types)).1 with e | _
    · rw [hall] at hresult
      cases hresult
    · rw [hall] at hresult
      exact ⟨t, rfl, hall, Except.ok.inj hresult, hfiles⟩

/-- A run succeeds exactly if the directory can be made and each file can be written in it. -/
theorem run_succeeds_iff {f : Flavor} {threshold : Nat} {dir : String} {types : List Declaration}
    {w : World} :
    (∃ report w', (run f threshold dir types : StateM World _) w = (.ok report, w')) ↔
      ∃ t, w.files.createDirs dir = (.ok (), t) ∧
        ∀ o ∈ outputs f threshold dir types, ∃ l, t.fileAt? o.path = some l := by
  constructor
  · rintro ⟨report, w', h⟩
    obtain ⟨t, hdirs, hall, -, -⟩ := run_eq_ok h
    exact ⟨t, hdirs, FileTree.writeAll_eq_ok_iff.mp hall⟩
  · rintro ⟨t, hdirs, hall⟩
    obtain ⟨hresult, -⟩ := run_of_made hdirs f threshold types
    rw [FileTree.writeAll_eq_ok_iff.mpr hall] at hresult
    exact ⟨_, _, Prod.ext hresult rfl⟩

/-! ### What is written and reported -/

/-- A report and a tree that hold all declarations: the chunks are the blocks of those that can
be rendered, the others are skipped, and the index and the stubs are those of all. -/
structure IsComplete (f : Flavor) (dir : String) (types : List Declaration) (report : DumpReport)
    (t : FileTree) : Prop where
  flavor : report.flavor = f
  bodies : ∃ bodies,
    List.Forall₂ (fun path body => t.read path = .ok (Annotations.metaHeader ++ body))
      report.files bodies ∧
    String.join bodies = String.join (rendered f types)
  emitted : report.emitted = (rendered f types).length
  failed : report.failed = report.skipped.length
  skipped : report.skipped = skippedOf f types
  all : report.emitted + report.skipped.length = types.length
  namespaceFile : report.namespaceFile = namespacePath f dir
  namespaceCount : report.namespaceCount = (indexOf types).size
  namespaces : t.read report.namespaceFile = .ok ((indexOf types).text f.root)
  stubFile : report.stubFile = Path.join dir (stubFile f)
  missing : report.missing = (References.ofCatalog types).missing
  stubs : t.read report.stubFile = .ok ((References.ofCatalog types).stubText f.root)

theorem index_final (f : Flavor) (threshold : Nat) (dir : String) (types : List Declaration) :
    (final f threshold dir types).index = indexOf types :=
  (Progress.follows_foldl f types (.start f threshold dir types)).index

theorem references_final (f : Flavor) (threshold : Nat) (dir : String)
    (types : List Declaration) :
    (final f threshold dir types).references = References.ofCatalog types :=
  (Progress.follows_foldl f types (.start f threshold dir types)).references

theorem emitted_final (f : Flavor) (threshold : Nat) (dir : String) (types : List Declaration) :
    (final f threshold dir types).emitted = (rendered f types).length :=
  (Progress.follows_foldl f types (.start f threshold dir types)).emitted.trans (Nat.zero_add _)

theorem skipped_final (f : Flavor) (threshold : Nat) (dir : String) (types : List Declaration) :
    (final f threshold dir types).skipped = skippedOf f types :=
  (Progress.follows_foldl f types (.start f threshold dir types)).skipped

theorem failed_final (f : Flavor) (threshold : Nat) (dir : String) (types : List Declaration) :
    (final f threshold dir types).failed = (final f threshold dir types).skipped.length := by
  rw [skipped_final]
  exact (Progress.follows_foldl f types (.start f threshold dir types)).failed.trans
    (Nat.zero_add _)

/-- The bodies of the chunks are the blocks, one behind the other. -/
theorem join_bodies_final (f : Flavor) (threshold : Nat) (dir : String)
    (types : List Declaration) :
    String.join ((final f threshold dir types).writer.files.map ChunkFile.body) =
      String.join (rendered f types) := by
  have hfollows := Progress.follows_foldl f types (.start f threshold dir types)
  have hstart := ChunkWriter.headed_start dir f.name threshold
  have hcontents : (final f threshold dir types).writer.contents = String.join (rendered f types) :=
    calc (final f threshold dir types).writer.contents
        = (types.foldl (Progress.taken f) (.start f threshold dir types)).writer.contents :=
          ChunkWriter.contents_settled _
      _ = (Progress.start f threshold dir types).writer.contents ++ String.join (rendered f types) :=
          hfollows.contents hstart
      _ = String.join (rendered f types) := by
          rw [Progress.start, ChunkWriter.contents_start, String.empty_append]
  -- nothing is pending any more
  have hpending : (final f threshold dir types).writer.pending = "" :=
    ChunkWriter.pending_settled (hfollows.kept ChunkWriter.isKept_headed hstart)
  rwa [ChunkWriter.contents, hpending, String.append_empty] at hcontents

theorem isComplete_of_run {f : Flavor} {threshold : Nat} {dir : String}
    {types : List Declaration} {w w' : World} {report : DumpReport}
    (h : (run f threshold dir types : StateM World _) w = (.ok report, w')) :
    IsComplete f dir types report w'.files := by
  obtain ⟨t, -, hall, rfl, hfiles⟩ := run_eq_ok h
  have hread : ∀ o ∈ outputs f threshold dir types, w'.files.read o.path = .ok o.text := by
    intro o ho
    rw [hfiles]
    exact FileTree.read_writeAll hall (pairwise_apart_outputs t f threshold dir types) ho
  have hfurther : ∀ o ∈ furtherOutputs f dir (final f threshold dir types),
      w'.files.read o.path = .ok o.text := fun o ho => hread o (List.mem_append_right _ ho)
  refine
    { flavor := rfl
      bodies := ⟨(final f threshold dir types).writer.files.map ChunkFile.body, ?_,
        join_bodies_final f threshold dir types⟩
      emitted := emitted_final f threshold dir types
      failed := failed_final f threshold dir types
      skipped := skipped_final f threshold dir types
      all := ?_
      namespaceFile := rfl
      namespaceCount := congrArg NamespaceIndex.size (index_final f threshold dir types)
      namespaces := ?_
      stubFile := rfl
      missing := congrArg References.missing (references_final f threshold dir types)
      stubs := ?_ }
  · show List.Forall₂ _ ((final f threshold dir types).writer.files.map ChunkFile.path) _
    rw [List.forall₂_map_left_iff, List.forall₂_map_right_iff, List.forall₂_same]
    intro c hc
    exact hread _ (mem_outputs_of_mem_files hc)
  · show (final f threshold dir types).emitted + (final f threshold dir types).skipped.length = _
    rw [emitted_final, skipped_final, length_rendered_add_length_skippedOf]
  · rw [← index_final f threshold dir types]
    exact hfurther ⟨namespacePath f dir, _⟩ List.mem_cons_self
  · rw [← references_final f threshold dir types]
    exact hfurther ⟨Path.join dir (stubFile f), _⟩ (List.mem_cons_of_mem _ List.mem_cons_self)

/-- Complete reports on the same declarations differ only in how the chunks are cut. -/
theorem IsComplete.unique {f : Flavor} {dir : String} {types : List Declaration}
    {report report' : DumpReport} {t t' : FileTree} (h : IsComplete f dir types report t)
    (h' : IsComplete f dir types report' t') :
    report' = { report with files := report'.files } ∧
      t'.read report.namespaceFile = t.read report.namespaceFile ∧
      t'.read report.stubFile = t.read report.stubFile := by
  have hskipped : report'.skipped = report.skipped := h'.skipped.trans h.skipped.symm
  refine ⟨?_, ?_, ?_⟩
  · rw [DumpReport.mk.injEq]
    exact ⟨h'.flavor.trans h.flavor.symm, h'.emitted.trans h.emitted.symm,
      by rw [h'.failed, h.failed, hskipped], hskipped, rfl, h'.namespaceFile.trans h.namespaceFile.symm,
      h'.namespaceCount.trans h.namespaceCount.symm, h'.stubFile.trans h.stubFile.symm,
      h'.missing.trans h.missing.symm⟩
  · rw [h.namespaces, h.namespaceFile, ← h'.namespaceFile, h'.namespaces]
  · rw [h.stubs, h.stubFile, ← h'.stubFile, h'.stubs]

/-- **What a dump writes.**  A run succeeds exactly if the directory can be made and each of its
files can be written there.  Then the chunks hold the blocks of all declarations that can be
rendered, one behind the other and in their order, and the others are reported.  So two runs
that succeed differ in how the chunks are cut and in nothing else, whatever their thresholds. -/
theorem run_complete (f : Flavor) (dir : String) (types : List Declaration) :
    (∀ threshold w, (∃ report w', (run f threshold dir types : StateM World _) w = (.ok report, w')) ↔
      ∃ t, w.files.createDirs dir = (.ok (), t) ∧
        ∀ o ∈ outputs f threshold dir types, ∃ l, t.fileAt? o.path = some l) ∧
    (∀ threshold w report w', (run f threshold dir types : StateM World _) w = (.ok report, w') →
      IsComplete f dir types report w'.files) ∧
    ∀ threshold w report w' threshold₁ w₁ report₁ w₁',
      (run f threshold dir types : StateM World _) w = (.ok report, w') →
      (run f threshold₁ dir types : StateM World _) w₁ = (.ok report₁, w₁') →
      report₁ = { report with files := report₁.files } ∧
        w₁'.files.read report.namespaceFile = w'.files.read report.namespaceFile ∧
        w₁'.files.read report.stubFile = w'.files.read report.stubFile := by
  refine ⟨fun threshold w => run_succeeds_iff, fun threshold w report w' => isComplete_of_run, ?_⟩
  intro threshold w report w' threshold₁ w₁ report₁ w₁' h h₁
  exact (isComplete_of_run h).unique (isComplete_of_run h₁)

/-- A class that mentions a type, and a class that cannot be rendered. -/
def besideBroken (mentioned : String) : List Declaration :=
  [.classType { header := { name := "A" }, fields := [{ name := "b", type := mentioned }] },
    .classType { header := { name := "B" }, fields := [{ name := "x", type := "int[" }] }]

/-- A run into an empty tree that skips one of two classes. -/
theorem run_complete_besideBroken :
    ∃ report w', (run .xlua 1 "out" (besideBroken "C") : StateM World _) {} = (.ok report, w') ∧
      report.files = ["out/xlua_dump_0.lua"] ∧ report.missing = ["C"] ∧
      IsComplete .xlua "out" (besideBroken "C") report w'.files := by
  have hrun : ((run .xlua 1 "out" (besideBroken "C") : StateM World _) {}).1.toOption.map
      (fun report => (report.files, report.missing)) = some (["out/xlua_dump_0.lua"], ["C"]) := by
    decide +kernel
  rcases h : (run .xlua 1 "out" (besideBroken "C") : StateM World _) {} with ⟨e | report, w'⟩
  · rw [h] at hrun
    cases hrun
  · rw [h] at hrun
    obtain ⟨hfiles, hmissing⟩ := Prod.mk.inj (Option.some.inj hrun)
    exact ⟨report, w', rfl, hfiles, hmissing, (run_complete .xlua "out" _).2.1 _ _ _ _ h⟩

end LuaTypings.Dump
