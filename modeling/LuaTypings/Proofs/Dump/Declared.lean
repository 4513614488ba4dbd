/-
LuaTypings/Proofs/Dump/Declared.lean

The types of the index and the types that the chunks declare.  The index has a type for a declaration
without a namespace, rendered or not (`exists_of_mem_indexOf`).  A chunk is the header of the file and
a group of blocks, and the blocks of all groups are those that can be rendered
(`exists_groups_of_run`); so the chunks declare what is emitted (`declaredIn_of_emittedAs`), and where
names are identifiers nothing else (`emittedAs_of_declaredIn`).

Main result: `typed_declared_iff`.
-/
import LuaTypings.Proofs.Dump.Places
import LuaTypings.Proofs.Dump.Roots
import LuaTypings.Proofs.Headers

namespace LuaTypings

/-! ### Types in the index -/

namespace NamespaceIndex

theorem mem_register {index : NamespaceIndex} {space name : String} {e : RootTable}
    (h : e ∈ (index.register space name).entries) : e ∈ index.entries ∨ e = rootOf space name := by
  unfold register at h
  dsimp only at h
  split_ifs at h
  · exact Or.inl h
  · exact (List.mem_append.mp h).imp_right List.mem_singleton.mp

/-- Every entry is that of a declaration. -/
theorem exists_of_mem_foldl {types : List Declaration} {index : NamespaceIndex} {e : RootTable}
    (h : e ∈ (types.foldl (fun index d => index.register d.space d.name) index).entries) :
    e ∈ index.entries ∨ ∃ d ∈ types, e = rootOf d.space d.name := by
  induction types generalizing index with
  | nil => exact Or.inl h
  | cons d types ih =>
    rcases ih h with hmem | ⟨d', hd', he⟩
    · rcases mem_register hmem with hmem | he
      · exact Or.inl hmem
      · exact Or.inr ⟨d, List.mem_cons_self, he⟩
    · exact Or.inr ⟨d', List.mem_cons_of_mem d hd', he⟩

/-- A declaration that is entered as a type has no namespace, and its path is the name. -/
theorem rootOf_isNamespace_eq_false {d : Declaration}
    (h : (rootOf d.space d.name).isNamespace = false) :
    d.space = "" ∧ References.pathOf d = (rootOf d.space d.name).name := by
  unfold rootOf at h ⊢
  split_ifs at h ⊢ with hspace
  have hempty : d.space = "" := by simpa using hspace
  refine ⟨hempty, ?_⟩
  rw [References.pathOf, Declaration.fullName, hempty]
  rfl

end NamespaceIndex

namespace Dump

open Annotations (Declares)

variable {f : Flavor} {threshold : Nat} {dir : String} {types : List Declaration} {w w' : World}
  {report : DumpReport} {name : String}

/-- A type in the index is that of a declaration without a namespace. -/
theorem exists_of_mem_indexOf {e : RootTable} (he : e ∈ (indexOf types).entries)
    (htype : e.isNamespace = false) : ∃ d ∈ types, d.space = "" ∧ References.pathOf d = e.name := by
  rcases NamespaceIndex.exists_of_mem_foldl he with hnone | ⟨d, hd, rfl⟩
  · exact absurd hnone List.not_mem_nil
  · exact ⟨d, hd, NamespaceIndex.rootOf_isNamespace_eq_false htype⟩

/-! ### Groups of blocks -/

theorem writer_foldl (f : Flavor) (types : List Declaration) (p : Progress) :
    (types.foldl (Progress.taken f) p).writer =
      (rendered f types).foldl ChunkWriter.taken p.writer := by
  induction types generalizing p with
  | nil => rfl
  | cons d types ih =>
    rw [List.foldl_cons, ih, rendered, rendered, List.filterMap_cons]
    unfold Progress.taken
    rcases Block.render f d with e | block
    · rfl
    · rfl

theorem exists_of_mem_rendered {block : String} (h : block ∈ rendered f types) :
    ∃ d ∈ types, Block.render f d = .ok block := by
  obtain ⟨d, hd, hblock⟩ := List.mem_filterMap.mp h
  rcases hrender : Block.render f d with e | block'
  · rw [hrender] at hblock
    cases hblock
  · rw [hrender] at hblock
    exact ⟨d, hd, hrender.trans (congrArg Except.ok (Option.some.inj hblock))⟩

/-- A block has lines. -/
theorem ne_empty_of_mem_rendered (f : Flavor) (types : List Declaration) :
    ∀ block ∈ rendered f types, block ≠ "" := by
  rintro block hblock rfl
  obtain ⟨d, -, hrender⟩ := exists_of_mem_rendered hblock
  obtain ⟨ls, hls, hempty⟩ := Block.render_eq_ok hrender
  obtain ⟨rest, back, hsplit, -⟩ := Block.lines_eq_ok f hls
  have hne : ls ≠ [] := by simp [hsplit]
  have hend := Annotations.getLast?_unlines hne
  rw [← hempty] at hend
  cases hend

/-- The texts of the chunks are those of groups of the blocks. -/
theorem exists_groups_of_run
    (h : (run f threshold dir types : StateM World _) w = (.ok report, w')) :
    ∃ groups : List (List String), groups.flatten = rendered f types ∧
      ∀ text, (∃ path ∈ report.files, w'.files.read path = .ok text) ↔
        ∃ group ∈ groups, chunkText group = text := by
  obtain ⟨groups, hcut, hbodies⟩ := ChunkWriter.exists_groups dir f.name threshold
    (ne_empty_of_mem_rendered f types)
  -- what is skipped does not touch the writer, so it is that of the blocks alone
  have hwriter : (final f threshold dir types).writer =
      ChunkWriter.writtenAll dir f.name threshold (rendered f types) :=
    congrArg ChunkWriter.settled (writer_foldl f types (.start f threshold dir types))
  rw [← hwriter] at hbodies
  have hread : ∀ c ∈ (final f threshold dir types).writer.files,
      w'.files.read c.path = .ok (Annotations.metaHeader ++ c.body) := fun c hc =>
    read_of_run h (mem_outputs_of_mem_files hc)
  obtain rfl := report_of_run h
  refine ⟨groups, hcut.flatten, fun text => ⟨?_, ?_⟩⟩
  · rintro ⟨path, hpath, htext⟩
    obtain ⟨c, hc, rfl⟩ := List.mem_map.mp hpath
    have hbody : c.body ∈ groups.map String.join := hbodies ▸ List.mem_map_of_mem hc
    obtain ⟨group, hgroup, hjoin⟩ := List.mem_map.mp hbody
    rw [hread c hc] at htext
    exact ⟨group, hgroup, by rw [chunkText, hjoin, Except.ok.inj htext]⟩
  · rintro ⟨group, hgroup, rfl⟩
    have hbody : String.join group ∈
        (final f threshold dir types).writer.files.map ChunkFile.body :=
      hbodies ▸ List.mem_map_of_mem hgroup
    obtain ⟨c, hc, hjoin⟩ := List.mem_map.mp hbody
    exact ⟨c.path, List.mem_map_of_mem hc, by rw [hread c hc, hjoin, chunkText]⟩

/-! ### What the chunks declare -/

/-- One of several files declares a type. -/
def DeclaredIn (t : FileTree) (paths : List String) (name : String) : Prop :=
  ∃ path ∈ paths, ∃ text, t.read path = .ok text ∧ Declares text name

/-- What is emitted is declared. -/
theorem declaredIn_of_emittedAs
    (h : (run f threshold dir types : StateM World _) w = (.ok report, w'))
    (hemitted : EmittedAs f types name) : DeclaredIn w'.files report.files (f.root ++ name) := by
  obtain ⟨d, hd, hrender, rfl⟩ := hemitted
  obtain ⟨groups, hflatten, htexts⟩ := exists_groups_of_run h
  rcases hblock : Block.render f d with e | block
  · rw [isEmitted, hblock] at hrender
    cases hrender
  have hmem : block ∈ groups.flatten := by
    rw [hflatten]
    exact List.mem_filterMap.mpr ⟨d, hd, by rw [hblock]; rfl⟩
  -- the block is in some group, and the chunk of the group can be read
  obtain ⟨group, hgroup, hin⟩ := List.mem_flatten.mp hmem
  obtain ⟨path, hpath, hread⟩ := (htexts _).mpr ⟨group, hgroup, rfl⟩
  refine ⟨path, hpath, _, hread, Block.declares_chunkText (fun block hblock => ?_) hblock hin⟩
  have hrendered : block ∈ rendered f types :=
    hflatten ▸ List.mem_flatten_of_mem hgroup hblock
  obtain ⟨d', -, hd'⟩ := exists_of_mem_rendered hrendered
  exact ⟨d', hd'⟩

/-- Where names are identifiers, what is declared is emitted. -/
theorem emittedAs_of_declaredIn
    (h : (run f threshold dir types : StateM World _) w = (.ok report, w'))
    (hplain : ∀ d ∈ types, d.HasPlainNames) (hname : HostType.IsName name)
    (hdeclared : DeclaredIn w'.files report.files (f.root ++ name)) : EmittedAs f types name := by
  obtain ⟨path, hpath, text, hread, htext⟩ := hdeclared
  obtain ⟨groups, hflatten, htexts⟩ := exists_groups_of_run h
  obtain ⟨group, hgroup, rfl⟩ := (htexts text).mp ⟨path, hpath, hread⟩
  have hblocks : ∀ block ∈ group, ∃ d ∈ types, Block.render f d = .ok block := fun block hblock =>
    exists_of_mem_rendered (hflatten ▸ List.mem_flatten_of_mem hgroup hblock)
  obtain ⟨d, hd, block, -, hrender, heq⟩ :=
    (Block.declares_chunkText_iff hplain hblocks (Block.isName_root_append f hname)).mp htext
  refine ⟨d, hd, by rw [isEmitted, hrender]; rfl, ?_⟩
  exact (String.append_right_inj f.root).mp heq

/-- **The types of the index.**  After a run that succeeds, every entry of the index that is a type
is that of a declaration without a namespace.  If a declaration with its path is in the chunks, they
declare the type; where names are identifiers, they do so exactly then.  So they declare every type
of the index if no declaration is skipped. -/
theorem typed_declared_iff
    (h : (run f threshold dir types : StateM World _) w = (.ok report, w')) :
    w'.files.read report.namespaceFile = .ok ((indexOf types).text f.root) ∧
    (∀ e ∈ (indexOf types).entries, e.isNamespace = false →
      (∃ d ∈ types, d.space = "" ∧ References.pathOf d = e.name) ∧
      (EmittedAs f types e.name → DeclaredIn w'.files report.files (f.root ++ e.name)) ∧
      ((∀ d ∈ types, d.HasPlainNames) →
        (DeclaredIn w'.files report.files (f.root ++ e.name) ↔ EmittedAs f types e.name))) ∧
    ((∀ d ∈ types, isEmitted f d = true) →
      ∀ e ∈ (indexOf types).entries, e.isNamespace = false →
        DeclaredIn w'.files report.files (f.root ++ e.name)) := by
  refine ⟨(isComplete_of_run h).namespaces, ?_, ?_⟩
  · intro e he htype
    refine ⟨exists_of_mem_indexOf he htype, declaredIn_of_emittedAs h, fun hplain => ?_⟩
    have hname : HostType.IsName e.name :=
      isName_of_mem_indexOf (fun d hd => (hplain d hd).toHasPath) he
    exact ⟨emittedAs_of_declaredIn h hplain hname, declaredIn_of_emittedAs h⟩
  · intro hall e he htype
    obtain ⟨d, hd, -, hpath⟩ := exists_of_mem_indexOf he htype
    exact declaredIn_of_emittedAs h ⟨d, hd, hall d hd, hpath⟩

/-- Beside a class that is skipped, the other one is declared. -/
theorem typed_declared_besideBroken :
    ∃ report w', (run .xlua 1 "out" (besideBroken "int") : StateM World _) {} = (.ok report, w') ∧
      report.skipped.length = 1 ∧ (⟨"A", false⟩ : RootTable) ∈ (indexOf (besideBroken "int")).entries ∧
      DeclaredIn w'.files report.files "CS.A" := by
  have hrun : ((run .xlua 1 "out" (besideBroken "int") : StateM World _) {}).1.toOption.map
      (fun report => report.skipped.length) = some 1 := by decide +kernel
  obtain ⟨report, w', h, hskipped⟩ := exists_ok_of_toOption hrun
  have hentry : (⟨"A", false⟩ : RootTable) ∈ (indexOf (besideBroken "int")).entries := by
    decide +kernel
  exact ⟨report, w', h, hskipped, hentry,
    ((typed_declared_iff h).2.1 _ hentry rfl).2.1 (by decide +kernel)⟩

/-- A class that is skipped is a type in the file of the index, and no chunk declares it. -/
theorem not_typed_declared_skipped :
    ∃ report w' text, (run .xlua 1 "out" (besideBroken "int") : StateM World _) {} =
        (.ok report, w') ∧
      w'.files.read report.namespaceFile = .ok text ∧
      "---@type CS.B\nCS.B = \x7b\x7d\n".toList <:+: text.toList ∧
      ¬ DeclaredIn w'.files report.files "CS.B" := by
  have hrun : ((run .xlua 1 "out" (besideBroken "int") : StateM World _) {}).1.toOption.map
      DumpReport.files = some ["out/xlua_dump_0.lua"] := by decide +kernel
  have hnone : (((run .xlua 1 "out" (besideBroken "int") : StateM World _) {}).2.files.read
      "out/xlua_dump_0.lua").toOption.map (fun text => decide
        (∀ tag ∈ Annotations.headerTags, ¬ (tag ++ "CS.B").toList <:+: text.toList)) = some true := by
    decide +kernel
  obtain ⟨report, w', h, hfiles⟩ := exists_ok_of_toOption hrun
  refine ⟨report, w', _, h, (isComplete_of_run h).namespaces, by decide +kernel, ?_⟩
  rintro ⟨path, hpath, text, hread, hdeclares⟩
  rw [hfiles, List.mem_singleton] at hpath
  rw [h, ← hpath, hread] at hnone
  exact Annotations.not_declares (of_decide_eq_true (Option.some.inj hnone)) hdeclares

end Dump

end LuaTypings
