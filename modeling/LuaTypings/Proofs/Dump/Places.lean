/-
LuaTypings/Proofs/Dump/Places.lean

Where the files of a dump are.  Every file that a dump writes is in its directory under one of the
names of its binding (`exists_name_of_mem_outputs`), and these names tell the binding
(`eq_of_mem_outputNames`), so dumps for several bindings write files of which no two at one place
differ (`agree_outputs`).

A dump that succeeds leaves its directory made (`createDirs_of_run`) and its files to be read
(`read_of_run`).  Whether it succeeds or not, it changes nothing but the directories on the way and
files of these names (`run_changesOnly`).
-/
import LuaTypings.Proofs.Dump
import LuaTypings.Proofs.Files.Directories

namespace LuaTypings

/-- The paths of all files of a dump, in the order in which they are written. -/
def DumpReport.paths (r : DumpReport) : List String := r.files ++ [r.namespaceFile, r.stubFile]

namespace Dump

variable {f g : Flavor} {threshold : Nat} {dir name : String} {types : List Declaration}
  {w w' : World} {t : FileTree} {report : DumpReport}

/-! ### Names -/

/-- The name of a file begins like that of its binding. -/
theorem head?_of_mem_outputNames {chunks : Nat} (h : name ∈ outputNames f chunks) :
    name.toList.head? = f.name.toList.head? := by
  rcases List.mem_append.mp h with h | h
  · obtain ⟨i, -, rfl⟩ := List.mem_map.mp h
    rw [chunkName_eq, String.toList_append]
    cases f <;> rfl
  · have hall : ∀ name ∈ [f.name ++ "_namespace.lua", stubFile f],
        name.toList.head? = f.name.toList.head? := by
      cases f <;> decide
    exact hall name h

theorem eq_of_mem_outputNames {chunks chunks' : Nat} (h : name ∈ outputNames f chunks)
    (h' : name ∈ outputNames g chunks') : f = g := by
  have hheads := (head?_of_mem_outputNames h).symm.trans (head?_of_mem_outputNames h')
  revert hheads
  cases f <;> cases g <;> decide

theorem isEntryName_of_mem_outputNames {chunks : Nat} (h : name ∈ outputNames f chunks) :
    Path.IsEntryName name := by
  refine ⟨isPiece_of_mem_outputNames h, ?_, ?_⟩
  · rintro rfl
    have hhead := head?_of_mem_outputNames h
    revert hhead
    cases f <;> decide
  · rintro rfl
    have hhead := head?_of_mem_outputNames h
    revert hhead
    cases f <;> decide

/-- The number of chunks of a dump. -/
def chunkCount (f : Flavor) (threshold : Nat) (dir : String) (types : List Declaration) : Nat :=
  (final f threshold dir types).writer.files.length

theorem exists_name_of_mem_outputs {o : TextFile} (ho : o ∈ outputs f threshold dir types) :
    ∃ name ∈ outputNames f (chunkCount f threshold dir types), o.path = Path.join dir name := by
  have hpath := List.mem_map_of_mem (f := TextFile.path) ho
  rw [path_outputs] at hpath
  obtain ⟨name, hname, hjoin⟩ := List.mem_map.mp hpath
  exact ⟨name, hname, hjoin.symm⟩

theorem exists_output_of_name (h : name ∈ outputNames f (chunkCount f threshold dir types)) :
    ∃ o ∈ outputs f threshold dir types, o.path = Path.join dir name := by
  have hjoin := List.mem_map_of_mem (f := Path.join dir) h
  rw [chunkCount, ← path_outputs] at hjoin
  exact List.mem_map.mp hjoin

/-- Files of one place have one name. -/
theorem name_eq_of_fileAt? {other : String} {l : Location} (hname : Path.IsPiece name)
    (hother : Path.IsPiece other) (h : t.fileAt? (Path.join dir name) = some l)
    (h' : t.fileAt? (Path.join dir other) = some l) : name = other := by
  by_contra hne
  exact FileTree.fileAt?_join_ne hname hother hne h h'

/-- Dumps of one catalog agree on every place, whatever their bindings. -/
theorem agree_outputs (t : FileTree) (flavors : List Flavor) (threshold : Nat) (dir : String)
    (types : List Declaration) :
    t.Agree (flavors.flatMap fun f => outputs f threshold dir types) := by
  intro o ho o' ho' l hl hl'
  obtain ⟨f, -, hf⟩ := List.mem_flatMap.mp ho
  obtain ⟨g, -, hg⟩ := List.mem_flatMap.mp ho'
  -- one place means one name, and this tells the binding
  obtain ⟨name, hname, hpath⟩ := exists_name_of_mem_outputs hf
  obtain ⟨other, hother, hpath'⟩ := exists_name_of_mem_outputs hg
  have hplace := hl
  have hplace' := hl'
  rw [hpath] at hplace
  rw [hpath'] at hplace'
  obtain rfl := name_eq_of_fileAt? (isPiece_of_mem_outputNames hname)
    (isPiece_of_mem_outputNames hother) hplace hplace'
  obtain rfl := eq_of_mem_outputNames hname hother
  exact FileTree.agree_of_pairwise (pairwise_apart_outputs t f threshold dir types) o hf o' hg l
    hl hl'

/-- What is reported of a dump that is complete. -/
def reportOf (f : Flavor) (threshold : Nat) (dir : String) (types : List Declaration) :
    DumpReport := (final f threshold dir types).report f dir

theorem paths_reportOf (f : Flavor) (threshold : Nat) (dir : String) (types : List Declaration) :
    (reportOf f threshold dir types).paths = (outputs f threshold dir types).map TextFile.path := by
  rw [outputs, List.map_append, List.map_map]
  rfl

/-- Classes without anything in them. -/
def classesNamed (names : List String) : List Declaration :=
  names.map fun name => .classType { header := { name } }

/-! ### Runs that succeed -/

/-- What a run that succeeds reports, and what it makes of the files. -/
theorem run_eq_ok_iff {t' : FileTree} :
    (∃ w', (run f threshold dir types : StateM World _) w = (.ok report, w') ∧ w'.files = t') ↔
      report = reportOf f threshold dir types ∧ ∃ t, w.files.createDirs dir = (.ok (), t) ∧
        t.writeAll (outputs f threshold dir types) = (.ok (), t') := by
  constructor
  · rintro ⟨w', h, rfl⟩
    obtain ⟨t, hmade, hall, hreport, hfiles⟩ := run_eq_ok h
    exact ⟨hreport, t, hmade, Prod.ext hall hfiles.symm⟩
  · rintro ⟨rfl, t, hmade, hall⟩
    obtain ⟨hresult, hfiles⟩ := run_of_made hmade f threshold types
    rw [hall] at hresult hfiles
    exact ⟨_, Prod.ext hresult rfl, hfiles⟩

/-- A run sees nothing of the world but the files. -/
theorem run_congr {v : World} {result : Except DumpError DumpReport} (h : v.files = w.files)
    (hrun : (run f threshold dir types : StateM World _) w = (result, w')) :
    ∃ v', (run f threshold dir types : StateM World _) v = (result, v') ∧
      v'.files = w'.files := by
  suffices hsame : ((run f threshold dir types : StateM World _) v).1 = result ∧
      ((run f threshold dir types : StateM World _) v).2.files = w'.files from
    ⟨_, Prod.ext hsame.1 rfl, hsame.2⟩
  rcases hdirs : w.files.createDirs dir with ⟨e | _, t⟩
  · obtain ⟨hresult, hfiles⟩ := run_of_not_made hdirs f threshold types
    rw [hrun] at hresult hfiles
    rw [← h] at hdirs
    obtain ⟨hresult', hfiles'⟩ := run_of_not_made hdirs f threshold types
    exact ⟨hresult'.trans hresult.symm, hfiles'.trans hfiles.symm⟩
  · obtain ⟨hresult, hfiles⟩ := run_of_made hdirs f threshold types
    rw [hrun] at hresult hfiles
    rw [← h] at hdirs
    obtain ⟨hresult', hfiles'⟩ := run_of_made hdirs f threshold types
    exact ⟨hresult'.trans hresult.symm, hfiles'.trans hfiles.symm⟩

section

variable (h : (run f threshold dir types : StateM World _) w = (.ok report, w'))

include h

theorem report_of_run : report = reportOf f threshold dir types :=
  (run_eq_ok_iff.mp ⟨w', h, rfl⟩).1

/-- A run writes its files into the tree in which its directory is made. -/
theorem writeAll_of_run (hmade : w.files.createDirs dir = (.ok (), t)) :
    t.writeAll (outputs f threshold dir types) = (.ok (), w'.files) := by
  obtain ⟨-, t', hmade', hall⟩ := run_eq_ok_iff.mp ⟨w', h, rfl⟩
  rw [hmade] at hmade'
  obtain ⟨-, rfl⟩ := Prod.mk.inj hmade'
  exact hall

theorem sameDirs_of_run (hmade : w.files.createDirs dir = (.ok (), t)) :
    FileTree.SameDirs w'.files t :=
  FileTree.sameDirs_of_writeAll (writeAll_of_run h hmade)

/-- A run that succeeds leaves its directory made. -/
theorem createDirs_of_run :
    w'.files.createDirs dir = (.ok (), w'.files) := by
  obtain ⟨t, hmade, -, -, -⟩ := run_eq_ok h
  exact FileTree.createDirs_again hmade (sameDirs_of_run h hmade).symm.within

/-- The files of a run that succeeds can be read. -/
theorem read_of_run {o : TextFile} (ho : o ∈ outputs f threshold dir types) :
    w'.files.read o.path = .ok o.text := by
  obtain ⟨t, -, hall, -, hfiles⟩ := run_eq_ok h
  rw [hfiles]
  exact FileTree.read_writeAll hall (pairwise_apart_outputs t f threshold dir types) ho

end

/-! ### What a run changes -/

/-- A tree comes of another one by directories on the way to a directory, and by files in this
directory that have names of a binding. -/
def ChangesOnly (f : Flavor) (dir : String) (t t' : FileTree) : Prop :=
  ∀ l, t'.get? l = t.get? l ∨
    (t.get? l = none ∧ t'.get? l = some .directory ∧
      ∃ path ∈ Path.ancestors dir, t'.dirAt? path = some l) ∨
    ∃ here, t'.dirAt? dir = some here ∧ ∃ chunks, ∃ name ∈ outputNames f chunks,
      l = here ++ [name] ∧ ∃ text, t'.get? l = some (.file text)

/-- **A run, however it ends, changes nothing but its directory and its files.** -/
theorem run_changesOnly (f : Flavor) (threshold : Nat) (dir : String) (types : List Declaration)
    (w : World) :
    ChangesOnly f dir w.files ((run f threshold dir types : StateM World _) w).2.files := by
  intro l
  set t := ((run f threshold dir types : StateM World _) w).2.files with hrun
  have hgrows := FileTree.createDirs_grows w.files dir
  rcases hdirs : w.files.createDirs dir with ⟨e | _, made⟩
  · rw [hdirs] at hgrows
    obtain ⟨-, hfiles⟩ := run_of_not_made hdirs f threshold types
    rw [hrun.trans hfiles]
    exact (hgrows l).imp_right Or.inl
  · rw [hdirs] at hgrows
    obtain ⟨-, hfiles⟩ := run_of_made hdirs f threshold types
    have ht := hrun.trans hfiles
    have hwithin : FileTree.DirsWithin made t := by
      rw [ht]
      exact (FileTree.sameDirs_writeAll made _).symm.within
    rcases FileTree.get?_writeAll_cases made (outputs f threshold dir types) l with
      hsame | ⟨o, ho, hl, hfile⟩
    · -- no file is written here, so what is new was made with the directory
      rw [← ht] at hsame
      rcases hgrows l with hold | ⟨hnone, hnew, path, hpath, hl⟩
      · exact Or.inl (hsame.trans hold)
      · exact Or.inr (Or.inl ⟨hnone, hsame.trans hnew, path, hpath,
          FileTree.dirAt?_mono hwithin hl⟩)
    · rw [← ht] at hfile
      obtain ⟨name, hname, hpath⟩ := exists_name_of_mem_outputs ho
      rw [hpath] at hl
      obtain ⟨here, hhere, rfl⟩ :=
        FileTree.fileAt?_join (isEntryName_of_mem_outputNames hname) hl
      exact Or.inr (Or.inr ⟨here, FileTree.dirAt?_mono hwithin hhere, _, name, hname, rfl, _, hfile⟩)

end Dump

end LuaTypings
