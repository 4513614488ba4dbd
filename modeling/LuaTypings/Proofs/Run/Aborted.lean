/-
LuaTypings/Proofs/Run/Aborted.lean

Dumps that end early.  Files are written in a fixed order, and no file makes or removes a directory;
so a dump ends at the first file that could not have been written in the beginning either, with all
files before it in place and nothing else changed (`writeAll_stopsAt`).  A run ends with this dump.

Main result: `abort_keeps_prefix`.
-/
import LuaTypings.Proofs.Run.Bindings

namespace LuaTypings

namespace FileTree

variable {t t' : FileTree} {dir : String} {os before : List TextFile} {o : TextFile}
  {cause : FileError}

/-- Writing files one after the other stops at one of them: it cannot be written and those before it
can, these are written, and everything else is as it was. -/
structure StopsAt (t t' : FileTree) (os before : List TextFile) (o : TextFile)
    (cause : FileError) : Prop where
  order : ∃ after, os = before ++ o :: after
  writable : ∀ p ∈ before, ∃ t₁, t.write p.path p.text = .ok t₁
  refused : t.write o.path o.text = .error cause
  written : ∀ p ∈ before, t'.read p.path = .ok p.text
  others : ∀ l, (∀ p ∈ before, t.fileAt? p.path ≠ some l) → t'.get? l = t.get? l

/-- Files of one directory: what refuses a file refuses it from the beginning. -/
theorem write_eq_error_of_writeAll {name : String}
    (hnames : ∀ p ∈ before, ∃ name, Path.IsEntryName name ∧ p.path = Path.join dir name)
    (hbefore : (t.writeAll before).1 = .ok ()) (hname : Path.IsEntryName name)
    (hpath : o.path = Path.join dir name)
    (h : (t.writeAll before).2.write o.path o.text = .error cause) :
    t.write o.path o.text = .error cause := by
  rcases before with - | ⟨first, rest⟩
  · exact h
  · -- a file that is written tells that the directory is there
    obtain ⟨l, hl⟩ := writeAll_eq_ok_iff.mp hbefore first List.mem_cons_self
    obtain ⟨firstName, hfirst, hfirstPath⟩ := hnames first List.mem_cons_self
    rw [hfirstPath] at hl
    obtain ⟨here, hhere, -⟩ := fileAt?_join hfirst hl
    have hdirs := sameDirs_writeAll t (first :: rest)
    rw [hpath] at h ⊢
    exact write_join_error_congr hdirs (dirAt?_mono hdirs.symm.within hhere) hname h

theorem writeAll_stopsAt {e : DumpError}
    (hnames : ∀ p ∈ os, ∃ name, Path.IsEntryName name ∧ p.path = Path.join dir name)
    (hapart : (os.map TextFile.path).Pairwise t.Apart) (h : (t.writeAll os).1 = .error e) :
    ∃ before o cause, e = .write o.path cause ∧
      t.StopsAt (t.writeAll os).2 os before o cause := by
  obtain ⟨before, o, after, cause, rfl, rfl, hbefore, hrefused, hfiles⟩ := writeAll_eq_error h
  rw [hfiles]
  have hbeforeNames : ∀ p ∈ before, ∃ name, Path.IsEntryName name ∧ p.path = Path.join dir name :=
    fun p hp => hnames p (List.mem_append_left _ hp)
  obtain ⟨name, hname, hpath⟩ := hnames o (List.mem_append_right _ List.mem_cons_self)
  rw [List.map_append] at hapart
  have hbeforeApart := (List.pairwise_append.mp hapart).1
  exact ⟨before, o, cause, rfl,
    { order := ⟨after, rfl⟩
      writable := by
        intro p hp
        obtain ⟨l, hl⟩ := writeAll_eq_ok_iff.mp hbefore p hp
        exact ⟨_, write_of_fileAt? hl p.text⟩
      refused := write_eq_error_of_writeAll hbeforeNames hbefore hname hpath hrefused
      written := fun p hp => read_writeAll hbefore hbeforeApart hp
      others := fun l hl => get?_writeAll_of_ne hl }⟩

end FileTree

namespace Run

variable {f : Flavor} {threshold : Nat} {dir : String} {types : List Declaration} {w : World}
  {t : FileTree}

/-- A dump that cannot write all its files ends at the first that it cannot write. -/
theorem run_stopsAt (hmade : w.files.createDirs dir = (.ok (), t))
    (hbad : ∃ o ∈ Dump.outputs f threshold dir types, ∃ e, t.write o.path o.text = .error e) :
    ∃ before o cause w', (Dump.run f threshold dir types : StateM World _) w =
        (.error (.write o.path cause), w') ∧
      t.StopsAt w'.files (Dump.outputs f threshold dir types) before o cause := by
  have hnames : ∀ p ∈ Dump.outputs f threshold dir types,
      ∃ name, Path.IsEntryName name ∧ p.path = Path.join dir name := by
    intro p hp
    obtain ⟨name, hname, hpath⟩ := Dump.exists_name_of_mem_outputs hp
    exact ⟨name, Dump.isEntryName_of_mem_outputNames hname, hpath⟩
  have hapart := Dump.pairwise_apart_outputs t f threshold dir types
  obtain ⟨hresult, hfiles⟩ := Dump.run_of_made hmade f threshold types
  rcases hall : (t.writeAll (Dump.outputs f threshold dir types)).1 with e | _
  · rw [hall] at hresult
    obtain ⟨before, o, cause, rfl, hstops⟩ := FileTree.writeAll_stopsAt hnames hapart hall
    rw [← hfiles] at hstops
    exact ⟨before, o, cause, _, Prod.ext hresult rfl, hstops⟩
  · -- all files are written, also the one that cannot be
    obtain ⟨o, ho, e, herror⟩ := hbad
    obtain ⟨l, hl⟩ := FileTree.writeAll_eq_ok_iff.mp hall o ho
    rw [FileTree.write_of_fileAt? hl] at herror
    cases herror

/-- A run ends with a dump that ends early; the bindings behind it are not reached. -/
theorem dump_of_run_error {path : String} {catalog : Catalog} {earlier : List Flavor}
    {u w' : World} {e : DumpError} {s : Summary}
    (hload : (loadCatalog path : StateM World _) u = (.ok catalog, u))
    (hearlier : (dump path ⟨dir, threshold, earlier⟩ : StateM World _) u = (.ok s, w))
    (hrun : (Dump.run f threshold dir (Generics.merge catalog.types).types : StateM World _) w =
      (.error e, w')) (later : List Flavor) :
    ∃ u', (dump path ⟨dir, threshold, earlier ++ f :: later⟩ : StateM World _) u =
        (.error (.dump f e), u') ∧ u'.files = w'.files := by
  rw [loadCatalog_apply] at hload
  have hloaded := (Prod.mk.inj hload).1
  obtain ⟨catalog', hloaded', -, hmakes⟩ :=
    (dump_eq_ok_iff path ⟨dir, threshold, earlier⟩).mp ⟨w, hearlier, rfl⟩
  rw [hloaded] at hloaded'
  obtain rfl := Except.ok.inj hloaded'
  obtain ⟨log, happly⟩ := dump_apply hloaded ⟨dir, threshold, earlier ++ f :: later⟩
  obtain ⟨u', hflavors, hfiles⟩ := dumpFlavors_append_of_error
    ⟨dir, threshold, earlier ++ f :: later⟩ (w := { u with log }) hmakes hrun [] later
  rw [happly, hflavors]
  exact ⟨u', rfl, hfiles⟩

/-- **A dump that is aborted leaves a clean prefix.**  Let the directory be made and some file be
refused in it.  Then the dump ends with an error that names the first such file in the order of the
chunks, the namespace index and the stubs.  The files before it hold what they hold after any dump
of these declarations that succeeds, and apart from them and from directories on the way everything
is as before.  In a run that comes to this dump no later binding writes anything. -/
theorem abort_keeps_prefix (hmade : w.files.createDirs dir = (.ok (), t))
    (hbad : ∃ o ∈ Dump.outputs f threshold dir types, ∃ e, t.write o.path o.text = .error e) :
    ∃ before o cause w', (Dump.run f threshold dir types : StateM World _) w =
        (.error (.write o.path cause), w') ∧
      t.StopsAt w'.files (Dump.outputs f threshold dir types) before o cause ∧
      (Dump.outputs f threshold dir types).map TextFile.path =
        (Dump.outputNames f (Dump.chunkCount f threshold dir types)).map (Path.join dir) ∧
      (∀ v r v', (Dump.run f threshold dir types : StateM World _) v = (.ok r, v') →
        r.paths = (Dump.outputs f threshold dir types).map TextFile.path ∧
          ∀ p ∈ Dump.outputs f threshold dir types, v'.files.read p.path = .ok p.text) ∧
      FileTree.GrowsBy w.files t (Path.ancestors dir) ∧
      ∀ path u catalog earlier later s, (loadCatalog path : StateM World _) u = (.ok catalog, u) →
        (Generics.merge catalog.types).types = types →
        (dump path ⟨dir, threshold, earlier⟩ : StateM World _) u = (.ok s, w) →
        ∃ u', (dump path ⟨dir, threshold, earlier ++ f :: later⟩ : StateM World _) u =
            (.error (.dump f (.write o.path cause)), u') ∧ u'.files = w'.files := by
  obtain ⟨before, o, cause, w', hrun, hstops⟩ := run_stopsAt hmade hbad
  refine ⟨before, o, cause, w', hrun, hstops, Dump.path_outputs f threshold dir types, ?_, ?_, ?_⟩
  · intro v r v' h
    obtain rfl := Dump.report_of_run h
    exact ⟨Dump.paths_reportOf f threshold dir types, fun p hp => Dump.read_of_run h hp⟩
  · have hgrows := FileTree.createDirs_grows w.files dir
    rwa [hmade] at hgrows
  · rintro path u catalog earlier later s hload rfl hearlier
    exact dump_of_run_error hload hearlier hrun later

/-- A catalog of two classes. -/
def twoClasses : Catalog := ⟨Dump.classesNamed ["A", "B"], 2⟩

/-- A world with this catalog and a directory that has the name of the second chunk. -/
def withSquatter : World where
  files := ⟨[(["out"], .directory), (["out", "xlua_dump_1.lua"], .directory),
    (["catalog.json"], .file twoClasses.toText)]⟩

/-- The second chunk is refused; the first one is there, and no other binding is reached. -/
theorem abort_keeps_prefix_squatter :
    ∃ u', (dump "catalog.json" ⟨"out", 1, [.xlua, .tolua]⟩ : StateM World _) withSquatter =
        (.error (.dump .xlua (.write "out/xlua_dump_1.lua" .isDirectory)), u') ∧
      (∃ text, u'.files.read "out/xlua_dump_0.lua" = .ok text) ∧
      u'.files.get? ["out", "tolua_dump_0.lua"] = none := by
  have hnamed : ∀ d ∈ twoClasses.types, Text.isBlankText d.name = false := by decide +kernel
  have hread : withSquatter.files.read "catalog.json" = .ok twoClasses.toText := rfl
  have hloaded : loaded "catalog.json" (.ok twoClasses.toText) = .ok twoClasses :=
    loaded_eq_ok_iff.mpr (Catalog.ofText_toText_eq_ok_iff.mpr hnamed)
  rw [← hread] at hloaded
  obtain ⟨w, hearlier, hfiles⟩ :=
    (dump_eq_ok_iff "catalog.json" ⟨"out", 1, []⟩).mpr ⟨twoClasses, hloaded, rfl, rfl⟩
  have hmade : w.files.createDirs "out" = (.ok (), withSquatter.files) := by
    rw [hfiles]
    rfl
  have hmem : "xlua_dump_1.lua" ∈ Dump.outputNames .xlua
      (Dump.chunkCount .xlua 1 "out" twoClasses.types) := by
    decide +kernel
  obtain ⟨squatted, hsquatted, hpath⟩ := Dump.exists_output_of_name hmem
  have hrefused : withSquatter.files.write squatted.path squatted.text = .error .isDirectory := by
    rw [hpath]
    rfl
  obtain ⟨before, o, cause, w', hrun, hstops, -, -, -, hdump⟩ :=
    abort_keeps_prefix hmade ⟨squatted, hsquatted, _, hrefused⟩
  -- the error tells where the dump has ended
  have hresult : ((Dump.run .xlua 1 "out" twoClasses.types : StateM World _) withSquatter).1 =
      .error (.write "out/xlua_dump_1.lua" .isDirectory) := by
    decide +kernel
  obtain ⟨v, hrun', -⟩ := Dump.run_congr hfiles.symm hrun
  rw [hrun'] at hresult
  obtain ⟨hpath, rfl⟩ := DumpError.write.inj (Except.error.inj hresult)
  rw [hpath] at hdump
  have hload := loadCatalog_apply "catalog.json" withSquatter
  rw [hloaded] at hload
  obtain ⟨u', hdump', hsame⟩ := hdump "catalog.json" withSquatter twoClasses [] [.tolua] _ hload
    (by decide +kernel) hearlier
  refine ⟨u', hdump', ?_, ?_⟩
  · obtain ⟨after, horder⟩ := hstops.order
    have hpaths : (Dump.outputs .xlua 1 "out" twoClasses.types).map TextFile.path =
        ["out/xlua_dump_0.lua", "out/xlua_dump_1.lua", "out/xlua_namespace.lua",
          "out/xlua_unexported.lua"] := by
      decide +kernel
    rw [horder, List.map_append, List.map_cons, hpath] at hpaths
    rcases before with - | ⟨first, rest⟩
    · exact absurd (List.cons.inj hpaths).1 (by decide)
    · obtain ⟨hfirst, -⟩ := List.cons.inj hpaths
      have hread := hstops.written first List.mem_cons_self
      rw [hfirst, ← hsame] at hread
      exact ⟨_, hread⟩
  · have hother : ∀ p ∈ Dump.outputs .xlua 1 "out" twoClasses.types,
        withSquatter.files.fileAt? p.path ≠ some ["out", "tolua_dump_0.lua"] := by
      decide +kernel
    obtain ⟨after, horder⟩ := hstops.order
    rw [horder] at hother
    rw [hsame, hstops.others _ fun p hp => hother p (List.mem_append_left _ hp)]
    rfl

end Run

end LuaTypings
