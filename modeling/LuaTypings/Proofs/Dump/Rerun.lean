/-
LuaTypings/Proofs/Dump/Rerun.lean

Dumps for one binding into one directory.  The second of them writes its own files as if it were the
only one, and removes nothing.  So what is left of the first one are its chunks with numbers that
the second one does not reach, and nothing else.

Main result: `rerun_overwrites`.
-/
import LuaTypings.Proofs.Dump.Places

namespace LuaTypings

/-- No entry is in a directory. -/
def FileTree.IsEmptyDir (t : FileTree) (dir : String) : Prop :=
  ∀ here, t.dirAt? dir = some here → ∀ name, t.get? (here ++ [name]) = none

namespace Dump

variable {f : Flavor} {thresholdA thresholdB : Nat} {dir : String} {A B : List Declaration}
  {w wA wAB : World} {rA rB : DumpReport} {t : FileTree}

/-! ### Chunks and their numbers -/

theorem files_reportOf (f : Flavor) (threshold : Nat) (dir : String) (types : List Declaration) :
    (reportOf f threshold dir types).files = (List.range (chunkCount f threshold dir types)).map
      fun i => Path.join dir (chunkName f i) := (numbered_final f threshold dir types).paths_eq

theorem length_files_reportOf (f : Flavor) (threshold : Nat) (dir : String)
    (types : List Declaration) :
    (reportOf f threshold dir types).files.length = chunkCount f threshold dir types := by
  rw [files_reportOf, List.length_map, List.length_range]

/-- A chunk is a file of a dump if its number is reached. -/
theorem chunkName_mem_outputNames_iff {i chunks : Nat} :
    chunkName f i ∈ outputNames f chunks ↔ i < chunks := by
  rw [outputNames, List.mem_append, or_iff_left (chunkName_not_mem f i), List.mem_map]
  constructor
  · rintro ⟨j, hj, heq⟩
    rw [← chunkName_injective heq]
    exact List.mem_range.mp hj
  · intro hi
    exact ⟨i, List.mem_range.mpr hi, rfl⟩

theorem isEntryName_chunkName (f : Flavor) (i : Nat) : Path.IsEntryName (chunkName f i) :=
  isEntryName_of_mem_outputNames (chunkName_mem_outputNames_iff.mpr (Nat.lt_succ_self i))

/-- What one dump writes and another one does not is a chunk. -/
theorem mem_outputNames_cases {name : String} {chunks chunks' : Nat}
    (h : name ∈ outputNames f chunks) :
    name ∈ outputNames f chunks' ∨ ∃ i, chunks' ≤ i ∧ i < chunks ∧ name = chunkName f i := by
  rcases List.mem_append.mp h with h | h
  · obtain ⟨i, hi, rfl⟩ := List.mem_map.mp h
    rw [chunkName_mem_outputNames_iff]
    rcases Nat.lt_or_ge i chunks' with hlt | hge
    · exact Or.inl hlt
    · exact Or.inr ⟨i, hge, List.mem_range.mp hi, rfl⟩
  · exact Or.inl (List.mem_append_right _ h)

/-- Chunks at one place have one number. -/
theorem fileAt?_chunkName_inj {i j : Nat} {l : Location}
    (hi : t.fileAt? (Path.join dir (chunkName f i)) = some l)
    (hj : t.fileAt? (Path.join dir (chunkName f j)) = some l) : i = j :=
  chunkName_injective (name_eq_of_fileAt? (isEntryName_chunkName f i).1
    (isEntryName_chunkName f j).1 hi hj)

/-- Nothing of a dump is at the place of a chunk that it does not reach. -/
theorem fileAt?_ne_of_mem_outputs {threshold i : Nat} {types : List Declaration} {o : TextFile}
    (ho : o ∈ outputs f threshold dir types) (hi : chunkCount f threshold dir types ≤ i)
    {l : Location} (hl : t.fileAt? (Path.join dir (chunkName f i)) = some l) :
    t.fileAt? o.path ≠ some l := by
  obtain ⟨name, hname, hpath⟩ := exists_name_of_mem_outputs ho
  rw [hpath]
  refine FileTree.fileAt?_join_ne (isEntryName_chunkName f i).1
    (isPiece_of_mem_outputNames hname) ?_ hl
  rintro rfl
  exact Nat.not_lt.mpr hi (chunkName_mem_outputNames_iff.mp hname)

/-! ### What a dump leaves -/

section

variable {threshold : Nat} {types : List Declaration} {v v' : World} {r : DumpReport}
  (h : (run f threshold dir types : StateM World _) v = (.ok r, v'))

include h

/-- The chunks of a run can be read. -/
theorem read_chunk_of_run {i : Nat} (hi : i < r.files.length) :
    ∃ text, v'.files.read (Path.join dir (chunkName f i)) = .ok text := by
  obtain rfl := report_of_run h
  rw [length_files_reportOf] at hi
  obtain ⟨o, ho, hpath⟩ := exists_output_of_name (chunkName_mem_outputNames_iff.mpr hi)
  have hread := read_of_run h ho
  rw [hpath] at hread
  exact ⟨o.text, hread⟩

/-- What a run leaves at the place of one of its files. -/
theorem get?_of_run {o : TextFile}
    (ho : o ∈ outputs f threshold dir types) {l : Location}
    (hl : v'.files.fileAt? o.path = some l) : v'.files.get? l = some (.file o.text) := by
  obtain ⟨k, hk, hfile⟩ := FileTree.exists_of_read (read_of_run h ho)
  rw [hl] at hk
  rwa [Option.some.inj hk]

/-- What a run leaves at a place where none of its files is. -/
theorem get?_of_run_of_ne
    (hmade : v.files.createDirs dir = (.ok (), t)) {l : Location}
    (hl : ∀ o ∈ outputs f threshold dir types, v'.files.fileAt? o.path ≠ some l) :
    v'.files.get? l = t.get? l := by
  have hdirs := sameDirs_of_run h hmade
  have hnot : ∀ o ∈ outputs f threshold dir types, t.fileAt? o.path ≠ some l := by
    intro o ho
    rw [← FileTree.fileAt?_congr hdirs]
    exact hl o ho
  have hsame := FileTree.get?_writeAll_of_ne hnot
  rwa [writeAll_of_run h hmade] at hsame

/-- In a directory that was empty a dump leaves no chunk that it does not reach. -/
theorem get?_of_run_of_isEmptyDir
    (hmade : v.files.createDirs dir = (.ok (), t)) (hempty : t.IsEmptyDir dir) {i : Nat}
    (hi : r.files.length ≤ i) {l : Location}
    (hl : v'.files.fileAt? (Path.join dir (chunkName f i)) = some l) :
    v'.files.get? l = none := by
  obtain rfl := report_of_run h
  rw [length_files_reportOf] at hi
  rw [get?_of_run_of_ne h hmade fun o ho => fileAt?_ne_of_mem_outputs ho hi hl]
  rw [FileTree.fileAt?_congr (sameDirs_of_run h hmade)] at hl
  obtain ⟨here, hhere, rfl⟩ := FileTree.fileAt?_join (isEntryName_chunkName f i) hl
  exact hempty here hhere _

end

/-! ### A dump behind another one -/

section

variable (hA : (run f thresholdA dir A : StateM World _) w = (.ok rA, wA))
  (hB : (run f thresholdB dir B : StateM World _) wA = (.ok rB, wAB))

include hA hB

/-- A dump into a directory where another one has been does what it does alone. -/
theorem run_alone :
    ∃ wB, (run f thresholdB dir B : StateM World _) w = (.ok rB, wB) ∧
      FileTree.SameDirs wB.files wAB.files := by
  obtain ⟨t, hmade, -, -, -⟩ := run_eq_ok hA
  have hmadeA := createDirs_of_run hA
  have hdirsA := sameDirs_of_run hA hmade
  have hall := congrArg Prod.fst (writeAll_of_run hB hmadeA)
  have halone : (t.writeAll (outputs f thresholdB dir B)).1 = .ok () := by
    rw [FileTree.writeAll_eq_ok_iff] at hall ⊢
    intro o ho
    rw [← FileTree.fileAt?_congr hdirsA]
    exact hall o ho
  obtain ⟨wB, hrun, -⟩ :=
    run_eq_ok_iff.mpr ⟨report_of_run hB, t, hmade, Prod.ext halone rfl⟩
  refine ⟨wB, hrun, (sameDirs_of_run hrun hmade).trans ?_⟩
  exact hdirsA.symm.trans (sameDirs_of_run hB hmadeA).symm

/-- A chunk that the second dump does not reach stays as the first one has left it. -/
theorem read_rerun_of_le {i : Nat} (hge : rB.files.length ≤ i) (hlt : i < rA.files.length) :
    Path.join dir (chunkName f i) ∉ rB.paths ∧
      ∃ text, wA.files.read (Path.join dir (chunkName f i)) = .ok text ∧
        wAB.files.read (Path.join dir (chunkName f i)) = .ok text := by
  obtain rfl := report_of_run hA
  obtain rfl := report_of_run hB
  obtain ⟨text, hread⟩ := read_chunk_of_run hA hlt
  rw [length_files_reportOf] at hge
  constructor
  · rw [paths_reportOf, path_outputs]
    intro hmem
    obtain ⟨name, hname, hjoin⟩ := List.mem_map.mp hmem
    obtain rfl := Path.join_inj (isPiece_of_mem_outputNames hname)
      (isEntryName_chunkName f i).1 hjoin
    exact Nat.not_lt.mpr hge (chunkName_mem_outputNames_iff.mp hname)
  · obtain ⟨l, hl, hfile⟩ := FileTree.exists_of_read hread
    have hmadeA := createDirs_of_run hA
    rw [← FileTree.fileAt?_congr (sameDirs_of_run hB hmadeA)] at hl
    refine ⟨text, hread, FileTree.read_of_fileAt? hl ?_⟩
    rw [get?_of_run_of_ne hB hmadeA fun p hp => fileAt?_ne_of_mem_outputs hp hge hl, hfile]

/-- Everywhere else a second dump leaves what it leaves alone. -/
theorem get?_rerun {wB : World}
    (halone : (run f thresholdB dir B : StateM World _) w = (.ok rB, wB))
    (hdirs : FileTree.SameDirs wB.files wAB.files) {l : Location}
    (hl : ∀ i, rB.files.length ≤ i → i < rA.files.length →
      wAB.files.fileAt? (Path.join dir (chunkName f i)) ≠ some l) :
    wAB.files.get? l = wB.files.get? l := by
  obtain ⟨t, hmade, -, -, -⟩ := run_eq_ok hA
  have hmadeA := createDirs_of_run hA
  have hdirsA := sameDirs_of_run hB hmadeA
  by_cases hplace : ∃ o ∈ outputs f thresholdB dir B, wAB.files.fileAt? o.path = some l
  · obtain ⟨o, ho, hat⟩ := hplace
    rw [get?_of_run hB ho hat]
    rw [← FileTree.fileAt?_congr hdirs] at hat
    rw [get?_of_run halone ho hat]
  · -- the second dump writes nothing here, and then the first one does not either
    have hnotB : ∀ o ∈ outputs f thresholdB dir B, wAB.files.fileAt? o.path ≠ some l :=
      fun o ho hat => hplace ⟨o, ho, hat⟩
    have hnotA : ∀ o ∈ outputs f thresholdA dir A, wA.files.fileAt? o.path ≠ some l := by
      intro o ho hat
      obtain rfl := report_of_run hA
      obtain rfl := report_of_run hB
      simp only [length_files_reportOf] at hl
      rw [← FileTree.fileAt?_congr hdirsA] at hat
      obtain ⟨name, hname, hpath⟩ := exists_name_of_mem_outputs ho
      rcases mem_outputNames_cases hname with hreached | ⟨i, hge, hlt, rfl⟩
      · obtain ⟨o', ho', hpath'⟩ := exists_output_of_name hreached
        rw [hpath, ← hpath'] at hat
        exact hnotB o' ho' hat
      · rw [hpath] at hat
        exact hl i hge hlt hat
    rw [get?_of_run_of_ne hB hmadeA hnotB, get?_of_run_of_ne hA hmade hnotA]
    refine (get?_of_run_of_ne halone hmade fun o ho => ?_).symm
    rw [FileTree.fileAt?_congr hdirs]
    exact hnotB o ho

section

variable {wB : World} (halone : (run f thresholdB dir B : StateM World _) w = (.ok rB, wB))
  (hdirs : FileTree.SameDirs wB.files wAB.files) (hmade : w.files.createDirs dir = (.ok (), t))
  (hempty : t.IsEmptyDir dir)

include halone hdirs hmade hempty

/-- Two dumps into an empty directory leave what the second one leaves alone exactly if the first one
has no more chunks. -/
theorem rerun_eq_alone_iff :
    (∀ l, wAB.files.get? l = wB.files.get? l) ↔ rA.files.length ≤ rB.files.length := by
  constructor
  · intro hsame
    by_contra hlt
    -- the first chunk that is not reached tells the two trees apart
    obtain ⟨-, text, -, hread⟩ := read_rerun_of_le hA hB (Nat.le_refl _) (Nat.not_le.mp hlt)
    obtain ⟨l, hl, hfile⟩ := FileTree.exists_of_read hread
    rw [← FileTree.fileAt?_congr hdirs] at hl
    rw [hsame, get?_of_run_of_isEmptyDir halone hmade hempty (Nat.le_refl _) hl] at hfile
    cases hfile
  · intro hle l
    refine get?_rerun hA hB halone hdirs fun i hge hlt => ?_
    exact absurd (Nat.lt_of_lt_of_le hlt hle) (Nat.not_lt.mpr hge)

/-- The chunks that two dumps leave in an empty directory. -/
theorem read_chunk_rerun_iff {i : Nat} :
    (∃ text, wAB.files.read (Path.join dir (chunkName f i)) = .ok text) ↔
      i < rA.files.length ∨ i < rB.files.length := by
  constructor
  · rintro ⟨text, hread⟩
    by_contra hout
    obtain ⟨hoverA, hoverB⟩ := not_or.mp hout
    obtain ⟨l, hl, hfile⟩ := FileTree.exists_of_read hread
    -- the place of this chunk is that of no other one
    have hother : ∀ j, rB.files.length ≤ j → j < rA.files.length →
        wAB.files.fileAt? (Path.join dir (chunkName f j)) ≠ some l := by
      rintro j - hlt hj
      obtain rfl := fileAt?_chunkName_inj hj hl
      exact hoverA hlt
    rw [get?_rerun hA hB halone hdirs hother] at hfile
    rw [← FileTree.fileAt?_congr hdirs] at hl
    rw [get?_of_run_of_isEmptyDir halone hmade hempty (Nat.not_lt.mp hoverB) hl] at hfile
    cases hfile
  · intro hi
    rcases Nat.lt_or_ge i rB.files.length with hlt | hge
    · exact read_chunk_of_run hB hlt
    · have hlt := hi.resolve_right (Nat.not_lt.mpr hge)
      obtain ⟨-, text, -, hread⟩ := read_rerun_of_le hA hB hge hlt
      exact ⟨text, hread⟩

end

end

/-- **A dump overwrites by name and removes nothing.**  A dump behind another one for the same
binding and directory succeeds alone as well, with the same report.  The chunks of the first dump
with numbers that the second one does not reach stay as they are, and are not reported; everywhere
else there is what the second dump leaves alone.  So into a directory that was empty the two leave
what the second one leaves alone exactly if the first one has no more chunks, and the chunks that
are there are those with numbers that one of the two reaches. -/
theorem rerun_overwrites (hA : (run f thresholdA dir A : StateM World _) w = (.ok rA, wA))
    (hB : (run f thresholdB dir B : StateM World _) wA = (.ok rB, wAB)) :
    ∃ wB, (run f thresholdB dir B : StateM World _) w = (.ok rB, wB) ∧
      (∀ i, rB.files.length ≤ i → i < rA.files.length →
        Path.join dir (chunkName f i) ∉ rB.paths ∧
          ∃ text, wA.files.read (Path.join dir (chunkName f i)) = .ok text ∧
            wAB.files.read (Path.join dir (chunkName f i)) = .ok text) ∧
      (∀ l, (∀ i, rB.files.length ≤ i → i < rA.files.length →
          wAB.files.fileAt? (Path.join dir (chunkName f i)) ≠ some l) →
        wAB.files.get? l = wB.files.get? l) ∧
      ∀ t, w.files.createDirs dir = (.ok (), t) → t.IsEmptyDir dir →
        ((∀ l, wAB.files.get? l = wB.files.get? l) ↔ rA.files.length ≤ rB.files.length) ∧
        ∀ i, (∃ text, wAB.files.read (Path.join dir (chunkName f i)) = .ok text) ↔
          i < rA.files.length ∨ i < rB.files.length := by
  obtain ⟨wB, halone, hdirs⟩ := run_alone hA hB
  refine ⟨wB, halone, fun i => read_rerun_of_le hA hB, fun l => get?_rerun hA hB halone hdirs, ?_⟩
  intro t hmade hempty
  exact ⟨rerun_eq_alone_iff hA hB halone hdirs hmade hempty,
    fun i => read_chunk_rerun_iff hA hB halone hdirs hmade hempty⟩

/-- Two classes, and then one of them: the second chunk of the first dump is left. -/
theorem rerun_overwrites_fewer :
    ∃ wA rA wAB rB, (run .xlua 1 "out" (classesNamed ["A", "B"]) : StateM World _) {} =
        (.ok rA, wA) ∧
      (run .xlua 1 "out" (classesNamed ["A"]) : StateM World _) wA = (.ok rB, wAB) ∧
      ∀ i, (∃ text, wAB.files.read (Path.join "out" (chunkName .xlua i)) = .ok text) ↔ i < 2 := by
  obtain ⟨rA, wA, hA, hfilesA⟩ := exists_ok_of_toOption
    (p := (run .xlua 1 "out" (classesNamed ["A", "B"]) : StateM World _) {})
    (g := fun r => r.files.length) (b := 2) (by decide +kernel)
  obtain ⟨rB, wAB, hB, hfilesB⟩ := exists_ok_of_toOption
    (p := (run .xlua 1 "out" (classesNamed ["A"]) : StateM World _)
      ((run .xlua 1 "out" (classesNamed ["A", "B"]) : StateM World _) {}).2)
    (g := fun r => r.files.length) (b := 1) (by decide +kernel)
  rw [hA] at hB
  obtain ⟨_, -, -, -, hempty⟩ := rerun_overwrites hA hB
  obtain ⟨-, hchunks⟩ := hempty ⟨[(["out"], .directory)]⟩ rfl (by
    intro here hhere name
    have hout : (⟨[(["out"], .directory)]⟩ : FileTree).dirAt? "out" = some ["out"] := by
      decide +kernel
    rw [hout] at hhere
    rw [← Option.some.inj hhere]
    rfl)
  refine ⟨wA, rA, wAB, rB, hA, hB, fun i => (hchunks i).trans ?_⟩
  rw [hfilesA, hfilesB]
  omega

/-- A dump of two classes and then one of one class leave a chunk that is not reported by the second
one and not there if the first one was not. -/
theorem not_rerun_clean :
    ∃ rA wA rB wAB wB, (run .xlua 1 "out" (classesNamed ["A", "B"]) : StateM World _) {} =
        (.ok rA, wA) ∧
      (run .xlua 1 "out" (classesNamed ["A"]) : StateM World _) wA = (.ok rB, wAB) ∧
      (run .xlua 1 "out" (classesNamed ["A"]) : StateM World _) {} = (.ok rB, wB) ∧
      (∃ text, wAB.files.read "out/xlua_dump_1.lua" = .ok text) ∧
      "out/xlua_dump_1.lua" ∉ rB.files ∧
      wB.files.read "out/xlua_dump_1.lua" = .error .notFound := by
  obtain ⟨rA, wA, hA, hfilesA⟩ := exists_ok_of_toOption
    (p := (run .xlua 1 "out" (classesNamed ["A", "B"]) : StateM World _) {})
    (g := DumpReport.files) (b := ["out/xlua_dump_0.lua", "out/xlua_dump_1.lua"])
    (by decide +kernel)
  obtain ⟨rB, wAB, hB, hfilesB⟩ := exists_ok_of_toOption
    (p := (run .xlua 1 "out" (classesNamed ["A"]) : StateM World _)
      ((run .xlua 1 "out" (classesNamed ["A", "B"]) : StateM World _) {}).2)
    (g := DumpReport.files) (b := ["out/xlua_dump_0.lua"]) (by decide +kernel)
  rw [hA] at hB
  obtain ⟨wB, halone, -⟩ := run_alone hA hB
  have hmissing : ((run .xlua 1 "out" (classesNamed ["A"]) : StateM World _) {}).2.files.read
      "out/xlua_dump_1.lua" = .error .notFound := by
    decide +kernel
  rw [halone] at hmissing
  have hpath : Path.join "out" (chunkName .xlua 1) = "out/xlua_dump_1.lua" := by decide +kernel
  obtain ⟨-, text, -, hread⟩ := read_rerun_of_le hA hB (i := 1)
    (by rw [hfilesB]; decide) (by rw [hfilesA]; decide)
  rw [hpath] at hread
  refine ⟨rA, wA, rB, wAB, wB, hA, hB, halone, ⟨text, hread⟩, ?_, hmissing⟩
  rw [hfilesB]
  decide

end Dump

end LuaTypings
