/-
LuaTypings/Proofs/Run.lean

A catalog that is merged from one file into another.  What is written can be read
(`read_of_writeFile`), and the text of a catalog is read back as this catalog; so all that can
keep a merged catalog from being loaded again is a declaration that has lost its name.

Main result: `merge_loads_back`.
-/
import LuaTypings.Proofs.Catalog.RoundTrip
import LuaTypings.Proofs.Files.Writes
import LuaTypings.Proofs.Generics.LostNames
import LuaTypings.Run

namespace LuaTypings.Run

variable {path output text : String} {w w' : World}

/-! ### Files -/

/-- What loading makes of the text of a file. -/
def loaded (path : String) : Except FileError String → Except RunError Catalog
  | .error e => .error (.readCatalog path e)
  | .ok text =>
    match Catalog.ofText text with
    | .error e => .error (.badCatalog path e)
    | .ok catalog => .ok catalog

theorem loaded_eq_ok_iff {catalog : Catalog} :
    loaded path (.ok text) = .ok catalog ↔ Catalog.ofText text = .ok catalog := by
  simp only [loaded]
  rcases Catalog.ofText text with e | c
  · exact iff_of_false nofun nofun
  · simp

/-- What is loaded has names. -/
theorem named_of_loaded {read : Except FileError String} {catalog : Catalog}
    (h : loaded path read = .ok catalog) :
    ∀ d ∈ catalog.types, Text.isBlankText d.name = false := by
  rcases read with e | text
  · cases h
  · exact (Catalog.ofText_eq_ok_iff.mp (loaded_eq_ok_iff.mp h)).2

/-- Loading only reads. -/
theorem loadCatalog_apply (path : String) (w : World) :
    (loadCatalog path : StateM World _) w = (loaded path (w.files.read path), w) := by
  have hread : (FileStore.read path : StateM World _) w = (w.files.read path, w) := rfl
  simp only [loadCatalog, bind, StateT.bind, hread]
  rcases w.files.read path with e | text
  · rfl
  · simp only [loaded]
    rcases Catalog.ofText text with e | catalog <;> rfl

theorem read_of_writeText (h : (writeText path text : StateM World _) w = (.ok (), w')) :
    w'.files.read path = .ok text := by
  simp only [writeText, bind, StateT.bind, write_apply] at h
  rcases hresult : w.files.write path text with e | t
  · rw [hresult] at h
    cases h
  · rw [hresult] at h
    obtain ⟨-, rfl⟩ := Prod.mk.inj h
    -- the path still leads to the place that was written
    obtain ⟨l, hl, rfl⟩ := FileTree.write_eq_ok hresult
    exact FileTree.read_set hl text

/-- What is written can be read. -/
theorem read_of_writeFile (h : (writeFile path text : StateM World _) w = (.ok (), w')) :
    w'.files.read path = .ok text := by
  rcases hparent : (Path.parent? path).filter (!·.isEmpty) with - | parent
  · simp only [writeFile, hparent] at h
    exact read_of_writeText h
  · simp only [writeFile, hparent, bind, StateT.bind, createDirs_apply] at h
    rcases hdirs : (w.files.createDirs parent).1 with e | _
    · rw [hdirs] at h
      cases h
    · rw [hdirs] at h
      exact read_of_writeText h

/-! ### Merging -/

/-- A catalog with its declarations merged. -/
def mergedCatalog (catalog : Catalog) : Catalog :=
  { catalog with types := (Generics.merge catalog.types).types }

/-- Merging writes one file, between two events. -/
theorem mergeCatalog_apply (output : String) (catalog : Catalog) (w : World) :
    ∃ events event, (mergeCatalog output catalog : StateM World _) w =
      match (writeFile output (mergedCatalog catalog).toText : StateM World _)
          { w with log := events } with
      | (.error e, w₁) => (.error e, w₁)
      | (.ok (), w₁) =>
        (.ok (Generics.merge catalog.types).dropped, { w₁ with log := event :: w₁.log }) := by
  refine ⟨⟨.info, remainMessage (Generics.merge catalog.types)⟩ :: w.log,
    ⟨.info, "Wrote merged catalog to " ++ Text.quoted output⟩, ?_⟩
  have hinfo : (EventLog.info (remainMessage (Generics.merge catalog.types)) : StateM World _) w =
      ((), { w with log := ⟨.info, remainMessage (Generics.merge catalog.types)⟩ :: w.log }) := rfl
  simp only [mergeCatalog, mergedCatalog, bind, StateT.bind, hinfo]
  generalize (writeFile output _ : StateM World _) _ = outcome
  obtain ⟨e | _, w₁⟩ := outcome
  · rfl
  · rfl

theorem read_of_mergeCatalog {catalog : Catalog} {n : Nat}
    (h : (mergeCatalog output catalog : StateM World _) w = (.ok n, w')) :
    n = (Generics.merge catalog.types).dropped ∧
      w'.files.read output = .ok (mergedCatalog catalog).toText := by
  obtain ⟨events, event, happly⟩ := mergeCatalog_apply output catalog w
  rw [happly] at h
  split at h
  · cases h
  · rename_i w₁ hwrite
    obtain ⟨hn, rfl⟩ := Prod.mk.inj h
    have hread := read_of_writeFile hwrite
    exact ⟨(Except.ok.inj hn).symm, hread⟩

theorem read_of_merge {n : Nat} (h : (merge path output : StateM World _) w = (.ok n, w')) :
    ∃ catalog, loaded path (w.files.read path) = .ok catalog ∧
      n = (Generics.merge catalog.types).dropped ∧
      w'.files.read output = .ok (mergedCatalog catalog).toText := by
  rcases hresult : loaded path (w.files.read path) with e | catalog
  · -- nothing is merged if the catalog cannot be loaded
    simp only [merge, bind, StateT.bind, loadCatalog_apply, hresult] at h
    cases h
  · simp only [merge, bind, StateT.bind, loadCatalog_apply, hresult] at h
    exact ⟨catalog, rfl, read_of_mergeCatalog h⟩

/-- **A merged catalog is loaded again.**  After a merge that succeeds the catalog in the first
file was accepted, the number of dropped instances is reported, and the other file is read as this
catalog with its declarations merged and its count of symbols.  It is accepted, and gives this
catalog, exactly if no instance that becomes a definition loses its name. -/
theorem merge_loads_back {n : Nat}
    (h : (merge path output : StateM World _) w = (.ok n, w')) :
    ∃ catalog, (loadCatalog path : StateM World _) w = (.ok catalog, w) ∧
      n = (Generics.merge catalog.types).dropped ∧
      (∃ text, w'.files.read output = .ok text ∧
        Catalog.readText text = .ok (mergedCatalog catalog)) ∧
      ((loadCatalog output : StateM World _) w' = (.ok (mergedCatalog catalog), w') ↔
        Generics.KeepsNames catalog.types) := by
  obtain ⟨catalog, hloaded, hn, hread⟩ := read_of_merge h
  have hload := loadCatalog_apply path w
  rw [hloaded] at hload
  refine ⟨catalog, hload, hn, ⟨_, hread, Catalog.readText_toText _⟩, ?_⟩
  rw [loadCatalog_apply, hread, Prod.mk.injEq, loaded_eq_ok_iff, and_iff_left rfl,
    Catalog.ofText_toText_eq_ok_iff]
  exact Generics.named_merge_iff (named_of_loaded hloaded)

/-! ### Two merges -/

/-- A world with one file. -/
def withFile (text : String) : World := { files := ⟨[(["catalog.json"], .file text)]⟩ }

/-- A world in which a second file was written. -/
def withFiles (text merged : String) (events : List Event) : World :=
  { files := ⟨[(["merged.json"], .file merged), (["catalog.json"], .file text)]⟩, log := events }

section

variable {catalog : Catalog} (h : ∀ d ∈ catalog.types, Text.isBlankText d.name = false)

include h

theorem loadCatalog_withFile :
    (loadCatalog "catalog.json" : StateM World _) (withFile catalog.toText) =
      (.ok catalog, withFile catalog.toText) := by
  have hread : (withFile catalog.toText).files.read "catalog.json" = .ok catalog.toText := rfl
  rw [loadCatalog_apply, hread, loaded_eq_ok_iff.mpr (Catalog.ofText_toText_eq_ok_iff.mpr h)]

/-- A catalog in one file can be merged into another one. -/
theorem merge_withFile :
    ∃ w', (merge "catalog.json" "merged.json" : StateM World _) (withFile catalog.toText) =
        (.ok (Generics.merge catalog.types).dropped, w') ∧
      w'.files.read "merged.json" = .ok (mergedCatalog catalog).toText := by
  obtain ⟨events, event, happly⟩ :=
    mergeCatalog_apply "merged.json" catalog (withFile catalog.toText)
  have hwrite (text merged : String) : (writeFile "merged.json" merged : StateM World _)
      { withFile text with log := events } = (.ok (), withFiles text merged events) := rfl
  have hmerge : (merge "catalog.json" "merged.json" : StateM World _) (withFile catalog.toText) =
      (mergeCatalog "merged.json" catalog : StateM World _) (withFile catalog.toText) := by
    simp only [merge, bind, StateT.bind, loadCatalog_withFile h]
  rw [hmerge, happly, hwrite]
  refine ⟨_, rfl, ?_⟩
  generalize (mergedCatalog catalog).toText = merged
  rfl

end

/-- Two instances of one class of lists. -/
def lists : Catalog := ⟨Generics.listInstances ["int"], 3⟩

/-- One of two instances is dropped, and the other one is loaded as the definition. -/
theorem merge_loads_back_lists :
    ∃ w', (merge "catalog.json" "merged.json" : StateM World _) (withFile lists.toText) =
        (.ok 1, w') ∧
      (loadCatalog "merged.json" : StateM World _) w' = (.ok (mergedCatalog lists), w') := by
  have hnamed : ∀ d ∈ lists.types, Text.isBlankText d.name = false := by decide +kernel
  obtain ⟨w', h, -⟩ := merge_withFile hnamed
  obtain ⟨catalog, hload, -, -, hback⟩ := merge_loads_back h
  rw [loadCatalog_withFile hnamed] at hload
  obtain rfl := Except.ok.inj (Prod.mk.inj hload).1
  exact ⟨w', h, hback.mpr (by decide +kernel)⟩

/-- An instance of a class whose name starts with a bracket and ends with an arity mark. -/
def anonymous : Catalog where
  types :=
    [.classType { header := { name := "<>f__AnonymousType0\x602" }, isConstructed := true
                  arguments := ["int", "string"] }]
  analyzedSymbols := 1

/-- Merging leaves an anonymous class without a name, and the file that it writes is refused. -/
theorem not_merge_loads_back_anonymous :
    (loadCatalog "catalog.json" : StateM World _) (withFile anonymous.toText) =
        (.ok anonymous, withFile anonymous.toText) ∧
      ∃ w', (merge "catalog.json" "merged.json" : StateM World _) (withFile anonymous.toText) =
          (.ok 0, w') ∧
        (loadCatalog "merged.json" : StateM World _) w' =
          (.error (.badCatalog "merged.json" (.emptyName .classKind 0)), w') := by
  have hnamed : ∀ d ∈ anonymous.types, Text.isBlankText d.name = false := by decide +kernel
  have hblank : (mergedCatalog anonymous).firstBlank? = some (.classKind, 0) := by decide +kernel
  obtain ⟨w', h, hread⟩ := merge_withFile hnamed
  refine ⟨loadCatalog_withFile hnamed, w', h, ?_⟩
  rw [loadCatalog_apply, hread, loaded, Catalog.ofText_toText_of_blank hblank]

end LuaTypings.Run
