/-
LuaTypings/Proofs/Run/Accounts.lean

What the numbers of a run add up to.  Merging keeps or drops each declaration of the catalog, a dump
emits or skips each of those that are kept, the index counts the names at the root, and the names
that are missing are all different.  Settings hold each binding once and every binding has files of
its own, so no chunk is counted twice (`nodup_files_reportsOf`).

Main result: `dump_accounts`.
-/
import LuaTypings.Proofs.Dump.Rerun
import LuaTypings.Proofs.NamespaceIndex
import LuaTypings.Proofs.Run.Bindings
import LuaTypings.Proofs.Settings

namespace LuaTypings

/-- The value of an entry of an object. -/
def Json.entry? (key : String) : Json → Option Json
  | .object entries => entries.lookup key
  | _ => none

/-- The numbers that a report shows are those of the declarations: each is emitted or stands among
the failures, no name is missing twice, and every name at the root is counted once. -/
structure DumpReport.Accounts (types : List Declaration) (r : DumpReport) : Prop where
  declarations : ∃ failures, r.toJson.entry? "types_emitted" = some (.nat r.emitted) ∧
    r.toJson.entry? "types_failed" = some (.nat failures.length) ∧
    r.toJson.entry? "failures" = some (.array failures) ∧
    r.emitted + failures.length = types.length
  missing : ∃ names, r.toJson.entry? "unexported_types" = some (.strings names) ∧
    r.toJson.entry? "unexported_count" = some (.nat names.length) ∧ names.Nodup
  roots : r.toJson.entry? "namespace_count" =
    some (.nat (types.map Declaration.rootName).toFinset.card)

namespace Dump

variable {f : Flavor} {threshold : Nat} {dir : String} {types : List Declaration}

theorem accounts_reportOf (f : Flavor) (threshold : Nat) (dir : String)
    (types : List Declaration) : (reportOf f threshold dir types).Accounts types where
  declarations := by
    refine ⟨(final f threshold dir types).skipped.map Skipped.toJson, rfl, ?_, rfl, ?_⟩
    · show some (Json.nat (final f threshold dir types).failed) = _
      rw [List.length_map, failed_final]
    · show (final f threshold dir types).emitted + _ = _
      rw [List.length_map, emitted_final, skipped_final, length_rendered_add_length_skippedOf]
  missing := by
    refine ⟨(final f threshold dir types).references.missing, rfl, rfl, ?_⟩
    rw [references_final]
    exact References.nodup_missing_ofCatalog types
  roots := by
    show some (Json.nat (final f threshold dir types).index.size) = _
    rw [index_final, size_indexOf]

/-! ### Chunks -/

/-- A chunk of a dump is one of its files, with a body that is not empty. -/
theorem exists_body_of_mem_files {path : String} (h : path ∈ (reportOf f threshold dir types).files) :
    ∃ body, body ≠ "" ∧ ⟨path, Annotations.metaHeader ++ body⟩ ∈ outputs f threshold dir types := by
  obtain ⟨c, hc, rfl⟩ := List.mem_map.mp h
  exact ⟨c.body, (headed_final f threshold dir types).bodies c hc, mem_outputs_of_mem_files hc⟩

theorem exists_name_of_mem_files {path : String}
    (h : path ∈ (reportOf f threshold dir types).files) :
    ∃ i, path = Path.join dir (chunkName f i) := by
  rw [files_reportOf] at h
  obtain ⟨i, -, hpath⟩ := List.mem_map.mp h
  exact ⟨i, hpath.symm⟩

theorem nodup_files_reportOf (f : Flavor) (threshold : Nat) (dir : String)
    (types : List Declaration) : (reportOf f threshold dir types).files.Nodup := by
  rw [files_reportOf]
  refine List.Nodup.map (fun i j h => ?_) List.nodup_range
  exact chunkName_injective
    (Path.join_inj (isEntryName_chunkName f i).1 (isEntryName_chunkName f j).1 h)

/-- No file is a chunk of two bindings. -/
theorem disjoint_files_reportOf {g : Flavor} (h : f ≠ g) (threshold : Nat) (dir : String)
    (types : List Declaration) :
    List.Disjoint (reportOf f threshold dir types).files (reportOf g threshold dir types).files := by
  intro path hf hg
  obtain ⟨i, rfl⟩ := exists_name_of_mem_files hf
  obtain ⟨j, hj⟩ := exists_name_of_mem_files hg
  have hname := Path.join_inj (isEntryName_chunkName f i).1 (isEntryName_chunkName g j).1 hj
  have hi : chunkName f i ∈ outputNames f (i + 1) :=
    chunkName_mem_outputNames_iff.mpr (Nat.lt_succ_self i)
  have hj : chunkName g j ∈ outputNames g (j + 1) :=
    chunkName_mem_outputNames_iff.mpr (Nat.lt_succ_self j)
  exact h (eq_of_mem_outputNames hi (hname ▸ hj))

end Dump

namespace Run

variable {path : String} {settings : Settings} {w w' : World} {summary : Summary}

theorem nodup_files_reportsOf (settings : Settings) (types : List Declaration) {fs : List Flavor}
    (h : fs.Nodup) : ((reportsOf settings types fs).flatMap DumpReport.files).Nodup := by
  rw [reportsOf, List.flatMap_map, List.nodup_flatMap]
  exact ⟨fun f _ => Dump.nodup_files_reportOf f _ _ _,
    h.imp fun hne => Dump.disjoint_files_reportOf hne _ _ _⟩

/-- **What a run accounts for.** -/
theorem dump_accounts {file line : Choices} (hsettings : Settings.resolve file line = .ok settings)
    (h : (dump path settings : StateM World _) w = (.ok summary, w')) :
    ∃ catalog, (loadCatalog path : StateM World _) w = (.ok catalog, w) ∧
      summary.catalogTypes = catalog.types.length ∧
      summary.definitions = (Generics.merge catalog.types).types.length ∧
      summary.catalogTypes = summary.definitions + summary.merged ∧
      summary.reports.map DumpReport.flavor = settings.flavors ∧
      (∀ r ∈ summary.reports, r.Accounts (Generics.merge catalog.types).types) ∧
      summary.filesWritten = (summary.reports.flatMap DumpReport.files).toFinset.card ∧
      ∀ r ∈ summary.reports, ∀ p ∈ r.files, ∃ body, body ≠ "" ∧
        w'.files.read p = .ok (Annotations.metaHeader ++ body) := by
  obtain ⟨catalog, hloaded, rfl, hmakes⟩ := (dump_eq_ok_iff path settings).mp ⟨w', h, rfl⟩
  have hload := loadCatalog_apply path w
  rw [hloaded] at hload
  refine ⟨catalog, hload, rfl, rfl, (Generics.mergeFrom_length _ _).symm, ?_, ?_, ?_, ?_⟩
  · show (reportsOf settings _ settings.flavors).map DumpReport.flavor = settings.flavors
    rw [reportsOf, List.map_map]
    exact List.map_id _
  · intro r hr
    obtain ⟨f, -, rfl⟩ := List.mem_map.mp hr
    exact Dump.accounts_reportOf f _ _ _
  · exact (List.toFinset_card_of_nodup
      (nodup_files_reportsOf settings _ (Settings.nodup_flavors hsettings))).symm
  · intro r hr p hp
    obtain ⟨f, hf, rfl⟩ := List.mem_map.mp hr
    obtain ⟨body, hbody, hout⟩ := Dump.exists_body_of_mem_files hp
    exact ⟨body, hbody, hmakes.read hf hout⟩

/-- Two instances of one class, a class that mentions a missing type, and one that cannot be
rendered. -/
def mixed : Catalog := ⟨lists.types ++ Dump.besideBroken "C", 3⟩

/-- Of four declarations one is merged, and each binding skips one of the others. -/
theorem dump_accounts_mixed :
    ∃ settings s w', Settings.resolve { flavors := [.tolua, .xlua, .tolua] }
        { directory := some "out" } = .ok settings ∧
      (dump "catalog.json" settings : StateM World _) (withFile mixed.toText) = (.ok s, w') ∧
      s.catalogTypes = 4 ∧ s.definitions = 3 ∧ s.merged = 1 ∧
      s.reports.map DumpReport.flavor = [.tolua, .xlua] ∧
      (∀ r ∈ s.reports, ∃ failures, r.toJson.entry? "failures" = some (.array failures) ∧
        r.emitted + failures.length = 3) ∧
      ∀ r ∈ s.reports, ∀ p ∈ r.files, ∃ body, body ≠ "" ∧
        w'.files.read p = .ok (Annotations.metaHeader ++ body) := by
  have hsettings : Settings.resolve { flavors := [.tolua, .xlua, .tolua] }
      { directory := some "out" } = .ok ⟨"out", 512000, [.tolua, .xlua]⟩ := by rfl
  have hnamed : ∀ d ∈ mixed.types, Text.isBlankText d.name = false := by decide +kernel
  have hload := loadCatalog_withFile hnamed
  have hloaded := hload
  rw [loadCatalog_apply] at hloaded
  obtain ⟨s, w', hdump⟩ := (dump_succeeds_iff (Prod.mk.inj hloaded).1
    ⟨"out", 512000, [.tolua, .xlua]⟩).mpr (Dump.exists_makes rfl (by decide +kernel))
  obtain ⟨catalog, hcatalog, htypes, hdefinitions, hmerged, hflavors, haccounts, -, hread⟩ :=
    dump_accounts hsettings hdump
  rw [hload] at hcatalog
  obtain rfl := Except.ok.inj (Prod.mk.inj hcatalog).1
  have hcount : mixed.types.length = 4 := by decide
  have hkept : (Generics.merge mixed.types).types.length = 3 := by decide +kernel
  refine ⟨_, s, w', hsettings, hdump, htypes.trans hcount, hdefinitions.trans hkept, by omega,
    hflavors, fun r hr => ?_, hread⟩
  obtain ⟨failures, -, -, hfailures, hsum⟩ := (haccounts r hr).declarations
  exact ⟨failures, hfailures, hsum.trans hkept⟩

end Run

end LuaTypings
