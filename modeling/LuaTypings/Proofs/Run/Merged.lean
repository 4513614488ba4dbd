/-
LuaTypings/Proofs/Run/Merged.lean

Dumps of a catalog and of the same catalog merged.  Merging leaves no instance, so merging again
changes nothing, and the text of the merged catalog is read back as this catalog.  The two dumps
therefore have the same declarations to write, and differ only in what they tell of the catalog.

Main result: `dump_merged`.
-/
import LuaTypings.Proofs.Run.Bindings

namespace LuaTypings.Run

variable {path output : String} {catalog merged : Catalog} {settings : Settings}
  {w w₁ u v : World} {n : Nat}

/-- What is told of a dump if the catalog was merged before, into another file. -/
def afterMerge (output : String) (s : Summary) : Summary :=
  { s with catalog := output, catalogTypes := s.definitions, merged := 0 }

theorem summaryOf_mergedCatalog (path output : String) (catalog : Catalog)
    (reports : List DumpReport) :
    summaryOf output (mergedCatalog catalog) reports =
      afterMerge output (summaryOf path catalog reports) := by
  unfold summaryOf afterMerge mergedCatalog
  rw [Generics.merge_merge]

/-- What a merge writes is loaded as the merged catalog, wherever it is loaded. -/
theorem loaded_of_merge (hmerge : (merge path output : StateM World _) w = (.ok n, w₁))
    (hback : (loadCatalog output : StateM World _) w₁ = (.ok merged, w₁)) :
    ∃ catalog, loaded path (w.files.read path) = .ok catalog ∧
      loaded output (w₁.files.read output) = .ok (mergedCatalog catalog) := by
  obtain ⟨catalog, hloaded, -, hread⟩ := read_of_merge hmerge
  rw [loadCatalog_apply] at hback
  have hmerged := (Prod.mk.inj hback).1
  refine ⟨catalog, hloaded, ?_⟩
  rw [hread] at hmerged ⊢
  -- only one catalog is read from a text
  obtain ⟨htext, hnamed⟩ := Catalog.ofText_eq_ok_iff.mp (loaded_eq_ok_iff.mp hmerged)
  rw [Catalog.readText_toText] at htext
  obtain rfl := Except.ok.inj htext
  exact hmerged

section

variable (hloaded : loaded path (u.files.read path) = .ok catalog)
  (hmerged : loaded output (v.files.read output) = .ok (mergedCatalog catalog))

include hloaded hmerged

/-- Two dumps that succeed tell the same and leave the same texts. -/
theorem dump_eq_of_loaded {s s' : Summary} {u' v' : World}
    (h : (dump path settings : StateM World _) u = (.ok s, u'))
    (h' : (dump output settings : StateM World _) v = (.ok s', v')) :
    s' = afterMerge output s ∧ ∀ r ∈ s.reports, ∀ p ∈ r.paths, ∃ text,
      u'.files.read p = .ok text ∧ v'.files.read p = .ok text := by
  obtain ⟨c, hc, rfl, hmakes⟩ := (dump_eq_ok_iff path settings).mp ⟨u', h, rfl⟩
  obtain ⟨c', hc', rfl, hmakes'⟩ := (dump_eq_ok_iff output settings).mp ⟨v', h', rfl⟩
  rw [hloaded] at hc
  rw [hmerged] at hc'
  obtain rfl := Except.ok.inj hc
  obtain rfl := Except.ok.inj hc'
  rw [mergedCatalog, Generics.merge_merge] at hmakes'
  refine ⟨?_, ?_⟩
  · rw [← summaryOf_mergedCatalog, mergedCatalog, Generics.merge_merge]
  · intro r hr p hp
    obtain ⟨f, hf, rfl⟩ := List.mem_map.mp hr
    rw [Dump.paths_reportOf] at hp
    obtain ⟨o, ho, rfl⟩ := List.mem_map.mp hp
    exact ⟨o.text, hmakes.read hf ho, hmakes'.read hf ho⟩

/-- Two dumps into the same files end alike. -/
theorem dump_congr_of_loaded (hfiles : v.files = u.files) {result : Except RunError Summary}
    {u' : World} (h : (dump path settings : StateM World _) u = (result, u')) :
    ∃ v', (dump output settings : StateM World _) v = (result.map (afterMerge output), v') ∧
      v'.files = u'.files := by
  obtain ⟨log, happly⟩ := dump_apply hloaded settings
  obtain ⟨log', happly'⟩ := dump_apply hmerged settings
  have htypes : (Generics.merge (mergedCatalog catalog).types).types =
      (Generics.merge catalog.types).types := by
    rw [mergedCatalog, Generics.merge_merge]
  rw [htypes] at happly'
  rcases hflavors : (dumpFlavors settings (Generics.merge catalog.types).types [] settings.flavors :
      StateM World _) { u with log } with ⟨e | reports, u₁⟩
  · obtain ⟨v₁, hflavors', hsame⟩ := dumpFlavors_congr
      (v := { v with log := log' }) (w := { u with log }) hfiles hflavors
    rw [hflavors, h] at happly
    rw [hflavors'] at happly'
    obtain ⟨rfl, rfl⟩ := Prod.mk.inj happly
    exact ⟨v₁, happly', hsame⟩
  · obtain ⟨v₁, hflavors', hsame⟩ := dumpFlavors_congr
      (v := { v with log := log' }) (w := { u with log }) hfiles hflavors
    rw [hflavors, h] at happly
    rw [hflavors'] at happly'
    obtain ⟨rfl, rfl⟩ := Prod.mk.inj happly
    refine ⟨v₁, happly'.trans ?_, hsame⟩
    show (Except.ok (summaryOf output (mergedCatalog catalog) reports), v₁) =
      (Except.ok (afterMerge output (summaryOf path catalog reports)), v₁)
    rw [summaryOf_mergedCatalog path]

end

/-- **Merging first does not change a dump.**  Let the catalog in one file be merged into another
file, and let this file be loaded.  Then with any settings the dump of either file succeeds exactly
where the dumps of the merged declarations can be made.  Where both succeed they report the same,
apart from what is told of the catalog itself (`afterMerge`), and every file that is reported has the
same text; and into the same files the two dumps end alike, also if they fail. -/
theorem dump_merged (hmerge : (merge path output : StateM World _) w = (.ok n, w₁))
    (hback : (loadCatalog output : StateM World _) w₁ = (.ok merged, w₁)) (settings : Settings) :
    ∃ catalog, (loadCatalog path : StateM World _) w = (.ok catalog, w) ∧
      ∀ u v, u.files.read path = w.files.read path → v.files.read output = w₁.files.read output →
        ((∃ s u', (dump path settings : StateM World _) u = (.ok s, u')) ↔
          ∃ t, Dump.Makes settings.threshold settings.directory
            (Generics.merge catalog.types).types settings.flavors u.files t) ∧
        ((∃ s v', (dump output settings : StateM World _) v = (.ok s, v')) ↔
          ∃ t, Dump.Makes settings.threshold settings.directory
            (Generics.merge catalog.types).types settings.flavors v.files t) ∧
        (∀ s u' s' v', (dump path settings : StateM World _) u = (.ok s, u') →
          (dump output settings : StateM World _) v = (.ok s', v') →
          s' = afterMerge output s ∧ ∀ r ∈ s.reports, ∀ p ∈ r.paths, ∃ text,
            u'.files.read p = .ok text ∧ v'.files.read p = .ok text) ∧
        (v.files = u.files → ∀ result u', (dump path settings : StateM World _) u = (result, u') →
          ∃ v', (dump output settings : StateM World _) v = (result.map (afterMerge output), v') ∧
            v'.files = u'.files) := by
  obtain ⟨catalog, hloaded, hmerged⟩ := loaded_of_merge hmerge hback
  have hload := loadCatalog_apply path w
  rw [hloaded] at hload
  refine ⟨catalog, hload, fun u v hu hv => ?_⟩
  rw [← hu] at hloaded
  rw [← hv] at hmerged
  refine ⟨dump_succeeds_iff hloaded settings, ?_, fun s u' s' v' => dump_eq_of_loaded hloaded hmerged,
    fun hfiles result u' => dump_congr_of_loaded hloaded hmerged hfiles⟩
  have hsucceeds := dump_succeeds_iff hmerged settings
  rwa [mergedCatalog, Generics.merge_merge] at hsucceeds

/-- A world in which only the merged catalog is. -/
def withMerged : World :=
  { files := ⟨[(["merged.json"], .file (mergedCatalog lists).toText)]⟩ }

/-- One of two instances is dropped before the dump or during it, and both dumps write the same. -/
theorem dump_merged_lists :
    ∃ s u' s' v', (dump "catalog.json" ⟨"out", 1, [.xlua, .tolua]⟩ : StateM World _)
        (withFile lists.toText) = (.ok s, u') ∧
      (dump "merged.json" ⟨"out", 1, [.xlua, .tolua]⟩ : StateM World _) withMerged =
        (.ok s', v') ∧
      s.merged = 1 ∧ s'.merged = 0 ∧ s'.reports = s.reports ∧
      ∀ r ∈ s.reports, ∀ p ∈ r.paths, ∃ text,
        u'.files.read p = .ok text ∧ v'.files.read p = .ok text := by
  have hnamed : ∀ d ∈ lists.types, Text.isBlankText d.name = false := by decide +kernel
  have hstays : ∀ d ∈ (mergedCatalog lists).types, Text.isBlankText d.name = false := by
    decide +kernel
  obtain ⟨w₁, hmerge, hread⟩ := merge_withFile hnamed
  have hback := loadCatalog_apply "merged.json" w₁
  rw [hread, loaded_eq_ok_iff.mpr (Catalog.ofText_toText_eq_ok_iff.mpr hstays)] at hback
  obtain ⟨catalog, hload, hdumps⟩ :=
    dump_merged hmerge hback ⟨"out", 1, [.xlua, .tolua]⟩
  have hlists := loadCatalog_withFile hnamed
  rw [hlists] at hload
  obtain rfl := Except.ok.inj (Prod.mk.inj hload).1
  obtain ⟨hfirst, hsecond, hsame, -⟩ := hdumps (withFile lists.toText) withMerged rfl hread.symm
  obtain ⟨s, u', hu⟩ := hfirst.mpr (Dump.exists_makes rfl (by decide +kernel))
  obtain ⟨s', v', hv⟩ := hsecond.mpr (Dump.exists_makes rfl (by decide +kernel))
  obtain ⟨rfl, htexts⟩ := hsame s u' s' v' hu hv
  refine ⟨s, u', afterMerge "merged.json" s, v', hu, hv, ?_, rfl, rfl, htexts⟩
  rw [loadCatalog_apply] at hlists
  obtain ⟨c, hc, rfl, -⟩ := (dump_eq_ok_iff _ _).mp ⟨u', hu, rfl⟩
  obtain rfl := Except.ok.inj ((Prod.mk.inj hlists).1.symm.trans hc)
  show (Generics.merge lists.types).dropped = 1
  decide +kernel

end LuaTypings.Run
