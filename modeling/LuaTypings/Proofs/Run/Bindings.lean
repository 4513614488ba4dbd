/-
LuaTypings/Proofs/Run/Bindings.lean

The dumps of one run, for one binding after the other.  Between two of them only the log changes,
so the run succeeds with these reports and these files exactly if its dumps make them
(`dumpFlavors_eq_ok_iff`), and of the world nothing but the files counts (`dumpFlavors_congr`).
What a run does with a catalog that it has loaded depends on the merged declarations
(`dump_apply`, `dump_eq_ok_iff`).
-/
import LuaTypings.Proofs.Dump.SideBySide
import LuaTypings.Proofs.Run

namespace LuaTypings.Run

variable {settings : Settings} {types : List Declaration} {done reports : List DumpReport}
  {f : Flavor} {fs : List Flavor} {report : DumpReport} {w w₁ : World} {t : FileTree}

/-! ### One binding after the other -/

/-- Messages change only the log. -/
theorem forM_info_apply (messages : List String) (w : World) :
    ∃ log, (messages.forM EventLog.info : StateM World _) w = ((), { w with log }) := by
  induction messages generalizing w with
  | nil => exact ⟨w.log, rfl⟩
  | cons message messages ih =>
    obtain ⟨log, h⟩ := ih { w with log := ⟨.info, message⟩ :: w.log }
    exact ⟨log, h⟩

theorem dumpFlavors_cons_of_ok
    (h : (Dump.run f settings.threshold settings.directory types : StateM World _) w =
      (.ok report, w₁)) (done : List DumpReport) (fs : List Flavor) :
    ∃ log, (dumpFlavors settings types done (f :: fs) : StateM World _) w =
      (dumpFlavors settings types (done ++ [report]) fs : StateM World _) { w₁ with log } := by
  obtain ⟨log, hlog⟩ := forM_info_apply (doneMessages report) w₁
  refine ⟨log, ?_⟩
  rw [dumpFlavors]
  simp only [bind, StateT.bind, h, hlog]

theorem dumpFlavors_cons_of_error {e : DumpError}
    (h : (Dump.run f settings.threshold settings.directory types : StateM World _) w =
      (.error e, w₁)) (done : List DumpReport) (fs : List Flavor) :
    ∃ log, (dumpFlavors settings types done (f :: fs) : StateM World _) w =
      (.error (.dump f e), { w₁ with log }) := by
  refine ⟨⟨.error, failedMessage f done settings.flavors.length⟩ :: w₁.log, ?_⟩
  rw [dumpFlavors]
  simp only [bind, StateT.bind, h]
  rfl

/-- The reports of dumps for several bindings. -/
def reportsOf (settings : Settings) (types : List Declaration) (fs : List Flavor) :
    List DumpReport :=
  fs.map fun f => Dump.reportOf f settings.threshold settings.directory types

/-- All dumps succeed if each of them can make its files of what the last one has left. -/
theorem dumpFlavors_eq_ok_iff :
    (∃ w', (dumpFlavors settings types done fs : StateM World _) w = (.ok reports, w') ∧
        w'.files = t) ↔
      reports = done ++ reportsOf settings types fs ∧
        Dump.Makes settings.threshold settings.directory types fs w.files t := by
  induction fs generalizing done w with
  | nil =>
    constructor
    · rintro ⟨w', h, rfl⟩
      obtain ⟨hreports, rfl⟩ := Prod.mk.inj h
      exact ⟨(Except.ok.inj hreports).symm.trans (List.append_nil done).symm, rfl⟩
    · rintro ⟨rfl, hmakes⟩
      refine ⟨w, ?_, hmakes.symm⟩
      show (Except.ok done, w) = (Except.ok (done ++ []), w)
      rw [List.append_nil]
  | cons f fs ih =>
    have hreports : done ++ reportsOf settings types (f :: fs) =
        done ++ [Dump.reportOf f settings.threshold settings.directory types] ++
          reportsOf settings types fs := by
      rw [List.append_assoc]
      rfl
    rw [hreports]
    rcases hrun : (Dump.run f settings.threshold settings.directory types : StateM World _) w with
      ⟨e | report, w₁⟩
    · -- the first dump fails, and nothing is made
      obtain ⟨log, happly⟩ := dumpFlavors_cons_of_error hrun done fs
      rw [happly]
      refine iff_of_false (by rintro ⟨w', h, -⟩; cases h) ?_
      rintro ⟨-, made, t₁, hmade, hfirst, -⟩
      obtain ⟨w', h, -⟩ := Dump.run_eq_ok_iff.mpr ⟨rfl, made, hmade, hfirst⟩
      rw [hrun] at h
      cases h
    · obtain ⟨log, happly⟩ := dumpFlavors_cons_of_ok hrun done fs
      obtain ⟨rfl, made, hmade, hfirst⟩ := Dump.run_eq_ok_iff.mp ⟨w₁, hrun, rfl⟩
      rw [happly, ih]
      refine and_congr_right fun _ => ⟨fun h => ⟨made, w₁.files, hmade, hfirst, h⟩, ?_⟩
      rintro ⟨made', t₁, hmade', hfirst', h⟩
      rw [hmade] at hmade'
      obtain ⟨-, rfl⟩ := Prod.mk.inj hmade'
      rw [hfirst] at hfirst'
      obtain ⟨-, rfl⟩ := Prod.mk.inj hfirst'
      exact h

/-- Dumps see nothing of the world but the files. -/
theorem dumpFlavors_congr {v w' : World} {result : Except RunError (List DumpReport)}
    (h : v.files = w.files)
    (hdump : (dumpFlavors settings types done fs : StateM World _) w = (result, w')) :
    ∃ v', (dumpFlavors settings types done fs : StateM World _) v = (result, v') ∧
      v'.files = w'.files := by
  induction fs generalizing done v w with
  | nil =>
    obtain ⟨rfl, rfl⟩ := Prod.mk.inj hdump
    exact ⟨v, rfl, h⟩
  | cons f fs ih =>
    rcases hrun : (Dump.run f settings.threshold settings.directory types : StateM World _) w with
      ⟨e | report, w₁⟩
    · obtain ⟨v₁, hrun', hfiles⟩ := Dump.run_congr h hrun
      obtain ⟨log, happly⟩ := dumpFlavors_cons_of_error hrun done fs
      obtain ⟨log', happly'⟩ := dumpFlavors_cons_of_error hrun' done fs
      obtain ⟨rfl, rfl⟩ := Prod.mk.inj (happly.symm.trans hdump)
      exact ⟨_, happly', hfiles⟩
    · obtain ⟨v₁, hrun', hfiles⟩ := Dump.run_congr h hrun
      obtain ⟨log, happly⟩ := dumpFlavors_cons_of_ok hrun done fs
      obtain ⟨log', happly'⟩ := dumpFlavors_cons_of_ok hrun' done fs
      rw [happly']
      exact ih (v := { v₁ with log := log' }) (w := { w₁ with log }) hfiles
        (happly.symm.trans hdump)

/-- A dump that fails behind others that succeed is the last one. -/
theorem dumpFlavors_append_of_error (settings : Settings) {e : DumpError} {w' : World}
    (hdone : Dump.Makes settings.threshold settings.directory types fs w.files w₁.files)
    (h : (Dump.run f settings.threshold settings.directory types : StateM World _) w₁ =
      (.error e, w')) (done : List DumpReport) (later : List Flavor) :
    ∃ u, (dumpFlavors settings types done (fs ++ f :: later) : StateM World _) w =
      (.error (.dump f e), u) ∧ u.files = w'.files := by
  induction fs generalizing done w with
  | nil =>
    obtain ⟨v, hrun, hfiles⟩ := Dump.run_congr (hdone : w₁.files = w.files).symm h
    obtain ⟨log, happly⟩ := dumpFlavors_cons_of_error hrun done later
    exact ⟨_, happly, hfiles⟩
  | cons g fs ih =>
    obtain ⟨made, t₁, hmade, hfirst, hrest⟩ := hdone
    obtain ⟨v, hrun, rfl⟩ := Dump.run_eq_ok_iff.mpr ⟨rfl, made, hmade, hfirst⟩
    obtain ⟨log, happly⟩ := dumpFlavors_cons_of_ok hrun done (fs ++ f :: later)
    obtain ⟨u, hu, hfiles⟩ := ih (w := { v with log }) hrest
      (done ++ [Dump.reportOf g settings.threshold settings.directory types])
    exact ⟨u, happly.trans hu, hfiles⟩

/-! ### The dump of a catalog -/

variable {path : String} {catalog : Catalog} {summary : Summary}

/-- What is told of a run that succeeds. -/
def summaryOf (path : String) (catalog : Catalog) (reports : List DumpReport) : Summary where
  catalog := path
  analyzedSymbols := catalog.analyzedSymbols
  catalogTypes := catalog.types.length
  definitions := (Generics.merge catalog.types).types.length
  merged := (Generics.merge catalog.types).dropped
  reports

/-- A catalog that is loaded is merged and dumped. -/
theorem dump_apply (h : loaded path (w.files.read path) = .ok catalog) (settings : Settings) :
    ∃ log, (dump path settings : StateM World _) w =
      match (dumpFlavors settings (Generics.merge catalog.types).types [] settings.flavors :
          StateM World _) { w with log } with
      | (.error e, w') => (.error e, w')
      | (.ok reports, w') => (.ok (summaryOf path catalog reports), w') := by
  obtain ⟨log, hlog⟩ :=
    forM_info_apply (mergeMessages catalog (Generics.merge catalog.types)) w
  refine ⟨log, ?_⟩
  simp only [dump, bind, StateT.bind, loadCatalog_apply, h, dumpCatalog, hlog]
  generalize (dumpFlavors settings _ [] settings.flavors : StateM World _) _ = outcome
  obtain ⟨e | reports, w'⟩ := outcome
  · rfl
  · rfl

/-- What a run that succeeds tells, and what it makes of the files. -/
theorem dump_eq_ok_iff (path : String) (settings : Settings) :
    (∃ w', (dump path settings : StateM World _) w = (.ok summary, w') ∧ w'.files = t) ↔
      ∃ catalog, loaded path (w.files.read path) = .ok catalog ∧
        summary = summaryOf path catalog
          (reportsOf settings (Generics.merge catalog.types).types settings.flavors) ∧
        Dump.Makes settings.threshold settings.directory (Generics.merge catalog.types).types
          settings.flavors w.files t := by
  rcases hloaded : loaded path (w.files.read path) with e | catalog
  · have hdump : (dump path settings : StateM World _) w = (.error e, w) := by
      simp only [dump, bind, StateT.bind, loadCatalog_apply, hloaded]
      rfl
    rw [hdump]
    refine iff_of_false (by rintro ⟨w', h, -⟩; cases h) ?_
    rintro ⟨catalog, h, -⟩
    cases h
  · obtain ⟨log, happly⟩ := dump_apply hloaded settings
    rw [happly]
    constructor
    · rintro ⟨w', h, rfl⟩
      split at h
      · cases h
      · rename_i reports w₁ hflavors
        obtain ⟨hsummary, rfl⟩ := Prod.mk.inj h
        obtain ⟨hreports, hmakes⟩ := dumpFlavors_eq_ok_iff.mp ⟨w₁, hflavors, rfl⟩
        refine ⟨catalog, rfl, (Except.ok.inj hsummary).symm.trans ?_, hmakes⟩
        rw [hreports, List.nil_append]
    · rintro ⟨catalog', h, rfl, hmakes⟩
      obtain rfl := Except.ok.inj h
      have hreports := (List.nil_append
        (reportsOf settings (Generics.merge catalog.types).types settings.flavors)).symm
      obtain ⟨w₁, hflavors, rfl⟩ :=
        (dumpFlavors_eq_ok_iff (w := { w with log })).mpr ⟨hreports, hmakes⟩
      rw [hflavors]
      exact ⟨w₁, rfl, rfl⟩

/-- A catalog that is loaded is dumped where the dumps of its merged declarations can be made. -/
theorem dump_succeeds_iff (h : loaded path (w.files.read path) = .ok catalog)
    (settings : Settings) :
    (∃ s w', (dump path settings : StateM World _) w = (.ok s, w')) ↔
      ∃ t, Dump.Makes settings.threshold settings.directory (Generics.merge catalog.types).types
        settings.flavors w.files t := by
  constructor
  · rintro ⟨s, w', hdump⟩
    obtain ⟨c, hc, -, hmakes⟩ := (dump_eq_ok_iff path settings).mp ⟨w', hdump, rfl⟩
    rw [h] at hc
    obtain rfl := Except.ok.inj hc
    exact ⟨w'.files, hmakes⟩
  · rintro ⟨t, hmakes⟩
    obtain ⟨w', hdump, -⟩ := (dump_eq_ok_iff path settings).mpr ⟨catalog, h, rfl, hmakes⟩
    exact ⟨_, w', hdump⟩

end LuaTypings.Run
