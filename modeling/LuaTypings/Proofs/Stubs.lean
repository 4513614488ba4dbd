/-
LuaTypings/Proofs/Stubs.lean

Stubs against the declarations of a dump.  A name that a declaration calls for is declared in
the catalog or missing and not both, and what is missing has one stub.  The catalog also counts
the declarations that are skipped, so a name is resolved by what the dump writes exactly if it
is not the name of skipped declarations alone (`resolved_iff`).
-/
import LuaTypings.Proofs.Dump

namespace LuaTypings.Dump

/-- The block of a declaration is in the chunks. -/
def isEmitted (f : Flavor) (d : Declaration) : Bool := (Block.render f d).isOk

/-- A declaration in the chunks has this path. -/
def EmittedAs (f : Flavor) (types : List Declaration) (name : String) : Prop :=
  ∃ d ∈ types, isEmitted f d = true ∧ References.pathOf d = name

instance (f : Flavor) (types : List Declaration) (name : String) :
    Decidable (EmittedAs f types name) :=
  inferInstanceAs (Decidable (∃ d ∈ types, isEmitted f d = true ∧ References.pathOf d = name))

/-- A name is that of a declaration in the chunks or has exactly one stub, and not both. -/
def Resolved (f : Flavor) (types : List Declaration) (report : DumpReport) (name : String) : Prop :=
  EmittedAs f types name ∧ name ∉ report.missing ∨
    ¬ EmittedAs f types name ∧ report.missing.count name = 1

instance (f : Flavor) (types : List Declaration) (report : DumpReport) (name : String) :
    Decidable (Resolved f types report name) := inferInstanceAs (Decidable (_ ∨ _))

variable {f : Flavor} {dir : String} {types : List Declaration} {report : DumpReport}
  {t : FileTree} {name : String}

/-- What is called for has a stub exactly if no declaration of the catalog has its name. -/
theorem mem_missing_iff (h : IsComplete f dir types report t) {d : Declaration} (hd : d ∈ types)
    {display : String} (hdisplay : display ∈ d.mentions)
    (hcalls : References.CallsFor d.scope display name) :
    name ∈ report.missing ↔ ∀ d' ∈ types, References.pathOf d' ≠ name := by
  rw [h.missing, References.mem_missing_ofCatalog]
  exact and_iff_right ⟨d, hd, display, hdisplay, hcalls⟩

theorem resolved_of_complete_iff (h : IsComplete f dir types report t) {d : Declaration}
    (hd : d ∈ types) {display : String} (hdisplay : display ∈ d.mentions)
    (hcalls : References.CallsFor d.scope display name) :
    Resolved f types report name ↔
      ((∃ d' ∈ types, References.pathOf d' = name) → EmittedAs f types name) := by
  have hmissing := mem_missing_iff h hd hdisplay hcalls
  have hnodup : report.missing.Nodup := by
    rw [h.missing]
    exact References.nodup_missing_ofCatalog types
  by_cases hdeclared : ∃ d' ∈ types, References.pathOf d' = name
  · -- the catalog declares it, so there is no stub
    have hnone : name ∉ report.missing := by
      rw [hmissing]
      obtain ⟨d', hd', hpath⟩ := hdeclared
      exact fun hall => hall d' hd' hpath
    have hcount : report.missing.count name ≠ 1 := by
      rw [List.count_eq_zero.mpr hnone]
      decide
    simp [Resolved, hdeclared, hnone, hcount]
  · have hone : name ∈ report.missing :=
      hmissing.mpr fun d' hd' hpath => hdeclared ⟨d', hd', hpath⟩
    have hemitted : ¬ EmittedAs f types name := by
      rintro ⟨d', hd', -, hpath⟩
      exact hdeclared ⟨d', hd', hpath⟩
    simp [Resolved, hdeclared, hemitted, List.count_eq_one_of_mem hnodup hone]

/-- **References are resolved.**  After a run that succeeds, the stub file has one stub for each
missing name.  A name that a declaration calls for is that of a declaration in the chunks or has
exactly one stub, and not both, exactly if it is not the name of skipped declarations alone; so
all names are resolved if no declaration is skipped. -/
theorem resolved_iff {threshold : Nat} {w w' : World}
    (h : (run f threshold dir types : StateM World _) w = (.ok report, w')) :
    (report.missing.Nodup ∧
      w'.files.read report.stubFile =
        .ok (References.stubText { missing := report.missing } f.root)) ∧
    (∀ d ∈ types, ∀ display ∈ d.mentions, ∀ name, References.CallsFor d.scope display name →
      (Resolved f types report name ↔
        ((∃ d' ∈ types, References.pathOf d' = name) → EmittedAs f types name))) ∧
    ((∀ d ∈ types, isEmitted f d = true) →
      ∀ d ∈ types, ∀ display ∈ d.mentions, ∀ name, References.CallsFor d.scope display name →
        Resolved f types report name) := by
  have hcomplete := isComplete_of_run h
  refine ⟨⟨?_, ?_⟩, ?_, ?_⟩
  · rw [hcomplete.missing]
    exact References.nodup_missing_ofCatalog types
  · rw [hcomplete.stubs, hcomplete.missing]
    rfl
  · intro d hd display hdisplay name hcalls
    exact resolved_of_complete_iff hcomplete hd hdisplay hcalls
  · intro hall d hd display hdisplay name hcalls
    rw [resolved_of_complete_iff hcomplete hd hdisplay hcalls]
    rintro ⟨d', hd', hpath⟩
    exact ⟨d', hd', hall d' hd', hpath⟩

/-- A type that no declaration has the name of gets its stub, beside a declaration that is
skipped. -/
theorem resolved_besideBroken :
    ∃ report w', (run .xlua 1 "out" (besideBroken "C") : StateM World _) {} = (.ok report, w') ∧
      report.skipped.length = 1 ∧ Resolved .xlua (besideBroken "C") report "C" := by
  have hrun : ((run .xlua 1 "out" (besideBroken "C") : StateM World _) {}).1.toOption.map
      (fun report => report.skipped.length) = some 1 := by decide +kernel
  rcases h : (run .xlua 1 "out" (besideBroken "C") : StateM World _) {} with ⟨e | report, w'⟩
  · rw [h] at hrun
    cases hrun
  · rw [h] at hrun
    refine ⟨report, w', rfl, Option.some.inj hrun, ?_⟩
    have hcalls : References.CallsFor [] "C" "C" := by decide +kernel
    refine ((resolved_iff h).2.1 _ List.mem_cons_self "C" (by decide) "C" hcalls).mpr ?_
    decide +kernel

/-- A type that only a skipped declaration has the name of is neither in the chunks nor has it a
stub. -/
theorem not_resolved_skipped :
    ∃ report w', (run .xlua 1 "out" (besideBroken "B") : StateM World _) {} = (.ok report, w') ∧
      (∃ d ∈ besideBroken "B", isEmitted .xlua d = true ∧ "B" ∈ d.mentions ∧
        References.CallsFor d.scope "B" "B") ∧
      ¬ Resolved .xlua (besideBroken "B") report "B" := by
  have hcalls : ∃ d ∈ besideBroken "B", isEmitted .xlua d = true ∧ "B" ∈ d.mentions ∧
      References.CallsFor d.scope "B" "B" := by decide +kernel
  have hrun : ((run .xlua 1 "out" (besideBroken "B") : StateM World _) {}).1.toOption.map
      (fun report => decide (Resolved .xlua (besideBroken "B") report "B")) = some false := by
    decide +kernel
  rcases h : (run .xlua 1 "out" (besideBroken "B") : StateM World _) {} with ⟨e | report, w'⟩
  · rw [h] at hrun
    cases hrun
  · rw [h] at hrun
    exact ⟨report, w', rfl, hcalls, of_decide_eq_false (Option.some.inj hrun)⟩

end LuaTypings.Dump
