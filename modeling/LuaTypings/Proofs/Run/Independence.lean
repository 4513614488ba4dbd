/-
LuaTypings/Proofs/Run/Independence.lean

Bindings do not disturb each other.  A dump changes its directory and files with names of its
binding; so a run can take the bindings in any order, and gives the same reports and the same files.

Main result: `bindings_independent`.
-/
import LuaTypings.Proofs.Run.Bindings

namespace LuaTypings.Run

/-- Two dumps into one directory can change places. -/
theorem run_swap {f g : Flavor} {threshold : Nat} {dir : String} {types : List Declaration}
    {w w₁ w₂ : World} {r r' : DumpReport}
    (h : (Dump.run f threshold dir types : StateM World _) w = (.ok r, w₁))
    (h' : (Dump.run g threshold dir types : StateM World _) w₁ = (.ok r', w₂)) :
    ∃ v₁ v₂, (Dump.run g threshold dir types : StateM World _) w = (.ok r', v₁) ∧
      (Dump.run f threshold dir types : StateM World _) v₁ = (.ok r, v₂) ∧
      ∀ l, v₂.files.get? l = w₂.files.get? l := by
  obtain ⟨rfl, made, hmade, hfirst⟩ := Dump.run_eq_ok_iff.mp ⟨w₁, h, rfl⟩
  obtain ⟨rfl, made', hmade', hsecond⟩ := Dump.run_eq_ok_iff.mp ⟨w₂, h', rfl⟩
  have hboth : Dump.Makes threshold dir types [f, g] w.files w₂.files :=
    ⟨made, w₁.files, hmade, hfirst, made', w₂.files, hmade', hsecond, rfl⟩
  obtain ⟨t, ⟨made, t₁, hmade, hfirst, made', t₂, hmade', hsecond, rfl⟩, hsame⟩ :=
    hboth.perm (List.Perm.swap g f [])
  obtain ⟨v₁, hrun, rfl⟩ := Dump.run_eq_ok_iff.mpr ⟨rfl, made, hmade, hfirst⟩
  obtain ⟨v₂, hrun', rfl⟩ := Dump.run_eq_ok_iff.mpr ⟨rfl, made', hmade', hsecond⟩
  exact ⟨v₁, v₂, hrun, hrun', hsame⟩

/-- A run can take the bindings in any order. -/
theorem dump_perm {path : String} {settings : Settings} {flavors : List Flavor}
    (hperm : settings.flavors.Perm flavors) {w w' : World} {s : Summary}
    (h : (dump path settings : StateM World _) w = (.ok s, w')) :
    ∃ s' v', (dump path { settings with flavors } : StateM World _) w = (.ok s', v') ∧
      s' = { s with reports := s'.reports } ∧ s'.reports.Perm s.reports ∧
      ∀ l, v'.files.get? l = w'.files.get? l := by
  obtain ⟨catalog, hloaded, rfl, hmakes⟩ := (dump_eq_ok_iff path settings).mp ⟨w', h, rfl⟩
  obtain ⟨t, hmakes', hsame⟩ := hmakes.perm hperm
  obtain ⟨v', hdump, rfl⟩ :=
    (dump_eq_ok_iff path { settings with flavors }).mpr ⟨catalog, hloaded, rfl, hmakes'⟩
  exact ⟨_, v', hdump, rfl, (hperm.map _).symm, hsame⟩

/-- **Bindings do not disturb each other.**  A dump, however it ends, changes nothing but its
directory, those that it is in, and files in it that have names of its binding.  So dumps for two
bindings, one after the other, succeed in one order exactly if they do in the other one, with the
same reports and the same tree in the end; and a run on a catalog that succeeds with its bindings in
one order succeeds in any order, with the same reports and the same tree. -/
theorem bindings_independent :
    (∀ f threshold dir types w, Dump.ChangesOnly f dir w.files
      ((Dump.run f threshold dir types : StateM World _) w).2.files) ∧
    (∀ f g threshold dir types w r r' (t : FileTree),
      (∃ w₁ w₂, (Dump.run f threshold dir types : StateM World _) w = (.ok r, w₁) ∧
        (Dump.run g threshold dir types : StateM World _) w₁ = (.ok r', w₂) ∧
        ∀ l, w₂.files.get? l = t.get? l) ↔
      ∃ v₁ v₂, (Dump.run g threshold dir types : StateM World _) w = (.ok r', v₁) ∧
        (Dump.run f threshold dir types : StateM World _) v₁ = (.ok r, v₂) ∧
        ∀ l, v₂.files.get? l = t.get? l) ∧
    ∀ path settings flavors, settings.flavors.Perm flavors → ∀ w s w',
      (dump path settings : StateM World _) w = (.ok s, w') →
      ∃ s' v', (dump path { settings with flavors } : StateM World _) w = (.ok s', v') ∧
        s' = { s with reports := s'.reports } ∧ s'.reports.Perm s.reports ∧
        ∀ l, v'.files.get? l = w'.files.get? l := by
  refine ⟨Dump.run_changesOnly, ?_, ?_⟩
  · intro f g threshold dir types w r r' t
    constructor
    · rintro ⟨w₁, w₂, h, h', ht⟩
      obtain ⟨v₁, v₂, hv, hv', hsame⟩ := run_swap h h'
      exact ⟨v₁, v₂, hv, hv', fun l => (hsame l).trans (ht l)⟩
    · rintro ⟨v₁, v₂, h, h', ht⟩
      obtain ⟨w₁, w₂, hw, hw', hsame⟩ := run_swap h h'
      exact ⟨w₁, w₂, hw, hw', fun l => (hsame l).trans (ht l)⟩
  · intro path settings flavors hperm w s w' h
    exact dump_perm hperm h

/-- Two bindings for two classes, of which one cannot be rendered, and for a class of lists. -/
theorem bindings_independent_besideBroken :
    (∃ w₁ w₂ r r', (Dump.run .xlua 1 "out" (Dump.besideBroken "C") : StateM World _) {} =
        (.ok r, w₁) ∧
      (Dump.run .tolua 1 "out" (Dump.besideBroken "C") : StateM World _) w₁ = (.ok r', w₂) ∧
      ∃ v₁ v₂, (Dump.run .tolua 1 "out" (Dump.besideBroken "C") : StateM World _) {} =
          (.ok r', v₁) ∧
        (Dump.run .xlua 1 "out" (Dump.besideBroken "C") : StateM World _) v₁ = (.ok r, v₂) ∧
        ∀ l, v₂.files.get? l = w₂.files.get? l) ∧
    ∃ s w', (dump "catalog.json" ⟨"out", 1, [.xlua, .tolua]⟩ : StateM World _)
        (withFile lists.toText) = (.ok s, w') ∧
      ∃ s' v', (dump "catalog.json" ⟨"out", 1, [.tolua, .xlua]⟩ : StateM World _)
          (withFile lists.toText) = (.ok s', v') ∧
        ∀ l, v'.files.get? l = w'.files.get? l := by
  obtain ⟨-, hswap, hperm⟩ := bindings_independent
  refine ⟨?_, ?_⟩
  · obtain ⟨t, made, t₁, hmade, hfirst, made', t₂, hmade', hsecond, rfl⟩ :
        ∃ t, Dump.Makes 1 "out" (Dump.besideBroken "C") [.xlua, .tolua] {} t :=
      Dump.exists_makes rfl (by decide +kernel)
    obtain ⟨w₁, hrun, rfl⟩ :=
      (Dump.run_eq_ok_iff (w := {})).mpr ⟨rfl, made, hmade, hfirst⟩
    obtain ⟨w₂, hrun', rfl⟩ := Dump.run_eq_ok_iff.mpr ⟨rfl, made', hmade', hsecond⟩
    exact ⟨w₁, w₂, _, _, hrun, hrun',
      (hswap _ _ _ _ _ _ _ _ _).mp ⟨w₁, w₂, hrun, hrun', fun _ => rfl⟩⟩
  · have hnamed : ∀ d ∈ lists.types, Text.isBlankText d.name = false := by decide +kernel
    have hload := loadCatalog_withFile hnamed
    rw [loadCatalog_apply] at hload
    obtain ⟨t, hmakes⟩ : ∃ t, Dump.Makes 1 "out" (Generics.merge lists.types).types
        [.xlua, .tolua] (withFile lists.toText).files t :=
      Dump.exists_makes rfl (by decide +kernel)
    obtain ⟨w', hdump, rfl⟩ := (dump_eq_ok_iff "catalog.json" ⟨"out", 1, [.xlua, .tolua]⟩).mpr
      ⟨lists, (Prod.mk.inj hload).1, rfl, hmakes⟩
    obtain ⟨s', v', hdump', -, -, hsame⟩ :=
      hperm _ _ [.tolua, .xlua] (List.Perm.swap _ _ _) _ _ _ hdump
    exact ⟨_, w', hdump, s', v', hdump', hsame⟩

end LuaTypings.Run
