/-
LuaTypings/Proofs/Flavors.lean

Where the two bindings agree on a declaration.  Everything that a declaration is asked for is
asked for both of them, except that its name is asked for below the root table of the binding.
So the bindings differ exactly on the declarations whose path is empty and whose parents denote
types: xLua writes the root table in front of nothing, and toLua has no name to write
(`fault_render_eq_iff`).  Of a whole catalog, both dumps find the same names missing and the same
names in the index, and they leave out the same declarations exactly if they agree on each.
-/
import LuaTypings.Proofs.Checks
import LuaTypings.Proofs.Dump

namespace LuaTypings

namespace Block

/-! ### One declaration -/

theorem declaredName_eq (f : Flavor) (d : Declaration) :
    declaredName f d.header = f.root ++ References.pathOf d := rfl

/-- The root table of xLua stands in front of every name. -/
theorem isEmpty_declaredName_xlua (d : Declaration) :
    (declaredName .xlua d.header).isEmpty = false := by
  rw [declaredName_eq, Bool.eq_false_iff]
  intro h
  have hlength := congrArg String.length (String.isEmpty_iff.mp h)
  rw [String.length_append] at hlength
  have hroot : Flavor.xlua.root.length = 3 := by decide
  simp only [hroot, String.length_empty] at hlength
  omega

theorem declaredName_tolua (d : Declaration) :
    declaredName .tolua d.header = References.pathOf d := by
  rw [declaredName_eq]
  exact String.empty_append

/-- The first fault of a declaration: that of its parents, its empty name, that of its
members. -/
theorem firstFault?_checks (f : Flavor) (d : Declaration) :
    firstFault? (checks f d) = (firstFault? (parentChecks d)).or
      (if (declaredName f d.header).isEmpty then some (.emptyName (nameKind d))
        else firstFault? (memberChecks d)) := by
  rw [firstFault?, checks, List.findSome?_append, List.findSome?_cons, Check.fault?]
  split_ifs <;> rfl

theorem fault_render_xlua (d : Declaration) :
    faultOf (render .xlua d) =
      (firstFault? (parentChecks d)).or (firstFault? (memberChecks d)) := by
  rw [fault_render, firstFault?_checks, isEmpty_declaredName_xlua]
  rfl

theorem fault_render_tolua (d : Declaration) :
    faultOf (render .tolua d) = (firstFault? (parentChecks d)).or
      (if References.pathOf d = "" then some (.emptyName (nameKind d))
        else firstFault? (memberChecks d)) := by
  rw [fault_render, firstFault?_checks, declaredName_tolua]
  simp only [String.isEmpty_iff]

/-- Members are asked for types and for names of their own. -/
def Check.IsOfMember : Check → Prop
  | denotes _ => True
  | named kind _ => kind = .field ∨ kind = .method

theorem Check.IsOfMember.fault_ne {c : Check} (h : c.IsOfMember) (d : Declaration) :
    c.fault? ≠ some (.emptyName (nameKind d)) := by
  have hkind : nameKind d ≠ .field ∧ nameKind d ≠ .method := by cases d <;> exact ⟨nofun, nofun⟩
  cases c with
  | denotes display =>
    simp only [fault?, Spelling.parse]
    rcases HostType.parse display with e | type <;> simp [faultOf]
  | named kind name =>
    simp only [fault?]
    split_ifs
    · intro he
      obtain rfl : kind = nameKind d := by simpa using he
      exact h.elim hkind.1 hkind.2
    · simp

theorem isOfMember_inputChecks {m : Method} {c : Check} (h : c ∈ inputChecks m) :
    c.IsOfMember := by
  obtain ⟨_, _, rfl⟩ := List.mem_map.mp h
  exact trivial

theorem isOfMember_resultChecks {m : Method} {c : Check} (h : c ∈ resultChecks m) :
    c.IsOfMember := by
  rcases List.mem_cons.mp h with rfl | h
  · exact trivial
  · obtain ⟨_, _, rfl⟩ := List.mem_map.mp h
    exact trivial

theorem isOfMember_fieldChecks {field : Field} {c : Check} (h : c ∈ fieldChecks field) :
    c.IsOfMember := by
  simp only [fieldChecks, List.mem_cons, List.not_mem_nil, or_false] at h
  rcases h with rfl | rfl
  · exact trivial
  · exact Or.inl rfl

theorem isOfMember_methodChecks {m : Method} {c : Check} (h : c ∈ methodChecks m) :
    c.IsOfMember := by
  unfold methodChecks at h
  split_ifs at h
  · cases h
  · rcases List.mem_cons.mp h with rfl | h
    · exact Or.inr rfl
    · exact (List.mem_append.mp h).elim isOfMember_inputChecks isOfMember_resultChecks

theorem isOfMember_memberChecks {d : Declaration} {c : Check} (h : c ∈ memberChecks d) :
    c.IsOfMember := by
  have hinputs {ms : List Method} (h : c ∈ ms.flatMap inputChecks) : c.IsOfMember := by
    obtain ⟨_, -, h⟩ := List.mem_flatMap.mp h
    exact isOfMember_inputChecks h
  have hfields {fields : List Field} (h : c ∈ fields.flatMap fieldChecks) : c.IsOfMember := by
    obtain ⟨_, -, h⟩ := List.mem_flatMap.mp h
    exact isOfMember_fieldChecks h
  have hmethods {ms : List Method} (h : c ∈ ms.flatMap methodChecks) : c.IsOfMember := by
    obtain ⟨_, -, h⟩ := List.mem_flatMap.mp h
    exact isOfMember_methodChecks h
  cases d with
  | classType cl =>
    rcases List.mem_append.mp h with h | h
    · rcases List.mem_append.mp h with h | h
      · split_ifs at h
        · cases h
        · exact hinputs h
      · exact hfields h
    · exact hmethods h
  | interfaceType i => exact (List.mem_append.mp h).elim hfields hmethods
  | enumType e =>
    obtain ⟨_, -, rfl⟩ := List.mem_map.mp h
    exact Or.inl rfl
  | delegateType dl =>
    exact (List.mem_append.mp h).elim isOfMember_inputChecks isOfMember_resultChecks

/-- An empty name of a declaration is not mistaken for that of a member. -/
theorem firstFault?_memberChecks_ne (d : Declaration) :
    firstFault? (memberChecks d) ≠ some (.emptyName (nameKind d)) := by
  intro h
  obtain ⟨c, hc, hfault⟩ := List.exists_of_findSome?_eq_some h
  exact (isOfMember_memberChecks hc).fault_ne d hfault

/-- **The bindings agree on a declaration** exactly if it has a path or its parents are at fault
before its name is asked for. -/
theorem fault_render_eq_iff (d : Declaration) :
    faultOf (render .xlua d) = faultOf (render .tolua d) ↔
      References.pathOf d ≠ "" ∨ firstFault? (parentChecks d) ≠ none := by
  rw [fault_render_xlua, fault_render_tolua]
  rcases firstFault? (parentChecks d) with - | e
  · rw [Option.none_or, Option.none_or]
    split_ifs with hpath
    · simpa [hpath] using firstFault?_memberChecks_ne d
    · simp [hpath]
  · simp

/-- What xLua leaves out, toLua leaves out. -/
theorem fault_render_tolua_ne_none {d : Declaration} (h : faultOf (render .xlua d) ≠ none) :
    faultOf (render .tolua d) ≠ none := by
  rw [fault_render_xlua] at h
  rw [fault_render_tolua]
  generalize firstFault? (parentChecks d) = parents at h ⊢
  rcases parents with - | e
  · split_ifs
    · exact Option.some_ne_none _
    · exact h
  · exact Option.some_ne_none _

end Block

namespace Dump

/-! ### A whole catalog -/

/-- Two selections from a list where the second one selects whatever the first one does are the
same exactly if they agree on every element. -/
theorem filterMap_eq_filterMap_iff {α β : Type} {f g : α → Option β} {as : List α}
    (h : ∀ a ∈ as, f a ≠ none → g a ≠ none) :
    as.filterMap f = as.filterMap g ↔ ∀ a ∈ as, f a = g a := by
  refine ⟨?_, List.filterMap_congr⟩
  have hlength (bs : List α) (hbs : ∀ a ∈ bs, f a ≠ none → g a ≠ none) :
      (bs.filterMap f).length ≤ (bs.filterMap g).length := by
    rw [List.length_filterMap_eq_countP, List.length_filterMap_eq_countP]
    refine List.countP_mono_left fun a ha hsome => ?_
    exact Option.isSome_iff_ne_none.mpr (hbs a ha (Option.isSome_iff_ne_none.mp hsome))
  induction as with
  | nil => exact fun _ => List.forall_mem_nil _
  | cons a as ih =>
    intro heq
    obtain ⟨ha, has⟩ := List.forall_mem_cons.mp h
    rw [List.filterMap_cons, List.filterMap_cons] at heq
    rw [List.forall_mem_cons]
    rcases hf : f a with - | b <;> rcases hg : g a with - | b'
    · rw [hf, hg] at heq
      exact ⟨rfl, ih has heq⟩
    · -- then the second selection is longer
      rw [hf, hg] at heq
      have := congrArg List.length heq
      have := hlength as has
      simp only [List.length_cons] at *
      omega
    · exact absurd hg (ha (by simp [hf]))
    · rw [hf, hg] at heq
      obtain ⟨rfl, htail⟩ := List.cons.inj heq
      exact ⟨rfl, ih has htail⟩

theorem skippedOf_eq_filterMap (f : Flavor) (types : List Declaration) :
    skippedOf f types = types.filterMap fun d => (faultOf (Block.render f d)).map (.of d) := by
  refine List.filterMap_congr fun d _ => ?_
  rcases Block.render f d with e | block <;> rfl

theorem skippedOf_eq_iff (types : List Declaration) :
    skippedOf .xlua types = skippedOf .tolua types ↔
      ∀ d ∈ types, faultOf (Block.render .xlua d) = faultOf (Block.render .tolua d) := by
  have hinjective (d : Declaration) : Function.Injective (Skipped.of d) := fun e e' h =>
    congrArg Skipped.error h
  rw [skippedOf_eq_filterMap, skippedOf_eq_filterMap, filterMap_eq_filterMap_iff]
  · exact forall₂_congr fun d _ => (Option.map_injective (hinjective d)).eq_iff
  · intro d _ h
    rw [Ne, Option.map_eq_none_iff] at h ⊢
    exact Block.fault_render_tolua_ne_none h

/-- **Where two bindings agree.**  A declaration is rendered for both bindings, or fails for both
with the same error, exactly if it has a path or its parents are at fault.  Two runs on the same
declarations that succeed find the same names missing and the same number of names in the index;
they emit equally many declarations and leave out the same ones for the same reasons exactly if
the bindings agree on each declaration. -/
theorem bindings_agree_iff (types : List Declaration) :
    (∀ d, faultOf (Block.render .xlua d) = faultOf (Block.render .tolua d) ↔
      References.pathOf d ≠ "" ∨ Block.firstFault? (Block.parentChecks d) ≠ none) ∧
    ∀ threshold dir w report w₁ threshold' dir' w' report' w₁',
      (run .xlua threshold dir types : StateM World _) w = (.ok report, w₁) →
      (run .tolua threshold' dir' types : StateM World _) w' = (.ok report', w₁') →
      report.missing = report'.missing ∧ report.namespaceCount = report'.namespaceCount ∧
      (report.emitted = report'.emitted ∧ report.skipped = report'.skipped ↔
        ∀ d ∈ types,
          References.pathOf d ≠ "" ∨ Block.firstFault? (Block.parentChecks d) ≠ none) := by
  refine ⟨Block.fault_render_eq_iff, ?_⟩
  intro threshold dir w report w₁ threshold' dir' w' report' w₁' h h'
  have hx := isComplete_of_run h
  have ht := isComplete_of_run h'
  have hskipped : report.skipped = report'.skipped ↔ ∀ d ∈ types,
      References.pathOf d ≠ "" ∨ Block.firstFault? (Block.parentChecks d) ≠ none := by
    rw [hx.skipped, ht.skipped, skippedOf_eq_iff]
    exact forall₂_congr fun d _ => Block.fault_render_eq_iff d
  refine ⟨hx.missing.trans ht.missing.symm, hx.namespaceCount.trans ht.namespaceCount.symm, ?_⟩
  rw [← hskipped, and_iff_right_iff_imp]
  -- what is not left out is emitted
  intro heq
  have hall := hx.all
  rw [heq, ← ht.all] at hall
  exact Nat.add_right_cancel hall

/-- Both bindings leave out the second one of two classes. -/
theorem bindings_agree_besideBroken :
    ∃ report w₁ report' w₁',
      (run .xlua 1 "out" (besideBroken "C") : StateM World _) {} = (.ok report, w₁) ∧
      (run .tolua 1 "out" (besideBroken "C") : StateM World _) {} = (.ok report', w₁') ∧
      report.skipped.length = 1 ∧ report.skipped = report'.skipped ∧
      report.missing = report'.missing := by
  have hrun : ((run .xlua 1 "out" (besideBroken "C") : StateM World _) {}).1.toOption.map
      (fun report => report.skipped.length) = some 1 := by decide +kernel
  have hrun' : ((run .tolua 1 "out" (besideBroken "C") : StateM World _) {}).1.toOption.map
      (fun report => report.skipped.length) = some 1 := by decide +kernel
  obtain ⟨report, w₁, h, hskipped⟩ := exists_ok_of_toOption hrun
  obtain ⟨report', w₁', h', -⟩ := exists_ok_of_toOption hrun'
  obtain ⟨hmissing, -, hagree⟩ :=
    (bindings_agree_iff (besideBroken "C")).2 _ _ _ _ _ _ _ _ _ _ h h'
  have hpaths : ∀ d ∈ besideBroken "C",
      References.pathOf d ≠ "" ∨ Block.firstFault? (Block.parentChecks d) ≠ none := by
    decide +kernel
  exact ⟨report, w₁, report', w₁', h, h', hskipped, (hagree.mpr hpaths).2, hmissing⟩

/-- A class whose name is an argument list only. -/
def listOnly : Declaration := .classType { header := { name := "<Module>" } }

/-- xLua writes the root table in front of nothing and toLua leaves the class out, although its
name is not blank. -/
theorem not_bindings_agree_listOnly :
    Text.isBlankText listOnly.name = false ∧ (Block.render .xlua listOnly).isOk = true ∧
      Block.render .tolua listOnly = .error (.emptyName .type) ∧
      ∃ report w₁ report' w₁',
        (run .xlua 1 "out" [listOnly] : StateM World _) {} = (.ok report, w₁) ∧
        (run .tolua 1 "out" [listOnly] : StateM World _) {} = (.ok report', w₁') ∧
        (report.emitted, report.skipped) = (1, []) ∧
        (report'.emitted, report'.skipped) = (0, [.of listOnly (.emptyName .type)]) := by
  have hrun : ((run .xlua 1 "out" [listOnly] : StateM World _) {}).1.toOption.map
      (fun report => (report.emitted, report.skipped)) = some (1, []) := by decide +kernel
  have hrun' : ((run .tolua 1 "out" [listOnly] : StateM World _) {}).1.toOption.map
      (fun report => (report.emitted, report.skipped)) =
        some (0, [.of listOnly (.emptyName .type)]) := by decide +kernel
  obtain ⟨report, w₁, h, hreport⟩ := exists_ok_of_toOption hrun
  obtain ⟨report', w₁', h', hreport'⟩ := exists_ok_of_toOption hrun'
  exact ⟨by decide +kernel, by decide +kernel, by decide +kernel, report, w₁, report', w₁', h, h',
    hreport, hreport'⟩

end Dump

end LuaTypings
