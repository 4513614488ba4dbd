/-
LuaTypings/Proofs/Generics/Paths.lean

Whether merging loses a type.  A type is known by its Lua path, so none is lost if every
declaration has one of its kind and path among the remaining ones (`KeepsPaths`).

A definition shows the path of its key (`pathOf_toDefinition`).  An instance is therefore
represented by whatever has its key, and it is lost exactly if that key shows another path and
no other class happens to show the right one (`keepsPaths_iff`).  Keys show another path where
a name goes on behind its argument list, as names of nested types do: the key ends at the first
angle bracket.
-/
import LuaTypings.Proofs.Generics.Survivors
import LuaTypings.Proofs.HostName.Bare
import LuaTypings.References

namespace LuaTypings.Generics

open References (pathOf)
open HostName (EndsWithArguments)

variable {types : List Declaration}

/-! ### Paths of definitions -/

/-- A definition shows the path of its key. -/
theorem pathOf_toDefinition (c : ClassType) :
    pathOf (.classType c.toDefinition) = HostName.luaPath c.definitionKey :=
  HostName.luaPath_definition_count _ _ _ _

/-- The key of a class shows the path of the class exactly if the name ends with its
arguments. -/
theorem luaPath_definitionKey_iff {c : ClassType} (h : '<' ∉ c.header.space.toList) :
    HostName.luaPath c.definitionKey = pathOf (.classType c) ↔
      EndsWithArguments c.header.name :=
  HostName.luaPath_definition_iff h _ _

/-! ### Paths that remain -/

/-- Merging loses no type: of every declaration there remains one of its kind and path. -/
def KeepsPaths (types : List Declaration) : Prop :=
  ∀ d ∈ types, ∃ e ∈ (merge types).types, e.kind = d.kind ∧ pathOf e = pathOf d

instance (types : List Declaration) : Decidable (KeepsPaths types) :=
  inferInstanceAs (Decidable (∀ d ∈ types, _))

/-- A class shows the path, or the key of an instance does and no definition owns that key. -/
def Shown (types : List Declaration) (path : String) : Prop :=
  (∃ e, .classType e ∈ types ∧ e.isInstance = false ∧ pathOf (.classType e) = path) ∨
    ∃ e, .classType e ∈ types ∧ e.isInstance = true ∧
      (∀ o ∈ types, definitionKey? o ≠ some e.definitionKey) ∧
      HostName.luaPath e.definitionKey = path

/-- The paths of the classes that remain are the ones shown. -/
theorem exists_class_path_iff (types : List Declaration) (path : String) :
    (∃ e ∈ (merge types).types, e.kind = .classKind ∧ pathOf e = path) ↔ Shown types path := by
  constructor
  · -- what remains at a position stood there before or is made of the instance there
    rintro ⟨e, he, hkind, hpath⟩
    obtain ⟨i, hi⟩ := mem_merge_types.mp he
    rcases remnant?_cases hi with ⟨hget, hinst⟩ | ⟨c, hget, hc, hclaim, rfl⟩
    · cases e with
      | classType f =>
        refine Or.inl ⟨f, List.mem_of_getElem? hget, ?_, hpath⟩
        by_contra hf
        rw [instance?_classType (by simpa using hf)] at hinst
        cases hinst
      | interfaceType _ => cases hkind
      | enumType _ => cases hkind
      | delegateType _ => cases hkind
    · refine Or.inr ⟨c, List.mem_of_getElem? hget, hc, fun o ho hkey => ?_, ?_⟩
      · exact hclaim (Or.inl ⟨o, ho, hkey⟩)
      · rw [← pathOf_toDefinition, hpath]
  · rintro (⟨e, he, hinst, hpath⟩ | ⟨e, he, hinst, hown, hpath⟩)
    · exact ⟨_, mem_merge_of_not_instance he (instance?_eq_none hinst), rfl, hpath⟩
    · -- the first instance with the key remains, and shows the path of the key
      obtain ⟨i, hi⟩ := List.mem_iff_getElem?.mp he
      obtain ⟨j, f, -, -, hkey, hrem⟩ := exists_representative hi hinst hown
      refine ⟨_, mem_merge_types.mpr ⟨j, hrem⟩, rfl, ?_⟩
      rw [pathOf_toDefinition, hkey, hpath]

/-- Only instances can be lost. -/
theorem keepsPaths_iff_shown (types : List Declaration) :
    KeepsPaths types ↔
      ∀ c, .classType c ∈ types → c.isInstance = true → Shown types (pathOf (.classType c)) := by
  constructor
  · intro h c hc _
    exact (exists_class_path_iff types _).mp (h _ hc)
  · intro h d hd
    rcases hinst : instance? d with - | c
    · exact ⟨d, mem_merge_of_not_instance hd hinst, rfl, rfl⟩
    · obtain ⟨rfl, hc⟩ := instance?_eq_some_iff.mp hinst
      exact (exists_class_path_iff types _).mpr (h c hd hc)

/-- If the names of all generic classes end with their arguments, merging loses no type. -/
theorem keepsPaths_of_endsWithArguments
    (h : ∀ c, .classType c ∈ types → c.isGeneric = true →
      '<' ∉ c.header.space.toList ∧ EndsWithArguments c.header.name) :
    KeepsPaths types := by
  refine (keepsPaths_iff_shown types).mpr fun c hc hinst => ?_
  have hgen : ∀ {e : ClassType}, .classType e ∈ types → e.isGeneric = true →
      HostName.luaPath e.definitionKey = pathOf (.classType e) := fun he hg =>
    (luaPath_definitionKey_iff (h _ he hg).1).mpr (h _ he hg).2
  have hcpath := hgen hc (ClassType.isInstance_iff.mp hinst).2
  by_cases hown : ∃ o ∈ types, definitionKey? o = some c.definitionKey
  · -- the definition that owns the key has the path of the key, as the instance does
    obtain ⟨o, ho, hkey⟩ := hown
    obtain ⟨e, rfl, hdef, hsame⟩ := definitionKey?_eq_some_iff.mp hkey
    refine Or.inl ⟨e, ho, ClassType.isInstance_eq_false_of_isDefinition hdef, ?_⟩
    rw [← hgen ho (ClassType.isDefinition_iff.mp hdef).2, hsame, hcpath]
  · exact Or.inr ⟨c, hc, hinst, by simpa using hown, hcpath⟩

/-- **When merging loses no type.**  It loses none exactly if the path of every instance is
shown by a class that is none or by the key of an instance without a definition of its own.
That is so if the names of all generic classes end with their arguments, and an instance keeps
its path exactly if its name does. -/
theorem keepsPaths_iff (types : List Declaration) :
    (KeepsPaths types ↔
      ∀ c, .classType c ∈ types → c.isInstance = true → Shown types (pathOf (.classType c))) ∧
    ((∀ c, .classType c ∈ types → c.isGeneric = true →
      '<' ∉ c.header.space.toList ∧ EndsWithArguments c.header.name) → KeepsPaths types) ∧
    ∀ c : ClassType, '<' ∉ c.header.space.toList →
      (pathOf (.classType c.toDefinition) = pathOf (.classType c) ↔
        EndsWithArguments c.header.name) := by
  refine ⟨keepsPaths_iff_shown types, keepsPaths_of_endsWithArguments, fun c hspace => ?_⟩
  rw [pathOf_toDefinition]
  exact luaPath_definitionKey_iff hspace

/-- Two instances of one generic class: of the class itself and of a class nested in it. -/
def nestedInstances (inner : String) : List Declaration :=
  ["Outer`1<int>", inner].map fun name =>
    .classType { header := { name }, arguments := ["int"], isConstructed := true }

/-- A nested class spelled without the argument list is kept apart. -/
theorem keepsPaths_nested_without_list :
    (∀ c, .classType c ∈ nestedInstances "Outer`1+Inner" → c.isGeneric = true →
      '<' ∉ c.header.space.toList ∧ EndsWithArguments c.header.name) ∧
    KeepsPaths (nestedInstances "Outer`1+Inner") := by
  have h : ∀ c, .classType c ∈ nestedInstances "Outer`1+Inner" → c.isGeneric = true →
      '<' ∉ c.header.space.toList ∧ EndsWithArguments c.header.name := by
    intro c hc _
    simp only [nestedInstances, List.map_cons, List.map_nil, List.mem_cons,
      Declaration.classType.injEq, List.not_mem_nil, or_false] at hc
    rcases hc with rfl | rfl <;> decide
  exact ⟨h, (keepsPaths_iff (nestedInstances "Outer`1+Inner")).2.1 h⟩

/-- Behind an argument list the name of the nested class is lost, and with it the class: its
key is that of the outer class. -/
theorem not_keepsPaths_nested_behind_list :
    ¬ KeepsPaths (nestedInstances "Outer`1<int>+Inner") := by decide

end LuaTypings.Generics
