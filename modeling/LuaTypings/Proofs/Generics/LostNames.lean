/-
LuaTypings/Proofs/Generics/LostNames.lean

Which definitions have no name.  A definition is called like its instance, without marks and with
an arity mark of its own, which is not blank.  Only a name that has an arity mark already is cut at
its first bracket, and if nothing but blanks stands in front of this, no name is left
(`isBlankText_toDefinition_iff`).  So merging keeps all names from being blank exactly if no
instance that becomes a definition loses its name (`named_merge_iff`).
-/
import LuaTypings.Proofs.Generics.Names

namespace LuaTypings

namespace HostName

/-- A name has an arity mark, and nothing but blanks in front of its first bracket. -/
def LosesName (name : String) : Prop :=
  arityMark ∈ name.toList ∧ ∀ c ∈ name.toList.takeWhile (· != '<'), Text.isBlank c = true

instance (name : String) : Decidable (LosesName name) :=
  @instDecidableAnd _ _ _ (List.decidableBAll _ _)

theorem isBlankText_eq_true_iff {name : String} :
    Text.isBlankText name = true ↔ ∀ c ∈ name.toList, Text.isBlank c = true := List.all_eq_true

/-- The name of a definition is blank exactly if it is lost, where the name that it is made from
has an arity mark or there are arguments. -/
theorem isBlankText_definition_iff {name : String} {count : Nat}
    (h : arityMark ∉ name.toList → 0 < count) :
    Text.isBlankText (definition name count) = true ↔ LosesName name := by
  rw [isBlankText_eq_true_iff, LosesName]
  by_cases hm : arityMark ∈ name.toList
  · rw [toList_definition_of_mark hm]
    exact (and_iff_right hm).symm
  · -- the new arity mark is not blank
    have hnew : arityMark ∈ (definition name count).toList := by
      rw [toList_definition_of_no_mark hm, aritySuffix, if_neg (Nat.ne_of_gt (h hm))]
      exact List.mem_append_right _ List.mem_cons_self
    refine iff_of_false (fun hall => ?_) fun hboth => hm hboth.1
    exact absurd (hall _ hnew) (by decide)

end HostName

theorem Declaration.name_classType (c : ClassType) : (classType c).name = c.header.name := rfl

namespace Generics

variable {types : List Declaration}

theorem isBlankText_toDefinition_iff {c : ClassType} (hc : c.isInstance = true) :
    Text.isBlankText c.toDefinition.header.name = true ↔ HostName.LosesName c.header.name := by
  refine HostName.isBlankText_definition_iff fun hm => ?_
  rw [ClassType.length_placeholders]
  by_cases hargs : c.arguments = []
  · exact parameterCount_pos hc hm hargs
  · rw [ClassType.parameterCount, if_neg (by simpa using hargs)]
    exact List.length_pos_iff.mpr hargs

/-- The class at a position that is an instance. -/
def instanceAt? (types : List Declaration) (i : Nat) : Option ClassType := types[i]?.bind instance?

theorem instanceAt?_eq_some_iff {i : Nat} {c : ClassType} :
    instanceAt? types i = some c ↔ types[i]? = some (.classType c) ∧ c.isInstance = true := by
  simp only [instanceAt?, Option.bind_eq_some_iff, instance?_eq_some_iff]
  constructor
  · rintro ⟨_, hi, rfl, hc⟩
    exact ⟨hi, hc⟩
  · rintro ⟨hi, hc⟩
    exact ⟨_, hi, rfl, hc⟩

/-- No instance that becomes a definition loses its name. -/
def KeepsNames (types : List Declaration) : Prop :=
  ∀ i < types.length, ∀ c ∈ instanceAt? types i,
    ¬ Claimed types i c.definitionKey → ¬ HostName.LosesName c.header.name

instance (types : List Declaration) : Decidable (KeepsNames types) :=
  inferInstanceAs (Decidable (∀ i < types.length, _))

/-- What merging leaves has names exactly if no instance loses its own. -/
theorem named_merge_iff (hnamed : ∀ d ∈ types, Text.isBlankText d.name = false) :
    (∀ d ∈ (merge types).types, Text.isBlankText d.name = false) ↔ KeepsNames types := by
  constructor
  · -- an instance that becomes a definition is there under the name of this definition
    intro hall i _ c hat hclaim hlost
    obtain ⟨hi, hc⟩ := instanceAt?_eq_some_iff.mp hat
    have hremnant : remnant? types i = some (.classType c.toDefinition) := by
      rw [remnant?_of_instance hi hc, if_neg hclaim]
    have hmem : Declaration.classType c.toDefinition ∈ (merge types).types :=
      mem_merge_types.mpr ⟨i, hremnant⟩
    have hnamed := hall _ hmem
    rw [Declaration.name_classType, (isBlankText_toDefinition_iff hc).mpr hlost] at hnamed
    cases hnamed
  · intro hkeeps d hd
    obtain ⟨i, hi⟩ := mem_merge_types.mp hd
    rcases remnant?_cases hi with ⟨hget, -⟩ | ⟨c, hget, hc, hclaim, rfl⟩
    · exact hnamed d (List.mem_of_getElem? hget)
    · have hlt : i < types.length := (List.getElem?_eq_some_iff.mp hget).1
      rw [Declaration.name_classType, Bool.eq_false_iff]
      have hat := instanceAt?_eq_some_iff.mpr ⟨hget, hc⟩
      exact mt (isBlankText_toDefinition_iff hc).mp (hkeeps i hlt c hat hclaim)

end Generics

end LuaTypings
