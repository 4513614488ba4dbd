/-
LuaTypings/Proofs/Generics/Append.lean

Merging in instalments.  The walk over a list goes over its front and then, with the keys of the
instances there, over the rest (`mergeFrom_append`), and of the keys it only asks which there are
(`mergeFrom_congr`).  A definition that an instance became owns the key of this instance, if the key
tells the number of parameters; so what merging has left claims the keys that its input claims
(`mem_keys_merge`).

Main result: `merge_instalments`.
-/
import LuaTypings.Proofs.Generics.Names

namespace LuaTypings

namespace Generics

variable {seen seen' : List String} {types front back : List Declaration}

/-! ### The walk in two parts -/

/-- What two walks give together. -/
def Merged.append (m m' : Merged) : Merged :=
  ⟨m.types ++ m'.types, m.dropped + m'.dropped, m.created + m'.created⟩

/-- The walk only asks which keys were seen. -/
theorem mergeFrom_congr (h : ∀ key, key ∈ seen ↔ key ∈ seen') (ds : List Declaration) :
    mergeFrom seen ds = mergeFrom seen' ds := by
  induction ds generalizing seen seen' with
  | nil => rfl
  | cons d ds ih =>
    rcases hc : instance? d with - | c
    · rw [mergeFrom_cons_of_not_instance hc, mergeFrom_cons_of_not_instance hc, ih h]
    · by_cases hk : c.definitionKey ∈ seen
      · rw [mergeFrom_cons_of_mem hc hk, mergeFrom_cons_of_mem hc ((h _).mp hk), ih h]
      · have hmore : ∀ key, key ∈ c.definitionKey :: seen ↔ key ∈ c.definitionKey :: seen' := by
          intro key
          rw [List.mem_cons, List.mem_cons, h]
        rw [mergeFrom_cons_of_not_mem hc hk, mergeFrom_cons_of_not_mem hc (mt (h _).mpr hk),
          ih hmore]

/-- Behind the front of a list the walk goes on with the keys of its instances. -/
theorem mergeFrom_append (seen : List String) (front back : List Declaration) :
    mergeFrom seen (front ++ back) = (mergeFrom seen front).append
      (mergeFrom (front.filterMap instanceKey? ++ seen) back) := by
  induction front generalizing seen with
  | nil => simp [mergeFrom, Merged.append]
  | cons d front ih =>
    rw [List.cons_append]
    rcases hc : instance? d with - | c
    · have hkey : instanceKey? d = none := by simp [instanceKey?, hc]
      rw [mergeFrom_cons_of_not_instance hc, mergeFrom_cons_of_not_instance hc, ih,
        List.filterMap_cons_none hkey]
      rfl
    · have hkey : instanceKey? d = some c.definitionKey := by simp [instanceKey?, hc]
      rw [List.filterMap_cons_some hkey]
      by_cases hk : c.definitionKey ∈ seen
      · have hsame : ∀ key, key ∈ front.filterMap instanceKey? ++ seen ↔
            key ∈ c.definitionKey :: front.filterMap instanceKey? ++ seen := by
          intro key
          simp only [List.cons_append, List.mem_cons, List.mem_append]
          refine ⟨Or.inr, ?_⟩
          rintro (rfl | h)
          · exact Or.inr hk
          · exact h
        rw [mergeFrom_cons_of_mem hc hk, mergeFrom_cons_of_mem hc hk, ih, mergeFrom_congr hsame]
        simp only [Merged.append, Merged.mk.injEq, true_and, and_true]
        exact Nat.add_right_comm ..
      · have hsame : ∀ key, key ∈ front.filterMap instanceKey? ++ c.definitionKey :: seen ↔
            key ∈ c.definitionKey :: front.filterMap instanceKey? ++ seen := by
          intro key
          simp only [List.cons_append, List.mem_cons, List.mem_append]
          exact or_left_comm
        rw [mergeFrom_cons_of_not_mem hc hk, mergeFrom_cons_of_not_mem hc hk, ih,
          mergeFrom_congr hsame]
        simp only [Merged.append, Merged.mk.injEq, List.cons_append, true_and]
        exact Nat.add_right_comm ..

/-! ### Keys of what was merged -/

/-- A definition that an instance became owns the key of this instance. -/
theorem definitionKey?_toDefinition {c : ClassType} (h : c.KeyTellsArity) :
    definitionKey? (.classType c.toDefinition) = some c.definitionKey := by
  have hmark : HostName.arityMark ∈ c.toDefinition.header.name.toList := by
    rwa [ClassType.name_toDefinition h]
  have hmarked : HostName.isMarked c.toDefinition.header.name = true :=
    List.any_eq_true.mpr ⟨_, hmark, by decide⟩
  have hdef : c.toDefinition.isDefinition = true := by
    refine ClassType.isDefinition_iff.mpr ⟨rfl, ?_⟩
    rw [ClassType.isGeneric, hmarked, Bool.true_or]
  exact definitionKey?_eq_some_iff.mpr ⟨_, rfl, hdef, ClassType.definitionKey_toDefinition h⟩

/-- Merging leaves the keys of the definitions and those of the instances. -/
theorem mem_keys_merge (h : ∀ d ∈ types, ∀ c ∈ instance? d, c.KeyTellsArity) (key : String) :
    key ∈ (merge types).types.filterMap definitionKey? ↔
      key ∈ types.filterMap definitionKey? ∨ key ∈ types.filterMap instanceKey? := by
  simp only [List.mem_filterMap]
  constructor
  · rintro ⟨e, he, hkey⟩
    obtain ⟨i, hi⟩ := mem_merge_types.mp he
    rcases remnant?_cases hi with ⟨hget, -⟩ | ⟨c, hget, hc, -, rfl⟩
    · exact Or.inl ⟨e, List.mem_of_getElem? hget, hkey⟩
    · have hmem := List.mem_of_getElem? hget
      have hinst := instance?_classType hc
      rw [definitionKey?_toDefinition (h _ hmem c hinst)] at hkey
      exact Or.inr ⟨_, hmem, by rw [instanceKey?, hinst, Option.map_some, hkey]⟩
  · have hstays : ∀ o ∈ types, definitionKey? o = some key →
        ∃ e ∈ (merge types).types, definitionKey? e = some key := by
      intro o ho hkey
      obtain ⟨c, rfl, hdef, -⟩ := definitionKey?_eq_some_iff.mp hkey
      have hnone := instance?_eq_none (ClassType.isInstance_eq_false_of_isDefinition hdef)
      exact ⟨_, mem_merge_of_not_instance ho hnone, hkey⟩
    rintro (⟨o, ho, hkey⟩ | ⟨d, hd, hkey⟩)
    · exact hstays o ho hkey
    · obtain ⟨c, rfl, hc, rfl⟩ := instanceKey?_eq_some_iff.mp hkey
      by_cases hown : ∃ o ∈ types, definitionKey? o = some c.definitionKey
      · obtain ⟨o, ho, hkey⟩ := hown
        exact hstays o ho hkey
      · -- the first instance with the key became the definition that owns it
        obtain ⟨i, hi⟩ := List.mem_iff_getElem?.mp hd
        obtain ⟨j, e, hj, he, hsame, hrem⟩ :=
          exists_representative hi hc (by simpa using hown)
        have htells := h _ (List.mem_of_getElem? hj) e (instance?_classType he)
        refine ⟨_, mem_merge_types.mpr ⟨j, hrem⟩, ?_⟩
        rw [definitionKey?_toDefinition htells, hsame]

/-! ### Instalments -/

/-- What is merged and then merged with more is the same as if all of it is merged at once, where
the keys of the instances tell the number of parameters and no definition comes later. -/
theorem merge_append (hfront : ∀ d ∈ front, ∀ c ∈ instance? d, c.KeyTellsArity)
    (hback : ∀ d ∈ back, definitionKey? d = none) :
    merge (front ++ back) = ⟨(merge ((merge front).types ++ back)).types,
      (merge front).dropped + (merge ((merge front).types ++ back)).dropped,
      (merge front).created + (merge ((merge front).types ++ back)).created⟩ := by
  have hnone : back.filterMap definitionKey? = [] := List.filterMap_eq_nil_iff.mpr hback
  have hkeep : (merge front).types.filterMap instanceKey? = [] := by
    refine List.filterMap_eq_nil_iff.mpr fun d hd => ?_
    rw [instanceKey?, instance?_of_mem_merge hd, Option.map_none]
  have hseen : ∀ key, key ∈ (merge front).types.filterMap definitionKey? ↔
      key ∈ front.filterMap instanceKey? ++ front.filterMap definitionKey? := by
    intro key
    rw [mem_keys_merge hfront, List.mem_append, or_comm]
  have hwhole : merge (front ++ back) = (merge front).append
      (mergeFrom (front.filterMap instanceKey? ++ front.filterMap definitionKey?) back) := by
    rw [merge, List.filterMap_append, hnone, List.append_nil, mergeFrom_append, ← merge]
  have hlater : merge ((merge front).types ++ back) = Merged.append ⟨(merge front).types, 0, 0⟩
      (mergeFrom (front.filterMap instanceKey? ++ front.filterMap definitionKey?) back) := by
    rw [merge, List.filterMap_append, hnone, List.append_nil, mergeFrom_append, hkeep,
      List.nil_append, mergeFrom_of_no_instance fun _ => instance?_of_mem_merge,
      mergeFrom_congr hseen]
  rw [hwhole, hlater]
  simp only [Merged.append, Nat.zero_add]

end Generics

namespace ClassType

/-- A generic class has arguments, and its name is not marked twice, by an arity mark and by an
argument list. -/
def IsMarkedOnce (c : ClassType) : Prop :=
  c.arguments ≠ [] ∧ ('<' ∉ c.header.name.toList ∨ HostName.arityMark ∉ c.header.name.toList)

instance (c : ClassType) : Decidable c.IsMarkedOnce := inferInstanceAs (Decidable (_ ∧ _))

theorem IsMarkedOnce.keyTellsArity {c : ClassType} (h : c.IsMarkedOnce) : c.KeyTellsArity := by
  obtain ⟨hargs, hname⟩ := h
  by_cases hm : HostName.arityMark ∈ c.header.name.toList
  · -- then the name has no bracket, and is the key
    have hopen : '<' ∉ c.header.name.toList := hname.resolve_right (not_not_intro hm)
    rwa [KeyTellsArity, HostName.definition_eq_self hm hopen]
  · exact (keyTellsArity_iff hm).mpr hargs

end ClassType

namespace Generics

/-- **Merging in instalments.**  Let every instance among the first declarations have arguments and
a name that is not marked twice, and let no definition be among the later ones.  Merging the first
declarations, and then what they left together with the later ones, leaves what merging all of them
leaves.  Both counts add up. -/
theorem merge_instalments (first later : List Declaration)
    (hfirst : ∀ d ∈ first, ∀ c ∈ instance? d, c.IsMarkedOnce)
    (hlater : ∀ d ∈ later, definitionKey? d = none) :
    (merge ((merge first).types ++ later)).types = (merge (first ++ later)).types ∧
    (merge (first ++ later)).dropped =
      (merge first).dropped + (merge ((merge first).types ++ later)).dropped ∧
    (merge (first ++ later)).created =
      (merge first).created + (merge ((merge first).types ++ later)).created := by
  have htells : ∀ d ∈ first, ∀ c ∈ instance? d, c.KeyTellsArity :=
    fun d hd c hc => (hfirst d hd c hc).keyTellsArity
  rw [merge_append htells hlater]
  exact ⟨rfl, rfl, rfl⟩

/-- Another box, another crate and the first bag. -/
def moreBoxes : List Declaration :=
  [.classType { header := { name := "Box<Fig>" }, arguments := ["Fig"], isConstructed := true },
    .classType { header := { name := "Crate" }, arguments := ["Fig"], isConstructed := true },
    .classType { header := { name := "Bag`1" }, arguments := ["Fig"], isConstructed := true }]

/-- The later box is dropped for the definition and the crate for an earlier one, and the bag becomes
a definition. -/
theorem merge_instalments_boxes :
    (∀ d ∈ boxes, ∀ c ∈ instance? d, c.IsMarkedOnce) ∧
      (∀ d ∈ moreBoxes, definitionKey? d = none) ∧
      (merge ((merge boxes).types ++ moreBoxes)).types = (merge (boxes ++ moreBoxes)).types ∧
      (merge (boxes ++ moreBoxes)).dropped = 2 + 2 ∧
      (merge (boxes ++ moreBoxes)).created = 1 + 1 := by
  have hboxes : ∀ d ∈ boxes, ∀ c ∈ instance? d, c.IsMarkedOnce := by decide
  have hmore : ∀ d ∈ moreBoxes, definitionKey? d = none := by decide
  obtain ⟨htypes, hdropped, hcreated⟩ := merge_instalments boxes moreBoxes hboxes hmore
  refine ⟨hboxes, hmore, htypes, hdropped.trans ?_, hcreated.trans ?_⟩
  · decide
  · decide

end Generics

end LuaTypings
