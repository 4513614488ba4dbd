/-
LuaTypings/Proofs/Generics/Names.lean

Whether the generic classes that merging leaves have names of their own.  Instances are told
apart by their keys, while the name of a definition is made with the number of its
placeholders.  The two agree where the key tells the number of parameters (`KeyTellsArity`):
then what has the name of a definition has its key (`definitionKey_eq_of_name_eq`), and only
one of those remains.

So two generic classes can share a name only through an instance whose key does not tell the
number (`nodup_names_iff`), and every such instance does share it with some other class
(`exists_rival`).
-/
import LuaTypings.Proofs.Generics.Survivors
import LuaTypings.Proofs.HostName.Bare
import LuaTypings.Proofs.HostName.Commas

namespace LuaTypings

/-! ### Names and keys -/

namespace ClassType

/-- The namespace and the name of a class. -/
def qualifiedName (c : ClassType) : String × String := (c.header.space, c.header.name)

/-- The key of a class tells the number of its parameters: it has an arity mark. -/
def KeyTellsArity (c : ClassType) : Prop :=
  HostName.arityMark ∈ (HostName.definition c.header.name c.arguments.length).toList

instance (c : ClassType) : Decidable c.KeyTellsArity :=
  inferInstanceAs (Decidable (_ ∈ _))

/-- Without an arity mark in the name, that of the key comes from the arguments. -/
theorem keyTellsArity_iff {c : ClassType} (hm : HostName.arityMark ∉ c.header.name.toList) :
    c.KeyTellsArity ↔ c.arguments ≠ [] := by
  rw [KeyTellsArity, HostName.toList_definition_of_no_mark hm, HostName.aritySuffix]
  by_cases hargs : c.arguments = []
  · simp [hargs, HostName.arityMark_not_mem_bareChars]
  · simp [hargs]

/-- The name with which a definition is made, if its key tells the number of parameters. -/
theorem name_toDefinition {c : ClassType} (h : c.KeyTellsArity) :
    c.toDefinition.header.name = HostName.definition c.header.name c.arguments.length := by
  show HostName.definition c.header.name c.placeholders.length = _
  by_cases hm : HostName.arityMark ∈ c.header.name.toList
  · exact HostName.definition_count hm _ _
  · have hargs := (keyTellsArity_iff hm).mp h
    rw [length_placeholders, parameterCount, if_neg (by simpa using hargs)]

/-- What has the name of a definition has the key of its instances. -/
theorem definitionKey_eq_of_name_eq {c e : ClassType} (h : c.KeyTellsArity)
    (he : e.qualifiedName = c.toDefinition.qualifiedName) :
    e.definitionKey = c.definitionKey := by
  obtain ⟨hspace, hname⟩ := Prod.mk.inj he
  have hspace' : e.header.space = c.header.space := hspace
  rw [definitionKey, definitionKey, hspace', hname, name_toDefinition h,
    HostName.definition_definition h]

theorem definitionKey_toDefinition {c : ClassType} (h : c.KeyTellsArity) :
    c.toDefinition.definitionKey = c.definitionKey := definitionKey_eq_of_name_eq h rfl

end ClassType

namespace Generics

open ClassType (qualifiedName)

variable {types : List Declaration}

/-! ### The generic classes that remain -/

/-- The class behind a declaration that is a generic definition. -/
def definition? : Declaration → Option ClassType
  | .classType c => if c.isDefinition then some c else none
  | _ => none

/-- The generic class that merging leaves at a position: a definition as it was, or the one
that an instance became. -/
def definitionAt? (types : List Declaration) (i : Nat) : Option ClassType :=
  match types[i]?, remnant? types i with
  | some (.classType c), some (.classType e) => if c.isGeneric then some e else none
  | _, _ => none

/-- The generic classes that merging leaves, in order. -/
def definitions (types : List Declaration) : List ClassType :=
  (List.range types.length).filterMap (definitionAt? types)

theorem definitionAt?_eq_some {i : Nat} {e : ClassType} (h : definitionAt? types i = some e) :
    remnant? types i = some (.classType e) ∧
      ∃ c, types[i]? = some (.classType c) ∧ c.isGeneric = true := by
  unfold definitionAt? at h
  split at h
  · rename_i c f hc hf
    split_ifs at h with hgen
    rw [hf, Option.some.inj h]
    exact ⟨rfl, c, hc, hgen⟩
  · cases h

theorem definitions_sublist (types : List Declaration) :
    ((definitions types).map Declaration.classType).Sublist (merge types).types := by
  rw [merge_types, definitions, List.map_filterMap]
  induction List.range types.length with
  | nil => exact List.Sublist.slnil
  | cons i is ih =>
    rcases h : definitionAt? types i with - | e
    · rw [List.filterMap_cons_none (by simp [h])]
      rcases hr : remnant? types i with - | d
      · rwa [List.filterMap_cons_none hr]
      · rw [List.filterMap_cons_some hr]
        exact ih.cons d
    · rw [List.filterMap_cons_some (by simp [h]; rfl),
        List.filterMap_cons_some (definitionAt?_eq_some h).1]
      exact ih.cons_cons _

theorem definitionAt?_of_definition {i : Nat} {c : ClassType}
    (h : types[i]? = some (.classType c)) (hc : c.isDefinition = true) :
    definitionAt? types i = some c := by
  have hinst := instance?_eq_none (ClassType.isInstance_eq_false_of_isDefinition hc)
  rw [definitionAt?, h, remnant?_of_not_instance h hinst]
  exact if_pos (ClassType.isDefinition_iff.mp hc).2

theorem definitionAt?_of_instance {i : Nat} {c : ClassType}
    (h : types[i]? = some (.classType c)) (hc : c.isInstance = true) :
    definitionAt? types i =
      if Claimed types i c.definitionKey then none else some c.toDefinition := by
  rw [definitionAt?, h, remnant?_of_instance h hc]
  split_ifs with hclaim
  · rfl
  · exact if_pos (ClassType.isInstance_iff.mp hc).2

/-- What stands behind a generic class that remains: a definition, or an instance whose key
nothing claims. -/
theorem definitionAt?_cases {i : Nat} {e : ClassType} (h : definitionAt? types i = some e) :
    (types[i]? = some (.classType e) ∧ e.isDefinition = true) ∨
      ∃ c, types[i]? = some (.classType c) ∧ c.isInstance = true ∧
        ¬ Claimed types i c.definitionKey ∧ e = c.toDefinition := by
  obtain ⟨hrem, c, hget, hgen⟩ := definitionAt?_eq_some h
  rcases remnant?_cases hrem with ⟨hself, hnone⟩ | ⟨c', hget', hc', hclaim, he⟩
  · obtain rfl := Declaration.classType.inj (Option.some.inj (hget.symm.trans hself))
    -- what is generic and no instance is a definition
    have hopen : c.isConstructed = false := by
      by_contra hcon
      have hinst := ClassType.isInstance_iff.mpr ⟨by simpa using hcon, hgen⟩
      rw [instance?_classType hinst] at hnone
      cases hnone
    exact Or.inl ⟨hself, ClassType.isDefinition_iff.mpr ⟨hopen, hgen⟩⟩
  · exact Or.inr ⟨c', hget', hc', hclaim, Declaration.classType.inj he⟩

/-! ### Names that are shared -/

/-- Positions at which different names stand make a list of names without repetition. -/
theorem nodup_filterMap_range_iff {α β : Type} (f : Nat → Option α) (g : α → β) {n : Nat}
    (hn : ∀ i, n ≤ i → f i = none) :
    (((List.range n).filterMap f).map g).Nodup ↔
      ∀ i j a b, i ≠ j → f i = some a → f j = some b → g a ≠ g b := by
  rw [List.Nodup, List.pairwise_map, List.pairwise_filterMap, List.pairwise_iff_getElem]
  simp only [List.length_range, List.getElem_range]
  have hlt : ∀ i a, f i = some a → i < n := by
    intro i a h
    by_contra hi
    rw [hn i (Nat.le_of_not_lt hi)] at h
    cases h
  constructor
  · intro h i j a b hij hi hj
    rcases Nat.lt_or_gt_of_ne hij with hlt' | hlt'
    · exact h i j (hlt i a hi) (hlt j b hj) hlt' a hi b hj
    · exact (h j i (hlt j b hj) (hlt i a hi) hlt' b hj a hi).symm
  · intro h i j _ _ hij a hi b hj
    exact h i j a b (Nat.ne_of_lt hij) hi hj

theorem nodup_definitions_iff (types : List Declaration) :
    ((definitions types).map qualifiedName).Nodup ↔
      ∀ i j e f, i ≠ j → definitionAt? types i = some e → definitionAt? types j = some f →
        e.qualifiedName ≠ f.qualifiedName := by
  refine nodup_filterMap_range_iff _ _ fun i hi => ?_
  rw [definitionAt?, List.getElem?_eq_none hi]

/-- Definitions at different positions keep their different names. -/
theorem qualifiedName_ne_of_definitions {i j : Nat} {e f : ClassType}
    (h : ((types.filterMap definition?).map qualifiedName).Nodup) (hij : i ≠ j)
    (hi : types[i]? = some (.classType e)) (he : e.isDefinition = true)
    (hj : types[j]? = some (.classType f)) (hf : f.isDefinition = true) :
    e.qualifiedName ≠ f.qualifiedName := by
  rw [List.Nodup, List.pairwise_map, List.pairwise_filterMap, List.pairwise_iff_getElem] at h
  obtain ⟨hil, hie⟩ := List.getElem?_eq_some_iff.mp hi
  obtain ⟨hjl, hjf⟩ := List.getElem?_eq_some_iff.mp hj
  have hde : definition? types[i] = some e := by rw [hie]; exact if_pos he
  have hdf : definition? types[j] = some f := by rw [hjf]; exact if_pos hf
  rcases Nat.lt_or_gt_of_ne hij with hlt | hlt
  · exact h i j hil hjl hlt e hde f hdf
  · exact (h j i hjl hil hlt f hdf e hde).symm

/-- An instance claims its key for all positions behind it. -/
theorem claimed_of_instance {i j : Nat} {c : ClassType} (hij : i < j)
    (hi : types[i]? = some (.classType c)) (hc : c.isInstance = true) :
    Claimed types j c.definitionKey := by
  refine Or.inr ⟨_, ?_, instanceKey?_eq_some_iff.mpr ⟨c, rfl, hc, rfl⟩⟩
  obtain ⟨hil, hic⟩ := List.getElem?_eq_some_iff.mp hi
  exact List.mem_take_iff_getElem.mpr ⟨i, by omega, hic⟩

/-- The definition that an instance became shares its name with no other class that remains,
if both keys tell the number of parameters. -/
theorem qualifiedName_ne_of_instance {i j : Nat} {c f : ClassType} (hij : i ≠ j)
    (hi : types[i]? = some (.classType c)) (hc : c.isInstance = true)
    (hclaim : ¬ Claimed types i c.definitionKey) (htell : c.KeyTellsArity)
    (hj : definitionAt? types j = some f)
    (htellj : ∀ d, types[j]? = some (.classType d) → d.isInstance = true → d.KeyTellsArity) :
    f.qualifiedName ≠ c.toDefinition.qualifiedName := by
  intro hname
  have hkey := ClassType.definitionKey_eq_of_name_eq htell hname
  rcases definitionAt?_cases hj with ⟨hget, hdef⟩ | ⟨d, hget, hd, hclaimd, rfl⟩
  · refine hclaim (Or.inl ⟨_, List.mem_of_getElem? hget, ?_⟩)
    exact definitionKey?_eq_some_iff.mpr ⟨f, rfl, hdef, hkey⟩
  · -- both are instances with one key, and the one in front claims it for the other
    rw [ClassType.definitionKey_toDefinition (htellj d hget hd)] at hkey
    rcases Nat.lt_or_gt_of_ne hij with hlt | hlt
    · exact hclaimd (hkey ▸ claimed_of_instance hlt hi hc)
    · exact hclaim (hkey ▸ claimed_of_instance hlt hget hd)

/-- Where the keys of all instances tell the number of parameters, definitions with names of
their own keep having such, and so do the ones that instances became. -/
theorem qualifiedName_ne {i j : Nat} {e f : ClassType}
    (h : ((types.filterMap definition?).map qualifiedName).Nodup) (hij : i ≠ j)
    (hi : definitionAt? types i = some e) (hj : definitionAt? types j = some f)
    (htelli : ∀ c, types[i]? = some (.classType c) → c.isInstance = true → c.KeyTellsArity)
    (htellj : ∀ c, types[j]? = some (.classType c) → c.isInstance = true → c.KeyTellsArity) :
    e.qualifiedName ≠ f.qualifiedName := by
  rcases definitionAt?_cases hi with ⟨hgeti, hdefi⟩ | ⟨c, hgeti, hc, hclaim, rfl⟩
  · rcases definitionAt?_cases hj with ⟨hgetj, hdefj⟩ | ⟨d, hgetj, hd, hclaim, rfl⟩
    · exact qualifiedName_ne_of_definitions h hij hgeti hdefi hgetj hdefj
    · exact qualifiedName_ne_of_instance hij.symm hgetj hd hclaim (htellj d hgetj hd) hi htelli
  · exact (qualifiedName_ne_of_instance hij hgeti hc hclaim (htelli c hgeti hc) hj htellj).symm

/-! ### Instances whose key does not tell the number -/

/-- A class that takes the name of what an instance becomes without having its key: with an
arity mark behind a bracket only, a definition of the short name, and else the same class with
its arguments written out. -/
def rival (c : ClassType) : ClassType :=
  if HostName.arityMark ∈ c.header.name.toList then
    { header := { name := c.toDefinition.header.name, space := c.header.space }
      arguments := ["T"] }
  else { c with arguments := List.replicate c.parameterCount "T" }

/-- An instance without an arity mark and without arguments is told by a bracket, so its name
tells at least one parameter. -/
theorem parameterCount_pos {c : ClassType} (hc : c.isInstance = true)
    (hm : HostName.arityMark ∉ c.header.name.toList) (hargs : c.arguments = []) :
    0 < c.parameterCount := by
  simp only [ClassType.isInstance, ClassType.isGeneric, hargs, List.isEmpty_nil, Bool.not_true,
    Bool.or_false, Bool.and_eq_true, HostName.isMarked, List.any_eq_true, Bool.or_eq_true,
    beq_iff_eq] at hc
  obtain ⟨-, x, hx, rfl | rfl⟩ := hc
  · exact absurd hx hm
  · rw [ClassType.parameterCount, if_pos (by simp [hargs]), HostName.arity?_of_no_mark hm,
      if_pos (List.mem_filter.mpr ⟨hx, by decide⟩)]
    exact HostName.le_countCommas 0 1 _

theorem keyTellsArity_rival {c : ClassType} (hc : c.isInstance = true)
    (h : ¬ c.KeyTellsArity) : (rival c).KeyTellsArity := by
  by_cases hm : HostName.arityMark ∈ c.header.name.toList
  · have hshort : HostName.arityMark ∉ c.toDefinition.header.name.toList := by
      rw [ClassType.KeyTellsArity, HostName.toList_definition_of_mark hm] at h
      show HostName.arityMark ∉ (HostName.definition c.header.name _).toList
      rwa [HostName.toList_definition_of_mark hm]
    rw [rival, if_pos hm]
    refine (ClassType.keyTellsArity_iff ?_).mpr (List.cons_ne_nil _ _)
    exact hshort
  · have hargs : c.arguments = [] := by simpa using (ClassType.keyTellsArity_iff hm).not.mp h
    have hpos := parameterCount_pos hc hm hargs
    rw [rival, if_neg hm]
    refine (ClassType.keyTellsArity_iff ?_).mpr ?_
    · exact hm
    · simp [Nat.ne_of_gt hpos]

theorem space_rival (c : ClassType) : (rival c).header.space = c.header.space := by
  unfold rival
  split_ifs <;> rfl

theorem definitionKey_rival_ne {c : ClassType} (hc : c.isInstance = true)
    (h : ¬ c.KeyTellsArity) : (rival c).definitionKey ≠ c.definitionKey := by
  intro hkey
  rw [ClassType.definitionKey, ClassType.definitionKey, space_rival] at hkey
  have htell := keyTellsArity_rival hc h
  rw [ClassType.KeyTellsArity, HostName.inNamespace_right_injective hkey] at htell
  exact h htell

/-- The rival remains, under the name that the instance gets. -/
theorem definitionAt?_rival {c : ClassType} (hc : c.isInstance = true)
    (h : ¬ c.KeyTellsArity) :
    ∃ e, definitionAt? [.classType (rival c), .classType c] 0 = some e ∧
      e.qualifiedName = c.toDefinition.qualifiedName := by
  by_cases hm : HostName.arityMark ∈ c.header.name.toList
  · have hdef : (rival c).isDefinition = true := by
      simp [rival, hm, ClassType.isDefinition, ClassType.isGeneric]
    refine ⟨rival c, definitionAt?_of_definition rfl hdef, ?_⟩
    rw [rival, if_pos hm]
    rfl
  · have hargs : c.arguments = [] := by simpa using (ClassType.keyTellsArity_iff hm).not.mp h
    have hpos := parameterCount_pos hc hm hargs
    have hinst : (rival c).isInstance = true := by
      simp [rival, hm, ClassType.isInstance, ClassType.isGeneric, (ClassType.isInstance_iff.mp hc).1,
        Nat.ne_of_gt hpos]
    have hclaim : ¬ Claimed [.classType (rival c), .classType c] 0 (rival c).definitionKey := by
      simp [Claimed, definitionKey?, ClassType.isDefinition_eq_false_of_isInstance hinst,
        ClassType.isDefinition_eq_false_of_isInstance hc]
    refine ⟨(rival c).toDefinition, ?_, ?_⟩
    · rw [definitionAt?_of_instance rfl hinst, if_neg hclaim]
    · have hcount : (rival c).placeholders.length = c.placeholders.length := by
        rw [ClassType.length_placeholders, ClassType.length_placeholders,
          ClassType.parameterCount, if_neg (by simp [rival, hm, Nat.ne_of_gt hpos])]
        simp [rival, hm]
      show (_, HostName.definition (rival c).header.name (rival c).placeholders.length) =
        (_, HostName.definition c.header.name c.placeholders.length)
      rw [hcount]
      simp only [rival, if_neg hm]
      rfl

/-- An instance whose key does not tell the number of parameters shares its name with its
rival. -/
theorem exists_rival {c : ClassType} (hc : c.isInstance = true) (h : ¬ c.KeyTellsArity) :
    (([.classType (rival c), .classType c].filterMap definition?).map qualifiedName).Nodup ∧
      ¬ ((definitions [.classType (rival c), .classType c]).map qualifiedName).Nodup := by
  have hnone : definition? (.classType c) = none := by
    simp [definition?, ClassType.isDefinition_eq_false_of_isInstance hc]
  constructor
  · rcases hd : definition? (.classType (rival c)) with - | e <;> simp [hd, hnone]
  · intro hnodup
    obtain ⟨e, he, hname⟩ := definitionAt?_rival hc h
    have hclaim : ¬ Claimed [.classType (rival c), .classType c] 1 c.definitionKey := by
      rintro (⟨o, ho, hkey⟩ | ⟨o, ho, hkey⟩)
      · obtain ⟨d, rfl, hdef, hsame⟩ := definitionKey?_eq_some_iff.mp hkey
        simp only [List.mem_cons, Declaration.classType.injEq, List.not_mem_nil, or_false] at ho
        rcases ho with rfl | rfl
        · exact definitionKey_rival_ne hc h hsame
        · rw [ClassType.isDefinition_eq_false_of_isInstance hc] at hdef
          cases hdef
      · obtain ⟨d, rfl, -, hsame⟩ := instanceKey?_eq_some_iff.mp hkey
        simp only [List.take_succ_cons, List.take_zero, List.mem_cons,
          Declaration.classType.injEq, List.not_mem_nil, or_false] at ho
        exact definitionKey_rival_ne hc h (ho ▸ hsame)
    have hself : definitionAt? [.classType (rival c), .classType c] 1 = some c.toDefinition := by
      rw [definitionAt?_of_instance rfl hc, if_neg hclaim]
    exact (nodup_definitions_iff _).mp hnodup 0 1 e _ (by decide) he hself hname

/-! ### When names are unique -/

/-- **When generic classes keep names of their own.**  The input's definitions having different
names, two generic classes that merging leaves share one exactly if one of them is made of an
instance whose key does not tell the number of its parameters.  If all keys tell it, no name is
shared, and an instance whose key does not tell it shares its name with its rival. -/
theorem nodup_names_iff (types : List Declaration)
    (h : ((types.filterMap definition?).map qualifiedName).Nodup) :
    ((definitions types).map Declaration.classType).Sublist (merge types).types ∧
    (((definitions types).map qualifiedName).Nodup ↔
      ∀ i j c e f, i ≠ j → types[i]? = some (.classType c) → c.isInstance = true →
        ¬ c.KeyTellsArity → definitionAt? types i = some e → definitionAt? types j = some f →
        e.qualifiedName ≠ f.qualifiedName) ∧
    ((∀ c, .classType c ∈ types → c.isInstance = true → c.KeyTellsArity) →
      ((definitions types).map qualifiedName).Nodup) ∧
    ∀ c : ClassType, c.isInstance = true → ¬ c.KeyTellsArity →
      (([.classType (rival c), .classType c].filterMap definition?).map qualifiedName).Nodup ∧
        ¬ ((definitions [.classType (rival c), .classType c]).map qualifiedName).Nodup := by
  have hiff : ((definitions types).map qualifiedName).Nodup ↔
      ∀ i j c e f, i ≠ j → types[i]? = some (.classType c) → c.isInstance = true →
        ¬ c.KeyTellsArity → definitionAt? types i = some e → definitionAt? types j = some f →
        e.qualifiedName ≠ f.qualifiedName := by
    rw [nodup_definitions_iff]
    constructor
    · intro hall i j _ e f hij _ _ _ hi hj
      exact hall i j e f hij hi hj
    · -- only an instance whose key does not tell the number is left to the hypothesis
      intro hall i j e f hij hi hj
      by_cases hti : ∀ c, types[i]? = some (.classType c) → c.isInstance = true → c.KeyTellsArity
      · by_cases htj : ∀ c, types[j]? = some (.classType c) → c.isInstance = true →
            c.KeyTellsArity
        · exact qualifiedName_ne h hij hi hj hti htj
        · simp only [not_forall] at htj
          obtain ⟨c, hget, hc, hno⟩ := htj
          exact (hall j i c f e hij.symm hget hc hno hj hi).symm
      · simp only [not_forall] at hti
        obtain ⟨c, hget, hc, hno⟩ := hti
        exact hall i j c e f hij hget hc hno hi hj
  refine ⟨definitions_sublist types, hiff, fun htell => hiff.mpr ?_, fun c => exists_rival⟩
  intro i _ c _ _ _ hget hc hno
  exact absurd (htell c (List.mem_of_getElem? hget) hc) hno

/-- Two instances of a class of lists, one told by a bracket and one by an arity mark. -/
def listInstances (arguments : List String) : List Declaration :=
  [.classType { header := { name := "List<int>" }, arguments, isConstructed := true },
    .classType { header := { name := "List`1" }, arguments := ["int"], isConstructed := true }]

/-- With the argument written out both have one key. -/
theorem nodup_names_listInstances :
    (((listInstances ["int"]).filterMap definition?).map qualifiedName).Nodup ∧
      ((definitions (listInstances ["int"])).map qualifiedName).Nodup := by
  have h : (((listInstances ["int"]).filterMap definition?).map qualifiedName).Nodup := by decide
  refine ⟨h, (nodup_names_iff (listInstances ["int"]) h).2.2.1 fun c hc _ => ?_⟩
  simp only [listInstances, List.mem_cons, Declaration.classType.injEq, List.not_mem_nil,
    or_false] at hc
  rcases hc with rfl | rfl <;> decide

/-- Without it the two have different keys, and both become the class of one name. -/
theorem not_nodup_names_listInstances :
    (((listInstances []).filterMap definition?).map qualifiedName).Nodup ∧
      ¬ ((definitions (listInstances [])).map qualifiedName).Nodup := by decide

end Generics

end LuaTypings
