/-
LuaTypings/Proofs/Generics/Survivors.lean

What merging keeps, position by position.  Merging walks over the declarations with a list of
the keys it has seen, which holds the keys of all definitions from the start.  So what becomes
of an instance depends on both sides of it: on the definitions anywhere and on the instances in
front of it.  `Claimed` says this without the walk, and `remnant?` says what is left of the
declaration at one position.

Main results: the walk gives the remnants of all positions in order (`mergeFrom_types`), and it
counts the keys that instances bring in anew (`mergeFrom_created`).  Both counts therefore
depend on the declarations only, not on their order.  `merge_keeps_exactly` puts this together
and adds that a definition keeps the outline of its instance.  No instance is left, so merging
again does nothing (`merge_idempotent`).
-/
import LuaTypings.Generics
import Mathlib.Data.Finset.Card
import Mathlib.Data.Finset.Dedup

namespace LuaTypings

/-! ### What a definition keeps of its instance -/

/-- A class without its own name, the marks of genericity and the types that it mentions. -/
def ClassType.outline (c : ClassType) : ClassType where
  header :=
    { name := "", space := c.header.space, doc := c.header.doc, location := c.header.location }
  isStruct := c.isStruct
  base := c.base.map fun _ => ""
  interfaces := c.interfaces.map fun _ => ""
  arguments := []
  parameters := []
  isStatic := c.isStatic
  isConstructed := false
  fields := c.fields.map fun f => ⟨f.name, "", f.doc, f.isEvent, f.isStatic, f.constant⟩
  methods := c.methods.map fun m =>
    ⟨m.name, "", m.isStatic, m.parameters.map fun p => ⟨p.name, "", p.isOptional, p.passing, p.doc⟩,
      m.doc⟩

theorem ClassType.outline_toDefinition (c : ClassType) : c.toDefinition.outline = c.outline := by
  simp [toDefinition, mapTypes, outline, Function.comp_def]

namespace Generics

/-! ### Keys -/

/-- The key of a declaration that is an instance. -/
def instanceKey? (d : Declaration) : Option String := (instance? d).map ClassType.definitionKey

theorem instance?_eq_some_iff {d : Declaration} {c : ClassType} :
    instance? d = some c ↔ d = .classType c ∧ c.isInstance = true := by
  cases d with
  | classType e =>
    by_cases h : e.isInstance = true
    · simp only [instance?, h, if_true, Option.some.injEq, Declaration.classType.injEq]
      constructor
      · rintro rfl
        exact ⟨rfl, h⟩
      · exact And.left
    · simp only [instance?, h, Declaration.classType.injEq]
      constructor
      · intro hn
        cases hn
      · rintro ⟨rfl, hi⟩
        exact absurd hi h
  | interfaceType _ => simp [instance?]
  | enumType _ => simp [instance?]
  | delegateType _ => simp [instance?]

@[simp] theorem instance?_classType {c : ClassType} (h : c.isInstance = true) :
    instance? (.classType c) = some c := instance?_eq_some_iff.mpr ⟨rfl, h⟩

theorem instance?_eq_none {c : ClassType} (h : c.isInstance = false) :
    instance? (.classType c) = none := by
  simp [instance?, h]

theorem instanceKey?_eq_some_iff {d : Declaration} {key : String} :
    instanceKey? d = some key ↔
      ∃ c, d = .classType c ∧ c.isInstance = true ∧ c.definitionKey = key := by
  simp [instanceKey?, Option.map_eq_some_iff, instance?_eq_some_iff, and_assoc]

theorem definitionKey?_eq_some_iff {d : Declaration} {key : String} :
    definitionKey? d = some key ↔
      ∃ c, d = .classType c ∧ c.isDefinition = true ∧ c.definitionKey = key := by
  cases d with
  | classType e => by_cases h : e.isDefinition = true <;> simp [definitionKey?, h]
  | interfaceType _ => simp [definitionKey?]
  | enumType _ => simp [definitionKey?]
  | delegateType _ => simp [definitionKey?]

/-- A key is claimed where position `i` is reached: a definition has it, wherever that stands,
or an instance in front of the position. -/
def Claimed (types : List Declaration) (i : Nat) (key : String) : Prop :=
  (∃ o ∈ types, definitionKey? o = some key) ∨ ∃ e ∈ types.take i, instanceKey? e = some key

instance (types : List Declaration) (i : Nat) (key : String) : Decidable (Claimed types i key) :=
  inferInstanceAs (Decidable (_ ∨ _))

variable {types ds : List Declaration} {d : Declaration} {i : Nat} {seen : List String}

theorem claimed_zero (key : String) :
    Claimed types 0 key ↔ key ∈ types.filterMap definitionKey? := by
  simp [Claimed, List.mem_filterMap]

theorem claimed_succ (h : types[i]? = some d) (key : String) :
    Claimed types (i + 1) key ↔ Claimed types i key ∨ instanceKey? d = some key := by
  unfold Claimed
  rw [List.take_add_one, h]
  simp only [Option.toList_some, List.mem_append, List.mem_singleton, or_and_right, exists_or,
    exists_eq_left, or_assoc]

/-- What merging leaves of the declaration at a position: all of it if it is no instance, the
definition if it is the first instance with an unclaimed key, and nothing otherwise. -/
def remnant? (types : List Declaration) (i : Nat) : Option Declaration :=
  match types[i]? with
  | none => none
  | some d =>
    match instance? d with
    | none => some d
    | some c =>
      if Claimed types i c.definitionKey then none else some (.classType c.toDefinition)

theorem remnant?_of_not_instance (h : types[i]? = some d) (hd : instance? d = none) :
    remnant? types i = some d := by simp [remnant?, h, hd]

theorem remnant?_of_instance {c : ClassType} (h : types[i]? = some (.classType c))
    (hc : c.isInstance = true) :
    remnant? types i =
      if Claimed types i c.definitionKey then none else some (.classType c.toDefinition) := by
  simp [remnant?, h, instance?_classType hc]

/-- What is left at a position is the declaration there, which is no instance, or the definition
of the instance there, whose key is unclaimed. -/
theorem remnant?_cases {e : Declaration} (h : remnant? types i = some e) :
    (types[i]? = some e ∧ instance? e = none) ∨
      ∃ c, types[i]? = some (.classType c) ∧ c.isInstance = true ∧
        ¬ Claimed types i c.definitionKey ∧ e = .classType c.toDefinition := by
  rcases hget : types[i]? with - | d
  · simp [remnant?, hget] at h
  · rcases hc : instance? d with - | c
    · rw [remnant?_of_not_instance hget hc] at h
      obtain rfl := Option.some.inj h
      exact Or.inl ⟨rfl, hc⟩
    · obtain ⟨rfl, hinst⟩ := instance?_eq_some_iff.mp hc
      rw [remnant?_of_instance hget hinst] at h
      split_ifs at h with hclaim
      exact Or.inr ⟨c, rfl, hinst, hclaim, (Option.some.inj h).symm⟩

/-! ### The walk -/

theorem mergeFrom_cons_of_not_instance (h : instance? d = none) :
    mergeFrom seen (d :: ds) =
      ⟨d :: (mergeFrom seen ds).types, (mergeFrom seen ds).dropped,
        (mergeFrom seen ds).created⟩ := by
  simp [mergeFrom, h]

theorem mergeFrom_cons_of_mem {c : ClassType} (h : instance? d = some c)
    (hk : c.definitionKey ∈ seen) :
    mergeFrom seen (d :: ds) =
      ⟨(mergeFrom seen ds).types, (mergeFrom seen ds).dropped + 1,
        (mergeFrom seen ds).created⟩ := by
  simp [mergeFrom, h, hk]

theorem mergeFrom_cons_of_not_mem {c : ClassType} (h : instance? d = some c)
    (hk : c.definitionKey ∉ seen) :
    mergeFrom seen (d :: ds) =
      ⟨.classType c.toDefinition :: (mergeFrom (c.definitionKey :: seen) ds).types,
        (mergeFrom (c.definitionKey :: seen) ds).dropped,
        (mergeFrom (c.definitionKey :: seen) ds).created + 1⟩ := by
  simp [mergeFrom, h, hk]

/-- The walk from a position on gives the remnants of that position and the later ones, if the
keys seen are the claimed ones. -/
theorem mergeFrom_types (hdrop : types.drop i = ds)
    (hseen : ∀ key, key ∈ seen ↔ Claimed types i key) :
    (mergeFrom seen ds).types = (List.range' i ds.length).filterMap (remnant? types) := by
  induction ds generalizing i seen with
  | nil => rfl
  | cons d ds ih =>
    have hi : types[i]? = some d := by
      have h0 := congrArg (fun l => l[0]?) hdrop
      simpa using h0
    have hnext : types.drop (i + 1) = ds := by
      rw [← List.tail_drop, hdrop, List.tail_cons]
    rw [List.length_cons, List.range'_succ]
    rcases hc : instance? d with - | c
    · -- no instance: the claimed keys stay the same
      have hsame : ∀ key, key ∈ seen ↔ Claimed types (i + 1) key := by
        intro key
        rw [hseen, claimed_succ hi]
        simp [instanceKey?, hc]
      rw [mergeFrom_cons_of_not_instance hc,
        List.filterMap_cons_some (remnant?_of_not_instance hi hc), ih hnext hsame]
    · obtain ⟨rfl, hinst⟩ := instance?_eq_some_iff.mp hc
      have hkey : instanceKey? (.classType c) = some c.definitionKey := by simp [instanceKey?, hc]
      have hr := remnant?_of_instance hi hinst
      by_cases hk : c.definitionKey ∈ seen
      · -- a claimed key is claimed again
        have hsame : ∀ key, key ∈ seen ↔ Claimed types (i + 1) key := by
          intro key
          rw [claimed_succ hi, ← hseen, hkey, Option.some.injEq]
          constructor
          · exact Or.inl
          · rintro (h | rfl)
            · exact h
            · exact hk
        rw [if_pos ((hseen _).mp hk)] at hr
        rw [mergeFrom_cons_of_mem hc hk, List.filterMap_cons_none hr, ih hnext hsame]
      · have hmore : ∀ key, key ∈ c.definitionKey :: seen ↔ Claimed types (i + 1) key := by
          intro key
          rw [claimed_succ hi, ← hseen, hkey, Option.some.injEq, List.mem_cons, or_comm,
            eq_comm (a := key)]
        rw [if_neg (fun h => hk ((hseen _).mpr h))] at hr
        rw [mergeFrom_cons_of_not_mem hc hk, List.filterMap_cons_some hr, ih hnext hmore]

/-! ### The counts -/

/-- Nothing is counted twice: a declaration stays or is dropped. -/
theorem mergeFrom_length (seen : List String) (ds : List Declaration) :
    (mergeFrom seen ds).types.length + (mergeFrom seen ds).dropped = ds.length := by
  induction ds generalizing seen with
  | nil => rfl
  | cons d ds ih =>
    rw [List.length_cons]
    rcases hc : instance? d with - | c
    · rw [mergeFrom_cons_of_not_instance hc, ← ih seen, List.length_cons]
      exact Nat.add_right_comm _ _ _
    · by_cases hk : c.definitionKey ∈ seen
      · rw [mergeFrom_cons_of_mem hc hk, ← ih seen]
        rfl
      · rw [mergeFrom_cons_of_not_mem hc hk, ← ih (c.definitionKey :: seen), List.length_cons]
        exact Nat.add_right_comm _ _ _

/-- An instance becomes a definition or is dropped. -/
theorem mergeFrom_created_add_dropped (seen : List String) (ds : List Declaration) :
    (mergeFrom seen ds).created + (mergeFrom seen ds).dropped =
      ds.countP fun d => (instance? d).isSome := by
  induction ds generalizing seen with
  | nil => rfl
  | cons d ds ih =>
    rcases hc : instance? d with - | c
    · rw [mergeFrom_cons_of_not_instance hc, List.countP_cons_of_neg (by simp [hc]), ← ih seen]
    · rw [List.countP_cons_of_pos (by simp [hc])]
      by_cases hk : c.definitionKey ∈ seen
      · rw [mergeFrom_cons_of_mem hc hk, ← ih seen]
        rfl
      · rw [mergeFrom_cons_of_not_mem hc hk, ← ih (c.definitionKey :: seen)]
        exact Nat.add_right_comm _ _ _

/-- The definitions made are the keys that the instances bring in anew. -/
theorem mergeFrom_created (seen : List String) (ds : List Declaration) :
    (mergeFrom seen ds).created =
      ((ds.filterMap instanceKey?).toFinset \ seen.toFinset).card := by
  induction ds generalizing seen with
  | nil => simp [mergeFrom]
  | cons d ds ih =>
    rcases hc : instance? d with - | c
    · rw [mergeFrom_cons_of_not_instance hc,
        List.filterMap_cons_none (by simp [instanceKey?, hc]), ← ih seen]
    · have hkey : instanceKey? d = some c.definitionKey := by simp [instanceKey?, hc]
      rw [List.filterMap_cons_some hkey, List.toFinset_cons]
      by_cases hk : c.definitionKey ∈ seen
      · rw [mergeFrom_cons_of_mem hc hk, Finset.insert_sdiff_of_mem _ (by simpa using hk),
          ← ih seen]
      · -- the new key counts once, whether or not later instances have it too
        rw [mergeFrom_cons_of_not_mem hc hk, Finset.insert_sdiff_of_notMem _ (by simpa using hk),
          ← Finset.card_erase_add_one (Finset.mem_insert_self _ _),
          Finset.erase_insert_eq_erase, ← Finset.sdiff_insert, ← List.toFinset_cons,
          ← ih (c.definitionKey :: seen)]

/-! ### Merging -/

theorem merge_types (types : List Declaration) :
    (merge types).types = (List.range types.length).filterMap (remnant? types) := by
  rw [List.range_eq_range']
  refine mergeFrom_types List.drop_zero fun key => ?_
  rw [claimed_zero]

/-- What was dropped are the positions that nothing is left of. -/
theorem merge_dropped (types : List Declaration) :
    (merge types).dropped =
      (List.range types.length).countP fun i => (remnant? types i).isNone := by
  have hlen := mergeFrom_length (types.filterMap definitionKey?) types
  have hkept : (merge types).types.length =
      (List.range types.length).countP fun i => (remnant? types i).isSome := by
    rw [merge_types, List.length_filterMap_eq_countP]
  have hsplit := List.length_eq_countP_add_countP (fun i => (remnant? types i).isSome)
    (l := List.range types.length)
  simp only [List.length_range, Bool.not_eq_true, Option.isSome_eq_false_iff,
    Bool.decide_eq_true] at hsplit
  rw [merge] at hkept ⊢
  omega

theorem merge_created (types : List Declaration) :
    (merge types).created =
      ((types.filterMap instanceKey?).toFinset \ (types.filterMap definitionKey?).toFinset).card :=
  mergeFrom_created _ _

/-- Neither count depends on the order of the declarations. -/
theorem merge_counts_of_perm {types types' : List Declaration} (h : types'.Perm types) :
    (merge types').created = (merge types).created ∧
      (merge types').dropped = (merge types).dropped := by
  have hcreated : (merge types').created = (merge types).created := by
    rw [merge_created, merge_created, List.toFinset_eq_of_perm _ _ (h.filterMap instanceKey?),
      List.toFinset_eq_of_perm _ _ (h.filterMap definitionKey?)]
  have hsum := mergeFrom_created_add_dropped (types.filterMap definitionKey?) types
  have hsum' := mergeFrom_created_add_dropped (types'.filterMap definitionKey?) types'
  -- every order has the same instances, and the ones that are not made definitions are dropped
  rw [h.countP_eq] at hsum'
  refine ⟨hcreated, ?_⟩
  rw [merge, merge] at hcreated ⊢
  omega

theorem mem_merge_types {e : Declaration} :
    e ∈ (merge types).types ↔ ∃ i, remnant? types i = some e := by
  rw [merge_types, List.mem_filterMap]
  constructor
  · rintro ⟨i, -, hi⟩
    exact ⟨i, hi⟩
  · rintro ⟨i, hi⟩
    refine ⟨i, List.mem_range.mpr ?_, hi⟩
    by_contra hlt
    rw [remnant?, List.getElem?_eq_none (Nat.le_of_not_lt hlt)] at hi
    cases hi

theorem mem_merge_of_not_instance (hd : d ∈ types) (h : instance? d = none) :
    d ∈ (merge types).types := by
  obtain ⟨i, hi⟩ := List.mem_iff_getElem?.mp hd
  exact mem_merge_types.mpr ⟨i, remnant?_of_not_instance hi h⟩

/-- No instance is left. -/
theorem instance?_of_mem_merge {e : Declaration} (h : e ∈ (merge types).types) :
    instance? e = none := by
  obtain ⟨i, hi⟩ := mem_merge_types.mp h
  rcases remnant?_cases hi with ⟨-, hnone⟩ | ⟨c, -, -, -, rfl⟩
  · exact hnone
  · exact instance?_eq_none rfl

theorem mergeFrom_of_no_instance (h : ∀ d ∈ ds, instance? d = none) :
    mergeFrom seen ds = ⟨ds, 0, 0⟩ := by
  induction ds with
  | nil => rfl
  | cons d ds ih =>
    rw [mergeFrom_cons_of_not_instance (h d List.mem_cons_self),
      ih fun e he => h e (List.mem_cons_of_mem d he)]

/-- Merging leaves declarations as they are exactly if there is no instance among them. -/
theorem merge_eq_self_iff {types : List Declaration} :
    merge types = ⟨types, 0, 0⟩ ↔ ∀ d ∈ types, instance? d = none := by
  refine ⟨fun h d hd => ?_, mergeFrom_of_no_instance⟩
  have htypes : (merge types).types = types := congrArg Merged.types h
  rw [← htypes] at hd
  exact instance?_of_mem_merge hd

/-- Merging again changes nothing and drops nothing. -/
theorem merge_merge (types : List Declaration) :
    merge (merge types).types = ⟨(merge types).types, 0, 0⟩ :=
  merge_eq_self_iff.mpr fun _ => instance?_of_mem_merge

/-- An instance among the declarations is counted, whatever becomes of it. -/
theorem merge_counts_eq_zero_iff {types : List Declaration} :
    (merge types).dropped = 0 ∧ (merge types).created = 0 ↔ ∀ d ∈ types, instance? d = none := by
  have hcount := mergeFrom_created_add_dropped (types.filterMap definitionKey?) types
  calc (merge types).dropped = 0 ∧ (merge types).created = 0
      ↔ types.countP (fun d => (instance? d).isSome) = 0 := by
        rw [← hcount, Nat.add_eq_zero_iff, and_comm]
        rfl
    _ ↔ ∀ d ∈ types, instance? d = none := by
        simp only [List.countP_eq_zero, Option.not_isSome_iff_eq_none]

/-- **Merging once is enough.**  The output of a merge is merged to itself, and nothing is dropped
or made anew, whatever was merged.  The lists that are merged to themselves are those that hold
no instance, and these are the ones for which a merge counts nothing. -/
theorem merge_idempotent (types : List Declaration) :
    merge (merge types).types = ⟨(merge types).types, 0, 0⟩ ∧
    (merge types = ⟨types, 0, 0⟩ ↔ ∀ d ∈ types, instance? d = none) ∧
    ((merge types).dropped = 0 ∧ (merge types).created = 0 ↔ merge types = ⟨types, 0, 0⟩) :=
  ⟨merge_merge types, merge_eq_self_iff, merge_counts_eq_zero_iff.trans merge_eq_self_iff.symm⟩

/-- Every key of an instance that no definition owns has a representative: the first instance
with that key is left as its definition. -/
theorem exists_representative {c : ClassType} (h : types[i]? = some (.classType c))
    (hc : c.isInstance = true) (hown : ∀ o ∈ types, definitionKey? o ≠ some c.definitionKey) :
    ∃ j e, types[j]? = some (.classType e) ∧ e.isInstance = true ∧
      e.definitionKey = c.definitionKey ∧ remnant? types j = some (.classType e.toDefinition) := by
  -- strong induction on the position: what claims the key stands further in front
  induction i using Nat.strong_induction_on generalizing c with
  | _ i ih =>
    by_cases hclaim : Claimed types i c.definitionKey
    · rcases hclaim with ⟨o, ho, hkey⟩ | ⟨e, he, hkey⟩
      · exact absurd hkey (hown o ho)
      · obtain ⟨e, rfl, hinst, hsame⟩ := instanceKey?_eq_some_iff.mp hkey
        obtain ⟨j, hj, hget⟩ := List.mem_take_iff_getElem.mp he
        have hjt : types[j]? = some (.classType e) := by
          rw [List.getElem?_eq_getElem (by omega), hget]
        obtain ⟨k, f, hf⟩ := ih j (by omega) hjt hinst (by rwa [hsame])
        rw [hsame] at hf
        exact ⟨k, f, hf⟩
    · exact ⟨i, c, h, hc, rfl, by rw [remnant?_of_instance h hc, if_neg hclaim]⟩

/-- **What merging does.**  It keeps the remnants of the positions, in order.  The dropped
positions are those without a remnant, and the definitions made are the keys of instances that
no definition owns; together with what remains, the dropped ones are all of the input.  The
counts do not depend on the order.  A definition differs from its instance only in its name,
its marks of genericity and the types that it mentions. -/
theorem merge_keeps_exactly (types : List Declaration) :
    (merge types).types = (List.range types.length).filterMap (remnant? types) ∧
    (merge types).dropped =
      ((List.range types.length).countP fun i => (remnant? types i).isNone) ∧
    (merge types).created =
      ((types.filterMap instanceKey?).toFinset \
        (types.filterMap definitionKey?).toFinset).card ∧
    (merge types).types.length + (merge types).dropped = types.length ∧
    (∀ types', types'.Perm types →
      (merge types').created = (merge types).created ∧
        (merge types').dropped = (merge types).dropped) ∧
    ∀ c : ClassType, c.toDefinition.outline = c.outline :=
  ⟨merge_types types, merge_dropped types, merge_created types, mergeFrom_length _ types,
    fun _ => merge_counts_of_perm, ClassType.outline_toDefinition⟩

/-- A generic class between two of its instances, an enumeration, and an instance of a class
without a definition. -/
def boxes : List Declaration :=
  [.classType { header := { name := "Box`1" }, arguments := ["Apple"], isConstructed := true },
    .enumType { header := { name := "Box" } },
    .classType { header := { name := "Box`1" }, arguments := ["T"] },
    .classType { header := { name := "Box<Pear>" }, arguments := ["Pear"], isConstructed := true },
    .classType { header := { name := "Crate`1" }, arguments := ["Apple"], isConstructed := true }]

/-- From behind as from the front, the crate becomes a definition and two boxes are dropped. -/
theorem merge_boxes_reverse :
    boxes.reverse.Perm boxes ∧ (merge boxes.reverse).created = 1 ∧
      (merge boxes.reverse).dropped = 2 := by
  have hperm : boxes.reverse.Perm boxes := List.reverse_perm boxes
  obtain ⟨hcreated, hdropped⟩ := (merge_keeps_exactly boxes).2.2.2.2.1 boxes.reverse hperm
  have hcreated' : (merge boxes).created = 1 := by decide
  have hdropped' : (merge boxes).dropped = 2 := by decide
  exact ⟨hperm, hcreated.trans hcreated', hdropped.trans hdropped'⟩

end Generics

end LuaTypings
