/-
LuaTypings/Proofs/Generics/Arguments.lean

What is left of the arguments of an instance in its definition.  One replacement removes its argument
and makes no new occurrence of another one whose characters are not those of the placeholder; and so
do all of them (`infix_of_infix_apply`).  So where arguments and placeholders have no character in
common, no type of a definition has an argument in it, not even across the seams between what was
replaced and what was not.

Main result: `argument_not_infix_definition`.
-/
import LuaTypings.Proofs.Generics.Placeholders

namespace LuaTypings

namespace Substitution

variable {word : List Char}

theorem infix_of_infix_replace {pair : String × String} {text : String} (hword : word ≠ [])
    (hfirst : pair.1 ≠ "") (hsecond : pair.2 ≠ "") (hapart : word.Disjoint pair.2.toList)
    (h : word <:+: (replace text pair).toList) : word <:+: text.toList ∧ word ≠ pair.1.toList := by
  rw [replace, String.toList_ofList] at h
  exact Text.infix_of_infix_replaceAll hword (toList_ne_nil hfirst) (toList_ne_nil hsecond) hapart h

/-- What has no character in common with the placeholders occurs in the end only if it did from the
start and is none of the arguments. -/
theorem infix_of_infix_apply {pairs : List (String × String)} {text : String} (hword : word ≠ [])
    (hpairs : ∀ q ∈ pairs, q.1 ≠ "" ∧ q.2 ≠ "" ∧ word.Disjoint q.2.toList)
    (h : word <:+: (apply pairs text).toList) :
    word <:+: text.toList ∧ ∀ q ∈ pairs, word ≠ q.1.toList := by
  induction pairs generalizing text with
  | nil => exact ⟨h, List.forall_mem_nil _⟩
  | cons q qs ih =>
    obtain ⟨⟨hfirst, hsecond, hapart⟩, hqs⟩ := List.forall_mem_cons.mp hpairs
    obtain ⟨hmiddle, hothers⟩ := ih hqs h
    obtain ⟨hoccurs, hdiff⟩ := infix_of_infix_replace hword hfirst hsecond hapart hmiddle
    exact ⟨hoccurs, List.forall_mem_cons.mpr ⟨hdiff, hothers⟩⟩

theorem mem_ofArguments_iff {arguments placeholders : List String} {q : String × String} :
    q ∈ ofArguments arguments placeholders ↔
      q ∈ arguments.zip placeholders ∧ q.1 ≠ "" ∧ q.1 ≠ q.2 := by
  rw [ofArguments, (longestFirst_perm _).mem_iff, List.mem_filter]
  simp

end Substitution

namespace ClassType

variable {c : ClassType}

theorem placeholder_ne_empty (index : Nat) : placeholder index ≠ "" := by
  unfold placeholder
  split_ifs <;> simp

/-- No placeholder is empty. -/
theorem ne_empty_of_mem_placeholders {b : String} (h : b ∈ c.placeholders) : b ≠ "" := by
  simp only [placeholders] at h
  split_ifs at h with hkept
  · -- the analyzer's names are kept only if none of them is blank
    rintro rfl
    have hblank := List.all_eq_true.mp hkept.2.2 "" h
    exact absurd hblank (by decide)
  · obtain ⟨index, -, rfl⟩ := List.mem_map.mp h
    exact placeholder_ne_empty index

/-- Arguments have no character in common with placeholders. -/
def ArgumentsApart (c : ClassType) : Prop :=
  ∀ a ∈ c.arguments, ∀ b ∈ c.placeholders, a.toList.Disjoint b.toList

instance (c : ClassType) : Decidable c.ArgumentsApart :=
  decidable_of_iff ((c.arguments.all fun a => c.placeholders.all fun b =>
    a.toList.all fun x => !b.toList.contains x) = true) (by simp [ArgumentsApart, List.Disjoint])

/-- An argument that is not empty is replaced. -/
theorem exists_mem_ofArguments (h : c.ArgumentsApart) {a : String} (ha : a ∈ c.arguments)
    (hne : a ≠ "") : ∃ b, (a, b) ∈ Substitution.ofArguments c.arguments c.placeholders := by
  obtain ⟨i, hi⟩ := List.mem_iff_getElem?.mp ha
  obtain ⟨b, hb⟩ := exists_placeholder hi
  have hzip : (a, b) ∈ c.arguments.zip c.placeholders :=
    List.mem_iff_getElem?.mpr ⟨i, List.getElem?_zip_eq_some.mpr ⟨hi, hb⟩⟩
  refine ⟨b, Substitution.mem_ofArguments_iff.mpr ⟨hzip, hne, fun hsame => ?_⟩⟩
  obtain rfl : a = b := hsame
  obtain ⟨x, xs, hx⟩ := List.exists_cons_of_ne_nil (Substitution.toList_ne_nil hne)
  have hmem : x ∈ a.toList := by
    rw [hx]
    exact List.mem_cons_self
  exact h a ha a (List.mem_of_getElem? hb) hmem hmem

theorem argument_not_infix (h : c.ArgumentsApart) {place : TypePlace} {t : String}
    (ht : c.toDefinition.typeAt place = some t) {a : String} (ha : a ∈ c.arguments) (hne : a ≠ "") :
    ¬ a.toList <:+: t.toList := by
  rw [typeAt_toDefinition_eq, Option.map_eq_some_iff] at ht
  obtain ⟨text, -, rfl⟩ := ht
  intro hoccurs
  have hpairs : ∀ q ∈ Substitution.ofArguments c.arguments c.placeholders,
      q.1 ≠ "" ∧ q.2 ≠ "" ∧ a.toList.Disjoint q.2.toList := by
    intro q hq
    obtain ⟨hzip, hfirst, -⟩ := Substitution.mem_ofArguments_iff.mp hq
    have hplaceholder := (List.of_mem_zip hzip).2
    exact ⟨hfirst, ne_empty_of_mem_placeholders hplaceholder, h a ha q.2 hplaceholder⟩
  obtain ⟨b, hmem⟩ := exists_mem_ofArguments h ha hne
  exact (Substitution.infix_of_infix_apply (Substitution.toList_ne_nil hne) hpairs hoccurs).2
    (a, b) hmem rfl

end ClassType

namespace Generics

/-- **No argument survives.**  If the arguments of an instance have no character in common with its
placeholders, then no type of its definition, whatever it was, has an argument in it that is not
empty.  The definition is all that merging ever leaves of the instance. -/
theorem argument_not_infix_definition {c : ClassType} (hc : c.isInstance = true)
    (h : c.ArgumentsApart) :
    (∀ place t, c.toDefinition.typeAt place = some t →
      ∀ a ∈ c.arguments, a ≠ "" → ¬ a.toList <:+: t.toList) ∧
    ∀ types i e, types[i]? = some (.classType c) → remnant? types i = some e →
      e = .classType c.toDefinition ∧ e ∈ (merge types).types := by
  refine ⟨fun place t ht a ha hne => ClassType.argument_not_infix h ht ha hne, ?_⟩
  intro types i e hget hrem
  refine ⟨?_, mem_merge_types.mpr ⟨i, hrem⟩⟩
  rw [remnant?_of_instance hget hc] at hrem
  split_ifs at hrem
  exact (Option.some.inj hrem).symm

/-- An instance with a type in which one replacement brings together what looks like the
argument. -/
def nestedAgain : ClassType where
  header := { name := "Box`1" }
  arguments := ["ab"]
  isConstructed := true
  fields := [{ name := "value", type := "aabb<ab>" }]

/-- The placeholder stands between the two halves. -/
theorem argument_not_infix_nestedAgain :
    (merge [.classType nestedAgain]).types = [.classType nestedAgain.toDefinition] ∧
      nestedAgain.toDefinition.typeAt (.field 0) = some "aTb<T>" ∧
      ¬ "ab".toList <:+: "aTb<T>".toList := by
  have htype : nestedAgain.toDefinition.typeAt (.field 0) = some "aTb<T>" := by decide
  obtain ⟨hnone, -⟩ := argument_not_infix_definition (by decide) (by decide : nestedAgain.ArgumentsApart)
  exact ⟨by decide, htype, hnone _ _ htype "ab" (by decide) (by decide)⟩

end Generics

end LuaTypings
