/-
LuaTypings/Proofs/Generics/Placeholders.lean

What becomes of a type of an instance that is one of its arguments.  Replacements apply one
after the other, longest argument first.  Those in front of the argument's own cannot touch it,
its own writes the placeholder, and those behind it work on the placeholder
(`apply_argument`).  So the definition has the placeholder there exactly if the replacements
behind leave it alone, and a placeholder in which a shorter argument occurs is rewritten.
-/
import LuaTypings.Proofs.Generics.Survivors
import LuaTypings.Proofs.Text.Replace
import Mathlib.Data.List.Nodup

namespace LuaTypings

namespace Substitution

/-! ### One replacement -/

theorem replace_of_absent {text : String} {pair : String × String}
    (h : ¬ pair.1.toList <:+: text.toList) : replace text pair = text := by
  rw [replace, Text.replaceAll_of_absent h, String.ofList_toList]

theorem toList_ne_nil {text : String} (h : text ≠ "") : text.toList ≠ [] :=
  mt String.toList_eq_nil_iff.mp h

theorem replace_self {argument : String} (h : argument ≠ "") (placeholder : String) :
    replace argument (argument, placeholder) = placeholder := by
  rw [replace, Text.replaceAll_self (toList_ne_nil h), String.ofList_toList]

theorem replace_same {argument : String} (h : argument ≠ "") (text : String) :
    replace text (argument, argument) = text := by
  rw [replace, Text.replaceAll_same (toList_ne_nil h), String.ofList_toList]

/-- A text in which another one occurs is that text or larger. -/
theorem size_lt_of_occurring {part text : String} (h : part.toList <:+: text.toList)
    (hne : part ≠ text) : part.utf8ByteSize < text.utf8ByteSize := by
  obtain ⟨front, back, hcut⟩ := h
  have htext : text = String.ofList front ++ part ++ String.ofList back := by
    apply String.toList_inj.mp
    simp [← hcut]
  have hsize := congrArg String.utf8ByteSize htext
  rw [String.utf8ByteSize_append, String.utf8ByteSize_append] at hsize
  by_contra hle
  -- nothing is left for what stands around the part
  have hfront : String.ofList front = "" := String.utf8ByteSize_eq_zero_iff.mp (by omega)
  have hback : String.ofList back = "" := String.utf8ByteSize_eq_zero_iff.mp (by omega)
  rw [hfront, hback] at htext
  exact hne (by simpa using htext.symm)

/-! ### The order of replacements -/

/-- Pairs in which no text to be replaced is larger than one in front of it. -/
def Descending (pairs : List (String × String)) : Prop :=
  pairs.Pairwise fun p q => q.1.utf8ByteSize ≤ p.1.utf8ByteSize

theorem insert_perm (pair : String × String) (pairs : List (String × String)) :
    (insert pair pairs).Perm (pair :: pairs) := by
  induction pairs with
  | nil => exact List.Perm.refl _
  | cons q qs ih =>
    simp only [insert]
    split_ifs
    · exact List.Perm.refl _
    · exact (ih.cons q).trans (List.Perm.swap pair q qs)

theorem insert_descending (pair : String × String) {pairs : List (String × String)}
    (h : Descending pairs) : Descending (insert pair pairs) := by
  induction pairs with
  | nil => exact List.pairwise_singleton _ _
  | cons q qs ih =>
    obtain ⟨hq, hqs⟩ := List.pairwise_cons.mp h
    simp only [insert]
    split_ifs with hle
    · refine List.pairwise_cons.mpr ⟨fun r hr => ?_, h⟩
      rcases List.mem_cons.mp hr with rfl | hr
      · exact hle
      · exact Nat.le_trans (hq r hr) hle
    · refine List.pairwise_cons.mpr ⟨fun r hr => ?_, ih hqs⟩
      rcases List.mem_cons.mp ((insert_perm pair qs).mem_iff.mp hr) with rfl | hr
      · exact Nat.le_of_lt (Nat.lt_of_not_le hle)
      · exact hq r hr

theorem longestFirst_perm (pairs : List (String × String)) :
    (longestFirst pairs).Perm pairs := by
  induction pairs with
  | nil => exact List.Perm.refl _
  | cons pair pairs ih => exact (insert_perm pair _).trans (ih.cons pair)

theorem longestFirst_descending (pairs : List (String × String)) :
    Descending (longestFirst pairs) := by
  induction pairs with
  | nil => exact List.Pairwise.nil
  | cons pair pairs ih => exact insert_descending pair ih

/-- A pair that goes in front of all pairs of a descending list. -/
theorem insert_eq_cons {pair : String × String} {pairs : List (String × String)}
    (h : ∀ q ∈ pairs, q.1.utf8ByteSize ≤ pair.1.utf8ByteSize) :
    insert pair pairs = pair :: pairs := by
  cases pairs with
  | nil => rfl
  | cons q qs => exact if_pos (h q List.mem_cons_self)

theorem insert_filter (keep : String × String → Bool) (pair : String × String)
    {pairs : List (String × String)} (h : Descending pairs) :
    (insert pair pairs).filter keep =
      if keep pair then insert pair (pairs.filter keep) else pairs.filter keep := by
  induction pairs with
  | nil =>
    simp only [insert, List.filter_cons, List.filter_nil]
  | cons q qs ih =>
    obtain ⟨hq, hqs⟩ := List.pairwise_cons.mp h
    by_cases hle : q.1.utf8ByteSize ≤ pair.1.utf8ByteSize
    · -- the pair goes in front of all, so also of those that are kept
      have hall : ∀ r ∈ (q :: qs).filter keep, r.1.utf8ByteSize ≤ pair.1.utf8ByteSize := by
        intro r hr
        rcases List.mem_cons.mp (List.mem_of_mem_filter hr) with rfl | hr
        · exact hle
        · exact Nat.le_trans (hq r hr) hle
      rw [insert, if_pos hle, insert_eq_cons hall, List.filter_cons]
    · rw [insert, if_neg hle, List.filter_cons, List.filter_cons, ih hqs]
      split_ifs with hkq hkp
      · rw [insert, if_neg hle]
      · rfl
      · rfl
      · rfl

/-- Leaving out pairs does not change the order of the others. -/
theorem longestFirst_filter (keep : String × String → Bool) (pairs : List (String × String)) :
    longestFirst (pairs.filter keep) = (longestFirst pairs).filter keep := by
  induction pairs with
  | nil => rfl
  | cons pair pairs ih =>
    show _ = (insert pair (longestFirst pairs)).filter keep
    rw [insert_filter keep pair (longestFirst_descending pairs), ← ih, List.filter_cons]
    split_ifs
    · rfl
    · rfl

/-! ### All replacements -/

theorem apply_cons (pair : String × String) (pairs : List (String × String)) (text : String) :
    apply (pair :: pairs) text = apply pairs (replace text pair) := rfl

/-- Pairs that change nothing may be left out. -/
theorem apply_filter (keep : String × String → Bool) {pairs : List (String × String)}
    (h : ∀ q ∈ pairs, keep q = false → ∀ text, replace text q = text) (text : String) :
    apply (pairs.filter keep) text = apply pairs text := by
  induction pairs generalizing text with
  | nil => rfl
  | cons q qs ih =>
    have hqs := ih fun r hr => h r (List.mem_cons_of_mem q hr)
    rw [List.filter_cons, apply_cons]
    split_ifs with hkeep
    · rw [apply_cons, hqs]
    · rw [hqs, h q List.mem_cons_self (by simpa using hkeep)]

/-- Only the arguments that are their own placeholders are left out, if none is empty. -/
theorem apply_ofArguments {arguments placeholders : List String}
    (hne : ∀ a ∈ arguments, a ≠ "") (text : String) :
    apply (ofArguments arguments placeholders) text =
      apply (longestFirst (arguments.zip placeholders)) text := by
  rw [ofArguments, longestFirst_filter]
  refine apply_filter _ (fun q hq hkeep => ?_) text
  have hmem := (longestFirst_perm _).mem_iff.mp hq
  have hq1 := hne q.1 (List.of_mem_zip hmem).1
  have heq : q.1 = q.2 := by simpa [hq1] using hkeep
  intro t
  obtain ⟨a, b⟩ := q
  obtain rfl : a = b := heq
  exact replace_same hq1 t

/-- The replacements behind that of an argument. -/
def behind (argument : String) : List (String × String) → List (String × String)
  | [] => []
  | q :: qs => if q.1 = argument then qs else behind argument qs

/-- An argument becomes its placeholder, and then the replacements behind apply to that. -/
theorem apply_argument {pairs : List (String × String)} {argument placeholder : String}
    (hsort : Descending pairs) (hnodup : (pairs.map Prod.fst).Nodup)
    (hmem : (argument, placeholder) ∈ pairs) (hne : argument ≠ "") :
    apply pairs argument = apply (behind argument pairs) placeholder := by
  induction pairs with
  | nil => cases hmem
  | cons q qs ih =>
    obtain ⟨hq, hqs⟩ := List.pairwise_cons.mp hsort
    obtain ⟨hnot, hrest⟩ := List.nodup_cons.mp hnodup
    rw [apply_cons, behind]
    rcases List.mem_cons.mp hmem with rfl | hmem
    · rw [if_pos rfl, replace_self hne]
    · have hdiff : q.1 ≠ argument := by
        rintro rfl
        exact hnot (List.mem_map.mpr ⟨_, hmem, rfl⟩)
      -- a larger text does not occur in the argument, nor does another one of its size
      have hout : ¬ q.1.toList <:+: argument.toList := fun hin =>
        Nat.not_lt.mpr (hq _ hmem) (size_lt_of_occurring hin hdiff)
      rw [if_neg hdiff, replace_of_absent hout, ih hqs hrest hmem]

/-- A pair behind that of an argument replaces another text, which is no larger. -/
theorem of_mem_behind {pairs : List (String × String)} {argument placeholder : String}
    (hsort : Descending pairs) (hnodup : (pairs.map Prod.fst).Nodup)
    (hmem : (argument, placeholder) ∈ pairs) {q : String × String}
    (hq : q ∈ behind argument pairs) :
    q ∈ pairs ∧ q.1 ≠ argument ∧ q.1.utf8ByteSize ≤ argument.utf8ByteSize := by
  induction pairs with
  | nil => cases hmem
  | cons r rs ih =>
    obtain ⟨hr, hrs⟩ := List.pairwise_cons.mp hsort
    obtain ⟨hnot, hrest⟩ := List.nodup_cons.mp hnodup
    rw [behind] at hq
    by_cases heq : r.1 = argument
    · rw [if_pos heq] at hq
      refine ⟨List.mem_cons_of_mem r hq, ?_, heq ▸ hr q hq⟩
      rintro hqa
      exact hnot (List.mem_map.mpr ⟨q, hq, hqa.trans heq.symm⟩)
    · rw [if_neg heq] at hq
      have hin : (argument, placeholder) ∈ rs := by
        rcases List.mem_cons.mp hmem with rfl | hin
        · exact absurd rfl heq
        · exact hin
      obtain ⟨hqrs, hdiff, hsize⟩ := ih hrs hrest hin hq
      exact ⟨List.mem_cons_of_mem r hqrs, hdiff, hsize⟩

/-- Replacements of texts that do not occur change nothing, nor do those of a text by itself. -/
theorem apply_of_absent {pairs : List (String × String)} {text : String}
    (hne : ∀ q ∈ pairs, q.1 ≠ "")
    (h : ∀ q ∈ pairs, q.1 ≠ q.2 → ¬ q.1.toList <:+: text.toList) : apply pairs text = text := by
  induction pairs with
  | nil => rfl
  | cons q qs ih =>
    have hq : replace text q = text := by
      by_cases heq : q.1 = q.2
      · obtain ⟨a, b⟩ := q
        obtain rfl : a = b := heq
        exact replace_same (hne _ List.mem_cons_self) text
      · exact replace_of_absent (h q List.mem_cons_self heq)
    rw [apply_cons, hq]
    exact ih (fun r hr => hne r (List.mem_cons_of_mem q hr))
      fun r hr => h r (List.mem_cons_of_mem q hr)

end Substitution

/-! ### The types of a class -/

/-- A place of a class at which a type stands. -/
inductive TypePlace where
  | base
  | interface (index : Nat)
  | field (index : Nat)
  | result (method : Nat)
  | parameter (method index : Nat)
  deriving DecidableEq, Repr

namespace ClassType

/-- The type at a place, if the class has that place. -/
def typeAt (c : ClassType) : TypePlace → Option String
  | .base => c.base
  | .interface i => c.interfaces[i]?
  | .field i => c.fields[i]?.map Field.type
  | .result i => c.methods[i]?.map Method.returnType
  | .parameter i j => c.methods[i]?.bind fun m => m.parameters[j]?.map Parameter.type

theorem typeAt_mapTypes (f : String → String) (c : ClassType) (place : TypePlace) :
    (c.mapTypes f).typeAt place = (c.typeAt place).map f := by
  cases place with
  | base => rfl
  | interface i => simp [typeAt, mapTypes]
  | field i => simp [typeAt, mapTypes, Function.comp_def]
  | result i => simp [typeAt, mapTypes, Function.comp_def]
  | parameter i j =>
    rcases h : c.methods[i]? with - | m
    · simp [typeAt, mapTypes, h]
    · simp [typeAt, mapTypes, h, Function.comp_def]

/-- The replacements of a class in the order in which they apply, those of arguments that are
their own placeholders included. -/
def replacements (c : ClassType) : List (String × String) :=
  Substitution.longestFirst (c.arguments.zip c.placeholders)

/-- A definition has the type at each place with arguments replaced by placeholders. -/
theorem typeAt_toDefinition_eq (c : ClassType) (place : TypePlace) :
    c.toDefinition.typeAt place = (c.typeAt place).map
      (Substitution.apply (Substitution.ofArguments c.arguments c.placeholders)) := by
  rw [← typeAt_mapTypes]
  cases place <;> rfl

/-- A definition has the rewritten type at each place. -/
theorem typeAt_toDefinition {c : ClassType} (hne : ∀ a ∈ c.arguments, a ≠ "")
    (place : TypePlace) :
    c.toDefinition.typeAt place = (c.typeAt place).map (Substitution.apply c.replacements) := by
  rw [typeAt_toDefinition_eq, replacements, funext (Substitution.apply_ofArguments hne)]

/-- There is a placeholder for every argument. -/
theorem length_placeholders_of_arguments {c : ClassType} (h : c.arguments ≠ []) :
    c.placeholders.length = c.arguments.length := by
  rw [length_placeholders, parameterCount, if_neg (by simpa using h)]

theorem map_fst_zip_placeholders (c : ClassType) :
    (c.arguments.zip c.placeholders).map Prod.fst = c.arguments := by
  rcases h : c.arguments with - | ⟨a, as⟩
  · rfl
  · rw [← h, List.map_fst_zip]
    exact (length_placeholders_of_arguments (by simp [h])).ge

/-- The replacements replace every argument once. -/
theorem nodup_replacements {c : ClassType} (h : c.arguments.Nodup) :
    (c.replacements.map Prod.fst).Nodup := by
  rw [replacements, ((Substitution.longestFirst_perm _).map Prod.fst).nodup_iff,
    map_fst_zip_placeholders]
  exact h

theorem mem_replacements_iff {c : ClassType} {a b : String} :
    (a, b) ∈ c.replacements ↔
      ∃ i : Nat, c.arguments[i]? = some a ∧ c.placeholders[i]? = some b := by
  rw [replacements, (Substitution.longestFirst_perm _).mem_iff, List.mem_iff_getElem?]
  simp only [List.getElem?_zip_eq_some]

theorem exists_placeholder {c : ClassType} {i : Nat} {a : String}
    (h : c.arguments[i]? = some a) : ∃ b, c.placeholders[i]? = some b := by
  obtain ⟨hi, -⟩ := List.getElem?_eq_some_iff.mp h
  have hlen := length_placeholders_of_arguments (List.ne_nil_of_length_pos (Nat.zero_lt_of_lt hi))
  exact ⟨_, List.getElem?_eq_getElem (hlen ▸ hi)⟩

/-- An argument becomes its placeholder, rewritten by the replacements behind. -/
theorem apply_replacements {c : ClassType} (hnodup : c.arguments.Nodup)
    (hne : ∀ x ∈ c.arguments, x ≠ "") {i : Nat} {a b : String}
    (ha : c.arguments[i]? = some a) (hb : c.placeholders[i]? = some b) :
    Substitution.apply c.replacements a =
      Substitution.apply (Substitution.behind a c.replacements) b :=
  Substitution.apply_argument (Substitution.longestFirst_descending _) (nodup_replacements hnodup)
    (mem_replacements_iff.mpr ⟨i, ha, hb⟩) (hne a (List.mem_of_getElem? ha))

/-- A placeholder is left alone in which no argument occurs that is replaced behind its own. -/
theorem apply_behind_eq {c : ClassType} (hnodup : c.arguments.Nodup)
    (hne : ∀ x ∈ c.arguments, x ≠ "") {i : Nat} {a b : String}
    (ha : c.arguments[i]? = some a) (hb : c.placeholders[i]? = some b)
    (hout : ∀ (j : Nat) x y, c.arguments[j]? = some x → c.placeholders[j]? = some y →
      x ≠ a → x ≠ y → x.utf8ByteSize ≤ a.utf8ByteSize → ¬ x.toList <:+: b.toList) :
    Substitution.apply (Substitution.behind a c.replacements) b = b := by
  have hbehind : ∀ q ∈ Substitution.behind a c.replacements,
      q ∈ c.replacements ∧ q.1 ≠ a ∧ q.1.utf8ByteSize ≤ a.utf8ByteSize := fun q hq =>
    Substitution.of_mem_behind (Substitution.longestFirst_descending _)
      (nodup_replacements hnodup) (mem_replacements_iff.mpr ⟨i, ha, hb⟩) hq
  -- what stands behind comes from the arguments, so the hypotheses on those apply
  refine Substitution.apply_of_absent (fun q hq => ?_) fun q hq hdiff => ?_
  · obtain ⟨j, hx, -⟩ := mem_replacements_iff.mp (hbehind q hq).1
    exact hne q.1 (List.mem_of_getElem? hx)
  · obtain ⟨hmem, hqa, hsize⟩ := hbehind q hq
    obtain ⟨j, hx, hy⟩ := mem_replacements_iff.mp hmem
    exact hout j q.1 q.2 hx hy hqa hdiff hsize

end ClassType

/-! ### The types of a definition that merging made -/

namespace Generics

/-- **Where an argument stands, the definition has its placeholder, rewritten by the replacements
behind the argument's own.**  So it has the placeholder itself exactly if those leave it alone,
and they do if no other argument that is replaced behind occurs in it. -/
theorem typeAt_merged_argument {types : List Declaration} {n i : Nat} {c e : ClassType}
    {place : TypePlace} {a : String} (hget : types[n]? = some (.classType c))
    (hc : c.isInstance = true) (hrem : remnant? types n = some (.classType e))
    (hnodup : c.arguments.Nodup) (hne : ∀ x ∈ c.arguments, x ≠ "")
    (ha : c.arguments[i]? = some a) (hplace : c.typeAt place = some a) :
    .classType e ∈ (merge types).types ∧ ∃ b, c.placeholders[i]? = some b ∧
      e.typeAt place =
        some (Substitution.apply (Substitution.behind a c.replacements) b) ∧
      (e.typeAt place = some b ↔
        Substitution.apply (Substitution.behind a c.replacements) b = b) ∧
      ((∀ (j : Nat) x y, c.arguments[j]? = some x → c.placeholders[j]? = some y →
        x ≠ a → x ≠ y → x.utf8ByteSize ≤ a.utf8ByteSize → ¬ x.toList <:+: b.toList) →
        e.typeAt place = some b) := by
  obtain ⟨b, hb⟩ := ClassType.exists_placeholder ha
  have hmem : .classType e ∈ (merge types).types := mem_merge_types.mpr ⟨n, hrem⟩
  -- what remains of an instance is its definition
  rw [remnant?_of_instance hget hc] at hrem
  split_ifs at hrem with hclaim
  obtain rfl := Declaration.classType.inj (Option.some.inj hrem)
  have htype : c.toDefinition.typeAt place =
      some (Substitution.apply (Substitution.behind a c.replacements) b) := by
    rw [ClassType.typeAt_toDefinition hne, hplace, Option.map_some,
      ClassType.apply_replacements hnodup hne ha hb]
  have hiff : c.toDefinition.typeAt place = some b ↔
      Substitution.apply (Substitution.behind a c.replacements) b = b := by
    rw [htype, Option.some.injEq]
  refine ⟨hmem, b, hb, htype, hiff, fun hout => hiff.mpr ?_⟩
  exact ClassType.apply_behind_eq hnodup hne ha hb hout

/-- An instance with a field for each of its two arguments. -/
def pair (first second : String) : ClassType where
  header := { name := "Pair`2" }
  arguments := [first, second]
  isConstructed := true
  fields := [{ name := "first", type := first }, { name := "second", type := second }]

/-- An argument that contains another one becomes its own placeholder. -/
theorem typeAt_merged_parts :
    remnant? [.classType (pair "Item" "ItemStack")] 0 =
        some (.classType (pair "Item" "ItemStack").toDefinition) ∧
      (pair "Item" "ItemStack").toDefinition.typeAt (.field 1) = some "T1" := by
  have hget : [Declaration.classType (pair "Item" "ItemStack")][0]? =
      some (.classType (pair "Item" "ItemStack")) := rfl
  have hrem : remnant? [.classType (pair "Item" "ItemStack")] 0 =
      some (.classType (pair "Item" "ItemStack").toDefinition) := by decide
  have ha : (pair "Item" "ItemStack").arguments[1]? = some "ItemStack" := rfl
  have hplace : (pair "Item" "ItemStack").typeAt (.field 1) = some "ItemStack" := rfl
  obtain ⟨-, b, hb, -, -, hplain⟩ := typeAt_merged_argument hget (by decide) hrem (by decide)
    (by decide) ha hplace
  obtain rfl : b = "T1" := by
    have hT1 : (pair "Item" "ItemStack").placeholders[1]? = some "T1" := by decide
    exact Option.some.inj (hb.symm.trans hT1)
  refine ⟨hrem, hplain fun j x y hx _ _ _ _ => ?_⟩
  have hmem : x ∈ ["Item", "ItemStack"] := List.mem_of_getElem? hx
  simp only [List.mem_cons, List.not_mem_nil, or_false] at hmem
  rcases hmem with rfl | rfl <;> decide

/-- Where one argument is named like a placeholder, the placeholder of a longer one is taken for
it: the first field does not have the first placeholder. -/
theorem not_typeAt_merged_like_placeholder :
    (pair "Item" "T").arguments.Nodup ∧ (∀ x ∈ (pair "Item" "T").arguments, x ≠ "") ∧
      (merge [.classType (pair "Item" "T")]).types =
        [.classType (pair "Item" "T").toDefinition] ∧
      (pair "Item" "T").arguments[0]? = some "Item" ∧
      (pair "Item" "T").placeholders[0]? = some "T" ∧
      (pair "Item" "T").typeAt (.field 0) = some "Item" ∧
      (pair "Item" "T").toDefinition.typeAt (.field 0) ≠ some "T" := by decide

end Generics

end LuaTypings
