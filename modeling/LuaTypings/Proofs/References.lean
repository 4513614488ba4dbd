/-
LuaTypings/Proofs/References.lean

What is missing of a catalog.  One mention adds its base name, unless this is exempt, declared
or missing already (`mem_missing_mention`); so what is missing in the end is what some
declaration mentions and none declares (`mem_missing_ofCatalog`), each name once
(`nodup_missing_ofCatalog`).
-/
import LuaTypings.References
import LuaTypings.Proofs.FirstOccurrences
import Mathlib.Data.Finset.Card

namespace LuaTypings.References

/-- What declarations declare and mention. -/
def ofCatalog (types : List Declaration) : References :=
  types.foldl mentionAll (declare {} types)

/-! ### Declared names -/

theorem mem_insertNew {names : List String} {name other : String} :
    other ∈ insertNew names name ↔ other ∈ names ∨ other = name := by
  unfold insertNew
  split_ifs with h
  · constructor
    · exact Or.inl
    · rintro (hmem | rfl)
      · exact hmem
      · exact List.contains_iff_mem.mp h
  · rw [List.mem_append, List.mem_singleton]

theorem mem_foldl_insertNew {names added : List String} {name : String} :
    name ∈ added.foldl insertNew names ↔ name ∈ names ∨ name ∈ added := by
  induction added generalizing names with
  | nil => simp
  | cons a added ih => rw [List.foldl_cons, ih, mem_insertNew, List.mem_cons, or_assoc]

theorem foldl_insertNew_nil (added : List String) :
    added.foldl insertNew [] = added.eraseDups := foldl_addNew added

/-- As many names are kept as there are different ones. -/
theorem length_foldl_insertNew (added : List String) :
    (added.foldl insertNew []).length = added.toFinset.card := by
  rw [foldl_insertNew_nil, ← List.toFinset_card_of_nodup (nodup_eraseDups added)]
  congr 1
  ext name
  rw [List.mem_toFinset, List.mem_toFinset, List.mem_eraseDups]

theorem mem_declared_declare {r : References} {types : List Declaration} {name : String} :
    name ∈ (r.declare types).declared ↔ name ∈ r.declared ∨ ∃ d ∈ types, pathOf d = name := by
  rw [declare, mem_foldl_insertNew, List.mem_map]

/-! ### One mention -/

/-- A display string calls for a declaration of its base name, unless this is exempt. -/
def CallsFor (scope : List String) (display name : String) : Prop :=
  name = baseName display ∧ isExempt scope name = false

instance (scope : List String) (display name : String) : Decidable (CallsFor scope display name) :=
  inferInstanceAs (Decidable (_ ∧ _))

variable {r : References} {scope : List String} {display name : String}

theorem declared_mention (r : References) (scope : List String) (display : String) :
    (r.mention scope display).declared = r.declared := by
  unfold mention
  split_ifs <;> rfl

theorem isNew_iff : r.isNew scope display = true ↔
    isExempt scope (baseName display) = false ∧ baseName display ∉ r.declared ∧
      baseName display ∉ r.missing := by
  simp [isNew, and_assoc]

/-- A mention adds its base name, unless this is exempt or declared. -/
theorem mem_missing_mention :
    name ∈ (r.mention scope display).missing ↔ name ∈ r.missing ∨
      CallsFor scope display name ∧ name ∉ r.declared := by
  unfold mention
  split_ifs with h
  · obtain ⟨hexempt, hdeclared, -⟩ := isNew_iff.mp h
    rw [List.mem_append, List.mem_singleton]
    constructor
    · rintro (hmem | rfl)
      · exact Or.inl hmem
      · exact Or.inr ⟨⟨rfl, hexempt⟩, hdeclared⟩
    · rintro (hmem | ⟨⟨rfl, -⟩, -⟩)
      · exact Or.inl hmem
      · exact Or.inr rfl
  · constructor
    · exact Or.inl
    · rintro (hmem | ⟨⟨rfl, hexempt⟩, hdeclared⟩)
      · exact hmem
      · -- it is not new although it is neither exempt nor declared
        by_contra hmissing
        exact h (isNew_iff.mpr ⟨hexempt, hdeclared, hmissing⟩)

theorem nodup_missing_mention (h : r.missing.Nodup) (scope : List String) (display : String) :
    (r.mention scope display).missing.Nodup := by
  unfold mention
  split_ifs with hnew
  · obtain ⟨-, -, hmissing⟩ := isNew_iff.mp hnew
    refine List.nodup_append.mpr ⟨h, List.nodup_singleton _, ?_⟩
    rintro a ha b hb rfl
    exact hmissing (List.mem_singleton.mp hb ▸ ha)
  · exact h

/-! ### All mentions -/

/-- Every display string of a catalog with the parameters in whose scope it stands. -/
def mentionsOf (types : List Declaration) : List (List String × String) :=
  types.flatMap fun d => d.mentions.map fun display => (d.scope, display)

theorem ofCatalog_eq_foldl (types : List Declaration) :
    ofCatalog types = (mentionsOf types).foldl (fun r m => r.mention m.1 m.2) (declare {} types) := by
  rw [ofCatalog, mentionsOf, List.foldl_flatMap]
  simp only [List.foldl_map]
  rfl

theorem exists_callsFor_iff {types : List Declaration} :
    (∃ m ∈ mentionsOf types, CallsFor m.1 m.2 name) ↔
      ∃ d ∈ types, ∃ display ∈ d.mentions, CallsFor d.scope display name := by
  constructor
  · rintro ⟨m, hm, hcalls⟩
    obtain ⟨d, hd, hmap⟩ := List.mem_flatMap.mp hm
    obtain ⟨display, hdisplay, rfl⟩ := List.mem_map.mp hmap
    exact ⟨d, hd, display, hdisplay, hcalls⟩
  · rintro ⟨d, hd, display, hdisplay, hcalls⟩
    exact ⟨_, List.mem_flatMap.mpr ⟨d, hd, List.mem_map_of_mem hdisplay⟩, hcalls⟩

/-- What is missing after several mentions. -/
theorem mem_missing_foldl {mentions : List (List String × String)} :
    name ∈ (mentions.foldl (fun r m => r.mention m.1 m.2) r).missing ↔ name ∈ r.missing ∨
      (∃ m ∈ mentions, CallsFor m.1 m.2 name) ∧ name ∉ r.declared := by
  induction mentions generalizing r with
  | nil => simp
  | cons m mentions ih =>
    rw [List.foldl_cons, ih, mem_missing_mention, declared_mention, List.exists_mem_cons_iff,
      or_and_right, or_assoc]

theorem nodup_missing_foldl (h : r.missing.Nodup) (mentions : List (List String × String)) :
    (mentions.foldl (fun r m => r.mention m.1 m.2) r).missing.Nodup := by
  induction mentions generalizing r with
  | nil => exact h
  | cons m mentions ih =>
    rw [List.foldl_cons]
    exact ih (nodup_missing_mention h m.1 m.2)

/-- What is missing of a catalog is what a declaration calls for and none declares. -/
theorem mem_missing_ofCatalog {types : List Declaration} :
    name ∈ (ofCatalog types).missing ↔
      (∃ d ∈ types, ∃ display ∈ d.mentions, CallsFor d.scope display name) ∧
        ∀ d ∈ types, pathOf d ≠ name := by
  rw [ofCatalog_eq_foldl, mem_missing_foldl, mem_declared_declare, exists_callsFor_iff]
  simp [declare]

theorem nodup_missing_ofCatalog (types : List Declaration) : (ofCatalog types).missing.Nodup := by
  rw [ofCatalog_eq_foldl]
  exact nodup_missing_foldl List.nodup_nil _

end LuaTypings.References
