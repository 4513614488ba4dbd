/-
LuaTypings/Proofs/Spelling.lean

The annotation of a host type is read as the type that is meant.  `tree` says what is meant: it
follows the host type, and says `orNil` of a type where the spelling looks at a text.

The spelling decides by the text of an annotation whether it admits everything, whether it
admits `nil`, and whether it needs parentheses.  `Spells` is what these tests rely on: the text
is read as the type wherever it stands, it is `any` exactly if the type is, and it ends with
`|nil` exactly if the type is optional.  There is one lemma for each kind of type, and
`spells_type` is the induction over the ways in which a type is spelled (`spelling_induction`).

Main result: `read_type`.
-/
import LuaTypings.Proofs.HostName.Bare
import LuaTypings.Proofs.HostType.Grammar
import LuaTypings.Proofs.LuaType
import LuaTypings.Spelling

namespace LuaTypings

namespace LuaType

/-! ### Optional types -/

/-- Whether a type is the one that admits everything. -/
def isAny : LuaType → Bool
  | .named name [] => name == "any"
  | _ => false

/-- Whether a type has `nil` as its last alternative. -/
def isOptional : LuaType → Bool
  | .union _ (.named name []) => name == "nil"
  | _ => false

/-- Adds the alternative `nil`, unless it is there already or everything is admitted. -/
def orNil (type : LuaType) : LuaType :=
  if type.isAny || type.isOptional then type else .union type (.named "nil" [])

theorem isOptional_of_not_isUnion {type : LuaType} (h : type.isUnion = false) :
    type.isOptional = false := by
  cases type with
  | union left right => cases h
  | named name args => rfl
  | array element => rfl

end LuaType

namespace Spelling

open LuaType (Reads isNameChar)

/-! ### Texts that spell a type -/

/-- A text is read as a type, and shows what the spelling of the types around it looks at. -/
structure Spells (text : String) (type : LuaType) : Prop where
  reads : Reads text.toList type
  any : text = "any" ↔ type.isAny = true
  optional : ['|', 'n', 'i', 'l'] <:+ text.toList ↔ type.isOptional = true
  union : type.isUnion = true → type.isOptional = true

variable {text : String} {type : LuaType}

theorem spells_name (hne : text ≠ "") (h : ∀ c ∈ text.toList, isNameChar c = true) :
    Spells text (.named text []) where
  reads := by
    have hreads := LuaType.reads_name (by simpa using hne) h
    rwa [String.ofList_toList] at hreads
  any := by simp [LuaType.isAny]
  optional := by
    refine iff_of_false (fun hsuffix => ?_) (by simp [LuaType.isOptional])
    exact absurd (h '|' (hsuffix.subset List.mem_cons_self)) (by decide)
  union h := by cases h

/-- A text that ends with a bracket spells neither `any` nor an optional type. -/
theorem spells_of_bracket (hreads : Reads text.toList type) {front : List Char} {c : Char}
    (htext : text.toList = front ++ [c]) (hc : c = ']' ∨ c = '>') (hany : type.isAny = false)
    (hunion : type.isUnion = false) : Spells text type where
  reads := hreads
  any := by
    refine iff_of_false (fun he => ?_) (by simp [hany])
    have hlast := congrArg List.getLast? (htext.symm.trans (congrArg String.toList he))
    rcases hc with rfl | rfl <;> simp at hlast
  optional := by
    refine iff_of_false (fun hsuffix => ?_) (by simp [LuaType.isOptional_of_not_isUnion hunion])
    have hlast := hsuffix.getLast (by decide)
    rcases hc with rfl | rfl <;> simp [htext] at hlast
  union h := by simp [hunion] at h

theorem Spells.orNil (h : Spells text type) : Spells (orNil text) type.orNil := by
  have hsuffix : "|nil".toList.isSuffixOf text.toList = true ↔ type.isOptional = true := by
    rw [List.isSuffixOf_iff_suffix]
    exact h.optional
  unfold Spelling.orNil LuaType.orNil
  by_cases hnil : type.isAny = true ∨ type.isOptional = true
  · rwa [if_pos (hnil.imp h.any.mpr hsuffix.mpr), if_pos (by simpa using hnil)]
  · rw [if_neg (mt (Or.imp h.any.mp hsuffix.mp) hnil), if_neg (by simpa using hnil)]
    -- it is no union, for every union here is optional
    have hunion : type.isUnion = false := by
      by_contra hne
      exact hnil (Or.inr (h.union (by simpa using hne)))
    exact {
      reads := by
        rw [String.toList_append]
        exact h.reads.union hunion (by decide) (List.all_eq_true.mp (by decide))
      any := by
        refine iff_of_false (fun he => ?_) (by simp [LuaType.isAny])
        have hlast := congrArg (List.getLast? ∘ String.toList) he
        simp at hlast
      optional := by
        rw [String.toList_append]
        exact iff_of_true (List.suffix_append ..) rfl
      union := fun _ => rfl }

theorem Spells.array (h : Spells text type) {rank : Nat} (hrank : 1 ≤ rank) :
    Spells (grouped text ++ String.join (List.replicate rank "[]")) (LuaType.array^[rank] type) := by
  have hbrackets : (String.join (List.replicate rank "[]")).toList =
      (List.replicate rank ['[', ']']).flatten := by
    rw [String.toList_join, List.flatMap_replicate]
    rfl
  obtain ⟨n, rfl⟩ : ∃ n, rank = n + 1 := ⟨rank - 1, by omega⟩
  have hlast : (grouped text ++ String.join (List.replicate (n + 1) "[]")).toList =
      ((grouped text).toList ++ (List.replicate n ['[', ']']).flatten ++ ['[']) ++ [']'] := by
    rw [String.toList_append, hbrackets, List.replicate_succ', List.flatten_concat]
    simp
  refine spells_of_bracket ?_ hlast (Or.inl rfl) ?_
    (LuaType.isUnion_iterate_array (Or.inr hrank))
  · rw [String.toList_append, hbrackets]
    unfold grouped
    split_ifs with hbar
    · have hgroup := h.reads.groupBrackets hrank
      simpa using hgroup
    · refine h.reads.brackets ?_ _
      -- a union is optional, so its text has a bar
      by_contra hunion
      have hsuffix := h.optional.mpr (h.union (by simpa using hunion))
      exact hbar (hsuffix.subset List.mem_cons_self)
  · rw [Function.iterate_succ_apply']
    rfl

theorem spells_generic {α : Type} {texts : α → String} {types : α → LuaType} (hne : text ≠ "")
    (hname : ∀ c ∈ text.toList, isNameChar c = true) (x : α) {xs : List α}
    (h : ∀ y ∈ x :: xs, Spells (texts y) (types y)) :
    Spells (text ++ "<" ++ String.intercalate ", " ((x :: xs).map texts) ++ ">")
      (.named text ((x :: xs).map types)) := by
  have htext : (text ++ "<" ++ String.intercalate ", " ((x :: xs).map texts) ++ ">").toList =
      text.toList ++
        '<' :: ([',', ' '].intercalate ((x :: xs).map fun y => (texts y).toList) ++ ['>']) := by
    simp only [String.toList_append, String.toList_intercalate, List.map_map, List.append_assoc]
    rfl
  refine spells_of_bracket ?_ (String.toList_append ..) (Or.inr rfl) rfl rfl
  have hreads := LuaType.reads_generic (by simpa using hne) hname x fun y hy => (h y hy).reads
  rwa [String.ofList_toList, ← htext] at hreads

/-! ### Host types -/

theorem types_eq_map (s : Spelling) (args : List HostType) : s.types args = args.map s.type := by
  induction args with
  | nil => rw [types, List.map_nil]
  | cons arg args ih => rw [types, List.map_cons, ih]

mutual

/-- The type that is meant by the annotation of a host type. -/
def tree (s : Spelling) : HostType → LuaType
  | .named name [] =>
    if s.scope.contains name then .named name []
    else match Builtin.ofHost? name with
      | some b => .named b.spelling []
      | none => .named (s.path name) []
  | .named name [arg] =>
    if isNullableName name then (s.tree arg).orNil
    else .named (s.path name) [s.tree arg]
  | .named name (arg :: args) => .named (s.path name) (s.tree arg :: s.trees args)
  | .array element rank => LuaType.array^[rank] (s.tree element)
  | .nullable inner => (s.tree inner).orNil
  | .pointer _ => .named "any" []

/-- The types that are meant by the annotations of several host types. -/
def trees (s : Spelling) : List HostType → List LuaType
  | [] => []
  | t :: ts => s.tree t :: s.trees ts

end

theorem trees_eq_map (s : Spelling) (args : List HostType) : s.trees args = args.map s.tree := by
  induction args with
  | nil => rw [trees, List.map_nil]
  | cons arg args ih => rw [trees, List.map_cons, ih]

/-- A name with arguments is the nullable one with a single argument, or its arguments stand
behind it. -/
theorem nullable_or_generic (name : String) (args : List HostType) :
    (args = [] ∧ isNullableName name = true) ∨ (args = [] → isNullableName name = false) := by
  by_cases h : isNullableName name = true
  · by_cases hargs : args = []
    · exact Or.inl ⟨hargs, h⟩
    · exact Or.inr fun hnil => absurd hnil hargs
  · exact Or.inr fun _ => by simpa using h

/-- Well-formed host types by the way they are spelled. -/
@[elab_as_elim] theorem spelling_induction {motive : HostType → Prop}
    (simple : ∀ name, HostType.IsName name → motive (.named name []))
    (wrapped : ∀ name arg, isNullableName name = true → motive arg → motive (.named name [arg]))
    (generic : ∀ name arg args, HostType.IsName name → (args = [] → isNullableName name = false) →
      (∀ a ∈ arg :: args, motive a) → motive (.named name (arg :: args)))
    (array : ∀ element rank, 1 ≤ rank → motive element → motive (.array element rank))
    (nullable : ∀ inner, motive inner → motive (.nullable inner))
    (pointer : ∀ target, motive (.pointer target)) {type : HostType} (h : type.WellFormed) :
    motive type := by
  induction h with
  | @named name args hname _ ih =>
    rcases args with - | ⟨arg, args⟩
    · exact simple name hname
    · rcases nullable_or_generic name args with ⟨rfl, hnullable⟩ | hgeneric
      · exact wrapped name arg hnullable (ih arg List.mem_cons_self)
      · exact generic name arg args hname hgeneric ih
  | @array element rank _ hrank ih => exact array element rank hrank ih
  | @nullable inner _ ih => exact nullable inner ih
  | @pointer target _ _ => exact pointer target

theorem type_generic (s : Spelling) {name : String} {arg : HostType} {args : List HostType}
    (h : args = [] → isNullableName name = false) :
    s.type (.named name (arg :: args)) =
      s.path name ++ "<" ++ String.intercalate ", " ((arg :: args).map s.type) ++ ">" := by
  cases args with
  | nil => rw [type, h rfl, if_neg (by decide), List.map_singleton, String.intercalate_singleton]
  | cons next args => simp [type, types_eq_map]

theorem tree_generic (s : Spelling) {name : String} {arg : HostType} {args : List HostType}
    (h : args = [] → isNullableName name = false) :
    s.tree (.named name (arg :: args)) = .named (s.path name) ((arg :: args).map s.tree) := by
  cases args with
  | nil => rw [tree, h rfl, if_neg (by decide), List.map_singleton]
  | cons next args => simp [tree, trees_eq_map]

end Spelling

/-! ### Names -/

/-- All names of a host type show something in a Lua path. -/
inductive HostType.Shown : HostType → Prop
  | named {name args} : HostName.luaPath name ≠ "" → (∀ a ∈ args, Shown a) →
    Shown (.named name args)
  | array {element rank} : Shown element → Shown (.array element rank)
  | nullable {inner} : Shown inner → Shown (.nullable inner)
  | pointer {target} : Shown target → Shown (.pointer target)

theorem HostType.Shown.named_inv {name : String} {args : List HostType}
    (h : HostType.Shown (.named name args)) :
    HostName.luaPath name ≠ "" ∧ ∀ a ∈ args, a.Shown := by
  cases h with
  | named hpath hargs => exact ⟨hpath, hargs⟩

namespace Spelling

open LuaType (isNameChar)

variable {s : Spelling}

/-- A host name without plus signs and arity marks is a name in Lua. -/
theorem isNameChar_of_host {c : Char} (h : HostType.isNameChar c = true) (hplus : c ≠ '+')
    (hmark : c ≠ HostName.arityMark) : isNameChar c = true := by
  simp only [HostType.isNameChar, isNameChar, Bool.or_eq_true, beq_iff_eq] at h ⊢
  tauto

theorem isNameChar_of_mem_luaPath {name : String} (hname : HostType.IsName name) {c : Char}
    (hc : c ∈ (HostName.luaPath name).toList) : isNameChar c = true := by
  rw [HostName.toList_luaPath] at hc
  obtain ⟨d, hd, rfl⟩ := List.mem_map.mp hc
  unfold HostName.dotChar
  split_ifs with hplus
  · decide
  · exact isNameChar_of_host (hname.2 d (HostName.mem_of_mem_bareFrom hd)) hplus
      fun he => HostName.arityMark_not_mem_bareChars name.toList (he ▸ hd)

theorem isNameChar_of_mem_path (hroot : ∀ c ∈ s.root.toList, isNameChar c = true) {name : String}
    (hname : HostType.IsName name) : ∀ c ∈ (s.path name).toList, isNameChar c = true := by
  intro c hc
  rw [path, String.toList_append] at hc
  rcases List.mem_append.mp hc with hc | hc
  · exact hroot c hc
  · exact isNameChar_of_mem_luaPath hname hc

theorem path_ne_empty {name : String} (h : HostName.luaPath name ≠ "") : s.path name ≠ "" := by
  simp [path, h]

theorem spells_builtin (b : Builtin) : Spells b.spelling (.named b.spelling []) :=
  spells_name (by cases b <;> decide) (List.all_eq_true.mp (by cases b <;> decide))

/-- A name without arguments is one name in Lua. -/
theorem spells_simpleName (hroot : ∀ c ∈ s.root.toList, isNameChar c = true)
    (hscope : ∀ p ∈ s.scope, ∀ c ∈ p.toList, isNameChar c = true) {name : String}
    (hname : HostType.IsName name) (hshown : HostName.luaPath name ≠ "") :
    Spells (s.simpleName name) (s.tree (.named name [])) := by
  rw [tree]
  unfold simpleName
  split_ifs with hin
  · exact spells_name (by simpa using hname.1) (hscope name (by simpa using hin))
  · rcases Builtin.ofHost? name with - | b
    · exact spells_name (path_ne_empty hshown) (isNameChar_of_mem_path hroot hname)
    · exact spells_builtin b

/-! ### Annotations -/

/-- The annotation of a host type spells the type that is meant. -/
theorem spells_type (hroot : ∀ c ∈ s.root.toList, isNameChar c = true)
    (hscope : ∀ p ∈ s.scope, ∀ c ∈ p.toList, isNameChar c = true) {type : HostType}
    (h : type.WellFormed) (hshown : type.Shown) : Spells (s.type type) (s.tree type) := by
  revert hshown
  refine spelling_induction ?simple ?wrapped ?generic ?array ?nullable ?pointer h
  case simple =>
    intro name hname hshown
    rw [Spelling.type]
    exact spells_simpleName hroot hscope hname hshown.named_inv.1
  case wrapped =>
    intro name arg hnullable ih hshown
    rw [Spelling.type, tree, if_pos hnullable, if_pos hnullable]
    exact (ih (hshown.named_inv.2 arg List.mem_cons_self)).orNil
  case generic =>
    intro name arg args hname hgeneric ih hshown
    obtain ⟨hpath, hargs⟩ := hshown.named_inv
    rw [type_generic s hgeneric, tree_generic s hgeneric]
    exact spells_generic (path_ne_empty hpath) (isNameChar_of_mem_path hroot hname) arg
      fun a ha => ih a ha (hargs a ha)
  case array =>
    intro element rank hrank ih hshown
    rw [Spelling.type, tree]
    cases hshown with
    | array helement => exact (ih helement).array hrank
  case nullable =>
    intro inner ih hshown
    rw [Spelling.type, tree]
    cases hshown with
    | nullable hinner => exact (ih hinner).orNil
  case pointer =>
    intro target _
    rw [Spelling.type, tree]
    exact spells_name (by decide) (List.all_eq_true.mp (by decide))

/-- **The annotation keeps the structure of the type.**  If the root and the parameters in scope
have name characters only, and the names of a host type are proper and show something, then the
annotation is read as the type that is meant.  An array is read as an array, whatever its elements
are.  The annotation has no plus sign, no question mark and no grave accent. -/
theorem read_type (hroot : ∀ c ∈ s.root.toList, isNameChar c = true)
    (hscope : ∀ p ∈ s.scope, ∀ c ∈ p.toList, isNameChar c = true) {type : HostType}
    (h : type.WellFormed) (hshown : type.Shown) :
    LuaType.read (s.type type) = some (s.tree type) ∧
    (∀ element rank, type = .array element rank →
      ∃ inner, LuaType.read (s.type type) = some (.array inner)) ∧
    ∀ c ∈ (s.type type).toList, c ≠ '+' ∧ c ≠ '?' ∧ c ≠ '\x60' := by
  have hread := (spells_type hroot hscope h hshown).reads.read
  refine ⟨hread, ?_, ?_⟩
  · rintro element rank rfl
    cases h with
    | array _ hrank =>
      obtain ⟨n, rfl⟩ : ∃ n, rank = n + 1 := ⟨rank - 1, by omega⟩
      rw [tree, Function.iterate_succ_apply'] at hread
      exact ⟨_, hread⟩
  · intro c hc
    have hchar := LuaType.isNameChar_or_mem_signs_of_run hread c hc
    refine ⟨?_, ?_, ?_⟩ <;> rintro rfl <;> exact absurd hchar (by decide)

/-- An array of optional dictionaries, whose values are arrays of optional numbers. -/
theorem read_type_nested :
    LuaType.read "(CS.Dictionary<T, (integer|nil)[][]>|nil)[]" =
      some (.array (.union
        (.named "CS.Dictionary" [.named "T" [],
          .array (.array (.union (.named "integer" []) (.named "nil" [])))])
        (.named "nil" []))) := by
  have hint : HostType.WellFormed (.named "Nullable" [.named "int" []]) :=
    .named (by decide) (by simpa using .named (by decide) (by simp))
  have hwf : HostType.WellFormed (.named "Dictionary\x602"
      [.named "T" [], .array (.named "Nullable" [.named "int" []]) 2]) :=
    .named (by decide) (by simpa using ⟨.named (by decide) (by simp), .array hint (by decide)⟩)
  have hintShown : HostType.Shown (.named "Nullable" [.named "int" []]) :=
    .named (by decide) (by simpa using .named (by decide) (by simp))
  have hshown : HostType.Shown (.named "Dictionary\x602"
      [.named "T" [], .array (.named "Nullable" [.named "int" []]) 2]) :=
    .named (by decide) (by simpa using ⟨.named (by decide) (by simp), .array hintShown⟩)
  exact (read_type (s := ⟨"CS.", ["T"]⟩) (List.all_eq_true.mp (by decide))
    (List.forall_mem_singleton.mpr (List.all_eq_true.mp (by decide)))
    (.array (.nullable hwf) le_rfl) (.array (.nullable hshown))).1

end Spelling

end LuaTypings
