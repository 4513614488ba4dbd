/-
LuaTypings/Proofs/ArgumentNames.lean

When the arguments of a method have different names.  A keyword gets an underscore, and an unnamed
parameter is called for its position.  These names are never keywords
(`identifier_not_mem_keywords`), and they are different among themselves, but nothing keeps them
apart from the names that other parameters have already.

Main result: `nodup_argumentNames_iff`.
-/
import LuaTypings.Proofs.Signatures
import Mathlib.Data.List.Nodup

namespace LuaTypings

namespace Annotations

/-! ### Names and keywords -/

theorem identifier_of_keyword {name : String} (h : name ∈ keywords) : identifier name = name ++ "_" :=
  if_pos (List.contains_iff_mem.mpr h)

theorem identifier_of_not_keyword {name : String} (h : name ∉ keywords) : identifier name = name :=
  if_neg fun hmem => h (List.contains_iff_mem.mp hmem)

theorem ne_empty_of_mem_keywords {name : String} (h : name ∈ keywords) : name ≠ "" := by
  rintro rfl
  exact absurd h (by decide)

/-- No keyword ends with an underscore. -/
theorem underscore_not_mem_keywords (name : String) : name ++ "_" ∉ keywords := by
  have hall : ∀ k ∈ keywords, k.toList.getLast? ≠ some '_' := by decide +kernel
  exact fun hmem => hall _ hmem (by simp)

theorem identifier_not_mem_keywords (name : String) : identifier name ∉ keywords := by
  by_cases h : name ∈ keywords
  · rw [identifier_of_keyword h]
    exact underscore_not_mem_keywords name
  · rwa [identifier_of_not_keyword h]

/-- The name of an unnamed parameter. -/
def positionName (index : Nat) : String := "arg" ++ toString index

theorem positionName_injective {i j : Nat} (h : positionName i = positionName j) : i = j := by
  rw [positionName, positionName, String.append_right_inj] at h
  exact Text.eq_of_toString_eq h

theorem positionName_not_mem_keywords (index : Nat) : positionName index ∉ keywords := by
  have hall : ∀ k ∈ keywords, ¬ "arg".toList <+: k.toList := by decide +kernel
  exact fun hmem => hall _ hmem ⟨(toString index).toList, by simp [positionName]⟩

/-- The name of a position has no underscore. -/
theorem positionName_ne_underscore (index : Nat) (name : String) :
    positionName index ≠ name ++ "_" := by
  intro h
  have hmem : '_' ∈ (positionName index).toList := by
    rw [h]
    simp
  have hdigits : '_' ∉ Nat.toDigits 10 index := fun hdigit =>
    absurd (Nat.isDigit_of_mem_toDigits (by decide) (by decide) hdigit) (by decide)
  simp [positionName, hdigits] at hmem

theorem positionName_ne_empty (index : Nat) : positionName index ≠ "" := by
  simp [positionName]

theorem parameterName_of_unnamed {p : Parameter} (h : p.name = "") (index : Nat) :
    parameterName index p = positionName index := by
  rw [parameterName, if_pos (by simp [h])]
  rfl

theorem parameterName_of_named {p : Parameter} (h : p.name ≠ "") (index : Nat) :
    parameterName index p = identifier p.name := if_neg (by simpa using h)

theorem parameterName_not_mem_keywords (index : Nat) (p : Parameter) :
    parameterName index p ∉ keywords := by
  by_cases h : p.name = ""
  · rw [parameterName_of_unnamed h]
    exact positionName_not_mem_keywords index
  · rw [parameterName_of_named h]
    exact identifier_not_mem_keywords p.name

/-- A parameter is called for its position, gets an underscore or keeps its name. -/
theorem parameterName_cases (index : Nat) (p : Parameter) :
    p.name = "" ∧ parameterName index p = positionName index ∨
    p.name ∈ keywords ∧ parameterName index p = p.name ++ "_" ∨
    p.name ≠ "" ∧ parameterName index p = p.name := by
  by_cases hname : p.name = ""
  · exact .inl ⟨hname, parameterName_of_unnamed hname index⟩
  rw [parameterName_of_named hname]
  by_cases hkeyword : p.name ∈ keywords
  · exact .inr (.inl ⟨hkeyword, identifier_of_keyword hkeyword⟩)
  · exact .inr (.inr ⟨hname, identifier_of_not_keyword hkeyword⟩)

/-! ### Different parameters -/

variable {params : List Parameter}

theorem nodup_inputs (params : List Parameter) : (inputs params).Nodup := by
  have hpositions : (params.zipIdx.map Prod.snd).Nodup := by
    rw [List.zipIdx_map_snd]
    exact List.nodup_range'
  exact (List.Nodup.of_map _ hpositions).filter _

theorem mem_inputs_iff {p : Parameter × Nat} :
    p ∈ inputs params ↔ params[p.2]? = some p.1 ∧ p.1.isOutput = false := by
  rw [inputs, List.mem_filter, List.mem_zipIdx_iff_getElem?, Bool.not_eq_true']

/-- A position has one parameter. -/
theorem eq_of_position_eq {p q : Parameter × Nat} (hp : p ∈ inputs params) (hq : q ∈ inputs params)
    (h : p.2 = q.2) : p = q := by
  have hparameter := (mem_inputs_iff.mp hp).1
  rw [h, (mem_inputs_iff.mp hq).1] at hparameter
  exact Prod.ext (Option.some.inj hparameter).symm h

/-- The names that parameters have are different; any number of them may have none. -/
def HasDistinctNames (params : List Parameter) : Prop :=
  ((params.map Parameter.name).filter (· ≠ "")).Nodup

instance (params : List Parameter) : Decidable (HasDistinctNames params) :=
  inferInstanceAs (Decidable (List.Nodup _))

/-- Where names are different, a name tells which parameter is meant. -/
theorem HasDistinctNames.eq_of_name_eq (h : HasDistinctNames params) {p q : Parameter × Nat}
    (hp : p ∈ inputs params) (hq : q ∈ inputs params) (hname : p.1.name ≠ "")
    (heq : p.1.name = q.1.name) : p = q := by
  have hnodup : (((inputs params).filter fun p => p.1.name ≠ "").map fun p => p.1.name).Nodup := by
    have hsublist : List.Sublist
        (((params.filter fun p => !p.isOutput).map Parameter.name).filter (· ≠ ""))
        ((params.map Parameter.name).filter (· ≠ "")) := (List.filter_sublist.map _).filter _
    have hpassed := hsublist.nodup h
    rw [← map_fst_inputs, List.map_map, List.filter_map] at hpassed
    exact hpassed
  have hmem {x : Parameter × Nat} (hx : x ∈ inputs params) (hx' : x.1.name ≠ "") :
      x ∈ (inputs params).filter fun p => p.1.name ≠ "" :=
    List.mem_filter.mpr ⟨hx, by simpa using hx'⟩
  exact List.inj_on_of_nodup_map hnodup (hmem hp hname) (hmem hq (heq ▸ hname)) heq

/-- A parameter has the name that another one is given: the keyword of the other one with its
underscore, or the name of its position. -/
def HasGivenName (q : Parameter) (p : Parameter × Nat) : Prop :=
  p.1.name ∈ keywords ∧ q.name = p.1.name ++ "_" ∨ p.1.name = "" ∧ q.name = positionName p.2

instance (q : Parameter) (p : Parameter × Nat) : Decidable (HasGivenName q p) :=
  inferInstanceAs (Decidable (_ ∨ _))

theorem parameterName_of_hasGivenName {p q : Parameter × Nat} (h : HasGivenName q.1 p) :
    parameterName q.2 q.1 = parameterName p.2 p.1 ∧ p.1.name ≠ q.1.name := by
  rcases h with ⟨hkeyword, hname⟩ | ⟨hname, hposition⟩
  · have hq : q.1.name ≠ "" := by simp [hname]
    rw [parameterName_of_named hq, parameterName_of_named (ne_empty_of_mem_keywords hkeyword), hname,
      identifier_of_not_keyword (underscore_not_mem_keywords p.1.name),
      identifier_of_keyword hkeyword]
    exact ⟨rfl, fun heq => underscore_not_mem_keywords p.1.name (heq ▸ hkeyword)⟩
  · have hq : q.1.name ≠ "" := hposition ▸ positionName_ne_empty p.2
    rw [parameterName_of_named hq, parameterName_of_unnamed hname, hposition,
      identifier_of_not_keyword (positionName_not_mem_keywords p.2)]
    exact ⟨rfl, hname ▸ (positionName_ne_empty p.2).symm⟩

/-- Different parameters of one name are a keyword and its name with an underscore, or an unnamed
parameter and the name of its position. -/
theorem HasDistinctNames.cases_of_parameterName_eq (h : HasDistinctNames params)
    {p q : Parameter × Nat} (hp : p ∈ inputs params) (hq : q ∈ inputs params)
    (heq : parameterName p.2 p.1 = parameterName q.2 q.1) :
    p = q ∨ HasGivenName q.1 p ∨ HasGivenName p.1 q := by
  rcases parameterName_cases p.2 p.1 with ⟨hempty, hp'⟩ | ⟨hkeyword, hp'⟩ | ⟨hnamed, hp'⟩
  · -- one that is called for its position meets the like, or a name that is there already
    rcases parameterName_cases q.2 q.1 with ⟨-, hq'⟩ | ⟨-, hq'⟩ | ⟨-, hq'⟩ <;> rw [hp', hq'] at heq
    · exact .inl (eq_of_position_eq hp hq (positionName_injective heq))
    · exact absurd heq (positionName_ne_underscore p.2 q.1.name)
    · exact .inr (.inl (.inr ⟨hempty, heq.symm⟩))
  · -- so does a keyword
    rcases parameterName_cases q.2 q.1 with ⟨-, hq'⟩ | ⟨-, hq'⟩ | ⟨-, hq'⟩ <;> rw [hp', hq'] at heq
    · exact absurd heq.symm (positionName_ne_underscore q.2 p.1.name)
    · exact .inl (h.eq_of_name_eq hp hq (ne_empty_of_mem_keywords hkeyword)
        ((String.append_left_inj "_").mp heq))
    · exact .inr (.inl (.inl ⟨hkeyword, heq.symm⟩))
  · rcases parameterName_cases q.2 q.1 with ⟨hempty, hq'⟩ | ⟨hkeyword, hq'⟩ | ⟨-, hq'⟩ <;>
      rw [hp', hq'] at heq
    · exact .inr (.inr (.inr ⟨hempty, heq⟩))
    · exact .inr (.inr (.inl ⟨hkeyword, heq⟩))
    · exact .inl (h.eq_of_name_eq hp hq hnamed heq)

/-- **When arguments have different names.**  If the names that the parameters have are different,
those of the arguments are exactly if no parameter that is passed has the name that another one is
given.  The arguments are those of the tags and of the function. -/
theorem nodup_argumentNames_iff {m : Method} (h : HasDistinctNames m.parameters) :
    ((argumentNames m.parameters).Nodup ↔
      ∀ p ∈ inputs m.parameters, ∀ q ∈ inputs m.parameters, ¬ HasGivenName q.1 p) ∧
    ∀ s owner lines, method s owner m = .ok lines →
      ∃ (args : List Argument) (results : List String),
        args.map Argument.name = argumentNames m.parameters ∧
        lines = docLines m.doc ++ args.map Argument.tag ++ resultTag results ++
          ["function " ++ owner ++ (if m.isStatic then "." else ":") ++ identifier m.name ++ "("
            ++ String.intercalate ", " (argumentNames m.parameters) ++ ") end"] := by
  refine ⟨?_, fun s owner lines => method_eq_ok⟩
  rw [argumentNames, List.nodup_map_iff_inj_on (nodup_inputs _)]
  constructor
  · intro hinj p hp q hq hgiven
    obtain ⟨hsame, hother⟩ := parameterName_of_hasGivenName hgiven
    exact hother (congrArg (fun x => x.1.name) (hinj q hq p hp hsame)).symm
  · intro hnone p hp q hq heq
    rcases h.cases_of_parameterName_eq hp hq heq with hpq | hgiven | hgiven
    · exact hpq
    · exact absurd hgiven (hnone p hp q hq)
    · exact absurd hgiven (hnone q hq p hp)

/-- Two unnamed parameters, a keyword, and a result between them. -/
def fill : Method :=
  { name := "Fill", returnType := "void"
    parameters := [{ name := "", type := "int" }, { name := "end", type := "int" },
      { name := "end_", type := "int", passing := .output }, { name := "", type := "string" }] }

/-- The result that has the name of the escaped keyword is no argument. -/
theorem nodup_argumentNames_fill :
    HasDistinctNames fill.parameters ∧ (argumentNames fill.parameters).Nodup ∧
      argumentNames fill.parameters = ["arg0", "end_", "arg3"] := by
  have hdistinct : HasDistinctNames fill.parameters := by decide +kernel
  exact ⟨hdistinct, (nodup_argumentNames_iff hdistinct).1.mpr (by decide +kernel),
    by decide +kernel⟩

/-- A method of two parameters that are named. -/
def setter (first second : String) : Method :=
  { name := "Set", returnType := "void"
    parameters := [{ name := first, type := "int" }, { name := second, type := "int" }] }

/-- A keyword meets the name with an underscore, and an unnamed parameter meets the name of its
position. -/
theorem not_nodup_argumentNames_setter :
    HasDistinctNames (setter "end" "end_").parameters ∧
      ¬ (argumentNames (setter "end" "end_").parameters).Nodup ∧
      method ⟨"CS.", []⟩ "M" (setter "end" "end_") = .ok
        ["---@param end_ integer", "---@param end_ integer", "function M:Set(end_, end_) end"] ∧
    HasDistinctNames (setter "" "arg0").parameters ∧
      ¬ (argumentNames (setter "" "arg0").parameters).Nodup ∧
      method ⟨"CS.", []⟩ "M" (setter "" "arg0") = .ok
        ["---@param arg0 integer", "---@param arg0 integer", "function M:Set(arg0, arg0) end"] := by
  decide +kernel

end Annotations

end LuaTypings
