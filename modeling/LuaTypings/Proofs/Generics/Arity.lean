/-
LuaTypings/Proofs/Generics/Arity.lean

How many parameters a display string tells.  It has a comma behind each argument but the last, and
`HostName.arity?` counts the commas that stand inside of a single angle bracket, but knows nothing of
square brackets.  So the commas of arrays of several dimensions that are arguments themselves
(`HostType.shownCommas`) are taken for further arguments.  Anything deeper stands inside of further angle
brackets and does not matter: the display string of a type shows its own commas and no others
(`WellFormed.showsCommas_spell`).

Main result: `arity_eq_length_iff`.
-/
import LuaTypings.Generics
import LuaTypings.Proofs.HostName.Commas
import LuaTypings.Proofs.HostType.Grammar
import Mathlib.Algebra.Order.BigOperators.Group.List
import Mathlib.Algebra.Order.Ring.Nat

namespace LuaTypings

namespace HostType

open HostName (ShowsCommas isDelimiter)

variable {type : HostType} {display : String}

/-! ### Commas of display strings -/

/-- The commas that the display string of a type has outside of its argument lists: those of its
arrays of several dimensions. -/
def shownCommas : HostType → Nat
  | .named _ _ => 0
  | .array element rank => element.shownCommas + (rank - 1)
  | .nullable inner => inner.shownCommas
  | .pointer target => target.shownCommas

/-- Names and blanks hold no delimiter. -/
theorem not_isDelimiter {c : Char} (h : isNameChar c = true ∨ Text.isBlank c = true) :
    isDelimiter c = false := by
  by_contra hc
  simp only [isDelimiter, Bool.not_eq_false, Bool.or_eq_true, beq_iff_eq] at hc
  rcases hc with (rfl | rfl) | rfl
  · exact absurd h (by decide)
  · exact absurd h (by decide)
  · exact absurd h (by decide)

/-- What stands between the brackets of an argument list. -/
def spellArguments (first : HostType) (others : List HostType) : List Char :=
  first.spell ++ others.flatMap fun a => ',' :: ' ' :: a.spell

theorem spell_generic (name : String) (first : HostType) (others : List HostType) :
    (HostType.named name (first :: others)).spell =
      name.toList ++ '<' :: (spellArguments first others ++ ['>']) := by
  have hrest (others : List HostType) :
      spellRest others = (others.flatMap fun a => ',' :: ' ' :: a.spell) ++ ['>'] := by
    induction others with
    | nil => rfl
    | cons a others ih => rw [spellRest, ih, List.flatMap_cons]; simp
  rw [spell, hrest, spellArguments, List.append_assoc]

/-- Arguments show the commas between them and their own. -/
theorem showsCommas_spellArguments {first : HostType} {others : List HostType}
    (h : ∀ a ∈ first :: others, ShowsCommas a.shownCommas a.spell) :
    ShowsCommas (others.length + ((first :: others).map shownCommas).sum)
      (spellArguments first others) := by
  have hlist (others : List HostType) (h : ∀ a ∈ others, ShowsCommas a.shownCommas a.spell) :
      ShowsCommas (others.length + (others.map shownCommas).sum)
        (others.flatMap fun a => ',' :: ' ' :: a.spell) := by
    induction others with
    | nil => exact HostName.showsCommas_of_plain (List.forall_mem_nil _)
    | cons a others ih =>
      obtain ⟨ha, hothers⟩ := List.forall_mem_cons.mp h
      have hspace : ShowsCommas 0 [' '] := HostName.showsCommas_plain (by decide)
      have hcount : (a :: others).length + ((a :: others).map shownCommas).sum =
          1 + (0 + a.shownCommas) + (others.length + (others.map shownCommas).sum) := by
        rw [List.length_cons, List.map_cons, List.sum_cons]
        omega
      rw [hcount, List.flatMap_cons]
      -- a comma and a blank stand in front of each further argument
      exact (HostName.showsCommas_comma.append (hspace.append ha)).append (ih hothers)
  obtain ⟨hfirst, hothers⟩ := List.forall_mem_cons.mp h
  rw [List.map_cons, List.sum_cons, Nat.add_left_comm]
  exact hfirst.append (hlist others hothers)

/-- The display string of a type closes its brackets and shows the commas of its arrays. -/
theorem WellFormed.showsCommas_spell (h : WellFormed type) :
    ShowsCommas type.shownCommas type.spell := by
  induction h with
  | @named name args hname _ ih =>
    have hplain : ShowsCommas 0 name.toList :=
      HostName.showsCommas_of_plain fun c hc => not_isDelimiter (.inl (hname.2 c hc))
    cases args with
    | nil => rwa [spell, shownCommas]
    | cons first others =>
      rw [spell_generic, shownCommas]
      exact hplain.append (showsCommas_spellArguments ih).enclose
  | @array element rank _ _ ih =>
    have hopen : ShowsCommas 0 ['['] := HostName.showsCommas_plain (by decide)
    have hclose : ShowsCommas 0 [']'] := HostName.showsCommas_plain (by decide)
    have hcommas : ShowsCommas (rank - 1) (List.replicate (rank - 1) ',' ++ [']']) :=
      (HostName.showsCommas_replicate (rank - 1)).append hclose
    have hbrackets := hopen.append hcommas
    rw [Nat.zero_add] at hbrackets
    rw [spell, shownCommas]
    exact ih.append hbrackets
  | nullable _ ih =>
    rw [spell, shownCommas]
    exact ih.append (HostName.showsCommas_plain (by decide))
  | pointer _ ih =>
    rw [spell, shownCommas]
    exact ih.append (HostName.showsCommas_plain (by decide))

/-- Blanks and passing words are plain. -/
theorem not_isDelimiter_of_isPassing {words : List (List Char)} {front : List Char}
    (hwords : ∀ word ∈ words, word ∈ passingWords) (h : IsPassing words front) :
    ∀ c ∈ front, isDelimiter c = false := by
  induction words generalizing front with
  | nil => exact fun c hc => not_isDelimiter (.inr (h c hc))
  | cons word words ih =>
    obtain ⟨hword, hothers⟩ := List.forall_mem_cons.mp hwords
    obtain ⟨gap, rest, rfl, hgap, hrest⟩ := h
    obtain ⟨name, rfl, -, hname⟩ := exists_name_of_passingWord hword
    intro c hc
    simp only [List.mem_append, List.mem_singleton] at hc
    rcases hc with (hc | hc | rfl) | hc
    · exact not_isDelimiter (.inr (hgap c hc))
    · exact not_isDelimiter (.inl (hname c hc))
    · decide
    · exact ih hothers hrest c hc

/-- Blanks, passing words and ampersands do not count, so a text has the delimiters of the display
string of its type. -/
theorem delimiters_of_parse (h : parse display = .ok type) :
    display.toList.filter isDelimiter = type.spell.filter isDelimiter := by
  obtain ⟨-, ⟨words, front, hwords, hfront, hcut⟩, htext⟩ := parse_accepts.2 display type h
  have hdense (cs : List Char) : (Text.dense cs).filter isDelimiter = cs.filter isDelimiter := by
    rw [Text.dense, List.filter_filter]
    refine List.filter_congr fun c _ => ?_
    by_cases hc : Text.isBlank c = true
    · simp [not_isDelimiter (.inr hc)]
    · simp [hc]
  have hstarred (cs : List Char) :
      (cs.map starredChar).filter isDelimiter = cs.filter isDelimiter := by
    induction cs with
    | nil => rfl
    | cons c cs ih =>
      by_cases hc : c = '&'
      · subst hc
        exact ih
      · rw [List.map_cons, starredChar, if_neg hc, List.filter_cons, List.filter_cons, ih]
  have hnone : front.filter isDelimiter = [] := by
    refine List.filter_eq_nil_iff.mpr fun c hc => ?_
    simp [not_isDelimiter_of_isPassing hwords.subset hfront c hc]
  -- the front has passing words and blanks only, and what is read as stars was no delimiter
  calc display.toList.filter isDelimiter
      = (typeText display).filter isDelimiter := by
        rw [hcut, List.filter_append, hnone, List.nil_append]
    _ = ((Text.dense (typeText display)).map starredChar).filter isDelimiter := by
        rw [hstarred, hdense]
    _ = type.spell.filter isDelimiter := by rw [htext, hdense]

/-- A display string with arguments tells their number and what their arrays add to it. -/
theorem arity?_of_parse {name : String} {args : List HostType}
    (hmark : HostName.arityMark ∉ display.toList) (h : parse display = .ok (.named name args))
    (hargs : args ≠ []) :
    HostName.arity? display = some (args.length + (args.map shownCommas).sum) := by
  obtain ⟨first, others, rfl⟩ := List.exists_cons_of_ne_nil hargs
  obtain ⟨hname, hall⟩ : IsName name ∧ ∀ a ∈ first :: others, WellFormed a := by
    cases (parse_eq_ok_iff.mp h).1 with
    | named hname hall => exact ⟨hname, hall⟩
  have hspell := spell_generic name first others
  have hopen : '<' ∈ (HostType.named name (first :: others)).spell.filter isDelimiter := by
    refine List.mem_filter.mpr ⟨?_, by decide⟩
    rw [hspell]
    simp
  have hplain : ∀ c ∈ name.toList, isDelimiter c = false := fun c hc =>
    not_isDelimiter (.inl (hname.2 c hc))
  have hlist := showsCommas_spellArguments fun a ha => (hall a ha).showsCommas_spell
  -- the count starts with one, for the argument that no comma follows
  rw [HostName.arity?_of_no_mark hmark, delimiters_of_parse h, if_pos hopen,
    HostName.countCommas_filter, hspell, HostName.countCommas_append_of_plain hplain,
    hlist.countCommas_enclose, List.length_cons, ← Nat.add_assoc, Nat.add_comm 1]

end HostType

/-! ### Placeholders -/

namespace Generics

open HostType (parse shownCommas)

/-- **What a display string tells of the number of parameters.**  The number that the name of a generic
type tells is that of its arguments exactly if no argument is an array of several dimensions, as it
is or behind suffixes; in general each further dimension of an argument counts as one parameter more.
An instance with this name and without a list of arguments gets as many placeholders. -/
theorem arity_eq_length_iff {display name : String} {args : List HostType}
    (hmark : HostName.arityMark ∉ display.toList) (h : parse display = .ok (.named name args))
    (hargs : args ≠ []) :
    HostName.arity? display = some (args.length + (args.map shownCommas).sum) ∧
    (HostName.arity? display = some args.length ↔ ∀ a ∈ args, a.shownCommas = 0) ∧
    ∀ c : ClassType, c.header.name = display → c.arguments = [] →
      c.placeholders.length = args.length + (args.map shownCommas).sum ∧
      (c.placeholders.length = args.length ↔ ∀ a ∈ args, a.shownCommas = 0) := by
  have harity := HostType.arity?_of_parse hmark h hargs
  have hsum : args.length + (args.map shownCommas).sum = args.length ↔
      ∀ a ∈ args, a.shownCommas = 0 := by
    rw [Nat.add_eq_left, List.sum_eq_zero_iff, List.forall_mem_map]
  refine ⟨harity, by rw [harity, Option.some.injEq, hsum], ?_⟩
  intro c hname hnone
  have hlength : c.placeholders.length = args.length + (args.map shownCommas).sum := by
    rw [ClassType.length_placeholders, ClassType.parameterCount, if_pos (by simp [hnone]), hname,
      harity, Option.getD_some]
  exact ⟨hlength, by rw [hlength, hsum]⟩

/-- A generic type with an array of arrays, and with a matrix deeper in its arguments. -/
def nestedMatrix : String := "Func<int[][], Dictionary <string, int[,]>?>"

/-- Dimensions do not count in the arguments of an argument. -/
theorem arity_nestedMatrix : HostName.arity? nestedMatrix = some 2 := by
  have hparse : parse nestedMatrix = .ok (.named "Func"
      [.array (.array (.named "int" []) 1) 1,
        .nullable (.named "Dictionary" [.named "string" [], .array (.named "int" []) 2])]) := rfl
  exact (arity_eq_length_iff (by decide) hparse (by decide)).2.1.mpr (by simp [shownCommas])

/-- An instance that has its argument in its name only. -/
def matrixList : ClassType := { header := { name := "List<int[,]>" }, isConstructed := true }

/-- The comma of a matrix counts as one between arguments, and the one argument gets two
placeholders. -/
theorem not_arity_eq_length_matrixList :
    HostName.arityMark ∉ matrixList.header.name.toList ∧
      parse matrixList.header.name = .ok (.named "List" [.array (.named "int" []) 2]) ∧
      HostName.arity? matrixList.header.name ≠ some 1 ∧ matrixList.placeholders = ["T", "T1"] :=
  ⟨by decide, rfl, by decide, by decide⟩

end Generics

end LuaTypings
