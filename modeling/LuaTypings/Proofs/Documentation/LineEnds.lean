/-
LuaTypings/Proofs/Documentation/LineEnds.lean

Where documentation leaves its comment.  To Lua a line ends at a line feed or at a carriage return,
and a return with a feed behind it is one end; `physicalLines` are the lines in this sense.
Documentation is cut at its line feeds only, and each line is trimmed and gets its hyphens.  So a
carriage return inside of a line stays where it is (`physicalLines_append`), and what stands behind
it is a line that has no hyphens but its own (`forall_pieces_docLine_iff`).

Main result: `isCommentText_docLines_iff`.
-/
import LuaTypings.Proofs.Documentation
import Mathlib.Data.List.Infix

namespace LuaTypings

namespace Text

/-! ### Lines as Lua ends them -/

/-- The lines of a text that line feeds and carriage returns end.  A return with a feed behind it
is passed over, since the feed ends the line. -/
def physicalLines : List Char → List (List Char)
  | [] => []
  | c :: cs =>
    if c = '\r' ∧ cs.head? = some '\n' then physicalLines cs
    else if c = '\n' ∨ c = '\r' then [] :: physicalLines cs
    else match physicalLines cs with
      | [] => [[c]]
      | l :: ls => (c :: l) :: ls

example : physicalLines "a\r\nb\rc\n\nd".toList =
    ["a".toList, "b".toList, "c".toList, [], "d".toList] := by decide

/-- In front of a line feed, carriage returns cut a line in pieces. -/
theorem physicalLines_append {line : List Char} (hfeed : '\n' ∉ line)
    (hlast : line.getLast? ≠ some '\r') (rest : List Char) :
    physicalLines (line ++ '\n' :: rest) = pieces '\r' line ++ physicalLines rest := by
  induction line with
  | nil => rfl
  | cons c cs ih =>
    obtain ⟨hc, hcs⟩ := not_or.mp (mt List.mem_cons.mpr hfeed)
    have hcslast : cs.getLast? ≠ some '\r' := by
      cases cs with
      | nil => simp
      | cons d ds => rwa [List.getLast?_cons_cons] at hlast
    have hnext : ¬ (c = '\r' ∧ (cs ++ '\n' :: rest).head? = some '\n') := by
      rintro ⟨rfl, hhead⟩
      cases cs with
      | nil => exact hlast rfl
      | cons d ds =>
        rw [Option.some.inj hhead] at hcs
        exact hcs List.mem_cons_self
    rw [List.cons_append, physicalLines, if_neg hnext, ih hcs hcslast, pieces]
    by_cases hreturn : c = '\r'
    · rw [if_pos (Or.inr hreturn), if_pos hreturn, List.cons_append]
    · rw [if_neg (by tauto), if_neg hreturn]
      rcases hpieces : pieces '\r' cs with - | ⟨p, ps⟩
      · exact absurd hpieces (pieces_ne_nil '\r' cs)
      · rfl

/-! ### Lines of a text -/

theorem infix_of_mem_linesFrom {line cs : List Char} :
    ∀ l ∈ linesFrom line cs, l <:+: line.reverse ++ cs := by
  induction cs generalizing line with
  | nil =>
    rw [linesFrom]
    split_ifs
    · exact List.forall_mem_nil _
    · simp
  | cons c cs ih =>
    rw [linesFrom]
    split_ifs
    · refine List.forall_mem_cons.mpr ⟨?_, fun l hl => ?_⟩
      · -- the line in front of the feed, with or without its return
        have hreturn : dropReturn line <:+ line := by
          unfold dropReturn
          split
          · exact List.suffix_cons _ _
          · exact List.suffix_refl _
        exact ((List.reverse_prefix.mpr hreturn).trans (List.prefix_append _ _)).isInfix
      · exact (ih l hl).trans ((List.suffix_cons c cs).trans (List.suffix_append _ _)).isInfix
    · intro l hl
      simpa using ih l hl

theorem infix_of_mem_lines {cs : List Char} {l : List Char} (h : l ∈ lines cs) : l <:+: cs :=
  infix_of_mem_linesFrom l h

theorem trim_isInfix (cs : List Char) : trim cs <:+: cs :=
  (trimEnd_isPrefix _).isInfix.trans (List.dropWhile_suffix _).isInfix

/-- A trimmed text does not end with a blank. -/
theorem not_isBlank_of_trim {cs : List Char} {c : Char} (h : (trim cs).getLast? = some c) :
    isBlank c = false := by
  obtain ⟨hne, rfl⟩ := List.mem_getLast?_eq_getLast h
  exact (Bool.not_eq_true _).mp (List.rdropWhile_last_not isBlank (trimStart cs) hne)

end Text

namespace Annotations

open Text (physicalLines pieces)

/-! ### Comments -/

/-- Whether all of a text is comment to Lua. -/
def IsCommentText (text : String) : Prop :=
  ∀ line ∈ physicalLines text.toList, isComment line = true

instance (text : String) : Decidable (IsCommentText text) := List.decidableBAll _ _

theorem isComment_takeWhile (cs : List Char) :
    isComment (cs.takeWhile (· != '\r')) = isComment cs := by
  rw [Bool.eq_iff_iff, isComment, List.isPrefixOf_iff_prefix, isComment, List.isPrefixOf_iff_prefix]
  constructor
  · exact fun h => h.trans (List.takeWhile_prefix _)
  · rintro ⟨back, rfl⟩
    rw [List.takeWhile_append_of_pos (List.all_eq_true.mp (by decide))]
    exact List.prefix_append _ _

/-- Carriage returns cut a comment into comments if each has a comment behind it. -/
theorem forall_pieces_iff {cs : List Char} (h : isComment cs = true) :
    (∀ piece ∈ pieces '\r' cs, isComment piece = true) ↔
      ∀ back, '\r' :: back <:+ cs → isComment back = true := by
  rw [Text.pieces_eq_cons, List.forall_mem_cons, isComment_takeWhile]
  constructor
  · rintro ⟨-, htail⟩ back hback
    rw [← isComment_takeWhile]
    exact htail _ (Text.mem_tail_pieces_iff.mpr ⟨back, hback, rfl⟩)
  · refine fun hall => ⟨h, fun piece hpiece => ?_⟩
    obtain ⟨back, hback, rfl⟩ := Text.mem_tail_pieces_iff.mp hpiece
    rw [isComment_takeWhile]
    exact hall back hback

/-! ### Lines of documentation -/

/-- A line of documentation is trimmed and stands behind hyphens. -/
theorem exists_toList_docLine (line : List Char) :
    ∃ front, (docLine line).toList = front ++ Text.trim line ∧ isComment front = true ∧
      '\r' ∉ front := by
  unfold docLine
  dsimp only
  split_ifs with hempty
  · refine ⟨"---".toList, ?_, by decide, by decide⟩
    rw [List.isEmpty_iff.mp hempty, List.append_nil]
  · refine ⟨"--- ".toList, ?_, by decide, by decide⟩
    simp

theorem getLast?_docLine_ne (line : List Char) : (docLine line).toList.getLast? ≠ some '\r' := by
  obtain ⟨front, htext, -, hfront⟩ := exists_toList_docLine line
  rw [htext, List.getLast?_append]
  rcases hlast : (Text.trim line).getLast? with - | c
  · exact fun h => hfront (List.mem_of_getLast? h)
  · intro h
    have hblank := Text.not_isBlank_of_trim hlast
    rw [Option.some.inj h] at hblank
    exact absurd hblank (by decide)

/-- A line of documentation stays a comment if comments stand behind its carriage returns. -/
theorem forall_pieces_docLine_iff (line : List Char) :
    (∀ piece ∈ pieces '\r' (docLine line).toList, isComment piece = true) ↔
      ∀ back, '\r' :: back <:+ Text.trim line → isComment back = true := by
  obtain ⟨start, htext, hcomment, hstart⟩ := exists_toList_docLine line
  have hline : isComment (docLine line).toList = true := by
    rw [isComment, List.isPrefixOf_iff_prefix] at hcomment ⊢
    rw [htext]
    exact hcomment.trans (List.prefix_append _ _)
  rw [forall_pieces_iff hline, htext]
  constructor
  · exact fun h back hback => h back (hback.trans (List.suffix_append _ _))
  · rintro h back ⟨front, hback⟩
    rcases List.append_eq_append_iff.mp hback with ⟨more, hfront, hrest⟩ | ⟨more, hfront, hrest⟩
    · cases more with
      | nil => exact h back ⟨[], hrest⟩
      | cons c more =>
        -- the carriage return would stand in front of the documentation
        rw [← (List.cons.inj hrest).1] at hfront
        exact absurd (by simp [hfront]) hstart
    · exact h back ⟨more, hrest.symm⟩

theorem physicalLines_docLines {lines : List (List Char)} (h : ∀ line ∈ lines, '\n' ∉ line) :
    physicalLines (unlines (lines.map docLine)).toList =
      lines.flatMap fun line => pieces '\r' (docLine line).toList := by
  induction lines with
  | nil => rfl
  | cons line lines ih =>
    obtain ⟨hline, hlines⟩ := List.forall_mem_cons.mp h
    rw [List.map_cons, toList_unlines_cons,
      Text.physicalLines_append (isCommentLine_docLine hline).one (getLast?_docLine_ne line),
      ih hlines, List.flatMap_cons]

/-- **Where documentation stays in its comment.**  It does exactly if a comment stands behind every
carriage return inside of a line.  So it does if behind every carriage return there are only blanks
up to the next line feed. -/
theorem isCommentText_docLines_iff (text : String) :
    (IsCommentText (unlines (docLines (some text))) ↔
      ∀ line ∈ Text.lines (Text.trim text.toList), ∀ back,
        '\r' :: back <:+ Text.trim line → isComment back = true) ∧
    ((∀ back, '\r' :: back <:+ text.toList →
        ∀ c ∈ back.takeWhile (· != '\n'), Text.isBlank c = true) →
      IsCommentText (unlines (docLines (some text)))) := by
  have hlines : ∀ line ∈ Text.lines (Text.trim text.toList), '\n' ∉ line :=
    Text.not_mem_of_mem_linesFrom List.not_mem_nil
  have hiff : IsCommentText (unlines (docLines (some text))) ↔
      ∀ line ∈ Text.lines (Text.trim text.toList), ∀ back,
        '\r' :: back <:+ Text.trim line → isComment back = true := by
    rw [IsCommentText, docLines, physicalLines_docLines hlines, List.forall_mem_flatMap]
    exact forall₂_congr fun line _ => forall_pieces_docLine_iff line
  refine ⟨hiff, fun hblank => hiff.mpr fun line hline back hback => ?_⟩
  have hreturn : ∀ c ∈ '\r' :: back, Text.isBlank c = true := by
    refine List.forall_mem_cons.mpr ⟨by decide, fun c hc => ?_⟩
    have hfeed : ∀ d ∈ back, (d != '\n') = true := HostType.bne_of_not_mem fun hmem =>
      hlines line hline (Text.mem_of_mem_trim (hback.subset (List.mem_cons_of_mem _ hmem)))
    obtain ⟨before, behind, htext⟩ := hback.isInfix.trans ((Text.trim_isInfix line).trans
      ((Text.infix_of_mem_lines hline).trans (Text.trim_isInfix text.toList)))
    refine hblank (back ++ behind) ⟨before, by rw [← htext]; simp⟩ c ?_
    rw [List.takeWhile_append_of_pos hfeed]
    exact List.mem_append_left _ hc
  -- the line ends behind the carriage return, and not with a blank
  obtain ⟨front, hfront⟩ := hback
  have hlast := List.getLast?_eq_some_getLast (List.cons_ne_nil '\r' back)
  have hsolid := Text.not_isBlank_of_trim (by rw [← hfront, List.getLast?_append, hlast, Option.some_or])
  rw [hreturn _ (List.getLast_mem _)] at hsolid
  cases hsolid

/-- Line ends of two kinds, and blanks and a return at the end of a line. -/
theorem isCommentText_docLines_returns :
    IsCommentText (unlines (docLines (some "Opens.\r\n\r\n  Closes. \r \nLocks.\r"))) := by
  have hall : ∀ t ∈ "Opens.\r\n\r\n  Closes. \r \nLocks.\r".toList.tails, t.head? = some '\r' →
      (t.tail.takeWhile (· != '\n')).all Text.isBlank = true := by decide +kernel
  exact (isCommentText_docLines_iff _).2 fun back hback =>
    List.all_eq_true.mp (hall _ ((List.mem_tails _ _).mpr hback) rfl)

/-- A carriage return alone starts a line of code. -/
theorem not_isCommentText_docLines_return :
    unlines (docLines (some "a\rx = 1")) = "--- a\rx = 1\n" ∧
      ¬ IsCommentText (unlines (docLines (some "a\rx = 1"))) := by
  decide +kernel

end Annotations

end LuaTypings
