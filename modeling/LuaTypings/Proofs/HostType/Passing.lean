/-
LuaTypings/Proofs/HostType/Passing.lean

The parameter-passing words in front of a type.  What is dropped are blanks and some of the
words, each at most once and in their order (`exists_passing`).  A word ends with a space, so
a text whose first name has something else behind it keeps all of it (`dropWords_of_name`),
and blanks at the end of a text do not matter as long as something is left
(`dropWords_trimEnd`).
-/
import LuaTypings.Proofs.HostType.Tokens
import Mathlib.Data.List.DropRight

namespace LuaTypings

namespace Text

/-! ### Trimming -/

theorem trimStart_of_blanks {gap : List Char} (h : ∀ c ∈ gap, isBlank c = true) (cs : List Char) :
    trimStart (gap ++ cs) = trimStart cs := List.dropWhile_append_of_pos h

theorem exists_gap_trimStart (cs : List Char) :
    ∃ gap, cs = gap ++ trimStart cs ∧ ∀ c ∈ gap, isBlank c = true :=
  ⟨cs.takeWhile isBlank, List.takeWhile_append_dropWhile.symm, fun _ => List.mem_takeWhile_imp⟩

theorem exists_gap_trimEnd (cs : List Char) :
    ∃ gap, cs = trimEnd cs ++ gap ∧ ∀ c ∈ gap, isBlank c = true :=
  ⟨cs.rtakeWhile isBlank, List.rdropWhile_append_rtakeWhile.symm,
    fun _ => List.mem_rtakeWhile_imp⟩

/-- A text does not start with a blank. -/
def StartsSolid (cs : List Char) : Prop := ∀ c ∈ cs.head?, isBlank c = false

theorem startsSolid_nil : StartsSolid [] := by simp [StartsSolid]

@[simp] theorem startsSolid_cons {c : Char} {cs : List Char} :
    StartsSolid (c :: cs) ↔ isBlank c = false := by simp [StartsSolid]

theorem trimStart_eq_self {cs : List Char} (h : StartsSolid cs) : trimStart cs = cs := by
  cases cs with
  | nil => rfl
  | cons c cs => exact List.dropWhile_cons_of_neg (by simp [h c rfl])

theorem startsSolid_trimStart (cs : List Char) : StartsSolid (trimStart cs) := by
  intro c hc
  have hnot := List.head?_dropWhile_not isBlank cs
  rwa [← trimStart, Option.mem_def.mp hc] at hnot

theorem trimEnd_isPrefix (cs : List Char) : trimEnd cs <+: cs := List.rdropWhile_prefix isBlank cs

/-- What is dropped at the end of a text is dropped at the end of its back part. -/
theorem rdropWhile_append {p : Char → Bool} {back : List Char} (h : back.rdropWhile p ≠ [])
    (front : List Char) : (front ++ back).rdropWhile p = front ++ back.rdropWhile p := by
  have hne : back.reverse.dropWhile p ≠ [] := fun hnil => h (by rw [List.rdropWhile, hnil]; rfl)
  rw [List.rdropWhile, List.rdropWhile, List.reverse_append, List.dropWhile_append,
    if_neg (by simpa using hne), List.reverse_append, List.reverse_reverse]

theorem rdropWhile_append_of_pos {p : Char → Bool} (front : List Char) {back : List Char}
    (h : ∀ c ∈ back, p c = true) : (front ++ back).rdropWhile p = front.rdropWhile p := by
  rw [List.rdropWhile, List.reverse_append, List.dropWhile_append_of_pos (by simpa using h)]
  rfl

/-- Nothing is dropped from a text that has nothing to drop. -/
theorem rdropWhile_eq_self {p : Char → Bool} {cs : List Char} (h : ∀ c ∈ cs, p c = false) :
    cs.rdropWhile p = cs := by
  rw [List.rdropWhile_eq_self_iff]
  intro hne
  simp [h _ (List.getLast_mem hne)]

theorem trimEnd_append {back : List Char} (h : trimEnd back ≠ []) (front : List Char) :
    trimEnd (front ++ back) = front ++ trimEnd back := rdropWhile_append h front

/-- A text that starts with something else than a blank keeps it. -/
theorem trimEnd_cons {c : Char} (h : isBlank c = false) (cs : List Char) :
    trimEnd (c :: cs) = c :: trimEnd cs := by
  by_cases hne : trimEnd cs = []
  · obtain ⟨gap, hcut, hgap⟩ := exists_gap_trimEnd cs
    rw [hne, List.nil_append] at hcut
    subst hcut
    rw [hne, trimEnd, List.reverse_cons, List.dropWhile_append_of_pos (by simpa using hgap),
      List.dropWhile_cons_of_neg (by simp [h])]
    rfl
  · exact trimEnd_append hne [c]

/-- It does not matter which end is trimmed first. -/
theorem trimStart_trimEnd (cs : List Char) : trimStart (trimEnd cs) = trimEnd (trimStart cs) := by
  obtain ⟨gap, hcut, hgap⟩ := exists_gap_trimStart cs
  have hsolid := startsSolid_trimStart cs
  rcases hrest : trimStart cs with - | ⟨c, rest⟩
  · -- there are only blanks
    rw [hrest, List.append_nil] at hcut
    subst hcut
    have hblank : ∀ c ∈ trimEnd cs, isBlank c = true := fun c hc =>
      hgap c ((trimEnd_isPrefix cs).subset hc)
    have hnil := trimStart_of_blanks hblank []
    rwa [List.append_nil] at hnil
  · rw [hrest] at hcut hsolid
    have hc : isBlank c = false := hsolid c rfl
    rw [hcut, trimEnd_append (by rw [trimEnd_cons hc]; simp), trimStart_of_blanks hgap,
      trimEnd_cons hc, trimStart_eq_self (startsSolid_cons.mpr hc)]

theorem startsSolid_trim (cs : List Char) : StartsSolid (trim cs) := by
  rw [trim, ← trimStart_trimEnd]
  exact startsSolid_trimStart (trimEnd cs)

end Text

namespace HostType

open Text (isBlank StartsSolid trimStart trimEnd)

/-! ### Tokens of trimmed texts -/

theorem tokens_trimStart (cs : List Char) : tokens (trimStart cs) = tokens cs := by
  obtain ⟨gap, hcut, hgap⟩ := Text.exists_gap_trimStart cs
  rw [hcut, tokens_blanks_append hgap, ← hcut]

theorem tokens_trimEnd (cs : List Char) : tokens (trimEnd cs) = tokens cs := by
  obtain ⟨gap, hcut, hgap⟩ := Text.exists_gap_trimEnd cs
  rw [hcut, tokens_append_blanks _ hgap, ← hcut]

theorem tokens_trim (cs : List Char) : tokens (Text.trim cs) = tokens cs := by
  rw [Text.trim, tokens_trimEnd, tokens_trimStart]

/-- A text that starts with a name does not start with a blank. -/
theorem startsSolid_name {name : List Char} (hne : name ≠ [])
    (h : ∀ c ∈ name, isNameChar c = true) (rest : List Char) : StartsSolid (name ++ rest) := by
  obtain ⟨c, more, rfl⟩ := List.exists_cons_of_ne_nil hne
  exact Text.startsSolid_cons.mpr (not_isBlank_of_isNameChar (h c List.mem_cons_self))

/-! ### Passing words -/

/-- A passing word is a name and a space. -/
theorem exists_name_of_passingWord {word : List Char} (h : word ∈ passingWords) :
    ∃ name, word = name ++ [' '] ∧ name ≠ [] ∧ ∀ c ∈ name, isNameChar c = true := by
  simp only [passingWords, List.mem_cons, List.not_mem_nil, or_false] at h
  rcases h with rfl | rfl | rfl | rfl
  · exact ⟨['r', 'e', 'f'], rfl, by decide, List.all_eq_true.mp (by decide)⟩
  · exact ⟨['o', 'u', 't'], rfl, by decide, List.all_eq_true.mp (by decide)⟩
  · exact ⟨['i', 'n'], rfl, by decide, List.all_eq_true.mp (by decide)⟩
  · exact ⟨['p', 'a', 'r', 'a', 'm', 's'], rfl, by decide, List.all_eq_true.mp (by decide)⟩

/-- A text of blanks and these words, in this order. -/
def IsPassing : List (List Char) → List Char → Prop
  | [], front => ∀ c ∈ front, isBlank c = true
  | word :: words, front => ∃ gap rest, front = gap ++ word ++ rest ∧
      (∀ c ∈ gap, isBlank c = true) ∧ IsPassing words rest

theorem IsPassing.blanks_append {words : List (List Char)} {front gap : List Char}
    (h : IsPassing words front) (hgap : ∀ c ∈ gap, isBlank c = true) :
    IsPassing words (gap ++ front) := by
  cases words with
  | nil =>
    intro c hc
    rcases List.mem_append.mp hc with hc | hc
    · exact hgap c hc
    · exact h c hc
  | cons word words =>
    obtain ⟨inner, rest, rfl, hinner, hrest⟩ := h
    refine ⟨gap ++ inner, rest, by simp, fun c hc => ?_, hrest⟩
    rcases List.mem_append.mp hc with hc | hc
    · exact hgap c hc
    · exact hinner c hc

theorem dropWord_append (word cs : List Char) :
    dropWord (word ++ cs) word = trimStart cs := by
  rw [dropWord, if_pos (List.isPrefixOf_iff_prefix.mpr (List.prefix_append word cs)),
    List.drop_left]

theorem dropWord_of_absent {word cs : List Char} (h : ¬ word <+: cs) :
    dropWord cs word = cs := by rw [dropWord, if_neg (mt List.isPrefixOf_iff_prefix.mp h)]

/-- What is dropped are blanks and some of the words, each at most once and in order. -/
theorem exists_dropWords (words : List (List Char)) (cs : List Char) :
    ∃ used front, used.Sublist words ∧ IsPassing used front ∧
      cs = front ++ words.foldl dropWord cs := by
  induction words generalizing cs with
  | nil => exact ⟨[], [], List.Sublist.refl _, by simp [IsPassing], rfl⟩
  | cons word words ih =>
    rw [List.foldl_cons]
    by_cases h : word <+: cs
    · obtain ⟨rest, rfl⟩ := h
      obtain ⟨gap, hcut, hgap⟩ := Text.exists_gap_trimStart rest
      obtain ⟨used, front, hsub, hfront, hrest⟩ := ih (trimStart rest)
      rw [dropWord_append]
      refine ⟨word :: used, word ++ (gap ++ front), hsub.cons_cons word, ?_, ?_⟩
      · exact ⟨[], gap ++ front, rfl, by simp, hfront.blanks_append hgap⟩
      · rw [List.append_assoc, List.append_assoc, ← hrest, ← hcut]
    · obtain ⟨used, front, hsub, hfront, hrest⟩ := ih cs
      rw [dropWord_of_absent h]
      exact ⟨used, front, hsub.cons word, hfront, hrest⟩

/-- What the reader gets to see of a display string: all behind the parameter-passing words. -/
def typeText (display : String) : List Char := dropPassing (trimStart display.toList)

theorem exists_passing (display : String) :
    ∃ used front, used.Sublist passingWords ∧ IsPassing used front ∧
      display.toList = front ++ typeText display := by
  obtain ⟨gap, hcut, hgap⟩ := Text.exists_gap_trimStart display.toList
  obtain ⟨used, front, hsub, hfront, hrest⟩ :=
    exists_dropWords passingWords (trimStart display.toList)
  refine ⟨used, gap ++ front, hsub, hfront.blanks_append hgap, ?_⟩
  rw [List.append_assoc, typeText, dropPassing, ← hrest, ← hcut]

/-- A name ends where the text goes on with something else. -/
theorem takeWhile_name {name rest : List Char} (h : ∀ c ∈ name, isNameChar c = true)
    (hrest : StartsApart rest) : (name ++ rest).takeWhile isNameChar = name := by
  rw [List.takeWhile_append_of_pos h]
  cases rest with
  | nil => simp
  | cons c cs => simp [startsApart_cons.mp hrest]

/-- A word at the start of a text is its first name and the space behind it. -/
theorem passingWord_eq {word name rest : List Char} (hword : word ∈ passingWords)
    (h : ∀ c ∈ name, isNameChar c = true) (hrest : StartsApart rest)
    (hstart : word <+: name ++ rest) : word = name ++ [' '] ∧ ∃ back, rest = ' ' :: back := by
  obtain ⟨back, hback⟩ := hstart
  obtain ⟨v, rfl, -, hv⟩ := exists_name_of_passingWord hword
  have hapart : StartsApart (' ' :: back) := startsApart_cons.mpr (by decide)
  rw [List.append_assoc, List.singleton_append] at hback
  have hname := congrArg (List.takeWhile isNameChar) hback
  rw [takeWhile_name hv hapart, takeWhile_name h hrest] at hname
  subst hname
  exact ⟨rfl, back, (List.append_cancel_left hback).symm⟩

variable {words : List (List Char)}

/-- A text with anything but a space behind its first name keeps that name. -/
theorem dropWords_of_name (hwords : ∀ word ∈ words, word ∈ passingWords) {name rest : List Char}
    (h : ∀ c ∈ name, isNameChar c = true) (hrest : StartsApart rest)
    (hspace : rest.head? ≠ some ' ') :
    words.foldl dropWord (name ++ rest) = name ++ rest := by
  induction words with
  | nil => rfl
  | cons word words ih =>
    have hkeep : ¬ word <+: name ++ rest := by
      intro hstart
      obtain ⟨-, back, rfl⟩ := passingWord_eq (hwords word List.mem_cons_self) h hrest hstart
      exact hspace rfl
    rw [List.foldl_cons, dropWord_of_absent hkeep]
    exact ih fun w hw => hwords w (List.mem_cons_of_mem _ hw)

/-- A text whose first name no other name follows keeps that name or loses it as a word. -/
theorem dropWords_cases (hwords : ∀ word ∈ words, word ∈ passingWords) {name rest : List Char}
    (h : ∀ c ∈ name, isNameChar c = true) (hrest : StartsApart rest)
    (hnext : StartsApart (trimStart rest)) :
    words.foldl dropWord (name ++ rest) = name ++ rest ∨
      name ++ [' '] ∈ words ∧ words.foldl dropWord (name ++ rest) = trimStart rest := by
  induction words with
  | nil => exact Or.inl rfl
  | cons word words ih =>
    have htail : ∀ w ∈ words, w ∈ passingWords := fun w hw => hwords w (List.mem_cons_of_mem _ hw)
    rw [List.foldl_cons]
    by_cases hstart : word <+: name ++ rest
    · obtain ⟨rfl, back, rfl⟩ := passingWord_eq (hwords word List.mem_cons_self) h hrest hstart
      have hback : trimStart (' ' :: back) = trimStart back :=
        Text.trimStart_of_blanks (List.forall_mem_singleton.mpr (by decide)) back
      have hsplit : name ++ ' ' :: back = name ++ [' '] ++ back := by
        rw [List.append_assoc, List.singleton_append]
      rw [hback] at hnext ⊢
      refine Or.inr ⟨List.mem_cons_self, ?_⟩
      -- behind the word there is no name that could be another word
      rw [hsplit, dropWord_append]
      refine dropWords_of_name htail (List.forall_mem_nil _) hnext fun hspace => ?_
      exact absurd (Text.startsSolid_trimStart back ' ' hspace) (by decide)
    · rw [dropWord_of_absent hstart]
      rcases ih htail with hkeep | ⟨hmem, hlose⟩
      · exact Or.inl hkeep
      · exact Or.inr ⟨List.mem_cons_of_mem _ hmem, hlose⟩

theorem startsSolid_dropWords (words : List (List Char)) {cs : List Char} (h : StartsSolid cs) :
    StartsSolid (words.foldl dropWord cs) := by
  induction words generalizing cs with
  | nil => exact h
  | cons word words ih =>
    rw [List.foldl_cons]
    by_cases hstart : word <+: cs
    · obtain ⟨rest, rfl⟩ := hstart
      rw [dropWord_append]
      exact ih (Text.startsSolid_trimStart rest)
    · rw [dropWord_of_absent hstart]
      exact ih h

theorem dropWords_nil (hwords : ∀ word ∈ words, word ∈ passingWords) :
    words.foldl dropWord [] = [] :=
  dropWords_of_name hwords (List.forall_mem_nil _) startsApart_nil (by simp)

/-- Blanks at the end do not matter as long as something is left of the text. -/
theorem dropWords_trimEnd (hwords : ∀ word ∈ words, word ∈ passingWords) {cs : List Char}
    (h : words.foldl dropWord cs ≠ []) :
    words.foldl dropWord (trimEnd cs) = trimEnd (words.foldl dropWord cs) := by
  induction words generalizing cs with
  | nil => rfl
  | cons word words ih =>
    have htail : ∀ w ∈ words, w ∈ passingWords := fun w hw => hwords w (List.mem_cons_of_mem _ hw)
    rw [List.foldl_cons] at h ⊢
    by_cases hprefix : word <+: cs
    · obtain ⟨rest, rfl⟩ := hprefix
      rw [dropWord_append] at h
      -- behind the word there is more than blanks
      have hne : trimEnd rest ≠ [] := by
        intro hnil
        obtain ⟨gap, hcut, hgap⟩ := Text.exists_gap_trimEnd rest
        rw [hcut, hnil, List.nil_append, ← List.append_nil gap, Text.trimStart_of_blanks hgap] at h
        exact h (dropWords_nil htail)
      rw [Text.trimEnd_append hne, dropWord_append, Text.trimStart_trimEnd, ih htail h,
        List.foldl_cons, dropWord_append]
    · have hkeep : ¬ word <+: trimEnd cs := fun hw => hprefix (hw.trans (Text.trimEnd_isPrefix cs))
      rw [dropWord_of_absent hprefix] at h
      rw [dropWord_of_absent hkeep, ih htail h, List.foldl_cons,
        dropWord_of_absent hprefix]

end HostType

end LuaTypings
