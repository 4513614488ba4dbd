/-
LuaTypings/Proofs/BaseName/Peeled.lean

The base name of a text with nothing to peel off (`peeledName`), for the texts that a type and
some suffixes stand for.  A name without arguments shows its path exactly if the marks behind
it stand together (`peeledName_of_name`).  A name with arguments shows its path unless it is
the name of a nullable type that stands right at the bracket (`peeledName_of_plain`), and then
the text between the brackets counts (`peeledName_of_nullable`, `exists_arguments`).  What
starts without a name shows none (`not_isNameChar_of_mem_peeledName`).
-/
import LuaTypings.BaseName
import LuaTypings.Proofs.HostName.Bare
import LuaTypings.Proofs.HostType.Suffix

namespace LuaTypings.BaseName

open HostType (tokens Token)

/-! ### Peeled texts -/

/-- The base name of a text with nothing to peel off. -/
def peeledRoot (cs : List Char) : List Char :=
  match nullableArgument? cs with
  | some argument => root argument
  | none => stem (head cs)

theorem root_eq (cs : List Char) : root cs = peeledRoot (peel cs) := by
  unfold root peeledRoot
  rcases nullableArgument? (peel cs) with - | argument <;> rfl

/-- The path that the base name of such a text shows. -/
def peeledName (cs : List Char) : String := HostName.luaPath (String.ofList (peeledRoot cs))

theorem baseName_eq (display : String) : baseName display = peeledName (peel display.toList) := by
  rw [baseName, root_eq, peeledName]

theorem luaPath_root (cs : List Char) :
    HostName.luaPath (String.ofList (root cs)) = peeledName (peel cs) := by
  rw [root_eq, peeledName]

/-- What stands between the angle brackets of a text. -/
def inside (cs : List Char) : List Char := (between? cs).getD []

/-! ### Marks -/

theorem isSuffixMark_iff {c : Char} : isSuffixMark c = true ↔ c = '*' ∨ c = '&' ∨ c = '?' := by
  rw [isSuffixMark, Bool.or_eq_true, Bool.or_eq_true, beq_iff_eq, beq_iff_eq, beq_iff_eq,
    or_assoc]

theorem not_isSuffixMark_of_isNameChar {c : Char} (h : HostType.isNameChar c = true) :
    isSuffixMark c = false := by
  by_contra hmark
  rcases isSuffixMark_iff.mp (by simpa using hmark) with rfl | rfl | rfl <;>
    exact absurd h (by decide)

theorem not_isSuffixMark_of_isBlank {c : Char} (h : Text.isBlank c = true) :
    isSuffixMark c = false := by
  by_contra hmark
  rcases isSuffixMark_iff.mp (by simpa using hmark) with rfl | rfl | rfl <;>
    exact absurd h (by decide)

/-- In front of an array bracket only further marks follow a suffix mark. -/
def MarksTogether (cs : List Char) : Prop :=
  ∀ c ∈ (cs.takeWhile (· != '[')).dropWhile (fun c => !isSuffixMark c), isSuffixMark c = true

variable {cs name gap : List Char} {suffix : List Token}

theorem isSuffixMark_of_mem_front (h : (tokens cs).map Token.starred = suffix)
    (hs : HostType.IsSuffix suffix) {c : Char} (hc : c ∈ cs.takeWhile (· != '[')) :
    Text.isBlank c = true ∨ isSuffixMark c = true := by
  have hmarks : ['?', '*', '&'].all isSuffixMark = true := by decide
  exact (HostType.of_mem_suffix_front h hs hc).imp_right (List.all_eq_true.mp hmarks c)

theorem dropWhile_marks_name (h : ∀ c ∈ name, HostType.isNameChar c = true) (rest : List Char) :
    (name ++ rest).dropWhile (fun c => !isSuffixMark c) =
      rest.dropWhile (fun c => !isSuffixMark c) := by
  apply List.dropWhile_append_of_pos
  intro c hc
  rw [not_isSuffixMark_of_isNameChar (h c hc)]
  rfl

/-- No name holds an array bracket, so all of it stands in front of the first one. -/
theorem takeWhile_name_append (h : ∀ c ∈ name, HostType.isNameChar c = true) (rest : List Char) :
    (name ++ rest).takeWhile (· != '[') = name ++ rest.takeWhile (· != '[') :=
  List.takeWhile_append_of_pos
    (HostType.bne_of_not_mem (HostType.not_mem_of_names h (by decide)))

/-! ### Names and the blanks behind them -/

section Name

variable (h : ∀ c ∈ name, HostType.isNameChar c = true) (hgap : ∀ c ∈ gap, Text.isBlank c = true)

include h hgap

theorem not_mem_name_append {c : Char} (hn : HostType.isNameChar c = false)
    (hb : Text.isBlank c = false) : c ∉ name ++ gap := by
  rw [List.mem_append, not_or]
  exact ⟨HostType.not_mem_of_names h hn, HostType.not_mem_of_blanks hgap hb⟩

theorem not_isSuffixMark_of_mem {c : Char} (hc : c ∈ name ++ gap) : isSuffixMark c = false := by
  rcases List.mem_append.mp hc with hc | hc
  · exact not_isSuffixMark_of_isNameChar (h c hc)
  · exact not_isSuffixMark_of_isBlank (hgap c hc)

/-- A name stays when the blanks behind it are trimmed. -/
theorem trim_name (hne : name ≠ []) : Text.trim (name ++ gap) = name := by
  have hsolid : ∀ c ∈ name, Text.isBlank c = false := fun c hc =>
    HostType.not_isBlank_of_isNameChar (h c hc)
  rw [Text.trim, Text.trimStart_eq_self (HostType.startsSolid_name hne h gap)]
  show (name ++ gap).rdropWhile Text.isBlank = name
  rw [Text.rdropWhile_append_of_pos name hgap, Text.rdropWhile_eq_self hsolid]

end Name

/-! ### Stems -/

/-- The path of a name shows name characters only. -/
theorem isNameChar_of_mem_luaPath (h : ∀ c ∈ name, HostType.isNameChar c = true) {x : Char}
    (hx : x ∈ (HostName.luaPath (String.ofList name)).toList) : HostType.isNameChar x = true := by
  obtain ⟨c, hc, rfl⟩ := HostName.mem_luaPath hx
  rw [String.toList_ofList] at hc
  unfold HostName.dotChar
  split
  · decide
  · exact h c hc

/-- A mark that other characters follow stays, and so does what stands in front of it. -/
theorem exists_trim_mark {front back : List Char} {m : Char} (hfront : Text.StartsSolid front)
    (hne : front ≠ []) (hm : isSuffixMark m = true) (hback : back.rdropWhile isSuffixMark ≠ []) :
    ∃ more, Text.trim ((front ++ m :: back).rdropWhile isSuffixMark) = front ++ m :: more := by
  have hsolid : Text.isBlank m = false := by
    by_contra hb
    rw [not_isSuffixMark_of_isBlank (by simpa using hb)] at hm
    cases hm
  have hstart : Text.StartsSolid (front ++ m :: back.rdropWhile isSuffixMark) := by
    obtain ⟨c, more, rfl⟩ := List.exists_cons_of_ne_nil hne
    exact hfront
  refine ⟨Text.trimEnd (back.rdropWhile isSuffixMark), ?_⟩
  rw [← List.singleton_append, ← List.append_assoc, Text.rdropWhile_append hback,
    List.append_assoc, List.singleton_append, Text.trim, Text.trimStart_eq_self hstart,
    Text.trimEnd_append (by rw [Text.trimEnd_cons hsolid]; simp), Text.trimEnd_cons hsolid]

/-- No name shows a suffix mark. -/
theorem luaPath_ne_of_mark {more : List Char} {m : Char}
    (h : ∀ c ∈ name, HostType.isNameChar c = true) (hgap : ∀ c ∈ gap, Text.isBlank c = true)
    (hm : isSuffixMark m = true) :
    HostName.luaPath (String.ofList (name ++ gap ++ m :: more)) ≠
      HostName.luaPath (String.ofList name) := by
  intro hpath
  obtain ⟨hmark, hdigit, hdot⟩ :
      ¬ HostName.IsMark m ∧ m.isDigit = false ∧ HostName.dotChar m = m := by
    rcases isSuffixMark_iff.mp hm with rfl | rfl | rfl <;> exact ⟨by decide, by decide, by decide⟩
  -- the mark is shown, for no bracket stands in front of it
  have hbracket : '<' ∉ name ++ gap := not_mem_name_append h hgap (by decide) (by decide)
  have hshown : HostName.dotChar m ∈
      (HostName.luaPath (String.ofList (name ++ gap ++ m :: more))).toList :=
    HostName.mem_luaPath_of_shown hbracket hmark hdigit
  rw [hdot, hpath] at hshown
  rw [not_isSuffixMark_of_isNameChar (isNameChar_of_mem_luaPath h hshown)] at hm
  cases hm

/-- The path of the stem is that of the name in front exactly if no blank stands behind a
suffix mark. -/
theorem luaPath_stem_iff {back : List Char} (hne : name ≠ [])
    (h : ∀ c ∈ name, HostType.isNameChar c = true)
    (hback : ∀ c ∈ back, Text.isBlank c = true ∨ isSuffixMark c = true)
    (hcs : cs.takeWhile (· != '[') = name ++ back) :
    HostName.luaPath (String.ofList (stem cs)) = HostName.luaPath (String.ofList name) ↔
      MarksTogether cs := by
  have hstem : stem cs = Text.trim ((name ++ back).rdropWhile isSuffixMark) := by
    rw [stem, hcs]
    rfl
  rw [hstem, MarksTogether, hcs, dropWhile_marks_name h]
  -- the blanks in front of the marks, and the rest
  obtain ⟨gap, marks, hcut, hgap, hmarks⟩ : ∃ gap marks, back = gap ++ marks ∧
      (∀ c ∈ gap, Text.isBlank c = true) ∧ back.dropWhile (fun c => !isSuffixMark c) = marks := by
    refine ⟨_, _, List.takeWhile_append_dropWhile.symm, fun c hc => ?_, rfl⟩
    have hnot := List.mem_takeWhile_imp hc
    rcases hback c ((List.takeWhile_sublist _).subset hc) with hb | hm
    · exact hb
    · simp [hm] at hnot
  rw [hmarks, hcut, ← List.append_assoc]
  constructor
  · intro hpath c hc
    by_contra hplain
    -- the first mark stays where it is, and so does what stands in front of it
    rcases marks with - | ⟨m, marks⟩
    · cases hc
    have hm : isSuffixMark m = true := by
      have hfirst := List.head?_dropWhile_not (fun c => !isSuffixMark c) back
      rw [hmarks] at hfirst
      simpa using hfirst
    have hleft : marks.rdropWhile isSuffixMark ≠ [] := by
      rw [Ne, List.rdropWhile_eq_nil_iff]
      intro hall
      rcases List.mem_cons.mp hc with rfl | hc
      · exact hplain hm
      · exact hplain (hall c hc)
    have hstart : Text.StartsSolid (name ++ gap) := HostType.startsSolid_name hne h gap
    obtain ⟨more, hmore⟩ := exists_trim_mark hstart (by simp [hne]) hm hleft
    rw [hmore] at hpath
    exact luaPath_ne_of_mark h hgap hm hpath
  · intro hall
    rw [Text.rdropWhile_append_of_pos _ hall,
      Text.rdropWhile_eq_self fun _ => not_isSuffixMark_of_mem h hgap, trim_name h hgap hne]

/-! ### Names without arguments -/

/-- A name without arguments shows its path exactly if the marks behind it stand together. -/
theorem peeledName_of_name {name : String} (hname : HostType.IsName name)
    (hcs : Text.StartsSolid cs) (hs : HostType.IsSuffix suffix)
    (h : (tokens cs).map Token.starred = tokens name.toList ++ suffix) :
    peeledName cs = HostName.luaPath name ↔ MarksTogether cs := by
  obtain ⟨rest, rfl, -, hrest⟩ := HostType.exists_rest hname hcs h
  have hbracket : '<' ∉ name.toList ++ rest := by
    rw [List.mem_append, not_or]
    refine ⟨HostType.not_mem_of_names hname.2 (by decide), fun hmem => ?_⟩
    rcases HostType.of_mem_suffix hrest hs hmem with hb | hsign
    · exact absurd hb (by decide)
    · exact absurd hsign (by decide)
  have hopen := HostType.bne_of_not_mem hbracket
  have hbetween : between? (name.toList ++ rest) = none := by
    rw [between?, List.dropWhile_eq_nil_iff.mpr hopen]
  have hroot : peeledRoot (name.toList ++ rest) = stem (name.toList ++ rest) := by
    rw [peeledRoot, nullableArgument?, hbetween, ite_self, head,
      List.takeWhile_eq_self_iff.mpr hopen]
  have hiff := luaPath_stem_iff hname.1 hname.2
    (fun c hc => isSuffixMark_of_mem_front hrest hs hc) (takeWhile_name_append hname.2 rest)
  rwa [String.ofList_toList, ← hroot] at hiff

/-! ### Names with arguments -/

theorem head_append {front rest : List Char} (h : '<' ∉ front) :
    head (front ++ '<' :: rest) = front := by
  rw [head, List.takeWhile_append_of_pos (HostType.bne_of_not_mem h),
    List.takeWhile_cons_of_neg (by simp), List.append_nil]

theorem between?_append {front inner back : List Char} (hfront : '<' ∉ front)
    (hback : '>' ∉ back) :
    between? (front ++ '<' :: (inner ++ '>' :: back)) = some inner := by
  have hclose : ∀ c ∈ back.reverse, (c != '>') = true :=
    HostType.bne_of_not_mem (mt List.mem_reverse.mp hback)
  have hinner : (inner ++ '>' :: back).reverse.dropWhile (· != '>') = '>' :: inner.reverse := by
    rw [List.reverse_append, List.reverse_cons, List.append_assoc,
      List.dropWhile_append_of_pos hclose]
    rfl
  rw [between?, List.dropWhile_append_of_pos (HostType.bne_of_not_mem hfront),
    List.dropWhile_cons_of_neg (by simp)]
  simp only [hinner, List.reverse_reverse]

/-- A text for a name with arguments has the name, and perhaps blanks, in front of the brackets
and the tokens of the arguments between them. -/
theorem exists_arguments {name : String} (hname : HostType.IsName name)
    (hcs : Text.StartsSolid cs) (hs : HostType.IsSuffix suffix) {ts : List Token}
    (h : (tokens cs).map Token.starred =
      tokens name.toList ++ .sign '<' :: (ts ++ .sign '>' :: suffix)) :
    ∃ gap back, cs = name.toList ++ gap ++ '<' :: (inside cs ++ '>' :: back) ∧
      (∀ c ∈ gap, Text.isBlank c = true) ∧ head cs = name.toList ++ gap ∧
      between? cs = some (inside cs) ∧ (tokens (inside cs)).map Token.starred = ts := by
  obtain ⟨rest, hrest, -, htokens⟩ := HostType.exists_rest hname hcs h
  obtain ⟨gap, back, rfl, hgap, hback⟩ := HostType.exists_first_sign (by decide) htokens
  obtain ⟨inner, last, rfl, hinner, hlast⟩ := HostType.exists_sign (by decide) hback
  have hopen : '<' ∉ name.toList ++ gap :=
    not_mem_name_append hname.2 hgap (by decide) (by decide)
  -- the suffixes hold no closing angle bracket, so the last one is that of the arguments
  have hclose : '>' ∉ last := by
    intro hmem
    rcases HostType.of_mem_suffix hlast hs hmem with hb | hsign
    · exact absurd hb (by decide)
    · exact absurd hsign (by decide)
  rw [← List.append_assoc] at hrest
  have hbetween : between? cs = some inner := by
    rw [hrest]
    exact between?_append hopen hclose
  have hinside : inside cs = inner := by rw [inside, hbetween, Option.getD_some]
  rw [hinside]
  refine ⟨gap, last, hrest, hgap, ?_, hbetween, hinner⟩
  rw [hrest]
  exact head_append hopen

theorem isName_of_isNullableName {name : String} (h : Spelling.isNullableName name = true) :
    HostType.IsName name := by
  have hall : ∀ n ∈ Spelling.nullableNames,
      n.toList ≠ [] ∧ n.toList.all HostType.isNameChar = true := by decide
  obtain ⟨hne, hchars⟩ := hall name (List.contains_iff_mem.mp h)
  exact ⟨hne, List.all_eq_true.mp hchars⟩

/-- A name in front of brackets is the name of a nullable type if no blank stands there. -/
theorem isNullableName_append {name : String} (hgap : ∀ c ∈ gap, Text.isBlank c = true) :
    Spelling.isNullableName (String.ofList (name.toList ++ gap)) = true ↔
      gap = [] ∧ Spelling.isNullableName name = true := by
  constructor
  · intro h
    obtain rfl : gap = [] := by
      rcases gap with - | ⟨c, gap⟩
      · rfl
      · have hc : HostType.isNameChar c = true :=
          (isName_of_isNullableName h).2 c (by simp)
        rw [HostType.isNameChar_of_isBlank (hgap c List.mem_cons_self)] at hc
        cases hc
    rw [List.append_nil, String.ofList_toList] at h
    exact ⟨rfl, h⟩
  · rintro ⟨rfl, h⟩
    rwa [List.append_nil, String.ofList_toList]

/-- A name with arguments that is no nullable type shows its path. -/
theorem peeledName_of_plain {name : String} (hname : HostType.IsName name)
    (hgap : ∀ c ∈ gap, Text.isBlank c = true) (hhead : head cs = name.toList ++ gap)
    (hplain : ¬ (gap = [] ∧ Spelling.isNullableName name = true)) :
    peeledName cs = HostName.luaPath name := by
  have hroot : peeledRoot cs = stem (name.toList ++ gap) := by
    rw [peeledRoot, nullableArgument?, hhead, if_neg (mt (isNullableName_append hgap).mp hplain)]
  have hfront : (name.toList ++ gap).takeWhile (· != '[') = name.toList ++ gap :=
    List.takeWhile_eq_self_iff.mpr (HostType.bne_of_not_mem
      (not_mem_name_append hname.2 hgap (by decide) (by decide)))
  have htogether : MarksTogether (name.toList ++ gap) := by
    have hnone : (name.toList ++ gap).dropWhile (fun c => !isSuffixMark c) = [] := by
      rw [List.dropWhile_eq_nil_iff]
      intro c hc
      rw [not_isSuffixMark_of_mem hname.2 hgap hc]
      rfl
    intro c hc
    rw [hfront, hnone] at hc
    cases hc
  have hpath := (luaPath_stem_iff hname.1 hname.2 (fun c hc => Or.inl (hgap c hc)) hfront).mpr
    htogether
  rw [peeledName, hroot, hpath, String.ofList_toList]

/-- A nullable type shows what its argument shows. -/
theorem peeledName_of_nullable {name : String} (hhead : head cs = name.toList)
    (hnull : Spelling.isNullableName name = true) (hbetween : between? cs = some (inside cs)) :
    peeledName cs = peeledName (peel (inside cs)) := by
  have hargument : nullableArgument? cs = some (inside cs) := by
    rw [nullableArgument?, hhead, String.ofList_toList, if_pos hnull, hbetween]
  rw [← luaPath_root, peeledName, peeledRoot, hargument]

/-! ### Texts that start without a name -/

theorem mem_of_mem_stem {c : Char} (h : c ∈ stem cs) : c ∈ cs := by
  have htrim : c ∈ (cs.takeWhile (· != '[')).rdropWhile isSuffixMark :=
    (List.dropWhile_sublist _).subset ((Text.trimEnd_isPrefix _).subset h)
  exact (List.takeWhile_sublist _).subset ((List.rdropWhile_prefix isSuffixMark _).subset htrim)

/-- A text without name characters shows none. -/
theorem not_isNameChar_of_mem_peeledName (h : ∀ c ∈ head cs, HostType.isNameChar c = false)
    {x : Char} (hx : x ∈ (peeledName cs).toList) : HostType.isNameChar x = false := by
  have hplain : ¬ Spelling.isNullableName (String.ofList (head cs)) = true := by
    intro hnull
    obtain ⟨hne, hchars⟩ := isName_of_isNullableName hnull
    rw [String.toList_ofList] at hne hchars
    obtain ⟨c, hc⟩ := List.exists_mem_of_ne_nil _ hne
    have hname := hchars c hc
    rw [h c hc] at hname
    cases hname
  have hroot : peeledRoot cs = stem (head cs) := by
    rw [peeledRoot, nullableArgument?, if_neg hplain]
  rw [peeledName, hroot] at hx
  obtain ⟨c, hc, rfl⟩ := HostName.mem_luaPath hx
  rw [String.toList_ofList] at hc
  have hc := h c (mem_of_mem_stem hc)
  -- a plus sign is a name character, so there is none to become a dot
  rw [HostName.dotChar, if_neg]
  · exact hc
  · rintro rfl
    exact absurd hc (by decide)

end LuaTypings.BaseName
