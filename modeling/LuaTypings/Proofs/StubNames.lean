/-
LuaTypings/Proofs/StubNames.lean

Which stubs have names.  A missing name is what the text of a mention leads to, also if this
denotes no type.  No plus sign and no mark of genericity is left of it, but the text may hold
other characters, and a stub shows all of them except closing brackets and the numbers of arity
marks (`isNameChar_luaPath_iff`).  So the names in the stub file are well formed exactly if what
the mentions lead to is made of name characters and closing brackets (`IsNamed`), and this is so
of every text that denotes a type and leads to its root (`isNameChar_baseName_of_parse`).

Main result: `missing_wellNamed_iff`.
-/
import LuaTypings.Proofs.Dump
import LuaTypings.Proofs.UserNames

namespace LuaTypings

open HostType (isNameChar)

/-! ### What paths show -/

/-- The path of a text without an opening bracket shows name characters only exactly if these and
closing brackets are all that the text has. -/
theorem HostName.isNameChar_luaPath_iff {cs : List Char} (hopen : '<' ∉ cs) :
    (∀ x ∈ (luaPath (String.ofList cs)).toList, isNameChar x = true) ↔
      ∀ c ∈ cs, isNameChar c = true ∨ c = '>' := by
  constructor
  · intro h c hc
    by_contra hother
    obtain ⟨hname, hclose⟩ := not_or.mp hother
    -- anything else is shown as it is
    have hmark : ¬ IsMark c := by
      rintro (rfl | rfl | rfl)
      · exact hopen hc
      · exact hclose rfl
      · exact hname (by decide)
    have hdigit : c.isDigit = false := by
      rw [Bool.eq_false_iff]
      exact mt HostType.isNameChar_of_isDigit hname
    have hdot : dotChar c = c := by
      rw [dotChar, if_neg]
      rintro rfl
      exact hname (by decide)
    obtain ⟨front, back, rfl⟩ := List.append_of_mem hc
    have hfront : '<' ∉ front := fun hmem => hopen (List.mem_append_left _ hmem)
    have hshown := h (dotChar c) (mem_luaPath_of_shown hfront hmark hdigit)
    rw [hdot] at hshown
    exact hname hshown
  · intro h x hx
    rw [toList_luaPath, String.toList_ofList] at hx
    obtain ⟨c, hc, rfl⟩ := List.mem_map.mp hx
    have hname : isNameChar c = true := by
      refine (h c (mem_of_mem_bareFrom hc)).resolve_right ?_
      rintro rfl
      exact not_isMark_of_mem_bareFrom hc (Or.inr (Or.inl rfl))
    unfold dotChar
    split
    · decide
    · exact hname

/-- A path has no plus sign and no mark. -/
theorem HostName.not_isMark_of_mem_luaPath {name : String} {x : Char}
    (h : x ∈ (luaPath name).toList) : x ≠ '+' ∧ ¬ IsMark x := by
  rw [toList_luaPath] at h
  obtain ⟨c, hc, rfl⟩ := List.mem_map.mp h
  unfold dotChar
  split_ifs with hplus
  · exact ⟨by decide, by decide⟩
  · exact ⟨hplus, not_isMark_of_mem_bareFrom hc⟩

namespace BaseName

/-! ### What display strings lead to -/

theorem bracket_not_mem_root (cs : List Char) : '<' ∉ root cs := by
  induction cs using root.induct with
  | case1 cs argument hargument ih =>
    rw [root_eq, peeledRoot, hargument]
    exact ih
  | case2 cs hnone =>
    rw [root_eq, peeledRoot, hnone]
    intro hmem
    simpa using List.mem_takeWhile_imp (mem_of_mem_stem hmem)

/-- A display string leads to name characters, and perhaps closing brackets, which no path
shows. -/
def IsNamed (display : String) : Prop :=
  ∀ c ∈ root display.toList, isNameChar c = true ∨ c = '>'

instance (display : String) : Decidable (IsNamed display) := List.decidableBAll _ _

theorem isNameChar_baseName_iff (display : String) :
    (∀ x ∈ (baseName display).toList, isNameChar x = true) ↔ IsNamed display :=
  HostName.isNameChar_luaPath_iff (bracket_not_mem_root _)

theorem isName_rootName {type : HostType} (h : type.WellFormed) :
    HostType.IsName type.rootName := by
  induction h with
  | @named name args hname _ ih =>
    rcases args with - | ⟨arg, - | ⟨next, args⟩⟩
    · exact hname
    · rw [HostType.rootName]
      split_ifs
      · exact ih arg List.mem_cons_self
      · exact hname
    · exact hname
  | array _ _ ih => exact ih
  | nullable _ ih => exact ih
  | pointer _ ih => exact ih

/-- What denotes a type and leads to its root leads to a name. -/
theorem isNameChar_baseName_of_parse {display : String} {type : HostType}
    (h : HostType.parse display = .ok type)
    (hroot : baseName display = HostName.luaPath type.rootName) :
    ∀ x ∈ (baseName display).toList, isNameChar x = true := by
  intro x hx
  have hname := isName_rootName (HostType.parse_eq_ok_iff.mp h).1
  refine isNameChar_of_mem_luaPath hname.2 ?_
  rw [String.ofList_toList, ← hroot]
  exact hx

end BaseName

namespace Dump

/-! ### Stubs -/

/-- A name that a stub can have: it is not empty, and its characters are those of type names,
without those that separate nested types and parameter counts. -/
def WellNamed (name : String) : Prop :=
  name ≠ "" ∧ ∀ c ∈ name.toList, isNameChar c = true ∧ c ≠ '+' ∧ c ≠ HostName.arityMark

instance (name : String) : Decidable (WellNamed name) :=
  @instDecidableAnd _ _ _ (List.decidableBAll _ _)

/-- A missing name is there, and nothing is left in it that separates names. -/
theorem shown_of_mem_missing {types : List Declaration} {name : String}
    (h : name ∈ (References.ofCatalog types).missing) :
    name ≠ "" ∧ ∀ c ∈ name.toList, c ≠ '+' ∧ ¬ HostName.IsMark c := by
  obtain ⟨⟨d, -, display, -, rfl, hexempt⟩, -⟩ := References.mem_missing_ofCatalog.mp h
  refine ⟨?_, fun c => HostName.not_isMark_of_mem_luaPath⟩
  intro hempty
  rw [References.isExempt, hempty] at hexempt
  cases hexempt

theorem wellNamed_iff_of_mem_missing {types : List Declaration} {name : String}
    (h : name ∈ (References.ofCatalog types).missing) :
    WellNamed name ↔ ∀ c ∈ name.toList, isNameChar c = true := by
  obtain ⟨hne, hshown⟩ := shown_of_mem_missing h
  refine ⟨fun hname c hc => (hname.2 c hc).1, fun hall => ⟨hne, fun c hc => ⟨hall c hc, ?_⟩⟩⟩
  obtain ⟨hplus, hmark⟩ := hshown c hc
  exact ⟨hplus, fun heq => hmark (Or.inr (Or.inr heq))⟩

/-- **The names of stubs.**  After a run that succeeds, the stub file has a stub for each missing
name.  No missing name is empty or holds a plus sign or a mark of genericity.  All of them are
well formed exactly if every mention of a missing name leads to name characters; so a text that
denotes a type has a well-formed name if blanks stand behind commas only and no generic nullable
type on the way to the root has several arguments. -/
theorem missing_wellNamed_iff {f : Flavor} {threshold : Nat} {dir : String}
    {types : List Declaration} {w w' : World} {report : DumpReport}
    (h : (run f threshold dir types : StateM World _) w = (.ok report, w')) :
    w'.files.read report.stubFile =
      .ok (References.stubText { missing := report.missing } f.root) ∧
    (∀ name ∈ report.missing,
      name ≠ "" ∧ ∀ c ∈ name.toList, c ≠ '+' ∧ ¬ HostName.IsMark c) ∧
    ((∀ name ∈ report.missing, WellNamed name) ↔
      ∀ d ∈ types, ∀ display ∈ d.mentions, baseName display ∈ report.missing →
        BaseName.IsNamed display) ∧
    ∀ display type, HostType.parse display = .ok type → baseName display ∈ report.missing →
      BaseName.BlanksBehindCommas (BaseName.peel display.toList) → type.SingleNullables →
      WellNamed (baseName display) := by
  have hcomplete := isComplete_of_run h
  rw [hcomplete.missing]
  refine ⟨?_, fun name => shown_of_mem_missing, ⟨?_, ?_⟩, ?_⟩
  · rw [hcomplete.stubs]
    rfl
  · intro hall d hd display hdisplay hmissing
    rw [← BaseName.isNameChar_baseName_iff, ← wellNamed_iff_of_mem_missing hmissing]
    exact hall _ hmissing
  · -- some declaration mentions what is missing
    intro hall name hname
    obtain ⟨⟨d, hd, display, hdisplay, rfl, -⟩, -⟩ := References.mem_missing_ofCatalog.mp hname
    rw [wellNamed_iff_of_mem_missing hname, BaseName.isNameChar_baseName_iff]
    exact hall d hd display hdisplay hname
  · intro display type hparse hmissing hblanks hsingle
    rw [wellNamed_iff_of_mem_missing hmissing]
    exact BaseName.isNameChar_baseName_of_parse hparse
      (BaseName.baseName_of_blanks hparse hblanks hsingle)

/-- A text that denotes no type and leads to a name all the same. -/
theorem missing_wellNamed_unclosed :
    ∃ report w',
      (run .xlua 1 "out" (besideBroken "Foo<(") : StateM World _) {} = (.ok report, w') ∧
      (HostType.parse "Foo<(").isOk = false ∧ report.missing = ["Foo"] ∧ WellNamed "Foo" := by
  have hrun : ((run .xlua 1 "out" (besideBroken "Foo<(") : StateM World _) {}).1.toOption.map
      DumpReport.missing = some ["Foo"] := by decide +kernel
  obtain ⟨report, w', h, hmissing⟩ := exists_ok_of_toOption hrun
  have hnamed : ∀ d ∈ besideBroken "Foo<(", ∀ display ∈ d.mentions,
      BaseName.IsNamed display := by decide +kernel
  have hall := (missing_wellNamed_iff h).2.2.1.mpr fun d hd display hdisplay _ =>
    hnamed d hd display hdisplay
  exact ⟨report, w', h, by decide +kernel, hmissing, hall "Foo" (by rw [hmissing]; decide)⟩

/-- A tuple, which denotes no type, and an array of nullable integers with a blank in front of its
brackets have stubs with names that are none. -/
theorem not_missing_wellNamed :
    (∃ report w',
      (run .xlua 1 "out" (besideBroken "(int, string)") : StateM World _) {} = (.ok report, w') ∧
      (HostType.parse "(int, string)").isOk = false ∧ report.missing = ["(int, string)"] ∧
      ¬ WellNamed "(int, string)") ∧
    ∃ report w',
      (run .xlua 1 "out" (besideBroken "int? []") : StateM World _) {} = (.ok report, w') ∧
      HostType.parse "int? []" = .ok (.array (.nullable (.named "int" [])) 1) ∧
      report.missing = ["int?"] ∧ ¬ WellNamed "int?" := by
  have htuple : ((run .xlua 1 "out" (besideBroken "(int, string)") : StateM World _)
      {}).1.toOption.map DumpReport.missing = some ["(int, string)"] := by decide +kernel
  have harray : ((run .xlua 1 "out" (besideBroken "int? []") : StateM World _)
      {}).1.toOption.map DumpReport.missing = some ["int?"] := by decide +kernel
  obtain ⟨report, w', h, hmissing⟩ := exists_ok_of_toOption htuple
  obtain ⟨report', w'', h', hmissing'⟩ := exists_ok_of_toOption harray
  exact ⟨⟨report, w', h, by decide +kernel, hmissing, by decide⟩,
    report', w'', h', rfl, hmissing', by decide⟩

end Dump

end LuaTypings
