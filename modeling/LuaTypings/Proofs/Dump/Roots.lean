/-
LuaTypings/Proofs/Dump/Roots.lean

The tables at the root of what a dump declares.  Every path in Lua starts with a segment
(`Declaration.luaRoot`), and the index has the name under which it enters the declaration
(`Declaration.rootName`).  The two are the same unless a type without a namespace is nested, or the
outermost namespace has a plus sign or an arity mark (`Declaration.entersRoot_iff`).  The lines of code
in the file of the index are the tables of its entries (`tableLine_mem_codeLines_iff`), so the root of
a declaration is among them exactly if some declaration enters it.

Main result: `luaRoot_declared_iff`.
-/
import LuaTypings.Proofs.HostName.Roots
import LuaTypings.Proofs.NamespaceIndex
import LuaTypings.Proofs.Statements
import LuaTypings.Proofs.Stubs

namespace LuaTypings

open HostName (rootSegment luaPath)

namespace Declaration

variable {d : Declaration}

/-! ### Roots of declarations -/

/-- The first segment of the path of a declaration in Lua. -/
def luaRoot (d : Declaration) : String := rootSegment (References.pathOf d)

/-- A type without a namespace is not nested, and the outermost namespace has neither a plus sign
nor an arity mark. -/
def EntersRoot (d : Declaration) : Prop :=
  if d.space.isEmpty then '.' ∉ d.name.toList ∧ '+' ∉ d.name.toList
  else '+' ∉ (rootSegment d.space).toList ∧ HostName.arityMark ∉ (rootSegment d.space).toList

instance (d : Declaration) : Decidable d.EntersRoot := by
  unfold EntersRoot
  infer_instance

theorem rootName_of_global (h : d.space = "") : d.rootName = luaPath d.name := by
  rw [rootName, h]
  rfl

theorem rootName_of_space (h : d.space ≠ "") : d.rootName = rootSegment d.space := by
  rw [rootName, if_neg (by simpa using h)]

theorem luaRoot_of_global (h : d.space = "") : d.luaRoot = rootSegment (luaPath d.name) := by
  rw [luaRoot, References.pathOf, fullName, h]
  rfl

theorem luaRoot_of_space (h : d.HasPath) (hne : d.space ≠ "") :
    d.luaRoot = rootSegment (luaPath d.space) :=
  HostName.rootSegment_luaPath_inNamespace hne (h.space.resolve_left hne) h.name

theorem isPath_fullName (h : d.HasPath) : HostName.IsPath d.fullName :=
  HostName.isPath_inNamespace h.space h.name

/-- The root of a path is an identifier. -/
theorem isIdentifierChar_of_mem_luaRoot (h : d.HasPath) {c : Char} (hc : c ∈ d.luaRoot.toList) :
    HostName.isIdentifierChar c = true :=
  (HostName.mem_segments (isPath_fullName h)
    (HostName.mem_segments_rootSegment (isPath_fullName h))).2 c hc

theorem isName_rootName (h : d.HasPath) : HostType.IsName d.rootName := by
  by_cases hspace : d.space = ""
  · rw [rootName_of_global hspace]
    exact HostName.isName_luaPath h.name
  · rw [rootName_of_space hspace]
    exact HostName.isName_rootSegment (h.space.resolve_left hspace)

/-- The name under which the index enters a declaration is the root of its path. -/
theorem entersRoot_iff (h : d.HasPath) : d.EntersRoot ↔ d.rootName = d.luaRoot := by
  by_cases hspace : d.space = ""
  · rw [EntersRoot, if_pos (by simpa using hspace), rootName_of_global hspace,
      luaRoot_of_global hspace, eq_comm, HostName.rootSegment_eq_self_iff,
      HostName.dot_mem_luaPath_iff h.name, not_or]
  · rw [EntersRoot, if_neg (by simpa using hspace), rootName_of_space hspace,
      luaRoot_of_space h hspace,
      HostName.rootSegment_luaPath_iff (h.space.resolve_left hspace)]

/-- What the index enters under an identifier is the root of its path. -/
theorem entersRoot_of_identifier (h : d.HasPath)
    (hchars : ∀ c ∈ d.rootName.toList, HostName.isIdentifierChar c = true) : d.EntersRoot := by
  by_cases hspace : d.space = ""
  · rw [entersRoot_iff h, luaRoot_of_global hspace]
    rw [rootName_of_global hspace] at hchars ⊢
    exact (HostName.rootSegment_eq_self_iff.mpr fun hdot =>
      absurd (hchars _ hdot) (by decide)).symm
  · rw [EntersRoot, if_neg (by simpa using hspace)]
    rw [rootName_of_space hspace] at hchars
    exact ⟨fun hplus => absurd (hchars _ hplus) (by decide),
      fun hmark => absurd (hchars _ hmark) (by decide)⟩

end Declaration

/-! ### The file of the index -/

namespace NamespaceIndex

open Annotations (codeLines code isComment IsCommentLine IsCodeLine)

/-- The line that makes a table at the root. -/
def tableLine (root name : String) : String := root ++ name ++ " = \x7b\x7d"

theorem tableLine_injective (root : String) : Function.Injective (tableLine root) := by
  intro a b h
  rw [tableLine, tableLine, String.append_left_inj, String.append_right_inj] at h
  exact h

variable {root : String}

/-- A root table and a name make one line, which does not start with a hyphen. -/
theorem isCodeLine_tableLine (f : Flavor) {name : String} (h : HostType.IsName name) :
    IsCodeLine (tableLine f.root name) :=
  Annotations.isCodeLine_of_isName (Block.isName_root_append f h) (by decide)

theorem isCommentLine_typeLine (f : Flavor) {e : RootTable} (h : HostType.IsName e.name) :
    IsCommentLine ("---@type " ++ (if e.isNamespace then "table" else f.root ++ e.name)) := by
  refine Annotations.IsCommentLine.append ⟨by decide, by decide⟩ ?_
  split_ifs
  · decide
  · exact isOneLine_of_isName (Block.isName_root_append f h)

/-- The code of an entry is its table, and an empty line. -/
theorem code_entryLines (f : Flavor) {e : RootTable} (h : HostType.IsName e.name) :
    code (entryLines f.root e) = [(tableLine f.root e.name).toList, []] := by
  have htable : code [tableLine f.root e.name, ""] =
      [tableLine f.root e.name, ""].map String.toList := by
    refine Annotations.code_of_codeLines (List.forall_mem_cons.mpr
      ⟨isCodeLine_tableLine f h, List.forall_mem_singleton.mpr ⟨by decide, rfl⟩⟩)
  show codeLines _ ++ code [tableLine f.root e.name, ""] = _
  rw [Annotations.codeLines_of_isCommentLine (isCommentLine_typeLine f h), htable]
  rfl

theorem codeLines_text (f : Flavor) {index : NamespaceIndex}
    (h : ∀ e ∈ index.entries, HostType.IsName e.name) :
    codeLines (index.text f.root) =
      [] :: index.entries.flatMap (fun e => [(tableLine f.root e.name).toList, []]) ++ [[]] := by
  rw [text, Annotations.metaHeader_append, Annotations.codeLines_unlines]
  refine congrArg (· ++ [[]]) ?_
  show [] ++ ([[]] ++ code (index.entries.flatMap (entryLines f.root))) = _
  rw [List.nil_append, List.singleton_append, code, List.flatMap_assoc]
  exact congrArg _ (List.flatMap_congr fun e he => code_entryLines f (h e he))

/-- A table is in the file of an index exactly if its name is in the index. -/
theorem tableLine_mem_codeLines_iff (f : Flavor) {index : NamespaceIndex}
    (h : ∀ e ∈ index.entries, HostType.IsName e.name) {name : String} :
    (tableLine f.root name).toList ∈ codeLines (index.text f.root) ↔ name ∈ index.names := by
  have hne : (tableLine f.root name).toList ≠ [] := by simp [tableLine]
  rw [codeLines_text f h, names, List.mem_map]
  simp only [List.cons_append, List.mem_cons, hne, false_or, List.mem_append, List.mem_flatMap,
    List.not_mem_nil, or_false, String.toList_inj, (tableLine_injective f.root).eq_iff]
  exact exists_congr fun e => and_congr_right fun _ => eq_comm

theorem mem_names_indexOf {types : List Declaration} {name : String} :
    name ∈ (Dump.indexOf types).names ↔ ∃ d ∈ types, d.rootName = name := by
  rw [Dump.indexOf, names_foldl, References.mem_foldl_insertNew, List.mem_map]
  exact or_iff_right List.not_mem_nil

end NamespaceIndex

namespace Dump

open Annotations (codeLines)
open NamespaceIndex (tableLine)

variable {f : Flavor} {types : List Declaration}

theorem isName_of_mem_indexOf (h : ∀ d ∈ types, d.HasPath) {e : RootTable}
    (he : e ∈ (indexOf types).entries) : HostType.IsName e.name := by
  obtain ⟨d, hd, hname⟩ := NamespaceIndex.mem_names_indexOf.mp (List.mem_map_of_mem he)
  rw [← hname]
  exact Declaration.isName_rootName (h d hd)

/-- The index has the root of a declaration exactly if some declaration enters it. -/
theorem luaRoot_mem_names_iff (h : ∀ d ∈ types, d.HasPath) {d : Declaration} (hd : d ∈ types) :
    d.luaRoot ∈ (indexOf types).names ↔ ∃ e ∈ types, e.EntersRoot ∧ e.luaRoot = d.luaRoot := by
  rw [NamespaceIndex.mem_names_indexOf]
  constructor
  · rintro ⟨e, he, hname⟩
    -- a root is an identifier, and what else is entered has a dot or a mark in its name
    have henters : e.EntersRoot := by
      refine Declaration.entersRoot_of_identifier (h e he) fun c hc => ?_
      rw [hname] at hc
      exact Declaration.isIdentifierChar_of_mem_luaRoot (h d hd) hc
    exact ⟨e, he, henters, ((Declaration.entersRoot_iff (h e he)).mp henters).symm.trans hname⟩
  · rintro ⟨e, he, henters, hroot⟩
    exact ⟨e, he, ((Declaration.entersRoot_iff (h e he)).mp henters).trans hroot⟩

/-- **The roots in the index.**  After a run that succeeds, the root of a declaration is a table in
the file of the index exactly if some declaration with this root enters it: one that is in a
namespace whose first segment is an identifier, or that is neither in a namespace nor nested.  So
the declaration itself is enough if it is of that kind, and this does not depend on the order. -/
theorem luaRoot_declared_iff {threshold : Nat} {dir : String} {w w' : World} {report : DumpReport}
    (hpath : ∀ d ∈ types, d.HasPath)
    (h : (run f threshold dir types : StateM World _) w = (.ok report, w')) :
    ∃ text, w'.files.read report.namespaceFile = .ok text ∧
      ∀ d ∈ types,
        ((tableLine f.root d.luaRoot).toList ∈ codeLines text ↔
          ∃ e ∈ types, e.EntersRoot ∧ e.luaRoot = d.luaRoot) ∧
        (d.EntersRoot → (tableLine f.root d.luaRoot).toList ∈ codeLines text) := by
  refine ⟨_, (isComplete_of_run h).namespaces, fun d hd => ?_⟩
  have hiff : (tableLine f.root d.luaRoot).toList ∈ codeLines ((indexOf types).text f.root) ↔
      ∃ e ∈ types, e.EntersRoot ∧ e.luaRoot = d.luaRoot := by
    rw [NamespaceIndex.tableLine_mem_codeLines_iff f fun e => isName_of_mem_indexOf hpath]
    exact luaRoot_mem_names_iff hpath hd
  exact ⟨hiff, fun henters => hiff.mpr ⟨d, hd, henters, rfl⟩⟩

/-- A nested class without a namespace. -/
def nestedGlobal : Declaration := .classType { header := { name := "Outer`1+Inner" } }

/-- The class around it, and one in a namespace. -/
def aroundNested : List Declaration :=
  [nestedGlobal, .classType { header := { name := "Button", space := "Game.UI" } },
    .classType { header := { name := "Outer`1" } }]

/-- A class in a namespace with a plus sign. -/
def plusSpace : Declaration := .classType { header := { name := "Button", space := "Game+UI" } }

/-- Where the class around a nested one is declared, also behind it, there is a table for both. -/
theorem luaRoot_declared_around :
    ∃ report w' text, (run .tolua 1 "out" aroundNested : StateM World _) {} = (.ok report, w') ∧
      w'.files.read report.namespaceFile = .ok text ∧
      "Outer = \x7b\x7d".toList ∈ codeLines text := by
  have hrun : ((run .tolua 1 "out" aroundNested : StateM World _) {}).1.toOption.map
      DumpReport.emitted = some 3 := by decide +kernel
  obtain ⟨report, w', h, -⟩ := exists_ok_of_toOption hrun
  have hpath : ∀ d ∈ aroundNested, d.HasPath := by
    intro d hd
    simp only [aroundNested, List.mem_cons, List.not_mem_nil, or_false] at hd
    rcases hd with rfl | rfl | rfl <;> exact ⟨by decide +kernel, by decide +kernel⟩
  obtain ⟨text, hread, hroots⟩ := luaRoot_declared_iff hpath h
  have hroot : nestedGlobal.luaRoot = "Outer" := by decide +kernel
  have hdeclared := (hroots nestedGlobal List.mem_cons_self).1.mpr (by decide +kernel)
  rw [hroot] at hdeclared
  exact ⟨report, w', text, h, hread, hdeclared⟩

/-- A nested class alone has a table of its own in the index, and none is there for its root; nor is
one for the root of a namespace with a plus sign. -/
theorem not_luaRoot_declared_nested :
    (nestedGlobal.HasPath ∧ nestedGlobal.luaRoot = "Outer" ∧
      ∃ report w' text, (run .tolua 1 "out" [nestedGlobal] : StateM World _) {} = (.ok report, w') ∧
        report.emitted = 1 ∧ w'.files.read report.namespaceFile = .ok text ∧
        "Outer.Inner = \x7b\x7d".toList ∈ codeLines text ∧
        "Outer = \x7b\x7d".toList ∉ codeLines text) ∧
    plusSpace.HasPath ∧ plusSpace.luaRoot = "Game" ∧
      ∃ report w' text, (run .xlua 1 "out" [plusSpace] : StateM World _) {} = (.ok report, w') ∧
        report.emitted = 1 ∧ w'.files.read report.namespaceFile = .ok text ∧
        "CS.Game+UI = \x7b\x7d".toList ∈ codeLines text ∧
        "CS.Game = \x7b\x7d".toList ∉ codeLines text := by
  have hnested : ((run .tolua 1 "out" [nestedGlobal] : StateM World _) {}).1.toOption.map
      DumpReport.emitted = some 1 := by decide +kernel
  have hplus : ((run .xlua 1 "out" [plusSpace] : StateM World _) {}).1.toOption.map
      DumpReport.emitted = some 1 := by decide +kernel
  obtain ⟨report, w', h, hemitted⟩ := exists_ok_of_toOption hnested
  obtain ⟨report', w'', h', hemitted'⟩ := exists_ok_of_toOption hplus
  exact ⟨⟨⟨by decide +kernel, by decide +kernel⟩, by decide +kernel, report, w', _, h, hemitted,
      (isComplete_of_run h).namespaces, by decide +kernel, by decide +kernel⟩,
    ⟨by decide +kernel, by decide +kernel⟩, by decide +kernel, report', w'', _, h', hemitted',
      (isComplete_of_run h').namespaces, by decide +kernel, by decide +kernel⟩

end Dump

end LuaTypings
