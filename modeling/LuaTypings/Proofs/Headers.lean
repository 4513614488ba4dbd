/-
LuaTypings/Proofs/Headers.lean

The header of a block.  A text declares a type by a tag behind a line end, with the name behind the
tag (`Declares`).  A block does so in its header, whatever the declaration is (`declares_chunkText`).
Its other lines are statements, and comments with other tags or none: one lemma for each element
says so (`isMemberLine_field`, `isMemberLine_method`), and all elements together have such lines
(`forall_mem_concat`).  So where names are identifiers, the header is the only line of a block that
declares a type (`hasHeader_lines`).

Main result: `declares_chunkText_iff`.
-/
import LuaTypings.Proofs.Chunk.Cuts
import LuaTypings.Proofs.DeclaredNames
import LuaTypings.Proofs.Statements

namespace LuaTypings

namespace Annotations

/-! ### Tags that declare -/

/-- The tags that declare a type. -/
def headerTags : List String := ["---@class ", "---@alias "]

/-- A text declares a type under a name: behind a line end there is a tag that declares a type, and
then the name, which ends there. -/
def Declares (text name : String) : Prop :=
  ∃ tag ∈ headerTags, ∃ front back : List Char,
    text.toList = front ++ '\n' :: ((tag ++ name).toList ++ back) ∧ HostType.StartsApart back

/-- A text in which no tag stands with the name declares no type under it. -/
theorem not_declares {text name : String}
    (h : ∀ tag ∈ headerTags, ¬ (tag ++ name).toList <:+: text.toList) : ¬ Declares text name := by
  rintro ⟨tag, htag, front, back, htext, -⟩
  refine h tag htag ⟨front ++ ['\n'], back, ?_⟩
  rw [htext]
  simp only [List.append_assoc, List.cons_append, List.nil_append]

/-- One line that declares no type. -/
structure IsMemberLine (line : String) : Prop where
  one : IsOneLine line
  untagged : ∀ tag ∈ headerTags, ¬ tag.toList <+: line.toList

/-- Lines end with a line end. -/
theorem getLast?_unlines {ls : List String} (h : ls ≠ []) :
    (unlines ls).toList.getLast? = some '\n' := by
  rcases List.eq_nil_or_concat ls with rfl | ⟨front, last, rfl⟩
  · exact absurd rfl h
  · rw [List.concat_eq_append, unlines_append]
    simp [unlines]

/-- A line behind another one declares the type that its tag names. -/
theorem declares_of_line {front : List String} (hfront : front ≠ []) {tag : String}
    (htag : tag ∈ headerTags) (name : String) {rest : String}
    (hrest : HostType.StartsApart rest.toList) (back : List String) (more : String) :
    Declares (unlines (front ++ (tag ++ name ++ rest) :: back) ++ more) name := by
  obtain ⟨before, hbefore⟩ := List.getLast?_eq_some_iff.mp (getLast?_unlines hfront)
  refine ⟨tag, htag, before, rest.toList ++ '\n' :: ((unlines back).toList ++ more.toList), ?_,
    hrest.append (HostType.startsApart_cons.mpr (by decide))⟩
  rw [unlines_append, String.toList_append, String.toList_append, hbefore, toList_unlines_cons]
  simp only [String.toList_append, List.append_assoc, List.cons_append, List.nil_append]

theorem pieces_unlines {ls : List String} (hone : ∀ l ∈ ls, IsOneLine l) :
    Text.pieces '\n' (unlines ls).toList = ls.map String.toList ++ [[]] := by
  rw [← List.append_nil (unlines ls).toList, pieces_unlines_append,
    List.flatMap_congr fun l hl => Text.pieces_of_not_mem (hone l hl), ← List.map_eq_flatMap]
  rfl

/-- What a text of single lines declares is declared by one of the lines. -/
theorem exists_line_of_declares {ls : List String} (hone : ∀ l ∈ ls, IsOneLine l) {name : String}
    (hname : IsOneLine name) (h : Declares (unlines ls) name) :
    ∃ tag ∈ headerTags, ∃ rest : String, tag ++ name ++ rest ∈ ls ∧
      HostType.StartsApart rest.toList := by
  obtain ⟨tag, htag, front, back, htext, hback⟩ := h
  have htagLine : ∀ tag ∈ headerTags, IsOneLine tag := by decide
  have hstart : ∀ c ∈ (tag ++ name).toList, (c != '\n') = true :=
    HostType.bne_of_not_mem (isOneLine_append.mpr ⟨htagLine tag htag, hname⟩)
  -- the tag and the name open a piece, which ends where the rest of the line does
  have hmem : (tag ++ name).toList ++ back.takeWhile (· != '\n') ∈
      ls.map String.toList ++ [[]] := by
    rw [← pieces_unlines hone, htext, Text.pieces_append, Text.pieces_eq_cons '\n' ((tag ++ name).toList ++ back),
      List.takeWhile_append_of_pos hstart]
    exact List.mem_append_right _ List.mem_cons_self
  rcases List.mem_append.mp hmem with hmem | hmem
  · obtain ⟨l, hl, hline⟩ := List.mem_map.mp hmem
    refine ⟨tag, htag, String.ofList (back.takeWhile (· != '\n')), ?_, ?_⟩
    · have hparts : tag ++ name ++ String.ofList (back.takeWhile (· != '\n')) = l := by
        rw [← String.toList_inj, hline, String.toList_append, String.toList_ofList]
      rwa [hparts]
    · rw [String.toList_ofList]
      intro c hc
      rw [List.head?_takeWhile] at hc
      exact hback c (Option.filter_eq_some_iff.mp hc).1
  · have htagged : ∀ tag ∈ headerTags, tag.toList ≠ [] := by decide
    have hnil := List.mem_singleton.mp hmem
    simp [htagged tag htag] at hnil

/-- A line has one name behind its tag, whatever the tag is. -/
theorem name_eq_of_tagged {tag tag' name name' rest rest' : String} (htag : tag ∈ headerTags)
    (htag' : tag' ∈ headerTags) (hname : HostType.IsName name) (hname' : HostType.IsName name')
    (hrest : HostType.StartsApart rest.toList) (hrest' : HostType.StartsApart rest'.toList)
    (h : tag ++ name ++ rest = tag' ++ name' ++ rest') : name = name' := by
  have hlength : ∀ tag ∈ headerTags, tag.toList.length = 10 := by decide
  have hchars := congrArg String.toList h
  simp only [String.toList_append, List.append_assoc] at hchars
  obtain ⟨-, hbehind⟩ :=
    List.append_inj hchars ((hlength tag htag).trans (hlength tag' htag').symm)
  have hfirst := congrArg (List.takeWhile HostType.isNameChar) hbehind
  rw [HostType.takeWhile_name hname.2 hrest, HostType.takeWhile_name hname'.2 hrest'] at hfirst
  exact String.toList_inj.mp hfirst

/-- What starts in another way than a tag does not have the tag. -/
theorem isMemberLine_append {front rest : String} (hfront : ∀ tag ∈ headerTags,
      ¬ tag.toList <+: front.toList ∧ ¬ front.toList <+: tag.toList)
    (hone : IsOneLine (front ++ rest)) : IsMemberLine (front ++ rest) := by
  refine ⟨hone, fun tag htag hprefix => ?_⟩
  have hstart : front.toList <+: (front ++ rest).toList := by
    rw [String.toList_append]
    exact List.prefix_append _ _
  obtain ⟨htag, hback⟩ := hfront tag htag
  exact (List.prefix_or_prefix_of_prefix hprefix hstart).elim htag hback

/-- A tag makes a comment. -/
theorem IsCodeLine.isMemberLine {line : String} (h : IsCodeLine line) : IsMemberLine line := by
  refine ⟨h.one, fun tag htag hprefix => ?_⟩
  have hhyphens : ∀ tag ∈ headerTags, "---".toList <+: tag.toList := by decide
  have hcomment : isComment line.toList = true :=
    List.isPrefixOf_iff_prefix.mpr ((hhyphens tag htag).trans hprefix)
  rw [h.code] at hcomment
  cases hcomment

theorem isMemberLine_of_mem_docLines {doc : Option String} :
    ∀ l ∈ docLines doc, IsMemberLine l := by
  rcases doc with - | text
  · exact List.forall_mem_nil _
  · refine List.forall_mem_map.mpr fun line hline => ?_
    have hone : IsOneLine (docLine line) :=
      (isCommentLine_docLine (Text.not_mem_of_mem_linesFrom List.not_mem_nil line hline)).one
    unfold docLine at hone ⊢
    dsimp only at hone ⊢
    split_ifs at hone ⊢
    · exact ⟨hone, by decide⟩
    · exact isMemberLine_append (by decide) hone

/-! ### Members -/

variable {s : Spelling}

theorem isMemberLine_field {owner name lua value : String} {doc : Option String} {ls : List String}
    (hlua : IsOneLine lua) (hcode : IsCodeLine (assignment owner name value))
    (h : field owner name lua value doc = .ok ls) : ∀ l ∈ ls, IsMemberLine l := by
  have htype : IsMemberLine ("---@type " ++ lua) :=
    isMemberLine_append (by decide) (isOneLine_append.mpr ⟨by decide, hlua⟩)
  unfold field at h
  split_ifs at h
  rw [← Except.ok.inj h]
  exact List.forall_mem_append.mpr ⟨isMemberLine_of_mem_docLines,
    List.forall_mem_cons.mpr ⟨htype, List.forall_mem_singleton.mpr hcode.isMemberLine⟩⟩

theorem isMemberLine_parameterLines (hroot : IsOneLine s.root) {params : List Parameter}
    (hnames : ∀ p ∈ params, IsOneLine p.name) {ls : List String}
    (h : parameterLines s params = .ok ls) : ∀ l ∈ ls, IsMemberLine l := by
  unfold parameterLines at h
  rcases htypes : inputTypes s params with e | types
  · rw [htypes] at h
    cases h
  rw [htypes] at h
  rw [← Except.ok.inj h]
  refine List.forall_mem_map.mpr ?_
  rintro ⟨⟨p, index⟩, lua⟩ hmem
  obtain ⟨hinput, hlua⟩ := List.of_mem_zip hmem
  have hone : IsOneLine (parameterLine ((p, index), lua)) :=
    (isCommentLine_parameterLine (hnames p (fst_mem_of_mem_inputs hinput))
      (Spelling.isOneLine_of_values hroot htypes lua hlua)).one
  simp only [parameterLine, String.append_assoc] at hone ⊢
  exact isMemberLine_append (by decide) hone

theorem isMemberLine_method (hroot : IsOneLine s.root) {owner : String} {m : Method}
    {ls : List String} (hnames : ∀ p ∈ m.parameters, IsOneLine p.name)
    (hcode : IsCodeLine (functionLine owner m)) (h : method s owner m = .ok ls) :
    ∀ l ∈ ls, IsMemberLine l := by
  unfold method at h
  split_ifs at h
  rcases hparams : parameterLines s m.parameters with e | params
  · rw [hparams] at h
    cases h
  rcases hresults : resultLines s m.returnType m.parameters with e | results
  · rw [hparams, hresults] at h
    cases h
  rw [hparams, hresults] at h
  rw [← Except.ok.inj h]
  refine List.forall_mem_append.mpr ⟨List.forall_mem_append.mpr ⟨List.forall_mem_append.mpr
    ⟨isMemberLine_of_mem_docLines, isMemberLine_parameterLines hroot hnames hparams⟩, ?_⟩,
    List.forall_mem_singleton.mpr hcode.isMemberLine⟩
  intro l hl
  obtain ⟨rest, rfl, hone⟩ := exists_of_mem_resultLines hroot hresults l hl
  exact isMemberLine_append (by decide) (isOneLine_append.mpr ⟨by decide, hone⟩)

theorem isMemberLine_overloads (hroot : IsOneLine s.root) {made : String} (hmade : IsOneLine made)
    {ms : List Method} (hnames : ∀ m ∈ ms, ∀ p ∈ m.parameters, IsOneLine p.name) {ls : List String}
    (h : overloads s made ms = .ok ls) : ∀ l ∈ ls, IsMemberLine l := by
  intro l hl
  obtain ⟨rest, rfl, hone⟩ := exists_of_mem_overloads hroot hmade hnames h l hl
  exact isMemberLine_append (by decide) (isOneLine_append.mpr ⟨by decide, hone⟩)

theorem isMemberLine_empty : IsMemberLine "" := ⟨by decide, by decide⟩

theorem isMemberLine_factory {owner made : String} (howner : IsOneLine owner)
    (hmade : IsOneLine made) : ∀ l ∈ "" :: factory owner made, IsMemberLine l := by
  have hreturn : IsMemberLine ("---@return " ++ made) :=
    isMemberLine_append (by decide) (isOneLine_append.mpr ⟨by decide, hmade⟩)
  exact List.forall_mem_cons.mpr ⟨isMemberLine_empty, List.forall_mem_cons.mpr
    ⟨hreturn, List.forall_mem_singleton.mpr (isCodeLine_factoryLine howner).isMemberLine⟩⟩

end Annotations

namespace Block

open Annotations (IsMemberLine isMemberLine_empty docLines isCommentLine_typeHeader
  isCommentLine_aliasLines headerTags Declares unlines unlines_append metaHeader_append)

/-! ### Members of a block -/

/-- What holds of the lines of each element holds of all lines. -/
theorem forall_mem_concat {α : Type} {lines : α → Except RenderError (List String)}
    {P : String → Prop} {as : List α} (h : ∀ a ∈ as, ∀ ls, lines a = .ok ls → ∀ l ∈ ls, P l)
    {ls : List String} (hls : concat lines as = .ok ls) : ∀ l ∈ ls, P l := by
  induction as generalizing ls with
  | nil =>
    rw [← Except.ok.inj hls]
    exact List.forall_mem_nil _
  | cons a as ih =>
    obtain ⟨ha, has⟩ := List.forall_mem_cons.mp h
    obtain ⟨first, rest, hfirst, hrest, rfl⟩ := concat_cons_eq_ok hls
    exact List.forall_mem_append.mpr ⟨ha first hfirst, ih has hrest⟩

variable {s : Spelling} {table : String} {ls : List String}

theorem isMemberLine_fields (hroot : IsOneLine s.root) (htable : HostType.IsName table)
    {fields : List Field} (hnames : ∀ name ∈ fields.map Field.name, HostName.IsPlain name)
    (h : concat (fieldLines s table) fields = .ok ls) : ∀ l ∈ ls, IsMemberLine l := by
  refine forall_mem_concat (fun field hfield ls hls => ?_) h
  obtain ⟨lua, hlua, hls⟩ := fieldLines_eq_ok hroot hls
  refine Annotations.isMemberLine_field hlua ?_ hls
  exact Annotations.isCodeLine_assignment htable
    (hnames field.name (List.mem_map_of_mem hfield)).isOneLine (by decide)

theorem isMemberLine_functions (hroot : IsOneLine s.root) (htable : HostType.IsName table)
    {ms : List Method} (hmembers : ∀ name ∈ (functionsOf ms).map Method.name, HostName.IsPlain name)
    (hparameters : ∀ m ∈ ms, ∀ p ∈ m.parameters, HostName.IsPlain p.name)
    (h : concat (methodLines s table) ms = .ok ls) : ∀ l ∈ ls, IsMemberLine l := by
  refine forall_mem_concat (fun m hm ls hls => ?_) h
  rcases methodLines_eq_ok hls with ⟨-, rfl⟩ | ⟨hconstructor, lines, hmethod, rfl⟩
  · exact List.forall_mem_nil _
  · have hnames : ∀ p ∈ m.parameters, IsOneLine p.name :=
      fun p hp => (hparameters m hm p hp).isOneLine
    have hcode := Annotations.isCodeLine_functionLine (isOneLine_of_isName htable)
      (hmembers m.name (List.mem_map_of_mem (mem_functionsOf hm hconstructor))).isOneLine hnames
    exact List.forall_mem_cons.mpr
      ⟨isMemberLine_empty, Annotations.isMemberLine_method hroot hnames hcode hmethod⟩

/-! ### Whole blocks -/

/-- Behind its documentation a block has a header of one line, and then lines that declare
nothing. -/
def HasHeader (d : Declaration) (ls : List String) : Prop :=
  ∃ head back, ls = docLines d.header.doc ++ head :: back ∧ IsOneLine head ∧
    ∀ l ∈ back, IsMemberLine l

/-- The header of a class, an interface or an enumeration, and what follows it. -/
theorem hasHeader_of_typeHeader {d : Declaration} {fullName : String} {base : Option String}
    {parameters interfaces head back : List String}
    (hhead : Annotations.typeHeader "class" fullName parameters base interfaces = .ok head)
    (hone : ∀ l ∈ head, Annotations.IsCommentLine l) (hback : ∀ l ∈ back, IsMemberLine l) :
    HasHeader d (docLines d.header.doc ++ (head ++ back)) := by
  obtain ⟨rest, rfl, -⟩ := Annotations.typeHeader_eq_ok hhead
  exact ⟨_, back, rfl, (List.forall_mem_singleton.mp hone).one, hback⟩

variable {f : Flavor}

theorem hasHeader_ofClass {c : ClassType} (h : (Declaration.classType c).HasPlainNames)
    (hls : ofClass f c = .ok ls) : HasHeader (.classType c) ls := by
  have hroot : IsOneLine (spelling f (Declaration.classType c).scope).root := isOneLine_root f
  have howner : HostType.IsName (owner f c.header) := isName_owner f h.space h.name
  have hdeclared : IsOneLine (declaredName f c.header) := isOneLine_declaredName f h.space h.name
  have hmade := Annotations.isOneLine_withParameters hdeclared h.generics
  obtain ⟨hfieldNames, hfunctionNames⟩ := List.forall_mem_append.mp h.members
  obtain ⟨base, hbase, hls⟩ := exists_of_bind_eq_ok hls
  obtain ⟨interfaces, hinterfaces, hls⟩ := exists_of_bind_eq_ok hls
  obtain ⟨head, hhead, hls⟩ := exists_of_bind_eq_ok hls
  obtain ⟨overloads, hoverloads, hls⟩ := exists_of_ite_eq_ok hls
  obtain ⟨fields, hfields, hls⟩ := exists_of_bind_eq_ok hls
  obtain ⟨methods, hmethods, hls⟩ := exists_of_bind_eq_ok hls
  have hparents := List.forall_mem_append.mpr
    ⟨isOneLine_of_baseType hroot hbase, Spelling.isOneLine_of_values hroot hinterfaces⟩
  -- a static class has no constructors, and only some bindings have a factory
  have hoverload : ∀ l ∈ overloads, IsMemberLine l := by
    split_ifs at hoverloads
    · rw [← Except.ok.inj hoverloads]
      exact List.forall_mem_nil _
    · exact Annotations.isMemberLine_overloads hroot hmade
        (fun m hm p hp => (h.isPlain_parameter (List.mem_filter.mp hm).1 hp).isOneLine) hoverloads
  have hfactory : ∀ l ∈ (if f.conventions.hasFactory && !c.isStatic then "" :: Annotations.factory
      (owner f c.header) (Annotations.withParameters (declaredName f c.header)
        (Declaration.classType c).scope) else []), IsMemberLine l := by
    split_ifs
    · exact Annotations.isMemberLine_factory (isOneLine_of_isName howner) hmade
    · exact List.forall_mem_nil _
  have hfunctions := isMemberLine_functions hroot howner hfunctionNames
    (fun m hm p hp => h.isPlain_parameter hm hp) hmethods
  rw [← Except.ok.inj hls]
  simp only [List.append_assoc]
  refine hasHeader_of_typeHeader hhead
    (isCommentLine_typeHeader hdeclared h.generics hparents hhead) ?_
  simp only [List.forall_mem_append, List.forall_mem_singleton]
  exact ⟨hoverload, (isCodeLine_tableLine f howner).isMemberLine,
    isMemberLine_fields hroot howner hfieldNames hfields, hfactory, hfunctions, isMemberLine_empty⟩

theorem hasHeader_ofInterface {i : InterfaceType}
    (h : (Declaration.interfaceType i).HasPlainNames) (hls : ofInterface f i = .ok ls) :
    HasHeader (.interfaceType i) ls := by
  have hroot : IsOneLine (spelling f i.arguments).root := isOneLine_root f
  have howner : HostType.IsName (owner f i.header) := isName_owner f h.space h.name
  have hdeclared : IsOneLine (declaredName f i.header) := isOneLine_declaredName f h.space h.name
  obtain ⟨hfieldNames, hfunctionNames⟩ := List.forall_mem_append.mp h.members
  obtain ⟨interfaces, hinterfaces, hls⟩ := exists_of_bind_eq_ok hls
  obtain ⟨head, hhead, hls⟩ := exists_of_bind_eq_ok hls
  obtain ⟨fields, hfields, hls⟩ := exists_of_bind_eq_ok hls
  obtain ⟨methods, hmethods, hls⟩ := exists_of_bind_eq_ok hls
  have hparents := Spelling.isOneLine_of_values hroot hinterfaces
  have hfunctions := isMemberLine_functions hroot howner hfunctionNames
    (fun m hm p hp => h.isPlain_parameter hm hp) hmethods
  rw [← Except.ok.inj hls]
  simp only [List.append_assoc]
  refine hasHeader_of_typeHeader hhead
    (isCommentLine_typeHeader hdeclared h.generics hparents hhead) ?_
  simp only [List.forall_mem_append, List.forall_mem_singleton]
  exact ⟨(isCodeLine_tableLine f howner).isMemberLine,
    isMemberLine_fields hroot howner hfieldNames hfields, hfunctions, isMemberLine_empty⟩

theorem hasHeader_ofEnum {e : EnumType} (h : (Declaration.enumType e).HasPlainNames)
    (hls : ofEnum f e = .ok ls) : HasHeader (.enumType e) ls := by
  have howner : HostType.IsName (owner f e.header) := isName_owner f h.space h.name
  have hdeclared : IsOneLine (declaredName f e.header) := isOneLine_declaredName f h.space h.name
  obtain ⟨head, hhead, hls⟩ := exists_of_bind_eq_ok hls
  obtain ⟨members, hmembers, hls⟩ := exists_of_bind_eq_ok hls
  have hmember : ∀ l ∈ members, IsMemberLine l := by
    refine forall_mem_concat (fun p hp ls hls => ?_) hmembers
    have hname := h.members p.1.name (List.mem_map_of_mem (List.fst_mem_of_mem_zipIdx hp))
    exact Annotations.isMemberLine_field hdeclared
      (Annotations.isCodeLine_assignment howner hname.isOneLine (isOneLine_int _)) hls
  rw [← Except.ok.inj hls]
  simp only [List.append_assoc]
  refine hasHeader_of_typeHeader hhead (isCommentLine_typeHeader hdeclared (List.forall_mem_nil _)
    (List.forall_mem_nil _) hhead) ?_
  simp only [List.forall_mem_append, List.forall_mem_singleton]
  exact ⟨(isCodeLine_tableLine f howner).isMemberLine, hmember, isMemberLine_empty⟩

theorem hasHeader_ofDelegate {dl : DelegateType} (h : (Declaration.delegateType dl).HasPlainNames)
    (hls : ofDelegate f dl = .ok ls) : HasHeader (.delegateType dl) ls := by
  have hdeclared : IsOneLine (declaredName f dl.header) := isOneLine_declaredName f h.space h.name
  have hnames : ∀ p ∈ dl.invoke.parameters, IsOneLine p.name :=
    fun p hp => (h.isPlain_parameter (List.mem_singleton_self dl.invoke) hp).isOneLine
  obtain ⟨front, hfront, hls⟩ := exists_of_bind_eq_ok hls
  have hone := isCommentLine_aliasLines (isOneLine_root f) hdeclared hnames hfront
  obtain ⟨head, rfl⟩ : ∃ head, front = docLines dl.header.doc ++ [head] := by
    unfold Annotations.aliasLines at hfront
    split_ifs at hfront
    split at hfront
    · cases hfront
    · exact ⟨_, (Except.ok.inj hfront).symm⟩
  refine ⟨head, [""], ?_, (hone head (List.mem_append_right _ List.mem_cons_self)).one,
    List.forall_mem_singleton.mpr isMemberLine_empty⟩
  rw [← Except.ok.inj hls, List.append_assoc]
  rfl

/-- Where names are identifiers, only the header of a block declares a type. -/
theorem hasHeader_lines {d : Declaration} (h : d.HasPlainNames) (hls : lines f d = .ok ls) :
    HasHeader d ls := by
  cases d with
  | classType c => exact hasHeader_ofClass h hls
  | interfaceType i => exact hasHeader_ofInterface h hls
  | enumType e => exact hasHeader_ofEnum h hls
  | delegateType dl => exact hasHeader_ofDelegate h hls

/-! ### Chunks -/

variable {types : List Declaration} {group : List String} {block name : String}

/-- Blocks that are lines with a property are such lines together. -/
theorem exists_unlines_join {P : String → Prop} {blocks : List String}
    (h : ∀ block ∈ blocks, ∃ ls, block = unlines ls ∧ ∀ l ∈ ls, P l) :
    ∃ ls, String.join blocks = unlines ls ∧ ∀ l ∈ ls, P l := by
  induction blocks with
  | nil => exact ⟨[], rfl, List.forall_mem_nil _⟩
  | cons block blocks ih =>
    obtain ⟨⟨ls, hblock, hls⟩, hblocks⟩ := List.forall_mem_cons.mp h
    obtain ⟨ls', hjoin, hls'⟩ := ih hblocks
    refine ⟨ls ++ ls', ?_, List.forall_mem_append.mpr ⟨hls, hls'⟩⟩
    rw [String.join_cons, hblock, hjoin, unlines_append]

theorem render_eq_ok {d : Declaration} (h : render f d = .ok block) :
    ∃ ls, lines f d = .ok ls ∧ block = unlines ls := by
  unfold render at h
  rcases hls : lines f d with e | ls
  · rw [hls] at h
    cases h
  · rw [hls] at h
    exact ⟨ls, rfl, (Except.ok.inj h).symm⟩

theorem tag_mem_headerTags (d : Declaration) : "---@" ++ tag d ++ " " ∈ headerTags := by
  cases d
  case delegateType => exact List.mem_cons_of_mem _ (List.mem_singleton_self _)
  all_goals exact List.mem_cons_self

/-- A chunk with the block of a declaration declares its type. -/
theorem declares_chunkText (hgroup : ∀ block ∈ group, ∃ d, render f d = .ok block)
    {d : Declaration} (hblock : render f d = .ok block) (hmem : block ∈ group) :
    Declares (chunkText group) (declaredName f d.header) := by
  obtain ⟨front, back, rfl⟩ := List.append_of_mem hmem
  obtain ⟨ls, hls, rfl⟩ := render_eq_ok hblock
  obtain ⟨rest, members, rfl, hrest⟩ := lines_eq_ok f hls
  have hlines : ∀ block ∈ front, ∃ ls, block = unlines ls ∧ ∀ l ∈ ls, True := by
    intro block hblock
    obtain ⟨d', hd'⟩ := hgroup block (List.mem_append_left _ hblock)
    obtain ⟨ls, -, hls⟩ := render_eq_ok hd'
    exact ⟨ls, hls, fun _ _ => trivial⟩
  obtain ⟨before, hbefore, -⟩ := exists_unlines_join hlines
  have htext (ls : List String) : chunkText (front ++ unlines ls :: back) =
      unlines (("---@meta" :: "" :: before) ++ ls) ++ String.join back := by
    rw [chunkText, String.join_append, String.join_cons, hbefore, unlines_append,
      ← metaHeader_append]
    simp only [String.append_assoc]
  rw [htext, ← List.append_assoc]
  -- the first line is the header of the file, so there is one in front of the tag
  have hfront : ("---@meta" :: "" :: before) ++ docLines d.header.doc ≠ [] := by simp
  exact Annotations.declares_of_line hfront (tag_mem_headerTags d) (declaredName f d.header) hrest
    members (String.join back)

/-- A line that declares the type of a declaration. -/
def IsHeader (f : Flavor) (d : Declaration) (line : String) : Prop :=
  ∃ rest, line = "---@" ++ tag d ++ " " ++ declaredName f d.header ++ rest ∧
    HostType.StartsApart rest.toList

/-- A line of a block declares nothing, or the type of the block. -/
theorem isHeader_of_mem_lines {d : Declaration} (h : d.HasPlainNames) (hls : lines f d = .ok ls) :
    ∀ l ∈ ls, IsOneLine l ∧ (IsMemberLine l ∨ IsHeader f d l) := by
  obtain ⟨head, back, hsplit, hone, hback⟩ := hasHeader_lines h hls
  obtain ⟨rest, back', hheader, hrest⟩ := lines_eq_ok f hls
  rw [hsplit] at hheader
  -- the documentation is the same, so the line behind it is
  obtain ⟨rfl, -⟩ := List.cons.inj (List.append_cancel_left hheader)
  rw [hsplit]
  refine List.forall_mem_append.mpr ⟨fun l hl => ?_, List.forall_mem_cons.mpr
    ⟨⟨hone, Or.inr ⟨rest, rfl, hrest⟩⟩, fun l hl => ⟨(hback l hl).one, Or.inl (hback l hl)⟩⟩⟩
  have hdoc := Annotations.isMemberLine_of_mem_docLines l hl
  exact ⟨hdoc.one, Or.inl hdoc⟩

/-- The lines of a chunk declare nothing, or the types of its blocks. -/
theorem exists_lines_chunkText (hplain : ∀ d ∈ types, d.HasPlainNames)
    (hgroup : ∀ block ∈ group, ∃ d ∈ types, render f d = .ok block) :
    ∃ ls, chunkText group = unlines ls ∧ ∀ l ∈ ls, IsOneLine l ∧ (IsMemberLine l ∨
      ∃ d ∈ types, ∃ block ∈ group, render f d = .ok block ∧ IsHeader f d l) := by
  have hmeta : IsMemberLine "---@meta" := ⟨by decide, by decide⟩
  have hlines : ∀ block ∈ group, ∃ ls, block = unlines ls ∧ ∀ l ∈ ls, IsOneLine l ∧
      (IsMemberLine l ∨ ∃ d ∈ types, ∃ block ∈ group, render f d = .ok block ∧ IsHeader f d l) := by
    intro block hblock
    obtain ⟨d, hd, hrender⟩ := hgroup block hblock
    obtain ⟨ls, hls, htext⟩ := render_eq_ok hrender
    refine ⟨ls, htext, fun l hl => ?_⟩
    obtain ⟨hone, hkind⟩ := isHeader_of_mem_lines (hplain d hd) hls l hl
    exact ⟨hone, hkind.imp_right fun hheader => ⟨d, hd, block, hblock, hrender, hheader⟩⟩
  obtain ⟨ls, hjoin, hls⟩ := exists_unlines_join hlines
  refine ⟨"---@meta" :: "" :: ls, by rw [chunkText, hjoin, metaHeader_append], ?_⟩
  exact List.forall_mem_cons.mpr ⟨⟨hmeta.one, Or.inl hmeta⟩, List.forall_mem_cons.mpr
    ⟨⟨isMemberLine_empty.one, Or.inl isMemberLine_empty⟩, hls⟩⟩

/-- **What a chunk declares.**  Where names are identifiers, a chunk of blocks declares the types of
these blocks, and no other type. -/
theorem declares_chunkText_iff (hplain : ∀ d ∈ types, d.HasPlainNames)
    (hgroup : ∀ block ∈ group, ∃ d ∈ types, render f d = .ok block)
    (hname : HostType.IsName name) :
    Declares (chunkText group) name ↔
      ∃ d ∈ types, ∃ block ∈ group, render f d = .ok block ∧ declaredName f d.header = name := by
  constructor
  · intro h
    obtain ⟨ls, htext, hls⟩ := exists_lines_chunkText hplain hgroup
    rw [htext] at h
    obtain ⟨tag, htag, rest, hmem, hrest⟩ := Annotations.exists_line_of_declares
      (fun l hl => (hls l hl).1) (isOneLine_of_isName hname) h
    rcases (hls _ hmem).2 with hmember | ⟨d, hd, block, hblock, hrender, rest', heq, hrest'⟩
    · refine absurd ?_ (hmember.untagged tag htag)
      rw [String.append_assoc, String.toList_append]
      exact List.prefix_append _ _
    · have hpath := isName_declaredName f (hplain d hd).space (hplain d hd).name
      exact ⟨d, hd, block, hblock, hrender, Annotations.name_eq_of_tagged (tag_mem_headerTags d) htag
        hpath hname hrest' hrest heq.symm⟩
  · rintro ⟨d, hd, block, hblock, hrender, rfl⟩
    refine declares_chunkText (fun block hblock => ?_) hrender hblock
    obtain ⟨d, -, hd⟩ := hgroup block hblock
    exact ⟨d, hd⟩

end Block

end LuaTypings
