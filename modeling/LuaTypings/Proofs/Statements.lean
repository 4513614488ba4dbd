/-
LuaTypings/Proofs/Statements.lean

The code in a block.  A declaration has a statement for its table, and one for each field, member
and function of it; types, parents and documentation are in comments.  So where names are
identifiers, the lines of code of a block are these statements, line by line (`code_lines`).
-/
import LuaTypings.Proofs.Documentation
import LuaTypings.Proofs.Renderable

namespace LuaTypings

/-! ### Names that are identifiers -/

/-- A text of the characters of identifiers, which may be empty. -/
def HostName.IsPlain (name : String) : Prop := ∀ c ∈ name.toList, isIdentifierChar c = true

instance (name : String) : Decidable (HostName.IsPlain name) := List.decidableBAll _ _

theorem HostName.IsPlain.isOneLine {name : String} (h : IsPlain name) : IsOneLine name :=
  fun hmem => absurd (h _ hmem) (by decide)

/-- Namespace, name, members and parameters have identifiers as their names, and generic parameters
are one line each. -/
structure Declaration.HasPlainNames (d : Declaration) : Prop extends d.HasPath where
  members : ∀ name ∈ d.memberNames, HostName.IsPlain name
  parameters : ∀ name ∈ d.parameterNames, HostName.IsPlain name
  generics : ∀ name ∈ d.scope, IsOneLine name

theorem Declaration.HasPlainNames.isPlain_parameter {d : Declaration} (h : d.HasPlainNames)
    {m : Method} (hm : m ∈ d.methods) {p : Parameter} (hp : p ∈ m.parameters) :
    HostName.IsPlain p.name :=
  h.parameters p.name (List.mem_flatMap.mpr ⟨m, hm, List.mem_map_of_mem hp⟩)

theorem isOneLine_int (n : Int) : IsOneLine (toString n) := by
  cases n with
  | ofNat n => exact isOneLine_repr n
  | negSucc n => exact isOneLine_append.mpr ⟨by decide, isOneLine_repr (n + 1)⟩

theorem exists_of_mem_mapM {ε α β : Type} {g : α → Except ε β} {as : List α} {bs : List β}
    (h : as.mapM g = .ok bs) {b : β} (hb : b ∈ bs) : ∃ a ∈ as, g a = .ok b := by
  induction as generalizing bs with
  | nil =>
    cases h
    cases hb
  | cons a as ih =>
    rw [List.mapM_cons] at h
    obtain ⟨first, hfirst, h⟩ := Block.exists_of_bind_eq_ok h
    obtain ⟨rest, hrest, h⟩ := Block.exists_of_bind_eq_ok h
    rw [← Except.ok.inj h] at hb
    rcases List.mem_cons.mp hb with rfl | hb
    · exact ⟨a, List.mem_cons_self, hfirst⟩
    · obtain ⟨a', ha', hb'⟩ := ih hrest hb
      exact ⟨a', List.mem_cons_of_mem a ha', hb'⟩

namespace Annotations

variable {s : Spelling}

/-! ### Lines of code -/

/-- One line that is no comment. -/
structure IsCodeLine (line : String) : Prop where
  one : IsOneLine line
  code : isComment line.toList = false

theorem codeLines_of_isCodeLine {line : String} (h : IsCodeLine line) :
    codeLines line = [line.toList] := by
  rw [codeLines, Text.pieces_of_not_mem h.one]
  simp [h.code]

theorem code_of_codeLines {ls : List String} (h : ∀ l ∈ ls, IsCodeLine l) :
    code ls = ls.map String.toList := by
  rw [code, ← List.flatMap_singleton' (ls.map _), List.flatMap_map]
  exact List.flatMap_congr fun l hl => codeLines_of_isCodeLine (h l hl)

/-! ### Tags are comments -/

theorem IsCommentLine.append {front back : String} (h : IsCommentLine front)
    (hback : IsOneLine back) : IsCommentLine (front ++ back) :=
  ⟨isOneLine_append.mpr ⟨h.one, hback⟩, isComment_append h.comment back⟩

theorem isOneLine_withParameters {fullName : String} (h : IsOneLine fullName)
    {parameters : List String} (hparameters : ∀ p ∈ parameters, IsOneLine p) :
    IsOneLine (withParameters fullName parameters) := by
  unfold withParameters
  split_ifs
  · exact h
  · simp only [isOneLine_append]
    exact ⟨⟨⟨h, by decide⟩, isOneLine_intercalate (by decide) hparameters⟩, by decide⟩

/-- The header of a type is a comment. -/
theorem isCommentLine_typeHeader {fullName : String} {parameters interfaces : List String}
    {base : Option String} (h : IsOneLine fullName) (hparameters : ∀ p ∈ parameters, IsOneLine p)
    (hparents : ∀ p ∈ base.toList ++ interfaces, IsOneLine p) {ls : List String}
    (hls : typeHeader "class" fullName parameters base interfaces = .ok ls) :
    ∀ l ∈ ls, IsCommentLine l := by
  have htag : IsCommentLine ("---@" ++ "class" ++ " " ++ withParameters fullName parameters) :=
    IsCommentLine.append ⟨by decide, by decide⟩ (isOneLine_withParameters h hparameters)
  unfold typeHeader at hls
  dsimp only at hls
  split_ifs at hls
  all_goals
    rw [← Except.ok.inj hls]
    refine List.forall_mem_singleton.mpr (htag.append ?_)
  · decide
  · exact isOneLine_append.mpr ⟨by decide, isOneLine_intercalate (by decide) hparents⟩

theorem isOneLine_of_resultTypes (hroot : IsOneLine s.root) {returnType : String}
    {params : List Parameter} {results : List String}
    (h : resultTypes s returnType params = .ok results) : ∀ lua ∈ results, IsOneLine lua := by
  unfold resultTypes at h
  rcases hprimary : s.result returnType with e | primary
  · rw [hprimary] at h
    cases h
  rcases houtputs : s.values ((params.filter Parameter.isOutput).map Parameter.type) with e | outputs
  · rw [hprimary, houtputs] at h
    cases h
  rw [hprimary, houtputs] at h
  rw [← Except.ok.inj h]
  refine List.forall_mem_append.mpr ⟨fun lua hlua => ?_, Spelling.isOneLine_of_values hroot houtputs⟩
  -- a result is spelled as a value is
  rw [Option.mem_toList.mp hlua] at hprimary
  have hvalue : s.value returnType = .ok lua := by
    rw [Spelling.value, hprimary]
  exact Spelling.isOneLine_of_value hroot hvalue

theorem exists_of_mem_resultLines (hroot : IsOneLine s.root) {returnType : String}
    {params : List Parameter} {ls : List String} (h : resultLines s returnType params = .ok ls) :
    ∀ l ∈ ls, ∃ rest, l = "---@return " ++ rest ∧ IsOneLine rest := by
  unfold resultLines at h
  rcases hresults : resultTypes s returnType params with e | results
  · rw [hresults] at h
    cases h
  have hone : IsOneLine (String.intercalate ", " results) :=
    isOneLine_intercalate (by decide) (isOneLine_of_resultTypes hroot hresults)
  rw [hresults] at h
  rcases results with - | ⟨first, rest⟩
  · rw [← Except.ok.inj h]
    exact List.forall_mem_nil _
  · rw [← Except.ok.inj h]
    exact List.forall_mem_singleton.mpr ⟨_, rfl, hone⟩

theorem code_resultLines (hroot : IsOneLine s.root) {returnType : String}
    {params : List Parameter} {ls : List String} (h : resultLines s returnType params = .ok ls) :
    code ls = [] := by
  refine code_of_comments fun l hl => ?_
  obtain ⟨rest, rfl, hone⟩ := exists_of_mem_resultLines hroot h l hl
  exact IsCommentLine.append ⟨by decide, by decide⟩ hone

theorem isOneLine_functionType {params : List Parameter} (hnames : ∀ p ∈ params, IsOneLine p.name)
    {types results : List String} (htypes : ∀ lua ∈ types, IsOneLine lua)
    (hresults : ∀ lua ∈ results, IsOneLine lua) : IsOneLine (functionType params types results) := by
  have hparameters : ∀ text ∈ ((inputs params).zip types).map signatureParameter,
      IsOneLine text := by
    refine List.forall_mem_map.mpr ?_
    rintro ⟨⟨p, index⟩, lua⟩ hmem
    obtain ⟨hinput, hlua⟩ := List.of_mem_zip hmem
    have hp := isOneLine_parameterName index (hnames p (fst_mem_of_mem_inputs hinput))
    simp only [signatureParameter, isOneLine_append]
    exact ⟨⟨⟨hp, isOneLine_optionalMark p⟩, by decide⟩, htypes lua hlua⟩
  have hlist : IsOneLine (String.intercalate ", "
      (((inputs params).zip types).map signatureParameter)) :=
    isOneLine_intercalate (by decide) hparameters
  unfold functionType
  split_ifs
  · simp only [isOneLine_append]
    exact ⟨⟨⟨by decide, hlist⟩, by decide⟩, by decide⟩
  · simp only [isOneLine_append]
    exact ⟨⟨⟨by decide, hlist⟩, by decide⟩, by decide, isOneLine_intercalate (by decide) hresults⟩

theorem exists_of_mem_overloads (hroot : IsOneLine s.root) {made : String} (hmade : IsOneLine made)
    {ms : List Method} (hnames : ∀ m ∈ ms, ∀ p ∈ m.parameters, IsOneLine p.name) {ls : List String}
    (h : overloads s made ms = .ok ls) :
    ∀ l ∈ ls, ∃ rest, l = "---@overload " ++ rest ∧ IsOneLine rest := by
  intro l hl
  cases ms with
  | nil =>
    rw [← Except.ok.inj h] at hl
    refine ⟨"fun(): " ++ made, ?_, isOneLine_append.mpr ⟨by decide, hmade⟩⟩
    rw [List.mem_singleton.mp hl, ← String.append_assoc]
    rfl
  | cons m ms =>
    obtain ⟨m', hm', hone⟩ := exists_of_mem_mapM h hl
    unfold overload at hone
    rcases htypes : inputTypes s m'.parameters with e | types
    · rw [htypes] at hone
      cases hone
    · rw [htypes] at hone
      exact ⟨_, (Except.ok.inj hone).symm,
        isOneLine_functionType (hnames m' hm') (Spelling.isOneLine_of_values hroot htypes)
          (List.forall_mem_singleton.mpr hmade)⟩

theorem code_overloads (hroot : IsOneLine s.root) {made : String} (hmade : IsOneLine made)
    {ms : List Method} (hnames : ∀ m ∈ ms, ∀ p ∈ m.parameters, IsOneLine p.name) {ls : List String}
    (h : overloads s made ms = .ok ls) : code ls = [] := by
  refine code_of_comments fun l hl => ?_
  obtain ⟨rest, rfl, hone⟩ := exists_of_mem_overloads hroot hmade hnames h l hl
  exact IsCommentLine.append ⟨by decide, by decide⟩ hone

theorem isCommentLine_aliasLines (hroot : IsOneLine s.root) {fullName : String}
    (h : IsOneLine fullName) {invoke : Method} (hnames : ∀ p ∈ invoke.parameters, IsOneLine p.name)
    {doc : Option String} {ls : List String} (hls : aliasLines s fullName invoke doc = .ok ls) :
    ∀ l ∈ ls, IsCommentLine l := by
  unfold aliasLines signature at hls
  split_ifs at hls
  rcases htypes : inputTypes s invoke.parameters with e | types
  · rw [htypes] at hls
    cases hls
  rcases hresults : resultTypes s invoke.returnType invoke.parameters with e | results
  · rw [htypes, hresults] at hls
    cases hls
  rw [htypes, hresults] at hls
  rw [← Except.ok.inj hls]
  have htype := isOneLine_functionType hnames (Spelling.isOneLine_of_values hroot htypes)
    (isOneLine_of_resultTypes hroot hresults)
  exact List.forall_mem_append.mpr ⟨isCommentLine_of_mem_docLines, List.forall_mem_singleton.mpr
    (((IsCommentLine.append ⟨by decide, by decide⟩ h).append (by decide)).append htype)⟩

/-! ### Statements of members -/

/-- The assignment that creates a member. -/
def assignment (owner name value : String) : String :=
  owner ++ "." ++ identifier name ++ " = " ++ value

/-- The function that makes an instance. -/
def factoryLine (owner : String) : String := "function " ++ owner ++ ".New() end"

/-- A line that does not start with a hyphen is no comment. -/
theorem isCodeLine_append {front rest : String} {c : Char} (hfirst : front.toList.head? = some c)
    (hc : c ≠ '-') (hfront : IsOneLine front) (hrest : IsOneLine rest) :
    IsCodeLine (front ++ rest) := by
  obtain ⟨cs, hcs⟩ := List.head?_eq_some_iff.mp hfirst
  refine ⟨isOneLine_append.mpr ⟨hfront, hrest⟩, ?_⟩
  rw [String.toList_append, hcs, List.cons_append]
  show ('-' == c && ['-', '-'].isPrefixOf (cs ++ rest.toList)) = false
  rw [beq_eq_false_iff_ne.mpr hc.symm, Bool.false_and]

theorem isCodeLine_of_isName {owner rest : String} (h : HostType.IsName owner)
    (hrest : IsOneLine rest) : IsCodeLine (owner ++ rest) := by
  obtain ⟨c, cs, hcs⟩ := List.exists_cons_of_ne_nil h.1
  have hfirst : HostType.isNameChar c = true := h.2 c (by rw [hcs]; exact List.mem_cons_self)
  have hc : c ≠ '-' := by
    rintro rfl
    exact absurd hfirst (by decide)
  exact isCodeLine_append (by rw [hcs, List.head?_cons]) hc (isOneLine_of_isName h) hrest

theorem isCodeLine_assignment {owner name value : String} (howner : HostType.IsName owner)
    (hname : IsOneLine name) (hvalue : IsOneLine value) :
    IsCodeLine (assignment owner name value) := by
  have hparts : assignment owner name value = owner ++ ("." ++ identifier name ++ " = " ++ value) := by
    simp only [assignment, String.append_assoc]
  rw [hparts]
  refine isCodeLine_of_isName howner ?_
  simp only [isOneLine_append]
  exact ⟨⟨⟨by decide, isOneLine_identifier hname⟩, by decide⟩, hvalue⟩

theorem isCodeLine_factoryLine {owner : String} (h : IsOneLine owner) :
    IsCodeLine (factoryLine owner) := by
  rw [factoryLine, String.append_assoc]
  exact isCodeLine_append (c := 'f') rfl (by decide) (by decide)
    (isOneLine_append.mpr ⟨h, by decide⟩)

theorem isOneLine_argumentNames {params : List Parameter}
    (hnames : ∀ p ∈ params, IsOneLine p.name) : ∀ name ∈ argumentNames params, IsOneLine name :=
  List.forall_mem_map.mpr fun p hp =>
    isOneLine_parameterName p.2 (hnames p.1 (fst_mem_of_mem_inputs hp))

theorem isCodeLine_functionLine {owner : String} (howner : IsOneLine owner) {m : Method}
    (hname : IsOneLine m.name) (hnames : ∀ p ∈ m.parameters, IsOneLine p.name) :
    IsCodeLine (functionLine owner m) := by
  have hcolon : IsOneLine (if m.isStatic then "." else ":") := by split_ifs <;> decide
  have hparts : functionLine owner m = "function " ++ (owner ++ (if m.isStatic then "." else ":")
      ++ identifier m.name ++ "(" ++ String.intercalate ", " (argumentNames m.parameters)
      ++ ") end") := by
    simp only [functionLine, String.append_assoc]
  rw [hparts]
  refine isCodeLine_append (c := 'f') rfl (by decide) (by decide) ?_
  simp only [isOneLine_append]
  exact ⟨⟨⟨⟨⟨howner, hcolon⟩, isOneLine_identifier hname⟩, by decide⟩,
    isOneLine_intercalate (by decide) (isOneLine_argumentNames hnames)⟩, by decide⟩

theorem code_factory {owner made : String} (howner : IsOneLine owner) (hmade : IsOneLine made) :
    code ("" :: factory owner made) = ["", factoryLine owner].map String.toList := by
  have htag : IsCommentLine ("---@return " ++ made) :=
    IsCommentLine.append ⟨by decide, by decide⟩ hmade
  show codeLines "" ++ (codeLines ("---@return " ++ made) ++ code [factoryLine owner]) = _
  rw [codeLines_of_isCommentLine htag,
    code_of_codeLines (List.forall_mem_singleton.mpr (isCodeLine_factoryLine howner))]
  rfl

theorem code_field {owner name lua value : String} {doc : Option String} {ls : List String}
    (hlua : IsOneLine lua) (hcode : IsCodeLine (assignment owner name value))
    (h : field owner name lua value doc = .ok ls) :
    code ls = [assignment owner name value].map String.toList := by
  have htag : IsCommentLine ("---@type " ++ lua) := IsCommentLine.append ⟨by decide, by decide⟩ hlua
  unfold field at h
  split_ifs at h
  rw [← Except.ok.inj h, code_append, code_docLines]
  show codeLines ("---@type " ++ lua) ++ code [assignment owner name value] = _
  rw [codeLines_of_isCommentLine htag, code_of_codeLines (List.forall_mem_singleton.mpr hcode)]
  rfl

theorem code_method (hroot : IsOneLine s.root) {owner : String} {m : Method} {ls : List String}
    (hnames : ∀ p ∈ m.parameters, IsOneLine p.name) (hcode : IsCodeLine (functionLine owner m))
    (h : method s owner m = .ok ls) : code ls = [functionLine owner m].map String.toList := by
  unfold method parameterLines at h
  split_ifs at h
  rcases htypes : inputTypes s m.parameters with e | types
  · rw [htypes] at h
    cases h
  rcases hresults : resultLines s m.returnType m.parameters with e | results
  · rw [htypes, hresults] at h
    cases h
  rw [htypes, hresults] at h
  rw [← Except.ok.inj h]
  simp only [code_append, code_docLines, code_parameterLines hroot hnames htypes,
    code_resultLines hroot hresults, code_of_codeLines (List.forall_mem_singleton.mpr hcode)]
  rfl

end Annotations

namespace Block

open Annotations (code code_append code_of_comments code_docLines code_factory
  isCommentLine_typeHeader isCommentLine_aliasLines assignment factoryLine functionLine IsCodeLine)

/-! ### Statements of a block -/

/-- The statement of a method behind an empty line; a constructor has none. -/
def functionStatements (owner : String) (m : Method) : List String :=
  if m.isConstructor then [] else ["", functionLine owner m]

/-- What a block says to Lua: it creates the table and what is in it. -/
def statements (f : Flavor) : Declaration → List String
  | .classType c =>
    [tableLine f c.header]
      ++ c.fields.map (fun field => assignment (owner f c.header) field.name "nil")
      ++ (if f.conventions.hasFactory && !c.isStatic then ["", factoryLine (owner f c.header)] else [])
      ++ c.methods.flatMap (functionStatements (owner f c.header)) ++ [""]
  | .interfaceType i =>
    [tableLine f i.header]
      ++ i.fields.map (fun field => assignment (owner f i.header) field.name "nil")
      ++ i.methods.flatMap (functionStatements (owner f i.header)) ++ [""]
  | .enumType e =>
    [tableLine f e.header]
      ++ e.fields.zipIdx.map (fun p =>
        assignment (owner f e.header) p.1.name (toString (memberValue f p.2 p.1))) ++ [""]
  | .delegateType _ => [""]

theorem concat_cons_eq_ok {α : Type} {lines : α → Except RenderError (List String)} {a : α}
    {as : List α} {ls : List String} (h : concat lines (a :: as) = .ok ls) :
    ∃ first rest, lines a = .ok first ∧ concat lines as = .ok rest ∧ ls = first ++ rest := by
  rw [concat] at h
  rcases hfirst : lines a with e | first
  · rw [hfirst] at h
    cases h
  rcases hrest : concat lines as with e | rest
  · rw [hfirst, hrest] at h
    cases h
  rw [hfirst, hrest] at h
  exact ⟨first, rest, rfl, rfl, (Except.ok.inj h).symm⟩

theorem code_concat {α : Type} {lines : α → Except RenderError (List String)}
    {g : α → List (List Char)} {as : List α}
    (h : ∀ a ∈ as, ∀ ls, lines a = .ok ls → code ls = g a) {ls : List String}
    (hls : concat lines as = .ok ls) : code ls = as.flatMap g := by
  induction as generalizing ls with
  | nil =>
    rw [← Except.ok.inj hls]
    rfl
  | cons a as ih =>
    obtain ⟨ha, has⟩ := List.forall_mem_cons.mp h
    obtain ⟨first, rest, hfirst, hrest, rfl⟩ := concat_cons_eq_ok hls
    rw [code_append, ha first hfirst, ih has hrest, List.flatMap_cons]

/-- Elements that have one statement each. -/
theorem code_concat_map {α : Type} {lines : α → Except RenderError (List String)} {g : α → String}
    {as : List α} (h : ∀ a ∈ as, ∀ ls, lines a = .ok ls → code ls = [g a].map String.toList)
    {ls : List String} (hls : concat lines as = .ok ls) :
    code ls = (as.map g).map String.toList := by
  rw [List.map_map, ← List.flatMap_singleton' (as.map _), List.flatMap_map]
  exact code_concat h hls

/-- A name below the root table is a name. -/
theorem isName_root_append (f : Flavor) {name : String} (h : HostType.IsName name) :
    HostType.IsName (f.root ++ name) := by
  have hroot : f.root.toList.all HostType.isNameChar = true := by cases f <;> decide
  refine ⟨by simp [h.1], fun c hc => ?_⟩
  rw [String.toList_append] at hc
  exact (List.mem_append.mp hc).elim (List.all_eq_true.mp hroot c) (h.2 c)

/-- The table of a declaration has a name in Lua. -/
theorem isName_owner (f : Flavor) {h : Header} (hspace : h.space = "" ∨ HostName.IsPath h.space)
    (hname : HostName.IsPath h.name) : HostType.IsName (owner f h) := by
  cases f with
  | xlua => exact HostName.isName_localName hname
  | tolua =>
    have hpath : owner .tolua h = HostName.luaPath (HostName.inNamespace h.space h.name) :=
      String.empty_append
    rw [hpath]
    exact HostName.isName_luaPath (HostName.isPath_inNamespace hspace hname)

theorem isName_declaredName (f : Flavor) {h : Header}
    (hspace : h.space = "" ∨ HostName.IsPath h.space) (hname : HostName.IsPath h.name) :
    HostType.IsName (declaredName f h) :=
  isName_root_append f (HostName.isName_luaPath (HostName.isPath_inNamespace hspace hname))

theorem isOneLine_declaredName (f : Flavor) {h : Header}
    (hspace : h.space = "" ∨ HostName.IsPath h.space) (hname : HostName.IsPath h.name) :
    IsOneLine (declaredName f h) := isOneLine_of_isName (isName_declaredName f hspace hname)

theorem isCodeLine_tableLine (f : Flavor) {h : Header} (howner : HostType.IsName (owner f h)) :
    IsCodeLine (tableLine f h) := by
  unfold tableLine
  split
  · exact Annotations.isCodeLine_of_isName howner (by decide)
  · rw [String.append_assoc]
    exact Annotations.isCodeLine_append (c := 'l') rfl (by decide) (by decide)
      (isOneLine_append.mpr ⟨isOneLine_of_isName howner, by decide⟩)

variable {s : Spelling} {table : String}

/-- A field has a type that is one line. -/
theorem fieldLines_eq_ok (hroot : IsOneLine s.root) {field : Field} {ls : List String}
    (h : fieldLines s table field = .ok ls) :
    ∃ lua, IsOneLine lua ∧ Annotations.field table field.name lua "nil" field.doc = .ok ls := by
  unfold fieldLines fieldType at h
  rcases hvalue : s.value field.type with e | lua
  · rw [hvalue] at h
    cases h
  · rw [hvalue] at h
    refine ⟨_, ?_, h⟩
    split_ifs
    · decide
    · exact Spelling.isOneLine_of_value hroot hvalue

/-- A method is a function behind an empty line, or a constructor, which has no lines. -/
theorem methodLines_eq_ok {m : Method} {ls : List String} (h : methodLines s table m = .ok ls) :
    (m.isConstructor = true ∧ ls = []) ∨
      ¬ m.isConstructor = true ∧
        ∃ lines, Annotations.method s table m = .ok lines ∧ ls = "" :: lines := by
  unfold methodLines at h
  split_ifs at h with hconstructor
  · exact Or.inl ⟨hconstructor, (Except.ok.inj h).symm⟩
  · rcases hmethod : Annotations.method s table m with e | lines
    · rw [hmethod] at h
      cases h
    · rw [hmethod] at h
      exact Or.inr ⟨hconstructor, lines, rfl, (Except.ok.inj h).symm⟩

theorem code_fields (hroot : IsOneLine s.root) (htable : HostType.IsName table)
    {fields : List Field} (hnames : ∀ name ∈ fields.map Field.name, HostName.IsPlain name)
    {ls : List String} (h : concat (fieldLines s table) fields = .ok ls) :
    code ls = (fields.map fun field => assignment table field.name "nil").map String.toList := by
  refine code_concat_map (fun field hfield ls hls => ?_) h
  obtain ⟨lua, hlua, hls⟩ := fieldLines_eq_ok hroot hls
  refine Annotations.code_field hlua ?_ hls
  exact Annotations.isCodeLine_assignment htable
    (hnames field.name (List.mem_map_of_mem hfield)).isOneLine (by decide)

theorem code_functions (hroot : IsOneLine s.root) (htable : HostType.IsName table)
    {ms : List Method} (hmembers : ∀ name ∈ (functionsOf ms).map Method.name, HostName.IsPlain name)
    (hparameters : ∀ m ∈ ms, ∀ p ∈ m.parameters, HostName.IsPlain p.name) {ls : List String}
    (h : concat (methodLines s table) ms = .ok ls) :
    code ls = (ms.flatMap (functionStatements table)).map String.toList := by
  rw [List.map_flatMap]
  refine code_concat (fun m hm ls hls => ?_) h
  rcases methodLines_eq_ok hls with ⟨hconstructor, rfl⟩ | ⟨hconstructor, lines, hmethod, rfl⟩
  · rw [functionStatements, if_pos hconstructor]
    rfl
  · have hnames : ∀ p ∈ m.parameters, IsOneLine p.name :=
      fun p hp => (hparameters m hm p hp).isOneLine
    have hcode : IsCodeLine (functionLine table m) :=
      Annotations.isCodeLine_functionLine (isOneLine_of_isName htable)
        (hmembers m.name (List.mem_map_of_mem (mem_functionsOf hm hconstructor))).isOneLine hnames
    rw [functionStatements, if_neg hconstructor]
    show Annotations.codeLines "" ++ code lines = _
    rw [Annotations.code_method hroot hnames hcode hmethod]
    rfl

/-- A base type is spelled as any other type is. -/
theorem isOneLine_of_baseType (hroot : IsOneLine s.root) {base base' : Option String}
    (h : baseType s base = .ok base') : ∀ lua ∈ base'.toList, IsOneLine lua := by
  unfold baseType at h
  split at h
  · rw [← Except.ok.inj h]
    exact List.forall_mem_nil _
  · rename_i b
    split_ifs at h
    · rw [← Except.ok.inj h]
      exact List.forall_mem_nil _
    · rcases hvalue : s.value b with e | lua
      · rw [hvalue] at h
        cases h
      · rw [hvalue] at h
        rw [← Except.ok.inj h]
        exact List.forall_mem_singleton.mpr (Spelling.isOneLine_of_value hroot hvalue)

theorem code_tableLine {f : Flavor} {h : Header} (howner : HostType.IsName (owner f h)) :
    code [tableLine f h] = [tableLine f h].map String.toList :=
  Annotations.code_of_codeLines (List.forall_mem_singleton.mpr (isCodeLine_tableLine f howner))

theorem code_blank : code [""] = [""].map String.toList := rfl

/-! ### Whole declarations -/

variable {f : Flavor} {ls : List String}

theorem code_ofClass {c : ClassType} (h : (Declaration.classType c).HasPlainNames)
    (hls : ofClass f c = .ok ls) :
    code ls = (statements f (.classType c)).map String.toList := by
  have hroot : IsOneLine (spelling f (Declaration.classType c).scope).root := isOneLine_root f
  have howner : HostType.IsName (owner f c.header) := isName_owner f h.space h.name
  have hdeclared : IsOneLine (declaredName f c.header) := isOneLine_declaredName f h.space h.name
  have hmade := Annotations.isOneLine_withParameters hdeclared h.generics
  obtain ⟨hfieldNames, hfunctionNames⟩ := List.forall_mem_append.mp h.members
  obtain ⟨base, hbase, hls⟩ := exists_of_bind_eq_ok hls
  obtain ⟨interfaces, hinterfaces, hls⟩ := exists_of_bind_eq_ok hls
  obtain ⟨head, hhead, hls⟩ := exists_of_bind_eq_ok hls
  obtain ⟨overloads, hoverloads, hls⟩ := exists_of_ite_eq_ok hls
  obtain ⟨fields, hfields, hls⟩ := exists_of_bind_eq_ok hls
  obtain ⟨methods, hmethods, hls⟩ := exists_of_bind_eq_ok hls
  have hparents := List.forall_mem_append.mpr
    ⟨isOneLine_of_baseType hroot hbase, Spelling.isOneLine_of_values hroot hinterfaces⟩
  have hoverload : code overloads = [] := by
    split_ifs at hoverloads
    · rw [← Except.ok.inj hoverloads]
      rfl
    · exact Annotations.code_overloads hroot hmade
        (fun m hm p hp => (h.isPlain_parameter (List.mem_filter.mp hm).1 hp).isOneLine) hoverloads
  have hfactory : code (if f.conventions.hasFactory && !c.isStatic then "" :: Annotations.factory
      (owner f c.header) (Annotations.withParameters (declaredName f c.header)
        (Declaration.classType c).scope) else []) =
      (if f.conventions.hasFactory && !c.isStatic then ["", factoryLine (owner f c.header)]
        else []).map String.toList := by
    split_ifs
    · exact code_factory (isOneLine_of_isName howner) hmade
    · rfl
  rw [← Except.ok.inj hls]
  simp only [code_append, code_docLines, statements, List.map_append, hoverload, hfactory,
    code_of_comments (isCommentLine_typeHeader hdeclared h.generics hparents hhead),
    code_tableLine howner, code_blank, code_fields hroot howner hfieldNames hfields,
    code_functions hroot howner hfunctionNames (fun m hm p hp => h.isPlain_parameter hm hp)
      hmethods]
  rfl

theorem code_ofInterface {i : InterfaceType} (h : (Declaration.interfaceType i).HasPlainNames)
    (hls : ofInterface f i = .ok ls) :
    code ls = (statements f (.interfaceType i)).map String.toList := by
  have hroot : IsOneLine (spelling f i.arguments).root := isOneLine_root f
  have howner : HostType.IsName (owner f i.header) := isName_owner f h.space h.name
  have hdeclared : IsOneLine (declaredName f i.header) := isOneLine_declaredName f h.space h.name
  obtain ⟨hfieldNames, hfunctionNames⟩ := List.forall_mem_append.mp h.members
  obtain ⟨interfaces, hinterfaces, hls⟩ := exists_of_bind_eq_ok hls
  obtain ⟨head, hhead, hls⟩ := exists_of_bind_eq_ok hls
  obtain ⟨fields, hfields, hls⟩ := exists_of_bind_eq_ok hls
  obtain ⟨methods, hmethods, hls⟩ := exists_of_bind_eq_ok hls
  have hparents := Spelling.isOneLine_of_values hroot hinterfaces
  rw [← Except.ok.inj hls]
  simp only [code_append, code_docLines, statements, List.map_append, code_blank,
    code_of_comments (isCommentLine_typeHeader hdeclared h.generics hparents hhead),
    code_tableLine howner, code_fields hroot howner hfieldNames hfields,
    code_functions hroot howner hfunctionNames (fun m hm p hp => h.isPlain_parameter hm hp)
      hmethods]
  rfl

theorem code_ofEnum {e : EnumType} (h : (Declaration.enumType e).HasPlainNames)
    (hls : ofEnum f e = .ok ls) :
    code ls = (statements f (.enumType e)).map String.toList := by
  have howner : HostType.IsName (owner f e.header) := isName_owner f h.space h.name
  have hdeclared : IsOneLine (declaredName f e.header) := isOneLine_declaredName f h.space h.name
  obtain ⟨head, hhead, hls⟩ := exists_of_bind_eq_ok hls
  obtain ⟨members, hmembers, hls⟩ := exists_of_bind_eq_ok hls
  have hmember : code members = (e.fields.zipIdx.map fun p => assignment (owner f e.header) p.1.name
      (toString (memberValue f p.2 p.1))).map String.toList := by
    refine code_concat_map (fun p hp ls hls => ?_) hmembers
    have hname := h.members p.1.name (List.mem_map_of_mem (List.fst_mem_of_mem_zipIdx hp))
    exact Annotations.code_field hdeclared
      (Annotations.isCodeLine_assignment howner hname.isOneLine (isOneLine_int _)) hls
  rw [← Except.ok.inj hls]
  simp only [code_append, code_docLines, statements, List.map_append, code_blank, hmember,
    code_of_comments (isCommentLine_typeHeader hdeclared (List.forall_mem_nil _)
      (List.forall_mem_nil _) hhead), code_tableLine howner]
  rfl

theorem code_ofDelegate {dl : DelegateType} (h : (Declaration.delegateType dl).HasPlainNames)
    (hls : ofDelegate f dl = .ok ls) :
    code ls = (statements f (.delegateType dl)).map String.toList := by
  have hdeclared : IsOneLine (declaredName f dl.header) := isOneLine_declaredName f h.space h.name
  obtain ⟨front, hfront, hls⟩ := exists_of_bind_eq_ok hls
  have hnames : ∀ p ∈ dl.invoke.parameters, IsOneLine p.name :=
    fun p hp => (h.isPlain_parameter (List.mem_singleton_self dl.invoke) hp).isOneLine
  rw [← Except.ok.inj hls, code_append,
    code_of_comments (isCommentLine_aliasLines (isOneLine_root f) hdeclared hnames hfront)]
  rfl

/-- **The code of a block.**  Where names are identifiers, the lines of code are the statements. -/
theorem code_lines {d : Declaration} (h : d.HasPlainNames) (hls : lines f d = .ok ls) :
    code ls = (statements f d).map String.toList := by
  cases d with
  | classType c => exact code_ofClass h hls
  | interfaceType i => exact code_ofInterface h hls
  | enumType e => exact code_ofEnum h hls
  | delegateType dl => exact code_ofDelegate h hls

end Block

end LuaTypings
