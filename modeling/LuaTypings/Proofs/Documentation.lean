/-
LuaTypings/Proofs/Documentation.lean

Documentation changes comments and nothing else.  A line of code is one that does not begin with
three hyphens, and `codeLines` are those of a text.  Documentation becomes lines of its own that are
comments (`isCommentLine_docLine`), or stands behind the tag of a parameter, which is a comment as a
whole if the name of the parameter is one line (`isCommentLine_parameterLine`); the type in the tag
is one line in any case (`isOneLine_type`).  So without its documentation a declaration has the same
lines of code (`sameCode_lines`), element by element (`SameCode.bind`, `sameCode_concat`).

Main result: `render_sameCode`.
-/
import LuaTypings.Block
import LuaTypings.Proofs.Spelling
import LuaTypings.Proofs.Text.Pieces

namespace LuaTypings

/-! ### Texts of one line -/

/-- A text without a line feed. -/
def IsOneLine (text : String) : Prop := '\n' ∉ text.toList

instance (text : String) : Decidable (IsOneLine text) := inferInstanceAs (Decidable (¬ _))

@[simp] theorem isOneLine_append {a b : String} :
    IsOneLine (a ++ b) ↔ IsOneLine a ∧ IsOneLine b := by
  simp [IsOneLine]

theorem isOneLine_join {texts : List String} (h : ∀ text ∈ texts, IsOneLine text) :
    IsOneLine (String.join texts) := by
  simpa [IsOneLine] using h

theorem isOneLine_intercalate {between : String} {texts : List String}
    (hbetween : IsOneLine between) (h : ∀ text ∈ texts, IsOneLine text) :
    IsOneLine (String.intercalate between texts) := by
  rw [IsOneLine, String.toList_intercalate, Text.mem_intercalate_iff hbetween]
  simpa [IsOneLine] using h

theorem isOneLine_repr (n : Nat) : IsOneLine (toString n) := by
  have hdigits : '\n' ∉ Nat.toDigits 10 n := fun hmem =>
    absurd (Nat.isDigit_of_mem_toDigits (by decide) (by decide) hmem) (by decide)
  simpa [IsOneLine] using hdigits

theorem isOneLine_of_isName {name : String} (h : HostType.IsName name) : IsOneLine name :=
  fun hmem => absurd (h.2 _ hmem) (by decide)

namespace Spelling

variable {s : Spelling}

/-- The annotation of a type is one line. -/
theorem isOneLine_type (hroot : IsOneLine s.root) {type : HostType} (h : type.WellFormed) :
    IsOneLine (s.type type) := by
  have hpath {name : String} (hname : HostType.IsName name) : IsOneLine (s.path name) :=
    isOneLine_append.mpr
      ⟨hroot, fun hmem => absurd (isNameChar_of_mem_luaPath hname hmem) (by decide)⟩
  have horNil {lua : String} (hlua : IsOneLine lua) : IsOneLine (orNil lua) := by
    unfold orNil
    split_ifs
    · exact hlua
    · exact isOneLine_append.mpr ⟨hlua, by decide⟩
  refine spelling_induction ?simple ?wrapped ?generic ?array ?nullable ?pointer h
  case simple =>
    intro name hname
    rw [Spelling.type, simpleName]
    split_ifs
    · exact isOneLine_of_isName hname
    · have hbuiltin (b : Builtin) : IsOneLine b.spelling := by cases b <;> decide
      rcases Builtin.ofHost? name with - | b
      · exact hpath hname
      · exact hbuiltin b
  case wrapped =>
    intro name arg hnullable ih
    rw [Spelling.type, if_pos hnullable]
    exact horNil ih
  case generic =>
    intro name arg args hname hgeneric ih
    have hargs : IsOneLine (String.intercalate ", " ((arg :: args).map s.type)) :=
      isOneLine_intercalate (by decide) (List.forall_mem_map.mpr ih)
    rw [type_generic s hgeneric]
    simp only [isOneLine_append]
    exact ⟨⟨⟨hpath hname, by decide⟩, hargs⟩, by decide⟩
  case array =>
    intro element rank _ ih
    have hbrackets : IsOneLine (String.join (List.replicate rank "[]")) :=
      isOneLine_join fun text htext => by
        rw [List.eq_of_mem_replicate htext]
        decide
    rw [Spelling.type, isOneLine_append]
    refine ⟨?_, hbrackets⟩
    unfold grouped
    split_ifs
    · simp only [isOneLine_append]
      exact ⟨⟨by decide, ih⟩, by decide⟩
    · exact ih
  case nullable =>
    intro inner ih
    rw [Spelling.type]
    exact horNil ih
  case pointer =>
    intro target
    rw [Spelling.type]
    decide

theorem isOneLine_of_value (hroot : IsOneLine s.root) {display lua : String}
    (h : s.value display = .ok lua) : IsOneLine lua := by
  simp only [value, result, parse] at h
  split_ifs at h
  · rw [← Except.ok.inj h]
    decide
  · rcases hparse : HostType.parse display with e | type
    · rw [hparse] at h
      cases h
    · rw [hparse] at h
      rw [← Except.ok.inj h]
      exact isOneLine_type hroot (HostType.parse_eq_ok_iff.mp hparse).1

theorem isOneLine_of_values (hroot : IsOneLine s.root) {displays luas : List String}
    (h : s.values displays = .ok luas) : ∀ lua ∈ luas, IsOneLine lua := by
  induction displays generalizing luas with
  | nil =>
    rw [← Except.ok.inj h]
    exact List.forall_mem_nil _
  | cons display displays ih =>
    rw [values] at h
    rcases hfirst : s.value display with e | lua
    · rw [hfirst] at h
      cases h
    · rcases hrest : s.values displays with e | rest
      · rw [hfirst, hrest] at h
        cases h
      · rw [hfirst, hrest] at h
        rw [← Except.ok.inj h]
        exact List.forall_mem_cons.mpr ⟨isOneLine_of_value hroot hfirst, ih hrest⟩

end Spelling

/-! ### Comments and code -/

namespace Text

theorem not_mem_of_mem_linesFrom {line cs : List Char} (hline : '\n' ∉ line) :
    ∀ l ∈ linesFrom line cs, '\n' ∉ l := by
  induction cs generalizing line with
  | nil =>
    rw [linesFrom]
    split_ifs
    · exact List.forall_mem_nil _
    · simpa using hline
  | cons c cs ih =>
    rw [linesFrom]
    split_ifs with hc
    · refine List.forall_mem_cons.mpr ⟨?_, ih List.not_mem_nil⟩
      have hreturn : '\n' ∉ dropReturn line := by
        unfold dropReturn
        split
        · exact fun h => hline (List.mem_cons_of_mem _ h)
        · exact hline
      simpa using hreturn
    · exact ih (by simpa [Ne.symm hc] using hline)

theorem not_isBlank_of_mem_wordsFrom {word cs : List Char}
    (hword : ∀ c ∈ word, isBlank c = false) :
    ∀ w ∈ wordsFrom word cs, ∀ c ∈ w, isBlank c = false := by
  induction cs generalizing word with
  | nil =>
    rw [wordsFrom]
    split_ifs
    · exact List.forall_mem_nil _
    · simpa using hword
  | cons c cs ih =>
    rw [wordsFrom]
    split_ifs with hblank
    · exact ih (List.forall_mem_nil _)
    · exact List.forall_mem_cons.mpr ⟨by simpa using hword, ih (List.forall_mem_nil _)⟩
    · exact ih (List.forall_mem_cons.mpr ⟨by simpa using hblank, hword⟩)

theorem mem_of_mem_trim {c : Char} {cs : List Char} (h : c ∈ trim cs) : c ∈ cs := by
  have hend : c ∈ trimStart cs := (trimEnd_isPrefix _).subset h
  exact (List.dropWhile_suffix _).subset hend

end Text

namespace Annotations

/-- Whether a line is a comment: it begins with three hyphens. -/
def isComment (line : List Char) : Bool := "---".toList.isPrefixOf line

/-- The lines of a text that are no comments. -/
def codeLines (text : String) : List (List Char) :=
  (Text.pieces '\n' text.toList).filter fun line => !isComment line

/-- One line that is a comment. -/
structure IsCommentLine (line : String) : Prop where
  one : IsOneLine line
  comment : isComment line.toList = true

theorem codeLines_of_isCommentLine {line : String} (h : IsCommentLine line) :
    codeLines line = [] := by
  rw [codeLines, Text.pieces_of_not_mem h.one]
  simp [h.comment]

/-- The lines of code of several lines.  A line with line feeds in it counts as several. -/
def code (lines : List String) : List (List Char) := lines.flatMap codeLines

@[simp] theorem code_append (ls ls' : List String) : code (ls ++ ls') = code ls ++ code ls' :=
  List.flatMap_append

theorem code_of_comments {ls : List String} (h : ∀ l ∈ ls, IsCommentLine l) : code ls = [] :=
  List.flatMap_eq_nil_iff.mpr fun l hl => codeLines_of_isCommentLine (h l hl)

theorem toList_unlines_cons (l : String) (ls : List String) :
    (unlines (l :: ls)).toList = l.toList ++ '\n' :: (unlines ls).toList := by
  simp [unlines]

theorem unlines_append (ls ls' : List String) :
    unlines (ls ++ ls') = unlines ls ++ unlines ls' := by
  simp [unlines]

/-- The header of a file is two lines. -/
theorem metaHeader_append (ls : List String) :
    metaHeader ++ unlines ls = unlines ("---@meta" :: "" :: ls) :=
  (unlines_append ["---@meta", ""] ls).symm

/-- What stands behind lines is cut on its own, since every line has its end. -/
theorem pieces_unlines_append (ls : List String) (rest : List Char) :
    Text.pieces '\n' ((unlines ls).toList ++ rest) =
      ls.flatMap (fun l => Text.pieces '\n' l.toList) ++ Text.pieces '\n' rest := by
  induction ls with
  | nil => rfl
  | cons l ls ih =>
    rw [toList_unlines_cons, List.append_assoc, List.cons_append, Text.pieces_append, ih,
      List.flatMap_cons, List.append_assoc]

/-- The code of a text of lines is that of the lines, and the empty end of the text. -/
theorem codeLines_unlines (ls : List String) : codeLines (unlines ls) = code ls ++ [[]] := by
  rw [codeLines, ← List.append_nil (unlines ls).toList, pieces_unlines_append, List.filter_append,
    List.filter_flatMap]
  rfl

/-! ### Documentation as comments -/

theorem isComment_append {front : String} (h : isComment front.toList = true) (back : String) :
    isComment (front ++ back).toList = true := by
  rw [isComment, List.isPrefixOf_iff_prefix] at h ⊢
  rw [String.toList_append]
  exact h.trans (List.prefix_append _ _)

theorem isCommentLine_docLine {line : List Char} (h : '\n' ∉ line) :
    IsCommentLine (docLine line) := by
  unfold docLine
  dsimp only
  split_ifs
  · exact ⟨by decide, rfl⟩
  · refine ⟨isOneLine_append.mpr ⟨by decide, ?_⟩, isComment_append rfl _⟩
    rw [IsOneLine, String.toList_ofList]
    exact fun hmem => h (Text.mem_of_mem_trim hmem)

theorem isCommentLine_of_mem_docLines {doc : Option String} :
    ∀ line ∈ docLines doc, IsCommentLine line := by
  rcases doc with - | text
  · exact List.forall_mem_nil _
  · exact List.forall_mem_map.mpr fun line hline =>
      isCommentLine_docLine (Text.not_mem_of_mem_linesFrom List.not_mem_nil line hline)

theorem code_docLines (doc : Option String) : code (docLines doc) = [] :=
  code_of_comments isCommentLine_of_mem_docLines

theorem isOneLine_trailingDoc (doc : Option String) : IsOneLine (trailingDoc doc) := by
  rcases doc with - | text
  · decide
  · refine isOneLine_join (List.forall_mem_map.mpr fun word hword => ?_)
    have hsolid := Text.not_isBlank_of_mem_wordsFrom (List.forall_mem_nil _) word hword
    refine isOneLine_append.mpr ⟨by decide, ?_⟩
    rw [IsOneLine, String.toList_ofList]
    exact fun hmem => absurd (hsolid _ hmem) (by decide)

theorem isOneLine_identifier {name : String} (h : IsOneLine name) : IsOneLine (identifier name) := by
  unfold identifier
  split_ifs
  · exact isOneLine_append.mpr ⟨h, by decide⟩
  · exact h

theorem isOneLine_parameterName (index : Nat) {p : Parameter} (h : IsOneLine p.name) :
    IsOneLine (parameterName index p) := by
  unfold parameterName
  split_ifs
  · exact isOneLine_append.mpr ⟨by decide, isOneLine_repr index⟩
  · exact isOneLine_identifier h

theorem isOneLine_optionalMark (p : Parameter) : IsOneLine (optionalMark p) := by
  unfold optionalMark
  split_ifs <;> decide

/-- The tag of a parameter is one comment, with the documentation behind it. -/
theorem isCommentLine_parameterLine {p : Parameter} {index : Nat} {lua : String}
    (hname : IsOneLine p.name) (hlua : IsOneLine lua) :
    IsCommentLine (parameterLine ((p, index), lua)) := by
  have hparts : parameterLine ((p, index), lua) =
      "---@param " ++ (parameterName index p ++ optionalMark p ++ " " ++ lua ++ trailingDoc p.doc) := by
    simp only [parameterLine, String.append_assoc]
  rw [hparts]
  refine ⟨?_, isComment_append rfl _⟩
  simp only [isOneLine_append]
  exact ⟨by decide, ⟨⟨⟨isOneLine_parameterName index hname, isOneLine_optionalMark p⟩, by decide⟩,
    hlua⟩, isOneLine_trailingDoc p.doc⟩

end Annotations

/-! ### Declarations without documentation -/

/-- A parameter without its documentation. -/
def Parameter.withoutDoc (p : Parameter) : Parameter := { p with doc := none }

/-- A method without its documentation and that of its parameters. -/
def Method.withoutDocs (m : Method) : Method :=
  { m with doc := none, parameters := m.parameters.map Parameter.withoutDoc }

/-- A field without its documentation. -/
def Field.withoutDoc (field : Field) : Field := { field with doc := none }

/-- A header without its documentation. -/
def Header.withoutDoc (h : Header) : Header := { h with doc := none }

namespace Declaration

/-- A declaration without any documentation. -/
def withoutDocs : Declaration → Declaration
  | classType c => classType
    { c with
      header := c.header.withoutDoc
      fields := c.fields.map Field.withoutDoc
      methods := c.methods.map Method.withoutDocs }
  | interfaceType i => interfaceType
    { i with
      header := i.header.withoutDoc
      fields := i.fields.map Field.withoutDoc
      methods := i.methods.map Method.withoutDocs }
  | enumType e => enumType
    { header := e.header.withoutDoc, fields := e.fields.map Field.withoutDoc }
  | delegateType d => delegateType
    { header := d.header.withoutDoc, invoke := d.invoke.withoutDocs }

/-- The methods of a declaration. -/
def methods : Declaration → List Method
  | classType c => c.methods
  | interfaceType i => i.methods
  | enumType _ => []
  | delegateType d => [d.invoke]

/-- The names of the parameters of all methods. -/
def parameterNames (d : Declaration) : List String :=
  d.methods.flatMap fun m => m.parameters.map Parameter.name

end Declaration

/-! ### Elements that have the same code -/

open Annotations (code)

/-- Two results are the same but for comments. -/
def SameCode (x y : Except RenderError (List String)) : Prop := x.map code = y.map code

namespace SameCode

variable {α : Type} {x y : Except RenderError (List String)}

theorem refl (x : Except RenderError (List String)) : SameCode x x := rfl

theorem ok {ls ls' : List String} (h : code ls = code ls') : SameCode (.ok ls) (.ok ls') :=
  congrArg Except.ok h

theorem cases (h : SameCode x y) :
    (∃ e, x = .error e ∧ y = .error e) ∨ ∃ ls ls', x = .ok ls ∧ y = .ok ls' ∧ code ls = code ls' := by
  rcases x with e | ls <;> rcases y with e' | ls'
  · exact Or.inl ⟨e, rfl, congrArg Except.error (Except.error.inj h).symm⟩
  · cases h
  · cases h
  · exact Or.inr ⟨ls, ls', rfl, rfl, Except.ok.inj h⟩

theorem bind {k k' : List String → Except RenderError (List String)} (h : SameCode x y)
    (hk : ∀ ls ls', code ls = code ls' → SameCode (k ls) (k' ls')) :
    SameCode (x >>= k) (y >>= k') := by
  rcases h.cases with ⟨e, rfl, rfl⟩ | ⟨ls, ls', rfl, rfl, hcode⟩
  · exact refl _
  · exact hk ls ls' hcode

/-- What goes on with one result in two ways. -/
theorem andThen {z : Except RenderError α} {k k' : α → Except RenderError (List String)}
    (hk : ∀ a, SameCode (k a) (k' a)) : SameCode (z >>= k) (z >>= k') := by
  rcases z with e | a
  · exact refl _
  · exact hk a

end SameCode

namespace Annotations

variable {s : Spelling}

theorem inputs_withoutDoc (params : List Parameter) :
    inputs (params.map Parameter.withoutDoc) =
      (inputs params).map fun p => (p.1.withoutDoc, p.2) := by
  rw [inputs, inputs, List.zipIdx_map, List.filter_map]
  rfl

theorem inputTypes_withoutDoc (s : Spelling) (params : List Parameter) :
    inputTypes s (params.map Parameter.withoutDoc) = inputTypes s params := by
  rw [inputTypes, inputTypes, inputs_withoutDoc, List.map_map]
  rfl

theorem resultTypes_withoutDoc (s : Spelling) (returnType : String) (params : List Parameter) :
    resultTypes s returnType (params.map Parameter.withoutDoc) =
      resultTypes s returnType params := by
  have houtputs : ((params.map Parameter.withoutDoc).filter Parameter.isOutput).map Parameter.type =
      (params.filter Parameter.isOutput).map Parameter.type := by
    rw [List.filter_map, List.map_map]
    rfl
  rw [resultTypes, resultTypes, houtputs]

theorem functionType_withoutDoc (params : List Parameter) (types results : List String) :
    functionType (params.map Parameter.withoutDoc) types results =
      functionType params types results := by
  rw [functionType, functionType, inputs_withoutDoc, List.zip_map_left, List.map_map]
  rfl

theorem signature_withoutDocs (s : Spelling) (m : Method) :
    signature s m.withoutDocs = signature s m := by
  simp only [signature, Method.withoutDocs, inputTypes_withoutDoc, resultTypes_withoutDoc,
    functionType_withoutDoc]

theorem overloads_withoutDocs (s : Spelling) (made : String) (ms : List Method) :
    overloads s made (ms.map Method.withoutDocs) = overloads s made ms := by
  have hone (m : Method) : overload s made m.withoutDocs = overload s made m := by
    simp only [overload, Method.withoutDocs, inputTypes_withoutDoc, functionType_withoutDoc]
  cases ms with
  | nil => rfl
  | cons m ms =>
    show ((m :: ms).map Method.withoutDocs).mapM (overload s made) = (m :: ms).mapM (overload s made)
    rw [List.mapM_map]
    exact congrArg (fun g => (m :: ms).mapM g) (funext hone)

theorem functionLine_withoutDocs (owner : String) (m : Method) :
    functionLine owner m.withoutDocs = functionLine owner m := by
  have hnames : argumentNames m.withoutDocs.parameters = argumentNames m.parameters := by
    rw [argumentNames, argumentNames, Method.withoutDocs, inputs_withoutDoc, List.map_map]
    rfl
  rw [functionLine, functionLine, hnames]
  rfl

/-- The tags of parameters are no code. -/
theorem code_parameterLines (hroot : IsOneLine s.root) {params : List Parameter}
    (hnames : ∀ p ∈ params, IsOneLine p.name) {types : List String}
    (htypes : inputTypes s params = .ok types) :
    code (((inputs params).zip types).map parameterLine) = [] := by
  refine code_of_comments (List.forall_mem_map.mpr ?_)
  rintro ⟨⟨p, index⟩, lua⟩ hmem
  obtain ⟨hinput, hlua⟩ := List.of_mem_zip hmem
  exact isCommentLine_parameterLine (hnames p (fst_mem_of_mem_inputs hinput)) (Spelling.isOneLine_of_values hroot htypes lua hlua)

theorem sameCode_parameterLines (hroot : IsOneLine s.root) {params : List Parameter}
    (hnames : ∀ p ∈ params, IsOneLine p.name) :
    SameCode (parameterLines s params) (parameterLines s (params.map Parameter.withoutDoc)) := by
  have hnames' : ∀ p ∈ params.map Parameter.withoutDoc, IsOneLine p.name :=
    List.forall_mem_map.mpr hnames
  rw [parameterLines, parameterLines]
  rcases htypes : inputTypes s params with e | types
  · rw [inputTypes_withoutDoc, htypes]
    exact .refl _
  · have htypes' : inputTypes s (params.map Parameter.withoutDoc) = .ok types := by
      rw [inputTypes_withoutDoc, htypes]
    rw [htypes']
    refine .ok ?_
    rw [code_parameterLines hroot hnames htypes, code_parameterLines hroot hnames' htypes']

theorem sameCode_method (hroot : IsOneLine s.root) (owner : String) {m : Method}
    (hnames : ∀ p ∈ m.parameters, IsOneLine p.name) :
    SameCode (method s owner m) (method s owner m.withoutDocs) := by
  have hresults : resultLines s m.withoutDocs.returnType m.withoutDocs.parameters =
      resultLines s m.returnType m.parameters := by
    simp only [resultLines, Method.withoutDocs, resultTypes_withoutDoc]
  unfold method
  rw [hresults, functionLine_withoutDocs]
  show SameCode (if m.name.isEmpty then _ else _) (if m.name.isEmpty then _ else _)
  split_ifs
  · exact .refl _
  · rcases (sameCode_parameterLines hroot hnames).cases with
      ⟨e, he, he'⟩ | ⟨ls, ls', hls, hls', hcode⟩
    · rw [he, Method.withoutDocs, he']
      exact .refl _
    · rw [hls, Method.withoutDocs, hls']
      rcases resultLines s m.returnType m.parameters with e | results
      · exact .refl _
      · refine .ok ?_
        simp only [code_append, code_docLines, hcode]

theorem sameCode_field (owner name lua value : String) (doc doc' : Option String) :
    SameCode (field owner name lua value doc) (field owner name lua value doc') := by
  unfold field
  split_ifs
  · exact .refl _
  · refine .ok ?_
    rw [code_append, code_append, code_docLines, code_docLines]

end Annotations

namespace Block

open Annotations (code_append code_docLines codeLines codeLines_unlines)

/-! ### Blocks that have the same code -/

variable {α β : Type}

theorem sameCode_concat {lines : α → Except RenderError (List String)}
    {lines' : β → Except RenderError (List String)} {g : α → β} {as : List α}
    (h : ∀ a ∈ as, SameCode (lines a) (lines' (g a))) :
    SameCode (concat lines as) (concat lines' (as.map g)) := by
  induction as with
  | nil => exact .refl _
  | cons a as ih =>
    obtain ⟨ha, has⟩ := List.forall_mem_cons.mp h
    rw [List.map_cons, concat, concat]
    rcases ha.cases with ⟨e, he, he'⟩ | ⟨first, first', hfirst, hfirst', hcode⟩
    · rw [he, he']
      exact .refl _
    · rw [hfirst, hfirst']
      rcases (ih has).cases with ⟨e, he, he'⟩ | ⟨rest, rest', hrest, hrest', hcodes⟩
      · rw [he, he']
        exact .refl _
      · rw [hrest, hrest']
        exact .ok (by rw [code_append, code_append, hcode, hcodes])

theorem sameCode_fieldLines (s : Spelling) (owner : String) (field : Field) :
    SameCode (fieldLines s owner field) (fieldLines s owner field.withoutDoc) := by
  have htype : fieldType s field.withoutDoc = fieldType s field := rfl
  rw [fieldLines, fieldLines, htype]
  rcases fieldType s field with e | lua
  · exact .refl _
  · exact Annotations.sameCode_field owner field.name lua "nil" field.doc none

theorem sameCode_methodLines {s : Spelling} (hroot : IsOneLine s.root) (owner : String) {m : Method}
    (hnames : ∀ p ∈ m.parameters, IsOneLine p.name) :
    SameCode (methodLines s owner m) (methodLines s owner m.withoutDocs) := by
  rw [methodLines, methodLines]
  show SameCode (if m.isConstructor then _ else _) (if m.isConstructor then _ else _)
  split_ifs
  · exact .refl _
  · rcases (Annotations.sameCode_method hroot owner hnames).cases with
      ⟨e, he, he'⟩ | ⟨ls, ls', hls, hls', hcode⟩
    · rw [he, he']
      exact .refl _
    · rw [hls, hls']
      exact .ok (congrArg (Annotations.codeLines "" ++ ·) hcode)

theorem constructors_withoutDocs (ms : List Method) :
    (ms.map Method.withoutDocs).filter Method.isConstructor =
      (ms.filter Method.isConstructor).map Method.withoutDocs := by
  rw [List.filter_map]
  rfl

theorem isOneLine_root (f : Flavor) : IsOneLine f.root := by cases f <;> decide

/-- The lines of all fields. -/
theorem sameCode_fields (s : Spelling) (owner : String) (fields : List Field) :
    SameCode (concat (fieldLines s owner) fields)
      (concat (fieldLines s owner) (fields.map Field.withoutDoc)) :=
  sameCode_concat fun field _ => sameCode_fieldLines s owner field

/-- The lines of all methods. -/
theorem sameCode_methods {s : Spelling} (hroot : IsOneLine s.root) (owner : String)
    {ms : List Method} (hnames : ∀ m ∈ ms, ∀ p ∈ m.parameters, IsOneLine p.name) :
    SameCode (concat (methodLines s owner) ms)
      (concat (methodLines s owner) (ms.map Method.withoutDocs)) :=
  sameCode_concat fun m hm => sameCode_methodLines hroot owner (hnames m hm)

/-! ### Whole declarations -/

theorem sameCode_ofClass (f : Flavor) (c : ClassType)
    (hnames : ∀ m ∈ c.methods, ∀ p ∈ m.parameters, IsOneLine p.name) :
    SameCode (lines f (.classType c)) (lines f (Declaration.classType c).withoutDocs) := by
  have hmade (s : Spelling) (made : String) :
      Annotations.overloads s made
          ((c.methods.map Method.withoutDocs).filter Method.isConstructor) =
        Annotations.overloads s made c.constructors := by
    rw [constructors_withoutDocs, Annotations.overloads_withoutDocs]
    rfl
  refine .andThen fun base => .andThen fun interfaces => .andThen fun head => ?_
  show SameCode (if c.isStatic then _ else _) (if c.isStatic then _ else _)
  by_cases hstatic : c.isStatic
  case' pos => rw [if_pos hstatic, if_pos hstatic]
  case' neg =>
    rw [if_neg hstatic, if_neg hstatic]
    show SameCode _ (Annotations.overloads _ _
      ((c.methods.map Method.withoutDocs).filter Method.isConstructor) >>= _)
    rw [hmade]
  -- whatever the overloads are, the same lines follow
  all_goals
    refine .andThen fun overloads => (sameCode_fields _ _ c.fields).bind ?_
    intro fields fields' hfields
    refine (sameCode_methods (isOneLine_root f) _ hnames).bind fun methods methods' hmethods => ?_
    refine .ok ?_
    simp only [code_append, code_docLines, hfields, hmethods]
    rfl

theorem sameCode_ofInterface (f : Flavor) (i : InterfaceType)
    (hnames : ∀ m ∈ i.methods, ∀ p ∈ m.parameters, IsOneLine p.name) :
    SameCode (lines f (.interfaceType i)) (lines f (Declaration.interfaceType i).withoutDocs) := by
  refine .andThen fun interfaces => .andThen fun head => (sameCode_fields _ _ i.fields).bind ?_
  intro fields fields' hfields
  refine (sameCode_methods (isOneLine_root f) _ hnames).bind fun methods methods' hmethods => .ok ?_
  simp only [code_append, code_docLines, hfields, hmethods]
  rfl

theorem sameCode_ofEnum (f : Flavor) (e : EnumType) :
    SameCode (lines f (.enumType e)) (lines f (Declaration.enumType e).withoutDocs) := by
  let member (p : Field × Nat) := Annotations.field (owner f e.header) p.1.name
    (declaredName f e.header) (toString (memberValue f p.2 p.1)) p.1.doc
  have hmembers : SameCode (concat member e.fields.zipIdx)
      (concat member (e.fields.map Field.withoutDoc).zipIdx) := by
    rw [List.zipIdx_map]
    exact sameCode_concat fun p _ => Annotations.sameCode_field ..
  refine .andThen fun head => hmembers.bind fun members members' hcode => .ok ?_
  simp only [code_append, code_docLines, hcode]
  rfl

theorem sameCode_ofDelegate (f : Flavor) (dl : DelegateType) :
    SameCode (lines f (.delegateType dl)) (lines f (Declaration.delegateType dl).withoutDocs) := by
  have halias (s : Spelling) (fullName : String) :
      SameCode (Annotations.aliasLines s fullName dl.invoke dl.header.doc)
        (Annotations.aliasLines s fullName dl.invoke.withoutDocs none) := by
    unfold Annotations.aliasLines
    rw [Annotations.signature_withoutDocs]
    split_ifs
    · exact .refl _
    · rcases Annotations.signature s dl.invoke with e | type
      · exact .refl _
      · exact .ok (by simp only [code_append, code_docLines])
  refine (halias (spelling f []) (declaredName f dl.header)).bind fun ls ls' hcode => .ok ?_
  rw [code_append, code_append, hcode]

/-- A declaration has the same lines of code without its documentation. -/
theorem sameCode_lines (f : Flavor) {d : Declaration}
    (hnames : ∀ m ∈ d.methods, ∀ p ∈ m.parameters, IsOneLine p.name) :
    SameCode (lines f d) (lines f d.withoutDocs) := by
  cases d with
  | classType c => exact sameCode_ofClass f c hnames
  | interfaceType i => exact sameCode_ofInterface f i hnames
  | enumType e => exact sameCode_ofEnum f e
  | delegateType dl => exact sameCode_ofDelegate f dl

theorem parameterNames_withoutDocs (d : Declaration) :
    d.withoutDocs.parameterNames = d.parameterNames := by
  have hmethods (ms : List Method) :
      (ms.map Method.withoutDocs).flatMap (fun m => m.parameters.map Parameter.name) =
        ms.flatMap fun m => m.parameters.map Parameter.name := by
    have hone (m : Method) : m.withoutDocs.parameters.map Parameter.name =
        m.parameters.map Parameter.name := by
      rw [Method.withoutDocs, List.map_map]
      rfl
    rw [List.flatMap_map]
    exact congrArg ms.flatMap (funext hone)
  cases d with
  | classType c => exact hmethods c.methods
  | interfaceType i => exact hmethods i.methods
  | enumType e => rfl
  | delegateType dl => exact hmethods [dl.invoke]

/-- **Documentation never changes code.**  Two declarations that differ in documentation only have
the same error or the same lines of code, whatever the documentation is.  No name of a parameter may
have a line feed in it, since documentation stands behind the rest of the name. -/
theorem render_sameCode (f : Flavor) {d d' : Declaration} (hsame : d.withoutDocs = d'.withoutDocs)
    (hnames : ∀ name ∈ d.parameterNames, IsOneLine name) :
    (∃ e, render f d = .error e ∧ render f d' = .error e) ∨
      ∃ text text', render f d = .ok text ∧ render f d' = .ok text' ∧
        codeLines text = codeLines text' := by
  have hnames' : ∀ name ∈ d'.parameterNames, IsOneLine name := by
    rw [← parameterNames_withoutDocs, ← hsame, parameterNames_withoutDocs]
    exact hnames
  have hlines : SameCode (lines f d) (lines f d') := by
    have hd := sameCode_lines f fun m hm p hp =>
      hnames p.name (List.mem_flatMap.mpr ⟨m, hm, List.mem_map_of_mem hp⟩)
    have hd' := sameCode_lines f fun m hm p hp =>
      hnames' p.name (List.mem_flatMap.mpr ⟨m, hm, List.mem_map_of_mem hp⟩)
    rw [hsame] at hd
    exact hd.trans hd'.symm
  rcases hlines.cases with ⟨e, he, he'⟩ | ⟨ls, ls', hls, hls', hcode⟩
  · exact Or.inl ⟨e, by rw [render, he], by rw [render, he']⟩
  · refine Or.inr ⟨_, _, by rw [render, hls], by rw [render, hls'], ?_⟩
    rw [codeLines_unlines, codeLines_unlines, hcode]

/-- A class with one text as the documentation of everything in it. -/
def documented (doc : Option String) : Declaration :=
  .classType
    { header := { name := "Door", space := "Shop", doc := doc }
      fields := [{ name := "width", type := "int", doc := doc }]
      methods := [{ name := "open", doc := doc,
                    parameters := [{ name := "end", type := "bool", doc := doc }] }] }

/-- Documentation that has code, an empty line and a tag of its own. -/
def forged : Option String := some "x = 1\r\n\n---@class y\n--"

/-- The forged lines are comments in the text of the class. -/
theorem render_sameCode_forged :
    (documented forged).withoutDocs = (documented none).withoutDocs ∧
      (∀ name ∈ (documented forged).parameterNames, IsOneLine name) ∧
      ∃ text text', render .xlua (documented forged) = .ok text ∧
        render .xlua (documented none) = .ok text' ∧ text ≠ text' ∧
        codeLines text = codeLines text' := by
  have hsame : (documented forged).withoutDocs = (documented none).withoutDocs := by decide
  have hnames : ∀ name ∈ (documented forged).parameterNames, IsOneLine name := by decide
  have hdiffer : render .xlua (documented forged) ≠ render .xlua (documented none) := by
    decide +kernel
  refine ⟨hsame, hnames, ?_⟩
  rcases render_sameCode .xlua hsame hnames with ⟨e, he, he'⟩ | ⟨text, text', htext, htext', hcode⟩
  · exact absurd (he.trans he'.symm) hdiffer
  · refine ⟨text, text', htext, htext', ?_, hcode⟩
    rintro rfl
    exact hdiffer (htext.trans htext'.symm)

-- With a line feed in the name of a parameter, the documentation behind it is code.
example :
    let broken (doc : Option String) : Declaration := .classType
      { header := { name := "A" }
        methods := [{ name := "m", parameters := [{ name := "a\nb", type := "int", doc }] }] }
    (render .xlua (broken none)).map codeLines ≠
      (render .xlua (broken (some "c"))).map codeLines := by
  decide +kernel

end Block

end LuaTypings
