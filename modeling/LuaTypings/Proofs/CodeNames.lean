/-
LuaTypings/Proofs/CodeNames.lean

The names in the code of a block.  Members, functions and arguments get their names from
`Annotations.identifier`, which changes keywords; the name of a table is taken from the declaration
as it stands.  So a keyword is a name in the code exactly if it is a segment of the table's name
(`keyword_mem_names_iff`).
-/
import LuaTypings.Proofs.ArgumentNames
import LuaTypings.Proofs.Statements

namespace LuaTypings

open HostType (Token tokens StartsApart IsName isNameChar)

/-! ### Paths in a text -/

/-- The names in a token: a path is cut at its dots. -/
def HostType.Token.path : Token → List (List Char)
  | .name first rest => Text.pieces '.' (first :: rest)
  | .sign _ => []

namespace Annotations

/-- The names in a text. -/
def paths (cs : List Char) : List (List Char) := (tokens cs).flatMap Token.path

theorem paths_append (cs : List Char) {rest : List Char} (h : StartsApart rest) :
    paths (cs ++ rest) = paths cs ++ paths rest := by
  rw [paths, HostType.tokens_append cs h, List.flatMap_append, paths, paths]

theorem paths_cons {c : Char} (h : isNameChar c = false) (cs : List Char) :
    paths (c :: cs) = paths cs := by
  by_cases hblank : Text.isBlank c = true
  · rw [paths, HostType.tokens_cons_of_blank hblank, paths]
  · rw [paths, HostType.tokens_cons_of_sign h (by simpa using hblank)]
    rfl

theorem paths_name {name : String} (h : IsName name) :
    paths name.toList = Text.pieces '.' name.toList := by
  obtain ⟨c, cs, hname, htokens⟩ := HostType.tokens_of_isName h
  rw [paths, htokens, hname]
  exact List.append_nil _

/-- In front of what is no name, a name ends. -/
theorem paths_name_append {name : String} (h : IsName name) {c : Char} (hc : isNameChar c = false)
    (rest : List Char) :
    paths (name.toList ++ c :: rest) = Text.pieces '.' name.toList ++ paths rest := by
  rw [paths_append _ (HostType.startsApart_cons.mpr hc), paths_name h, paths_cons hc]

/-- A name without a dot. -/
structure IsWord (name : String) : Prop where
  isName : IsName name
  dot : '.' ∉ name.toList

theorem IsWord.pieces {name : String} (h : IsWord name) :
    Text.pieces '.' name.toList = [name.toList] := Text.pieces_of_not_mem h.dot

theorem isWord_of_isPlain {name : String} (h : HostName.IsPlain name) (hne : name ≠ "") :
    IsWord name where
  isName := ⟨by simpa using hne, fun c hc => HostName.isNameChar_of_isIdentifierChar (h c hc)⟩
  dot hmem := absurd (h _ hmem) (by decide)

theorem paths_arguments {args : List String} (h : ∀ a ∈ args, IsWord a) :
    paths (String.intercalate ", " args).toList = args.map String.toList := by
  rw [String.toList_intercalate]
  induction args with
  | nil => rfl
  | cons a args ih =>
    obtain ⟨ha, hargs⟩ := List.forall_mem_cons.mp h
    cases args with
    | nil =>
      rw [List.map_cons, List.map_nil, List.intercalate_singleton, paths_name ha.isName, ha.pieces]
    | cons b args =>
      rw [List.map_cons, List.map_cons, List.intercalate_cons_cons, ← List.map_cons,
        List.append_assoc]
      show paths (a.toList ++ ',' :: ' ' :: ", ".toList.intercalate ((b :: args).map String.toList)) = _
      rw [paths_name_append ha.isName (by decide), paths_cons (by decide), ih hargs, ha.pieces]
      rfl

/-! ### Names in a line of code -/

/-- The equals sign of an assignment and the closing parenthesis of a function. -/
def endsNames (c : Char) : Bool := c == '=' || c == ')'

/-- Where two words stand side by side, the first one is no name but `local` or `function`. -/
def behindWord : List Token → List Token
  | .name _ _ :: .name first rest :: ts => .name first rest :: ts
  | ts => ts

/-- The names that a line of code gives to something: the path of a table, of a member or of a
function, cut at its dots, and the arguments of a function. -/
def names (line : List Char) : List (List Char) :=
  (behindWord (tokens (line.takeWhile fun c => !endsNames c))).flatMap Token.path

-- A table that is called like the word in front of one is told from it.
example :
    names "local a = \x7b\x7d".toList = [['a']] ∧
    names "local = \x7b\x7d".toList = ["local".toList] ∧
    names "a.local = -1".toList = [['a'], "local".toList] ∧
    names "function a.b:end(c, d) end".toList = [['a'], ['b'], "end".toList, ['c'], ['d']] ∧
    names "function function.New() end".toList = ["function".toList, "New".toList] := by
  decide +kernel

theorem names_of_cut {front : List Char} (hfront : ∀ c ∈ front, endsNames c = false) {c : Char}
    (hc : endsNames c = true) (back : List Char) :
    names (front ++ c :: back) = (behindWord (tokens front)).flatMap Token.path := by
  have hstop : (front ++ c :: back).takeWhile (fun c => !endsNames c) = front := by
    rw [List.takeWhile_append_of_pos (fun x hx => by rw [hfront x hx]; rfl),
      List.takeWhile_cons_of_neg (by simp [hc]), List.append_nil]
  rw [names, hstop]

theorem endsNames_of_isNameChar {c : Char} (h : isNameChar c = true) : endsNames c = false := by
  unfold endsNames
  rw [Bool.or_eq_false_iff, beq_eq_false_iff_ne, beq_eq_false_iff_ne]
  constructor
  · rintro rfl
    exact absurd h (by decide)
  · rintro rfl
    exact absurd h (by decide)

/-- A line that starts with a name and goes on with an equals sign assigns to that name. -/
theorem names_assigned {name : String} (h : IsName name) (back : List Char) :
    names (name.toList ++ ' ' :: '=' :: back) = Text.pieces '.' name.toList := by
  have hfront : ∀ c ∈ name.toList ++ [' '], endsNames c = false := by
    refine List.forall_mem_append.mpr ⟨fun c hc => endsNames_of_isNameChar (h.2 c hc), ?_⟩
    exact List.forall_mem_singleton.mpr (by decide)
  obtain ⟨c, cs, hname, htokens⟩ := HostType.tokens_of_isName h
  rw [List.append_cons, names_of_cut hfront (by decide),
    HostType.tokens_append_blanks _ (List.forall_mem_singleton.mpr (by decide)), htokens, hname]
  exact List.append_nil _

/-- What is declared stands behind a word. -/
theorem names_declared {word owner : String} (hword : IsName word) (howner : IsName owner)
    {rest : List Char} (hrest : ∀ c ∈ rest, endsNames c = false) {c : Char}
    (hc : endsNames c = true) (back : List Char) :
    names (word.toList ++ ' ' :: (owner.toList ++ rest) ++ c :: back) =
      paths (owner.toList ++ rest) := by
  have hname {name : String} (h : IsName name) : ∀ c ∈ name.toList, endsNames c = false :=
    fun c hc => endsNames_of_isNameChar (h.2 c hc)
  have hfront : ∀ c ∈ word.toList ++ ' ' :: (owner.toList ++ rest), endsNames c = false :=
    List.forall_mem_append.mpr ⟨hname hword, List.forall_mem_cons.mpr
      ⟨by decide, List.forall_mem_append.mpr ⟨hname howner, hrest⟩⟩⟩
  obtain ⟨w, ws, -, hwtokens⟩ := HostType.tokens_of_isName hword
  obtain ⟨d, ds, hds⟩ := List.exists_cons_of_ne_nil howner.1
  have hd : isNameChar d = true := howner.2 d (by rw [hds]; exact List.mem_cons_self)
  obtain ⟨more, rest', hmore, hrun, hapart⟩ := HostType.exists_run hd (ds ++ rest)
  have hotokens : tokens (owner.toList ++ rest) = .name d more :: tokens rest' := by
    rw [hds, List.cons_append, hmore, ← List.cons_append, HostType.tokens_name hrun hapart]
  rw [names_of_cut hfront hc, HostType.tokens_append _ (HostType.startsApart_cons.mpr (by decide)),
    HostType.tokens_cons_of_blank (by decide), hwtokens, paths, hotokens]
  rfl

/-! ### Names in statements -/

theorem isPlain_identifier {name : String} (h : HostName.IsPlain name) :
    HostName.IsPlain (identifier name) := by
  by_cases hkeyword : name ∈ keywords
  · rw [identifier_of_keyword hkeyword, HostName.IsPlain, String.toList_append]
    exact List.forall_mem_append.mpr ⟨h, List.forall_mem_singleton.mpr (by decide)⟩
  · rwa [identifier_of_not_keyword hkeyword]

theorem identifier_ne_empty {name : String} (h : name ≠ "") : identifier name ≠ "" := by
  by_cases hkeyword : name ∈ keywords
  · rw [identifier_of_keyword hkeyword]
    simp
  · rwa [identifier_of_not_keyword hkeyword]

theorem isWord_identifier {name : String} (h : HostName.IsPlain name) (hne : name ≠ "") :
    IsWord (identifier name) := isWord_of_isPlain (isPlain_identifier h) (identifier_ne_empty hne)

theorem isPlain_positionName (index : Nat) : HostName.IsPlain (positionName index) := by
  intro c hc
  rw [positionName, String.toList_append] at hc
  rcases List.mem_append.mp hc with hc | hc
  · have hall : "arg".toList.all HostName.isIdentifierChar = true := by decide
    exact List.all_eq_true.mp hall c hc
  · have hdigits : c ∈ Nat.toDigits 10 index := by simpa using hc
    exact HostName.isIdentifierChar_of_isDigit
      (Nat.isDigit_of_mem_toDigits (by decide) (by decide) hdigits)

theorem isWord_parameterName (index : Nat) {p : Parameter} (h : HostName.IsPlain p.name) :
    IsWord (parameterName index p) := by
  by_cases hempty : p.name = ""
  · rw [parameterName_of_unnamed hempty]
    exact isWord_of_isPlain (isPlain_positionName index) (positionName_ne_empty index)
  · rw [parameterName_of_named hempty]
    exact isWord_identifier h hempty

theorem isWord_argumentNames {params : List Parameter}
    (h : ∀ p ∈ params, HostName.IsPlain p.name) : ∀ a ∈ argumentNames params, IsWord a :=
  List.forall_mem_map.mpr fun p hp => isWord_parameterName p.2 (h p.1 (fst_mem_of_mem_inputs hp))

variable {table : String}

/-- A path goes on behind a dot. -/
theorem isName_member (htable : IsName table) {name : String} (h : IsWord name) :
    IsName (table ++ "." ++ name) := by
  refine ⟨by simp, fun c hc => ?_⟩
  simp only [String.toList_append, List.mem_append] at hc
  rcases hc with (hc | hc) | hc
  · exact htable.2 c hc
  · rw [List.mem_singleton.mp hc]
    decide
  · exact h.isName.2 c hc

theorem pieces_member {name : String} (h : IsWord name) :
    Text.pieces '.' (table ++ "." ++ name).toList = Text.pieces '.' table.toList ++ [name.toList] := by
  rw [← h.pieces, ← Text.pieces_append]
  simp

theorem names_assignment (htable : IsName table) {name : String} (h : HostName.IsPlain name)
    (hne : name ≠ "") (value : String) : names (assignment table name value).toList =
      Text.pieces '.' table.toList ++ [(identifier name).toList] := by
  have hword := isWord_identifier h hne
  have hline : (assignment table name value).toList =
      (table ++ "." ++ identifier name).toList ++ ' ' :: '=' :: ' ' :: value.toList := by
    simp [assignment]
  rw [hline, names_assigned (isName_member htable hword), pieces_member hword]

/-- The names in front of the parentheses of a function, and between them. -/
theorem names_function (htable : IsName table) {name : String} (h : IsWord name) (isStatic : Bool)
    {text : String} (htext : ∀ c ∈ text.toList, endsNames c = false) :
    names ("function " ++ table ++ (if isStatic then "." else ":") ++ name ++ "(" ++ text
      ++ ") end").toList =
      Text.pieces '.' table.toList ++ name.toList :: paths text.toList := by
  let rest : List Char := (if isStatic then '.' else ':') :: (name.toList ++ '(' :: text.toList)
  have hrest : ∀ c ∈ rest, endsNames c = false := by
    refine List.forall_mem_cons.mpr ⟨by cases isStatic <;> decide, List.forall_mem_append.mpr
      ⟨fun c hc => endsNames_of_isNameChar (h.isName.2 c hc), List.forall_mem_cons.mpr
        ⟨by decide, htext⟩⟩⟩
  have hline : ("function " ++ table ++ (if isStatic then "." else ":") ++ name ++ "(" ++ text
      ++ ") end").toList =
      "function".toList ++ ' ' :: (table.toList ++ rest) ++ ')' :: " end".toList := by
    cases isStatic <;> simp [rest]
  rw [hline, names_declared (by decide) htable hrest (by decide)]
  cases isStatic with
  | false =>
    show paths (table.toList ++ ':' :: (name.toList ++ '(' :: text.toList)) = _
    rw [paths_name_append htable (by decide), paths_name_append h.isName (by decide), h.pieces]
    rfl
  | true =>
    -- the dot joins the table and the function to one path
    have hpath : table.toList ++ '.' :: (name.toList ++ '(' :: text.toList) =
        (table ++ "." ++ name).toList ++ '(' :: text.toList := by simp
    show paths (table.toList ++ '.' :: (name.toList ++ '(' :: text.toList)) = _
    rw [hpath, paths_name_append (isName_member htable h) (by decide), pieces_member h,
      List.append_assoc]
    rfl

theorem names_functionLine (htable : IsName table) {m : Method} (h : HostName.IsPlain m.name)
    (hne : m.name ≠ "") (hparameters : ∀ p ∈ m.parameters, HostName.IsPlain p.name) :
    names (functionLine table m).toList = Text.pieces '.' table.toList ++
      (identifier m.name).toList :: (argumentNames m.parameters).map String.toList := by
  have hwords := isWord_argumentNames hparameters
  have hall : ∀ c ∈ [',', ' '], endsNames c = false :=
    List.forall_mem_cons.mpr ⟨by decide, List.forall_mem_singleton.mpr (by decide)⟩
  have htext : ∀ c ∈ (String.intercalate ", " (argumentNames m.parameters)).toList,
      endsNames c = false := by
    intro c hc
    by_contra hends
    have hbetween : c ∉ ", ".toList := fun hmem => hends (hall c hmem)
    rw [String.toList_intercalate, Text.mem_intercalate_iff hbetween] at hc
    obtain ⟨text, htext, hc⟩ := hc
    obtain ⟨a, ha, rfl⟩ := List.mem_map.mp htext
    exact hends (endsNames_of_isNameChar ((hwords a ha).isName.2 c hc))
  rw [functionLine, names_function htable (isWord_identifier h hne) m.isStatic htext,
    paths_arguments hwords]

theorem names_factoryLine (htable : IsName table) : names (factoryLine table).toList =
    Text.pieces '.' table.toList ++ ["New".toList] := by
  have hline : factoryLine table =
      "function " ++ table ++ (if true then "." else ":") ++ "New" ++ "(" ++ "" ++ ") end" := by
    simp [factoryLine, String.append_assoc]
  rw [hline, names_function htable ⟨by decide, by decide⟩ true (List.forall_mem_nil _)]
  rfl

/-! ### Keywords in statements -/

/-- Of all keywords, a statement has only those among its names that are given. -/
def KeepsTo (segments : List (List Char)) (statement : String) : Prop :=
  ∀ k ∈ keywords, k.toList ∈ names statement.toList → k.toList ∈ segments

theorem keepsTo_of_names {statement : String} {segments : List (List Char)} (others : List String)
    (h : names statement.toList = segments ++ others.map String.toList)
    (hothers : ∀ name ∈ others, name ∉ keywords) : KeepsTo segments statement := by
  intro k hk hmem
  rw [h] at hmem
  refine (List.mem_append.mp hmem).resolve_right fun hother => ?_
  obtain ⟨name, hname, heq⟩ := List.mem_map.mp hother
  exact hothers name hname (String.toList_inj.mp heq ▸ hk)

theorem keepsTo_blank (segments : List (List Char)) : KeepsTo segments "" :=
  fun _ _ hmem => absurd hmem List.not_mem_nil

theorem keepsTo_assignment (htable : IsName table) {name : String} (h : HostName.IsPlain name)
    (hne : name ≠ "") (value : String) :
    KeepsTo (Text.pieces '.' table.toList) (assignment table name value) :=
  keepsTo_of_names [identifier name] (names_assignment htable h hne value)
    (List.forall_mem_singleton.mpr (identifier_not_mem_keywords name))

theorem keepsTo_functionLine (htable : IsName table) {m : Method} (h : HostName.IsPlain m.name)
    (hne : m.name ≠ "") (hparameters : ∀ p ∈ m.parameters, HostName.IsPlain p.name) :
    KeepsTo (Text.pieces '.' table.toList) (functionLine table m) :=
  keepsTo_of_names (identifier m.name :: argumentNames m.parameters)
    (names_functionLine htable h hne hparameters)
    (List.forall_mem_cons.mpr ⟨identifier_not_mem_keywords m.name,
      List.forall_mem_map.mpr fun p _ => parameterName_not_mem_keywords p.2 p.1⟩)

theorem keepsTo_factoryLine (htable : IsName table) :
    KeepsTo (Text.pieces '.' table.toList) (factoryLine table) :=
  keepsTo_of_names ["New"] (names_factoryLine htable) (by decide +kernel)

end Annotations

namespace Block

open Annotations (keywords names codeLines KeepsTo)

variable {f : Flavor} {d : Declaration}

/-! ### Keywords in a block -/

/-- The segments of the name of a table: the last one of the type's name, or all that its namespace
and its name have. -/
def ownerSegments (f : Flavor) (h : Header) : List (List Char) :=
  match f.conventions.tables with
  | .localTable => (HostName.segments h.name).getLast?.toList
  | .globalTable => HostName.segments (HostName.inNamespace h.space h.name)

/-- The segments of the table that a declaration creates; a delegate creates none. -/
def tableSegments (f : Flavor) : Declaration → List (List Char)
  | .delegateType _ => []
  | d => ownerSegments f d.header

theorem pieces_owner (h : d.HasPath) :
    Text.pieces '.' (owner f d.header).toList = ownerSegments f d.header := by
  cases f with
  | xlua =>
    have hlast := HostName.getLast?_segments h.name
    have hword := HostName.mem_segments h.name (HostName.localName_mem_segments h.name)
    show Text.pieces '.' (HostName.localName d.name).toList =
      (HostName.segments d.name).getLast?.toList
    rw [hlast, Text.pieces_of_not_mem fun hdot => absurd (hword.2 _ hdot) (by decide)]
    rfl
  | tolua =>
    have hpath : owner .tolua d.header = HostName.luaPath d.fullName := String.empty_append
    rw [hpath]
    exact HostName.pieces_luaPath (HostName.isPath_inNamespace h.space h.name)

theorem names_tableLine (h : d.HasPath) :
    names (tableLine f d.header).toList = ownerSegments f d.header := by
  have howner : IsName (owner f d.header) := isName_owner f h.space h.name
  rw [← pieces_owner h]
  unfold tableLine
  split
  · have hline : (owner f d.header ++ " = \x7b\x7d").toList =
        (owner f d.header).toList ++ ' ' :: '=' :: " \x7b\x7d".toList := by simp
    rw [hline, Annotations.names_assigned howner]
  · have hline : ("local " ++ owner f d.header ++ " = \x7b\x7d").toList = "local".toList ++
        ' ' :: ((owner f d.header).toList ++ [' ']) ++ '=' :: " \x7b\x7d".toList := by simp
    have hblank : ∀ c ∈ [' '], Annotations.endsNames c = false :=
      List.forall_mem_singleton.mpr (by decide)
    rw [hline, Annotations.names_declared (by decide) howner hblank (by decide),
      Annotations.paths_name_append howner (by decide)]
    exact List.append_nil _

theorem keepsTo_tableLine (h : d.HasPath) :
    KeepsTo (ownerSegments f d.header) (tableLine f d.header) :=
  Annotations.keepsTo_of_names [] (by rw [names_tableLine h]; simp) (List.forall_mem_nil _)

theorem keepsTo_fields (h : d.HasPath) {fields : List Field}
    (hnames : ∀ name ∈ fields.map Field.name, HostName.IsPlain name ∧ name ≠ "") :
    ∀ st ∈ fields.map (fun field => Annotations.assignment (owner f d.header) field.name "nil"),
      KeepsTo (ownerSegments f d.header) st := by
  rw [← pieces_owner h]
  refine List.forall_mem_map.mpr fun field hfield => ?_
  obtain ⟨hplain, hne⟩ := hnames field.name (List.mem_map_of_mem hfield)
  exact Annotations.keepsTo_assignment (isName_owner f h.space h.name) hplain hne "nil"

theorem keepsTo_functions (h : d.HasPath) {ms : List Method}
    (hnames : ∀ name ∈ (functionsOf ms).map Method.name, HostName.IsPlain name ∧ name ≠ "")
    (hparameters : ∀ m ∈ ms, ∀ p ∈ m.parameters, HostName.IsPlain p.name) :
    ∀ st ∈ ms.flatMap (functionStatements (owner f d.header)),
      KeepsTo (ownerSegments f d.header) st := by
  rw [← pieces_owner h]
  refine List.forall_mem_flatMap.mpr fun m hm => ?_
  unfold functionStatements
  split_ifs with hconstructor
  · exact List.forall_mem_nil _
  · obtain ⟨hplain, hne⟩ := hnames m.name (List.mem_map_of_mem (mem_functionsOf hm hconstructor))
    refine List.forall_mem_cons.mpr ⟨Annotations.keepsTo_blank _, List.forall_mem_singleton.mpr ?_⟩
    exact Annotations.keepsTo_functionLine (isName_owner f h.space h.name) hplain hne
      (hparameters m hm)

/-- Only the table gives its names to the code as they are. -/
theorem keepsTo_statements (h : d.HasPlainNames) (hne : ∀ name ∈ d.memberNames, name ≠ "") :
    ∀ st ∈ statements f d, KeepsTo (tableSegments f d) st := by
  have hmembers : ∀ name ∈ d.memberNames, HostName.IsPlain name ∧ name ≠ "" :=
    fun name hname => ⟨h.members name hname, hne name hname⟩
  have howner := isName_owner f h.space h.name
  cases d with
  | classType c =>
    obtain ⟨hfields, hfunctions⟩ := List.forall_mem_append.mp hmembers
    simp only [statements, List.forall_mem_append, List.forall_mem_singleton]
    refine ⟨⟨⟨⟨keepsTo_tableLine h.toHasPath, keepsTo_fields h.toHasPath hfields⟩, ?factory⟩,
      keepsTo_functions h.toHasPath hfunctions fun m hm p hp => h.isPlain_parameter hm hp⟩,
      Annotations.keepsTo_blank _⟩
    split_ifs
    · refine List.forall_mem_cons.mpr ⟨Annotations.keepsTo_blank _, List.forall_mem_singleton.mpr ?_⟩
      show KeepsTo (ownerSegments f (Declaration.classType c).header) _
      rw [← pieces_owner h.toHasPath]
      exact Annotations.keepsTo_factoryLine howner
    · exact List.forall_mem_nil _
  | interfaceType i =>
    obtain ⟨hfields, hfunctions⟩ := List.forall_mem_append.mp hmembers
    simp only [statements, List.forall_mem_append, List.forall_mem_singleton]
    exact ⟨⟨⟨keepsTo_tableLine h.toHasPath, keepsTo_fields h.toHasPath hfields⟩,
      keepsTo_functions h.toHasPath hfunctions fun m hm p hp => h.isPlain_parameter hm hp⟩,
      Annotations.keepsTo_blank _⟩
  | enumType e =>
    simp only [statements, List.forall_mem_append, List.forall_mem_singleton]
    refine ⟨⟨keepsTo_tableLine h.toHasPath, List.forall_mem_map.mpr fun p hp => ?_⟩,
      Annotations.keepsTo_blank _⟩
    obtain ⟨hplain, hname⟩ :=
      hmembers p.1.name (List.mem_map_of_mem (List.fst_mem_of_mem_zipIdx hp))
    show KeepsTo (ownerSegments f (Declaration.enumType e).header) _
    rw [← pieces_owner h.toHasPath]
    exact Annotations.keepsTo_assignment howner hplain hname _
  | delegateType dl => exact List.forall_mem_singleton.mpr (Annotations.keepsTo_blank _)

/-- **When a keyword is a name in the code.**  A keyword is a name in a line of code of a block
exactly if it is a segment of the table that is declared there.  Members, functions and arguments
have no keyword as a name. -/
theorem keyword_mem_names_iff (h : d.HasPlainNames) {text : String} (htext : render f d = .ok text)
    {k : String} (hk : k ∈ keywords) :
    (∃ line ∈ codeLines text, k.toList ∈ names line) ↔ k.toList ∈ tableSegments f d := by
  have hne := ((render_succeeds_iff f d).1.mp ⟨text, htext⟩).2.1
  unfold render at htext
  rcases hlines : lines f d with e | ls
  · rw [hlines] at htext
    cases htext
  rw [hlines] at htext
  rw [← Except.ok.inj htext, Annotations.codeLines_unlines, code_lines h hlines]
  constructor
  · rintro ⟨line, hline, hmem⟩
    rcases List.mem_append.mp hline with hline | hline
    · obtain ⟨st, hst, rfl⟩ := List.mem_map.mp hline
      exact keepsTo_statements h hne st hst k hk hmem
    · rw [List.mem_singleton.mp hline] at hmem
      cases hmem
  · intro hmem
    have htable : tableLine f d.header ∈ statements f d ∧
        k.toList ∈ names (tableLine f d.header).toList := by
      rw [names_tableLine h.toHasPath]
      cases d with
      | classType c => exact ⟨by simp [statements, Declaration.header], hmem⟩
      | interfaceType i => exact ⟨by simp [statements, Declaration.header], hmem⟩
      | enumType e => exact ⟨by simp [statements, Declaration.header], hmem⟩
      | delegateType dl => cases hmem
    exact ⟨_, List.mem_append_left _ (List.mem_map_of_mem htable.1), htable.2⟩

/-- A nested class with keywords in its namespace and among the names of its members. -/
def keywordMembers : Declaration := .classType
  { header := { name := "Outer`1+Inner", space := "Game.end" }
    arguments := ["T"]
    fields := [{ name := "then", type := "T[]" }]
    methods := [{ name := "goto", returnType := "void", isStatic := true
                  parameters := [{ name := "until", type := "int" }, { name := "", type := "T" }] }] }

/-- A class that is called like a keyword. -/
def keywordClass : Declaration := .classType { header := { name := "end" } }

/-- Where the table is a local one, only the last segment counts. -/
theorem keyword_not_mem_names_members :
    keywordMembers.HasPlainNames ∧ ∃ text, render .xlua keywordMembers = .ok text ∧
      ∀ k ∈ keywords, ∀ line ∈ codeLines text, k.toList ∉ names line := by
  have hplain : keywordMembers.HasPlainNames :=
    ⟨⟨by decide +kernel, by decide +kernel⟩, by decide +kernel, by decide +kernel,
      by decide +kernel⟩
  have htable : ∀ k ∈ keywords, k.toList ∉ tableSegments .xlua keywordMembers := by decide +kernel
  obtain ⟨text, htext⟩ : ∃ text, render .xlua keywordMembers = .ok text := ⟨_, rfl⟩
  refine ⟨hplain, text, htext, fun k hk line hline hmem => htable k hk ?_⟩
  exact (keyword_mem_names_iff hplain htext hk).mp ⟨line, hline, hmem⟩

/-- What is written for it. -/
def keywordText : Flavor → String
  | .xlua => "---@class CS.end\n---@overload fun(): CS.end\nlocal end = \x7b\x7d\n\n"
  | .tolua => "---@class end\n---@overload fun(): end\nend = \x7b\x7d\n\n"
    ++ "---@return end\nfunction end.New() end\n\n"

/-- Its table has a name that Lua cannot read. -/
theorem end_mem_names_keywordClass :
    keywordClass.HasPlainNames ∧ "end" ∈ keywords ∧
      (render .xlua keywordClass = .ok (keywordText .xlua) ∧
        ∃ line ∈ codeLines (keywordText .xlua), "end".toList ∈ names line) ∧
      (render .tolua keywordClass = .ok (keywordText .tolua) ∧
        ∃ line ∈ codeLines (keywordText .tolua), "end".toList ∈ names line) := by
  have hplain : keywordClass.HasPlainNames :=
    ⟨⟨by decide +kernel, by decide +kernel⟩, by decide +kernel, by decide +kernel,
      by decide +kernel⟩
  exact ⟨hplain, by decide +kernel⟩

end Block

end LuaTypings
