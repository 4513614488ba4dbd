/-
LuaTypings/Annotations.lean

The lines that annotate one element of a declaration.  Every function here gives the lines of
its element, without line ends, and knows nothing about the rest of the catalog; host types
are spelled by the caller's `Spelling`.  A line that starts with three hyphens is a comment
to Lua, and the tags in it are for the language server.
-/
import LuaTypings.Declaration
import LuaTypings.Spelling

namespace LuaTypings.Annotations

/-- What opens every generated file: the tag that marks it as declarations only, and an empty
line. -/
def metaHeader : String := "---@meta\n\n"

/-- The text of lines, each with a line end. -/
def unlines (lines : List String) : String := String.join (lines.map (· ++ "\n"))

/-! ### Names -/

/-- The words that Lua keeps for itself. -/
def keywords : List String :=
  ["and", "break", "do", "else", "elseif", "end", "false", "for", "function", "goto", "if",
   "in", "local", "nil", "not", "or", "repeat", "return", "then", "true", "until", "while"]

/-- A name that Lua accepts: a keyword gets an underscore behind it. -/
def identifier (name : String) : String :=
  if keywords.contains name then name ++ "_" else name

/-- The name of a parameter at a position; an unnamed one is named for its position. -/
def parameterName (index : Nat) (p : Parameter) : String :=
  if p.name.isEmpty then "arg" ++ toString index else identifier p.name

/-- The parameters that are passed, with their positions among all.  The others are results. -/
def inputs (params : List Parameter) : List (Parameter × Nat) :=
  params.zipIdx.filter fun p => !p.1.isOutput

theorem map_fst_inputs (params : List Parameter) :
    (inputs params).map Prod.fst = params.filter fun p => !p.isOutput := by
  have h := List.filter_map (f := Prod.fst) (p := fun p : Parameter => !p.isOutput)
    (l := params.zipIdx)
  rw [List.zipIdx_map_fst] at h
  exact h.symm

theorem fst_mem_of_mem_inputs {params : List Parameter} {p : Parameter × Nat}
    (h : p ∈ inputs params) : p.1 ∈ params :=
  List.fst_mem_of_mem_zipIdx (List.mem_filter.mp h).1

/-- The names of the parameters that are passed. -/
def argumentNames (params : List Parameter) : List String :=
  (inputs params).map fun p => parameterName p.2 p.1

/-- The mark behind the name of an optional parameter. -/
def optionalMark (p : Parameter) : String := if p.isOptional then "?" else ""

/-! ### Documentation -/

/-- One line of documentation as a comment. -/
def docLine (line : List Char) : String :=
  let text := Text.trim line
  if text.isEmpty then "---" else "--- " ++ String.ofList text

/-- Documentation as comments, one for each of its lines; none if it is blank. -/
def docLines (doc : Option String) : List String :=
  match doc with
  | none => []
  | some text => (Text.lines (Text.trim text.toList)).map docLine

/-- Documentation of a parameter behind its tag, on the same line. -/
def trailingDoc (doc : Option String) : String :=
  match doc with
  | none => ""
  | some text => String.join ((Text.words text.toList).map fun w => " " ++ String.ofList w)

/-! ### Types and fields -/

/-- A name with generic parameters in angle brackets, if there are any. -/
def withParameters (fullName : String) (parameters : List String) : String :=
  if parameters.isEmpty then fullName
  else fullName ++ "<" ++ String.intercalate ", " parameters ++ ">"

/-- The tag that declares a type: its name, its generic parameters and its parents. -/
def typeHeader (tag fullName : String) (parameters : List String) (base : Option String)
    (interfaces : List String) : Except RenderError (List String) :=
  if fullName.isEmpty then .error (.emptyName .type)
  else
    let parents := base.toList ++ interfaces
    let suffix := if parents.isEmpty then "" else " : " ++ String.intercalate ", " parents
    .ok ["---@" ++ tag ++ " " ++ withParameters fullName parameters ++ suffix]

/-- A member with its documentation, its type and the assignment that creates it. -/
def field (owner name lua value : String) (doc : Option String) :
    Except RenderError (List String) :=
  if name.isEmpty then .error (.emptyName .field)
  else .ok (docLines doc ++ ["---@type " ++ lua, owner ++ "." ++ identifier name ++ " = " ++ value])

/-! ### Methods -/

/-- The spelled types of the parameters that are passed; the first error wins. -/
def inputTypes (s : Spelling) (params : List Parameter) : Except RenderError (List String) :=
  s.values ((inputs params).map fun p => p.1.type)

/-- The tag of one parameter that is passed. -/
def parameterLine (p : (Parameter × Nat) × String) : String :=
  "---@param " ++ parameterName p.1.2 p.1.1 ++ optionalMark p.1.1 ++ " " ++ p.2
    ++ trailingDoc p.1.1.doc

/-- One tag for each parameter that is passed. -/
def parameterLines (s : Spelling) (params : List Parameter) : Except RenderError (List String) :=
  match inputTypes s params with
  | .error e => .error e
  | .ok types => .ok (((inputs params).zip types).map parameterLine)

/-- The types of the results: the method's own unless it is `void`, then one for each
parameter that is a result. -/
def resultTypes (s : Spelling) (returnType : String) (params : List Parameter) :
    Except RenderError (List String) :=
  match s.result returnType with
  | .error e => .error e
  | .ok primary =>
    match s.values ((params.filter Parameter.isOutput).map Parameter.type) with
    | .error e => .error e
    | .ok outputs => .ok (primary.toList ++ outputs)

/-- The tag of the results, if there are any. -/
def resultLines (s : Spelling) (returnType : String) (params : List Parameter) :
    Except RenderError (List String) :=
  match resultTypes s returnType params with
  | .error e => .error e
  | .ok [] => .ok []
  | .ok types => .ok ["---@return " ++ String.intercalate ", " types]

/-- The line that creates a method of a table. -/
def functionLine (owner : String) (m : Method) : String :=
  "function " ++ owner ++ (if m.isStatic then "." else ":") ++ identifier m.name
    ++ "(" ++ String.intercalate ", " (argumentNames m.parameters) ++ ") end"

/-- A method: documentation, parameters, results and the function itself. -/
def method (s : Spelling) (owner : String) (m : Method) : Except RenderError (List String) :=
  if m.name.isEmpty then .error (.emptyName .method)
  else
    match parameterLines s m.parameters with
    | .error e => .error e
    | .ok params =>
      match resultLines s m.returnType m.parameters with
      | .error e => .error e
      | .ok results => .ok (docLines m.doc ++ params ++ results ++ [functionLine owner m])

/-! ### Function types -/

/-- One parameter in a function type. -/
def signatureParameter (p : (Parameter × Nat) × String) : String :=
  parameterName p.1.2 p.1.1 ++ optionalMark p.1.1 ++ ": " ++ p.2

/-- A function type over the parameters that are passed. -/
def functionType (params : List Parameter) (types results : List String) : String :=
  "fun(" ++ String.intercalate ", " (((inputs params).zip types).map signatureParameter) ++ ")"
    ++ (if results.isEmpty then "" else ": " ++ String.intercalate ", " results)

/-- The function type of a method. -/
def signature (s : Spelling) (m : Method) : Except RenderError String :=
  match inputTypes s m.parameters with
  | .error e => .error e
  | .ok types =>
    match resultTypes s m.returnType m.parameters with
    | .error e => .error e
    | .ok results => .ok (functionType m.parameters types results)

/-- The tag of one constructor; what it gives is `made`. -/
def overload (s : Spelling) (made : String) (m : Method) : Except RenderError String :=
  match inputTypes s m.parameters with
  | .error e => .error e
  | .ok types => .ok ("---@overload " ++ functionType m.parameters types [made])

/-- One tag for each constructor; a type without one is made from nothing. -/
def overloads (s : Spelling) (made : String) : List Method → Except RenderError (List String)
  | [] => .ok ["---@overload fun(): " ++ made]
  | ms => ms.mapM (overload s made)

/-- A function that makes an instance from nothing. -/
def factory (owner made : String) : List String :=
  ["---@return " ++ made, "function " ++ owner ++ ".New() end"]

/-- The tag that names a delegate's function type, behind its documentation. -/
def aliasLines (s : Spelling) (fullName : String) (invoke : Method) (doc : Option String) :
    Except RenderError (List String) :=
  if fullName.isEmpty then .error (.emptyName .delegate)
  else
    match signature s invoke with
    | .error e => .error e
    | .ok type => .ok (docLines doc ++ ["---@alias " ++ fullName ++ " " ++ type])

end LuaTypings.Annotations
