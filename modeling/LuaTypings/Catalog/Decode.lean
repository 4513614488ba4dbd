/-
LuaTypings/Catalog/Decode.lean

Reading catalogs.  The text is taken from left to right and the first mistake wins.  A
declaration is read completely before its fields are looked at; only its kind is looked at
where it stands.  Of the fields, a declaration's own come before those that all declarations
share.
-/
import LuaTypings.Catalog.Encode
import LuaTypings.Json.Shape

namespace LuaTypings

open Json (Reader Mistake Defect FieldRule Fields Scan Piece Fault)

/-! ### Members -/

/-- Reads a word that stands for one of several values. -/
def Json.variant {α : Type} (word : α → String) (all : List α) (name : String) :
    Except Mistake α :=
  match all.find? fun a => word a == name with
  | some a => .ok a
  | none => .error (.unknownVariant name (all.map word))

/-- The ways of passing an argument. -/
def Passing.all : List Passing := [.value, .reference, .output, .readonly]

/-- Reads nothing: null, or an object without entries. -/
def Json.Reader.nothing : Reader Unit
  | .null => .ok ()
  | .object [] => .ok ()
  | j => .error (.invalidType j.found "unit")

/-- Reads a way of passing an argument: its word, or an object with the word as its only key
and nothing as its value. -/
def Passing.ofJson : Reader Passing
  | .string s => Json.variant Passing.word Passing.all s
  | .object [(key, content)] => do
    let p ← Json.variant Passing.word Passing.all key
    Reader.nothing content
    return p
  | .object _ => .error (.invalidValue .object "map with a single key")
  | j => .error (.invalidType j.found "string or map")

/-- The fields of a parameter. -/
def Parameter.rules : List FieldRule :=
  [.of "name" Reader.text, .of "type_name" Reader.text, .of "is_optional" Reader.flag,
    .of "pass_by" Passing.ofJson, .of "documentation" (Reader.option Reader.text)]

/-- Reads a parameter. -/
def Parameter.ofJson : Reader Parameter :=
  Json.record "struct Parameter" Parameter.rules fun fs => do
    let name ← fs.required "name" Reader.text
    let type ← fs.required "type_name" Reader.text
    let isOptional ← fs.withDefault "is_optional" false Reader.flag
    let passing ← fs.withDefault "pass_by" .value Passing.ofJson
    let doc ← fs.withDefault "documentation" none (Reader.option Reader.text)
    return { name, type, isOptional, passing, doc }

/-- The fields of a method. -/
def Method.rules : List FieldRule :=
  [.of "name" Reader.text, .of "return_type" Reader.text, .of "is_static" Reader.flag,
    .of "parameters" (Reader.list Parameter.ofJson),
    .of "documentation" (Reader.option Reader.text)]

/-- Reads a method. -/
def Method.ofJson : Reader Method :=
  Json.record "struct Method" Method.rules fun fs => do
    let name ← fs.required "name" Reader.text
    let returnType ← fs.withDefault "return_type" "void" Reader.text
    let isStatic ← fs.withDefault "is_static" false Reader.flag
    let parameters ← fs.withDefault "parameters" [] (Reader.list Parameter.ofJson)
    let doc ← fs.withDefault "documentation" none (Reader.option Reader.text)
    return { name, returnType, isStatic, parameters, doc }

/-- The fields of a field. -/
def Field.rules : List FieldRule :=
  [.of "name" Reader.text, .of "type_name" Reader.text,
    .of "documentation" (Reader.option Reader.text), .of "is_event" Reader.flag,
    .of "is_static" Reader.flag, .of "constant_value" (Reader.option Reader.int64)]

/-- Reads a field. -/
def Field.ofJson : Reader Field :=
  Json.record "struct Field" Field.rules fun fs => do
    let name ← fs.required "name" Reader.text
    let type ← fs.required "type_name" Reader.text
    let doc ← fs.withDefault "documentation" none (Reader.option Reader.text)
    let isEvent ← fs.withDefault "is_event" false Reader.flag
    let isStatic ← fs.withDefault "is_static" false Reader.flag
    let constant ← fs.withDefault "constant_value" none (Reader.option Reader.int64)
    return { name, type, doc, isEvent, isStatic, constant }

/-! ### Declarations -/

/-- The fields that all declarations share. -/
def Header.rules : List FieldRule :=
  [.of "name" Reader.text, .of "namespace" Reader.text,
    .of "documentation" (Reader.option Reader.text),
    .of "source_location" (Reader.option Reader.text)]

/-- Reads the fields that all declarations share. -/
def Header.ofEntries (entries : List (String × Json)) : Except Mistake Header := do
  let fs ← Json.objectFields Header.rules entries
  let name ← fs.required "name" Reader.text
  let space ← fs.withDefault "namespace" "" Reader.text
  let doc ← fs.withDefault "documentation" none (Reader.option Reader.text)
  let location ← fs.withDefault "source_location" none (Reader.option Reader.text)
  return { name, space, doc, location }

/-- The list of members of a kind, which may be absent. -/
def Json.Fields.listOf {α : Type} (fs : Fields) (name : String) (r : Reader α) :
    Except Mistake (List α) := fs.withDefault name [] (Reader.list r)

/-- The fields of a class. -/
def ClassType.rules : List FieldRule :=
  [.of "is_struct" Reader.flag, .of "base_type" (Reader.option Reader.text),
    .of "interfaces" (Reader.list Reader.text), .of "generic_arguments" (Reader.list Reader.text),
    .of "generic_parameters" (Reader.list Reader.text), .of "is_static" Reader.flag,
    .of "is_constructed_generic" Reader.flag, .of "fields" (Reader.list Field.ofJson),
    .of "methods" (Reader.list Method.ofJson)]

/-- Reads a class. -/
def ClassType.ofEntries (entries : List (String × Json)) : Except Mistake ClassType := do
  let fs ← Json.objectFields ClassType.rules entries
  let header ← Header.ofEntries entries
  let isStruct ← fs.withDefault "is_struct" false Reader.flag
  let base ← fs.withDefault "base_type" none (Reader.option Reader.text)
  let interfaces ← fs.listOf "interfaces" Reader.text
  let arguments ← fs.listOf "generic_arguments" Reader.text
  let parameters ← fs.listOf "generic_parameters" Reader.text
  let isStatic ← fs.withDefault "is_static" false Reader.flag
  let isConstructed ← fs.withDefault "is_constructed_generic" false Reader.flag
  let fields ← fs.listOf "fields" Field.ofJson
  let methods ← fs.listOf "methods" Method.ofJson
  return { header, isStruct, base, interfaces, arguments, parameters, isStatic, isConstructed,
           fields, methods }

/-- The fields of an interface. -/
def InterfaceType.rules : List FieldRule :=
  [.of "interfaces" (Reader.list Reader.text), .of "generic_arguments" (Reader.list Reader.text),
    .of "fields" (Reader.list Field.ofJson), .of "methods" (Reader.list Method.ofJson)]

/-- Reads an interface. -/
def InterfaceType.ofEntries (entries : List (String × Json)) : Except Mistake InterfaceType := do
  let fs ← Json.objectFields InterfaceType.rules entries
  let header ← Header.ofEntries entries
  let interfaces ← fs.listOf "interfaces" Reader.text
  let arguments ← fs.listOf "generic_arguments" Reader.text
  let fields ← fs.listOf "fields" Field.ofJson
  let methods ← fs.listOf "methods" Method.ofJson
  return { header, interfaces, arguments, fields, methods }

/-- The fields of an enumeration. -/
def EnumType.rules : List FieldRule := [.of "fields" (Reader.list Field.ofJson)]

/-- Reads an enumeration. -/
def EnumType.ofEntries (entries : List (String × Json)) : Except Mistake EnumType := do
  let fs ← Json.objectFields EnumType.rules entries
  let header ← Header.ofEntries entries
  let fields ← fs.listOf "fields" Field.ofJson
  return { header, fields }

/-- The fields of a delegate. -/
def DelegateType.rules : List FieldRule := [.of "invoke" Method.ofJson]

/-- Reads a delegate.  That its signature is missing is found before its name is looked at. -/
def DelegateType.ofEntries (entries : List (String × Json)) : Except Mistake DelegateType := do
  let fs ← Json.objectFields DelegateType.rules entries
  let invoke ← fs.required "invoke" Method.ofJson
  let header ← Header.ofEntries entries
  return { header, invoke }

/-- The kinds of declarations. -/
def Kind.all : List Kind := [.classKind, .interfaceKind, .enumKind, .delegateKind]

/-- The name of the record that a kind of declarations is read as. -/
def Kind.record : Kind → String
  | .classKind => "struct ClassDecl"
  | .interfaceKind => "struct InterfaceDecl"
  | .enumKind => "struct EnumDecl"
  | .delegateKind => "struct DelegateDecl"

/-- Reads a declaration of a known kind. -/
def Declaration.ofBody (kind : Kind) : Reader Declaration :=
  Json.objectOnly kind.record fun entries =>
    match kind with
    | .classKind => (ClassType.ofEntries entries).map .classType
    | .interfaceKind => (InterfaceType.ofEntries entries).map .interfaceType
    | .enumKind => (EnumType.ofEntries entries).map .enumType
    | .delegateKind => (DelegateType.ofEntries entries).map .delegateType

/-! ### Texts -/

/-- Why a text is no catalog. -/
inductive CatalogError where
  /-- The text is no JSON. -/
  | defect (d : Defect)
  /-- The text has another shape. -/
  | mistake (m : Mistake)
  /-- A declaration of this kind at this position has a blank name. -/
  | emptyName (kind : Kind) (position : Nat)
  deriving DecidableEq, Repr

/-- What kind of error a text that is no catalog is, where it is one of JSON: it ends too
early, it is malformed, or its data have another shape. -/
def CatalogError.category? : CatalogError → Option String
  | .defect .truncated => some "eof"
  | .defect .malformed => some "syntax"
  | .mistake _ => some "data"
  | .emptyName _ _ => none

/-- The text of an error. -/
def CatalogError.message : CatalogError → String
  | .defect .truncated => "Catalog is not valid JSON: (eof)"
  | .defect .malformed => "Catalog is not valid JSON: (syntax)"
  | .mistake _ => "Catalog is not valid JSON: (data)"
  | .emptyName kind position =>
    "Invalid catalog: " ++ kind.word ++ " at position " ++ toString position ++ " has an empty name"

namespace Catalog

/-- A step of reading a text. -/
abbrev Step (α : Type) := Except CatalogError α

/-- Lifts a mistake in shape. -/
def Step.ofShape {α : Type} : Except Mistake α → Step α
  | .ok a => .ok a
  | .error m => .error (.mistake m)

/-- Lifts a defect of the text. -/
def Step.ofText {α : Type} : Except Defect α → Step α
  | .ok a => .ok a
  | .error d => .error (.defect d)

/-- Something else stands where a value of the `expected` kind should. -/
def unexpected {α : Type} (scan : Scan) (expected : String) : Step α :=
  let wrong (f : Json.Found) : Step α := .error (.mistake (.invalidType f expected))
  match scan with
  | .array _ _ => wrong .list
  | .object _ _ => wrong .object
  | scan => do
    let j ← Step.ofText (scan.read Json.maxLevels)
    wrong j.found

/-- The end of a list or an object. -/
def close (ending : Option Fault) : Step Unit :=
  match ending with
  | some f => .error (.defect f.reading)
  | none => .ok ()

/-- Passes over a value. -/
def skip (scan : Scan) : Step Unit :=
  match scan.skip? with
  | some d => .error (.defect d)
  | none => .ok ()

/-- The text of a key. -/
def keyText (pieces : List Piece) : Step String :=
  match Json.textOf? pieces with
  | some s => .ok s
  | none => .error (.defect .malformed)

/-- Reads a word where the kind of a declaration is due. -/
def readKind : Scan → Step Kind
  | .string pieces => do
    let name ← keyText pieces
    Step.ofShape (Json.variant Kind.word Kind.all name)
  | scan => unexpected scan "variant identifier"

/-- How deep the values inside a declaration may be nested: the catalog, its list and the
declaration itself are three levels. -/
def memberLevels : Nat := Json.maxLevels - 3

/-- Reads the entries of a declaration, its kind apart. -/
def readTagged (kind : Option Kind) (body : List (String × Json)) :
    List (List Piece × Scan) → Step (Option Kind × List (String × Json))
  | [] => .ok (kind, body.reverse)
  | (pieces, value) :: entries => do
    let key ← keyText pieces
    if key = "kind" then
      if kind.isSome then .error (.mistake (.duplicateField key))
      else
        let k ← readKind value
        readTagged (some k) body entries
    else
      let j ← Step.ofText (value.read memberLevels)
      readTagged kind ((key, j) :: body) entries

/-- Reads a declaration. -/
def readDeclaration : Scan → Step Declaration
  | .object entries ending => do
    let (kind, body) ← readTagged none [] entries
    close ending
    match kind with
    | none => .error (.mistake (.missingField "kind"))
    | some k => Step.ofShape (Declaration.ofBody k (.object body))
  | .array [] ending => do
    close ending
    .error (.mistake (.missingField "kind"))
  | .array (first :: rest) ending => do
    let k ← readKind first
    let js ← Step.ofText (Json.readItems memberLevels rest)
    close ending
    Step.ofShape (Declaration.ofBody k (.array js))
  | scan => unexpected scan "internally tagged enum TypeDeclaration"

/-- Reads declarations one by one. -/
def readDeclarations : List Scan → Step (List Declaration)
  | [] => .ok []
  | scan :: scans => do
    let d ← readDeclaration scan
    let ds ← readDeclarations scans
    return d :: ds

/-- Reads the list of declarations. -/
def readTypes : Scan → Step (List Declaration)
  | .array items ending => do
    let ds ← readDeclarations items
    close ending
    return ds
  | scan => unexpected scan "a sequence"

/-- Reads a whole number of 64 bits without a sign. -/
def readCount : Scan → Step UInt64
  | .number chars =>
    match Json.ofNumber? chars with
    | none => .error (.defect .malformed)
    | some (.integer n) =>
      if 0 ≤ n then .ok (UInt64.ofNat n.toNat)
      else .error (.mistake (.invalidValue (.integer n) "usize"))
    | some j => .error (.mistake (.invalidType j.found "usize"))
  | scan => unexpected scan "usize"

/-- Reads the entries of the statistics. -/
def readStatsEntries (count : Option UInt64) : List (List Piece × Scan) → Step (Option UInt64)
  | [] => .ok count
  | (pieces, value) :: entries => do
    let key ← keyText pieces
    if key = "analyzed_symbols" then
      if count.isSome then .error (.mistake (.duplicateField key))
      else
        let n ← readCount value
        readStatsEntries (some n) entries
    else
      skip value
      readStatsEntries count entries

/-- Nothing may follow the last field of a record that is a list. -/
def closeRecord (rest : List Scan) (ending : Option Fault) : Step Unit :=
  if rest.isEmpty then close ending else .error (.defect .malformed)

/-- Reads the statistics. -/
def readStats : Scan → Step UInt64
  | .object entries ending => do
    let count ← readStatsEntries none entries
    close ending
    return count.getD 0
  | .array [] ending => do
    close ending
    return 0
  | .array (first :: rest) ending => do
    let n ← readCount first
    closeRecord rest ending
    return n
  | scan => unexpected scan "struct CatalogStats"

/-- Reads the entries of a catalog. -/
def readEntries (types : Option (List Declaration)) (stats : Option UInt64) :
    List (List Piece × Scan) → Step (Option (List Declaration) × Option UInt64)
  | [] => .ok (types, stats)
  | (pieces, value) :: entries => do
    let key ← keyText pieces
    if key = "types" then
      if types.isSome then .error (.mistake (.duplicateField key))
      else
        let ds ← readTypes value
        readEntries (some ds) stats entries
    else if key = "stats" then
      if stats.isSome then .error (.mistake (.duplicateField key))
      else
        let n ← readStats value
        readEntries types (some n) entries
    else
      skip value
      readEntries types stats entries

/-- Reads a catalog. -/
def readScan : Scan → Step Catalog
  | .object entries ending => do
    let (types, stats) ← readEntries none none entries
    close ending
    match types with
    | none => .error (.mistake (.missingField "types"))
    | some ds => return ⟨ds, stats.getD 0⟩
  | .array [] ending => do
    close ending
    .error (.mistake (.invalidLength 0 "struct Catalog with 2 elements"))
  | .array [first] ending => do
    let ds ← readTypes first
    close ending
    return ⟨ds, 0⟩
  | .array (first :: second :: rest) ending => do
    let ds ← readTypes first
    let n ← readStats second
    closeRecord rest ending
    return ⟨ds, n⟩
  | scan => unexpected scan "struct Catalog"

/-- Reads the text of a catalog, whatever the names in it. -/
def readText (text : String) : Step Catalog := do
  let document := Json.Document.ofText text
  let c ← readScan document.value
  if document.hasTrailing then .error (.defect .malformed) else return c

/-- Reads a catalog in which every declaration has a name. -/
def ofText (text : String) : Except CatalogError Catalog := do
  let c ← readText text
  match c.firstBlank? with
  | some (kind, position) => .error (.emptyName kind position)
  | none => return c

end Catalog

end LuaTypings
