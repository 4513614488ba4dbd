/-
LuaTypings/Catalog/Encode.lean

Catalogs as JSON values.  Every field is written, in the order of the declaration, also one
that has its default value; what is absent is null.  The kind of a declaration comes first,
then the fields that all declarations share, then its own.
-/
import LuaTypings.Catalog.Basic
import LuaTypings.Json.Printer

namespace LuaTypings

/-- The word for a way of passing an argument. -/
def Passing.word : Passing → String
  | .value => "value"
  | .reference => "ref"
  | .output => "out"
  | .readonly => "in"

/-- A parameter as an object. -/
def Parameter.toJson (p : Parameter) : Json :=
  .object [("name", .string p.name), ("type_name", .string p.type), ("is_optional", .bool p.isOptional),
    ("pass_by", .string p.passing.word), ("documentation", .optional p.doc)]

/-- A method as an object. -/
def Method.toJson (m : Method) : Json :=
  .object [("name", .string m.name), ("return_type", .string m.returnType),
    ("is_static", .bool m.isStatic), ("parameters", .array (m.parameters.map Parameter.toJson)),
    ("documentation", .optional m.doc)]

/-- A captured literal. -/
def Field.constantJson : Option Int64 → Json
  | some v => .integer v.toInt
  | none => .null

/-- A field as an object. -/
def Field.toJson (f : Field) : Json :=
  .object [("name", .string f.name), ("type_name", .string f.type),
    ("documentation", .optional f.doc), ("is_event", .bool f.isEvent),
    ("is_static", .bool f.isStatic), ("constant_value", Field.constantJson f.constant)]

/-- The entries that all declarations share. -/
def Header.entries (h : Header) : List (String × Json) :=
  [("name", .string h.name), ("namespace", .string h.space), ("documentation", .optional h.doc),
    ("source_location", .optional h.location)]

/-- The entries of a class behind the shared ones. -/
def ClassType.entries (c : ClassType) : List (String × Json) :=
  [("is_struct", .bool c.isStruct), ("base_type", .optional c.base),
    ("interfaces", .strings c.interfaces), ("generic_arguments", .strings c.arguments),
    ("generic_parameters", .strings c.parameters), ("is_static", .bool c.isStatic),
    ("is_constructed_generic", .bool c.isConstructed),
    ("fields", .array (c.fields.map Field.toJson)),
    ("methods", .array (c.methods.map Method.toJson))]

/-- The entries of an interface behind the shared ones. -/
def InterfaceType.entries (i : InterfaceType) : List (String × Json) :=
  [("interfaces", .strings i.interfaces), ("generic_arguments", .strings i.arguments),
    ("fields", .array (i.fields.map Field.toJson)),
    ("methods", .array (i.methods.map Method.toJson))]

/-- The entries of an enumeration behind the shared ones. -/
def EnumType.entries (e : EnumType) : List (String × Json) :=
  [("fields", .array (e.fields.map Field.toJson))]

/-- The entries of a delegate behind the shared ones. -/
def DelegateType.entries (d : DelegateType) : List (String × Json) := [("invoke", d.invoke.toJson)]

namespace Declaration

/-- The entries of a declaration behind the shared ones. -/
def ownEntries : Declaration → List (String × Json)
  | classType c => c.entries
  | interfaceType i => i.entries
  | enumType e => e.entries
  | delegateType d => d.entries

/-- A declaration as an object. -/
def toJson (d : Declaration) : Json :=
  .object (("kind", .string d.kind.word) :: (d.header.entries ++ d.ownEntries))

end Declaration

namespace Catalog

/-- A catalog as an object. -/
def toJson (c : Catalog) : Json :=
  .object [("types", .array (c.types.map Declaration.toJson)),
    ("stats", .object [("analyzed_symbols", .nat c.analyzedSymbols.toNat)])]

/-- The text of a catalog. -/
def toText (c : Catalog) : String := c.toJson.pretty

end Catalog

end LuaTypings
