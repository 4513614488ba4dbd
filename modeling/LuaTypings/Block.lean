/-
LuaTypings/Block.lean

The block of a declaration: all its lines in a chunk file, with an empty line at the end.  A
declaration is rendered as a whole or not at all; what is wrong with it is found in the order
in which its lines would stand.
-/
import LuaTypings.Annotations
import LuaTypings.Flavor

namespace LuaTypings.Block

/-- The spelling of types inside a declaration. -/
def spelling (f : Flavor) (scope : List String) : Spelling := ⟨f.root, scope⟩

/-- The Lua name of a declared type, below the root table. -/
def declaredName (f : Flavor) (h : Header) : String :=
  (spelling f []).path (HostName.inNamespace h.space h.name)

/-- The table that the members of a type belong to. -/
def owner (f : Flavor) (h : Header) : String :=
  match f.conventions.tables with
  | .globalTable => declaredName f h
  | .localTable => HostName.localName h.name

/-- The line that creates the table of a type. -/
def tableLine (f : Flavor) (h : Header) : String :=
  match f.conventions.tables with
  | .globalTable => owner f h ++ " = \x7b\x7d"
  | .localTable => "local " ++ owner f h ++ " = \x7b\x7d"

/-! ### Members -/

/-- The type line of a field.  The type of an event is spelled, so that it must denote one,
and then anything goes. -/
def fieldType (s : Spelling) (field : Field) : Except RenderError String :=
  match s.value field.type with
  | .error e => .error e
  | .ok lua => .ok (if field.isEvent then "any" else lua)

/-- One field. -/
def fieldLines (s : Spelling) (owner : String) (field : Field) :
    Except RenderError (List String) :=
  match fieldType s field with
  | .error e => .error e
  | .ok lua => Annotations.field owner field.name lua "nil" field.doc

/-- One method behind an empty line; a constructor has none. -/
def methodLines (s : Spelling) (owner : String) (m : Method) : Except RenderError (List String) :=
  if m.isConstructor then .ok []
  else match Annotations.method s owner m with
    | .error e => .error e
    | .ok lines => .ok ("" :: lines)

/-- The lines of several elements, one behind the other; the first error wins. -/
def concat {α : Type} (lines : α → Except RenderError (List String)) :
    List α → Except RenderError (List String)
  | [] => .ok []
  | a :: as =>
    match lines a with
    | .error e => .error e
    | .ok first =>
      match concat lines as with
      | .error e => .error e
      | .ok rest => .ok (first ++ rest)

/-- The value of the enumeration member at a position. -/
def memberValue (f : Flavor) (ordinal : Nat) (field : Field) : Int :=
  match f.conventions.members, field.constant with
  | .constant, some v => v.toInt
  | _, _ => ordinal

/-! ### Declarations -/

/-- The base type of a class; a builtin one is not mentioned. -/
def baseType (s : Spelling) (base : Option String) : Except RenderError (Option String) :=
  match base with
  | none => .ok none
  | some b =>
    if (Builtin.ofHost? b).isSome then .ok none
    else match s.value b with
      | .error e => .error e
      | .ok lua => .ok (some lua)

/-- The block of a class: header, constructors unless it is static, table, fields, factory
and methods. -/
def ofClass (f : Flavor) (c : ClassType) : Except RenderError (List String) := do
  let scope := (Declaration.classType c).scope
  let s := spelling f scope
  let fullName := declaredName f c.header
  let made := Annotations.withParameters fullName scope
  let base ← baseType s c.base
  let interfaces ← s.values c.interfaces
  let head ← Annotations.typeHeader "class" fullName scope base interfaces
  let overloads ← if c.isStatic then .ok [] else Annotations.overloads s made c.constructors
  let fields ← concat (fieldLines s (owner f c.header)) c.fields
  let factory := if f.conventions.hasFactory && !c.isStatic
    then "" :: Annotations.factory (owner f c.header) made else []
  let methods ← concat (methodLines s (owner f c.header)) c.methods
  return Annotations.docLines c.header.doc ++ head ++ overloads ++ [tableLine f c.header]
    ++ fields ++ factory ++ methods ++ [""]

/-- The block of an interface: header, table, fields and methods. -/
def ofInterface (f : Flavor) (i : InterfaceType) : Except RenderError (List String) := do
  let s := spelling f i.arguments
  let interfaces ← s.values i.interfaces
  let head ← Annotations.typeHeader "class" (declaredName f i.header) i.arguments none interfaces
  let fields ← concat (fieldLines s (owner f i.header)) i.fields
  let methods ← concat (methodLines s (owner f i.header)) i.methods
  return Annotations.docLines i.header.doc ++ head ++ [tableLine f i.header]
    ++ fields ++ methods ++ [""]

/-- The block of an enumeration: header, table and members, each with the enumeration as its
type. -/
def ofEnum (f : Flavor) (e : EnumType) : Except RenderError (List String) := do
  let fullName := declaredName f e.header
  let head ← Annotations.typeHeader "class" fullName [] none []
  let members ← concat (fun (p : Field × Nat) =>
    Annotations.field (owner f e.header) p.1.name fullName (toString (memberValue f p.2 p.1)) p.1.doc)
    e.fields.zipIdx
  return Annotations.docLines e.header.doc ++ head ++ [tableLine f e.header] ++ members ++ [""]

/-- The block of a delegate: the name of its function type. -/
def ofDelegate (f : Flavor) (d : DelegateType) : Except RenderError (List String) := do
  let lines ← Annotations.aliasLines (spelling f []) (declaredName f d.header) d.invoke d.header.doc
  return lines ++ [""]

/-- The lines of a declaration. -/
def lines (f : Flavor) : Declaration → Except RenderError (List String)
  | .classType c => ofClass f c
  | .interfaceType i => ofInterface f i
  | .enumType e => ofEnum f e
  | .delegateType d => ofDelegate f d

/-- The text of a declaration. -/
def render (f : Flavor) (d : Declaration) : Except RenderError String :=
  match lines f d with
  | .ok ls => .ok (Annotations.unlines ls)
  | .error e => .error e

end LuaTypings.Block
