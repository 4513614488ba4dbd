/-
LuaTypings/Declaration.lean

The declarations of a host program, as an analyzer hands them over: classes (structs among
them), interfaces, enumerations and delegates, with their members.  Types of members are
display strings.  `Declaration.mentions` lists every display string of a declaration in the
order in which the declaration gives them.
-/
import LuaTypings.HostName

namespace LuaTypings

/-! ### Members -/

/-- How an argument is passed. -/
inductive Passing where
  | value
  | reference
  | output
  | readonly
  deriving DecidableEq, Repr, Inhabited

/-- A parameter of a method. -/
structure Parameter where
  name : String
  /-- The display string of its type. -/
  type : String
  isOptional : Bool := false
  passing : Passing := .value
  doc : Option String := none
  deriving DecidableEq, Repr

/-- Whether the parameter only carries a result. -/
def Parameter.isOutput (p : Parameter) : Bool := p.passing = .output

/-- A method, or a constructor, which has a name of its own. -/
structure Method where
  name : String
  /-- The display string of the result's type. -/
  returnType : String := "void"
  isStatic : Bool := false
  parameters : List Parameter := []
  doc : Option String := none
  deriving DecidableEq, Repr

/-- The name that marks a constructor. -/
def Method.constructorName : String := ".ctor"

/-- Whether a method is a constructor. -/
def Method.isConstructor (m : Method) : Bool := m.name = Method.constructorName

/-- A field, a property, an event or an enumeration member. -/
structure Field where
  name : String
  /-- The display string of its type. -/
  type : String
  doc : Option String := none
  isEvent : Bool := false
  isStatic : Bool := false
  /-- The literal value of an enumeration member, if the analyzer captured it. -/
  constant : Option Int64 := none
  deriving DecidableEq, Repr

/-! ### Declarations -/

/-- What every declaration carries. -/
structure Header where
  name : String
  /-- The namespace; the empty one is the global namespace. -/
  space : String := ""
  doc : Option String := none
  /-- A token that points back into the analyzed sources. -/
  location : Option String := none
  deriving DecidableEq, Repr

/-- A class or a struct. -/
structure ClassType where
  header : Header
  isStruct : Bool := false
  base : Option String := none
  interfaces : List String := []
  /-- The concrete arguments of a constructed generic, or the parameter names of a generic
  definition. -/
  arguments : List String := []
  /-- The parameter names of the definition, where the analyzer kept them. -/
  parameters : List String := []
  isStatic : Bool := false
  isConstructed : Bool := false
  fields : List Field := []
  methods : List Method := []
  deriving DecidableEq, Repr

/-- An interface. -/
structure InterfaceType where
  header : Header
  interfaces : List String := []
  arguments : List String := []
  fields : List Field := []
  methods : List Method := []
  deriving DecidableEq, Repr

/-- An enumeration; its fields are its members. -/
structure EnumType where
  header : Header
  fields : List Field := []
  deriving DecidableEq, Repr

/-- A delegate, which is its signature. -/
structure DelegateType where
  header : Header
  invoke : Method
  deriving DecidableEq, Repr

/-- An exported declaration. -/
inductive Declaration where
  | classType (c : ClassType)
  | interfaceType (i : InterfaceType)
  | enumType (e : EnumType)
  | delegateType (d : DelegateType)
  deriving DecidableEq, Repr

/-- The four kinds of declarations. -/
inductive Kind where
  | classKind
  | interfaceKind
  | enumKind
  | delegateKind
  deriving DecidableEq, Repr

/-- The word for a kind. -/
def Kind.word : Kind → String
  | .classKind => "class"
  | .interfaceKind => "interface"
  | .enumKind => "enum"
  | .delegateKind => "delegate"

/-- The constructors of a class, in order. -/
def ClassType.constructors (c : ClassType) : List Method := c.methods.filter Method.isConstructor

/-- The display strings of a method: its result unless it is a constructor, then its
parameters. -/
def Method.mentions (m : Method) : List String :=
  (if m.isConstructor then [] else [m.returnType]) ++ m.parameters.map Parameter.type

namespace Declaration

/-- The common part of a declaration. -/
def header : Declaration → Header
  | classType c => c.header
  | interfaceType i => i.header
  | enumType e => e.header
  | delegateType d => d.header

/-- The kind of a declaration. -/
def kind : Declaration → Kind
  | classType _ => .classKind
  | interfaceType _ => .interfaceKind
  | enumType _ => .enumKind
  | delegateType _ => .delegateKind

/-- A declaration with a changed common part. -/
def mapHeader (f : Header → Header) : Declaration → Declaration
  | classType c => classType { c with header := f c.header }
  | interfaceType i => interfaceType { i with header := f i.header }
  | enumType e => enumType { e with header := f e.header }
  | delegateType d => delegateType { d with header := f d.header }

/-- The name without its namespace. -/
def name (d : Declaration) : String := d.header.name

/-- The namespace. -/
def space (d : Declaration) : String := d.header.space

/-- The name inside its namespace, as the analyzer spelled it. -/
def fullName (d : Declaration) : String := HostName.inNamespace d.space d.name

/-- The generic arguments of a class or an interface. -/
def arguments : Declaration → List String
  | classType c => c.arguments
  | interfaceType i => i.arguments
  | enumType _ => []
  | delegateType _ => []

/-- The generic parameters that the declaration's own members may use.  The arguments of a
constructed class are concrete types and no parameters. -/
def scope : Declaration → List String
  | classType c => if c.isConstructed then [] else c.arguments
  | d => d.arguments

/-- Every display string of a declaration, in order: the base type, the interfaces, the types
of the fields, then those of each method. -/
def mentions : Declaration → List String
  | classType c =>
    c.base.toList ++ c.interfaces ++ c.fields.map Field.type ++ c.methods.flatMap Method.mentions
  | interfaceType i =>
    i.interfaces ++ i.fields.map Field.type ++ i.methods.flatMap Method.mentions
  | enumType _ => []
  | delegateType d => d.invoke.mentions

end Declaration

end LuaTypings
