/-
LuaTypings/Catalog/Builder.lean

Building a catalog step by step.  A step starts a declaration or changes the one that was
started last; a step that does not apply to it changes nothing.  The state holds the declaration
that was started last apart from those that are complete, and a start completes it.
-/
import LuaTypings.Catalog.Basic

namespace LuaTypings

/-- A step in building a catalog. -/
inductive BuildStep where
  | startClass (space name : String)
  | startInterface (space name : String)
  | startEnum (space name : String)
  /-- A delegate; its signature gets the name of the call. -/
  | startDelegate (space name : String) (signature : Method)
  | document (text : String)
  /-- The base type of a class. -/
  | extend (base : String)
  /-- A further interface of a class or an interface; a repeated one is ignored. -/
  | implement (parent : String)
  /-- Makes a class static. -/
  | makeStatic
  /-- Makes a class an instance of a generic class. -/
  | construct (arguments : List String)
  /-- The parameter names of a generic class. -/
  | nameParameters (parameters : List String)
  /-- A further field of anything that has fields. -/
  | addField (field : Field)
  /-- A further member of an enumeration, with the enumeration as its type. -/
  | addMember (name : String) (value : Option Int64)
  /-- A further method of a class or an interface. -/
  | addMethod (m : Method)
  deriving DecidableEq, Repr

namespace BuildStep

/-- The name that a delegate's signature has. -/
def invokeName : String := "Invoke"

/-- The declaration that a step starts. -/
def started? : BuildStep → Option Declaration
  | startClass space name => some (.classType { header := { name, space } })
  | startInterface space name => some (.interfaceType { header := { name, space } })
  | startEnum space name => some (.enumType { header := { name, space } })
  | startDelegate space name m =>
    some (.delegateType { header := { name, space }, invoke := { m with name := invokeName } })
  | _ => none

/-- Adds an interface at the end, unless it is there. -/
def addParent (parents : List String) (parent : String) : List String :=
  if parents.contains parent then parents else parents ++ [parent]

/-- What a step makes of a class. -/
def onClass (c : ClassType) : BuildStep → ClassType
  | extend base => { c with base := some base }
  | implement parent => { c with interfaces := addParent c.interfaces parent }
  | makeStatic => { c with isStatic := true }
  | construct arguments => { c with isConstructed := true, arguments := arguments }
  | nameParameters parameters => { c with parameters := parameters }
  | addField field => { c with fields := c.fields ++ [field] }
  | addMethod m => { c with methods := c.methods ++ [m] }
  | _ => c

/-- What a step makes of an interface. -/
def onInterface (i : InterfaceType) : BuildStep → InterfaceType
  | implement parent => { i with interfaces := addParent i.interfaces parent }
  | addField field => { i with fields := i.fields ++ [field] }
  | addMethod m => { i with methods := i.methods ++ [m] }
  | _ => i

/-- What a step makes of an enumeration. -/
def onEnum (e : EnumType) : BuildStep → EnumType
  | addField field => { e with fields := e.fields ++ [field] }
  | addMember name value =>
    { e with fields := e.fields ++ [
        { name, type := HostName.inNamespace e.header.space e.header.name, isStatic := true,
          constant := value }] }
  | _ => e

/-- What a step makes of the declaration that was started last. -/
def change (step : BuildStep) (d : Declaration) : Declaration :=
  match step, d with
  | document text, d => d.mapHeader fun h => { h with doc := some text }
  | step, .classType c => .classType (step.onClass c)
  | step, .interfaceType i => .interfaceType (step.onInterface i)
  | step, .enumType e => .enumType (step.onEnum e)
  | _, .delegateType d => .delegateType d

end BuildStep

/-- A catalog that is being built: the complete declarations, and the one that was started last. -/
structure Building where
  complete : List Declaration := []
  current : Option Declaration := none
  deriving DecidableEq, Repr

namespace Building

/-- The declarations so far. -/
def types (b : Building) : List Declaration := b.complete ++ b.current.toList

/-- Takes one step. -/
def take (b : Building) (step : BuildStep) : Building :=
  match step.started? with
  | some d => ⟨b.types, some d⟩
  | none => { b with current := b.current.map step.change }

end Building

/-- The catalog that steps build. -/
def Catalog.build (steps : List BuildStep) : Catalog := ⟨(steps.foldl Building.take {}).types, 0⟩

end LuaTypings
