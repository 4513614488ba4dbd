/-
LuaTypings/Generics.lean

Generic classes and their instances.  An analyzer reports every instance of a generic class
that it saw as a class of its own.  `Generics.merge` keeps one definition of each: the first
instance is restated over placeholder parameters, later ones are dropped, and where the
catalog holds the definition itself no instance is kept at all.

Substitution is textual.  Every occurrence of a concrete argument in a type becomes its
placeholder, longest argument first, also where the argument is only a part of a longer name.
-/
import LuaTypings.Declaration
import LuaTypings.Text.Blank
import LuaTypings.Text.Replace

namespace LuaTypings

/-! ### Substitution -/

namespace Substitution

/-- Replaces one text by another, everywhere. -/
def replace (text : String) (pair : String × String) : String :=
  String.ofList (Text.replaceAll pair.1.toList pair.2.toList text.toList)

/-- Applies replacements one after the other. -/
def apply (pairs : List (String × String)) (text : String) : String := pairs.foldl replace text

/-- Puts a pair in front of the first pair that is not longer. -/
def insert (pair : String × String) : List (String × String) → List (String × String)
  | [] => [pair]
  | q :: qs =>
    if q.1.utf8ByteSize ≤ pair.1.utf8ByteSize then pair :: q :: qs else q :: insert pair qs

/-- Orders pairs by the size of the text to be replaced, largest first; pairs of one size keep
their order. -/
def longestFirst (pairs : List (String × String)) : List (String × String) :=
  pairs.foldr insert []

/-- The pairs that replace arguments by placeholders, in the order in which they apply.  An
empty argument and one that is its own placeholder need no replacement. -/
def ofArguments (arguments placeholders : List String) : List (String × String) :=
  longestFirst ((arguments.zip placeholders).filter fun p => !p.1.isEmpty && p.1 != p.2)

end Substitution

/-! ### Instances and definitions -/

namespace ClassType

/-- Whether the name or the arguments show that a class is generic. -/
def isGeneric (c : ClassType) : Bool := HostName.isMarked c.header.name || !c.arguments.isEmpty

/-- An instance of a generic class. -/
def isInstance (c : ClassType) : Bool := c.isConstructed && c.isGeneric

/-- A generic class itself. -/
def isDefinition (c : ClassType) : Bool := !c.isConstructed && c.isGeneric

theorem isInstance_iff {c : ClassType} :
    c.isInstance = true ↔ c.isConstructed = true ∧ c.isGeneric = true := by
  rw [isInstance, Bool.and_eq_true]

theorem isDefinition_iff {c : ClassType} :
    c.isDefinition = true ↔ c.isConstructed = false ∧ c.isGeneric = true := by
  rw [isDefinition, Bool.and_eq_true, Bool.not_eq_true']

theorem isInstance_eq_false_of_isDefinition {c : ClassType} (h : c.isDefinition = true) :
    c.isInstance = false := by
  rw [isInstance, (isDefinition_iff.mp h).1, Bool.false_and]

theorem isDefinition_eq_false_of_isInstance {c : ClassType} (h : c.isInstance = true) :
    c.isDefinition = false := by
  rw [isDefinition, (isInstance_iff.mp h).1, Bool.not_true, Bool.false_and]

/-- The full name of the definition, which all its instances share. -/
def definitionKey (c : ClassType) : String :=
  HostName.inNamespace c.header.space (HostName.definition c.header.name c.arguments.length)

/-- The number of parameters of the definition: the arguments, or what the name tells. -/
def parameterCount (c : ClassType) : Nat :=
  if c.arguments.isEmpty then (HostName.arity? c.header.name).getD 0 else c.arguments.length

/-- The placeholder at a position: `T`, then `T1`, `T2` and so on. -/
def placeholder (index : Nat) : String := if index = 0 then "T" else "T" ++ toString index

/-- The names of the parameters of the definition: the analyzer's, if it kept all of them and
none is blank, or else placeholders. -/
def placeholders (c : ClassType) : List String :=
  let count := c.parameterCount
  if 0 < count ∧ c.parameters.length = count ∧ c.parameters.all (fun p => !Text.isBlankText p) then
    c.parameters
  else (List.range count).map placeholder

theorem length_placeholders (c : ClassType) : c.placeholders.length = c.parameterCount := by
  simp only [placeholders]
  split
  · rename_i h
    exact h.2.1
  · rw [List.length_map, List.length_range]

/-- A class with all its types changed. -/
def mapTypes (f : String → String) (c : ClassType) : ClassType :=
  { c with
    base := c.base.map f
    interfaces := c.interfaces.map f
    fields := c.fields.map fun field => { field with type := f field.type }
    methods := c.methods.map fun m =>
      { m with
        returnType := f m.returnType
        parameters := m.parameters.map fun p => { p with type := f p.type } } }

/-- The definition that an instance belongs to. -/
def toDefinition (c : ClassType) : ClassType :=
  let placeholders := c.placeholders
  let restated := c.mapTypes (Substitution.apply (Substitution.ofArguments c.arguments placeholders))
  { restated with
    header := { c.header with name := HostName.definition c.header.name placeholders.length }
    isConstructed := false
    arguments := placeholders
    parameters := placeholders }

end ClassType

/-! ### Merging -/

namespace Generics

/-- What merging gives. -/
structure Merged where
  /-- The declarations that remain, in their order. -/
  types : List Declaration
  /-- How many instances were dropped. -/
  dropped : Nat
  /-- How many instances became definitions. -/
  created : Nat
  deriving DecidableEq, Repr

/-- The class behind a declaration that is an instance. -/
def instance? : Declaration → Option ClassType
  | .classType c => if c.isInstance then some c else none
  | _ => none

/-- The key of a declaration that is a generic definition. -/
def definitionKey? : Declaration → Option String
  | .classType c => if c.isDefinition then some c.definitionKey else none
  | _ => none

/-- Merges declarations, where the definitions with the keys `seen` are there already. -/
def mergeFrom (seen : List String) : List Declaration → Merged
  | [] => ⟨[], 0, 0⟩
  | d :: ds =>
    match instance? d with
    | none =>
      let rest := mergeFrom seen ds
      { rest with types := d :: rest.types }
    | some c =>
      if seen.contains c.definitionKey then
        let rest := mergeFrom seen ds
        { rest with dropped := rest.dropped + 1 }
      else
        let rest := mergeFrom (c.definitionKey :: seen) ds
        { rest with
          types := .classType c.toDefinition :: rest.types
          created := rest.created + 1 }

/-- Keeps one definition of every generic class. -/
def merge (types : List Declaration) : Merged := mergeFrom (types.filterMap definitionKey?) types

end Generics

end LuaTypings
