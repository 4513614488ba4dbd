/-
LuaTypings/Proofs/Renderable.lean

When a declaration is rendered.  `checks` lists what a declaration is asked for in the order of its
lines.  Here the same is said of the declaration as it stands: it has a name below the root table,
the members that are written have names (`memberNames`), and the display strings of its parents and
of these members denote types (`parentTypes`, `memberTypes`).  A base type that counts as builtin is
not asked for, but it denotes a type anyway (`denotes_of_builtin`), so it is no exception.

Main result: `render_succeeds_iff`, with the error for a declaration that fails.
-/
import LuaTypings.Proofs.Checks
import LuaTypings.Proofs.DeclaredNames

namespace LuaTypings

/-! ### Display strings -/

/-- A display string denotes a type. -/
def HostType.Denotes (display : String) : Prop := ∃ type, parse display = .ok type

/-- What counts as a builtin type is a name, and it denotes a type. -/
theorem HostType.denotes_of_builtin {name : String} (h : (Builtin.ofHost? name).isSome = true) :
    Denotes name := by
  have hall : ∀ name ∈ Builtin.standardNames ++ Builtin.looseNames, IsName name := by
    decide +kernel
  have hmem : name ∈ Builtin.standardNames ++ Builtin.looseNames :=
    List.mem_append.mpr (Builtin.isSome_ofHost?_iff.mp h)
  exact ⟨_, parse_of_isName (hall name hmem)⟩

/-! ### What is written of a declaration -/

/-- The methods that are written as functions. -/
def functionsOf (ms : List Method) : List Method := ms.filter fun m => !m.isConstructor

theorem mem_functionsOf {ms : List Method} {m : Method} (hm : m ∈ ms)
    (hconstructor : ¬ m.isConstructor = true) : m ∈ functionsOf ms :=
  List.mem_filter.mpr ⟨hm, by simp [hconstructor]⟩

/-- The display strings of a method that is written: its result, and all its parameters. -/
def Method.spelledTypes (m : Method) : List String :=
  m.returnType :: m.parameters.map Parameter.type

/-- The display strings of a constructor: the parameters that are passed. -/
def Method.passedTypes (m : Method) : List String :=
  (m.parameters.filter fun p => !p.isOutput).map Parameter.type

namespace Declaration

/-- The names of the members that are written: the fields, and the methods that are no
constructors. -/
def memberNames : Declaration → List String
  | classType c => c.fields.map Field.name ++ (functionsOf c.methods).map Method.name
  | interfaceType i => i.fields.map Field.name ++ (functionsOf i.methods).map Method.name
  | enumType e => e.fields.map Field.name
  | delegateType _ => []

/-- The display strings behind the name of a declaration. -/
def parentTypes : Declaration → List String
  | classType c => c.base.toList ++ c.interfaces
  | interfaceType i => i.interfaces
  | enumType _ => []
  | delegateType _ => []

/-- The display strings of the members that are written.  The members of an enumeration have its own
type, and the constructors of a static class and of an interface are not written. -/
def memberTypes : Declaration → List String
  | classType c =>
    c.fields.map Field.type ++ (functionsOf c.methods).flatMap Method.spelledTypes
      ++ (if c.isStatic then [] else c.constructors.flatMap Method.passedTypes)
  | interfaceType i =>
    i.fields.map Field.type ++ (functionsOf i.methods).flatMap Method.spelledTypes
  | enumType _ => []
  | delegateType d => d.invoke.spelledTypes

end Declaration

namespace Block

open HostType (Denotes)

/-! ### Checks that hold -/

/-- What a check asks for. -/
def Check.Holds : Check → Prop
  | denotes display => Denotes display
  | named _ name => name ≠ ""

@[simp] theorem Check.holds_denotes {display : String} :
    (denotes display).Holds ↔ Denotes display := Iff.rfl

@[simp] theorem Check.holds_named {kind : NameKind} {name : String} :
    (named kind name).Holds ↔ name ≠ "" := Iff.rfl

theorem Check.fault?_eq_none_iff {c : Check} : c.fault? = none ↔ c.Holds := by
  cases c with
  | denotes display =>
    rw [fault?, Spelling.parse, Holds, Denotes]
    rcases HostType.parse display with e | type <;> simp [faultOf]
  | named kind name => simp [fault?, Holds]

theorem firstFault?_eq_none_iff {cs : List Check} :
    firstFault? cs = none ↔ ∀ c ∈ cs, c.Holds := by
  simp only [firstFault?, List.findSome?_eq_none_iff, Check.fault?_eq_none_iff]

/-- The first fault is that of a check behind checks that hold. -/
theorem firstFault?_eq_some_iff {cs : List Check} {e : RenderError} :
    firstFault? cs = some e ↔
      ∃ front c back, cs = front ++ c :: back ∧ (∀ c' ∈ front, c'.Holds) ∧ c.fault? = some e := by
  simp only [firstFault?, List.findSome?_eq_some_iff, Check.fault?_eq_none_iff,
    and_comm (a := _ = some e)]

theorem faultOf_eq_none_iff {α : Type} {x : Except RenderError α} :
    faultOf x = none ↔ ∃ a, x = .ok a := by
  rcases x with e | a <;> simp [faultOf]

theorem faultOf_eq_some_iff {α : Type} {x : Except RenderError α} {e : RenderError} :
    faultOf x = some e ↔ x = .error e := by
  rcases x with e' | a <;> simp [faultOf]

/-! ### Members -/

theorem inputChecks_eq_map (m : Method) : inputChecks m = m.passedTypes.map .denotes := by
  -- the position of a parameter counts for its name only
  rw [Method.passedTypes, ← Annotations.map_fst_inputs, List.map_map, List.map_map]
  rfl

/-- A method that is written is asked for its result and for all its parameters, whichever way they
are passed. -/
theorem holds_signature_iff (m : Method) :
    (∀ c ∈ inputChecks m ++ resultChecks m, c.Holds) ↔ ∀ t ∈ m.spelledTypes, Denotes t := by
  simp only [inputChecks_eq_map, resultChecks, Method.passedTypes, Method.spelledTypes,
    List.forall_mem_append, List.forall_mem_cons, List.forall_mem_map, List.mem_filter,
    Check.holds_denotes, Bool.not_eq_true', and_imp]
  constructor
  · rintro ⟨hinputs, hresult, houtputs⟩
    refine ⟨hresult, fun p hp => ?_⟩
    rcases hout : p.isOutput
    · exact hinputs p hp hout
    · exact houtputs p hp hout
  · rintro ⟨hresult, hall⟩
    exact ⟨fun p hp _ => hall p hp, hresult, fun p hp _ => hall p hp⟩

theorem holds_functions_iff (ms : List Method) :
    (∀ c ∈ ms.flatMap methodChecks, c.Holds) ↔
      (∀ name ∈ (functionsOf ms).map Method.name, name ≠ "") ∧
        ∀ t ∈ (functionsOf ms).flatMap Method.spelledTypes, Denotes t := by
  have hone (m : Method) : (∀ c ∈ methodChecks m, c.Holds) ↔
      (!m.isConstructor) = true → m.name ≠ "" ∧ ∀ t ∈ m.spelledTypes, Denotes t := by
    rw [methodChecks]
    split_ifs with h
    · simp [h]
    · rw [List.forall_mem_cons, holds_signature_iff]
      simp [h]
  simp only [List.forall_mem_flatMap, hone, functionsOf, List.forall_mem_map, List.mem_filter,
    ← forall_and, and_imp]

theorem holds_fields_iff (fields : List Field) :
    (∀ c ∈ fields.flatMap fieldChecks, c.Holds) ↔
      (∀ name ∈ fields.map Field.name, name ≠ "") ∧ ∀ t ∈ fields.map Field.type, Denotes t := by
  simp only [List.forall_mem_flatMap, fieldChecks, List.forall_mem_cons, List.forall_mem_map,
    Check.holds_denotes, Check.holds_named, ← forall_and]
  exact forall₂_congr fun _ _ => by simp [and_comm]

theorem holds_passed_iff (ms : List Method) :
    (∀ c ∈ ms.flatMap inputChecks, c.Holds) ↔ ∀ t ∈ ms.flatMap Method.passedTypes, Denotes t := by
  simp only [List.forall_mem_flatMap, inputChecks_eq_map, List.forall_mem_map,
    Check.holds_denotes]

/-! ### Declarations -/

/-- A base type that is not asked for denotes a type as well. -/
theorem holds_base_iff (base : Option String) :
    (∀ c ∈ (base.toList.filter fun b => (Builtin.ofHost? b).isNone).map Check.denotes, c.Holds) ↔
      ∀ t ∈ base.toList, Denotes t := by
  simp only [List.forall_mem_map, List.mem_filter, and_imp, Check.holds_denotes]
  refine forall₂_congr fun b _ => ⟨fun h => ?_, fun h _ => h⟩
  rcases hb : Builtin.ofHost? b with - | builtin
  · exact h (by rw [hb]; rfl)
  · exact HostType.denotes_of_builtin (by rw [hb]; rfl)

theorem holds_parents_iff (d : Declaration) :
    (∀ c ∈ parentChecks d, c.Holds) ↔ ∀ t ∈ d.parentTypes, Denotes t := by
  cases d with
  | classType c =>
    rw [parentChecks, Declaration.parentTypes, List.forall_mem_append, List.forall_mem_append,
      holds_base_iff, List.forall_mem_map]
    rfl
  | interfaceType i => exact List.forall_mem_map
  | enumType e => simp [parentChecks, Declaration.parentTypes]
  | delegateType dl => simp [parentChecks, Declaration.parentTypes]

theorem holds_members_iff (d : Declaration) :
    (∀ c ∈ memberChecks d, c.Holds) ↔
      (∀ name ∈ d.memberNames, name ≠ "") ∧ ∀ t ∈ d.memberTypes, Denotes t := by
  cases d with
  | classType c =>
    have hconstructors : (∀ check ∈ if c.isStatic then [] else c.constructors.flatMap inputChecks,
        check.Holds) ↔
        ∀ t ∈ if c.isStatic then [] else c.constructors.flatMap Method.passedTypes, Denotes t := by
      cases c.isStatic
      · exact holds_passed_iff c.constructors
      · simp
    simp only [memberChecks, Declaration.memberNames, Declaration.memberTypes,
      List.forall_mem_append, holds_fields_iff, holds_functions_iff, hconstructors]
    tauto
  | interfaceType i =>
    simp only [memberChecks, Declaration.memberNames, Declaration.memberTypes,
      List.forall_mem_append, holds_fields_iff, holds_functions_iff]
    tauto
  | enumType e => simp [memberChecks, Declaration.memberNames, Declaration.memberTypes]
  | delegateType dl =>
    rw [memberChecks, holds_signature_iff]
    simp [Declaration.memberNames, Declaration.memberTypes]

/-- **When a declaration is rendered.**  It is exactly if it has a name below the root table, the
members that are written have names, and the display strings that are spelled denote types; nothing
else is asked for.  Otherwise the error is that of the first check that fails, in the order of the
lines. -/
theorem render_succeeds_iff (f : Flavor) (d : Declaration) :
    ((∃ text, render f d = .ok text) ↔
      declaredName f d.header ≠ "" ∧ (∀ name ∈ d.memberNames, name ≠ "") ∧
        ∀ display ∈ d.parentTypes ++ d.memberTypes, Denotes display) ∧
    ∀ e, render f d = .error e ↔
      ∃ front c back, checks f d = front ++ c :: back ∧ (∀ c' ∈ front, c'.Holds) ∧
        c.fault? = some e := by
  refine ⟨?_, fun e => ?_⟩
  · rw [← faultOf_eq_none_iff, fault_render, firstFault?_eq_none_iff, checks,
      List.forall_mem_append, List.forall_mem_cons, holds_parents_iff, holds_members_iff,
      List.forall_mem_append, Check.holds_named]
    tauto
  · rw [← faultOf_eq_some_iff, fault_render, firstFault?_eq_some_iff]

-- A constructor is asked for what is passed to it, and that of a static class for nothing.
example :
    let made (isStatic : Bool) (passing : Passing) : Declaration := .classType
      { header := { name := "A" }, isStatic
        methods := [{ name := ".ctor", parameters := [{ name := "x", type := "int[", passing }] }] }
    (render .xlua (made false .value)).isOk = false ∧
      (render .xlua (made false .output)).isOk = true ∧
      (render .xlua (made true .value)).isOk = true := by
  decide +kernel

end Block

end LuaTypings
