/-
LuaTypings/Proofs/Catalog/Records.lean

Declarations as objects, read back.  An object with different keys whose fields read as the data
of a member or a declaration is read as this member or declaration, whatever the order of its keys
and whatever else is in it (`ofJson_object`, `ofEntries_eq_ok`).  What is written is such an object
(`ofJson_toJson`, `ofBody_body`).
-/
import LuaTypings.Catalog.Decode
import LuaTypings.Proofs.Json.Shape

namespace LuaTypings

open Json (Reader FieldRule ReadsAs)

variable {entries : List (String × Json)}

/-! ### Members -/

@[simp] theorem Passing.ofJson_word (p : Passing) : ofJson (.string p.word) = .ok p := by
  cases p <;> rfl

theorem Parameter.ofJson_object {p : Parameter} (hkeys : (entries.map Prod.fst).Nodup)
    (hname : ReadsAs entries "name" Reader.text p.name)
    (htype : ReadsAs entries "type_name" Reader.text p.type)
    (hoptional : ReadsAs entries "is_optional" Reader.flag p.isOptional)
    (hpassing : ReadsAs entries "pass_by" Passing.ofJson p.passing)
    (hdoc : ReadsAs entries "documentation" (Reader.option Reader.text) p.doc) :
    ofJson (.object entries) = .ok p := by
  have hrules : ∀ rule ∈ rules, rule.Kept entries := by
    simp only [rules, List.forall_mem_cons]
    exact ⟨hname.kept, htype.kept, hoptional.kept, hpassing.kept, hdoc.kept,
      List.forall_mem_nil _⟩
  rw [ofJson, Json.record_object hkeys hrules, hname.required, htype.required,
    hoptional.withDefault, hpassing.withDefault, hdoc.withDefault]
  rfl

@[simp] theorem Parameter.ofJson_toJson (p : Parameter) : ofJson p.toJson = .ok p := by
  refine ofJson_object ?_ ⟨_, rfl, rfl⟩ ⟨_, rfl, rfl⟩ ⟨_, rfl, rfl⟩
    ⟨_, rfl, Passing.ofJson_word p.passing⟩ ⟨_, rfl, Reader.option_optional p.doc⟩
  show ["name", "type_name", "is_optional", "pass_by", "documentation"].Nodup
  decide

theorem Method.ofJson_object {m : Method} (hkeys : (entries.map Prod.fst).Nodup)
    (hname : ReadsAs entries "name" Reader.text m.name)
    (hreturn : ReadsAs entries "return_type" Reader.text m.returnType)
    (hstatic : ReadsAs entries "is_static" Reader.flag m.isStatic)
    (hparameters : ReadsAs entries "parameters" (Reader.list Parameter.ofJson) m.parameters)
    (hdoc : ReadsAs entries "documentation" (Reader.option Reader.text) m.doc) :
    ofJson (.object entries) = .ok m := by
  have hrules : ∀ rule ∈ rules, rule.Kept entries := by
    simp only [rules, List.forall_mem_cons]
    exact ⟨hname.kept, hreturn.kept, hstatic.kept, hparameters.kept, hdoc.kept,
      List.forall_mem_nil _⟩
  rw [ofJson, Json.record_object hkeys hrules, hname.required, hreturn.withDefault,
    hstatic.withDefault, hparameters.withDefault, hdoc.withDefault]
  rfl

@[simp] theorem Method.ofJson_toJson (m : Method) : ofJson m.toJson = .ok m := by
  refine ofJson_object ?_ ⟨_, rfl, rfl⟩ ⟨_, rfl, rfl⟩ ⟨_, rfl, rfl⟩
    ⟨_, rfl, Reader.list_array Parameter.ofJson_toJson m.parameters⟩
    ⟨_, rfl, Reader.option_optional m.doc⟩
  show ["name", "return_type", "is_static", "parameters", "documentation"].Nodup
  decide

/-- A captured literal is a number of 64 bits. -/
theorem Field.ofConstantJson (v : Option Int64) :
    Reader.option Reader.int64 (constantJson v) = .ok v := by
  rcases v with - | v
  · rfl
  · have hbounds : Int64.minValue.toInt ≤ v.toInt ∧ v.toInt ≤ Int64.maxValue.toInt :=
      ⟨Int64.minValue_le_toInt v, Int64.toInt_le v⟩
    have hread : Reader.int64 (.integer v.toInt) = .ok v := by
      rw [Reader.int64, if_pos hbounds, Int64.ofInt_toInt]
    rw [constantJson, Reader.option, hread]
    · rfl
    · exact nofun

theorem Field.ofJson_object {field : Field} (hkeys : (entries.map Prod.fst).Nodup)
    (hname : ReadsAs entries "name" Reader.text field.name)
    (htype : ReadsAs entries "type_name" Reader.text field.type)
    (hdoc : ReadsAs entries "documentation" (Reader.option Reader.text) field.doc)
    (hevent : ReadsAs entries "is_event" Reader.flag field.isEvent)
    (hstatic : ReadsAs entries "is_static" Reader.flag field.isStatic)
    (hconstant : ReadsAs entries "constant_value" (Reader.option Reader.int64) field.constant) :
    ofJson (.object entries) = .ok field := by
  have hrules : ∀ rule ∈ rules, rule.Kept entries := by
    simp only [rules, List.forall_mem_cons]
    exact ⟨hname.kept, htype.kept, hdoc.kept, hevent.kept, hstatic.kept, hconstant.kept,
      List.forall_mem_nil _⟩
  rw [ofJson, Json.record_object hkeys hrules, hname.required, htype.required,
    hdoc.withDefault, hevent.withDefault, hstatic.withDefault, hconstant.withDefault]
  rfl

@[simp] theorem Field.ofJson_toJson (field : Field) : ofJson field.toJson = .ok field := by
  refine ofJson_object ?_ ⟨_, rfl, rfl⟩ ⟨_, rfl, rfl⟩ ⟨_, rfl, Reader.option_optional field.doc⟩
    ⟨_, rfl, rfl⟩ ⟨_, rfl, rfl⟩ ⟨_, rfl, ofConstantJson field.constant⟩
  show ["name", "type_name", "documentation", "is_event", "is_static", "constant_value"].Nodup
  decide

/-! ### Declarations -/

theorem Header.ofEntries_eq_ok {h : Header} (hkeys : (entries.map Prod.fst).Nodup)
    (hname : ReadsAs entries "name" Reader.text h.name)
    (hspace : ReadsAs entries "namespace" Reader.text h.space)
    (hdoc : ReadsAs entries "documentation" (Reader.option Reader.text) h.doc)
    (hlocation : ReadsAs entries "source_location" (Reader.option Reader.text) h.location) :
    ofEntries entries = .ok h := by
  have hrules : ∀ rule ∈ rules, rule.Kept entries := by
    simp only [rules, List.forall_mem_cons]
    exact ⟨hname.kept, hspace.kept, hdoc.kept, hlocation.kept, List.forall_mem_nil _⟩
  have hfields := Json.objectFields_eq_ok hkeys hrules
  simp only [ofEntries, hfields, hname.required, hspace.withDefault, hdoc.withDefault,
    hlocation.withDefault, bind, Except.bind, pure, Except.pure]

/-- The fields that all declarations share, in front of others. -/
theorem Header.ofEntries_append (h : Header) {own : List (String × Json)}
    (hkeys : ((h.entries ++ own).map Prod.fst).Nodup) : ofEntries (h.entries ++ own) = .ok h :=
  ofEntries_eq_ok hkeys ⟨_, rfl, rfl⟩ ⟨_, rfl, rfl⟩ ⟨_, rfl, Reader.option_optional h.doc⟩
    ⟨_, rfl, Reader.option_optional h.location⟩

theorem ClassType.ofEntries_eq_ok {c : ClassType} (hkeys : (entries.map Prod.fst).Nodup)
    (hheader : Header.ofEntries entries = .ok c.header)
    (hstruct : ReadsAs entries "is_struct" Reader.flag c.isStruct)
    (hbase : ReadsAs entries "base_type" (Reader.option Reader.text) c.base)
    (hinterfaces : ReadsAs entries "interfaces" (Reader.list Reader.text) c.interfaces)
    (harguments : ReadsAs entries "generic_arguments" (Reader.list Reader.text) c.arguments)
    (hparameters : ReadsAs entries "generic_parameters" (Reader.list Reader.text) c.parameters)
    (hstatic : ReadsAs entries "is_static" Reader.flag c.isStatic)
    (hconstructed : ReadsAs entries "is_constructed_generic" Reader.flag c.isConstructed)
    (hfields : ReadsAs entries "fields" (Reader.list Field.ofJson) c.fields)
    (hmethods : ReadsAs entries "methods" (Reader.list Method.ofJson) c.methods) :
    ofEntries entries = .ok c := by
  have hrules : ∀ rule ∈ rules, rule.Kept entries := by
    simp only [rules, List.forall_mem_cons]
    exact ⟨hstruct.kept, hbase.kept, hinterfaces.kept, harguments.kept, hparameters.kept,
      hstatic.kept, hconstructed.kept, hfields.kept, hmethods.kept, List.forall_mem_nil _⟩
  have hall := Json.objectFields_eq_ok hkeys hrules
  simp only [ofEntries, hall, hheader, Json.Fields.listOf, hstruct.withDefault, hbase.withDefault,
    hinterfaces.withDefault, harguments.withDefault, hparameters.withDefault,
    hstatic.withDefault, hconstructed.withDefault, hfields.withDefault, hmethods.withDefault,
    bind, Except.bind, pure, Except.pure]

theorem InterfaceType.ofEntries_eq_ok {i : InterfaceType} (hkeys : (entries.map Prod.fst).Nodup)
    (hheader : Header.ofEntries entries = .ok i.header)
    (hinterfaces : ReadsAs entries "interfaces" (Reader.list Reader.text) i.interfaces)
    (harguments : ReadsAs entries "generic_arguments" (Reader.list Reader.text) i.arguments)
    (hfields : ReadsAs entries "fields" (Reader.list Field.ofJson) i.fields)
    (hmethods : ReadsAs entries "methods" (Reader.list Method.ofJson) i.methods) :
    ofEntries entries = .ok i := by
  have hrules : ∀ rule ∈ rules, rule.Kept entries := by
    simp only [rules, List.forall_mem_cons]
    exact ⟨hinterfaces.kept, harguments.kept, hfields.kept, hmethods.kept, List.forall_mem_nil _⟩
  have hall := Json.objectFields_eq_ok hkeys hrules
  simp only [ofEntries, hall, hheader, Json.Fields.listOf, hinterfaces.withDefault,
    harguments.withDefault, hfields.withDefault, hmethods.withDefault, bind, Except.bind, pure,
    Except.pure]

theorem EnumType.ofEntries_eq_ok {e : EnumType} (hkeys : (entries.map Prod.fst).Nodup)
    (hheader : Header.ofEntries entries = .ok e.header)
    (hfields : ReadsAs entries "fields" (Reader.list Field.ofJson) e.fields) :
    ofEntries entries = .ok e := by
  have hrules : ∀ rule ∈ rules, rule.Kept entries := by
    simp only [rules, List.forall_mem_cons]
    exact ⟨hfields.kept, List.forall_mem_nil _⟩
  have hall := Json.objectFields_eq_ok hkeys hrules
  simp only [ofEntries, hall, hheader, Json.Fields.listOf, hfields.withDefault, bind, Except.bind,
    pure, Except.pure]

theorem DelegateType.ofEntries_eq_ok {d : DelegateType} (hkeys : (entries.map Prod.fst).Nodup)
    (hheader : Header.ofEntries entries = .ok d.header)
    (hinvoke : ReadsAs entries "invoke" Method.ofJson d.invoke) :
    ofEntries entries = .ok d := by
  have hrules : ∀ rule ∈ rules, rule.Kept entries := by
    simp only [rules, List.forall_mem_cons]
    exact ⟨hinvoke.kept, List.forall_mem_nil _⟩
  have hall := Json.objectFields_eq_ok hkeys hrules
  simp only [ofEntries, hall, hheader, hinvoke.required, bind, Except.bind, pure, Except.pure]

namespace Declaration

/-- The entries of a declaration behind its kind. -/
def body (d : Declaration) : List (String × Json) := d.header.entries ++ d.ownEntries

/-- The keys are different, also from that of the kind. -/
theorem nodup_keys (d : Declaration) : ("kind" :: d.body.map Prod.fst).Nodup := by
  cases d with
  | classType c =>
    show ["kind", "name", "namespace", "documentation", "source_location", "is_struct",
      "base_type", "interfaces", "generic_arguments", "generic_parameters", "is_static",
      "is_constructed_generic", "fields", "methods"].Nodup
    decide
  | interfaceType i =>
    show ["kind", "name", "namespace", "documentation", "source_location", "interfaces",
      "generic_arguments", "fields", "methods"].Nodup
    decide
  | enumType e =>
    show ["kind", "name", "namespace", "documentation", "source_location", "fields"].Nodup
    decide
  | delegateType d =>
    show ["kind", "name", "namespace", "documentation", "source_location", "invoke"].Nodup
    decide

/-- A declaration is read from its entries. -/
@[simp] theorem ofBody_body (d : Declaration) : ofBody d.kind (.object d.body) = .ok d := by
  have hkeys := d.nodup_keys.of_cons
  have hheader : Header.ofEntries d.body = .ok d.header := d.header.ofEntries_append hkeys
  cases d with
  | classType c =>
    have hclass : ClassType.ofEntries (classType c).body = .ok c :=
      ClassType.ofEntries_eq_ok hkeys hheader ⟨_, rfl, rfl⟩
        ⟨_, rfl, Reader.option_optional c.base⟩ ⟨_, rfl, Reader.list_strings c.interfaces⟩
        ⟨_, rfl, Reader.list_strings c.arguments⟩ ⟨_, rfl, Reader.list_strings c.parameters⟩
        ⟨_, rfl, rfl⟩ ⟨_, rfl, rfl⟩ ⟨_, rfl, Reader.list_array Field.ofJson_toJson c.fields⟩
        ⟨_, rfl, Reader.list_array Method.ofJson_toJson c.methods⟩
    exact congrArg (Except.map classType) hclass
  | interfaceType i =>
    have hinterface : InterfaceType.ofEntries (interfaceType i).body = .ok i :=
      InterfaceType.ofEntries_eq_ok hkeys hheader ⟨_, rfl, Reader.list_strings i.interfaces⟩
        ⟨_, rfl, Reader.list_strings i.arguments⟩
        ⟨_, rfl, Reader.list_array Field.ofJson_toJson i.fields⟩
        ⟨_, rfl, Reader.list_array Method.ofJson_toJson i.methods⟩
    exact congrArg (Except.map interfaceType) hinterface
  | enumType e =>
    have henum : EnumType.ofEntries (enumType e).body = .ok e :=
      EnumType.ofEntries_eq_ok hkeys hheader
        ⟨_, rfl, Reader.list_array Field.ofJson_toJson e.fields⟩
    exact congrArg (Except.map enumType) henum
  | delegateType d =>
    have hdelegate : DelegateType.ofEntries (delegateType d).body = .ok d :=
      DelegateType.ofEntries_eq_ok hkeys hheader ⟨_, rfl, Method.ofJson_toJson d.invoke⟩
    exact congrArg (Except.map delegateType) hdelegate

end Declaration

end LuaTypings
