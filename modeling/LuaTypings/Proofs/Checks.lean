/-
LuaTypings/Proofs/Checks.lean

What a declaration is asked for before it is rendered.  `checks` lists it in the order of the
lines: display strings that must denote types, and names that must not be empty.  Whether and
why a declaration cannot be rendered is the first fault among its checks (`fault_render`), and
the binding counts in one of them only, the name of the declaration itself.

A result is `Checked` by a list if its fault is the first one of the list.  Results that are put
together one after the other are checked by their lists one after the other
(`Checked.andThen`), so the proofs go along the lines of a block.
-/
import LuaTypings.Block
import LuaTypings.Proofs.HostType.Grammar

namespace LuaTypings

/-! ### Display strings that denote types -/

/-- A name between blanks denotes the type of this name, unless it is a passing word. -/
theorem HostType.parse_of_trim {display name : String} (hname : IsName name)
    (hword : name.toList ++ [' '] ∉ passingWords)
    (h : Text.trim display.toList = name.toList) : parse display = .ok (.named name []) := by
  obtain ⟨gap, hcut, hgap⟩ := Text.exists_gap_trimEnd (Text.trimStart display.toList)
  have hsplit : Text.trimStart display.toList = name.toList ++ gap := by
    rw [hcut, ← h, Text.trim]
  have hapart : StartsApart gap := fun c hc => isNameChar_of_isBlank (hgap c (List.mem_of_head? hc))
  -- a passing word is dropped only if a blank stands directly behind it
  have hend : StartsApart (Text.trimStart gap) := by
    rw [← List.append_nil gap, Text.trimStart_of_blanks hgap]
    exact startsApart_nil
  have htext : typeText display = name.toList ++ gap := by
    rw [typeText, hsplit]
    exact (dropWords_cases (fun _ => id) hname.2 hapart hend).resolve_right
      fun hlost => hword hlost.1
  obtain ⟨c, cs, -, htokens⟩ := tokens_of_isName hname
  refine parse_eq_ok_iff.mpr ⟨.named hname (List.forall_mem_nil _), ?_⟩
  rw [htext, tokens_append_blanks _ hgap, tokens_spell_named, htokens]
  rfl

/-- What is `void` denotes a type too. -/
theorem HostType.exists_parse_of_isVoid {display : String} (h : Builtin.isVoid display = true) :
    ∃ type, parse display = .ok type := by
  obtain ⟨name, hname, htrim⟩ : ∃ name ∈ ["void", "System.Void", "Void"],
      Text.trim display.toList = name.toList := by
    simp only [Builtin.isVoid, Bool.or_eq_true, beq_iff_eq] at h
    refine ⟨String.ofList (Text.trim display.toList), ?_, String.toList_ofList.symm⟩
    rcases h with (h | h) | h <;> simp [h]
  have hall : ∀ name ∈ ["void", "System.Void", "Void"],
      IsName name ∧ name.toList ++ [' '] ∉ passingWords := by decide
  exact ⟨_, parse_of_trim (hall name hname).1 (hall name hname).2 htrim⟩

/-! ### Faults and checks -/

/-- Why a result is missing, if it is. -/
def faultOf {α : Type} : Except RenderError α → Option RenderError
  | .ok _ => none
  | .error e => some e

namespace Block

/-- Something that a declaration is asked for. -/
inductive Check where
  /-- A display string denotes a type. -/
  | denotes (display : String)
  /-- A name is not empty. -/
  | named (kind : NameKind) (name : String)
  deriving DecidableEq, Repr

/-- What is wrong, if a check fails. -/
def Check.fault? : Check → Option RenderError
  | denotes display => faultOf (Spelling.parse display)
  | named kind name => if name.isEmpty then some (.emptyName kind) else none

/-- The first fault in a list of checks. -/
def firstFault? (cs : List Check) : Option RenderError := cs.findSome? Check.fault?

/-- A result is there exactly if no check fails, and otherwise the first fault tells why. -/
def Checked {α : Type} (cs : List Check) (x : Except RenderError α) : Prop :=
  faultOf x = firstFault? cs

namespace Checked

variable {α β : Type} {cs cs' : List Check} {x : Except RenderError α} {y : Except RenderError β}

theorem ok (a : α) : Checked [] (.ok a) := rfl

/-- A result that needs another one is checked behind it. -/
theorem andThen (hx : Checked cs x) (herror : ∀ e, x = .error e → y = .error e)
    (hok : ∀ a, x = .ok a → Checked cs' y) : Checked (cs ++ cs') y := by
  unfold Checked firstFault? at *
  rw [List.findSome?_append, ← hx]
  rcases x with e | a
  · rw [herror e rfl]
    rfl
  · rw [hok a rfl]
    rfl

/-- A result that only needs another one has its checks. -/
theorem andReturn (hx : Checked cs x) (herror : ∀ e, x = .error e → y = .error e)
    (hok : ∀ a, x = .ok a → ∃ b, y = .ok b) : Checked cs y := by
  rw [← List.append_nil cs]
  refine hx.andThen herror fun a ha => ?_
  obtain ⟨b, rfl⟩ := hok a ha
  exact ok b

theorem bind {k : α → Except RenderError β} (hx : Checked cs x)
    (hk : ∀ a, Checked cs' (k a)) : Checked (cs ++ cs') (x >>= k) := by
  refine hx.andThen ?_ ?_
  · rintro e rfl
    rfl
  · rintro a rfl
    exact hk a

end Checked

/-! ### Types and names -/

theorem checked_named {α : Type} {kind : NameKind} {name : String} {cs : List Check}
    {x y : Except RenderError α} (hx : x = .error (.emptyName kind)) (hy : Checked cs y) :
    Checked (.named kind name :: cs) (if name.isEmpty then x else y) := by
  unfold Checked firstFault? at *
  rw [List.findSome?_cons, Check.fault?]
  split_ifs with h
  · rw [hx]
    rfl
  · exact hy

section

variable (s : Spelling)

theorem checked_result (display : String) : Checked [.denotes display] (s.result display) := by
  unfold Checked firstFault? Spelling.result
  rw [List.findSome?_singleton, Check.fault?, Spelling.parse]
  split_ifs with h
  · obtain ⟨type, htype⟩ := HostType.exists_parse_of_isVoid h
    rw [htype]
    rfl
  · rcases HostType.parse display with e | type <;> rfl

theorem checked_value (display : String) : Checked [.denotes display] (s.value display) := by
  refine (checked_result s display).andReturn ?_ ?_
  · intro e h
    rw [Spelling.value, h]
  · rintro (- | lua) h
    · exact ⟨"nil", by rw [Spelling.value, h]⟩
    · exact ⟨lua, by rw [Spelling.value, h]⟩

theorem checked_values (displays : List String) :
    Checked (displays.map .denotes) (s.values displays) := by
  induction displays with
  | nil => exact .ok []
  | cons display displays ih =>
    rw [List.map_cons, ← List.singleton_append]
    refine (checked_value s display).andThen ?_ ?_
    · intro e h
      rw [Spelling.values, h]
    · intro lua h
      rw [Spelling.values, h]
      refine ih.andReturn ?_ ?_
      · intro e h'
        rw [h']
      · intro luas h'
        exact ⟨lua :: luas, by rw [h']⟩

end

/-! ### Members -/

/-- The types of the parameters that are passed. -/
def inputChecks (m : Method) : List Check :=
  (Annotations.inputs m.parameters).map fun p => .denotes p.1.type

/-- The type of the result, and those of the parameters that are results. -/
def resultChecks (m : Method) : List Check :=
  .denotes m.returnType :: (m.parameters.filter Parameter.isOutput).map fun p => .denotes p.type

/-- What a method is asked for; nothing is written of a constructor. -/
def methodChecks (m : Method) : List Check :=
  if m.isConstructor then [] else .named .method m.name :: (inputChecks m ++ resultChecks m)

/-- What a field is asked for. -/
def fieldChecks (field : Field) : List Check := [.denotes field.type, .named .field field.name]

section

variable (s : Spelling) (owner : String)

theorem checked_inputTypes (m : Method) :
    Checked (inputChecks m) (Annotations.inputTypes s m.parameters) := by
  have h := checked_values s ((Annotations.inputs m.parameters).map fun p => p.1.type)
  rwa [List.map_map] at h

theorem checked_resultTypes (m : Method) :
    Checked (resultChecks m) (Annotations.resultTypes s m.returnType m.parameters) := by
  have houtputs := checked_values s ((m.parameters.filter Parameter.isOutput).map Parameter.type)
  rw [List.map_map] at houtputs
  rw [resultChecks, ← List.singleton_append]
  refine (checked_result s m.returnType).andThen ?_ ?_
  · intro e h
    rw [Annotations.resultTypes, h]
  · intro primary h
    rw [Annotations.resultTypes, h]
    refine houtputs.andReturn ?_ ?_
    · intro e h'
      rw [h']
    · intro outputs h'
      exact ⟨primary.toList ++ outputs, by rw [h']⟩

theorem checked_parameterLines (m : Method) :
    Checked (inputChecks m) (Annotations.parameterLines s m.parameters) := by
  refine (checked_inputTypes s m).andReturn ?_ ?_
  · intro e h
    rw [Annotations.parameterLines, h]
  · intro types h
    exact ⟨_, by rw [Annotations.parameterLines, h]⟩

theorem checked_signature (m : Method) :
    Checked (inputChecks m ++ resultChecks m) (Annotations.signature s m) := by
  refine (checked_inputTypes s m).andThen ?_ ?_
  · intro e h
    rw [Annotations.signature, h]
  · intro types h
    refine (checked_resultTypes s m).andReturn ?_ ?_
    · intro e h'
      rw [Annotations.signature, h, h']
    · intro results h'
      exact ⟨_, by rw [Annotations.signature, h, h']⟩

theorem checked_resultLines (m : Method) :
    Checked (resultChecks m) (Annotations.resultLines s m.returnType m.parameters) := by
  refine (checked_resultTypes s m).andReturn ?_ ?_
  · intro e h
    rw [Annotations.resultLines, h]
  · rintro (- | ⟨type, types⟩) h
    · exact ⟨[], by rw [Annotations.resultLines, h]⟩
    · exact ⟨_, by rw [Annotations.resultLines, h]⟩

theorem checked_method (m : Method) :
    Checked (.named .method m.name :: (inputChecks m ++ resultChecks m))
      (Annotations.method s owner m) := by
  unfold Annotations.method
  refine checked_named rfl ((checked_parameterLines s m).andThen ?_ ?_)
  · intro e h
    rw [h]
  · intro params h
    rw [h]
    refine (checked_resultLines s m).andReturn ?_ ?_
    · intro e h'
      rw [h']
    · intro results h'
      exact ⟨_, by rw [h']⟩

theorem checked_methodLines (m : Method) : Checked (methodChecks m) (methodLines s owner m) := by
  unfold methodChecks methodLines
  split_ifs with h
  · exact .ok []
  · refine (checked_method s owner m).andReturn ?_ ?_
    · intro e h'
      rw [h']
    · intro lines h'
      exact ⟨"" :: lines, by rw [h']⟩

theorem checked_field (name lua value : String) (doc : Option String) :
    Checked [.named .field name] (Annotations.field owner name lua value doc) :=
  checked_named rfl (.ok _)

theorem checked_fieldLines (field : Field) :
    Checked (fieldChecks field) (fieldLines s owner field) := by
  have htype : Checked [.denotes field.type] (fieldType s field) := by
    refine (checked_value s field.type).andReturn ?_ ?_
    · intro e h
      rw [fieldType, h]
    · intro lua h
      exact ⟨_, by rw [fieldType, h]⟩
  rw [fieldChecks, ← List.singleton_append]
  refine htype.andThen ?_ ?_
  · intro e h
    rw [fieldLines, h]
  · intro lua h
    rw [fieldLines, h]
    exact checked_field owner field.name lua "nil" field.doc

end

/-- Elements one behind the other are checked one after the other. -/
theorem checked_concat {α : Type} {lines : α → Except RenderError (List String)}
    {cs : α → List Check} (h : ∀ a, Checked (cs a) (lines a)) (as : List α) :
    Checked (as.flatMap cs) (concat lines as) := by
  induction as with
  | nil => exact .ok []
  | cons a as ih =>
    rw [List.flatMap_cons]
    refine (h a).andThen ?_ ?_
    · intro e he
      rw [concat, he]
    · intro first hfirst
      rw [concat, hfirst]
      refine ih.andReturn ?_ ?_
      · intro e he
        rw [he]
      · intro rest hrest
        exact ⟨first ++ rest, by rw [hrest]⟩

theorem checked_overloads (s : Spelling) (made : String) (ms : List Method) :
    Checked (ms.flatMap inputChecks) (Annotations.overloads s made ms) := by
  have hone (m : Method) : Checked (inputChecks m) (Annotations.overload s made m) := by
    refine (checked_inputTypes s m).andReturn ?_ ?_
    · intro e h
      rw [Annotations.overload, h]
    · intro types h
      exact ⟨_, by rw [Annotations.overload, h]⟩
  have hall : Checked (ms.flatMap inputChecks) (ms.mapM (Annotations.overload s made)) := by
    induction ms with
    | nil => exact .ok []
    | cons m ms ih =>
      rw [List.flatMap_cons, List.mapM_cons]
      refine (hone m).bind fun first => ?_
      rw [← List.append_nil (ms.flatMap inputChecks)]
      exact ih.bind fun rest => .ok (first :: rest)
  cases ms with
  | nil => exact .ok _
  | cons m ms => exact hall

theorem checked_baseType (s : Spelling) (base : Option String) :
    Checked ((base.toList.filter fun b => (Builtin.ofHost? b).isNone).map .denotes)
      (baseType s base) := by
  rcases base with - | b
  · exact .ok none
  · rcases hb : Builtin.ofHost? b with - | builtin
    · simp only [Option.toList_some, List.filter_cons, hb, Option.isNone_none, if_true,
        List.filter_nil, List.map_cons, List.map_nil]
      refine (checked_value s b).andReturn ?_ ?_
      · intro e h
        simp [baseType, hb, h]
      · intro lua h
        exact ⟨some lua, by simp [baseType, hb, h]⟩
    · -- a builtin base is not asked for
      simp only [Option.toList_some, List.filter_cons, hb, Option.isNone_some, Bool.false_eq_true,
        if_false, List.filter_nil, List.map_nil, baseType, Option.isSome_some, if_true]
      exact .ok none

/-! ### Declarations -/

/-- What stands in the header of a declaration behind its name. -/
def parentChecks : Declaration → List Check
  | .classType c =>
    (c.base.toList.filter fun b => (Builtin.ofHost? b).isNone).map .denotes
      ++ c.interfaces.map .denotes
  | .interfaceType i => i.interfaces.map .denotes
  | .enumType _ => []
  | .delegateType _ => []

/-- The kind of name that a declaration has. -/
def nameKind : Declaration → NameKind
  | .delegateType _ => .delegate
  | _ => .type

/-- What stands behind the header of a declaration. -/
def memberChecks : Declaration → List Check
  | .classType c =>
    (if c.isStatic then [] else c.constructors.flatMap inputChecks)
      ++ c.fields.flatMap fieldChecks ++ c.methods.flatMap methodChecks
  | .interfaceType i => i.fields.flatMap fieldChecks ++ i.methods.flatMap methodChecks
  | .enumType e => e.fields.map fun field => .named .field field.name
  | .delegateType d => inputChecks d.invoke ++ resultChecks d.invoke

/-- What a declaration is asked for: its parents, its name, its members. -/
def checks (f : Flavor) (d : Declaration) : List Check :=
  parentChecks d ++ .named (nameKind d) (declaredName f d.header) :: memberChecks d

variable (f : Flavor)

theorem checked_typeHeader {tag fullName : String} {parameters : List String}
    {base : Option String} {interfaces : List String} :
    Checked [.named .type fullName]
      (Annotations.typeHeader tag fullName parameters base interfaces) :=
  checked_named rfl (.ok _)

theorem checked_ofClass (c : ClassType) : Checked (checks f (.classType c)) (ofClass f c) := by
  have horder : checks f (.classType c) =
      (c.base.toList.filter fun b => (Builtin.ofHost? b).isNone).map .denotes
        ++ (c.interfaces.map .denotes ++ ([.named .type (declaredName f c.header)]
        ++ ((if c.isStatic then [] else c.constructors.flatMap inputChecks)
        ++ (c.fields.flatMap fieldChecks ++ (c.methods.flatMap methodChecks ++ []))))) := by
    simp [checks, parentChecks, memberChecks, nameKind, Declaration.header]
  rw [horder]
  refine (checked_baseType _ c.base).bind fun base => ?_
  refine (checked_values _ c.interfaces).bind fun interfaces => ?_
  refine (checked_typeHeader).bind fun head => ?_
  -- both branches go on with the same lines
  cases hstatic : c.isStatic
  · refine (checked_overloads _ _ c.constructors).bind fun overloads => ?_
    refine (checked_concat (checked_fieldLines _ _) c.fields).bind fun fields => ?_
    exact (checked_concat (checked_methodLines _ _) c.methods).bind fun methods => .ok _
  · refine (Checked.ok []).bind fun overloads => ?_
    refine (checked_concat (checked_fieldLines _ _) c.fields).bind fun fields => ?_
    exact (checked_concat (checked_methodLines _ _) c.methods).bind fun methods => .ok _

theorem checked_ofInterface (i : InterfaceType) :
    Checked (checks f (.interfaceType i)) (ofInterface f i) := by
  have horder : checks f (.interfaceType i) =
      i.interfaces.map .denotes ++ ([.named .type (declaredName f i.header)]
        ++ (i.fields.flatMap fieldChecks ++ (i.methods.flatMap methodChecks ++ []))) := by
    simp [checks, parentChecks, memberChecks, nameKind, Declaration.header]
  rw [horder]
  refine (checked_values _ i.interfaces).bind fun interfaces => ?_
  refine (checked_typeHeader).bind fun head => ?_
  refine (checked_concat (checked_fieldLines _ _) i.fields).bind fun fields => ?_
  exact (checked_concat (checked_methodLines _ _) i.methods).bind fun methods => .ok _

theorem checked_ofEnum (e : EnumType) : Checked (checks f (.enumType e)) (ofEnum f e) := by
  -- the position of a member only counts for its value
  have hmembers : e.fields.zipIdx.flatMap (fun p => [Check.named .field p.1.name]) =
      e.fields.map fun field => .named .field field.name := by
    rw [← List.map_eq_flatMap,
      ← Function.comp_def (fun field : Field => Check.named .field field.name), ← List.map_map,
      List.zipIdx_map_fst]
  have horder : checks f (.enumType e) = [.named .type (declaredName f e.header)]
      ++ (e.fields.zipIdx.flatMap (fun p => [.named .field p.1.name]) ++ []) := by
    rw [hmembers]
    simp [checks, parentChecks, memberChecks, nameKind, Declaration.header]
  rw [horder]
  refine (checked_typeHeader).bind fun head => ?_
  exact (checked_concat (fun p => checked_field _ _ _ _ _) e.fields.zipIdx).bind fun members => .ok _

theorem checked_ofDelegate (d : DelegateType) :
    Checked (checks f (.delegateType d)) (ofDelegate f d) := by
  have halias : Checked (checks f (.delegateType d))
      (Annotations.aliasLines (spelling f []) (declaredName f d.header) d.invoke d.header.doc) := by
    refine checked_named rfl ((checked_signature (spelling f []) d.invoke).andReturn ?_ ?_)
    · intro e h
      rw [h]
    · intro type h
      exact ⟨_, by rw [h]⟩
  rw [← List.append_nil (checks f _)]
  exact halias.bind fun lines => .ok _

/-- A declaration is rendered exactly if all its checks hold, and otherwise the first fault
tells why not. -/
theorem fault_render (d : Declaration) : faultOf (render f d) = firstFault? (checks f d) := by
  have hlines : Checked (checks f d) (lines f d) := by
    cases d with
    | classType c => exact checked_ofClass f c
    | interfaceType i => exact checked_ofInterface f i
    | enumType e => exact checked_ofEnum f e
    | delegateType d => exact checked_ofDelegate f d
  refine hlines.andReturn ?_ ?_
  · intro e h
    rw [render, h]
  · intro ls h
    exact ⟨Annotations.unlines ls, by rw [render, h]⟩

end Block

end LuaTypings
