/-
LuaTypings/Proofs/Signatures.lean

The two ways in which a method is written down: as a function with a tag for each argument and one
for the results, and as a function type.  `Passes` goes through the parameters and says which
arguments they make, with their names, marks and types; a parameter that is a result makes none.
`Returns` says what the results are.  Both ways show the same arguments and the same results, and
they fail alike.

Main result: `method_agrees_signature`.
-/
import LuaTypings.Annotations
import Mathlib.Data.List.Forall2

namespace LuaTypings

/-! ### Spelled types -/

namespace Spelling

variable {s : Spelling}

/-- Several display strings are spelled one by one. -/
theorem values_eq_ok_iff {displays luas : List String} :
    s.values displays = .ok luas ↔
      List.Forall₂ (fun display lua => s.value display = .ok lua) displays luas := by
  induction displays generalizing luas with
  | nil => rw [values, List.forall₂_nil_left_iff, Except.ok.injEq, eq_comm]
  | cons display displays ih =>
    simp only [values, List.forall₂_cons_left_iff, ← ih]
    rcases s.value display with e | lua
    · simp
    · rcases s.values displays with e | rest
      · simp
      · simp [eq_comm]

/-- A result that is not `void` is spelled as a value. -/
theorem result_of_not_void {display : String} (h : Builtin.isVoid display = false) :
    s.result display = (s.value display).map some := by
  rw [value, result, h]
  rcases parse display with e | type <;> rfl

end Spelling

namespace Annotations

variable {s : Spelling}

/-! ### Arguments and results -/

/-- An argument as annotations show it. -/
structure Argument where
  name : String
  isOptional : Bool
  /-- The spelled type. -/
  type : String
  doc : Option String

namespace Argument

/-- The name, with a mark if the argument is optional. -/
def marked (a : Argument) : String := a.name ++ if a.isOptional then "?" else ""

/-- The tag of an argument. -/
def tag (a : Argument) : String := "---@param " ++ a.marked ++ " " ++ a.type ++ trailingDoc a.doc

/-- An argument in a function type. -/
def entry (a : Argument) : String := a.marked ++ ": " ++ a.type

end Argument

/-- The arguments that parameters make, the first of which stands at the position `index`. -/
inductive Passes (s : Spelling) : Nat → List Parameter → List Argument → Prop
  | nil (index : Nat) : Passes s index [] []
  /-- A parameter that is a result takes a position and makes no argument. -/
  | output {index p ps args} : p.isOutput = true → Passes s (index + 1) ps args →
      Passes s index (p :: ps) args
  | input {index p ps args lua} : p.isOutput = false → s.value p.type = .ok lua →
      Passes s (index + 1) ps args →
      Passes s index (p :: ps) (⟨parameterName index p, p.isOptional, lua, p.doc⟩ :: args)

/-- The results of a method: its own, unless it is `void`, and the parameters that are results. -/
inductive Returns (s : Spelling) (returnType : String) (params : List Parameter) :
    List String → Prop
  | void {outputs} : Builtin.isVoid returnType = true →
      List.Forall₂ (fun p lua => s.value p.type = .ok lua) (params.filter Parameter.isOutput) outputs →
      Returns s returnType params outputs
  | value {lua outputs} : Builtin.isVoid returnType = false → s.value returnType = .ok lua →
      List.Forall₂ (fun p lua => s.value p.type = .ok lua) (params.filter Parameter.isOutput) outputs →
      Returns s returnType params (lua :: outputs)

/-- Parameters make the same arguments whenever they make any. -/
theorem Passes.unique {index : Nat} {params : List Parameter} {args args' : List Argument}
    (h : Passes s index params args) (h' : Passes s index params args') : args = args' := by
  induction h generalizing args' with
  | nil index =>
    cases h'
    rfl
  | output hout _ ih =>
    cases h' with
    | output _ hrest => exact ih hrest
    | input hin => simp [hout] at hin
  | input hin hlua _ ih =>
    cases h' with
    | output hout => simp [hin] at hout
    | input _ hlua' hrest =>
      rw [hlua] at hlua'
      rw [ih hrest, Except.ok.inj hlua']

theorem Returns.unique {returnType : String} {params : List Parameter}
    {results results' : List String} (h : Returns s returnType params results)
    (h' : Returns s returnType params results') : results = results' := by
  have hone : Relator.RightUnique fun (p : Parameter) lua => s.value p.type = .ok lua :=
    fun p lua lua' hlua hlua' => Except.ok.inj (hlua.symm.trans hlua')
  cases h with
  | void hvoid h =>
    cases h' with
    | void _ h' => exact hone.forall₂ h h'
    | value hvalue => simp [hvoid] at hvalue
  | value hvalue hlua h =>
    cases h' with
    | void hvoid => simp [hvalue] at hvoid
    | value _ hlua' h' =>
      rw [hlua] at hlua'
      rw [hone.forall₂ h h', Except.ok.inj hlua']

/-- The tag of the results, if there are any. -/
def resultTag : List String → List String
  | [] => []
  | results => ["---@return " ++ String.intercalate ", " results]

/-- The results behind the arguments of a function type, if there are any. -/
def resultPart : List String → String
  | [] => ""
  | results => ": " ++ String.intercalate ", " results

/-! ### Arguments of a method -/

/-- The argument that a parameter at a position makes, with its spelled type. -/
def argumentOf (p : (Parameter × Nat) × String) : Argument :=
  ⟨parameterName p.1.2 p.1.1, p.1.1.isOptional, p.2, p.1.1.doc⟩

theorem parameterLine_eq (p : (Parameter × Nat) × String) : parameterLine p = (argumentOf p).tag := by
  rw [Argument.tag, Argument.marked, ← String.append_assoc]
  rfl

/-- The parameters behind a position that are passed make the arguments. -/
theorem passes_zip {index : Nat} {params : List Parameter} {types : List String}
    (h : List.Forall₂ (fun display lua => s.value display = .ok lua)
      (((params.zipIdx index).filter fun p => !p.1.isOutput).map fun p => p.1.type) types) :
    Passes s index params
      ((((params.zipIdx index).filter fun p => !p.1.isOutput).zip types).map argumentOf) := by
  induction params generalizing index types with
  | nil => exact .nil index
  | cons p ps ih =>
    rw [List.zipIdx_cons] at h ⊢
    cases hout : p.isOutput with
    | true =>
      rw [List.filter_cons_of_neg (by simp [hout])] at h ⊢
      exact .output hout (ih h)
    | false =>
      rw [List.filter_cons_of_pos (by simp [hout])] at h ⊢
      rw [List.map_cons, List.forall₂_cons_left_iff] at h
      obtain ⟨lua, luas, hlua, hluas, rfl⟩ := h
      exact .input hout hlua (ih hluas)

/-- Spelled types make arguments, which all ways to write them down show. -/
theorem exists_arguments {params : List Parameter} {types : List String}
    (h : inputTypes s params = .ok types) :
    ∃ args, Passes s 0 params args ∧ args.map Argument.name = argumentNames params ∧
      ((inputs params).zip types).map parameterLine = args.map Argument.tag ∧
      ((inputs params).zip types).map signatureParameter = args.map Argument.entry := by
  have htypes := Spelling.values_eq_ok_iff.mp h
  refine ⟨((inputs params).zip types).map argumentOf, passes_zip htypes, ?_, ?_, ?_⟩
  · -- the names do not hang on the types
    have hlength : (inputs params).length ≤ types.length := by
      have hsame := htypes.length_eq
      rw [List.length_map] at hsame
      exact Nat.le_of_eq hsame
    rw [argumentNames, List.map_map]
    conv_rhs => rw [← List.map_fst_zip hlength, List.map_map]
    rfl
  · rw [List.map_map]
    exact List.map_congr_left fun p _ => parameterLine_eq p
  · rw [List.map_map]
    rfl

theorem returns_of_resultTypes {returnType : String} {params : List Parameter}
    {results : List String} (h : resultTypes s returnType params = .ok results) :
    Returns s returnType params results := by
  unfold resultTypes at h
  rcases houtputs : s.values ((params.filter Parameter.isOutput).map Parameter.type) with e | outputs
  · rw [houtputs] at h
    split at h <;> cases h
  have hspelled := List.forall₂_map_left_iff.mp (Spelling.values_eq_ok_iff.mp houtputs)
  rw [houtputs] at h
  cases hvoid : Builtin.isVoid returnType with
  | true =>
    rw [Spelling.result, if_pos hvoid] at h
    rw [← Except.ok.inj h]
    exact .void hvoid hspelled
  | false =>
    rw [Spelling.result_of_not_void hvoid] at h
    rcases hvalue : s.value returnType with e | lua
    · rw [hvalue] at h
      cases h
    · rw [hvalue] at h
      rw [← Except.ok.inj h]
      exact .value hvoid hvalue hspelled

theorem resultLines_eq (s : Spelling) (returnType : String) (params : List Parameter) :
    resultLines s returnType params = (resultTypes s returnType params).map resultTag := by
  rw [resultLines]
  rcases resultTypes s returnType params with e | - | ⟨first, rest⟩ <;> rfl

theorem functionType_eq (params : List Parameter) (types results : List String) :
    functionType params types results = "fun(" ++ String.intercalate ", "
      (((inputs params).zip types).map signatureParameter) ++ ")" ++ resultPart results := by
  rw [functionType]
  cases results <;> rfl

/-- The lines of a method have a tag for each argument, and end with the function. -/
theorem method_eq_ok {owner : String} {m : Method} {lines : List String}
    (h : method s owner m = .ok lines) :
    ∃ (args : List Argument) (results : List String),
      args.map Argument.name = argumentNames m.parameters ∧
      lines = docLines m.doc ++ args.map Argument.tag ++ resultTag results ++
        [functionLine owner m] := by
  rw [method, parameterLines, resultLines_eq] at h
  split_ifs at h
  rcases htypes : inputTypes s m.parameters with e | types
  · rw [htypes] at h
    cases h
  rcases hresults : resultTypes s m.returnType m.parameters with e | results
  · rw [htypes, hresults] at h
    cases h
  rw [htypes, hresults] at h
  obtain ⟨args, -, hnames, htags, -⟩ := exists_arguments htypes
  exact ⟨args, results, hnames, by rw [← Except.ok.inj h, ← htags]⟩

/-! ### Both ways -/

/-- **A method and its function type agree.**  Either both fail with the same error, or both show
the same arguments, one for each parameter that is passed, and the same results. -/
theorem method_agrees_signature (s : Spelling) (owner : String) {m : Method} (hname : m.name ≠ "") :
    (∃ e, method s owner m = .error e ∧ signature s m = .error e) ∨
    ∃ args results, Passes s 0 m.parameters args ∧ Returns s m.returnType m.parameters results ∧
      method s owner m = .ok (docLines m.doc ++ args.map Argument.tag ++ resultTag results ++
        ["function " ++ owner ++ (if m.isStatic then "." else ":") ++ identifier m.name ++ "("
          ++ String.intercalate ", " (args.map Argument.name) ++ ") end"]) ∧
      signature s m = .ok ("fun(" ++ String.intercalate ", " (args.map Argument.entry) ++ ")"
        ++ resultPart results) := by
  have hnamed : ¬ m.name.isEmpty = true := by simpa using hname
  rw [method, if_neg hnamed, parameterLines, signature, resultLines_eq]
  rcases htypes : inputTypes s m.parameters with e | types
  · exact Or.inl ⟨e, rfl, rfl⟩
  rcases hresults : resultTypes s m.returnType m.parameters with e | results
  · exact Or.inl ⟨e, rfl, rfl⟩
  obtain ⟨args, hargs, hnames, htags, hentries⟩ := exists_arguments htypes
  refine Or.inr ⟨args, results, hargs, returns_of_resultTypes hresults, ?_, ?_⟩
  · rw [hnames, ← htags]
    rfl
  · rw [← hentries, ← functionType_eq]

/-- A look-up with its key, a value that comes back, and an optional hint. -/
def lookUp : Method :=
  { name := "TryGet", returnType := "bool"
    parameters := [{ name := "key", type := "string", doc := some "Lookup\nkey" },
      { name := "value", type := "Entry[]", passing := .output },
      { name := "", type := "int?", isOptional := true, passing := .reference }] }

/-- Both have the same two arguments, of which the unnamed one is called for its position, and the
same two results. -/
theorem method_agrees_signature_lookUp :
    lookUp.name ≠ "" ∧
      method ⟨"CS.", []⟩ "Cache" lookUp = .ok
        ["---@param key string Lookup key", "---@param arg2? integer|nil",
          "---@return boolean, CS.Entry[]", "function Cache:TryGet(key, arg2) end"] ∧
      signature ⟨"CS.", []⟩ lookUp =
        .ok "fun(key: string, arg2?: integer|nil): boolean, CS.Entry[]" := by
  have hname : lookUp.name ≠ "" := by decide
  have hpasses : Passes ⟨"CS.", []⟩ 0 lookUp.parameters
      [⟨"key", false, "string", some "Lookup\nkey"⟩, ⟨"arg2", true, "integer|nil", none⟩] :=
    .input rfl (by decide +kernel) (.output rfl (.input rfl (by decide +kernel) (.nil 3)))
  have hreturns : Returns ⟨"CS.", []⟩ lookUp.returnType lookUp.parameters
      ["boolean", "CS.Entry[]"] :=
    .value (by decide +kernel) (by decide +kernel) (.cons (by decide +kernel) .nil)
  rcases method_agrees_signature ⟨"CS.", []⟩ "Cache" hname with
    ⟨e, -, he⟩ | ⟨args, results, hargs, hresults, hmethod, hsignature⟩
  · have hok : (signature ⟨"CS.", []⟩ lookUp).isOk = true := by decide +kernel
    rw [he] at hok
    cases hok
  · rw [hargs.unique hpasses, hresults.unique hreturns] at hmethod hsignature
    exact ⟨hname, hmethod.trans (by decide +kernel), hsignature.trans (by decide +kernel)⟩

end Annotations

end LuaTypings
