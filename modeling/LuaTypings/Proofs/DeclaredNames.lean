/-
LuaTypings/Proofs/DeclaredNames.lean

Whether a reference to a declared type leads to its declaration.  The name in the header of a block
is the path of the declaration's full name.  A reference is a display string, which may be a builtin
type of the host or `void` instead.  The host names these by keywords and by classes in `System`.
`Builtin.ofHost?` drops that namespace first, so a class of the same name outside of `System` counts
as builtin as well, and so does a keyword inside of it (`isSome_ofHost?_iff`).

Main result: `result_fullName`.  A reference to a declaration gives the name in its header exactly
if the full name is none of these.
-/
import LuaTypings.Block
import LuaTypings.Proofs.HostName.Bare
import LuaTypings.Proofs.HostName.Segments

namespace LuaTypings

/-! ### Names of builtin types -/

namespace Builtin

variable {name : String}

/-- The keywords of the host for builtin types. -/
def keywords : List String :=
  ["void", "bool", "byte", "sbyte", "char", "short", "ushort", "int", "uint", "long", "ulong",
   "float", "double", "decimal", "string", "object", "dynamic", "nint", "nuint"]

/-- The classes that the keywords stand for. -/
def classes : List String :=
  ["Void", "Boolean", "Byte", "SByte", "Char", "Int16", "UInt16", "Int32", "UInt32", "Int64",
   "UInt64", "Single", "Double", "Decimal", "String", "Object", "IntPtr", "UIntPtr"]

/-- A name in the host's own namespace. -/
def inSystem (name : String) : String := String.ofList (systemSpace ++ name.toList)

/-- The names of the builtin types: keywords, and classes in their namespace. -/
def standardNames : List String := keywords ++ classes.map inSystem

/-- What else counts as a builtin type: the classes without their namespace, and the keywords as
if they were in it. -/
def looseNames : List String := classes ++ keywords.map inSystem

theorem inSystem_injective : Function.Injective inSystem := by
  intro a b h
  have hchars := congrArg String.toList h
  simp only [inSystem, String.toList_ofList] at hchars
  exact String.toList_inj.mp (List.append_cancel_left hchars)

theorem dropSystem_inSystem (name : String) : dropSystem (inSystem name) = name := by
  simp [dropSystem, inSystem]

/-- Dropping the namespace leads to the names of a list from these and from those in it. -/
theorem dropSystem_mem_iff {names : List String}
    (h : ∀ n ∈ names, ¬ systemSpace <+: n.toList) :
    dropSystem name ∈ names ↔ name ∈ names ∨ name ∈ names.map inSystem := by
  by_cases hsystem : systemSpace <+: name.toList
  · obtain ⟨rest, hrest⟩ := hsystem
    have hname : name = inSystem (String.ofList rest) := by
      rw [inSystem, String.toList_ofList, hrest, String.ofList_toList]
    have hnot : inSystem (String.ofList rest) ∉ names :=
      fun hmem => h _ hmem ⟨rest, by simp [inSystem]⟩
    rw [hname, dropSystem_inSystem, or_iff_right hnot, List.mem_map_of_injective inSystem_injective]
  · have hnot : name ∉ names.map inSystem := by
      intro hmem
      obtain ⟨n, -, rfl⟩ := List.mem_map.mp hmem
      exact hsystem ⟨n.toList, by simp [inSystem]⟩
    rw [dropSystem, if_neg (by simpa using hsystem), or_iff_left hnot]

theorem isSome_lookup_iff {β : Type} {key : String} {entries : List (String × β)} :
    (entries.lookup key).isSome = true ↔ key ∈ entries.map Prod.fst := by
  rw [← not_iff_not, Bool.not_eq_true, Option.isSome_eq_false_iff, Option.isNone_iff_eq_none,
    List.lookup_eq_none_iff, List.mem_map, not_exists]
  simp only [not_and, bne_iff_ne]
  exact forall₂_congr fun _ _ => ne_comm

theorem isSome_ofHost?_iff :
    (ofHost? name).isSome = true ↔ name ∈ standardNames ∨ name ∈ looseNames := by
  have hnames : hostNames.map Prod.fst ⊆ keywords ++ classes ∧
      keywords ++ classes ⊆ hostNames.map Prod.fst := by decide +kernel
  calc (ofHost? name).isSome = true
      ↔ dropSystem name ∈ hostNames.map Prod.fst := isSome_lookup_iff
    _ ↔ dropSystem name ∈ keywords ++ classes := ⟨fun h => hnames.1 h, fun h => hnames.2 h⟩
    _ ↔ name ∈ keywords ++ classes ∨ name ∈ (keywords ++ classes).map inSystem :=
      dropSystem_mem_iff (by decide +kernel)
    _ ↔ name ∈ standardNames ∨ name ∈ looseNames := by
      simp only [standardNames, looseNames, List.map_append, List.mem_append]
      rw [or_comm (a := name ∈ keywords.map inSystem), or_or_or_comm]

theorem isVoid_iff (h : HostType.IsName name) :
    isVoid name = true ↔ name = "void" ∨ name = "System.Void" ∨ name = "Void" := by
  have hsolid : ∀ c ∈ name.toList, Text.isBlank c = false :=
    fun c hc => HostType.not_isBlank_of_isNameChar (h.2 c hc)
  have htrim : Text.trim name.toList = name.toList := by
    rw [Text.trim, Text.trimStart_eq_self fun c hc => hsolid c (List.mem_of_mem_head? hc)]
    exact Text.rdropWhile_eq_self hsolid
  simp only [isVoid, htrim, String.ofList_toList, Bool.or_eq_true, beq_iff_eq, or_assoc]

end Builtin

/-! ### References to a name -/

namespace Spelling

variable {name : String} {s : Spelling}

theorem result_of_isName (h : HostType.IsName name) :
    s.result name = .ok (if Builtin.isVoid name then none else some (s.simpleName name)) := by
  rw [result, parse, HostType.parse_of_isName h]
  split_ifs with hvoid
  · rfl
  · rfl

/-- A name that is no builtin type and no parameter is spelled as its path. -/
theorem result_of_not_builtin (h : HostType.IsName name) (hscope : name ∉ s.scope)
    (hstandard : name ∉ Builtin.standardNames) (hloose : name ∉ Builtin.looseNames) :
    s.result name = .ok (some (s.path name)) := by
  have hvoid : ¬ Builtin.isVoid name = true := by
    rw [Builtin.isVoid_iff h]
    rintro (rfl | rfl | rfl)
    · exact hstandard (by decide)
    · exact hstandard (by decide)
    · exact hloose (by decide)
  have hbuiltin : Builtin.ofHost? name = none := by
    rw [← Option.not_isSome_iff_eq_none, Builtin.isSome_ofHost?_iff]
    exact not_or.mpr ⟨hstandard, hloose⟩
  rw [result_of_isName h, if_neg hvoid, simpleName, if_neg (by simpa using hscope), hbuiltin]

/-- The loose names are spelled as builtin types, or not at all. -/
theorem result_of_loose (h : HostType.IsName name) (hscope : name ∉ s.scope)
    (hloose : name ∈ Builtin.looseNames) :
    s.result name = .ok none ∨ ∃ b : Builtin, s.result name = .ok (some b.spelling) := by
  obtain ⟨b, hb⟩ := Option.isSome_iff_exists.mp (Builtin.isSome_ofHost?_iff.mpr (Or.inr hloose))
  rw [result_of_isName h]
  split_ifs with hvoid
  · exact Or.inl rfl
  · refine Or.inr ⟨b, ?_⟩
    rw [simpleName, if_neg (by simpa using hscope), hb]

end Spelling

/-! ### Headers -/

namespace Annotations

variable {parameters interfaces head : List String} {base : Option String}

theorem exists_withParameters (fullName : String) (parameters : List String) :
    ∃ rest, withParameters fullName parameters = fullName ++ rest ∧
      HostType.StartsApart rest.toList := by
  unfold withParameters
  split_ifs
  · exact ⟨"", String.append_empty.symm, HostType.startsApart_nil⟩
  · refine ⟨"<" ++ String.intercalate ", " parameters ++ ">", by simp [String.append_assoc], ?_⟩
    rw [String.append_assoc, String.toList_append]
    exact HostType.startsApart_cons.mpr (by decide)

/-- The header of a type is one line, in which the name ends where the parameters or the parents
start. -/
theorem typeHeader_eq_ok {tag fullName : String}
    (h : typeHeader tag fullName parameters base interfaces = .ok head) :
    ∃ rest, head = ["---@" ++ tag ++ " " ++ fullName ++ rest] ∧
      HostType.StartsApart rest.toList := by
  obtain ⟨front, hfront, hapart⟩ := exists_withParameters fullName parameters
  simp only [typeHeader, hfront] at h
  split_ifs at h
  · refine ⟨front, ?_, hapart⟩
    rw [← Except.ok.inj h, String.append_empty, ← String.append_assoc]
  · refine ⟨front ++ (" : " ++ String.intercalate ", " (base.toList ++ interfaces)), ?_, ?_⟩
    · rw [← Except.ok.inj h]
      simp only [String.append_assoc]
    · have hsuffix : HostType.StartsApart
          (" : " ++ String.intercalate ", " (base.toList ++ interfaces)).toList := by
        rw [String.toList_append]
        exact HostType.startsApart_cons.mpr (by decide)
      rw [String.toList_append]
      exact hapart.append hsuffix

end Annotations

namespace Block

variable (f : Flavor)

/-- The tag that opens a header. -/
def tag : Declaration → String
  | .delegateType _ => "alias"
  | _ => "class"

theorem exists_of_bind_eq_ok {ε α β : Type} {x : Except ε α} {next : α → Except ε β} {b : β}
    (h : (x >>= next) = .ok b) : ∃ a, x = .ok a ∧ next a = .ok b := by
  cases x with
  | error e => cases h
  | ok a => exact ⟨a, rfl, h⟩

/-- What goes on in the same way behind either of two results. -/
theorem exists_of_ite_eq_ok {ε α β : Type} {p : Prop} [Decidable p] {x y : Except ε α}
    {next : α → Except ε β} {b : β} (h : (if p then x >>= next else y >>= next) = .ok b) :
    ∃ a, (if p then x else y) = .ok a ∧ next a = .ok b := by
  split_ifs at h ⊢
  · exact exists_of_bind_eq_ok h
  · exact exists_of_bind_eq_ok h

/-- The header stands behind the documentation and holds the declared name, which ends there. -/
theorem lines_eq_ok {d : Declaration} {ls : List String} (h : lines f d = .ok ls) :
    ∃ rest back, ls = Annotations.docLines d.header.doc ++
        ("---@" ++ tag d ++ " " ++ declaredName f d.header ++ rest) :: back ∧
      HostType.StartsApart rest.toList := by
  cases d with
  | classType c =>
    obtain ⟨base, -, h⟩ := exists_of_bind_eq_ok h
    obtain ⟨interfaces, -, h⟩ := exists_of_bind_eq_ok h
    obtain ⟨head, hhead, h⟩ := exists_of_bind_eq_ok h
    obtain ⟨rest, rfl, hrest⟩ := Annotations.typeHeader_eq_ok hhead
    obtain ⟨overloads, -, h⟩ := exists_of_ite_eq_ok h
    obtain ⟨fields, -, h⟩ := exists_of_bind_eq_ok h
    obtain ⟨methods, -, h⟩ := exists_of_bind_eq_ok h
    rw [← Except.ok.inj h]
    simp only [List.append_assoc]
    exact ⟨rest, _, rfl, hrest⟩
  | interfaceType i =>
    obtain ⟨interfaces, -, h⟩ := exists_of_bind_eq_ok h
    obtain ⟨head, hhead, h⟩ := exists_of_bind_eq_ok h
    obtain ⟨rest, rfl, hrest⟩ := Annotations.typeHeader_eq_ok hhead
    obtain ⟨fields, -, h⟩ := exists_of_bind_eq_ok h
    obtain ⟨methods, -, h⟩ := exists_of_bind_eq_ok h
    rw [← Except.ok.inj h]
    simp only [List.append_assoc]
    exact ⟨rest, _, rfl, hrest⟩
  | enumType e =>
    obtain ⟨head, hhead, h⟩ := exists_of_bind_eq_ok h
    obtain ⟨rest, rfl, hrest⟩ := Annotations.typeHeader_eq_ok hhead
    obtain ⟨members, -, h⟩ := exists_of_bind_eq_ok h
    rw [← Except.ok.inj h]
    simp only [List.append_assoc]
    exact ⟨rest, _, rfl, hrest⟩
  | delegateType d =>
    obtain ⟨front, hfront, h⟩ := exists_of_bind_eq_ok h
    unfold Annotations.aliasLines at hfront
    split_ifs at hfront
    split at hfront
    · cases hfront
    · rename_i type _
      rw [← Except.ok.inj h, ← Except.ok.inj hfront, List.append_assoc]
      refine ⟨" " ++ type, [""], ?_, ?_⟩
      · rw [← String.append_assoc]
        rfl
      · rw [String.toList_append]
        exact HostType.startsApart_cons.mpr (by decide)

end Block

/-! ### References to declarations -/

/-- Namespace and name of a declaration are made of identifiers; the global namespace is empty. -/
structure Declaration.HasPath (d : Declaration) : Prop where
  space : d.space = "" ∨ HostName.IsPath d.space
  name : HostName.IsPath d.name

namespace Block

variable {f : Flavor}

/-- The path of a loose name is no name of a builtin type: it starts with a capital. -/
theorem builtin_ne_path {name : String} (h : name ∈ Builtin.looseNames) (b : Builtin)
    (scope : List String) : b.spelling ≠ (spelling f scope).path name := by
  have hcapitals : ∀ n ∈ Builtin.looseNames,
      n.toList.head?.any (fun c => c.isUpper && !c.isDigit) = true := by decide +kernel
  have hsmall : b.spelling.toList.any Char.isUpper = false := by cases b <;> rfl
  rcases hname : name.toList with - | ⟨c, back⟩
  · have hfirst := hcapitals name h
    rw [hname] at hfirst
    cases hfirst
  · have hfirst := hcapitals name h
    rw [hname, List.head?_cons, Option.any_some, Bool.and_eq_true, Bool.not_eq_true'] at hfirst
    obtain ⟨hupper, hdigit⟩ := hfirst
    have hmark : ¬ HostName.IsMark c := by
      rintro (rfl | rfl | rfl) <;> exact absurd hupper (by decide)
    have hdot : HostName.dotChar c = c := by
      rw [HostName.dotChar, if_neg]
      rintro rfl
      exact absurd hupper (by decide)
    have hmem : HostName.dotChar c ∈ (HostName.luaPath (String.ofList ([] ++ c :: back))).toList :=
      HostName.mem_luaPath_of_shown List.not_mem_nil hmark hdigit
    rw [hdot, List.nil_append, ← hname, String.ofList_toList] at hmem
    intro heq
    have hcapital : c ∈ b.spelling.toList := by
      rw [heq, Spelling.path, String.toList_append]
      exact List.mem_append_right _ hmem
    rw [List.any_eq_true.mpr ⟨c, hcapital, hupper⟩] at hsmall
    cases hsmall

/-- **Where references meet declarations.**  A reference to a declaration by its full name gives the
name that stands in the header of its block, unless it counts as a builtin type of the host. -/
theorem result_fullName (f : Flavor) {d : Declaration} {scope : List String} (hpath : d.HasPath)
    (hstandard : d.fullName ∉ Builtin.standardNames) (hscope : d.fullName ∉ scope) :
    ((spelling f scope).result d.fullName = .ok (some (declaredName f d.header)) ↔
      d.fullName ∉ Builtin.looseNames) ∧
    ∀ ls, lines f d = .ok ls → ∃ rest back,
      ls = Annotations.docLines d.header.doc ++
        ("---@" ++ tag d ++ " " ++ declaredName f d.header ++ rest) :: back ∧
      HostType.StartsApart rest.toList := by
  have hname : HostType.IsName d.fullName := HostName.isName_inNamespace hpath.space hpath.name
  refine ⟨⟨fun hresult hloose => ?_, fun hloose => ?_⟩, fun ls hls => lines_eq_ok f hls⟩
  · rcases Spelling.result_of_loose (s := spelling f scope) hname hscope hloose with
      hnone | ⟨b, hsome⟩
    · rw [hnone] at hresult
      cases hresult
    · rw [hsome] at hresult
      exact builtin_ne_path hloose b scope (Option.some.inj (Except.ok.inj hresult))
  · exact Spelling.result_of_not_builtin hname hscope hstandard hloose

/-- A nested class in a namespace. -/
def nestedClass : Declaration :=
  .classType { header := { name := "Outer`1+Inner", space := "Game" } }

/-- A class without a namespace that is called like the base of all classes. -/
def globalObject : Declaration := .classType { header := { name := "Object" } }

/-- The marks of a nested class show neither in a reference nor in the header. -/
theorem result_fullName_nested :
    (spelling .xlua ["T"]).result nestedClass.fullName = .ok (some "CS.Game.Outer.Inner") ∧
      ∃ rest back, lines .xlua nestedClass =
        .ok (("---@class " ++ "CS.Game.Outer.Inner" ++ rest) :: back) := by
  have hpath : nestedClass.HasPath := ⟨by decide, by decide⟩
  have hdeclared : declaredName .xlua nestedClass.header = "CS.Game.Outer.Inner" := by decide
  obtain ⟨hresult, hheader⟩ :=
    result_fullName .xlua hpath (by decide) (by decide : nestedClass.fullName ∉ ["T"])
  rw [hdeclared] at hresult hheader
  obtain ⟨ls, hls⟩ : ∃ ls, lines .xlua nestedClass = .ok ls := ⟨_, rfl⟩
  obtain ⟨rest, back, rfl, -⟩ := hheader ls hls
  exact ⟨hresult.mpr (by decide), rest, back, hls⟩

/-- A reference to it is one to the class in the host's own namespace. -/
theorem not_result_fullName_object :
    globalObject.HasPath ∧ globalObject.fullName ∉ Builtin.standardNames ∧
      (spelling .xlua []).result globalObject.fullName = .ok (some "any") ∧
      declaredName .xlua globalObject.header = "CS.Object" :=
  ⟨⟨by decide, by decide⟩, by decide, rfl, by decide⟩

end Block

end LuaTypings
