/-
LuaTypings/Proofs/Generics/Keys.lean

Whether the key of a class depends on how its name is written.  A generic name can have an arity
mark, its arguments in angle brackets, both or neither.  The arguments are texts of their own and
may have arity marks too, and `HostName.definition` takes such a mark for one of the name: it cuts
the name at the first bracket, though nothing in front of this tells the number of parameters.

Main result: `definitionKey_eq_iff`, which two ways to write a name give one key.  All of them do
exactly if no argument has an arity mark.
-/
import LuaTypings.Proofs.Generics.Names
import LuaTypings.Proofs.HostName.Brackets
import LuaTypings.Proofs.Text.Pieces

namespace LuaTypings

variable {base space : String} {arguments : List String}

namespace HostName

/-! ### Ways to write a generic name -/

/-- A name with the number of its parameters. -/
def withArity (base : String) (count : Nat) : String :=
  base ++ String.singleton arityMark ++ toString count

/-- A name with its arguments. -/
def withArguments (base : String) (arguments : List String) : String :=
  base ++ "<" ++ String.intercalate ", " arguments ++ ">"

/-- What a generic name can have behind it. -/
inductive Form where
  | plain
  | arity
  | arguments
  | both
  deriving DecidableEq

/-- A generic name in a form. -/
def Form.write (base : String) (arguments : List String) : Form → String
  | .plain => base
  | .arity => withArity base arguments.length
  | .arguments => withArguments base arguments
  | .both => withArguments (withArity base arguments.length) arguments

/-! ### Argument lists -/

/-- Some argument has an arity mark of its own. -/
def ArgumentsMarked (arguments : List String) : Prop := ∃ a ∈ arguments, arityMark ∈ a.toList

instance (arguments : List String) : Decidable (ArgumentsMarked arguments) :=
  List.decidableBEx _ _

/-- The characters between the brackets of an argument list. -/
def argumentChars (arguments : List String) : List Char :=
  [',', ' '].intercalate (arguments.map String.toList)

theorem toList_withArguments (base : String) (arguments : List String) :
    (withArguments base arguments).toList =
      base.toList ++ '<' :: (argumentChars arguments ++ ['>']) := by
  have hseparator : ", ".toList = [',', ' '] := rfl
  simp [withArguments, argumentChars, hseparator]

theorem arityMark_mem_withArguments :
    arityMark ∈ (withArguments base arguments).toList ↔
      arityMark ∈ base.toList ∨ ArgumentsMarked arguments := by
  have hlist : arityMark ∈ argumentChars arguments ↔ ArgumentsMarked arguments := by
    rw [argumentChars, Text.mem_intercalate_iff (by decide)]
    simp [ArgumentsMarked]
  have hopen : arityMark ≠ '<' := by decide
  have hclose : arityMark ∉ ['>'] := by decide
  rw [toList_withArguments, List.mem_append, List.mem_cons, List.mem_append, hlist,
    or_iff_left hclose, or_iff_right hopen]

theorem isWellBracketed_argumentChars (h : ∀ a ∈ arguments, IsWellBracketed a.toList) :
    IsWellBracketed (argumentChars arguments) :=
  isWellBracketed_intercalate (by decide) (List.forall_mem_map.mpr h)

/-- A mark in the name or in an argument makes the name end at the list. -/
theorem definition_withArguments_of_mark (hopen : '<' ∉ base.toList)
    (h : arityMark ∈ base.toList ∨ ArgumentsMarked arguments) (count : Nat) :
    definition (withArguments base arguments) count = base := by
  apply String.toList_inj.mp
  have hne : ∀ c ∈ base.toList, (c != '<') = true :=
    fun c hc => bne_iff_ne.mpr (ne_of_mem_of_not_mem hc hopen)
  rw [toList_definition_of_mark (arityMark_mem_withArguments.mpr h), toList_withArguments,
    List.takeWhile_append_of_pos hne, List.takeWhile_cons_of_neg (by decide), List.append_nil]

/-! ### Names of definitions -/

theorem arityMark_mem_withArity (base : String) (count : Nat) :
    arityMark ∈ (withArity base count).toList := by simp [withArity]

theorem definition_of_shown {name : String} {count : Nat} (hmark : arityMark ∉ name.toList)
    (hshown : bareChars name.toList = base.toList) (hcount : count ≠ 0) :
    definition name count = withArity base count := by
  rw [definition, if_neg hmark, if_neg hcount, withArity, bare, hshown, String.ofList_toList]

theorem definition_write (hbase : IsUnmarked base) (hargs : arguments ≠ [])
    (h : ∀ a ∈ arguments, IsWellBracketed a.toList) (form : Form) :
    definition (form.write base arguments) arguments.length =
      if form = .arguments ∧ ArgumentsMarked arguments then base
      else withArity base arguments.length := by
  have hcount : arguments.length ≠ 0 := mt List.length_eq_zero_iff.mp hargs
  have hopen : '<' ∉ base.toList := fun hm => hbase _ hm (Or.inl rfl)
  have hmark : arityMark ∉ base.toList := fun hm => hbase _ hm (Or.inr (Or.inr rfl))
  have hplain : definition base arguments.length = withArity base arguments.length :=
    definition_of_shown hmark (bareChars_of_unmarked hbase) hcount
  have htell : arityMark ∈ (withArity base arguments.length).toList := arityMark_mem_withArity ..
  have hopen' : '<' ∉ (withArity base arguments.length).toList := by
    rw [← hplain]
    exact bracket_not_mem_definition _ _
  cases form with
  | plain => rw [if_neg (by simp)]; exact hplain
  | arity =>
    rw [if_neg (by simp)]
    exact definition_eq_self htell hopen' _
  | arguments =>
    rw [Form.write]
    split_ifs with hmarked
    · exact definition_withArguments_of_mark hopen (Or.inr hmarked.2) _
    · have hshown : bareChars (withArguments base arguments).toList = base.toList := by
        rw [toList_withArguments, bareChars_arguments hbase (isWellBracketed_argumentChars h)]
        exact List.append_nil _
      refine definition_of_shown (mt arityMark_mem_withArguments.mp ?_) hshown hcount
      exact not_or.mpr ⟨hmark, fun hm => hmarked ⟨rfl, hm⟩⟩
  | both =>
    rw [if_neg (by simp)]
    exact definition_withArguments_of_mark hopen' (Or.inl htell) _

end HostName

/-! ### Keys -/

namespace ClassType

open HostName

/-- A class has a name in a form and the arguments that go with it. -/
structure IsWritten (c : ClassType) (space base : String) (arguments : List String)
    (form : Form) : Prop where
  space : c.header.space = space
  name : c.header.name = form.write base arguments
  arguments : c.arguments = arguments

theorem IsWritten.definitionKey {c : ClassType} {form : Form}
    (hc : c.IsWritten space base arguments form) (hbase : IsUnmarked base)
    (hargs : arguments ≠ []) (h : ∀ a ∈ arguments, IsWellBracketed a.toList) :
    c.definitionKey = inNamespace space
      (if form = .arguments ∧ ArgumentsMarked arguments then base
        else withArity base arguments.length) := by
  rw [ClassType.definitionKey, hc.space, hc.name, hc.arguments, definition_write hbase hargs h]

/-- Two forms of a name give one key, unless an argument has an arity mark and just one of them
is the form with the arguments only. -/
theorem definitionKey_eq_iff {c e : ClassType} {form other : Form}
    (hbase : IsUnmarked base) (hargs : arguments ≠ [])
    (h : ∀ a ∈ arguments, IsWellBracketed a.toList)
    (hc : c.IsWritten space base arguments form) (he : e.IsWritten space base arguments other) :
    c.definitionKey = e.definitionKey ↔
      ¬ ArgumentsMarked arguments ∨ (form = .arguments ↔ other = .arguments) := by
  have hne : base ≠ withArity base arguments.length := by
    intro heq
    refine hbase arityMark ?_ (Or.inr (Or.inr rfl))
    rw [heq]
    exact arityMark_mem_withArity ..
  have hinj : Function.Injective (inNamespace space) := fun _ _ => inNamespace_right_injective
  rw [hc.definitionKey hbase hargs h, he.definitionKey hbase hargs h, hinj.eq_iff]
  by_cases hmarked : ArgumentsMarked arguments
  · -- the form with the arguments only has the bare name as its key, any other the marked one
    simp only [hmarked, and_true, not_true_eq_false, false_or]
    by_cases hf : form = .arguments <;> by_cases ho : other = .arguments <;>
      simp [hf, ho, hne, hne.symm]
  · simp only [hmarked, and_false, if_false, not_false_eq_true, true_or]

/-- An instance with a name in a form. -/
def instanceOf (base : String) (arguments : List String) (form : Form) : ClassType :=
  { header := { name := form.write base arguments }, arguments, isConstructed := true }

theorem isWritten_instanceOf (base : String) (arguments : List String) (form : Form) :
    (instanceOf base arguments form).IsWritten "" base arguments form := ⟨rfl, rfl, rfl⟩

/-- A nested list of arguments does not matter, only a mark in it would. -/
theorem definitionKey_eq_dictionary :
    (instanceOf "Dictionary" ["string", "List<int>"] .arguments).definitionKey =
      (instanceOf "Dictionary" ["string", "List<int>"] .arity).definitionKey :=
  (definitionKey_eq_iff (by decide) (by decide) (by decide) (isWritten_instanceOf ..)
    (isWritten_instanceOf ..)).mpr (Or.inl (by decide))

/-- The mark of an argument counts as one of the name, which loses its own. -/
theorem not_definitionKey_eq_box :
    (∀ a ∈ ["List`1<int>"], IsWellBracketed a.toList) ∧
      (instanceOf "Box" ["List`1<int>"] .arguments).definitionKey ≠
        (instanceOf "Box" ["List`1<int>"] .arity).definitionKey := by decide

end ClassType

end LuaTypings
