/-
LuaTypings/Proofs/Json/Shape.lean

Records that are written completely.  Where the keys of an object are different and each field
of a record is among them and reads as some value (`ReadsAs`), there is no mistake in the object
(`objectFields_eq_ok`), and the fields are picked up as these values.
-/
import LuaTypings.Json.Shape
import Mathlib.Data.List.Nodup

namespace LuaTypings.Json

/-! ### Simple values -/

namespace Reader

@[simp] theorem option_optional (s : Option String) : option text (.optional s) = .ok s := by
  cases s <;> rfl

variable {α : Type} {r : Reader α} {write : α → Json}

theorem all_map (h : ∀ a, r (write a) = .ok a) (as : List α) :
    all r (as.map write) = .ok as := by
  induction as with
  | nil => rfl
  | cons a as ih => rw [List.map_cons, all, h, ih]

theorem list_array (h : ∀ a, r (write a) = .ok a) (as : List α) :
    list r (.array (as.map write)) = .ok as := all_map h as

@[simp] theorem list_strings (ss : List String) : list text (.strings ss) = .ok ss := by
  have htext (s : String) : text (.string s) = .ok s := rfl
  exact list_array htext ss

end Reader

/-! ### Fields -/

/-- An object has a field that reads as a value. -/
def ReadsAs {α : Type} (entries : List (String × Json)) (name : String) (r : Reader α) (a : α) :
    Prop := ∃ j, entries.lookup name = some j ∧ r j = .ok a

/-- An object has a field that keeps its rule. -/
def FieldRule.Kept (rule : FieldRule) (entries : List (String × Json)) : Prop :=
  ∃ j, entries.lookup rule.name = some j ∧ rule.mistake? j = none

variable {α : Type} {entries : List (String × Json)} {rules : List FieldRule}

namespace ReadsAs

variable {name : String} {r : Reader α} {a : α} {missing : String → Mistake}

theorem kept (h : ReadsAs entries name r a) : (FieldRule.of name r).Kept entries := by
  obtain ⟨j, hlookup, hread⟩ := h
  refine ⟨j, hlookup, ?_⟩
  show r.mistake? j = none
  rw [Reader.mistake?, hread]

theorem required (h : ReadsAs entries name r a) :
    Fields.required ⟨entries, missing⟩ name r = .ok a := by
  obtain ⟨j, hlookup, hread⟩ := h
  rw [Fields.required, hlookup]
  exact hread

theorem withDefault (h : ReadsAs entries name r a) (fallback : α) :
    Fields.withDefault ⟨entries, missing⟩ name fallback r = .ok a := by
  obtain ⟨j, hlookup, hread⟩ := h
  rw [Fields.withDefault, hlookup]
  exact hread

end ReadsAs

theorem lookup_of_mem {key : String} {value : Json} (hkeys : (entries.map Prod.fst).Nodup)
    (h : (key, value) ∈ entries) : entries.lookup key = some value := by
  induction entries with
  | nil => cases h
  | cons e entries ih =>
    obtain ⟨hnew, hkeys⟩ := List.nodup_cons.mp hkeys
    rcases List.mem_cons.mp h with rfl | h
    · exact List.lookup_cons_self
    · have hne : (key == e.1) = false := by
        refine beq_false_of_ne fun heq => hnew ?_
        rw [← heq]
        exact List.mem_map_of_mem (f := Prod.fst) h
      rw [List.lookup_cons, hne]
      exact ih hkeys h

/-- There is no mistake where the keys are different and every rule is kept. -/
theorem firstMistake?_eq_none (hkeys : (entries.map Prod.fst).Nodup)
    (hrules : ∀ rule ∈ rules, rule.Kept entries) : firstMistake? rules [] entries = none := by
  have hvalues : ∀ e ∈ entries, ∀ rule ∈ rules, rule.name = e.1 → rule.mistake? e.2 = none := by
    rintro ⟨key, value⟩ he rule hrule rfl
    obtain ⟨j, hlookup, hnone⟩ := hrules rule hrule
    rw [lookup_of_mem hkeys he] at hlookup
    rw [Option.some.inj hlookup]
    exact hnone
  -- no key is seen twice, whatever was seen in front of the entries
  have general (entries : List (String × Json)) (seen : List String)
      (hkeys : (entries.map Prod.fst).Nodup) (hseen : ∀ e ∈ entries, e.1 ∉ seen)
      (hvalues : ∀ e ∈ entries, ∀ rule ∈ rules, rule.name = e.1 → rule.mistake? e.2 = none) :
      firstMistake? rules seen entries = none := by
    induction entries generalizing seen with
    | nil => rfl
    | cons e entries ih =>
      obtain ⟨hnew, hkeys⟩ := List.nodup_cons.mp hkeys
      obtain ⟨hfresh, hseen⟩ := List.forall_mem_cons.mp hseen
      obtain ⟨hvalue, hvalues⟩ := List.forall_mem_cons.mp hvalues
      rw [firstMistake?]
      split
      case h_1 => exact ih seen hkeys hseen hvalues
      case h_2 rule hfind =>
        have hname : rule.name = e.1 := by simpa using List.find?_some hfind
        have hseen' : ∀ e' ∈ entries, e'.1 ∉ e.1 :: seen := by
          intro e' he'
          rw [List.mem_cons, not_or]
          refine ⟨fun heq => hnew ?_, hseen e' he'⟩
          rw [← heq]
          exact List.mem_map_of_mem (f := Prod.fst) he'
        rw [if_neg (mt List.contains_iff_mem.mp hfresh),
          hvalue rule (List.mem_of_find?_eq_some hfind) hname, Option.none_or]
        exact ih _ hkeys hseen' hvalues
  exact general entries [] hkeys (fun _ _ => List.not_mem_nil) hvalues

/-- The fields of an object that keeps all rules. -/
theorem objectFields_eq_ok (hkeys : (entries.map Prod.fst).Nodup)
    (hrules : ∀ rule ∈ rules, rule.Kept entries) :
    objectFields rules entries = .ok ⟨entries, .missingField⟩ := by
  rw [objectFields, firstMistake?_eq_none hkeys hrules]

theorem record_object {kind : String} {build : Fields → Except Mistake α}
    (hkeys : (entries.map Prod.fst).Nodup) (hrules : ∀ rule ∈ rules, rule.Kept entries) :
    record kind rules build (.object entries) = build ⟨entries, .missingField⟩ := by
  rw [record, objectFields_eq_ok hkeys hrules]
  rfl

end LuaTypings.Json
