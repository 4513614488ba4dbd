/-
LuaTypings/Proofs/HostName/Brackets.lean

Texts in which angle brackets match.  Such a text can stand between two brackets of a name without
ending the argument list that they open, so a name without marks in front of the list is all that
shows of both (`bareChars_arguments`).
-/
import LuaTypings.Proofs.HostName.Bare

namespace LuaTypings.HostName

variable {depth outer : Nat} {cs rest : List Char}

/-! ### Brackets that match -/

/-- Whether a text closes the brackets that are open in front of it and those that it opens
itself, and no others. -/
def closes (depth : Nat) : List Char → Bool
  | [] => depth == 0
  | c :: cs =>
    if c = '<' then closes (depth + 1) cs
    else if c = '>' then depth != 0 && closes (depth - 1) cs
    else closes depth cs

/-- The brackets of a text match. -/
def IsWellBracketed (cs : List Char) : Prop := closes 0 cs = true

instance (cs : List Char) : Decidable (IsWellBracketed cs) := inferInstanceAs (Decidable (_ = _))

/-- What is open in front of two texts can be closed by them one after the other. -/
theorem closes_append {back : List Char} (h : closes depth cs = true)
    (hback : closes outer back = true) : closes (depth + outer) (cs ++ back) = true := by
  induction cs generalizing depth with
  | nil =>
    have hd : depth = 0 := by simpa [closes] using h
    rwa [hd, Nat.zero_add, List.nil_append]
  | cons c cs ih =>
    rw [List.cons_append]
    by_cases hlt : c = '<'
    · simp only [closes, hlt, if_true] at h ⊢
      rw [Nat.add_right_comm]
      exact ih h
    · by_cases hgt : c = '>'
      · have hclose : ¬ '>' = '<' := by decide
        simp only [closes, hgt, hclose, if_false, if_true, Bool.and_eq_true, bne_iff_ne] at h ⊢
        obtain ⟨hd, h⟩ := h
        refine ⟨by omega, ?_⟩
        rw [Nat.sub_add_comm (Nat.one_le_iff_ne_zero.mpr hd)]
        exact ih h
      · simp only [closes, hlt, hgt, if_false] at h ⊢
        exact ih h

theorem IsWellBracketed.append {back : List Char} (h : IsWellBracketed cs)
    (hback : IsWellBracketed back) : IsWellBracketed (cs ++ back) := closes_append h hback

theorem isWellBracketed_intercalate {separator : List Char} {texts : List (List Char)}
    (hseparator : IsWellBracketed separator) (h : ∀ text ∈ texts, IsWellBracketed text) :
    IsWellBracketed (separator.intercalate texts) := by
  induction texts with
  | nil => rfl
  | cons text texts ih =>
    obtain ⟨htext, htexts⟩ := List.forall_mem_cons.mp h
    cases texts with
    | nil => rwa [List.intercalate_singleton]
    | cons next texts =>
      rw [List.intercalate_cons_cons]
      exact (htext.append hseparator).append (ih htexts)

/-! ### Argument lists -/

/-- Inside an open bracket nothing is remembered of an arity mark. -/
theorem bareFrom_open_congr (h : outer ≠ 0) (inArity : Bool) (cs : List Char) :
    bareFrom outer inArity cs = bareFrom outer false cs := by
  cases cs with
  | nil => rfl
  | cons c cs => simp [bareFrom, h]

/-- Inside an open bracket nothing shows of a text whose brackets match. -/
theorem bareFrom_append_of_closes (h : closes depth cs = true) (houter : outer ≠ 0)
    (inArity : Bool) (rest : List Char) :
    bareFrom (depth + outer) inArity (cs ++ rest) = bareFrom outer false rest := by
  induction cs generalizing depth inArity with
  | nil =>
    have hd : depth = 0 := by simpa [closes] using h
    rw [hd, Nat.zero_add, List.nil_append]
    exact bareFrom_open_congr houter inArity rest
  | cons c cs ih =>
    have hopen : depth + outer ≠ 0 := by omega
    rw [List.cons_append]
    by_cases hlt : c = '<'
    · simp only [closes, hlt, if_true] at h
      simp only [bareFrom, hlt, if_true]
      rw [Nat.add_right_comm]
      exact ih h false
    · by_cases hgt : c = '>'
      · have hclose : ¬ '>' = '<' := by decide
        simp only [closes, hgt, hclose, if_false, if_true, Bool.and_eq_true, bne_iff_ne] at h
        simp only [bareFrom, hgt, hclose, if_false, if_true]
        rw [Nat.sub_add_comm (Nat.one_le_iff_ne_zero.mpr h.1)]
        exact ih h.2 false
      · simp only [closes, hlt, hgt, if_false] at h
        simp only [bareFrom, hlt, hgt, if_false, ne_eq, hopen, not_false_eq_true, if_true]
        exact ih h false

/-- An argument list behind a name without marks does not show, and what follows it does. -/
theorem bareChars_arguments {base arguments : List Char} (hbase : ∀ x ∈ base, ¬ IsMark x)
    (h : IsWellBracketed arguments) (rest : List Char) :
    bareChars (base ++ '<' :: (arguments ++ '>' :: rest)) = base ++ bareChars rest := by
  have hopen : '<' ∉ base := fun hmem => hbase _ hmem (Or.inl rfl)
  have hlist : ∀ inArity, bareFrom 0 inArity ('<' :: (arguments ++ '>' :: rest)) =
      bareChars rest := by
    intro inArity
    calc bareFrom 0 inArity ('<' :: (arguments ++ '>' :: rest))
        = bareFrom (0 + 1) false (arguments ++ '>' :: rest) := rfl
      _ = bareFrom 1 false ('>' :: rest) := bareFrom_append_of_closes h Nat.one_ne_zero false _
      _ = bareChars rest := rfl
  rw [bareChars, bareFrom_append, stateFrom_fst_of_no_bracket false hopen, hlist, ← bareChars,
    bareChars_of_unmarked hbase]

end LuaTypings.HostName
