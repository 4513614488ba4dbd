/-
LuaTypings/Proofs/HostName/Commas.lean

The number of parameters that a name tells with its argument list.  Without an arity mark
`HostName.arity?` counts commas, namely those that stand inside of a single angle bracket.  What a text
of matching brackets does to the count is a property of the text alone (`ShowsCommas`): put together
with others it adds its commas to theirs (`ShowsCommas.append`), and in brackets of its own it adds
nothing (`ShowsCommas.enclose`).  Only brackets and commas matter, so a name tells the same number with
everything else left out (`arity?_of_no_mark`).
-/
import LuaTypings.HostName
import Mathlib.Data.List.TakeWhile

namespace LuaTypings.HostName

variable {cs back : List Char} {m n : Nat}

/-! ### Commas that a text shows -/

/-- The characters that count. -/
def isDelimiter (c : Char) : Bool := c == '<' || c == '>' || c == ','

/-- Inside of a bracket a text leaves the depth as it was, and adds `n` to the count exactly if this is
the only open bracket. -/
def ShowsCommas (n : Nat) (cs : List Char) : Prop :=
  ∀ depth count rest, depth ≠ 0 →
    countCommas depth count (cs ++ rest) =
      countCommas depth (if depth = 1 then count + n else count) rest

theorem countCommas_filter (depth count : Nat) (cs : List Char) :
    countCommas depth count (cs.filter isDelimiter) = countCommas depth count cs := by
  induction cs generalizing depth count with
  | nil => rfl
  | cons c cs ih =>
    by_cases hc : isDelimiter c = true
    · rw [List.filter_cons_of_pos hc]
      simp only [countCommas, ih]
    · rw [List.filter_cons_of_neg hc, ih]
      simp only [isDelimiter, Bool.or_eq_true, beq_iff_eq, not_or] at hc
      simp [countCommas, hc]

/-- Other characters do not count at any depth. -/
theorem countCommas_append_of_plain (h : ∀ c ∈ cs, isDelimiter c = false) (depth count : Nat)
    (rest : List Char) : countCommas depth count (cs ++ rest) = countCommas depth count rest := by
  have hnone : cs.filter isDelimiter = [] := List.filter_eq_nil_iff.mpr (by simpa using h)
  rw [← countCommas_filter, List.filter_append, hnone, List.nil_append, countCommas_filter]

/-- In front of the first bracket nothing counts. -/
theorem countCommas_dropWhile (count : Nat) (cs : List Char) :
    countCommas 0 count (cs.dropWhile (· != '<')) = countCommas 0 count cs := by
  induction cs with
  | nil => rfl
  | cons c cs ih =>
    by_cases hc : c = '<'
    · rw [List.dropWhile_cons_of_neg (by simpa using hc)]
    · rw [List.dropWhile_cons_of_pos (by simpa using hc), ih]
      simp [countCommas, hc]

theorem showsCommas_of_plain (h : ∀ c ∈ cs, isDelimiter c = false) : ShowsCommas 0 cs := by
  intro depth count rest _
  rw [countCommas_append_of_plain h, Nat.add_zero, ite_self]

theorem showsCommas_plain {c : Char} (h : isDelimiter c = false) : ShowsCommas 0 [c] :=
  showsCommas_of_plain (List.forall_mem_singleton.mpr h)

theorem showsCommas_comma : ShowsCommas 1 [','] := by
  intro depth count rest _
  by_cases hdepth : depth = 1 <;> simp [countCommas, hdepth]

theorem ShowsCommas.append (h : ShowsCommas m cs) (hback : ShowsCommas n back) :
    ShowsCommas (m + n) (cs ++ back) := by
  intro depth count rest hdepth
  rw [List.append_assoc, h _ _ _ hdepth, hback _ _ _ hdepth]
  by_cases hone : depth = 1
  · simp only [hone, if_true, Nat.add_assoc]
  · simp only [hone, if_false]

theorem showsCommas_replicate (n : Nat) : ShowsCommas n (List.replicate n ',') := by
  induction n with
  | zero => exact showsCommas_of_plain (by simp)
  | succ n ih =>
    rw [List.replicate_succ']
    exact ih.append showsCommas_comma

/-- A list in brackets adds nothing to the list around it. -/
theorem ShowsCommas.enclose (h : ShowsCommas n cs) : ShowsCommas 0 ('<' :: (cs ++ ['>'])) := by
  intro depth count rest hdepth
  -- the depth is not zero around the brackets, so it is not one inside of them
  have hinner : depth + 1 ≠ 1 := by omega
  have hclose : ¬ '>' = '<' := by decide
  rw [List.cons_append, List.append_assoc, countCommas, if_pos rfl, h _ _ _ (by omega),
    if_neg hinner, List.singleton_append, countCommas, if_neg hclose, if_pos rfl,
    Nat.add_sub_cancel, Nat.add_zero, ite_self]

/-- A list in brackets that nothing is around counts its commas. -/
theorem ShowsCommas.countCommas_enclose (h : ShowsCommas n cs) (count : Nat) :
    countCommas 0 count ('<' :: (cs ++ ['>'])) = count + n := by
  have hclose : ¬ '>' = '<' := by decide
  rw [countCommas, if_pos rfl, Nat.zero_add, h _ _ _ Nat.one_ne_zero, if_pos rfl, countCommas,
    if_neg hclose, if_pos rfl, countCommas]

/-! ### Numbers of parameters -/

/-- The count never falls. -/
theorem le_countCommas (depth count : Nat) (cs : List Char) :
    count ≤ countCommas depth count cs := by
  induction cs generalizing depth count with
  | nil => exact Nat.le_refl _
  | cons c cs ih =>
    simp only [countCommas]
    split_ifs
    · exact ih _ _
    · exact ih _ _
    · exact Nat.le_of_succ_le (ih _ _)
    · exact ih _ _

/-- Without an arity mark the delimiters tell the number. -/
theorem arity?_of_no_mark {name : String} (h : arityMark ∉ name.toList) :
    arity? name =
      if '<' ∈ name.toList.filter isDelimiter then
        some (countCommas 0 1 (name.toList.filter isDelimiter))
      else none := by
  have hopen : '<' ∈ name.toList.filter isDelimiter ↔ '<' ∈ name.toList := by
    rw [List.mem_filter, and_iff_left (by decide)]
  have hdrop : name.toList.dropWhile (· != '<') = [] ↔ '<' ∉ name.toList := by
    rw [List.dropWhile_eq_nil_iff]
    constructor
    · intro hall hmem
      exact absurd (hall '<' hmem) (by decide)
    · intro hnot c hc
      exact bne_iff_ne.mpr (ne_of_mem_of_not_mem hc hnot)
  -- the original text is cut in front of its first bracket, the filtered one is not
  rw [arity?, if_neg h, countCommas_filter]
  simp only [List.isEmpty_iff, hdrop, hopen, countCommas_dropWhile, ite_not]

end LuaTypings.HostName
