/-
LuaTypings/Proofs/FirstOccurrences.lean

Lists without repetitions.  What stays of a list if everything that was there before is left out has
the same elements, in the order in which each first occurs (`IsFirstOccurrences`).  These two
properties leave only one list (`isFirstOccurrences_iff`), so they say all about it, repetitions
included.
-/
import Mathlib.Data.List.Induction
import Mathlib.Data.List.Sort

namespace LuaTypings

variable {α : Type} [DecidableEq α] {xs ys : List α}

/-- The elements of a list, in the order in which they first occur there. -/
structure IsFirstOccurrences (ys xs : List α) : Prop where
  mem_iff : ∀ x, x ∈ ys ↔ x ∈ xs
  order : ys.Pairwise fun x y => xs.idxOf x < xs.idxOf y

/-- An element further back is left out if it was there before, and else it comes last. -/
theorem eraseDups_concat (xs : List α) (x : α) :
    (xs ++ [x]).eraseDups = if x ∈ xs then xs.eraseDups else xs.eraseDups ++ [x] := by
  rw [List.eraseDups_append]
  split_ifs with hx
  · have hnone : [x].removeAll xs = [] := by simp [List.removeAll, hx]
    rw [hnone, List.eraseDups_nil, List.append_nil]
  · have hsame : [x].removeAll xs = [x] := by simp [List.removeAll, hx]
    rw [hsame]
    rfl

/-- Adding the elements one by one, each unless it is there, leaves the same. -/
theorem foldl_addNew (xs : List α) :
    xs.foldl (fun ys x => if ys.contains x then ys else ys ++ [x]) [] = xs.eraseDups := by
  induction xs using List.reverseRecOn with
  | nil => rfl
  | append_singleton xs x ih =>
    rw [List.foldl_concat, ih, eraseDups_concat]
    simp only [List.contains_iff_mem, List.mem_eraseDups]

theorem pairwise_idxOf_eraseDups (xs : List α) :
    xs.eraseDups.Pairwise fun x y => xs.idxOf x < xs.idxOf y := by
  induction xs using List.reverseRecOn with
  | nil => exact List.Pairwise.nil
  | append_singleton xs x ih =>
    -- what was there before keeps its place
    have hkeep : xs.eraseDups.Pairwise fun y z => (xs ++ [x]).idxOf y < (xs ++ [x]).idxOf z := by
      refine ih.imp_of_mem fun {y z} hy hz hlt => ?_
      rwa [List.idxOf_append_of_mem (List.mem_eraseDups.mp hy),
        List.idxOf_append_of_mem (List.mem_eraseDups.mp hz)]
    rw [eraseDups_concat]
    split_ifs with hx
    · exact hkeep
    · refine List.pairwise_append.mpr ⟨hkeep, List.pairwise_singleton _ _, fun y hy z hz => ?_⟩
      have hy := List.mem_eraseDups.mp hy
      rw [List.mem_singleton.mp hz, List.idxOf_append_of_mem hy, List.idxOf_append_of_notMem hx]
      exact Nat.lt_add_right _ (List.idxOf_lt_length_of_mem hy)

theorem IsFirstOccurrences.nodup (h : IsFirstOccurrences ys xs) : ys.Nodup :=
  h.order.imp fun hlt heq => Nat.ne_of_lt hlt (congrArg xs.idxOf heq)

/-- There is one such list. -/
theorem isFirstOccurrences_iff : IsFirstOccurrences ys xs ↔ ys = xs.eraseDups := by
  constructor
  · intro h
    -- an order without repetitions sorts the elements in one way only
    have hirrefl : Std.Irrefl fun x y => xs.idxOf x < xs.idxOf y := ⟨fun x => Nat.lt_irrefl _⟩
    have hasymm : Std.Antisymm fun x y => xs.idxOf x < xs.idxOf y :=
      ⟨fun x y hxy hyx => absurd hxy (Nat.lt_asymm hyx)⟩
    refine h.order.eq_of_mem_iff (pairwise_idxOf_eraseDups xs) fun x => ?_
    rw [h.mem_iff, List.mem_eraseDups]
  · rintro rfl
    exact ⟨fun x => List.mem_eraseDups, pairwise_idxOf_eraseDups xs⟩

theorem nodup_eraseDups (xs : List α) : xs.eraseDups.Nodup :=
  (isFirstOccurrences_iff.mpr rfl).nodup

end LuaTypings
