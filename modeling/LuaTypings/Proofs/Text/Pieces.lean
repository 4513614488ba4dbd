/-
LuaTypings/Proofs/Text/Pieces.lean

Texts that are cut at a separator, and texts that are put together with one between them.  A
separator cuts a text in two (`pieces_append`), and a text without one is a single piece.
-/
import LuaTypings.Text.Pieces
import Mathlib.Data.List.Basic
import Mathlib.Data.List.DropRight

namespace LuaTypings.Text

variable {separator : Char}

theorem pieces_ne_nil (separator : Char) (cs : List Char) : pieces separator cs ≠ [] := by
  cases cs with
  | nil => simp [pieces]
  | cons c cs =>
    rw [pieces]
    split
    · simp
    · split <;> simp

theorem pieces_append (separator : Char) (front back : List Char) :
    pieces separator (front ++ separator :: back) =
      pieces separator front ++ pieces separator back := by
  induction front with
  | nil => simp [pieces]
  | cons c cs ih =>
    rw [List.cons_append, pieces, pieces]
    split
    · rw [ih, List.cons_append]
    · rw [ih]
      -- there is a first piece, which the character joins
      rcases h : pieces separator cs with - | ⟨p, ps⟩
      · exact absurd h (pieces_ne_nil separator cs)
      · rfl

theorem pieces_of_not_mem {cs : List Char} (h : separator ∉ cs) : pieces separator cs = [cs] := by
  induction cs with
  | nil => rfl
  | cons c cs ih =>
    obtain ⟨hc, hcs⟩ := not_or.mp (mt List.mem_cons.mpr h)
    rw [pieces, if_neg (Ne.symm hc), ih hcs]

/-- The first piece is what stands in front of the first separator. -/
theorem pieces_eq_cons (separator : Char) (cs : List Char) :
    pieces separator cs = cs.takeWhile (· != separator) :: (pieces separator cs).tail := by
  induction cs with
  | nil => rfl
  | cons c cs ih =>
    rw [pieces]
    split_ifs with hc
    · simp [hc]
    · rw [ih]
      simp [hc]

/-- Induction over a text piece by piece. -/
@[elab_as_elim]
theorem pieces_induction (separator : Char) {motive : List Char → Prop}
    (last : ∀ cs, separator ∉ cs → motive cs)
    (cut : ∀ front back, separator ∉ front → motive back → motive (front ++ separator :: back))
    (cs : List Char) : motive cs := by
  -- a piece takes several characters, so the induction is on the length
  induction hn : cs.length using Nat.strongRecOn generalizing cs with
  | _ n ih =>
    by_cases hmem : separator ∈ cs
    · obtain ⟨front, back, rfl, hfront⟩ := List.eq_append_cons_of_mem hmem
      rw [List.length_append, List.length_cons] at hn
      exact cut front back hfront (ih _ (by omega) back rfl)
    · exact last cs hmem

/-- The last piece is what stands behind the last separator. -/
theorem getLast?_pieces (separator : Char) (cs : List Char) :
    (pieces separator cs).getLast? = some (cs.rtakeWhile (· != separator)) := by
  induction cs using pieces_induction separator with
  | last cs h =>
    have hall : ∀ c ∈ cs, (c != separator) = true :=
      fun c hc => bne_iff_ne.mpr (ne_of_mem_of_not_mem hc h)
    rw [pieces_of_not_mem h, List.rtakeWhile_eq_self_iff.mpr hall]
    rfl
  | cut front back _ ih =>
    have hback : (front ++ separator :: back).rtakeWhile (· != separator) =
        back.rtakeWhile (· != separator) := by
      simp only [List.rtakeWhile, List.reverse_append, List.reverse_cons, List.append_assoc,
        List.singleton_append, List.takeWhile_append]
      split_ifs with h
      · rw [List.takeWhile_cons_of_neg (by simp), List.append_nil,
          (List.takeWhile_prefix _).eq_of_length h]
      · rfl
    rw [pieces_append, List.getLast?_append_of_ne_nil _ (pieces_ne_nil separator back), ih, hback]

/-- Every other piece is what stands between a separator and the next one. -/
theorem mem_tail_pieces_iff {piece cs : List Char} :
    piece ∈ (pieces separator cs).tail ↔
      ∃ back, separator :: back <:+ cs ∧ piece = back.takeWhile (· != separator) := by
  constructor
  · intro h
    induction cs with
    | nil => simp [pieces] at h
    | cons c cs ih =>
      have hcs : cs <:+ c :: cs := List.suffix_cons c cs
      rw [pieces] at h
      split_ifs at h with hc
      · rw [List.tail_cons, pieces_eq_cons] at h
        rcases List.mem_cons.mp h with hfirst | htail
        · exact ⟨cs, hc ▸ List.suffix_refl _, hfirst⟩
        · obtain ⟨back, hback, hpiece⟩ := ih htail
          exact ⟨back, hback.trans hcs, hpiece⟩
      · rw [pieces_eq_cons] at h
        obtain ⟨back, hback, hpiece⟩ := ih h
        exact ⟨back, hback.trans hcs, hpiece⟩
  · rintro ⟨back, ⟨front, rfl⟩, rfl⟩
    rw [pieces_append, pieces_eq_cons separator front, pieces_eq_cons separator back]
    simp

/-- A character of a text is a separator or stands in a piece. -/
theorem mem_pieces {x : Char} {cs : List Char} (h : x ∈ cs) (hx : x ≠ separator) :
    ∃ piece ∈ pieces separator cs, x ∈ piece := by
  induction cs with
  | nil => cases h
  | cons c cs ih =>
    rw [pieces]
    split_ifs with hc
    · have htail : x ∈ cs := (List.mem_cons.mp h).resolve_left fun e => hx (e.trans hc)
      obtain ⟨piece, hpiece, hmem⟩ := ih htail
      exact ⟨piece, List.mem_cons_of_mem _ hpiece, hmem⟩
    · -- the character joins the first piece
      split
      · rename_i hnil
        exact absurd hnil (pieces_ne_nil separator cs)
      · rename_i p ps hps
        rcases List.mem_cons.mp h with rfl | htail
        · exact ⟨x :: p, List.mem_cons_self, List.mem_cons_self⟩
        · obtain ⟨piece, hpiece, hmem⟩ := ih htail
          rw [hps] at hpiece
          rcases List.mem_cons.mp hpiece with rfl | hpiece
          · exact ⟨c :: piece, List.mem_cons_self, List.mem_cons_of_mem c hmem⟩
          · exact ⟨piece, List.mem_cons_of_mem _ hpiece, hmem⟩

/-- What does not stand in the separator stands in one of the texts. -/
theorem mem_intercalate_iff {α : Type} {between : List α} {x : α} (hx : x ∉ between)
    {texts : List (List α)} : x ∈ between.intercalate texts ↔ ∃ text ∈ texts, x ∈ text := by
  induction texts with
  | nil => simp [List.intercalate]
  | cons text texts ih =>
    cases texts with
    | nil => simp
    | cons next texts =>
      rw [List.intercalate_cons_cons, List.mem_append, List.mem_append, ih, or_iff_left hx,
        List.exists_mem_cons_iff (x ∈ ·) text]

end LuaTypings.Text
