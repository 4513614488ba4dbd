/-
LuaTypings/Proofs/Text/Replace.lean

Replacing in a text: a pattern that does not occur changes nothing, a text that is the pattern
becomes the replacement, and replacing a pattern by itself changes nothing either.  What has no
character in common with the replacement occurs behind the replacing only if it did in front of it
and is not the pattern (`infix_of_infix_replaceAll`).
-/
import LuaTypings.Text.Replace
import Mathlib.Data.List.Infix

namespace LuaTypings.Text

variable {pattern replacement : List Char}

/-- The characters to be passed over are dropped. -/
theorem replaceFrom_skip (skip : Nat) (cs : List Char) :
    replaceFrom pattern replacement skip cs =
      replaceFrom pattern replacement 0 (cs.drop skip) := by
  induction cs generalizing skip with
  | nil => simp [replaceFrom]
  | cons c cs ih =>
    cases skip with
    | zero => rfl
    | succ skip => exact ih skip

/-- At an occurrence the replacement is written and the rest is looked at. -/
theorem replaceFrom_of_found {c : Char} {cs : List Char} (h : pattern <+: c :: cs)
    (hne : pattern ≠ []) :
    replaceFrom pattern replacement 0 (c :: cs) =
      replacement ++ replaceFrom pattern replacement 0 ((c :: cs).drop pattern.length) := by
  obtain ⟨p, ps, rfl⟩ := List.exists_cons_of_ne_nil hne
  rw [replaceFrom, if_pos (List.isPrefixOf_iff_prefix.mpr h), replaceFrom_skip]
  rfl

theorem replaceFrom_of_not_found {c : Char} {cs : List Char} (h : ¬ pattern <+: c :: cs) :
    replaceFrom pattern replacement 0 (c :: cs) =
      c :: replaceFrom pattern replacement 0 cs := by
  rw [replaceFrom, if_neg (mt List.isPrefixOf_iff_prefix.mp h)]

theorem replaceAll_of_ne_nil (h : pattern ≠ []) (text : List Char) :
    replaceAll pattern replacement text = replaceFrom pattern replacement 0 text := by
  rw [replaceAll, if_neg (by simpa using h)]

/-- A pattern that does not occur changes nothing. -/
theorem replaceAll_of_absent {text : List Char} (h : ¬ pattern <:+: text) :
    replaceAll pattern replacement text = text := by
  have hne : pattern ≠ [] := by
    rintro rfl
    exact h (List.nil_infix)
  rw [replaceAll_of_ne_nil hne]
  induction text with
  | nil => rfl
  | cons c cs ih =>
    have hhead : ¬ pattern <+: c :: cs := fun hp => h hp.isInfix
    have htail : ¬ pattern <:+: cs := fun hi => h (List.infix_cons hi)
    rw [replaceFrom_of_not_found hhead, ih htail]

/-- A text that is the pattern becomes the replacement. -/
theorem replaceAll_self (h : pattern ≠ []) :
    replaceAll pattern replacement pattern = replacement := by
  obtain ⟨p, ps, rfl⟩ := List.exists_cons_of_ne_nil h
  rw [replaceAll_of_ne_nil h, replaceFrom_of_found List.prefix_rfl h, List.drop_length]
  exact List.append_nil _

/-- Replacing a pattern by itself changes nothing. -/
theorem replaceAll_same (h : pattern ≠ []) (text : List Char) :
    replaceAll pattern pattern text = text := by
  rw [replaceAll_of_ne_nil h]
  -- an occurrence takes more than one character, so the induction is on the length
  induction hn : text.length using Nat.strong_induction_on generalizing text with
  | _ n ih =>
    cases text with
    | nil => rfl
    | cons c cs =>
      by_cases hp : pattern <+: c :: cs
      · have hlen := List.length_pos_iff.mpr h
        rw [replaceFrom_of_found hp h, ih _ (by rw [← hn]; simp; omega) _ rfl]
        exact List.prefix_iff_eq_append.mp hp
      · rw [replaceFrom_of_not_found hp, ih _ (by rw [← hn]; simp) cs rfl]

/-! ### What occurs behind the replacing -/

variable {word text : List Char}

/-- What has no character in common with the front of a text occurs behind the front only. -/
theorem infix_of_infix_append {front back : List Char} (hne : word ≠ [])
    (hapart : word.Disjoint front) (h : word <:+: front ++ back) : word <:+: back := by
  induction front with
  | nil => exact h
  | cons c front ih =>
    obtain ⟨hc, hfront⟩ := List.disjoint_cons_right.mp hapart
    rcases List.infix_cons_iff.mp h with hprefix | hoccurs
    · obtain ⟨x, xs, rfl⟩ := List.exists_cons_of_ne_nil hne
      obtain ⟨rfl, -⟩ := List.cons_prefix_cons.mp hprefix
      exact absurd List.mem_cons_self hc
    · exact ih hfront hoccurs

/-- What has no character in common with the replacement stands at the start behind the replacing
only if it did in front of it. -/
theorem prefix_of_prefix_replaceFrom (hreplacement : replacement ≠ [])
    (hapart : word.Disjoint replacement)
    (h : word <+: replaceFrom pattern replacement 0 text) (hpattern : pattern ≠ []) :
    word <+: text := by
  induction word generalizing text with
  | nil => exact List.nil_prefix
  | cons x word ih =>
    obtain ⟨hx, hword⟩ := List.disjoint_cons_left.mp hapart
    cases text with
    | nil => exact absurd (List.prefix_nil.mp h) (List.cons_ne_nil _ _)
    | cons c cs =>
      by_cases hfound : pattern <+: c :: cs
      · -- the replacement stands at the start
        obtain ⟨r, rs, rfl⟩ := List.exists_cons_of_ne_nil hreplacement
        rw [replaceFrom_of_found hfound hpattern] at h
        obtain ⟨rfl, -⟩ := List.cons_prefix_cons.mp h
        exact absurd List.mem_cons_self hx
      · rw [replaceFrom_of_not_found hfound] at h
        obtain ⟨rfl, hrest⟩ := List.cons_prefix_cons.mp h
        exact List.cons_prefix_cons.mpr ⟨rfl, ih hword hrest⟩

/-- Replacing makes no new occurrences of what has no character in common with the replacement,
and leaves none of the pattern. -/
theorem infix_of_infix_replaceAll (hword : word ≠ []) (hpattern : pattern ≠ [])
    (hreplacement : replacement ≠ []) (hapart : word.Disjoint replacement)
    (h : word <:+: replaceAll pattern replacement text) : word <:+: text ∧ word ≠ pattern := by
  rw [replaceAll_of_ne_nil hpattern] at h
  -- an occurrence of the pattern takes several characters, so the induction is on the length
  induction hn : text.length using Nat.strong_induction_on generalizing text with
  | _ n ih =>
    cases text with
    | nil => exact absurd (List.infix_nil.mp h) hword
    | cons c cs =>
      by_cases hfound : pattern <+: c :: cs
      · have hlength := List.length_pos_iff.mpr hpattern
        rw [replaceFrom_of_found hfound hpattern] at h
        have hback := infix_of_infix_append hword hapart h
        obtain ⟨hoccurs, hdiff⟩ := ih _ (by rw [← hn]; simp; omega) hback rfl
        exact ⟨hoccurs.trans (List.drop_suffix _ _).isInfix, hdiff⟩
      · rw [replaceFrom_of_not_found hfound] at h
        rcases List.infix_cons_iff.mp h with hprefix | hoccurs
        · -- it is at the start, where the pattern is not
          rw [← replaceFrom_of_not_found hfound] at hprefix
          have hstart := prefix_of_prefix_replaceFrom hreplacement hapart hprefix hpattern
          refine ⟨hstart.isInfix, ?_⟩
          rintro rfl
          exact hfound hstart
        · obtain ⟨hrest, hdiff⟩ := ih _ (by rw [← hn]; simp) hoccurs rfl
          exact ⟨List.infix_cons hrest, hdiff⟩

end LuaTypings.Text
