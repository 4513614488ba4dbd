/-
LuaTypings/Proofs/HostType/Suffix.lean

Texts that a type and some suffixes stand for: their tokens are those of the type, and behind
them brackets and marks (`IsSuffix`), where an ampersand counts as an asterisk.  Arrays,
nullable types and pointers only make the suffixes longer (`IsSuffix.cons_mark`,
`IsSuffix.dimensions_append`), so such a text can be taken apart where its name ends
(`exists_rest`) and at its brackets (`exists_sign`), with blanks left and right of both.
-/
import LuaTypings.Proofs.HostType.Grammar

namespace LuaTypings.HostType

open Text (isBlank StartsSolid trimStart)

/-! ### Suffixes -/

/-- Tokens that stand behind a type: array brackets with their commas and marks, and in front
of the brackets only marks. -/
structure IsSuffix (ts : List Token) : Prop where
  signs : ∀ t ∈ ts, t ∈ ['[', ']', ',', '?', '*'].map Token.sign
  marks : ∀ t ∈ ts.takeWhile (· != .sign '['), t ∈ ['?', '*'].map Token.sign

theorem isSuffix_nil : IsSuffix [] := ⟨by simp, by simp⟩

theorem IsSuffix.cons_mark {ts : List Token} (h : IsSuffix ts) {c : Char} (hc : c ∈ ['?', '*']) :
    IsSuffix (.sign c :: ts) := by
  have hsign : c ∈ ['[', ']', ',', '?', '*'] := List.mem_of_mem_drop (show c ∈ List.drop 3 _ from hc)
  have hnot : (Token.sign c != .sign '[') = true := by
    rcases List.mem_cons.mp hc with rfl | hc
    · decide
    · rw [List.mem_singleton.mp hc]
      decide
  constructor
  · intro t ht
    rcases List.mem_cons.mp ht with rfl | ht
    · exact List.mem_map_of_mem hsign
    · exact h.signs t ht
  · intro t ht
    rw [List.takeWhile_cons, if_pos hnot] at ht
    rcases List.mem_cons.mp ht with rfl | ht
    · exact List.mem_map_of_mem hc
    · exact h.marks t ht

theorem IsSuffix.dimensions_append {ts : List Token} (h : IsSuffix ts) (n : Nat) :
    IsSuffix (.sign '[' :: (List.replicate n (.sign ',') ++ [.sign ']']) ++ ts) := by
  constructor
  · intro t ht
    rw [List.cons_append, List.mem_cons, List.append_assoc, List.mem_append, List.mem_append,
      List.mem_singleton] at ht
    rcases ht with rfl | ht | rfl | ht
    · decide
    · rw [List.eq_of_mem_replicate ht]
      decide
    · decide
    · exact h.signs t ht
  · intro t ht
    rw [List.cons_append, List.takeWhile_cons_of_neg (by simp)] at ht
    cases ht

/-! ### Texts of suffixes -/

/-- A text of signs holds the signs, with ampersands for asterisks, and blanks. -/
theorem mem_of_signs {cs signs : List Char} {c : Char} (h : c ∈ cs)
    (hsigns : ∀ t ∈ (tokens cs).map Token.starred, t ∈ signs.map Token.sign) :
    isBlank c = true ∨ starredChar c ∈ signs := by
  rcases mem_chars_of_mem h with hb | ⟨t, ht, hc⟩
  · exact Or.inl hb
  · obtain ⟨d, hd, hsign⟩ := List.mem_map.mp (hsigns _ (List.mem_map_of_mem ht))
    have hchars := chars_starred (isProper_of_mem_tokens ht)
    have hmem : starredChar c ∈ t.chars.map starredChar := List.mem_map_of_mem hc
    rw [← hchars, ← hsign] at hmem
    rw [List.mem_singleton.mp hmem]
    exact Or.inr hd

variable {cs : List Char} {suffix : List Token}

theorem of_mem_suffix (h : (tokens cs).map Token.starred = suffix) (hs : IsSuffix suffix) {c : Char}
    (hc : c ∈ cs) : isBlank c = true ∨ c ∈ ['[', ']', ',', '?', '*', '&'] := by
  rcases mem_of_signs hc (by rw [h]; exact hs.signs) with hb | hsign
  · exact Or.inl hb
  · right
    unfold starredChar at hsign
    split_ifs at hsign with hamp
    · rw [hamp]
      decide
    · exact List.mem_append_left ['&'] hsign

/-- In front of the array brackets there are blanks and suffix marks. -/
theorem of_mem_suffix_front (h : (tokens cs).map Token.starred = suffix) (hs : IsSuffix suffix)
    {c : Char} (hc : c ∈ cs.takeWhile (· != '[')) :
    isBlank c = true ∨ c ∈ ['?', '*', '&'] := by
  have hfront : (tokens (cs.takeWhile (· != '['))).map Token.starred =
      suffix.takeWhile (· != .sign '[') := by
    have hkeep : ∀ t : Token, (t.starred != .sign '[') = (t != .sign '[') := by
      intro t
      unfold Token.starred
      split <;> rfl
    rw [tokens_takeWhile (by decide) (by decide), ← h, List.takeWhile_map]
    congr 2
    funext t
    exact (hkeep t).symm
  rcases mem_of_signs hc (by rw [hfront]; exact hs.marks) with hb | hsign
  · exact Or.inl hb
  · right
    unfold starredChar at hsign
    split_ifs at hsign with hamp
    · rw [hamp]
      decide
    · rcases List.mem_cons.mp hsign with rfl | hsign
      · decide
      · rw [List.mem_singleton.mp hsign]
        decide

/-! ### Names in front -/

theorem eq_of_starred {t : Token} {c : Char} (hc : c ≠ '*') (h : t.starred = .sign c) :
    t = .sign c := by
  unfold Token.starred at h
  split at h
  · exact absurd (Token.sign.inj h).symm hc
  · exact h

/-- Where a text goes on with a sign, it can be cut there. -/
theorem exists_sign {c : Char} (hc : c ≠ '*') {us vs : List Token}
    (h : (tokens cs).map Token.starred = us ++ .sign c :: vs) :
    ∃ front back, cs = front ++ c :: back ∧ (tokens front).map Token.starred = us ∧
      (tokens back).map Token.starred = vs := by
  obtain ⟨front, rest, htokens, rfl, hrest⟩ := List.map_eq_append_iff.mp h
  obtain ⟨t, back, rfl, ht, rfl⟩ := List.map_eq_cons_iff.mp hrest
  rw [eq_of_starred hc ht] at htokens
  obtain ⟨first, last, rfl, rfl, rfl⟩ := tokens_eq_append_sign htokens
  exact ⟨first, last, rfl, rfl, rfl⟩

/-- In front of the first sign of a text there are only blanks. -/
theorem exists_first_sign {c : Char} (hc : c ≠ '*') {ts : List Token}
    (h : (tokens cs).map Token.starred = .sign c :: ts) :
    ∃ gap back, cs = gap ++ c :: back ∧ (∀ d ∈ gap, isBlank d = true) ∧
      (tokens back).map Token.starred = ts := by
  have hsplit : (tokens cs).map Token.starred = [] ++ .sign c :: ts := h
  obtain ⟨gap, back, hcut, hgap, hback⟩ := exists_sign hc hsplit
  exact ⟨gap, back, hcut, tokens_eq_nil_iff.mp (List.map_eq_nil_iff.mp hgap), hback⟩

variable {name : String}

/-- A text without a gap in front whose first token is a name starts with that name. -/
theorem exists_first_name (hcs : StartsSolid cs) {c : Char} {more : List Char}
    (h : (tokens cs).map Token.starred = .name c more :: suffix) :
    ∃ rest, cs = c :: more ++ rest ∧ StartsApart rest ∧
      (tokens rest).map Token.starred = suffix := by
  obtain ⟨t, ts, hcons, ht, hts⟩ := List.map_eq_cons_iff.mp h
  obtain rfl : t = .name c more := by
    unfold Token.starred at ht
    split at ht
    · cases ht
    · exact ht
  obtain ⟨gap, rest, rfl, hgap, hrest, hapart⟩ := tokens_eq_cons hcons
  -- a blank in front would be the first character
  obtain rfl : gap = [] := by
    rcases gap with - | ⟨d, gap⟩
    · rfl
    · have hsolid := hcs d rfl
      rw [hgap d List.mem_cons_self] at hsolid
      cases hsolid
  exact ⟨rest, rfl, hapart ⟨c, more, rfl⟩, by rw [hrest, hts]⟩

theorem exists_rest (hname : IsName name) (hcs : StartsSolid cs)
    (h : (tokens cs).map Token.starred = tokens name.toList ++ suffix) :
    ∃ rest, cs = name.toList ++ rest ∧ StartsApart rest ∧
      (tokens rest).map Token.starred = suffix := by
  obtain ⟨c, more, hchars, htokens⟩ := tokens_of_isName hname
  rw [htokens, List.singleton_append] at h
  rw [hchars]
  exact exists_first_name hcs h

/-! ### What stands behind a name -/

/-- Behind a name no name character stands in front of an opening bracket. -/
theorem exists_behind_name {args : List HostType} (hname : IsName name)
    (hcs : StartsSolid cs) (hs : IsSuffix suffix)
    (h : (tokens cs).map Token.starred = tokens (HostType.named name args).spell ++ suffix) :
    ∃ rest, cs = name.toList ++ rest ∧ StartsApart rest ∧
      StartsApart (trimStart rest) ∧
      ∀ c ∈ (trimStart rest).takeWhile (· != '<'), isNameChar c = false := by
  rcases args with - | ⟨arg, args⟩
  · -- there are only suffixes
    rw [tokens_spell_named] at h
    obtain ⟨rest, rfl, hapart, hrest⟩ := exists_rest hname hcs h
    have hsigns : ['[', ']', ',', '?', '*', '&'].all (fun c => !isNameChar c) = true := by
      decide
    have hplain : ∀ c ∈ trimStart rest, isNameChar c = false := by
      intro c hc
      rcases of_mem_suffix hrest hs ((List.dropWhile_sublist _).subset hc) with hb | hsign
      · exact isNameChar_of_isBlank hb
      · simpa using List.all_eq_true.mp hsigns c hsign
    exact ⟨rest, rfl, hapart, fun c hc => hplain c (List.mem_of_mem_head? hc),
      fun c hc => hplain c ((List.takeWhile_sublist _).subset hc)⟩
  · rw [tokens_spell_generic, List.append_assoc] at h
    obtain ⟨rest, rfl, hapart, hrest⟩ := exists_rest hname hcs h
    obtain ⟨gap, back, rfl, hgap, -⟩ := exists_first_sign (by decide) hrest
    have htrim : trimStart (gap ++ '<' :: back) = '<' :: back := by
      rw [Text.trimStart_of_blanks hgap]
      rfl
    refine ⟨gap ++ '<' :: back, rfl, hapart, ?_, ?_⟩
    · rw [htrim]
      exact startsApart_cons.mpr (by decide)
    · rw [htrim]
      exact List.forall_mem_nil _

theorem tokens_of_argument {arg : HostType}
    (h : (tokens cs).map Token.starred = tokens (HostType.named name [arg]).spell ++ suffix) :
    (tokens cs).map Token.starred =
      tokens name.toList ++ .sign '<' :: (tokens arg.spell ++ .sign '>' :: suffix) := by
  rw [h, tokens_spell_generic, tokens_spellRest_nil]
  simp

end LuaTypings.HostType
