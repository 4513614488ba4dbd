/-
LuaTypings/Proofs/HostType/Tokens.lean

The tokens of a display string.  No blank is a name character, so what does not start with a
name character never joins what stands in front of it, and the tokens of a text fall apart
there (`tokens_append`).  Read backwards, in front of the first token of a text there are only
blanks (`tokens_eq_cons`), and the tokens hold all characters but the blanks
(`flatMap_chars_tokens`).
-/
import LuaTypings.HostType.Parser
import Mathlib.Data.List.TakeWhile

namespace LuaTypings

namespace Text

/-! ### Blanks -/

/-- A text without its blanks. -/
def dense (cs : List Char) : List Char := cs.filter fun c => !isBlank c

@[simp] theorem dense_append (cs ds : List Char) : dense (cs ++ ds) = dense cs ++ dense ds :=
  List.filter_append ..

/-- What lies in one of the ranges is in the list of all that they hold. -/
theorem mem_of_inRanges {ranges : List (Nat × Nat)} {n : Nat} (h : inRanges ranges n = true) :
    n ∈ ranges.flatMap fun r => List.range' r.1 (r.2 + 1 - r.1) := by
  obtain ⟨r, hr, hn⟩ := List.any_eq_true.mp h
  simp only [Bool.and_eq_true, decide_eq_true_eq] at hn
  exact List.mem_flatMap.mpr ⟨r, hr, List.mem_range'_1.mpr (by omega)⟩

end Text

namespace HostType

open Text (isBlank dense)

/-! ### Names, digits and blanks -/

theorem isNameChar_of_isDigit {c : Char} (h : c.isDigit = true) :
    isNameChar c = true := by
  have hascii : c.toNat < 0x80 := by
    have hle : c.toNat ≤ '9'.toNat := by
      simp only [Char.isDigit, Bool.and_eq_true, decide_eq_true_eq] at h
      exact UInt32.le_iff_toNat_le.mp h.2
    exact Nat.lt_of_le_of_lt hle (by decide)
  simp [isNameChar, Text.isLetterOrNumber, Char.isAlphanum, h, hascii]

theorem isNameChar_of_isBlank {c : Char} (h : isBlank c = true) : isNameChar c = false := by
  -- there are only twenty-five blanks
  have hall : ∀ n ∈ Text.blankRanges.flatMap fun r => List.range' r.1 (r.2 + 1 - r.1),
      isNameChar (Char.ofNat n) = false := by decide +kernel
  have hc := hall c.toNat (Text.mem_of_inRanges h)
  rwa [Char.ofNat_toNat] at hc

theorem not_isBlank_of_isNameChar {c : Char} (h : isNameChar c = true) : isBlank c = false := by
  by_contra hb
  rw [isNameChar_of_isBlank (by simpa using hb)] at h
  cases h

theorem dense_of_names {cs : List Char} (h : ∀ c ∈ cs, isNameChar c = true) : dense cs = cs :=
  List.filter_eq_self.mpr fun c hc => by simp [not_isBlank_of_isNameChar (h c hc)]

/-- A character that is no name character is not in a name. -/
theorem not_mem_of_names {cs : List Char} (h : ∀ d ∈ cs, isNameChar d = true) {c : Char}
    (hc : isNameChar c = false) : c ∉ cs := by
  intro hmem
  rw [h c hmem] at hc
  cases hc

theorem not_mem_of_blanks {cs : List Char} (h : ∀ d ∈ cs, isBlank d = true) {c : Char}
    (hc : isBlank c = false) : c ∉ cs := by
  intro hmem
  rw [h c hmem] at hc
  cases hc

theorem bne_of_not_mem {cs : List Char} {c : Char} (h : c ∉ cs) : ∀ d ∈ cs, (d != c) = true :=
  fun _ hd => bne_iff_ne.mpr (ne_of_mem_of_not_mem hd h)

/-- A text does not start with a name character. -/
def StartsApart (cs : List Char) : Prop := ∀ c ∈ cs.head?, isNameChar c = false

@[simp] theorem startsApart_nil : StartsApart [] := by simp [StartsApart]

@[simp] theorem startsApart_cons {c : Char} {cs : List Char} :
    StartsApart (c :: cs) ↔ isNameChar c = false := by simp [StartsApart]

theorem StartsApart.append {cs ds : List Char} (h : StartsApart cs) (hds : StartsApart ds) :
    StartsApart (cs ++ ds) := by
  cases cs with
  | nil => exact hds
  | cons c cs => exact startsApart_cons.mpr (startsApart_cons.mp h)

/-! ### One token more -/

@[simp] theorem tokens_nil : tokens [] = [] := rfl

theorem tokens_cons_of_blank {c : Char} (h : isBlank c = true) (cs : List Char) :
    tokens (c :: cs) = tokens cs := by
  simp [tokens, isNameChar_of_isBlank h, h]

theorem tokens_cons_of_sign {c : Char} (hn : isNameChar c = false) (hb : isBlank c = false)
    (cs : List Char) : tokens (c :: cs) = .sign c :: tokens cs := by
  simp [tokens, hn, hb]

theorem tokens_cons_of_name {c : Char} (h : isNameChar c = true) {cs : List Char}
    (hcs : StartsApart cs) : tokens (c :: cs) = .name c [] :: tokens cs := by
  cases cs with
  | nil => simp [tokens, h, consName]
  | cons d ds =>
    have hd : isNameChar d = false := startsApart_cons.mp hcs
    rw [tokens, if_pos h, List.head?_cons]
    -- what follows is another token, whichever it is
    rcases tokens (d :: ds) with - | ⟨⟨e, es⟩ | e, ts⟩ <;> simp [consName, hd]

/-- A run of name characters is one token. -/
theorem tokens_name {c : Char} {cs : List Char} (h : ∀ d ∈ c :: cs, isNameChar d = true)
    {rest : List Char} (hrest : StartsApart rest) :
    tokens (c :: cs ++ rest) = .name c cs :: tokens rest := by
  induction cs generalizing c with
  | nil => exact tokens_cons_of_name (h c List.mem_cons_self) hrest
  | cons d ds ih =>
    have hd : isNameChar d = true := h d (by simp)
    have htail := ih fun x hx => h x (List.mem_cons_of_mem _ hx)
    rw [List.cons_append, tokens, if_pos (h c List.mem_cons_self), htail]
    simp [consName, hd]

theorem tokens_of_names {c : Char} {cs : List Char} (h : ∀ d ∈ c :: cs, isNameChar d = true) :
    tokens (c :: cs) = [.name c cs] := by
  have hrun := tokens_name h startsApart_nil
  rwa [List.append_nil, tokens_nil] at hrun

/-! ### All tokens -/

/-- A name character starts a maximal run of name characters. -/
theorem exists_run {c : Char} (h : isNameChar c = true) (cs : List Char) :
    ∃ more rest, cs = more ++ rest ∧ (∀ d ∈ c :: more, isNameChar d = true) ∧ StartsApart rest := by
  refine ⟨cs.takeWhile isNameChar, cs.dropWhile isNameChar,
    List.takeWhile_append_dropWhile.symm, ?_, ?_⟩
  · intro d hd
    rcases List.mem_cons.mp hd with rfl | hd
    · exact h
    · exact List.mem_takeWhile_imp hd
  · intro d hd
    have hnot := List.head?_dropWhile_not isNameChar cs
    rwa [Option.mem_def.mp hd] at hnot

/-- Induction over a text token by token. -/
@[elab_as_elim]
theorem text_induction {motive : List Char → Prop} (nil : motive [])
    (blank : ∀ c cs, isBlank c = true → motive cs → motive (c :: cs))
    (sign : ∀ c cs, isNameChar c = false → isBlank c = false → motive cs → motive (c :: cs))
    (name : ∀ c more rest, (∀ d ∈ c :: more, isNameChar d = true) → StartsApart rest →
      motive rest → motive (c :: more ++ rest)) (cs : List Char) : motive cs := by
  -- a name takes several characters, so the induction is on the length
  induction hn : cs.length using Nat.strongRecOn generalizing cs with
  | _ n ih =>
    cases cs with
    | nil => exact nil
    | cons c cs =>
      rw [List.length_cons] at hn
      by_cases hname : isNameChar c = true
      · obtain ⟨more, rest, rfl, hrun, hrest⟩ := exists_run hname cs
        rw [List.length_append] at hn
        exact name c more rest hrun hrest (ih _ (by omega) rest rfl)
      · rw [Bool.not_eq_true] at hname
        by_cases hblank : isBlank c = true
        · exact blank c cs hblank (ih _ (by omega) cs rfl)
        · rw [Bool.not_eq_true] at hblank
          exact sign c cs hname hblank (ih _ (by omega) cs rfl)

/-- In front of what does not start with a name character, tokens end. -/
theorem tokens_append (cs : List Char) {rest : List Char} (h : StartsApart rest) :
    tokens (cs ++ rest) = tokens cs ++ tokens rest := by
  induction cs using text_induction with
  | nil => rfl
  | blank c cs hc ih =>
    rw [List.cons_append, tokens_cons_of_blank hc, tokens_cons_of_blank hc, ih]
  | sign c cs hn hb ih =>
    rw [List.cons_append, tokens_cons_of_sign hn hb, tokens_cons_of_sign hn hb, ih,
      List.cons_append]
  | name c more cs hrun hcs ih =>
    -- behind the name there stands what stood there before, or the rest
    rw [List.append_assoc, tokens_name hrun (hcs.append h), tokens_name hrun hcs, ih,
      List.cons_append]

theorem tokens_append_sign {c : Char} (hn : isNameChar c = false) (hb : isBlank c = false)
    (front back : List Char) :
    tokens (front ++ c :: back) = tokens front ++ .sign c :: tokens back := by
  rw [tokens_append front (startsApart_cons.mpr hn), tokens_cons_of_sign hn hb]

theorem tokens_blanks_append {gap : List Char} (h : ∀ c ∈ gap, isBlank c = true)
    (cs : List Char) : tokens (gap ++ cs) = tokens cs := by
  induction gap with
  | nil => rfl
  | cons c gap ih =>
    rw [List.cons_append, tokens_cons_of_blank (h c List.mem_cons_self)]
    exact ih fun d hd => h d (List.mem_cons_of_mem c hd)

theorem tokens_of_blanks {gap : List Char} (h : ∀ c ∈ gap, isBlank c = true) :
    tokens gap = [] := by simpa using tokens_blanks_append h []

theorem tokens_append_blanks (cs : List Char) {gap : List Char}
    (h : ∀ c ∈ gap, isBlank c = true) : tokens (cs ++ gap) = tokens cs := by
  have hapart : StartsApart gap := fun c hc => isNameChar_of_isBlank (h c (List.mem_of_mem_head? hc))
  rw [tokens_append cs hapart, tokens_of_blanks h, List.append_nil]

/-- A token as texts have them: names of name characters and signs that are neither name
characters nor blanks. -/
def Token.IsProper : Token → Prop
  | .name first rest => ∀ c ∈ first :: rest, isNameChar c = true
  | .sign c => isNameChar c = false ∧ isBlank c = false

theorem isProper_of_mem_tokens {cs : List Char} {t : Token} (h : t ∈ tokens cs) : t.IsProper := by
  induction cs using text_induction with
  | nil => simp at h
  | blank c cs hc ih =>
    rw [tokens_cons_of_blank hc] at h
    exact ih h
  | sign c cs hn hb ih =>
    rw [tokens_cons_of_sign hn hb] at h
    rcases List.mem_cons.mp h with rfl | h
    · exact ⟨hn, hb⟩
    · exact ih h
  | name c more rest hrun hrest ih =>
    rw [tokens_name hrun hrest] at h
    rcases List.mem_cons.mp h with rfl | h
    · exact hrun
    · exact ih h

/-- The tokens of a text hold all its characters but the blanks. -/
theorem flatMap_chars_tokens (cs : List Char) : (tokens cs).flatMap Token.chars = dense cs := by
  induction cs using text_induction with
  | nil => rfl
  | blank c cs hc ih =>
    rw [tokens_cons_of_blank hc, ih]
    simp [dense, hc]
  | sign c cs hn hb ih =>
    rw [tokens_cons_of_sign hn hb, List.flatMap_cons, ih]
    simp [dense, hb, Token.chars]
  | name c more rest hrun hrest ih =>
    rw [tokens_name hrun hrest, List.flatMap_cons, ih, Text.dense_append, dense_of_names hrun]
    rfl

/-- In front of the first token there are only blanks, and behind a name there is no further
name character. -/
theorem tokens_eq_cons {cs : List Char} {t : Token} {ts : List Token} (h : tokens cs = t :: ts) :
    ∃ gap rest, cs = gap ++ t.chars ++ rest ∧ (∀ c ∈ gap, isBlank c = true) ∧
      tokens rest = ts ∧ ((∃ first more, t = .name first more) → StartsApart rest) := by
  induction cs using text_induction with
  | nil => simp at h
  | blank c cs hc ih =>
    rw [tokens_cons_of_blank hc] at h
    obtain ⟨gap, rest, rfl, hgap, hrest, hapart⟩ := ih h
    refine ⟨c :: gap, rest, rfl, ?_, hrest, hapart⟩
    intro d hd
    rcases List.mem_cons.mp hd with rfl | hd
    · exact hc
    · exact hgap d hd
  | sign c cs hn hb ih =>
    rw [tokens_cons_of_sign hn hb] at h
    obtain ⟨rfl, rfl⟩ := List.cons.inj h
    exact ⟨[], cs, rfl, by simp, rfl, by simp⟩
  | name c more rest hrun hrest ih =>
    rw [tokens_name hrun hrest] at h
    obtain ⟨rfl, rfl⟩ := List.cons.inj h
    exact ⟨[], rest, rfl, by simp, rfl, fun _ => hrest⟩

/-- Where tokens go on with a sign, the text can be cut at that sign. -/
theorem tokens_eq_append_sign {cs : List Char} {c : Char} {us vs : List Token}
    (h : tokens cs = us ++ .sign c :: vs) :
    ∃ front back, cs = front ++ c :: back ∧ tokens front = us ∧ tokens back = vs := by
  induction us generalizing cs with
  | nil =>
    obtain ⟨gap, rest, rfl, hgap, hrest, -⟩ := tokens_eq_cons h
    exact ⟨gap, rest, by simp [Token.chars], tokens_of_blanks hgap, hrest⟩
  | cons u us ih =>
    have hmem : u ∈ tokens cs := by simp [h]
    have hproper : u.IsProper := isProper_of_mem_tokens hmem
    obtain ⟨gap, rest, rfl, hgap, hrest, hapart⟩ := tokens_eq_cons h
    obtain ⟨front, back, rfl, hfront, hback⟩ := ih hrest
    refine ⟨gap ++ u.chars ++ front, back, by simp, ?_, hback⟩
    rw [List.append_assoc, tokens_blanks_append hgap, ← hfront]
    cases u with
    | name first more =>
      have hsplit : StartsApart front := by
        have hall := hapart ⟨first, more, rfl⟩
        cases front with
        | nil => exact startsApart_nil
        | cons d ds => exact startsApart_cons.mpr (startsApart_cons.mp hall)
      exact tokens_name hproper hsplit
    | sign d => exact tokens_cons_of_sign hproper.1 hproper.2 front

/-- A text that is cut at a sign has the tokens in front of that sign. -/
theorem tokens_takeWhile {c : Char} (hn : isNameChar c = false)
    (hb : isBlank c = false) (cs : List Char) :
    tokens (cs.takeWhile (· != c)) = (tokens cs).takeWhile (· != .sign c) := by
  induction cs using text_induction with
  | nil => rfl
  | blank d cs hd ih =>
    have hne : (d != c) = true := by
      rw [bne_iff_ne]
      rintro rfl
      rw [hb] at hd
      cases hd
    rw [List.takeWhile_cons, if_pos hne, tokens_cons_of_blank hd,
      tokens_cons_of_blank hd, ih]
  | sign d cs hdn hdb ih =>
    by_cases hd : d = c
    · subst hd
      rw [tokens_cons_of_sign hdn hdb, List.takeWhile_cons, List.takeWhile_cons]
      simp
    · rw [tokens_cons_of_sign hdn hdb, List.takeWhile_cons, List.takeWhile_cons,
        if_pos (by simpa using hd), if_pos (by simpa using hd),
        tokens_cons_of_sign hdn hdb, ih]
  | name d more rest hrun hrest ih =>
    have hne : ∀ x ∈ d :: more, (x != c) = true := bne_of_not_mem (not_mem_of_names hrun hn)
    have hapart : StartsApart (rest.takeWhile (· != c)) := by
      cases rest with
      | nil => simp
      | cons x xs =>
        rw [List.takeWhile_cons]
        split
        · exact startsApart_cons.mpr (startsApart_cons.mp hrest)
        · simp
    rw [List.takeWhile_append_of_pos hne, tokens_name hrun hapart,
      tokens_name hrun hrest, List.takeWhile_cons, if_pos (by simp), ih]

/-- Every character of a text is a blank or belongs to a token. -/
theorem mem_chars_of_mem {cs : List Char} {c : Char} (h : c ∈ cs) :
    isBlank c = true ∨ ∃ t ∈ tokens cs, c ∈ t.chars := by
  by_cases hb : isBlank c = true
  · exact Or.inl hb
  · have hdense : c ∈ Text.dense cs := List.mem_filter.mpr ⟨h, by simpa using hb⟩
    rw [← flatMap_chars_tokens] at hdense
    exact Or.inr (List.mem_flatMap.mp hdense)

theorem tokens_eq_nil_iff {cs : List Char} : tokens cs = [] ↔ ∀ c ∈ cs, isBlank c = true := by
  constructor
  · intro h c hc
    rcases mem_chars_of_mem hc with hb | ⟨t, ht, -⟩
    · exact hb
    · rw [h] at ht
      cases ht
  · exact tokens_of_blanks

end HostType

end LuaTypings
