/-
LuaTypings/Proofs/HostName/Segments.lean

Names that are made of identifiers.  Namespaces and nested types are segments between dots and plus
signs, and a segment is an identifier that may have an arity mark with digits behind it.  A display
string of this form is one name (`isName_of_isPath`), with its namespace in front of it too
(`isName_inNamespace`).  Its path in Lua has the identifiers between its dots (`pieces_luaPath`).
-/
import LuaTypings.Proofs.HostName.Bare
import LuaTypings.Proofs.HostType.Grammar
import LuaTypings.Proofs.Text.Pieces

namespace LuaTypings

namespace HostName

/-! ### Segments -/

/-- The characters of identifiers. -/
def isIdentifierChar (c : Char) : Bool := Text.isLetterOrNumber c || c == '_' || c == '@'

/-- Nothing, or an arity mark with digits behind it. -/
def isArity : List Char → Bool
  | [] => true
  | c :: digits => c == arityMark && !digits.isEmpty && digits.all Char.isDigit

theorem isNameChar_of_isIdentifierChar {c : Char} (h : isIdentifierChar c = true) :
    HostType.isNameChar c = true := by
  simp only [isIdentifierChar, Bool.or_eq_true] at h
  simp only [HostType.isNameChar, Bool.or_eq_true]
  tauto

theorem isIdentifierChar_of_isDigit {c : Char} (h : c.isDigit = true) :
    isIdentifierChar c = true := by
  have hname := HostType.isNameChar_of_isDigit h
  have hsigns : c ≠ '.' ∧ c ≠ '+' ∧ c ≠ arityMark := by
    refine ⟨?_, ?_, ?_⟩ <;>
      rintro rfl <;> exact absurd h (by decide)
  simp only [HostType.isNameChar, Bool.or_eq_true, beq_iff_eq] at hname
  simp only [isIdentifierChar, Bool.or_eq_true, beq_iff_eq]
  unfold arityMark at hsigns
  tauto

theorem isArity_cases {cs : List Char} (h : isArity cs = true) :
    cs = [] ∨ ∃ digits, cs = arityMark :: digits ∧ ∀ c ∈ digits, c.isDigit = true := by
  rcases cs with - | ⟨mark, digits⟩
  · exact .inl rfl
  · simp only [isArity, Bool.and_eq_true, beq_iff_eq, List.all_eq_true] at h
    exact .inr ⟨digits, by rw [h.1.1], h.2⟩

/-- An identifier, with or without an arity mark. -/
def IsSegment (cs : List Char) : Prop :=
  cs.takeWhile isIdentifierChar ≠ [] ∧ isArity (cs.dropWhile isIdentifierChar) = true

instance (cs : List Char) : Decidable (IsSegment cs) := inferInstanceAs (Decidable (_ ∧ _))

/-- A name is made of segments, with dots and plus signs between them. -/
def IsPath (name : String) : Prop := ∀ s ∈ Text.pieces '.' (name.toList.map dotChar), IsSegment s

instance (name : String) : Decidable (IsPath name) := List.decidableBAll _ _

theorem isNameChar_of_mem_segment {cs : List Char} (h : IsSegment cs) {c : Char} (hc : c ∈ cs) :
    HostType.isNameChar c = true := by
  rw [← List.takeWhile_append_dropWhile (p := isIdentifierChar) (l := cs)] at hc
  rcases List.mem_append.mp hc with hc | hc
  · exact isNameChar_of_isIdentifierChar (List.mem_takeWhile_imp hc)
  · rcases isArity_cases h.2 with hnil | ⟨digits, hmark, hdigits⟩
    · rw [hnil] at hc
      cases hc
    · rw [hmark] at hc
      rcases List.mem_cons.mp hc with rfl | hc
      · decide
      · exact HostType.isNameChar_of_isDigit (hdigits c hc)

theorem isName_of_isPath {name : String} (h : IsPath name) : HostType.IsName name := by
  refine ⟨fun hnil => ?_, fun c hc => ?_⟩
  · -- the only piece of an empty name is empty
    have hpiece : ([] : List Char) ∈ Text.pieces '.' (name.toList.map dotChar) := by
      rw [hnil]
      exact List.mem_singleton_self _
    exact (h _ hpiece).1 rfl
  · by_cases hplus : c = '+'
    · rw [hplus]
      decide
    · by_cases hdot : c = '.'
      · rw [hdot]
        decide
      · have hmem : c ∈ name.toList.map dotChar := List.mem_map.mpr ⟨c, hc, if_neg hplus⟩
        obtain ⟨s, hs, hcs⟩ := Text.mem_pieces hmem hdot
        exact isNameChar_of_mem_segment (h s hs) hcs

theorem isPath_inNamespace {space name : String} (hspace : space = "" ∨ IsPath space)
    (hname : IsPath name) : IsPath (inNamespace space name) := by
  unfold inNamespace
  split_ifs with hempty
  · exact hname
  · have hfirst := hspace.resolve_left (by simpa using hempty)
    have hcut : (space ++ "." ++ name).toList.map dotChar =
        space.toList.map dotChar ++ '.' :: name.toList.map dotChar := by
      simp [dotChar]
    intro s hs
    rw [hcut, Text.pieces_append] at hs
    rcases List.mem_append.mp hs with hs | hs
    · exact hfirst s hs
    · exact hname s hs

theorem isName_inNamespace {space name : String} (hspace : space = "" ∨ IsPath space)
    (hname : IsPath name) : HostType.IsName (inNamespace space name) :=
  isName_of_isPath (isPath_inNamespace hspace hname)

/-! ### Paths in Lua -/

/-- The identifiers of a name, segment by segment. -/
def segments (name : String) : List (List Char) :=
  (Text.pieces '.' (name.toList.map dotChar)).map (List.takeWhile isIdentifierChar)

theorem bareFrom_map_dotChar (depth : Nat) (inArity : Bool) (cs : List Char) :
    bareFrom depth inArity (cs.map dotChar) = (bareFrom depth inArity cs).map dotChar := by
  induction cs generalizing depth inArity with
  | nil => rfl
  | cons c cs ih =>
    by_cases hplus : c = '+'
    · -- neither a plus sign nor a dot means anything in a mark
      subst hplus
      simp only [List.map_cons, bareFrom, ih]
      split_ifs <;> simp_all [dotChar, arityMark]
    · have hsame : dotChar c = c := if_neg hplus
      simp only [List.map_cons, bareFrom, hsame, ih]
      split_ifs <;> simp [hsame]

/-- A segment shows its identifier. -/
theorem bareChars_segment {cs : List Char} (h : IsSegment cs) :
    bareChars cs = cs.takeWhile isIdentifierChar := by
  have hfront : ∀ c ∈ cs.takeWhile isIdentifierChar, ¬ IsMark c := by
    intro c hc
    have hchar := List.mem_takeWhile_imp hc
    rintro (rfl | rfl | rfl) <;> exact absurd hchar (by decide)
  have hback (inArity : Bool) : bareFrom 0 inArity (cs.dropWhile isIdentifierChar) = [] := by
    rcases isArity_cases h.2 with hnil | ⟨digits, hmark, hdigits⟩
    · rw [hnil, bareFrom]
    · rw [hmark]
      exact bareFrom_digits hdigits
  calc bareChars cs
      = bareFrom 0 false (cs.takeWhile isIdentifierChar ++ cs.dropWhile isIdentifierChar) := by
        rw [List.takeWhile_append_dropWhile, bareChars]
    _ = bareChars (cs.takeWhile isIdentifierChar) := by
        rw [bareFrom_append, stateFrom_fst_of_no_bracket false fun hmem => hfront _ hmem (Or.inl rfl),
          hback, List.append_nil, bareChars]
    _ = cs.takeWhile isIdentifierChar := bareChars_of_unmarked hfront

/-- The pieces of a name without its marks are the identifiers. -/
theorem pieces_bareChars {cs : List Char} (h : ∀ s ∈ Text.pieces '.' cs, IsSegment s) :
    Text.pieces '.' (bareChars cs) =
      (Text.pieces '.' cs).map (List.takeWhile isIdentifierChar) := by
  have hshown {cs : List Char} (hcs : IsSegment cs) : '.' ∉ bareChars cs := by
    rw [bareChars_segment hcs]
    exact fun hmem => absurd (List.mem_takeWhile_imp hmem) (by decide)
  induction cs using Text.pieces_induction '.' with
  | last cs hdot =>
    rw [Text.pieces_of_not_mem hdot] at h ⊢
    have hcs := h cs (List.mem_singleton_self cs)
    rw [Text.pieces_of_not_mem (hshown hcs), bareChars_segment hcs]
    rfl
  | cut front back hdot ih =>
    rw [Text.pieces_append, Text.pieces_of_not_mem hdot] at h ⊢
    obtain ⟨hfront, hback⟩ := List.forall_mem_cons.mp h
    have hopen : '<' ∉ front :=
      fun hmem => absurd (isNameChar_of_mem_segment hfront hmem) (by decide)
    -- the dot ends an arity mark
    have hcut : bareChars (front ++ '.' :: back) = bareChars front ++ '.' :: bareChars back := by
      rw [bareChars, bareFrom_append, stateFrom_fst_of_no_bracket false hopen]
      simp [bareFrom, bareChars, arityMark]
    rw [hcut, Text.pieces_append, Text.pieces_of_not_mem (hshown hfront), bareChars_segment hfront,
      ih hback]
    rfl

/-- The path of a name in Lua has the identifiers between its dots. -/
theorem pieces_luaPath {name : String} (h : IsPath name) :
    Text.pieces '.' (luaPath name).toList = segments name := by
  rw [toList_luaPath, bareChars, ← bareFrom_map_dotChar]
  exact pieces_bareChars h

theorem mem_segments {name : String} (h : IsPath name) {s : List Char} (hs : s ∈ segments name) :
    s ≠ [] ∧ ∀ c ∈ s, isIdentifierChar c = true := by
  obtain ⟨piece, hpiece, rfl⟩ := List.mem_map.mp hs
  exact ⟨(h piece hpiece).1, fun c hc => List.mem_takeWhile_imp hc⟩

theorem isName_luaPath {name : String} (h : IsPath name) : HostType.IsName (luaPath name) := by
  refine ⟨fun hnil => ?_, fun c hc => ?_⟩
  · have hpiece : ([] : List Char) ∈ segments name := by
      rw [← pieces_luaPath h, hnil]
      exact List.mem_singleton_self _
    exact (mem_segments h hpiece).1 rfl
  · by_cases hdot : c = '.'
    · rw [hdot]
      decide
    · obtain ⟨s, hs, hcs⟩ := Text.mem_pieces hc hdot
      rw [pieces_luaPath h] at hs
      exact isNameChar_of_isIdentifierChar ((mem_segments h hs).2 c hcs)

/-- The last segment of a path is the last identifier. -/
theorem getLast?_segments {name : String} (h : IsPath name) :
    (segments name).getLast? = some (localName name).toList := by
  rw [← pieces_luaPath h, Text.getLast?_pieces, localName, String.toList_ofList]
  rfl

theorem localName_mem_segments {name : String} (h : IsPath name) :
    (localName name).toList ∈ segments name :=
  List.mem_of_getLast? (getLast?_segments h)

theorem isName_localName {name : String} (h : IsPath name) : HostType.IsName (localName name) := by
  obtain ⟨hne, hchars⟩ := mem_segments h (localName_mem_segments h)
  exact ⟨hne, fun c hc => isNameChar_of_isIdentifierChar (hchars c hc)⟩

end HostName

end LuaTypings
