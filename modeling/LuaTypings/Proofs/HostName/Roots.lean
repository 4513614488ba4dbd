/-
LuaTypings/Proofs/HostName/Roots.lean

The first segment of a path.  In Lua it is the first identifier of the name, and a name inside a
namespace has that of the namespace (`rootSegment_luaPath_inNamespace`).  The host's own spelling of
the outermost namespace is the same exactly if it has neither a plus sign nor an arity mark
(`rootSegment_luaPath_iff`).
-/
import LuaTypings.Proofs.HostName.Segments

namespace LuaTypings.HostName

variable {space name : String}

theorem head?_pieces_rootSegment (name : String) :
    (Text.pieces '.' name.toList).head? = some (rootSegment name).toList := by
  rw [Text.pieces_eq_cons, List.head?_cons, rootSegment, String.toList_ofList]

/-- A path is its own first segment exactly if it has no dot. -/
theorem rootSegment_eq_self_iff : rootSegment name = name ↔ '.' ∉ name.toList := by
  rw [← String.toList_inj, rootSegment, String.toList_ofList, List.takeWhile_eq_self_iff]
  constructor
  · intro h hdot
    exact bne_iff_ne.mp (h '.' hdot) rfl
  · intro h c hc
    exact bne_iff_ne.mpr (ne_of_mem_of_not_mem hc h)

theorem not_bracket_of_isPath (h : IsPath name) : '<' ∉ name.toList := fun hmem =>
  absurd ((isName_of_isPath h).2 _ hmem) (by decide)

/-- A path in Lua has a dot where the name has a dot or a plus sign. -/
theorem dot_mem_luaPath_iff (h : IsPath name) :
    '.' ∈ (luaPath name).toList ↔ '.' ∈ name.toList ∨ '+' ∈ name.toList := by
  constructor
  · intro hmem
    obtain ⟨c, hc, hdot⟩ := mem_luaPath hmem
    unfold dotChar at hdot
    split_ifs at hdot with hplus
    · exact .inr (hplus ▸ hc)
    · exact .inl (hdot ▸ hc)
  · -- both signs show, and they show as dots
    have hshown {c : Char} (hc : c ∈ name.toList) (hmark : ¬ IsMark c) (hdigit : c.isDigit = false) :
        dotChar c ∈ (luaPath name).toList := by
      obtain ⟨front, back, hcut⟩ := List.append_of_mem hc
      have hfront : '<' ∉ front := fun hmem =>
        not_bracket_of_isPath h (hcut ▸ List.mem_append_left _ hmem)
      have hmem : dotChar c ∈ (luaPath (String.ofList (front ++ c :: back))).toList :=
        mem_luaPath_of_shown hfront hmark hdigit
      rwa [← hcut, String.ofList_toList] at hmem
    rintro (hdot | hplus)
    · exact hshown hdot (by decide) (by decide)
    · exact hshown hplus (by decide) (by decide)

theorem segments_inNamespace (hspace : space ≠ "") (name : String) :
    segments (inNamespace space name) = segments space ++ segments name := by
  have hcut : (inNamespace space name).toList.map dotChar =
      space.toList.map dotChar ++ '.' :: name.toList.map dotChar := by
    rw [inNamespace, if_neg (by simpa using hspace)]
    simp [dotChar]
  rw [segments, hcut, Text.pieces_append, List.map_append]
  rfl

theorem head?_segments (h : IsPath name) :
    (segments name).head? = some (rootSegment (luaPath name)).toList := by
  rw [← pieces_luaPath h]
  exact head?_pieces_rootSegment _

theorem mem_segments_rootSegment (h : IsPath name) :
    (rootSegment (luaPath name)).toList ∈ segments name :=
  List.mem_of_mem_head? (head?_segments h)

/-- The path of a name in a namespace starts with that of the namespace. -/
theorem rootSegment_luaPath_inNamespace (hne : space ≠ "") (hspace : IsPath space)
    (hname : IsPath name) :
    rootSegment (luaPath (inNamespace space name)) = rootSegment (luaPath space) := by
  have hwhole := head?_segments (isPath_inNamespace (.inr hspace) hname)
  rw [segments_inNamespace hne, List.head?_append, head?_segments hspace, Option.some_or] at hwhole
  exact String.toList_inj.mp (Option.some.inj hwhole).symm

/-- The first segment between dots and plus signs stands at the start of the one between dots. -/
theorem takeWhile_map_dotChar (cs : List Char) :
    (cs.map dotChar).takeWhile (· != '.') =
      ((cs.takeWhile (· != '.')).takeWhile (· != '+')).map dotChar := by
  have hdots : ((· != '.') ∘ dotChar : Char → Bool) = fun c => c != '+' && c != '.' := by
    funext c
    by_cases hplus : c = '+'
    · simp [dotChar, hplus]
    · simp [dotChar, hplus]
  rw [List.takeWhile_map, hdots, List.takeWhile_takeWhile]
  simp only [Bool.decide_and, Bool.decide_eq_true]

/-- The first segment as the host writes it is not empty. -/
theorem rootSegment_ne_empty (h : IsPath name) : rootSegment name ≠ "" := by
  intro hempty
  have hnil : name.toList.takeWhile (· != '.') = [] := by
    have htext := congrArg String.toList hempty
    rwa [rootSegment, String.toList_ofList] at htext
  have hfirst : ([] : List Char) ∈ Text.pieces '.' (name.toList.map dotChar) := by
    rw [Text.pieces_eq_cons, takeWhile_map_dotChar, hnil]
    exact List.mem_cons_self
  exact (h [] hfirst).1 rfl

theorem isName_rootSegment (h : IsPath name) : HostType.IsName (rootSegment name) := by
  refine ⟨mt String.toList_eq_nil_iff.mp (rootSegment_ne_empty h), fun c hc => ?_⟩
  rw [rootSegment, String.toList_ofList] at hc
  exact (isName_of_isPath h).2 c ((List.takeWhile_prefix _).subset hc)

/-- A segment without an arity mark is an identifier. -/
theorem takeWhile_segment {cs : List Char} (h : IsSegment cs) (hmark : arityMark ∉ cs) :
    cs.takeWhile isIdentifierChar = cs := by
  rcases isArity_cases h.2 with hnil | ⟨digits, hdigits, -⟩
  · exact List.takeWhile_eq_self_iff.mpr (List.dropWhile_eq_nil_iff.mp hnil)
  · refine absurd ?_ hmark
    have hmem : arityMark ∈ cs.dropWhile isIdentifierChar := by
      rw [hdigits]
      exact List.mem_cons_self
    exact (List.dropWhile_suffix _).subset hmem

/-- The first segment is the same in Lua exactly if the host writes it without plus sign and arity
mark. -/
theorem rootSegment_luaPath_iff (h : IsPath name) : rootSegment name = rootSegment (luaPath name) ↔
    '+' ∉ (rootSegment name).toList ∧ arityMark ∉ (rootSegment name).toList := by
  constructor
  · intro heq
    have hchars := (mem_segments h (mem_segments_rootSegment h)).2
    rw [← heq] at hchars
    exact ⟨fun hplus => absurd (hchars _ hplus) (by decide),
      fun hmark => absurd (hchars _ hmark) (by decide)⟩
  · rintro ⟨hplus, hmark⟩
    have hroot : (rootSegment name).toList = name.toList.takeWhile (· != '.') := by
      rw [rootSegment, String.toList_ofList]
    -- without plus signs the first pieces are the same
    have hpiece : (name.toList.map dotChar).takeWhile (· != '.') = (rootSegment name).toList := by
      have hsame : (rootSegment name).toList.takeWhile (· != '+') = (rootSegment name).toList :=
        List.takeWhile_eq_self_iff.mpr fun c hc => bne_iff_ne.mpr (ne_of_mem_of_not_mem hc hplus)
      rw [takeWhile_map_dotChar, ← hroot, hsame]
      refine (List.map_congr_left fun c hc => ?_).trans (List.map_id _)
      exact if_neg (ne_of_mem_of_not_mem hc hplus)
    have hsegment : IsSegment (rootSegment name).toList := by
      refine h _ ?_
      rw [Text.pieces_eq_cons, hpiece]
      exact List.mem_cons_self
    have hhead := head?_segments h
    rw [segments, Text.pieces_eq_cons, List.map_cons, List.head?_cons, hpiece,
      takeWhile_segment hsegment hmark] at hhead
    exact String.toList_inj.mp (Option.some.inj hhead)

end LuaTypings.HostName
