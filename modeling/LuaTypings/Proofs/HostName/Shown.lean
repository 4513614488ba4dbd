/-
LuaTypings/Proofs/HostName/Shown.lean

What names show, as laws of whole names.  A bare name has no marks, and a path in Lua has no plus sign
either; names of this kind are left as they are (`bare_eq_self_iff`, `luaPath_eq_self_iff`), so nothing
changes if a name is stripped twice.  Argument lists whose brackets match drop out wherever they stand,
and a namespace without marks stays in front of the name (`bare_inNamespace`, `dotted_inNamespace`).

Main result: `bare_luaPath_laws`.
-/
import LuaTypings.Proofs.HostName.Brackets

namespace LuaTypings.HostName

variable {name base space : String}

/-! ### Names that are left as they are -/

theorem toList_bare (name : String) : (bare name).toList = bareChars name.toList := by
  rw [bare, String.toList_ofList]

theorem toList_dotted (name : String) : (dotted name).toList = name.toList.map dotChar := by
  rw [dotted, String.toList_ofList]

theorem isUnmarked_bare (name : String) : IsUnmarked (bare name) := by
  intro c hc
  rw [toList_bare] at hc
  exact not_isMark_of_mem_bareFrom hc

theorem bare_eq_self_iff : bare name = name ↔ IsUnmarked name := by
  constructor
  · intro h
    rw [← h]
    exact isUnmarked_bare name
  · intro h
    rw [← String.toList_inj, toList_bare]
    exact bareChars_of_unmarked h

theorem dotChar_ne_plus (c : Char) : dotChar c ≠ '+' := by
  unfold dotChar
  split_ifs with h
  · decide
  · exact h

theorem plus_not_mem_dotted (name : String) : '+' ∉ (dotted name).toList := by
  rw [toList_dotted]
  intro hmem
  obtain ⟨c, -, hc⟩ := List.mem_map.mp hmem
  exact dotChar_ne_plus c hc

theorem dotted_eq_self_iff : dotted name = name ↔ '+' ∉ name.toList := by
  constructor
  · intro h
    rw [← h]
    exact plus_not_mem_dotted name
  · intro h
    have hkeep : ∀ c ∈ name.toList, dotChar c = id c := fun c hc =>
      if_neg (ne_of_mem_of_not_mem hc h)
    rw [← String.toList_inj, toList_dotted, List.map_congr_left hkeep, List.map_id]

/-- A dot is no part of a mark. -/
theorem isUnmarked_dotted (h : IsUnmarked name) : IsUnmarked (dotted name) := by
  intro x hx
  rw [toList_dotted] at hx
  obtain ⟨c, hc, rfl⟩ := List.mem_map.mp hx
  unfold dotChar
  split_ifs
  · decide
  · exact h c hc

theorem isUnmarked_luaPath (name : String) : IsUnmarked (luaPath name) :=
  isUnmarked_dotted (isUnmarked_bare name)

theorem luaPath_eq_self_iff : luaPath name = name ↔ IsUnmarked name ∧ '+' ∉ name.toList := by
  constructor
  · intro h
    rw [← h]
    exact ⟨isUnmarked_luaPath name, plus_not_mem_dotted (bare name)⟩
  · rintro ⟨hmark, hplus⟩
    rw [luaPath, bare_eq_self_iff.mpr hmark, dotted_eq_self_iff.mpr hplus]

/-! ### Parts of names -/

theorem bare_arguments {arguments : String} (hbase : IsUnmarked base)
    (h : IsWellBracketed arguments.toList) (rest : String) :
    bare (base ++ "<" ++ arguments ++ ">" ++ rest) = base ++ bare rest := by
  have hopen : "<".toList = ['<'] := rfl
  have hclose : ">".toList = ['>'] := rfl
  apply String.toList_inj.mp
  rw [String.toList_append, toList_bare, toList_bare, ← bareChars_arguments hbase h]
  simp only [String.toList_append, hopen, hclose, List.append_assoc,
    List.cons_append, List.nil_append]

theorem bare_inNamespace (h : IsUnmarked space) (name : String) :
    bare (inNamespace space name) = inNamespace space (bare name) := by
  -- no bracket is open where the name begins, so the name is read as it is by itself
  have hopen : '<' ∉ space.toList := fun hmem => h _ hmem (Or.inl rfl)
  have hfront : ∀ c ∈ qualifier space, ¬ IsMark c := by
    unfold qualifier
    split_ifs
    · exact List.forall_mem_nil _
    · exact List.forall_mem_append.mpr ⟨h, List.forall_mem_singleton.mpr (by decide)⟩
  apply String.toList_inj.mp
  rw [toList_bare, bareChars_inNamespace hopen, bareChars_of_unmarked hfront, toList_inNamespace,
    toList_bare]

theorem dotted_inNamespace (space name : String) :
    dotted (inNamespace space name) = inNamespace (dotted space) (dotted name) := by
  have hempty : (dotted space).isEmpty = space.isEmpty := by
    rw [Bool.eq_iff_iff, String.isEmpty_iff, String.isEmpty_iff, ← String.toList_eq_nil_iff,
      toList_dotted, List.map_eq_nil_iff, String.toList_eq_nil_iff]
  have hdot : ".".toList.map dotChar = ".".toList := rfl
  apply String.toList_inj.mp
  unfold inNamespace
  rw [hempty]
  split_ifs
  · rfl
  · simp only [toList_dotted, String.toList_append, List.map_append, hdot]

/-- **What names show.**  A bare name has no marks, it is the name itself exactly if that has none, and
it stays as it is.  A path in Lua has no plus sign besides, and stays as it is.  An argument list whose
brackets match is dropped behind a base without marks, and what follows it is treated as a name of its
own.  The path of a name in a namespace without marks is the path of the name in the namespace with
dots for its plus signs. -/
theorem bare_luaPath_laws (name : String) :
    (IsUnmarked (bare name) ∧ (bare name = name ↔ IsUnmarked name) ∧ bare (bare name) = bare name) ∧
    (luaPath (luaPath name) = luaPath name ∧ '+' ∉ (luaPath name).toList) ∧
    (∀ base arguments rest : String, IsUnmarked base → IsWellBracketed arguments.toList →
      bare (base ++ "<" ++ arguments ++ ">" ++ rest) = base ++ bare rest) ∧
    ∀ space : String, IsUnmarked space →
      luaPath (inNamespace space name) = inNamespace (dotted space) (luaPath name) := by
  have hplus : '+' ∉ (luaPath name).toList := plus_not_mem_dotted (bare name)
  refine ⟨⟨isUnmarked_bare name, bare_eq_self_iff, ?_⟩, ⟨?_, hplus⟩, ?_, ?_⟩
  · exact bare_eq_self_iff.mpr (isUnmarked_bare name)
  · exact luaPath_eq_self_iff.mpr ⟨isUnmarked_luaPath name, hplus⟩
  · exact fun base arguments rest hbase h => bare_arguments hbase h rest
  · intro space hspace
    rw [luaPath, bare_inNamespace hspace, dotted_inNamespace, luaPath]

/-- Marks inside of an argument list drop out with it, and one behind it does not take the digits of the
name that follows. -/
theorem bare_luaPath_laws_enumerator :
    (IsUnmarked "Map" ∧ IsWellBracketed "K, List`1<V>".toList ∧
      bare ("Map" ++ "<" ++ "K, List`1<V>" ++ ">" ++ "`12+Enumerator3") = "Map+Enumerator3") ∧
    IsUnmarked "Game+UI" ∧
      luaPath (inNamespace "Game+UI" "`12+Enumerator3") = "Game.UI..Enumerator3" := by
  obtain ⟨-, -, harguments, hspace⟩ := bare_luaPath_laws "`12+Enumerator3"
  have hrest : bare "`12+Enumerator3" = "+Enumerator3" := by decide
  refine ⟨⟨by decide, by decide, ?_⟩, by decide, ?_⟩
  · rw [harguments "Map" "K, List`1<V>" "`12+Enumerator3" (by decide) (by decide), hrest]
    decide
  · rw [hspace "Game+UI" (by decide)]
    decide

end LuaTypings.HostName
