/-
LuaTypings/Proofs/HostName/Bare.lean

Names without their marks.  `bareFrom` reads a name from left to right and remembers two
things, the number of open angle brackets and whether it is inside an arity mark.  `stateFrom`
makes this memory explicit, so that a name can be cut anywhere (`bareFrom_append`).

Two facts about the paths of qualified names follow.  The number in the mark of a definition
does not show in its path (`luaPath_definition_count`), and the name of a definition has the
path of the name it is made from exactly if nothing shows behind the first angle bracket of a
name with an arity mark (`luaPath_definition_iff`).
-/
import LuaTypings.HostName
import Mathlib.Data.List.TakeWhile

namespace LuaTypings.HostName

/-! ### Cutting a name -/

/-- What `bareFrom` remembers behind a text: the open brackets, and whether it is inside an
arity mark. -/
def stateFrom (depth : Nat) (inArity : Bool) : List Char → Nat × Bool
  | [] => (depth, inArity)
  | c :: cs =>
    if c = '<' then stateFrom (depth + 1) false cs
    else if c = '>' then stateFrom (depth - 1) false cs
    else if depth ≠ 0 then stateFrom depth false cs
    else if c = arityMark then stateFrom 0 true cs
    else if inArity ∧ c.isDigit then stateFrom 0 true cs
    else stateFrom 0 false cs

theorem bareFrom_append (depth : Nat) (inArity : Bool) (xs ys : List Char) :
    bareFrom depth inArity (xs ++ ys) =
      bareFrom depth inArity xs ++
        bareFrom (stateFrom depth inArity xs).1 (stateFrom depth inArity xs).2 ys := by
  induction xs generalizing depth inArity with
  | nil => rfl
  | cons x xs ih =>
    simp only [List.cons_append, bareFrom, stateFrom]
    split_ifs <;> simp [ih]

theorem stateFrom_append (depth : Nat) (inArity : Bool) (xs ys : List Char) :
    stateFrom depth inArity (xs ++ ys) =
      stateFrom (stateFrom depth inArity xs).1 (stateFrom depth inArity xs).2 ys := by
  induction xs generalizing depth inArity with
  | nil => rfl
  | cons x xs ih =>
    simp only [List.cons_append, stateFrom]
    split_ifs <;> exact ih _ _

/-- Without an opening bracket the depth stays at zero. -/
theorem stateFrom_fst_of_no_bracket (inArity : Bool) {cs : List Char} (h : '<' ∉ cs) :
    (stateFrom 0 inArity cs).1 = 0 := by
  induction cs generalizing inArity with
  | nil => rfl
  | cons c cs ih =>
    obtain ⟨hc, hcs⟩ := not_or.mp (mt List.mem_cons.mpr h)
    simp only [stateFrom, if_neg (Ne.symm hc)]
    split_ifs <;> exact ih _ hcs

/-- An opening bracket ends an arity mark. -/
theorem bareFrom_dropWhile (depth : Nat) (inArity : Bool) (cs : List Char) :
    bareFrom depth inArity (cs.dropWhile (· != '<')) =
      bareFrom depth false (cs.dropWhile (· != '<')) := by
  rcases h : cs.dropWhile (· != '<') with - | ⟨c, rest⟩
  · rfl
  · have hc : (c != '<') = false := by
      have := List.head?_dropWhile_not (· != '<') cs
      rw [h] at this
      simpa using this
    obtain rfl : c = '<' := by simpa using hc
    simp [bareFrom]

/-! ### What is left has no marks -/

/-- The characters of which marks are made. -/
def IsMark (c : Char) : Prop := c = '<' ∨ c = '>' ∨ c = arityMark

instance (c : Char) : Decidable (IsMark c) := inferInstanceAs (Decidable (_ ∨ _))

/-- A name without marks of genericity. -/
def IsUnmarked (name : String) : Prop := ∀ x ∈ name.toList, ¬ IsMark x

instance (name : String) : Decidable (IsUnmarked name) := List.decidableBAll _ _

theorem not_isMark_of_mem_bareFrom {depth : Nat} {inArity : Bool} {cs : List Char} {x : Char}
    (h : x ∈ bareFrom depth inArity cs) : ¬ IsMark x := by
  induction cs generalizing depth inArity with
  | nil => cases h
  | cons c cs ih =>
    simp only [bareFrom] at h
    split_ifs at h with h1 h2 h3 h4 h5
    · exact ih h
    · exact ih h
    · exact ih h
    · exact ih h
    · exact ih h
    · rcases List.mem_cons.mp h with rfl | h
      · simp [IsMark, h1, h2, h4]
      · exact ih h

theorem arityMark_not_mem_bareChars (cs : List Char) : arityMark ∉ bareChars cs := fun h =>
  not_isMark_of_mem_bareFrom h (Or.inr (Or.inr rfl))

theorem bracket_not_mem_bareChars (cs : List Char) : '<' ∉ bareChars cs := fun h =>
  not_isMark_of_mem_bareFrom h (Or.inl rfl)

/-- A text without marks shows completely. -/
theorem bareChars_of_unmarked {cs : List Char} (h : ∀ x ∈ cs, ¬ IsMark x) :
    bareChars cs = cs := by
  unfold bareChars
  induction cs with
  | nil => rfl
  | cons c cs ih =>
    have hc := h c List.mem_cons_self
    simp only [IsMark, not_or] at hc
    simp only [bareFrom, hc, if_false, ne_eq, not_true, Bool.false_eq_true, false_and]
    rw [ih fun x hx => h x (List.mem_cons_of_mem c hx)]

theorem bareChars_bareChars (cs : List Char) : bareChars (bareChars cs) = bareChars cs :=
  bareChars_of_unmarked fun _ => not_isMark_of_mem_bareFrom

/-! ### Names of definitions -/

/-- The arity mark that a bare name of a definition gets. -/
def aritySuffix (count : Nat) : List Char :=
  if count = 0 then [] else arityMark :: Nat.toDigits 10 count

theorem mem_aritySuffix {count : Nat} {c : Char} (h : c ∈ aritySuffix count) :
    c = arityMark ∨ c.isDigit = true := by
  unfold aritySuffix at h
  split_ifs at h
  · cases h
  · rcases List.mem_cons.mp h with h | h
    · exact Or.inl h
    · exact Or.inr (Nat.isDigit_of_mem_toDigits (by decide) (by decide) h)

theorem toList_definition_of_mark {name : String} (h : arityMark ∈ name.toList) (count : Nat) :
    (definition name count).toList = name.toList.takeWhile (· != '<') := by
  rw [definition, if_pos h, String.toList_ofList]

/-- With an arity mark in the name the number of arguments does not count. -/
theorem definition_count {name : String} (h : arityMark ∈ name.toList) (count other : Nat) :
    definition name count = definition name other := by
  rw [definition, definition, if_pos h, if_pos h]

theorem toList_definition_of_no_mark {name : String} (h : arityMark ∉ name.toList)
    (count : Nat) :
    (definition name count).toList = bareChars name.toList ++ aritySuffix count := by
  rw [definition, if_neg h, aritySuffix]
  split_ifs with hc
  · simp [bare]
  · simp [bare]

theorem bracket_not_mem_definition (name : String) (count : Nat) :
    '<' ∉ (definition name count).toList := by
  intro hm
  by_cases h : arityMark ∈ name.toList
  · rw [toList_definition_of_mark h] at hm
    simpa using List.mem_takeWhile_imp hm
  · rw [toList_definition_of_no_mark h] at hm
    rcases List.mem_append.mp hm with hm | hm
    · exact bracket_not_mem_bareChars _ hm
    · rcases mem_aritySuffix hm with he | hdigit
      · exact absurd he (by decide)
      · exact absurd hdigit (by decide)

/-- With an arity mark and no bracket a name is its own definition. -/
theorem definition_eq_self {name : String} (hmark : arityMark ∈ name.toList)
    (hopen : '<' ∉ name.toList) (count : Nat) : definition name count = name := by
  apply String.toList_inj.mp
  rw [toList_definition_of_mark hmark, List.takeWhile_eq_self_iff]
  exact fun c hc => bne_iff_ne.mpr (ne_of_mem_of_not_mem hc hopen)

theorem definition_definition {name : String} {count : Nat}
    (h : arityMark ∈ (definition name count).toList) (other : Nat) :
    definition (definition name count) other = definition name count :=
  definition_eq_self h (bracket_not_mem_definition name count) other

/-! ### Qualified names -/

/-- What stands in front of a name inside a namespace. -/
def qualifier (space : String) : List Char :=
  if space.isEmpty then [] else space.toList ++ ['.']

theorem toList_inNamespace (space name : String) :
    (inNamespace space name).toList = qualifier space ++ name.toList := by
  unfold inNamespace qualifier
  split_ifs <;> simp

theorem inNamespace_right_injective {space name other : String}
    (h : inNamespace space name = inNamespace space other) : name = other := by
  have hl := congrArg String.toList h
  rw [toList_inNamespace, toList_inNamespace] at hl
  exact String.toList_inj.mp (List.append_cancel_left hl)

/-- Behind the dot of a namespace no arity mark is open. -/
theorem stateFrom_qualifier_snd (space : String) :
    (stateFrom 0 false (qualifier space)).2 = false := by
  unfold qualifier
  split_ifs
  · rfl
  · -- the dot ends whatever the namespace left open
    rw [stateFrom_append]
    have hdot : ¬ '.' = arityMark := by decide
    simp only [stateFrom, hdot]
    split_ifs <;> simp_all

theorem stateFrom_qualifier {space : String} (h : '<' ∉ space.toList) :
    stateFrom 0 false (qualifier space) = (0, false) := by
  have hq : '<' ∉ qualifier space := by
    unfold qualifier
    split_ifs
    · exact List.not_mem_nil
    · simpa using h
  exact Prod.ext (stateFrom_fst_of_no_bracket false hq) (stateFrom_qualifier_snd space)

/-! ### Paths of definitions -/

theorem bareFrom_digits {digits : List Char} (h : ∀ c ∈ digits, c.isDigit = true) :
    bareFrom 0 true digits = [] := by
  induction digits with
  | nil => rfl
  | cons c cs ih =>
    have hc := h c List.mem_cons_self
    have hlt : c ≠ '<' := fun e => absurd (e ▸ hc) (by decide)
    have hgt : c ≠ '>' := fun e => absurd (e ▸ hc) (by decide)
    simp only [bareFrom, hlt, hgt, hc, if_false, ne_eq, not_true, and_self, if_true, ite_self]
    exact ih fun x hx => h x (List.mem_cons_of_mem c hx)

/-- Behind an open bracket nothing shows up to the next bracket. -/
theorem bareFrom_open {depth : Nat} (hd : depth ≠ 0) (inArity : Bool) {cs : List Char}
    (h : ∀ c ∈ cs, c ≠ '<' ∧ c ≠ '>') : bareFrom depth inArity cs = [] := by
  induction cs generalizing inArity with
  | nil => rfl
  | cons c cs ih =>
    obtain ⟨hlt, hgt⟩ := h c List.mem_cons_self
    simp only [bareFrom, hlt, hgt, hd, if_false, ne_eq, not_false_eq_true, if_true]
    exact ih false fun x hx => h x (List.mem_cons_of_mem c hx)

/-- An arity mark does not show, whatever stands in front of it. -/
theorem bareFrom_aritySuffix (depth : Nat) (inArity : Bool) (count : Nat) :
    bareFrom depth inArity (aritySuffix count) = [] := by
  by_cases hd : depth = 0
  · subst hd
    unfold aritySuffix
    split_ifs
    · rfl
    · -- the mark itself hides, and then each digit of the number does
      have hlt : ¬ arityMark = '<' := by decide
      have hgt : ¬ arityMark = '>' := by decide
      simp only [bareFrom, hlt, hgt, if_false, ne_eq, not_true, if_true]
      exact bareFrom_digits fun c hc => Nat.isDigit_of_mem_toDigits (by decide) (by decide) hc
  · refine bareFrom_open hd inArity fun c hc => ?_
    rcases mem_aritySuffix hc with rfl | hdigit
    · decide
    · exact ⟨fun e => absurd (e ▸ hdigit) (by decide), fun e => absurd (e ▸ hdigit) (by decide)⟩

theorem toList_luaPath (name : String) :
    (luaPath name).toList = (bareChars name.toList).map dotChar := by
  simp [luaPath, dotted, bare]

/-- The number in the mark of a definition does not show in its path. -/
theorem luaPath_definition_count (space name : String) (count other : Nat) :
    luaPath (inNamespace space (definition name count)) =
      luaPath (inNamespace space (definition name other)) := by
  by_cases h : arityMark ∈ name.toList
  · rw [definition_count h count other]
  · have key : ∀ n, bareChars (inNamespace space (definition name n)).toList =
        bareChars (qualifier space ++ bareChars name.toList) := by
      intro n
      rw [toList_inNamespace, toList_definition_of_no_mark h, ← List.append_assoc, bareChars,
        bareFrom_append, bareFrom_aritySuffix, List.append_nil, ← bareChars]
    apply String.toList_inj.mp
    rw [toList_luaPath, toList_luaPath, key, key]

/-- Nothing shows behind the first angle bracket of a name with an arity mark, so that an
argument list ends it. -/
def EndsWithArguments (name : String) : Prop :=
  arityMark ∈ name.toList → bareChars (name.toList.dropWhile (· != '<')) = []

instance (name : String) : Decidable (EndsWithArguments name) :=
  inferInstanceAs (Decidable (_ → _))

/-- The characters that a qualified name shows, where the namespace leaves no bracket open. -/
theorem bareChars_inNamespace {space : String} (h : '<' ∉ space.toList) (name : String) :
    bareChars (inNamespace space name).toList =
      bareChars (qualifier space) ++ bareChars name.toList := by
  rw [toList_inNamespace, bareChars, bareFrom_append, stateFrom_qualifier h, bareChars, bareChars]

/-- What a name shows is what it shows in front of its first bracket and behind that. -/
theorem bareChars_split (cs : List Char) :
    bareChars cs =
      bareChars (cs.takeWhile (· != '<')) ++ bareChars (cs.dropWhile (· != '<')) := by
  have hopen : '<' ∉ cs.takeWhile (· != '<') := by
    intro hm
    simpa using List.mem_takeWhile_imp hm
  calc bareChars cs
      = bareChars (cs.takeWhile (· != '<') ++ cs.dropWhile (· != '<')) := by
        rw [List.takeWhile_append_dropWhile]
    _ = bareChars (cs.takeWhile (· != '<')) ++ bareChars (cs.dropWhile (· != '<')) := by
        rw [bareChars, bareFrom_append, stateFrom_fst_of_no_bracket false hopen,
          bareFrom_dropWhile, bareChars, bareChars]

/-- The name of a definition keeps the path exactly if nothing shows behind the argument list
that it loses. -/
theorem luaPath_definition_iff {space : String} (h : '<' ∉ space.toList) (name : String)
    (count : Nat) :
    luaPath (inNamespace space (definition name count)) = luaPath (inNamespace space name) ↔
      EndsWithArguments name := by
  rw [← String.toList_inj, toList_luaPath, toList_luaPath, bareChars_inNamespace h,
    bareChars_inNamespace h, List.map_append, List.map_append, List.append_cancel_left_eq]
  by_cases hm : arityMark ∈ name.toList
  · rw [toList_definition_of_mark hm, bareChars_split name.toList, List.map_append]
    simp [EndsWithArguments, hm]
  · -- the definition is the bare name with a mark, and neither adds to what shows
    have hbare : bareChars (definition name count).toList = bareChars name.toList := by
      rw [toList_definition_of_no_mark hm, bareChars, bareFrom_append, bareFrom_aritySuffix,
        List.append_nil]
      exact bareChars_bareChars _
    simp [EndsWithArguments, hm, hbare]

/-! ### What a path shows -/

theorem mem_of_mem_bareFrom {depth : Nat} {inArity : Bool} {cs : List Char} {x : Char}
    (h : x ∈ bareFrom depth inArity cs) : x ∈ cs := by
  induction cs generalizing depth inArity with
  | nil => cases h
  | cons c cs ih =>
    simp only [bareFrom] at h
    split_ifs at h
    · exact List.mem_cons_of_mem c (ih h)
    · exact List.mem_cons_of_mem c (ih h)
    · exact List.mem_cons_of_mem c (ih h)
    · exact List.mem_cons_of_mem c (ih h)
    · exact List.mem_cons_of_mem c (ih h)
    · rcases List.mem_cons.mp h with rfl | h
      · exact List.mem_cons_self
      · exact List.mem_cons_of_mem c (ih h)

/-- A path shows characters of its name, and dots for plus signs. -/
theorem mem_luaPath {name : String} {x : Char} (h : x ∈ (luaPath name).toList) :
    ∃ c ∈ name.toList, x = dotChar c := by
  rw [toList_luaPath] at h
  obtain ⟨c, hc, rfl⟩ := List.mem_map.mp h
  exact ⟨c, mem_of_mem_bareFrom hc, rfl⟩

/-- Behind a text without an opening bracket a character shows that is neither part of a mark
nor a digit. -/
theorem mem_luaPath_of_shown {front back : List Char} {c : Char} (hfront : '<' ∉ front)
    (hmark : ¬ IsMark c) (hdigit : c.isDigit = false) :
    dotChar c ∈ (luaPath (String.ofList (front ++ c :: back))).toList := by
  rw [toList_luaPath, String.toList_ofList]
  apply List.mem_map_of_mem
  rw [bareChars, bareFrom_append, stateFrom_fst_of_no_bracket false hfront]
  apply List.mem_append_right
  obtain ⟨hlt, hgt, harity⟩ : c ≠ '<' ∧ c ≠ '>' ∧ c ≠ arityMark := by
    simpa only [IsMark, not_or] using hmark
  simp [bareFrom, hlt, hgt, harity, hdigit]

end LuaTypings.HostName
