/-
LuaTypings/Proofs/HostType/Grammar.lean

What the reader of display strings accepts.  A well-formed type has proper names and arrays of
at least one dimension.  The reader gives exactly the well-formed types, and it gives a type
for exactly the texts whose tokens are those of the type's display string, where an ampersand
counts as an asterisk (`parse_eq_ok_iff`).

Soundness is carried by an invariant: what a state of the machine has read (`Reading.read`) is
written down as tokens of display strings, and every token taken is put behind it
(`read_next`).  Completeness is an induction over the type for any tokens behind it
(`run_tokens_spell`).

Main result: `parse_accepts`, the two together for whole display strings.
-/
import LuaTypings.Proofs.HostType.Passing

namespace LuaTypings.HostType

open Text (isBlank dense)

/-! ### Well-formed types -/

/-- A name has name characters and no others. -/
def IsName (name : String) : Prop :=
  name.toList ≠ [] ∧ ∀ c ∈ name.toList, isNameChar c = true

instance (name : String) : Decidable (IsName name) :=
  decidable_of_iff (name.toList ≠ [] ∧ name.toList.all isNameChar = true) (by simp [IsName])

/-- All names of a type are proper names, and all its arrays have a dimension. -/
inductive WellFormed : HostType → Prop
  | named {name args} : IsName name → (∀ a ∈ args, WellFormed a) → WellFormed (.named name args)
  | array {element rank} : WellFormed element → 1 ≤ rank → WellFormed (.array element rank)
  | nullable {inner} : WellFormed inner → WellFormed (.nullable inner)
  | pointer {target} : WellFormed target → WellFormed (.pointer target)

/-! ### Tokens of display strings -/

theorem tokens_spell_generic (name : String) (arg : HostType) (args : List HostType) :
    tokens (spell (.named name (arg :: args))) =
      tokens name.toList ++ .sign '<' :: (tokens (spell arg) ++ tokens (spellRest args)) := by
  have hrest : StartsApart (spellRest args) := by cases args <;> simp [spellRest] <;> decide
  rw [spell, tokens_append_sign (by decide) (by decide), tokens_append _ hrest]

theorem tokens_spellRest_nil : tokens (spellRest []) = [.sign '>'] := by decide

theorem tokens_spellRest_cons (arg : HostType) (args : List HostType) :
    tokens (spellRest (arg :: args)) =
      .sign ',' :: (tokens (spell arg) ++ tokens (spellRest args)) := by
  have hrest : StartsApart (spellRest args) := by cases args <;> simp [spellRest] <;> decide
  rw [spellRest, tokens_cons_of_sign (by decide) (by decide), tokens_cons_of_blank (by decide),
    tokens_append _ hrest]

theorem tokens_commas (n : Nat) :
    tokens (List.replicate n ',' ++ [']']) = List.replicate n (.sign ',') ++ [.sign ']'] := by
  induction n with
  | zero => decide
  | succ n ih =>
    rw [List.replicate_succ, List.cons_append, tokens_cons_of_sign (by decide) (by decide), ih]
    rfl

theorem tokens_spell_array (element : HostType) (rank : Nat) :
    tokens (spell (.array element rank)) =
      tokens (spell element) ++
        .sign '[' :: (List.replicate (rank - 1) (.sign ',') ++ [.sign ']']) := by
  rw [spell, tokens_append_sign (by decide) (by decide), tokens_commas]

theorem tokens_spell_nullable (inner : HostType) :
    tokens (spell (.nullable inner)) = tokens (spell inner) ++ [.sign '?'] := by
  rw [spell, tokens_append_sign (by decide) (by decide), tokens_nil]

theorem tokens_spell_pointer (target : HostType) :
    tokens (spell (.pointer target)) = tokens (spell target) ++ [.sign '*'] := by
  rw [spell, tokens_append_sign (by decide) (by decide), tokens_nil]

/-- The tokens of arguments, each with the comma behind it. -/
def argumentTokens (args : List HostType) : List Token :=
  args.flatMap fun a => tokens (spell a) ++ [.sign ',']

/-- A list of arguments that ends with one more. -/
theorem tokens_spell_arguments (name : String) (args : List HostType) (last : HostType) :
    tokens (spell (.named name (args ++ [last]))) =
      tokens name.toList ++ .sign '<' ::
        (argumentTokens args ++ (tokens (spell last) ++ [.sign '>'])) := by
  have hlist : ∀ (first : HostType) (args : List HostType),
      tokens (spell first) ++ tokens (spellRest (args ++ [last])) =
        argumentTokens (first :: args) ++ (tokens (spell last) ++ [.sign '>']) := by
    intro first args
    induction args generalizing first with
    | nil =>
      rw [List.nil_append, tokens_spellRest_cons, tokens_spellRest_nil]
      simp [argumentTokens]
    | cons arg args ih =>
      rw [List.cons_append, tokens_spellRest_cons, ih arg]
      simp [argumentTokens]
  cases args with
  | nil =>
    rw [List.nil_append, tokens_spell_generic, tokens_spellRest_nil]
    rfl
  | cons first args => rw [List.cons_append, tokens_spell_generic, hlist]

/-! ### What the machine has read -/

/-- An ampersand counts as an asterisk. -/
def Token.starred : Token → Token
  | .sign '&' => .sign '*'
  | t => t

/-- The tokens of an argument list that is being read. -/
def OpenList.read (l : OpenList) : List Token :=
  tokens l.name.toList ++ .sign '<' :: argumentTokens l.args

/-- The tokens of the innermost type as far as it has been read. -/
def Progress.read : Progress → List Token
  | .start => []
  | .named name => tokens name.toList
  | .complete type => tokens (spell type)
  | .ranked element rank =>
    tokens (spell element) ++ .sign '[' :: List.replicate (rank - 1) (.sign ',')

/-- The tokens that have been read. -/
def Reading.read (r : Reading) : List Token :=
  r.enclosing.reverse.flatMap OpenList.read ++ r.progress.read

/-- The types in a state of the machine are well-formed. -/
structure Reading.IsSound (r : Reading) : Prop where
  enclosing : ∀ l ∈ r.enclosing, IsName l.name ∧ ∀ a ∈ l.args, WellFormed a
  named : ∀ name, r.progress = .named name → IsName name
  complete : ∀ type, r.progress = .complete type → WellFormed type
  ranked : ∀ element rank, r.progress = .ranked element rank → WellFormed element ∧ 1 ≤ rank

theorem tokens_spell_named (name : String) :
    tokens (spell (.named name [])) = tokens name.toList := by rw [spell]

/-- Behind a complete type a token is put behind it, and the types stay well-formed. -/
theorem read_afterType {type : HostType} {enclosing : List OpenList} {t : Token} {r : Reading}
    (h : afterType type enclosing t = .ok r) (htype : WellFormed type)
    (hopen : ∀ l ∈ enclosing, IsName l.name ∧ ∀ a ∈ l.args, WellFormed a) :
    r.read = enclosing.reverse.flatMap OpenList.read ++ (tokens (spell type) ++ [t.starred]) ∧
      r.IsSound := by
  unfold afterType at h
  split at h
  · -- an opening square bracket
    cases h
    exact ⟨by simp [Reading.read, Progress.read, Token.starred],
      { enclosing := hopen, named := by simp, complete := by simp, ranked := by simp [htype] }⟩
  · -- a question mark
    cases h
    exact ⟨by simp [Reading.read, Progress.read, Token.starred, tokens_spell_nullable],
      { enclosing := hopen, named := by simp, complete := by simp [WellFormed.nullable htype],
        ranked := by simp }⟩
  · -- an asterisk
    cases h
    exact ⟨by simp [Reading.read, Progress.read, Token.starred, tokens_spell_pointer],
      { enclosing := hopen, named := by simp, complete := by simp [WellFormed.pointer htype],
        ranked := by simp }⟩
  · -- an ampersand
    cases h
    exact ⟨by simp [Reading.read, Progress.read, Token.starred, tokens_spell_pointer],
      { enclosing := hopen, named := by simp, complete := by simp [WellFormed.pointer htype],
        ranked := by simp }⟩
  · -- a comma joins the type to the arguments of the innermost list
    rename_i l ls
    cases h
    obtain ⟨hname, hargs⟩ := hopen l List.mem_cons_self
    have hmore : ∀ a ∈ l.args ++ [type], WellFormed a :=
      List.forall_mem_append.mpr ⟨hargs, List.forall_mem_singleton.mpr htype⟩
    refine ⟨by simp [Reading.read, Progress.read, OpenList.read, argumentTokens, Token.starred], ?_⟩
    refine { enclosing := ?_, named := by simp, complete := by simp, ranked := by simp }
    intro m hm
    rcases List.mem_cons.mp hm with rfl | hm
    · exact ⟨hname, hmore⟩
    · exact hopen m (List.mem_cons_of_mem l hm)
  · -- a closing bracket makes a type of the innermost list
    rename_i l ls
    cases h
    obtain ⟨hname, hargs⟩ := hopen l List.mem_cons_self
    have hmore : ∀ a ∈ l.args ++ [type], WellFormed a :=
      List.forall_mem_append.mpr ⟨hargs, List.forall_mem_singleton.mpr htype⟩
    have hnew : WellFormed (.named l.name (l.args ++ [type])) := .named hname hmore
    refine ⟨by simp [Reading.read, Progress.read, OpenList.read, Token.starred,
      tokens_spell_arguments], ?_⟩
    exact { enclosing := fun m hm => hopen m (List.mem_cons_of_mem l hm), named := by simp,
            complete := by simp [hnew], ranked := by simp }
  · cases h
  · cases h

/-- One token is put behind what has been read, and the types stay well-formed. -/
theorem read_next {r r' : Reading} {t : Token} (h : r.next t = .ok r') (hr : r.IsSound)
    (ht : t.IsProper) : r'.read = r.read ++ [t.starred] ∧ r'.IsSound := by
  obtain ⟨progress, enclosing⟩ := r
  unfold Reading.next at h
  split at h
  · -- a name where one is due
    rename_i first rest hp
    cases h
    obtain rfl : progress = .start := hp
    have htokens : tokens (first :: rest) = [.name first rest] := tokens_of_names ht
    refine ⟨by simp [Reading.read, Progress.read, Token.starred, htokens], ?_⟩
    refine { enclosing := hr.enclosing, named := ?_, complete := by simp, ranked := by simp }
    intro name hname
    obtain rfl := Progress.named.inj hname
    exact ⟨by simp, fun c hc => ht c (by simpa using hc)⟩
  · cases h
  · -- an argument list behind a name
    rename_i name hp
    cases h
    obtain rfl : progress = .named name := hp
    refine ⟨by simp [Reading.read, Progress.read, OpenList.read, argumentTokens, Token.starred], ?_⟩
    refine { enclosing := ?_, named := by simp, complete := by simp, ranked := by simp }
    intro l hl
    rcases List.mem_cons.mp hl with rfl | hl
    · exact ⟨hr.named name rfl, by simp⟩
    · exact hr.enclosing l hl
  · -- anything else behind a name, which is a type without arguments
    rename_i name hp _
    obtain rfl : progress = .named name := hp
    have htype : WellFormed (.named name []) := .named (hr.named name rfl) (by simp)
    obtain ⟨hread, hsound⟩ := read_afterType h htype hr.enclosing
    exact ⟨by rw [hread, tokens_spell_named]; simp [Reading.read, Progress.read], hsound⟩
  · rename_i type hp
    obtain rfl : progress = .complete type := hp
    obtain ⟨hread, hsound⟩ := read_afterType h (hr.complete type rfl) hr.enclosing
    exact ⟨by rw [hread]; simp [Reading.read, Progress.read], hsound⟩
  · -- one more dimension
    rename_i element rank hp
    cases h
    obtain rfl : progress = .ranked element rank := hp
    obtain ⟨helement, hrank⟩ := hr.ranked element rank rfl
    obtain ⟨n, rfl⟩ : ∃ n, rank = n + 1 := ⟨rank - 1, by omega⟩
    refine ⟨by simp [Reading.read, Progress.read, Token.starred, List.replicate_succ'], ?_⟩
    exact { enclosing := hr.enclosing, named := by simp, complete := by simp,
            ranked := by simp [helement] }
  · rename_i element rank hp
    cases h
    obtain rfl : progress = .ranked element rank := hp
    obtain ⟨helement, hrank⟩ := hr.ranked element rank rfl
    refine ⟨by simp [Reading.read, Progress.read, Token.starred, tokens_spell_array], ?_⟩
    exact { enclosing := hr.enclosing, named := by simp,
            complete := by simp [WellFormed.array helement hrank], ranked := by simp }
  · cases h

theorem finish_eq_ok {r : Reading} {type : HostType} (h : r.finish = .ok type)
    (hr : r.IsSound) : WellFormed type ∧ tokens (spell type) = r.read := by
  obtain ⟨progress, enclosing⟩ := r
  unfold Reading.finish at h
  split at h
  · cases h
  · cases h
  · rename_i name hp he
    cases h
    obtain rfl : progress = .named name := hp
    obtain rfl : enclosing = [] := he
    exact ⟨.named (hr.named name rfl) (by simp), by simp [Reading.read, Progress.read, spell]⟩
  · rename_i hp he
    cases h
    obtain rfl : progress = .complete type := hp
    obtain rfl : enclosing = [] := he
    exact ⟨hr.complete type rfl, by simp [Reading.read, Progress.read]⟩
  · cases h

/-- **Soundness.**  A type that the machine gives is well-formed, and its display string has
the tokens that were read and then taken. -/
theorem run_eq_ok {ts : List Token} {r : Reading} {type : HostType} (h : r.run ts = .ok type)
    (hr : r.IsSound) (hts : ∀ t ∈ ts, t.IsProper) :
    WellFormed type ∧ tokens (spell type) = r.read ++ ts.map Token.starred := by
  induction ts generalizing r with
  | nil =>
    rw [List.map_nil, List.append_nil]
    exact finish_eq_ok h hr
  | cons t ts ih =>
    rw [Reading.run] at h
    rcases hnext : r.next t with e | r'
    · rw [hnext] at h
      cases h
    · rw [hnext] at h
      obtain ⟨hread, hsound⟩ := read_next hnext hr (hts t List.mem_cons_self)
      obtain ⟨hwf, htokens⟩ := ih h hsound fun u hu => hts u (List.mem_cons_of_mem t hu)
      exact ⟨hwf, by rw [htokens, hread]; simp⟩

/-! ### What the machine takes -/

theorem run_cons {r r' : Reading} {t : Token} (h : r.next t = .ok r') (ts : List Token) :
    r.run (t :: ts) = r'.run ts := by rw [Reading.run, h]

/-- How far the machine is when it has read all of a type. -/
def Progress.of : HostType → Progress
  | .named name [] => .named name
  | type => .complete type

theorem next_of (type : HostType) (enclosing : List OpenList) {t : Token} (h : t ≠ .sign '<') :
    Reading.next ⟨.of type, enclosing⟩ t = afterType type enclosing t := by
  rcases type with ⟨name, - | ⟨arg, args⟩⟩ | _ | _ | _
  · rcases t with _ | c
    · rfl
    · simp only [Progress.of, Reading.next]
  all_goals rfl

theorem tokens_of_isName {name : String} (h : IsName name) :
    ∃ c cs, name.toList = c :: cs ∧ tokens name.toList = [.name c cs] := by
  obtain ⟨c, cs, hname⟩ := List.exists_cons_of_ne_nil h.1
  exact ⟨c, cs, hname, by rw [hname, tokens_of_names (hname ▸ h.2)]⟩

theorem run_commas (element : HostType) (rank n : Nat) (enclosing : List OpenList)
    (ts : List Token) :
    Reading.run ⟨.ranked element rank, enclosing⟩ (List.replicate n (.sign ',') ++ ts) =
      Reading.run ⟨.ranked element (rank + n), enclosing⟩ ts := by
  induction n generalizing rank with
  | zero => rfl
  | succ n ih =>
    rw [List.replicate_succ, List.cons_append, run_cons rfl, ih, Nat.add_right_comm, Nat.add_assoc]

/-- The machine reads the tokens of a type, whatever stands around it. -/
def Takes (type : HostType) : Prop :=
  ∀ enclosing ts, Reading.run ⟨.start, enclosing⟩ (tokens (spell type) ++ ts) =
    Reading.run ⟨.of type, enclosing⟩ ts

/-- The machine reads arguments, up to the bracket that closes their list. -/
theorem run_arguments (name : String) (enclosing : List OpenList) {arg : HostType}
    {args : List HostType} (h : ∀ a ∈ arg :: args, Takes a) (done : List HostType)
    (ts : List Token) :
    Reading.run ⟨.start, ⟨name, done⟩ :: enclosing⟩
        (tokens (spell arg) ++ (tokens (spellRest args) ++ ts)) =
      Reading.run ⟨.complete (.named name (done ++ arg :: args)), enclosing⟩ ts := by
  induction args generalizing arg done with
  | nil =>
    rw [h arg List.mem_cons_self, tokens_spellRest_nil, List.singleton_append,
      run_cons (next_of arg _ (by decide))]
  | cons next args ih =>
    have htail : ∀ a ∈ next :: args, Takes a := fun a ha => h a (List.mem_cons_of_mem arg ha)
    rw [h arg List.mem_cons_self, tokens_spellRest_cons, List.cons_append,
      run_cons (next_of arg _ (by decide)), List.append_assoc, ih htail]
    simp

/-- **Completeness.**  The machine reads the display string of a well-formed type. -/
theorem WellFormed.takes {type : HostType} (h : WellFormed type) : Takes type := by
  induction h with
  | @named name args hname _ ih =>
    intro enclosing ts
    -- the name is one token, and then there are its arguments if it has some
    obtain ⟨c, cs, hchars, htokens⟩ := tokens_of_isName hname
    have hstart : Reading.next ⟨.start, enclosing⟩ (.name c cs) = .ok ⟨.named name, enclosing⟩ := by
      rw [← String.ofList_toList (s := name), hchars]
      rfl
    cases args with
    | nil => rw [tokens_spell_named, htokens, List.singleton_append, run_cons hstart]; rfl
    | cons arg args =>
      rw [tokens_spell_generic, htokens, List.append_assoc, List.singleton_append,
        run_cons hstart, List.cons_append, run_cons rfl, List.append_assoc,
        run_arguments name enclosing ih []]
      rfl
  | @array element rank _ hrank ih =>
    intro enclosing ts
    rw [tokens_spell_array, List.append_assoc, ih, List.cons_append,
      run_cons (next_of element _ (by decide)), List.append_assoc, run_commas,
      List.singleton_append, show 1 + (rank - 1) = rank by omega]
    rfl
  | @nullable inner _ ih =>
    intro enclosing ts
    rw [tokens_spell_nullable, List.append_assoc, ih, List.singleton_append,
      run_cons (next_of inner _ (by decide))]
    rfl
  | @pointer target _ ih =>
    intro enclosing ts
    rw [tokens_spell_pointer, List.append_assoc, ih, List.singleton_append,
      run_cons (next_of target _ (by decide))]
    rfl

theorem run_tokens_spell {type : HostType} (h : WellFormed type) :
    Reading.run ⟨.start, []⟩ (tokens (spell type)) = .ok type := by
  have hrun := h.takes [] []
  rw [List.append_nil] at hrun
  rw [hrun]
  rcases type with ⟨name, - | ⟨arg, args⟩⟩ | _ | _ | _ <;> rfl

/-- An ampersand does what an asterisk does. -/
theorem next_of_starred {r r' : Reading} {t : Token} (h : r.next t.starred = .ok r') :
    r.next t = .ok r' := by
  unfold Token.starred at h
  split at h
  · obtain ⟨progress, enclosing⟩ := r
    cases progress with
    | start => cases h
    | named name => cases enclosing <;> exact h
    | complete type => cases enclosing <;> exact h
    | ranked element rank => cases h
  · exact h

theorem run_of_starred {ts : List Token} {r : Reading} {type : HostType}
    (h : r.run (ts.map Token.starred) = .ok type) : r.run ts = .ok type := by
  induction ts generalizing r with
  | nil => exact h
  | cons t ts ih =>
    rw [List.map_cons, Reading.run] at h
    rcases hnext : r.next t.starred with e | r'
    · rw [hnext] at h
      cases h
    · rw [hnext] at h
      rw [run_cons (next_of_starred hnext)]
      exact ih h

/-- The reader gives a type for exactly the texts that have the tokens of its display string. -/
theorem parse_eq_ok_iff {display : String} {type : HostType} :
    parse display = .ok type ↔
      WellFormed type ∧ (tokens (typeText display)).map Token.starred = tokens (spell type) := by
  constructor
  · intro h
    have hstart : Reading.IsSound ⟨.start, []⟩ :=
      { enclosing := by simp, named := by simp, complete := by simp, ranked := by simp }
    obtain ⟨hwf, htokens⟩ := run_eq_ok h hstart fun t ht => isProper_of_mem_tokens ht
    exact ⟨hwf, htokens.symm⟩
  · rintro ⟨hwf, htokens⟩
    -- with asterisks for its ampersands the text has the tokens of the display string
    apply run_of_starred
    show Reading.run ⟨.start, []⟩ ((tokens (typeText display)).map Token.starred) = .ok type
    rw [htokens]
    exact run_tokens_spell hwf

/-! ### Display strings -/

/-- A text starts with a name, and neither a name character nor a blank follows it. -/
def StartsWithName (cs : List Char) : Prop :=
  ∃ c more rest, cs = c :: more ++ rest ∧ (∀ d ∈ c :: more, isNameChar d = true) ∧
    StartsApart rest ∧ Text.StartsSolid rest

/-- A suffix changes nothing in front of it. -/
theorem StartsWithName.append {cs suffix : List Char} (h : StartsWithName cs)
    (hapart : StartsApart suffix) (hsolid : Text.StartsSolid suffix) :
    StartsWithName (cs ++ suffix) := by
  obtain ⟨c, more, rest, rfl, hrun, hrest, hfirm⟩ := h
  refine ⟨c, more, rest ++ suffix, List.append_assoc .., hrun, ?_⟩
  -- the suffix follows the name, or what has followed it so far
  cases rest with
  | nil => exact ⟨hapart, hsolid⟩
  | cons d ds => exact ⟨hrest, hfirm⟩

theorem WellFormed.startsWithName {type : HostType} (h : WellFormed type) :
    StartsWithName (spell type) := by
  induction h with
  | @named name args hname _ _ =>
    obtain ⟨c, more, hchars, -⟩ := tokens_of_isName hname
    have hrun : ∀ d ∈ c :: more, isNameChar d = true := hchars ▸ hname.2
    have halone : StartsWithName name.toList :=
      ⟨c, more, [], by rw [hchars, List.append_nil], hrun, startsApart_nil, Text.startsSolid_nil⟩
    cases args with
    | nil => rwa [spell]
    | cons arg args =>
      rw [spell]
      exact halone.append (startsApart_cons.mpr (by decide)) (Text.startsSolid_cons.mpr (by decide))
  | array _ _ ih =>
    rw [spell]
    exact ih.append (startsApart_cons.mpr (by decide)) (Text.startsSolid_cons.mpr (by decide))
  | nullable _ ih =>
    rw [spell]
    exact ih.append (startsApart_cons.mpr (by decide)) (Text.startsSolid_cons.mpr (by decide))
  | pointer _ ih =>
    rw [spell]
    exact ih.append (startsApart_cons.mpr (by decide)) (Text.startsSolid_cons.mpr (by decide))

/-- A display string has nothing in front of its type. -/
theorem WellFormed.typeText_spell {type : HostType} (h : WellFormed type) :
    typeText (String.ofList (spell type)) = spell type := by
  obtain ⟨c, more, rest, htext, hrun, hrest, hsolid⟩ := h.startsWithName
  have hfirst : Text.StartsSolid (spell type) := by
    rw [htext]
    exact startsSolid_name (List.cons_ne_nil c more) hrun rest
  rw [typeText, String.toList_ofList, Text.trimStart_eq_self hfirst, htext]
  -- a passing word would end with a space behind the name
  exact dropWords_of_name (fun _ => id) hrun hrest fun hspace =>
    absurd (hsolid ' ' hspace) (by decide)

/-- The reader gives a type back from its display string. -/
theorem WellFormed.parse_spell {type : HostType} (h : WellFormed type) :
    parse (String.ofList (spell type)) = .ok type := by
  show Reading.run ⟨.start, []⟩ (tokens (typeText (String.ofList (spell type)))) = .ok type
  rw [h.typeText_spell]
  exact run_tokens_spell h

/-- A name is the display string of the type without arguments. -/
theorem parse_of_isName {name : String} (h : IsName name) : parse name = .ok (.named name []) := by
  have hparse := (WellFormed.named h (List.forall_mem_nil _)).parse_spell
  rwa [spell, String.ofList_toList] at hparse

/-- An ampersand counts as an asterisk. -/
def starredChar (c : Char) : Char := if c = '&' then '*' else c

theorem chars_starred {t : Token} (h : t.IsProper) : t.starred.chars = t.chars.map starredChar := by
  rcases t with ⟨first, rest⟩ | c
  · -- no name holds an ampersand
    have hkeep : ∀ d ∈ first :: rest, starredChar d = id d := by
      intro d hd
      rw [starredChar, if_neg]
      · rfl
      · rintro rfl
        exact absurd (h _ hd) (by decide)
    show first :: rest = (first :: rest).map starredChar
    rw [List.map_congr_left hkeep, List.map_id]
  · by_cases hc : c = '&'
    · subst hc
      rfl
    · have hsign : Token.starred (.sign c) = .sign c := by
        unfold Token.starred
        split
        · rename_i heq
          exact absurd (Token.sign.inj heq) hc
        · rfl
      simp [hsign, Token.chars, starredChar, hc]

theorem flatMap_chars_starred {ts : List Token} (h : ∀ t ∈ ts, t.IsProper) :
    (ts.map Token.starred).flatMap Token.chars = (ts.flatMap Token.chars).map starredChar := by
  induction ts with
  | nil => rfl
  | cons t ts ih =>
    rw [List.map_cons, List.flatMap_cons, List.flatMap_cons, List.map_append,
      chars_starred (h t List.mem_cons_self), ih fun u hu => h u (List.mem_cons_of_mem t hu)]

/-- **What the reader accepts.**  It reads the display string of every well-formed type and of
no other.  Whatever it reads, the type is well-formed, in front there are blanks and passing
words, each at most once and in order, and the rest is the display string of the type but for
blanks, and for ampersands in the place of asterisks. -/
theorem parse_accepts :
    (∀ type : HostType, parse (String.ofList (spell type)) = .ok type ↔ WellFormed type) ∧
    ∀ (display : String) (type : HostType), parse display = .ok type →
      WellFormed type ∧
      (∃ words front, words.Sublist passingWords ∧ IsPassing words front ∧
        display.toList = front ++ typeText display) ∧
      (dense (typeText display)).map starredChar = dense (spell type) := by
  refine ⟨fun type => ⟨fun h => (parse_eq_ok_iff.mp h).1, fun h => ?_⟩, ?_⟩
  · refine parse_eq_ok_iff.mpr ⟨h, ?_⟩
    -- the machine reads the tokens of the display string, so these are the starred ones
    have hstart : Reading.IsSound ⟨.start, []⟩ :=
      { enclosing := by simp, named := by simp, complete := by simp, ranked := by simp }
    rw [h.typeText_spell]
    exact (run_eq_ok (run_tokens_spell h) hstart fun t => isProper_of_mem_tokens).2.symm
  · intro display type h
    obtain ⟨hwf, htokens⟩ := parse_eq_ok_iff.mp h
    refine ⟨hwf, exists_passing display, ?_⟩
    rw [← flatMap_chars_tokens, ← flatMap_chars_tokens, ← htokens,
      flatMap_chars_starred fun t => isProper_of_mem_tokens]

/-- A display string with a passing word, blanks and an ampersand. -/
theorem parse_accepts_reference :
    parse " ref  Map`2<K , int [ , ]>&" =
      .ok (.pointer (.named "Map`2" [.named "K" [], .array (.named "int" []) 2])) ∧
    (dense (typeText " ref  Map`2<K , int [ , ]>&")).map starredChar =
      "Map`2<K,int[,]>*".toList := by
  have h : parse " ref  Map`2<K , int [ , ]>&" =
      .ok (.pointer (.named "Map`2" [.named "K" [], .array (.named "int" []) 2])) := rfl
  exact ⟨h, (parse_accepts.2 _ _ h).2.2⟩

end LuaTypings.HostType
