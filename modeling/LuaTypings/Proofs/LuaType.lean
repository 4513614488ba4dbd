/-
LuaTypings/Proofs/LuaType.lean

Types of Lua annotations, and how the text of an annotation is read.  A name may have arguments
in angle brackets, a pair of square brackets makes an array of the part in front of it, a bar
stands between two alternatives, and parentheses group.  Square brackets bind more tightly than
the bar.

The reader is a machine with a stack of what is open, as the reader of display strings is; it
takes one character after the other.  `Reads` says that it reads a text wherever the text stands,
and there is one lemma about it for each kind of type.
-/
import LuaTypings.Text.Letter
import Mathlib.Logic.Function.Iterate
import Mathlib.Tactic.SplitIfs

namespace LuaTypings

/-- A type of a Lua annotation. -/
inductive LuaType where
  /-- A name with its arguments. -/
  | named (name : String) (args : List LuaType)
  /-- An array of one dimension. -/
  | array (element : LuaType)
  /-- Two alternatives. -/
  | union (left right : LuaType)
  deriving Repr

namespace LuaType

/-! ### The reader -/

/-- The characters of a name: letters and numbers of any script, and three signs. -/
def isNameChar (c : Char) : Bool := Text.isLetterOrNumber c || c == '_' || c == '.' || c == '@'

/-- What is open around the part that is being read. -/
inductive Frame where
  /-- An argument list: the name in front of it and the arguments so far. -/
  | arguments (name : String) (args : List LuaType)
  /-- A parenthesis. -/
  | group
  /-- A union: the alternatives so far. -/
  | union (left : LuaType)

/-- What has been read of the innermost part. -/
inductive Progress where
  | start
  /-- The characters of a name so far, which an argument list may follow. -/
  | name (cs : List Char)
  /-- A part, which only square brackets can change. -/
  | part (type : LuaType)
  /-- A part and an opening square bracket. -/
  | bracket (element : LuaType)

/-- The state of the reader: the innermost part and what is open around it, innermost first. -/
structure Reading where
  progress : Progress
  frames : List Frame

/-- Joins a part to the alternatives in front of it. -/
def joined (type : LuaType) : List Frame → LuaType × List Frame
  | .union left :: frames => (.union left type, frames)
  | frames => (type, frames)

/-- What a character does behind a part.  All but a square bracket end the part. -/
def afterPart (type : LuaType) (frames : List Frame) (c : Char) : Option Reading :=
  if c = '[' then some ⟨.bracket type, frames⟩
  else match c, joined type frames with
    | '|', (type, frames) => some ⟨.start, .union type :: frames⟩
    | ',', (type, .arguments name args :: frames) =>
      some ⟨.start, .arguments name (args ++ [type]) :: frames⟩
    | '>', (type, .arguments name args :: frames) =>
      some ⟨.part (.named name (args ++ [type])), frames⟩
    | ')', (type, .group :: frames) => some ⟨.part type, frames⟩
    | _, _ => none

/-- Takes one character. -/
def Reading.next (r : Reading) (c : Char) : Option Reading :=
  match r.progress with
  | .start =>
    if c = ' ' then some r
    else if c = '(' then some ⟨.start, .group :: r.frames⟩
    else if isNameChar c then some ⟨.name [c], r.frames⟩
    else none
  | .name cs =>
    if isNameChar c then some ⟨.name (cs ++ [c]), r.frames⟩
    else if c = '<' then some ⟨.start, .arguments (String.ofList cs) [] :: r.frames⟩
    else afterPart (.named (String.ofList cs) []) r.frames c
  | .part type => afterPart type r.frames c
  | .bracket element => if c = ']' then some ⟨.part (.array element), r.frames⟩ else none

/-- The type when the text ends behind a part. -/
def whole (type : LuaType) (frames : List Frame) : Option LuaType :=
  match joined type frames with
  | (type, []) => some type
  | _ => none

/-- What has been read when the text ends. -/
def Reading.finish (r : Reading) : Option LuaType :=
  match r.progress with
  | .name cs => whole (.named (String.ofList cs) []) r.frames
  | .part type => whole type r.frames
  | .start => none
  | .bracket _ => none

/-- Takes the characters one by one. -/
def Reading.run (r : Reading) : List Char → Option LuaType
  | [] => r.finish
  | c :: cs =>
    match r.next c with
    | some r => r.run cs
    | none => none

/-- The type that the text of an annotation denotes. -/
def read (text : String) : Option LuaType := Reading.run ⟨.start, []⟩ text.toList

-- Square brackets bind more tightly than the bar.
example : read "integer|nil[]" =
    some (.union (.named "integer" []) (.array (.named "nil" []))) := by rfl

example : read "(integer|nil)[]" =
    some (.array (.union (.named "integer" []) (.named "nil" []))) := by rfl

/-! ### Runs -/

theorem run_cons {r r' : Reading} {c : Char} (h : r.next c = some r') (cs : List Char) :
    r.run (c :: cs) = r'.run cs := by rw [Reading.run, h]

/-- No alternatives stand in front of the part that is being read. -/
def Settled (frames : List Frame) : Prop := ∀ type, joined type frames = (type, frames)

theorem settled_nil : Settled [] := fun _ => rfl

theorem settled_group (frames : List Frame) : Settled (.group :: frames) := fun _ => rfl

theorem settled_arguments (name : String) (args : List LuaType) (frames : List Frame) :
    Settled (.arguments name args :: frames) := fun _ => rfl

/-- A text does not go on with a name or its arguments. -/
def EndsName (cs : List Char) : Prop := ∀ c ∈ cs.head?, isNameChar c = false ∧ c ≠ '<'

theorem endsName_nil : EndsName [] := by simp [EndsName]

theorem endsName_cons {c : Char} {cs : List Char} :
    EndsName (c :: cs) ↔ isNameChar c = false ∧ c ≠ '<' := by simp [EndsName]

variable {text name : List Char} {type : LuaType}

theorem run_name_append (cs : List Char) (h : ∀ c ∈ name, isNameChar c = true)
    (frames : List Frame) (rest : List Char) :
    Reading.run ⟨.name cs, frames⟩ (name ++ rest) =
      Reading.run ⟨.name (cs ++ name), frames⟩ rest := by
  induction name generalizing cs with
  | nil => rw [List.nil_append, List.append_nil]
  | cons c name ih =>
    have hnext : Reading.next ⟨.name cs, frames⟩ c = some ⟨.name (cs ++ [c]), frames⟩ :=
      if_pos (h c List.mem_cons_self)
    rw [List.cons_append, run_cons hnext, ih _ fun d hd => h d (List.mem_cons_of_mem c hd),
      List.append_assoc, List.singleton_append]

theorem ne_of_isNameChar {c d : Char} (h : isNameChar c = true) (hd : isNameChar d = false) :
    c ≠ d := fun he => by simp [he, hd] at h

/-- A name at the start of a part, up to its end. -/
theorem run_name (hne : name ≠ []) (h : ∀ c ∈ name, isNameChar c = true) (frames : List Frame)
    (rest : List Char) :
    Reading.run ⟨.start, frames⟩ (name ++ rest) = Reading.run ⟨.name name, frames⟩ rest := by
  obtain ⟨c, more, rfl⟩ := List.exists_cons_of_ne_nil hne
  have hc : isNameChar c = true := h c List.mem_cons_self
  have hblank : c ≠ ' ' := ne_of_isNameChar hc (by decide)
  have hopen : c ≠ '(' := ne_of_isNameChar hc (by decide)
  have hnext : Reading.next ⟨.start, frames⟩ c = some ⟨.name [c], frames⟩ := by
    simp only [Reading.next, if_neg hblank, if_neg hopen, if_pos hc]
  rw [List.cons_append, run_cons hnext,
    run_name_append [c] fun d hd => h d (List.mem_cons_of_mem c hd)]
  rfl

/-- A name that has ended is a part. -/
theorem run_name_ended (name : List Char) (frames : List Frame) {rest : List Char}
    (h : EndsName rest) :
    Reading.run ⟨.name name, frames⟩ rest =
      Reading.run ⟨.part (.named (String.ofList name) []), frames⟩ rest := by
  cases rest with
  | nil => rfl
  | cons c rest =>
    obtain ⟨hc, hlt⟩ := endsName_cons.mp h
    have hnext : Reading.next ⟨.name name, frames⟩ c =
        Reading.next ⟨.part (.named (String.ofList name) []), frames⟩ c := by
      simp [Reading.next, hc, hlt]
    rw [Reading.run, Reading.run, hnext]

/-- Pairs of square brackets behind a part. -/
theorem run_brackets (type : LuaType) (frames : List Frame) (n : Nat) (rest : List Char) :
    Reading.run ⟨.part type, frames⟩ ((List.replicate n ['[', ']']).flatten ++ rest) =
      Reading.run ⟨.part (array^[n] type), frames⟩ rest := by
  induction n generalizing type with
  | zero => rfl
  | succ n ih =>
    rw [List.replicate_succ, List.flatten_cons, List.append_assoc, List.cons_append,
      run_cons rfl, List.singleton_append, run_cons rfl, ih]
    rfl

/-! ### What the reader takes -/

/-- The characters besides those of names. -/
def signs : List Char := [' ', '(', ')', '[', ']', '<', '>', ',', '|']

theorem mem_signs_of_afterPart {type : LuaType} {frames : List Frame} {c : Char} {r : Reading}
    (h : afterPart type frames c = some r) : c ∈ signs := by
  unfold afterPart at h
  split at h
  · rename_i hc
    rw [hc]
    decide
  · split at h
    · decide
    · decide
    · decide
    · decide
    · cases h

theorem isNameChar_or_mem_signs {r r' : Reading} {c : Char} (h : r.next c = some r') :
    isNameChar c = true ∨ c ∈ signs := by
  unfold Reading.next at h
  split at h
  · split_ifs at h with hblank hgroup hname
    · exact Or.inr (hblank ▸ by decide)
    · exact Or.inr (hgroup ▸ by decide)
    · exact Or.inl hname
  · split_ifs at h with hname hopen
    · exact Or.inl hname
    · exact Or.inr (hopen ▸ by decide)
    · exact Or.inr (mem_signs_of_afterPart h)
  · exact Or.inr (mem_signs_of_afterPart h)
  · split_ifs at h with hclose
    exact Or.inr (hclose ▸ by decide)

/-- A text that is read has no other characters. -/
theorem isNameChar_or_mem_signs_of_run {cs : List Char} {r : Reading} {type : LuaType}
    (h : r.run cs = some type) : ∀ c ∈ cs, isNameChar c = true ∨ c ∈ signs := by
  induction cs generalizing r with
  | nil => simp
  | cons c cs ih =>
    rw [Reading.run] at h
    split at h
    · rename_i r' hnext
      exact List.forall_mem_cons.mpr ⟨isNameChar_or_mem_signs hnext, ih h⟩
    · cases h

/-! ### Texts of types -/

/-- Whether a type has two alternatives. -/
def isUnion : LuaType → Bool
  | .union _ _ => true
  | _ => false

/-- How far the reader is behind the text of a type. -/
def behind (type : LuaType) (frames : List Frame) : Reading :=
  match type with
  | .union left right => ⟨.part right, .union left :: frames⟩
  | type => ⟨.part type, frames⟩

theorem behind_of_not_isUnion (h : type.isUnion = false) (frames : List Frame) :
    behind type frames = ⟨.part type, frames⟩ := by
  cases type with
  | union left right => cases h
  | named name args => rfl
  | array element => rfl

/-- The reader reads a text as a type, where no alternatives stand in front of it. -/
def Reads (text : List Char) (type : LuaType) : Prop :=
  ∀ frames rest, Settled frames → EndsName rest →
    Reading.run ⟨.start, frames⟩ (text ++ rest) = Reading.run (behind type frames) rest

/-- What ends an alternative behind a type ends the whole type. -/
theorem next_behind {frames : List Frame} (hframes : Settled frames) {c : Char} (hc : c ≠ '[') :
    (behind type frames).next c = afterPart type frames c := by
  cases type with
  | union left right =>
    simp only [behind, Reading.next, afterPart, if_neg hc, hframes _]
    rfl
  | named name args => rfl
  | array element => rfl

theorem Reads.read {text : String} (h : Reads text.toList type) : LuaType.read text = some type := by
  have hrun := h [] [] settled_nil endsName_nil
  rw [List.append_nil] at hrun
  rw [LuaType.read, hrun]
  cases type <;> rfl

theorem reads_name (hne : name ≠ []) (h : ∀ c ∈ name, isNameChar c = true) :
    Reads name (.named (String.ofList name) []) := by
  intro frames rest _ hrest
  rw [run_name hne h, run_name_ended name frames hrest]
  rfl

/-- A character that ends a type. -/
theorem Reads.run_ended (h : Reads text type) {frames : List Frame} (hframes : Settled frames)
    {c : Char} (hc : isNameChar c = false ∧ c ≠ '<') (hne : c ≠ '[') {r : Reading}
    (hr : afterPart type frames c = some r) (rest : List Char) :
    Reading.run ⟨.start, frames⟩ (text ++ c :: rest) = r.run rest := by
  rw [h frames _ hframes (endsName_cons.mpr hc), run_cons ((next_behind hframes hne).trans hr)]

/-- A type in parentheses is a part. -/
theorem Reads.run_group (h : Reads text type) (frames : List Frame) (rest : List Char) :
    Reading.run ⟨.start, frames⟩ ('(' :: (text ++ ')' :: rest)) =
      Reading.run ⟨.part type, frames⟩ rest := by
  rw [run_cons rfl]
  exact h.run_ended (settled_group frames) (by decide) (by decide) rfl rest

theorem isUnion_iterate_array {n : Nat} (h : type.isUnion = false ∨ 1 ≤ n) :
    isUnion (array^[n] type) = false := by
  cases n with
  | zero => simpa using h
  | succ n => rw [Function.iterate_succ_apply']; rfl

theorem endsName_brackets {n : Nat} {rest : List Char} (h : EndsName rest) :
    EndsName ((List.replicate n ['[', ']']).flatten ++ rest) := by
  cases n with
  | zero => exact h
  | succ n => exact endsName_cons.mpr (by decide)

/-- An array of a part. -/
theorem Reads.brackets (h : Reads text type) (hunion : type.isUnion = false) (n : Nat) :
    Reads (text ++ (List.replicate n ['[', ']']).flatten) (array^[n] type) := by
  intro frames rest hframes hrest
  rw [List.append_assoc, h frames _ hframes (endsName_brackets hrest),
    behind_of_not_isUnion hunion, run_brackets,
    behind_of_not_isUnion (isUnion_iterate_array (Or.inl hunion))]

/-- An array of a type in parentheses. -/
theorem Reads.groupBrackets (h : Reads text type) {n : Nat} (hn : 1 ≤ n) :
    Reads ('(' :: (text ++ ')' :: (List.replicate n ['[', ']']).flatten)) (array^[n] type) := by
  intro frames rest _ _
  rw [List.cons_append, List.append_assoc, List.cons_append, h.run_group, run_brackets,
    behind_of_not_isUnion (isUnion_iterate_array (Or.inr hn))]

/-- A union with a name. -/
theorem Reads.union (h : Reads text type) (hunion : type.isUnion = false) (hne : name ≠ [])
    (hname : ∀ c ∈ name, isNameChar c = true) :
    Reads (text ++ '|' :: name) (.union type (.named (String.ofList name) [])) := by
  intro frames rest hframes hrest
  have hbar : Reading.next ⟨.part type, frames⟩ '|' = some ⟨.start, .union type :: frames⟩ := by
    simp [Reading.next, afterPart, hframes type]
  rw [List.append_assoc, List.cons_append,
    h frames _ hframes (endsName_cons.mpr (by decide)), behind_of_not_isUnion hunion,
    run_cons hbar, run_name hne hname, run_name_ended name _ hrest]
  rfl

/-- The arguments of a name, up to the bracket that closes their list. -/
theorem run_arguments {α : Type} {texts : α → List Char} {types : α → LuaType} (name : String)
    (frames : List Frame) (x : α) {xs : List α} (h : ∀ y ∈ x :: xs, Reads (texts y) (types y))
    (done : List LuaType) (rest : List Char) :
    Reading.run ⟨.start, .arguments name done :: frames⟩
        ([',', ' '].intercalate ((x :: xs).map texts) ++ '>' :: rest) =
      Reading.run ⟨.part (.named name (done ++ (x :: xs).map types)), frames⟩ rest := by
  induction xs generalizing x done with
  | nil =>
    rw [List.map_singleton, List.intercalate_singleton]
    exact (h x List.mem_cons_self).run_ended (settled_arguments name done frames) (by decide)
      (by decide) rfl rest
  | cons y ys ih =>
    -- the comma puts the argument behind those that are done, and the blank is skipped
    rw [List.map_cons, List.map_cons, List.intercalate_cons_cons, ← List.map_cons,
      List.append_assoc, List.append_assoc, List.cons_append,
      (h x List.mem_cons_self).run_ended (settled_arguments name done frames) (by decide)
        (by decide) rfl,
      List.singleton_append, run_cons rfl, ih y fun z hz => h z (List.mem_cons_of_mem x hz)]
    simp

/-- A name with arguments. -/
theorem reads_generic {α : Type} {texts : α → List Char} {types : α → LuaType} (hne : name ≠ [])
    (hname : ∀ c ∈ name, isNameChar c = true) (x : α) {xs : List α}
    (h : ∀ y ∈ x :: xs, Reads (texts y) (types y)) :
    Reads (name ++ '<' :: ([',', ' '].intercalate ((x :: xs).map texts) ++ ['>']))
      (.named (String.ofList name) ((x :: xs).map types)) := by
  intro frames rest _ _
  have hopen : Reading.next ⟨.name name, frames⟩ '<' =
      some ⟨.start, .arguments (String.ofList name) [] :: frames⟩ := rfl
  rw [List.append_assoc, run_name hne hname, List.cons_append, run_cons hopen, List.append_assoc,
    List.singleton_append, run_arguments _ _ x h]
  rfl

end LuaType

end LuaTypings
