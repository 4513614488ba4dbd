/-
LuaTypings/Proofs/UserNames.lean

The user types in an annotation, and which of them a mention makes known.  `userNames` lists the
names that an annotation has below the root table, the root of the type first.  All of them stand
in the annotation (`infix_type`), and only the first one is the base name of a display string
(`rootName_of_head?`).  A mention makes its base name known and no other name (`known_mention`).
So the root is known after a mention, but the names of its arguments need not be.

Main result: `known_userNames`.
-/
import LuaTypings.Proofs.BaseName.Root
import LuaTypings.Proofs.References
import LuaTypings.Proofs.Spelling
import Mathlib.Data.List.Infix

namespace LuaTypings

namespace Spelling

/-! ### Names in an annotation -/

mutual

/-- The names of the user types in an annotation, in their order.  Builtin types and parameters
in scope are none, and a nullable type or a pointer has no name of its own. -/
def userNames (s : Spelling) : HostType → List String
  | .named name [] =>
    if s.scope.contains name || (Builtin.ofHost? name).isSome then [] else [name]
  | .named name [arg] =>
    if isNullableName name then s.userNames arg else name :: s.userNames arg
  | .named name (arg :: args) => name :: (s.userNames arg ++ s.userNamesOf args)
  | .array element _ => s.userNames element
  | .nullable inner => s.userNames inner
  | .pointer _ => []

/-- The names of the user types in several annotations. -/
def userNamesOf (s : Spelling) : List HostType → List String
  | [] => []
  | t :: ts => s.userNames t ++ s.userNamesOf ts

end

variable {s : Spelling} {type : HostType} {name : String}

theorem userNamesOf_eq_flatMap (s : Spelling) (args : List HostType) :
    s.userNamesOf args = args.flatMap s.userNames := by
  induction args with
  | nil => rw [userNamesOf, List.flatMap_nil]
  | cons arg args ih => rw [userNamesOf, List.flatMap_cons, ih]

theorem userNames_generic (s : Spelling) {arg : HostType} {args : List HostType}
    (h : args = [] → isNullableName name = false) :
    s.userNames (.named name (arg :: args)) = name :: (arg :: args).flatMap s.userNames := by
  cases args with
  | nil => simp [userNames, h rfl]
  | cons next args => simp [userNames, userNamesOf_eq_flatMap]

/-! ### Names and text -/

theorem infix_orNil (lua : String) : lua.toList <:+: (orNil lua).toList := by
  unfold orNil
  split_ifs
  · exact List.infix_rfl
  · rw [String.toList_append]
    exact (List.prefix_append ..).isInfix

theorem infix_grouped (lua : String) : lua.toList <:+: (grouped lua).toList := by
  unfold grouped
  split_ifs
  · exact ⟨['('], [')'], by simp⟩
  · exact List.infix_rfl

theorem infix_intercalate {α : Type} (sep : List α) {x : List α} {xs : List (List α)}
    (h : x ∈ xs) : x <:+: sep.intercalate xs := by
  -- the members of a list stand at the even places when it is interspersed
  obtain ⟨i, hi⟩ := List.mem_iff_getElem?.mp h
  have hmem : x ∈ xs.intersperse sep :=
    List.mem_of_getElem? (List.getElem?_intersperse_two_mul.trans hi)
  exact List.infix_of_mem_flatten hmem

/-- The annotation of an argument stands in that of the whole type. -/
theorem infix_generic (path : String) {lua : String} {luas : List String} (h : lua ∈ luas) :
    lua.toList <:+: (path ++ "<" ++ String.intercalate ", " luas ++ ">").toList := by
  have harguments := infix_intercalate ", ".toList (List.mem_map_of_mem (f := String.toList) h)
  refine harguments.trans ⟨path.toList ++ ['<'], ['>'], ?_⟩
  simp [String.toList_intercalate]

/-- The name of a user type stands in the annotation, below the root table. -/
theorem infix_type (h : type.WellFormed) (hname : name ∈ s.userNames type) :
    (s.path name).toList <:+: (s.type type).toList := by
  revert hname
  refine spelling_induction ?simple ?wrapped ?generic ?array ?nullable ?pointer h
  case simple =>
    intro root _ hname
    rw [userNames] at hname
    split_ifs at hname with hnone
    · cases hname
    · obtain ⟨hscope, hbuiltin⟩ : ¬ s.scope.contains root = true ∧ Builtin.ofHost? root = none := by
        simpa using hnone
      rw [List.mem_singleton.mp hname, Spelling.type, simpleName, if_neg hscope, hbuiltin]
  case wrapped =>
    intro root arg hnullable ih hname
    rw [userNames, if_pos hnullable] at hname
    rw [Spelling.type, if_pos hnullable]
    exact (ih hname).trans (infix_orNil _)
  case generic =>
    intro root arg args _ hgeneric ih hname
    rw [userNames_generic s hgeneric] at hname
    rw [type_generic s hgeneric]
    rcases List.mem_cons.mp hname with rfl | hname
    · simp only [String.toList_append, List.append_assoc]
      exact (List.prefix_append ..).isInfix
    · -- the name stands in an argument
      obtain ⟨a, ha, hname⟩ := List.mem_flatMap.mp hname
      exact (ih a ha hname).trans (infix_generic _ (List.mem_map_of_mem ha))
  case array =>
    intro element rank _ ih hname
    rw [userNames] at hname
    rw [Spelling.type, String.toList_append]
    exact (ih hname).trans ((infix_grouped _).trans (List.prefix_append ..).isInfix)
  case nullable =>
    intro inner ih hname
    rw [userNames] at hname
    rw [Spelling.type]
    exact (ih hname).trans (infix_orNil _)
  case pointer =>
    intro target hname
    rw [userNames] at hname
    cases hname

/-- The first user type of an annotation is the root of the type. -/
theorem rootName_of_head? (h : type.WellFormed) (hhead : (s.userNames type).head? = some name) :
    type.rootName = name := by
  revert hhead
  refine spelling_induction ?simple ?wrapped ?generic ?array ?nullable ?pointer h
  case simple =>
    intro root _ hhead
    rw [userNames] at hhead
    split_ifs at hhead
    · cases hhead
    · exact Option.some.inj hhead
  case wrapped =>
    intro root arg hnullable ih hhead
    rw [userNames, if_pos hnullable] at hhead
    rw [HostType.rootName, if_pos hnullable]
    exact ih hhead
  case generic =>
    intro root arg args _ hgeneric _ hhead
    have hroot : (HostType.named root (arg :: args)).rootName = root := by
      cases args with
      | nil => exact HostType.rootName_of_plain (hgeneric rfl) [arg]
      | cons next args => rfl
    rw [userNames_generic s hgeneric] at hhead
    exact hroot.trans (Option.some.inj hhead)
  case array =>
    intro element rank _ ih hhead
    rw [userNames] at hhead
    exact ih hhead
  case nullable =>
    intro inner ih hhead
    rw [userNames] at hhead
    exact ih hhead
  case pointer =>
    intro target hhead
    rw [userNames] at hhead
    cases hhead

end Spelling

namespace References

/-! ### Known names -/

/-- A name is declared, or missing and so gets a stub. -/
def Known (r : References) (name : String) : Prop := name ∈ r.declared ∨ name ∈ r.missing

instance (r : References) (name : String) : Decidable (r.Known name) :=
  inferInstanceAs (Decidable (_ ∨ _))

variable {r : References} {scope : List String} {display name : String}

/-- A mention makes its base name known, unless this is exempt, and no other name. -/
theorem known_mention : (r.mention scope display).Known name ↔
    r.Known name ∨ CallsFor scope display name := by
  rw [Known, Known, declared_mention, mem_missing_mention]
  tauto

end References

namespace BaseName

/-- A display string that denotes a type is a text for this type when it is peeled. -/
theorem tokens_peel_of_parse {display : String} {type : HostType}
    (h : HostType.parse display = .ok type) :
    (HostType.tokens (peel display.toList)).map HostType.Token.starred =
      HostType.tokens type.spell := by
  obtain ⟨htype, htokens⟩ := HostType.parse_eq_ok_iff.mp h
  rw [tokens_peel, htokens]
  -- there is something to peel, because a type starts with a name
  intro hnil
  obtain ⟨c, more, back, hspell, hrun, hback, -⟩ := htype.startsWithName
  rw [hnil, hspell, HostType.tokens_name hrun hback] at htokens
  cases htokens

/-- Where blanks stand behind commas only, the root of a type shows, unless a generic nullable
type on the way has several arguments. -/
theorem baseName_of_blanks {display : String} {type : HostType}
    (h : HostType.parse display = .ok type) (hblanks : BlanksBehindCommas (peel display.toList))
    (hsingle : type.SingleNullables) : baseName display = HostName.luaPath type.rootName := by
  have htype : type.WellFormed := (HostType.parse_eq_ok_iff.mp h).1
  have hsolid : Text.StartsSolid (peel display.toList) :=
    HostType.startsSolid_dropWords _ (Text.startsSolid_trim _)
  have htokens := (tokens_peel_of_parse h).trans (List.append_nil _).symm
  rw [baseName_eq, peeledName_eq_iff htype hsolid HostType.isSuffix_nil htokens]
  exact showsRoot_of_blanks htype hsolid HostType.isSuffix_nil htokens hblanks hsingle

end BaseName

/-! ### Mentions -/

theorem Spelling.eq_type_of_result {s : Spelling} {display lua : String} {type : HostType}
    (h : HostType.parse display = .ok type) (hlua : s.result display = .ok (some lua)) :
    lua = s.type type := by
  unfold Spelling.result Spelling.parse at hlua
  rw [h] at hlua
  split_ifs at hlua
  · cases hlua
  · exact (Option.some.inj (Except.ok.inj hlua)).symm

/-- **The user types that a mention makes known.**  Every user type in the annotation of a
display string stands there below the root table.  After the mention its path is known exactly if
it was known before, or if it is the base name of the display string and not exempt.  So the root
of the type is known if its path is not exempt, blanks stand behind commas only and every generic
nullable type on the way has one argument. -/
theorem known_userNames {s : Spelling} (r : References) {display lua : String} {type : HostType}
    (h : HostType.parse display = .ok type) (hlua : s.result display = .ok (some lua)) :
    (∀ name ∈ s.userNames type,
      (s.path name).toList <:+: lua.toList ∧
      ((r.mention s.scope display).Known (HostName.luaPath name) ↔
        r.Known (HostName.luaPath name) ∨
          References.CallsFor s.scope display (HostName.luaPath name))) ∧
    ∀ name, (s.userNames type).head? = some name →
      References.isExempt s.scope (HostName.luaPath name) = false →
      BaseName.BlanksBehindCommas (BaseName.peel display.toList) → type.SingleNullables →
      (r.mention s.scope display).Known (HostName.luaPath name) := by
  have htype : type.WellFormed := (HostType.parse_eq_ok_iff.mp h).1
  refine ⟨fun name hname => ⟨?_, References.known_mention⟩, ?_⟩
  · rw [Spelling.eq_type_of_result h hlua]
    exact Spelling.infix_type htype hname
  · intro name hhead hexempt hblanks hsingle
    refine References.known_mention.mpr (Or.inr ⟨?_, hexempt⟩)
    rw [BaseName.baseName_of_blanks h hblanks hsingle, Spelling.rootName_of_head? htype hhead]

/-- An array of an optional dictionary, which nobody declares. -/
theorem known_userNames_dictionary :
    (References.mention { declared := ["Item"] } ["T"] "System.Nullable<Dictionary<T, Item>>[]").Known
      "Dictionary" := by
  have h : HostType.parse "System.Nullable<Dictionary<T, Item>>[]" = .ok (.array
      (.named "System.Nullable" [.named "Dictionary" [.named "T" [], .named "Item" []]]) 1) := rfl
  have hlua : Spelling.result ⟨"CS.", ["T"]⟩ "System.Nullable<Dictionary<T, Item>>[]" =
      .ok (some "(CS.Dictionary<T, CS.Item>|nil)[]") := by decide +kernel
  exact (known_userNames { declared := ["Item"] } h hlua).2 "Dictionary" rfl (by decide)
    (by decide) fun _ => rfl

/-- An argument stands in the annotation and is not known, and neither is a generic type with the
name of a builtin one. -/
theorem not_known_userNames :
    (Spelling.result ⟨"CS.", []⟩ "List<Foo>" = .ok (some "CS.List<CS.Foo>") ∧
      HostType.parse "List<Foo>" = .ok (.named "List" [.named "Foo" []]) ∧
      Spelling.userNames ⟨"CS.", []⟩ (.named "List" [.named "Foo" []]) = ["List", "Foo"] ∧
      ¬ (References.mention (.declare {} []) [] "List<Foo>").Known (HostName.luaPath "Foo")) ∧
    Spelling.result ⟨"CS.", []⟩ "Single<int>" = .ok (some "CS.Single<integer>") ∧
      HostType.parse "Single<int>" = .ok (.named "Single" [.named "int" []]) ∧
      Spelling.userNames ⟨"CS.", []⟩ (.named "Single" [.named "int" []]) = ["Single"] ∧
      ¬ (References.mention (.declare {} []) [] "Single<int>").Known (HostName.luaPath "Single") := by
  have hlist : baseName "List<Foo>" = "List" := by
    rw [BaseName.baseName_eq]
    decide
  have hsingle : baseName "Single<int>" = "Single" := by
    rw [BaseName.baseName_eq]
    decide
  refine ⟨⟨by decide +kernel, rfl, by decide +kernel, ?_⟩, by decide +kernel, rfl,
    by decide +kernel, ?_⟩
  · rw [References.known_mention, References.CallsFor, hlist]
    decide
  · rw [References.known_mention, References.CallsFor, hsingle]
    decide

end LuaTypings
