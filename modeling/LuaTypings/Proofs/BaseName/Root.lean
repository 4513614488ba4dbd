/-
LuaTypings/Proofs/BaseName/Root.lean

The base name of a display string against the type that the string denotes.  The base name is
cut out of the text, and the type is read from its tokens, so the two part ways where blanks
matter to the one and not to the other.  `ShowsRoot` says of a type and a text for it when they
do not.

What carries the comparison is a text that a type and some suffixes stand for: arrays, nullable
types and pointers only make the suffixes longer, so what is left are names, without arguments
or with them (`peeledName_of_argument`, `peeledName_of_several`), and names that are lost as
passing words (`peeledName_ne_of_passing`).

Main result: `baseName_of_parse`.
-/
import LuaTypings.Proofs.BaseName.Peeled
import Mathlib.Data.List.Chain

namespace LuaTypings

namespace HostType

/-- The name that a type is built on: arrays, pointers and nullable types lead to what they are
made of. -/
def rootName : HostType → String
  | .named name [arg] => if Spelling.isNullableName name then arg.rootName else name
  | .named name _ => name
  | .array element _ => element.rootName
  | .nullable inner => inner.rootName
  | .pointer target => target.rootName

/-- No generic nullable type on the way to the root has more than one argument. -/
def SingleNullables : HostType → Prop
  | .named _ [] => True
  | .named name [arg] => Spelling.isNullableName name = true → arg.SingleNullables
  | .named name (_ :: _ :: _) => Spelling.isNullableName name = false
  | .array element _ => element.SingleNullables
  | .nullable inner => inner.SingleNullables
  | .pointer target => target.SingleNullables

theorem rootName_of_plain {name : String} (hname : Spelling.isNullableName name = false)
    (args : List HostType) : (HostType.named name args).rootName = name := by
  rcases args with - | ⟨arg, - | ⟨next, args⟩⟩
  · rfl
  · rw [rootName, hname]
    rfl
  · rfl

end HostType

namespace BaseName

open HostType (tokens Token IsName IsSuffix isSuffix_nil)

/-- A text for a type leads to the root of the type. -/
def ShowsRoot : HostType → List Char → Prop
  | .named _ [], cs => MarksTogether cs
  | .named name [arg], cs => Spelling.isNullableName name = true →
      if head cs = name.toList then
        peel (inside cs) = Text.trim (inside cs) ∧ ShowsRoot arg (peel (inside cs))
      else HostName.luaPath arg.rootName = HostName.luaPath name
  | .named name (_ :: _ :: _), cs => Spelling.isNullableName name = true →
      head cs = name.toList →
      HostName.luaPath (String.ofList (root (inside cs))) = HostName.luaPath name
  | .array element _, cs => ShowsRoot element cs
  | .nullable inner, cs => ShowsRoot inner cs
  | .pointer target, cs => ShowsRoot target cs

variable {cs : List Char} {suffix : List Token} {name : String}

/-! ### Lost names -/

/-- A name that is lost as a passing word shows nowhere. -/
theorem peeledName_ne_of_lost (hword : name.toList ++ [' '] ∈ HostType.passingWords)
    (hcs : ∀ c ∈ head cs, HostType.isNameChar c = false) (args : List HostType) :
    peeledName cs ≠ HostName.luaPath (HostType.named name args).rootName := by
  have hall : ∀ word ∈ HostType.passingWords,
      Spelling.isNullableName (String.ofList word.dropLast) = false ∧
      (HostName.luaPath (String.ofList word.dropLast)).toList.any HostType.isNameChar = true := by
    decide
  obtain ⟨hplain, hany⟩ := hall _ hword
  obtain ⟨c, hc, hnamed⟩ := List.any_eq_true.mp hany
  rw [List.dropLast_concat, String.ofList_toList] at hplain hc
  rw [HostType.rootName_of_plain hplain]
  -- the path of the word shows a name character, and the text in front of the bracket has none
  intro heq
  rw [← heq] at hc
  rw [not_isNameChar_of_mem_peeledName hcs hc] at hnamed
  cases hnamed

/-- A type whose name is taken for a passing word does not show its root. -/
theorem peeledName_ne_of_passing {type : HostType} (htype : type.WellFormed)
    (hcs : Text.StartsSolid cs) (hs : IsSuffix suffix)
    (h : (tokens cs).map Token.starred = tokens type.spell ++ suffix)
    (hpassing : HostType.dropPassing cs ≠ cs) :
    peeledName (HostType.dropPassing cs) ≠ HostName.luaPath type.rootName := by
  induction htype generalizing suffix with
  | @array element rank _ _ ih =>
    rw [HostType.tokens_spell_array, List.append_assoc] at h
    exact ih (hs.dimensions_append (rank - 1)) h
  | nullable _ ih =>
    rw [HostType.tokens_spell_nullable, List.append_assoc] at h
    exact ih (hs.cons_mark (by decide)) h
  | pointer _ ih =>
    rw [HostType.tokens_spell_pointer, List.append_assoc] at h
    exact ih (hs.cons_mark (by decide)) h
  | @named name args hname _ _ =>
    obtain ⟨rest, rfl, hapart, hnext, hlost⟩ := HostType.exists_behind_name hname hcs hs h
    rcases HostType.dropWords_cases (fun _ => id) hname.2 hapart hnext with hkeep | ⟨hword, hlose⟩
    · exact absurd hkeep hpassing
    · rw [HostType.dropPassing, hlose]
      exact peeledName_ne_of_lost hword hlost args

/-! ### The root -/

/-- A name with one argument. -/
theorem peeledName_of_argument {arg : HostType} (hname : IsName name) (harg : arg.WellFormed)
    (hcs : Text.StartsSolid cs) (hs : IsSuffix suffix)
    (h : (tokens cs).map Token.starred = tokens (HostType.named name [arg]).spell ++ suffix)
    (ih : ∀ {cs : List Char}, Text.StartsSolid cs →
      (tokens cs).map Token.starred = tokens arg.spell ++ [] →
      (peeledName cs = HostName.luaPath arg.rootName ↔ ShowsRoot arg cs)) :
    peeledName cs = HostName.luaPath (HostType.named name [arg]).rootName ↔
      ShowsRoot (.named name [arg]) cs := by
  obtain ⟨gap, back, -, hgap, hhead, hbetween, hinside⟩ :=
    exists_arguments hname hcs hs (HostType.tokens_of_argument h)
  rw [ShowsRoot, HostType.rootName]
  by_cases hnull : Spelling.isNullableName name = true
  · rw [if_pos hnull]
    by_cases hnone : gap = []
    · -- what counts is the text between the brackets
      rw [hnone, List.append_nil] at hhead
      have htrim : (tokens (Text.trim (inside cs))).map Token.starred = tokens arg.spell ++ [] := by
        rw [HostType.tokens_trim, hinside, List.append_nil]
      have hsolid : Text.StartsSolid (Text.trim (inside cs)) := Text.startsSolid_trim _
      rw [peeledName_of_nullable hhead hnull hbetween, if_pos hhead]
      by_cases hkeep : peel (inside cs) = Text.trim (inside cs)
      · rw [hkeep, ih hsolid htrim]
        simp [hnull]
      · have hne := peeledName_ne_of_passing harg hsolid isSuffix_nil htrim hkeep
        simp only [hnull, hkeep, false_and, imp_false, not_true, iff_false]
        exact hne
    · -- the blank hides the name of the nullable type
      have hother : head cs ≠ name.toList := by
        rw [hhead]
        simpa using hnone
      rw [peeledName_of_plain hname hgap hhead fun hboth => hnone hboth.1, if_neg hother]
      simp only [hnull, true_imp_iff]
      exact eq_comm
  · rw [if_neg hnull, peeledName_of_plain hname hgap hhead fun hboth => hnull hboth.2]
    simp [hnull]

/-- A name with several arguments. -/
theorem peeledName_of_several {arg next : HostType} {args : List HostType} (hname : IsName name)
    (hcs : Text.StartsSolid cs) (hs : IsSuffix suffix)
    (h : (tokens cs).map Token.starred =
      tokens (HostType.named name (arg :: next :: args)).spell ++ suffix) :
    peeledName cs = HostName.luaPath (HostType.named name (arg :: next :: args)).rootName ↔
      ShowsRoot (.named name (arg :: next :: args)) cs := by
  obtain ⟨init, last, hlast⟩ : ∃ init last, arg :: next :: args = init ++ [last] :=
    ⟨_, _, (List.dropLast_append_getLast (List.cons_ne_nil arg _)).symm⟩
  have harguments : (tokens cs).map Token.starred = tokens name.toList ++
      .sign '<' :: (HostType.argumentTokens init ++ tokens last.spell ++ .sign '>' :: suffix) := by
    rw [h, hlast, HostType.tokens_spell_arguments]
    simp
  obtain ⟨gap, back, -, hgap, hhead, hbetween, -⟩ := exists_arguments hname hcs hs harguments
  rw [ShowsRoot, HostType.rootName]
  · by_cases hboth : gap = [] ∧ Spelling.isNullableName name = true
    · obtain ⟨rfl, hnull⟩ := hboth
      rw [List.append_nil] at hhead
      rw [peeledName_of_nullable hhead hnull hbetween, luaPath_root]
      simp [hnull, hhead]
    · have hvoid : Spelling.isNullableName name = true → ¬ head cs = name.toList := by
        intro hnull heq
        rw [hhead] at heq
        exact hboth ⟨by simpa using heq, hnull⟩
      rw [peeledName_of_plain hname hgap hhead hboth]
      exact iff_of_true rfl fun hnull heq => absurd heq (hvoid hnull)
  · -- the equation of the root for several arguments asks that they are not one
    simp

/-- The path that a text for a type shows is that of the root exactly if it leads there. -/
theorem peeledName_eq_iff {type : HostType} (htype : type.WellFormed)
    (hcs : Text.StartsSolid cs) (hs : IsSuffix suffix)
    (h : (tokens cs).map Token.starred = tokens type.spell ++ suffix) :
    peeledName cs = HostName.luaPath type.rootName ↔ ShowsRoot type cs := by
  induction htype generalizing cs suffix with
  | @array element rank _ _ ih =>
    rw [HostType.tokens_spell_array, List.append_assoc] at h
    exact ih hcs (hs.dimensions_append (rank - 1)) h
  | nullable _ ih =>
    rw [HostType.tokens_spell_nullable, List.append_assoc] at h
    exact ih hcs (hs.cons_mark (by decide)) h
  | pointer _ ih =>
    rw [HostType.tokens_spell_pointer, List.append_assoc] at h
    exact ih hcs (hs.cons_mark (by decide)) h
  | @named name args hname hargs ih =>
    rcases args with - | ⟨arg, - | ⟨next, args⟩⟩
    · rw [HostType.tokens_spell_named] at h
      exact peeledName_of_name hname hcs hs h
    · exact peeledName_of_argument hname (hargs arg List.mem_cons_self) hcs hs h
        fun hsolid htokens => ih arg List.mem_cons_self hsolid isSuffix_nil htokens
    · exact peeledName_of_several hname hcs hs h

/-! ### Texts with blanks behind commas only -/

/-- Blanks stand behind commas only. -/
def BlanksBehindCommas (cs : List Char) : Prop :=
  cs.IsChain fun d c => Text.isBlank c = true → d = ','

instance (cs : List Char) : Decidable (BlanksBehindCommas cs) :=
  inferInstanceAs (Decidable (List.IsChain _ _))

/-- In front of the first comma only the first character can be a blank. -/
theorem BlanksBehindCommas.not_isBlank {c : Char} (h : BlanksBehindCommas (c :: cs))
    (hcomma : ',' ∉ c :: cs) {d : Char} (hd : d ∈ cs) : Text.isBlank d = false := by
  induction cs generalizing c with
  | nil => cases hd
  | cons e cs ih =>
    obtain ⟨hstep, htail⟩ := List.isChain_cons_cons.mp h
    obtain ⟨hc, hcs⟩ := not_or.mp (mt List.mem_cons.mpr hcomma)
    rcases List.mem_cons.mp hd with rfl | hd
    · by_contra hb
      exact hc (hstep (by simpa using hb)).symm
    · exact ih htail hcs hd

/-- Behind a name in front there is no blank before the first comma. -/
theorem BlanksBehindCommas.not_isBlank_of_name {front back : List Char}
    (h : BlanksBehindCommas cs) (hcut : cs = name.toList ++ front ++ back)
    (hname : IsName name) (hcomma : ',' ∉ front) {d : Char} (hd : d ∈ front) :
    Text.isBlank d = false := by
  have hall : ',' ∉ name.toList ++ front := by
    rw [List.mem_append, not_or]
    exact ⟨HostType.not_mem_of_names hname.2 (by decide), hcomma⟩
  obtain ⟨c, more, hchars⟩ := List.exists_cons_of_ne_nil hname.1
  rw [hcut, hchars] at h
  rw [hchars] at hall
  exact BlanksBehindCommas.not_isBlank (List.IsChain.left_of_append h) hall
    (List.mem_append_right more hd)

theorem BlanksBehindCommas.trim (h : BlanksBehindCommas cs) : BlanksBehindCommas (Text.trim cs) :=
  List.IsChain.infix h
    ((Text.trimEnd_isPrefix _).isInfix.trans (List.dropWhile_suffix _).isInfix)

/-- Such a text keeps the name that a type starts with. -/
theorem peel_eq_trim {type : HostType} (htype : type.WellFormed)
    (h : (tokens cs).map Token.starred = tokens type.spell)
    (hblanks : BlanksBehindCommas cs) : peel cs = Text.trim cs := by
  obtain ⟨c, more, back, hspell, hrun, hback, -⟩ := htype.startsWithName
  rw [hspell, HostType.tokens_name hrun hback] at h
  have htrim : (tokens (Text.trim cs)).map Token.starred = .name c more :: tokens back := by
    rw [HostType.tokens_trim, h]
  obtain ⟨rest, hrest, hapart, -⟩ := HostType.exists_first_name (Text.startsSolid_trim cs) htrim
  rw [peel, hrest]
  refine HostType.dropWords_of_name (fun _ => id) hrun hapart fun hspace => ?_
  obtain ⟨last, rfl⟩ : ∃ last, rest = ' ' :: last := by
    rcases rest with - | ⟨d, last⟩
    · cases hspace
    · exact ⟨last, by rw [Option.some.inj hspace]⟩
  -- a space behind the first name would be a blank behind a name character
  have hname : IsName (String.ofList (c :: more)) := by
    rw [IsName, String.toList_ofList]
    exact ⟨List.cons_ne_nil c more, hrun⟩
  have hcut : Text.trim cs = (String.ofList (c :: more)).toList ++ [' '] ++ last := by
    rw [String.toList_ofList, hrest, List.append_assoc, List.singleton_append]
  exact absurd (hblanks.trim.not_isBlank_of_name hcut hname (by decide)
    (List.mem_singleton_self ' ')) (by decide)

/-- A name whose suffixes hold no blank has its marks together. -/
theorem marksTogether_of_blanks (hname : IsName name) (hcs : Text.StartsSolid cs)
    (hs : IsSuffix suffix) (h : (tokens cs).map Token.starred = tokens name.toList ++ suffix)
    (hblanks : BlanksBehindCommas cs) : MarksTogether cs := by
  obtain ⟨rest, rfl, -, hrest⟩ := HostType.exists_rest hname hcs h
  have hcomma : ',' ∉ rest.takeWhile (· != '[') := fun hmem => by
    rcases isSuffixMark_of_mem_front hrest hs hmem with hb | hm
    · exact absurd hb (by decide)
    · exact absurd hm (by decide)
  have hcut : name.toList ++ rest =
      name.toList ++ rest.takeWhile (· != '[') ++ rest.dropWhile (· != '[') := by
    rw [List.append_assoc, List.takeWhile_append_dropWhile]
  intro c hc
  rw [takeWhile_name_append hname.2, dropWhile_marks_name hname.2] at hc
  have hmem := (List.dropWhile_sublist _).subset hc
  rcases isSuffixMark_of_mem_front hrest hs hmem with hb | hm
  · rw [hblanks.not_isBlank_of_name hcut hname hcomma hmem] at hb
    cases hb
  · exact hm

/-- Where blanks stand behind commas only, a text leads to the root of its type unless the
nullable types on the way have several arguments. -/
theorem showsRoot_of_blanks {type : HostType} (htype : type.WellFormed)
    (hcs : Text.StartsSolid cs) (hs : IsSuffix suffix)
    (h : (tokens cs).map Token.starred = tokens type.spell ++ suffix)
    (hblanks : BlanksBehindCommas cs) (hsingle : type.SingleNullables) : ShowsRoot type cs := by
  induction htype generalizing cs suffix with
  | @array element rank _ _ ih =>
    rw [HostType.tokens_spell_array, List.append_assoc] at h
    exact ih hcs (hs.dimensions_append (rank - 1)) h hblanks hsingle
  | nullable _ ih =>
    rw [HostType.tokens_spell_nullable, List.append_assoc] at h
    exact ih hcs (hs.cons_mark (by decide)) h hblanks hsingle
  | pointer _ ih =>
    rw [HostType.tokens_spell_pointer, List.append_assoc] at h
    exact ih hcs (hs.cons_mark (by decide)) h hblanks hsingle
  | @named name args hname hargs ih =>
    rcases args with - | ⟨arg, - | ⟨next, args⟩⟩
    · rw [HostType.tokens_spell_named] at h
      exact marksTogether_of_blanks hname hcs hs h hblanks
    · obtain ⟨gap, back, hcut, hgap, hhead, -, hinside⟩ :=
        exists_arguments hname hcs hs (HostType.tokens_of_argument h)
      rw [ShowsRoot]
      intro hnull
      -- there is no gap in front of the bracket, and no passing word behind it
      have hnone : gap = [] := by
        rcases gap with - | ⟨c, gap⟩
        · rfl
        · have hcomma : ',' ∉ c :: gap := HostType.not_mem_of_blanks hgap (by decide)
          have hc := hblanks.not_isBlank_of_name hcut hname hcomma List.mem_cons_self
          rw [hgap c List.mem_cons_self] at hc
          cases hc
      have hinfix : inside cs <:+: cs :=
        ⟨name.toList ++ gap ++ ['<'], '>' :: back, by simpa using hcut.symm⟩
      have hinner : BlanksBehindCommas (inside cs) := List.IsChain.infix hblanks hinfix
      have hpeel := peel_eq_trim (hargs arg List.mem_cons_self) hinside hinner
      have htokens : (tokens (Text.trim (inside cs))).map Token.starred =
          tokens arg.spell ++ [] := by
        rw [HostType.tokens_trim, hinside, List.append_nil]
      rw [hnone, List.append_nil] at hhead
      rw [if_pos hhead, hpeel]
      exact ⟨rfl, ih arg List.mem_cons_self (Text.startsSolid_trim _) isSuffix_nil htokens
        hinner.trim (hsingle hnull)⟩
    · rw [ShowsRoot]
      intro hnull
      rw [HostType.SingleNullables] at hsingle
      rw [hsingle] at hnull
      cases hnull

/-- What is peeled off a display string does not hide tokens of its type. -/
theorem tokens_peel {display : String} (h : HostType.typeText display ≠ []) :
    tokens (peel display.toList) = tokens (HostType.typeText display) := by
  rw [peel, Text.trim, HostType.dropPassing, HostType.dropWords_trimEnd (fun _ => id) h,
    HostType.tokens_trimEnd]
  rfl

end BaseName

/-! ### Display strings -/

/-- **The base name of a display string that denotes a type.**  It is the path of the root of
the type exactly if the text leads there.  It does wherever blanks stand behind commas only and
every generic nullable type on the way to the root has one argument. -/
theorem baseName_of_parse {display : String} {type : HostType}
    (h : HostType.parse display = .ok type) :
    (baseName display = HostName.luaPath type.rootName ↔
      BaseName.ShowsRoot type (BaseName.peel display.toList)) ∧
    (BaseName.BlanksBehindCommas (BaseName.peel display.toList) → type.SingleNullables →
      baseName display = HostName.luaPath type.rootName) := by
  obtain ⟨htype, htokens⟩ := HostType.parse_eq_ok_iff.mp h
  have hne : HostType.typeText display ≠ [] := by
    intro hnil
    obtain ⟨c, more, back, hspell, hrun, hback, -⟩ := htype.startsWithName
    rw [hnil, hspell, HostType.tokens_name hrun hback] at htokens
    cases htokens
  have hpeel : (HostType.tokens (BaseName.peel display.toList)).map HostType.Token.starred =
      HostType.tokens type.spell ++ [] := by
    rw [BaseName.tokens_peel hne, htokens, List.append_nil]
  have hsolid : Text.StartsSolid (BaseName.peel display.toList) :=
    HostType.startsSolid_dropWords _ (Text.startsSolid_trim _)
  have hiff := BaseName.peeledName_eq_iff htype hsolid HostType.isSuffix_nil hpeel
  rw [BaseName.baseName_eq]
  exact ⟨hiff, fun hblanks hsingle => hiff.mpr
    (BaseName.showsRoot_of_blanks htype hsolid HostType.isSuffix_nil hpeel hblanks hsingle)⟩

/-- A nullable generic type behind a passing word and in front of suffixes. -/
theorem baseName_of_parse_nullable :
    HostType.parse "ref System.Nullable\x601<Outer\x602+Inner<int, string>[, ]>?[]&" = .ok
      (.pointer (.array (.nullable (.named "System.Nullable\x601"
        [.array (.named "Outer\x602+Inner" [.named "int" [], .named "string" []]) 2])) 1)) ∧
    baseName "ref System.Nullable\x601<Outer\x602+Inner<int, string>[, ]>?[]&" = "Outer.Inner" := by
  have h : HostType.parse "ref System.Nullable\x601<Outer\x602+Inner<int, string>[, ]>?[]&" = .ok
      (.pointer (.array (.nullable (.named "System.Nullable\x601"
        [.array (.named "Outer\x602+Inner" [.named "int" [], .named "string" []]) 2])) 1)) := rfl
  have hblanks : BaseName.BlanksBehindCommas (BaseName.peel
      "ref System.Nullable\x601<Outer\x602+Inner<int, string>[, ]>?[]&".toList) := by decide
  exact ⟨h, (baseName_of_parse h).2 hblanks fun _ => rfl⟩

/-- A blank in front of the argument list hides that the name is that of a nullable type. -/
theorem not_baseName_nullable_gap :
    HostType.parse "Nullable <int>" = .ok (.named "Nullable" [.named "int" []]) ∧
    baseName "Nullable <int>" = "Nullable" ∧
    baseName "Nullable <int>" ≠
      HostName.luaPath (HostType.named "Nullable" [.named "int" []]).rootName := by
  have h : baseName "Nullable <int>" = "Nullable" := by
    rw [BaseName.baseName_eq]
    decide
  refine ⟨rfl, h, ?_⟩
  rw [h]
  decide

end LuaTypings
