/-
LuaTypings/BaseName.lean

The name that a display string is built on, read off the text without parsing it: arrays,
pointers and nullable types lead to what they are made of, and a generic type leads to its
own name.  So `Foo[]`, `Foo?`, `Nullable<Foo>` and `ref Foo` all lead to `Foo`, and every
text leads somewhere, also one that denotes no type.
-/
import LuaTypings.Spelling

namespace LuaTypings.BaseName

/-- A text without the blanks around it and the parameter-passing words in front. -/
def peel (cs : List Char) : List Char := HostType.dropPassing (Text.trim cs)

/-- What stands before the first opening bracket. -/
def head (cs : List Char) : List Char := cs.takeWhile (· != '<')

/-- What stands between the first opening and the last closing angle bracket, if they stand
in this order. -/
def between? (cs : List Char) : Option (List Char) :=
  match cs.dropWhile (· != '<') with
  | [] => none
  | _ :: inside =>
    match inside.reverse.dropWhile (· != '>') with
    | [] => none
    | _ :: argument => some argument.reverse

/-- The argument of a generic nullable type. -/
def nullableArgument? (cs : List Char) : Option (List Char) :=
  if Spelling.isNullableName (String.ofList (head cs)) then between? cs else none

/-- Whether a character ends a type as the mark of a pointer or a nullable type. -/
def isSuffixMark (c : Char) : Bool := c == '*' || c == '&' || c == '?'

/-- The name in front of array brackets and suffix marks. -/
def stem (cs : List Char) : List Char :=
  Text.trim (((cs.takeWhile (· != '[')).reverse.dropWhile isSuffixMark).reverse)

/-! ### Lengths -/

theorem length_dropWord_le (cs word : List Char) :
    (HostType.dropWord cs word).length ≤ cs.length := by
  unfold HostType.dropWord
  split
  · have h := Text.length_trimStart_le (cs.drop word.length)
    simp only [List.length_drop] at h
    omega
  · exact Nat.le_refl _

theorem length_dropPassing_le (cs : List Char) : (HostType.dropPassing cs).length ≤ cs.length := by
  have general (words : List (List Char)) (cs : List Char) :
      (words.foldl HostType.dropWord cs).length ≤ cs.length := by
    induction words generalizing cs with
    | nil => exact Nat.le_refl _
    | cons word words ih => exact Nat.le_trans (ih _) (length_dropWord_le cs word)
  exact general _ _

theorem length_peel_le (cs : List Char) : (peel cs).length ≤ cs.length :=
  Nat.le_trans (length_dropPassing_le _) (Text.length_trim_le _)

theorem length_between_lt {cs argument : List Char} (h : between? cs = some argument) :
    argument.length < cs.length := by
  unfold between? at h
  have h₁ := Text.length_dropWhile_le (· != '<') cs
  split at h
  · cases h
  · rename_i c inside heq
    have h₂ := Text.length_dropWhile_le (· != '>') inside.reverse
    split at h
    · cases h
    · rename_i d rest heq'
      cases h
      simp only [heq, heq', List.length_cons, List.length_reverse] at *
      omega

theorem length_nullableArgument_lt {cs argument : List Char}
    (h : nullableArgument? cs = some argument) : argument.length < cs.length := by
  unfold nullableArgument? at h
  split at h
  · exact length_between_lt h
  · cases h

/-! ### The base name -/

/-- The base name of a text, before its marks are removed. -/
def root (cs : List Char) : List Char :=
  match _h : nullableArgument? (peel cs) with
  | some argument => root argument
  | none => stem (head (peel cs))
termination_by cs.length
decreasing_by exact Nat.lt_of_lt_of_le (length_nullableArgument_lt _h) (length_peel_le cs)

end LuaTypings.BaseName

namespace LuaTypings

/-- The Lua path of the name that a display string is built on. -/
def baseName (display : String) : String :=
  HostName.luaPath (String.ofList (BaseName.root display.toList))

end LuaTypings
