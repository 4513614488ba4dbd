/-
LuaTypings/Text/Replace.lean

Replacing every occurrence of a pattern, from left to right and without overlap.  An empty
pattern occurs once before every character and once at the end.
-/

namespace LuaTypings.Text

/-- Replaces the occurrences of the non-empty `pattern`.  `skip` counts the characters of the
last occurrence that are still to be passed over. -/
def replaceFrom (pattern replacement : List Char) (skip : Nat) : List Char → List Char
  | [] => []
  | c :: cs =>
    match skip with
    | skip + 1 => replaceFrom pattern replacement skip cs
    | 0 =>
      if pattern.isPrefixOf (c :: cs) then
        replacement ++ replaceFrom pattern replacement (pattern.length - 1) cs
      else c :: replaceFrom pattern replacement 0 cs

/-- Writes `separator` before every character and at the end. -/
def interleave (separator : List Char) : List Char → List Char
  | [] => separator
  | c :: cs => separator ++ c :: interleave separator cs

/-- Replaces every occurrence of `pattern` in a text. -/
def replaceAll (pattern replacement text : List Char) : List Char :=
  if pattern.isEmpty then interleave replacement text
  else replaceFrom pattern replacement 0 text

end LuaTypings.Text
