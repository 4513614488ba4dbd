/-
LuaTypings/Text/Pieces.lean

Texts that are cut at every occurrence of one character.
-/

namespace LuaTypings.Text

/-- The pieces between the separators, empty ones included; there is always at least one. -/
def pieces (separator : Char) : List Char → List (List Char)
  | [] => [[]]
  | c :: cs =>
    if c = separator then [] :: pieces separator cs
    else match pieces separator cs with
      | [] => [[c]]
      | p :: ps => (c :: p) :: ps

end LuaTypings.Text
