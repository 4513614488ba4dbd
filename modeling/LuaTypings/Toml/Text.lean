/-
LuaTypings/Toml/Text.lean

Strings in TOML.  A basic string has escapes and a literal one has none; either may have
several lines if three quotes open it.  In a string of several lines a line end is always a
line feed, and up to two quotes may stand in front of the closing three.
-/
import LuaTypings.Text.Digits

namespace LuaTypings.Toml

/-! ### Characters -/

/-- A blank on a line. -/
def isBlank (c : Char) : Bool := c = ' ' || c = '\t'

/-- A character that a comment may hold: no control character but the tab. -/
def isCommentChar (c : Char) : Bool := c = '\t' || (32 ≤ c.toNat && c.toNat ≠ 127)

/-- A character that stands for itself in a basic string. -/
def isBasicChar (c : Char) : Bool := isCommentChar c && c ≠ '"' && c ≠ '\\'

/-- A character of a literal string. -/
def isLiteralChar (c : Char) : Bool := isCommentChar c && c ≠ '\''

/-- A character of a name without quotes. -/
def isBareKeyChar (c : Char) : Bool := c.isAlphanum || c = '-' || c = '_'

/-! ### Escapes -/

/-- The character with a number of `count` hexadecimal digits, which are at the front. -/
def codePoint? (count : Nat) (cs : List Char) : Option Char :=
  if cs.length < count then none
  else match Text.hexNumber? (cs.take count) with
    | none => none
    | some n => if n.isValidChar then some (Char.ofNat n) else none

/-- The character behind a backslash, and how many characters denote it. -/
def escape? : List Char → Option (Char × Nat)
  | 'b' :: _ => some ('\x08', 1)
  | 't' :: _ => some ('\t', 1)
  | 'n' :: _ => some ('\n', 1)
  | 'f' :: _ => some ('\x0c', 1)
  | 'r' :: _ => some ('\r', 1)
  | '"' :: _ => some ('"', 1)
  | '\\' :: _ => some ('\\', 1)
  | 'u' :: cs => (codePoint? 4 cs).map fun c => (c, 5)
  | 'U' :: cs => (codePoint? 8 cs).map fun c => (c, 9)
  | _ => none

/-- Leaves out a line end at the front. -/
def dropNewline : List Char → List Char
  | '\n' :: cs => cs
  | '\r' :: '\n' :: cs => cs
  | cs => cs

/-- The number of blanks and line ends at the front, in characters. -/
def gapLength : List Char → Nat
  | '\r' :: '\n' :: cs => gapLength cs + 2
  | c :: cs => if isBlank c ∨ c = '\n' then gapLength cs + 1 else 0
  | [] => 0

/-- The number of characters that a backslash at the end of a line leaves out: all blanks and
line ends up to the next character. -/
def joinLength? (cs : List Char) : Option Nat :=
  match cs.dropWhile isBlank with
  | '\n' :: _ => some (gapLength cs)
  | '\r' :: '\n' :: _ => some (gapLength cs)
  | _ => none

/-! ### Bodies -/

/-- The quotes in front of three closing ones that belong to the string, two at most, and what
is left. -/
def closing (quote : Char) (cs : List Char) : List Char × List Char :=
  let inside := (cs.take 2).takeWhile (· = quote)
  (inside, cs.drop inside.length)

/-- Puts a character in front of a string that is read. -/
def put (c : Char) (r : Option (List Char × List Char)) : Option (List Char × List Char) :=
  r.map fun p => (c :: p.1, p.2)

/-- The characters of a basic string behind its opening, and what is behind its closing. -/
def basicBody (hasLines : Bool) : List Char → Option (List Char × List Char)
  | [] => none
  | '"' :: cs =>
    if !hasLines then some ([], cs)
    else if ['"', '"'].isPrefixOf cs then some (closing '"' (cs.drop 2))
    else put '"' (basicBody hasLines cs)
  | '\\' :: cs =>
    match escape? cs with
    | some (c, count) => put c (basicBody hasLines (cs.drop count))
    | none =>
      match joinLength? cs with
      | some count => if hasLines then basicBody hasLines (cs.drop count) else none
      | none => none
  | '\n' :: cs => if hasLines then put '\n' (basicBody hasLines cs) else none
  | '\r' :: '\n' :: cs => if hasLines then put '\n' (basicBody hasLines cs) else none
  | c :: cs => if isBasicChar c then put c (basicBody hasLines cs) else none
termination_by cs => cs.length
decreasing_by all_goals (simp_wf; try omega)

/-- The characters of a literal string behind its opening, and what is behind its closing. -/
def literalBody (hasLines : Bool) : List Char → Option (List Char × List Char)
  | [] => none
  | '\'' :: cs =>
    if !hasLines then some ([], cs)
    else if ['\'', '\''].isPrefixOf cs then some (closing '\'' (cs.drop 2))
    else put '\'' (literalBody hasLines cs)
  | '\n' :: cs => if hasLines then put '\n' (literalBody hasLines cs) else none
  | '\r' :: '\n' :: cs => if hasLines then put '\n' (literalBody hasLines cs) else none
  | c :: cs => if isLiteralChar c then put c (literalBody hasLines cs) else none

end LuaTypings.Toml
