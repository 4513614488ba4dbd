/-
LuaTypings/Toml/Reading.lean

Readers over characters and the smallest parts of a TOML document: blanks, comments, line ends
and the three kinds of names in keys.  A reader takes what it reads from the front of a text,
or fails and leaves the text to another reader.
-/
import LuaTypings.Toml.Text

namespace LuaTypings.Toml

/-- A reader. -/
abbrev Reading := StateT (List Char) Option

namespace Reading

/-- One character of a class. -/
def one (p : Char → Bool) : Reading Char
  | [] => none
  | c :: cs => if p c then some (c, cs) else none

/-- Exactly this text. -/
def exactly (text : String) : Reading Unit := fun cs =>
  if text.toList.isPrefixOf cs then some ((), cs.drop text.length) else none

/-- As many characters of a class as there are. -/
def many (p : Char → Bool) : Reading (List Char) := fun cs =>
  some (cs.takeWhile p, cs.dropWhile p)

/-- At least one character of a class. -/
def many1 (p : Char → Bool) : Reading (List Char) := do
  let c ← one p
  return c :: (← many p)

/-- Nothing, at the end of the text only. -/
def atEnd : Reading Unit := fun cs => if cs.isEmpty then some ((), []) else none

/-- Something, if it is there. -/
def perhaps {α : Type} (r : Reading α) : Reading (Option α) := some <$> r <|> pure none

/-- Applies a reader as long as it succeeds and takes something. -/
def repeated {α : Type} (r : Reading α) : Reading (List α) := fun cs =>
  match r cs with
  | none => some ([], cs)
  | some (a, rest) =>
    if rest.length < cs.length then
      (repeated r rest).map fun p => (a :: p.1, p.2)
    else some ([a], rest)
termination_by cs => cs.length

/-- Things with commas between them. -/
def separated {α : Type} (r : Reading α) : Reading (List α) :=
  (do return (← r) :: (← repeated (do exactly ","; r))) <|> pure []

/-- A text that a function on characters takes from the front. -/
def text (f : List Char → Option (List Char × List Char)) : Reading String := fun cs =>
  (f cs).map fun p => (String.ofList p.1, p.2)

end Reading

open Reading

/-! ### Between the values -/

/-- Blanks on one line. -/
def blanks : Reading Unit := do let _ ← many isBlank

/-- The end of a line. -/
def newline : Reading Unit := exactly "\n" <|> exactly "\r\n"

/-- A comment, without the end of its line. -/
def comment : Reading Unit := do
  exactly "#"
  let _ ← many isCommentChar

/-- What may follow the last value on a line. -/
def lineEnd : Reading Unit := do
  blanks
  let _ ← perhaps comment
  newline <|> atEnd

/-- Blanks, line ends and comments. -/
def gap : Reading Unit := do
  let _ ← repeated ((do let _ ← many1 isBlank) <|> newline <|> (do comment; newline))

/-! ### Keys -/

/-- One name of a key. -/
def simpleKey : Reading String :=
  (do exactly "\""; text (basicBody false))
    <|> (do exactly "'"; text (literalBody false))
    <|> (do return String.ofList (← many1 isBareKeyChar))

/-- How many names a key may have. -/
def maxNames : Nat := 79

/-- The names of a key with dots between them, and blanks around each: the names on the way,
and the last one. -/
def key : Reading (List String × String) := do
  let name : Reading String := do
    blanks
    let k ← simpleKey
    blanks
    return k
  let first ← name
  let rest ← repeated (do exactly "."; name)
  let all := first :: rest
  if maxNames < all.length then failure else return (all.dropLast, all.getLastD "")

/-- A string value. -/
def stringValue : Reading String :=
  (do exactly "\"\"\""; text (fun cs => basicBody true (dropNewline cs)))
    <|> (do exactly "'''"; text (fun cs => literalBody true (dropNewline cs)))
    <|> (do exactly "\""; text (basicBody false))
    <|> (do exactly "'"; text (literalBody false))

end LuaTypings.Toml
