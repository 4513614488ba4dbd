/-
LuaTypings/Json/Printer.lean

The written form of JSON values: one entry or item a line, two spaces of indentation for each
level, and empty lists and objects as bare brackets.  Inside strings, quotes, backslashes and
control characters are escaped and everything else stands for itself.
-/
import LuaTypings.Json.Basic

namespace LuaTypings.Json

/-- A digit of base sixteen, lower case. -/
def hexDigit (n : Nat) : Char := if n < 10 then Char.ofNat (48 + n) else Char.ofNat (87 + n)

/-- One character inside a string. -/
def escapeChar (c : Char) : List Char :=
  match c with
  | '"' => ['\\', '"']
  | '\\' => ['\\', '\\']
  | '\x08' => ['\\', 'b']
  | '\x0c' => ['\\', 'f']
  | '\n' => ['\\', 'n']
  | '\r' => ['\\', 'r']
  | '\t' => ['\\', 't']
  | c =>
    if c.toNat < 0x20 then
      ['\\', 'u', '0', '0', hexDigit (c.toNat / 16), hexDigit (c.toNat % 16)]
    else [c]

/-- A string in quotes, in front of `rest`. -/
def quote (s : String) (rest : List Char) : List Char :=
  '"' :: (s.toList.flatMap escapeChar ++ '"' :: rest)

/-- A line end and the indentation of a level, in front of `rest`. -/
def newLine (level : Nat) (rest : List Char) : List Char :=
  '\n' :: (List.replicate (2 * level) ' ' ++ rest)

mutual

/-- The written form of a value in front of `rest`; its first line is indented already. -/
def write (level : Nat) (rest : List Char) : Json → List Char
  | .null => "null".toList ++ rest
  | .bool true => "true".toList ++ rest
  | .bool false => "false".toList ++ rest
  | .integer n => (toString n).toList ++ rest
  | .real spelling => spelling.toList ++ rest
  | .string s => quote s rest
  | .array [] => '[' :: ']' :: rest
  | .array (item :: items) =>
    '[' :: newLine (level + 1) (write (level + 1)
      (writeItems (level + 1) (newLine level (']' :: rest)) items) item)
  | .object [] => '\x7b' :: '\x7d' :: rest
  | .object ((key, value) :: entries) =>
    '\x7b' :: newLine (level + 1) (quote key (':' :: ' ' :: write (level + 1)
      (writeEntries (level + 1) (newLine level ('\x7d' :: rest)) entries) value))

/-- The items behind the first one, in front of `rest`. -/
def writeItems (level : Nat) (rest : List Char) : List Json → List Char
  | [] => rest
  | item :: items => ',' :: newLine level (write level (writeItems level rest items) item)

/-- The entries behind the first one, in front of `rest`. -/
def writeEntries (level : Nat) (rest : List Char) : List (String × Json) → List Char
  | [] => rest
  | (key, value) :: entries =>
    ',' :: newLine level (quote key (':' :: ' ' ::
      write level (writeEntries level rest entries) value))

end

/-- The written form of a value. -/
def pretty (j : Json) : String := String.ofList (write 0 [] j)

end LuaTypings.Json
