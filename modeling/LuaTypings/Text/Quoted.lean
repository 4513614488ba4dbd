/-
LuaTypings/Text/Quoted.lean

Texts as messages quote them.  A printable character stands for itself, except the double
quote and the backslash, which get a backslash; tab, line feed, carriage return and the null
character have a letter; everything else is written as its code point in braces.
-/
import LuaTypings.Text.Printable

namespace LuaTypings.Text

/-- One character inside a quoted text. -/
def quoteChar (c : Char) : List Char :=
  match c with
  | '\x00' => ['\\', '0']
  | '\t' => ['\\', 't']
  | '\n' => ['\\', 'n']
  | '\r' => ['\\', 'r']
  | '"' => ['\\', '"']
  | '\\' => ['\\', '\\']
  | c =>
    if isPrintable c then [c]
    else ['\\', 'u', '\x7b'] ++ Nat.toDigits 16 c.toNat ++ ['\x7d']

/-- A text in double quotes. -/
def quoted (s : String) : String :=
  String.ofList ('"' :: (s.toList.flatMap quoteChar ++ ['"']))

end LuaTypings.Text
