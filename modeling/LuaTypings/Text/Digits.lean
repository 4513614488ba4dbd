/-
LuaTypings/Text/Digits.lean

Digits of base ten and of base sixteen, and the numbers that they denote.
-/

namespace LuaTypings.Text

/-- The value of decimal digits. -/
def decimalValue (digits : List Char) : Nat :=
  digits.foldl (fun n c => 10 * n + (c.toNat - '0'.toNat)) 0

/-- The number that digits denote, if there are any and it fits a 64-bit word. -/
def word? (digits : List Char) : Option Nat :=
  if digits.isEmpty then none
  else if decimalValue digits < UInt64.size then some (decimalValue digits) else none

/-- The value of a digit of base sixteen, in either case. -/
def hexValue? (c : Char) : Option Nat :=
  if c.isDigit then some (c.toNat - 48)
  else if 'a' ≤ c ∧ c ≤ 'f' then some (c.toNat - 87)
  else if 'A' ≤ c ∧ c ≤ 'F' then some (c.toNat - 55)
  else none

/-- The number that digits of base sixteen denote; none of them denote zero. -/
def hexNumber? (digits : List Char) : Option Nat :=
  digits.foldl (fun n? c => n?.bind fun n => (hexValue? c).map fun d => 16 * n + d) (some 0)

/-- A number is known by its decimal digits. -/
theorem eq_of_toString_eq {i j : Nat} (h : toString i = toString j) : i = j := by
  have hdigits : Nat.toDigits 10 i = Nat.toDigits 10 j := by
    have hchars := congrArg String.toList h
    simpa using hchars
  have hnumber := congrArg (fun ds => Nat.ofDigitChars 10 ds 0) hdigits
  simpa [Nat.ofDigitChars_toDigits] using hnumber

end LuaTypings.Text
