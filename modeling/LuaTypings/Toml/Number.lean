/-
LuaTypings/Toml/Number.lean

Numbers and points in time in TOML.  An integer is a signed 64-bit word in one of four bases;
an underscore may stand between two digits.  Fractions and times are only told apart from
everything else, since no setting has one; but a fraction may not be too large for a
floating-point number of 64 bits.
-/
import LuaTypings.Toml.Reading

namespace LuaTypings.Toml

open Reading

/-! ### Digits -/

/-- Digits of a class, with underscores between them; the first one is given. -/
def moreDigits (p : Char → Bool) (first : Char) : Reading (List Char) := do
  let rest ← repeated (one p <|> (do exactly "_"; one p))
  return first :: rest

/-- At least one digit of a class. -/
def digits (p : Char → Bool) : Reading (List Char) := do moreDigits p (← one p)

/-- The number that digits denote. -/
def numberOf (base : Nat) (ds : List Char) : Nat :=
  ds.foldl (fun n d => base * n + (Text.hexValue? d).getD 0) 0

/-- A sign. -/
def sign : Reading Char := one fun c => c = '+' || c = '-'

/-- The digits of a decimal number; a zero stands alone. -/
def decimalDigits : Reading (List Char) := do
  let first ← one Char.isDigit
  if first = '0' then return ['0'] else moreDigits Char.isDigit first

/-! ### Integers -/

/-- A number in another base than ten. -/
def basedInteger (mark : String) (base : Nat) (p : Char → Bool) : Reading Int := do
  exactly mark
  return numberOf base (← digits p)

/-- A decimal number. -/
def decimalInteger : Reading Int := do
  let negative := (← perhaps sign) == some '-'
  let n : Int := numberOf 10 (← decimalDigits)
  return if negative then -n else n

/-- An integer of 64 bits. -/
def integerValue : Reading Int := do
  let n ← basedInteger "0x" 16 (fun c => (Text.hexValue? c).isSome)
    <|> basedInteger "0o" 8 (fun c => '0' ≤ c && c ≤ '7')
    <|> basedInteger "0b" 2 (fun c => c = '0' || c = '1')
    <|> decimalInteger
  if -9223372036854775808 ≤ n ∧ n ≤ 9223372036854775807 then return n else failure

/-! ### Fractions -/

/-- The digits behind a point. -/
def fraction : Reading (List Char) := do
  exactly "."
  digits Char.isDigit

/-- The exponent of a power of ten. -/
def exponent : Reading Int := do
  exactly "e" <|> exactly "E"
  let negative := (← perhaps sign) == some '-'
  let n : Int := numberOf 10 (← digits Char.isDigit)
  return if negative then -n else n

/-- The least number that no floating-point number of 64 bits is near enough to: half a unit
above the largest one. -/
def outOfRange : Nat := Nat.pow 2 1024 - Nat.pow 2 970

/-- Whether digits, times ten to the power of `e`, are out of range.  Only a number with 309
places in front of its point has to be looked at closely. -/
def isOutOfRange (ds : List Char) (e : Int) : Bool :=
  let ds := ds.dropWhile (· = '0')
  let places : Int := ds.length + e
  if ds.isEmpty || places < 309 then false
  else if 309 < places then true
  else if 0 ≤ e then outOfRange ≤ numberOf 10 ds * Nat.pow 10 e.toNat
  else outOfRange * Nat.pow 10 (-e).toNat ≤ numberOf 10 ds

/-- The digits of a number that is no integer, and the power of ten that they count. -/
def decimalParts : Reading (List Char × Int) := do
  let whole ← decimalDigits
  (do return (whole, ← exponent))
    <|> (do
      let part ← fraction
      let e := (← perhaps exponent).getD 0
      return (whole ++ part, e - part.length))

/-- A number that is no integer.  It may be out of range below, but not above. -/
def float : Reading Unit := do
  let negative := (← perhaps sign) == some '-'
  (do
    let (ds, e) ← decimalParts
    if !negative && isOutOfRange ds e then failure)
    <|> exactly "inf" <|> exactly "nan"

/-! ### Points in time -/

/-- Exactly `count` digits. -/
def fixedDigits : Nat → Reading (List Char)
  | 0 => pure []
  | count + 1 => do return (← one Char.isDigit) :: (← fixedDigits count)

/-- A number of `count` digits in a range. -/
def fixedNumber (count low high : Nat) : Reading Nat := do
  let n := numberOf 10 (← fixedDigits count)
  if low ≤ n ∧ n ≤ high then return n else failure

/-- The number of days in a month. -/
def daysIn (year month : Nat) : Nat :=
  if month = 2 then if year % 4 = 0 ∧ (year % 100 ≠ 0 ∨ year % 400 = 0) then 29 else 28
  else if month = 4 ∨ month = 6 ∨ month = 9 ∨ month = 11 then 30 else 31

/-- A day. -/
def date : Reading Unit := do
  let year ← fixedNumber 4 0 9999
  exactly "-"
  let month ← fixedNumber 2 1 12
  exactly "-"
  let _ ← fixedNumber 2 1 (daysIn year month)

/-- A time of day. -/
def time : Reading Unit := do
  let _ ← fixedNumber 2 0 23
  exactly ":"
  let _ ← fixedNumber 2 0 59
  exactly ":"
  let _ ← fixedNumber 2 0 60
  let _ ← perhaps (do exactly "."; many1 Char.isDigit)

/-- The distance from universal time. -/
def offset : Reading Unit := do
  exactly "Z" <|> exactly "z" <|> do
    let _ ← sign
    let _ ← fixedNumber 2 0 23
    exactly ":"
    let _ ← fixedNumber 2 0 59

/-- A day, a time, or both. -/
def dateTime : Reading Unit :=
  (do
    date
    let _ ← perhaps do
      let _ ← one fun c => c = 'T' || c = 't' || c = ' '
      time
      perhaps offset)
  <|> time

end LuaTypings.Toml
