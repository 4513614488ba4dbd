/-
LuaTypings/Json/Number.lean

Number tokens.  The phases of a number say which characters may extend it and where it may
end; leading zeros are not allowed.  The value of a whole number is exact while it fits 64
bits.  Any other number becomes a binary floating-point number: as many leading digits as fit
64 bits, scaled by a power of ten.  A number beyond the largest finite one is refused.
-/
import LuaTypings.Decimal.Shortest
import LuaTypings.Text.Digits
import LuaTypings.Json.Basic

namespace LuaTypings.Json

/-! ### Phases -/

/-- How far a number has been read. -/
inductive NumberPhase where
  | minus
  | zero
  | whole
  | point
  | fraction
  | mark
  | sign
  | power
  deriving DecidableEq, Repr

namespace NumberPhase

/-- The phase that a first character opens. -/
def opening? (c : Char) : Option NumberPhase :=
  if c = '-' then some .minus
  else if c = '0' then some .zero
  else if c.isDigit then some .whole
  else none

/-- The phase behind a further character, if it can extend the number. -/
def next? (phase : NumberPhase) (c : Char) : Option NumberPhase :=
  let isMark := c = 'e' ∨ c = 'E'
  match phase with
  | .minus => if c = '0' then some .zero else if c.isDigit then some .whole else none
  | .zero => if c = '.' then some .point else if isMark then some .mark else none
  | .whole =>
    if c.isDigit then some .whole
    else if c = '.' then some .point
    else if isMark then some .mark else none
  | .point => if c.isDigit then some .fraction else none
  | .fraction => if c.isDigit then some .fraction else if isMark then some .mark else none
  | .mark =>
    if c.isDigit then some .power else if c = '+' ∨ c = '-' then some .sign else none
  | .sign => if c.isDigit then some .power else none
  | .power => if c.isDigit then some .power else none

/-- Whether a number may end here. -/
def isComplete : NumberPhase → Bool
  | .zero | .whole | .fraction | .power => true
  | .minus | .point | .mark | .sign => false

end NumberPhase

/-! ### Values -/

/-- The parts of a number token: its sign, the digits before and behind the point, and the
exponent. -/
structure NumberParts where
  isNegative : Bool
  whole : List Char
  fraction : List Char
  exponent : Int
  /-- Whether there is neither a point nor an exponent. -/
  isWhole : Bool

/-- An exponent with its sign. -/
def exponentOf : List Char → Int
  | '-' :: digits => -(Text.decimalValue digits : Int)
  | '+' :: digits => Text.decimalValue digits
  | digits => Text.decimalValue digits

/-- Takes a complete number token apart. -/
def NumberParts.ofChars (cs : List Char) : NumberParts :=
  let isMark (c : Char) : Bool := c == 'e' || c == 'E'
  let body := cs.dropWhile (· == '-')
  let mantissa := body.takeWhile fun c => !isMark c
  let power := (body.dropWhile fun c => !isMark c).drop 1
  { isNegative := cs.head? == some '-'
    whole := mantissa.takeWhile (· != '.')
    fraction := (mantissa.dropWhile (· != '.')).drop 1
    exponent := exponentOf power
    isWhole := mantissa.length == body.length && !mantissa.contains '.' }

/-- The largest number of 64 bits. -/
def maxWord : Nat := UInt64.size - 1

/-- Digits taken into a number of 64 bits. -/
structure Significand where
  value : Nat := 0
  /-- How many whole digits did not fit, less the digits taken behind the point. -/
  exponent : Int := 0
  /-- Whether a digit did not fit. -/
  isFull : Bool := false

/-- Takes a digit before the point; once a digit does not fit, it and all further ones only
count. -/
def Significand.takeWhole (s : Significand) (digit : Nat) : Significand :=
  if s.isFull || maxWord < 10 * s.value + digit then
    { s with exponent := s.exponent + 1, isFull := true }
  else { s with value := 10 * s.value + digit }

/-- Takes a digit behind the point; once a digit does not fit, it and all further ones are
dropped. -/
def Significand.takeFraction (s : Significand) (digit : Nat) : Significand :=
  if s.isFull || maxWord < 10 * s.value + digit then { s with isFull := true }
  else { s with value := 10 * s.value + digit, exponent := s.exponent - 1 }

/-- The value of a digit. -/
def digitValue (c : Char) : Nat := c.toNat - '0'.toNat

/-- The leading digits of a number. -/
def NumberParts.significand (p : NumberParts) : Significand :=
  let start : Significand := {}
  let whole := p.whole.foldl (fun s c => s.takeWhole (digitValue c)) start
  p.fraction.foldl (fun s c => s.takeFraction (digitValue c)) { whole with isFull := false }

/-- Scales by a power of ten: the largest factors of ten first when it is negative. -/
def scaleDown (x : Float) (places : Nat) : Nat → Float
  | 0 => x
  | fuel + 1 =>
    if x == 0 then x
    else if places ≤ 308 then x / Float.ofScientific 1 false places
    else scaleDown (x / 1e308) (places - 308) fuel

/-- The floating-point number of a significand; none if it is beyond the largest one. -/
def Significand.toFloat? (s : Significand) (power : Int) : Option Float :=
  let x := s.value.toUInt64.toFloat
  let e := s.exponent + power
  if s.value = 0 then some x
  else if e < 0 then some (scaleDown x e.natAbs 4)
  else if 308 < e then none
  else
    let scaled := x * Float.ofScientific 1 false e.natAbs
    if scaled.isInf then none else some scaled

/-- The value of a complete number token; none if it is out of range. -/
def ofNumber? (cs : List Char) : Option Json :=
  let p := NumberParts.ofChars cs
  let n := Text.decimalValue p.whole
  if p.isWhole && !p.isNegative && n ≤ maxWord then some (.integer n)
  else if p.isWhole && p.isNegative && 0 < n && n ≤ Nat.pow 2 63 then some (.integer (-(n : Int)))
  else
    (p.significand.toFloat? p.exponent).map fun x =>
      .real (Decimal.spell (if p.isNegative then -x else x))

end LuaTypings.Json
