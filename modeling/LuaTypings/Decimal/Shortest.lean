/-
LuaTypings/Decimal/Shortest.lean

The shortest decimal that stands for a binary floating-point number.  A finite number is
`m * 2 ^ q`; the reals that round to it form an interval, whose ends belong to it when `m` is
even.  For one digit, two digits and so on the two neighbours of the number on that decimal
grid are tried, and the first grid with a neighbour inside the interval wins, the nearer
neighbour first.  All arithmetic is exact.
-/

namespace LuaTypings.Decimal

/-- A positive finite number `m * 2 ^ q`.  Below a power of two the gap to the next smaller
number is half the gap to the next larger one, which `narrowBelow` tells. -/
structure Binary where
  m : Nat
  q : Int
  narrowBelow : Bool

/-- The number behind the bits of a finite value, without its sign. -/
def Binary.ofBits (bits : UInt64) : Binary :=
  let e := ((bits >>> 52) &&& 0x7FF).toNat
  let f := (bits &&& 0xFFFFFFFFFFFFF).toNat
  if e = 0 then ⟨f, -1074, false⟩ else ⟨Nat.pow 2 52 + f, (e : Int) - 1075, f == 0 && e > 1⟩

/-- The decimal `digits * 10 ^ exponent`. -/
structure Digits where
  digits : Nat
  exponent : Int
  deriving DecidableEq, Repr

/-- Compares `a * 10 ^ i` with `n * 2 ^ j`. -/
def compareScaled (a : Nat) (i : Int) (n : Nat) (j : Int) : Ordering :=
  compare (a * Nat.pow 10 i.toNat * Nat.pow 2 (-j).toNat)
    (n * Nat.pow 2 j.toNat * Nat.pow 10 (-i).toNat)

/-- Whether a decimal lies among the reals that round to the number. -/
def Binary.readsBack (x : Binary) (d : Digits) : Bool :=
  let low := if x.narrowBelow then 4 * x.m - 1 else 4 * x.m - 2
  let closed := x.m % 2 == 0
  let atLow := compareScaled d.digits d.exponent low (x.q - 2)
  let atHigh := compareScaled d.digits d.exponent (4 * x.m + 2) (x.q - 2)
  (atLow == .gt || (closed && atLow == .eq)) && (atHigh == .lt || (closed && atHigh == .eq))

/-- The number of units of `10 ^ exponent` that fit into the number. -/
def Binary.unitsOf (x : Binary) (exponent : Int) : Nat :=
  (x.m * Nat.pow 2 x.q.toNat * Nat.pow 10 (-exponent).toNat) /
    (Nat.pow 2 (-x.q).toNat * Nat.pow 10 exponent.toNat)

/-- The neighbours of the number on the grid of `10 ^ exponent`, the nearer one first and of
two equally near ones the even one. -/
def Binary.neighbours (x : Binary) (exponent : Int) : List Digits :=
  let n := x.unitsOf exponent
  let lower : Digits := ⟨n, exponent⟩
  let upper : Digits := ⟨n + 1, exponent⟩
  let upperFirst := match compareScaled (2 * n + 1) exponent (2 * x.m) x.q with
    | .lt => true
    | .eq => n % 2 == 1
    | .gt => false
  if upperFirst then [upper, lower] else [lower, upper]

/-- The least `k` with the number below `10 ^ k`, searched upwards from `k`. -/
def Binary.scaleFrom (x : Binary) (k : Int) : Nat → Int
  | 0 => k
  | fuel + 1 => if compareScaled 1 k x.m x.q == .gt then k else x.scaleFrom (k + 1) fuel

/-- The least `k` with the number below `10 ^ k`. -/
def Binary.scale (x : Binary) : Int := x.scaleFrom (-324) 700

/-- Drops zeros at the end of the digits. -/
def Digits.strip (d : Digits) : Nat → Digits
  | 0 => d
  | fuel + 1 =>
    if d.digits % 10 = 0 then Digits.strip ⟨d.digits / 10, d.exponent + 1⟩ fuel else d

/-- The shortest decimal that reads back as a positive number; seventeen digits suffice. -/
def Binary.shortest (x : Binary) : Digits :=
  let k := x.scale
  let found := (List.range 17).findSome? fun (n : Nat) =>
    (x.neighbours (k - ((n : Int) + 1))).find? x.readsBack
  match found with
  | some d => d.strip 20
  | none => ⟨x.m, x.q⟩

/-! ### Notation -/

/-- A decimal in positional notation while its digits start at most sixteen places before the
point or four zeros behind it, otherwise in scientific notation, where the exponent always has
a sign. -/
def Digits.written (d : Digits) : String :=
  let digits := (toString d.digits).toList
  let point : Int := d.exponent + digits.length
  let zeros (n : Int) := List.replicate n.toNat '0'
  let chars :=
    if 0 ≤ d.exponent ∧ point ≤ 16 then digits ++ zeros d.exponent ++ ['.', '0']
    else if 0 < point ∧ point ≤ 16 then
      digits.take point.toNat ++ '.' :: digits.drop point.toNat
    else if -5 < point ∧ point ≤ 0 then ['0', '.'] ++ zeros (-point) ++ digits
    else
      let mantissa := match digits with
        | first :: second :: rest => first :: '.' :: second :: rest
        | _ => digits
      let exponent := point - 1
      mantissa ++ 'e' :: (if exponent < 0 then '-' else '+') :: (toString exponent.natAbs).toList
  String.ofList chars

/-- The text of a finite floating-point number. -/
def spell (x : Float) : String :=
  let bits := x.toBits
  let sign := if bits >>> 63 == 1 then "-" else ""
  let magnitude := Binary.ofBits bits
  sign ++ if magnitude.m = 0 then "0.0" else magnitude.shortest.written

end LuaTypings.Decimal
