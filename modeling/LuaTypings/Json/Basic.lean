/-
LuaTypings/Json/Basic.lean

JSON values.  Objects keep the order of their entries and may repeat a key.  Whole numbers
that fit 64 bits, signed or unsigned, are kept as they are; of any other number only its
decimal spelling is kept, since nothing here computes with it.
-/

namespace LuaTypings

/-- A JSON value. -/
inductive Json where
  | null
  | bool (b : Bool)
  | integer (n : Int)
  /-- A number with a fraction, an exponent or too many digits, by its shortest spelling. -/
  | real (spelling : String)
  | string (s : String)
  | array (items : List Json)
  | object (entries : List (String × Json))
  deriving Inhabited, Repr

namespace Json

/-- A list of strings. -/
def strings (ss : List String) : Json := .array (ss.map .string)

/-- A string that may be absent. -/
def optional : Option String → Json
  | some s => .string s
  | none => .null

/-- A natural number. -/
def nat (n : Nat) : Json := .integer n

end Json

end LuaTypings
