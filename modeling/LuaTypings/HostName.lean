/-
LuaTypings/HostName.lean

Names of host types.  A name may carry two marks of genericity: a grave accent with the
number of parameters, as in `List` followed by the accent and `1`, or a list of arguments
in angle brackets, as in `List<int>`.  Nested types are separated by a plus sign.  The
functions here take such names apart, and `luaPath` is the name under which a type is
known on the Lua side: no marks, and dots for plus signs.
-/
import LuaTypings.Text.Digits

namespace LuaTypings.HostName

/-- The grave accent that stands before the number of generic parameters. -/
def arityMark : Char := '\x60'

/-- Whether a name carries a mark of genericity. -/
def isMarked (name : String) : Bool :=
  name.toList.any fun c => c == arityMark || c == '<'

/-! ### Removing the marks -/

/-- Drops argument lists and arity marks.  `depth` counts the open angle brackets, and
`inArity` says that the digits of an arity mark are being passed over. -/
def bareFrom (depth : Nat) (inArity : Bool) : List Char → List Char
  | [] => []
  | c :: cs =>
    if c = '<' then bareFrom (depth + 1) false cs
    else if c = '>' then bareFrom (depth - 1) false cs
    else if depth ≠ 0 then bareFrom depth false cs
    else if c = arityMark then bareFrom 0 true cs
    else if inArity ∧ c.isDigit then bareFrom 0 true cs
    else c :: bareFrom 0 false cs

/-- The characters of a name without its marks. -/
def bareChars (cs : List Char) : List Char := bareFrom 0 false cs

/-- A name without its marks.  An argument list is dropped wherever it stands, so what
follows it is kept. -/
def bare (name : String) : String := String.ofList (bareChars name.toList)

/-! ### Counting parameters -/

/-- The decimal number in front of a text, if there is one and it fits a machine word. -/
def leadingNumber? (cs : List Char) : Option Nat := Text.word? (cs.takeWhile Char.isDigit)

/-- What stands behind the last arity mark. -/
def afterLastMark (cs : List Char) : List Char :=
  (cs.reverse.takeWhile (· != arityMark)).reverse

/-- Adds to `count` the commas that stand at depth one. -/
def countCommas (depth count : Nat) : List Char → Nat
  | [] => count
  | c :: cs =>
    if c = '<' then countCommas (depth + 1) count cs
    else if c = '>' then countCommas (depth - 1) count cs
    else if c = ',' ∧ depth = 1 then countCommas depth (count + 1) cs
    else countCommas depth count cs

/-- The number of generic parameters that a name tells: the number behind its last arity
mark, or else one more than the commas in its argument lists. -/
def arity? (name : String) : Option Nat :=
  let cs := name.toList
  if arityMark ∈ cs then leadingNumber? (afterLastMark cs)
  else
    let fromOpen := cs.dropWhile (· != '<')
    if fromOpen.isEmpty then none else some (countCommas 0 1 fromOpen)

/-- The name of the generic definition that a type with `count` arguments belongs to.  A
name with an arity mark keeps it and loses what follows the first angle bracket; any other
name is bare, with an arity mark if there are arguments. -/
def definition (name : String) (count : Nat) : String :=
  if arityMark ∈ name.toList then String.ofList (name.toList.takeWhile (· != '<'))
  else if count = 0 then bare name
  else bare name ++ String.singleton arityMark ++ toString count

/-! ### Namespaces and nesting -/

/-- A name inside a namespace; the empty namespace is the global one. -/
def inNamespace (space name : String) : String :=
  if space.isEmpty then name else space ++ "." ++ name

/-- The first dotted segment of a namespace. -/
def rootSegment (space : String) : String :=
  String.ofList (space.toList.takeWhile (· != '.'))

/-- A plus sign separates nested types in the host and a dot does in Lua. -/
def dotChar (c : Char) : Char := if c = '+' then '.' else c

/-- A name with dots for plus signs. -/
def dotted (name : String) : String := String.ofList (name.toList.map dotChar)

/-- The dotted path of a type in Lua: no marks, dots for plus signs. -/
def luaPath (name : String) : String := dotted (bare name)

/-- The characters behind the last dot. -/
def afterLastDot (cs : List Char) : List Char := (cs.reverse.takeWhile (· != '.')).reverse

/-- The last segment of a type's dotted path. -/
def localName (name : String) : String :=
  String.ofList (afterLastDot (luaPath name).toList)

end LuaTypings.HostName
