/-
LuaTypings/Json/Scan.lean

JSON texts as trees.  A text that ends too early or goes wrong still has a tree: it stops at
the fault, which is a leaf or the ending of a list or an object.  Whoever walks the tree in
the order of the text meets the fault exactly where a reader of the text would, so mistakes
in shape that come before it are found before it.

`Scan.read` turns a tree into a value and allows only so many levels of nesting.
`Scan.skip?` passes over a tree and finds its first fault.
-/
import LuaTypings.Json.Token

namespace LuaTypings.Json

/-- The tree of a text. -/
inductive Scan where
  | null
  | bool (b : Bool)
  | number (chars : List Char)
  | string (pieces : List Piece)
  /-- A list, and the fault that keeps it from being closed. -/
  | array (items : List Scan) (ending : Option Fault)
  /-- An object, and the fault that keeps it from being closed. -/
  | object (entries : List (List Piece × Scan)) (ending : Option Fault)
  /-- A value was due, and the text has none. -/
  | fault (f : Fault)
  deriving Inhabited

/-! ### Building the tree -/

/-- A list or an object that is being read, with what it has so far, last first. -/
inductive Open where
  | array (items : List Scan)
  /-- An object, and the key whose value is being read. -/
  | object (entries : List (List Piece × Scan)) (key : List Piece)

/-- What is due next, inside the lists and objects `stack`, innermost first. -/
inductive Due where
  | value (stack : List Open)
  /-- A value, or the end of a list that has no items yet. -/
  | firstItem (stack : List Open)
  /-- A comma or the end of a list. -/
  | afterItem (items : List Scan) (stack : List Open)
  /-- A key; an object without entries may also end. -/
  | key (entries : List (List Piece × Scan)) (stack : List Open)
  | colon (entries : List (List Piece × Scan)) (key : List Piece) (stack : List Open)
  /-- A comma or the end of an object. -/
  | afterEntry (entries : List (List Piece × Scan)) (stack : List Open)
  /-- Nothing: the text is a value. -/
  | nothing (value : Scan)
  /-- Nothing, but the text goes on behind its value. -/
  | trailing (value : Scan)
  /-- Nothing: the text has a fault. -/
  | stuck (value : Scan)

/-- What is due behind a complete value. -/
def Due.after (v : Scan) : List Open → Due
  | [] => .nothing v
  | .array items :: stack => .afterItem (v :: items) stack
  | .object entries k :: stack => .afterEntry ((k, v) :: entries) stack

/-- The tree of a text that stops inside a value. -/
def plug (v : Scan) : List Open → Scan
  | [] => v
  | .array items :: stack => plug (.array (v :: items).reverse (some .truncated)) stack
  | .object entries k :: stack =>
    plug (.object ((k, v) :: entries).reverse (some .truncated)) stack

/-- The tree of a text with a fault. -/
def Due.fail (due : Due) (f : Fault) : Due :=
  match due with
  | .value stack => .stuck (plug (.fault f) stack)
  | .firstItem stack => .stuck (plug (.array [] (some f)) stack)
  | .afterItem items stack => .stuck (plug (.array items.reverse (some f)) stack)
  | .key entries stack => .stuck (plug (.object entries.reverse (some f)) stack)
  | .colon entries k stack =>
    .stuck (plug (.object ((k, .fault f) :: entries).reverse none) stack)
  | .afterEntry entries stack => .stuck (plug (.object entries.reverse (some f)) stack)
  | .nothing v => .trailing v
  | .trailing v => .trailing v
  | .stuck v => .stuck v

/-- A token where a value is due. -/
def Due.takeValue (stack : List Open) (t : Token) : Due :=
  match t with
  | .null => .after .null stack
  | .bool b => .after (.bool b) stack
  | .number chars => .after (.number chars) stack
  | .string pieces => .after (.string pieces) stack
  | .openArray => .firstItem stack
  | .openObject => .key [] stack
  | .brokenString f => Due.fail (.value stack) f
  | .broken f => Due.fail (.value stack) f
  | _ => Due.fail (.value stack) .malformed

/-- A token. -/
def Due.next (due : Due) (t : Token) : Due :=
  match due, t with
  | .value stack, t => takeValue stack t
  | .firstItem stack, .closeArray => .after (.array [] none) stack
  | .firstItem stack, t => takeValue (.array [] :: stack) t
  | .afterItem items stack, .comma => .value (.array items :: stack)
  | .afterItem items stack, .closeArray => .after (.array items.reverse none) stack
  | .key entries stack, .string pieces => .colon entries pieces stack
  | .key [] stack, .closeObject => .after (.object [] none) stack
  | .key entries stack, .brokenString f => fail (.key entries stack) f
  | .colon entries k stack, .colon => .value (.object entries k :: stack)
  | .afterEntry entries stack, .comma => .key entries stack
  | .afterEntry entries stack, .closeObject => .after (.object entries.reverse none) stack
  | due, _ => fail due .malformed

/-- A text's tree, and whether something follows the value. -/
structure Document where
  value : Scan
  hasTrailing : Bool

/-- What the end of the text makes of what is due. -/
def Due.finish (due : Due) : Document :=
  match due with
  | .nothing v => ⟨v, false⟩
  | .trailing v => ⟨v, true⟩
  | due =>
    match due.fail .truncated with
    | .stuck v => ⟨v, false⟩
    | _ => ⟨.fault .truncated, false⟩

/-- The tree of a text. -/
def Document.ofText (text : String) : Document :=
  ((tokens text).foldl Due.next (.value [])).finish

/-! ### Reading and skipping -/

/-- The text of a string; none if a pair is broken. -/
def textOf? (pieces : List Piece) : Option String := (decodePieces pieces).map String.ofList

/-- How deep lists and objects may be nested. -/
def maxLevels : Nat := 127

mutual

/-- The value of a tree, with `levels` levels of nesting allowed. -/
def Scan.read (levels : Nat) : Scan → Except Defect Json
  | .null => .ok .null
  | .bool b => .ok (.bool b)
  | .number chars =>
    match ofNumber? chars with
    | some j => .ok j
    | none => .error .malformed
  | .string pieces =>
    match textOf? pieces with
    | some s => .ok (.string s)
    | none => .error .malformed
  | .array items ending =>
    if levels = 0 then .error .malformed
    else match readItems (levels - 1) items, ending with
      | .error e, _ => .error e
      | .ok _, some f => .error f.reading
      | .ok js, none => .ok (.array js)
  | .object entries ending =>
    if levels = 0 then .error .malformed
    else match readEntries (levels - 1) entries, ending with
      | .error e, _ => .error e
      | .ok _, some f => .error f.reading
      | .ok js, none => .ok (.object js)
  | .fault f => .error f.reading

/-- The values of several trees; the first fault wins. -/
def readItems (levels : Nat) : List Scan → Except Defect (List Json)
  | [] => .ok []
  | item :: items =>
    match item.read levels with
    | .error e => .error e
    | .ok j =>
      match readItems levels items with
      | .error e => .error e
      | .ok js => .ok (j :: js)

/-- The entries of an object; the first fault wins. -/
def readEntries (levels : Nat) : List (List Piece × Scan) → Except Defect (List (String × Json))
  | [] => .ok []
  | (key, value) :: entries =>
    match textOf? key with
    | none => .error .malformed
    | some k =>
      match value.read levels with
      | .error e => .error e
      | .ok j =>
        match readEntries levels entries with
        | .error e => .error e
        | .ok js => .ok ((k, j) :: js)

end

mutual

/-- The first fault of a tree that is passed over. -/
def Scan.skip? : Scan → Option Defect
  | .array items ending => (skipItems? items).or (ending.map Fault.skipping)
  | .object entries ending => (skipEntries? entries).or (ending.map Fault.skipping)
  | .fault f => some f.skipping
  | _ => none

/-- The first fault of several trees that are passed over. -/
def skipItems? : List Scan → Option Defect
  | [] => none
  | item :: items => item.skip?.or (skipItems? items)

/-- The first fault of entries that are passed over. -/
def skipEntries? : List (List Piece × Scan) → Option Defect
  | [] => none
  | (_, value) :: entries => value.skip?.or (skipEntries? entries)

end

end LuaTypings.Json
