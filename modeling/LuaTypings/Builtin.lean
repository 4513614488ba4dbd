/-
LuaTypings/Builtin.lean

The types that Lua annotations have themselves, and the host types that become one of them.
A host type is known by its keyword or by the name of its class, either with or without the
namespace `System` in front.
-/
import LuaTypings.Text.Blank

namespace LuaTypings

/-- A type that Lua annotations have themselves. -/
inductive Builtin where
  | nil
  | boolean
  | integer
  | number
  | string
  | any
  deriving DecidableEq, Repr

namespace Builtin

/-- The annotation name of a builtin type. -/
def spelling : Builtin → String
  | .nil => "nil"
  | .boolean => "boolean"
  | .integer => "integer"
  | .number => "number"
  | .string => "string"
  | .any => "any"

/-- The host types behind each builtin type. -/
def hostNames : List (String × Builtin) :=
  [("void", .nil), ("Void", .nil),
   ("bool", .boolean), ("Boolean", .boolean),
   ("byte", .integer), ("Byte", .integer), ("sbyte", .integer), ("SByte", .integer),
   ("short", .integer), ("Int16", .integer), ("ushort", .integer), ("UInt16", .integer),
   ("int", .integer), ("Int32", .integer), ("uint", .integer), ("UInt32", .integer),
   ("long", .integer), ("Int64", .integer), ("ulong", .integer), ("UInt64", .integer),
   ("nint", .integer), ("IntPtr", .integer), ("nuint", .integer), ("UIntPtr", .integer),
   ("float", .number), ("Single", .number), ("double", .number), ("Double", .number),
   ("decimal", .number), ("Decimal", .number),
   ("char", .string), ("Char", .string), ("string", .string), ("String", .string),
   ("object", .any), ("Object", .any), ("dynamic", .any)]

/-- The namespace that the host's own types live in, with its dot. -/
def systemSpace : List Char := ['S', 'y', 's', 't', 'e', 'm', '.']

/-- Drops one leading `System.`. -/
def dropSystem (name : String) : String :=
  if systemSpace.isPrefixOf name.toList then String.ofList (name.toList.drop systemSpace.length)
  else name

/-- The builtin type that a host name becomes, if it does. -/
def ofHost? (name : String) : Option Builtin := hostNames.lookup (dropSystem name)

/-- Whether a display string is the host's `void`, blanks around it apart. -/
def isVoid (display : String) : Bool :=
  let word := String.ofList (Text.trim display.toList)
  word == "void" || word == "System.Void" || word == "Void"

end Builtin

end LuaTypings
