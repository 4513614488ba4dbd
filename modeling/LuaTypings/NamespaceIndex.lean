/-
LuaTypings/NamespaceIndex.lean

The tables at the root of everything that is declared: the first segment of every namespace
and every type outside a namespace.  The index remembers the order in which they came and
takes each name once, as what it was first.
-/
import LuaTypings.Annotations
import LuaTypings.Flavor

namespace LuaTypings

/-- A name at the root. -/
structure RootTable where
  name : String
  /-- Whether it is a namespace; otherwise it is a type. -/
  isNamespace : Bool
  deriving DecidableEq, Repr

/-- The names at the root, in the order in which they came. -/
structure NamespaceIndex where
  entries : List RootTable := []
  deriving DecidableEq, Repr

namespace NamespaceIndex

/-- The name at the root that a type in a namespace belongs to. -/
def rootOf (space name : String) : RootTable :=
  if space.isEmpty then ⟨HostName.luaPath name, false⟩ else ⟨HostName.rootSegment space, true⟩

/-- Whether a name is taken. -/
def contains (index : NamespaceIndex) (name : String) : Bool :=
  index.entries.any fun e => e.name == name

/-- Enters a type; a name that is taken stays what it is. -/
def register (index : NamespaceIndex) (space name : String) : NamespaceIndex :=
  let entry := rootOf space name
  if index.contains entry.name then index else ⟨index.entries ++ [entry]⟩

/-- The number of names. -/
def size (index : NamespaceIndex) : Nat := index.entries.length

/-- The lines of one entry: a namespace is a plain table, a type has itself as its type. -/
def entryLines (root : String) (e : RootTable) : List String :=
  ["---@type " ++ (if e.isNamespace then "table" else root ++ e.name),
    root ++ e.name ++ " = \x7b\x7d", ""]

/-- The text of the index. -/
def text (index : NamespaceIndex) (root : String) : String :=
  Annotations.metaHeader ++ Annotations.unlines (index.entries.flatMap (entryLines root))

end NamespaceIndex

end LuaTypings
