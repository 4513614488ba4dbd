/-
LuaTypings/Proofs/NamespaceIndex.lean

Which names are in the namespace index.  Each declaration has one name at the root, and the index
takes it unless it is there, so there are as many entries as there are different names
(`size_indexOf`).
-/
import LuaTypings.Proofs.Dump

namespace LuaTypings

/-- The name of a declaration at the root: that of its outermost namespace, or its own path. -/
def Declaration.rootName (d : Declaration) : String :=
  if d.space.isEmpty then HostName.luaPath d.name else HostName.rootSegment d.space

theorem Declaration.name_rootOf (d : Declaration) :
    (NamespaceIndex.rootOf d.space d.name).name = d.rootName := by
  unfold NamespaceIndex.rootOf rootName
  split_ifs <;> rfl

namespace NamespaceIndex

/-- The names of an index, in the order in which they came. -/
def names (index : NamespaceIndex) : List String := index.entries.map RootTable.name

theorem names_register (index : NamespaceIndex) (d : Declaration) :
    (index.register d.space d.name).names = References.insertNew index.names d.rootName := by
  have hcontains : index.contains d.rootName = index.names.contains d.rootName := by
    rw [Bool.eq_iff_iff]
    simp [contains, names]
  simp only [register, Declaration.name_rootOf, hcontains, References.insertNew]
  split_ifs
  · rfl
  · rw [names, List.map_append, List.map_singleton, Declaration.name_rootOf]
    rfl

theorem names_foldl (types : List Declaration) (index : NamespaceIndex) :
    (types.foldl (fun index d => index.register d.space d.name) index).names =
      (types.map Declaration.rootName).foldl References.insertNew index.names := by
  induction types generalizing index with
  | nil => rfl
  | cons d types ih => rw [List.foldl_cons, List.map_cons, List.foldl_cons, ih, names_register]

end NamespaceIndex

/-- The index of a dump has one entry for each name at the root. -/
theorem Dump.size_indexOf (types : List Declaration) :
    (indexOf types).size = (types.map Declaration.rootName).toFinset.card := by
  rw [← References.length_foldl_insertNew]
  calc (indexOf types).size
      = (indexOf types).names.length := (List.length_map ..).symm
    _ = ((types.map Declaration.rootName).foldl References.insertNew []).length :=
      congrArg List.length (NamespaceIndex.names_foldl types {})

end LuaTypings
