/-
LuaTypings/Summary.lean

What a run has done, over all its bindings, and the report of it as a JSON value.
-/
import LuaTypings.Dump
import LuaTypings.Json.Printer

namespace LuaTypings

/-- What a run has done. -/
structure Summary where
  /-- The path of the catalog. -/
  catalog : String
  analyzedSymbols : UInt64
  /-- The number of declarations in the catalog. -/
  catalogTypes : Nat
  /-- The number of declarations after merging. -/
  definitions : Nat
  /-- The number of generic instances that merging has dropped. -/
  merged : Nat
  reports : List DumpReport
  deriving DecidableEq, Repr

namespace Summary

/-- The number of chunks in reports. -/
def chunkCount (reports : List DumpReport) : Nat := (reports.flatMap DumpReport.files).length

/-- The number of chunks of a run. -/
def filesWritten (s : Summary) : Nat := chunkCount s.reports

end Summary

/-- A declaration that is left out, as an object. -/
def Skipped.toJson (s : Skipped) : Json :=
  .object [("type_name", .string s.fullName), ("source_location", .optional s.location),
    ("message", .string s.error.message)]

/-- The report of one binding as an object. -/
def DumpReport.toJson (r : DumpReport) : Json :=
  .object [("flavor", .string r.flavor.name), ("types_emitted", .nat r.emitted),
    ("types_failed", .nat r.failed), ("files", .strings r.files),
    ("namespace_file", .string r.namespaceFile), ("namespace_count", .nat r.namespaceCount),
    ("unexported_file", .string r.stubFile), ("unexported_count", .nat r.missing.length),
    ("unexported_types", .strings r.missing), ("failures", .array (r.skipped.map Skipped.toJson))]

/-- The report of a run as an object. -/
def Summary.toJson (s : Summary) : Json :=
  .object [("catalog", .string s.catalog), ("analyzed_symbols", .nat s.analyzedSymbols.toNat),
    ("catalog_types", .nat s.catalogTypes), ("type_definitions", .nat s.definitions),
    ("merged_count", .nat s.merged), ("flavors", .array (s.reports.map DumpReport.toJson))]

end LuaTypings
