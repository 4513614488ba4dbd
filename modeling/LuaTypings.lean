import LuaTypings.Annotations
import LuaTypings.BaseName
import LuaTypings.Block
import LuaTypings.Builtin
import LuaTypings.Catalog.Basic
import LuaTypings.Catalog.Builder
import LuaTypings.Catalog.Decode
import LuaTypings.Catalog.Encode
import LuaTypings.Chunk
import LuaTypings.CommandLine
import LuaTypings.Config
import LuaTypings.Decimal.Shortest
import LuaTypings.Declaration
import LuaTypings.Dump
import LuaTypings.DumpError
import LuaTypings.Files.Path
import LuaTypings.Files.Store
import LuaTypings.Files.Tree
import LuaTypings.Flavor
import LuaTypings.Generics
import LuaTypings.HostName
import LuaTypings.HostType.Basic
import LuaTypings.HostType.Parser
import LuaTypings.Json.Basic
import LuaTypings.Json.Number
import LuaTypings.Json.Printer
import LuaTypings.Json.Scan
import LuaTypings.Json.Shape
import LuaTypings.Json.Token
import LuaTypings.Main
import LuaTypings.NamespaceIndex
import LuaTypings.Program
import LuaTypings.Proofs.ArgumentNames
import LuaTypings.Proofs.BaseName.Peeled
import LuaTypings.Proofs.BaseName.Root
import LuaTypings.Proofs.Catalog.Building
import LuaTypings.Proofs.Catalog.Records
import LuaTypings.Proofs.Catalog.RoundTrip
import LuaTypings.Proofs.Checks
import LuaTypings.Proofs.Chunk
import LuaTypings.Proofs.Chunk.Cuts
import LuaTypings.Proofs.Chunk.Refusals
import LuaTypings.Proofs.CodeNames
import LuaTypings.Proofs.DeclaredNames
import LuaTypings.Proofs.Documentation
import LuaTypings.Proofs.Documentation.LineEnds
import LuaTypings.Proofs.Dump
import LuaTypings.Proofs.Dump.Declared
import LuaTypings.Proofs.Dump.Places
import LuaTypings.Proofs.Dump.Rerun
import LuaTypings.Proofs.Dump.Roots
import LuaTypings.Proofs.Dump.SideBySide
import LuaTypings.Proofs.Files.Directories
import LuaTypings.Proofs.Files.Tree
import LuaTypings.Proofs.Files.Writes
import LuaTypings.Proofs.FirstOccurrences
import LuaTypings.Proofs.Flavors
import LuaTypings.Proofs.Generics.Append
import LuaTypings.Proofs.Generics.Arguments
import LuaTypings.Proofs.Generics.Arity
import LuaTypings.Proofs.Generics.Keys
import LuaTypings.Proofs.Generics.LostNames
import LuaTypings.Proofs.Generics.Names
import LuaTypings.Proofs.Generics.Paths
import LuaTypings.Proofs.Generics.Placeholders
import LuaTypings.Proofs.Generics.Survivors
import LuaTypings.Proofs.Headers
import LuaTypings.Proofs.HostName.Bare
import LuaTypings.Proofs.HostName.Brackets
import LuaTypings.Proofs.HostName.Commas
import LuaTypings.Proofs.HostName.Roots
import LuaTypings.Proofs.HostName.Segments
import LuaTypings.Proofs.HostName.Shown
import LuaTypings.Proofs.HostType.Grammar
import LuaTypings.Proofs.HostType.Passing
import LuaTypings.Proofs.HostType.Suffix
import LuaTypings.Proofs.HostType.Tokens
import LuaTypings.Proofs.Json.Lexing
import LuaTypings.Proofs.Json.Shape
import LuaTypings.Proofs.Json.Written
import LuaTypings.Proofs.LuaType
import LuaTypings.Proofs.NamespaceIndex
import LuaTypings.Proofs.References
import LuaTypings.Proofs.References.Calls
import LuaTypings.Proofs.Renderable
import LuaTypings.Proofs.Run
import LuaTypings.Proofs.Run.AbortMessage
import LuaTypings.Proofs.Run.Aborted
import LuaTypings.Proofs.Run.Accounts
import LuaTypings.Proofs.Run.Bindings
import LuaTypings.Proofs.Run.Independence
import LuaTypings.Proofs.Run.Merged
import LuaTypings.Proofs.Settings
import LuaTypings.Proofs.Signatures
import LuaTypings.Proofs.Spelling
import LuaTypings.Proofs.Statements
import LuaTypings.Proofs.StubNames
import LuaTypings.Proofs.Stubs
import LuaTypings.Proofs.Text.Pieces
import LuaTypings.Proofs.Text.Replace
import LuaTypings.Proofs.UserNames
import LuaTypings.References
import LuaTypings.RenderError
import LuaTypings.Run
import LuaTypings.RunError
import LuaTypings.Settings
import LuaTypings.Spelling
import LuaTypings.Summary
import LuaTypings.Text.Blank
import LuaTypings.Text.Digits
import LuaTypings.Text.Letter
import LuaTypings.Text.Pieces
import LuaTypings.Text.Printable
import LuaTypings.Text.Quoted
import LuaTypings.Text.Replace
import LuaTypings.Toml.Basic
import LuaTypings.Toml.Number
import LuaTypings.Toml.Parser
import LuaTypings.Toml.Reading
import LuaTypings.Toml.Text
