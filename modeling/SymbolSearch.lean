import SymbolSearch.Command.Arguments
import SymbolSearch.Command.Invocation
import SymbolSearch.Command.Report
import SymbolSearch.Command.Run
import SymbolSearch.Data.Assoc
import SymbolSearch.Data.Coerce
import SymbolSearch.Data.Issue
import SymbolSearch.Data.Moment
import SymbolSearch.Data.Value
import SymbolSearch.Definition
import SymbolSearch.Disk.Basic
import SymbolSearch.Disk.Canonical
import SymbolSearch.Disk.Entry
import SymbolSearch.Fault
import SymbolSearch.Host
import SymbolSearch.Ignore.File
import SymbolSearch.Ignore.Matching
import SymbolSearch.Ignore.Rule
import SymbolSearch.Index
import SymbolSearch.Json.Reader
import SymbolSearch.Json.Writer
import SymbolSearch.Main
import SymbolSearch.Number.Double
import SymbolSearch.Number.Reading
import SymbolSearch.Number.Shortest
import SymbolSearch.Path.Basic
import SymbolSearch.Path.Normal
import SymbolSearch.Pattern.CharSet
import SymbolSearch.Pattern.Expression
import SymbolSearch.Pattern.ExpressionText
import SymbolSearch.Pattern.Wildcard
import SymbolSearch.Proofs.Answer
import SymbolSearch.Proofs.Characters
import SymbolSearch.Proofs.Command.Document
import SymbolSearch.Proofs.Definition.Grammar
import SymbolSearch.Proofs.Definition.Names
import SymbolSearch.Proofs.Definition.Readings
import SymbolSearch.Proofs.Disk
import SymbolSearch.Proofs.Disk.LinkFree
import SymbolSearch.Proofs.Disk.Resolution
import SymbolSearch.Proofs.Disk.Ways
import SymbolSearch.Proofs.Ignore
import SymbolSearch.Proofs.Ignore.Tree
import SymbolSearch.Proofs.Json.RoundTrip
import SymbolSearch.Proofs.Json.Scalars
import SymbolSearch.Proofs.LowerCase
import SymbolSearch.Proofs.Matching
import SymbolSearch.Proofs.Matching.WholeName
import SymbolSearch.Proofs.Path.Normal
import SymbolSearch.Proofs.Path.Order
import SymbolSearch.Proofs.Path.Writing
import SymbolSearch.Proofs.Provider
import SymbolSearch.Proofs.Provider.Conjunction
import SymbolSearch.Proofs.Provider.DumpLines
import SymbolSearch.Proofs.Provider.Interleaving
import SymbolSearch.Proofs.Provider.Pool
import SymbolSearch.Proofs.Provider.RecordShapes
import SymbolSearch.Proofs.Query.Normal
import SymbolSearch.Proofs.Scanner
import SymbolSearch.Proofs.Search.Availability
import SymbolSearch.Proofs.Search.Failure
import SymbolSearch.Proofs.Search.FirstMatch
import SymbolSearch.Proofs.Search.Keywords
import SymbolSearch.Proofs.Search.Locate
import SymbolSearch.Proofs.Search.Session
import SymbolSearch.Proofs.Search.Tiers
import SymbolSearch.Proofs.Search.Trace
import SymbolSearch.Proofs.Settings
import SymbolSearch.Proofs.Source
import SymbolSearch.Proofs.Source.Files
import SymbolSearch.Proofs.Source.NestedIgnores
import SymbolSearch.Proofs.Source.Pruning
import SymbolSearch.Proofs.Source.Walk
import SymbolSearch.Proofs.Symbol
import SymbolSearch.Proofs.Symbol.Record
import SymbolSearch.Proofs.Symbol.Shared
import SymbolSearch.Proofs.Tags
import SymbolSearch.Proofs.Tags.Escaping
import SymbolSearch.Proofs.Tags.Fields
import SymbolSearch.Proofs.Tags.FirstReading
import SymbolSearch.Proofs.Tags.Invariants
import SymbolSearch.Proofs.Tags.LineNumbers
import SymbolSearch.Proofs.Tags.Reading
import SymbolSearch.Proofs.Tags.RoundTrip
import SymbolSearch.Proofs.Tags.Terminators
import SymbolSearch.Proofs.Tags.WholeLine
import SymbolSearch.Proofs.Text
import SymbolSearch.Proofs.Toml.Documents
import SymbolSearch.Proofs.Toml.Readers
import SymbolSearch.Proofs.Trail
import SymbolSearch.Proofs.Tree.Memory
import SymbolSearch.Proofs.Tree.Walk
import SymbolSearch.Proofs.Uri
import SymbolSearch.Proofs.Utf8
import SymbolSearch.Proofs.Value
import SymbolSearch.Provider.Basic
import SymbolSearch.Provider.Dump
import SymbolSearch.Query.Basic
import SymbolSearch.Query.Matching
import SymbolSearch.Search.Outcome
import SymbolSearch.Search.Searcher
import SymbolSearch.Settings.Basic
import SymbolSearch.Settings.File
import SymbolSearch.Source.Files
import SymbolSearch.Source.Scanner
import SymbolSearch.Symbol.Basic
import SymbolSearch.Symbol.Conversion
import SymbolSearch.Symbol.Record
import SymbolSearch.Symbol.Shared
import SymbolSearch.Tags.Basic
import SymbolSearch.Tags.Line
import SymbolSearch.Tags.LineFinder
import SymbolSearch.Tags.SearchPattern
import SymbolSearch.Text.Basic
import SymbolSearch.Text.Blank
import SymbolSearch.Text.Digit
import SymbolSearch.Text.Line
import SymbolSearch.Text.LowerCase
import SymbolSearch.Text.Printable
import SymbolSearch.Text.Quoted
import SymbolSearch.Text.Ranges
import SymbolSearch.Text.Utf8
import SymbolSearch.Text.WordChar
import SymbolSearch.Toml.Document
import SymbolSearch.Toml.Lexical
import SymbolSearch.Toml.Scalar
import SymbolSearch.Toml.Tables
import SymbolSearch.Toml.Value
import SymbolSearch.Trail
import SymbolSearch.Tree.Basic
import SymbolSearch.Tree.Memory
import SymbolSearch.Uri.Authority
import SymbolSearch.Uri.Basic
import SymbolSearch.Workspace
