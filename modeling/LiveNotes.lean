import LiveNotes.Text.Letter
import LiveNotes.Text.Quoted
import LiveNotes.Text.Case
import LiveNotes.Text.Blank
import LiveNotes.Text.Search
import LiveNotes.Entries
import LiveNotes.Number.Text
import LiveNotes.Number.Numeral
import LiveNotes.Number.Integer
import LiveNotes.Number.Decimal
import LiveNotes.Value.Arith
import LiveNotes.Value.Inline
import LiveNotes.Json.Value
import LiveNotes.Script.Lexer
import LiveNotes.Script.Parser
import LiveNotes.Script.Convert
import LiveNotes.Script.Operator
import LiveNotes.Script.Machine
import LiveNotes.Script.Method
import LiveNotes.Script.Global
import LiveNotes.Script.Callback
import LiveNotes.Script.Eval
import LiveNotes.Script.Call
import LiveNotes.Path
import LiveNotes.Query.Parser
import LiveNotes.Store.Basic
import LiveNotes.Store.Tracker
import LiveNotes.Query.Eval
import LiveNotes.Markup
import LiveNotes.FrontMatter
import LiveNotes.Main
import LiveNotes.Files.Disk
import LiveNotes.Settings.Storage
import LiveNotes.Store.Vault
import LiveNotes.Settings.Function
import LiveNotes.Proofs.Script.Budget
import LiveNotes.Proofs.Script.Grammar
import LiveNotes.Proofs.Script.ParserSound
import LiveNotes.Proofs.Script.Height
import LiveNotes.Proofs.Script.Allocation
import LiveNotes.Proofs.Script.Printer
import LiveNotes.Proofs.Script.RoundTrip
import LiveNotes.Proofs.Text.Search
import LiveNotes.Proofs.Text.Blank
import LiveNotes.Proofs.Query.Arguments
import LiveNotes.Proofs.Query.RoundTrip
import LiveNotes.Proofs.Query.Grammar
import LiveNotes.Proofs.Query.Constructed
import LiveNotes.Proofs.Text.Pieces
import LiveNotes.Proofs.Markup.Encoding
import LiveNotes.Proofs.Markup.Spans
import LiveNotes.Proofs.Markup.Segments
import LiveNotes.Proofs.Markup.Rerender
import LiveNotes.Proofs.Markup.Queries
import LiveNotes.Proofs.Store.Tree
import LiveNotes.Proofs.Store.Refresh
import LiveNotes.Proofs.Store.Resolution
import LiveNotes.Proofs.Store.Documents
import LiveNotes.Proofs.Path.Steps
import LiveNotes.Proofs.Path.Parts
import LiveNotes.Proofs.Path.Lookup
import LiveNotes.Proofs.Path.Spelling
import LiveNotes.Proofs.Store.Index
import LiveNotes.Proofs.Value.Nesting
import LiveNotes.Proofs.Script.Frames
import LiveNotes.Proofs.Script.Lexing
import LiveNotes.Proofs.Script.Nesting
import LiveNotes.Proofs.Script.Scope
import LiveNotes.Proofs.Files.Tree
import LiveNotes.Proofs.Files.Disk
import LiveNotes.Proofs.Settings.Functions
import LiveNotes.Proofs.Json.Grammar
import LiveNotes.Proofs.Json.Reader
import LiveNotes.Proofs.Json.RoundTrip
import LiveNotes.Proofs.Number.Equality
import LiveNotes.Proofs.Number.Finite
import LiveNotes.Proofs.Value.Equality
import LiveNotes.Proofs.Store.Tracker
import LiveNotes.Proofs.Settings.Removal
import LiveNotes.Proofs.Script.Confinement
import LiveNotes.Proofs.Script.ItemMethods
import LiveNotes.Proofs.Query.Dependence
import LiveNotes.Proofs.Query.SavedFunctions
import LiveNotes.Proofs.Query.Templates
import LiveNotes.Proofs.Query.Sums
import LiveNotes.Proofs.Number.Whole
import LiveNotes.Proofs.Number.Nearest
import LiveNotes.Proofs.Number.Shortest
import LiveNotes.Proofs.Value.Arithmetic
import LiveNotes.Proofs.Number.Order
import LiveNotes.Proofs.Number.Digits
import LiveNotes.Proofs.Script.Expressions
import LiveNotes.Proofs.Script.Comparison
import LiveNotes.Proofs.Script.Costs
import LiveNotes.Proofs.Script.Integers
import LiveNotes.Proofs.Script.Objects
import LiveNotes.Proofs.Script.TextMethods
import LiveNotes.Proofs.Script.Converse
import LiveNotes.Proofs.Script.Slices
import LiveNotes.Proofs.Script.Gaps
import LiveNotes.Proofs.Script.Lexemes
import LiveNotes.Proofs.Script.Partition
import LiveNotes.Proofs.Script.Consumption
import LiveNotes.Proofs.Script.Names
import LiveNotes.Proofs.Script.Siblings
import LiveNotes.Proofs.Script.Writing
import LiveNotes.Proofs.FrontMatter
import LiveNotes.Proofs.Json.Printer
import LiveNotes.Proofs.Settings.File
import LiveNotes.Proofs.Number.Numerals
import LiveNotes.Proofs.Script.NumericTexts
import LiveNotes.Proofs.Text.Bytes
import LiveNotes.Proofs.Number.Readback
import LiveNotes.Proofs.Number.Scan
import LiveNotes.Proofs.Script.Ranges
import LiveNotes.Proofs.Script.LeadingNumbers
import LiveNotes.Proofs.Yaml.Keys
