import TokenHighlight.CommandLine.Arguments
import TokenHighlight.CommandLine.Parser
import TokenHighlight.CommandLine.Printer
import TokenHighlight.CommandLine.Scan
import TokenHighlight.Config
import TokenHighlight.Config.Toml
import TokenHighlight.Data
import TokenHighlight.Element
import TokenHighlight.Found
import TokenHighlight.Highlight
import TokenHighlight.HintedError
import TokenHighlight.Html.Document
import TokenHighlight.Html.Escape
import TokenHighlight.Html.Markup
import TokenHighlight.Html.Writer
import TokenHighlight.Json.Error
import TokenHighlight.Json.Number
import TokenHighlight.Json.Printer
import TokenHighlight.Json.Skip
import TokenHighlight.Json.Text
import TokenHighlight.Json.Value
import TokenHighlight.Kind
import TokenHighlight.Kind.Groups
import TokenHighlight.Kind.Set
import TokenHighlight.Main
import TokenHighlight.NameMap
import TokenHighlight.Number.Binary64
import TokenHighlight.Number.Decimal
import TokenHighlight.Number.Shortest
import TokenHighlight.Program.Commands
import TokenHighlight.Program.Failure
import TokenHighlight.Program.Files
import TokenHighlight.Program.Log
import TokenHighlight.Program.Render
import TokenHighlight.Program.Run
import TokenHighlight.Table
import TokenHighlight.Tag
import TokenHighlight.Tag.Choice
import TokenHighlight.Text.Blank
import TokenHighlight.Text.Hex
import TokenHighlight.Text.Hidden
import TokenHighlight.Text.Lines
import TokenHighlight.Text.Quoted
import TokenHighlight.Text.Utf8
import TokenHighlight.TokenStream
import TokenHighlight.Toml.Document
import TokenHighlight.Toml.Number
import TokenHighlight.Toml.Printer
import TokenHighlight.Toml.Text
import TokenHighlight.Toml.Tree
import TokenHighlight.Toml.Value
import TokenHighlight.Vocabulary
import TokenHighlight.Vocabulary.Index
import TokenHighlight.Vocabulary.Resolve
import TokenHighlight.Vocabulary.Sync
import TokenHighlight.Vocabulary.Tokens
import TokenHighlight.Yaml.Printer
import TokenHighlight.Yaml.Scalar
import TokenHighlight.Proofs.CommandLine.RoundTrip
import TokenHighlight.Proofs.CommandLine.Steps
import TokenHighlight.Proofs.Config.Documents
import TokenHighlight.Proofs.Config.Fields
import TokenHighlight.Proofs.Config.Toml
import TokenHighlight.Proofs.HintedError
import TokenHighlight.Proofs.Html.Append
import TokenHighlight.Proofs.Html.Grammar
import TokenHighlight.Proofs.Html.Markup
import TokenHighlight.Proofs.Html.ReadBack
import TokenHighlight.Proofs.Html.Rows
import TokenHighlight.Proofs.Html.Untagged
import TokenHighlight.Proofs.Html.Validation
import TokenHighlight.Proofs.Json.Number
import TokenHighlight.Proofs.Json.Value
import TokenHighlight.Proofs.Kind.Set
import TokenHighlight.Proofs.NameMap
import TokenHighlight.Proofs.Number.Decimal
import TokenHighlight.Proofs.Program.Agreement
import TokenHighlight.Proofs.Program.Check
import TokenHighlight.Proofs.Program.Classify
import TokenHighlight.Proofs.Program.Complaint
import TokenHighlight.Proofs.Program.Configuration
import TokenHighlight.Proofs.Program.Files
import TokenHighlight.Proofs.Program.Highlight
import TokenHighlight.Proofs.Program.LongestPrefix
import TokenHighlight.Proofs.Program.Run
import TokenHighlight.Proofs.Program.StandardError
import TokenHighlight.Proofs.Table.Build
import TokenHighlight.Proofs.Table.Classify
import TokenHighlight.Proofs.Table.Configure
import TokenHighlight.Proofs.Table.Export
import TokenHighlight.Proofs.Table.Print
import TokenHighlight.Proofs.Table.Runs
import TokenHighlight.Proofs.Text.ByteOrder
import TokenHighlight.Proofs.Text.Lines
import TokenHighlight.Proofs.Text.Slices
import TokenHighlight.Proofs.TokenStream.Grammar
import TokenHighlight.Proofs.TokenStream.Offsets
import TokenHighlight.Proofs.TokenStream.Reading
import TokenHighlight.Proofs.TokenStream.Tokens
import TokenHighlight.Proofs.Toml.Contents
import TokenHighlight.Proofs.Toml.DistinctNames
import TokenHighlight.Proofs.Toml.Document
import TokenHighlight.Proofs.Toml.Text
import TokenHighlight.Proofs.Toml.Tree
import TokenHighlight.Proofs.Vocabulary.Builtin
import TokenHighlight.Proofs.Vocabulary.Grammar
import TokenHighlight.Proofs.Vocabulary.InSync
import TokenHighlight.Proofs.Vocabulary.Index
import TokenHighlight.Proofs.Vocabulary.LineOrder
import TokenHighlight.Proofs.Vocabulary.Lookup
import TokenHighlight.Proofs.Vocabulary.Patch
import TokenHighlight.Proofs.Vocabulary.Precedence
import TokenHighlight.Proofs.Vocabulary.Resolve
import TokenHighlight.Proofs.Vocabulary.RoundTrip
import TokenHighlight.Proofs.Vocabulary.Sync
import TokenHighlight.Proofs.Yaml.Printer
