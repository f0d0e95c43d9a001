import Diagnostics.Category
import Diagnostics.CommandLine.Arguments
import Diagnostics.CommandLine.Configuration
import Diagnostics.CommandLine.Run
import Diagnostics.Corpus
import Diagnostics.Explanation.Basic
import Diagnostics.Explanation.FrontMatter
import Diagnostics.Explanation.Substitution
import Diagnostics.Files.Path
import Diagnostics.Files.Tree
import Diagnostics.Finding
import Diagnostics.Json.Reader
import Diagnostics.Json.Term
import Diagnostics.Json.Writer
import Diagnostics.Main
import Diagnostics.Matching.Filling
import Diagnostics.Matching.Recognition
import Diagnostics.Matching.Specificity
import Diagnostics.Message
import Diagnostics.Notice
import Diagnostics.Options
import Diagnostics.Parser
import Diagnostics.Piece
import Diagnostics.Placeholder
import Diagnostics.Proofs.Bytewise.Basic
import Diagnostics.Proofs.Bytewise.FrontMatter
import Diagnostics.Proofs.Bytewise.Message
import Diagnostics.Proofs.Bytewise.Parser
import Diagnostics.Proofs.Bytewise.Scan
import Diagnostics.Proofs.Bytewise.Substitution
import Diagnostics.Proofs.Bytewise.Trim
import Diagnostics.Proofs.CommandLine.Effect
import Diagnostics.Proofs.CommandLine.Outcome
import Diagnostics.Proofs.Corpus.Legible
import Diagnostics.Proofs.Explanation.FrontMatter
import Diagnostics.Proofs.Explanation.Rendering
import Diagnostics.Proofs.Explanation.Rewriting
import Diagnostics.Proofs.Finding.Faithful
import Diagnostics.Proofs.Json.Reading
import Diagnostics.Proofs.Json.Value
import Diagnostics.Proofs.Matching.Account
import Diagnostics.Proofs.Matching.Choice
import Diagnostics.Proofs.Matching.Filling
import Diagnostics.Proofs.Matching.Least
import Diagnostics.Proofs.Matching.Precedence
import Diagnostics.Proofs.Matching.Reading
import Diagnostics.Proofs.Matching.Shift
import Diagnostics.Proofs.Message.Chain
import Diagnostics.Proofs.Message.Concat
import Diagnostics.Proofs.Message.Folded
import Diagnostics.Proofs.Message.Heads
import Diagnostics.Proofs.Message.LineEnds
import Diagnostics.Proofs.Message.Listing
import Diagnostics.Proofs.Message.Padding
import Diagnostics.Proofs.Message.Places
import Diagnostics.Proofs.Message.Tiling
import Diagnostics.Proofs.Parser.Chain
import Diagnostics.Proofs.Parser.Concat
import Diagnostics.Proofs.Parser.Explained
import Diagnostics.Proofs.Parser.Faithful
import Diagnostics.Proofs.Parser.Layout
import Diagnostics.Proofs.Parser.RoundTrip
import Diagnostics.Proofs.Parser.Unchaining
import Diagnostics.Proofs.Registry.Entries
import Diagnostics.Proofs.Registry.Legible
import Diagnostics.Proofs.Registry.Loading
import Diagnostics.Proofs.Registry.Order
import Diagnostics.Proofs.Sketch.Basic
import Diagnostics.Proofs.Sketch.Chain
import Diagnostics.Proofs.Sketch.Progress
import Diagnostics.Proofs.Sketch.Rendering
import Diagnostics.Proofs.Template.Fragments
import Diagnostics.Proofs.Template.Measures
import Diagnostics.Proofs.Template.Numerals
import Diagnostics.Proofs.Template.Parts
import Diagnostics.Proofs.Template.Printing
import Diagnostics.Proofs.Template.Survey
import Diagnostics.Proofs.Template.Tokens
import Diagnostics.Proofs.Text.Cut
import Diagnostics.Proofs.Text.Encoding
import Diagnostics.Proofs.Text.LineEnds
import Diagnostics.Proofs.Text.Lines
import Diagnostics.Proofs.Text.Occurrence
import Diagnostics.Proofs.Text.Trim
import Diagnostics.Registry.Basic
import Diagnostics.Registry.Reader
import Diagnostics.Span
import Diagnostics.Template.Basic
import Diagnostics.Template.Segment
import Diagnostics.Text.Basic
import Diagnostics.Text.Blank
import Diagnostics.Text.Lines
import Diagnostics.Text.Search
import Diagnostics.Toml.Document
import Diagnostics.Toml.Scalar
import Diagnostics.Toml.Value
import Diagnostics.Yaml.Cursor
import Diagnostics.Yaml.Node
import Diagnostics.Yaml.Record
import Diagnostics.Yaml.Scalar
import Diagnostics.Yaml.Tag
import Diagnostics.Yaml.Token
