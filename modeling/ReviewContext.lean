import ReviewContext.Assembly
import ReviewContext.Change.ChangedFile
import ReviewContext.Change.RelatedFile
import ReviewContext.Change.Summary
import ReviewContext.CommandLine.Assemble
import ReviewContext.CommandLine.Grammar
import ReviewContext.CommandLine.Invocation
import ReviewContext.CommandLine.Usage
import ReviewContext.Config
import ReviewContext.Diff
import ReviewContext.Diff.Input
import ReviewContext.Discovery.Dependents
import ReviewContext.Discovery.Tests
import ReviewContext.Duration
import ReviewContext.Environment
import ReviewContext.Excerpt
import ReviewContext.Field
import ReviewContext.Files
import ReviewContext.Git.Commands
import ReviewContext.Git.Repository
import ReviewContext.GitHub.Client
import ReviewContext.GitHub.Content
import ReviewContext.GitHub.Query
import ReviewContext.Host.Basic
import ReviewContext.Host.Memory
import ReviewContext.Json.Basic
import ReviewContext.Json.Fields
import ReviewContext.Json.Reader
import ReviewContext.Language
import ReviewContext.Machine
import ReviewContext.Main
import ReviewContext.Path
import ReviewContext.Program
import ReviewContext.Report.Document
import ReviewContext.Report.Styled
import ReviewContext.Report.Terminal
import ReviewContext.RepositoryRef
import ReviewContext.Settings
import ReviewContext.Source.CommentStyle
import ReviewContext.Source.Exports
import ReviewContext.Source.Imports
import ReviewContext.Source.Record
import ReviewContext.Source.Statement
import ReviewContext.Source.Stripped
import ReviewContext.Source.Token
import ReviewContext.Strategy
import ReviewContext.TestName
import ReviewContext.Text.Base64
import ReviewContext.Text.Basic
import ReviewContext.Text.Boundaries
import ReviewContext.Text.Hex
import ReviewContext.Text.Lowercase
import ReviewContext.Text.Printable
import ReviewContext.Text.Shown
import ReviewContext.Text.Utf8
import ReviewContext.Text.Word
import ReviewContext.Toml.Basic
import ReviewContext.Toml.Reader
import ReviewContext.Toml.Scalar
import ReviewContext.Toml.Table
import ReviewContext.Toml.Text
import ReviewContext.Web.Exchange
import ReviewContext.Web.Percent
import ReviewContext.Web.Url
import ReviewContext.Proofs.Host.Alike
import ReviewContext.Proofs.Host.Tape
import ReviewContext.Proofs.Discovery.Screening
import ReviewContext.Proofs.Discovery.Evidence
import ReviewContext.Proofs.Assembly.Pass
import ReviewContext.Proofs.Assembly.Alike
import ReviewContext.Proofs.Assembly.Tape
import ReviewContext.Proofs.Host.Memory
import ReviewContext.Proofs.Assembly.Bundle
import ReviewContext.Proofs.Assembly.Pool
import ReviewContext.Proofs.Discovery.Limits
import ReviewContext.Proofs.Discovery.Dependents
import ReviewContext.Proofs.Assembly.Selection
import ReviewContext.Proofs.Assembly.Shares
import ReviewContext.Proofs.Assembly.Verified
import ReviewContext.Proofs.Assembly.Fallback
import ReviewContext.Proofs.Assembly.Shapes
import ReviewContext.Proofs.Assembly.Denial
import ReviewContext.Proofs.Source.Scan
import ReviewContext.Proofs.Source.Comments
import ReviewContext.Proofs.Source.Reading
import ReviewContext.Proofs.Source.Search
import ReviewContext.Proofs.Source.Calls
import ReviewContext.Proofs.Source.Quotes
import ReviewContext.Proofs.Source.Literals
import ReviewContext.Proofs.Text.Rows
import ReviewContext.Proofs.Diff.Layout
import ReviewContext.Proofs.Diff.Sections
import ReviewContext.Proofs.Diff.Patches
import ReviewContext.Proofs.Diff.Reading
import ReviewContext.Proofs.Diff.QuotedNames
import ReviewContext.Proofs.Source.Unfinished
import ReviewContext.Proofs.Source.Script
import ReviewContext.Proofs.Source.ScriptImports
import ReviewContext.Proofs.Host.Answers
import ReviewContext.Proofs.Assembly.Answers
import ReviewContext.Proofs.Assembly.Again
import ReviewContext.Proofs.Assembly.Locality
import ReviewContext.Proofs.Host.Pace
import ReviewContext.Proofs.Assembly.Arrival
import ReviewContext.Proofs.Config.Layers
import ReviewContext.Proofs.Json.RoundTrip
import ReviewContext.Proofs.Report.Document
import ReviewContext.Proofs.Source.Ends
import ReviewContext.Proofs.Source.Lines
import ReviewContext.Proofs.Source.StrippedAgain
import ReviewContext.Proofs.Source.Spans
import ReviewContext.Proofs.Source.WellFormed
import ReviewContext.Proofs.Source.RawLiterals
import ReviewContext.Proofs.Source.LineEnds
import ReviewContext.Proofs.Source.Python
import ReviewContext.Proofs.Source.PythonImports
import ReviewContext.Proofs.Discovery.Accepted
import ReviewContext.Proofs.Discovery.Repeats
import ReviewContext.Proofs.Discovery.NamedTests
import ReviewContext.Proofs.Assembly.Vendored
import ReviewContext.Proofs.Assembly.OwnTests
import ReviewContext.Proofs.Text.Truncation
import ReviewContext.Proofs.Text.Markers
import ReviewContext.Proofs.Text.Utf8
import ReviewContext.Proofs.GitHub.Queries
import ReviewContext.Proofs.GitHub.Pages
import ReviewContext.Proofs.Web.Percent
import ReviewContext.Proofs.Web.Paths
import ReviewContext.Proofs.GitHub.Addresses
import ReviewContext.Proofs.Discovery.Failures
import ReviewContext.Proofs.Assembly.Ceiling
import ReviewContext.Proofs.Assembly.Leftovers
import ReviewContext.Proofs.Failing
import ReviewContext.Proofs.Names.Paths
import ReviewContext.Proofs.Names.Spellings
import ReviewContext.Proofs.Names.Tests
import ReviewContext.Proofs.Report.Sequences
import ReviewContext.Proofs.Report.Colours
import ReviewContext.Proofs.Text.Base64
import ReviewContext.Proofs.GitHub.Contents
