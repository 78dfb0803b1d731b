import DriverPolicy.Text.Blank
import DriverPolicy.Text.ControlSequence
import DriverPolicy.Text.Digit
import DriverPolicy.Text.Letter
import DriverPolicy.Text.Printable
import DriverPolicy.Text.Quoted
import DriverPolicy.Text.Rest
import DriverPolicy.Text.Similar
import DriverPolicy.Number.Binary
import DriverPolicy.Number.Decimal
import DriverPolicy.Number.Shortest
import DriverPolicy.Number.Places
import DriverPolicy.Json
import DriverPolicy.Json.Fields
import DriverPolicy.Json.Term
import DriverPolicy.Json.Reader
import DriverPolicy.Clock.Duration
import DriverPolicy.Clock.Instant
import DriverPolicy.Expression.Call
import DriverPolicy.Expression.Fault
import DriverPolicy.Expression.Head
import DriverPolicy.Expression.Fragment
import DriverPolicy.Expression.Literal
import DriverPolicy.Expression.Reading
import DriverPolicy.Expression.Record
import DriverPolicy.Expression.Outline
import DriverPolicy.Logging.Event
import DriverPolicy.Logging.Context
import DriverPolicy.Logging.Directive
import DriverPolicy.Logging.Template
import DriverPolicy.Policy.Basic
import DriverPolicy.Policy.Schedule
import DriverPolicy.Policy.Construction
import DriverPolicy.Resolution.Fault
import DriverPolicy.Registry.Kind
import DriverPolicy.Registry.Constructor
import DriverPolicy.Registry.PolicyType
import DriverPolicy.Registry.Basic
import DriverPolicy.Registry.Builtin
import DriverPolicy.Resolution.Resolver
import DriverPolicy.Storage.Path
import DriverPolicy.Storage.FileTree
import DriverPolicy.Toml.Value
import DriverPolicy.Toml.Lexeme
import DriverPolicy.Toml.Document
import DriverPolicy.Settings.Fault
import DriverPolicy.Settings.Environment
import DriverPolicy.Settings.Config
import DriverPolicy.Settings.Source
import DriverPolicy.Settings.Layers
import DriverPolicy.Settings.Loading
import DriverPolicy.Logging.Record
import DriverPolicy.Logging.Line
import DriverPolicy.Logging.Handler
import DriverPolicy.Logging.Root
import DriverPolicy.Command.ExitCode
import DriverPolicy.Command.Output
import DriverPolicy.Command.Usage
import DriverPolicy.Command.Options
import DriverPolicy.Command.Line
import DriverPolicy.Command.Listing
import DriverPolicy.Command.Run
import DriverPolicy.Command.Files
import DriverPolicy.Main
import DriverPolicy.Proofs.Attempt
import DriverPolicy.Proofs.Expression.Descent
import DriverPolicy.Proofs.Text.Trim
import DriverPolicy.Proofs.Expression.Scan
import DriverPolicy.Proofs.Expression.Shape
import DriverPolicy.Proofs.Expression.Spelling
import DriverPolicy.Proofs.Expression.Rendering
import DriverPolicy.Proofs.Expression.Outcome
import DriverPolicy.Proofs.Registry.Overflow
import DriverPolicy.Proofs.Resolution.Outcome
import DriverPolicy.Proofs.Resolution.Rounds
import DriverPolicy.Proofs.Registry.Entries
import DriverPolicy.Proofs.Registry.Listing
import DriverPolicy.Proofs.Registry.Session
import DriverPolicy.Proofs.Resolution.Trace
import DriverPolicy.Proofs.Resolution.Extension
import DriverPolicy.Proofs.Number.Value
import DriverPolicy.Proofs.Policy.Acceptance
import DriverPolicy.Proofs.Resolution.Family
import DriverPolicy.Proofs.Registry.Construction
import DriverPolicy.Proofs.Resolution.Buildable
import DriverPolicy.Proofs.Expression.Pieces
import DriverPolicy.Proofs.Expression.Marker
import DriverPolicy.Proofs.Expression.Position
import DriverPolicy.Proofs.Expression.Elsewhere
import DriverPolicy.Proofs.Expression.Composition
import DriverPolicy.Proofs.Expression.Indices
import DriverPolicy.Proofs.Expression.HeadParts
import DriverPolicy.Proofs.Resolution.Renaming
import DriverPolicy.Proofs.Resolution.Namespace
import DriverPolicy.Proofs.Resolution.Refusal
import DriverPolicy.Proofs.Settings.Range
import DriverPolicy.Proofs.Settings.Layering
import DriverPolicy.Proofs.Toml.Overlong
import DriverPolicy.Proofs.Settings.Reading
import DriverPolicy.Proofs.Settings.Caching
import DriverPolicy.Proofs.Logging.Installation
import DriverPolicy.Proofs.Logging.Session
import DriverPolicy.Proofs.Settings.Failure
import DriverPolicy.Proofs.Settings.Request
import DriverPolicy.Proofs.Storage.Appending
import DriverPolicy.Proofs.Logging.Messages
import DriverPolicy.Proofs.Logging.Written
import DriverPolicy.Proofs.Logging.Losses
import DriverPolicy.Proofs.Command.Ending
import DriverPolicy.Proofs.Expression.Places
import DriverPolicy.Proofs.Expression.Strings
import DriverPolicy.Proofs.Expression.Integers
import DriverPolicy.Proofs.Number.Digits
import DriverPolicy.Proofs.Number.Nearest
import DriverPolicy.Proofs.Number.Rounding
import DriverPolicy.Proofs.Number.Single
import DriverPolicy.Proofs.Number.Numeral
import DriverPolicy.Proofs.Expression.Reals
import DriverPolicy.Proofs.Expression.Subtrees
import DriverPolicy.Proofs.Expression.WellFormed
import DriverPolicy.Proofs.Resolution.Shared
import DriverPolicy.Proofs.Registry.Selection
import DriverPolicy.Proofs.Policy.Delays
import DriverPolicy.Proofs.Policy.Stepwise
import DriverPolicy.Proofs.Policy.LatencyRules
import DriverPolicy.Proofs.Policy.Equality
import DriverPolicy.Proofs.Resolution.WrittenOut
import DriverPolicy.Proofs.Resolution.Equality
import DriverPolicy.Proofs.Resolution.LatencyAware
import DriverPolicy.Proofs.Json.Equality
import DriverPolicy.Proofs.Expression.Records
import DriverPolicy.Proofs.Number.Shortest
import DriverPolicy.Proofs.Text.Lines
import DriverPolicy.Proofs.Text.Quoted
import DriverPolicy.Proofs.Expression.Outline
import DriverPolicy.Proofs.Expression.Caret
import DriverPolicy.Proofs.Logging.Attributes
import DriverPolicy.Proofs.Logging.Fallback
import DriverPolicy.Proofs.Settings.Documented
import DriverPolicy.Proofs.Settings.Precedence
import DriverPolicy.Proofs.Expression.Brackets
import DriverPolicy.Proofs.Expression.Spans
import DriverPolicy.Proofs.Registry.Positional
