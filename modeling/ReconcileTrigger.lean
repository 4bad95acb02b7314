import ReconcileTrigger.Binary64.Basic
import ReconcileTrigger.Binary64.Datum
import ReconcileTrigger.Binary64.Shortest
import ReconcileTrigger.Catalog
import ReconcileTrigger.CommandLine.Arguments
import ReconcileTrigger.CommandLine.Outcome
import ReconcileTrigger.Comparison
import ReconcileTrigger.Decimal
import ReconcileTrigger.Dict
import ReconcileTrigger.Diff
import ReconcileTrigger.Document
import ReconcileTrigger.Document.Format
import ReconcileTrigger.Document.Overlay
import ReconcileTrigger.Environment
import ReconcileTrigger.Equivalence
import ReconcileTrigger.Event
import ReconcileTrigger.Failure
import ReconcileTrigger.Files
import ReconcileTrigger.Json.Number
import ReconcileTrigger.Json.Numeral
import ReconcileTrigger.Json.Patch
import ReconcileTrigger.Json.Pointer
import ReconcileTrigger.Json.Printer
import ReconcileTrigger.Json.Reader
import ReconcileTrigger.Json.Shape
import ReconcileTrigger.Json.Token
import ReconcileTrigger.Json.Value
import ReconcileTrigger.Labels
import ReconcileTrigger.Log
import ReconcileTrigger.Main
import ReconcileTrigger.Object.Basic
import ReconcileTrigger.Object.Snapshot
import ReconcileTrigger.Ownership
import ReconcileTrigger.Quantity
import ReconcileTrigger.Record
import ReconcileTrigger.Rule.Basic
import ReconcileTrigger.Rule.Set
import ReconcileTrigger.Settings.Basic
import ReconcileTrigger.Settings.Load
import ReconcileTrigger.Settings.Record
import ReconcileTrigger.Settings.Validation
import ReconcileTrigger.Settings.Written
import ReconcileTrigger.Text.Blank
import ReconcileTrigger.Text.Digits
import ReconcileTrigger.Text.Glyphless
import ReconcileTrigger.Text.Quoted
import ReconcileTrigger.Text.Words
import ReconcileTrigger.Timestamp
import ReconcileTrigger.Toml.Quotes
import ReconcileTrigger.Toml.Quotes.Reader
import ReconcileTrigger.Toml.Reader
import ReconcileTrigger.Toml.Scalar
import ReconcileTrigger.Toml.Table
import ReconcileTrigger.Trigger.Gate
import ReconcileTrigger.Trigger.Primary
import ReconcileTrigger.Trigger.Secondary
import ReconcileTrigger.Word
import ReconcileTrigger.Proofs.Dict
import ReconcileTrigger.Proofs.Json.Agreement
import ReconcileTrigger.Proofs.Json.Position
import ReconcileTrigger.Proofs.Json.Edits
import ReconcileTrigger.Proofs.Json.EditSteps
import ReconcileTrigger.Proofs.Diff.Groups
import ReconcileTrigger.Proofs.Diff.Semantic
import ReconcileTrigger.Proofs.Json.Application
import ReconcileTrigger.Proofs.Json.Edited
import ReconcileTrigger.Proofs.Json.Equivalence
import ReconcileTrigger.Proofs.Json.Residue
import ReconcileTrigger.Proofs.Diff.Replay
import ReconcileTrigger.Proofs.Decimal
import ReconcileTrigger.Proofs.Quantity
import ReconcileTrigger.Proofs.Json.Number
import ReconcileTrigger.Proofs.Json.Amount
import ReconcileTrigger.Proofs.Names
import ReconcileTrigger.Proofs.Catalog
import ReconcileTrigger.Proofs.Catalog.Registration
import ReconcileTrigger.Proofs.Ownership
import ReconcileTrigger.Proofs.Trigger.Primary
import ReconcileTrigger.Proofs.Trigger.PrimaryRun
import ReconcileTrigger.Proofs.Json.Reading
import ReconcileTrigger.Proofs.Json.Equality
import ReconcileTrigger.Proofs.Diff.Structural
import ReconcileTrigger.Proofs.Comparison
import ReconcileTrigger.Proofs.Settings.Validation
import ReconcileTrigger.Proofs.Rule.Defaults
import ReconcileTrigger.Proofs.Trigger.Gate
import ReconcileTrigger.Proofs.Object.Reading
import ReconcileTrigger.Proofs.Trigger.PrimaryDecision
import ReconcileTrigger.Proofs.Object.Written
import ReconcileTrigger.Proofs.Trigger.Secondary
import ReconcileTrigger.Proofs.Trigger.Degradation
import ReconcileTrigger.Proofs.Rule.Appended
import ReconcileTrigger.Proofs.Trigger.Dominance
import ReconcileTrigger.Proofs.Trigger.SecondaryRun
import ReconcileTrigger.Proofs.Timestamp
import ReconcileTrigger.Proofs.Object.RoundTrip
import ReconcileTrigger.Proofs.Event
import ReconcileTrigger.Proofs.Object.Comparison
import ReconcileTrigger.Proofs.Quantity.Grammar
import ReconcileTrigger.Proofs.Quantity.Text
import ReconcileTrigger.Proofs.Toml.Quotes
import ReconcileTrigger.Proofs.Toml.Statements
import ReconcileTrigger.Proofs.Record
import ReconcileTrigger.Proofs.Toml.Table
import ReconcileTrigger.Proofs.Settings.Record
import ReconcileTrigger.Proofs.Settings.RoundTrip
import ReconcileTrigger.Proofs.Rule.History
import ReconcileTrigger.Proofs.Binary64.Interval
import ReconcileTrigger.Proofs.Binary64.Shortest
import ReconcileTrigger.Proofs.Binary64.Rounding
import ReconcileTrigger.Proofs.Json.Encoding
import ReconcileTrigger.Proofs.Settings.Requirements
import ReconcileTrigger.Proofs.Settings.Field
import ReconcileTrigger.Proofs.Settings.Partial
import ReconcileTrigger.Proofs.Environment
import ReconcileTrigger.Proofs.Settings.Overrides
import ReconcileTrigger.Proofs.Json.Interference
import ReconcileTrigger.Proofs.Diff.Replacement
import ReconcileTrigger.Proofs.Timestamp.Instant
