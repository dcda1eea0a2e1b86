import PenPlotter.Calendar
import PenPlotter.CommandLine.Outcome
import PenPlotter.CommandLine.Request
import PenPlotter.CommandLine.Switch
import PenPlotter.Failure
import PenPlotter.Fault
import PenPlotter.Job.Load
import PenPlotter.Main
import PenPlotter.Number.Double
import PenPlotter.Number.Literal
import PenPlotter.Number.Notation
import PenPlotter.Plot.Command
import PenPlotter.Plot.Delivery
import PenPlotter.Plot.Item
import PenPlotter.Plot.Setup
import PenPlotter.Profile.Build
import PenPlotter.Profile.Catalog
import PenPlotter.Proofs.CommandLine.Actions
import PenPlotter.Proofs.CommandLine.Agreement
import PenPlotter.Proofs.CommandLine.Clean
import PenPlotter.Proofs.CommandLine.Listing
import PenPlotter.Proofs.CommandLine.Output
import PenPlotter.Proofs.CommandLine.Stray
import PenPlotter.Proofs.Delivery.Calls
import PenPlotter.Proofs.Delivery.Counting
import PenPlotter.Proofs.Delivery.Recording
import PenPlotter.Proofs.Delivery.Retries
import PenPlotter.Proofs.Delivery.Taken
import PenPlotter.Proofs.Delivery.Unrendered
import PenPlotter.Proofs.Job.Announced
import PenPlotter.Proofs.Job.Built
import PenPlotter.Proofs.Job.FirstFault
import PenPlotter.Proofs.Job.Form
import PenPlotter.Proofs.Job.Judged
import PenPlotter.Proofs.Job.Spelled
import PenPlotter.Proofs.Number.Exact
import PenPlotter.Proofs.Number.Least
import PenPlotter.Proofs.Number.Numeral
import PenPlotter.Proofs.Number.Rounding
import PenPlotter.Proofs.Number.Scientific
import PenPlotter.Proofs.Number.Shortest
import PenPlotter.Proofs.Number.Underflow
import PenPlotter.Proofs.Plot.CommandText
import PenPlotter.Proofs.Plot.Decoding
import PenPlotter.Proofs.Plot.Framing
import PenPlotter.Proofs.Plot.InstructionText
import PenPlotter.Proofs.Plot.Pieces
import PenPlotter.Proofs.Profile.Built
import PenPlotter.Proofs.Profile.Declared
import PenPlotter.Proofs.Profile.Form
import PenPlotter.Proofs.Profile.Identifier
import PenPlotter.Proofs.Profile.LastWins
import PenPlotter.Proofs.Profile.Loaded
import PenPlotter.Proofs.Profile.Options
import PenPlotter.Proofs.Profile.Overrides
import PenPlotter.Proofs.Profile.Resolved
import PenPlotter.Proofs.Profile.Settings
import PenPlotter.Proofs.Profile.Sources
import PenPlotter.Proofs.Profile.Timeouts
import PenPlotter.Proofs.Profile.Wire
import PenPlotter.Proofs.Result
import PenPlotter.Proofs.Schema.First
import PenPlotter.Proofs.Schema.Forms
import PenPlotter.Proofs.Schema.Kept
import PenPlotter.Proofs.Schema.Told
import PenPlotter.Proofs.Schema.Unique
import PenPlotter.Proofs.Schema.Wordless
import PenPlotter.Proofs.Serial.Calls
import PenPlotter.Proofs.Serial.InStep
import PenPlotter.Proofs.Serial.Protocol
import PenPlotter.Proofs.Serial.Session
import PenPlotter.Proofs.Serial.Supported
import PenPlotter.Proofs.Serial.Tally
import PenPlotter.Proofs.Service.Delivered
import PenPlotter.Proofs.Service.Followed
import PenPlotter.Proofs.Service.InTurn
import PenPlotter.Proofs.Service.Passed
import PenPlotter.Proofs.Service.Render
import PenPlotter.Proofs.Service.Report
import PenPlotter.Proofs.Service.Sent
import PenPlotter.Proofs.Service.Written
import PenPlotter.Proofs.Text.Order
import PenPlotter.Proofs.Text.Printed
import PenPlotter.Proofs.Text.Separated
import PenPlotter.Proofs.Value.LeastText
import PenPlotter.Proofs.Value.Natural
import PenPlotter.Proofs.Value.NumberText
import PenPlotter.Proofs.Value.Parts
import PenPlotter.Proofs.Value.Shown
import PenPlotter.Proofs.World.Document
import PenPlotter.Proofs.World.Listing
import PenPlotter.Proofs.World.Mappings
import PenPlotter.Proofs.World.Writing
import PenPlotter.Proofs.Yaml.Brought
import PenPlotter.Proofs.Yaml.Building
import PenPlotter.Proofs.Yaml.Events
import PenPlotter.Proofs.Yaml.Flaw
import PenPlotter.Proofs.Yaml.Merge
import PenPlotter.Proofs.Yaml.Pairs
import PenPlotter.Proofs.Yaml.Scalars
import PenPlotter.Proofs.Yaml.Tokens
import PenPlotter.Proofs.Yaml.Values
import PenPlotter.Schema.Basic
import PenPlotter.Schema.Unique
import PenPlotter.Schema.Violation
import PenPlotter.Serial.Line
import PenPlotter.Serial.Options
import PenPlotter.Serial.Steps
import PenPlotter.Service.Send
import PenPlotter.Text.Code
import PenPlotter.Text.Hex
import PenPlotter.Text.LetterCase
import PenPlotter.Text.Quoted
import PenPlotter.Text.Utf8
import PenPlotter.Value.Basic
import PenPlotter.Value.Number
import PenPlotter.Value.Text
import PenPlotter.World.Document
import PenPlotter.World.Files
import PenPlotter.Yaml.Builder
import PenPlotter.Yaml.Collection
import PenPlotter.Yaml.Cursor
import PenPlotter.Yaml.Event
import PenPlotter.Yaml.Lexer
import PenPlotter.Yaml.Node
import PenPlotter.Yaml.Property
import PenPlotter.Yaml.Scalar
import PenPlotter.Yaml.Scalars
import PenPlotter.Yaml.Tag
