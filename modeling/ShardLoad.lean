import ShardLoad.Bytes
import ShardLoad.Call
import ShardLoad.Command.Arguments
import ShardLoad.Command.Help
import ShardLoad.Command.Host
import ShardLoad.Command.Init
import ShardLoad.Command.Program
import ShardLoad.Command.Reply
import ShardLoad.Command.Run
import ShardLoad.Config.Basic
import ShardLoad.Config.FromJson
import ShardLoad.Config.Json
import ShardLoad.Config.Load
import ShardLoad.Config.Overrides
import ShardLoad.Config.Schema
import ShardLoad.Config.Template
import ShardLoad.Config.Toml
import ShardLoad.Config.Validate
import ShardLoad.Decimal.Binary64
import ShardLoad.Decimal.Layout
import ShardLoad.Decimal.Shortest
import ShardLoad.Duration
import ShardLoad.Entropy.Buffer
import ShardLoad.Entropy.ChaCha
import ShardLoad.Entropy.Source
import ShardLoad.Entropy.Weights
import ShardLoad.Entropy.WordSource
import ShardLoad.File.Fault
import ShardLoad.File.Tree
import ShardLoad.Invocation
import ShardLoad.Json.Printer
import ShardLoad.Json.Reader
import ShardLoad.Json.Value
import ShardLoad.Keyed
import ShardLoad.Main
import ShardLoad.Metrics.Histogram
import ShardLoad.Metrics.Recorder
import ShardLoad.Metrics.Snapshot
import ShardLoad.Result.Basic
import ShardLoad.Result.Calendar
import ShardLoad.Result.Paint
import ShardLoad.Result.Report
import ShardLoad.Result.StatusLine
import ShardLoad.Result.Summary
import ShardLoad.Run.Active
import ShardLoad.Run.Agenda
import ShardLoad.Run.Channel
import ShardLoad.Run.Engine
import ShardLoad.Run.Event
import ShardLoad.Run.Solo
import ShardLoad.Run.System
import ShardLoad.Run.Transport
import ShardLoad.Run.User
import ShardLoad.Shard.Address
import ShardLoad.Shard.Pool
import ShardLoad.Shard.Selector
import ShardLoad.Status
import ShardLoad.Text.Base64
import ShardLoad.Text.Blank
import ShardLoad.Text.Visible
import ShardLoad.Toml.Document
import ShardLoad.Toml.Moment
import ShardLoad.Toml.Number
import ShardLoad.Toml.Printer
import ShardLoad.Toml.Quoted
import ShardLoad.Toml.Tree
import ShardLoad.Toml.Value
import ShardLoad.Wire.Field
import ShardLoad.Wire.Message
import ShardLoad.Wire.Varint
import ShardLoad.Proofs.Text.Digits
import ShardLoad.Proofs.Run.Moves
import ShardLoad.Proofs.Metrics.Bookkeeping
import ShardLoad.Proofs.Run.Gauge
import ShardLoad.Proofs.Run.Conservation
import ShardLoad.Proofs.Run.Clock
import ShardLoad.Proofs.Run.Slots
import ShardLoad.Proofs.Run.Rounds
import ShardLoad.Proofs.Run.Ending
import ShardLoad.Proofs.Run.Cap
import ShardLoad.Proofs.Run.Spans
import ShardLoad.Proofs.Run.Pacing
import ShardLoad.Proofs.Run.IterationCount
import ShardLoad.Proofs.Run.Turns
import ShardLoad.Proofs.Run.Requests
import ShardLoad.Proofs.Metrics.Tally
import ShardLoad.Proofs.Metrics.Outcomes
import ShardLoad.Proofs.Metrics.Bins
import ShardLoad.Proofs.Decimal.Rounding
import ShardLoad.Proofs.Metrics.Ranks
import ShardLoad.Proofs.Metrics.Percentiles
import ShardLoad.Proofs.Metrics.Range
import ShardLoad.Proofs.Wire.Rows
import ShardLoad.Proofs.Wire.RoundTrip
import ShardLoad.Proofs.Config.Validity
import ShardLoad.Proofs.Run.Gate
import ShardLoad.Proofs.Run.Moments
import ShardLoad.Proofs.Command.Overriding
import ShardLoad.Proofs.Metrics.Arrival
import ShardLoad.Proofs.Metrics.Shards
import ShardLoad.Proofs.Run.History
import ShardLoad.Proofs.Run.Publication
import ShardLoad.Proofs.Run.Snapshots
import ShardLoad.Proofs.Run.Replies
import ShardLoad.Proofs.Keyed
import ShardLoad.Proofs.Toml.Quoting
import ShardLoad.Proofs.Toml.Statements
import ShardLoad.Proofs.Toml.Tables
import ShardLoad.Proofs.Config.Sections
import ShardLoad.Proofs.Config.TomlRoundTrip
import ShardLoad.Proofs.Json.Tokens
import ShardLoad.Proofs.Json.Reading
import ShardLoad.Proofs.Decimal.Shortest
import ShardLoad.Proofs.Result.ReportText
import ShardLoad.Proofs.Metrics.Totals
import ShardLoad.Proofs.Result.Colors
import ShardLoad.Proofs.Result.Printed
import ShardLoad.Proofs.Result.Figures
import ShardLoad.Proofs.Text.Base64
import ShardLoad.Proofs.Wire.Logged
import ShardLoad.Proofs.Text.SixBits
import ShardLoad.Proofs.Wire.Token
import ShardLoad.Proofs.Entropy.Bounded
import ShardLoad.Proofs.Wire.Merging
import ShardLoad.Proofs.Wire.Truncation
import ShardLoad.Proofs.Entropy.Weighted
import ShardLoad.Proofs.Run.Mix
import ShardLoad.Proofs.Shard.Rotation
import ShardLoad.Proofs.Run.Booking
import ShardLoad.Proofs.Shard.Ports
import ShardLoad.Proofs.Run.Targets
import ShardLoad.Proofs.Run.Balance
import ShardLoad.Proofs.Entropy.Fields
import ShardLoad.Proofs.Run.Fields
import ShardLoad.Proofs.Entropy.OneStream
import ShardLoad.Proofs.Run.Mirror
import ShardLoad.Proofs.Result.AnyOrder
import ShardLoad.Proofs.Result.Arranged
import ShardLoad.Proofs.Result.Calendar
import ShardLoad.Proofs.Result.ReportNames
