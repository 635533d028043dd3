import ChangeCapture.Batch
import ChangeCapture.Binary64.Basic
import ChangeCapture.Binary64.Decimal
import ChangeCapture.Binary64.Shortest
import ChangeCapture.Calendar.Date
import ChangeCapture.Calendar.Instant
import ChangeCapture.Calendar.Reading
import ChangeCapture.Change
import ChangeCapture.Column.Basic
import ChangeCapture.Column.Inference
import ChangeCapture.Column.Kind
import ChangeCapture.Column.Name
import ChangeCapture.Column.Registry
import ChangeCapture.Consumer.Failure
import ChangeCapture.Consumer.Log
import ChangeCapture.Consumer.Run
import ChangeCapture.Debezium.Conversion
import ChangeCapture.Debezium.Envelope
import ChangeCapture.Debezium.Field
import ChangeCapture.Debezium.Key
import ChangeCapture.Engine.Attempt
import ChangeCapture.Engine.Basic
import ChangeCapture.Engine.Flush
import ChangeCapture.Engine.Ingest
import ChangeCapture.Fault
import ChangeCapture.Json.Basic
import ChangeCapture.Json.Printer
import ChangeCapture.Json.Reader
import ChangeCapture.Json.Record
import ChangeCapture.Json.Syntax
import ChangeCapture.Main
import ChangeCapture.Message.Basic
import ChangeCapture.Message.Queue
import ChangeCapture.Message.Source
import ChangeCapture.Message.Summary
import ChangeCapture.Proofs.Batch
import ChangeCapture.Proofs.Batch.Calls
import ChangeCapture.Proofs.Batch.Greedy
import ChangeCapture.Proofs.Batch.Screening
import ChangeCapture.Proofs.Batch.Stopping
import ChangeCapture.Proofs.Calendar.Date
import ChangeCapture.Proofs.Calendar.Marks
import ChangeCapture.Proofs.Calendar.Numerals
import ChangeCapture.Proofs.Calendar.Texts
import ChangeCapture.Proofs.Column.Keeping
import ChangeCapture.Proofs.Column.Knowledge
import ChangeCapture.Proofs.Column.Name
import ChangeCapture.Proofs.Column.Registry
import ChangeCapture.Proofs.Column.Runs
import ChangeCapture.Proofs.Column.Seeing
import ChangeCapture.Proofs.Debezium.Decimal
import ChangeCapture.Proofs.Debezium.Envelope
import ChangeCapture.Proofs.Debezium.Key
import ChangeCapture.Proofs.Debezium.Temporal
import ChangeCapture.Proofs.Engine.Accounts
import ChangeCapture.Proofs.Engine.Acknowledged
import ChangeCapture.Proofs.Engine.AnyOrder
import ChangeCapture.Proofs.Engine.Apart
import ChangeCapture.Proofs.Engine.Appends
import ChangeCapture.Proofs.Engine.Arranged
import ChangeCapture.Proofs.Engine.Books
import ChangeCapture.Proofs.Engine.Bounded
import ChangeCapture.Proofs.Engine.Commits
import ChangeCapture.Proofs.Engine.Convergence
import ChangeCapture.Proofs.Engine.Flush
import ChangeCapture.Proofs.Engine.Following
import ChangeCapture.Proofs.Engine.Forgetting
import ChangeCapture.Proofs.Engine.Gathered
import ChangeCapture.Proofs.Engine.Hosting
import ChangeCapture.Proofs.Engine.Interchange
import ChangeCapture.Proofs.Engine.Layering
import ChangeCapture.Proofs.Engine.Lifetime
import ChangeCapture.Proofs.Engine.Listed
import ChangeCapture.Proofs.Engine.Placed
import ChangeCapture.Proofs.Engine.Redelivery
import ChangeCapture.Proofs.Engine.Removal
import ChangeCapture.Proofs.Engine.Reported
import ChangeCapture.Proofs.Engine.Retained
import ChangeCapture.Proofs.Engine.Run
import ChangeCapture.Proofs.Engine.Sweep
import ChangeCapture.Proofs.Engine.Topics
import ChangeCapture.Proofs.Engine.Tries
import ChangeCapture.Proofs.Message.Booked
import ChangeCapture.Proofs.Message.Log
import ChangeCapture.Proofs.Message.Positions
import ChangeCapture.Proofs.Message.Queue
import ChangeCapture.Proofs.Message.Staged
import ChangeCapture.Proofs.Message.Summary
import ChangeCapture.Proofs.Retry
import ChangeCapture.Proofs.Row
import ChangeCapture.Proofs.RowEvent.Columns
import ChangeCapture.Proofs.RowEvent.Columnwise
import ChangeCapture.Proofs.RowEvent.Concealing
import ChangeCapture.Proofs.RowEvent.Deleting
import ChangeCapture.Proofs.RowEvent.Described
import ChangeCapture.Proofs.RowEvent.Filtering
import ChangeCapture.Proofs.RowEvent.History
import ChangeCapture.Proofs.RowEvent.Key
import ChangeCapture.Proofs.RowEvent.Naming
import ChangeCapture.Proofs.RowEvent.Ordering
import ChangeCapture.Proofs.RowEvent.Refused
import ChangeCapture.Proofs.RowEvent.Saving
import ChangeCapture.Proofs.RowEvent.Shaping
import ChangeCapture.Proofs.RowEvent.Static
import ChangeCapture.Proofs.SortedMap
import ChangeCapture.Proofs.Store.Append
import ChangeCapture.Proofs.Store.Merge
import ChangeCapture.Proofs.Store.Schema
import ChangeCapture.Proofs.Store.Tracking
import ChangeCapture.Proofs.Table
import ChangeCapture.Proofs.Table.Bookkeeping
import ChangeCapture.Proofs.Table.Rows
import ChangeCapture.Proofs.Table.Sharing
import ChangeCapture.Proofs.Text.Base64
import ChangeCapture.Proofs.Trial.Planned
import ChangeCapture.Proofs.Trial.Store
import ChangeCapture.Retry
import ChangeCapture.Row
import ChangeCapture.RowEvent.Basic
import ChangeCapture.RowEvent.Saving
import ChangeCapture.RowEvent.Shaping
import ChangeCapture.Session.Basic
import ChangeCapture.Session.Caller
import ChangeCapture.Session.Step
import ChangeCapture.Session.Turns
import ChangeCapture.Session.Writer
import ChangeCapture.Settings.Basic
import ChangeCapture.Settings.Environment
import ChangeCapture.Settings.Loading
import ChangeCapture.Settings.Merge
import ChangeCapture.Settings.Printer
import ChangeCapture.Settings.Problem
import ChangeCapture.Settings.Reader
import ChangeCapture.Settings.Strict
import ChangeCapture.Settings.Topic
import ChangeCapture.Settings.Tree
import ChangeCapture.Settings.Variables
import ChangeCapture.Signal
import ChangeCapture.SortedMap
import ChangeCapture.Store.Basic
import ChangeCapture.Store.Destination
import ChangeCapture.SystemColumn
import ChangeCapture.Table.Buffer
import ChangeCapture.Table.Id
import ChangeCapture.Table.Registry
import ChangeCapture.Table.Window
import ChangeCapture.Text.Base64
import ChangeCapture.Text.Form
import ChangeCapture.Text.Integer
import ChangeCapture.Text.Lines
import ChangeCapture.Text.Quoted
import ChangeCapture.Text.Sha256
import ChangeCapture.Trial.Queue
import ChangeCapture.Trial.Sample
import ChangeCapture.Trial.Store
import ChangeCapture.Unicode.Blank
import ChangeCapture.Unicode.CaseTable
import ChangeCapture.Unicode.Lowercase
import ChangeCapture.Unicode.Ranges
import ChangeCapture.Unicode.UnseenTable
import ChangeCapture.Yaml.BlockText
import ChangeCapture.Yaml.Document
import ChangeCapture.Yaml.Gap
import ChangeCapture.Yaml.Layout
import ChangeCapture.Yaml.Node
import ChangeCapture.Yaml.Place
import ChangeCapture.Yaml.Plain
import ChangeCapture.Yaml.Quoted
import ChangeCapture.Yaml.Scalar
import ChangeCapture.Yaml.Tag
import ChangeCapture.Yaml.Token
import ChangeCapture.Yaml.Tokens
