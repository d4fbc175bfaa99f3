import WorkGraph.Action
import WorkGraph.Agent
import WorkGraph.Audit
import WorkGraph.ButtonMessage
import WorkGraph.Calendar
import WorkGraph.Clock
import WorkGraph.Condition
import WorkGraph.Config
import WorkGraph.Config.File
import WorkGraph.Context
import WorkGraph.Continuation
import WorkGraph.Decision
import WorkGraph.Dispatch
import WorkGraph.Entries
import WorkGraph.Fault
import WorkGraph.Graph
import WorkGraph.Invocation
import WorkGraph.Journal
import WorkGraph.Json.Printer
import WorkGraph.Json.Reader
import WorkGraph.Log
import WorkGraph.Lookup
import WorkGraph.Number.Arithmetic
import WorkGraph.Number.Basic
import WorkGraph.Number.Binary
import WorkGraph.Number.Double
import WorkGraph.Number.Shortest
import WorkGraph.Path
import WorkGraph.Record.Checked
import WorkGraph.Record.Execution
import WorkGraph.Registry
import WorkGraph.Routing
import WorkGraph.Run
import WorkGraph.Session
import WorkGraph.Setting
import WorkGraph.Storage
import WorkGraph.Store.Claims
import WorkGraph.Store.Executions
import WorkGraph.Store.Mappings
import WorkGraph.Store.NodeLogs
import WorkGraph.Store.Records
import WorkGraph.Store.Workflows
import WorkGraph.Template
import WorkGraph.Text.Alphanumeric
import WorkGraph.Text.Base64
import WorkGraph.Text.Blank
import WorkGraph.Text.Digit
import WorkGraph.Text.LineEnd
import WorkGraph.Text.Pieces
import WorkGraph.Text.Printable
import WorkGraph.Text.Quoted
import WorkGraph.Text.Ranges
import WorkGraph.Text.Removal
import WorkGraph.Trigger
import WorkGraph.Value.Basic
import WorkGraph.Value.Conversion
import WorkGraph.Value.Display
import WorkGraph.Value.Members
import WorkGraph.Value.Numeral
import WorkGraph.Workflow
import WorkGraph.World
import WorkGraph.Yaml.Cursor
import WorkGraph.Yaml.Data
import WorkGraph.Yaml.Failure
import WorkGraph.Yaml.Guess
import WorkGraph.Yaml.Node
import WorkGraph.Yaml.Reader
import WorkGraph.Yaml.Scalar
import WorkGraph.Yaml.Tag
import WorkGraph.Yaml.Token
import WorkGraph.Yaml.Typed
import WorkGraph.Proofs.Identifier
import WorkGraph.Proofs.Quiet
import WorkGraph.Proofs.Writes
import WorkGraph.Proofs.Rows
import WorkGraph.Proofs.Ledger
import WorkGraph.Proofs.Work
import WorkGraph.Proofs.Turn
import WorkGraph.Proofs.Course
import WorkGraph.Proofs.Once
import WorkGraph.Proofs.Mirror
import WorkGraph.Proofs.Restore
import WorkGraph.Proofs.Smooth
import WorkGraph.Proofs.Branch
import WorkGraph.Proofs.Reach
import WorkGraph.Proofs.Explore
import WorkGraph.Proofs.Sessions
import WorkGraph.Proofs.Apart
import WorkGraph.Proofs.Selected
import WorkGraph.Proofs.Records
import WorkGraph.Proofs.FirstError
import WorkGraph.Proofs.Touches
import WorkGraph.Proofs.Lifecycle
import WorkGraph.Proofs.Forgotten
import WorkGraph.Proofs.Outcome
import WorkGraph.Proofs.Chronicle
import WorkGraph.Proofs.Refused
import WorkGraph.Proofs.Claimed
import WorkGraph.Proofs.Twin
import WorkGraph.Proofs.Harmless
import WorkGraph.Proofs.Messages
import WorkGraph.Proofs.Pending
import WorkGraph.Proofs.Answered
import WorkGraph.Proofs.Filed
import WorkGraph.Proofs.Abreast
import WorkGraph.Proofs.Notices
import WorkGraph.Proofs.Veil
import WorkGraph.Proofs.Telling
import WorkGraph.Proofs.Passages
import WorkGraph.Proofs.Attended
import WorkGraph.Proofs.Recounted
import WorkGraph.Proofs.Frame
import WorkGraph.Proofs.Annals
import WorkGraph.Proofs.Published
import WorkGraph.Proofs.Retold
import WorkGraph.Proofs.Cycle
import WorkGraph.Proofs.Address
import WorkGraph.Proofs.Slots
import WorkGraph.Proofs.Extent
import WorkGraph.Proofs.Views
import WorkGraph.Proofs.Producers
import WorkGraph.Proofs.Reread
import WorkGraph.Proofs.Numbered
import WorkGraph.Proofs.Evaluation
import WorkGraph.Proofs.Likeness
import WorkGraph.Proofs.Decisions
import WorkGraph.Proofs.Logged
import WorkGraph.Proofs.Briefings
import WorkGraph.Proofs.Sent
import WorkGraph.Proofs.Shelves
import WorkGraph.Proofs.Fired
import WorkGraph.Proofs.Generated
import WorkGraph.Proofs.Listed
import WorkGraph.Proofs.Uninterrupted
