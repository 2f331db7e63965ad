import Orchestration.Bus
import Orchestration.Bus.Message
import Orchestration.Bus.Reaction
import Orchestration.Collection
import Orchestration.Deed
import Orchestration.CommandLine.Arguments
import Orchestration.CommandLine.Command
import Orchestration.CommandLine.Perform
import Orchestration.Disk
import Orchestration.Document
import Orchestration.FanIn
import Orchestration.Fault
import Orchestration.Json
import Orchestration.Json.Fields
import Orchestration.Json.Printer
import Orchestration.Json.Reader
import Orchestration.Json.Token
import Orchestration.Loop.Config
import Orchestration.Loop.Execute
import Orchestration.Loop.Outcome
import Orchestration.Loop.Phases
import Orchestration.Loop.Run
import Orchestration.Loop.Services
import Orchestration.Loopback
import Orchestration.Main
import Orchestration.Monitor
import Orchestration.Number.Binary64
import Orchestration.Number.Decimal
import Orchestration.Number.Power
import Orchestration.Number.Reading
import Orchestration.Number.Shortest
import Orchestration.Observation
import Orchestration.Plan
import Orchestration.Plan.Check
import Orchestration.Plan.Planner
import Orchestration.Policy.Condition
import Orchestration.Policy.Context
import Orchestration.Policy.Engine
import Orchestration.Policy.Evaluate
import Orchestration.Policy.File
import Orchestration.Policy.Rule
import Orchestration.Policy.Watch
import Orchestration.Rehearsal
import Orchestration.Session.Decision
import Orchestration.Session.Record
import Orchestration.Session.State
import Orchestration.Settings
import Orchestration.Store.Database
import Orchestration.Store.Filter
import Orchestration.Store.Folder
import Orchestration.Store.Ledger
import Orchestration.Store.Lines
import Orchestration.Store.Rows
import Orchestration.Store.Storage
import Orchestration.Table
import Orchestration.Task
import Orchestration.Text.Blank
import Orchestration.Text.CodePoint
import Orchestration.Text.Printable
import Orchestration.Text.Quoted
import Orchestration.Time.Calendar
import Orchestration.Time.Timestamp
import Orchestration.Toml
import Orchestration.Toml.Reader
import Orchestration.Toml.Scalar
import Orchestration.World
import Orchestration.Yaml.Cursor
import Orchestration.Yaml.Node
import Orchestration.Yaml.Scalar
import Orchestration.Yaml.Token
import Orchestration.Yaml.Value
import Orchestration.Proofs.Undisturbed
import Orchestration.Proofs.Phases
import Orchestration.Proofs.Loop
import Orchestration.Proofs.Course
import Orchestration.Proofs.Pieces
import Orchestration.Proofs.Sorting
import Orchestration.Proofs.Items
import Orchestration.Proofs.Files
import Orchestration.Proofs.Keeping
import Orchestration.Proofs.Accounts
import Orchestration.Proofs.Calendar
import Orchestration.Proofs.Digits
import Orchestration.Proofs.Instants
import Orchestration.Proofs.Evaluation
import Orchestration.Proofs.Execution
import Orchestration.Proofs.Rate
import Orchestration.Proofs.Numerals
import Orchestration.Proofs.Lexing
import Orchestration.Proofs.Nesting
import Orchestration.Proofs.Bounds
import Orchestration.Proofs.Canonical
import Orchestration.Proofs.Codecs
import Orchestration.Proofs.Records
import Orchestration.Proofs.RoundTrips
import Orchestration.Proofs.Round
import Orchestration.Proofs.Observed
import Orchestration.Proofs.Dispatches
import Orchestration.Proofs.Capabilities
import Orchestration.Proofs.Hearing
import Orchestration.Proofs.Folders
import Orchestration.Proofs.Answers
import Orchestration.Proofs.Microseconds
import Orchestration.Proofs.Refinement
import Orchestration.Proofs.Planning
import Orchestration.Proofs.Attendance
import Orchestration.Proofs.Attempts
import Orchestration.Proofs.Appending
import Orchestration.Proofs.Damage
import Orchestration.Proofs.Happenings
import Orchestration.Proofs.Chronicle
import Orchestration.Proofs.Collision
import Orchestration.Proofs.Places
import Orchestration.Proofs.Reloading
import Orchestration.Proofs.Alarms
import Orchestration.Proofs.Steps
import Orchestration.Proofs.Retries
import Orchestration.Proofs.Ordering
import Orchestration.Proofs.Conduct
import Orchestration.Proofs.Delegating
import Orchestration.Proofs.Provenance
import Orchestration.Proofs.Unanimity
import Orchestration.Proofs.Separation
import Orchestration.Proofs.Confinement
import Orchestration.Proofs.Residue
import Orchestration.Proofs.Deadlines
import Orchestration.Proofs.CarryOver
import Orchestration.Proofs.Cycles
import Orchestration.Proofs.Magnitudes
import Orchestration.Proofs.Tallies
import Orchestration.Proofs.Verdicts
import Orchestration.Proofs.Waiting
import Orchestration.Proofs.Collecting
import Orchestration.Proofs.Composition
import Orchestration.Proofs.Normalizing
import Orchestration.Proofs.Equality
import Orchestration.Proofs.Clauses
import Orchestration.Proofs.Drafts
import Orchestration.Proofs.Descent
import Orchestration.Proofs.Selecting
import Orchestration.Proofs.Endings
import Orchestration.Proofs.Stages
import Orchestration.Proofs.Roster
import Orchestration.Proofs.Silence
import Orchestration.Proofs.Naming
