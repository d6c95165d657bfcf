import BlockStage.Block.Basic
import BlockStage.Block.Canonical
import BlockStage.Block.Coercion
import BlockStage.Block.Domain
import BlockStage.Block.Kind
import BlockStage.CommandLine.Reply
import BlockStage.Compile.Forest
import BlockStage.Compile.Source
import BlockStage.Compile.Warning
import BlockStage.Json.Reader
import BlockStage.Json.Writer
import BlockStage.Main
import BlockStage.Number.Format
import BlockStage.Number.Num
import BlockStage.Number.Reading
import BlockStage.Number.Shortest
import BlockStage.Program.Codec
import BlockStage.Program.Instruction
import BlockStage.Proofs.CommandLine.Grammar
import BlockStage.Proofs.CommandLine.Preview
import BlockStage.Proofs.Compile.Ceiling
import BlockStage.Proofs.Compile.Changes
import BlockStage.Proofs.Compile.Culprits
import BlockStage.Proofs.Compile.Descriptions
import BlockStage.Proofs.Compile.Domain
import BlockStage.Proofs.Compile.Erasure
import BlockStage.Proofs.Compile.Fields
import BlockStage.Proofs.Compile.Measures
import BlockStage.Proofs.Compile.Totality
import BlockStage.Proofs.Compile.Translation
import BlockStage.Proofs.Number.Binary64
import BlockStage.Proofs.Number.Order
import BlockStage.Proofs.Number.Range
import BlockStage.Proofs.Program.RoundTrip
import BlockStage.Proofs.Run.Advance
import BlockStage.Proofs.Run.Arrival
import BlockStage.Proofs.Run.Circuits
import BlockStage.Proofs.Run.Effort
import BlockStage.Proofs.Run.Every
import BlockStage.Proofs.Run.Failure
import BlockStage.Proofs.Run.Gliding
import BlockStage.Proofs.Run.LastFrame
import BlockStage.Proofs.Run.Latch
import BlockStage.Proofs.Run.Legs
import BlockStage.Proofs.Run.Observation
import BlockStage.Proofs.Run.Pacing
import BlockStage.Proofs.Run.Poise
import BlockStage.Proofs.Run.Presence
import BlockStage.Proofs.Run.Publication
import BlockStage.Proofs.Run.Schedules
import BlockStage.Proofs.Run.Settings
import BlockStage.Proofs.Run.Solo
import BlockStage.Proofs.Run.Soundness
import BlockStage.Proofs.Run.Strides
import BlockStage.Proofs.Run.Timeline
import BlockStage.Proofs.Run.Trail
import BlockStage.Proofs.Run.Turning
import BlockStage.Proofs.Run.Unrolled
import BlockStage.Proofs.Session.Accounts
import BlockStage.Proofs.Session.Alone
import BlockStage.Proofs.Session.Animation
import BlockStage.Proofs.Session.Arrivals
import BlockStage.Proofs.Session.Books
import BlockStage.Proofs.Session.Calls
import BlockStage.Proofs.Session.Cancellation
import BlockStage.Proofs.Session.Clock
import BlockStage.Proofs.Session.Course
import BlockStage.Proofs.Session.Endings
import BlockStage.Proofs.Session.Exclusion
import BlockStage.Proofs.Session.Execution
import BlockStage.Proofs.Session.Fairness
import BlockStage.Proofs.Session.Handover
import BlockStage.Proofs.Session.Independence
import BlockStage.Proofs.Session.Liveness
import BlockStage.Proofs.Session.Mirror
import BlockStage.Proofs.Session.Moves
import BlockStage.Proofs.Session.Orderly
import BlockStage.Proofs.Session.Queue
import BlockStage.Proofs.Session.Recovery
import BlockStage.Proofs.Session.Safety
import BlockStage.Proofs.Session.Turns
import BlockStage.Proofs.Session.Upkeep
import BlockStage.Proofs.Stage.Exact
import BlockStage.Proofs.Stage.Snapshot
import BlockStage.Run.Animation
import BlockStage.Run.Fault
import BlockStage.Run.Guard
import BlockStage.Run.Log
import BlockStage.Run.Solo
import BlockStage.Run.Walker
import BlockStage.Session.Host
import BlockStage.Session.Result
import BlockStage.Session.ResultRecord
import BlockStage.Session.Schedule
import BlockStage.Session.World
import BlockStage.Stage.Agent
import BlockStage.Stage.Canvas
import BlockStage.Stage.Config
import BlockStage.Stage.Grid
import BlockStage.Stage.Preset
import BlockStage.Stage.Record
import BlockStage.Stage.Snapshot
import BlockStage.Text.Blank
import BlockStage.Text.Digit
import BlockStage.Text.Printable
import BlockStage.Text.Quoted
import BlockStage.Text.Upper
import BlockStage.Value
import BlockStage.Value.Arithmetic
import BlockStage.Value.Operand
import BlockStage.Value.Order
import BlockStage.Value.Pairs
