import HexPulse.Activation
import HexPulse.Board
import HexPulse.Board.Reach
import HexPulse.Catalogue
import HexPulse.Catalogue.Builtin
import HexPulse.CommandLine
import HexPulse.CommandLine.Arguments
import HexPulse.CommandLine.Command
import HexPulse.Data
import HexPulse.Data.Inline
import HexPulse.Data.Json
import HexPulse.Data.Outline
import HexPulse.Decimal.Digits
import HexPulse.Decimal.Numeral
import HexPulse.Decimal.Style
import HexPulse.Document
import HexPulse.Document.Block
import HexPulse.Document.Flow
import HexPulse.Document.Json
import HexPulse.Document.Word
import HexPulse.Effect
import HexPulse.Effect.InFlight
import HexPulse.Evaluation
import HexPulse.Evaluation.Acting
import HexPulse.Evaluation.Computing
import HexPulse.Evaluation.Reading
import HexPulse.Evaluation.Sensing
import HexPulse.Event
import HexPulse.Fault
import HexPulse.FileTree
import HexPulse.FileTree.Path
import HexPulse.Heart
import HexPulse.Hex
import HexPulse.Hex.Layout
import HexPulse.Hex.Region
import HexPulse.Intake.Issue
import HexPulse.Intake.Record
import HexPulse.Intake.Scalars
import HexPulse.Kind
import HexPulse.Main
import HexPulse.Named
import HexPulse.NodeState
import HexPulse.PortError
import HexPulse.PortError.Named
import HexPulse.Proofs.Activation.Pass
import HexPulse.Proofs.Board.Agreement
import HexPulse.Proofs.Evaluation.Locality
import HexPulse.Proofs.Table
import HexPulse.Scalar
import HexPulse.Scalar.Binary
import HexPulse.Scalar.Double
import HexPulse.Scenario
import HexPulse.Scenario.Build
import HexPulse.Scenario.Flaw
import HexPulse.Scenario.Intake
import HexPulse.Scenario.Starter
import HexPulse.Session
import HexPulse.Session.Load
import HexPulse.Session.Log
import HexPulse.Session.Metric
import HexPulse.Settings
import HexPulse.Settings.Environment
import HexPulse.Settings.Intake
import HexPulse.Spawning
import HexPulse.Table
import HexPulse.Target
import HexPulse.Text.Blank
import HexPulse.Text.Capital
import HexPulse.Text.Cased
import HexPulse.Text.Line
import HexPulse.Text.Printable
import HexPulse.Text.Quoted
import HexPulse.Text.Small
import HexPulse.Text.Unit
import HexPulse.Value
import HexPulse.Wiring
import HexPulse.World
import HexPulse.Proofs.Activation.Order
import HexPulse.Proofs.Activation.Wave
import HexPulse.Proofs.Board.Change
import HexPulse.Proofs.World.Stages
import HexPulse.Proofs.World.Run
import HexPulse.Proofs.World.Epoch
import HexPulse.Proofs.Board.Topology
import HexPulse.Proofs.World.Pruning
import HexPulse.Proofs.Hex.Disc
import HexPulse.Proofs.Board.History
import HexPulse.Proofs.Catalogue.Builtin
import HexPulse.Proofs.Evaluation.Ending
import HexPulse.Proofs.Evaluation.Typing
import HexPulse.Proofs.Evaluation.Slots
import HexPulse.Proofs.Outcome
import HexPulse.Proofs.Activation.Typing
import HexPulse.Proofs.Board.Wiring
import HexPulse.Proofs.Evaluation.Faults
import HexPulse.Proofs.Activation.Completion
import HexPulse.Proofs.Scenario.Legality
import HexPulse.Proofs.Scenario.Acceptance
import HexPulse.Proofs.Scenario.Build
import HexPulse.Proofs.Scenario.Realization
import HexPulse.Proofs.Board.Connection
import HexPulse.Proofs.World.Course
import HexPulse.Proofs.World.Journal
import HexPulse.Proofs.Scalar.Exact
import HexPulse.Proofs.Scalar.Faithful
import HexPulse.Proofs.Target.Turnover
import HexPulse.Proofs.Target.Harm
import HexPulse.Proofs.Effect.Blast
import HexPulse.Proofs.Effect.Contact
import HexPulse.Proofs.Effect.Course
import HexPulse.Proofs.Effect.Timing
import HexPulse.Proofs.World.Life
import HexPulse.Proofs.World.Damage
import HexPulse.Proofs.Evaluation.References
import HexPulse.Proofs.World.Census
import HexPulse.Proofs.Script
import HexPulse.Proofs.Board.Reachable
import HexPulse.Proofs.Board.Matching
import HexPulse.Proofs.Board.Binding
import HexPulse.Proofs.Board.Script
import HexPulse.Proofs.Board.Refusal
import HexPulse.Proofs.Evaluation.Firing
import HexPulse.Proofs.Activation.Atomicity
import HexPulse.Proofs.Scalar.Grid
import HexPulse.Proofs.Scalar.Reading
import HexPulse.Proofs.Scalar.Rounding
import HexPulse.Proofs.Scalar.Sign
import HexPulse.Proofs.Scalar.Nearest
import HexPulse.Proofs.Scalar.Bounds
import HexPulse.Proofs.Hex.Placement
import HexPulse.Proofs.Target.Motion
import HexPulse.Proofs.Target.Roaming
import HexPulse.Proofs.World.Motion
import HexPulse.Proofs.Scenario.Motion
import HexPulse.Proofs.Activation.Readiness
import HexPulse.Proofs.Evaluation.Charging
import HexPulse.Proofs.World.Charging
import HexPulse.Proofs.World.Projection
import HexPulse.Proofs.World.Defeat
import HexPulse.Proofs.Hex.Walk
import HexPulse.Proofs.Hex.Ring
import HexPulse.Proofs.Hex.Region
import HexPulse.Proofs.Scalar.HalfEven
import HexPulse.Proofs.Scalar.Continuum
import HexPulse.Proofs.Hex.Nearest
import HexPulse.Proofs.Board.Reaping
import HexPulse.Proofs.Heart
import HexPulse.Proofs.Hex.Line
import HexPulse.Proofs.Target.Spawning
import HexPulse.Proofs.Scalar.Number
import HexPulse.Proofs.Evaluation.View
import HexPulse.Proofs.Evaluation.Sensing
import HexPulse.Proofs.Scalar.Ordered
import HexPulse.Proofs.Target.Rounds
import HexPulse.Proofs.Target.Landing
