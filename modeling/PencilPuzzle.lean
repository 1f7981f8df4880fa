import PencilPuzzle.Search.Solve
import PencilPuzzle.State.Reference
import PencilPuzzle.State.Snapshot
import PencilPuzzle.Report
import PencilPuzzle.Settings.Library.Sources
import PencilPuzzle.Graph.Reference
import PencilPuzzle.Towers.GameId
import PencilPuzzle.Loop.GameId
import PencilPuzzle.Proofs.State.Narrowing
import PencilPuzzle.Proofs.State.Operation
import PencilPuzzle.Proofs.Propagation
import PencilPuzzle.Proofs.Search.Steps
import PencilPuzzle.Proofs.Latin
import PencilPuzzle.Proofs.Search.Again
import PencilPuzzle.Proofs.Towers.Field
import PencilPuzzle.Proofs.Towers.Grid
import PencilPuzzle.Proofs.Loop.Puzzle
import PencilPuzzle.Proofs.State.Undo
import PencilPuzzle.Proofs.State.Trail
import PencilPuzzle.Proofs.State.Given
import PencilPuzzle.Proofs.Search.Restore
import PencilPuzzle.Proofs.Graph.Inside
import PencilPuzzle.Proofs.Graph.Grid
import PencilPuzzle.Proofs.Loop.Partition
import PencilPuzzle.Proofs.Loop.Separation
import PencilPuzzle.Proofs.Search.Budget
import PencilPuzzle.Proofs.Search.Bracket
import PencilPuzzle.Proofs.Search.Termination
import PencilPuzzle.Proofs.Search.Account
import PencilPuzzle.Proofs.Search.Cancel
import PencilPuzzle.Proofs.Safety
import PencilPuzzle.Proofs.Towers.Order
import PencilPuzzle.Proofs.Towers.Visibility
import PencilPuzzle.Proofs.Numeral
import PencilPuzzle.Proofs.Text.Skip
import PencilPuzzle.Proofs.Text.Split
import PencilPuzzle.Proofs.Towers.Spelling
import PencilPuzzle.Proofs.Towers.Writing
import PencilPuzzle.Proofs.Rows
import PencilPuzzle.Proofs.Towers.GameId
import PencilPuzzle.Proofs.Loop.GameId
import PencilPuzzle.Proofs.Loop.Writing
import PencilPuzzle.Proofs.Graph.Circuit
import PencilPuzzle.Proofs.Graph.Topology
import PencilPuzzle.Proofs.Passes
import PencilPuzzle.Proofs.Towers.Full
import PencilPuzzle.Proofs.Loop.Component
import PencilPuzzle.Proofs.Graph.Degree
import PencilPuzzle.Proofs.Loop.Consistency
import PencilPuzzle.Proofs.Permanence
import PencilPuzzle.Proofs.Updates
import PencilPuzzle.Proofs.Graph.Region
import PencilPuzzle.Proofs.Graph.Growth
import PencilPuzzle.Proofs.Clock.Duration
import PencilPuzzle.Proofs.Effect
import PencilPuzzle.Proofs.State.Snapshot
import PencilPuzzle.Proofs.State.Constraint
import PencilPuzzle.Proofs.SettingsText
