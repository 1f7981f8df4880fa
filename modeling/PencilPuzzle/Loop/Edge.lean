import PencilPuzzle.Graph.Path
import PencilPuzzle.Rule

/-!
# Edges of a loop puzzle

Every edge is a variable with two values: marked as part of the loop, or disabled. An edge that may
still be either is open, one that may still be marked is enabled.
-/

namespace PencilPuzzle.Loop

inductive Mark where
  | marked
  | disabled
  deriving DecidableEq

namespace Mark

def value : Mark → Nat
  | marked => 0
  | disabled => 1

def name : Mark → String
  | marked => "MARKED"
  | disabled => "DISABLED"

def ofValue (x : Nat) : Mark := if x = 0 then marked else disabled

end Mark

variable (state : State)

def isMarked (e : Nat) : Bool := state.value? e = some Mark.marked.value

def isDisabled (e : Nat) : Bool := state.value? e = some Mark.disabled.value

def isOpen (e : Nat) : Bool := 1 < (state.domain e).count

def isEnabled (e : Nat) : Bool := state.hasCandidate e Mark.marked.value

/-- The decision that an edge is part of the loop. -/
def mark (e : Nat) : Update := ⟨e, [Mark.disabled.value]⟩

def disable (e : Nat) : Update := ⟨e, [Mark.marked.value]⟩

def markedCount (edges : List Nat) : Nat := edges.countP (isMarked state)

/-- Adds the run of each marked edge that is on no run so far. -/
def addRuns (graph : Graph) (runs : List (List Nat)) : List Nat → List (List Nat)
  | [] => runs
  | e :: rest =>
    if isMarked state e && !runs.any (e ∈ ·) then
      addRuns graph (runs ++ [graph.path (isMarked state) e]) rest
    else addRuns graph runs rest

/-- The marked edges in unambiguous runs, ordered by the smallest edge of each. -/
def markedRuns (graph : Graph) : List (List Nat) := addRuns state graph [] graph.edgeIds

end PencilPuzzle.Loop
