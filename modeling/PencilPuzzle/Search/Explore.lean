import PencilPuzzle.Fixpoint
import PencilPuzzle.Search.Event
import PencilPuzzle.Search.Solver

/-!
# Exploring the search tree

At each node the rules run to a fixpoint; where they leave the state open, the values of one
variable are tried in ascending order, each on the state the fixpoint left. A node ends as solved,
as a dead end, or without a verdict because the budget, the pass limit or a cancellation stopped it.

A step returns the search it leaves behind together with its result, since a fault does not take
back what was done before it.
-/

namespace PencilPuzzle

/-- One thing that happened in a search. -/
inductive JournalEntry where
  | consulted (rule : Nat)
  | event (event : Event)

structure Search (μ : Type) where
  state : State
  solver : Solver
  /-- Whether some branch was left without a verdict. -/
  gaveUp : Bool
  /-- The mark to go back to if there is no solution to keep. -/
  root : Nat
  memory : μ
  /-- What happened so far, newest first. -/
  journal : List JournalEntry

namespace Search

variable {μ : Type}

abbrev Reply (μ α : Type) := Search μ × Except Fault α

/-! ### Talking to the hook -/

/-- Carries out the commands of a hook in order, up to the first that is a fault. -/
def obey (search : Search μ) : List Command → Reply μ Unit
  | [] => (search, .ok ())
  | .cancel :: rest => obey { search with solver := search.solver.cancel } rest
  | .setBudget budget :: rest =>
    match search.solver.setBudget budget with
    | .error fault => (search, .error fault)
    | .ok solver => obey { search with solver } rest
  | .fail fault :: _ => (search, .error fault)

/-- Reports an event at a depth and carries out what the hook asks for. -/
def emit (hook : Hook μ) (kind : EventKind) (depth : Nat) (guess : Option Guess)
    (search : Search μ) : Reply μ Unit :=
  let event : Event :=
    ⟨kind, search.state, depth, search.solver.guesses, search.solver.budget, guess⟩
  let (memory, commands) := hook search.memory event
  obey { search with memory, journal := .event event :: search.journal } commands

/-! ### Steps of a node -/

def giveUp (search : Search μ) : Reply μ Outcome :=
  ({ search with gaveUp := true }, .ok .unsolved)

def reachDepth (depth : Nat) (search : Search μ) : Search μ :=
  let stats := search.solver.stats
  { search with
    solver := { search.solver with stats := { stats with maxDepth := max stats.maxDepth depth } } }

/-- Takes over what a propagation run left and whom it consulted. -/
def takeRun {α : Type} (run : Run α) (search : Search μ) : Search μ :=
  { search with
    state := run.state
    journal := (run.consulted.map .consulted).reverse ++ search.journal }

def countFixpoint (summary : FixpointSummary) (search : Search μ) : Search μ :=
  let stats := search.solver.stats
  { search with
    solver := { search.solver with
      stats := { stats with
        fixpoints := stats.fixpoints + 1
        ruleUpdates := stats.ruleUpdates + summary.updates } } }

/-- Before the first guess, the state to go back to is the one the rules have reached. -/
def settleRoot (depth : Nat) (search : Search μ) : Search μ :=
  if depth = 0 then { search with root := search.state.mark } else search

/-- Runs the rules at a node and says what is known then: an outcome, and whether the rules got to
their fixpoint. A contradiction is the outcome `unsolvable` and is not reported to the hook. -/
def propagate (puzzle : Puzzle) (hook : Hook μ) (depth : Nat) (search : Search μ) :
    Reply μ (Outcome × Bool) :=
  let run := runToFixpoint puzzle.rules search.solver.passLimit search.state
  let search := (search.reachDepth depth).takeRun run
  match run.result with
  | .error (.contradiction _) => (search, .ok (.unsolvable, true))
  | .error fault => (search, .error fault)
  | .ok summary =>
    let search := search.countFixpoint summary
    match puzzle.classify false search.state with
    | .error fault => (search, .error fault)
    | .ok outcome =>
      match (search.settleRoot depth).emit hook .fixpoint depth none with
      | (search, .error fault) => (search, .error fault)
      | (search, .ok ()) => (search, .ok (outcome, summary.converged))

def makeGuess (v x : Nat) (search : Search μ) : Reply μ Unit :=
  match search.state.assign v x with
  | .error fault => (search, .error fault)
  | .ok (state, _) =>
    ({ search with state, solver := { search.solver with guesses := search.solver.guesses + 1 } },
      .ok ())

def takeBack (mark : Nat) (search : Search μ) : Search μ :=
  let stats := search.solver.stats
  { search with
    state := search.state.undo mark
    solver := { search.solver with stats := { stats with backtracks := stats.backtracks + 1 } } }

/-- Tries values of a variable in order, exploring each by `attempt`, until one is solved. -/
def tryValues (hook : Hook μ) (attempt : Search μ → Reply μ Outcome) (depth v : Nat) :
    List Nat → Search μ → Reply μ Outcome
  | [], search => (search, .ok (if search.gaveUp then .unsolved else .unsolvable))
  | x :: rest, search =>
    if search.solver.cancelled ∨ search.solver.budget ≤ search.solver.guesses then search.giveUp
    else
      let mark := search.state.mark
      match search.makeGuess v x with
      | (search, .error fault) => (search, .error fault)
      | (search, .ok ()) =>
        match search.emit hook .guess (depth + 1) (some ⟨v, x⟩) with
        | (search, .error fault) => (search, .error fault)
        | (search, .ok ()) =>
          match attempt search with
          | (search, .error fault) => (search, .error fault)
          | (search, .ok .solved) => (search, .ok .solved)
          | (search, .ok _) =>
            match (search.takeBack mark).emit hook .backtrack depth (some ⟨v, x⟩) with
            | (search, .error fault) => (search, .error fault)
            | (search, .ok ()) => tryValues hook attempt depth v rest search

/-- Explores the tree below the current state, at most `levels` levels of nodes. -/
def explore (puzzle : Puzzle) (hook : Hook μ) : Nat → Nat → Search μ → Reply μ Outcome
  | 0, _, search => search.giveUp
  | levels + 1, depth, search =>
    if search.solver.cancelled then search.giveUp
    else
      match search.propagate puzzle hook depth with
      | (search, .error fault) => (search, .error fault)
      | (search, .ok (outcome, converged)) =>
        if outcome.isTerminal then (search, .ok outcome)
        else if !converged then search.giveUp
        else
          match puzzle.chooseVariable search.solver.policy search.state with
          | .error fault => (search, .error fault)
          | .ok v =>
            tryValues hook (explore puzzle hook levels (depth + 1)) depth v
              (search.state.candidates v) search

/-- Enough levels for every path: each guess settles a variable that was open. -/
def enoughLevels (state : State) : Nat := state.undetermined.length + 1

end Search

end PencilPuzzle
