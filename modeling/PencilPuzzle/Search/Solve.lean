import PencilPuzzle.Search.Explore

/-!
# Solving

A call looks at the initial state before any rule has touched it, explores the tree if there is
anything to explore, and keeps the state only if it is solved: otherwise it goes back to where the
rules had got before the first guess.
-/

namespace PencilPuzzle

/-- What a call of `solve` leaves behind. -/
structure SolveReport (μ : Type) where
  state : State
  solver : Solver
  memory : μ
  /-- What happened during the call, oldest first. -/
  journal : List JournalEntry
  result : Except Fault Outcome

namespace Solver

variable {μ : Type}

def start (solver : Solver) (memory : μ) (state : State) : Search μ where
  state := state
  solver := solver
  gaveUp := false
  root := state.mark
  memory := memory
  journal := []

/-- Ends a call with the result of its search; only a solution stays on the state. -/
def finish (reply : Search.Reply μ Outcome) : SolveReport μ :=
  let (search, result) := reply
  let journal := search.journal.reverse
  match result with
  | .ok .solved =>
    ⟨search.state, { search.solver with outcome := .solved }, search.memory, journal, .ok .solved⟩
  | .ok outcome =>
    ⟨search.state.undo search.root, { search.solver with outcome }, search.memory, journal,
      .ok outcome⟩
  | .error fault =>
    ⟨search.state.undo search.root, { search.solver with outcome := .unsolved }, search.memory,
      journal, .error fault⟩

/-- Solves a puzzle from a state, reporting to a hook on the way. -/
def solve (puzzle : Puzzle) (hook : Hook μ) (memory : μ) (solver : Solver) (state : State) :
    SolveReport μ :=
  let solver := { solver with cancelled := false }
  match puzzle.classify true state with
  | .error fault => ⟨state, solver, memory, [], .error fault⟩
  | .ok outcome =>
    if outcome.isTerminal then ⟨state, { solver with outcome }, memory, [], .ok outcome⟩
    else
      finish (Search.explore puzzle hook (Search.enoughLevels state) 0
        (solver.start memory state))

end Solver

end PencilPuzzle
