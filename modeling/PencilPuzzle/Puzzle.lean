import PencilPuzzle.Rule

/-!
# Puzzles and outcomes

What the search needs to know of a puzzle: its rules, whether the determined variables break a
constraint, whether a full assignment is a solution, and possibly in which order to guess. A state
is then solved, broken or open; a state that is broken before any rule has run makes the puzzle
invalid, one that breaks later only shows that there is no solution.
-/

namespace PencilPuzzle

structure Puzzle where
  rules : List Rule
  isConsistent : State → Except Fault Bool
  isSolved : State → Except Fault Bool
  /-- The order in which variables are considered for guessing, if the puzzle has its own. -/
  guessOrder : Option (State → List Int)

inductive Outcome where
  | unsolved
  | solved
  | unsolvable
  | invalid
  deriving DecidableEq

namespace Outcome

def name : Outcome → String
  | unsolved => "unsolved"
  | solved => "solved"
  | unsolvable => "unsolvable"
  | invalid => "invalid"

def isTerminal : Outcome → Bool
  | unsolved => false
  | _ => true

/-- The outcome of a broken state, `initial` or met during the search. -/
def broken (initial : Bool) : Outcome := if initial then invalid else unsolvable

end Outcome

namespace Puzzle

def classify (puzzle : Puzzle) (initial : Bool) (state : State) : Except Fault Outcome :=
  if state.hasEmptyDomain then .ok (.broken initial)
  else do
    let consistent ← puzzle.isConsistent state
    if !consistent then .ok (.broken initial)
    else if !state.allDetermined then .ok .unsolved
    else do
      let solved ← puzzle.isSolved state
      if solved then .ok .solved else .ok (.broken initial)

/-- The references to consider for guessing: the puzzle's own order, or that of the variables. -/
def order (puzzle : Puzzle) (state : State) : List Int :=
  match puzzle.guessOrder with
  | some order => order state
  | none => state.undetermined.map Int.ofNat

end Puzzle

end PencilPuzzle
