import PencilPuzzle.Puzzle
import PencilPuzzle.Settings

/-!
# Solvers

The settings and counters that outlive a single call: how variables are chosen, how long rules may
run, how many guesses may be made and how many have been.
-/

namespace PencilPuzzle

/-- Which open variable to guess on: the first one, or one with the fewest candidates. -/
inductive Policy where
  | first
  | fewest
  deriving DecidableEq

namespace Policy

def ofName? (name : String) : Option Policy :=
  if name = "first" then some first
  else if name = "fewest" then some fewest
  else none

/-- Every name but that of the first policy stands for the other one. -/
def ofName (name : String) : Policy := if name = "first" then first else fewest

end Policy

structure SearchStats where
  fixpoints : Nat := 0
  ruleUpdates : Nat := 0
  backtracks : Nat := 0
  maxDepth : Nat := 0
  deriving DecidableEq

structure Solver where
  policy : Policy
  passLimit : Option Int
  guesses : Nat
  budget : Nat
  outcome : Outcome
  cancelled : Bool
  stats : SearchStats
  deriving DecidableEq

/-- The choices a caller makes; what is left open comes from the settings. -/
structure SolverOptions where
  maxGuesses : Option Int := none
  guessPolicy : Option String := none
  maxFixpointPasses : Option Int := none

namespace Solver

/-- Sets the guess budget, which never falls below the guesses already made. -/
def setBudget (solver : Solver) (budget : Int) : Except Fault Solver :=
  if budget < 0 then .error (.search .negativeBudget)
  else if budget < solver.guesses then .error (.search (.budgetSpent budget solver.guesses))
  else .ok { solver with budget := budget.toNat }

def setPolicy (solver : Solver) (name : String) : Solver :=
  { solver with policy := Policy.ofName name }

def setPassLimit (solver : Solver) (limit : Option Int) : Solver :=
  { solver with passLimit := limit }

/-- Asks a running search to stop; a new search starts without the request. -/
def cancel (solver : Solver) : Solver := { solver with cancelled := true }

/-- The pass limit an option and the settings agree on; a limit is at least one. -/
def checkPassLimit (limit : Option Int) : Except Fault (Option Int) :=
  match limit with
  | none => .ok none
  | some limit => if limit < 1 then .error (.search (.noFixpointPasses limit)) else .ok (some limit)

def new (settings : Settings) (options : SolverOptions) : Except Fault Solver :=
  let name := options.guessPolicy.getD settings.guessPolicy
  match Policy.ofName? name with
  | none => .error (.search (.unknownPolicy name))
  | some policy => do
    let passLimit ← checkPassLimit (options.maxFixpointPasses <|> settings.maxFixpointPasses)
    let fresh : Solver := ⟨policy, passLimit, 0, 0, .unsolved, false, {}⟩
    fresh.setBudget (options.maxGuesses.getD settings.maxGuesses)

def describe (solver : Solver) : String :=
  "Solver(state=" ++ solver.outcome.name ++
    s!", total_guesses={solver.guesses}, max_guesses={solver.budget})"

end Solver

/-! ### Choosing a variable -/

/-- The listed variables that are not determined, in their order; a bad reference is a fault. -/
def State.openAmong (state : State) : List Int → Except Fault (List Nat)
  | [] => .ok []
  | reference :: rest => do
    let v ← state.checkVar reference
    let others ← state.openAmong rest
    return if state.isDetermined v then others else v :: others

/-- The earliest variable of those with the fewest candidates. -/
def State.fewestCandidates (state : State) (best : Nat) : List Nat → Nat
  | [] => best
  | v :: rest =>
    if (state.domain v).count < (state.domain best).count then state.fewestCandidates v rest
    else state.fewestCandidates best rest

def Puzzle.chooseVariable (puzzle : Puzzle) (policy : Policy) (state : State) :
    Except Fault Nat := do
  match ← state.openAmong (puzzle.order state) with
  | [] => .error (.search .nothingToGuess)
  | v :: rest =>
    match policy with
    | .first => return v
    | .fewest => return state.fewestCandidates v rest

end PencilPuzzle
