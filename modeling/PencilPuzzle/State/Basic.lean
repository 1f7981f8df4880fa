import PencilPuzzle.Domain
import PencilPuzzle.Room

/-!
# Puzzle states

The decision variables of a puzzle, each with its domain, the trail of changes made since solving
started, and the constraints that link variables. Callers name variables and values by integers of
any size; a reference is checked once, against the number of variables or values, and everything
behind that check works on natural numbers.
-/

namespace PencilPuzzle

structure Slot (size : Nat) where
  domain : Domain size
  /-- A locked variable is a given of the puzzle. -/
  locked : Bool
  deriving DecidableEq

/-- A recorded change: the variable and the domain it had before. -/
structure Change (size : Nat) where
  var : Nat
  before : Domain size
  deriving DecidableEq

structure State where
  /-- The number of values a variable can take. -/
  size : Nat
  slots : Array (Slot size)
  /-- The changes made so far, newest first. -/
  trail : List (Change size)
  /-- The constraints and the variables each of them links, in order of registration. -/
  constraints : List (Key × List Nat)
  deriving DecidableEq

namespace State

/-- The state in which every variable may take every value. -/
def blank (count size : Nat) : State where
  size := size
  slots := if count = 0 then #[] else Array.replicate count ⟨Domain.full size, false⟩
  trail := []
  constraints := []

/-- A blank state of the requested shape. Without a variable no domain needs room. -/
def new (count size : Int) : Except Fault State :=
  if count < 0 then .error (.state .negativeVariableCount)
  else if size ≤ 0 then .error (.state .noValues)
  else do
    if count ≠ 0 then Room.checkSet size
    return blank count.toNat size.toNat

def count (state : State) : Nat := state.slots.size

/-! ### Checked references -/

/-- The variable an integer refers to. -/
def checkVar (state : State) (reference : Int) : Except Fault Nat :=
  if 0 ≤ reference ∧ reference < state.count then .ok reference.toNat
  else .error (.state (.unknownVariable reference state.count))

/-- The value an integer refers to. -/
def checkValue (state : State) (reference : Int) : Except Fault Nat :=
  if 0 ≤ reference ∧ reference < state.size then .ok reference.toNat
  else .error (.state (.unknownValue reference state.size))

/-- The values a list of integers refers to; the first bad reference is reported. -/
def checkValues (state : State) : List Int → Except Fault (List Nat)
  | [] => .ok []
  | reference :: rest => do
    let first ← state.checkValue reference
    let others ← state.checkValues rest
    return first :: others

/-! ### Queries -/

/-- The domain of a variable; a variable that does not exist has none left. -/
def domain (state : State) (v : Nat) : Domain state.size :=
  match state.slots[v]? with
  | some slot => slot.domain
  | none => Domain.empty state.size

/-- The remaining values of a variable, ascending. -/
def candidates (state : State) (v : Nat) : List Nat := (state.domain v).values

def hasCandidate (state : State) (v x : Nat) : Bool := x ∈ state.candidates v

def isDetermined (state : State) (v : Nat) : Bool := (state.domain v).isDetermined

def value? (state : State) (v : Nat) : Option Nat := (state.domain v).value?

def isLocked (state : State) (v : Nat) : Bool :=
  match state.slots[v]? with
  | some slot => slot.locked
  | none => false

def domains (state : State) : List (Domain state.size) :=
  state.slots.toList.map Slot.domain

def hasEmptyDomain (state : State) : Bool := state.domains.any Domain.isEmpty

def allDetermined (state : State) : Bool := state.domains.all Domain.isDetermined

/-- The variables with more than one remaining value, ascending. -/
def undetermined (state : State) : List Nat :=
  (List.range state.count).filter fun v => 1 < (state.domain v).count

def determinedCount (state : State) : Nat := state.domains.countP Domain.isDetermined

/-- How many values are left in all domains together. -/
def candidateTotal (state : State) : Nat := (state.domains.flatMap Domain.values).length

def describe (state : State) : String :=
  s!"PuzzleState(n_variables={state.count}, domain_size={state.size}, " ++
    s!"determined={state.determinedCount})"

end State

end PencilPuzzle
