import PencilPuzzle.State.Constraint

/-!
# Queries by reference

What callers may ask about the variables of a state, with every reference checked. Where a variable
and a value are named, the variable is checked first.
-/

namespace PencilPuzzle.State.Reference

variable (state : State)

def domain (v : Int) : Except Fault (Domain state.size) := return state.domain (← state.checkVar v)

def candidates (v : Int) : Except Fault (List Nat) := return state.candidates (← state.checkVar v)

def candidateCount (v : Int) : Except Fault Nat := return (state.domain (← state.checkVar v)).count

def hasCandidate (v x : Int) : Except Fault Bool := do
  let v ← state.checkVar v
  let x ← state.checkValue x
  return state.hasCandidate v x

def isDetermined (v : Int) : Except Fault Bool := return state.isDetermined (← state.checkVar v)

def value (v : Int) : Except Fault (Option Nat) := return state.value? (← state.checkVar v)

def isLocked (v : Int) : Except Fault Bool := return state.isLocked (← state.checkVar v)

def constraintsOf (v : Int) : Except Fault (List Key) :=
  return state.constraintsOf (← state.checkVar v)

end PencilPuzzle.State.Reference
