import PencilPuzzle.State.Basic

/-!
# Constraint membership

Which variables a constraint links and which constraints a variable takes part in. Registration is
all or nothing: a key that is taken, or a variable that does not exist, leaves the state as it was.
-/

namespace PencilPuzzle.State

def constraintKeys (state : State) : List Key := state.constraints.map Prod.fst

def checkVars (state : State) : List Int → Except Fault (List Nat)
  | [] => .ok []
  | reference :: rest => do
    let first ← state.checkVar reference
    let others ← state.checkVars rest
    return first :: others

/-- Registers a constraint; its key must be new. -/
def addConstraint (state : State) (key : Key) (references : List Int) : Except Fault State :=
  if key ∈ state.constraintKeys then .error (.state (.repeatedConstraint key))
  else do
    let linked ← state.checkVars references
    return { state with constraints := state.constraints ++ [(key, linked)] }

def addConstraints (state : State) : List (Key × List Int) → Except Fault State
  | [] => .ok state
  | (key, references) :: rest => do
    let extended ← state.addConstraint key references
    extended.addConstraints rest

def variablesOf (state : State) (key : Key) : Except Fault (List Nat) :=
  match state.constraints.find? (·.1 = key) with
  | some (_, linked) => .ok linked
  | none => .error (.state (.unknownConstraint key))

/-- The constraints of a variable in order of registration, each as often as it lists it. -/
def constraintsOf (state : State) (v : Nat) : List Key :=
  state.constraints.flatMap fun (key, linked) => List.replicate (linked.count v) key

end PencilPuzzle.State
