import PencilPuzzle.Least
import PencilPuzzle.Rule

/-!
# Rules for groups of different values

Both rules read every constraint of the state as a group whose variables take different values, and
the second one also as a group in which every value occurs.
-/

namespace PencilPuzzle.Latin

/-- The values already taken by the other variables of the groups of `v`. -/
def takenAround (state : State) (v : Nat) : List Nat :=
  state.constraints.flatMap fun (_, group) =>
    if v ∈ group then group.filterMap fun w => if w = v then none else state.value? w
    else []

/-- Strikes a value that another variable of the same group has taken. -/
def elimination : Rule where
  name := "latin-elimination"
  deduce state := .ok (state.removals (takenAround state))

def holders (state : State) (group : List Nat) (x : Nat) : List Nat :=
  group.filter fun v => state.hasCandidate v x

/-- The first value that has no place left in its group. -/
def unplaced (state : State) : Option Contradiction :=
  state.constraints.findSome? fun (key, group) =>
    (leastBelow? state.size fun x => (holders state group x).isEmpty).map (.noPlace · key)

/-- The pairs of a variable and a value that has no other place in some group. -/
def singles (state : State) : List (Nat × Nat) :=
  state.constraints.flatMap fun (_, group) =>
    (List.range state.size).filterMap fun x =>
      match holders state group x with
      | [v] => some (v, x)
      | _ => none

/-- The candidates of `v` that give way to a value with no other place. -/
def displaced (state : State) (singles : List (Nat × Nat)) (v : Nat) : List Nat :=
  (state.candidates v).filter fun x => singles.any fun (w, y) => w = v && y ≠ x

/-- Fixes a variable that is the only place left for some value. -/
def hiddenSingle : Rule where
  name := "hidden-single"
  deduce state :=
    match unplaced state with
    | some cause => .error (.contradiction cause)
    | none =>
      let found := singles state
      .ok (state.removals (displaced state found))

end PencilPuzzle.Latin
