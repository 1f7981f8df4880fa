import PencilPuzzle.State.Basic

/-!
# Changing a state

Givens and initial domains are set before solving starts and leave no trace. From then on domains
only shrink, every change is put on the trail, and undoing to a mark restores what the state was
when the mark was taken. An operation that fails changes nothing.
-/

namespace PencilPuzzle.State

def setDomain (state : State) (v : Nat) (domain : Domain state.size) : State :=
  { state with slots := state.slots.modify v fun slot => { slot with domain } }

/-! ### Before solving -/

/-- Fixes a variable to a value for good. -/
def lock (state : State) (reference value : Int) : Except Fault State := do
  let v ← state.checkVar reference
  let x ← state.checkValue value
  if state.trail ≠ [] then .error (.state .alreadyStarted)
  else
    let given : Slot state.size := ⟨Domain.select state.size (· = x), true⟩
    .ok { state with slots := state.slots.setIfInBounds v given }

/-- Chooses the initial domain of a variable, possibly an empty one. -/
def chooseDomain (state : State) (reference : Int) (references : List Int) :
    Except Fault State := do
  let v ← state.checkVar reference
  if state.trail ≠ [] then .error (.state .alreadyStarted)
  else if state.isLocked v then .error (.state (.lockedVariable v))
  else do
    let chosen ← state.checkValues references
    return state.setDomain v (Domain.select state.size (· ∈ chosen))

/-! ### While solving -/

/-- Narrows the domain of a variable to the values that pass a test; the flag says whether any of
its values did not. -/
def narrow (state : State) (v : Nat) (test : Nat → Bool) : Except Fault (State × Bool) :=
  let before := state.domain v
  let after := before.keep test
  if after = before then .ok (state, false)
  else if state.isLocked v then .error (.contradiction (.givenEliminated v))
  else .ok ({ state.setDomain v after with trail := ⟨v, before⟩ :: state.trail }, true)

def remove (state : State) (reference : Int) (references : List Int) :
    Except Fault (State × Bool) := do
  let v ← state.checkVar reference
  let struck ← state.checkValues references
  state.narrow v (· ∉ struck)

/-- Keeps only the listed values. They are put into a set before the variable is looked at, so the
room for that set comes first. -/
def restrict (state : State) (reference : Int) (references : List Int) :
    Except Fault (State × Bool) := do
  Room.checkSet state.size
  let kept ← state.checkValues references
  let v ← state.checkVar reference
  state.narrow v (· ∈ kept)

def assign (state : State) (reference value : Int) : Except Fault (State × Bool) := do
  let v ← state.checkVar reference
  let x ← state.checkValue value
  if state.hasCandidate v x then state.narrow v (· = x)
  else .error (.state (.notCandidate x v))

/-! ### Undoing -/

/-- A mark is the length of the trail when it is taken. -/
def mark (state : State) : Nat := state.trail.length

/-- Takes back the `steps` newest changes. -/
def rewind (state : State) : Nat → State
  | 0 => state
  | steps + 1 =>
    match state.trail with
    | [] => state
    | change :: older =>
      rewind { state.setDomain change.var change.before with trail := older } steps

/-- Takes back every change made after a mark; a mark beyond the trail takes back nothing. -/
def undo (state : State) (mark : Nat) : State := state.rewind (state.trail.length - mark)

end PencilPuzzle.State
