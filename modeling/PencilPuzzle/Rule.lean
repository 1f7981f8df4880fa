import PencilPuzzle.State.Change

/-!
# Deduction rules

A rule looks at a state and proposes removals; it never touches the state itself. Applying the
proposals stops at the first fault, and what was removed before it stays removed.
-/

namespace PencilPuzzle

/-- The removal of some values, ascending, from the domain of one variable. -/
structure Update where
  var : Int
  removed : List Int
  deriving DecidableEq

structure Rule where
  name : String
  deduce : State → Except Fault (List Update)

namespace State

/-- For every variable, in order, the removal of those of its candidates that are refused. -/
def removals (state : State) (refused : Nat → List Nat) : List Update :=
  (List.range state.count).filterMap fun v =>
    let out := refused v
    match (state.candidates v).filter (· ∈ out) with
    | [] => none
    | struck => some ⟨v, struck.map Int.ofNat⟩

/-- Applies updates in order and counts those that shrank a domain. -/
def applyUpdates (state : State) : List Update → State × Except Fault Nat
  | [] => (state, .ok 0)
  | update :: rest =>
    match state.remove update.var update.removed with
    | .error fault => (state, .error fault)
    | .ok (same, false) => same.applyUpdates rest
    | .ok (smaller, true) =>
      let v := update.var.toNat
      if (smaller.domain v).isEmpty then
        (smaller, .error (.contradiction (.domainEmptied v)))
      else
        let (final, result) := smaller.applyUpdates rest
        (final, result.map (· + 1))

end State

end PencilPuzzle
