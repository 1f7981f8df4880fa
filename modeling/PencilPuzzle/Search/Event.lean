import PencilPuzzle.State.Basic

/-!
# Progress events

What a search tells a hook while it runs, and what a hook may ask of it in return. A hook has a
memory of its own and sees the state without being able to change it.
-/

namespace PencilPuzzle

inductive EventKind where
  | fixpoint
  | guess
  | backtrack
  deriving DecidableEq

def EventKind.name : EventKind → String
  | fixpoint => "fixpoint"
  | guess => "guess"
  | backtrack => "backtrack"

structure Guess where
  var : Nat
  value : Nat
  deriving DecidableEq

/-- A propagation run that returned, a guess that was made, or one that was taken back. -/
structure Event where
  kind : EventKind
  state : State
  /-- The number of guesses on the current path. -/
  depth : Nat
  /-- All guesses made so far. -/
  guesses : Nat
  /-- The most guesses that may be made. -/
  budget : Nat
  /-- The guess that was made or taken back. -/
  guess : Option Guess

inductive Command where
  | cancel
  | setBudget (budget : Int)
  /-- Stops the search with a fault of the hook's own. -/
  | fail (fault : Fault)
  deriving DecidableEq

/-- A hook answers an event with its new memory and the commands to carry out, in order. -/
abbrev Hook (μ : Type) := μ → Event → μ × List Command

def Hook.silent {μ : Type} : Hook μ := fun memory _ => (memory, [])

end PencilPuzzle
