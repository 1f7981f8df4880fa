import PencilPuzzle.Rule

/-!
# Propagation to a fixpoint

Rules run in order, pass after pass, each on what the rules before it left, until a whole pass
changes nothing. A pass that does change something takes away a candidate, so a run without a limit
needs no more passes than there are candidates, and one more to see that nothing is left to do.

Next to its result a run tells which rules it consulted, by their positions in the rule list.
-/

namespace PencilPuzzle

/-- How a computation on a state went: what it left, whom it asked, and what came of it. -/
structure Run (α : Type) where
  state : State
  consulted : List Nat
  result : Except Fault α

structure FixpointSummary where
  /-- Passes made, the quiet last one included. -/
  passes : Nat
  /-- Updates that shrank a domain. -/
  updates : Nat
  /-- Whether the last pass was quiet. -/
  converged : Bool
  deriving DecidableEq

namespace Fixpoint

/-- One pass over the rules from position `index` on; the result counts effective updates. -/
def pass (index : Nat) (rules : List Rule) (state : State) : Run Nat :=
  match rules with
  | [] => ⟨state, [], .ok 0⟩
  | rule :: rest =>
    match rule.deduce state with
    | .error fault => ⟨state, [index], .error fault⟩
    | .ok updates =>
      match state.applyUpdates updates with
      | (reached, .error fault) => ⟨reached, [index], .error fault⟩
      | (reached, .ok changed) =>
        let later := pass (index + 1) rest reached
        ⟨later.state, index :: later.consulted, later.result.map (changed + ·)⟩

def passes (rules : List Rule) : Nat → State → Run FixpointSummary
  | 0, state => ⟨state, [], .ok ⟨0, 0, false⟩⟩
  | limit + 1, state =>
    let first := pass 0 rules state
    match first.result with
    | .error fault => ⟨first.state, first.consulted, .error fault⟩
    | .ok 0 => ⟨first.state, first.consulted, .ok ⟨1, 0, true⟩⟩
    | .ok changed =>
      let later := passes rules limit first.state
      ⟨later.state, first.consulted ++ later.consulted,
        later.result.map fun summary =>
          ⟨summary.passes + 1, changed + summary.updates, summary.converged⟩⟩

/-- Enough passes for a run without a limit. -/
def enoughPasses (state : State) : Nat := state.candidateTotal + 1

end Fixpoint

/-- Runs the rules until a pass is quiet or, if there is a limit, that many passes are made. -/
def runToFixpoint (rules : List Rule) (limit : Option Int) (state : State) :
    Run FixpointSummary :=
  match limit with
  | none => Fixpoint.passes rules (Fixpoint.enoughPasses state) state
  | some limit =>
    if limit < 1 then ⟨state, [], .error (.search (.noPasses limit))⟩
    else Fixpoint.passes rules limit.toNat state

end PencilPuzzle
