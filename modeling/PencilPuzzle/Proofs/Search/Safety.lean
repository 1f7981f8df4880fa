import PencilPuzzle.Proofs.Search.Completeness

/-!
# Searches that do not fail

A search under a hook that asks for nothing fails only where its rules or checks do, and not with a
contradiction: that is caught at the node where it is met. What the search does by itself never fails.
The variable to guess on is open and its values are candidates, no given is ever open, and as long as
the state is open there is a variable to guess on. The pass limit is free, unless it is less than one.
-/

namespace PencilPuzzle

open State

variable {μ : Type} {puzzle : Puzzle} {hook : Hook μ} {frame : Frame} {kind : Fault → Prop}

/-- On states of this shape only rules contradict, all other faults are of one kind, and a variable
that is open can be found in the order. -/
structure Puzzle.FailsWith (kind : Fault → Prop) (puzzle : Puzzle) (frame : Frame) : Prop where
  rules : ∀ rule ∈ puzzle.rules, ∀ t : State, t.frame = frame →
    ContradictsOr kind (rule.deduce t) ∧
      ∀ updates, rule.deduce t = .ok updates → ∀ update ∈ updates, update.InRange frame
  consistent : ∀ t : State, t.frame = frame → FailsOnly kind (puzzle.isConsistent t)
  solved : ∀ t : State, t.frame = frame → t.allDetermined = true → FailsOnly kind (puzzle.isSolved t)
  inRange : ∀ t : State, t.frame = frame → ∀ reference ∈ puzzle.order t,
    ∃ v < frame.count, reference = (v : Int)
  covers : ∀ t : State, t.frame = frame → ∀ v ∈ t.undetermined, (v : Int) ∈ puzzle.order t

theorem FailsOnly.mono {α : Type} {kind' : Fault → Prop} {result : Except Fault α}
    (fails : FailsOnly kind result) (weaker : ∀ fault, kind fault → kind' fault) :
    FailsOnly kind' result :=
  fun fault failed => weaker fault (fails fault failed)

theorem Puzzle.WellBehaved.failsWith (wellBehaved : puzzle.WellBehaved frame) :
    puzzle.FailsWith (fun _ => False) frame where
  rules rule member t shape := by
    obtain ⟨only, inRange⟩ := wellBehaved.rules rule member t shape
    exact ⟨only.mono fun _ => .inr, inRange⟩
  consistent t shape fault failed := by
    obtain ⟨_, judged⟩ := wellBehaved.consistent t shape
    rw [judged] at failed
    exact nomatch failed
  solved t shape full fault failed := by
    obtain ⟨_, judged⟩ := wellBehaved.solved t shape full
    rw [judged] at failed
    exact nomatch failed
  inRange := wellBehaved.inRange
  covers := wellBehaved.covers

namespace Puzzle.FailsWith

variable (failsWith : puzzle.FailsWith kind frame) {s : State} (shape : s.frame = frame)
include failsWith shape

theorem classify (initial : Bool) : FailsOnly kind (puzzle.classify initial s) := by
  unfold Puzzle.classify
  split
  · exact FailsOnly.ok
  · refine FailsOnly.bind (failsWith.consistent s shape) fun consistent _ => ?_
    split
    · exact FailsOnly.ok
    · split
      next => exact FailsOnly.ok
      next full =>
        refine FailsOnly.bind (failsWith.solved s shape (by simpa using full)) fun solved _ => ?_
        split <;> exact FailsOnly.ok

theorem runToFixpoint {limit : Option Int} (valid : ∀ passes, limit = some passes → 1 ≤ passes) :
    ContradictsOr kind (PencilPuzzle.runToFixpoint puzzle.rules limit s).result := by
  have step (t : State) (same : t.frame = frame) (rule : Rule) (member : rule ∈ puzzle.rules) :
      ContradictsOr kind (rule.deduce t) ∧
        ∀ updates, rule.deduce t = .ok updates → (t.applyUpdates updates).1.frame = frame ∧
          ContradictsOr kind (t.applyUpdates updates).2 := by
    obtain ⟨fails, inRange⟩ := failsWith.rules rule member t same
    refine ⟨fails, fun updates deduced =>
      ⟨(narrowsTo_applyUpdates t updates).frame_eq.trans same, ?_⟩⟩
    exact (onlyContradicts_applyUpdates same (inRange updates deduced)).mono fun _ => .inr
  unfold PencilPuzzle.runToFixpoint
  split
  next => exact (passes_keeps _ step _ shape).2
  next passes =>
    rw [if_neg (by have := valid passes rfl; omega)]
    exact (passes_keeps _ step _ shape).2

theorem chooseVariable (policy : Policy) (isOpen : puzzle.classify false s = .ok .unsolved) :
    ∃ v ∈ s.undetermined, puzzle.chooseVariable policy s = .ok v := by
  subst shape
  exact exists_chosen policy (failsWith.inRange s rfl) (failsWith.covers s rfl) isOpen

end Puzzle.FailsWith

def Solver.Valid (solver : Solver) : Prop := ∀ passes, solver.passLimit = some passes → 1 ≤ passes

theorem Solver.Valid.congr {solver other : Solver} (valid : solver.Valid)
    (same : other.passLimit = solver.passLimit) : other.Valid := by
  rw [Valid, same]
  exact valid

namespace Search

variable {s t : Search μ}

structure Regular (frame : Frame) (search : Search μ) : Prop where
  shape : search.state.frame = frame
  givens : search.state.GivensHold
  valid : search.solver.Valid

theorem Regular.leads (regular : s.Regular frame) (leads : s.Leads t) : t.Regular frame where
  shape := leads.state.frame_eq.trans regular.shape
  givens := leads.state.givensHold regular.givens
  valid := regular.valid.congr leads.passLimit

section Quiet

variable (quiet : hook.Quiet)
include quiet

section Below

variable {attempt : Search μ → Reply μ Outcome} {depth v x : Nat} {values : List Nat}
  (fails : ∀ s : Search μ, s.Regular frame → FailsOnly kind (attempt s).2)
include fails

end Below

end Quiet

end Search

end PencilPuzzle
