import PencilPuzzle.Proofs.State.Operation

/-!
# The shape of a state

How many variables there are and how many values they may take is settled when a state is made: no
operation changes it. Constraints can be added at any time, but only such as link variables that exist.
So in every state that operations lead to, whoever reads the variables of a constraint finds them.
-/

namespace PencilPuzzle.State

variable {size count : Nat} {s t : State}

structure Shaped (size count : Nat) (state : State) : Prop where
  size_eq : state.size = size
  count_eq : state.count = count
  linked : ∀ entry ∈ state.constraints, ∀ v ∈ entry.2, v < count

private theorem frame_rewind (s : State) (steps : Nat) : (s.rewind steps).frame = s.frame := by
  refine rewind_keeps (P := fun t => t.frame = s.frame) (fun t change _ _ same => ?_) rfl steps
  rw [← same]
  exact congrArg (Frame.mk t.size · t.constraints) (count_setDomain t change.var change.before)

/-- Only a registration goes beyond the domains, the locks and the trail. -/
theorem frame_perform {operation : Operation}
    (other : ∀ key references, operation ≠ .addConstraint key references) (s : State) :
    (s.perform operation).frame = s.frame := by
  cases operation with
  | addConstraint key references => exact absurd rfl (other key references)
  | lock reference value =>
    refine orUnchanged_of (P := fun t => t.frame = s.frame) rfl fun t locked => ?_
    obtain ⟨v, x, _, _, _, rfl⟩ := lock_eq_ok.mp locked
    exact frame_given s v x
  | chooseDomain reference references =>
    refine orUnchanged_of (P := fun t => t.frame = s.frame) rfl fun t chosen => ?_
    obtain ⟨v, _, _, _, _, _, rfl⟩ := chooseDomain_eq_ok chosen
    exact congrArg (Frame.mk s.size · s.constraints) (count_setDomain s v _)
  | remove | restrict | assign | applyUpdates => exact (narrowsTo_perform rfl s).frame_eq
  | undo mark => exact frame_rewind s _

namespace Shaped

theorem of_frame_eq (shaped : s.Shaped size count) (same : t.frame = s.frame) : t.Shaped size count where
  size_eq := (congrArg Frame.size same).trans shaped.size_eq
  count_eq := (congrArg Frame.count same).trans shaped.count_eq
  linked := by
    have constraints : t.constraints = s.constraints := congrArg Frame.constraints same
    rw [constraints]
    exact shaped.linked

theorem addConstraint {key : Key} {references : List Int} (shaped : s.Shaped size count)
    (h : s.addConstraint key references = .ok t) : t.Shaped size count := by
  obtain ⟨linked, _, checked, rfl⟩ := addConstraint_eq_ok h
  refine ⟨shaped.size_eq, shaped.count_eq, fun entry registered => ?_⟩
  rcases List.mem_append.mp registered with old | new
  · exact shaped.linked entry old
  · cases List.mem_singleton.mp new
    exact shaped.count_eq ▸ (checkVars_eq_ok checked).2

theorem perform (shaped : s.Shaped size count) (operation : Operation) :
    (s.perform operation).Shaped size count := by
  cases operation with
  | addConstraint key references => exact orUnchanged_of shaped fun _ => shaped.addConstraint
  | lock | chooseDomain | remove | restrict | assign | applyUpdates | undo =>
    exact shaped.of_frame_eq (frame_perform (by nofun) s)

end Shaped

theorem shaped_blank (count size : Nat) : (State.blank count size).Shaped size count where
  size_eq := rfl
  count_eq := count_blank count size
  linked _ registered := absurd registered List.not_mem_nil

theorem Reaches.shaped (h : s.Reaches t) (shaped : s.Shaped size count) : t.Shaped size count := by
  induction h with
  | refl => exact shaped
  | perform operation _ ih => exact ih.perform operation

end PencilPuzzle.State
