import Mathlib.Algebra.BigOperators.Intervals
import PencilPuzzle.Proofs.State.Shape
import PencilPuzzle.Proofs.State.Undo

/-!
# What the trail records

Before solving the domains are set without a trace, afterwards every change is recorded, and going back
can lead to an empty trail again, where the domains may be set anew. So a state that can be reached is
always what a chain of changes has made of one with nothing on record. All that holds of the trail is read
off that chain: the domains a variable had shrink from one to the next, no given is among them, and there
are no more changes than values lost.
-/

namespace PencilPuzzle.State

variable {s t base : State}

/-! ### Chains of changes since an empty trail -/

/-- Changes have made the state of one with nothing on record. -/
def Traced (state : State) : Prop := ∃ base : State, base.trail = [] ∧ base.NarrowsTo state

private theorem Traced.of_empty (empty : s.trail = []) : s.Traced := ⟨s, empty, NarrowsTo.refl⟩

theorem NarrowsTo.withConstraints (h : s.NarrowsTo t) (constraints : List (Key × List Nat)) :
    NarrowsTo { s with constraints } { t with constraints } := by
  induction h with
  | refl => exact NarrowsTo.refl
  | @step t u v test _ change ih =>
    obtain ⟨unlocked, ⟨x, present, fails⟩, rfl⟩ := narrow_eq_true change
    have same := domain_mk t t.trail constraints v
    have unlocked' := (isLocked_mk t t.trail constraints v).trans unlocked
    have changed := narrow_of_fails unlocked' (same ▸ present) fails
    rw [State.change, same] at changed
    exact @NarrowsTo.step _ _ _ v test ih changed

theorem Traced.perform (traced : s.Traced) (operation : Operation) : (s.perform operation).Traced := by
  obtain ⟨base, empty, narrows⟩ := traced
  have here : s.Traced := ⟨base, empty, narrows⟩
  cases operation with
  | lock reference value =>
    refine orUnchanged_of here fun t locked => ?_
    obtain ⟨v, x, _, _, fresh, rfl⟩ := lock_eq_ok.mp locked
    exact .of_empty fresh
  | chooseDomain reference references =>
    refine orUnchanged_of here fun t chosen => ?_
    obtain ⟨v, values, _, fresh, _, _, rfl⟩ := chooseDomain_eq_ok chosen
    exact .of_empty fresh
  | addConstraint key references =>
    refine orUnchanged_of here fun t added => ?_
    obtain ⟨linked, _, _, rfl⟩ := addConstraint_eq_ok added
    exact ⟨{ base with constraints := s.constraints ++ [(key, linked)] }, empty, narrows.withConstraints _⟩
  | remove | restrict | assign | applyUpdates =>
    exact ⟨base, empty, narrows.trans (narrowsTo_perform rfl s)⟩
  | undo mark =>
    have start : base.mark ≤ mark := by
      rw [State.mark, empty]
      exact Nat.zero_le mark
    exact ⟨base, empty, narrows.undo_of_le start⟩

private theorem Reaches.traced (h : s.Reaches t) (traced : s.Traced) : t.Traced := by
  induction h with
  | refl => exact traced
  | perform operation _ ih => exact ih.perform operation

/-! ### The domains on record -/

/-- The sets of values that a variable had before its changes on a trail, oldest first. -/
def recorded {size : Nat} (trail : List (Change size)) (v : Nat) : List (Finset Nat) :=
  (trail.reverse.filter (·.var = v)).map fun change => change.before.values.toFinset

theorem recorded_cons {size : Nat} (change : Change size) (trail : List (Change size)) (v : Nat) :
    recorded (change :: trail) v =
      recorded trail v ++ if v = change.var then [change.before.values.toFinset] else [] := by
  rw [recorded, List.reverse_cons, List.filter_append, List.map_append]
  by_cases same : v = change.var
  · simp [recorded, same]
  · simp [recorded, same, Ne.symm same]

private theorem candidates_shrink {v : Nat} {test : Nat → Bool} (h : s.narrow v test = .ok (t, true))
    (w : Nat) :
    if w = v then (t.candidates w).toFinset ⊂ (s.candidates w).toFinset
    else t.candidates w = s.candidates w := by
  obtain ⟨_, ⟨x, present, fails⟩, _⟩ := narrow_eq_true h
  rw [candidates_narrow h]
  split
  next same =>
    subst same
    have kept : ((s.candidates w).filter test).toFinset ⊆ (s.candidates w).toFinset :=
      fun y member => List.mem_toFinset.mpr (List.mem_of_mem_filter (List.mem_toFinset.mp member))
    refine (Finset.ssubset_iff_of_subset kept).mpr ⟨x, List.mem_toFinset.mpr present, fun still => ?_⟩
    have passes := (List.mem_filter.mp (List.mem_toFinset.mp still)).2
    rw [fails] at passes
    exact nomatch passes
  next => rfl

/-- Each change puts the present domain behind those that were there, and a smaller one in its place. -/
theorem NarrowsTo.recorded_chain (h : base.NarrowsTo s) (empty : base.trail = []) (v : Nat) :
    (recorded s.trail v ++ [(s.candidates v).toFinset]).Pairwise (· ⊃ ·) := by
  induction h with
  | refl =>
    rw [empty]
    exact List.pairwise_singleton _ _
  | @step t u w test _ change ih =>
    have narrowed := candidates_shrink change v
    have newest : recorded u.trail v =
        recorded t.trail v ++ if v = w then [(t.candidates v).toFinset] else [] := by
      obtain ⟨_, _, rfl⟩ := narrow_eq_true change
      refine (recorded_cons ⟨w, t.domain w⟩ t.trail v).trans (congrArg _ ?_)
      exact if_ctx_congr Iff.rfl (fun same => by rw [same, candidates]) fun _ => rfl
    rw [newest]
    split at narrowed
    next same =>
      rw [if_pos same, List.pairwise_append]
      refine ⟨ih, List.pairwise_singleton _ _, fun earlier listed last only => ?_⟩
      cases List.mem_singleton.mp only
      obtain older | present := List.mem_append.mp listed
      · have shrunk := (List.pairwise_append.mp ih).2.2 earlier older _ (List.mem_singleton_self _)
        exact narrowed.trans shrunk
      · exact List.mem_singleton.mp present ▸ narrowed
    next other =>
      rw [if_neg other, List.append_nil, narrowed]
      exact ih

theorem length_candidates_le (state : State) (v : Nat) : (state.candidates v).length ≤ state.size := by
  have short := (state.domain v).sublist.length_le
  rwa [List.length_range] at short

def lost (state : State) : Nat :=
  ∑ v ∈ Finset.range state.count, (state.size - (state.candidates v).length)

private theorem lost_add_candidateTotal (state : State) :
    state.lost + state.candidateTotal = state.count * state.size := by
  have total : state.candidateTotal = ∑ v ∈ Finset.range state.count, (state.candidates v).length :=
    state.candidateTotal_eq
  calc state.lost + state.candidateTotal
    _ = ∑ v ∈ Finset.range state.count,
        (state.size - (state.candidates v).length + (state.candidates v).length) := by
      rw [total, lost, Finset.sum_add_distrib]
    _ = ∑ _v ∈ Finset.range state.count, state.size :=
      Finset.sum_congr rfl fun v _ => Nat.sub_add_cancel (state.length_candidates_le v)
    _ = state.count * state.size := by
      rw [Finset.sum_const, Finset.card_range, Nat.nsmul_eq_mul]

theorem Traced.length_trail_le (traced : s.Traced) : s.trail.length ≤ s.lost := by
  obtain ⟨base, empty, narrows⟩ := traced
  have spent : s.candidateTotal + s.trail.length ≤ base.candidateTotal + base.trail.length :=
    narrows.candidateTotal_add_mark_le
  have before := base.lost_add_candidateTotal
  have after := s.lost_add_candidateTotal
  rw [narrows.count_eq, narrows.size_eq] at after
  rw [empty, List.length_nil] at spent
  omega

/-! ### Reachable states -/

/-- In every state that can be reached a given has one value and no change on record, the domains of a
variable on record and the present one grow ever smaller, and no more is on record than values are lost. -/
theorem trail_of_reaches {count size : Nat} (created : State.new count size = .ok base)
    (reaches : base.Reaches s) :
    (∀ v, s.isLocked v = true → ∃ x, s.candidates v = [x]) ∧
      (∀ change ∈ s.trail, s.isLocked change.var = false) ∧
      (∀ v, (recorded s.trail v ++ [(s.candidates v).toFinset]).Pairwise (· ⊃ ·)) ∧
      s.trail.length ≤ ∑ v ∈ Finset.range count, (size - (s.candidates v).length) := by
  have blank : base = State.blank count size := new_eq_ok created
  subst blank
  have settled := reaches.settled (settled_blank count size)
  have traced := reaches.traced (.of_empty rfl)
  have shaped := reaches.shaped (shaped_blank count size)
  refine ⟨fun v locked => ?_, settled.trail, fun v => ?_, ?_⟩
  · exact List.length_eq_one_iff.mp (isDetermined_iff.mp (settled.givens v locked))
  · obtain ⟨base, empty, narrows⟩ := traced
    exact narrows.recorded_chain empty v
  · refine traced.length_trail_le.trans_eq ?_
    rw [lost, shaped.count_eq, shaped.size_eq]

/-- A given, two changes of which one is taken back, and a second given that comes too late. -/
theorem trail_of_reaches_undone :
    let reached := (State.blank 3 3).performAll
      [.lock 0 1, .remove 0 [1], .remove 1 [0], .assign 2 1, .undo 1, .lock 2 2, .remove 1 [2]]
    State.new 3 3 = .ok (State.blank 3 3) ∧ (State.blank 3 3).Reaches reached ∧
      (∃ x, reached.candidates 0 = [x]) ∧ (∀ change ∈ reached.trail, change.var ≠ 0) ∧
      recorded reached.trail 1 = [{0, 1, 2}, {1, 2}] ∧ reached.candidates 1 = [1] ∧
      (recorded reached.trail 1 ++ [(reached.candidates 1).toFinset]).Pairwise (· ⊃ ·) ∧
      reached.trail.length ≤ 4 := by
  intro reached
  have created : State.new (3 : Nat) (3 : Nat) = .ok (State.blank 3 3) := rfl
  have reaches : (State.blank 3 3).Reaches reached := Reaches.refl.performAll _
  obtain ⟨givens, unlocked, chain, few⟩ := trail_of_reaches created reaches
  have locked : reached.isLocked 0 = true := by decide
  refine ⟨created, reaches, givens 0 locked, fun change member same => ?_, by decide, by decide,
    chain 1, few.trans (by decide)⟩
  exact absurd (same ▸ unlocked change member) (by simp [locked])

end PencilPuzzle.State
