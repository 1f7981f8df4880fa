import PencilPuzzle.Latin
import PencilPuzzle.Proofs.Search.Completeness

/-!
# Groups of different values

An assignment fills the groups of a state when every group takes each value exactly once. Neither
rule for groups turns against such an assignment: a value that another variable of the group has
taken is not the assigned one, and the only place left for a value is the one that takes it.
-/

namespace PencilPuzzle.Latin

open State

variable {s : State} {a : Nat → Nat}

/-- Every group takes each value exactly once. -/
structure Fills (frame : Frame) (a : Nat → Nat) : Prop where
  inside : ∀ entry ∈ frame.constraints, ∀ v ∈ entry.2, v < frame.count
  differ : ∀ entry ∈ frame.constraints, ∀ v ∈ entry.2, ∀ w ∈ entry.2, a v = a w → v = w
  covers : ∀ entry ∈ frame.constraints, ∀ x < frame.size, ∃ v ∈ entry.2, a v = x

theorem spares_elimination (fills : Fills s.frame a) (admits : s.Admits a) :
    elimination.Spares a s := by
  refine Rule.spares_of_ok rfl (spares_removals fun v inside taken => ?_)
  obtain ⟨⟨key, group⟩, registered, found⟩ := List.mem_flatMap.mp taken
  dsimp only at found
  split at found
  next member =>
    obtain ⟨w, other, value⟩ := List.mem_filterMap.mp found
    split at value
    next => simp at value
    next different =>
      -- The value of `w` is the assigned one, since `w` has no other left.
      have alone := value?_eq_some.mp value
      have listed : a w ∈ s.candidates w := admits w (fills.inside _ registered w other)
      rw [alone, List.mem_singleton] at listed
      exact different (fills.differ _ registered w other v member listed)
  next => exact absurd found List.not_mem_nil

theorem mem_holders {group : List Nat} {v x : Nat} :
    v ∈ holders s group x ↔ v ∈ group ∧ x ∈ s.domain v := by
  simp [holders, hasCandidate, candidates, Domain.mem_values]

private theorem exists_holder (fills : Fills s.frame a) (admits : s.Admits a) {key : Key} {group : List Nat}
    (registered : (key, group) ∈ s.constraints) {x : Nat} (bound : x < s.size) :
    ∃ v ∈ holders s group x, a v = x := by
  obtain ⟨v, member, rfl⟩ := fills.covers _ registered x bound
  exact ⟨v, mem_holders.mpr ⟨member, admits v (fills.inside _ registered v member)⟩, rfl⟩

private theorem unplaced_eq_none (fills : Fills s.frame a) (admits : s.Admits a) : unplaced s = none := by
  refine List.findSome?_eq_none_iff.mpr fun ⟨key, group⟩ registered => ?_
  rw [Option.map_eq_none_iff, leastBelow?_eq, List.find?_eq_none]
  intro x bound
  obtain ⟨v, holder, _⟩ := exists_holder fills admits registered (List.mem_range.mp bound)
  simpa using List.ne_nil_of_mem holder

private theorem eq_of_mem_singles (fills : Fills s.frame a) (admits : s.Admits a) {v x : Nat}
    (single : (v, x) ∈ singles s) : a v = x := by
  obtain ⟨⟨key, group⟩, registered, found⟩ := List.mem_flatMap.mp single
  obtain ⟨y, bound, only⟩ := List.mem_filterMap.mp found
  split at only
  next w alone =>
    cases only
    obtain ⟨u, holder, taken⟩ := exists_holder fills admits registered (List.mem_range.mp bound)
    rw [alone, List.mem_singleton] at holder
    exact holder ▸ taken
  next => simp at only

theorem hiddenSingle_eq_ok {updates : List Update} (deduced : hiddenSingle.deduce s = .ok updates) :
    unplaced s = none ∧ updates = s.removals (displaced s (singles s)) := by
  unfold hiddenSingle at deduced
  dsimp only at deduced
  split at deduced
  next => exact nomatch deduced
  next placed =>
    cases deduced
    exact ⟨placed, rfl⟩

theorem spares_hiddenSingle (fills : Fills s.frame a) (admits : s.Admits a) :
    hiddenSingle.Spares a s := by
  have deduced : hiddenSingle.deduce s = .ok (s.removals (displaced s (singles s))) := by
    simp only [hiddenSingle, unplaced_eq_none fills admits]
  refine Rule.spares_of_ok deduced (spares_removals fun v inside lost => ?_)
  obtain ⟨⟨w, y⟩, single, same⟩ := List.any_eq_true.mp (List.mem_filter.mp lost).2
  obtain ⟨rfl, other⟩ : w = v ∧ y ≠ a v := by simpa using same
  exact other (eq_of_mem_singles fills admits single).symm

theorem wellBehaved_elimination (frame : Frame) : elimination.WellBehaved frame := by
  rintro t rfl
  refine ⟨FailsOnly.ok, fun updates deduced => ?_⟩
  cases deduced
  exact inRange_removals

theorem wellBehaved_hiddenSingle (frame : Frame) : hiddenSingle.WellBehaved frame := by
  rintro t rfl
  unfold hiddenSingle
  dsimp only
  split
  next cause _ => exact ⟨FailsOnly.error ⟨cause, rfl⟩, fun _ h => nomatch h⟩
  next =>
    refine ⟨FailsOnly.ok, fun updates deduced => ?_⟩
    cases deduced
    exact inRange_removals

end PencilPuzzle.Latin
