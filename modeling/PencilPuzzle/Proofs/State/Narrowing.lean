import Mathlib.Algebra.GroupWithZero.Nat
import Mathlib.Algebra.Order.BigOperators.Group.List
import Mathlib.Algebra.Order.Group.Nat
import Mathlib.Data.List.Perm.Subperm
import Mathlib.Tactic.Common
import PencilPuzzle.State.Change

/-!
# Narrowing a state

While a puzzle is solved a state changes in one way only: the domain of an unlocked variable loses
values, and the domain it had goes on the trail. Everything a run of the rules or a search can do to
a state is a chain of such changes, possibly followed by taking the newest of them back. What the
proofs about runs need to know of states is derived here, once, from a single change.
-/

namespace PencilPuzzle

/-- What no change made while solving touches: the shape of a state and its constraints. -/
structure Frame where
  size : Nat
  count : Nat
  constraints : List (Key × List Nat)

namespace State

variable {state s t u : State}

def frame (state : State) : Frame := ⟨state.size, state.count, state.constraints⟩

/-! ### Replacing a domain -/

@[simp] theorem count_setDomain (state : State) (v : Nat) (domain : Domain state.size) :
    (state.setDomain v domain).count = state.count := by
  simp [setDomain, count]

private theorem slot_setDomain (state : State) (v w : Nat) (domain : Domain state.size) :
    (state.setDomain v domain).slots[w]? =
      if v = w then state.slots[w]?.map fun slot => { slot with domain } else state.slots[w]? :=
  Array.getElem?_modify

theorem isLocked_eq (state : State) (v : Nat) :
    state.isLocked v = (state.slots[v]?.map Slot.locked).getD false := by
  unfold isLocked
  cases state.slots[v]? <;> rfl

theorem candidates_eq (state : State) (v : Nat) :
    state.candidates v = (state.slots[v]?.map fun slot => slot.domain.values).getD [] := by
  unfold candidates domain
  cases state.slots[v]? <;> rfl

theorem isDetermined_iff {v : Nat} :
    state.isDetermined v = true ↔ (state.candidates v).length = 1 := by
  simp [isDetermined, Domain.isDetermined, Domain.count, candidates]

private theorem domain_eq (state : State) (v : Nat) :
    state.domain v = (state.slots[v]?.map Slot.domain).getD (Domain.empty state.size) := by
  unfold domain
  cases state.slots[v]? <;> rfl

@[simp] theorem isLocked_setDomain (state : State) (v w : Nat) (domain : Domain state.size) :
    (state.setDomain v domain).isLocked w = state.isLocked w := by
  rw [isLocked_eq, isLocked_eq, slot_setDomain]
  split
  · cases state.slots[w]? <;> rfl
  · rfl

private theorem domain_of_count_le {v : Nat} (outside : state.count ≤ v) :
    state.domain v = Domain.empty state.size := by
  rw [domain_eq, Array.getElem?_eq_none outside]
  rfl

theorem lt_count_of_mem_domain {v x : Nat} (member : x ∈ state.domain v) : v < state.count := by
  by_contra outside
  rw [domain_of_count_le (Nat.le_of_not_lt outside)] at member
  exact Domain.not_mem_empty member

theorem candidates_setDomain_of_ne {v w : Nat} (other : w ≠ v) (domain : Domain state.size) :
    (state.setDomain v domain).candidates w = state.candidates w := by
  rw [candidates_eq, slot_setDomain, if_neg (Ne.symm other), candidates_eq]
  rfl

private theorem modify_modify_domain (state : State) (v : Nat) (domain : Domain state.size) :
    ((state.slots.modify v fun slot => { slot with domain }).modify v
      fun slot => { slot with domain := state.domain v }) = state.slots := by
  apply Array.ext_getElem?
  intro w
  rw [Array.getElem?_modify, Array.getElem?_modify]
  by_cases same : v = w
  · subst same
    rw [if_pos rfl, if_pos rfl, domain_eq]
    cases state.slots[v]? <;> rfl
  · rw [if_neg same, if_neg same]

theorem isLocked_mk (state : State) (trail : List (Change state.size))
    (constraints : List (Key × List Nat)) (v : Nat) :
    State.isLocked ⟨state.size, state.slots, trail, constraints⟩ v = state.isLocked v := by
  rw [isLocked_eq, isLocked_eq]

theorem domain_mk (state : State) (trail : List (Change state.size))
    (constraints : List (Key × List Nat)) (v : Nat) :
    State.domain ⟨state.size, state.slots, trail, constraints⟩ v = state.domain v := by
  rw [domain_eq, domain_eq]

theorem candidates_mk (state : State) (trail : List (Change state.size))
    (constraints : List (Key × List Nat)) (v : Nat) :
    State.candidates ⟨state.size, state.slots, trail, constraints⟩ v = state.candidates v :=
  congrArg Domain.values (domain_mk state trail constraints v)

/-! ### A single change -/

def change (state : State) (v : Nat) (after : Domain state.size) : State :=
  { state.setDomain v after with trail := ⟨v, state.domain v⟩ :: state.trail }

theorem candidates_change {v : Nat} (inside : v < state.count) (w : Nat)
    (after : Domain state.size) :
    (state.change v after).candidates w = if w = v then after.values else state.candidates w := by
  have slot : (state.change v after).slots[w]? = _ := slot_setDomain state v w after
  rw [candidates_eq, slot]
  by_cases same : w = v
  · subst same
    have present : state.slots[w]? = some _ := Array.getElem?_eq_getElem inside
    rw [if_pos rfl, if_pos rfl, present]
    rfl
  · rw [if_neg (Ne.symm same), if_neg same, candidates_eq]
    rfl

private theorem isLocked_change (state : State) (v w : Nat) (after : Domain state.size) :
    (state.change v after).isLocked w = state.isLocked w := by
  rw [← isLocked_setDomain state v w after]
  exact isLocked_mk (state.setDomain v after) ..

private theorem exists_fails_of_keep_ne {size : Nat} {domain : Domain size} {test : Nat → Bool}
    (differs : domain.keep test ≠ domain) : ∃ x ∈ domain, test x = false := by
  by_contra none
  refine differs (Domain.ext fun x => ?_)
  simp only [not_exists, not_and, Bool.not_eq_false] at none
  simpa using none x

/-- A narrowing that does something: the variable is not locked, some value fails the test, and the
old domain goes on the trail. -/
theorem narrow_eq_true {v : Nat} {test : Nat → Bool} (h : s.narrow v test = .ok (t, true)) :
    s.isLocked v = false ∧ (∃ x ∈ s.domain v, test x = false) ∧
      t = s.change v ((s.domain v).keep test) := by
  unfold narrow at h
  dsimp only at h
  by_cases same : (s.domain v).keep test = s.domain v
  · simp [same] at h
  · by_cases locked : s.isLocked v
    · simp [same, locked] at h
    · rw [if_neg same, if_neg locked] at h
      exact ⟨by simpa using locked, exists_fails_of_keep_ne same, (congrArg Prod.fst (Except.ok.inj h)).symm⟩

theorem narrow_of_fails {v x : Nat} {test : Nat → Bool} (unlocked : s.isLocked v = false)
    (present : x ∈ s.domain v) (fails : test x = false) :
    s.narrow v test = .ok (s.change v ((s.domain v).keep test), true) := by
  have differs : (s.domain v).keep test ≠ s.domain v := by
    intro same
    rw [← same, Domain.mem_keep, fails] at present
    exact nomatch present.2
  unfold narrow
  dsimp only
  rw [if_neg differs, if_neg (Bool.eq_false_iff.mp unlocked), change]

theorem narrow_eq_error {v : Nat} {test : Nat → Bool} {fault : Fault} (h : s.narrow v test = .error fault) :
    s.isLocked v = true ∧ (∃ x ∈ s.domain v, test x = false) ∧
      fault = .contradiction (.givenEliminated v) := by
  unfold narrow at h
  dsimp only at h
  by_cases same : (s.domain v).keep test = s.domain v
  · simp [same] at h
  · by_cases locked : s.isLocked v
    · rw [if_neg same, if_pos locked] at h
      exact ⟨locked, exists_fails_of_keep_ne same, (Except.error.inj h).symm⟩
    · simp [same, locked] at h

theorem narrow_eq_false {v : Nat} {test : Nat → Bool} (h : s.narrow v test = .ok (t, false)) :
    t = s ∧ ∀ x ∈ s.domain v, test x = true := by
  unfold narrow at h
  dsimp only at h
  by_cases same : (s.domain v).keep test = s.domain v
  · rw [if_pos same] at h
    refine ⟨(congrArg Prod.fst (Except.ok.inj h)).symm, fun x member => ?_⟩
    rw [← same] at member
    exact (Domain.mem_keep.mp member).2
  · by_cases locked : s.isLocked v
    · simp [same, locked] at h
    · simp [same, locked] at h

theorem mem_domain_narrow {v : Nat} {test : Nat → Bool} (h : s.narrow v test = .ok (t, true))
    {w x : Nat} : x ∈ t.domain w ↔ x ∈ s.domain w ∧ (w = v → test x = true) := by
  obtain ⟨_, ⟨y, present, _⟩, eq⟩ := narrow_eq_true h
  have listed := candidates_change (lt_count_of_mem_domain present) w ((s.domain v).keep test)
  rw [← eq] at listed
  rw [← Domain.mem_values, ← candidates, listed]
  by_cases same : w = v
  · subst same
    simp [Domain.mem_values]
  · simp [same, candidates, Domain.mem_values]

theorem candidates_narrow {v : Nat} {test : Nat → Bool} {flag : Bool} (h : s.narrow v test = .ok (t, flag))
    (w : Nat) : t.candidates w = if w = v then (s.candidates v).filter test else s.candidates w := by
  cases flag with
  | true =>
    obtain ⟨_, ⟨y, present, _⟩, rfl⟩ := narrow_eq_true h
    exact candidates_change (lt_count_of_mem_domain present) w _
  | false =>
    obtain ⟨rfl, passes⟩ := narrow_eq_false h
    split
    next same =>
      rw [same]
      exact (List.filter_eq_self.mpr passes).symm
    next => rfl

private theorem frame_narrow {v : Nat} {test : Nat → Bool} (h : s.narrow v test = .ok (t, true)) :
    t.frame = s.frame := by
  obtain ⟨_, _, rfl⟩ := narrow_eq_true h
  exact congrArg (Frame.mk s.size · s.constraints) (count_setDomain s v _)

theorem isLocked_narrow {v : Nat} {test : Nat → Bool} (h : s.narrow v test = .ok (t, true))
    (w : Nat) : t.isLocked w = s.isLocked w := by
  obtain ⟨_, _, rfl⟩ := narrow_eq_true h
  exact isLocked_change s v w _

theorem mark_narrow {v : Nat} {test : Nat → Bool} (h : s.narrow v test = .ok (t, true)) :
    t.mark = s.mark + 1 := by
  obtain ⟨_, _, rfl⟩ := narrow_eq_true h
  rfl

/-- Taking back one more change than before goes through the state before the change. -/
theorem rewind_narrow {v : Nat} {test : Nat → Bool} (h : s.narrow v test = .ok (t, true))
    (steps : Nat) : t.rewind (steps + 1) = s.rewind steps := by
  obtain ⟨_, _, rfl⟩ := narrow_eq_true h
  have back := modify_modify_domain s v ((s.domain v).keep test)
  exact congrArg (fun slots => (State.mk s.size slots s.trail s.constraints).rewind steps) back

/-! ### Chains of changes -/

/-- `s.NarrowsTo t`: a chain of changes leads from `s` to `t`. -/
inductive NarrowsTo (s : State) : State → Prop
  | refl : NarrowsTo s s
  | step {t u : State} {v : Nat} {test : Nat → Bool} :
      NarrowsTo s t → t.narrow v test = .ok (u, true) → NarrowsTo s u

/-- The givens of a puzzle are settled: a locked variable has one value. -/
def GivensHold (state : State) : Prop :=
  ∀ v, state.isLocked v = true → state.isDetermined v = true

theorem GivensHold.of_unlocked {v : Nat} (givens : s.GivensHold) (unlocked : s.isLocked v = false)
    (locks : ∀ w, t.isLocked w = s.isLocked w) (same : ∀ w ≠ v, t.candidates w = s.candidates w) :
    t.GivensHold := by
  intro w locked
  rw [locks] at locked
  have other : w ≠ v := by
    rintro rfl
    simp [unlocked] at locked
  have settled := givens w locked
  rw [isDetermined_iff] at settled ⊢
  rw [same w other, settled]

theorem GivensHold.narrow {v : Nat} {test : Nat → Bool} (givens : s.GivensHold)
    (h : s.narrow v test = .ok (t, true)) : t.GivensHold := by
  obtain ⟨unlocked, ⟨y, present, _⟩, eq⟩ := narrow_eq_true h
  apply givens.of_unlocked unlocked (isLocked_narrow h)
  intro w other
  rw [eq, candidates_change (lt_count_of_mem_domain present), if_neg other]

namespace NarrowsTo

theorem trans (first : s.NarrowsTo t) (second : t.NarrowsTo u) : s.NarrowsTo u := by
  induction second with
  | refl => exact first
  | step _ change ih => exact ih.step change

theorem frame_eq (h : s.NarrowsTo t) : t.frame = s.frame := by
  induction h with
  | refl => rfl
  | step _ change ih => rw [frame_narrow change, ih]

theorem count_eq (h : s.NarrowsTo t) : t.count = s.count := congrArg Frame.count h.frame_eq

theorem size_eq (h : s.NarrowsTo t) : t.size = s.size := congrArg Frame.size h.frame_eq

theorem subset (h : s.NarrowsTo t) {v x : Nat} (member : x ∈ t.domain v) : x ∈ s.domain v := by
  induction h with
  | refl => exact member
  | step _ change ih => exact ih ((mem_domain_narrow change).mp member).1

theorem givensHold (h : s.NarrowsTo t) (givens : s.GivensHold) : t.GivensHold := by
  induction h with
  | refl => exact givens
  | step _ change ih => exact ih.narrow change

theorem mark_le (h : s.NarrowsTo t) : s.mark ≤ t.mark := by
  induction h with
  | refl => exact Nat.le_refl _
  | step _ change ih => exact (mark_narrow change).symm ▸ Nat.le_succ_of_le ih

theorem undo (h : s.NarrowsTo t) : t.undo s.mark = s := by
  change t.rewind (t.mark - s.mark) = s
  induction h with
  | refl => rw [Nat.sub_self, rewind]
  | step narrowed change ih =>
    rw [mark_narrow change, Nat.succ_sub narrowed.mark_le, rewind_narrow change, ih]

end NarrowsTo

/-! ### Counting candidates -/

private theorem length_lt_of_subset {few many : List Nat} (distinct : few.Nodup)
    (subset : few ⊆ many) {x : Nat} (present : x ∈ many) (missing : x ∉ few) :
    few.length < many.length := by
  have rest : few ⊆ many.erase x := by
    intro y member
    have other : y ≠ x := fun same => missing (same ▸ member)
    exact (List.mem_erase_of_ne other).mpr (subset member)
  have bound := (List.subperm_of_subset distinct rest).length_le
  have positive : 0 < many.length := List.length_pos_of_mem present
  rw [List.length_erase_of_mem present] at bound
  omega

theorem domains_eq (state : State) : state.domains = (List.range state.count).map state.domain := by
  apply List.ext_getElem (by simp [domains, count])
  intro v inside _
  have present : v < state.slots.size := by simpa [domains] using inside
  simp [domains, domain_eq, present]

theorem candidateTotal_eq (state : State) :
    state.candidateTotal =
      ((List.range state.count).map fun v => (state.candidates v).length).sum := by
  rw [candidateTotal, List.length_flatMap, domains_eq, List.map_map]
  rfl

theorem NarrowsTo.length_candidates_le (h : s.NarrowsTo t) (v : Nat) :
    (t.candidates v).length ≤ (s.candidates v).length := by
  have subset : t.candidates v ⊆ s.candidates v := fun _ member => h.subset member
  exact (List.subperm_of_subset (t.domain v).nodup subset).length_le

private theorem candidateTotal_narrow {v : Nat} {test : Nat → Bool}
    (h : s.narrow v test = .ok (t, true)) : t.candidateTotal < s.candidateTotal := by
  have narrowed : s.NarrowsTo t := NarrowsTo.refl.step h
  obtain ⟨_, ⟨x, present, fails⟩, _⟩ := narrow_eq_true h
  rw [candidateTotal_eq, candidateTotal_eq, narrowed.count_eq]
  refine List.sum_lt_sum _ _ (fun w _ => narrowed.length_candidates_le w)
    ⟨v, List.mem_range.mpr (lt_count_of_mem_domain present), ?_⟩
  refine length_lt_of_subset (t.domain v).nodup (fun y member => narrowed.subset member) present ?_
  intro still
  have := ((mem_domain_narrow h).mp still).2 rfl
  simp [fails] at this

/-- A chain of changes costs at least as many candidates as it has changes. -/
theorem NarrowsTo.candidateTotal_add_mark_le (h : s.NarrowsTo t) :
    t.candidateTotal + t.mark ≤ s.candidateTotal + s.mark := by
  induction h with
  | refl => exact Nat.le_refl _
  | step _ change ih =>
    have := candidateTotal_narrow change
    have := mark_narrow change
    omega

/-! ### Open variables -/

theorem mem_undetermined {v : Nat} : v ∈ state.undetermined ↔ 1 < (state.candidates v).length := by
  have inside : 1 < (state.candidates v).length → v < state.count := by
    intro several
    obtain ⟨x, member⟩ := List.exists_mem_of_length_pos (Nat.lt_of_succ_lt several)
    exact lt_count_of_mem_domain member
  simp only [undetermined, List.mem_filter, List.mem_range, decide_eq_true_eq]
  exact ⟨And.right, fun several => ⟨inside several, several⟩⟩

theorem length_undetermined_le_count (state : State) : state.undetermined.length ≤ state.count :=
  (List.length_filter_le _ _).trans List.length_range.le

theorem nodup_undetermined (state : State) : state.undetermined.Nodup :=
  List.nodup_range.filter _

private theorem NarrowsTo.undetermined_subset (h : s.NarrowsTo t) : t.undetermined ⊆ s.undetermined := by
  intro v openLater
  rw [mem_undetermined] at openLater ⊢
  exact Nat.lt_of_lt_of_le openLater (h.length_candidates_le v)

theorem NarrowsTo.length_undetermined_le (h : s.NarrowsTo t) :
    t.undetermined.length ≤ s.undetermined.length :=
  (List.subperm_of_subset t.nodup_undetermined h.undetermined_subset).length_le

theorem NarrowsTo.length_undetermined_lt (h : s.NarrowsTo t) {v : Nat}
    (before : v ∈ s.undetermined) (after : v ∉ t.undetermined) :
    t.undetermined.length < s.undetermined.length :=
  length_lt_of_subset t.nodup_undetermined h.undetermined_subset before after

end State

end PencilPuzzle
