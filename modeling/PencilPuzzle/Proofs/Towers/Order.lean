import PencilPuzzle.Proofs.Confluence
import PencilPuzzle.Proofs.Towers.Grid

/-!
# The rules of a tower grid in any order

Each of the three rules takes away what some smaller part of the state refuses: a value that another
variable of a group has, the values beside one that has no other place, the heights that no arrangement
of a line uses. With fewer candidates there are fewer places and fewer arrangements, so what is refused
somewhere is refused in every state below as well, as long as no variable is without candidates there. A
stable state refuses none of its candidates; hence each rule leaves all of them alone.
-/

namespace PencilPuzzle

open State

variable {s t u : State} {a : Nat → Nat} {v x : Nat}

/-! ### Rules for groups -/

namespace Latin

private theorem takenAround_of_within (within : u.Within t) (notEmpty : u.hasEmptyDomain = false)
    (taken : x ∈ takenAround t v) : x ∈ takenAround u v := by
  obtain ⟨⟨key, group⟩, registered, found⟩ := List.mem_flatMap.mp taken
  refine List.mem_flatMap.mpr ⟨(key, group), within.constraints_eq ▸ registered, ?_⟩
  dsimp only at found ⊢
  split at found
  next member =>
    rw [if_pos member]
    obtain ⟨w, other, value⟩ := List.mem_filterMap.mp found
    refine List.mem_filterMap.mpr ⟨w, other, ?_⟩
    split at value
    next => exact nomatch value
    next different =>
      rw [if_neg different]
      exact within.value?_eq_some notEmpty value
  next => exact absurd found List.not_mem_nil

private theorem monotone_elimination (frame : Frame) : elimination.Monotone frame := by
  intro t u _ within stable a admits
  obtain ⟨_, deduced, rests⟩ := stable.rests elimination (List.mem_singleton_self _)
  cases deduced
  refine Rule.spares_of_ok rfl (spares_removals fun v inside taken => ?_)
  exact not_refused_of_rests rests (admits v (within.count_eq.symm ▸ inside))
    (takenAround_of_within within stable.notEmpty taken)

private theorem holders_sublist (within : u.Within t) (group : List Nat) (x : Nat) :
    (holders u group x).Sublist (holders t group x) := by
  refine List.monotone_filter_right group fun v holds => ?_
  rw [hasCandidate, decide_eq_true_eq] at holds ⊢
  exact within.subset v x holds

theorem unplaced_eq_none_iff : unplaced s = none ↔
    ∀ entry ∈ s.constraints, ∀ x < s.size, holders s entry.2 x ≠ [] := by
  simp [unplaced, leastBelow?_eq, List.findSome?_eq_none_iff, List.find?_eq_none]

/-- The only place for a value is its only place below, where every value has one. -/
theorem singles_of_within (within : u.Within t) (placed : unplaced u = none)
    (single : (v, x) ∈ singles t) : (v, x) ∈ singles u := by
  obtain ⟨⟨key, group⟩, registered, found⟩ := List.mem_flatMap.mp single
  have registered' : (key, group) ∈ u.constraints := within.constraints_eq ▸ registered
  obtain ⟨y, bound, only⟩ := List.mem_filterMap.mp found
  have bound' : y < u.size := within.size_eq ▸ List.mem_range.mp bound
  split at only
  next w alone =>
    cases only
    have fewer := holders_sublist within group x
    rw [alone] at fewer
    have same : holders u group x = [v] := by
      obtain none | one := List.sublist_singleton.mp fewer
      · exact absurd none (unplaced_eq_none_iff.mp placed _ registered' x bound')
      · exact one
    refine List.mem_flatMap.mpr ⟨(key, group), registered', ?_⟩
    refine List.mem_filterMap.mpr ⟨x, List.mem_range.mpr bound', ?_⟩
    rw [same]
  next => exact nomatch only

private theorem monotone_hiddenSingle (frame : Frame) : hiddenSingle.Monotone frame := by
  intro t u _ within stable a admits
  obtain ⟨_, deduced, rests⟩ := stable.rests hiddenSingle (List.mem_singleton_self _)
  obtain ⟨placed, rfl⟩ := hiddenSingle_eq_ok deduced
  -- A value without a place above would have none below either.
  have placed' : unplaced t = none := by
    refine unplaced_eq_none_iff.mpr fun entry registered x bound none => ?_
    have fewer := holders_sublist within entry.2 x
    rw [none, List.sublist_nil] at fewer
    exact unplaced_eq_none_iff.mp placed entry (within.constraints_eq ▸ registered) x
      (within.size_eq.symm ▸ bound) fewer
  have deduced' : hiddenSingle.deduce t = .ok (t.removals (displaced t (singles t))) := by
    simp only [hiddenSingle, placed']
  refine Rule.spares_of_ok deduced' (spares_removals fun v inside lost => ?_)
  have member : a v ∈ u.domain v := admits v (within.count_eq.symm ▸ inside)
  obtain ⟨⟨w, y⟩, single, same⟩ := List.any_eq_true.mp (List.mem_filter.mp lost).2
  refine not_refused_of_rests rests member (List.mem_filter.mpr ⟨member, ?_⟩)
  obtain ⟨rfl, other⟩ : w = v ∧ y ≠ a v := by simpa using same
  exact List.any_eq_true.mpr ⟨(w, y), singles_of_within within placed single, by simpa using other⟩

end Latin

/-! ### Clued lines -/

namespace Towers

variable {lines : List ClueLine} {line : ClueLine}

/-- The same line with no fewer arrangements. -/
structure LineOptions.Grows (few many : LineOptions) : Prop where
  vars : many.vars = few.vars
  arrangements : few.arrangements ⊆ many.arrangements

private theorem arrangements_subset (within : u.Within t) (line : ClueLine) (vars : List Nat) :
    arrangements line.front line.back (vars.map u.candidates) ⊆
      arrangements line.front line.back (vars.map t.candidates) := by
  intro xs found
  obtain ⟨fits, distinct, meets⟩ := mem_arrangements.mp found
  refine mem_arrangements.mpr ⟨?_, distinct, meets⟩
  rw [List.forall₂_map_right_iff] at fits ⊢
  exact fits.imp fun _ _ member => within.subset _ _ member

private theorem lineOptions_of_within (within : u.Within t) {few : LineOptions}
    (found : lineOptions u line = .ok few) : ∃ many, lineOptions t line = .ok many ∧ few.Grows many := by
  obtain ⟨vars, checked, found⟩ := bind_eq_ok.mp found
  obtain ⟨_, room, found⟩ := bind_eq_ok.mp found
  have more := arrangements_subset within line vars
  split at found
  next => exact nomatch found
  next some =>
    cases found
    obtain ⟨first, rest, listed⟩ := List.exists_cons_of_ne_nil some
    rw [listed] at more
    refine ⟨⟨vars, arrangements line.front line.back (vars.map t.candidates)⟩, ?_, rfl, listed ▸ more⟩
    refine bind_eq_ok.mpr ⟨vars, within.checkVars_eq_ok checked, bind_eq_ok.mpr ⟨(), ?_, ?_⟩⟩
    · rw [← within.size_eq]
      exact room
    · split
      next none =>
        rw [none] at more
        exact absurd (more (List.mem_cons_self ..)) List.not_mem_nil
      next => rfl

private theorem allOptions_of_within (within : u.Within t) {few : List LineOptions}
    (found : allOptions u lines = .ok few) :
    ∃ many, allOptions t lines = .ok many ∧ ∀ more ∈ many, ∃ less ∈ few, less.Grows more := by
  induction lines generalizing few with
  | nil => exact ⟨[], rfl, fun _ member => nomatch member⟩
  | cons line rest ih =>
    obtain ⟨first, here, found⟩ := bind_eq_ok.mp found
    obtain ⟨others, later, found⟩ := bind_eq_ok.mp found
    cases found
    obtain ⟨first', here', grows⟩ := lineOptions_of_within within here
    obtain ⟨others', later', grow⟩ := ih later
    refine ⟨first' :: others', bind_eq_ok.mpr ⟨first', here', bind_eq_ok.mpr ⟨others', later', rfl⟩⟩, ?_⟩
    refine List.forall_mem_cons.mpr ⟨⟨first, List.mem_cons_self .., grows⟩, fun more member => ?_⟩
    obtain ⟨less, listed, grows⟩ := grow more member
    exact ⟨less, List.mem_cons_of_mem first listed, grows⟩

private theorem unused_of_grows {few many : LineOptions} (grows : few.Grows many) (member : x ∈ u.domain v)
    (lost : x ∈ many.unused t v) : x ∈ few.unused u v := by
  obtain ⟨_, position, placed, idle⟩ := mem_unused.mp lost
  -- An arrangement below is one above, and there none has this height here.
  exact mem_unused.mpr ⟨member, position, grows.vars ▸ placed,
    fun xs listed => idle xs (grows.arrangements listed)⟩

private theorem monotone_visibility (frame : Frame) (lines : List ClueLine) :
    (visibility lines).Monotone frame := by
  intro t u _ within stable a admits
  obtain ⟨_, deduced, rests⟩ := stable.rests (visibility lines) (List.mem_singleton_self _)
  obtain ⟨few, found, proposed⟩ := bind_eq_ok.mp deduced
  cases proposed
  obtain ⟨many, found', grow⟩ := allOptions_of_within within found
  have deduced' : (visibility lines).deduce t =
      .ok (t.removals fun v => many.flatMap fun line => line.unused t v) :=
    bind_eq_ok.mpr ⟨many, found', rfl⟩
  refine Rule.spares_of_ok deduced' (spares_removals fun v inside lost => ?_)
  have member : a v ∈ u.domain v := admits v (within.count_eq.symm ▸ inside)
  obtain ⟨more, listed, lost⟩ := List.mem_flatMap.mp lost
  obtain ⟨less, listed', grows⟩ := grow more listed
  exact not_refused_of_rests rests member
    (List.mem_flatMap.mpr ⟨less, listed', unused_of_grows grows member lost⟩)

/-! ### Tower grids -/

namespace Grid

variable {grid : Grid} {order order' : List Rule}

private theorem monotone_rules (grid : Grid) (frame : Frame) :
    ∀ rule ∈ grid.rules, rule.Monotone frame := by
  intro rule listed
  rcases List.mem_cons.mp listed with rfl | listed
  · exact Latin.monotone_elimination frame
  rcases List.mem_cons.mp listed with rfl | listed
  · exact Latin.monotone_hiddenSingle frame
  cases List.mem_singleton.mp listed
  exact monotone_visibility frame grid.clueLines

/-- From a state of a grid in which every cell has a candidate, the rules in any two orders both end with
a contradiction, because no state below is stable, or both converge with the same candidates, and these
make up the greatest stable state below. There is room for a list of all heights in every grid whose clues
can be stored. -/
theorem runToFixpoint_order (room : Room.checkList grid.size = .ok ()) (reached : grid.initial.Reaches s)
    (notEmpty : s.hasEmptyDomain = false) (perm : order.Perm grid.rules)
    (perm' : order'.Perm grid.rules) :
    let run := runToFixpoint order none s
    let run' := runToFixpoint order' none s
    ((∃ cause, run.result = .error (.contradiction cause)) ∧
        (∃ cause, run'.result = .error (.contradiction cause)) ∧
        ∀ t : State, t.Within s → ¬ t.Stable grid.rules) ∨
      ((∃ summary, run.result = .ok summary ∧ summary.converged = true) ∧
        (∃ summary, run'.result = .ok summary ∧ summary.converged = true) ∧
        (∀ v, run.state.candidates v = run'.state.candidates v) ∧
        GreatestStable grid.rules s run.state) := by
  intro run run'
  have givens := (reached.settled (settled_initial grid)).givens
  have shaped := reached.shaped (shaped_initial grid)
  have size : s.frame.size = grid.size := shaped.size_eq
  have wellBehaved : ∀ rule ∈ grid.rules, rule.WellBehaved s.frame :=
    wellBehaved_rules (size ▸ room) shaped.count_eq
  have ends {order : List Rule} (perm : order.Perm grid.rules) :=
    runToFixpoint_perm givens (monotone_rules grid s.frame) notEmpty wellBehaved perm
  obtain ⟨failed, none⟩ | ⟨converged, greatest⟩ := ends perm
  · obtain ⟨failed', _⟩ | ⟨_, greatest'⟩ := ends perm'
    · exact .inl ⟨failed, failed', none⟩
    · exact absurd greatest'.stable (none _ greatest'.within)
  · obtain ⟨_, none⟩ | ⟨converged', greatest'⟩ := ends perm'
    · exact absurd greatest.stable (none _ greatest.within)
    · have below := greatest'.greatest run.state greatest.within greatest.stable
      have above := greatest.greatest run'.state greatest'.within greatest'.stable
      exact .inr ⟨converged, converged', below.candidates_eq above, greatest⟩

theorem runToFixpoint_order_cornerClue :
    let s := cornerClue.initial.perform (.lock 3 0)
    let run := runToFixpoint cornerClue.rules none s
    let run' := runToFixpoint cornerClue.rules.reverse none s
    run.state.candidates 0 = [0] ∧ (∀ v, run.state.candidates v = run'.state.candidates v) ∧
      GreatestStable cornerClue.rules s run.state := by
  intro s run run'
  have first : run.state.candidates 0 = [0] := by decide
  obtain ⟨⟨cause, failed⟩, _⟩ | ⟨_, _, same, greatest⟩ := runToFixpoint_order (s := s) rfl
    (.perform (.lock 3 0) .refl) (by decide) (List.Perm.refl cornerClue.rules)
    (List.reverse_perm cornerClue.rules)
  · have converged : run.result.isOk = true := by decide
    rw [failed] at converged
    exact nomatch converged
  · exact ⟨first, same, greatest⟩

end Grid

end Towers

end PencilPuzzle
