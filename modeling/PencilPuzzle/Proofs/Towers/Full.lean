import PencilPuzzle.Proofs.Confluence
import PencilPuzzle.Proofs.Towers.Grid
import PencilPuzzle.Proofs.Towers.Visibility

/-!
# Full tower grids

When every cell has one candidate, three judges look at the same assignment: the check of a full grid, the
check of a partly filled one and the rules. Each of them is content exactly if the assignment is a solution.
The check of a partly filled grid then sees every line to its end, where the tallest tower stands, and the
rules cannot take anything from a full grid without leaving a cell empty, so they either have nothing to do
or end with a contradiction.
-/

namespace PencilPuzzle

open State

variable {s t : State} {rules : List Rule} {a : Nat → Nat}

/-! ### Runs over full states -/

private theorem State.givensHold_of_full (full : s.allDetermined = true) : s.GivensHold := by
  intro v locked
  by_cases inside : v < s.count
  · exact allDetermined_iff.mp full v inside
  · rw [isLocked_eq, Array.getElem?_eq_none (Nat.le_of_not_lt inside)] at locked
    exact nomatch locked

private theorem State.NarrowsTo.eq_of_full (narrowed : s.NarrowsTo t) (full : s.allDetermined = true)
    (notEmpty : t.hasEmptyDomain = false) : t = s := by
  have enough : s.candidateTotal ≤ t.candidateTotal := by
    rw [candidateTotal_eq, candidateTotal_eq, narrowed.count_eq]
    refine List.sum_le_sum fun v member => ?_
    have inside := List.mem_range.mp member
    rw [isDetermined_iff.mp (allDetermined_iff.mp full v inside)]
    exact List.length_pos_iff.mpr (hasEmptyDomain_eq_false.mp notEmpty v (narrowed.count_eq ▸ inside))
  have cost := narrowed.candidateTotal_add_mark_le
  have marks := narrowed.mark_le
  exact narrowed.eq_of_mark_eq (by omega)

/-- A run over a full state returns only if no rule has anything to do there. -/
theorem runToFixpoint_full (full : s.allDetermined = true) {summary : FixpointSummary}
    (returned : (runToFixpoint rules none s).result = .ok summary) :
    (runToFixpoint rules none s).state = s ∧ summary = ⟨1, 0, true⟩ ∧ s.Stable rules := by
  have notEmpty := (Admits.assignment full).hasEmptyDomain
  have converged := runToFixpoint_converged returned
  have same := (narrowsTo_runToFixpoint rules none s).eq_of_full full (notEmpty_passes notEmpty returned)
  have again := (runToFixpoint_again returned converged).2
  have quiet := passes_converged returned converged
  rw [same] at again
  exact ⟨same, Except.ok.inj (returned.symm.trans again), notEmpty, rests_of_quiet (same ▸ quiet)⟩

private theorem Latin.eq_of_stable (stable : s.Stable rules) (listed : Latin.elimination ∈ rules)
    {key : Key} {group : List Nat} (registered : (key, group) ∈ s.constraints) {v w x : Nat}
    (here : v ∈ group) (there : w ∈ group) (value : s.value? v = some x) (value' : s.value? w = some x) :
    v = w := by
  by_contra different
  obtain ⟨_, deduced, rests⟩ := stable.rests _ listed
  cases deduced
  have candidate : x ∈ s.domain v := by
    rw [← Domain.mem_values, ← candidates, State.value?_eq_some.mp value]
    exact List.mem_singleton_self x
  refine not_refused_of_rests rests candidate (List.mem_flatMap.mpr ⟨_, registered, ?_⟩)
  dsimp only
  rw [if_pos here]
  refine List.mem_filterMap.mpr ⟨w, there, ?_⟩
  rw [if_neg (Ne.symm different), value']

namespace Towers

variable {lines : List ClueLine} {line : ClueLine}

private theorem exists_arrangement_of_stable (stable : s.Stable rules) (listed : visibility lines ∈ rules)
    (room : Room.checkList s.size = .ok ())
    (inRange : ∀ line ∈ lines, ∀ reference ∈ line.vars, ∃ v < s.count, reference = (v : Int))
    (member : line ∈ lines) (clued : line.isClued = true) : ∃ xs, line.Arrangement s xs := by
  obtain ⟨_, deduced, _⟩ := stable.rests _ listed
  obtain ⟨options, found, _⟩ := bind_eq_ok.mp deduced
  have inRange : ∀ line ∈ lines.filter ClueLine.isClued, ∀ reference ∈ line.vars,
      ∃ v < s.count, reference = (v : Int) :=
    fun line member => inRange line (List.mem_filter.mp member).1
  obtain ⟨_, _, _, all⟩ | ⟨_, _, failed, _⟩ := allOptions_cases inRange fun _ => room
  · exact all line (List.mem_filter.mpr ⟨member, clued⟩)
  · exact nomatch found.symm.trans failed

private theorem ClueLine.Arrangement.eq_map {xs vars : List Nat} (arranged : line.Arrangement s xs)
    (named : line.vars = vars.map Int.ofNat) (settled : ∀ v ∈ vars, s.candidates v = [a v]) :
    xs = vars.map a := by
  have picks := arranged.picks
  rw [named, List.forall₂_map_right_iff] at picks
  clear arranged named
  induction picks with
  | nil => rfl
  | @cons x v xs vars pick _ ih =>
    obtain ⟨here, settled⟩ := List.forall_mem_cons.mp settled
    obtain ⟨w, same, candidate⟩ := pick
    cases Int.ofNat.inj same
    rw [here, List.mem_singleton] at candidate
    rw [List.map_cons, candidate, ih settled]

namespace Grid

variable {grid : Grid} {side opposite : Side} {index : Nat}

/-! ### Lines without repetitions -/

theorem nodup_line (bound : index < grid.size) : (grid.line side index).Nodup := by
  have column : ((List.range grid.size).map fun y => grid.cell index y).Nodup := by
    refine List.nodup_range.map fun y y' same => ?_
    exact ((row_add_eq_iff bound).mp same).2.trans ((row_add_eq_iff bound).mp rfl).2.symm
  have row : ((List.range grid.size).map fun x => grid.cell x index).Nodup :=
    List.nodup_range.map fun x x' same => Nat.add_left_cancel same
  cases side with
  | top => exact column
  | left => exact row
  | bottom => exact line_bottom grid index ▸ List.nodup_reverse.mpr column
  | right => exact line_right grid index ▸ List.nodup_reverse.mpr row

theorem length_line (grid : Grid) (side : Side) (index : Nat) :
    (grid.line side index).length = grid.size := by
  cases side <;> simp [line]

private theorem view_perm_of_nodup (bounded : ∀ v < grid.size * grid.size, a v < grid.size)
    (bound : index < grid.size) (distinct : (grid.view a side index).Nodup) :
    (grid.view a side index).Perm (List.range' 1 grid.size) := by
  have subset : grid.view a side index ⊆ List.range' 1 grid.size := by
    intro height member
    obtain ⟨v, onLine, rfl⟩ := List.mem_map.mp member
    have := bounded v (lt_of_mem_line bound onLine)
    rw [List.mem_range'_1]
    omega
  refine (List.subperm_of_subset distinct subset).perm_of_length_le ?_
  rw [List.length_range', view, List.length_map, length_line]

section Full

variable (shape : s.frame = grid.initial.frame) (full : s.allDetermined = true)
include shape full

private theorem candidates_of_full (bound : index < grid.size) {v : Nat}
    (member : v ∈ grid.line side index) : s.candidates v = [s.assignment v] :=
  isDetermined_iff_candidates.mp (allDetermined_iff.mp full v (count_eq shape ▸ lt_of_mem_line bound member))

private theorem assignment_lt {v : Nat} (inside : v < grid.size * grid.size) :
    s.assignment v < grid.size := by
  have size : s.size = grid.size := congrArg Frame.size shape
  rw [← size]
  exact Domain.lt_size (Admits.assignment full v (count_eq shape ▸ inside))

end Full

/-! ### The check of a partly filled grid -/

section Full

variable (shape : s.frame = grid.initial.frame) (full : s.allDetermined = true)
include shape full

theorem nodup_of_isConsistent (consistent : grid.isConsistent s = true) (bound : index < grid.size)
    (listed : grid.lineHeights s side index ∈ grid.rowsAndColumns s) :
    (grid.view s.assignment side index).Nodup := by
  have fine := List.all_eq_true.mp (Bool.and_eq_true_iff.mp consistent).1 _ listed
  have all : (grid.view s.assignment side index).filter (· ≠ 0) = grid.view s.assignment side index := by
    refine List.filter_eq_self.mpr fun height member => decide_eq_true ?_
    exact Nat.ne_of_gt (view_positive grid s.assignment height member)
  rw [lineHeights_full shape (Admits.assignment full) full bound, all] at fine
  exact of_decide_eq_true fine

theorem isConsistent_iff : grid.isConsistent s = true ↔ grid.Solution s.assignment := by
  refine ⟨fun consistent => ?_, fun solution => solution.isConsistent shape (Admits.assignment full)⟩
  have perm {side : Side} {index : Nat} (bound : index < grid.size)
      (listed : grid.lineHeights s side index ∈ grid.rowsAndColumns s) :=
    view_perm_of_nodup (fun _ => assignment_lt shape full) bound
      (nodup_of_isConsistent shape full consistent bound listed)
  have rows (y : Nat) (bound : y < grid.size) :=
    perm bound (List.mem_append_left _ (List.mem_map_of_mem (List.mem_range.mpr bound)))
  have columns (x : Nat) (bound : x < grid.size) :=
    perm bound (List.mem_append_right _ (List.mem_map_of_mem (List.mem_range.mpr bound)))
  refine ⟨rows, columns, fun side index clue given clued => ?_⟩
  have bound := lt_size_of_clue given
  have tallest : grid.size ∈ grid.view s.assignment side index := by
    have positive := grid.size_pos
    rw [(view_perm rows columns bound).mem_iff, List.mem_range'_1]
    omega
  have fits := List.all_eq_true.mp (Bool.and_eq_true_iff.mp consistent).2 _
    (mem_cluedLines.mpr ⟨given, clued⟩)
  dsimp only at fits
  rw [lineHeights_full shape (Admits.assignment full) full bound] at fits
  rw [← countVisible_eq (view_positive grid s.assignment)]
  exact (openingFits_iff (view_positive grid s.assignment) tallest).mp fits

end Full

/-! ### The rules -/

/-- The two pairs of opposite sides, each with the side that a clued line starts from first. -/
def facing : List (Side × Side) := [(.top, .bottom), (.left, .right)]

private theorem opposite_of_facing (grid : Grid) (pair : (side, opposite) ∈ facing) :
    grid.Opposite side opposite := by
  rcases List.mem_cons.mp pair with columns | rows
  · cases columns
    exact fun index => line_bottom grid index
  · cases List.mem_singleton.mp rows
    exact fun index => line_right grid index

private theorem exists_facing (side : Side) :
    ∃ opposite, (side, opposite) ∈ facing ∨ (opposite, side) ∈ facing := by
  cases side with
  | top => exact ⟨.bottom, by decide⟩
  | bottom => exact ⟨.top, by decide⟩
  | left => exact ⟨.right, by decide⟩
  | right => exact ⟨.left, by decide⟩

theorem mem_clueLines_of_facing (pair : (side, opposite) ∈ facing) {front back : Nat}
    (here : (grid.clues.on side)[index]? = some front)
    (there : (grid.clues.on opposite)[index]? = some back) :
    ⟨(grid.line side index).map Int.ofNat, (front : Int), (back : Int)⟩ ∈ grid.clueLines := by
  have placed : ((front, back), index) ∈
      (List.zip (grid.clues.on side) (grid.clues.on opposite)).zipIdx :=
    List.mem_zipIdx_iff_getElem?.mpr (List.getElem?_zip_eq_some.mpr ⟨here, there⟩)
  rcases List.mem_cons.mp pair with columns | rows
  · cases columns
    exact List.mem_append_left _ (List.mem_map.mpr ⟨_, placed, rfl⟩)
  · cases List.mem_singleton.mp rows
    exact List.mem_append_right _ (List.mem_map.mpr ⟨_, placed, rfl⟩)

private theorem exists_clue (grid : Grid) (side : Side) (bound : index < grid.size) :
    ∃ clue, (grid.clues.on side)[index]? = some clue := by
  rw [← length_clues grid side] at bound
  exact ⟨_, List.getElem?_eq_getElem bound⟩

section Full

variable (shape : s.frame = grid.initial.frame) (full : s.allDetermined = true)
include shape full

private theorem clues_of_arrangement (pair : (side, opposite) ∈ facing) {front back : Nat}
    (here : (grid.clues.on side)[index]? = some front)
    (there : (grid.clues.on opposite)[index]? = some back)
    (arranged : ∀ line ∈ grid.clueLines, line.isClued = true → ∃ xs, line.Arrangement s xs) :
    (front ≠ 0 → countVisible (grid.view s.assignment side index) = front) ∧
      (back ≠ 0 → countVisible (grid.view s.assignment opposite index) = back) := by
  have meets (clued : front ≠ 0 ∨ back ≠ 0) : ClueLine.Meets
      ⟨(grid.line side index).map Int.ofNat, (front : Int), (back : Int)⟩
      (grid.view s.assignment side index) := by
    obtain ⟨xs, arranged⟩ := arranged _ (mem_clueLines_of_facing pair here there) (by
      simpa [ClueLine.isClued] using clued)
    have same := arranged.eq_map rfl fun v => candidates_of_full shape full (lt_size_of_clue here)
    have met := arranged.meets
    rw [same, List.map_map] at met
    exact met
  refine ⟨fun clued => ?_, fun clued => ?_⟩
  · obtain none | met := (meets (.inl clued)).1
    · exact absurd (Int.ofNat.inj none) clued
    · exact Int.ofNat.inj met
  · obtain none | met := (meets (.inr clued)).2
    · exact absurd (Int.ofNat.inj none) clued
    · rw [view, opposite_of_facing grid pair, List.map_reverse]
      exact Int.ofNat.inj met

private theorem solution_of_stable (room : Room.checkList grid.size = .ok ())
    (stable : s.Stable grid.rules) : grid.Solution s.assignment := by
  have size : s.size = grid.size := congrArg Frame.size shape
  have constraints : s.constraints = grid.initial.constraints := congrArg Frame.constraints shape
  have perm {side : Side} {index : Nat} (bound : index < grid.size) {key : Key}
      (registered : (key, grid.line side index) ∈ grid.initial.constraints) :
      (grid.view s.assignment side index).Perm (List.range' 1 grid.size) := by
    refine view_perm_of_nodup (fun _ => assignment_lt shape full) bound ?_
    refine List.Nodup.map_on (fun v here w there same => ?_) (nodup_line bound)
    have value {u : Nat} (member : u ∈ grid.line side index) :=
      State.value?_eq_some.mpr (candidates_of_full shape full bound member)
    refine Latin.eq_of_stable stable (List.mem_cons_self ..) (constraints ▸ registered) here there
      (value here) ?_
    rw [Nat.succ.inj same]
    exact value there
  have rows (y : Nat) (bound : y < grid.size) :=
    perm bound (List.mem_append_left _ (List.mem_map.mpr ⟨y, List.mem_range.mpr bound, rfl⟩))
  have columns (x : Nat) (bound : x < grid.size) :=
    perm bound (List.mem_append_right _ (List.mem_map.mpr ⟨x, List.mem_range.mpr bound, rfl⟩))
  refine ⟨rows, columns, fun side index clue given clued => ?_⟩
  have inRange : ∀ line ∈ grid.clueLines, ∀ reference ∈ line.vars, ∃ v < s.count, reference = (v : Int) := by
    rw [count_eq shape]
    exact inRange_clueLines grid
  have arranged (line : ClueLine) (member : line ∈ grid.clueLines) (clued : line.isClued = true) :=
    exists_arrangement_of_stable stable (by simp [rules]) (size ▸ room) inRange member clued
  have bound := lt_size_of_clue given
  rw [← countVisible_eq (view_positive grid s.assignment)]
  obtain ⟨opposite, pair | pair⟩ := exists_facing side
  · obtain ⟨_, there⟩ := exists_clue grid opposite bound
    exact (clues_of_arrangement shape full pair given there arranged).1 clued
  · obtain ⟨_, here⟩ := exists_clue grid opposite bound
    exact (clues_of_arrangement shape full pair here given arranged).2 clued

private theorem noContradiction_of_solution (solution : grid.Solution s.assignment) :
    NoContradiction (runToFixpoint grid.rules none s).result := by
  refine (runToFixpoint_admits (givensHold_of_full full) (Admits.assignment full) ?_).2
  exact fun t narrowed admits =>
    (sound_puzzle grid).spares t (narrowed.frame_eq.trans shape) _ solution admits

end Full

/-- On a full grid the check for solutions, the check for contradictions and the rules agree: a run of the
rules returns, without having done anything, exactly if both checks accept the grid, and otherwise it ends
with a contradiction. There is room for a list of all heights in every grid whose clues can be stored. -/
theorem judgements_agree (room : Room.checkList grid.size = .ok ())
    (shape : s.frame = grid.initial.frame) (full : s.allDetermined = true) :
    let run := runToFixpoint grid.rules none s
    (grid.isSolved s = true ↔ grid.isConsistent s = true) ∧
      (grid.isSolved s = true ↔ ∃ summary, run.result = .ok summary) ∧
      (∀ summary, run.result = .ok summary → run.state = s ∧ summary = ⟨1, 0, true⟩) ∧
      ∀ fault, run.result = .error fault → ∃ cause, fault = .contradiction cause := by
  intro run
  have size : s.frame.size = grid.size := congrArg Frame.size shape
  have solved := isSolved_iff shape full (Admits.assignment full)
  have ends := runToFixpoint_wellBehaved rfl (wellBehaved_rules (size ▸ room) (count_eq shape))
  refine ⟨solved.trans (isConsistent_iff shape full).symm, solved.trans ⟨fun solution => ?_, ?_⟩, ?_, ?_⟩
  · obtain ⟨cause, contradiction⟩ | ⟨summary, returned, _⟩ := ends
    · exact absurd rfl (noContradiction_of_solution shape full solution _ contradiction cause)
    · exact ⟨summary, returned⟩
  · rintro ⟨summary, returned⟩
    exact solution_of_stable shape full room (runToFixpoint_full full returned).2.2
  · intro summary returned
    obtain ⟨same, summarized, _⟩ := runToFixpoint_full full returned
    exact ⟨same, summarized⟩
  · intro fault failed
    obtain ⟨cause, contradiction⟩ | ⟨summary, returned, _⟩ := ends
    · exact ⟨cause, Except.error.inj (failed.symm.trans contradiction)⟩
    · exact nomatch failed.symm.trans returned

/-- Both ways to fill a grid of two rows and columns are Latin squares, but only one meets the clue. -/
theorem judgements_agree_cornerClue :
    let s := cornerClue.initial.performAll [.lock 0 0, .lock 1 1, .lock 2 1, .lock 3 0]
    let t := cornerClue.initial.performAll [.lock 0 1, .lock 1 0, .lock 2 0, .lock 3 1]
    (cornerClue.isSolved s = true ∧ ∃ summary, (runToFixpoint cornerClue.rules none s).result = .ok summary) ∧
      cornerClue.isConsistent t = false ∧
        ∃ cause, (runToFixpoint cornerClue.rules none t).result = .error (.contradiction cause) := by
  intro s t
  have accepted : cornerClue.isSolved s = true := by decide
  have refused : cornerClue.isConsistent t = false := by decide
  have room : Room.checkList cornerClue.size = .ok () := rfl
  have shape : s.frame = cornerClue.initial.frame := rfl
  have shape' : t.frame = cornerClue.initial.frame := rfl
  obtain ⟨_, returned, _⟩ := judgements_agree room shape (by decide)
  obtain ⟨checks, returns, _, fails⟩ := judgements_agree room shape' (by decide)
  refine ⟨⟨accepted, returned.mp accepted⟩, refused, ?_⟩
  cases ended : (runToFixpoint cornerClue.rules none t).result with
  | ok summary =>
    have solved := checks.mp (returns.mpr ⟨summary, ended⟩)
    exact nomatch refused.symm.trans solved
  | error fault =>
    obtain ⟨cause, rfl⟩ := fails fault ended
    exact ⟨cause, rfl⟩

end Grid

end Towers

end PencilPuzzle
