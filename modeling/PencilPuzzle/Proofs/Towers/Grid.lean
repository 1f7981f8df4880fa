import Mathlib.Data.List.TakeWhile
import PencilPuzzle.Proofs.Latin
import PencilPuzzle.Proofs.Rows
import PencilPuzzle.Proofs.State.Shape
import PencilPuzzle.Proofs.Towers.Line
import PencilPuzzle.Towers.Grid

/-!
# Solving tower grids

A solution of a grid gives every cell a height such that each row and column holds every height once
and from each clue as many towers are seen as it says. The rules of the grid spare all solutions, the
check of a partly filled grid refuses none, and the check of a full grid accepts exactly these, so the
verdicts of a search over a grid are right, and with enough budget it always has one.
-/

namespace PencilPuzzle.Towers.Grid

open State

variable {grid : Grid} {s : State} {a : Nat → Nat} {side : Side} {index : Nat}

/-! ### Solutions -/

def view (grid : Grid) (a : Nat → Nat) (side : Side) (index : Nat) : List Nat :=
  (grid.line side index).map fun v => a v + 1

/-- Every row and column is a permutation of the heights, and every clue is met. -/
structure Solution (grid : Grid) (a : Nat → Nat) : Prop where
  rows : ∀ y < grid.size, (grid.view a .left y).Perm (List.range' 1 grid.size)
  columns : ∀ x < grid.size, (grid.view a .top x).Perm (List.range' 1 grid.size)
  clues : ∀ side index clue, (grid.clues.on side)[index]? = some clue → clue ≠ 0 →
    towersSeen (grid.view a side index) = clue

/-! ### Lines -/

private theorem cell_lt {x y : Nat} (hx : x < grid.size) (hy : y < grid.size) :
    grid.cell x y < grid.size * grid.size :=
  row_add_lt hx hy

theorem line_bottom (grid : Grid) (index : Nat) :
    grid.line .bottom index = (grid.line .top index).reverse := by
  simp [line, List.map_reverse]

theorem line_right (grid : Grid) (index : Nat) :
    grid.line .right index = (grid.line .left index).reverse := by
  simp [line, List.map_reverse]

theorem lt_of_mem_line (bound : index < grid.size) {v : Nat} (member : v ∈ grid.line side index) :
    v < grid.size * grid.size := by
  cases side <;> simp only [line, List.mem_map, List.mem_reverse, List.mem_range] at member <;>
    obtain ⟨other, inside, rfl⟩ := member
  · exact cell_lt bound inside
  · exact cell_lt bound inside
  · exact cell_lt inside bound
  · exact cell_lt inside bound

theorem length_clues (grid : Grid) (side : Side) : (grid.clues.on side).length = grid.size := by
  cases side
  · exact grid.clues.top.length_eq
  · exact grid.clues.bottom.length_eq
  · exact grid.clues.left.length_eq
  · exact grid.clues.right.length_eq

theorem lt_size_of_clue {clue : Nat} (given : (grid.clues.on side)[index]? = some clue) :
    index < grid.size := by
  rw [← length_clues grid side]
  exact (List.getElem?_eq_some_iff.mp given).1

theorem view_perm (rows : ∀ y < grid.size, (grid.view a .left y).Perm (List.range' 1 grid.size))
    (columns : ∀ x < grid.size, (grid.view a .top x).Perm (List.range' 1 grid.size))
    (bound : index < grid.size) : (grid.view a side index).Perm (List.range' 1 grid.size) := by
  cases side with
  | top => exact columns index bound
  | left => exact rows index bound
  | bottom =>
    rw [view, line_bottom, List.map_reverse]
    exact (List.reverse_perm _).trans (columns index bound)
  | right =>
    rw [view, line_right, List.map_reverse]
    exact (List.reverse_perm _).trans (rows index bound)

theorem Solution.view_perm (solution : grid.Solution a) (bound : index < grid.size) :
    (grid.view a side index).Perm (List.range' 1 grid.size) :=
  Grid.view_perm solution.rows solution.columns bound

theorem view_positive (grid : Grid) (a : Nat → Nat) : ∀ height ∈ grid.view a side index, 0 < height := by
  intro height member
  obtain ⟨v, _, rfl⟩ := List.mem_map.mp member
  exact Nat.succ_pos _

theorem Solution.countVisible (solution : grid.Solution a) {clue : Nat}
    (given : (grid.clues.on side)[index]? = some clue) (clued : clue ≠ 0) :
    countVisible (grid.view a side index) = clue := by
  rw [countVisible_eq (view_positive grid a), solution.clues side index clue given clued]

/-! ### Groups and clued lines -/

theorem frame_initial (grid : Grid) :
    grid.initial.frame = ⟨grid.size, grid.size * grid.size, grid.initial.constraints⟩ := by
  have count : grid.initial.count = grid.size * grid.size := count_blank _ grid.size
  rw [State.frame, count]
  rfl

theorem mem_constraints {key : Key} {group : List Nat}
    (registered : (key, group) ∈ grid.initial.constraints) :
    ∃ side, ∃ index < grid.size, group = grid.line side index := by
  rcases List.mem_append.mp registered with row | column
  · obtain ⟨y, bound, eq⟩ := List.mem_map.mp row
    exact ⟨.left, y, List.mem_range.mp bound, (congrArg Prod.snd eq).symm⟩
  · obtain ⟨x, bound, eq⟩ := List.mem_map.mp column
    exact ⟨.top, x, List.mem_range.mp bound, (congrArg Prod.snd eq).symm⟩

theorem Solution.fills (solution : grid.Solution a) : Latin.Fills grid.initial.frame a := by
  rw [frame_initial]
  refine ⟨?_, ?_, ?_⟩
  · rintro ⟨key, group⟩ registered v member
    obtain ⟨side, index, bound, rfl⟩ := mem_constraints registered
    exact lt_of_mem_line bound member
  · rintro ⟨key, group⟩ registered v member w other same
    obtain ⟨side, index, bound, rfl⟩ := mem_constraints registered
    have distinct : (grid.view a side index).Nodup :=
      (solution.view_perm bound).nodup_iff.mpr List.nodup_range'
    exact List.inj_on_of_nodup_map distinct member other (congrArg (· + 1) same)
  · rintro ⟨key, group⟩ registered x inside
    obtain ⟨side, index, bound, rfl⟩ := mem_constraints registered
    have listed : x + 1 ∈ grid.view a side index := by
      rw [(solution.view_perm bound).mem_iff, List.mem_range'_1]
      have : x < grid.size := inside
      omega
    obtain ⟨v, member, same⟩ := List.mem_map.mp listed
    exact ⟨v, member, Nat.succ.inj same⟩

def Opposite (grid : Grid) (side opposite : Side) : Prop :=
  ∀ index, grid.line opposite index = (grid.line side index).reverse

theorem mem_clueLines {line : ClueLine} (member : line ∈ grid.clueLines) :
    ∃ side opposite index front back, grid.Opposite side opposite ∧
      (grid.clues.on side)[index]? = some front ∧ (grid.clues.on opposite)[index]? = some back ∧
      line = ⟨(grid.line side index).map Int.ofNat, (front : Nat), (back : Nat)⟩ := by
  have facing {side opposite : Side} (across : grid.Opposite side opposite)
      (listed : line ∈ (List.zip (grid.clues.on side) (grid.clues.on opposite)).zipIdx.map
        fun entry => ⟨(grid.line side entry.2).map Int.ofNat, entry.1.1, entry.1.2⟩) :
      ∃ side opposite index front back, grid.Opposite side opposite ∧
        (grid.clues.on side)[index]? = some front ∧ (grid.clues.on opposite)[index]? = some back ∧
        line = ⟨(grid.line side index).map Int.ofNat, (front : Nat), (back : Nat)⟩ := by
    obtain ⟨⟨⟨front, back⟩, index⟩, placed, rfl⟩ := List.mem_map.mp listed
    obtain ⟨here, there⟩ := List.getElem?_zip_eq_some.mp (List.mem_zipIdx_iff_getElem?.mp placed)
    exact ⟨side, opposite, index, front, back, across, here, there, rfl⟩
  rcases List.mem_append.mp member with column | row
  · exact facing (fun index => line_bottom grid index) column
  · exact facing (fun index => line_right grid index) row

private theorem Solution.holdsFor (solution : grid.Solution a) {line : ClueLine}
    (member : line ∈ grid.clueLines) : line.HoldsFor a := by
  obtain ⟨side, opposite, index, front, back, across, here, there, rfl⟩ := mem_clueLines member
  have bound := lt_size_of_clue here
  have distinct : (grid.view a side index).Nodup :=
    (solution.view_perm bound).nodup_iff.mpr List.nodup_range'
  intro vars named
  have same : grid.line side index = vars := List.map_injective_iff.mpr Int.ofNat_injective named
  subst same
  refine ⟨List.Nodup.of_map (· + 1) (by rw [List.map_map]; exact distinct), ?_, ?_⟩
  · by_cases clued : front = 0
    · exact .inl (congrArg Int.ofNat clued)
    · exact .inr (congrArg Int.ofNat (solution.countVisible here clued))
  · by_cases clued : back = 0
    · exact .inl (congrArg Int.ofNat clued)
    · have seen := solution.countVisible there clued
      rw [view, across, List.map_reverse] at seen
      exact .inr (congrArg Int.ofNat seen)

theorem inRange_clueLines (grid : Grid) :
    ∀ line ∈ grid.clueLines, ∀ reference ∈ line.vars, ∃ v < grid.size * grid.size, reference = (v : Int) := by
  intro line member reference listed
  obtain ⟨side, opposite, index, front, back, across, here, there, rfl⟩ := mem_clueLines member
  obtain ⟨v, onLine, rfl⟩ := List.mem_map.mp listed
  exact ⟨v, lt_of_mem_line (lt_size_of_clue here) onLine, rfl⟩

/-! ### Heights -/

theorem heightOf_of_candidates {v x : Nat} (alone : s.candidates v = [x]) : heightOf s v = x + 1 := by
  rw [heightOf, value?_eq_some.mpr alone]

theorem heightOf_eq_zero {v : Nat} (undetermined : s.isDetermined v = false) : heightOf s v = 0 := by
  unfold heightOf
  split
  next x value =>
    rw [isDetermined_iff.mpr (by rw [value?_eq_some.mp value]; rfl)] at undetermined
    exact nomatch undetermined
  next => rfl

theorem candidates_of_heightOf {v : Nat} (known : heightOf s v ≠ 0) :
    s.isDetermined v = true ∧ s.candidates v = [heightOf s v - 1] := by
  have determined : s.isDetermined v = true := by
    by_contra undetermined
    exact known (heightOf_eq_zero (Bool.eq_false_iff.mpr undetermined))
  have alone := isDetermined_iff_candidates.mp determined
  rw [heightOf_of_candidates alone]
  exact ⟨determined, alone⟩

theorem heightOf_le (s : State) (v : Nat) : heightOf s v ≤ s.size := by
  by_cases zero : heightOf s v = 0
  · omega
  · have alone := (candidates_of_heightOf zero).2
    have member : heightOf s v - 1 ∈ s.domain v := by
      show _ ∈ s.candidates v
      rw [alone]
      exact List.mem_singleton_self _
    have := Domain.lt_size member
    omega

/-! ### The checks -/

theorem count_eq (shape : s.frame = grid.initial.frame) : s.count = grid.size * grid.size := by
  have count := congrArg Frame.count shape
  rw [frame_initial] at count
  exact count

/-- The heights along a line as far as they are settled, with a 0 in the open cells. -/
def seenSoFar (s : State) (a : Nat → Nat) (cells : List Nat) : List Nat :=
  cells.map fun v => if s.isDetermined v then a v + 1 else 0

section Admitted

variable (shape : s.frame = grid.initial.frame) (admits : s.Admits a)
include shape admits

private theorem heightOf_eq {v : Nat} (inside : v < grid.size * grid.size) :
    heightOf s v = if s.isDetermined v then a v + 1 else 0 := by
  by_cases settled : s.isDetermined v = true
  · rw [heightOf_of_candidates (isDetermined_iff_candidates.mp settled), if_pos settled,
      admits.eq_assignment (count_eq shape ▸ inside) settled]
  · rw [if_neg settled]
    exact heightOf_eq_zero (Bool.eq_false_iff.mpr settled)

private theorem lineHeights_eq (bound : index < grid.size) :
    grid.lineHeights s side index = seenSoFar s a (grid.line side index) :=
  List.map_congr_left fun _ member => heightOf_eq shape admits (lt_of_mem_line bound member)

theorem lineHeights_full (full : s.allDetermined = true) (bound : index < grid.size) :
    grid.lineHeights s side index = grid.view a side index := by
  rw [lineHeights_eq shape admits bound]
  refine List.map_congr_left fun v member => if_pos ?_
  exact allDetermined_iff.mp full v (count_eq shape ▸ lt_of_mem_line bound member)

end Admitted

/-! ### Lines that fill up -/

/-- What the first list shows of a line, with a 0 in the open cells, the second one shows as well. -/
def Retains (early late : List Nat) : Prop :=
  List.Forall₂ (fun height later => height ≠ 0 → later = height) early late

namespace Retains

variable {early late : List Nat} (retains : Retains early late)
include retains

/-- Leaving out the open cells leaves heights of the later line, in their order. -/
theorem settled_sublist : (early.filter (· ≠ 0)).Sublist (late.filter (· ≠ 0)) := by
  induction retains with
  | nil => exact List.Sublist.refl _
  | @cons height later early late kept _ ih =>
    by_cases settled : height = 0
    · rw [List.filter_cons_of_neg (by simp [settled])]
      exact ih.trans (List.Sublist.filter _ (List.sublist_cons_self later late))
    · rw [kept settled, List.filter_cons_of_pos (by simp [settled]),
        List.filter_cons_of_pos (by simp [settled])]
      exact ih.cons_cons _

private theorem opening_prefix : early.takeWhile (· ≠ 0) <+: late.takeWhile (· ≠ 0) := by
  induction retains with
  | nil => exact List.prefix_rfl
  | @cons height later early late kept _ ih =>
    by_cases settled : height = 0
    · rw [List.takeWhile_cons_of_neg (by simp [settled])]
      exact List.nil_prefix
    · rw [kept settled, List.takeWhile_cons_of_pos (by simp [settled]),
        List.takeWhile_cons_of_pos (by simp [settled])]
      exact (List.prefix_cons_inj _).mpr ih

/-- More is seen of a line that fills up, until the tallest tower stands: what does not contradict a clue
later did not do so before. -/
theorem openingFits {clue : Nat} (bounded : ∀ height ∈ late, height ≤ grid.size)
    (fits : grid.openingFits clue late = true) : grid.openingFits clue early = true := by
  obtain ⟨rest, split⟩ := retains.opening_prefix
  have bounded : ∀ height ∈ rest, height ≤ grid.size := fun height member =>
    bounded height ((List.takeWhile_prefix _).subset (split ▸ List.mem_append_right _ member))
  unfold Grid.openingFits at fits ⊢
  dsimp only at fits ⊢
  rw [← split, Bool.and_eq_true, Bool.or_eq_true, decide_eq_true_eq, decide_eq_true_eq,
    decide_eq_true_eq] at fits
  rw [Bool.and_eq_true, Bool.or_eq_true, decide_eq_true_eq, decide_eq_true_eq, decide_eq_true_eq]
  refine ⟨(countVisible_le_append _ rest).trans fits.1, ?_⟩
  by_cases tallest : grid.size ∈ early.takeWhile (· ≠ 0)
  · have met := fits.2.resolve_left (not_not.mpr (List.mem_append_left rest tallest))
    exact .inr ((countVisible_append_of_mem tallest bounded).symm.trans met)
  · exact .inl tallest

end Retains

private theorem retains_seenSoFar (s : State) (a : Nat → Nat) (cells : List Nat) :
    Retains (seenSoFar s a cells) (cells.map fun v => a v + 1) := by
  rw [Retains, seenSoFar, List.forall₂_map_left_iff, List.forall₂_map_right_iff, List.forall₂_same]
  intro v _ known
  by_cases settled : s.isDetermined v = true
  · rw [if_pos settled]
  · exact absurd (if_neg settled) known

theorem openingFits_iff {clue : Nat} {heights : List Nat} (positive : ∀ height ∈ heights, 0 < height)
    (tallest : grid.size ∈ heights) : grid.openingFits clue heights = true ↔ countVisible heights = clue := by
  have all : heights.takeWhile (· ≠ 0) = heights :=
    List.takeWhile_eq_self_iff.mpr fun height member => decide_eq_true (Nat.ne_of_gt (positive height member))
  unfold openingFits
  dsimp only
  rw [all]
  simp only [tallest, not_true_eq_false, decide_false, Bool.false_or, Bool.and_eq_true, decide_eq_true_eq]
  exact ⟨And.right, fun met => ⟨met.le, met⟩⟩

theorem mem_rowsAndColumns {line : List Nat} : line ∈ grid.rowsAndColumns s ↔
    ∃ side, (side = .left ∨ side = .top) ∧ ∃ index < grid.size, line = grid.lineHeights s side index := by
  constructor
  · intro member
    rcases List.mem_append.mp member with row | column
    · obtain ⟨y, bound, rfl⟩ := List.mem_map.mp row
      exact ⟨.left, .inl rfl, y, List.mem_range.mp bound, rfl⟩
    · obtain ⟨x, bound, rfl⟩ := List.mem_map.mp column
      exact ⟨.top, .inr rfl, x, List.mem_range.mp bound, rfl⟩
  · rintro ⟨side, rfl | rfl, index, bound, rfl⟩
    · exact List.mem_append_left _ (List.mem_map_of_mem (List.mem_range.mpr bound))
    · exact List.mem_append_right _ (List.mem_map_of_mem (List.mem_range.mpr bound))

theorem mem_cluedLines {clue : Nat} :
    (side, index, clue) ∈ grid.cluedLines ↔ (grid.clues.on side)[index]? = some clue ∧ clue ≠ 0 := by
  have all : side ∈ Side.all := by cases side <;> decide
  simp only [cluedLines, List.mem_flatMap, List.mem_filterMap, Prod.exists, List.mem_zipIdx_iff_getElem?]
  constructor
  · rintro ⟨found, _, given, place, listed, kept⟩
    split at kept
    · simp at kept
    next clued =>
      cases kept
      exact ⟨listed, clued⟩
  · rintro ⟨listed, clued⟩
    exact ⟨side, all, clue, index, listed, if_neg clued⟩

theorem Solution.openingFits (solution : grid.Solution a) {clue : Nat}
    (given : (grid.clues.on side)[index]? = some clue) (clued : clue ≠ 0) :
    grid.openingFits clue (seenSoFar s a (grid.line side index)) = true := by
  have heights (height : Nat) : height ∈ grid.view a side index ↔ 1 ≤ height ∧ height < 1 + grid.size := by
    rw [(solution.view_perm (lt_size_of_clue given)).mem_iff, List.mem_range'_1]
  have tallest : grid.size ∈ grid.view a side index := by
    have positive := grid.size_pos
    rw [heights]
    omega
  have bounded : ∀ height ∈ grid.view a side index, height ≤ grid.size := by
    intro height member
    have := (heights height).mp member
    omega
  have full := (openingFits_iff (view_positive grid a) tallest).mpr (solution.countVisible given clued)
  exact (retains_seenSoFar s a _).openingFits bounded full

theorem Solution.isConsistent (solution : grid.Solution a) (shape : s.frame = grid.initial.frame)
    (admits : s.Admits a) : grid.isConsistent s = true := by
  unfold Grid.isConsistent
  rw [Bool.and_eq_true, List.all_eq_true, List.all_eq_true]
  constructor
  · intro line member
    obtain ⟨side, _, index, bound, rfl⟩ := mem_rowsAndColumns.mp member
    rw [lineHeights_eq shape admits bound]
    have distinct : (grid.view a side index).Nodup :=
      (solution.view_perm bound).nodup_iff.mpr List.nodup_range'
    exact decide_eq_true (distinct.sublist
      ((retains_seenSoFar s a _).settled_sublist.trans List.filter_sublist))
  · rintro ⟨side, index, clue⟩ member
    obtain ⟨given, clued⟩ := mem_cluedLines.mp member
    dsimp only
    rw [lineHeights_eq shape admits (lt_size_of_clue given)]
    exact solution.openingFits given clued

theorem isSolved_iff (shape : s.frame = grid.initial.frame) (full : s.allDetermined = true)
    (admits : s.Admits a) : grid.isSolved s = true ↔ grid.Solution a := by
  have heights {side : Side} {index : Nat} (bound : index < grid.size) :
      grid.lineHeights s side index = grid.view a side index :=
    lineHeights_full shape admits full bound
  unfold Grid.isSolved
  rw [full, Bool.true_and, Bool.and_eq_true, List.all_eq_true, List.all_eq_true]
  constructor
  · rintro ⟨lines, clues⟩
    refine ⟨fun y bound => ?_, fun x bound => ?_, fun side index clue given clued => ?_⟩
    · rw [← heights bound]
      exact List.isPerm_iff.mp (lines _ (mem_rowsAndColumns.mpr ⟨.left, .inl rfl, y, bound, rfl⟩))
    · rw [← heights bound]
      exact List.isPerm_iff.mp (lines _ (mem_rowsAndColumns.mpr ⟨.top, .inr rfl, x, bound, rfl⟩))
    · have met := clues _ (mem_cluedLines.mpr ⟨given, clued⟩)
      rw [← countVisible_eq (view_positive grid a), ← heights (lt_size_of_clue given)]
      exact of_decide_eq_true met
  · intro solution
    refine ⟨fun line member => ?_, ?_⟩
    · obtain ⟨side, _, index, bound, rfl⟩ := mem_rowsAndColumns.mp member
      rw [heights bound]
      exact List.isPerm_iff.mpr (solution.view_perm bound)
    · rintro ⟨side, index, clue⟩ member
      obtain ⟨given, clued⟩ := mem_cluedLines.mp member
      dsimp only
      rw [heights (lt_size_of_clue given)]
      exact decide_eq_true (solution.countVisible given clued)

/-! ### The puzzle -/

theorem sound_puzzle (grid : Grid) : grid.puzzle.Sound grid.initial.frame grid.Solution where
  spares t shape a solution admits rule listed := by
    have fills : Latin.Fills t.frame a := shape ▸ Solution.fills solution
    rcases List.mem_cons.mp listed with rfl | listed
    · exact Latin.spares_elimination fills admits
    rcases List.mem_cons.mp listed with rfl | listed
    · exact Latin.spares_hiddenSingle fills admits
    cases List.mem_singleton.mp listed
    exact spares_visibility (fun line member _ => Solution.holdsFor solution member) admits
  consistent t shape a solution admits refused := by
    have accepted := Solution.isConsistent solution shape admits
    rw [Except.ok.inj refused] at accepted
    exact nomatch accepted
  solved t shape full a admits verdict judged := by
    cases judged
    exact isSolved_iff shape full admits

theorem wellBehaved_rules {frame : Frame} (room : Room.checkList frame.size = .ok ())
    (cells : frame.count = grid.size * grid.size) : ∀ rule ∈ grid.rules, rule.WellBehaved frame := by
  intro rule listed
  rcases List.mem_cons.mp listed with rfl | listed
  · exact Latin.wellBehaved_elimination _
  rcases List.mem_cons.mp listed with rfl | listed
  · exact Latin.wellBehaved_hiddenSingle _
  cases List.mem_singleton.mp listed
  apply wellBehaved_visibility room
  rw [cells]
  exact inRange_clueLines grid

theorem wellBehaved_puzzle (room : Room.checkList grid.size = .ok ()) :
    grid.puzzle.WellBehaved grid.initial.frame where
  rules := wellBehaved_rules room (count_eq rfl)
  consistent _ _ := ⟨_, rfl⟩
  solved _ _ _ := ⟨_, rfl⟩
  inRange t shape := shape ▸ (Puzzle.order_none rfl t).1
  covers t _ := (Puzzle.order_none rfl t).2

theorem settled_initial (grid : Grid) : grid.initial.Settled :=
  (settled_blank (grid.size * grid.size) grid.size).withConstraints _

theorem shaped_initial (grid : Grid) : grid.initial.Shaped grid.size (grid.size * grid.size) where
  size_eq := rfl
  count_eq := count_eq rfl
  linked entry registered v member := by
    obtain ⟨side, index, bound, same⟩ := mem_constraints registered
    rw [same] at member
    exact lt_of_mem_line bound member

/-- The verdict on a grid is right, and with a guess budget for the whole tree there is one. -/
theorem solve_grid {initial : State} (reached : grid.initial.Reaches initial)
    (shape : initial.frame = grid.initial.frame) {μ : Type} (hook : Hook μ) (memory : μ)
    (solver : Solver) :
    let report := solver.solve grid.puzzle hook memory initial
    (report.result = .ok .solved →
        report.state.allDetermined = true ∧ grid.Solution report.state.assignment ∧
          initial.Admits report.state.assignment) ∧
      (report.result = .ok .unsolvable ∨ report.result = .ok .invalid →
        ∀ a, grid.Solution a → ¬ initial.Admits a) ∧
      (hook.Quiet → solver.passLimit = none →
        solver.guesses + ∑ k ∈ Finset.Icc 1 (grid.size * grid.size), grid.size ^ k ≤ solver.budget →
        report.result ≠ .ok .unsolved ∧
          (Room.checkList grid.size = .ok () →
            (report.result = .ok .solved ↔ ∃ a, grid.Solution a ∧ initial.Admits a))) := by
  intro report
  have givens := (reached.settled (settled_initial grid)).givens
  have sound : grid.puzzle.Sound initial.frame grid.Solution := shape ▸ sound_puzzle grid
  refine ⟨Solver.solve_solution sound, Solver.solve_refutes givens sound,
    fun quiet unlimited budget => ?_⟩
  have size : initial.size = grid.size := congrArg Frame.size shape
  have few : initial.undetermined.length ≤ grid.size * grid.size :=
    count_eq shape ▸ initial.length_undetermined_le_count
  have room : solver.guesses + Search.guessBound initial.size initial.undetermined.length ≤
      solver.budget := by
    rw [size]
    exact (Nat.add_le_add_left (Search.guessBound_mono few) _).trans budget
  refine ⟨(Solver.solve_ends grid.puzzle memory givens quiet unlimited).2 room, fun fits => ?_⟩
  exact Solver.solve_decides givens (shape ▸ wellBehaved_puzzle fits) sound quiet unlimited room

/-- Two by two, with one clue: two towers are seen from the top of the first column. -/
def cornerClue : Grid where
  size := 2
  size_pos := Nat.zero_lt_two
  clues := ⟨⟨[2, 0], rfl, by decide⟩, ⟨[0, 0], rfl, by decide⟩, ⟨[0, 0], rfl, by decide⟩,
    ⟨[0, 0], rfl, by decide⟩⟩

theorem solve_grid_cornerClue :
    let initial := cornerClue.initial.perform (.lock 3 0)
    let solver : Solver := ⟨.fewest, none, 0, 30, .unsolved, false, {}⟩
    let report := solver.solve cornerClue.puzzle Hook.silent () initial
    report.result = .ok .solved ∧ cornerClue.Solution report.state.assignment ∧
      ∃ a, cornerClue.Solution a ∧ initial.Admits a := by
  intro initial solver report
  have solved : report.result = .ok .solved := by decide
  have shape : initial.frame = cornerClue.initial.frame := rfl
  have right := solve_grid (.perform (.lock 3 0) .refl) shape Hook.silent () solver
  have decides := right.2.2 Hook.quiet_silent rfl (by decide)
  exact ⟨solved, (right.1 solved).2.1, (decides.2 rfl).mp solved⟩
end PencilPuzzle.Towers.Grid
