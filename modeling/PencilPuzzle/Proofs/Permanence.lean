import PencilPuzzle.Proofs.Confluence
import PencilPuzzle.Proofs.Loop.Consistency
import PencilPuzzle.Proofs.Towers.Grid

/-!
# What a check refuses stays refused

Candidates are taken away from a state, but from no variable the last one. What was determined keeps its
value then, so everything that the checks of the two puzzles count can only move one way: heights that are
known stay, and lines are known further; marked edges stay, and edges that are out stay out. What fails need
not fail in the same place later. A marked loop stops being a run when edges that touch it are marked, but
then three edges meet at a vertex; and of a line that is known further more is seen, unless its tallest tower
stands in front.
-/

namespace PencilPuzzle

open State

variable {s t : State}

/-! ### Taking candidates away -/

/-- The second state has no other candidates than the first, and some wherever the first has some. -/
structure State.ThinsTo (s t : State) : Prop where
  within : t.Within s
  kept : ∀ v, s.candidates v ≠ [] → t.candidates v ≠ []

private theorem State.NarrowsTo.thinsTo (narrowed : s.NarrowsTo t) (notEmpty : t.hasEmptyDomain = false) :
    s.ThinsTo t := by
  refine ⟨narrowed.within, fun v some => ?_⟩
  obtain ⟨x, candidate⟩ := List.exists_mem_of_ne_nil _ some
  have inside : v < s.count := lt_count_of_mem_domain candidate
  exact hasEmptyDomain_eq_false.mp notEmpty v (narrowed.count_eq.symm ▸ inside)

theorem State.ThinsTo.value?_eq_some {v x : Nat} (thins : s.ThinsTo t) (value : s.value? v = some x) :
    t.value? v = some x := by
  refine thins.within.value?_eq_some_of_ne_nil (thins.kept v ?_) value
  rw [State.value?_eq_some.mp value]
  exact List.cons_ne_nil x []

/-! ### Edges -/

namespace Loop

open PencilPuzzle.Graph

variable {graph : Graph} {e : Nat} (thins : s.ThinsTo t)
include thins

private theorem isMarked_of_thinsTo (marked : isMarked s e = true) : isMarked t e = true :=
  decide_eq_true (thins.value?_eq_some (of_decide_eq_true marked))

private theorem isEnabled_of_thinsTo (enabled : isEnabled t e = true) : isEnabled s e = true :=
  isEnabled_iff.mpr (thins.within.subset e _ (isEnabled_iff.mp enabled))

private theorem markedCount_le_of_thinsTo (edges : List Nat) : markedCount s edges ≤ markedCount t edges :=
  List.countP_mono_left fun _ _ => isMarked_of_thinsTo thins

private theorem markedEdges_subset_of_thinsTo : markedEdges graph s ⊆ markedEdges graph t := by
  intro e here
  obtain ⟨inside, marked⟩ := mem_markedEdges.mp here
  exact mem_markedEdges.mpr ⟨inside, isMarked_of_thinsTo thins marked⟩

private theorem Consistent.of_thinsTo (consistent : Consistent graph t) : Consistent graph s where
  few v := (markedCount_le_of_thinsTo thins _).trans (consistent.few v)
  reach f hint given := by
    obtain ⟨least, most⟩ := consistent.reach f hint given
    have marked := markedCount_le_of_thinsTo thins (graph.edgesOf f)
    have enabled : (graph.edgesOf f).countP (isEnabled t) ≤ (graph.edgesOf f).countP (isEnabled s) :=
      List.countP_mono_left fun _ _ => isEnabled_of_thinsTo thins
    omega
  alone loop ring marked := fun _ here =>
    consistent.alone loop ring (fun e onLoop => isMarked_of_thinsTo thins (marked e onLoop))
      (markedEdges_subset_of_thinsTo thins here)

theorem isConsistent_of_thinsTo (wellFormed : graph.WellFormed) (consistent : isConsistent graph t = true) :
    isConsistent graph s = true :=
  (isConsistent_iff wellFormed).mpr (((isConsistent_iff wellFormed).mp consistent).of_thinsTo thins)

end Loop

/-! ### Heights -/

namespace Towers.Grid

variable {grid : Grid} (thins : s.ThinsTo t)
include thins

private theorem heightOf_of_thinsTo {v : Nat} (known : heightOf s v ≠ 0) : heightOf t v = heightOf s v := by
  have alone := (candidates_of_heightOf known).2
  have later := State.value?_eq_some.mp (thins.value?_eq_some (State.value?_eq_some.mpr alone))
  rw [heightOf_of_candidates alone, heightOf_of_candidates later]

private theorem retains_lineHeights (side : Side) (index : Nat) :
    Retains (grid.lineHeights s side index) (grid.lineHeights t side index) := by
  rw [Retains, lineHeights, lineHeights, List.forall₂_map_left_iff, List.forall₂_map_right_iff,
    List.forall₂_same]
  exact fun _ _ => heightOf_of_thinsTo thins

theorem isConsistent_of_thinsTo (size : s.size = grid.size) (consistent : grid.isConsistent t = true) :
    grid.isConsistent s = true := by
  have bounded (side : Side) (index : Nat) :
      ∀ height ∈ grid.lineHeights t side index, height ≤ grid.size := by
    intro height member
    obtain ⟨v, _, rfl⟩ := List.mem_map.mp member
    rw [← size, ← thins.within.size_eq]
    exact heightOf_le t v
  unfold isConsistent at consistent ⊢
  rw [Bool.and_eq_true, List.all_eq_true, List.all_eq_true] at consistent ⊢
  obtain ⟨lines, clues⟩ := consistent
  constructor
  · intro line member
    obtain ⟨side, crosses, index, bound, rfl⟩ := mem_rowsAndColumns.mp member
    have distinct := of_decide_eq_true (lines _ (mem_rowsAndColumns.mpr ⟨side, crosses, index, bound, rfl⟩))
    exact decide_eq_true (distinct.sublist (retains_lineHeights thins side index).settled_sublist)
  · rintro ⟨side, index, clue⟩ member
    exact (retains_lineHeights thins side index).openingFits (bounded side index) (clues _ member)

end Towers.Grid

/-! ### Both puzzles -/

/-- A state that the check of its puzzle refuses is refused also after candidates have been taken away, if
that leaves no variable without one. -/
theorem isConsistent_eq_false_of_thinsTo (thins : s.ThinsTo t) :
    (∀ grid : Towers.Grid, s.size = grid.size → grid.isConsistent s = false → grid.isConsistent t = false) ∧
      ∀ vertexCount cycles hints graph, Graph.build vertexCount cycles hints = .ok graph →
        Loop.isConsistent graph s = false → Loop.isConsistent graph t = false := by
  refine ⟨fun grid size refused => ?_, fun vertexCount cycles hints graph built refused => ?_⟩
  · rw [Bool.eq_false_iff] at refused ⊢
    exact mt (Towers.Grid.isConsistent_of_thinsTo thins size) refused
  · rw [Bool.eq_false_iff] at refused ⊢
    exact mt (Loop.isConsistent_of_thinsTo thins (Graph.wellFormed_of_build built)) refused

/-- In a column with clue 2 the tallest tower stands in front, whatever comes behind it. Beside a marked
triangle there is another marked edge; with the edges that join them the triangle falls into two runs, neither
of which is a loop, but three edges meet. -/
theorem isConsistent_eq_false_of_thinsTo_cornerClue_triangle :
    let column := Towers.Grid.cornerClue.initial.perform (.lock 0 1)
    let house := Graph.ofCycles 5 [[0, 1, 2], [1, 3, 4, 2]] []
    let triangle := [0, 1, 2, 4].foldl (fun s (e : Nat) => s.perform (.lock e 0)) (Loop.initial house)
    Towers.Grid.cornerClue.isConsistent (column.perform (.remove 2 [1])) = false ∧
      Loop.isConsistent house (triangle.perform (.applyUpdates [Loop.mark 3, Loop.mark 5])) = false := by
  intro column house triangle
  have shorter : column.NarrowsTo (column.perform (.remove 2 [1])) := narrowsTo_perform rfl column
  have further : triangle.NarrowsTo (triangle.perform (.applyUpdates [Loop.mark 3, Loop.mark 5])) :=
    narrowsTo_perform rfl triangle
  have behind := isConsistent_eq_false_of_thinsTo (shorter.thinsTo (by decide +kernel))
  have beside := isConsistent_eq_false_of_thinsTo (further.thinsTo (by decide +kernel))
  have built : Graph.build 5 [[0, 1, 2], [1, 3, 4, 2]] [] = .ok house := by decide
  exact ⟨behind.1 Towers.Grid.cornerClue rfl (by decide +kernel),
    beside.2 5 _ _ house built (by decide +kernel)⟩

end PencilPuzzle
