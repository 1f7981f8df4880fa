import PencilPuzzle.Proofs.Graph.Tiling
import PencilPuzzle.Proofs.Loop.Network
import PencilPuzzle.Proofs.Loop.Order
import PencilPuzzle.Proofs.Loop.Rules

/-!
# Loop puzzles on grids

On a grid of squares or of hexagons the solver of loop puzzles is right: what it draws is one closed
loop that meets every hint, where it finds none there is none, and with a guess budget for the whole
search tree it always decides. The rules for faces, vertices and runs need no more than a well formed
graph; the rule for networks needs the two sides of the loop, which a grid has because its tiles can
be laid one after the other.
-/

namespace PencilPuzzle.Loop

open State PencilPuzzle.Graph

variable {graph : Graph} {s start : State} {a : Nat → Nat} {e : Nat}

/-! ### Full states -/

section Full

variable (count : s.count = graph.edges.size) (full : s.allDetermined = true) (admits : s.Admits a)
include count full admits

private theorem isMarked_iff_mem (inside : e < graph.edges.size) :
    isMarked s e = true ↔ e ∈ loopOf graph a := by
  have bound : e < s.count := count ▸ inside
  have settled := allDetermined_iff.mp full e bound
  rw [isMarked_iff, isDetermined_iff_candidates.mp settled, ← admits.eq_assignment bound settled,
    mem_loopOf]
  simp [inside]

theorem markedEdges_eq_loopOf : markedEdges graph s = loopOf graph a := by
  apply List.filter_congr
  intro e member
  have same := isMarked_iff_mem count full admits (List.mem_range.mp member)
  rw [mem_loopOf, and_iff_right (List.mem_range.mp member)] at same
  exact Bool.eq_iff_iff.mpr (same.trans decide_eq_true_iff.symm)

end Full

/-- A full state is accepted exactly when it is a solution. -/
theorem isSolved_iff (wellFormed : graph.WellFormed) (count : s.count = graph.edges.size)
    (full : s.allDetermined = true) (admits : s.Admits a) :
    isSolved graph s = true ↔ Solution graph a := by
  have counted (f : Nat) :
      markedCount s (graph.edgesOf f) = (graph.edgesOf f).countP (· ∈ loopOf graph a) := by
    apply List.countP_congr
    intro e border
    rw [isMarked_iff_mem count full admits (wellFormed.lt_size border), decide_eq_true_eq]
  unfold isSolved
  rw [Bool.and_eq_true, List.all_eq_true, markedEdges_eq_loopOf count full admits,
    isLoop_iff wellFormed]
  constructor
  · rintro ⟨met, loop⟩
    refine ⟨loop, fun f hint given => ?_⟩
    have judged := met f (mem_faceIds_of_hintOf given)
    rw [given] at judged
    rw [← counted f]
    exact of_decide_eq_true judged
  · intro solution
    refine ⟨fun f _ => ?_, solution.loop⟩
    split
    next => rfl
    next hint given =>
      rw [counted f]
      exact decide_eq_true (solution.hints f hint given)

/-! ### The puzzle -/

theorem sound_puzzle (wellFormed : graph.WellFormed)
    (shelled : Shelled (graph.faces.toList.map Face.vertices)) :
    (puzzle graph).Sound (initial graph).frame (Solution graph) where
  spares t shape a solution admits rule listed := by
    have ring := Solution.ring wellFormed solution
    have count := count_eq shape
    have agrees := agrees_loopOf count admits
    have hints := Solution.hints solution
    obtain ⟨inside, encloses⟩ := ring.exists_inside wellFormed shelled
    have parts := Encloses.parts wellFormed encloses
    rcases List.mem_append.mp (show rule ∈ localRules graph ++ [faceNetwork graph] from listed)
      with near | far
    · obtain ⟨updates, deduced, decide⟩ := localRules_decide ring agrees hints near
      exact Rule.spares_of_ok deduced fun update member => (decide update member).spares count
    · cases List.mem_singleton.mp far
      exact spares_of_decidesFor count (faceNetwork_fine parts agrees) fun _ h _ =>
        decidesFor_faceNetwork parts agrees wellFormed h
  consistent t shape a solution admits refused := by
    have accepted := isConsistent_of_ring (Solution.ring wellFormed solution)
      (agrees_loopOf (count_eq shape) admits) (Solution.hints solution)
    rw [Except.ok.inj refused] at accepted
    exact nomatch accepted
  solved t shape full a admits verdict judged := by
    cases judged
    exact isSolved_iff wellFormed (count_eq shape) full admits

/-- Where the variables are the edges, each with two values, nothing but a contradiction fails. -/
theorem wellBehaved_of_shape {frame : Frame} (values : frame.size = 2)
    (edges : frame.count = graph.edges.size) : (puzzle graph).WellBehaved frame where
  rules rule listed := by
    rcases List.mem_cons.mp listed with rfl | listed
    · exact wellBehaved_zeroFace values graph
    rcases List.mem_cons.mp listed with rfl | listed
    · exact wellBehaved_exactEdgeCount values graph
    rcases List.mem_cons.mp listed with rfl | listed
    · exact wellBehaved_twoEdgesPerVertex values graph
    rcases List.mem_cons.mp listed with rfl | listed
    · exact wellBehaved_deadEnd values graph
    rcases List.mem_cons.mp listed with rfl | listed
    · exact wellBehaved_prematureLoop values graph
    cases List.mem_singleton.mp listed
    exact wellBehaved_faceNetwork graph values
  consistent _ _ := ⟨_, rfl⟩
  solved _ _ _ := ⟨_, rfl⟩
  inRange t shape reference listed := by
    obtain ⟨e, ordered, rfl⟩ := List.mem_map.mp listed
    have inside : e < t.count := lt_count_of_isOpen (mem_guessOrder.mp ordered).2
    exact ⟨e, congrArg Frame.count shape ▸ inside, rfl⟩
  covers t shape e undetermined := by
    have undecided := isOpen_iff.mpr (mem_undetermined.mp undetermined)
    have count : t.count = graph.edges.size := (congrArg Frame.count shape).trans edges
    have inside : e < graph.edges.size := count ▸ lt_count_of_isOpen undecided
    exact List.mem_map_of_mem (mem_guessOrder.mpr ⟨inside, undecided⟩)

theorem wellBehaved_puzzle (graph : Graph) : (puzzle graph).WellBehaved (initial graph).frame := by
  rw [frame_initial]
  exact wellBehaved_of_shape rfl rfl

/-- The verdict on a grid is right, and with a guess budget for the whole tree there is one. -/
theorem solve_loop (isGrid : Tiling.IsGrid graph) (reached : (initial graph).Reaches start)
    (shape : start.frame = (initial graph).frame) {μ : Type} (hook : Hook μ) (memory : μ)
    (solver : Solver) :
    let report := solver.solve (puzzle graph) hook memory start
    (report.result = .ok .solved →
        report.state.allDetermined = true ∧ Solution graph report.state.assignment ∧
          start.Admits report.state.assignment) ∧
      (report.result = .ok .unsolvable ∨ report.result = .ok .invalid →
        (∀ a, Solution graph a → ¬ start.Admits a) ∧
          ∀ t : State, t.frame = start.frame → t.allDetermined = true →
            start.Admits t.assignment → isSolved graph t = false) ∧
      (hook.Quiet → solver.passLimit = none →
        solver.guesses + ∑ k ∈ Finset.Icc 1 graph.edges.size, 2 ^ k ≤ solver.budget →
        report.result ≠ .ok .unsolved ∧
          (report.result = .ok .solved ↔ ∃ a, Solution graph a ∧ start.Admits a)) := by
  intro report
  obtain ⟨wellFormed, shelled⟩ := isGrid.shelled
  have givens := (reached.settled (settled_initial graph)).givens
  have sound : (puzzle graph).Sound start.frame (Solution graph) :=
    shape ▸ sound_puzzle wellFormed shelled
  refine ⟨Solver.solve_solution sound, fun refuted => ?_, fun quiet unlimited budget => ?_⟩
  · have none := Solver.solve_refutes givens sound refuted
    refine ⟨none, fun t same full admits => Bool.eq_false_iff.mpr fun accepted => ?_⟩
    have judged := isSolved_iff wellFormed (count_eq (same.trans shape)) full (Admits.assignment full)
    exact none _ (judged.mp accepted) admits
  · have few : start.undetermined.length ≤ graph.edges.size :=
      count_eq shape ▸ start.length_undetermined_le_count
    have room : solver.guesses + Search.guessBound start.size start.undetermined.length ≤
        solver.budget := by
      rw [size_eq shape]
      exact (Nat.add_le_add_left (Search.guessBound_mono few) _).trans budget
    refine ⟨(Solver.solve_ends (puzzle graph) memory givens quiet unlimited).2 room, ?_⟩
    exact Solver.solve_decides givens (shape ▸ wellBehaved_puzzle graph) sound quiet unlimited room

/-- Two squares side by side; the loop has three sides of the first one. -/
def twoSquares : Graph :=
  .ofCycles 6 [[0, 1, 2, 3], [1, 4, 5, 2]] [(0, some 3)]

theorem solve_loop_twoSquares :
    let start := (initial twoSquares).perform (.lock 4 0)
    let solver : Solver := ⟨.fewest, none, 0, 254, .unsolved, false, {}⟩
    let report := solver.solve (puzzle twoSquares) Hook.silent () start
    report.result = .ok .solved ∧ Solution twoSquares report.state.assignment ∧
      ∃ a, Solution twoSquares a ∧ start.Admits a := by
  intro start solver report
  have isGrid : Tiling.IsGrid twoSquares := ⟨2, 1, [(0, some 3)], ⟨_, twoSquares⟩, rfl, .inl rfl⟩
  have solved : report.result = .ok .solved := by decide +kernel
  have shape : start.frame = (initial twoSquares).frame := by rfl
  have right := solve_loop isGrid (.perform (.lock 4 0) .refl) shape Hook.silent () solver
  have decides := right.2.2 Hook.quiet_silent rfl (by decide)
  exact ⟨solved, (right.1 solved).2.1, decides.2.mp solved⟩

end PencilPuzzle.Loop
