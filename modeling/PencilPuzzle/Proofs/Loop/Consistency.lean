import PencilPuzzle.Proofs.Graph.Circuit
import PencilPuzzle.Proofs.Graph.Degree
import PencilPuzzle.Proofs.Loop.Rules

/-!
# What the check of a loop puzzle checks

The check looks at runs: it refuses a run that is a loop if there is another run. Where no more than two
marked edges meet at a vertex, and elsewhere the check refuses anyway, this says that no loop of marked
edges leaves a marked edge out, with runs not mentioned. On a full state the check and the rule for dead
ends together say that marked edges meet in pairs, so some of them form a loop, which then has all of them:
that is a solution.
-/

namespace PencilPuzzle.Loop

open State PencilPuzzle.Graph

variable {graph : Graph} {s : State} {loop : List Nat} {e f v : Nat}

theorem mem_markedEdges : e ∈ markedEdges graph s ↔ e < graph.edges.size ∧ isMarked s e = true := by
  rw [markedEdges, List.mem_filter, edgeIds, List.mem_range]

theorem nodup_markedEdges (graph : Graph) (s : State) : (markedEdges graph s).Nodup :=
  List.nodup_range.filter _

/-! ### Marked loops -/

private theorem isLoop_of_ring (wellFormed : graph.WellFormed) (ring : graph.Ring loop) {run : List Nat}
    (same : ∀ e, e ∈ run ↔ e ∈ loop) : graph.isLoop run = true := by
  rw [isLoop_congr wellFormed same, isLoop_iff wellFormed]
  exact ring.exists_traces wellFormed

private theorem ring_of_isLoop (wellFormed : graph.WellFormed) (distinct : loop.Nodup)
    (closed : graph.isLoop loop = true) : graph.Ring loop := by
  obtain ⟨cycle, traces⟩ := (isLoop_iff wellFormed).mp closed
  exact traces.ring wellFormed distinct

/-- Every loop of marked edges has all marked edges. -/
def Alone (graph : Graph) (s : State) : Prop :=
  ∀ loop, graph.Ring loop → (∀ e ∈ loop, isMarked s e = true) → markedEdges graph s ⊆ loop

section AtMostTwo

variable (few : ∀ v, markedCount s (graph.edgesAt v) ≤ 2)
include few

private theorem exists_run_of_ring (ring : graph.Ring loop) (marked : ∀ e ∈ loop, isMarked s e = true) :
    ∃ run ∈ markedRuns s graph, ∀ e, e ∈ run ↔ e ∈ loop := by
  obtain ⟨e, member⟩ : ∃ e, e ∈ loop := List.exists_mem_of_length_pos (by have := ring.long; omega)
  obtain ⟨first, onPath, starts, below⟩ := exists_startsRun graph (marked e member)
  refine ⟨graph.path (isMarked s) first, ?_, fun f => ?_⟩
  · rw [markedRuns_eq_map]
    exact List.mem_map_of_mem (List.mem_filter.mpr
      ⟨List.mem_range.mpr (below.trans_lt (ring.lt_size member)), starts⟩)
  · rw [← mem_path_congr onPath]
    exact ring.mem_path_iff few marked member

/-- With several runs, a run that is a loop leaves something out, and so does every marked loop. -/
theorem alone_iff (wellFormed : graph.WellFormed) : Alone graph s ↔
    ¬ (1 < (markedRuns s graph).length ∧ ∃ run ∈ markedRuns s graph, graph.isLoop run = true) := by
  have split := split_markedRuns graph s
  have together (e : Nat) : e ∈ markedEdges graph s ↔ ∃ run ∈ markedRuns s graph, e ∈ run := by
    rw [← (flatten_markedRuns_perm graph s).mem_iff, List.mem_flatten]
  constructor
  · rintro alone ⟨several, run, listed, isLoop⟩
    have all := alone _ (isLoop_iff_ring.mp isLoop) fun e onRun =>
      split.isMarked_of_mem listed (List.mem_eraseDups.mp onRun)
    have single := split.length_le_one listed fun other there e here =>
      List.mem_eraseDups.mp (all ((together e).mpr ⟨other, there, here⟩))
    omega
  · intro none loop ring marked e isMarkedEdge
    obtain ⟨run, listed, same⟩ := exists_run_of_ring few ring marked
    have closed := isLoop_of_ring wellFormed ring same
    have single : (markedRuns s graph).length ≤ 1 := by
      by_contra several
      exact none ⟨Nat.lt_of_not_le several, run, listed, closed⟩
    obtain ⟨other, there, onRun⟩ := (together e).mp isMarkedEdge
    obtain ⟨only, runs⟩ := List.length_eq_one_iff.mp
      (Nat.le_antisymm single (List.length_pos_of_mem listed))
    rw [runs, List.mem_singleton] at listed there
    exact (same e).mp (listed.trans there.symm ▸ onRun)

end AtMostTwo

/-! ### The check -/

/-- No vertex has three marked edges, no hint is out of reach and no marked loop leaves an edge out. -/
structure Consistent (graph : Graph) (s : State) : Prop where
  few : ∀ v, markedCount s (graph.edgesAt v) ≤ 2
  reach : ∀ f hint, graph.hintOf f = some hint → (markedCount s (graph.edgesOf f) : Int) ≤ hint ∧
    hint ≤ (graph.edgesOf f).countP (isEnabled s)
  alone : Alone graph s

private theorem edgesAt_of_vertexCount_le (wellFormed : graph.WellFormed) (beyond : graph.vertexCount ≤ v) :
    graph.edgesAt v = [] :=
  List.eq_nil_iff_forall_not_mem.mpr fun _ here =>
    absurd (wellFormed.lt_vertexCount (mem_edgesAt.mp here).2) (Nat.not_lt.mpr beyond)

theorem isConsistent_iff (wellFormed : graph.WellFormed) :
    isConsistent graph s = true ↔ Consistent graph s := by
  unfold isConsistent
  dsimp only
  rw [Bool.and_eq_true, Bool.and_eq_true, List.all_eq_true, List.all_eq_true, Bool.not_eq_true',
    Bool.eq_false_iff, Ne, Bool.and_eq_true, decide_eq_true_eq, List.any_eq_true]
  constructor
  · rintro ⟨⟨vertices, faces⟩, runs⟩
    have few (v : Nat) : markedCount s (graph.edgesAt v) ≤ 2 := by
      by_cases known : v < graph.vertexCount
      · exact of_decide_eq_true (vertices v (List.mem_range.mpr known))
      · simp [edgesAt_of_vertexCount_le wellFormed (Nat.le_of_not_lt known), markedCount]
    refine ⟨few, fun f hint given => ?_, (alone_iff few wellFormed).mpr runs⟩
    have fits := faces f (mem_faceIds_of_hintOf given)
    rw [given] at fits
    simpa [hintFits] using fits
  · rintro ⟨few, reach, alone⟩
    refine ⟨⟨fun v _ => decide_eq_true (few v), fun f _ => ?_⟩, (alone_iff few wellFormed).mp alone⟩
    split
    next => rfl
    next hint given => simpa [hintFits] using reach f hint given

/-! ### Full states -/

private theorem isSolved_iff_ring (wellFormed : graph.WellFormed) : isSolved graph s = true ↔
    (∀ f hint, graph.hintOf f = some hint → (markedCount s (graph.edgesOf f) : Int) = hint) ∧
      graph.Ring (markedEdges graph s) := by
  unfold isSolved
  rw [Bool.and_eq_true, List.all_eq_true]
  constructor
  · rintro ⟨faces, closed⟩
    refine ⟨fun f hint given => ?_, ring_of_isLoop wellFormed (nodup_markedEdges graph s) closed⟩
    have met := faces f (mem_faceIds_of_hintOf given)
    rw [given] at met
    exact of_decide_eq_true met
  · rintro ⟨met, ring⟩
    refine ⟨fun f _ => ?_, isLoop_of_ring wellFormed ring fun _ => Iff.rfl⟩
    split
    next => rfl
    next hint given => exact decide_eq_true (met f hint given)

private theorem markedCount_edgesAt (graph : Graph) (s : State) (v : Nat) :
    markedCount s (graph.edgesAt v) = graph.degree (markedEdges graph s) v := by
  rw [← countP_edgesAt (nodup_markedEdges graph s)]
  refine List.countP_congr fun e here => ?_
  rw [decide_eq_true_eq, mem_markedEdges, and_iff_right (mem_edgesAt.mp here).1]

section Full

variable (full : ∀ e < graph.edges.size, s.isDetermined e = true)
include full

private theorem isEnabled_eq_isMarked (inside : e < graph.edges.size) : isEnabled s e = isMarked s e := by
  obtain ⟨x, only⟩ := List.length_eq_one_iff.mp (isDetermined_iff.mp (full e inside))
  rw [Bool.eq_iff_iff, isEnabled_iff, isMarked_iff, only]
  simp [eq_comm]

theorem looseEnd?_eq_none_iff : looseEnd? graph s v = none ↔ markedCount s (graph.edgesAt v) ≠ 1 := by
  have same : (graph.edgesAt v).filter (isEnabled s) = (graph.edgesAt v).filter (isMarked s) :=
    List.filter_congr fun e here => isEnabled_eq_isMarked full (mem_edgesAt.mp here).1
  rw [markedCount, List.countP_eq_length_filter, looseEnd?, same]
  split
  next e alone =>
    have marked : isMarked s e = true :=
      (List.mem_filter.mp (show e ∈ (graph.edgesAt v).filter (isMarked s) by simp [alone])).2
    simp [alone, marked]
  next several =>
    refine iff_of_true rfl fun one => ?_
    obtain ⟨e, alone⟩ := List.length_eq_one_iff.mp one
    exact several e alone

private theorem exists_deadEnd_iff_of_full (wellFormed : graph.WellFormed) :
    (∃ updates, (deadEnd graph).deduce s = .ok updates) ↔ ∀ v, markedCount s (graph.edgesAt v) ≠ 1 := by
  rw [exists_deadEnd_iff]
  refine ⟨fun none v => ?_, fun paired v _ => (looseEnd?_eq_none_iff full).mpr (paired v)⟩
  by_cases known : v < graph.vertexCount
  · exact (looseEnd?_eq_none_iff full).mp (none v (List.mem_range.mpr known))
  · simp [edgesAt_of_vertexCount_le wellFormed (Nat.le_of_not_lt known), markedCount]

private theorem countP_isEnabled (wellFormed : graph.WellFormed) (f : Nat) :
    (graph.edgesOf f).countP (isEnabled s) = markedCount s (graph.edgesOf f) :=
  List.countP_congr fun e border => by rw [isEnabled_eq_isMarked full (wellFormed.lt_size border)]

end Full

/-- A full state is solved exactly when it is consistent, no marked edge is a dead end and there is a marked
edge at all. -/
theorem isSolved_iff_isConsistent {vertexCount : Nat} {cycles : List (List Int)} {hints : Hints}
    (built : Graph.build vertexCount cycles hints = .ok graph)
    (full : ∀ e < graph.edges.size, s.isDetermined e = true) :
    isSolved graph s = true ↔
      isConsistent graph s = true ∧ (∃ updates, (deadEnd graph).deduce s = .ok updates) ∧
        ∃ e < graph.edges.size, isMarked s e = true := by
  have wellFormed := wellFormed_of_build built
  rw [isSolved_iff_ring wellFormed, isConsistent_iff wellFormed, exists_deadEnd_iff_of_full full wellFormed]
  constructor
  · rintro ⟨met, ring⟩
    have degrees (v : Nat) : markedCount s (graph.edgesAt v) = 0 ∨ markedCount s (graph.edgesAt v) = 2 := by
      rw [markedCount_edgesAt]
      exact ring.degree_cases v
    obtain ⟨e, onLoop⟩ : ∃ e, e ∈ markedEdges graph s :=
      List.exists_mem_of_length_pos (by have := ring.long; omega)
    refine ⟨⟨fun v => ?few, fun f hint given => ?reach, fun loop part marked => ?alone⟩, fun v => ?paired,
      e, mem_markedEdges.mp onLoop⟩
    case few => have := degrees v; omega
    case paired => have := degrees v; omega
    case reach =>
      rw [countP_isEnabled full wellFormed, met f hint given]
      exact ⟨le_rfl, le_rfl⟩
    case alone =>
      obtain ⟨first, here⟩ : ∃ e, e ∈ loop := List.exists_mem_of_length_pos (by have := part.long; omega)
      refine ring.subset_of_two part.distinct (fun x member => ?_) here fun x member v ends =>
        (part.two x member v ends).ge
      exact mem_markedEdges.mpr ⟨part.lt_size member, marked x member⟩
  · rintro ⟨⟨few, reach, alone⟩, paired, e, inside, marked⟩
    have ring := ring_path few paired wellFormed marked inside
    have all := alone _ ring fun f onPath => isMember_of_mem_path marked onPath
    refine ⟨fun f hint given => ?_, ?_⟩
    · have bounds := reach f hint given
      rw [countP_isEnabled full wellFormed] at bounds
      omega
    · have sameEdges (f : Nat) : f ∈ markedEdges graph s ↔ f ∈ graph.path (isMarked s) e :=
        ⟨fun here => all here, fun onPath =>
          mem_markedEdges.mpr ⟨lt_size_of_mem_path inside onPath, isMember_of_mem_path marked onPath⟩⟩
      exact ring_of_isLoop wellFormed (nodup_markedEdges graph s) (isLoop_of_ring wellFormed ring sameEdges)

/-- Around one of two triangles the marked edges are a solution; around both of them no edge is a dead end,
and the check refuses what is not solved. -/
theorem isSolved_iff_isConsistent_triangles :
    let triangles := Graph.ofCycles 6 [[0, 1, 2], [3, 4, 5]] []
    let draw (marked : List Nat) := triangles.edgeIds.foldl
      (fun s (e : Nat) => s.perform (.lock e (if e ∈ marked then 0 else 1))) (initial triangles)
    isConsistent triangles (draw [0, 1, 2]) = true ∧
      isConsistent triangles (draw [0, 1, 2, 3, 4, 5]) = false := by
  intro triangles draw
  have built : Graph.build 6 [[0, 1, 2], [3, 4, 5]] [] = .ok triangles := by decide
  have one := isSolved_iff_isConsistent built
    (by decide +kernel : ∀ e < 6, (draw [0, 1, 2]).isDetermined e = true)
  have both := isSolved_iff_isConsistent built
    (by decide +kernel : ∀ e < 6, (draw [0, 1, 2, 3, 4, 5]).isDetermined e = true)
  refine ⟨(one.mp (by decide +kernel)).1, Bool.eq_false_iff.mpr fun consistent => ?_⟩
  have open' : isSolved triangles (draw [0, 1, 2, 3, 4, 5]) = false := by decide +kernel
  have quiet : (deadEnd triangles).deduce (draw [0, 1, 2, 3, 4, 5]) = .ok [] := by decide +kernel
  have solved := both.mpr ⟨consistent, ⟨_, quiet⟩, 0, by decide, by decide +kernel⟩
  exact Bool.false_ne_true (open'.symm.trans solved)

end PencilPuzzle.Loop
