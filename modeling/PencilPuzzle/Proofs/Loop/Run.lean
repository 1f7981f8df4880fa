import PencilPuzzle.Proofs.Loop.Edge

/-!
# Runs of marked edges

Each run of a state is the path of a marked edge, and no two runs share an edge. A run that is closed,
or would be closed by one more edge, leaves nothing out if it belongs to the loop of a solution, for a
part of a loop that cannot be continued is the whole loop.
-/

namespace PencilPuzzle.Loop

open State PencilPuzzle.Graph

variable {graph : Graph} {s : State} {runs : List (List Nat)} {run loop : List Nat} {e : Nat}

/-! ### Runs without common edges -/

/-- The runs are paths of marked edges without an edge in common. -/
structure Split (graph : Graph) (s : State) (runs : List (List Nat)) : Prop where
  paths : ∀ run ∈ runs, ∃ e, isMarked s e = true ∧ run = graph.path (isMarked s) e
  disjoint : runs.Pairwise List.Disjoint

theorem Split.add (split : Split graph s runs) (marked : isMarked s e = true)
    (new : ∀ run ∈ runs, e ∉ run) : Split graph s (runs ++ [graph.path (isMarked s) e]) := by
  refine ⟨fun run member => ?_, ?_⟩
  · rcases List.mem_append.mp member with old | last
    · exact split.paths run old
    · exact ⟨e, marked, List.mem_singleton.mp last⟩
  · rw [List.pairwise_append]
    refine ⟨split.disjoint, List.pairwise_singleton _ _, fun run member last here => ?_⟩
    cases List.mem_singleton.mp here
    obtain ⟨f, _, rfl⟩ := split.paths run member
    intro x onRun onPath
    -- A common edge would put `e` on the earlier run.
    refine new _ member ((mem_path_congr onRun).mpr ?_)
    exact (mem_path_congr onPath).mp (graph.self_mem_path _ e)

private theorem split_addRuns (split : Split graph s runs) (edges : List Nat) :
    Split graph s (addRuns s graph runs edges) := by
  induction edges generalizing runs with
  | nil => exact split
  | cons e rest ih =>
    rw [addRuns]
    split
    next fresh =>
      simp only [Bool.and_eq_true, Bool.not_eq_true', List.any_eq_false, decide_eq_true_eq] at fresh
      exact ih (split.add fresh.1 fresh.2)
    next => exact ih split

theorem split_markedRuns (graph : Graph) (s : State) : Split graph s (markedRuns s graph) :=
  split_addRuns ⟨fun _ member => absurd member List.not_mem_nil, .nil⟩ graph.edgeIds

namespace Split

variable (split : Split graph s runs)
include split

theorem isMarked_of_mem (member : run ∈ runs) (onRun : e ∈ run) : isMarked s e = true := by
  obtain ⟨f, marked, rfl⟩ := split.paths run member
  exact isMember_of_mem_path marked onRun

theorem nodup (member : run ∈ runs) : run.Nodup := by
  obtain ⟨f, _, rfl⟩ := split.paths run member
  exact graph.nodup_path _ f

private theorem exists_mem (member : run ∈ runs) : ∃ e, e ∈ run := by
  obtain ⟨f, _, rfl⟩ := split.paths run member
  exact ⟨f, graph.self_mem_path _ f⟩

theorem nodup_flatten : runs.flatten.Nodup := by
  rw [List.nodup_flatten]
  exact ⟨fun run member => split.nodup member, split.disjoint⟩

theorem length_le_one (member : run ∈ runs) (all : ∀ other ∈ runs, other ⊆ run) : runs.length ≤ 1 := by
  obtain ⟨before, after, rfl⟩ := List.append_of_mem member
  have disjoint := split.disjoint
  rw [List.pairwise_append, List.pairwise_cons] at disjoint
  have shared {other : List Nat} (listed : other ∈ before ++ run :: after) :
      ∃ e ∈ other, e ∈ run := by
    obtain ⟨e, here⟩ := split.exists_mem listed
    exact ⟨e, here, all other listed here⟩
  have noneBefore : before = [] := by
    apply List.eq_nil_iff_forall_not_mem.mpr
    intro other listed
    obtain ⟨e, here, there⟩ := shared (List.mem_append_left _ listed)
    exact disjoint.2.2 other listed run (List.mem_cons_self ..) here there
  have noneAfter : after = [] := by
    apply List.eq_nil_iff_forall_not_mem.mpr
    intro other listed
    obtain ⟨e, here, there⟩ := shared (List.mem_append_right _ (List.mem_cons_of_mem _ listed))
    exact disjoint.2.1.1 other listed there here
  simp [noneBefore, noneAfter]

theorem length_flatten_le (all : ∀ e, isMarked s e = true → e ∈ run) :
    runs.flatten.length ≤ run.length := by
  refine (List.subperm_of_subset split.nodup_flatten fun e member => ?_).length_le
  obtain ⟨other, listed, here⟩ := List.mem_flatten.mp member
  exact all e (split.isMarked_of_mem listed here)

end Split

/-! ### Closed runs -/

theorem mem_runEnds {u : Nat} :
    u ∈ runEnds graph run ↔ (∃ e ∈ run, u ∈ graph.endsOf e) ∧ graph.degree run u = 1 := by
  rw [runEnds, List.mem_filter, List.mem_eraseDups, List.mem_flatMap, decide_eq_true_eq]

theorem closingEdge?_eq_some (h : closingEdge? graph s run = some e) :
    isOpen s e = true ∧ ∀ u, u ∈ graph.endsOf e ↔ u ∈ runEnds graph run := by
  unfold closingEdge? at h
  split at h
  next v w ends =>
    obtain ⟨between, undecided⟩ := Option.filter_eq_some_iff.mp h
    refine ⟨undecided, fun u => ?_⟩
    rw [ends, endsOf, edgeBetween_eq_some between]
    simp
  next => cases h

section Closed

variable (ring : graph.Ring loop) (agrees : Agrees s loop)
include ring agrees

theorem isMarked_mem_of_isLoop (split : Split graph s runs) (member : run ∈ runs)
    (isLoop : graph.isLoop run = true) : ∀ e, isMarked s e = true → e ∈ run := by
  have own := isLoop_iff_ring.mp isLoop
  obtain ⟨first, onRun⟩ := split.exists_mem member
  have whole : loop ⊆ run.eraseDups := by
    refine ring.subset_of_two own.distinct (fun e here => ?_) (List.mem_eraseDups.mpr onRun)
      fun e here v ends => Nat.le_of_eq (own.two e here v ends).symm
    exact agrees.marked e (split.isMarked_of_mem member (List.mem_eraseDups.mp here))
  exact fun e marked => List.mem_eraseDups.mp (whole (agrees.marked e marked))

/-- If the edge that closes a run is on the loop, then it and the run are the loop. -/
theorem subset_of_closingEdge (split : Split graph s runs) (member : run ∈ runs)
    (closing : closingEdge? graph s run = some e) (onLoop : e ∈ loop) : loop ⊆ e :: run := by
  obtain ⟨undecided, ends⟩ := closingEdge?_eq_some closing
  have unmarked := isMarked_eq_false_of_isOpen undecided
  have new : e ∉ run := by
    intro onRun
    rw [split.isMarked_of_mem member onRun] at unmarked
    exact Bool.noConfusion unmarked
  refine ring.subset_of_two (List.nodup_cons.mpr ⟨new, split.nodup member⟩) ?_ (List.mem_cons_self ..) ?_
  · rintro x (_ | ⟨_, onRun⟩)
    · exact onLoop
    · exact agrees.marked x (split.isMarked_of_mem member onRun)
  · intro x here u touches
    have counted : graph.degree (e :: run) u = graph.degree run u + if u ∈ graph.endsOf e then 1 else 0 := by
      simp [degree, List.countP_cons]
    rw [counted]
    by_cases atEnd : u ∈ graph.endsOf e
    · -- At an end of the run it has one edge, and the closing edge is the other one.
      rw [if_pos atEnd, (mem_runEnds.mp ((ends u).mp atEnd)).2]
    · rcases List.mem_cons.mp here with rfl | onRun
      · exact absurd touches atEnd
      · have some : 0 < graph.degree run u :=
          List.countP_pos_iff.mpr ⟨x, onRun, decide_eq_true touches⟩
        have more : graph.degree run u ≠ 1 := fun one =>
          atEnd ((ends u).mpr (mem_runEnds.mpr ⟨⟨x, onRun, touches⟩, one⟩))
        omega

end Closed

/-! ### Runs as classes -/

/-- Whether an edge is marked and comes before all others on its path. -/
def startsRun (graph : Graph) (s : State) (e : Nat) : Bool :=
  isMarked s e && (graph.path (isMarked s) e).all (e ≤ ·)

theorem startsRun_iff : startsRun graph s e = true ↔
    isMarked s e = true ∧ ∀ f ∈ graph.path (isMarked s) e, e ≤ f := by
  rw [startsRun, Bool.and_eq_true, List.all_eq_true]
  simp only [decide_eq_true_eq]

theorem exists_startsRun (graph : Graph) (marked : isMarked s e = true) :
    ∃ f ∈ graph.path (isMarked s) e, startsRun graph s f = true ∧ f ≤ e := by
  have some : ∃ f, f ∈ graph.path (isMarked s) e := ⟨e, graph.self_mem_path _ e⟩
  have onPath := Nat.find_spec some
  refine ⟨_, onPath, startsRun_iff.mpr ⟨isMember_of_mem_path marked onPath, fun g listed => ?_⟩,
    Nat.find_min' some (graph.self_mem_path _ e)⟩
  exact Nat.find_min' some ((mem_path_congr onPath).mpr listed)

theorem any_runs_eq_false_iff (marked : isMarked s e = true) :
    (((List.range e).filter (startsRun graph s)).map (graph.path (isMarked s))).any (e ∈ ·) = false ↔
      startsRun graph s e = true := by
  rw [List.any_eq_false]
  simp only [List.forall_mem_map, List.mem_filter, List.mem_range, decide_eq_true_eq]
  constructor
  · intro none
    obtain ⟨first, onPath, starts, below⟩ := exists_startsRun graph marked
    rcases Nat.lt_or_eq_of_le below with before | rfl
    · exact absurd ((mem_path_congr onPath).mp (graph.self_mem_path _ e)) (none first ⟨before, starts⟩)
    · exact starts
  · rintro starts first ⟨before, _⟩ onPath
    have back := (startsRun_iff.mp starts).2 first ((mem_path_congr onPath).mp (graph.self_mem_path _ first))
    omega

/-- What remains is gone through with the runs of all edges before it. -/
theorem addRuns_range' (graph : Graph) (s : State) (n count : Nat) :
    addRuns s graph (((List.range n).filter (startsRun graph s)).map (graph.path (isMarked s)))
        (List.range' n count) =
      ((List.range (n + count)).filter (startsRun graph s)).map (graph.path (isMarked s)) := by
  induction count generalizing n with
  | zero => rfl
  | succ count ih =>
    have step := ih (n + 1)
    rw [Nat.add_right_comm] at step
    rw [← Nat.add_assoc, List.range'_succ, addRuns, ← step, List.range_succ, List.filter_append,
      List.map_append]
    by_cases starts : startsRun graph s n = true
    · have marked := (startsRun_iff.mp starts).1
      rw [if_pos (by simp [marked, (any_runs_eq_false_iff marked).mpr starts])]
      simp [starts]
    · rw [if_neg ?_]
      · simp [starts]
      · intro fresh
        obtain ⟨marked, none⟩ := Bool.and_eq_true_iff.mp fresh
        exact starts ((any_runs_eq_false_iff marked).mp ((Bool.not_eq_true' _).mp none))

/-- The runs are the paths of those edges that start one. -/
theorem markedRuns_eq_map (graph : Graph) (s : State) :
    markedRuns s graph = (graph.edgeIds.filter (startsRun graph s)).map (graph.path (isMarked s)) := by
  have all := addRuns_range' graph s 0 graph.edges.size
  rw [Nat.zero_add, ← List.range_eq_range'] at all
  exact all

theorem flatten_markedRuns_perm (graph : Graph) (s : State) :
    (markedRuns s graph).flatten.Perm (markedEdges graph s) := by
  have split := split_markedRuns graph s
  refine (List.perm_ext_iff_of_nodup split.nodup_flatten (List.nodup_range.filter _)).mpr fun e => ?_
  rw [List.mem_flatten, List.mem_filter, List.mem_range]
  constructor
  · rintro ⟨run, listed, onRun⟩
    refine ⟨?_, split.isMarked_of_mem listed onRun⟩
    rw [markedRuns_eq_map] at listed
    obtain ⟨start, member, rfl⟩ := List.mem_map.mp listed
    exact lt_size_of_mem_path (List.mem_range.mp (List.mem_filter.mp member).1) onRun
  · rintro ⟨inside, marked⟩
    obtain ⟨start, onPath, starts, below⟩ := exists_startsRun graph marked
    refine ⟨graph.path (isMarked s) start, ?_, (mem_path_congr onPath).mp (graph.self_mem_path _ e)⟩
    rw [markedRuns_eq_map]
    exact List.mem_map_of_mem (List.mem_filter.mpr ⟨List.mem_range.mpr (below.trans_lt inside), starts⟩)

/-- The walk from an edge ends, and it finds what links lead to, that edge first and none twice. The runs
have no edge in common and are together the marked edges. Each is the whole class of the least edge on it,
beginning there, and they are ordered by these edges. -/
theorem markedRuns_partition (graph : Graph) (s : State) :
    (∀ e, (∀ found, graph.Walks (isMarked s) [e] [] found ↔ found = graph.path (isMarked s) e) ∧
      (graph.path (isMarked s) e).Nodup ∧ (graph.path (isMarked s) e).head? = some e ∧
        ∀ f, f ∈ graph.path (isMarked s) e ↔ Relation.ReflTransGen (graph.Linked (isMarked s)) e f) ∧
      (markedRuns s graph).Pairwise List.Disjoint ∧
      (markedRuns s graph).flatten.Perm (markedEdges graph s) ∧
      ∃ starts : List Nat, starts.Pairwise (· < ·) ∧
        markedRuns s graph = starts.map (graph.path (isMarked s)) ∧
          ∀ e ∈ starts, isMarked s e = true ∧ ∀ f ∈ graph.path (isMarked s) e, e ≤ f := by
  refine ⟨fun e => ⟨fun found => walks_iff, graph.nodup_path _ e, graph.head?_path _ e,
    fun f => mem_path⟩, (split_markedRuns graph s).disjoint, flatten_markedRuns_perm graph s, _,
    List.pairwise_lt_range.filter _, markedRuns_eq_map graph s, fun e member => ?_⟩
  exact startsRun_iff.mp (List.mem_filter.mp member).2

/-- With all edges of two squares side by side marked, the edge between them is a run of its own, and so are
the other three sides of each square. -/
theorem markedRuns_partition_squares :
    let squares := Graph.ofCycles 6 [[0, 1, 2, 3], [1, 4, 5, 2]] []
    let s := squares.edgeIds.foldl (fun s (e : Nat) => s.perform (.lock e 0)) (initial squares)
    markedRuns s squares = [[0, 3, 2], [1], [4, 5, 6]] ∧
      [0, 3, 2, 1, 4, 5, 6].Perm (markedEdges squares s) ∧
      Relation.ReflTransGen (squares.Linked (isMarked s)) 4 6 ∧
      ¬ Relation.ReflTransGen (squares.Linked (isMarked s)) 4 1 := by
  intro squares s
  have runs : markedRuns s squares = [[0, 3, 2], [1], [4, 5, 6]] := by decide +kernel
  obtain ⟨paths, -, together, -⟩ := markedRuns_partition squares s
  rw [runs] at together
  have reached := (paths 4).2.2.2
  have path : squares.path (isMarked s) 4 = [4, 5, 6] := by decide +kernel
  rw [path] at reached
  exact ⟨runs, together, (reached 6).mp (by decide), fun leads => absurd ((reached 1).mpr leads) (by decide)⟩

end PencilPuzzle.Loop
