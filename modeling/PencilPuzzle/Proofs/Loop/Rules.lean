import PencilPuzzle.Proofs.Loop.Run

/-!
# Rules that look at one place

The rules for hinted faces, for vertices and for runs never decide an edge against a solution, and so
does the check of a partly drawn loop. Each of them counts the marked, open or enabled edges of a
face or a vertex and compares with what the loop has there: the count of the hint, or none or two.
-/

namespace PencilPuzzle.Loop

open State PencilPuzzle.Graph

variable {graph : Graph} {s : State} {a : Nat → Nat} {loop edges : List Nat} {e f v : Nat}
  {update : Update}

/-! ### Counting edges -/

section Counting

variable (agrees : Agrees s loop)
include agrees

private theorem markedCount_le (edges : List Nat) : markedCount s edges ≤ edges.countP (· ∈ loop) :=
  List.countP_mono_left fun e _ marked => decide_eq_true (agrees.marked e marked)

private theorem countP_le_enabled (edges : List Nat) :
    edges.countP (· ∈ loop) ≤ edges.countP (isEnabled s) :=
  List.countP_mono_left fun e _ member => agrees.enabled e (of_decide_eq_true member)

private theorem not_mem_of_markedCount (full : markedCount s edges = edges.countP (· ∈ loop))
    (member : e ∈ edges) (undecided : isOpen s e = true) : e ∉ loop := by
  intro onLoop
  have fewer := countP_lt_countP
    (fun e _ marked => decide_eq_true (agrees.marked e marked)) member (decide_eq_true onLoop)
    (isMarked_eq_false_of_isOpen undecided)
  rw [markedCount] at full
  omega

theorem mem_of_needed
    (needed : edges.countP (· ∈ loop) = markedCount s edges + (edges.filter (isOpen s)).length)
    (member : e ∈ edges) (undecided : isOpen s e = true) : e ∈ loop := by
  by_contra outside
  have fewer : edges.countP (· ∈ loop) < edges.countP fun e => isMarked s e || isOpen s e := by
    refine countP_lt_countP (fun e _ onLoop => ?_) member (by simp [undecided])
      (decide_eq_false outside)
    exact Bool.or_eq_true_iff.mpr (isMarked_or_isOpen (agrees.enabled e (of_decide_eq_true onLoop)))
  have most : (edges.countP fun e => isMarked s e || isOpen s e) ≤
      markedCount s edges + (edges.filter (isOpen s)).length := by
    rw [← List.countP_eq_length_filter, markedCount]
    clear needed member fewer
    induction edges with
    | nil => exact Nat.le_refl 0
    | cons first rest ih =>
      simp only [List.countP_cons]
      cases isMarked s first <;> cases isOpen s first <;> simp <;> omega
  omega

theorem mem_of_enabled (needed : edges.countP (isEnabled s) ≤ edges.countP (· ∈ loop))
    (member : e ∈ edges) (enabled : isEnabled s e = true) : e ∈ loop := by
  by_contra outside
  have fewer := countP_lt_countP (fun e _ onLoop => agrees.enabled e (of_decide_eq_true onLoop))
    member enabled (decide_eq_false outside)
  omega

end Counting

/-! ### What the rules propose -/

theorem mem_zeroFace {updates : List Update} (h : (zeroFace graph).deduce s = .ok updates)
    (member : update ∈ updates) :
    ∃ f e, graph.hintOf f = some 0 ∧ e ∈ graph.edgesOf f ∧ isOpen s e = true ∧ update = disable e := by
  cases h
  obtain ⟨f, _, listed⟩ := List.mem_flatMap.mp (List.mem_eraseDups.mp member)
  split at listed
  next zero =>
    obtain ⟨e, border, undecided, rfl⟩ := mem_map_open listed
    exact ⟨f, e, zero, border, undecided, rfl⟩
  next => exact absurd listed List.not_mem_nil

theorem mem_exactEdgeCount {updates : List Update}
    (h : (exactEdgeCount graph).deduce s = .ok updates) (member : update ∈ updates) :
    ∃ f hint e, graph.hintOf f = some hint ∧ e ∈ graph.edgesOf f ∧ isOpen s e = true ∧
      ((markedCount s (graph.edgesOf f) : Int) = hint ∧ update = disable e ∨
        (markedCount s (graph.edgesOf f) + ((graph.edgesOf f).filter (isOpen s)).length : Nat) = hint ∧
          update = mark e) := by
  cases h
  obtain ⟨f, _, listed⟩ := List.mem_flatMap.mp (List.mem_eraseDups.mp member)
  split at listed
  next => exact absurd listed List.not_mem_nil
  next hint hinted =>
    unfold completeFace at listed
    dsimp only at listed
    split at listed
    next full =>
      obtain ⟨e, border, undecided, rfl⟩ := mem_map_open listed
      exact ⟨f, hint, e, hinted, border, undecided, .inl ⟨full, rfl⟩⟩
    next =>
      split at listed
      next needed =>
        obtain ⟨e, border, undecided, rfl⟩ := mem_map_open listed
        exact ⟨f, hint, e, hinted, border, undecided, .inr ⟨needed, rfl⟩⟩
      next => exact absurd listed List.not_mem_nil

theorem mem_twoEdgesPerVertex {updates : List Update}
    (h : (twoEdgesPerVertex graph).deduce s = .ok updates) (member : update ∈ updates) :
    ∃ v e, markedCount s (graph.edgesAt v) = 2 ∧ e ∈ graph.edgesAt v ∧ isOpen s e = true ∧
      update = disable e := by
  cases h
  obtain ⟨v, _, listed⟩ := List.mem_flatMap.mp (List.mem_eraseDups.mp member)
  dsimp only at listed
  split at listed
  next two =>
    obtain ⟨e, meets, undecided, rfl⟩ := mem_map_open listed
    exact ⟨v, e, two, meets, undecided, rfl⟩
  next => exact absurd listed List.not_mem_nil

/-- At a vertex that is passed in at most one way, the last enabled edge is disabled or the way on is
marked. -/
theorem mem_passVertex (h : update ∈ passVertex graph s v) :
    ∃ e ∈ graph.edgesAt v, isEnabled s e = true ∧
      ((graph.edgesAt v).countP (isEnabled s) = 1 ∧ update = disable e ∨
        (graph.edgesAt v).countP (isEnabled s) = 2 ∧ update = mark e ∧
          ∃ other ∈ graph.edgesAt v, isMarked s other = true) := by
  rw [List.countP_eq_length_filter]
  have known (e : Nat) (listed : e ∈ (graph.edgesAt v).filter (isEnabled s)) :
      e ∈ graph.edgesAt v ∧ isEnabled s e = true := List.mem_filter.mp listed
  unfold passVertex at h
  split at h
  next e one =>
    rw [one] at known ⊢
    obtain ⟨here, enabled⟩ := known e (by simp)
    exact ⟨e, here, enabled, .inl ⟨rfl, List.mem_singleton.mp h⟩⟩
  next e f two =>
    rw [two] at known ⊢
    obtain ⟨here, enabled⟩ := known e (by simp)
    obtain ⟨there, enabled'⟩ := known f (by simp)
    split at h
    next marked _ => exact ⟨f, there, enabled', .inr ⟨rfl, List.mem_singleton.mp h, e, here, marked⟩⟩
    next _ marked => exact ⟨e, here, enabled, .inr ⟨rfl, List.mem_singleton.mp h, f, there, marked⟩⟩
    next => exact absurd h List.not_mem_nil
  next => exact absurd h List.not_mem_nil

theorem exists_deadEnd_iff : (∃ updates, (deadEnd graph).deduce s = .ok updates) ↔
    ∀ v ∈ graph.vertexIds, looseEnd? graph s v = none := by
  rw [← List.findSome?_eq_none_iff]
  unfold deadEnd
  dsimp only
  split
  next cause found => simp [found]
  next none => simp [none]

theorem mem_deadEnd {updates : List Update} (h : (deadEnd graph).deduce s = .ok updates)
    (member : update ∈ updates) : ∃ v, update ∈ passVertex graph s v := by
  unfold deadEnd at h
  dsimp only at h
  split at h
  · exact nomatch h
  · cases h
    obtain ⟨v, _, listed⟩ := List.mem_flatMap.mp (List.mem_eraseDups.mp member)
    exact ⟨v, listed⟩

theorem mem_prematureLoop {updates : List Update}
    (h : (prematureLoop graph).deduce s = .ok updates) (member : update ∈ updates) :
    ∃ run ∈ markedRuns s graph, ∃ e, closingEdge? graph s run = some e ∧ update = disable e ∧
      (run.length < (markedRuns s graph).flatten.length ∨ hintsMet graph (e :: run) = false) := by
  cases h
  obtain ⟨run, listed, found⟩ := List.mem_filterMap.mp (List.mem_eraseDups.mp member)
  split at found
  next => exact nomatch found
  next e closing =>
    split at found
    next wrong =>
      cases found
      exact ⟨run, listed, e, closing, rfl, by simpa using wrong⟩
    next => exact nomatch found

section Shape

variable {frame : Frame} (values : frame.size = 2)
include values

theorem wellBehaved_zeroFace (graph : Graph) : (zeroFace graph).WellBehaved frame := by
  apply wellBehaved_of_decides values (fun _ => FailsOnly.ok)
  intro s updates h update member
  obtain ⟨_, e, _, _, undecided, rfl⟩ := mem_zeroFace h member
  exact decides_disable undecided

theorem wellBehaved_exactEdgeCount (graph : Graph) : (exactEdgeCount graph).WellBehaved frame := by
  apply wellBehaved_of_decides values (fun _ => FailsOnly.ok)
  intro s updates h update member
  obtain ⟨_, _, e, _, _, undecided, ⟨_, rfl⟩ | ⟨_, rfl⟩⟩ := mem_exactEdgeCount h member
  · exact decides_disable undecided
  · exact decides_mark undecided

theorem wellBehaved_twoEdgesPerVertex (graph : Graph) : (twoEdgesPerVertex graph).WellBehaved frame := by
  apply wellBehaved_of_decides values (fun _ => FailsOnly.ok)
  intro s updates h update member
  obtain ⟨_, e, _, _, undecided, rfl⟩ := mem_twoEdgesPerVertex h member
  exact decides_disable undecided

theorem wellBehaved_prematureLoop (graph : Graph) : (prematureLoop graph).WellBehaved frame := by
  apply wellBehaved_of_decides values (fun _ => FailsOnly.ok)
  intro s updates h update member
  obtain ⟨_, _, e, closing, rfl, _⟩ := mem_prematureLoop h member
  exact decides_disable (closingEdge?_eq_some closing).1

theorem wellBehaved_deadEnd (graph : Graph) : (deadEnd graph).WellBehaved frame := by
  refine wellBehaved_of_decides values (fun s => ?_) fun s updates h update member => ?_
  · unfold deadEnd
    dsimp only
    split
    next cause _ => exact FailsOnly.error ⟨cause, rfl⟩
    next => exact FailsOnly.ok
  · obtain ⟨v, proposed⟩ := mem_deadEnd h member
    obtain ⟨e, _, enabled, ⟨_, rfl⟩ | ⟨_, rfl, _⟩⟩ := mem_passVertex proposed
    · exact ⟨e, lt_count_of_isEnabled enabled, .inr rfl⟩
    · exact ⟨e, lt_count_of_isEnabled enabled, .inl rfl⟩

end Shape

/-! ### Deciding as the loop does -/

section Solved

variable (ring : graph.Ring loop) (agrees : Agrees s loop)
  (hints : ∀ f hint, graph.hintOf f = some hint →
    ((graph.edgesOf f).countP (· ∈ loop) : Int) = hint)

include hints

private theorem decidesFor_zeroFace {updates : List Update} (h : (zeroFace graph).deduce s = .ok updates)
    (member : update ∈ updates) : DecidesFor s loop update := by
  obtain ⟨f, e, zero, border, undecided, rfl⟩ := mem_zeroFace h member
  have none := List.countP_eq_zero.mp (Int.ofNat.inj (hints f 0 zero)) e border
  exact ⟨e, lt_count_of_isOpen undecided, .inr ⟨rfl, by simpa using none⟩⟩

private theorem hintsMet_of_subset (whole : loop ⊆ edges) (within : edges ⊆ loop) :
    hintsMet graph edges = true := by
  apply List.all_eq_true.mpr
  intro f _
  split
  next => rfl
  next hint hinted =>
    have same : (graph.edgesOf f).countP (· ∈ edges) = (graph.edgesOf f).countP (· ∈ loop) :=
      List.countP_congr fun e _ => by simpa using ⟨fun h => within h, fun h => whole h⟩
    rw [same, hints f hint hinted, decide_eq_true_eq]

include agrees

private theorem decidesFor_exactEdgeCount {updates : List Update}
    (h : (exactEdgeCount graph).deduce s = .ok updates) (member : update ∈ updates) :
    DecidesFor s loop update := by
  obtain ⟨f, hint, e, hinted, border, undecided, ⟨full, rfl⟩ | ⟨needed, rfl⟩⟩ :=
    mem_exactEdgeCount h member
  · have same : markedCount s (graph.edgesOf f) = (graph.edgesOf f).countP (· ∈ loop) :=
      Int.ofNat.inj (full.trans (hints f hint hinted).symm)
    exact ⟨e, lt_count_of_isOpen undecided,
      .inr ⟨rfl, not_mem_of_markedCount agrees same border undecided⟩⟩
  · have same := Int.ofNat.inj ((hints f hint hinted).trans needed.symm)
    exact ⟨e, lt_count_of_isOpen undecided, .inl ⟨rfl, mem_of_needed agrees same border undecided⟩⟩

include ring

private theorem decidesFor_prematureLoop {updates : List Update}
    (h : (prematureLoop graph).deduce s = .ok updates) (member : update ∈ updates) :
    DecidesFor s loop update := by
  obtain ⟨run, listed, e, closing, rfl, wrong⟩ := mem_prematureLoop h member
  have undecided := (closingEdge?_eq_some closing).1
  have split := split_markedRuns graph s
  refine ⟨e, lt_count_of_isOpen undecided, .inr ⟨rfl, fun onLoop => ?_⟩⟩
  have whole := subset_of_closingEdge ring agrees split listed closing onLoop
  rcases wrong with short | missed
  · have all : ∀ x, isMarked s x = true → x ∈ run := by
      intro x marked
      rcases List.mem_cons.mp (whole (agrees.marked x marked)) with rfl | onRun
      · rw [isMarked_eq_false_of_isOpen undecided] at marked
        exact Bool.noConfusion marked
      · exact onRun
    exact absurd short (Nat.not_lt.mpr (split.length_flatten_le all))
  · have within : e :: run ⊆ loop := List.cons_subset.mpr
      ⟨onLoop, fun x onRun => agrees.marked x (split.isMarked_of_mem listed onRun)⟩
    rw [hintsMet_of_subset hints whole within] at missed
    exact Bool.noConfusion missed

omit hints

private theorem decidesFor_twoEdgesPerVertex {updates : List Update}
    (h : (twoEdgesPerVertex graph).deduce s = .ok updates) (member : update ∈ updates) :
    DecidesFor s loop update := by
  obtain ⟨v, e, two, meets, undecided, rfl⟩ := mem_twoEdgesPerVertex h member
  have most := markedCount_le agrees (graph.edgesAt v)
  rw [countP_edgesAt ring.distinct] at most
  have same : markedCount s (graph.edgesAt v) = (graph.edgesAt v).countP (· ∈ loop) := by
    rw [countP_edgesAt ring.distinct]
    have := ring.degree_cases v
    omega
  exact ⟨e, lt_count_of_isOpen undecided, .inr ⟨rfl, not_mem_of_markedCount agrees same meets undecided⟩⟩

private theorem two_le_enabled (member : e ∈ loop) (ends : v ∈ graph.endsOf e) :
    2 ≤ (graph.edgesAt v).countP (isEnabled s) := by
  have most := countP_le_enabled agrees (graph.edgesAt v)
  rwa [countP_edgesAt ring.distinct, ring.two e member v ends] at most

private theorem decidesFor_deadEnd {updates : List Update} (h : (deadEnd graph).deduce s = .ok updates)
    (member : update ∈ updates) : DecidesFor s loop update := by
  obtain ⟨v, proposed⟩ := mem_deadEnd h member
  obtain ⟨e, meets, enabled, ⟨one, rfl⟩ | ⟨two, rfl, other, meets', marked⟩⟩ := mem_passVertex proposed
  · refine ⟨e, lt_count_of_isEnabled enabled, .inr ⟨rfl, fun onLoop => ?_⟩⟩
    have := two_le_enabled ring agrees onLoop (mem_edgesAt.mp meets).2
    omega
  · refine ⟨e, lt_count_of_isEnabled enabled, .inl ⟨rfl, ?_⟩⟩
    have degree := ring.two other (agrees.marked other marked) v (mem_edgesAt.mp meets').2
    rw [← countP_edgesAt ring.distinct] at degree
    exact mem_of_enabled agrees (by omega) meets enabled

private theorem looseEnd?_eq_none (v : Nat) : looseEnd? graph s v = none := by
  unfold looseEnd?
  split
  next e one =>
    apply if_neg
    intro marked
    have listed : e ∈ (graph.edgesAt v).filter (isEnabled s) := by rw [one]; simp
    have := two_le_enabled ring agrees (agrees.marked e marked)
      (mem_edgesAt.mp (List.mem_filter.mp listed).1).2
    rw [List.countP_eq_length_filter, one, List.length_singleton] at this
    omega
  next => rfl

private theorem exists_deadEnd : ∃ updates, (deadEnd graph).deduce s = .ok updates :=
  exists_deadEnd_iff.mpr fun v _ => looseEnd?_eq_none ring agrees v

/-! ### The check -/

include hints

theorem isConsistent_of_ring : isConsistent graph s = true := by
  have split := split_markedRuns graph s
  unfold isConsistent
  simp only [Bool.and_eq_true, List.all_eq_true, Bool.not_eq_true', Bool.and_eq_false_iff,
    decide_eq_true_eq]
  refine ⟨⟨fun v _ => ?_, fun f _ => ?_⟩, ?_⟩
  · have most := markedCount_le agrees (graph.edgesAt v)
    rw [countP_edgesAt ring.distinct] at most
    have := ring.degree_cases v
    omega
  · split
    next => rfl
    next hint hinted =>
      have least := markedCount_le agrees (graph.edgesOf f)
      have most := countP_le_enabled agrees (graph.edgesOf f)
      have same := hints f hint hinted
      rw [hintFits, Bool.and_eq_true, decide_eq_true_eq, decide_eq_true_eq]
      omega
  · by_contra wrong
    push Not at wrong
    obtain ⟨several, closed⟩ := wrong
    obtain ⟨run, listed, isLoop⟩ := List.any_eq_true.mp (by simpa using closed)
    have all := isMarked_mem_of_isLoop ring agrees split listed isLoop
    have single := split.length_le_one listed fun other there e here =>
      all e (split.isMarked_of_mem there here)
    have : 1 < (markedRuns s graph).length := by simpa using several
    omega

def localRules (graph : Graph) : List Rule :=
  [zeroFace graph, exactEdgeCount graph, twoEdgesPerVertex graph, deadEnd graph, prematureLoop graph]

theorem localRules_decide {rule : Rule} (listed : rule ∈ localRules graph) :
    ∃ updates, rule.deduce s = .ok updates ∧ ∀ update ∈ updates, DecidesFor s loop update := by
  rcases List.mem_cons.mp listed with rfl | listed
  · exact ⟨_, rfl, fun _ => decidesFor_zeroFace hints rfl⟩
  rcases List.mem_cons.mp listed with rfl | listed
  · exact ⟨_, rfl, fun _ => decidesFor_exactEdgeCount agrees hints rfl⟩
  rcases List.mem_cons.mp listed with rfl | listed
  · exact ⟨_, rfl, fun _ => decidesFor_twoEdgesPerVertex ring agrees rfl⟩
  rcases List.mem_cons.mp listed with rfl | listed
  · obtain ⟨updates, deduced⟩ := exists_deadEnd ring agrees
    exact ⟨updates, deduced, fun _ => decidesFor_deadEnd ring agrees deduced⟩
  cases List.mem_singleton.mp listed
  exact ⟨_, rfl, fun _ => decidesFor_prematureLoop ring agrees hints rfl⟩

end Solved

end PencilPuzzle.Loop
