import PencilPuzzle.Proofs.Graph.Index

/-!
# Loops by their vertices

A list of edges is recognised as a loop exactly when one can go once around over three or more different
vertices, from each to the next and from the last to the first, and the edges passed on the way are those
of the list. How often and in which order the list names them does not matter.
-/

namespace PencilPuzzle.Graph

variable {graph : Graph} {names : List Int} {edges others cycle : List Nat} {side : Edge} {k : Nat}
  {v : Nat → Nat}

/-! ### Lists of references -/

private theorem edges_natCast (inRange : ∀ name ∈ names, ∃ e < graph.edges.size, name = (e : Int)) :
    ∃ found, Reference.edges graph names = .ok found := by
  induction names with
  | nil => exact ⟨[], rfl⟩
  | cons name rest ih =>
    obtain ⟨⟨e, inside, rfl⟩, others⟩ := List.forall_mem_cons.mp inRange
    obtain ⟨found, here⟩ := ih others
    refine ⟨e :: found, ?_⟩
    rw [Reference.edges, Reference.edge, resolve_natCast inside, here]
    rfl

private theorem isLoop_of_length_lt (short : edges.eraseDups.length < 3) : graph.isLoop edges = false := by
  rw [Bool.eq_false_iff]
  intro loop
  have long := (isLoop_iff_ring.mp loop).long
  omega

theorem isLoop_congr (wellFormed : graph.WellFormed) (same : ∀ e, e ∈ edges ↔ e ∈ others) :
    graph.isLoop edges = graph.isLoop others := by
  rw [Bool.eq_iff_iff, isLoop_iff wellFormed, isLoop_iff wellFormed]
  refine exists_congr fun cycle => ⟨fun traces => ?_, fun traces => ?_⟩
  · exact ⟨traces.distinct, traces.long, traces.whole, fun e => (same e).symm.trans (traces.mem_iff e)⟩
  · exact ⟨traces.distinct, traces.long, traces.whole, fun e => (same e).trans (traces.mem_iff e)⟩

/-- Repeats are dropped before the edges are looked at, and that changes nothing. -/
theorem isLoop_reference (wellFormed : graph.WellFormed)
    (inRange : ∀ e ∈ edges, e < graph.edges.size) :
    Reference.isLoop graph (edges.map Int.ofNat) = .ok (graph.isLoop edges) := by
  have distinct := nodup_eraseDups (edges.map Int.ofNat)
  have listed (name : Int) : name ∈ (edges.map Int.ofNat).eraseDups ↔ ∃ e ∈ edges, Int.ofNat e = name := by
    rw [List.mem_eraseDups, List.mem_map]
  have perm : ((edges.map Int.ofNat).eraseDups.map Int.toNat).Perm edges.eraseDups := by
    refine (List.perm_ext_iff_of_nodup (distinct.map_on ?_) (nodup_eraseDups edges)).mpr fun e => ?_
    · intro name here other there same
      obtain ⟨e, _, rfl⟩ := (listed name).mp here
      obtain ⟨f, _, rfl⟩ := (listed other).mp there
      exact congrArg Int.ofNat same
    · simp only [List.mem_map, listed, List.mem_eraseDups]
      exact ⟨fun ⟨_, ⟨f, member, rfl⟩, same⟩ => same ▸ member, fun member => ⟨_, ⟨e, member, rfl⟩, rfl⟩⟩
  have length := perm.length_eq
  rw [List.length_map] at length
  unfold Reference.isLoop
  dsimp only
  split
  next short => rw [isLoop_of_length_lt (length ▸ short)]
  next long =>
    have known : ∀ name ∈ (edges.map Int.ofNat).eraseDups, ∃ e < graph.edges.size, name = (e : Int) := by
      intro name here
      obtain ⟨e, member, rfl⟩ := (listed name).mp here
      exact ⟨e, inRange e member, rfl⟩
    obtain ⟨found, looked⟩ := edges_natCast known
    have natural : (edges.map Int.ofNat).eraseDups.any (· < 0) = false := by
      refine List.any_eq_false.mpr fun name member => ?_
      obtain ⟨e, _, rfl⟩ := (listed name).mp member
      simp
    rw [looked, natural]
    refine congrArg Except.ok (isLoop_congr wellFormed fun e => ?_)
    rw [perm.mem_iff, List.mem_eraseDups]

/-! ### Going around -/

/-- Different vertices, three or more, such that an edge joins each to the next one around, and the edges
passed are those of the list. -/
structure Circuit (graph : Graph) (edges : List Nat) (k : Nat) (v : Nat → Nat) : Prop where
  long : 3 ≤ k
  distinct : ∀ i < k, ∀ j < k, v i = v j → i = j
  joined : ∀ i < k, ∃ e, graph.edgeBetween (v i) (v ((i + 1) % k)) = some e
  mem_iff : ∀ e, e ∈ edges ↔ ∃ i < k, graph.edgeBetween (v i) (v ((i + 1) % k)) = some e

theorem mem_sides_map_range :
    side ∈ sides ((List.range k).map v) ↔ ∃ i < k, side = Edge.joining (v i) (v ((i + 1) % k)) := by
  have place (i x : Nat) : ((List.range k).map v)[i]? = some x ↔ i < k ∧ v i = x := by
    simp [List.getElem?_map, Option.map_eq_some_iff, List.getElem?_eq_some_iff]
  simp only [mem_sides, place, List.length_map, List.length_range]
  constructor
  · rintro ⟨i, _, _, ⟨inside, rfl⟩, ⟨_, rfl⟩, rfl⟩
    exact ⟨i, inside, by rw [placeAfter_eq_mod inside]⟩
  · rintro ⟨i, inside, rfl⟩
    exact ⟨i, _, _, ⟨inside, rfl⟩, ⟨placeAfter_lt inside, rfl⟩, by rw [placeAfter_eq_mod inside]⟩

theorem traces_map_range_iff (wellFormed : graph.WellFormed) :
    graph.Traces edges ((List.range k).map v) ↔ graph.Circuit edges k v := by
  have passed (e : Nat) : (∃ side ∈ sides ((List.range k).map v), graph.edges[e]? = some side) ↔
      ∃ i < k, graph.edgeBetween (v i) (v ((i + 1) % k)) = some e := by
    simp [mem_sides_map_range, wellFormed.edgeBetween_eq_some_iff]
  have length : ((List.range k).map v).length = k := by simp
  constructor
  · intro traces
    refine ⟨length ▸ traces.long, fun i inside j bound same => ?_, fun i inside => ?_,
      fun e => (traces.mem_iff e).trans (passed e)⟩
    · exact List.inj_on_of_nodup_map traces.distinct (List.mem_range.mpr inside)
        (List.mem_range.mpr bound) same
    · obtain ⟨e, here⟩ := traces.whole _ (mem_sides_map_range.mpr ⟨i, inside, rfl⟩)
      exact ⟨e, wellFormed.edgeBetween_eq_some_iff.mpr here⟩
  · intro circuit
    refine ⟨List.nodup_range.map_on fun i inside j bound same => ?_, length.symm ▸ circuit.long,
      fun side isSide => ?_, fun e => (circuit.mem_iff e).trans (passed e).symm⟩
    · exact circuit.distinct i (List.mem_range.mp inside) j (List.mem_range.mp bound) same
    · obtain ⟨i, inside, rfl⟩ := mem_sides_map_range.mp isSide
      obtain ⟨e, here⟩ := circuit.joined i inside
      exact ⟨e, wellFormed.edgeBetween_eq_some_iff.mp here⟩

theorem exists_traces_iff (wellFormed : graph.WellFormed) :
    (∃ cycle, graph.Traces edges cycle) ↔ ∃ k v, graph.Circuit edges k v := by
  constructor
  · rintro ⟨cycle, traces⟩
    have numbered : (List.range cycle.length).map (cycle.getD · 0) = cycle := by
      refine List.ext_getElem (by simp) fun i _ inside => ?_
      simp [List.getElem?_eq_getElem inside]
    exact ⟨cycle.length, (cycle.getD · 0), (traces_map_range_iff wellFormed).mp (numbered.symm ▸ traces)⟩
  · rintro ⟨k, v, circuit⟩
    exact ⟨_, (traces_map_range_iff wellFormed).mpr circuit⟩

/-- Whether edges of a built graph are a loop is always answered, and the answer is yes exactly if one can
go around on them. -/
theorem isLoop_iff_circuit {vertexCount : Nat} {cycles : List (List Int)} {hints : Hints}
    (built : build vertexCount cycles hints = .ok graph) (inRange : ∀ e ∈ edges, e < graph.edges.size) :
    ∃ verdict, Reference.isLoop graph (edges.map Int.ofNat) = .ok verdict ∧
      (verdict = true ↔ ∃ k v, graph.Circuit edges k v) := by
  have wellFormed := wellFormed_of_build built
  refine ⟨_, isLoop_reference wellFormed inRange, ?_⟩
  rw [isLoop_iff wellFormed, exists_traces_iff wellFormed]

/-- The sides of a triangle are a loop, also when one is named twice; those of two triangles are not. -/
theorem isLoop_iff_circuit_triangles :
    let triangles := ofCycles 6 [[0, 1, 2], [3, 4, 5]] []
    (∃ k v, triangles.Circuit [0, 1, 2, 0] k v) ∧ ¬ ∃ k v, triangles.Circuit [0, 1, 2, 3, 4, 5] k v := by
  intro triangles
  have built : build 6 [[0, 1, 2], [3, 4, 5]] [] = .ok triangles := by decide
  obtain ⟨one, found, recognised⟩ := isLoop_iff_circuit built (by decide : ∀ e ∈ [0, 1, 2, 0], e < 6)
  obtain ⟨two, found', recognised'⟩ :=
    isLoop_iff_circuit built (by decide : ∀ e ∈ [0, 1, 2, 3, 4, 5], e < 6)
  have yes : Reference.isLoop triangles ([0, 1, 2, 0].map Int.ofNat) = .ok true := by decide
  have no : Reference.isLoop triangles ([0, 1, 2, 3, 4, 5].map Int.ofNat) = .ok false := by decide
  cases found.symm.trans yes
  cases found'.symm.trans no
  exact ⟨recognised.mp rfl, fun circuit => Bool.noConfusion (recognised'.mpr circuit)⟩

end PencilPuzzle.Graph
