import PencilPuzzle.Graph.Reference
import PencilPuzzle.Proofs.Graph.Loop

/-!
# Legal faces, and what a graph knows of them

A graph can be built exactly when its faces are legal: cycles of three or more different vertices, no
two of which are neighbours on more than two of the cycles, with hints for faces only. In a graph that
was built everything that can be looked up agrees: the edges around a face join its vertices in turn,
and what lies at an edge or a vertex is what has it on its boundary.
-/

namespace PencilPuzzle.Graph

variable {graph : Graph} {hints : Hints} {cycles : List (List Int)} {cycle : List Nat} {vertexCount : Nat}
  {e f i v w : Nat}

/-! ### Legal faces -/

/-- The two vertices follow each other on the cycle, one way round or the other. -/
def Neighbours (v w : Int) (cycle : List Int) : Prop :=
  ∃ i < cycle.length,
    cycle[i]? = some v ∧ cycle[(i + 1) % cycle.length]? = some w ∨
      cycle[i]? = some w ∧ cycle[(i + 1) % cycle.length]? = some v

instance (v w : Int) : DecidablePred (Neighbours v w) := fun cycle =>
  inferInstanceAs (Decidable (∃ i < cycle.length,
    cycle[i]? = some v ∧ cycle[(i + 1) % cycle.length]? = some w ∨
      cycle[i]? = some w ∧ cycle[(i + 1) % cycle.length]? = some v))

/-- Faces of three or more different vertices, no two of which are neighbours on more than two faces, and
hints for some of these faces. -/
structure Legal (vertexCount : Nat) (cycles : List (List Int)) (hints : Hints) : Prop where
  simple : ∀ cycle ∈ cycles, 3 ≤ cycle.length ∧ cycle.Nodup ∧ ∀ v ∈ cycle, 0 ≤ v ∧ v < vertexCount
  uncrowded : ∀ v w : Int, (cycles.countP fun cycle => Neighbours v w cycle) ≤ 2
  hinted : ∀ entry ∈ hints, 0 ≤ entry.1 ∧ entry.1 < cycles.length

theorem unknown_eq_nil_iff {count : Nat} :
    hints.unknown count = [] ↔ ∀ entry ∈ hints, 0 ≤ entry.1 ∧ entry.1 < count := by
  rw [Hints.unknown, ascending, ← List.length_eq_zero_iff, (sortBy_perm _ _).length_eq,
    List.length_eq_zero_iff, List.filter_eq_nil_iff]
  simp [isNumber]

private theorem neighbours_natCast :
    Neighbours v w (cycle.map Int.ofNat) ↔ Edge.joining v w ∈ sides cycle := by
  have place (i u : Nat) : (cycle.map Int.ofNat)[i]? = some (u : Int) ↔ cycle[i]? = some u := by
    rw [List.getElem?_map, Option.map_eq_some_iff]
    exact ⟨fun ⟨_, here, same⟩ => Int.ofNat.inj same ▸ here, fun here => ⟨u, here, rfl⟩⟩
  simp only [Neighbours, List.length_map, place, mem_sides]
  constructor
  · rintro ⟨i, inside, ⟨here, next⟩ | ⟨here, next⟩⟩
    · exact ⟨i, v, w, here, placeAfter_eq_mod inside ▸ next, rfl⟩
    · exact ⟨i, w, v, here, placeAfter_eq_mod inside ▸ next, Edge.joining_comm v w⟩
  · rintro ⟨i, x, y, here, next, same⟩
    have inside := (List.getElem?_eq_some_iff.mp here).1
    rw [placeAfter_eq_mod inside] at next
    rcases Edge.joining_eq_joining.mp same with ⟨rfl, rfl⟩ | ⟨rfl, rfl⟩
    · exact ⟨i, inside, .inl ⟨here, next⟩⟩
    · exact ⟨i, inside, .inr ⟨here, next⟩⟩

theorem Neighbours.mem {v w : Int} {cycle : List Int} (neighbours : Neighbours v w cycle) :
    v ∈ cycle ∧ w ∈ cycle := by
  obtain ⟨i, _, ⟨here, next⟩ | ⟨here, next⟩⟩ := neighbours
  · exact ⟨List.mem_of_getElem? here, List.mem_of_getElem? next⟩
  · exact ⟨List.mem_of_getElem? next, List.mem_of_getElem? here⟩

private theorem map_ofNat_map_toNat {cycle : List Int} (natural : ∀ v ∈ cycle, 0 ≤ v) :
    (cycle.map Int.toNat).map Int.ofNat = cycle := by
  rw [List.map_map]
  exact (List.map_congr_left fun v here => Int.toNat_of_nonneg (natural v here)).trans (List.map_id cycle)

theorem length_facesOf (laid : Laid graph.edges graph.faces)
    (here : graph.edges[e]? = some (Edge.joining v w)) :
    (graph.facesOf e).length =
      (graph.faces.toList.map Face.vertices).countP fun cycle => Edge.joining v w ∈ sides cycle := by
  rw [facesOf_eq, ← List.countP_eq_length_filter, ← map_verticesOf, List.countP_map]
  refine List.countP_congr fun f _ => ?_
  rw [decide_eq_true_eq, mem_edgesOf_of_around laid.distinct (laid.edgesOf f), here]
  simp

/-- No edge has a third face exactly if no two vertices are neighbours on three faces. -/
theorem crowded?_ofCycles_iff (natural : ∀ cycle ∈ cycles, ∀ v ∈ cycle, 0 ≤ v) :
    (ofCycles vertexCount (cycles.map (·.map Int.toNat)) hints).crowded? = none ↔
      ∀ v w : Int, (cycles.countP fun cycle => Neighbours v w cycle) ≤ 2 := by
  have laid := laid_ofCycles vertexCount (cycles.map (·.map Int.toNat)) hints
  have listed := vertices_ofCycles vertexCount (cycles.map (·.map Int.toNat)) hints
  generalize ofCycles vertexCount (cycles.map (·.map Int.toNat)) hints = graph at *
  have cast {cycle : List Int} (member : cycle ∈ cycles) : (cycle.map Int.toNat).map Int.ofNat = cycle :=
    map_ofNat_map_toNat (natural cycle member)
  have count {e v w : Nat} (here : graph.edges[e]? = some (Edge.joining v w)) :
      (graph.facesOf e).length = cycles.countP fun cycle => Neighbours v w cycle := by
    rw [length_facesOf laid here, listed, List.countP_map]
    refine List.countP_congr fun cycle member => ?_
    simp only [Function.comp_apply, decide_eq_true_eq]
    rw [← neighbours_natCast, cast member]
  rw [crowded?_eq_none_iff laid]
  constructor
  · intro few v w
    by_contra many
    -- Vertices that are neighbours anywhere are joined by an edge.
    obtain ⟨cycle, member, neighbours⟩ := List.countP_pos_iff.mp (Nat.zero_lt_of_lt (Nat.lt_of_not_le many))
    have neighbours : Neighbours v w cycle := of_decide_eq_true neighbours
    obtain ⟨v, rfl⟩ := Int.eq_ofNat_of_zero_le (natural cycle member v neighbours.mem.1)
    obtain ⟨w, rfl⟩ := Int.eq_ofNat_of_zero_le (natural cycle member w neighbours.mem.2)
    rw [← cast member, neighbours_natCast] at neighbours
    have isFace : cycle.map Int.toNat ∈ graph.faceIds.map graph.verticesOf := by
      rw [map_verticesOf, listed]
      exact List.mem_map_of_mem member
    obtain ⟨f, _, same⟩ := List.mem_map.mp isFace
    rw [← same] at neighbours
    obtain ⟨e, _, here⟩ := exists_edge_of_around (laid.edgesOf f) neighbours
    exact many (count here ▸ few e)
  · intro few e
    by_contra many
    obtain ⟨f, member⟩ := List.exists_mem_of_length_pos (by omega : 0 < (graph.facesOf e).length)
    obtain ⟨side, isSide, here⟩ := getElem?_of_around (laid.edgesOf f) (mem_facesOf.mp member).2
    obtain ⟨_, v, w, _, _, rfl⟩ := mem_sides.mp isSide
    exact many (count here ▸ few v w)

theorem exists_build_iff :
    (∃ graph, build vertexCount cycles hints = .ok graph) ↔ Legal vertexCount cycles hints := by
  simp only [build_eq_ok_iff, faultyCycle?_eq_none_iff]
  constructor
  · rintro ⟨graph, simple, rfl, uncrowded, known⟩
    have natural : ∀ cycle ∈ cycles, ∀ v ∈ cycle, 0 ≤ v := fun cycle member v here =>
      ((simple cycle member).2.2 v here).1
    rw [size_ofCycles, List.length_map, unknown_eq_nil_iff] at known
    exact ⟨simple, (crowded?_ofCycles_iff natural).mp uncrowded, known⟩
  · intro legal
    have natural : ∀ cycle ∈ cycles, ∀ v ∈ cycle, 0 ≤ v := fun cycle member v here =>
      ((legal.simple cycle member).2.2 v here).1
    refine ⟨_, legal.simple, rfl, (crowded?_ofCycles_iff natural).mpr legal.uncrowded, ?_⟩
    rw [size_ofCycles, List.length_map, unknown_eq_nil_iff]
    exact legal.hinted

/-! ### Looking things up -/

/-- The number of a thing finds it, and no other number finds anything. -/
theorem resolve_natCast_eq_ok {length n m : Nat} : resolve length n = .ok m ↔ n < length ∧ n = m := by
  unfold resolve
  split
  next inside =>
    rw [Except.ok.injEq, Int.toNat_natCast]
    exact (and_iff_right (by omega)).symm
  next outside =>
    rw [if_neg (by omega)]
    refine iff_of_false (fun found => ?_) (by omega)
    split at found <;> exact nomatch found

theorem resolve_natCast {length n : Nat} (inside : n < length) : resolve length n = .ok n :=
  resolve_natCast_eq_ok.mpr ⟨inside, rfl⟩

theorem lookup_eq_ok {α : Type} {length n : Nat} {query : Nat → α} {a : α} :
    (do return query (← resolve length n)) = Except.ok a ↔ n < length ∧ query n = a := by
  by_cases inside : n < length
  · rw [resolve_natCast inside, and_iff_right inside]
    exact ⟨Except.ok.inj, congrArg Except.ok⟩
  · refine iff_of_false (fun found => ?_) fun known => inside known.1
    cases resolved : resolve length n with
    | ok m => exact inside (resolve_natCast_eq_ok.mp resolved).1
    | error fault =>
      rw [resolved] at found
      exact nomatch found

theorem mem_lookup_iff {α : Type} {length n : Nat} {query : Nat → List α} {a : α} :
    (∃ found, (do return query (← resolve length n)) = Except.ok found ∧ a ∈ found) ↔
      n < length ∧ a ∈ query n := by
  simp only [lookup_eq_ok, and_assoc, exists_and_left, exists_eq_left']

private theorem direct?_eq_some {reference : Int} {n : Nat} :
    direct? reference = some n ↔ reference = n := by
  rw [direct?, Option.ite_none_right_eq_some, Option.some.injEq]
  omega

namespace WellFormed

variable (wellFormed : graph.WellFormed)
include wellFormed

theorem edgeBetween_eq_some_iff {v w : Nat} :
    graph.edgeBetween v w = some e ↔ graph.edges[e]? = some (Edge.joining v w) := by
  refine ⟨edgeBetween_eq_some, fun here => ?_⟩
  rw [edgeBetween, lastIndex?, lastIndexBelow?_eq_some]
  refine ⟨(Array.getElem?_eq_some_iff.mp here).1, here, fun later beyond _ again => ?_⟩
  exact absurd (wellFormed.distinct e later _ here again) (Nat.ne_of_lt beyond)

theorem reference_edgeBetween_eq_some_iff {v w : Int} :
    Reference.edgeBetween graph v w = some e ↔
      ∃ x y : Nat, v = x ∧ w = y ∧ graph.edges[e]? = some (Edge.joining x y) := by
  simp only [← wellFormed.edgeBetween_eq_some_iff, ← direct?_eq_some]
  unfold Reference.edgeBetween
  split
  next x y here there => simp [here, there]
  next outside =>
    refine iff_of_false nofun ?_
    rintro ⟨x, y, here, there, _⟩
    exact outside x y here there

theorem getElem?_edgesOf (here : (graph.edgesOf f)[i]? = some e) :
    ∃ v w, (graph.verticesOf f)[i]? = some v ∧
      (graph.verticesOf f)[(i + 1) % (graph.verticesOf f).length]? = some w ∧
      graph.edges[e]? = some (Edge.joining v w) := by
  have listed : ((graph.edgesOf f).map (graph.edges[·]?))[i]? = some graph.edges[e]? := by
    rw [List.getElem?_map, here]
    rfl
  rw [wellFormed.around, List.getElem?_map, Option.map_eq_some_iff] at listed
  obtain ⟨side, isSide, numbered⟩ := listed
  obtain ⟨v, w, first, second, rfl⟩ := getElem?_sides.mp isSide
  rw [placeAfter_eq_mod (List.getElem?_eq_some_iff.mp first).1] at second
  exact ⟨v, w, first, second, numbered.symm⟩

theorem length_edgesOf (f : Nat) : (graph.edgesOf f).length = (graph.verticesOf f).length := by
  have same := congrArg List.length (wellFormed.around f)
  rwa [List.length_map, List.length_map, length_sides] at same

theorem length_facesOf_eq (inside : e < graph.edges.size) :
    (graph.facesOf e).length = 1 ∨ (graph.facesOf e).length = 2 := by
  obtain ⟨f, member⟩ := wellFormed.bordered e inside
  have some := List.length_pos_of_mem (mem_facesOf_of_mem member)
  have few := wellFormed.shared e
  omega

theorem nodup_edges : graph.edges.toList.Nodup :=
  Distinct.nodup_toList wellFormed.distinct

end WellFormed

/-- Whatever is looked up by number in a graph with the given cycles. -/
structure Indexed (vertexCount : Nat) (cycles : List (List Int)) (graph : Graph) : Prop where
  count : graph.vertexCount = vertexCount
  cycle : ∀ (f : Nat) vertices,
    Reference.verticesOf graph f = .ok vertices ↔ cycles[f]? = some (vertices.map Int.ofNat)
  distinct : graph.edges.toList.Nodup
  ordered : ∀ edge ∈ graph.edges, edge.start < edge.stop
  around : ∀ (f : Nat) vertices, Reference.verticesOf graph f = .ok vertices →
    ∃ edges, Reference.edgesOf graph f = .ok edges ∧ edges.length = vertices.length ∧
      ∀ i e : Nat, edges[i]? = some e → ∃ v w, vertices[i]? = some v ∧
        vertices[(i + 1) % vertices.length]? = some w ∧ graph.edges[e]? = some (Edge.joining v w)
  facesOf : ∀ e < graph.edges.size, ∃ faces, Reference.facesOf graph e = .ok faces ∧
    faces.Pairwise (· < ·) ∧ (faces.length = 1 ∨ faces.length = 2) ∧
      ∀ f : Nat, f ∈ faces ↔ ∃ edges, Reference.edgesOf graph f = .ok edges ∧ e ∈ edges
  edgesAt : ∀ v < vertexCount, ∃ edges, Reference.edgesAt graph v = .ok edges ∧
    edges.Pairwise (· < ·) ∧
      ∀ e : Nat, e ∈ edges ↔ ∃ edge, graph.edges[e]? = some edge ∧ (edge.start = v ∨ edge.stop = v)
  facesAt : ∀ v < vertexCount, ∃ faces, Reference.facesAt graph v = .ok faces ∧
    faces.Pairwise (· < ·) ∧
      ∀ f : Nat, f ∈ faces ↔ ∃ vertices, Reference.verticesOf graph f = .ok vertices ∧ v ∈ vertices
  edgeBetween : ∀ (v w : Int) (e : Nat), Reference.edgeBetween graph v w = some e ↔
    ∃ x y : Nat, v = x ∧ w = y ∧ graph.edges[e]? = some (Edge.joining x y)

private theorem verticesOf_of_build (built : build vertexCount cycles hints = .ok graph) :
    graph.faceIds.map (fun f => (graph.verticesOf f).map Int.ofNat) = cycles := by
  obtain ⟨sound, rfl, _⟩ := build_eq_ok built
  have listed := map_verticesOf (ofCycles vertexCount (cycles.map (·.map Int.toNat)) hints)
  rw [vertices_ofCycles] at listed
  have again := congrArg (List.map (List.map Int.ofNat)) listed
  rw [List.map_map, List.map_map] at again
  refine again.trans ((List.map_congr_left fun cycle member => ?_).trans (List.map_id cycles))
  exact map_ofNat_map_toNat fun v here => ((sound cycle member).2.2 v here).1

theorem verticesOf_reference (built : build vertexCount cycles hints = .ok graph) {vertices : List Nat} :
    Reference.verticesOf graph f = .ok vertices ↔ cycles[f]? = some (vertices.map Int.ofNat) := by
  have inj : Function.Injective (List.map Int.ofNat) := List.map_injective_iff.mpr fun _ _ => Int.ofNat.inj
  rw [← verticesOf_of_build built, List.getElem?_map, faceIds, Option.map_eq_some_iff]
  refine lookup_eq_ok.trans ?_
  constructor
  · rintro ⟨inside, rfl⟩
    exact ⟨f, List.getElem?_range inside, rfl⟩
  · rintro ⟨g, here, same⟩
    obtain ⟨inside, rfl⟩ := List.getElem?_eq_some_iff.mp here
    rw [List.getElem_range] at same
    rw [List.length_range] at inside
    exact ⟨inside, inj same⟩

/-- Legal faces, and only these, make a graph, and everything in it is found under its number. -/
theorem build_indexed (vertexCount : Nat) (cycles : List (List Int)) (hints : Hints) :
    ((∃ graph, build vertexCount cycles hints = .ok graph) ↔ Legal vertexCount cycles hints) ∧
      ∀ graph, build vertexCount cycles hints = .ok graph → Indexed vertexCount cycles graph := by
  refine ⟨exists_build_iff, fun graph built => ?_⟩
  have wellFormed := wellFormed_of_build built
  have count : graph.vertexCount = vertexCount := by
    obtain ⟨_, rfl, _⟩ := build_eq_ok built
    rfl
  have ascending {count : Nat} (test : Nat → Bool) :
      ((List.range count).filter test).Pairwise (· < ·) := List.pairwise_lt_range.filter test
  refine ⟨count, fun f vertices => verticesOf_reference built, wellFormed.nodup_edges,
    fun edge member => ?_, fun f vertices found => ?_, fun e inside => ?_, fun v inside => ?_,
    fun v inside => ?_, fun v w e => wellFormed.reference_edgeBetween_eq_some_iff⟩
  · obtain ⟨e, here⟩ := Array.mem_iff_getElem?.mp member
    exact wellFormed.edge_ordered here
  · obtain ⟨inside, rfl⟩ := lookup_eq_ok.mp found
    exact ⟨_, lookup_eq_ok.mpr ⟨inside, rfl⟩, wellFormed.length_edgesOf f,
      fun i e here => wellFormed.getElem?_edgesOf here⟩
  · refine ⟨_, lookup_eq_ok.mpr ⟨inside, rfl⟩, ?_, wellFormed.length_facesOf_eq inside, fun f => ?_⟩
    · rw [facesOf_eq]
      exact ascending _
    · exact mem_facesOf.trans mem_lookup_iff.symm
  · refine ⟨_, lookup_eq_ok.mpr ⟨count ▸ inside, rfl⟩, ?_, fun e => ?_⟩
    · rw [edgesAt_eq]
      exact ascending _
    · rw [mem_edgesAt, mem_endsOf]
      constructor
      · rintro ⟨_, edge, here, ends⟩
        exact ⟨edge, here, by simpa [Edge.ends, eq_comm] using ends⟩
      · rintro ⟨edge, here, ends⟩
        exact ⟨(Array.getElem?_eq_some_iff.mp here).1, edge, here,
          by simpa [Edge.ends, eq_comm] using ends⟩
  · refine ⟨_, lookup_eq_ok.mpr ⟨count ▸ inside, rfl⟩, ?_, fun f => ?_⟩
    · rw [facesAt_eq]
      exact ascending _
    · rw [facesAt_eq, List.mem_filter, faceIds, List.mem_range, decide_eq_true_eq]
      exact mem_lookup_iff.symm

/-- Two squares side by side are legal, and the edge between them has both faces. A third face on that edge
is one too many. -/
theorem build_indexed_squares :
    Legal 6 [[0, 1, 2, 3], [1, 4, 5, 2]] [(0, some 3)] ∧
      (∃ graph, build 6 [[0, 1, 2, 3], [1, 4, 5, 2]] [(0, some 3)] = .ok graph ∧
        Indexed 6 [[0, 1, 2, 3], [1, 4, 5, 2]] graph ∧
          Reference.edgeBetween graph 2 1 = some 1 ∧ Reference.facesOf graph 1 = .ok [0, 1]) ∧
      ¬ Legal 6 [[0, 1, 2, 3], [1, 4, 5, 2], [1, 0, 2]] [] := by
  have built : build 6 [[0, 1, 2, 3], [1, 4, 5, 2]] [(0, some 3)] =
      .ok (ofCycles 6 [[0, 1, 2, 3], [1, 4, 5, 2]] [(0, some 3)]) := by decide
  have refused : build 6 [[0, 1, 2, 3], [1, 4, 5, 2], [1, 0, 2]] [] =
      .error (.graph (.crowdedEdge 1 1 2 [0, 1, 2])) := by decide
  refine ⟨(build_indexed 6 _ _).1.mp ⟨_, built⟩, ⟨_, built, (build_indexed 6 _ _).2 _ built, by decide,
    by decide⟩, fun legal => ?_⟩
  obtain ⟨graph, accepted⟩ := (build_indexed 6 _ _).1.mpr legal
  exact nomatch refused.symm.trans accepted

end PencilPuzzle.Graph
