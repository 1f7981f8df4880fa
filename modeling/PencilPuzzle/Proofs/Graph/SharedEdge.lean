import PencilPuzzle.Graph.FaceSet
import PencilPuzzle.Proofs.Graph.Index
import PencilPuzzle.Proofs.Sorted

/-!
# Edges between faces

Asked for the edge between two faces, a graph answers with the first one on the way around the face named
first. Where faces have several edges in common the answer can therefore change with the order of the
names. Where they meet in single edges it cannot, and then all edges between two sets of faces are found.
-/

namespace PencilPuzzle

namespace Graph

variable {graph : Graph} {hints : Hints} {cycles : List (List Int)} {faces others : List Nat}
  {vertexCount e f g : Nat}

def Between (graph : Graph) (f g e : Nat) : Prop :=
  ∃ faces, Reference.facesOf graph e = .ok faces ∧ f ∈ faces ∧ g ∈ faces

/-- On the way around a face, the first edge that belongs to the other one as well. -/
def FirstBetween (graph : Graph) (f g e : Nat) : Prop :=
  ∃ edges, ∃ i : Nat, Reference.edgesOf graph f = .ok edges ∧ edges[i]? = some e ∧
    graph.Between f g e ∧ ∀ j < i, ∀ d, edges[j]? = some d → ¬ graph.Between f g d

theorem facesOf_eq_pair (wellFormed : graph.WellFormed) (different : f ≠ g)
    (here : e ∈ graph.edgesOf f) (there : e ∈ graph.edgesOf g) :
    graph.facesOf e = [f, g] ∨ graph.facesOf e = [g, f] := by
  have listed := mem_facesOf_of_mem there
  obtain one | ⟨h, _, two⟩ := wellFormed.facesOf_cases here
  · rw [one, List.mem_singleton] at listed
    exact absurd listed.symm different
  · have same : g = h := by
      rcases two with two | two <;> simpa [two, different.symm] using listed
    exact same ▸ two

theorem sharedEdge_eq_some (h : graph.sharedEdge f g = some e) :
    f ≠ g ∧ e ∈ graph.edgesOf f ∧ e ∈ graph.edgesOf g := by
  unfold sharedEdge at h
  split at h
  · exact nomatch h
  next different =>
    exact ⟨different, List.mem_of_find?_eq_some h, by simpa using List.find?_some h⟩

theorem sharedEdge_eq_none_iff (different : f ≠ g) :
    graph.sharedEdge f g = none ↔ ∀ e ∈ graph.edgesOf f, e ∉ graph.edgesOf g := by
  rw [sharedEdge, if_neg different, List.find?_eq_none]
  simp

theorem sharedEdge_eq_some_iff (different : f ≠ g) :
    graph.sharedEdge f g = some e ↔ ∃ i : Nat, (graph.edgesOf f)[i]? = some e ∧ e ∈ graph.edgesOf g ∧
      ∀ j < i, ∀ d, (graph.edgesOf f)[j]? = some d → d ∉ graph.edgesOf g := by
  rw [sharedEdge, if_neg different, List.find?_eq_some_iff_getElem]
  constructor
  · rintro ⟨shared, i, inside, rfl, earlier⟩
    refine ⟨i, List.getElem?_eq_getElem inside, of_decide_eq_true shared, fun j before d here => ?_⟩
    obtain ⟨_, rfl⟩ := List.getElem?_eq_some_iff.mp here
    simpa using earlier j before
  · rintro ⟨i, here, shared, earlier⟩
    obtain ⟨inside, rfl⟩ := List.getElem?_eq_some_iff.mp here
    refine ⟨decide_eq_true shared, i, inside, rfl, fun j before => ?_⟩
    simpa using earlier j before _ (List.getElem?_eq_getElem (Nat.lt_trans before inside))

theorem mem_edgesBetween :
    e ∈ graph.edgesBetween faces others ↔ ∃ f ∈ faces, ∃ g ∈ others, graph.sharedEdge f g = some e := by
  rw [edgesBetween, mem_ascendingSet, List.mem_flatMap]
  simp only [List.mem_filterMap]

theorem reference_sharedEdge (inside : f < graph.faces.size) (inside' : g < graph.faces.size) :
    Reference.sharedEdge graph f g = .ok (graph.sharedEdge f g) := by
  unfold Reference.sharedEdge sharedEdge
  by_cases same : f = g
  · rw [if_pos (congrArg Nat.cast same), if_pos same]
  · rw [if_neg (mt Int.ofNat_inj.mp same), if_neg same, Reference.face, Reference.face,
      resolve_natCast inside, resolve_natCast inside']
    rfl

/-! ### The order of the names -/

section Order

variable (wellFormed : graph.WellFormed)
include wellFormed

theorem WellFormed.between_iff : graph.Between f g e ↔ e ∈ graph.edgesOf f ∧ e ∈ graph.edgesOf g := by
  unfold Between Reference.facesOf Reference.edge
  simp only [lookup_eq_ok, and_assoc, exists_and_left, exists_eq_left', mem_facesOf]
  exact ⟨fun between => ⟨between.2.2.1, between.2.2.2.2⟩, fun both => ⟨wellFormed.lt_size both.1,
    lt_of_mem_edgesOf both.1, both.1, lt_of_mem_edgesOf both.2, both.2⟩⟩

theorem WellFormed.firstBetween_iff (inside : f < graph.faces.size) (different : f ≠ g) :
    graph.FirstBetween f g e ↔ graph.sharedEdge f g = some e := by
  unfold FirstBetween Reference.edgesOf Reference.face
  simp only [lookup_eq_ok, and_assoc, exists_and_left, exists_eq_left', wellFormed.between_iff,
    sharedEdge_eq_some_iff different]
  rw [and_iff_right inside]
  refine exists_congr fun i => and_congr_right fun here => ?_
  rw [and_iff_right (List.mem_of_getElem? here)]
  refine and_congr_right fun _ => forall₂_congr fun j _ => forall₂_congr fun d there => ?_
  rw [and_iff_right (List.mem_of_getElem? there)]

private theorem WellFormed.sharedEdge_eq_none_iff_between (different : f ≠ g) :
    graph.sharedEdge f g = none ↔ ∀ e, ¬ graph.Between f g e := by
  simp only [sharedEdge_eq_none_iff different, wellFormed.between_iff, not_and]

end Order

private theorem sharedEdge_comm_of_single
    (single : ∀ d e, d ∈ graph.edgesOf f ∧ d ∈ graph.edgesOf g →
      e ∈ graph.edgesOf f ∧ e ∈ graph.edgesOf g → d = e) :
    graph.sharedEdge f g = graph.sharedEdge g f := by
  by_cases same : f = g
  · rw [same]
  · cases here : graph.sharedEdge f g with
    | none =>
      rw [sharedEdge_eq_none_iff same] at here
      exact ((sharedEdge_eq_none_iff (Ne.symm same)).mpr fun e there back => here e back there).symm
    | some d =>
      obtain ⟨_, first, second⟩ := sharedEdge_eq_some here
      cases there : graph.sharedEdge g f with
      | none => exact absurd first ((sharedEdge_eq_none_iff (Ne.symm same)).mp there d second)
      | some e =>
        obtain ⟨_, second', first'⟩ := sharedEdge_eq_some there
        rw [single d e ⟨first, second⟩ ⟨first', second'⟩]

/-- Two faces answer with the first common edge on the way around the one named first, and with none exactly
if they have none in common. Both orders of the names have the same answer exactly if some edge comes first on
both ways or there is none; so it is where no second edge lies between the faces. -/
theorem sharedEdge_comm_iff (built : build vertexCount cycles hints = .ok graph)
    (inside : f < graph.faces.size) (inside' : g < graph.faces.size) (different : f ≠ g) :
    ∃ shared shared', Reference.sharedEdge graph f g = .ok shared ∧
      Reference.sharedEdge graph g f = .ok shared' ∧
      (∀ e, shared = some e ↔ graph.FirstBetween f g e) ∧
      (shared = none ↔ ∀ e, ¬ graph.Between f g e) ∧
      (shared = shared' ↔
        ((∃ e, graph.Between f g e) → ∃ e, graph.FirstBetween f g e ∧ graph.FirstBetween g f e)) ∧
      ((∀ d e, graph.Between f g d → graph.Between f g e → d = e) → shared = shared') := by
  have wellFormed := wellFormed_of_build built
  have first (e : Nat) := wellFormed.firstBetween_iff (e := e) inside different
  have first' (e : Nat) := wellFormed.firstBetween_iff (e := e) inside' different.symm
  have none_iff := wellFormed.sharedEdge_eq_none_iff_between different
  have none_iff' := wellFormed.sharedEdge_eq_none_iff_between different.symm
  have swap (e : Nat) : graph.Between g f e ↔ graph.Between f g e := by
    rw [wellFormed.between_iff, wellFormed.between_iff, and_comm]
  refine ⟨_, _, reference_sharedEdge inside inside', reference_sharedEdge inside' inside,
    fun e => (first e).symm, none_iff, ?_, fun single => ?_⟩
  · simp only [first, first']
    constructor
    · rintro same ⟨e, between⟩
      obtain ⟨d, here⟩ := Option.ne_none_iff_exists'.mp fun none => none_iff.mp none e between
      exact ⟨d, here, same ▸ here⟩
    · intro both
      by_cases some : ∃ e, graph.Between f g e
      · obtain ⟨e, here, there⟩ := both some
        rw [here, there]
      · rw [none_iff.mpr fun e between => some ⟨e, between⟩,
          none_iff'.mpr fun e between => some ⟨e, (swap e).mp between⟩]
  · exact sharedEdge_comm_of_single fun d e here there =>
      single d e (wellFormed.between_iff.mpr here) (wellFormed.between_iff.mpr there)

/-- Two quadrangles around a corner that no third face has meet in two edges, and each of them names
another one first. -/
theorem sharedEdge_comm_iff_quadrangles :
    ∃ graph, build 5 [[0, 1, 2, 3], [2, 1, 0, 4]] [] = .ok graph ∧ 0 < graph.faces.size ∧
      1 < graph.faces.size ∧ (0 : Nat) ≠ 1 ∧
      ∃ shared shared', Reference.sharedEdge graph 0 1 = .ok shared ∧
        Reference.sharedEdge graph 1 0 = .ok shared' ∧ shared ≠ shared' ∧ (∃ e, graph.Between 0 1 e) ∧
        ¬ ∃ e, graph.FirstBetween 0 1 e ∧ graph.FirstBetween 1 0 e := by
  have built : build 5 [[0, 1, 2, 3], [2, 1, 0, 4]] [] =
      .ok (ofCycles 5 [[0, 1, 2, 3], [2, 1, 0, 4]] []) := by decide
  have answer : Reference.sharedEdge (ofCycles 5 [[0, 1, 2, 3], [2, 1, 0, 4]] []) 0 1 = .ok (some 0) := by
    decide
  have answer' : Reference.sharedEdge (ofCycles 5 [[0, 1, 2, 3], [2, 1, 0, 4]] []) 1 0 = .ok (some 1) := by
    decide
  obtain ⟨shared, shared', here, there, _, _, same, _⟩ :=
    sharedEdge_comm_iff (f := 0) (g := 1) built (by decide) (by decide) (by decide)
  obtain rfl := Except.ok.inj (answer.symm.trans here)
  obtain rfl := Except.ok.inj (answer'.symm.trans there)
  obtain ⟨some, apart⟩ := Classical.not_imp.mp (mt same.mpr (by decide))
  exact ⟨_, built, by decide, by decide, by decide, _, _, answer, answer', by decide, some, apart⟩

theorem not_sharedEdge_comm :
    ¬ ∀ vertexCount cycles hints graph (f g : Nat), build vertexCount cycles hints = .ok graph →
      f < graph.faces.size → g < graph.faces.size → f ≠ g →
        Reference.sharedEdge graph f g = Reference.sharedEdge graph g f ∧
          (Reference.sharedEdge graph f g = .ok none ↔ ∀ e, ¬ graph.Between f g e) := by
  intro symmetric
  have built : build 5 [[0, 1, 2, 3], [2, 1, 0, 4]] [] =
      .ok (ofCycles 5 [[0, 1, 2, 3], [2, 1, 0, 4]] []) := by decide
  have same := (symmetric _ _ _ _ 0 1 built (by decide) (by decide) (by decide)).1
  revert same
  decide

/-! ### Single edges -/

def SinglyJoined (graph : Graph) : Prop :=
  ∀ f g d e, f ≠ g → d ∈ graph.edgesOf f ∧ d ∈ graph.edgesOf g →
    e ∈ graph.edgesOf f ∧ e ∈ graph.edgesOf g → d = e

namespace SinglyJoined

variable (joined : graph.SinglyJoined)
include joined

theorem sharedEdge_eq_some_iff (different : f ≠ g) :
    graph.sharedEdge f g = some e ↔ e ∈ graph.edgesOf f ∧ e ∈ graph.edgesOf g := by
  refine ⟨fun shared => (sharedEdge_eq_some shared).2, fun both => ?_⟩
  cases here : graph.sharedEdge f g with
  | none => exact absurd both.2 ((sharedEdge_eq_none_iff different).mp here e both.1)
  | some d => rw [joined f g d e different (sharedEdge_eq_some here).2 both]

theorem mem_edgesBetween_iff (wellFormed : graph.WellFormed) (apart : faces.Disjoint others) :
    e ∈ graph.edgesBetween faces others ↔
      ∃ f ∈ faces, ∃ g ∈ others, graph.facesOf e = [f, g] ∨ graph.facesOf e = [g, f] := by
  rw [mem_edgesBetween]
  refine exists_congr fun f => and_congr_right fun here => ?_
  refine exists_congr fun g => and_congr_right fun there => ?_
  have different : f ≠ g := fun same => apart here (same ▸ there)
  rw [joined.sharedEdge_eq_some_iff different]
  constructor
  · exact fun both => facesOf_eq_pair wellFormed different both.1 both.2
  · rintro (pair | pair)
    · exact ⟨(mem_facesOf.mp (by simp [pair])).2, (mem_facesOf.mp (by simp [pair])).2⟩
    · exact ⟨(mem_facesOf.mp (by simp [pair])).2, (mem_facesOf.mp (by simp [pair])).2⟩

theorem edgesBetween_comm : graph.edgesBetween faces others = graph.edgesBetween others faces := by
  refine ascendingSet_congr fun e => ?_
  have listed (faces others : List Nat) : (e ∈ faces.flatMap fun f => others.filterMap (graph.sharedEdge f)) ↔
      ∃ f ∈ faces, ∃ g ∈ others, graph.sharedEdge f g = some e := by
    simp only [List.mem_flatMap, List.mem_filterMap]
  have comm (f g : Nat) : graph.sharedEdge f g = graph.sharedEdge g f := by
    by_cases same : f = g
    · rw [same]
    · exact sharedEdge_comm_of_single fun d e => joined f g d e same
  rw [listed, listed]
  constructor
  · rintro ⟨f, here, g, there, shared⟩
    exact ⟨g, there, f, here, comm g f ▸ shared⟩
  · rintro ⟨g, there, f, here, shared⟩
    exact ⟨f, here, g, there, comm f g ▸ shared⟩

end SinglyJoined

end Graph

end PencilPuzzle
