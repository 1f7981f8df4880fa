import PencilPuzzle.Proofs.Graph.Cycle
import PencilPuzzle.Proofs.Register

/-!
# Graphs that were built

The faces of a built graph are the given cycles in order, each with the edges that are its sides; no
two edges join the same vertices, and every edge has one face or two. All that later proofs need to
know of a graph follows from this.
-/

namespace PencilPuzzle.Graph

variable {graph : Graph} {hints : Hints} {e f g v vertexCount : Nat} {edge : Edge}

/-! ### Laying edges and faces -/

private theorem layEdge_files (edges : EdgeRegister) (edge : Edge) :
    Files edges.items (layEdge edges edge).1.items edge (layEdge edges edge).2 := by
  unfold layEdge
  split
  next found => exact Register.files_found found
  next absent => exact Register.files_push absent

theorem layEdges_files (edges : EdgeRegister) (list : List Edge) :
    FilesAll edges.items (layEdges edges list).1.items list (layEdges edges list).2 := by
  induction list generalizing edges with
  | nil => exact FilesAll.nil
  | cons edge rest ih => exact .cons (layEdge_files edges edge) (ih _)

/-- The edges and faces laid so far fit together. -/
structure Laid (edges : Array Edge) (faces : Array Face) : Prop where
  distinct : Distinct edges
  around : ∀ face ∈ faces, face.edges.map (edges[·]?) = (sides face.vertices).map some
  bordered : ∀ e < edges.size, ∃ face ∈ faces, e ∈ face.edges

private theorem Laid.layFace {edges : EdgeRegister} {faces : Array Face} (laid : Laid edges.items faces)
    (cycle : List Nat) (hint : Option Int) :
    Laid (layEdges edges (sides cycle)).1.items
      (faces.push ⟨cycle, (layEdges edges (sides cycle)).2, hint⟩) := by
  have files := layEdges_files edges (sides cycle)
  refine ⟨files.distinct laid.distinct, fun face member => ?_, fun e inside => ?_⟩
  · rcases Array.mem_push.mp member with old | rfl
    · exact files.kept.map_getElem? (laid.around face old)
    · exact files.filed
  · obtain old | here := files.new e inside
    · obtain ⟨face, member, listed⟩ := laid.bordered e old
      exact ⟨face, Array.mem_push.mpr (.inl member), listed⟩
    · exact ⟨_, Array.mem_push.mpr (.inr rfl), here⟩

theorem Laid.layFaces {edges : EdgeRegister} {faces : Array Face} (laid : Laid edges.items faces)
    (hints : Hints) (cycles : List (List Nat)) :
    Laid (layFaces hints edges faces cycles).1.items (layFaces hints edges faces cycles).2 := by
  induction cycles generalizing edges faces with
  | nil => exact laid
  | cons cycle rest ih => exact ih (laid.layFace cycle _)

theorem Laid.edgesOf {graph : Graph} (laid : Laid graph.edges graph.faces) (f : Nat) :
    (graph.edgesOf f).map (graph.edges[·]?) = (sides (graph.verticesOf f)).map some := by
  unfold Graph.edgesOf Graph.verticesOf
  cases here : graph.faces[f]? with
  | none => rfl
  | some face => exact laid.around face (Array.mem_of_getElem? here)

private theorem vertices_layFaces (hints : Hints) (edges : EdgeRegister) (faces : Array Face)
    (cycles : List (List Nat)) :
    (layFaces hints edges faces cycles).2.toList.map Face.vertices =
      faces.toList.map Face.vertices ++ cycles := by
  induction cycles generalizing edges faces with
  | nil => exact (List.append_nil _).symm
  | cons cycle rest ih =>
    refine (ih _ _).trans ?_
    rw [Array.toList_push, List.map_append, List.append_assoc]
    rfl

theorem laid_ofCycles (vertexCount : Nat) (cycles : List (List Nat)) (hints : Hints) :
    Laid (ofCycles vertexCount cycles hints).edges (ofCycles vertexCount cycles hints).faces := by
  have start : Laid (Register.empty : EdgeRegister).items #[] :=
    ⟨fun i j edge here => by simp [Register.empty] at here, fun face member => by simp at member,
      fun e inside => absurd inside (Nat.not_lt_zero e)⟩
  exact start.layFaces hints cycles

theorem vertices_ofCycles (vertexCount : Nat) (cycles : List (List Nat)) (hints : Hints) :
    (ofCycles vertexCount cycles hints).faces.toList.map Face.vertices = cycles :=
  vertices_layFaces hints Register.empty #[] cycles

theorem size_ofCycles (vertexCount : Nat) (cycles : List (List Nat)) (hints : Hints) :
    (ofCycles vertexCount cycles hints).faces.size = cycles.length := by
  rw [← Array.length_toList, ← List.length_map Face.vertices, vertices_ofCycles]

/-! ### Built graphs -/

/-- What holds of every graph that was built. -/
structure WellFormed (graph : Graph) : Prop where
  distinct : Distinct graph.edges
  around : ∀ f, (graph.edgesOf f).map (graph.edges[·]?) = (sides (graph.verticesOf f)).map some
  bordered : ∀ e < graph.edges.size, ∃ f, e ∈ graph.edgesOf f
  shared : ∀ e, (graph.facesOf e).length ≤ 2
  long : ∀ f < graph.faces.size, 3 ≤ (graph.verticesOf f).length
  simple : ∀ f, (graph.verticesOf f).Nodup
  inside : ∀ f, ∀ v ∈ graph.verticesOf f, v < graph.vertexCount

theorem mem_facesOf : f ∈ graph.facesOf e ↔ f < graph.faces.size ∧ e ∈ graph.edgesOf f := by
  rw [facesOf_eq, List.mem_filter, faceIds, List.mem_range, decide_eq_true_eq]

theorem nodup_facesOf (graph : Graph) (e : Nat) : (graph.facesOf e).Nodup := by
  rw [facesOf_eq]
  exact List.nodup_range.filter _

theorem edgeBetween_eq_some {v w : Nat} (h : graph.edgeBetween v w = some e) :
    graph.edges[e]? = some (Edge.joining v w) := by
  rw [edgeBetween, lastIndex?, lastIndexBelow?_eq_some] at h
  exact h.2.1

theorem lt_of_mem_edgesOf (h : e ∈ graph.edgesOf f) : f < graph.faces.size := by
  apply Nat.lt_of_not_le
  intro beyond
  rw [edgesOf, Array.getElem?_eq_none beyond] at h
  exact absurd h List.not_mem_nil

theorem mem_facesOf_of_mem (h : e ∈ graph.edgesOf f) : f ∈ graph.facesOf e :=
  mem_facesOf.mpr ⟨lt_of_mem_edgesOf h, h⟩

theorem verticesOf_cases (graph : Graph) (f : Nat) :
    graph.faces.size ≤ f ∧ graph.verticesOf f = [] ∨
      graph.verticesOf f ∈ graph.faces.toList.map Face.vertices := by
  unfold verticesOf
  cases here : graph.faces[f]? with
  | none => exact .inl ⟨Array.getElem?_eq_none_iff.mp here, rfl⟩
  | some face =>
    exact .inr (List.mem_map_of_mem (Array.mem_toList_iff.mpr (Array.mem_of_getElem? here)))

theorem getElem?_vertices (bound : f < graph.faces.size) :
    (graph.faces.toList.map Face.vertices)[f]? = some (graph.verticesOf f) := by
  simp [verticesOf, bound]

theorem map_verticesOf (graph : Graph) :
    graph.faceIds.map graph.verticesOf = graph.faces.toList.map Face.vertices := by
  refine List.ext_getElem? fun f => ?_
  by_cases inside : f < graph.faces.size
  · rw [getElem?_vertices inside, List.getElem?_map, faceIds, List.getElem?_range inside, Option.map_some]
  · simp [faceIds, inside]

theorem cycleFault?_eq_none_iff {cycle : List Int} : cycleFault? vertexCount f cycle = none ↔
    3 ≤ cycle.length ∧ cycle.Nodup ∧ ∀ v ∈ cycle, 0 ≤ v ∧ v < vertexCount := by
  unfold cycleFault?
  split
  next short => exact iff_of_false nofun fun sound => absurd sound.1 (Nat.not_le.mpr short)
  next long =>
    rw [and_iff_right (Nat.le_of_not_lt long)]
    split
    next repeated => exact iff_of_false nofun fun sound => repeated sound.1
    next simple =>
      rw [and_iff_right (not_not.mp simple), Option.map_eq_none_iff, List.find?_eq_none]
      simp [isNumber]

theorem faultyCycle?_eq_none_iff {cycles : List (List Int)} : faultyCycle? vertexCount cycles = none ↔
    ∀ cycle ∈ cycles, 3 ≤ cycle.length ∧ cycle.Nodup ∧ ∀ v ∈ cycle, 0 ≤ v ∧ v < vertexCount := by
  constructor
  · intro none cycle member
    obtain ⟨f, here⟩ := List.mem_iff_getElem?.mp member
    have sound := List.findSome?_eq_none_iff.mp none (cycle, f) (List.mem_zipIdx_iff_getElem?.mpr here)
    exact cycleFault?_eq_none_iff.mp (Option.map_eq_none_iff.mp sound)
  · intro sound
    refine List.findSome?_eq_none_iff.mpr fun ⟨cycle, f⟩ here => Option.map_eq_none_iff.mpr ?_
    have member := List.mem_of_getElem? (List.mem_zipIdx_iff_getElem?.mp here)
    exact cycleFault?_eq_none_iff.mpr (sound cycle member)

theorem getElem?_of_around
    (around : (graph.edgesOf f).map (graph.edges[·]?) = (sides (graph.verticesOf f)).map some)
    (member : e ∈ graph.edgesOf f) :
    ∃ side ∈ sides (graph.verticesOf f), graph.edges[e]? = some side := by
  have listed : graph.edges[e]? ∈ (graph.edgesOf f).map (graph.edges[·]?) :=
    List.mem_map_of_mem member
  rw [around] at listed
  obtain ⟨side, isSide, here⟩ := List.mem_map.mp listed
  exact ⟨side, isSide, here.symm⟩

theorem Laid.lt_size (laid : Laid graph.edges graph.faces) (member : e ∈ graph.edgesOf f) :
    e < graph.edges.size := by
  obtain ⟨side, _, here⟩ := getElem?_of_around (laid.edgesOf f) member
  exact (Array.getElem?_eq_some_iff.mp here).1

theorem crowded?_eq_none_iff (laid : Laid graph.edges graph.faces) :
    graph.crowded? = none ↔ ∀ e, (graph.facesOf e).length ≤ 2 := by
  constructor
  · intro none e
    match here : graph.facesOf e with
    | [] | [_] | [_, _] => simp
    | first :: second :: third :: rest =>
      have listed : third ∈ graph.facesOf e := by rw [here]; simp
      obtain ⟨inside, member⟩ := mem_facesOf.mp listed
      have fine := List.findSome?_eq_none_iff.mp
        (List.findSome?_eq_none_iff.mp none third (List.mem_range.mpr inside)) e member
      rw [crowdedAt?, here, Array.getElem?_eq_getElem (laid.lt_size member)] at fine
      simp at fine
  · intro few
    refine List.findSome?_eq_none_iff.mpr fun f _ => List.findSome?_eq_none_iff.mpr fun e _ => ?_
    have few := few e
    unfold crowdedAt?
    match graph.facesOf e, few with
    | [], _ | [_], _ | [_, _], _ => rfl

theorem build_eq_ok_iff {cycles : List (List Int)} : build vertexCount cycles hints = .ok graph ↔
    faultyCycle? vertexCount cycles = none ∧
      ofCycles vertexCount (cycles.map (·.map Int.toNat)) hints = graph ∧
      graph.crowded? = none ∧ hints.unknown graph.faces.size = [] := by
  unfold build
  cases faulty : faultyCycle? vertexCount cycles with
  | some fault =>
    refine iff_of_false (fun built => ?_) fun sound => nomatch sound.1
    dsimp only at built
    split at built
    · exact nomatch built
    next none _ =>
      rw [Option.orElse_eq_orElse, Option.orElse_eq_or, Option.or_eq_none_iff] at none
      exact nomatch none.2
    · exact nomatch built
  | none =>
    dsimp only
    rw [Option.map_none, Option.orElse_eq_orElse, Option.orElse_eq_or, Option.or_none]
    constructor
    · intro built
      split at built
      · exact nomatch built
      next uncrowded known =>
        cases built
        exact ⟨rfl, rfl, uncrowded, known⟩
      · exact nomatch built
    · rintro ⟨_, rfl, uncrowded, known⟩
      rw [uncrowded, known]

/-- Building succeeds only with cycles of different known vertices, three or more each. -/
theorem build_eq_ok {cycles : List (List Int)}
    (h : build vertexCount cycles hints = .ok graph) :
    (∀ cycle ∈ cycles, 3 ≤ cycle.length ∧ cycle.Nodup ∧ ∀ v ∈ cycle, 0 ≤ v ∧ v < vertexCount) ∧
      graph = ofCycles vertexCount (cycles.map (·.map Int.toNat)) hints ∧
      graph.crowded? = none := by
  obtain ⟨fine, made, uncrowded, _⟩ := build_eq_ok_iff.mp h
  exact ⟨faultyCycle?_eq_none_iff.mp fine, made.symm, uncrowded⟩

theorem vertexCount_of_build {cycles : List (List Int)}
    (h : build vertexCount cycles hints = .ok graph) : graph.vertexCount = vertexCount := by
  obtain ⟨_, rfl, _⟩ := build_eq_ok h
  rfl

theorem exists_edge_of_around
    (around : (graph.edgesOf f).map (graph.edges[·]?) = (sides (graph.verticesOf f)).map some)
    (isSide : edge ∈ sides (graph.verticesOf f)) : ∃ e ∈ graph.edgesOf f, graph.edges[e]? = some edge := by
  have listed : some edge ∈ (sides (graph.verticesOf f)).map some := List.mem_map_of_mem isSide
  rw [← around] at listed
  exact List.mem_map.mp listed

theorem mem_edgesOf_of_around (distinct : Distinct graph.edges)
    (around : (graph.edgesOf f).map (graph.edges[·]?) = (sides (graph.verticesOf f)).map some) :
    e ∈ graph.edgesOf f ↔ ∃ side ∈ sides (graph.verticesOf f), graph.edges[e]? = some side := by
  constructor
  · exact getElem?_of_around around
  · rintro ⟨side, isSide, here⟩
    obtain ⟨other, member, there⟩ := exists_edge_of_around around isSide
    exact distinct other e side there here ▸ member

theorem wellFormed_of_build {cycles : List (List Int)}
    (h : build vertexCount cycles hints = .ok graph) : graph.WellFormed := by
  obtain ⟨sound, rfl, uncrowded⟩ := build_eq_ok h
  have laid := laid_ofCycles vertexCount (cycles.map (·.map Int.toNat)) hints
  have listed := vertices_ofCycles vertexCount (cycles.map (·.map Int.toNat)) hints
  generalize made : ofCycles vertexCount (cycles.map (·.map Int.toNat)) hints = graph at *
  have count : graph.vertexCount = vertexCount := by rw [← made]; rfl
  have given (f : Nat) : graph.faces.size ≤ f ∧ graph.verticesOf f = [] ∨
      ∃ cycle ∈ cycles, graph.verticesOf f = cycle.map Int.toNat := by
    obtain none | member := graph.verticesOf_cases f
    · exact .inl none
    · rw [listed] at member
      obtain ⟨cycle, known, same⟩ := List.mem_map.mp member
      exact .inr ⟨cycle, known, same.symm⟩
  refine ⟨laid.distinct, laid.edgesOf, fun e inside => ?_,
    (crowded?_eq_none_iff laid).mp uncrowded, fun f inside => ?_, fun f => ?_, fun f v member => ?_⟩
  · obtain ⟨face, member, border⟩ := laid.bordered e inside
    obtain ⟨f, here⟩ := Array.mem_iff_getElem?.mp member
    exact ⟨f, by rw [edgesOf, here]; exact border⟩
  · obtain ⟨beyond, _⟩ | ⟨cycle, known, same⟩ := given f
    · omega
    · rw [same, List.length_map]
      exact (sound cycle known).1
  · obtain ⟨_, none⟩ | ⟨cycle, known, same⟩ := given f
    · exact none ▸ List.nodup_nil
    · obtain ⟨_, simple, natural⟩ := sound cycle known
      rw [same]
      refine List.Nodup.map_on (fun v here w there equal => ?_) simple
      have := natural v here
      have := natural w there
      omega
  · obtain ⟨_, none⟩ | ⟨cycle, known, same⟩ := given f
    · exact absurd (none ▸ member) List.not_mem_nil
    · rw [same] at member
      obtain ⟨reference, here, rfl⟩ := List.mem_map.mp member
      have := (sound cycle known).2.2 reference here
      omega

namespace WellFormed

variable (wellFormed : graph.WellFormed)
include wellFormed

theorem exists_edge (isSide : edge ∈ sides (graph.verticesOf f)) :
    ∃ e ∈ graph.edgesOf f, graph.edges[e]? = some edge :=
  exists_edge_of_around (wellFormed.around f) isSide

theorem mem_edgesOf :
    e ∈ graph.edgesOf f ↔ ∃ side ∈ sides (graph.verticesOf f), graph.edges[e]? = some side :=
  mem_edgesOf_of_around wellFormed.distinct (wellFormed.around f)

theorem lt_size (member : e ∈ graph.edgesOf f) : e < graph.edges.size := by
  obtain ⟨side, _, here⟩ := wellFormed.mem_edgesOf.mp member
  exact (Array.getElem?_eq_some_iff.mp here).1

theorem exists_side (here : graph.edges[e]? = some edge) :
    ∃ f < graph.faces.size, edge ∈ sides (graph.verticesOf f) := by
  obtain ⟨f, member⟩ := wellFormed.bordered e (Array.getElem?_eq_some_iff.mp here).1
  obtain ⟨side, isSide, same⟩ := wellFormed.mem_edgesOf.mp member
  rw [here] at same
  cases same
  exact ⟨f, lt_of_mem_edgesOf member, isSide⟩

theorem facesOf_cases (member : e ∈ graph.edgesOf f) :
    graph.facesOf e = [f] ∨
      ∃ g ≠ f, graph.facesOf e = [f, g] ∨ graph.facesOf e = [g, f] := by
  have listed := mem_facesOf_of_mem member
  have distinct := graph.nodup_facesOf e
  have few := wellFormed.shared e
  match here : graph.facesOf e with
  | [] => simp [here] at listed
  | [g] =>
    rw [here] at listed
    exact .inl (by rw [List.mem_singleton.mp listed])
  | [g, h] =>
    rw [here] at listed distinct
    have different : g ≠ h := by simpa using distinct
    rcases List.mem_pair.mp listed with rfl | rfl
    · exact .inr ⟨h, different.symm, .inl rfl⟩
    · exact .inr ⟨g, different, .inr rfl⟩
  | _ :: _ :: _ :: _ => simp [here] at few

theorem edge_ordered (here : graph.edges[e]? = some edge) : edge.start < edge.stop := by
  obtain ⟨f, inside, isSide⟩ := wellFormed.exists_side here
  exact side_ordered (wellFormed.simple f) (by have := wellFormed.long f inside; omega) isSide

theorem lt_vertexCount (ends : v ∈ graph.endsOf e) : v < graph.vertexCount := by
  unfold endsOf at ends
  cases here : graph.edges[e]? with
  | none => simp [here] at ends
  | some edge =>
    rw [here] at ends
    obtain ⟨f, inside, isSide⟩ := wellFormed.exists_side here
    exact wellFormed.inside f v (mem_of_mem_sides isSide ends)

end WellFormed

end PencilPuzzle.Graph
