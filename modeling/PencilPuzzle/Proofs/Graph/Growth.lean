import PencilPuzzle.Graph.Sketch
import PencilPuzzle.Proofs.Graph.Index

/-!
# Growing graphs

Laying further faces leaves what has been laid in its place: edges and faces keep their numbers, and the
faces of an old edge are what they were, with at most some new ones behind them. So what can be built can
also be built without its last faces and the vertices that only these use, and numbers are good for both.
-/

namespace PencilPuzzle

namespace Graph

variable {graph larger : Graph} {hints : Hints} {cycles others : List (List Int)}
  {e f vertexCount vertexCount' : Nat}

/-! ### Laying more faces -/

theorem layFaces_append (hints : Hints) (edges : EdgeRegister) (faces : Array Face)
    (cycles others : List (List Nat)) :
    layFaces hints edges faces (cycles ++ others) =
      layFaces hints (layFaces hints edges faces cycles).1 (layFaces hints edges faces cycles).2 others := by
  induction cycles generalizing edges faces with
  | nil => rfl
  | cons cycle rest ih => exact ih _ _

theorem extends_layFaces (hints : Hints) (edges : EdgeRegister) (faces : Array Face)
    (cycles : List (List Nat)) :
    Extends edges.items (layFaces hints edges faces cycles).1.items ∧
      Extends faces (layFaces hints edges faces cycles).2 := by
  induction cycles generalizing edges faces with
  | nil => exact ⟨Extends.refl _, Extends.refl _⟩
  | cons cycle rest ih =>
    obtain ⟨kept, kept'⟩ := ih (layEdges edges (sides cycle)).1
      (faces.push ⟨cycle, (layEdges edges (sides cycle)).2, hints.get faces.size⟩)
    exact ⟨(layEdges_files edges (sides cycle)).kept.trans kept, (Extends.push faces _).trans kept'⟩

/-- Edges and faces of the one graph have the same numbers in the other. -/
structure Grows (graph larger : Graph) : Prop where
  edges : Extends graph.edges larger.edges
  faces : Extends graph.faces larger.faces

private theorem grows_ofCycles (vertexCount vertexCount' : Nat) (cycles others : List (List Nat))
    (hints : Hints) :
    Grows (ofCycles vertexCount cycles hints) (ofCycles vertexCount' (cycles ++ others) hints) := by
  have whole := layFaces_append hints Register.empty #[] cycles others
  obtain ⟨edges, faces⟩ := extends_layFaces hints (layFaces hints Register.empty #[] cycles).1
    (layFaces hints Register.empty #[] cycles).2 others
  rw [← whole] at edges faces
  exact ⟨edges, faces⟩

/-! ### What stays -/

namespace Grows

variable (grows : Grows graph larger)
include grows

theorem getElem?_faces (inside : f < graph.faces.size) : larger.faces[f]? = graph.faces[f]? := by
  have here := Array.getElem?_eq_getElem inside
  exact (grows.faces f _ here).trans here.symm

theorem size_le : graph.faces.size ≤ larger.faces.size := grows.faces.size_le

theorem edgesOf (inside : f < graph.faces.size) : larger.edgesOf f = graph.edgesOf f := by
  rw [Graph.edgesOf, Graph.edgesOf, grows.getElem?_faces inside]

theorem verticesOf (inside : f < graph.faces.size) : larger.verticesOf f = graph.verticesOf f := by
  rw [Graph.verticesOf, Graph.verticesOf, grows.getElem?_faces inside]

theorem facesOf (e : Nat) : graph.facesOf e = (larger.facesOf e).filter (· < graph.faces.size) := by
  have ascending (graph : Graph) : (graph.facesOf e).Pairwise (· < ·) := by
    rw [facesOf_eq]
    exact List.pairwise_lt_range.filter _
  refine (ascending graph).eq_of_mem_iff ((ascending larger).filter _) fun f => ?_
  rw [List.mem_filter, decide_eq_true_eq, mem_facesOf, mem_facesOf]
  constructor
  · rintro ⟨inside, border⟩
    exact ⟨⟨Nat.lt_of_lt_of_le inside grows.size_le, grows.edgesOf inside ▸ border⟩, inside⟩
  · rintro ⟨⟨_, border⟩, inside⟩
    exact ⟨inside, grows.edgesOf inside ▸ border⟩

end Grows

/-- Cycles that can be built together with others can be built by themselves, on the vertices they have. -/
theorem exists_build_of_append (built : build vertexCount' (cycles ++ others) [] = .ok larger)
    (known : ∀ cycle ∈ cycles, ∀ v ∈ cycle, v < vertexCount) :
    ∃ graph, build vertexCount cycles [] = .ok graph ∧ Grows graph larger := by
  obtain ⟨sound, rfl, uncrowded⟩ := build_eq_ok built
  have few := (crowded?_eq_none_iff (laid_ofCycles ..)).mp uncrowded
  rw [List.map_append] at few ⊢
  have grows := grows_ofCycles vertexCount vertexCount' (cycles.map (·.map Int.toNat))
    (others.map (·.map Int.toNat)) []
  refine ⟨_, build_eq_ok_iff.mpr ⟨faultyCycle?_eq_none_iff.mpr fun cycle member => ?_, rfl, ?_, ?_⟩, grows⟩
  · obtain ⟨long, simple, natural⟩ := sound cycle (List.mem_append_left others member)
    exact ⟨long, simple, fun v here => ⟨(natural v here).1, known cycle member v here⟩⟩
  · refine (crowded?_eq_none_iff (laid_ofCycles ..)).mpr fun e => ?_
    rw [grows.facesOf]
    exact (List.length_filter_le _ _).trans (few e)
  · rfl

end Graph

open PencilPuzzle.Graph

theorem Drawing.build_eq_ok {α : Type} {positions : Array α} {cycles : List (List Int)} {hints : Hints}
    {drawing : Drawing α} : Drawing.build positions cycles hints = .ok drawing ↔
      Graph.build positions.size cycles hints = .ok drawing.graph ∧ drawing.positions = positions := by
  rw [Drawing.build]
  cases Graph.build positions.size cycles hints with
  | error fault => exact iff_of_false nofun fun built => nomatch built.1
  | ok graph =>
    constructor
    · intro drawn
      cases drawn
      exact ⟨rfl, rfl⟩
    · rintro ⟨same, rfl⟩
      cases same
      rfl

/-- The first faces of a graph can be built without the others, on vertices among which are all that they
use: with the same numbers for faces and edges, and for each edge with those of its faces that are there. -/
theorem Drawing.build_append {α : Type} {positions more : Array α} {cycles others : List (List Int)}
    {larger : Drawing α} (built : Drawing.build (positions ++ more) (cycles ++ others) [] = .ok larger)
    (known : ∀ cycle ∈ cycles, ∀ v ∈ cycle, v < positions.size) :
    ∃ drawing, Drawing.build positions cycles [] = .ok drawing ∧
      drawing.graph.edges.toList <+: larger.graph.edges.toList ∧
        (∀ (f : Nat) cycle, cycles[f]? = some cycle → ∃ vertices edges, cycle = vertices.map Int.ofNat ∧
          ∀ graph ∈ [drawing.graph, larger.graph],
            Reference.verticesOf graph f = .ok vertices ∧ Reference.edgesOf graph f = .ok edges) ∧
          ∀ e < drawing.graph.edges.size, ∃ faces, Reference.facesOf larger.graph e = .ok faces ∧
            Reference.facesOf drawing.graph e = .ok (faces.filter (· < cycles.length)) := by
  obtain ⟨made, _⟩ := Drawing.build_eq_ok.mp built
  obtain ⟨graph, made', grows⟩ := exists_build_of_append made known
  have size : graph.faces.size = cycles.length := by
    obtain ⟨_, rfl, _⟩ := Graph.build_eq_ok made'
    rw [size_ofCycles, List.length_map]
  refine ⟨⟨positions, graph⟩, Drawing.build_eq_ok.mpr ⟨made', rfl⟩, grows.edges.isPrefix,
    fun f cycle here => ?_, fun e inside => ?_⟩
  · have inside : f < graph.faces.size := size ▸ (List.getElem?_eq_some_iff.mp here).1
    have inside' := Nat.lt_of_lt_of_le inside grows.size_le
    have listed := (verticesOf_reference made').mp (lookup_eq_ok.mpr ⟨inside, rfl⟩)
    refine ⟨graph.verticesOf f, graph.edgesOf f, Option.some.inj (here.symm.trans listed),
      List.forall_mem_cons.mpr ⟨⟨lookup_eq_ok.mpr ⟨inside, rfl⟩, lookup_eq_ok.mpr ⟨inside, rfl⟩⟩,
        List.forall_mem_singleton.mpr ⟨lookup_eq_ok.mpr ⟨inside', ?_⟩, lookup_eq_ok.mpr ⟨inside', ?_⟩⟩⟩⟩
    · exact grows.verticesOf inside
    · exact grows.edgesOf inside
  · have inside' : e < larger.graph.edges.size := Nat.lt_of_lt_of_le inside grows.edges.size_le
    refine ⟨larger.graph.facesOf e, lookup_eq_ok.mpr ⟨inside', rfl⟩, lookup_eq_ok.mpr ⟨inside, ?_⟩⟩
    rw [grows.facesOf, size]

/-- The first of two squares side by side keeps its edges when the second is added, and the edge between them
gets its second face. -/
theorem Drawing.build_append_pair :
    let positions : Array (Nat × Nat) := #[(0, 0), (1, 0), (1, 1), (0, 1)]
    let more : Array (Nat × Nat) := #[(2, 0), (2, 1)]
    ∃ larger, Drawing.build (positions ++ more) ([[0, 1, 2, 3]] ++ [[1, 4, 5, 2]]) [] = .ok larger ∧
      (∀ cycle ∈ [[0, 1, 2, 3]], ∀ v ∈ cycle, v < (positions.size : Int)) ∧
        ∃ drawing, Drawing.build positions [[0, 1, 2, 3]] [] = .ok drawing ∧
          drawing.graph.edges.toList <+: larger.graph.edges.toList ∧
            Reference.facesOf larger.graph 1 = .ok [0, 1] ∧ Reference.facesOf drawing.graph 1 = .ok [0] := by
  intro positions more
  have made : Graph.build (positions ++ more).size ([[0, 1, 2, 3]] ++ [[1, 4, 5, 2]]) [] =
      .ok (ofCycles 6 [[0, 1, 2, 3], [1, 4, 5, 2]] []) := by decide
  have built : Drawing.build (positions ++ more) ([[0, 1, 2, 3]] ++ [[1, 4, 5, 2]]) [] =
      .ok ⟨positions ++ more, ofCycles 6 [[0, 1, 2, 3], [1, 4, 5, 2]] []⟩ :=
    Drawing.build_eq_ok.mpr ⟨made, rfl⟩
  have known : ∀ cycle ∈ [[0, 1, 2, 3]], ∀ v ∈ cycle, v < (positions.size : Int) := by decide
  have both : Reference.facesOf (ofCycles 6 [[0, 1, 2, 3], [1, 4, 5, 2]] []) 1 = .ok [0, 1] := by decide
  obtain ⟨drawing, drawn, edges, _, bordering⟩ := Drawing.build_append built known
  have four : drawing.graph.edges.size = 4 := by
    have alone : Graph.build positions.size [[0, 1, 2, 3]] [] =
        .ok (ofCycles 4 [[0, 1, 2, 3]] []) := by decide
    rw [← Except.ok.inj (alone.symm.trans (Drawing.build_eq_ok.mp drawn).1)]
    decide
  obtain ⟨faces, found, kept⟩ := bordering 1 (by omega)
  obtain rfl := Except.ok.inj (both.symm.trans found)
  exact ⟨_, built, known, drawing, drawn, edges, both, kept⟩

end PencilPuzzle
