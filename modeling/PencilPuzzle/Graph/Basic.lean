import PencilPuzzle.Fault
import PencilPuzzle.LastIndex
import PencilPuzzle.Occurrence

/-!
# Planar graphs

A planar subdivision as its faces: each a cycle of vertices with the edges between consecutive ones
and possibly a hint. Vertices, edges and faces are numbered from zero; edges and faces in the order
in which they were made. Every query is read off the edges and faces, and a number that names
nothing has no neighbours. What lies around an edge or a vertex is asked for all the time, so a
graph keeps tables of it.
-/

namespace PencilPuzzle

/-- An undirected edge, its smaller end first. -/
structure Edge where
  start : Nat
  stop : Nat
  deriving DecidableEq

namespace Edge

def joining (v w : Nat) : Edge := ⟨min v w, max v w⟩

theorem joining_comm (v w : Nat) : joining v w = joining w v := by
  simp [joining, Nat.min_comm, Nat.max_comm]

def ends (edge : Edge) : List Nat := [edge.start, edge.stop]

end Edge

structure Face where
  /-- The vertices in cyclic order. -/
  vertices : List Nat
  /-- The edge from each vertex to the next one around. -/
  edges : List Nat
  /-- The number attached to the face in a loop puzzle. -/
  hint : Option Int
  deriving DecidableEq

def facesHaving (faces : Array Face) : Nat → List Nat :=
  occurrences faces.size fun f => (faces[f]?.map Face.edges).getD []

def facesTouching (faces : Array Face) : Nat → List Nat :=
  occurrences faces.size fun f => (faces[f]?.map Face.vertices).getD []

def edgesEnding (edges : Array Edge) : Nat → List Nat :=
  occurrences edges.size fun e => (edges[e]?.map Edge.ends).getD []

structure Graph where
  vertexCount : Nat
  edges : Array Edge
  faces : Array Face
  faceTable : Table edges.size (facesHaving faces) := Table.ofOccurrences _ _ _
  cornerTable : Table vertexCount (facesTouching faces) := Table.ofOccurrences _ _ _
  edgeTable : Table vertexCount (edgesEnding edges) := Table.ofOccurrences _ _ _

/-- A graph is its vertices, edges and faces; the tables add nothing. -/
theorem Graph.ext {graph other : Graph} (vertexCount : graph.vertexCount = other.vertexCount)
    (edges : graph.edges = other.edges) (faces : graph.faces = other.faces) : graph = other := by
  cases graph
  cases other
  cases vertexCount
  cases edges
  cases faces
  congr 1 <;> exact Subsingleton.elim _ _

instance : DecidableEq Graph := fun graph other =>
  decidable_of_iff
    (graph.vertexCount = other.vertexCount ∧ graph.edges = other.edges ∧
      graph.faces = other.faces)
    ⟨fun h => Graph.ext h.1 h.2.1 h.2.2, fun h => h ▸ ⟨rfl, rfl, rfl⟩⟩

namespace Graph

def isNumber (count : Nat) (reference : Int) : Bool := 0 ≤ reference && reference < count

variable (graph : Graph)

def vertexIds : List Nat := List.range graph.vertexCount

def edgeIds : List Nat := List.range graph.edges.size

def faceIds : List Nat := List.range graph.faces.size

/-! ### Faces -/

def verticesOf (f : Nat) : List Nat := (graph.faces[f]?.map Face.vertices).getD []

def edgesOf (f : Nat) : List Nat := (graph.faces[f]?.map Face.edges).getD []

def hintOf (f : Nat) : Option Int := graph.faces[f]?.bind Face.hint

/-- The faces on either side of an edge, ascending. -/
def facesOf (e : Nat) : List Nat := graph.faceTable.get e

theorem facesOf_eq (e : Nat) :
    graph.facesOf e = graph.faceIds.filter fun f => e ∈ graph.edgesOf f :=
  Table.get_eq _ _

def facesAt (v : Nat) : List Nat := graph.cornerTable.get v

theorem facesAt_eq (v : Nat) :
    graph.facesAt v = graph.faceIds.filter fun f => v ∈ graph.verticesOf f :=
  Table.get_eq _ _

/-- The first edge of one face that also belongs to another one. -/
def sharedEdge (f g : Nat) : Option Nat :=
  if f = g then none else (graph.edgesOf f).find? (· ∈ graph.edgesOf g)

def isBoundary (e : Nat) : Bool := (graph.facesOf e).length == 1

/-! ### Edges and vertices -/

def endsOf (e : Nat) : List Nat := (graph.edges[e]?.map Edge.ends).getD []

def edgesAt (v : Nat) : List Nat := graph.edgeTable.get v

theorem edgesAt_eq (v : Nat) :
    graph.edgesAt v = graph.edgeIds.filter fun e => v ∈ graph.endsOf e :=
  Table.get_eq _ _

def edgeBetween (v w : Nat) : Option Nat := lastIndex? graph.edges (Edge.joining v w)

def describe : String :=
  s!"PlanarGraph(vertices={graph.vertexCount}, edges={graph.edges.size}, faces={graph.faces.size})"

end Graph

end PencilPuzzle
