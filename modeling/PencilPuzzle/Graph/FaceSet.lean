import PencilPuzzle.Graph.Basic
import PencilPuzzle.Sorted

/-!
# Sets of faces

The edges around a set of faces and between two of them, and regions: sets of faces of one
particular graph. Equal graphs can still be different ones, so a region carries the label of its
graph and only regions with the same label can be joined.
-/

namespace PencilPuzzle

namespace Graph

/-- The edges of the faces of a set that no other face of the set has, ascending. -/
def boundaryEdges (graph : Graph) (faces : List Nat) : List Nat :=
  ascendingSet (faces.flatMap fun f =>
    (graph.edgesOf f).filter fun e => !(graph.facesOf e).any fun g => g ≠ f && g ∈ faces)

/-- The shared edge of every two neighbouring faces of two sets, ascending. -/
def edgesBetween (graph : Graph) (faces others : List Nat) : List Nat :=
  ascendingSet (faces.flatMap fun f => others.filterMap (graph.sharedEdge f))

end Graph

structure Region where
  /-- Tells the graph apart from all others. -/
  label : Nat
  graph : Graph
  /-- The faces, ascending. -/
  faces : List Nat

namespace Region

/-- The region of the given faces; all of them must belong to the graph. -/
def new (label : Nat) (graph : Graph) (faces : List Int) : Except Fault Region :=
  match faces.filter fun f => !Graph.isNumber graph.faces.size f with
  | [] => .ok ⟨label, graph, graph.faceIds.filter fun f => (f : Int) ∈ faces⟩
  | foreign =>
    .error (.graph (.foreignFaces (ascending foreign).eraseDups graph.describe))

def same (region other : Region) : Bool :=
  region.label = other.label && region.faces = other.faces

def checkSameGraph (region other : Region) : Except Fault Unit :=
  if region.label = other.label then .ok () else .error (.graph .differentGraphs)

def combined (region other : Region) : Except Fault Region := do
  region.checkSameGraph other
  return { region with
    faces := region.graph.faceIds.filter fun f => f ∈ region.faces || f ∈ other.faces }

def neighboringEdges (region other : Region) : Except Fault (List Nat) := do
  region.checkSameGraph other
  return region.graph.edgesBetween region.faces other.faces

def boundaryEdges (region : Region) : List Nat := region.graph.boundaryEdges region.faces

def minFace (region : Region) : Except Fault Nat :=
  match region.faces with
  | [] => .error (.graph .noFaces)
  | f :: _ => .ok f

def containsFace (region : Region) (face : Int) : Bool :=
  region.faces.any fun f => (f : Int) = face

def containsEdge (region : Region) (edge : Int) : Bool :=
  region.faces.any fun f => (region.graph.edgesOf f).any fun e => (e : Int) = edge

def containsVertex (region : Region) (vertex : Int) : Bool :=
  region.faces.any fun f => (region.graph.verticesOf f).any fun v => (v : Int) = vertex

def describe (region : Region) : String :=
  "GraphSubset(" ++ Text.listing (region.faces.map toString) ++ ")"

end Region

end PencilPuzzle
