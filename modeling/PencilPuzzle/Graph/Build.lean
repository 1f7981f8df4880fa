import PencilPuzzle.Graph.Basic
import PencilPuzzle.Register
import PencilPuzzle.Sorted

/-!
# Building a graph

Faces are laid one after the other, each as a cycle of vertices; a side that no earlier face has
becomes a new edge. Afterwards every edge must have at most two faces. Of several things that are
wrong the one noticed first counts: at the earliest face, and there its cycle before its edges.
-/

namespace PencilPuzzle

/-- Hints by face. A face may be listed with no hint; the faces listed are all different. -/
abbrev Hints := List (Int × Option Int)

namespace Hints

def get (hints : Hints) (face : Nat) : Option Int := (hints.lookup (face : Int)).join

/-- Lists a face anew, in its old place if it was listed before. -/
def set (hints : Hints) (face : Int) (hint : Option Int) : Hints :=
  if hints.any (·.1 = face) then
    hints.map fun entry => if entry.1 = face then (face, hint) else entry
  else hints ++ [(face, hint)]

def erase (hints : Hints) (face : Int) : Hints := hints.filter (·.1 ≠ face)

/-- The last entry of a face counts. -/
def ofEntries (entries : List (Int × Option Int)) : Hints :=
  entries.foldl (fun hints entry => hints.set entry.1 entry.2) []

def unknown (hints : Hints) (count : Nat) : List Int :=
  ascending ((hints.map Prod.fst).filter fun face => !Graph.isNumber count face)

end Hints

namespace Graph

def bare (vertexCount : Nat) : Graph := { vertexCount, edges := #[], faces := #[] }

/-- The edges around a cycle, from each vertex to the next one. -/
def sides (cycle : List Nat) : List Edge :=
  List.zipWith Edge.joining cycle (cycle.drop 1 ++ cycle.take 1)

/-! ### Laying faces -/

/-- The edges made so far, to be found by their smaller ends. -/
abbrev EdgeRegister := Register Edge.start

def layEdge (edges : EdgeRegister) (edge : Edge) : EdgeRegister × Nat :=
  match edges.find? edge with
  | some e => (edges, e)
  | none =>
    let e := edges.size
    (edges.push edge, e)

def layEdges (edges : EdgeRegister) : List Edge → EdgeRegister × List Nat
  | [] => (edges, [])
  | edge :: rest =>
    let (laid, e) := layEdge edges edge
    let (final, others) := layEdges laid rest
    (final, e :: others)

/-- The edges and faces of some cycles, behind those of earlier ones. -/
def layFaces (hints : Hints) (edges : EdgeRegister) (faces : Array Face) :
    List (List Nat) → EdgeRegister × Array Face
  | [] => (edges, faces)
  | cycle :: rest =>
    let (laid, around) := layEdges edges (sides cycle)
    layFaces hints laid (faces.push ⟨cycle, around, hints.get faces.size⟩) rest

/-- The graph of some cycles, whatever they are. -/
def ofCycles (vertexCount : Nat) (cycles : List (List Nat)) (hints : Hints) : Graph :=
  let (edges, faces) := layFaces hints Register.empty #[] cycles
  { vertexCount, edges := edges.items, faces }

/-! ### Faults -/

/-- What is wrong with a cycle by itself. -/
def cycleFault? (vertexCount face : Nat) (cycle : List Int) : Option GraphFault :=
  if cycle.length < 3 then some (.shortFace face)
  else if ¬ cycle.Nodup then some (.repeatedVertex face cycle)
  else (cycle.find? fun v => !isNumber vertexCount v).map (.unknownVertex face)

def faultyCycle? (vertexCount : Nat) (cycles : List (List Int)) : Option (Nat × GraphFault) :=
  cycles.zipIdx.findSome? fun (cycle, face) =>
    (cycleFault? vertexCount face cycle).map fun fault => (face, fault)

def crowdedAt? (graph : Graph) (face e : Nat) : Option GraphFault :=
  match graph.facesOf e, graph.edges[e]? with
  | first :: second :: third :: _, some edge =>
    if third = face then some (.crowdedEdge e edge.start edge.stop [first, second, third])
    else none
  | _, _ => none

/-- The fault of the first edge to get a third face. -/
def crowded? (graph : Graph) : Option GraphFault :=
  graph.faceIds.findSome? fun face => (graph.edgesOf face).findSome? (graph.crowdedAt? face)

/-- The graph of the given faces; every listed hint must belong to one of them. -/
def build (vertexCount : Nat) (cycles : List (List Int)) (hints : Hints) : Except Fault Graph :=
  let faulty := faultyCycle? vertexCount cycles
  let sound := match faulty with
    | some (face, _) => cycles.take face
    | none => cycles
  let graph := ofCycles vertexCount (sound.map (·.map Int.toNat)) hints
  match graph.crowded? <|> faulty.map Prod.snd, hints.unknown graph.faces.size with
  | some fault, _ => .error (.graph fault)
  | none, [] => .ok graph
  | none, faces => .error (.graph (.unknownHints faces))

end Graph

end PencilPuzzle
