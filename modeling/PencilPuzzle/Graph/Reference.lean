import PencilPuzzle.Graph.Path

/-!
# References to parts of a graph

Callers may count vertices, edges and faces from the end, with negative numbers: `-1` is the last
one. A reference is only ever resolved to look something up. It is not replaced by the number it
stands for, so the same edge under two names counts as two, and a negative name is never among the
edges that a query finds.
-/

namespace PencilPuzzle.Graph

/-- Below it lie the lengths of all lists that can be stored. -/
def indexBound : Int := 0x8000000000000000

/-- The number that a reference into a list of a given length stands for. -/
def resolve (length : Nat) (reference : Int) : Except Fault Nat :=
  if 0 ≤ reference ∧ reference < length then .ok reference.toNat
  else if reference < 0 ∧ -(length : Int) ≤ reference then .ok (reference + length).toNat
  else if reference < indexBound ∧ -indexBound ≤ reference then .error (.graph .outOfRange)
  else .error (.graph .farReference)

def direct? (reference : Int) : Option Nat := if 0 ≤ reference then some reference.toNat else none

namespace Reference

variable (graph : Graph)

def vertex (reference : Int) : Except Fault Nat := resolve graph.vertexCount reference

def edge (reference : Int) : Except Fault Nat := resolve graph.edges.size reference

def face (reference : Int) : Except Fault Nat := resolve graph.faces.size reference

def facesOf (e : Int) : Except Fault (List Nat) := return graph.facesOf (← edge graph e)

/-- Faces are compared by name before they are looked up. -/
def sharedEdge (f g : Int) : Except Fault (Option Nat) :=
  if f = g then .ok none
  else do
    let first ← face graph f
    let second ← face graph g
    return (graph.edgesOf first).find? (· ∈ graph.edgesOf second)

def faceHasVertex (f v : Int) : Except Fault Bool := do
  let found ← face graph f
  return (direct? v).any (· ∈ graph.verticesOf found)

def faceHasEdge (f e : Int) : Except Fault Bool := do
  let found ← face graph f
  return (direct? e).any (· ∈ graph.edgesOf found)

def edgesOf (f : Int) : Except Fault (List Nat) := return graph.edgesOf (← face graph f)

def verticesOf (f : Int) : Except Fault (List Nat) := return graph.verticesOf (← face graph f)

def hintOf (f : Int) : Except Fault (Option Int) := return graph.hintOf (← face graph f)

def facesAt (v : Int) : Except Fault (List Nat) := return graph.facesAt (← vertex graph v)

def endsOf (e : Int) : Except Fault (List Nat) := return graph.endsOf (← edge graph e)

def edgesAt (v : Int) : Except Fault (List Nat) := return graph.edgesAt (← vertex graph v)

def edgeBetween (v w : Int) : Option Nat :=
  match direct? v, direct? w with
  | some v, some w => graph.edgeBetween v w
  | _, _ => none

def edgesMeet (e f : Int) : Except Fault Bool := do
  let second ← edge graph f
  let first ← edge graph e
  return (graph.endsOf second).any (· ∈ graph.endsOf first)

def isBoundary (e : Int) : Except Fault Bool := return graph.isBoundary (← edge graph e)

/-- The path of the included edges through an edge; without a choice all edges are included. Under a
negative name an edge is on no path but its own. -/
def path (e : Int) (included : Option (List Int)) : Except Fault (List Int) := do
  let _ ← edge graph e
  match direct? e with
  | none => return [e]
  | some first =>
    let isMember (e : Nat) : Bool := match included with
      | none => true
      | some edges => (e : Int) ∈ edges
    return (graph.path isMember first).map Int.ofNat

def edges : List Int → Except Fault (List Nat)
  | [] => .ok []
  | e :: rest => do
    let first ← edge graph e
    let others ← edges rest
    return first :: others

/-- Whether edges form a simple closed loop. Fewer than three names are never looked up. -/
def isLoop (names : List Int) : Except Fault Bool :=
  let names := names.eraseDups
  if names.length < 3 then .ok false
  else do
    let _ ← edges graph names
    if names.any (· < 0) then return false
    else return graph.isLoop (names.map Int.toNat)

end Reference

end PencilPuzzle.Graph
