import PencilPuzzle.Graph.FaceSet
import PencilPuzzle.Loop.Edge
import PencilPuzzle.Sorted

/-!
# Face networks

Faces on both sides of a disabled edge lie on the same side of the loop. Merging them along all
disabled edges gives the networks, and each network lies inside or outside as a whole.

Networks are kept as labels: every face carries the smallest face of its network.
-/

namespace PencilPuzzle.Loop

/-- The smallest face of the network of each face. -/
abbrev Labels := Array Nat

/-- Joins the networks of two faces under the smaller of their labels. -/
def Labels.merge (labels : Labels) (f g : Nat) : Labels :=
  let a := labels.getD f f
  let b := labels.getD g g
  labels.map fun label => if label = max a b then min a b else label

/-- Merges the faces on both sides of each of the edges that is disabled. -/
def mergeAlong (graph : Graph) (state : State) (labels : Labels) : List Nat → Labels
  | [] => labels
  | e :: rest =>
    match graph.facesOf e with
    | [f, g] =>
      if isDisabled state e then mergeAlong graph state (labels.merge f g) rest
      else mergeAlong graph state labels rest
    | _ => mergeAlong graph state labels rest

def networkLabels (graph : Graph) (state : State) : Labels :=
  mergeAlong graph state graph.faceIds.toArray graph.edgeIds

/-- The networks, each with its faces ascending, ordered by their smallest faces. -/
def networks (graph : Graph) (state : State) : List (List Nat) :=
  let labels := networkLabels graph state
  let label (f : Nat) : Nat := labels.getD f f
  let members := occurrenceLists graph.faces.size graph.faces.size fun f => [label f]
  (graph.faceIds.filter fun f => label f = f).map fun root => members.getD root []

theorem networks_eq (graph : Graph) (state : State) :
    networks graph state =
      (graph.faceIds.filter fun f => (networkLabels graph state).getD f f = f).map fun root =>
        graph.faceIds.filter fun f => (networkLabels graph state).getD f f = root := by
  refine List.map_congr_left fun root member => ?_
  have inside : root < graph.faces.size := List.mem_range.mp (List.mem_filter.mp member).1
  simp only [occurrenceLists_eq, Array.getD_eq_getD_getElem?, List.getElem?_toArray,
    List.getElem?_map, List.getElem?_range inside, Option.map_some, Option.getD_some]
  refine List.filter_congr fun f _ => ?_
  simp [eq_comm]

def networkNumbers (graph : Graph) (networks : Array (List Nat)) : Array (List Nat) :=
  occurrenceLists graph.faces.size networks.size fun n => networks.getD n []

/-! ### Inside and outside -/

def innerEdges (graph : Graph) (numbers : Array (List Nat)) : List (Nat × Nat × Nat) :=
  graph.edgeIds.filterMap fun e =>
    match graph.facesOf e with
    | [f, g] =>
      match numbers.getD f [], numbers.getD g [] with
      | [a], [b] => some (e, a, b)
      | _, _ => none
    | _ => none

def markedInside? (state : State) (inner : List (Nat × Nat × Nat)) : Option Contradiction :=
  inner.findSome? fun (e, a, b) =>
    if a = b && isMarked state e then some (.markedInside e a) else none

/-- The loop does not run between two faces of one network. -/
def closeNetworks (state : State) (inner : List (Nat × Nat × Nat)) : List Update :=
  (inner.filter fun (e, a, b) => a = b && isOpen state e).map fun (e, _, _) => disable e

/-- The pairs of different networks that meet at an edge, in ascending order. -/
def neighbours (inner : List (Nat × Nat × Nat)) : List (Nat × Nat) :=
  let pairs := (inner.filter fun (_, a, b) => a ≠ b).map fun (_, a, b) => (min a b, max a b)
  dropRepeats (sortBy (fun p q => p.1 < q.1 || (p.1 = q.1 && p.2 ≤ q.2)) pairs)

/-- Networks that a marked edge separates lie on different sides, so the loop runs along every edge
between them. -/
def separateNetworks (graph : Graph) (state : State) (networks : Array (List Nat))
    (inner : List (Nat × Nat × Nat)) : List Update :=
  (neighbours inner).flatMap fun (a, b) =>
    let between := graph.edgesBetween (networks.getD a []) (networks.getD b [])
    if between.any (isMarked state) then (between.filter (isOpen state)).map mark else []

def outerEdges (graph : Graph) (network : List Nat) : List Nat :=
  (graph.boundaryEdges network).filter graph.isBoundary

def withOuterEdges (graph : Graph) (networks : List (List Nat)) : List (List Nat × List Nat) :=
  networks.map fun network => (network, outerEdges graph network)

def bothSides? (state : State) (outer : List (List Nat × List Nat)) : Option Contradiction :=
  outer.findSome? fun (network, outer) =>
    if outer.any (isDisabled state) && outer.any (isMarked state) then some (.bothSides network)
    else none

/-- A network outside the loop has no marked edge on the boundary, one inside only marked ones. -/
def settleBoundary (state : State) (outer : List (List Nat × List Nat)) : List Update :=
  outer.flatMap fun (_, outer) =>
    if outer.any (isDisabled state) then (outer.filter (isOpen state)).map disable
    else if outer.any (isMarked state) then (outer.filter (isOpen state)).map mark
    else []

/-- Carries inside and outside between networks. -/
def faceNetwork (graph : Graph) : Rule where
  name := "face-network"
  deduce state :=
    let found := networks graph state
    let inner := innerEdges graph (networkNumbers graph found.toArray)
    let outer := withOuterEdges graph found
    match markedInside? state inner <|> bothSides? state outer with
    | some cause => .error (.contradiction cause)
    | none =>
      .ok (closeNetworks state inner ++ separateNetworks graph state found.toArray inner ++
        settleBoundary state outer).eraseDups

end PencilPuzzle.Loop
