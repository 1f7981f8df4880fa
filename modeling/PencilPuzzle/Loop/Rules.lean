import PencilPuzzle.Loop.Network

/-!
# Rules of loop puzzles

Each rule looks at the faces or vertices in order and decides open edges; a decision that is reached
twice is listed where it is reached first.
-/

namespace PencilPuzzle.Loop

variable (graph : Graph)

def zeroFace : Rule where
  name := "zero-face"
  deduce state :=
    .ok (graph.faceIds.flatMap fun f =>
      if graph.hintOf f = some 0 then
        ((graph.edgesOf f).filter (isOpen state)).map disable
      else []).eraseDups

/-- The open edges of a hinted face are disabled when enough are marked, and marked when all of them
are needed. -/
def completeFace (state : State) (edges : List Nat) (hint : Int) : List Update :=
  let rest := edges.filter (isOpen state)
  if (markedCount state edges : Int) = hint then rest.map disable
  else if (markedCount state edges + rest.length : Nat) = hint then rest.map mark
  else []

/-- Completes hinted faces whose count is already decided. -/
def exactEdgeCount : Rule where
  name := "exact-edge-count"
  deduce state :=
    .ok (graph.faceIds.flatMap fun f =>
      match graph.hintOf f with
      | none => []
      | some hint => completeFace state (graph.edgesOf f) hint).eraseDups

/-- The loop passes a vertex once. -/
def twoEdgesPerVertex : Rule where
  name := "two-edges-per-vertex"
  deduce state :=
    .ok (graph.vertexIds.flatMap fun v =>
      let edges := graph.edgesAt v
      if markedCount state edges = 2 then (edges.filter (isOpen state)).map disable
      else []).eraseDups

def looseEnd? (state : State) (v : Nat) : Option Contradiction :=
  match (graph.edgesAt v).filter (isEnabled state) with
  | [e] => if isMarked state e then some (.looseEnd e v) else none
  | _ => none

/-- What follows at a vertex that the loop can pass in at most one way. -/
def passVertex (state : State) (v : Nat) : List Update :=
  match (graph.edgesAt v).filter (isEnabled state) with
  | [e] => [disable e]
  | [e, f] =>
    match isMarked state e, isMarked state f with
    | true, false => [mark f]
    | false, true => [mark e]
    | _, _ => []
  | _ => []

/-- A vertex with one enabled edge is a dead end; a marked edge with one way on takes it. -/
def deadEnd : Rule where
  name := "dead-end"
  deduce state :=
    match graph.vertexIds.findSome? (looseEnd? graph state) with
    | some cause => .error (.contradiction cause)
    | none => .ok (graph.vertexIds.flatMap (passVertex graph state)).eraseDups

def hintsMet (loop : List Nat) : Bool :=
  graph.faceIds.all fun f =>
    match graph.hintOf f with
    | none => true
    | some hint => ((graph.edgesOf f).countP (· ∈ loop) : Int) = hint

def runEnds (run : List Nat) : List Nat :=
  (run.flatMap graph.endsOf).eraseDups.filter fun v => graph.degree run v = 1

/-- The open edge that would close a run to a loop. -/
def closingEdge? (state : State) (run : List Nat) : Option Nat :=
  match runEnds graph run with
  | [v, w] => (graph.edgeBetween v w).filter (isOpen state)
  | _ => none

/-- Disables an edge that would close a run to a wrong loop: one that leaves marked edges out or
misses a hint. -/
def prematureLoop : Rule where
  name := "premature-loop"
  deduce state :=
    let runs := markedRuns state graph
    let total := runs.flatten.length
    .ok (runs.filterMap fun run =>
      match closingEdge? graph state run with
      | none => none
      | some e =>
        if run.length < total || !hintsMet graph (e :: run) then some (disable e)
        else none).eraseDups

def rules : List Rule :=
  [zeroFace graph, exactEdgeCount graph, twoEdgesPerVertex graph, deadEnd graph,
    prematureLoop graph, faceNetwork graph]

end PencilPuzzle.Loop
