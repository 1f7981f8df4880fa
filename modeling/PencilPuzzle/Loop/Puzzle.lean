import PencilPuzzle.Loop.Rules
import PencilPuzzle.Puzzle
import PencilPuzzle.Sorted

/-!
# Loop puzzles

Draw one closed loop along the edges of a planar graph so that every hinted face has as many edges
on the loop as its hint says.
-/

namespace PencilPuzzle.Loop

variable (graph : Graph)

/-- All edges open, with the faces and then the vertices as constraints. -/
def initial : State :=
  { State.blank graph.edges.size 2 with
    constraints :=
      graph.faceIds.map (fun f => (Key.member "face" f, graph.edgesOf f)) ++
      graph.vertexIds.filterMap fun v =>
        match graph.edgesAt v with
        | [] => none
        | edges => some (Key.member "vertex" v, edges) }

def setEdge (state : State) (e value : Int) : Except Fault State := state.lock e value

def edgeMark (state : State) (e : Int) : Except Fault (Option Mark) := do
  let v ← state.checkVar e
  return (state.value? v).map Mark.ofValue

def markedEdges (state : State) : List Nat := graph.edgeIds.filter (isMarked state)

/-! ### Rules of the game -/

def hintFits (state : State) (edges : List Nat) (hint : Int) : Bool :=
  markedCount state edges ≤ hint && hint ≤ edges.countP (isEnabled state)

/-- Whether no vertex has more than two marked edges, every hint can still be met, and no loop
leaves marked edges out. -/
def isConsistent (state : State) : Bool :=
  graph.vertexIds.all (fun v => markedCount state (graph.edgesAt v) ≤ 2) &&
  graph.faceIds.all (fun f =>
    match graph.hintOf f with
    | none => true
    | some hint => hintFits state (graph.edgesOf f) hint) &&
  let runs := markedRuns state graph
  !(1 < runs.length && runs.any graph.isLoop)

def isSolved (state : State) : Bool :=
  graph.faceIds.all (fun f =>
    match graph.hintOf f with
    | none => true
    | some hint => (markedCount state (graph.edgesOf f) : Int) = hint) &&
  graph.isLoop (markedEdges graph state)

/-! ### Order of guesses -/

/-- The open edges at vertices with one marked edge, each with the number of hinted faces around
that vertex. -/
def openEnds (state : State) : List (Nat × Nat) :=
  graph.vertexIds.flatMap fun v =>
    let edges := graph.edgesAt v
    if markedCount state edges = 1 then
      let hinted := (graph.facesAt v).countP fun f => (graph.hintOf f).isSome
      (edges.filter (isOpen state)).map fun e => (hinted, e)
    else []

/-- The open edges: those that continue an open end of the loop first, by falling number of hinted
faces around it and then by number, the others by number. -/
def guessOrder (state : State) : List Nat :=
  let sorted := sortBy (fun p q => q.1 < p.1 || (p.1 = q.1 && p.2 ≤ q.2))
    (openEnds graph state)
  let first := (sorted.map Prod.snd).eraseDups
  first ++ graph.edgeIds.filter fun e => isOpen state e && e ∉ first

def puzzle : Puzzle where
  rules := rules graph
  isConsistent state := .ok (isConsistent graph state)
  isSolved state := .ok (isSolved graph state)
  guessOrder := some fun state => (guessOrder graph state).map Int.ofNat

/-! ### Texts -/

def edgeSymbol (state : State) (e : Nat) : Char :=
  match (state.value? e).map Mark.ofValue with
  | some .marked => '#'
  | some .disabled => 'x'
  | none => '.'

def padRight (width : Nat) (text : String) : String :=
  text ++ String.ofList (List.replicate (width - text.length) ' ')

def padLeft (width : Nat) (text : String) : String :=
  String.ofList (List.replicate (width - text.length) ' ') ++ text

/-- One line for each face: its number, its hint, and the state of its edges. -/
def render (state : State) : String :=
  "\n".intercalate (graph.faceIds.map fun f =>
    let hint := match graph.hintOf f with
      | none => "-"
      | some hint => toString hint
    "F" ++ padRight 3 (toString f) ++ " " ++ padLeft 2 hint ++ " " ++
      String.ofList ((graph.edgesOf f).map (edgeSymbol state)))

def describe : String := "LoopyPuzzle(" ++ graph.describe ++ ")"

end PencilPuzzle.Loop
