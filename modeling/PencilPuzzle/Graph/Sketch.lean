import PencilPuzzle.Graph.Build

/-!
# Sketches

A graph under construction: positions of vertices, cycles and hints, collected without any check
until the graph is drawn. Faces made from shared positions share vertices, hence edges.
-/

namespace PencilPuzzle

/-- A graph with the positions of its vertices. -/
structure Drawing (α : Type) where
  positions : Array α
  graph : Graph

def Drawing.build {α : Type} (positions : Array α) (cycles : List (List Int)) (hints : Hints) :
    Except Fault (Drawing α) := do
  let graph ← Graph.build positions.size cycles hints
  return ⟨positions, graph⟩

/-- Positions are looked up by a key of theirs, which need not tell them apart. -/
structure Sketch {α : Type} (key : α → Nat) where
  positions : Register key
  /-- The newest cycle first. -/
  cycles : List (List Int)
  hints : Hints

abbrev FreeSketch (α : Type) := Sketch fun _ : α => 0

namespace Sketch

variable {α : Type} {key : α → Nat}

def empty : Sketch key := ⟨Register.empty, [], []⟩

/-- Adds a vertex, even where there is one already. -/
def addVertex (sketch : Sketch key) (position : α) : Sketch key × Nat :=
  let v := sketch.positions.size
  ({ sketch with positions := sketch.positions.push position }, v)

/-- The newest vertex at a position. -/
def vertexAt? [DecidableEq α] (sketch : Sketch key) (position : α) : Option Nat :=
  sketch.positions.find? position

def vertexAt [DecidableEq α] (sketch : Sketch key) (position : α) : Sketch key × Nat :=
  match sketch.vertexAt? position with
  | some v => (sketch, v)
  | none => sketch.addVertex position

def setHint (sketch : Sketch key) (face : Int) (hint : Option Int) : Sketch key :=
  match hint with
  | none => { sketch with hints := sketch.hints.erase face }
  | some hint => { sketch with hints := sketch.hints.set face (some hint) }

def addFace (sketch : Sketch key) (cycle : List Int) (hint : Option Int) : Sketch key × Nat :=
  let face := sketch.cycles.length
  let added := { sketch with cycles := cycle :: sketch.cycles }
  match hint with
  | none => (added, face)
  | some _ => (added.setHint face hint, face)

def verticesAt [DecidableEq α] (sketch : Sketch key) : List α → Sketch key × List Nat
  | [] => (sketch, [])
  | position :: rest =>
    let (found, v) := sketch.vertexAt position
    let (final, others) := found.verticesAt rest
    (final, v :: others)

def addTile [DecidableEq α] (sketch : Sketch key) (corners : List α) : Sketch key :=
  let (found, vertices) := sketch.verticesAt corners
  (found.addFace (vertices.map Int.ofNat) none).1

def draw (sketch : Sketch key) : Except Fault (Drawing α) :=
  Drawing.build sketch.positions.items sketch.cycles.reverse sketch.hints

end Sketch

end PencilPuzzle
