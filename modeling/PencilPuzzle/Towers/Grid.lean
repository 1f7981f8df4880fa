import PencilPuzzle.Latin
import PencilPuzzle.Puzzle
import PencilPuzzle.Towers.Line

/-!
# Tower grids

A square grid in which every row and column holds each height once, with clues around it that say
how many towers are seen from there. The cell in column `x` of row `y` is variable `y * size + x`.
-/

namespace PencilPuzzle.Towers

/-! ### Clues -/

inductive Side where
  | top
  | bottom
  | left
  | right
  deriving DecidableEq

namespace Side

def all : List Side := [top, bottom, left, right]

def name : Side → String
  | top => "top"
  | bottom => "bottom"
  | left => "left"
  | right => "right"

def index : Side → Nat
  | top => 0
  | bottom => 1
  | left => 2
  | right => 3

def ofIndex (index : Int) : Except Fault Side :=
  match all.find? fun side => (side.index : Int) = index with
  | some side => .ok side
  | none => .error (.towers (.unknownSide index))

end Side

/-- The clues of one side: one for each line, none of them above the height of the tallest tower. -/
structure ClueRow (size : Nat) where
  values : List Nat
  length_eq : values.length = size
  le_size : ∀ clue ∈ values, clue ≤ size
  deriving DecidableEq

def ClueRow.new (size : Nat) (side : Side) (clues : List Int) : Except Fault (ClueRow size) :=
  if length_eq : clues.length = size then
    if bounded : ∀ clue ∈ clues, 0 ≤ clue ∧ clue ≤ size then
      .ok ⟨clues.map Int.toNat, by simp [length_eq], by
        intro clue member
        obtain ⟨given, here, rfl⟩ := List.mem_map.mp member
        have := bounded given here
        omega⟩
    else .error (.towers (.clueRange side.name size clues))
  else .error (.towers (.clueCount size side.name clues.length))

/-- Clues around a grid: top and bottom from left to right, left and right from top to bottom. -/
structure Clues (size : Nat) where
  top : ClueRow size
  bottom : ClueRow size
  left : ClueRow size
  right : ClueRow size
  deriving DecidableEq

def Clues.on {size : Nat} (clues : Clues size) : Side → List Nat
  | .top => clues.top.values
  | .bottom => clues.bottom.values
  | .left => clues.left.values
  | .right => clues.right.values

structure Grid where
  size : Nat
  size_pos : 0 < size
  clues : Clues size
  deriving DecidableEq

/-- A grid of the given size and clues; the first bad side is reported. -/
def Grid.new (size : Int) (clues : Side → List Int) : Except Fault Grid :=
  if size_pos : 0 < size.toNat then do
    let top ← ClueRow.new size.toNat .top (clues .top)
    let bottom ← ClueRow.new size.toNat .bottom (clues .bottom)
    let left ← ClueRow.new size.toNat .left (clues .left)
    let right ← ClueRow.new size.toNat .right (clues .right)
    return ⟨size.toNat, size_pos, ⟨top, bottom, left, right⟩⟩
  else .error (.towers .emptyGrid)

/-- A grid without clues. Sizes for which no row of clues can be stored are refused. -/
def Grid.unclued (size : Int) : Except Fault Grid := do
  Room.checkList size
  Grid.new size fun _ => List.replicate size.toNat 0

namespace Grid

variable (grid : Grid)

/-! ### Cells and lines -/

def cell (x y : Nat) : Nat := y * grid.size + x

/-- The variable of the cell at integer coordinates. -/
def cellAt (x y : Int) : Except Fault Nat :=
  if 0 ≤ x ∧ x < grid.size ∧ 0 ≤ y ∧ y < grid.size then .ok (grid.cell x.toNat y.toNat)
  else .error (.towers (.cellOutside x y grid.size))

/-- The cells of a row or column, going away from a side. -/
def line (side : Side) (index : Nat) : List Nat :=
  match side with
  | .top => (List.range grid.size).map fun y => grid.cell index y
  | .bottom => (List.range grid.size).reverse.map fun y => grid.cell index y
  | .left => (List.range grid.size).map fun x => grid.cell x index
  | .right => (List.range grid.size).reverse.map fun x => grid.cell x index

/-- The line that integers name; the index is checked before the side. -/
def lineAt (side index : Int) : Except Fault (List Nat) :=
  if 0 ≤ index ∧ index < grid.size then do
    let found ← Side.ofIndex side
    return grid.line found index.toNat
  else .error (.towers (.lineOutside index grid.size))

/-- Side, index and clue of every line with a clue. -/
def cluedLines : List (Side × Nat × Nat) :=
  Side.all.flatMap fun side =>
    (grid.clues.on side).zipIdx.filterMap fun (clue, index) =>
      if clue = 0 then none else some (side, index, clue)

/-- The columns and then the rows, each with the clues at its ends. -/
def clueLines : List ClueLine :=
  let facing (side opposite : Side) : List ClueLine :=
    (List.zip (grid.clues.on side) (grid.clues.on opposite)).zipIdx.map fun (clues, index) =>
      ⟨(grid.line side index).map Int.ofNat, clues.1, clues.2⟩
  facing .top .bottom ++ facing .left .right

/-! ### States -/

/-- All cells open, with rows and columns as constraints. -/
def initial : State :=
  { State.blank (grid.size * grid.size) grid.size with
    constraints :=
      (List.range grid.size).map (fun y => (Key.member "row" y, grid.line .left y)) ++
      (List.range grid.size).map (fun x => (Key.member "col" x, grid.line .top x)) }

def setGiven (state : State) (x y height : Int) : Except Fault State :=
  if 1 ≤ height ∧ height ≤ grid.size then do
    let v ← grid.cellAt x y
    state.lock v (height - 1)
  else .error (.towers (.heightRange grid.size height))

def heightOf (state : State) (v : Nat) : Nat :=
  match state.value? v with
  | some x => x + 1
  | none => 0

def heightAt (state : State) (x y : Int) : Except Fault (Option Nat) := do
  let v ← grid.cellAt x y
  return (state.value? v).map (· + 1)

def lineHeights (state : State) (side : Side) (index : Nat) : List Nat :=
  (grid.line side index).map (heightOf state)

/-- The heights row by row, 0 for open cells. -/
def heights (state : State) : List (List Nat) :=
  (List.range grid.size).map (grid.lineHeights state .left)

def rowsAndColumns (state : State) : List (List Nat) :=
  grid.heights state ++ (List.range grid.size).map (grid.lineHeights state .top)

/-! ### Rules of the game -/

/-- Whether the towers before the first open cell can belong to a line with this clue. Behind the
tallest tower nothing is seen, so from there on the clue has to be met. -/
def openingFits (clue : Nat) (heights : List Nat) : Bool :=
  let known := heights.takeWhile (· ≠ 0)
  let visible := countVisible known
  visible ≤ clue && (grid.size ∉ known || visible = clue)

/-- Whether no line repeats a height and no clue is contradicted by the towers seen so far. -/
def isConsistent (state : State) : Bool :=
  (grid.rowsAndColumns state).all (fun line => (line.filter (· ≠ 0)).Nodup) &&
  grid.cluedLines.all fun (side, index, clue) =>
    grid.openingFits clue (grid.lineHeights state side index)

/-- Whether every line holds each height once and every clue is met. -/
def isSolved (state : State) : Bool :=
  state.allDetermined &&
  (grid.rowsAndColumns state).all (fun line => line.isPerm (List.range' 1 grid.size)) &&
  grid.cluedLines.all fun (side, index, clue) =>
    countVisible (grid.lineHeights state side index) = clue

def rules : List Rule := [Latin.elimination, Latin.hiddenSingle, visibility grid.clueLines]

def puzzle : Puzzle where
  rules := grid.rules
  isConsistent state := .ok (grid.isConsistent state)
  isSolved state := .ok (grid.isSolved state)
  guessOrder := none

/-! ### Texts -/

def clueText (clue : Nat) : String := if clue = 0 then " " else toString clue

def heightText (height : Nat) : String := if height = 0 then "." else toString height

def edgeText (clues : List Nat) : String := "   " ++ " ".intercalate (clues.map clueText)

/-- The grid with its clues around it; a point is an open cell. -/
def render (state : State) : String :=
  let row (cells : List Nat) (clues : Nat × Nat) : String :=
    clueText clues.1 ++ "  " ++ " ".intercalate (cells.map heightText) ++ "  " ++ clueText clues.2
  let rows := List.zipWith row (grid.heights state)
    (List.zip (grid.clues.on .left) (grid.clues.on .right))
  "\n".intercalate
    ([edgeText (grid.clues.on .top)] ++ rows ++ [edgeText (grid.clues.on .bottom)])

def describe : String :=
  let clues (side : Side) : String :=
    side.name ++ "=" ++ Text.bracketed ((grid.clues.on side).map toString)
  s!"TowersPuzzle(size={grid.size}, visibilities=Visibilities(" ++
    ", ".intercalate (Side.all.map clues) ++ "))"

end Grid

end PencilPuzzle.Towers
