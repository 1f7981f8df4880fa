import PencilPuzzle.Graph.Sketch

/-!
# Tilings

Grids of squares and of hexagons. Faces are numbered row by row: the face in column `x` of row `y`
has number `y * width + x`. All corners lie on integer positions, so neighbours meet exactly.
-/

namespace PencilPuzzle.Tiling

abbrev Position := Int × Int

/-- The row of a position: grids are wide in both directions, so rows are short. -/
def row (position : Position) : Nat := position.2.natAbs

/-- The corners of a unit square, clockwise from its upper left one. -/
def squareCorners (x y : Nat) : List Position :=
  let x : Int := x
  let y : Int := y
  [(x, y), (x + 1, y), (x + 1, y + 1), (x, y + 1)]

def hexWidth : Int := 15

def hexHeight : Int := 26

/-- The corners of a flat-topped hexagon, clockwise from its upper left one. Odd columns sit half a
hexagon lower. -/
def hexagonCorners (x y : Nat) : List Position :=
  let a := hexWidth
  let b := hexHeight
  let cx : Int := 3 * a * x
  let cy : Int := 2 * b * y + (x % 2 : Nat) * b
  [(cx - a, cy - b), (cx + a, cy - b), (cx + 2 * a, cy), (cx + a, cy + b), (cx - a, cy + b),
    (cx - 2 * a, cy)]

/-- The cells of a grid as column and row, row by row. -/
def cells (width height : Nat) : List (Nat × Nat) :=
  (List.range height).flatMap fun y => (List.range width).map fun x => (x, y)

def sketch (corners : Nat → Nat → List Position) (width height : Nat) : Sketch row :=
  (cells width height).foldl (fun sketch cell => sketch.addTile (corners cell.1 cell.2))
    Sketch.empty

/-- A grid of tiles with hints; a face listed with no hint is not listed at all. -/
def grid (corners : Nat → Nat → List Position) (width height : Int) (hints : Hints) :
    Except Fault (Drawing Position) :=
  if width < 1 ∨ height < 1 then .error (.graph (.emptyGrid width height))
  else
    let tiles := sketch corners width.toNat height.toNat
    (hints.foldl (fun sketch entry => sketch.setHint entry.1 entry.2) tiles).draw

def squareGrid : Int → Int → Hints → Except Fault (Drawing Position) := grid squareCorners

def honeycombGrid : Int → Int → Hints → Except Fault (Drawing Position) := grid hexagonCorners

end PencilPuzzle.Tiling
