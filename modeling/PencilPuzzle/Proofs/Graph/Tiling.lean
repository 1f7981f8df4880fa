import PencilPuzzle.Graph.Tiling
import PencilPuzzle.Proofs.Graph.Sketch
import PencilPuzzle.Proofs.Rows

/-!
# Grids without holes

Squares and hexagons are laid row by row, and each of them attaches to those before it: its sides
towards earlier tiles are shared with them, and the others hang together from the lower right corner
on, which no earlier tile has. So every loop on such a grid has an inside.
-/

namespace PencilPuzzle.Tiling

open PencilPuzzle.Graph

variable {width height x y : Nat}

/-! ### Order of the cells -/

theorem mem_cells {cell : Nat × Nat} :
    cell ∈ cells width height ↔ cell.1 < width ∧ cell.2 < height := by
  obtain ⟨x, y⟩ := cell
  simp only [cells, List.mem_flatMap, List.mem_map, List.mem_range, Prod.mk.injEq]
  constructor
  · rintro ⟨_, below, _, inside, rfl, rfl⟩
    exact ⟨inside, below⟩
  · rintro ⟨inside, below⟩
    exact ⟨y, below, x, inside, rfl, rfl⟩

theorem cells_eq (width height : Nat) :
    cells width height = (List.range (height * width)).map fun f => (f % width, f / width) := by
  rw [← flatMap_rows, cells]
  refine List.flatMap_congr fun y _ => List.map_congr_left fun x inside => ?_
  have bound : x < width := List.mem_range.mp inside
  obtain ⟨column, row⟩ := (row_add_eq_iff (y := y) bound).mp rfl
  exact Prod.ext column row

/-- A cell comes before another one. -/
def Precedes (cell other : Nat × Nat) : Prop :=
  cell.2 < other.2 ∨ cell.2 = other.2 ∧ cell.1 < other.1

theorem pairwise_cells (width height : Nat) : (cells width height).Pairwise Precedes := by
  rw [cells, List.pairwise_flatMap]
  constructor
  · intro y _
    rw [List.pairwise_map]
    exact List.pairwise_lt_range.imp fun before => .inr ⟨rfl, before⟩
  · refine List.pairwise_lt_range.imp fun before cell here other there => ?_
    obtain ⟨_, _, rfl⟩ := List.mem_map.mp here
    obtain ⟨_, _, rfl⟩ := List.mem_map.mp there
    exact .inl before

theorem mem_earlier {earlier later : List (Nat × Nat)} {cell other : Nat × Nat}
    (split : cells width height = earlier ++ cell :: later) :
    other ∈ earlier ↔ other.1 < width ∧ Precedes other cell := by
  have ordered := pairwise_cells width height
  have inside : cell ∈ cells width height := by rw [split]; simp
  rw [split, List.pairwise_append, List.pairwise_cons] at ordered
  constructor
  · intro member
    have listed : other ∈ cells width height := by rw [split]; simp [member]
    exact ⟨(mem_cells.mp listed).1, ordered.2.2 other member cell (List.mem_cons_self ..)⟩
  · rintro ⟨bound, before⟩
    have below := (mem_cells.mp inside).2
    have listed : other ∈ cells width height := by
      refine mem_cells.mpr ⟨bound, ?_⟩
      unfold Precedes at before
      omega
    rw [split] at listed
    rcases List.mem_append.mp listed with early | late
    · exact early
    · rcases List.mem_cons.mp late with rfl | after
      · unfold Precedes at before
        omega
      · have behind := ordered.2.1.1 other after
        unfold Precedes at before behind
        omega

/-- The tiles are those of the cells before a given one. -/
def LaidBefore (corners : Nat → Nat → List Position) (width x y : Nat)
    (earlier : List (List Position)) : Prop :=
  ∀ tile, tile ∈ earlier ↔
    ∃ x' y', x' < width ∧ (y' < y ∨ y' = y ∧ x' < x) ∧ tile = corners x' y'

/-- Where the tiles of a grid are split, those before are the tiles of the earlier cells. -/
theorem laidBefore_of_split {corners : Nat → Nat → List Position}
    {earlier later : List (List Position)} {tile : List Position}
    (split : (cells width height).map (fun cell => corners cell.1 cell.2) = earlier ++ tile :: later) :
    ∃ x y, x < width ∧ tile = corners x y ∧ LaidBefore corners width x y earlier := by
  obtain ⟨before, rest, cut, rfl, others⟩ := List.map_eq_append_iff.mp split
  obtain ⟨⟨x, y⟩, after, rfl, rfl, rfl⟩ := List.map_eq_cons_iff.mp others
  have inside : (x, y) ∈ cells width height := by rw [cut]; simp
  refine ⟨x, y, (mem_cells.mp inside).1, rfl, fun tile => ?_⟩
  rw [List.mem_map]
  constructor
  · rintro ⟨⟨x', y'⟩, member, rfl⟩
    obtain ⟨bound, precedes⟩ := (mem_earlier cut).mp member
    exact ⟨x', y', bound, precedes, rfl⟩
  · rintro ⟨x', y', bound, precedes, rfl⟩
    exact ⟨(x', y'), (mem_earlier cut).mpr ⟨bound, precedes⟩, rfl⟩

/-- Tiles leave no holes if each attaches to those of the cells before it. -/
theorem shelled_of_attaches {corners : Nat → Nat → List Position}
    (attaches : ∀ x y earlier, x < width → LaidBefore corners width x y earlier →
      Attaches earlier (corners x y)) :
    Shelled ((cells width height).map fun cell => corners cell.1 cell.2) := by
  intro earlier tile later split
  obtain ⟨x, y, inside, rfl, laid⟩ := laidBefore_of_split split
  exact attaches x y earlier inside laid

/-! ### Attaching a tile -/

namespace LaidBefore

variable {corners : Nat → Nat → List Position} {earlier : List (List Position)} {i x' y' : Nat}
  {corner start stop : Position} (laid : LaidBefore corners width x y earlier)
include laid

theorem meets {j : Nat} (bound : i < (corners x y).length) (next : j = placeAfter (corners x y).length i)
    (place : (corners x y)[j]? = some corner)
    (new : ∀ x' y', x' < width → (y' < y ∨ y' = y ∧ x' < x) → corner ∉ corners x' y') :
    Meets earlier (corners x y) i j := by
  refine ⟨bound, next, corner, place, fun other listed => ?_⟩
  obtain ⟨x', y', inside, precedes, rfl⟩ := (laid other).mp listed
  exact new x' y' inside precedes

theorem shares (j k : Nat) (inside : x' < width) (precedes : y' < y ∨ y' = y ∧ x' < x)
    (tail : (corners x y)[i]? = some start)
    (head : (corners x y)[placeAfter (corners x y).length i]? = some stop)
    (head' : (corners x' y')[j]? = some stop)
    (next : k = placeAfter (corners x' y').length j) (tail' : (corners x' y')[k]? = some start) :
    Shares earlier (corners x y) i :=
  ⟨corners x' y', (laid _).mpr ⟨x', y', inside, precedes, rfl⟩, j, start, stop, tail, head, head',
    next ▸ tail'⟩

end LaidBefore

/-! ### Squares -/

theorem mem_squareCorners {corner : Position} :
    corner ∈ squareCorners x y ↔ ((x : Int) = corner.1 ∨ (x + 1 : Int) = corner.1) ∧
      ((y : Int) = corner.2 ∨ (y + 1 : Int) = corner.2) := by
  obtain ⟨p, q⟩ := corner
  simp only [squareCorners, List.mem_cons, Prod.mk.injEq, List.not_mem_nil, or_false]
  omega

private theorem attaches_square {earlier : List (List Position)} (inside : x < width)
    (laid : LaidBefore squareCorners width x y earlier) : Attaches earlier (squareCorners x y) := by
  have four : (squareCorners x y).length = 4 := rfl
  -- The right side hangs from the lower one at the lower right corner.
  have right : Relation.EqvGen (Meets earlier (squareCorners x y)) 2 1 := by
    refine .symm _ _ (.rel _ _ (laid.meets (by omega) rfl rfl fun x' y' _ precedes => ?_))
    rw [mem_squareCorners]
    omega
  refine ⟨2, by omega, fun i bound => ?_⟩
  match i, four ▸ bound with
  | 0, _ =>
    cases y with
    | zero =>
      refine .inr (right.trans _ _ _ (.symm _ _ (.rel _ _ (laid.meets bound rfl rfl ?_))))
      intro x' y' _ precedes
      rw [mem_squareCorners]
      omega
    | succ above =>
      refine .inl (laid.shares 2 3 inside (.inl (Nat.lt_succ_self above)) rfl rfl ?_ rfl ?_)
      · simp [squareCorners]
      · simp [squareCorners]
  | 1, _ => exact .inr right
  | 2, _ => exact .inr (.refl _)
  | 3, _ =>
    cases x with
    | zero =>
      refine .inr (.rel _ _ (laid.meets (by omega) rfl rfl fun x' y' _ precedes => ?_))
      rw [mem_squareCorners]
      omega
    | succ left =>
      refine .inl (laid.shares 1 2 (Nat.lt_of_succ_lt inside) (.inr ⟨rfl, Nat.lt_succ_self left⟩)
        rfl rfl ?_ rfl ?_)
      · simp [squareCorners]
      · simp [squareCorners]

/-! ### Hexagons -/

theorem mem_hexagonCorners {corner : Position} :
    corner ∈ hexagonCorners x y ↔
      (corner.1 = 45 * x - 15 ∨ corner.1 = 45 * x + 15) ∧
          (corner.2 = 52 * y + 26 * (x % 2) - 26 ∨ corner.2 = 52 * y + 26 * (x % 2) + 26) ∨
        (corner.1 = 45 * x - 30 ∨ corner.1 = 45 * x + 30) ∧ corner.2 = 52 * y + 26 * (x % 2) := by
  obtain ⟨p, q⟩ := corner
  simp only [hexagonCorners, hexWidth, hexHeight, List.mem_cons, Prod.mk.injEq, List.not_mem_nil,
    or_false]
  omega

section Hexagon

variable {earlier : List (List Position)} (laid : LaidBefore hexagonCorners width x y earlier)
include laid

/-! The lower side is always new, and what hangs from it depends on the free corners: -/

private theorem hexagon_lowerRight : Relation.EqvGen (Meets earlier (hexagonCorners x y)) 3 2 := by
  refine .symm _ _ (.rel _ _ (laid.meets (by simp [hexagonCorners]) rfl rfl ?_))
  intro x' y' _ precedes
  rw [mem_hexagonCorners]
  simp only [hexWidth, hexHeight]
  omega

private theorem hexagon_lowerLeft (free : x % 2 = 1 ∨ x = 0) :
    Relation.EqvGen (Meets earlier (hexagonCorners x y)) 3 4 := by
  refine .rel _ _ (laid.meets (by simp [hexagonCorners]) rfl rfl ?_)
  intro x' y' _ precedes
  rw [mem_hexagonCorners]
  simp only [hexWidth, hexHeight]
  omega

private theorem hexagon_upperRight (free : x % 2 = 1 ∨ y = 0 ∨ x + 1 = width) :
    Relation.EqvGen (Meets earlier (hexagonCorners x y)) 3 1 := by
  refine (hexagon_lowerRight laid).trans _ _ _
    (.symm _ _ (.rel _ _ (laid.meets (by simp [hexagonCorners]) rfl rfl ?_)))
  intro x' y' known precedes
  rw [mem_hexagonCorners]
  simp only [hexWidth, hexHeight]
  omega

private theorem hexagon_top (free : y = 0) :
    Relation.EqvGen (Meets earlier (hexagonCorners x y)) 3 0 := by
  refine (hexagon_upperRight laid (.inr (.inl free))).trans _ _ _
    (.symm _ _ (.rel _ _ (laid.meets (by simp [hexagonCorners]) rfl rfl ?_)))
  intro x' y' _ precedes
  rw [mem_hexagonCorners]
  simp only [hexWidth, hexHeight]
  omega

private theorem hexagon_upperLeft (free : x = 0 ∨ x % 2 = 0 ∧ y = 0) :
    Relation.EqvGen (Meets earlier (hexagonCorners x y)) 3 5 := by
  rcases free with left | ⟨even, top⟩
  · refine (hexagon_lowerLeft laid (.inr left)).trans _ _ _
      (.rel _ _ (laid.meets (by simp [hexagonCorners]) rfl rfl ?_))
    intro x' y' _ precedes
    rw [mem_hexagonCorners]
    simp only [hexWidth, hexHeight]
    omega
  · refine (hexagon_top laid top).trans _ _ _
      (.symm _ _ (.rel _ _ (laid.meets (by simp [hexagonCorners]) rfl rfl ?_)))
    intro x' y' _ precedes
    rw [mem_hexagonCorners]
    simp only [hexWidth, hexHeight]
    omega

end Hexagon

private theorem attaches_hexagon {earlier : List (List Position)} (inside : x < width)
    (laid : LaidBefore hexagonCorners width x y earlier) : Attaches earlier (hexagonCorners x y) := by
  have six : (hexagonCorners x y).length = 6 := rfl
  refine ⟨3, by omega, fun i bound => ?_⟩
  match i, six ▸ bound with
  | 0, _ =>
    by_cases free : y = 0
    · exact .inr (hexagon_top laid free)
    · refine .inl (laid.shares 3 4 inside (.inl (by omega : y - 1 < y)) rfl rfl ?_ rfl ?_) <;>
        simp [hexagonCorners, hexWidth, hexHeight] <;> omega
  | 1, _ =>
    by_cases free : x % 2 = 1 ∨ y = 0 ∨ x + 1 = width
    · exact .inr (hexagon_upperRight laid free)
    · refine .inl (laid.shares 4 5 (by omega : x + 1 < width) (.inl (by omega : y - 1 < y)) rfl rfl
        ?_ rfl ?_) <;> simp [hexagonCorners, hexWidth, hexHeight] <;> omega
  | 2, _ => exact .inr (hexagon_lowerRight laid)
  | 3, _ => exact .inr (.refl _)
  | 4, _ =>
    by_cases free : x % 2 = 1 ∨ x = 0
    · exact .inr (hexagon_lowerLeft laid free)
    · refine .inl (laid.shares 1 2 (by omega : x - 1 < width) (.inr ⟨rfl, by omega⟩) rfl rfl
        ?_ rfl ?_) <;> simp [hexagonCorners, hexWidth, hexHeight] <;> omega
  | 5, _ =>
    by_cases free : x = 0 ∨ x % 2 = 0 ∧ y = 0
    · exact .inr (hexagon_upperLeft laid free)
    by_cases odd : x % 2 = 1
    · refine .inl (laid.shares 2 3 (by omega : x - 1 < width) (.inr ⟨rfl, by omega⟩) rfl rfl
        ?_ rfl ?_) <;> simp [hexagonCorners, hexWidth, hexHeight] <;> omega
    · refine .inl (laid.shares 2 3 (by omega : x - 1 < width) (.inl (by omega : y - 1 < y)) rfl rfl
        ?_ rfl ?_) <;> simp [hexagonCorners, hexWidth, hexHeight] <;> omega

/-! ### Grids -/

section Drawn

variable {corners : Nat → Nat → List Position} {width height : Int} {hints : Hints}
  {drawing : Drawing Position} (h : grid corners width height hints = .ok drawing)
include h

/-- The faces of a grid are cycles at the corners of its tiles, row by row. -/
theorem grid_eq_ok :
    drawing.graph.WellFormed ∧ ∃ pairs : List (List Nat × List Position),
      Distinct drawing.positions ∧ (∀ pair ∈ pairs, Locates drawing.positions pair.1 pair.2) ∧
        drawing.graph.faces.toList.map Face.vertices = pairs.map Prod.fst ∧
          pairs.map Prod.snd =
            (cells width.toNat height.toNat).map fun cell => corners cell.1 cell.2 := by
  unfold grid at h
  split at h
  · exact nomatch h
  · obtain ⟨pairs, covers, tiles⟩ := (Sketch.covers_empty : (Sketch.empty : Sketch row).Covers []).addTiles
      (fun cell : Nat × Nat => corners cell.1 cell.2) (cells width.toNat height.toNat)
    have hinted := covers.setHints hints
    obtain ⟨wellFormed, faces⟩ := hinted.draw h
    have drawn := (Sketch.draw_eq_ok h).1
    exact ⟨wellFormed, pairs, drawn ▸ hinted.distinct, drawn ▸ hinted.located, faces, tiles⟩

theorem grid_positions :
    drawing.graph.vertexCount = drawing.positions.size ∧ ∀ position ∈ drawing.positions,
      ∃ cell ∈ cells width.toNat height.toNat, position ∈ corners cell.1 cell.2 := by
  unfold grid at h
  split at h
  · exact nomatch h
  · obtain ⟨drawn, built⟩ := Sketch.draw_eq_ok h
    refine ⟨vertexCount_of_build built, fun position member => ?_⟩
    rw [drawn, Sketch.positions_setHints] at member
    obtain none | corner :=
      Sketch.mem_positions_addTiles (fun cell : Nat × Nat => corners cell.1 cell.2) member
    · exact absurd none (by simp [Sketch.empty, Register.empty])
    · exact corner

/-- A grid of tiles that leave no holes is a graph without holes. -/
theorem grid_shelled
    (shelled : Shelled ((cells width.toNat height.toNat).map fun cell => corners cell.1 cell.2)) :
    drawing.graph.WellFormed ∧ Shelled (drawing.graph.faces.toList.map Face.vertices) := by
  obtain ⟨wellFormed, pairs, distinct, located, faces, tiles⟩ := grid_eq_ok h
  rw [faces]
  exact ⟨wellFormed, Shelled.of_located distinct located (tiles ▸ shelled)⟩

end Drawn

/-- The grids of squares and of hexagons. -/
def IsGrid (graph : Graph) : Prop :=
  ∃ width height hints drawing, drawing.graph = graph ∧
    (squareGrid width height hints = .ok drawing ∨ honeycombGrid width height hints = .ok drawing)

theorem IsGrid.shelled {graph : Graph} (isGrid : IsGrid graph) :
    graph.WellFormed ∧ Shelled (graph.faces.toList.map Face.vertices) := by
  obtain ⟨width, height, hints, drawing, rfl, square | honeycomb⟩ := isGrid
  · exact grid_shelled square (shelled_of_attaches fun x y earlier => attaches_square)
  · exact grid_shelled honeycomb (shelled_of_attaches fun x y earlier => attaches_hexagon)

end PencilPuzzle.Tiling
