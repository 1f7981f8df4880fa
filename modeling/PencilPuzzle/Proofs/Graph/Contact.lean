import Mathlib.Tactic.Linarith
import PencilPuzzle.Proofs.Graph.Grid
import PencilPuzzle.Proofs.Graph.SharedEdge

/-!
# Where tiles touch

Two tiles touch at a side that they run along in opposite directions. In a grid of squares or of hexagons
a side in one direction tells the tile and two tiles tell the side between them. Faces of the grid
therefore have an edge in common exactly where their tiles touch, and never a second one, so that no edge
between two sets of faces goes unnoticed.
-/

namespace PencilPuzzle

open PencilPuzzle.Graph

def Touches {α : Type} (tile other : List α) (start stop : α) : Prop :=
  RunsAlong tile start stop ∧ RunsAlong other stop start

namespace Tiling

variable {corners : Nat → Nat → List Position} {x y x' y' : Nat} {start stop : Position}

/-! ### Tiles and sides -/

/-- Tiles with three or more corners, of which a side in one direction tells the tile and two tiles tell
the side between them. -/
structure Interlocks (corners : Nat → Nat → List Position) : Prop where
  simple : ∀ x y, 3 ≤ (corners x y).length ∧ (corners x y).Nodup
  cell : ∀ x y x' y' start stop, RunsAlong (corners x y) start stop →
    RunsAlong (corners x' y') start stop → x = x' ∧ y = y'
  side : ∀ x y x' y' start stop start' stop', Touches (corners x y) (corners x' y') start stop →
    Touches (corners x y) (corners x' y') start' stop' → start = start' ∧ stop = stop'

theorem interlocks_square : Interlocks squareCorners where
  simple x y := ⟨by simp [squareCorners], nodup_squareCorners x y⟩
  cell _ _ _ _ _ _ := square_of_runsAlong
  side x y x' y' start stop start' stop' touches touches' := by
    have here := runsAlong_square touches.1
    have there := runsAlong_square touches.2
    have here' := runsAlong_square touches'.1
    have there' := runsAlong_square touches'.2
    constructor <;> apply Prod.ext <;> omega

theorem interlocks_hexagon : Interlocks hexagonCorners where
  simple x y := ⟨by simp [hexagonCorners], nodup_hexagonCorners x y⟩
  cell _ _ _ _ _ _ := hexagon_of_runsAlong
  side x y x' y' start stop start' stop' touches touches' := by
    obtain ⟨column, row⟩ := runsAlong_hexagon touches.1
    obtain ⟨column', row'⟩ := runsAlong_hexagon touches.2
    rw [(runsAlong_hexagon touches'.1).1] at column
    rw [(runsAlong_hexagon touches'.1).2] at row
    rw [(runsAlong_hexagon touches'.2).1] at column'
    rw [(runsAlong_hexagon touches'.2).2] at row'
    constructor <;> apply Prod.ext <;> linarith

theorem Interlocks.exists_grid (interlocks : Interlocks corners) {width height : Int} (wide : 1 ≤ width)
    (high : 1 ≤ height) : ∃ drawing, grid corners width height [] = .ok drawing :=
  Tiling.exists_grid wide high interlocks.simple interlocks.cell

/-! ### Faces and edges -/

/-- The tile of a face, whose number counts the tiles row by row. -/
def tileOf (corners : Nat → Nat → List Position) (width f : Nat) : List Position :=
  corners (f % width) (f / width)

/-- The faces of the drawing are cycles at the corners of the tiles, and there are no other vertices. -/
structure Drawn (corners : Nat → Nat → List Position) (width height : Nat) (drawing : Drawing Position) :
    Prop where
  wellFormed : drawing.graph.WellFormed
  size : drawing.graph.faces.size = height * width
  distinct : Distinct drawing.positions
  located : ∀ f < drawing.graph.faces.size,
    Locates drawing.positions (drawing.graph.verticesOf f) (tileOf corners width f)
  count : drawing.graph.vertexCount = drawing.positions.size
  covered : ∀ position ∈ drawing.positions, ∃ cell ∈ cells width height, position ∈ corners cell.1 cell.2

theorem drawn_of_grid {width height : Int} {hints : Hints} {drawing : Drawing Position}
    (h : grid corners width height hints = .ok drawing) :
    Drawn corners width.toNat height.toNat drawing := by
  obtain ⟨wellFormed, pairs, distinct, located, faces, tiles⟩ := grid_eq_ok h
  obtain ⟨count, covered⟩ := grid_positions h
  rw [cells_eq, List.map_map] at tiles
  have size : drawing.graph.faces.size = height.toNat * width.toNat := by
    have first := congrArg List.length faces
    have second := congrArg List.length tiles
    simp only [List.length_map, List.length_range, Array.length_toList] at first second
    omega
  refine ⟨wellFormed, size, distinct, fun f inside => ?_, count, covered⟩
  have vertices := getElem?_vertices inside
  rw [faces, List.getElem?_map, Option.map_eq_some_iff] at vertices
  obtain ⟨pair, here, cycle⟩ := vertices
  have tile := congrArg (·[f]?) tiles
  simp only [List.getElem?_map, here, List.getElem?_range (size ▸ inside), Option.map_some,
    Option.some.injEq, Function.comp_apply] at tile
  rw [← cycle, tileOf, ← tile]
  exact located pair (List.mem_of_getElem? here)

namespace Drawn

variable {width height e d f g : Nat} {drawing : Drawing Position}
  (drawn : Drawn corners width height drawing)
include drawn

private theorem exists_common (inside : f < drawing.graph.faces.size)
    (inside' : g < drawing.graph.faces.size)
    (touches : Touches (tileOf corners width f) (tileOf corners width g) start stop) :
    ∃ e, e ∈ drawing.graph.edgesOf f ∧ e ∈ drawing.graph.edgesOf g := by
  obtain ⟨v, w, position, position', i, tail, head⟩ :=
    (drawn.located f inside).exists_cycle_runsAlong touches.1
  obtain ⟨w', v', again', again, j, head', tail'⟩ :=
    (drawn.located g inside').exists_cycle_runsAlong touches.2
  obtain rfl := drawn.distinct v v' start position again
  obtain rfl := drawn.distinct w w' stop position' again'
  obtain ⟨e, member, here⟩ := drawn.wellFormed.exists_edge (mem_sides.mpr ⟨i, v, w, tail, head, rfl⟩)
  refine ⟨e, member, drawn.wellFormed.mem_edgesOf.mpr ⟨_, mem_sides.mpr ⟨j, w, v, head', tail', rfl⟩, ?_⟩⟩
  rw [here, Edge.joining_comm]

variable (interlocks : Interlocks corners)
include interlocks

private theorem exists_touches (different : f ≠ g)
    (common : e ∈ drawing.graph.edgesOf f ∧ e ∈ drawing.graph.edgesOf g) :
    ∃ (v w : Nat) (start stop : Position), drawing.graph.edges[e]? = some (Edge.joining v w) ∧
      drawing.positions[v]? = some start ∧ drawing.positions[w]? = some stop ∧
        Touches (tileOf corners width f) (tileOf corners width g) start stop := by
  have inside := lt_of_mem_edgesOf common.1
  have inside' := lt_of_mem_edgesOf common.2
  obtain ⟨v, w, edge, along⟩ := exists_runsAlong (drawn.wellFormed.around f) common.1
  obtain ⟨v', w', edge', along'⟩ := exists_runsAlong (drawn.wellFormed.around g) common.2
  obtain ⟨start, stop, position, position', tile⟩ := (drawn.located f inside).exists_runsAlong along
  obtain ⟨start', stop', again, again', tile'⟩ := (drawn.located g inside').exists_runsAlong along'
  rcases Edge.joining_eq_joining.mp (Option.some.inj (edge.symm.trans edge')) with ⟨rfl, rfl⟩ | ⟨rfl, rfl⟩
  · -- In the same direction runs only one tile.
    cases position.symm.trans again
    cases position'.symm.trans again'
    obtain ⟨column, row⟩ := interlocks.cell _ _ _ _ start stop tile tile'
    refine absurd ?_ different
    rw [← Nat.div_add_mod f width, ← Nat.div_add_mod g width, column, row]
  · cases position.symm.trans again'
    cases position'.symm.trans again
    exact ⟨v, w, start, stop, edge, position, position', tile, tile'⟩

/-- Faces have a common edge exactly if their tiles touch. -/
theorem exists_common_iff (inside : f < drawing.graph.faces.size) (inside' : g < drawing.graph.faces.size)
    (different : f ≠ g) :
    (∃ e, e ∈ drawing.graph.edgesOf f ∧ e ∈ drawing.graph.edgesOf g) ↔
      ∃ start stop, Touches (tileOf corners width f) (tileOf corners width g) start stop := by
  constructor
  · rintro ⟨e, common⟩
    obtain ⟨_, _, start, stop, _, _, _, touches⟩ := drawn.exists_touches interlocks different common
    exact ⟨start, stop, touches⟩
  · rintro ⟨start, stop, touches⟩
    exact drawn.exists_common inside inside' touches

theorem singlyJoined : drawing.graph.SinglyJoined := by
  intro f g d e different common common'
  obtain ⟨v, w, start, stop, edge, position, position', touches⟩ :=
    drawn.exists_touches interlocks different common
  obtain ⟨v', w', start', stop', edge', again, again', touches'⟩ :=
    drawn.exists_touches interlocks different common'
  obtain ⟨rfl, rfl⟩ := interlocks.side _ _ _ _ _ _ _ _ touches touches'
  obtain rfl := drawn.distinct v v' start position again
  obtain rfl := drawn.distinct w w' stop position' again'
  exact drawn.wellFormed.distinct d e _ edge edge'

end Drawn

private theorem exists_singlyJoined {width height : Int} (wide : 1 ≤ width) (high : 1 ≤ height) :
    ∀ tiling ∈ [squareGrid, honeycombGrid], ∃ drawing, tiling width height [] = .ok drawing ∧
      drawing.graph.WellFormed ∧ drawing.graph.SinglyJoined := by
  intro tiling listed
  rcases List.mem_pair.mp listed with rfl | rfl
  · obtain ⟨drawing, made⟩ := interlocks_square.exists_grid wide high
    have drawn := drawn_of_grid made
    exact ⟨drawing, made, drawn.wellFormed, drawn.singlyJoined interlocks_square⟩
  · obtain ⟨drawing, made⟩ := interlocks_hexagon.exists_grid wide high
    have drawn := drawn_of_grid made
    exact ⟨drawing, made, drawn.wellFormed, drawn.singlyJoined interlocks_hexagon⟩

/-! ### Edges between regions -/

/-- Where faces meet in single edges, two regions without common faces find all edges between them, in both
orders. -/
theorem neighboringEdges_of_singlyJoined {graph : Graph} {faces others : List Nat}
    (wellFormed : graph.WellFormed) (joined : graph.SinglyJoined) (label : Nat)
    (known : ∀ f ∈ faces ++ others, f < graph.faces.size) (apart : faces.Disjoint others) :
    ∃ region other edges, Region.new label graph (faces.map Int.ofNat) = .ok region ∧
      Region.new label graph (others.map Int.ofNat) = .ok other ∧
      region.neighboringEdges other = .ok edges ∧ other.neighboringEdges region = .ok edges ∧
      ∀ e : Nat, e ∈ edges ↔ ∃ f ∈ faces, ∃ g ∈ others,
        Reference.facesOf graph e = .ok [f, g] ∨ Reference.facesOf graph e = .ok [g, f] := by
  obtain ⟨known, known'⟩ := List.forall_mem_append.mp known
  have listed {faces : List Nat} (known : ∀ f ∈ faces, f < graph.faces.size) (f : Nat) :
      f ∈ graph.faceIds.filter (· ∈ faces) ↔ f ∈ faces := by
    simpa [faceIds] using known f
  have apart' : (graph.faceIds.filter (· ∈ faces)).Disjoint (graph.faceIds.filter (· ∈ others)) :=
    fun f here there => apart ((listed known f).mp here) ((listed known' f).mp there)
  refine ⟨_, _, graph.edgesBetween (graph.faceIds.filter (· ∈ faces)) (graph.faceIds.filter (· ∈ others)),
    Region.new_natCast label known, Region.new_natCast label known', ?_, ?_, fun e => ?_⟩
  · rw [Region.neighboringEdges, Region.checkSameGraph, if_pos rfl]
    rfl
  · rw [Region.neighboringEdges, Region.checkSameGraph, if_pos rfl]
    exact congrArg Except.ok joined.edgesBetween_comm
  · have found (pair : List Nat) (f : Nat) (member : f ∈ pair) :
        Reference.facesOf graph e = .ok pair ↔ graph.facesOf e = pair := by
      refine lookup_eq_ok.trans (and_iff_right_of_imp ?_)
      rintro rfl
      exact wellFormed.lt_size (mem_facesOf.mp member).2
    rw [joined.mem_edgesBetween_iff wellFormed apart']
    refine exists_congr fun f => and_congr (listed known f) ?_
    refine exists_congr fun g => and_congr (listed known' g) ?_
    rw [found [f, g] f (by simp), found [g, f] f (by simp)]

/-- On a grid of squares or of hexagons the edges between two sets of faces without common members are those
with one face in each, whichever set is named first. -/
theorem neighboringEdges_grid {width height : Int} (wide : 1 ≤ width) (high : 1 ≤ height) (label : Nat) :
    ∀ tiling ∈ [squareGrid, honeycombGrid], ∃ drawing, tiling width height [] = .ok drawing ∧
      ∀ faces others : List Nat, (∀ f ∈ faces ++ others, f < drawing.graph.faces.size) →
        faces.Disjoint others →
          ∃ region other edges, Region.new label drawing.graph (faces.map Int.ofNat) = .ok region ∧
            Region.new label drawing.graph (others.map Int.ofNat) = .ok other ∧
            region.neighboringEdges other = .ok edges ∧ other.neighboringEdges region = .ok edges ∧
            ∀ e : Nat, e ∈ edges ↔ ∃ f ∈ faces, ∃ g ∈ others,
              Reference.facesOf drawing.graph e = .ok [f, g] ∨
                Reference.facesOf drawing.graph e = .ok [g, f] := by
  intro tiling listed
  obtain ⟨drawing, made, wellFormed, joined⟩ := exists_singlyJoined wide high tiling listed
  exact ⟨drawing, made, fun faces others known apart =>
    neighboringEdges_of_singlyJoined wellFormed joined label known apart⟩

/-- In a honeycomb of four faces the edge between the first two lies between the columns. -/
theorem neighboringEdges_grid_columns :
    ∃ drawing, honeycombGrid 2 2 [] = .ok drawing ∧ (∀ f ∈ [0, 2] ++ [1, 3], f < drawing.graph.faces.size) ∧
      List.Disjoint [0, 2] [1, 3] ∧ ∃ region other edges, Region.new 7 drawing.graph [0, 2] = .ok region ∧
        Region.new 7 drawing.graph [1, 3] = .ok other ∧ region.neighboringEdges other = .ok edges ∧
        other.neighboringEdges region = .ok edges ∧ 2 ∈ edges := by
  obtain ⟨drawing, drawn, complete⟩ := neighboringEdges_grid (by decide : (1 : Int) ≤ 2)
    (by decide : (1 : Int) ≤ 2) 7 honeycombGrid (by simp)
  have known : ∀ f ∈ [0, 2] ++ [1, 3], f < drawing.graph.faces.size := by
    rw [(drawn_of_grid drawn).size]
    decide
  have apart : List.Disjoint [0, 2] [1, 3] := by simp [List.Disjoint]
  obtain ⟨region, other, edges, made, made', found, found', between⟩ := complete [0, 2] [1, 3] known apart
  have looked : (honeycombGrid 2 2 []).map (Reference.facesOf ·.graph 2) = .ok (.ok [0, 1]) := by
    decide +kernel
  rw [drawn] at looked
  exact ⟨drawing, drawn, known, apart, region, other, edges, made, made', found, found',
    (between 2).mpr ⟨0, by simp, 1, by simp, .inl (Except.ok.inj looked)⟩⟩

end Tiling

end PencilPuzzle
