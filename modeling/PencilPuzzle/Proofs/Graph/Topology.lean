import PencilPuzzle.Proofs.Graph.Incidence
import PencilPuzzle.Proofs.Graph.Lattice

/-!
# The shape of a grid

How many vertices, edges and boundary edges a grid has, which of its faces meet, and that these meet in one
edge only. The faces are found by their cells: they have a vertex for each corner of a tile, and an edge
inside for each pair of cells whose tiles touch.
-/

namespace PencilPuzzle.Tiling

open PencilPuzzle.Graph Finset

variable {corners : Nat → Nat → List Position} {width height : Nat} {cell other : Nat × Nat}

/-! ### Faces by their cells -/

def numberOf (width : Nat) (cell : Nat × Nat) : Nat := cell.2 * width + cell.1

section Numbers

variable {f g : Nat} {links : Finset ((Nat × Nat) × (Nat × Nat))} {meet : Nat × Nat → Nat × Nat → Prop}

private theorem numberOf_lt (inside : cell ∈ cells width height) :
    numberOf width cell < height * width := by
  obtain ⟨column, row⟩ := mem_cells.mp inside
  exact row_add_lt column row

theorem numberOf_eq_iff (bound : cell.1 < width) :
    numberOf width cell = f ↔ cell = (f % width, f / width) := by
  rw [numberOf, row_add_eq_iff bound, Prod.ext_iff]

private theorem cell_numberOf (bound : cell.1 < width) :
    (numberOf width cell % width, numberOf width cell / width) = cell :=
  ((numberOf_eq_iff bound).mp rfl).symm

private theorem numberOf_inj (bound : cell.1 < width) (bound' : other.1 < width) :
    numberOf width cell = numberOf width other ↔ cell = other := by
  rw [numberOf_eq_iff bound, cell_numberOf bound']

private theorem tileOf_numberOf (bound : cell.1 < width) :
    tileOf corners width (numberOf width cell) = corners cell.1 cell.2 := by
  have same := cell_numberOf bound
  exact congrArg₂ corners (congrArg Prod.fst same) (congrArg Prod.snd same)

theorem mem_cells_iff_lt : (f % width, f / width) ∈ cells width height ↔ f < height * width := by
  constructor
  · intro inside
    have bound := numberOf_lt inside
    rwa [numberOf, Nat.div_add_mod'] at bound
  · intro bound
    have wide : 0 < width := Nat.pos_of_mul_pos_left (Nat.zero_lt_of_lt bound)
    exact mem_cells.mpr ⟨Nat.mod_lt f wide, Nat.div_lt_of_lt_mul (Nat.mul_comm height width ▸ bound)⟩

/-- The listed pairs are those of the cells that meet, each in one order only. -/
structure Lists (width height : Nat) (meet : Nat × Nat → Nat × Nat → Prop)
    (links : Finset ((Nat × Nat) × (Nat × Nat))) : Prop where
  oriented : ∀ cell other, (cell, other) ∈ links → (other, cell) ∉ links
  complete : ∀ cell other, (cell, other) ∈ links ∨ (other, cell) ∈ links ↔
    cell ∈ cells width height ∧ other ∈ cells width height ∧ meet cell other

private theorem lists_square : Lists width height SquaresMeet (squareLinks width height) where
  oriented cell other := by
    rw [mem_squareLinks, mem_squareLinks]
    omega
  complete cell other := by
    rw [mem_squareLinks, mem_squareLinks, mem_cells, mem_cells, SquaresMeet]
    omega

private theorem lists_hexagon : Lists width height HexagonsMeet (hexagonLinks width height) where
  oriented cell other := by
    rw [mem_hexagonLinks, mem_hexagonLinks]
    omega
  complete cell other := by
    rw [mem_hexagonLinks, mem_hexagonLinks, mem_cells, mem_cells, HexagonsMeet]
    omega

namespace Lists

variable (lists : Lists width height meet links)
include lists

theorem mem (link : (cell, other) ∈ links) : cell ∈ cells width height ∧ other ∈ cells width height :=
  let ⟨inside, inside', _⟩ := (lists.complete cell other).mp (.inl link)
  ⟨inside, inside'⟩

private theorem not_meet_self (inside : cell ∈ cells width height) : ¬ meet cell cell := by
  intro self
  have link := or_self_iff.mp ((lists.complete cell cell).mpr ⟨inside, inside, self⟩)
  exact lists.oriented cell cell link link

/-- The pairs of faces in the listed cells. -/
theorem mem_image_numberOf : (f, g) ∈ links.image (Prod.map (numberOf width) (numberOf width)) ↔
    ((f % width, f / width), (g % width, g / width)) ∈ links := by
  rw [mem_image]
  constructor
  · rintro ⟨⟨cell, other⟩, link, same⟩
    obtain ⟨inside, inside'⟩ := lists.mem link
    rw [← (numberOf_eq_iff (mem_cells.mp inside).1).mp (congrArg Prod.fst same),
      ← (numberOf_eq_iff (mem_cells.mp inside').1).mp (congrArg Prod.snd same)]
    exact link
  · intro link
    exact ⟨_, link, Prod.ext (Nat.div_add_mod' f width) (Nat.div_add_mod' g width)⟩

theorem card_image_numberOf :
    (links.image (Prod.map (numberOf width) (numberOf width))).card = links.card := by
  refine card_image_of_injOn ?_
  rintro ⟨cell, other⟩ link ⟨cell', other'⟩ link' same
  obtain ⟨inside, inside'⟩ := lists.mem link
  obtain ⟨again, again'⟩ := lists.mem link'
  exact Prod.ext ((numberOf_inj (mem_cells.mp inside).1 (mem_cells.mp again).1).mp (congrArg Prod.fst same))
    ((numberOf_inj (mem_cells.mp inside').1 (mem_cells.mp again').1).mp (congrArg Prod.snd same))

end Lists

end Numbers

/-! ### The grid as a whole -/

structure Census where
  vertices : Nat
  edges : Nat
  boundary : Nat
  sides : Nat

/-- The faces of the drawing lie in cells, with as many sides each. Two of them share an edge exactly if
their cells meet, and then this one only. -/
structure Topology (width height : Nat) (census : Census) (meet : Nat × Nat → Nat × Nat → Prop)
    (drawing : Drawing Position) : Prop where
  vertices : drawing.graph.vertexCount = census.vertices
  positions : drawing.positions.size = census.vertices ∧ Distinct drawing.positions
  edges : drawing.graph.edges.size = census.edges
  boundary : drawing.graph.edgeIds.countP drawing.graph.isBoundary = census.boundary
  faces : drawing.graph.faces.size = width * height
  regular : ∀ f : Nat, f < width * height → ∃ edges, Reference.edgesOf drawing.graph f = .ok edges ∧
    edges.length = census.sides ∧ edges.Nodup
  shared : ∀ x y x' y', x < width → y < height → x' < width → y' < height → ∃ edge,
    Reference.sharedEdge drawing.graph ↑(y * width + x) ↑(y' * width + x') = .ok edge ∧
      (edge.isSome ↔ meet (x, y) (x', y')) ∧ ((x, y) ≠ (x', y') →
        ∀ e, drawing.graph.Between (y * width + x) (y' * width + x') e ↔ edge = some e)

namespace Topology

variable {census : Census} {meet : Nat × Nat → Nat × Nat → Prop} {drawing : Drawing Position}
  {x y x' y' : Nat}
  (topology : Topology width height census meet drawing)
  (here : x < width ∧ y < height) (there : x' < width ∧ y' < height)
include topology here there

theorem exists_sharedEdge_iff :
    (∃ e, Reference.sharedEdge drawing.graph ↑(y * width + x) ↑(y' * width + x') = .ok (some e)) ↔
      meet (x, y) (x', y') := by
  obtain ⟨edge, found, meets, _⟩ := topology.shared x y x' y' here.1 here.2 there.1 there.2
  simp only [found, ← meets, Option.isSome_iff_exists, Except.ok.injEq]

theorem sharedEdge_eq_none_iff :
    Reference.sharedEdge drawing.graph ↑(y * width + x) ↑(y' * width + x') = .ok none ↔
      ¬ meet (x, y) (x', y') := by
  obtain ⟨edge, found, meets, _⟩ := topology.shared x y x' y' here.1 here.2 there.1 there.2
  rw [found, ← meets, Option.not_isSome_iff_eq_none, Except.ok.injEq]

end Topology

namespace Drawn

variable {f g : Nat} {spots : Finset Position} {links : Finset ((Nat × Nat) × (Nat × Nat))}
  {meet : Nat × Nat → Nat × Nat → Prop} {census : Census} {drawing : Drawing Position}
  (drawn : Drawn corners width height drawing)
include drawn

theorem size_positions
    (corner : ∀ spot, spot ∈ spots ↔ ∃ cell ∈ cells width height, spot ∈ corners cell.1 cell.2) :
    drawing.positions.size = spots.card := by
  have same : drawing.positions.toList.toFinset = spots := by
    ext spot
    rw [List.mem_toFinset, Array.mem_toList_iff, corner]
    refine ⟨drawn.covered spot, fun ⟨cell, inside, here⟩ => ?_⟩
    have located := drawn.located (numberOf width cell) (drawn.size ▸ numberOf_lt inside)
    rw [tileOf_numberOf (mem_cells.mp inside).1] at located
    obtain ⟨i, place⟩ := List.mem_iff_getElem?.mp here
    obtain ⟨v, _, there⟩ := located.getElem? place
    exact Array.mem_of_getElem? there
  rw [← same, List.toFinset_card_of_nodup drawn.distinct.nodup_toList, Array.length_toList]

variable (interlocks : Interlocks corners) (lists : Lists width height meet links)
  (touches : ∀ x y x' y',
    (∃ start stop, Touches (corners x y) (corners x' y') start stop) ↔ meet (x, y) (x', y'))
include interlocks touches

private theorem exists_common_iff_meet (inside : f < height * width) (inside' : g < height * width)
    (different : f ≠ g) : (∃ e, e ∈ drawing.graph.edgesOf f ∧ e ∈ drawing.graph.edgesOf g) ↔
      meet (f % width, f / width) (g % width, g / width) := by
  rw [drawn.exists_common_iff interlocks (drawn.size ▸ inside) (drawn.size ▸ inside') different]
  exact touches ..

include lists

theorem count_edges (regular : ∀ x y, (corners x y).length = census.sides) :
    drawing.graph.edges.size + links.card = census.sides * (width * height) ∧
      drawing.graph.edgeIds.countP drawing.graph.isBoundary + 2 * links.card =
        census.sides * (width * height) := by
  rw [Nat.mul_comm width height, ← drawn.size, ← lists.card_image_numberOf]
  refine drawn.wellFormed.count_edges (drawn.singlyJoined interlocks) (fun f inside => ?_) (fun f g => ?_)
    fun f g different => ?_
  · rw [drawn.wellFormed.length_edgesOf, (drawn.located f inside).length_eq]
    exact regular ..
  · rw [lists.mem_image_numberOf, lists.mem_image_numberOf]
    exact lists.oriented _ _
  · rw [lists.mem_image_numberOf, lists.mem_image_numberOf, lists.complete, mem_cells_iff_lt,
      mem_cells_iff_lt]
    have common := drawn.exists_common_iff_meet (f := f) (g := g) interlocks touches
    constructor
    · rintro ⟨e, here, there⟩
      have inside := drawn.size ▸ lt_of_mem_edgesOf here
      have inside' := drawn.size ▸ lt_of_mem_edgesOf there
      exact ⟨inside, inside', (common inside inside' different).mp ⟨e, here, there⟩⟩
    · rintro ⟨inside, inside', together⟩
      exact (common inside inside' different).mpr together

private theorem exists_sharedEdge (inside : cell ∈ cells width height)
    (inside' : other ∈ cells width height) :
    ∃ edge, Reference.sharedEdge drawing.graph (numberOf width cell) (numberOf width other) = .ok edge ∧
      (edge.isSome ↔ meet cell other) ∧ (cell ≠ other →
        ∀ e, drawing.graph.Between (numberOf width cell) (numberOf width other) e ↔ edge = some e) := by
  have bound := numberOf_lt inside
  have bound' := numberOf_lt inside'
  have number := numberOf_inj (mem_cells.mp inside).1 (mem_cells.mp inside').1
  have joined := drawn.singlyJoined interlocks
  refine ⟨_, reference_sharedEdge (drawn.size ▸ bound) (drawn.size ▸ bound'), ?_, fun different e => ?_⟩
  · by_cases same : cell = other
    · subst same
      rw [sharedEdge, if_pos rfl]
      exact iff_of_false Bool.false_ne_true (lists.not_meet_self inside)
    · have common := drawn.exists_common_iff_meet interlocks touches bound bound' (mt number.mp same)
      rw [cell_numberOf (mem_cells.mp inside).1, cell_numberOf (mem_cells.mp inside').1] at common
      rw [← common, Option.isSome_iff_exists]
      exact exists_congr fun e => joined.sharedEdge_eq_some_iff (mt number.mp same)
  · rw [drawn.wellFormed.between_iff, joined.sharedEdge_eq_some_iff (mt number.mp different)]

private theorem topology
    (corner : ∀ spot, spot ∈ spots ↔ ∃ cell ∈ cells width height, spot ∈ corners cell.1 cell.2)
    (regular : ∀ x y, (corners x y).length = census.sides) (vertices : census.vertices = spots.card)
    (edges : census.edges + links.card = census.sides * (width * height))
    (boundary : census.boundary + 2 * links.card = census.sides * (width * height)) :
    Topology width height census meet drawing := by
  obtain ⟨whole, outer⟩ := drawn.count_edges interlocks lists touches regular
  have positions := drawn.size_positions corner
  refine ⟨?_, ⟨?_, drawn.distinct⟩, ?_, ?_, ?_, fun f inside => ?_, ?_⟩
  · rw [drawn.count, positions, vertices]
  · rw [positions, vertices]
  · omega
  · omega
  · rw [drawn.size, Nat.mul_comm]
  · have inside : f < drawing.graph.faces.size := by rwa [drawn.size, Nat.mul_comm]
    refine ⟨_, lookup_eq_ok.mpr ⟨inside, rfl⟩, ?_, drawn.wellFormed.nodup_edgesOf f⟩
    rw [drawn.wellFormed.length_edgesOf, (drawn.located f inside).length_eq]
    exact regular ..
  · intro x y x' y' column row column' row'
    have inside : (x, y) ∈ cells width height := mem_cells.mpr ⟨column, row⟩
    have inside' : (x', y') ∈ cells width height := mem_cells.mpr ⟨column', row'⟩
    exact drawn.exists_sharedEdge interlocks lists touches inside inside'

end Drawn

/-- A honeycomb of any size can be built, and faces share an edge where their hexagons lie next to each
other. -/
theorem honeycombGrid_topology {width height : Nat} (wide : 1 ≤ width) (high : 1 ≤ height) :
    ∃ drawing, honeycombGrid width height [] = .ok drawing ∧
      Topology width height
        { vertices := 2 * (width * height) + 2 * width + 2 * height
          edges := 3 * (width * height) + 2 * width + 2 * height - 1
          boundary := 4 * width + 4 * height - 2
          sides := 6 } HexagonsMeet drawing := by
  obtain ⟨drawing, made⟩ := interlocks_hexagon.exists_grid (Int.ofNat_le.mpr wide) (Int.ofNat_le.mpr high)
  have drawn : Drawn hexagonCorners width height drawing := drawn_of_grid made
  refine ⟨drawing, made, drawn.topology interlocks_hexagon lists_hexagon (fun _ _ _ _ => touches_hexagon_iff)
    (mem_hexagonSpots wide high) (fun _ _ => rfl) ?_ ?_ ?_⟩
  · rw [card_hexagonSpots, Nat.mul_succ]
    dsimp only
    omega
  · have links := card_hexagonLinks_add wide high
    dsimp only
    omega
  · have links := card_hexagonLinks_add wide high
    dsimp only
    omega

/-- Two by two hexagons have sixteen corners, and the second meets the third. -/
theorem honeycombGrid_topology_two :
    (1 ≤ 2 ∧ 1 ≤ 2) ∧ ∃ drawing, honeycombGrid 2 2 [] = .ok drawing ∧ drawing.graph.vertexCount = 16 ∧
      drawing.graph.edges.size = 19 ∧ drawing.graph.faces.size = 4 ∧
      drawing.graph.edgeIds.countP drawing.graph.isBoundary = 14 ∧
      (∃ e, Reference.sharedEdge drawing.graph 1 2 = .ok (some e)) ∧
      Reference.sharedEdge drawing.graph 0 3 = .ok none := by
  obtain ⟨drawing, made, topology⟩ := honeycombGrid_topology (by decide : 1 ≤ 2) (by decide : 1 ≤ 2)
  refine ⟨by decide, drawing, made, topology.vertices, topology.edges, topology.faces, topology.boundary,
    ?_, ?_⟩
  · exact (topology.exists_sharedEdge_iff (by decide : 1 < 2 ∧ 0 < 2) (by decide : 0 < 2 ∧ 1 < 2)).mpr
      (by simp [HexagonsMeet])
  · exact (topology.sharedEdge_eq_none_iff (by decide : 0 < 2 ∧ 0 < 2) (by decide : 1 < 2 ∧ 1 < 2)).mpr
      (by simp [HexagonsMeet])

/-- A grid of squares of any size can be built. The corners of its faces follow each other clockwise from the
upper left one, and faces share an edge where their squares lie next to each other. -/
theorem squareGrid_topology {width height : Nat} (wide : 1 ≤ width) (high : 1 ≤ height) :
    ∃ drawing, squareGrid width height [] = .ok drawing ∧
      Topology width height
        { vertices := (width + 1) * (height + 1)
          edges := width * (height + 1) + height * (width + 1)
          boundary := 2 * width + 2 * height
          sides := 4 } SquaresMeet drawing ∧
      ∀ x y, x < width → y < height → ∃ vertices,
        Reference.verticesOf drawing.graph ↑(y * width + x) = .ok vertices ∧
          vertices.map (drawing.positions[·]?) =
            ([(x, y), (x + 1, y), (x + 1, y + 1), (x, y + 1)] : List Position).map some := by
  obtain ⟨drawing, made⟩ := interlocks_square.exists_grid (Int.ofNat_le.mpr wide) (Int.ofNat_le.mpr high)
  have drawn : Drawn squareCorners width height drawing := drawn_of_grid made
  refine ⟨drawing, made, drawn.topology interlocks_square lists_square (fun _ _ _ _ => touches_square_iff)
    (mem_squareSpots wide high) (fun _ _ => rfl) card_squareSpots.symm ?_ ?_, fun x y column row => ?_⟩
  · have links := card_squareLinks_add wide high
    dsimp only
    rw [Nat.mul_succ width height, Nat.mul_succ height width, Nat.mul_comm height width]
    omega
  · have links := card_squareLinks_add wide high
    dsimp only
    omega
  · have cell : (x, y) ∈ cells width height := mem_cells.mpr ⟨column, row⟩
    have inside : numberOf width (x, y) < drawing.graph.faces.size := drawn.size ▸ numberOf_lt cell
    have located := drawn.located _ inside
    rw [tileOf_numberOf column] at located
    exact ⟨_, lookup_eq_ok.mpr ⟨inside, rfl⟩, located⟩

/-- Two by two squares have nine corners, and the last square meets the one above it. -/
theorem squareGrid_topology_two :
    (1 ≤ 2 ∧ 1 ≤ 2) ∧ ∃ drawing, squareGrid 2 2 [] = .ok drawing ∧ drawing.graph.vertexCount = 9 ∧
      drawing.graph.edges.size = 12 ∧ drawing.graph.faces.size = 4 ∧
      drawing.graph.edgeIds.countP drawing.graph.isBoundary = 8 ∧
      (∃ e, Reference.sharedEdge drawing.graph 1 3 = .ok (some e)) ∧
      Reference.sharedEdge drawing.graph 0 3 = .ok none ∧
      ∃ vertices, Reference.verticesOf drawing.graph 3 = .ok vertices ∧
        vertices.map (drawing.positions[·]?) = [some (1, 1), some (2, 1), some (2, 2), some (1, 2)] := by
  obtain ⟨drawing, made, topology, around⟩ := squareGrid_topology (by decide : 1 ≤ 2) (by decide : 1 ≤ 2)
  refine ⟨by decide, drawing, made, topology.vertices, topology.edges, topology.faces, topology.boundary,
    ?_, ?_, around 1 1 (by decide) (by decide)⟩
  · exact (topology.exists_sharedEdge_iff (by decide : 1 < 2 ∧ 0 < 2) (by decide : 1 < 2 ∧ 1 < 2)).mpr
      (by simp [SquaresMeet])
  · exact (topology.sharedEdge_eq_none_iff (by decide : 0 < 2 ∧ 0 < 2) (by decide : 1 < 2 ∧ 1 < 2)).mpr
      (by simp [SquaresMeet])

end PencilPuzzle.Tiling
