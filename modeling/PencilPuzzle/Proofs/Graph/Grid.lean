import PencilPuzzle.Proofs.Graph.Inside
import PencilPuzzle.Proofs.Graph.Tiling

/-!
# Grids and their loops

Tiles that are all listed in the same sense of rotation run along a common side in opposite
directions, so a side has at most two of them and the tiles can be drawn as a graph. This holds of
grids of squares and of hexagons. Their lower right corners are new, and so on a grid each loop is the
boundary of exactly one set of faces.
-/

namespace PencilPuzzle

open PencilPuzzle.Graph

/-! ### Tiles in one sense of rotation -/

section Tiles

variable {α : Type} {tiles : List (List α)} {tile other : List α} {start stop : α} {f g : Nat}

/-- The tile has the two corners one after the other. -/
def RunsAlong (tile : List α) (start stop : α) : Prop :=
  ∃ i : Nat, tile[i]? = some start ∧ tile[placeAfter tile.length i]? = some stop

/-- No two tiles run along a side in the same direction. -/
def Oriented (tiles : List (List α)) : Prop :=
  tiles.Pairwise fun tile other => ∀ start stop, RunsAlong tile start stop → ¬ RunsAlong other start stop

theorem Oriented.eq (oriented : Oriented tiles) (here : tiles[f]? = some tile)
    (there : tiles[g]? = some other) (along : RunsAlong tile start stop)
    (along' : RunsAlong other start stop) : f = g := by
  obtain ⟨inside, rfl⟩ := List.getElem?_eq_some_iff.mp here
  obtain ⟨inside', rfl⟩ := List.getElem?_eq_some_iff.mp there
  have apart := List.pairwise_iff_getElem.mp oriented
  rcases Nat.lt_trichotomy f g with before | same | after
  · exact absurd along' (apart f g inside inside' before start stop along)
  · exact same
  · exact absurd along (apart g f inside' inside after start stop along')

section Located

variable {positions : Array α} {cycle : List Nat} (located : Locates positions cycle tile)
include located

theorem Locates.exists_runsAlong {v w : Nat} (along : RunsAlong cycle v w) :
    ∃ start stop, positions[v]? = some start ∧ positions[w]? = some stop ∧ RunsAlong tile start stop := by
  obtain ⟨i, tail, head⟩ := along
  rw [located.length_eq] at head
  obtain ⟨start, tail', position⟩ := located.getElem?_tile tail
  obtain ⟨stop, head', position'⟩ := located.getElem?_tile head
  exact ⟨start, stop, position, position', i, tail', head'⟩

theorem Locates.exists_cycle_runsAlong (along : RunsAlong tile start stop) :
    ∃ v w : Nat, positions[v]? = some start ∧ positions[w]? = some stop ∧ RunsAlong cycle v w := by
  obtain ⟨i, tail, head⟩ := along
  rw [← located.length_eq] at head
  obtain ⟨v, tail', position⟩ := located.getElem? tail
  obtain ⟨w, head', position'⟩ := located.getElem? head
  exact ⟨v, w, position, position', i, tail', head'⟩

end Located

theorem Oriented.of_located {positions : Array α} {pairs : List (List Nat × List α)}
    (located : ∀ pair ∈ pairs, Locates positions pair.1 pair.2)
    (oriented : Oriented (pairs.map Prod.snd)) : Oriented (pairs.map Prod.fst) := by
  rw [Oriented, List.pairwise_map] at oriented ⊢
  refine oriented.imp_of_mem fun known known' apart v w along along' => ?_
  obtain ⟨start, stop, position, position', tile⟩ := (located _ known).exists_runsAlong along
  obtain ⟨start', stop', again, again', tile'⟩ := (located _ known').exists_runsAlong along'
  cases position.symm.trans again
  cases position'.symm.trans again'
  exact apart start stop tile tile'

end Tiles

namespace Graph

variable {graph : Graph} {vertexCount e f : Nat} {cycles : List (List Nat)} {hints : Hints}

theorem exists_runsAlong
    (around : (graph.edgesOf f).map (graph.edges[·]?) = (sides (graph.verticesOf f)).map some)
    (member : e ∈ graph.edgesOf f) :
    ∃ v w, graph.edges[e]? = some (Edge.joining v w) ∧ RunsAlong (graph.verticesOf f) v w := by
  obtain ⟨side, isSide, here⟩ := getElem?_of_around around member
  obtain ⟨i, v, w, tail, head, rfl⟩ := mem_sides.mp isSide
  exact ⟨v, w, here, i, tail, head⟩

theorem length_facesOf_le_two (laid : Laid graph.edges graph.faces)
    (oriented : Oriented (graph.faces.toList.map Face.vertices)) (e : Nat) :
    (graph.facesOf e).length ≤ 2 := by
  have only {f g v w : Nat} (here : f ∈ graph.facesOf e) (there : g ∈ graph.facesOf e)
      (along : RunsAlong (graph.verticesOf f) v w) (along' : RunsAlong (graph.verticesOf g) v w) :
      f = g := by
    have known := (mem_facesOf.mp here).1
    have known' := (mem_facesOf.mp there).1
    exact oriented.eq (getElem?_vertices known) (getElem?_vertices known') along along'
  have distinct := graph.nodup_facesOf e
  match faces : graph.facesOf e with
  | [] | [_] | [_, _] => simp
  | first :: second :: third :: rest =>
    have here : first ∈ graph.facesOf e := by simp [faces]
    have here' : second ∈ graph.facesOf e := by simp [faces]
    have here'' : third ∈ graph.facesOf e := by simp [faces]
    rw [faces] at distinct
    obtain ⟨⟨apart, apart', _⟩, ⟨apart'', _⟩, _⟩ : (first ≠ second ∧ first ≠ third ∧ _) ∧
      (second ≠ third ∧ _) ∧ _ := by simpa using distinct
    obtain ⟨v, w, edge, along⟩ := exists_runsAlong (laid.edgesOf _) (mem_facesOf.mp here).2
    obtain ⟨v', w', edge', along'⟩ := exists_runsAlong (laid.edgesOf _) (mem_facesOf.mp here').2
    obtain ⟨v'', w'', edge'', along''⟩ := exists_runsAlong (laid.edgesOf _) (mem_facesOf.mp here'').2
    have same := Edge.joining_eq_joining.mp (Option.some.inj (edge.symm.trans edge'))
    have same' := Edge.joining_eq_joining.mp (Option.some.inj (edge.symm.trans edge''))
    rcases same with ⟨rfl, rfl⟩ | ⟨rfl, rfl⟩
    · exact absurd (only here here' along along') apart
    · rcases same' with ⟨rfl, rfl⟩ | ⟨rfl, rfl⟩
      · exact absurd (only here here'' along along'') apart'
      · exact absurd (only here' here'' along' along'') apart''

/-- Sound cycles that run along their sides in one direction each make a graph. -/
theorem build_of_oriented
    (sound : ∀ cycle ∈ cycles, 3 ≤ cycle.length ∧ cycle.Nodup ∧ ∀ v ∈ cycle, v < vertexCount)
    (oriented : Oriented cycles) (known : hints.unknown cycles.length = []) :
    build vertexCount (cycles.map (·.map Int.ofNat)) hints = .ok (ofCycles vertexCount cycles hints) := by
  have fine : faultyCycle? vertexCount (cycles.map (·.map Int.ofNat)) = none := by
    refine faultyCycle?_eq_none_iff.mpr fun references listed => ?_
    obtain ⟨cycle, member, rfl⟩ := List.mem_map.mp listed
    obtain ⟨long, distinct, inside⟩ := sound cycle member
    refine ⟨by rwa [List.length_map], distinct.map Int.ofNat_injective, fun reference here => ?_⟩
    obtain ⟨v, corner, rfl⟩ := List.mem_map.mp here
    exact ⟨Int.natCast_nonneg v, Int.ofNat_lt.mpr (inside v corner)⟩
  have same : (cycles.map (·.map Int.ofNat)).map (·.map Int.toNat) = cycles := by
    simp [Function.comp_def]
  have laid := laid_ofCycles vertexCount cycles hints
  have vertices := vertices_ofCycles vertexCount cycles hints
  have size := size_ofCycles vertexCount cycles hints
  have uncrowded := (crowded?_eq_none_iff laid).mpr (length_facesOf_le_two laid (vertices.symm ▸ oriented))
  exact build_eq_ok_iff.mpr ⟨fine, by rw [same], uncrowded, size.symm ▸ known⟩

end Graph

namespace Sketch

variable {α : Type} {key : α → Nat} {sketch : Sketch key} {pairs : List (List Nat × List α)}

private theorem Covers.draw_of_oriented (covers : sketch.Covers pairs)
    (simple : ∀ pair ∈ pairs, 3 ≤ pair.2.length ∧ pair.2.Nodup)
    (oriented : Oriented (pairs.map Prod.snd)) (known : sketch.hints.unknown pairs.length = []) :
    sketch.draw = .ok ⟨sketch.positions.items,
      .ofCycles sketch.positions.items.size (pairs.map Prod.fst) sketch.hints⟩ := by
  have sound : ∀ cycle ∈ pairs.map Prod.fst,
      3 ≤ cycle.length ∧ cycle.Nodup ∧ ∀ v ∈ cycle, v < sketch.positions.items.size := by
    intro cycle listed
    obtain ⟨pair, member, rfl⟩ := List.mem_map.mp listed
    obtain ⟨long, distinct⟩ := simple pair member
    have located := covers.located pair member
    refine ⟨located.length_eq ▸ long, ?_, fun v corner => ?_⟩
    · have apart : (pair.2.map some).Nodup := distinct.map (Option.some_injective _)
      rw [← located] at apart
      exact apart.of_map
    · obtain ⟨position, _, here⟩ := located.exists_corner corner
      exact (Array.getElem?_eq_some_iff.mp here).1
  have built := build_of_oriented sound (Oriented.of_located covers.located oriented)
    ((List.length_map Prod.fst).symm ▸ known)
  have cycles : sketch.cycles.reverse = (pairs.map Prod.fst).map (·.map Int.ofNat) := by
    rw [covers.newest, List.reverse_reverse, List.map_map]
    rfl
  rw [Sketch.draw, Drawing.build, cycles, built]
  rfl

end Sketch

namespace Tiling

variable {x y x' y' : Nat} {start stop : Position}

/-- If a side and its direction tell the cell, a grid can be drawn with any proper hints: always with
the same vertices, and with the same cycles at the corners of its tiles. -/
theorem grid_of_proper {corners : Nat → Nat → List Position} {width height : Int} (wide : 1 ≤ width)
    (high : 1 ≤ height) (simple : ∀ x y, 3 ≤ (corners x y).length ∧ (corners x y).Nodup)
    (cell : ∀ x y x' y' start stop, RunsAlong (corners x y) start stop →
      RunsAlong (corners x' y') start stop → x = x' ∧ y = y') :
    ∃ (positions : Array Position) (pairs : List (List Nat × List Position)), Distinct positions ∧
      (∀ pair ∈ pairs, Locates positions pair.1 pair.2) ∧
        pairs.map Prod.snd = (cells width.toNat height.toNat).map (fun cell => corners cell.1 cell.2) ∧
          ∀ hints : Hints, hints.Proper pairs.length →
            grid corners width height hints =
              .ok ⟨positions, .ofCycles positions.size (pairs.map Prod.fst) hints⟩ := by
  obtain ⟨pairs, covers, tiles⟩ := (Sketch.covers_empty : (Sketch.empty : Sketch row).Covers []).addTiles
    (fun cell : Nat × Nat => corners cell.1 cell.2) (cells width.toNat height.toNat)
  rw [List.map_nil, List.nil_append] at tiles
  have oriented : Oriented (pairs.map Prod.snd) := by
    rw [tiles, Oriented, List.pairwise_map]
    refine (pairwise_cells _ _).imp fun before start stop along along' => ?_
    obtain ⟨column, row⟩ := cell _ _ _ _ start stop along along'
    unfold Precedes at before
    omega
  refine ⟨_, pairs, covers.distinct, covers.located, tiles, fun hints proper => ?_⟩
  have blank : (sketch corners width.toNat height.toNat).hints = [] := Sketch.hints_addTiles ..
  have hinted := Sketch.setHints_eq (sketch corners width.toNat height.toNat)
    (by rw [blank]; exact proper.distinct) proper.given
  rw [blank, List.nil_append] at hinted
  rw [grid, if_neg (by omega)]
  dsimp only
  rw [hinted]
  refine Sketch.Covers.draw_of_oriented ⟨covers.distinct, covers.newest, covers.located⟩
    (fun pair member => ?_) oriented proper.unknown
  have listed : pair.2 ∈ pairs.map Prod.snd := List.mem_map_of_mem member
  rw [tiles] at listed
  obtain ⟨cell, _, same⟩ := List.mem_map.mp listed
  exact same ▸ simple cell.1 cell.2

theorem exists_grid {corners : Nat → Nat → List Position} {width height : Int} (wide : 1 ≤ width)
    (high : 1 ≤ height) (simple : ∀ x y, 3 ≤ (corners x y).length ∧ (corners x y).Nodup)
    (cell : ∀ x y x' y' start stop, RunsAlong (corners x y) start stop →
      RunsAlong (corners x' y') start stop → x = x' ∧ y = y') :
    ∃ drawing, grid corners width height [] = .ok drawing := by
  obtain ⟨_, _, _, _, _, drawn⟩ := grid_of_proper wide high simple cell
  exact ⟨_, drawn [] (Hints.proper_nil _)⟩

theorem runsAlong_square (along : RunsAlong (squareCorners x y) start stop) :
    2 * x + 1 = start.1 + stop.1 - (stop.2 - start.2) ∧
      2 * y + 1 = start.2 + stop.2 + (stop.1 - start.1) := by
  obtain ⟨i, tail, head⟩ := along
  have four : (squareCorners x y).length = 4 := rfl
  have bound := (List.getElem?_eq_some_iff.mp tail).1
  rw [four] at bound head
  match i, bound with
  | 0, _ | 1, _ | 2, _ | 3, _ =>
    obtain rfl := Option.some.inj tail
    obtain rfl := Option.some.inj head
    dsimp only
    omega

theorem runsAlong_hexagon (along : RunsAlong (hexagonCorners x y) start stop) :
    52 * (45 * x) = 26 * (start.1 + stop.1) - 45 * (stop.2 - start.2) ∧
      60 * (52 * y + 26 * (x % 2)) = 30 * (start.2 + stop.2) + 52 * (stop.1 - start.1) := by
  obtain ⟨i, tail, head⟩ := along
  have six : (hexagonCorners x y).length = 6 := rfl
  have bound := (List.getElem?_eq_some_iff.mp tail).1
  rw [six] at bound head
  match i, bound with
  | 0, _ | 1, _ | 2, _ | 3, _ | 4, _ | 5, _ =>
    obtain rfl := Option.some.inj tail
    obtain rfl := Option.some.inj head
    dsimp only [hexWidth, hexHeight]
    omega

theorem square_of_runsAlong (along : RunsAlong (squareCorners x y) start stop)
    (along' : RunsAlong (squareCorners x' y') start stop) : x = x' ∧ y = y' := by
  have column := (runsAlong_square along).1.trans (runsAlong_square along').1.symm
  have row := (runsAlong_square along).2.trans (runsAlong_square along').2.symm
  omega

theorem hexagon_of_runsAlong (along : RunsAlong (hexagonCorners x y) start stop)
    (along' : RunsAlong (hexagonCorners x' y') start stop) : x = x' ∧ y = y' := by
  have column := (runsAlong_hexagon along).1.trans (runsAlong_hexagon along').1.symm
  have row := (runsAlong_hexagon along).2.trans (runsAlong_hexagon along').2.symm
  omega

theorem nodup_squareCorners (x y : Nat) : (squareCorners x y).Nodup := by
  simp [squareCorners]

theorem nodup_hexagonCorners (x y : Nat) : (hexagonCorners x y).Nodup := by
  simp only [hexagonCorners, hexWidth, hexHeight, List.nodup_cons, List.mem_cons, Prod.mk.injEq,
    List.not_mem_nil, or_false, not_false_eq_true, List.nodup_nil, and_true]
  omega

/-! ### New corners -/

private theorem advances_of_corner {corners : Nat → Nat → List Position} (corner : Nat → Nat → Position)
    (own : ∀ x y, corner x y ∈ corners x y)
    (new : ∀ x y x' y', y' < y ∨ y' = y ∧ x' < x → corner x y ∉ corners x' y') (width height : Nat) :
    Advances ((cells width height).map fun cell => corners cell.1 cell.2) := by
  intro earlier tile later split
  obtain ⟨x, y, _, rfl, laid⟩ := laidBefore_of_split split
  refine ⟨corner x y, own x y, fun other listed => ?_⟩
  obtain ⟨x', y', _, precedes, rfl⟩ := (laid other).mp listed
  exact new x y x' y' precedes

private theorem advances_square (width height : Nat) :
    Advances ((cells width height).map fun cell => squareCorners cell.1 cell.2) := by
  refine advances_of_corner (fun x y => (x + 1, y + 1)) (fun x y => ?_) (fun x y x' y' precedes => ?_) _ _
  · simp [squareCorners]
  · rw [mem_squareCorners]
    omega

private theorem advances_hexagon (width height : Nat) :
    Advances ((cells width height).map fun cell => hexagonCorners cell.1 cell.2) := by
  refine advances_of_corner (fun x y => (45 * x + 15, 52 * y + 26 * (x % 2) + 26)) (fun x y => ?_)
    (fun x y x' y' precedes => ?_) _ _
  · rw [mem_hexagonCorners]
    omega
  · rw [mem_hexagonCorners]
    dsimp only
    omega

private theorem grid_advances {corners : Nat → Nat → List Position} {width height : Int} {hints : Hints}
    {drawing : Drawing Position} (h : grid corners width height hints = .ok drawing)
    (advances : Advances ((cells width.toNat height.toNat).map fun cell => corners cell.1 cell.2)) :
    Advances (drawing.graph.faces.toList.map Face.vertices) := by
  obtain ⟨_, _, _, located, faces, tiles⟩ := grid_eq_ok h
  rw [faces]
  exact Advances.of_located located (tiles ▸ advances)

theorem IsGrid.advances {graph : Graph} (isGrid : IsGrid graph) :
    Advances (graph.faces.toList.map Face.vertices) := by
  obtain ⟨width, height, hints, drawing, rfl, square | honeycomb⟩ := isGrid
  · exact grid_advances square (advances_square _ _)
  · exact grid_advances honeycomb (advances_hexagon _ _)

/-- On a grid of squares or of hexagons each loop is the boundary of exactly one set of faces. -/
theorem existsUnique_region_grid {width height : Int} (wide : 1 ≤ width) (high : 1 ≤ height)
    (label : Nat) :
    ∀ tiling ∈ [squareGrid, honeycombGrid], ∃ drawing, tiling width height [] = .ok drawing ∧
      ∀ loop, drawing.graph.isLoop loop = true →
        ∃! region, (∃ faces, Region.new label drawing.graph faces = .ok region) ∧
          ∀ e, e ∈ region.boundaryEdges ↔ e ∈ loop := by
  have law {drawing : Drawing Position} (isGrid : IsGrid drawing.graph) (loop : List Nat)
      (isLoop : drawing.graph.isLoop loop = true) :=
    isGrid.shelled.1.existsUnique_region isGrid.shelled.2 isGrid.advances isLoop label
  intro tiling listed
  rcases List.mem_pair.mp listed with rfl | rfl
  · obtain ⟨drawing, drawn⟩ := exists_grid wide high
      (fun x y => ⟨by simp [squareCorners], nodup_squareCorners x y⟩)
      (fun x y x' y' start stop => square_of_runsAlong)
    exact ⟨drawing, drawn, law ⟨width, height, [], drawing, rfl, .inl drawn⟩⟩
  · obtain ⟨drawing, drawn⟩ := exists_grid wide high
      (fun x y => ⟨by simp [hexagonCorners], nodup_hexagonCorners x y⟩)
      (fun x y x' y' start stop => hexagon_of_runsAlong)
    exact ⟨drawing, drawn, law ⟨width, height, [], drawing, rfl, .inr drawn⟩⟩

/-- Two squares side by side, and the loop around the first. -/
theorem existsUnique_region_grid_pair :
    ∃ drawing, squareGrid 2 1 [] = .ok drawing ∧ drawing.graph.isLoop [0, 1, 2, 3] = true ∧
      ∃! region, (∃ faces, Region.new 0 drawing.graph faces = .ok region) ∧
        ∀ e, e ∈ region.boundaryEdges ↔ e ∈ [0, 1, 2, 3] := by
  obtain ⟨drawing, drawn, law⟩ := existsUnique_region_grid (by decide : (1 : Int) ≤ 2)
    (by decide : (1 : Int) ≤ 1) 0 squareGrid (by simp)
  have same : squareGrid 2 1 [] = .ok ⟨#[(0, 0), (1, 0), (1, 1), (0, 1), (2, 0), (2, 1)],
      .ofCycles 6 [[0, 1, 2, 3], [1, 4, 5, 2]] []⟩ := rfl
  have isLoop : drawing.graph.isLoop [0, 1, 2, 3] = true := by
    obtain rfl := Except.ok.inj (same.symm.trans drawn)
    decide
  exact ⟨drawing, drawn, isLoop, law _ isLoop⟩

end Tiling

end PencilPuzzle
