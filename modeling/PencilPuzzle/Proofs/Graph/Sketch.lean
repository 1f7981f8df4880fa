import PencilPuzzle.Graph.Sketch
import PencilPuzzle.Proofs.Graph.Boundary
import PencilPuzzle.Proofs.Graph.Hint

/-!
# Sketches of tiles

A sketch made of tiles alone has one vertex for each corner position, so its faces meet exactly where
the tiles do. What is known of how the tiles fit together therefore holds of the faces that are drawn
from them.
-/

namespace PencilPuzzle

open PencilPuzzle.Graph

variable {α : Type} {key : α → Nat} {positions : Array α} {tile : List α} {cycle : List Nat}

/-! ### Cycles at the corners of tiles -/

/-- The vertices of the cycle lie at the corners of the tile. -/
def Locates (positions : Array α) (cycle : List Nat) (tile : List α) : Prop :=
  cycle.map (positions[·]?) = tile.map some

namespace Locates

variable (located : Locates positions cycle tile)
include located

theorem length_eq : cycle.length = tile.length := by
  have same := congrArg List.length located
  rwa [List.length_map, List.length_map] at same

theorem getElem? {i : Nat} {position : α} (here : tile[i]? = some position) :
    ∃ v : Nat, cycle[i]? = some v ∧ positions[v]? = some position := by
  have same := congrArg (·[i]?) located
  simp only [List.getElem?_map, here, Option.map_some, Option.map_eq_some_iff] at same
  exact same

theorem getElem?_tile {i v : Nat} (here : cycle[i]? = some v) :
    ∃ position, tile[i]? = some position ∧ positions[v]? = some position := by
  have same := congrArg (·[i]?) located
  simp only [List.getElem?_map, here, Option.map_some] at same
  obtain ⟨position, place, there⟩ := Option.map_eq_some_iff.mp same.symm
  exact ⟨position, place, there.symm⟩

theorem exists_corner {v : Nat} (member : v ∈ cycle) :
    ∃ position ∈ tile, positions[v]? = some position := by
  obtain ⟨i, here⟩ := List.mem_iff_getElem?.mp member
  obtain ⟨position, place, there⟩ := located.getElem?_tile here
  exact ⟨position, List.mem_of_getElem? place, there⟩

end Locates

namespace Graph

section Located

variable (distinct : Distinct positions) {earlier : List (List Nat × List α)}
  (located : ∀ pair ∈ earlier, Locates positions pair.1 pair.2) (here : Locates positions cycle tile)
include located here

theorem Meets.of_located {i j : Nat} (meets : Meets (earlier.map Prod.snd) tile i j) :
    Meets (earlier.map Prod.fst) cycle i j := by
  obtain ⟨inside, rfl, corner, place, new⟩ := meets
  obtain ⟨v, vertex, position⟩ := here.getElem? place
  rw [← here.length_eq] at inside vertex ⊢
  refine ⟨inside, rfl, v, vertex, fun other listed member => ?_⟩
  obtain ⟨pair, known, rfl⟩ := List.mem_map.mp listed
  obtain ⟨corner', isCorner, same⟩ := (located pair known).exists_corner member
  cases position.symm.trans same
  exact new pair.2 (List.mem_map_of_mem known) isCorner

include distinct

theorem Shares.of_located {i : Nat} (shares : Shares (earlier.map Prod.snd) tile i) :
    Shares (earlier.map Prod.fst) cycle i := by
  obtain ⟨other, listed, j, start, stop, tail, head, head', tail'⟩ := shares
  obtain ⟨pair, known, rfl⟩ := List.mem_map.mp listed
  have there := located pair known
  obtain ⟨v, vertex, position⟩ := here.getElem? tail
  obtain ⟨w, next, position'⟩ := here.getElem? head
  obtain ⟨w', next', again'⟩ := there.getElem? head'
  obtain ⟨v', vertex', again⟩ := there.getElem? tail'
  cases distinct v v' start position again
  cases distinct w w' stop position' again'
  rw [← here.length_eq] at next
  rw [← there.length_eq] at vertex'
  exact ⟨pair.1, List.mem_map_of_mem known, j, v, w, vertex, next, next', vertex'⟩

/-- Cycles at the corners of tiles attach as the tiles do. -/
theorem Attaches.of_located (attaches : Attaches (earlier.map Prod.snd) tile) :
    Attaches (earlier.map Prod.fst) cycle := by
  obtain ⟨base, inside, hang⟩ := attaches
  rw [← here.length_eq] at inside hang
  refine ⟨base, inside, fun i bound => ?_⟩
  obtain shares | hangs := hang i bound
  · exact .inl (shares.of_located distinct located here)
  · exact .inr (hangs.mono fun i j meets => meets.of_located located here)

end Located

theorem Shelled.of_located {pairs : List (List Nat × List α)} (distinct : Distinct positions)
    (located : ∀ pair ∈ pairs, Locates positions pair.1 pair.2)
    (shelled : Shelled (pairs.map Prod.snd)) : Shelled (pairs.map Prod.fst) := by
  intro earlier cycle later split
  obtain ⟨before, rest, rfl, rfl, others⟩ := List.map_eq_append_iff.mp split
  obtain ⟨pair, after, rfl, rfl, rfl⟩ := List.map_eq_cons_iff.mp others
  refine Attaches.of_located distinct (fun other known => located other (List.mem_append_left _ known))
    (located pair (List.mem_append_right _ (List.mem_cons_self ..))) ?_
  exact shelled _ _ (after.map Prod.snd) (by rw [List.map_append, List.map_cons])

end Graph

namespace Sketch

variable {sketch : Sketch key} {pairs : List (List Nat × List α)}

/-! ### Adding tiles -/

section Adding

variable [DecidableEq α]

private theorem vertexAt_files (sketch : Sketch key) (position : α) :
    Files sketch.positions.items (sketch.vertexAt position).1.positions.items position
      (sketch.vertexAt position).2 := by
  unfold vertexAt
  split
  next found => exact Register.files_found found
  next absent => exact Register.files_push absent

private theorem verticesAt_files (sketch : Sketch key) (corners : List α) :
    FilesAll sketch.positions.items (sketch.verticesAt corners).1.positions.items corners
      (sketch.verticesAt corners).2 := by
  induction corners generalizing sketch with
  | nil => exact FilesAll.nil
  | cons position rest ih => exact .cons (sketch.vertexAt_files position) (ih _)

private theorem verticesAt_keeps (sketch : Sketch key) (corners : List α) :
    (sketch.verticesAt corners).1.cycles = sketch.cycles ∧
      (sketch.verticesAt corners).1.hints = sketch.hints := by
  induction corners generalizing sketch with
  | nil => exact ⟨rfl, rfl⟩
  | cons position rest ih =>
    have first : (sketch.vertexAt position).1.cycles = sketch.cycles ∧
        (sketch.vertexAt position).1.hints = sketch.hints := by
      unfold vertexAt
      split <;> exact ⟨rfl, rfl⟩
    obtain ⟨cycles, hints⟩ := ih (sketch.vertexAt position).1
    exact ⟨cycles.trans first.1, hints.trans first.2⟩

theorem mem_positions_addTile {position : α} {corners : List α}
    (member : position ∈ (sketch.addTile corners).positions.items) :
    position ∈ sketch.positions.items ∨ position ∈ corners :=
  (sketch.verticesAt_files corners).mem_or member

theorem mem_positions_addTiles {β : Type} {position : α} (corners : β → List α) {cells : List β}
    (member : position ∈
      (cells.foldl (fun sketch cell => sketch.addTile (corners cell)) sketch).positions.items) :
    position ∈ sketch.positions.items ∨ ∃ cell ∈ cells, position ∈ corners cell := by
  induction cells generalizing sketch with
  | nil => exact .inl member
  | cons cell rest ih =>
    obtain before | ⟨other, listed, corner⟩ := ih member
    · exact (mem_positions_addTile before).imp_right fun corner => ⟨cell, List.mem_cons_self .., corner⟩
    · exact .inr ⟨other, List.mem_cons_of_mem cell listed, corner⟩

theorem hints_addTiles {β : Type} (sketch : Sketch key) (corners : β → List α) (cells : List β) :
    (cells.foldl (fun sketch cell => sketch.addTile (corners cell)) sketch).hints = sketch.hints := by
  induction cells generalizing sketch with
  | nil => rfl
  | cons cell rest ih => exact (ih _).trans (sketch.verticesAt_keeps (corners cell)).2

end Adding

/-- The sketch consists of these cycles, each at the corners of its tile, and no two vertices
coincide. -/
structure Covers (sketch : Sketch key) (pairs : List (List Nat × List α)) : Prop where
  distinct : Distinct sketch.positions.items
  newest : sketch.cycles = (pairs.map fun pair => pair.1.map Int.ofNat).reverse
  located : ∀ pair ∈ pairs, Locates sketch.positions.items pair.1 pair.2

theorem covers_empty : (Sketch.empty : Sketch key).Covers [] where
  distinct i j item here := by simp [empty, Register.empty] at here
  newest := rfl
  located _ member := absurd member List.not_mem_nil

theorem Covers.addTile [DecidableEq α] (covers : sketch.Covers pairs) (corners : List α) :
    ∃ cycle, (sketch.addTile corners).Covers (pairs ++ [(cycle, corners)]) := by
  have files := sketch.verticesAt_files corners
  refine ⟨(sketch.verticesAt corners).2, files.distinct covers.distinct, ?_, fun pair member => ?_⟩
  · rw [List.map_append, List.reverse_append, ← covers.newest, ← (sketch.verticesAt_keeps corners).1]
    rfl
  · rcases List.mem_append.mp member with old | new
    · exact files.kept.map_getElem? (covers.located pair old)
    · cases List.mem_singleton.mp new
      exact files.filed

theorem Covers.addTiles [DecidableEq α] {β : Type} (covers : sketch.Covers pairs)
    (corners : β → List α) (cells : List β) :
    ∃ more, (cells.foldl (fun sketch cell => sketch.addTile (corners cell)) sketch).Covers more ∧
      more.map Prod.snd = pairs.map Prod.snd ++ cells.map corners := by
  induction cells generalizing sketch pairs with
  | nil => exact ⟨pairs, covers, (List.append_nil _).symm⟩
  | cons cell rest ih =>
    obtain ⟨cycle, added⟩ := covers.addTile (corners cell)
    obtain ⟨more, covered, tiles⟩ := ih added
    refine ⟨more, covered, ?_⟩
    rw [tiles, List.map_append, List.append_assoc]
    rfl

theorem Covers.setHint (covers : sketch.Covers pairs) (face : Int) (hint : Option Int) :
    (sketch.setHint face hint).Covers pairs := by
  cases hint <;> exact ⟨covers.distinct, covers.newest, covers.located⟩

theorem Covers.setHints (covers : sketch.Covers pairs) (hints : Hints) :
    (hints.foldl (fun sketch entry => sketch.setHint entry.1 entry.2) sketch).Covers pairs := by
  induction hints generalizing sketch with
  | nil => exact covers
  | cons entry rest ih => exact ih (covers.setHint entry.1 entry.2)

theorem positions_setHints (sketch : Sketch key) (hints : Hints) :
    (hints.foldl (fun sketch entry => sketch.setHint entry.1 entry.2) sketch).positions =
      sketch.positions := by
  induction hints generalizing sketch with
  | nil => rfl
  | cons entry rest ih =>
    refine (ih _).trans ?_
    rcases entry with ⟨_, _ | _⟩ <;> rfl

theorem setHints_eq (sketch : Sketch key) {hints : Hints}
    (distinct : ((sketch.hints ++ hints).map Prod.fst).Nodup)
    (given : ∀ entry ∈ hints, entry.2 ≠ none) :
    hints.foldl (fun sketch entry => sketch.setHint entry.1 entry.2) sketch =
      { sketch with hints := sketch.hints ++ hints } := by
  induction hints generalizing sketch with
  | nil => rw [List.append_nil, List.foldl_nil]
  | cons entry rest ih =>
    obtain ⟨face, hint⟩ := entry
    obtain ⟨here, others⟩ := List.forall_mem_cons.mp given
    obtain ⟨value, rfl⟩ := Option.ne_none_iff_exists'.mp here
    have first : sketch.setHint face (some value) =
        { sketch with hints := sketch.hints ++ [(face, some value)] } := by
      have absent : ¬ sketch.hints.any (·.1 = face) = true := by
        intro listed
        obtain ⟨entry, member, same⟩ := List.any_eq_true.mp listed
        rw [List.map_append, List.nodup_append] at distinct
        exact distinct.2.2 _ (List.mem_map_of_mem member) _ (List.mem_cons_self ..) (of_decide_eq_true same)
      rw [Sketch.setHint, Hints.set, if_neg absent]
    rw [List.foldl_cons, first, ih]
    · simp only [List.append_assoc, List.singleton_append]
    · simpa using distinct
    · exact others

theorem draw_eq_ok {drawing : Drawing α} (h : sketch.draw = .ok drawing) :
    drawing.positions = sketch.positions.items ∧
      Graph.build drawing.positions.size sketch.cycles.reverse sketch.hints = .ok drawing.graph := by
  rw [Sketch.draw, Drawing.build] at h
  cases built : Graph.build sketch.positions.items.size sketch.cycles.reverse sketch.hints with
  | error fault =>
    rw [built] at h
    exact nomatch h
  | ok graph =>
    rw [built] at h
    cases h
    exact ⟨rfl, built⟩

/-- Drawing a sketch of tiles makes a face of each of them. -/
theorem Covers.draw {drawing : Drawing α} (covers : sketch.Covers pairs)
    (h : sketch.draw = .ok drawing) :
    drawing.graph.WellFormed ∧
      drawing.graph.faces.toList.map Face.vertices = pairs.map Prod.fst := by
  obtain ⟨_, built⟩ := draw_eq_ok h
  refine ⟨wellFormed_of_build built, ?_⟩
  obtain ⟨_, made, _⟩ := build_eq_ok built
  rw [made, vertices_ofCycles, covers.newest, List.reverse_reverse, List.map_map]
  simp [Function.comp_def]

end Sketch

end PencilPuzzle
