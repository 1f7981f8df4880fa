import PencilPuzzle.Graph.FaceSet
import PencilPuzzle.Proofs.Graph.Sketch

/-!
# One inside only

Where each tile has a corner that no earlier tile has, a loop has at most one inside: seen from the
last tile to the first, each of them has a side with at most one later tile beyond it, and the loop
says whether that side is crossed. On tiles that also leave no holes, the boundary of a region can
therefore be any loop, and it tells the region.
-/

namespace PencilPuzzle

namespace Graph

/-! ### Tiles with new corners -/

section Tiles

variable {α : Type}

/-- Each tile has a corner that no earlier tile has. -/
def Advances (tiles : List (List α)) : Prop :=
  ∀ earlier tile later, tiles = earlier ++ tile :: later →
    ∃ corner ∈ tile, ∀ other ∈ earlier, corner ∉ other

theorem Advances.of_located {positions : Array α} {pairs : List (List Nat × List α)}
    (located : ∀ pair ∈ pairs, Locates positions pair.1 pair.2)
    (advances : Advances (pairs.map Prod.snd)) : Advances (pairs.map Prod.fst) := by
  intro earlier cycle later split
  obtain ⟨before, rest, rfl, rfl, others⟩ := List.map_eq_append_iff.mp split
  obtain ⟨pair, after, rfl, rfl, rfl⟩ := List.map_eq_cons_iff.mp others
  obtain ⟨corner, isCorner, new⟩ :=
    advances _ _ (after.map Prod.snd) (by rw [List.map_append, List.map_cons])
  obtain ⟨i, place⟩ := List.mem_iff_getElem?.mp isCorner
  obtain ⟨v, vertex, position⟩ := (located pair (by simp)).getElem? place
  refine ⟨v, List.mem_of_getElem? vertex, fun other listed member => ?_⟩
  obtain ⟨known, early, rfl⟩ := List.mem_map.mp listed
  obtain ⟨corner', isCorner', same⟩ := (located known (by simp [early])).exists_corner member
  cases position.symm.trans same
  exact new _ (List.mem_map_of_mem early) isCorner'

end Tiles

variable {graph : Graph} {loop : List Nat} {inside inside' : Nat → Bool} {e f : Nat}

section Faces

variable (wellFormed : graph.WellFormed)
include wellFormed

private theorem Advances.exists_new_edge (advances : Advances (graph.faces.toList.map Face.vertices))
    (bound : f < graph.faces.size) : ∃ e ∈ graph.edgesOf f, ∀ g ∈ graph.facesOf e, f ≤ g := by
  obtain ⟨inList, here⟩ := List.getElem?_eq_some_iff.mp (getElem?_vertices bound)
  obtain ⟨v, corner, new⟩ := advances _ _ _
    ((List.take_append_drop f _).symm.trans (congrArg _ (List.drop_eq_getElem_cons inList)))
  rw [here] at corner
  obtain ⟨side, _, _, pair⟩ := filter_sides (wellFormed.simple f) (wellFormed.long f bound) corner
  obtain ⟨isSide, ends⟩ := List.mem_filter.mp (pair ▸ List.mem_cons_self .. : side ∈ _)
  obtain ⟨e, member, edge⟩ := wellFormed.exists_edge isSide
  refine ⟨e, member, fun g listed => ?_⟩
  obtain ⟨known, shared⟩ := mem_facesOf.mp listed
  by_contra early
  refine new (graph.verticesOf g) (List.mem_of_getElem? (i := g) ?_)
    (mem_of_mem_sides ((wellFormed.mem_sides_iff edge).mpr shared) (of_decide_eq_true ends))
  rw [List.getElem?_take_of_lt (Nat.lt_of_not_le early), getElem?_vertices known]

/-- A loop has at most one inside. -/
theorem Encloses.agree (advances : Advances (graph.faces.toList.map Face.vertices))
    (encloses : graph.Encloses loop inside) (encloses' : graph.Encloses loop inside')
    (bound : f < graph.faces.size) : inside f = inside' f := by
  -- From the last face on: what lies beyond a new edge of a face is settled before the face is.
  induction left : graph.faces.size - f using Nat.strong_induction_on generalizing f with
  | h left ih =>
    obtain ⟨e, member, later⟩ := advances.exists_new_edge wellFormed bound
    have known := wellFormed.lt_size member
    obtain one | ⟨g, different, two⟩ := wellFormed.facesOf_cases member
    · rw [Bool.eq_iff_iff, ← encloses.iff_of_one known one, encloses'.iff_of_one known one]
    · have listed : g ∈ graph.facesOf e := by rcases two with two | two <;> simp [two]
      have beyond := (mem_facesOf.mp listed).1
      have after := later g listed
      have settled : inside g = inside' g := ih _ (by omega) beyond rfl
      have same := (encloses.iff_of_pair known two).symm.trans (encloses'.iff_of_pair known two)
      rw [settled, not_iff_not] at same
      by_cases crossed : inside f = inside' g
      · exact crossed.trans (same.mp crossed).symm
      · exact (Bool.eq_not_of_ne crossed).trans (Bool.eq_not_of_ne (mt same.mpr crossed)).symm

/-! ### Boundaries of regions -/

theorem WellFormed.mem_boundaryEdges_iff_odd {faces : List Nat} :
    e ∈ graph.boundaryEdges faces ↔ Odd ((graph.facesOf e).countP (· ∈ faces)) := by
  have distinct := graph.nodup_facesOf e
  have few := wellFormed.shared e
  rw [mem_boundaryEdges]
  match graph.facesOf e, distinct, few with
  | [], _, _ => simp
  | [f], _, _ => by_cases here : f ∈ faces <;> simp [here]
  | [f, g], distinct, _ =>
    have different : f ≠ g := by simpa using distinct
    by_cases here : f ∈ faces <;> by_cases there : g ∈ faces <;>
      simp [here, there, different, different.symm, Nat.odd_iff]

theorem WellFormed.encloses_iff (known : ∀ e ∈ loop, e < graph.edges.size) (faces : List Nat) :
    graph.Encloses loop (· ∈ faces) ↔ ∀ e, e ∈ graph.boundaryEdges faces ↔ e ∈ loop := by
  simp only [wellFormed.mem_boundaryEdges_iff_odd]
  refine ⟨fun encloses e => ?_, fun boundary e _ => (boundary e).symm⟩
  by_cases inside : e < graph.edges.size
  · exact (encloses e inside).symm
  · have none : graph.facesOf e = [] := List.eq_nil_iff_forall_not_mem.mpr fun f listed =>
      inside (wellFormed.lt_size (mem_facesOf.mp listed).2)
    rw [none]
    exact iff_of_false (by simp) (mt (known e) inside)

end Faces

end Graph

namespace Region

variable {label : Nat} {graph : Graph} {faces : List Int} {region : Region}

theorem new_eq_ok (h : new label graph faces = .ok region) :
    region = ⟨label, graph, graph.faceIds.filter fun f => (f : Int) ∈ faces⟩ := by
  unfold new at h
  split at h
  · exact (Except.ok.inj h).symm
  · exact nomatch h

theorem new_natCast (label : Nat) {faces : List Nat} (known : ∀ f ∈ faces, f < graph.faces.size) :
    new label graph (faces.map Int.ofNat) = .ok ⟨label, graph, graph.faceIds.filter (· ∈ faces)⟩ := by
  have none : (faces.map Int.ofNat).filter (fun f => !Graph.isNumber graph.faces.size f) = [] := by
    rw [List.filter_eq_nil_iff]
    intro reference listed
    obtain ⟨f, member, rfl⟩ := List.mem_map.mp listed
    simp [Graph.isNumber, known f member]
  have same : (graph.faceIds.filter fun f : Nat => (f : Int) ∈ faces.map Int.ofNat) =
      graph.faceIds.filter (· ∈ faces) := by
    apply List.filter_congr
    simp
  rw [new, none]
  dsimp only
  rw [same]

theorem new_faceIds (label : Nat) (graph : Graph) (inside : Nat → Bool) :
    new label graph ((graph.faceIds.filter inside).map Int.ofNat) =
      .ok ⟨label, graph, graph.faceIds.filter inside⟩ := by
  have chosen : graph.faceIds.filter (· ∈ graph.faceIds.filter inside) = graph.faceIds.filter inside := by
    apply List.filter_congr
    intro f listed
    simp [listed]
  have known : ∀ f ∈ graph.faceIds.filter inside, f < graph.faces.size := fun f member =>
    List.mem_range.mp (List.mem_filter.mp member).1
  rw [new_natCast label known, chosen]

end Region

/-- On a graph without holes whose faces all have new corners, each loop is the boundary of exactly
one region. -/
theorem Graph.WellFormed.existsUnique_region {graph : Graph} {loop : List Nat}
    (wellFormed : graph.WellFormed) (shelled : Shelled (graph.faces.toList.map Face.vertices))
    (advances : Advances (graph.faces.toList.map Face.vertices)) (isLoop : graph.isLoop loop = true)
    (label : Nat) :
    ∃! region, (∃ faces, Region.new label graph faces = .ok region) ∧
      ∀ e, e ∈ region.boundaryEdges ↔ e ∈ loop := by
  have ring := isLoop_iff_ring.mp isLoop
  have bounds := wellFormed.encloses_iff fun e member => ring.lt_size member
  simp only [List.mem_eraseDups] at bounds
  obtain ⟨inside, encloses⟩ := ring.exists_inside wellFormed shelled
  have found : graph.Encloses loop.eraseDups (· ∈ graph.faceIds.filter inside) := by
    intro e bound
    rw [encloses e bound, List.countP_congr]
    intro f listed
    simp [faceIds, (mem_facesOf.mp listed).1]
  refine ⟨⟨label, graph, graph.faceIds.filter inside⟩,
    ⟨⟨_, Region.new_faceIds label graph inside⟩, (bounds _).mp found⟩, ?_⟩
  rintro region ⟨⟨faces, made⟩, boundary⟩
  cases Region.new_eq_ok made
  congr 1
  apply List.filter_congr
  intro f listed
  have agree := ((bounds _).mpr boundary).agree wellFormed advances encloses (List.mem_range.mp listed)
  rw [← agree]
  simp [listed]

end PencilPuzzle
