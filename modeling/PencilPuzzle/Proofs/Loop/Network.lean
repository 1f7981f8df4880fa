import PencilPuzzle.Proofs.Graph.Boundary
import PencilPuzzle.Proofs.Graph.SharedEdge
import PencilPuzzle.Proofs.Loop.Edge

/-!
# Face networks lie on one side

Suppose the faces can be put on sides so that the loop, and only the loop, changes the side: the
faces of an edge lie on different sides exactly when the edge belongs to the loop, and no side has both
an edge of the loop and another edge at the boundary of the graph. The inside and the outside of a loop
are such sides, but there may be more than two. Faces of one network are joined across disabled edges,
so they all lie on the same side, and what the rule concludes about the edges of the networks is so on
the loop.
-/

namespace PencilPuzzle.Loop

open State PencilPuzzle.Graph

variable {α : Type} {graph : Graph} {s : State} {loop network : List Nat} {side : Nat → α} {e f g : Nat}
  {update : Update}

/-! ### Edges and faces -/

theorem lt_size_of_facesOf (wellFormed : graph.WellFormed) (border : f ∈ graph.facesOf e) :
    e < graph.edges.size :=
  wellFormed.lt_size (mem_facesOf.mp border).2

theorem lt_size_of_facesOf_eq (wellFormed : graph.WellFormed) {rest : List Nat}
    (faces : graph.facesOf e = f :: rest) : e < graph.edges.size :=
  lt_size_of_facesOf wellFormed (faces ▸ List.mem_cons_self ..)

theorem mem_outerEdges : e ∈ outerEdges graph network ↔ ∃ f ∈ network, graph.facesOf e = [f] := by
  rw [outerEdges, List.mem_filter, mem_boundaryEdges, isBoundary, beq_iff_eq, List.length_eq_one_iff]
  constructor
  · rintro ⟨⟨f, border, member, _⟩, g, alone⟩
    rw [alone, List.mem_singleton] at border
    exact ⟨f, member, border ▸ alone⟩
  · rintro ⟨f, member, alone⟩
    refine ⟨⟨f, by simp [alone], member, fun g border other => ?_⟩, f, alone⟩
    rw [alone, List.mem_singleton] at border
    exact absurd border other

/-! ### Sides -/

/-- The side changes across an edge exactly when the edge belongs to the loop; at the boundary of the
graph the edges of one side all belong to the loop or none of them does. -/
structure Parts (graph : Graph) (loop : List Nat) (side : Nat → α) : Prop where
  inner : ∀ e f g, graph.facesOf e = [f, g] → (e ∈ loop ↔ side f ≠ side g)
  border : ∀ d e f g, graph.facesOf d = [f] → graph.facesOf e = [g] → side f = side g →
    (d ∈ loop ↔ e ∈ loop)

/-- The loop can be told by the sides of the faces, however many there are. -/
def Separates (graph : Graph) (loop : List Nat) : Prop := ∃ side : Nat → Nat, Parts graph loop side

theorem Encloses.parts (wellFormed : graph.WellFormed) {inside : Nat → Bool}
    (encloses : graph.Encloses loop inside) : Parts graph loop inside where
  inner e f g pair := encloses.iff_of_two (lt_size_of_facesOf_eq wellFormed pair) pair
  border d e f g alone alone' same := by
    rw [encloses.iff_of_one (lt_size_of_facesOf_eq wellFormed alone) alone,
      encloses.iff_of_one (lt_size_of_facesOf_eq wellFormed alone') alone', same]

/-! ### Networks -/

theorem getD_merge (labels : Labels) (f g h : Nat) :
    (labels.merge f g).getD h h =
      if h < labels.size ∧ labels.getD h h = max (labels.getD f f) (labels.getD g g) then
        min (labels.getD f f) (labels.getD g g)
      else labels.getD h h := by
  unfold Labels.merge
  dsimp only
  generalize max (labels.getD f f) (labels.getD g g) = larger
  generalize min (labels.getD f f) (labels.getD g g) = smaller
  rw [Array.getD_eq_getD_getElem?, Array.getElem?_map]
  by_cases inside : h < labels.size
  · simp [inside, Array.getD_eq_getD_getElem?]
  · simp [inside, Array.getD_eq_getD_getElem?]

private theorem side_merge {labels : Labels} (same : ∀ f, side (labels.getD f f) = side f)
    (joined : side f = side g) (h : Nat) : side ((labels.merge f g).getD h h) = side h := by
  have sides : side (max (labels.getD f f) (labels.getD g g)) =
      side (min (labels.getD f f) (labels.getD g g)) := by
    have equal : side (labels.getD f f) = side (labels.getD g g) := by
      rw [same f, same g, joined]
    rcases Nat.le_total (labels.getD f f) (labels.getD g g) with le | le
    · rw [Nat.max_eq_right le, Nat.min_eq_left le, equal]
    · rw [Nat.max_eq_left le, Nat.min_eq_right le, equal]
  rw [getD_merge]
  split
  next largest => rw [← sides, ← largest.2, same h]
  next => exact same h

section Joined

variable (joined : ∀ e f g, graph.facesOf e = [f, g] → isDisabled s e = true → side f = side g)
include joined

private theorem side_mergeAlong {labels : Labels} (same : ∀ f, side (labels.getD f f) = side f)
    (edges : List Nat) (f : Nat) : side ((mergeAlong graph s labels edges).getD f f) = side f := by
  induction edges generalizing labels with
  | nil => exact same f
  | cons e rest ih =>
    unfold mergeAlong
    split
    next x y faces =>
      split
      next disabled => exact ih (side_merge same (joined e x y faces disabled))
      next => exact ih same
    next => exact ih same

/-- If disabled edges do not change the side, a face is on the side of its label. -/
theorem side_networkLabels (f : Nat) : side ((networkLabels graph s).getD f f) = side f := by
  refine side_mergeAlong joined (fun f => ?_) graph.edgeIds f
  by_cases bound : f < graph.faces.size <;> simp [faceIds, Array.getD_eq_getD_getElem?, bound]

end Joined

private theorem side_networks (parts : Parts graph loop side) (agrees : Agrees s loop)
    (member : network ∈ networks graph s) (here : f ∈ network) (there : g ∈ network) : side f = side g := by
  have joined (e x y : Nat) (faces : graph.facesOf e = [x, y]) (disabled : isDisabled s e = true) :
      side x = side y :=
    not_not.mp (mt (parts.inner e x y faces).mpr (agrees.disabled e disabled))
  rw [networks_eq] at member
  obtain ⟨root, _, rfl⟩ := List.mem_map.mp member
  obtain ⟨_, label⟩ := List.mem_filter.mp here
  obtain ⟨_, label'⟩ := List.mem_filter.mp there
  rw [← side_networkLabels joined f, ← side_networkLabels joined g]
  exact congrArg side ((of_decide_eq_true label).trans (of_decide_eq_true label').symm)

theorem getD_networkNumbers (networks : Array (List Nat)) (bound : f < graph.faces.size) :
    (networkNumbers graph networks).getD f [] =
      (List.range networks.size).filter fun n => f ∈ networks.getD n [] := by
  rw [networkNumbers, occurrenceLists_eq, Array.getD_eq_getD_getElem?, List.getElem?_toArray,
    List.getElem?_map, List.getElem?_range bound, Option.map_some, Option.getD_some]
  rfl

theorem mem_innerEdges {networks : Array (List Nat)} {a b : Nat}
    (h : (e, a, b) ∈ innerEdges graph (networkNumbers graph networks)) :
    ∃ f g, graph.facesOf e = [f, g] ∧ f ∈ networks.getD a [] ∧ g ∈ networks.getD b [] := by
  obtain ⟨edge, _, found⟩ := List.mem_filterMap.mp h
  split at found
  next f g faces =>
    have numbered {x n : Nat} (border : x ∈ graph.facesOf edge)
        (only : (networkNumbers graph networks).getD x [] = [n]) : x ∈ networks.getD n [] := by
      have listed : n ∈ (networkNumbers graph networks).getD x [] := by rw [only]; simp
      rw [getD_networkNumbers networks (mem_facesOf.mp border).1] at listed
      exact of_decide_eq_true (List.mem_filter.mp listed).2
    split at found
    next first second =>
      cases found
      exact ⟨f, g, faces, numbered (by simp [faces]) first, numbered (by simp [faces]) second⟩
    next => exact nomatch found
  next => exact nomatch found

theorem mem_of_mem_getD {networks : List (List Nat)} {n : Nat}
    (member : f ∈ networks.toArray.getD n []) : networks.toArray.getD n [] ∈ networks := by
  rw [Array.getD_eq_getD_getElem?, List.getElem?_toArray] at member ⊢
  cases here : networks[n]? with
  | none =>
    rw [here] at member
    exact absurd member List.not_mem_nil
  | some network => exact List.mem_of_getElem? here

/-! ### What the rule proposes -/

theorem mem_closeNetworks {inner : List (Nat × Nat × Nat)} (h : update ∈ closeNetworks s inner) :
    ∃ e a, (e, a, a) ∈ inner ∧ isOpen s e = true ∧ update = disable e := by
  obtain ⟨⟨e, a, b⟩, candidate, rfl⟩ := List.mem_map.mp h
  obtain ⟨member, test⟩ := List.mem_filter.mp candidate
  obtain ⟨rfl, undecided⟩ : a = b ∧ isOpen s e = true := by simpa using test
  exact ⟨e, a, member, undecided, rfl⟩

theorem mem_separateNetworks {networks : Array (List Nat)} {inner : List (Nat × Nat × Nat)}
    (h : update ∈ separateNetworks graph s networks inner) :
    ∃ a b, ∃ e ∈ graph.edgesBetween (networks.getD a []) (networks.getD b []),
      isOpen s e = true ∧ update = mark e ∧
        ∃ m ∈ graph.edgesBetween (networks.getD a []) (networks.getD b []), isMarked s m = true := by
  obtain ⟨⟨a, b⟩, _, listed⟩ := List.mem_flatMap.mp h
  dsimp only at listed
  split at listed
  next separated =>
    obtain ⟨e, between, undecided, rfl⟩ := mem_map_open listed
    exact ⟨a, b, e, between, undecided, rfl, List.any_eq_true.mp separated⟩
  next => exact absurd listed List.not_mem_nil

theorem mem_settleBoundary {networks : List (List Nat)}
    (h : update ∈ settleBoundary s (withOuterEdges graph networks)) :
    ∃ network ∈ networks, ∃ e ∈ outerEdges graph network, isOpen s e = true ∧
      (update = disable e ∧ (∃ d ∈ outerEdges graph network, isDisabled s d = true) ∨
        update = mark e ∧ ∃ m ∈ outerEdges graph network, isMarked s m = true) := by
  obtain ⟨entry, listed, proposed⟩ := List.mem_flatMap.mp h
  obtain ⟨network, member, rfl⟩ := List.mem_map.mp listed
  refine ⟨network, member, ?_⟩
  dsimp only at proposed
  split at proposed
  next outside =>
    obtain ⟨e, here, undecided, rfl⟩ := mem_map_open proposed
    exact ⟨e, here, undecided, .inl ⟨rfl, List.any_eq_true.mp outside⟩⟩
  next =>
    split at proposed
    next within =>
      obtain ⟨e, here, undecided, rfl⟩ := mem_map_open proposed
      exact ⟨e, here, undecided, .inr ⟨rfl, List.any_eq_true.mp within⟩⟩
    next => exact absurd proposed List.not_mem_nil

theorem mem_faceNetwork {updates : List Update} (h : (faceNetwork graph).deduce s = .ok updates)
    (member : update ∈ updates) :
    update ∈ closeNetworks s (innerEdges graph (networkNumbers graph (networks graph s).toArray)) ∨
      update ∈ separateNetworks graph s (networks graph s).toArray
        (innerEdges graph (networkNumbers graph (networks graph s).toArray)) ∨
      update ∈ settleBoundary s (withOuterEdges graph (networks graph s)) := by
  unfold faceNetwork at h
  dsimp only at h
  split at h
  · exact nomatch h
  · cases h
    rw [List.mem_eraseDups, List.mem_append, List.mem_append, or_assoc] at member
    exact member

theorem wellBehaved_faceNetwork (graph : Graph) {frame : Frame} (values : frame.size = 2) :
    (faceNetwork graph).WellBehaved frame := by
  refine wellBehaved_of_decides values (fun s => ?_) fun s updates h update member => ?_
  · unfold faceNetwork
    dsimp only
    split
    next cause _ => exact FailsOnly.error ⟨cause, rfl⟩
    next => exact FailsOnly.ok
  · rcases mem_faceNetwork h member with close | separate | settle
    · obtain ⟨e, _, _, undecided, rfl⟩ := mem_closeNetworks close
      exact decides_disable undecided
    · obtain ⟨_, _, e, _, undecided, rfl, _⟩ := mem_separateNetworks separate
      exact decides_mark undecided
    · obtain ⟨_, _, e, _, undecided, ⟨rfl, _⟩ | ⟨rfl, _⟩⟩ := mem_settleBoundary settle
      · exact decides_disable undecided
      · exact decides_mark undecided

/-! ### Deciding as the loop does -/

section Sound

variable (parts : Parts graph loop side) (agrees : Agrees s loop)
include parts agrees

private theorem not_mem_of_inner {a : Nat}
    (inner : (e, a, a) ∈ innerEdges graph (networkNumbers graph (networks graph s).toArray)) :
    e ∉ loop := by
  obtain ⟨f, g, faces, here, there⟩ := mem_innerEdges inner
  intro onLoop
  exact (parts.inner e f g faces).mp onLoop
    (side_networks parts agrees (mem_of_mem_getD here) here there)

/-- Between two networks the loop has all edges or none. -/
theorem mem_loop_of_between (wellFormed : graph.WellFormed) {first second : List Nat}
    (member : first ∈ networks graph s) (member' : second ∈ networks graph s) {m : Nat}
    (marked : m ∈ graph.edgesBetween first second)
    (onLoop : m ∈ loop) (between : e ∈ graph.edgesBetween first second) : e ∈ loop := by
  have apart {x f g : Nat} (shared : graph.sharedEdge f g = some x) :
      x ∈ loop ↔ side f ≠ side g := by
    obtain ⟨different, border, border'⟩ := sharedEdge_eq_some shared
    rcases facesOf_eq_pair wellFormed different border border' with pair | pair
    · exact parts.inner x f g pair
    · exact (parts.inner x g f pair).trans ne_comm
  obtain ⟨f, here, g, there, shared⟩ := mem_edgesBetween.mp marked
  obtain ⟨f', here', g', there', shared'⟩ := mem_edgesBetween.mp between
  rw [apart shared', side_networks parts agrees member here' here,
    side_networks parts agrees member' there' there]
  exact (apart shared).mp onLoop

/-- At the boundary of the graph the loop has all edges of a network or none. -/
theorem mem_loop_iff_of_outer (member : network ∈ networks graph s) {m : Nat}
    (here : e ∈ outerEdges graph network) (there : m ∈ outerEdges graph network) :
    e ∈ loop ↔ m ∈ loop := by
  obtain ⟨f, inNetwork, alone⟩ := mem_outerEdges.mp here
  obtain ⟨g, inNetwork', alone'⟩ := mem_outerEdges.mp there
  exact parts.border e m f g alone alone' (side_networks parts agrees member inNetwork inNetwork')

theorem decidesFor_faceNetwork (wellFormed : graph.WellFormed) {updates : List Update}
    (h : (faceNetwork graph).deduce s = .ok updates) (member : update ∈ updates) :
    DecidesFor s loop update := by
  rcases mem_faceNetwork h member with close | separate | settle
  · obtain ⟨e, a, inner, undecided, rfl⟩ := mem_closeNetworks close
    exact ⟨e, lt_count_of_isOpen undecided,
      .inr ⟨rfl, not_mem_of_inner parts agrees inner⟩⟩
  · obtain ⟨a, b, e, between, undecided, rfl, m, between', marked⟩ := mem_separateNetworks separate
    obtain ⟨f, here, g, there, _⟩ := mem_edgesBetween.mp between
    exact ⟨e, lt_count_of_isOpen undecided, .inl ⟨rfl, mem_loop_of_between parts agrees wellFormed
      (mem_of_mem_getD here) (mem_of_mem_getD there) between' (agrees.marked m marked) between⟩⟩
  · obtain ⟨network, inNetworks, e, outer, undecided, ⟨rfl, d, outer', known⟩ | ⟨rfl, m, outer', known⟩⟩ :=
      mem_settleBoundary settle
    · refine ⟨e, lt_count_of_isOpen undecided, .inr ⟨rfl, fun onLoop => agrees.disabled d known ?_⟩⟩
      exact (mem_loop_iff_of_outer parts agrees inNetworks outer outer').mp onLoop
    · refine ⟨e, lt_count_of_isOpen undecided, .inl ⟨rfl, ?_⟩⟩
      exact (mem_loop_iff_of_outer parts agrees inNetworks outer outer').mpr
        (agrees.marked m known)

private theorem markedInside?_eq_none :
    markedInside? s (innerEdges graph (networkNumbers graph (networks graph s).toArray)) = none := by
  refine List.findSome?_eq_none_iff.mpr fun ⟨e, a, b⟩ member => if_neg fun found => ?_
  obtain ⟨rfl, marked⟩ : a = b ∧ isMarked s e = true := by simpa using found
  exact not_mem_of_inner parts agrees member (agrees.marked e marked)

private theorem bothSides?_eq_none : bothSides? s (withOuterEdges graph (networks graph s)) = none := by
  refine List.findSome?_eq_none_iff.mpr fun entry listed => if_neg fun found => ?_
  obtain ⟨network, member, rfl⟩ := List.mem_map.mp listed
  obtain ⟨outside, within⟩ := Bool.and_eq_true_iff.mp found
  obtain ⟨d, outer, disabled⟩ := List.any_eq_true.mp outside
  obtain ⟨m, outer', marked⟩ := List.any_eq_true.mp within
  exact agrees.disabled d disabled
    ((mem_loop_iff_of_outer parts agrees member outer outer').mpr (agrees.marked m marked))

theorem faceNetwork_fine : NoContradiction ((faceNetwork graph).deduce s) := by
  unfold faceNetwork
  dsimp only
  rw [markedInside?_eq_none parts agrees, bothSides?_eq_none parts agrees]
  exact FailsOnly.ok

end Sound

end PencilPuzzle.Loop
