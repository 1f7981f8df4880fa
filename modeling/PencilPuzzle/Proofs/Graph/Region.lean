import Mathlib.Data.Finset.SymmDiff
import PencilPuzzle.Proofs.Graph.Index
import PencilPuzzle.Proofs.Graph.Inside

/-!
# Boundaries add up modulo two

An edge has at most two faces, so it has exactly one of them in a region if it has an odd number there, and
these are the edges on the boundary. In the union of two regions without common faces an edge has as many
faces as it has in both of them together. Hence on the boundary of the union lies what is on the boundary of
one of them and not of the other; where the regions touch it is gone.
-/

namespace PencilPuzzle

namespace Graph

variable {graph : Graph} {faces others union : List Nat} {e : Nat}

theorem mem_boundaryEdges_iff :
    e ∈ graph.boundaryEdges faces ↔ ∃! f, f ∈ graph.facesOf e ∧ f ∈ faces := by
  rw [mem_boundaryEdges]
  constructor
  · rintro ⟨f, border, member, alone⟩
    refine ⟨f, ⟨border, member⟩, fun g ⟨border', member'⟩ => ?_⟩
    by_contra different
    exact alone g border' different member'
  · rintro ⟨f, ⟨border, member⟩, unique⟩
    exact ⟨f, border, member, fun g border' different member' => different (unique g ⟨border', member'⟩)⟩

section Union

variable (apart : faces.Disjoint others) (joined : ∀ f, f ∈ union ↔ f ∈ faces ∨ f ∈ others)
include apart joined

private theorem countP_union (list : List Nat) :
    list.countP (· ∈ union) = list.countP (· ∈ faces) + list.countP (· ∈ others) := by
  induction list with
  | nil => rfl
  | cons f rest ih =>
    rw [List.countP_cons, List.countP_cons, List.countP_cons, ih]
    simp only [joined, decide_eq_true_eq]
    by_cases here : f ∈ faces
    · have missing : f ∉ others := fun there => apart here there
      simp only [here, missing, or_false, if_true, if_false]
      omega
    · simp only [here, false_or, if_false]
      omega

theorem WellFormed.mem_boundaryEdges_union (wellFormed : graph.WellFormed) (e : Nat) :
    e ∈ graph.boundaryEdges union ↔ (e ∈ graph.boundaryEdges faces ↔ e ∉ graph.boundaryEdges others) := by
  simp only [wellFormed.mem_boundaryEdges_iff_odd, countP_union apart joined, Nat.odd_add,
    Nat.not_odd_iff_even]

end Union

/-- In a graph that was built the faces of an edge are those that are looked up. -/
theorem WellFormed.mem_facesOf_iff (wellFormed : graph.WellFormed) {f : Nat} : f ∈ graph.facesOf e ↔
    ∃ bordering, Reference.facesOf graph e = .ok bordering ∧ f ∈ bordering := by
  refine Iff.trans ?_ mem_lookup_iff.symm
  exact (and_iff_right_of_imp fun border => wellFormed.lt_size (mem_facesOf.mp border).2).symm

end Graph

namespace Region

open PencilPuzzle.Graph

variable {graph : Graph} {label : Nat} {region other : Region}

private theorem combined_of_new {faces others : List Int} (made : new label graph faces = .ok region)
    (made' : new label graph others = .ok other) :
    ∃ union, region.combined other = .ok union ∧ (∃ all, new label graph all = .ok union) ∧
      ∀ f, f ∈ union.faces ↔ f ∈ region.faces ∨ f ∈ other.faces := by
  obtain rfl := new_eq_ok made
  obtain rfl := new_eq_ok made'
  refine ⟨_, by rw [combined, checkSameGraph, if_pos rfl]; rfl, ⟨_, new_faceIds label graph _⟩, fun f => ?_⟩
  simp only [List.mem_filter, Bool.or_eq_true, decide_eq_true_eq]
  exact and_iff_right_of_imp fun either => either.elim And.left And.left

/-- The boundary of a region consists of the edges with exactly one face in it, and the boundary of two
regions without common faces taken together is the symmetric difference of their boundaries. -/
theorem boundaryEdges_combined {graph : Graph} {hints : Hints} {cycles : List (List Int)}
    {vertexCount label : Nat} {faces others : List Int} {region other : Region}
    (built : build vertexCount cycles hints = .ok graph) (made : Region.new label graph faces = .ok region)
    (made' : Region.new label graph others = .ok other) :
    (∀ e : Nat, e ∈ region.boundaryEdges ↔
        ∃! f, f ∈ region.faces ∧ ∃ bordering, Reference.facesOf graph e = .ok bordering ∧ f ∈ bordering) ∧
      (region.faces.Disjoint other.faces →
        ∃ union, region.combined other = .ok union ∧ (∃ all, Region.new label graph all = .ok union) ∧
          (∀ f, f ∈ union.faces ↔ f ∈ region.faces ∨ f ∈ other.faces) ∧
            union.boundaryEdges.toFinset =
              symmDiff region.boundaryEdges.toFinset other.boundaryEdges.toFinset) := by
  have wellFormed := wellFormed_of_build built
  have graph_eq {faces : List Int} {region : Region} (made : Region.new label graph faces = .ok region) :
      region.graph = graph := by
    rw [new_eq_ok made]
  refine ⟨fun e => ?_, fun apart => ?_⟩
  · rw [Region.boundaryEdges, graph_eq made, mem_boundaryEdges_iff]
    refine existsUnique_congr fun f => ?_
    rw [wellFormed.mem_facesOf_iff, and_comm]
  · obtain ⟨union, combined, ⟨all, known⟩, joined⟩ := combined_of_new made made'
    refine ⟨union, combined, ⟨all, known⟩, joined, ?_⟩
    ext e
    have parity := wellFormed.mem_boundaryEdges_union apart joined e
    simp only [Finset.mem_symmDiff, List.mem_toFinset, Region.boundaryEdges, graph_eq known, graph_eq made,
      graph_eq made'] at parity ⊢
    grind

/-- Two squares side by side: the edge between them is on the boundary of each, but not of both together. -/
theorem boundaryEdges_combined_pair :
    ∃ graph, build 6 [[0, 1, 2, 3], [1, 4, 5, 2]] [] = .ok graph ∧
      ∃ region other, Region.new 0 graph [0] = .ok region ∧ Region.new 0 graph [1, 1] = .ok other ∧
        1 ∈ region.boundaryEdges ∧ region.faces.Disjoint other.faces ∧
          ∃ union, region.combined other = .ok union ∧ 1 ∉ union.boundaryEdges := by
  obtain ⟨graph, built, faces, here, there⟩ : ∃ graph, build 6 [[0, 1, 2, 3], [1, 4, 5, 2]] [] = .ok graph ∧
      graph.faceIds = [0, 1] ∧ 1 ∈ graph.boundaryEdges [0] ∧ 1 ∈ graph.boundaryEdges [1] :=
    ⟨ofCycles 6 [[0, 1, 2, 3], [1, 4, 5, 2]] [], by decide, by decide, by decide, by decide⟩
  have known (f : Nat) (member : f ∈ [0, 1]) : f < graph.faces.size := by
    rwa [← faces, faceIds, List.mem_range] at member
  have made := @new_natCast graph 0 [0] (by simpa using known 0)
  have made' := @new_natCast graph 0 [1, 1] (by simpa using known 1)
  rw [faces] at made made'
  have apart : List.Disjoint [0] [1] := by simp
  obtain ⟨_, added⟩ := boundaryEdges_combined built made made'
  obtain ⟨union, combined, _, _, boundary⟩ := added apart
  refine ⟨graph, built, _, _, made, made', here, apart, union, combined, fun member => ?_⟩
  rw [← List.mem_toFinset, boundary, Finset.mem_symmDiff, List.mem_toFinset, List.mem_toFinset] at member
  exact member.elim (fun one => one.2 there) fun one => one.2 here

end Region

end PencilPuzzle
