import Mathlib.Combinatorics.Enumerative.DoubleCounting
import PencilPuzzle.Proofs.Graph.SharedEdge

/-!
# Counting edges

Going around all faces passes each edge once if it lies at the boundary and twice if it does not. Where
faces meet in single edges, the edges inside are as many as the pairs of faces that meet, so that the sides
of the faces and these pairs tell how many edges there are and how many of them lie at the boundary.
-/

namespace PencilPuzzle.Graph

open Finset

variable {graph : Graph} {f g k : Nat} {links : Finset (Nat × Nat)}

def interiorEdges (graph : Graph) : Finset Nat :=
  (range graph.edges.size).filter fun e => ¬ graph.isBoundary e

theorem mem_interiorEdges {e : Nat} :
    e ∈ graph.interiorEdges ↔ e < graph.edges.size ∧ (graph.facesOf e).length ≠ 1 := by
  rw [interiorEdges, mem_filter, mem_range, isBoundary, beq_iff_eq]

private theorem countP_isBoundary_add (graph : Graph) :
    graph.edgeIds.countP graph.isBoundary + graph.interiorEdges.card = graph.edges.size := by
  have boundary : graph.edgeIds.countP graph.isBoundary =
      ((range graph.edges.size).filter fun e => graph.isBoundary e).card := by
    rw [List.countP_eq_length_filter]
    exact congrArg List.length (List.filter_congr fun e _ => Bool.decide_eq_true.symm)
  rw [boundary, interiorEdges, card_filter_add_card_filter_not, card_range]

section Built

variable (wellFormed : graph.WellFormed)
include wellFormed

theorem WellFormed.nodup_edgesOf (f : Nat) : (graph.edgesOf f).Nodup := by
  by_cases inside : f < graph.faces.size
  · have distinct := (nodup_sides (wellFormed.simple f) (wellFormed.long f inside)).map
      (Option.some_injective Edge)
    rw [← wellFormed.around] at distinct
    exact distinct.of_map
  · rw [edgesOf, Array.getElem?_eq_none (Nat.le_of_not_lt inside)]
    exact List.nodup_nil

/-- The faces have as many edges as the edges have faces. -/
theorem WellFormed.sum_length_edgesOf :
    ∑ f ∈ range graph.faces.size, (graph.edgesOf f).length =
      ∑ e ∈ range graph.edges.size, (graph.facesOf e).length := by
  have around (f : Nat) : (graph.edgesOf f).length =
      (bipartiteAbove (fun f e => e ∈ graph.edgesOf f) (range graph.edges.size) f).card := by
    have same : bipartiteAbove (fun f e => e ∈ graph.edgesOf f) (range graph.edges.size) f =
        (graph.edgesOf f).toFinset := by
      ext e
      rw [mem_bipartiteAbove, mem_range, List.mem_toFinset]
      exact and_iff_right_of_imp wellFormed.lt_size
    rw [same, List.toFinset_card_of_nodup (wellFormed.nodup_edgesOf f)]
  have beside (e : Nat) : (graph.facesOf e).length =
      (bipartiteBelow (fun f e => e ∈ graph.edgesOf f) (range graph.faces.size) e).card := by
    rw [facesOf_eq]
    rfl
  simp only [around, beside, sum_card_bipartiteAbove_eq_sum_card_bipartiteBelow]

/-- Going around all faces passes an edge at the boundary once and an edge inside twice. -/
theorem WellFormed.countP_isBoundary_add_two_mul :
    graph.edgeIds.countP graph.isBoundary + 2 * graph.interiorEdges.card =
      ∑ f ∈ range graph.faces.size, (graph.edgesOf f).length := by
  have length (e : Nat) (inside : e ∈ range graph.edges.size) :
      (graph.facesOf e).length = 1 + if ¬ graph.isBoundary e then 1 else 0 := by
    have cases := wellFormed.length_facesOf_eq (mem_range.mp inside)
    simp only [isBoundary, beq_iff_eq]
    split <;> omega
  rw [wellFormed.sum_length_edgesOf, sum_congr rfl length, sum_add_distrib, sum_boole, sum_const, card_range,
    ← interiorEdges, ← countP_isBoundary_add]
  simp
  omega

/-- Where faces meet in single edges, there is one edge inside for each pair of faces that meet. -/
theorem WellFormed.card_interiorEdges (joined : graph.SinglyJoined)
    (oriented : ∀ f g, (f, g) ∈ links → (g, f) ∉ links)
    (linked : ∀ f g, f ≠ g →
      ((∃ e, e ∈ graph.edgesOf f ∧ e ∈ graph.edgesOf g) ↔ (f, g) ∈ links ∨ (g, f) ∈ links)) :
    graph.interiorEdges.card = links.card := by
  have different {f g : Nat} (link : (f, g) ∈ links) : f ≠ g := by
    rintro rfl
    exact oriented f f link link
  have shared {f g : Nat} (link : (f, g) ∈ links) :
      ∃ e, graph.sharedEdge f g = some e ∧ e ∈ graph.edgesOf f ∧ e ∈ graph.edgesOf g := by
    obtain ⟨e, common⟩ := (linked f g (different link)).mpr (.inl link)
    exact ⟨e, (joined.sharedEdge_eq_some_iff (different link)).mpr common, common⟩
  symm
  refine card_bij (fun link _ => (graph.sharedEdge link.1 link.2).getD 0) ?_ ?_ ?_
  · rintro ⟨f, g⟩ link
    obtain ⟨e, found, here, there⟩ := shared link
    rw [found, Option.getD_some, mem_interiorEdges]
    refine ⟨wellFormed.lt_size here, ?_⟩
    rcases facesOf_eq_pair wellFormed (different link) here there with pair | pair <;> simp [pair]
  · rintro ⟨f, g⟩ link ⟨f', g'⟩ link' same
    obtain ⟨e, found, here, there⟩ := shared link
    obtain ⟨e', found', here', there'⟩ := shared link'
    rw [found, found', Option.getD_some, Option.getD_some] at same
    subst same
    -- The edge has two faces only, and the links between them go one way.
    have faces := facesOf_eq_pair wellFormed (different link) here there
    have faces' := facesOf_eq_pair wellFormed (different link') here' there'
    have turned : ¬ (f = g' ∧ g = f') := by
      rintro ⟨rfl, rfl⟩
      exact oriented _ _ link link'
    rcases faces with pair | pair <;> rcases faces' with pair' | pair' <;>
      simp only [pair, List.cons.injEq, and_true] at pair' <;> simp <;> tauto
  · intro e inside
    obtain ⟨known, two⟩ := mem_interiorEdges.mp inside
    obtain ⟨f, g, faces⟩ := List.length_eq_two.mp ((wellFormed.length_facesOf_eq known).resolve_left two)
    have apart : f ≠ g := by simpa [faces] using graph.nodup_facesOf e
    have here : e ∈ graph.edgesOf f := (mem_facesOf.mp (by simp [faces])).2
    have there : e ∈ graph.edgesOf g := (mem_facesOf.mp (by simp [faces])).2
    rcases (linked f g apart).mp ⟨e, here, there⟩ with link | link
    · refine ⟨(f, g), link, ?_⟩
      rw [(joined.sharedEdge_eq_some_iff apart).mpr ⟨here, there⟩, Option.getD_some]
    · refine ⟨(g, f), link, ?_⟩
      rw [(joined.sharedEdge_eq_some_iff apart.symm).mpr ⟨there, here⟩, Option.getD_some]

/-- The numbers of edges and of edges at the boundary, if all faces have the same number of sides. -/
theorem WellFormed.count_edges (joined : graph.SinglyJoined)
    (regular : ∀ f < graph.faces.size, (graph.edgesOf f).length = k)
    (oriented : ∀ f g, (f, g) ∈ links → (g, f) ∉ links)
    (linked : ∀ f g, f ≠ g →
      ((∃ e, e ∈ graph.edgesOf f ∧ e ∈ graph.edgesOf g) ↔ (f, g) ∈ links ∨ (g, f) ∈ links)) :
    graph.edges.size + links.card = k * graph.faces.size ∧
      graph.edgeIds.countP graph.isBoundary + 2 * links.card = k * graph.faces.size := by
  have whole := graph.countP_isBoundary_add
  have passed := wellFormed.countP_isBoundary_add_two_mul
  rw [sum_congr rfl fun f inside => regular f (mem_range.mp inside), sum_const, card_range, Nat.nsmul_eq_mul,
    Nat.mul_comm graph.faces.size] at passed
  rw [← wellFormed.card_interiorEdges joined oriented linked]
  omega

end Built

end PencilPuzzle.Graph
