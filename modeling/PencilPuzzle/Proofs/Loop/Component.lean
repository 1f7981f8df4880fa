import Mathlib.Logic.Relation
import PencilPuzzle.Proofs.Loop.Partition

/-!
# Networks are components

Take two faces as bonded when some disabled edge belongs to both. Merging labels along the disabled edges
gives two faces one label exactly if a chain of bonds leads from one to the other, in whatever order the
edges come: a merge joins the faces of a bond and parts no faces that were together, and it joins no faces
but those that chains lead to. So the networks are the classes of faces that chains of bonds join.
-/

namespace PencilPuzzle.Loop

open PencilPuzzle.Graph

variable {graph : Graph} {s : State} {e f g : Nat}

def Bonded (graph : Graph) (s : State) (f g : Nat) : Prop :=
  ∃ e, e ∈ graph.edgesOf f ∧ e ∈ graph.edgesOf g ∧ isDisabled s e = true

theorem Bonded.symm (bonded : Bonded graph s f g) : Bonded graph s g f := by
  obtain ⟨e, here, there, disabled⟩ := bonded
  exact ⟨e, there, here, disabled⟩

instance : Std.Symm (Bonded graph s) := ⟨fun _ _ => Bonded.symm⟩

theorem Bonded.lt_size (bonded : Bonded graph s f g) : g < graph.faces.size := by
  obtain ⟨_, _, there, _⟩ := bonded
  exact lt_of_mem_edgesOf there

/-! ### Labels and chains -/

private theorem Bonded.labelOf_eq (wellFormed : graph.WellFormed) (bonded : Bonded graph s f g) :
    labelOf graph s f = labelOf graph s g := by
  obtain ⟨e, here, there, disabled⟩ := bonded
  by_cases same : f = g
  · rw [same]
  · have inside := wellFormed.lt_size here
    obtain pair | pair := facesOf_eq_pair wellFormed same here there
    · exact labelOf_eq_of_disabled inside pair disabled
    · exact (labelOf_eq_of_disabled inside pair disabled).symm

private theorem chain_labelOf (graph : Graph) (s : State) (f : Nat) :
    Relation.ReflTransGen (Bonded graph s) f (labelOf graph s f) := by
  -- The sides are the sets of faces that chains lead to: no merge goes beyond them.
  let side (f : Nat) : Nat → Prop := fun h => Relation.ReflTransGen (Bonded graph s) f h
  have joined (e f g : Nat) (pair : graph.facesOf e = [f, g]) (disabled : isDisabled s e = true) :
      side f = side g := by
    have member {h : Nat} (listed : h ∈ graph.facesOf e) : e ∈ graph.edgesOf h := (mem_facesOf.mp listed).2
    have bonded : Bonded graph s f g := ⟨e, member (by simp [pair]), member (by simp [pair]), disabled⟩
    exact funext fun h => propext ⟨fun chain => chain.head bonded.symm, fun chain => chain.head bonded⟩
  have same : side (labelOf graph s f) = side f := side_networkLabels joined f
  have self : side (labelOf graph s f) (labelOf graph s f) := .refl
  rw [same] at self
  exact self

/-- Faces have one label exactly if a chain of bonds leads from one to the other. -/
theorem labelOf_eq_iff (wellFormed : graph.WellFormed) :
    labelOf graph s f = labelOf graph s g ↔ Relation.ReflTransGen (Bonded graph s) f g := by
  constructor
  · intro same
    have back : Relation.ReflTransGen (Bonded graph s) (labelOf graph s f) g :=
      same ▸ symm (chain_labelOf graph s g)
    exact (chain_labelOf graph s f).trans back
  · intro chain
    induction chain with
    | refl => rfl
    | tail _ bonded ih => exact ih.trans (bonded.labelOf_eq wellFormed)

/-! ### Components -/

/-- What tells the faces of a smaller label from those of a larger one tells a network from a later one. -/
theorem pairwise_networks {R : List Nat → List Nat → Prop}
    (apart : ∀ a b, a < graph.faces.size → labelOf graph s a = a → a < b →
      R (graph.faceIds.filter fun f => labelOf graph s f = a)
        (graph.faceIds.filter fun f => labelOf graph s f = b)) :
    (networks graph s).Pairwise R := by
  rw [networks_eq_map, List.pairwise_map]
  refine List.Pairwise.imp_of_mem ?_ (List.pairwise_lt_range.filter _)
  intro a b isRoot _ before
  obtain ⟨inside, self⟩ := List.mem_filter.mp isRoot
  exact apart a b (List.mem_range.mp inside) (of_decide_eq_true self) before

theorem share_network_iff (inside : f < graph.faces.size) :
    (∃ network ∈ networks graph s, f ∈ network ∧ g ∈ network) ↔
      g < graph.faces.size ∧ labelOf graph s f = labelOf graph s g := by
  constructor
  · rintro ⟨network, listed, here, there⟩
    obtain ⟨root, _, rfl⟩ := exists_root listed
    obtain ⟨inside', label⟩ := mem_network.mp there
    exact ⟨inside', (mem_network.mp here).2.trans label.symm⟩
  · rintro ⟨inside', same⟩
    obtain ⟨network, listed, members⟩ := exists_network s inside
    exact ⟨network, listed, (members f).mpr ⟨inside, rfl⟩, (members g).mpr ⟨inside', same.symm⟩⟩

private theorem lt_size_of_chain (inside : f < graph.faces.size)
    (chain : Relation.ReflTransGen (Bonded graph s) f g) : g < graph.faces.size := by
  cases chain with
  | refl => exact inside
  | tail _ bonded => exact bonded.lt_size

/-- Networks are sets of faces, none of them empty and no two with a face in common; together they are all
faces. They are ordered by their smallest faces, and two faces are in one network exactly if they are joined
by a chain of faces each of which has a disabled edge in common with the next. -/
theorem networks_components {vertexCount : Nat} {cycles : List (List Int)} {hints : Hints}
    (built : Graph.build vertexCount cycles hints = .ok graph) (s : State) :
    (∀ network ∈ networks graph s, network ≠ [] ∧ network.Pairwise (· < ·)) ∧
      (networks graph s).Pairwise List.Disjoint ∧
      (∀ f, f < graph.faces.size ↔ ∃ network ∈ networks graph s, f ∈ network) ∧
      ((networks graph s).Pairwise fun first second => ∃ f ∈ first, ∀ g ∈ second, f < g) ∧
      ∀ f g, f < graph.faces.size →
        ((∃ network ∈ networks graph s, f ∈ network ∧ g ∈ network) ↔
          Relation.ReflTransGen (Bonded graph s) f g) := by
  have wellFormed := wellFormed_of_build built
  refine ⟨fun network listed => ?sets, ?disjoint, fun f => ?covers, ?ordered, fun f g inside => ?classes⟩
  case sets =>
    obtain ⟨root, member, rfl⟩ := exists_root listed
    exact ⟨List.ne_nil_of_mem member, List.pairwise_lt_range.filter _⟩
  case disjoint =>
    refine pairwise_networks fun a b _ _ before f here there => ?_
    have same : a = b := (mem_network.mp here).2.symm.trans (mem_network.mp there).2
    exact before.ne same
  case covers =>
    constructor
    · intro inside
      obtain ⟨network, listed, members⟩ := exists_network s inside
      exact ⟨network, listed, (members f).mpr ⟨inside, rfl⟩⟩
    · rintro ⟨network, listed, member⟩
      obtain ⟨root, _, rfl⟩ := exists_root listed
      exact (mem_network.mp member).1
  case ordered =>
    -- The label of a network is its smallest face.
    refine pairwise_networks fun a b inside self before => ⟨a, mem_network.mpr ⟨inside, self⟩, ?_⟩
    intro g there
    calc a < b := before
      _ = labelOf graph s g := (mem_network.mp there).2.symm
      _ ≤ g := labelOf_le graph s g
  case classes =>
    rw [share_network_iff inside, ← labelOf_eq_iff wellFormed]
    refine ⟨And.right, fun same => ⟨?_, same⟩⟩
    exact lt_size_of_chain inside ((labelOf_eq_iff wellFormed).mp same)

def threeSquares : Graph := .ofCycles 8 [[0, 1, 5, 4], [1, 2, 6, 5], [2, 3, 7, 6]] []

/-- With the edge between the first two disabled, these make one network and the third is left alone. -/
theorem networks_components_threeSquares :
    Graph.build 8 [[0, 1, 5, 4], [1, 2, 6, 5], [2, 3, 7, 6]] [] = .ok threeSquares ∧
      let merged := (initial threeSquares).perform (.lock 1 1)
      networks threeSquares merged = [[0, 1], [2]] ∧
        Relation.ReflTransGen (Bonded threeSquares merged) 0 1 ∧
        ¬ Relation.ReflTransGen (Bonded threeSquares merged) 0 2 := by
  have built : Graph.build 8 [[0, 1, 5, 4], [1, 2, 6, 5], [2, 3, 7, 6]] [] = .ok threeSquares := by rfl
  refine ⟨built, ?_⟩
  intro merged
  have found : networks threeSquares merged = [[0, 1], [2]] := by decide +kernel
  obtain ⟨_, _, _, _, classes⟩ := networks_components built merged
  rw [found] at classes
  refine ⟨found, (classes 0 1 (by decide)).mp (by decide), fun chain => ?_⟩
  exact absurd ((classes 0 2 (by decide)).mpr chain) (by decide)

end PencilPuzzle.Loop
