import PencilPuzzle.Proofs.Graph.Build

/-!
# Hints of a graph

Hints have no part in the shape of a graph: it is the same graph as without any, and each face has the
hint that is given for it.
-/

namespace PencilPuzzle

/-! ### Proper hints -/

def Face.unhinted (face : Face) : Face := { face with hint := none }

def Graph.unhinted (graph : Graph) : Graph where
  vertexCount := graph.vertexCount
  edges := graph.edges
  faces := graph.faces.map Face.unhinted

structure Hints.Proper (hints : Hints) (count : Nat) : Prop where
  distinct : (hints.map Prod.fst).Nodup
  known : ∀ entry ∈ hints, 0 ≤ entry.1 ∧ entry.1 < count
  given : ∀ entry ∈ hints, entry.2 ≠ none

namespace Hints

variable {hints : Hints} {count f : Nat} {hint : Int}

theorem proper_nil (count : Nat) : Proper [] count where
  distinct := List.nodup_nil
  known _ member := absurd member List.not_mem_nil
  given _ member := absurd member List.not_mem_nil

theorem Proper.unknown (proper : hints.Proper count) : hints.unknown count = [] := by
  have none : (hints.map Prod.fst).filter (fun face => !Graph.isNumber count face) = [] := by
    refine List.filter_eq_nil_iff.mpr fun face listed => ?_
    obtain ⟨entry, member, rfl⟩ := List.mem_map.mp listed
    obtain ⟨low, high⟩ := proper.known entry member
    simp [Graph.isNumber, low, high]
  rw [Hints.unknown, none]
  rfl

theorem Proper.get_eq_some (proper : hints.Proper count) :
    hints.get f = some hint ↔ ((f : Int), some hint) ∈ hints := by
  have distinct := proper.distinct
  clear proper
  rw [get]
  induction hints with
  | nil => simp
  | cons entry rest ih =>
    obtain ⟨face, given⟩ := entry
    rw [List.map_cons, List.nodup_cons] at distinct
    rw [List.lookup_cons, List.mem_cons]
    by_cases here : (f : Int) = face
    · subst here
      have absent : ((f : Int), some hint) ∉ rest := by
        intro member
        exact distinct.1 (List.mem_map.mpr ⟨_, member, rfl⟩)
      simp [absent, eq_comm]
    · have other : ((f : Int) == face) = false := beq_false_of_ne here
      simp only [other]
      refine (ih distinct.2).trans ?_
      simp [here]

end Hints

/-! ### Graphs with hints -/

namespace Graph

variable {hints : Hints} {f : Nat}

private theorem edges_layFaces (hints other : Hints) (edges : EdgeRegister) (faces faces' : Array Face)
    (cycles : List (List Nat)) :
    (layFaces hints edges faces cycles).1 = (layFaces other edges faces' cycles).1 := by
  induction cycles generalizing edges faces faces' with
  | nil => rfl
  | cons cycle rest ih => exact ih _ _ _

private theorem faces_layFaces (hints : Hints) (edges : EdgeRegister) (faces : Array Face)
    (cycles : List (List Nat)) :
    (layFaces hints edges faces cycles).2.map Face.unhinted =
      (layFaces [] edges (faces.map Face.unhinted) cycles).2 := by
  induction cycles generalizing edges faces with
  | nil => rfl
  | cons cycle rest ih =>
    refine (ih _ _).trans ?_
    rw [Array.map_push]
    rfl

private theorem hints_layFaces (hints : Hints) (edges : EdgeRegister) (faces : Array Face)
    (cycles : List (List Nat)) :
    (layFaces hints edges faces cycles).2.toList.map Face.hint =
      faces.toList.map Face.hint ++ (List.range cycles.length).map fun i => hints.get (faces.size + i) := by
  induction cycles generalizing edges faces with
  | nil => exact (List.append_nil _).symm
  | cons cycle rest ih =>
    refine (ih _ _).trans ?_
    have next (i : Nat) : faces.size + 1 + i = faces.size + (i + 1) := by omega
    rw [Array.toList_push, List.map_append, List.append_assoc, Array.size_push, List.length_cons,
      List.range_succ_eq_map, List.map_cons, List.map_cons, List.map_map]
    simp only [next]
    rfl

theorem unhinted_ofCycles (vertexCount : Nat) (cycles : List (List Nat)) (hints : Hints) :
    (ofCycles vertexCount cycles hints).unhinted = ofCycles vertexCount cycles [] := by
  refine Graph.ext rfl ?_ ?_
  · exact congrArg Register.items (edges_layFaces ..)
  · have faces := faces_layFaces hints Register.empty #[] cycles
    rw [Array.map_empty] at faces
    exact faces

theorem hintOf_ofCycles {cycles : List (List Nat)} (vertexCount : Nat)
    (proper : hints.Proper cycles.length) {hint : Int} :
    (ofCycles vertexCount cycles hints).hintOf f = some hint ↔ ((f : Int), some hint) ∈ hints := by
  have listed : (ofCycles vertexCount cycles hints).faces.toList.map Face.hint =
      (List.range cycles.length).map fun i => hints.get (0 + i) := by
    have all := hints_layFaces hints Register.empty #[] cycles
    rwa [List.map_nil, List.nil_append] at all
  have found : (ofCycles vertexCount cycles hints).hintOf f =
      (((List.range cycles.length).map fun i => hints.get (0 + i))[f]?).join := by
    rw [← listed, List.getElem?_map, Array.getElem?_toList, hintOf]
    cases (ofCycles vertexCount cycles hints).faces[f]? <;> rfl
  rw [found, List.getElem?_map]
  by_cases inside : f < cycles.length
  · rw [List.getElem?_range inside, Option.map_some, Nat.zero_add]
    exact proper.get_eq_some
  · rw [List.getElem?_eq_none (by rw [List.length_range]; omega)]
    refine iff_of_false nofun fun member => ?_
    have := proper.known _ member
    omega

private theorem edgesOf_unhinted (graph : Graph) (f : Nat) :
    graph.unhinted.edgesOf f = graph.edgesOf f := by
  unfold edgesOf unhinted
  rw [Array.getElem?_map]
  cases graph.faces[f]? <;> rfl

private theorem facesOf_unhinted (graph : Graph) (e : Nat) :
    graph.unhinted.facesOf e = graph.facesOf e := by
  have faces : graph.unhinted.faceIds = graph.faceIds := congrArg List.range Array.size_map
  simp only [facesOf_eq, faces, edgesOf_unhinted]

private theorem crowded?_unhinted (graph : Graph) : graph.unhinted.crowded? = graph.crowded? := by
  have faces : graph.unhinted.faceIds = graph.faceIds := congrArg List.range Array.size_map
  have crowdedAt (f : Nat) : graph.unhinted.crowdedAt? f = graph.crowdedAt? f := by
    funext e
    rw [crowdedAt?, crowdedAt?, facesOf_unhinted]
    rfl
  simp only [crowded?, faces, edgesOf_unhinted, crowdedAt]

/-- What can be built without hints can be built with any for its faces. -/
theorem exists_build {vertexCount : Nat} {cycles : List (List Int)} {plain : Graph}
    (built : build vertexCount cycles [] = .ok plain) (proper : hints.Proper plain.faces.size) :
    ∃ graph, build vertexCount cycles hints = .ok graph ∧ graph.unhinted = plain ∧
      ∀ f hint, graph.hintOf f = some hint ↔ ((f : Int), some hint) ∈ hints := by
  obtain ⟨fine, rfl, uncrowded, _⟩ := build_eq_ok_iff.mp built
  have same := unhinted_ofCycles vertexCount (cycles.map (·.map Int.toNat)) hints
  rw [← same, crowded?_unhinted] at uncrowded
  rw [size_ofCycles] at proper
  have known := proper.unknown
  rw [← size_ofCycles vertexCount _ hints] at known
  exact ⟨_, build_eq_ok_iff.mpr ⟨fine, rfl, uncrowded, known⟩, same, fun f hint => hintOf_ofCycles _ proper⟩

end Graph

end PencilPuzzle
