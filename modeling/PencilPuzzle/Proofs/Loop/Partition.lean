import PencilPuzzle.Proofs.Loop.Network

/-!
# Networks part the faces

The label of a face is itself the smallest face with that label, and both faces of a disabled edge get
the same one. So each face belongs to exactly one network, that of its label, and the number the rule
gives to the network of a face depends on the label alone.
-/

namespace PencilPuzzle.Loop

open State PencilPuzzle.Graph

variable {graph : Graph} {s : State} {labels : Labels} {network : List Nat} {e f g x y : Nat}

/-! ### Merging labels -/

/-- Each label is a face with that label, and none comes after its faces. -/
structure Rooted (labels : Labels) : Prop where
  below : ∀ f, labels.getD f f ≤ f
  again : ∀ f, labels.getD (labels.getD f f) (labels.getD f f) = labels.getD f f

theorem Rooted.merge (rooted : Rooted labels) (f g : Nat) : Rooted (labels.merge f g) := by
  have smaller : labels.getD (min (labels.getD f f) (labels.getD g g))
      (min (labels.getD f f) (labels.getD g g)) = min (labels.getD f f) (labels.getD g g) := by
    rcases Nat.le_total (labels.getD f f) (labels.getD g g) with le | le
    · rw [Nat.min_eq_left le, rooted.again f]
    · rw [Nat.min_eq_right le, rooted.again g]
  refine ⟨fun h => ?_, fun h => ?_⟩
  · have below := rooted.below h
    rw [getD_merge]
    split <;> omega
  · by_cases moved : h < labels.size ∧ labels.getD h h = max (labels.getD f f) (labels.getD g g)
    · rw [getD_merge labels f g h, if_pos moved, getD_merge, smaller]
      split <;> rfl
    · -- A label that is not merged away is not the larger one, and what is no face is its own label.
      rw [getD_merge labels f g h, if_neg moved, getD_merge, rooted.again h, if_neg]
      rintro ⟨inside, larger⟩
      refine moved ⟨?_, larger⟩
      by_contra beyond
      rw [Array.getD_eq_getD_getElem?, Array.getElem?_eq_none (Nat.le_of_not_lt beyond)] at inside
      exact beyond inside

theorem size_merge (labels : Labels) (f g : Nat) : (labels.merge f g).size = labels.size := by
  simp [Labels.merge]

private theorem merge_congr (inside : x < labels.size) (inside' : y < labels.size)
    (same : labels.getD x x = labels.getD y y) (f g : Nat) :
    (labels.merge f g).getD x x = (labels.merge f g).getD y y := by
  rw [getD_merge, getD_merge, same]
  generalize labels.getD y y = label
  simp only [inside, inside']

private theorem merge_joins (inside : f < labels.size) (inside' : g < labels.size) :
    (labels.merge f g).getD f f = (labels.merge f g).getD g g := by
  rw [getD_merge, getD_merge]
  generalize labels.getD f f = a
  generalize labels.getD g g = b
  simp only [inside, inside', true_and]
  split <;> split <;> omega

theorem Rooted.mergeAlong (rooted : Rooted labels) (edges : List Nat) :
    Rooted (mergeAlong graph s labels edges) := by
  induction edges generalizing labels with
  | nil => exact rooted
  | cons e rest ih =>
    unfold Loop.mergeAlong
    split
    · split
      · exact ih (rooted.merge _ _)
      · exact ih rooted
    · exact ih rooted

private theorem mergeAlong_congr (inside : x < labels.size) (inside' : y < labels.size)
    (same : labels.getD x x = labels.getD y y) (edges : List Nat) :
    (mergeAlong graph s labels edges).getD x x = (mergeAlong graph s labels edges).getD y y := by
  induction edges generalizing labels with
  | nil => exact same
  | cons e rest ih =>
    unfold mergeAlong
    split
    next f g _ =>
      split
      · exact ih ((size_merge labels f g).symm ▸ inside) ((size_merge labels f g).symm ▸ inside')
          (merge_congr inside inside' same f g)
      · exact ih inside inside' same
    · exact ih inside inside' same

private theorem mergeAlong_joins {edges : List Nat} (pair : graph.facesOf e = [f, g])
    (disabled : isDisabled s e = true) (inside : f < labels.size) (inside' : g < labels.size)
    (listed : e ∈ edges) :
    (mergeAlong graph s labels edges).getD f f = (mergeAlong graph s labels edges).getD g g := by
  induction edges generalizing labels with
  | nil => exact absurd listed List.not_mem_nil
  | cons d rest ih =>
    rcases List.mem_cons.mp listed with rfl | later
    · have sizes := size_merge labels f g
      simp only [mergeAlong, pair, disabled, if_true]
      exact mergeAlong_congr (sizes.symm ▸ inside) (sizes.symm ▸ inside') (merge_joins inside inside') rest
    · unfold mergeAlong
      split
      next x y _ =>
        have sizes := size_merge labels x y
        split
        · exact ih (sizes.symm ▸ inside) (sizes.symm ▸ inside') later
        · exact ih inside inside' later
      · exact ih inside inside' later

/-! ### Labels of faces -/

def labelOf (graph : Graph) (s : State) (f : Nat) : Nat := (networkLabels graph s).getD f f

private theorem rooted_networkLabels (graph : Graph) (s : State) : Rooted (networkLabels graph s) := by
  have start (f : Nat) : graph.faceIds.toArray.getD f f = f := by
    by_cases bound : f < graph.faces.size <;> simp [faceIds, Array.getD_eq_getD_getElem?, bound]
  refine Rooted.mergeAlong ⟨fun f => (start f).le, fun f => ?_⟩ _
  rw [start f, start f]

theorem labelOf_le (graph : Graph) (s : State) (f : Nat) : labelOf graph s f ≤ f :=
  (rooted_networkLabels graph s).below f

private theorem labelOf_labelOf (graph : Graph) (s : State) (f : Nat) :
    labelOf graph s (labelOf graph s f) = labelOf graph s f :=
  (rooted_networkLabels graph s).again f

theorem labelOf_eq_of_disabled (inside : e < graph.edges.size) (pair : graph.facesOf e = [f, g])
    (disabled : isDisabled s e = true) : labelOf graph s f = labelOf graph s g := by
  have known {h : Nat} (listed : h ∈ graph.facesOf e) : h < graph.faceIds.toArray.size := by
    simpa [faceIds] using (mem_facesOf.mp listed).1
  exact mergeAlong_joins pair disabled (known (by simp [pair])) (known (by simp [pair]))
    (List.mem_range.mpr inside)

/-! ### Networks and their numbers -/

theorem networks_eq_map (graph : Graph) (s : State) :
    networks graph s = (graph.faceIds.filter fun f => labelOf graph s f = f).map fun root =>
      graph.faceIds.filter fun f => labelOf graph s f = root :=
  networks_eq graph s

theorem mem_network {root : Nat} :
    f ∈ graph.faceIds.filter (fun f => labelOf graph s f = root) ↔
      f < graph.faces.size ∧ labelOf graph s f = root := by
  rw [List.mem_filter, faceIds, List.mem_range, decide_eq_true_eq]

theorem exists_root (listed : network ∈ networks graph s) :
    ∃ root ∈ network, network = graph.faceIds.filter fun f => labelOf graph s f = root := by
  rw [networks_eq_map] at listed
  obtain ⟨root, isRoot, rfl⟩ := List.mem_map.mp listed
  obtain ⟨inside, self⟩ := List.mem_filter.mp isRoot
  exact ⟨root, List.mem_filter.mpr ⟨inside, self⟩, rfl⟩

/-- A face is in the network of its label and in no other. -/
theorem mem_getD_networks {n : Nat} :
    f ∈ (networks graph s).toArray.getD n [] ↔ f < graph.faces.size ∧
      (graph.faceIds.filter fun f => labelOf graph s f = f)[n]? = some (labelOf graph s f) := by
  rw [networks_eq_map, Array.getD_eq_getD_getElem?, List.getElem?_toArray, List.getElem?_map]
  cases place : (graph.faceIds.filter fun f => labelOf graph s f = f)[n]? with
  | none => simp
  | some root => simp [faceIds, eq_comm]

theorem exists_networkNumber (s : State) (bound : f < graph.faces.size) :
    ∃ n, (networkNumbers graph (networks graph s).toArray).getD f [] = [n] := by
  have root : labelOf graph s f ∈ graph.faceIds.filter fun f => labelOf graph s f = f :=
    List.mem_filter.mpr ⟨List.mem_range.mpr ((labelOf_le graph s f).trans_lt bound),
      decide_eq_true (labelOf_labelOf graph s f)⟩
  obtain ⟨n, place⟩ := List.mem_iff_getElem?.mp root
  have distinct : (graph.faceIds.filter fun f => labelOf graph s f = f).Nodup :=
    List.nodup_range.filter _
  refine ⟨n, List.perm_singleton.mp ?_⟩
  rw [getD_networkNumbers _ bound, List.perm_ext_iff_of_nodup (List.nodup_range.filter _) (by simp)]
  intro m
  simp only [List.mem_filter, List.mem_range, mem_getD_networks, decide_eq_true_eq,
    List.mem_singleton]
  constructor
  · rintro ⟨_, _, there⟩
    exact (List.getElem?_inj (List.getElem?_eq_some_iff.mp there).1 distinct).mp (there.trans place.symm)
  · rintro rfl
    refine ⟨?_, bound, place⟩
    rw [List.size_toArray, networks_eq_map, List.length_map]
    exact (List.getElem?_eq_some_iff.mp place).1

private theorem networkNumbers_congr (bound : f < graph.faces.size) (bound' : g < graph.faces.size)
    (same : labelOf graph s f = labelOf graph s g) :
    (networkNumbers graph (networks graph s).toArray).getD f [] =
      (networkNumbers graph (networks graph s).toArray).getD g [] := by
  rw [getD_networkNumbers _ bound, getD_networkNumbers _ bound']
  apply List.filter_congr
  intro n _
  simp only [mem_getD_networks, bound, bound', same]

theorem inner_of_label (inside : e < graph.edges.size) (pair : graph.facesOf e = [f, g])
    (same : labelOf graph s f = labelOf graph s g) :
    ∃ n, (e, n, n) ∈ innerEdges graph (networkNumbers graph (networks graph s).toArray) := by
  have known {h : Nat} (listed : h ∈ graph.facesOf e) : h < graph.faces.size := (mem_facesOf.mp listed).1
  have first : f < graph.faces.size := known (by simp [pair])
  have second : g < graph.faces.size := known (by simp [pair])
  obtain ⟨n, number⟩ := exists_networkNumber s first
  refine ⟨n, List.mem_filterMap.mpr ⟨e, List.mem_range.mpr inside, ?_⟩⟩
  simp only [pair, ← networkNumbers_congr first second same, number]

theorem exists_network (s : State) (bound : f < graph.faces.size) :
    ∃ network ∈ networks graph s, ∀ g, g ∈ network ↔
      g < graph.faces.size ∧ labelOf graph s g = labelOf graph s f := by
  refine ⟨graph.faceIds.filter fun g => labelOf graph s g = labelOf graph s f, ?_, fun g => ?_⟩
  · rw [networks_eq_map]
    exact List.mem_map.mpr ⟨labelOf graph s f, List.mem_filter.mpr
      ⟨List.mem_range.mpr ((labelOf_le graph s f).trans_lt bound),
        decide_eq_true (labelOf_labelOf graph s f)⟩, rfl⟩
  · exact mem_network

end PencilPuzzle.Loop
