import PencilPuzzle.Proofs.Loop.Edge
import PencilPuzzle.Proofs.Sorted

/-!
# The order of guesses

An open edge has an entry for each of its ends at which one edge is marked, with the number of hinted faces
around that end. The greatest of these entries comes first when the entries are sorted, and later ones of the
same edge are dropped, so the edge stands where its greatest entry puts it. Open edges without an entry
follow.
-/

namespace PencilPuzzle.Loop

open State PencilPuzzle.Graph

variable {graph : Graph} {s : State} {e f v hinted : Nat}

/-! ### Ends of the loop -/

def hintedAround (graph : Graph) (v : Nat) : Nat :=
  (graph.facesAt v).countP fun f => (graph.hintOf f).isSome

def openEndsOf (graph : Graph) (s : State) (e : Nat) : List Nat :=
  (graph.endsOf e).filter fun v => markedCount s (graph.edgesAt v) = 1

def mostHinted (graph : Graph) (s : State) (e : Nat) : Nat :=
  ((openEndsOf graph s e).map (hintedAround graph)).max?.getD 0

theorem mem_openEndsOf :
    v ∈ openEndsOf graph s e ↔ v ∈ graph.endsOf e ∧ markedCount s (graph.edgesAt v) = 1 := by
  rw [openEndsOf, List.mem_filter, decide_eq_true_eq]

theorem mem_openEnds : (hinted, e) ∈ openEnds graph s ↔ (e < graph.edges.size ∧ isOpen s e = true) ∧
    ∃ v < graph.vertexCount, v ∈ openEndsOf graph s e ∧ hintedAround graph v = hinted := by
  unfold openEnds
  simp only [List.mem_flatMap, mem_openEndsOf]
  constructor
  · rintro ⟨v, known, listed⟩
    split at listed
    next alone =>
      obtain ⟨_, continues, same⟩ := List.mem_map.mp listed
      cases same
      obtain ⟨here, undecided⟩ := List.mem_filter.mp continues
      obtain ⟨inside, ends⟩ := mem_edgesAt.mp here
      exact ⟨⟨inside, undecided⟩, v, List.mem_range.mp known, ⟨ends, alone⟩, rfl⟩
    next => exact absurd listed List.not_mem_nil
  · rintro ⟨⟨inside, undecided⟩, v, known, ⟨ends, alone⟩, rfl⟩
    refine ⟨v, List.mem_range.mpr known, ?_⟩
    rw [if_pos alone]
    exact List.mem_map_of_mem (List.mem_filter.mpr ⟨mem_edgesAt.mpr ⟨inside, ends⟩, undecided⟩)

private theorem lt_vertexCount_of_mem_openEndsOf (wellFormed : graph.WellFormed)
    (isEnd : v ∈ openEndsOf graph s e) : v < graph.vertexCount :=
  wellFormed.lt_vertexCount (mem_openEndsOf.mp isEnd).1

private theorem le_mostHinted (entry : (hinted, e) ∈ openEnds graph s) : hinted ≤ mostHinted graph s e := by
  obtain ⟨_, v, _, isEnd, rfl⟩ := mem_openEnds.mp entry
  exact List.le_max?_getD_of_mem (List.mem_map_of_mem isEnd)

private theorem mostHinted_mem_openEnds (wellFormed : graph.WellFormed)
    (entry : (hinted, e) ∈ openEnds graph s) : (mostHinted graph s e, e) ∈ openEnds graph s := by
  obtain ⟨undecided, v, _, isEnd, _⟩ := mem_openEnds.mp entry
  have counted := List.mem_map_of_mem (f := hintedAround graph) isEnd
  obtain ⟨most, greatest⟩ := Option.ne_none_iff_exists'.mp
    (List.max?_eq_none_iff.not.mpr (List.ne_nil_of_mem counted))
  obtain ⟨w, isEnd', same⟩ := List.mem_map.mp (List.max?_mem greatest)
  refine mem_openEnds.mpr ⟨undecided, w, lt_vertexCount_of_mem_openEndsOf wellFormed isEnd', isEnd', ?_⟩
  rw [same, mostHinted, greatest, Option.getD_some]

/-! ### Sorted entries -/

/-- The edges with an entry, in the order of their greatest entries. -/
def continuing (graph : Graph) (s : State) : List Nat :=
  ((sortBy (fun p q => q.1 < p.1 || (p.1 = q.1 && p.2 ≤ q.2)) (openEnds graph s)).map Prod.snd).eraseDups

theorem mem_continuing : e ∈ continuing graph s ↔ ∃ hinted, (hinted, e) ∈ openEnds graph s := by
  simp [continuing]

theorem mem_continuing_iff (wellFormed : graph.WellFormed) : e ∈ continuing graph s ↔
    (e < graph.edges.size ∧ isOpen s e = true) ∧
      ∃ v ∈ graph.endsOf e, markedCount s (graph.edgesAt v) = 1 := by
  rw [mem_continuing]
  constructor
  · rintro ⟨hinted, entry⟩
    obtain ⟨undecided, v, _, isEnd, _⟩ := mem_openEnds.mp entry
    exact ⟨undecided, v, mem_openEndsOf.mp isEnd⟩
  · rintro ⟨undecided, v, ends, alone⟩
    have isEnd := mem_openEndsOf.mpr ⟨ends, alone⟩
    exact ⟨_, mem_openEnds.mpr
      ⟨undecided, v, lt_vertexCount_of_mem_openEndsOf wellFormed isEnd, isEnd, rfl⟩⟩

/-- The order of edges with an open end: more hinted faces first, then by number. -/
def Precedes (graph : Graph) (s : State) (e f : Nat) : Prop :=
  mostHinted graph s f < mostHinted graph s e ∨ mostHinted graph s e = mostHinted graph s f ∧ e < f

private theorem pairwise_continuing (wellFormed : graph.WellFormed) :
    (continuing graph s).Pairwise (Precedes graph s) := by
  have sorted : (sortBy (fun p q : Nat × Nat => q.1 < p.1 || (p.1 = q.1 && p.2 ≤ q.2))
      (openEnds graph s)).Pairwise fun p q => (q.1 < p.1 || (p.1 = q.1 && p.2 ≤ q.2)) = true :=
    pairwise_sortBy (fun p q => by grind) (fun p q r => by grind) _
  refine (pairwise_eraseDups Prod.snd sorted).imp_of_mem fun {_ f} _ later => ?_
  rintro ⟨different, ⟨hinted, e⟩, entry, rfl, first⟩
  -- The first entry of one edge is before all of the other, its greatest one among them.
  obtain ⟨_, other⟩ := mem_continuing.mp later
  have greatest := first _ (mem_sortBy.mpr (mostHinted_mem_openEnds wellFormed other)) rfl
  have most := le_mostHinted (mem_sortBy.mp entry)
  simp only [Bool.or_eq_true, Bool.and_eq_true, decide_eq_true_eq] at greatest
  show mostHinted graph s f < mostHinted graph s e ∨ mostHinted graph s e = mostHinted graph s f ∧ e < f
  dsimp only at different
  omega

/-! ### The order -/

private theorem guessOrder_eq (graph : Graph) (s : State) : guessOrder graph s =
    continuing graph s ++ graph.edgeIds.filter fun e => isOpen s e && e ∉ continuing graph s :=
  rfl

theorem mem_others : e ∈ graph.edgeIds.filter (fun e => isOpen s e && e ∉ continuing graph s) ↔
    (e < graph.edges.size ∧ isOpen s e = true) ∧ e ∉ continuing graph s := by
  rw [List.mem_filter, edgeIds, List.mem_range, Bool.and_eq_true, decide_eq_true_eq, and_assoc]

theorem mem_guessOrder : e ∈ guessOrder graph s ↔ e < graph.edges.size ∧ isOpen s e = true := by
  rw [guessOrder_eq, List.mem_append, mem_others]
  constructor
  · rintro (first | rest)
    · obtain ⟨_, entry⟩ := mem_continuing.mp first
      exact (mem_openEnds.mp entry).1
    · exact rest.1
  · intro undecided
    by_cases first : e ∈ continuing graph s
    · exact .inl first
    · exact .inr ⟨undecided, first⟩

theorem nodup_guessOrder (graph : Graph) (s : State) : (guessOrder graph s).Nodup := by
  rw [guessOrder_eq, List.nodup_append']
  refine ⟨nodup_eraseDups _, List.nodup_range.filter _, fun e first rest => ?_⟩
  exact (mem_others.mp rest).2 first

/-- Every open edge is tried once: those with an open end first, by the number of hinted faces around such an
end and then by number, the others by number. -/
theorem guessOrder_sorted {vertexCount : Nat} {cycles : List (List Int)} {hints : Hints}
    (built : Graph.build vertexCount cycles hints = .ok graph) (s : State) :
    (guessOrder graph s).Nodup ∧
      (∀ e, e ∈ guessOrder graph s ↔ e < graph.edges.size ∧ isOpen s e = true) ∧
      ∃ first rest, guessOrder graph s = first ++ rest ∧
        (∀ e ∈ guessOrder graph s, e ∈ first ↔ ∃ v ∈ graph.endsOf e, markedCount s (graph.edgesAt v) = 1) ∧
        first.Pairwise (Precedes graph s) ∧ rest.Pairwise (· < ·) := by
  have wellFormed := wellFormed_of_build built
  refine ⟨nodup_guessOrder graph s, fun e => mem_guessOrder, _, _, guessOrder_eq graph s, fun e listed => ?_,
    pairwise_continuing wellFormed, List.pairwise_lt_range.filter _⟩
  rw [mem_continuing_iff wellFormed, and_iff_right (mem_guessOrder.mp listed)]

/-- Of two squares the first is hinted, and on each of them an edge is marked. The edge between these two has
both its ends open, and only one of them is on the hinted square. -/
theorem guessOrder_sorted_twoSquares :
    let graph := Graph.ofCycles 6 [[0, 1, 2, 3], [1, 4, 5, 2]] [(0, some 3)]
    let drawn := (initial graph).performAll [.lock 0 0, .lock 5 0]
    guessOrder graph drawn = [1, 3, 4, 6, 2] ∧ openEndsOf graph drawn 4 = [1, 4] ∧
      (guessOrder graph drawn).Nodup := by
  intro graph drawn
  have built : Graph.build 6 [[0, 1, 2, 3], [1, 4, 5, 2]] [(0, some 3)] = .ok graph := by decide
  exact ⟨by decide +kernel, by decide +kernel, (guessOrder_sorted built drawn).1⟩

end PencilPuzzle.Loop
