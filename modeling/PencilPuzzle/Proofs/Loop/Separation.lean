import PencilPuzzle.Proofs.Loop.Partition
import PencilPuzzle.Proofs.Loop.Puzzle

/-!
# When the network rule is right

The rule for networks takes every edge with a single face for an edge to one region outside. On a
graph with a hole there are two such regions, and a loop that runs around one of them and not along the
other is refuted although it is a solution. What the rule needs is that the faces can be put on sides
which the loop, and only the loop, parts; and that is all it needs: where the rule accepts a full state,
the networks of that state are such sides. The other rules need nothing of the kind, and keep every
solution on every graph.
-/

namespace PencilPuzzle.Loop

open State PencilPuzzle.Graph

variable {graph : Graph} {s t : State} {network : List Nat} {e f g : Nat}

/-! ### Reading the rule backwards -/

private theorem none_of_fine (fine : NoContradiction ((faceNetwork graph).deduce s)) :
    markedInside? s (innerEdges graph (networkNumbers graph (networks graph s).toArray)) = none ∧
      bothSides? s (withOuterEdges graph (networks graph s)) = none := by
  rw [← Option.or_eq_none_iff]
  by_contra found
  obtain ⟨cause, found⟩ := Option.ne_none_iff_exists'.mp found
  refine fine (.contradiction cause) ?_ cause rfl
  unfold faceNetwork
  dsimp only
  rw [Option.orElse_eq_orElse, Option.orElse_eq_or, found]

/-! ### Sides of a full state -/

section Full

variable (count : t.count = graph.edges.size) (size : t.size = 2) (full : t.allDetermined = true)
include count size full

private theorem isDisabled_of_full (inside : e < graph.edges.size) (other : e ∉ markedEdges graph t) :
    isDisabled t e = true := by
  have alone := isDetermined_iff_candidates.mp (allDetermined_iff.mp full e (count ▸ inside))
  have known : t.assignment e ∈ t.domain e := by
    have listed : t.assignment e ∈ t.candidates e := alone ▸ List.mem_cons_self ..
    exact listed
  have small : t.assignment e < 2 := size ▸ Domain.lt_size known
  have notMarked : t.assignment e ≠ 0 := by
    intro zero
    rw [zero] at alone
    exact other (List.mem_filter.mpr ⟨List.mem_range.mpr inside, isMarked_iff.mpr alone⟩)
  have disabled : t.assignment e = Mark.disabled.value := by
    change t.assignment e = 1
    omega
  exact isDisabled_iff.mpr (alone.trans (congrArg ([·]) disabled))

private theorem parts_of_fine (wellFormed : graph.WellFormed)
    (fine : NoContradiction ((faceNetwork graph).deduce t)) :
    Parts graph (markedEdges graph t) (labelOf graph t) := by
  obtain ⟨notInside, notBoth⟩ := none_of_fine fine
  have known {x y : Nat} (faces : graph.facesOf x = [y]) : y < graph.faces.size :=
    (mem_facesOf.mp (faces ▸ List.mem_cons_self ..)).1
  -- With one label, a marked and a disabled edge would be on the boundary of one network.
  have oneWay {d e f g : Nat} (alone : graph.facesOf d = [f]) (alone' : graph.facesOf e = [g])
      (same : labelOf graph t f = labelOf graph t g) (onLoop : d ∈ markedEdges graph t) :
      e ∈ markedEdges graph t := by
    by_contra other
    obtain ⟨network, listed, members⟩ := exists_network t (known alone)
    have outer := mem_outerEdges.mpr ⟨f, (members f).mpr ⟨known alone, rfl⟩, alone⟩
    have outer' := mem_outerEdges.mpr ⟨g, (members g).mpr ⟨known alone', same.symm⟩, alone'⟩
    have disabled := isDisabled_of_full count size full (lt_size_of_facesOf_eq wellFormed alone') other
    have refused := List.findSome?_eq_none_iff.mp notBoth _ (List.mem_map_of_mem listed)
    have found : (outerEdges graph network).any (isDisabled t) = true ∧
        (outerEdges graph network).any (isMarked t) = true :=
      ⟨List.any_eq_true.mpr ⟨e, outer', disabled⟩,
        List.any_eq_true.mpr ⟨d, outer, (List.mem_filter.mp onLoop).2⟩⟩
    simp [found] at refused
  refine ⟨fun e f g pair => ⟨fun onLoop same => ?_, fun differ => ?_⟩,
    fun d e f g alone alone' same => ⟨oneWay alone alone' same, oneWay alone' alone same.symm⟩⟩
  · obtain ⟨n, inner⟩ := inner_of_label (lt_size_of_facesOf_eq wellFormed pair) pair same
    have refused := List.findSome?_eq_none_iff.mp notInside _ inner
    simp [(List.mem_filter.mp onLoop).2] at refused
  · by_contra other
    have inside := lt_size_of_facesOf_eq wellFormed pair
    exact differ (labelOf_eq_of_disabled inside pair (isDisabled_of_full count size full inside other))

end Full

/-- The rule keeps a full assignment in every state that admits it exactly when the faces can be put on
sides that the edges it marks, and only these, part. -/
theorem faceNetwork_keeps_iff {vertexCount : Nat} {cycles : List (List Int)} {hints : Hints}
    (built : Graph.build vertexCount cycles hints = .ok graph) (count : t.count = graph.edges.size)
    (size : t.size = 2) (full : t.allDetermined = true) :
    (∀ s : State, s.count = graph.edges.size → s.size = 2 → s.Admits t.assignment →
        (faceNetwork graph).Spares t.assignment s) ↔
      Separates graph (markedEdges graph t) := by
  have wellFormed := wellFormed_of_build built
  have admits := Admits.assignment full
  constructor
  · intro keeps
    exact ⟨_, parts_of_fine count size full wellFormed (keeps t count size admits).1⟩
  · rintro ⟨side, parts⟩ s count' _ admits'
    rw [markedEdges_eq_loopOf count full admits] at parts
    have agrees := agrees_loopOf count' admits'
    exact spares_of_decidesFor count' (faceNetwork_fine parts agrees) fun _ h _ =>
      decidesFor_faceNetwork parts agrees wellFormed h

theorem Parts.map {α β : Type} {loop : List Nat} {side : Nat → α} (parts : Parts graph loop side)
    {rename : α → β} (injective : Function.Injective rename) :
    Parts graph loop fun f => rename (side f) where
  inner e f g pair := (parts.inner e f g pair).trans injective.ne_iff.symm
  border d e f g alone alone' same := parts.border d e f g alone alone' (injective same)

/-- On a graph without holes every loop parts the faces. -/
theorem separates_of_shelled {loop : List Nat} (wellFormed : graph.WellFormed)
    (shelled : Shelled (graph.faces.toList.map Face.vertices)) (ring : graph.Ring loop) :
    Separates graph loop := by
  obtain ⟨inside, encloses⟩ := ring.exists_inside wellFormed shelled
  have injective : Function.Injective Bool.toNat := by decide
  exact ⟨_, (Encloses.parts wellFormed encloses).map injective⟩

/-- Three quadrangles around a triangle that is no face. -/
def prism : Graph := .ofCycles 6 [[0, 1, 4, 3], [1, 2, 5, 4], [2, 0, 3, 5]] []

def prismState (marked : List Nat) : State :=
  prism.edgeIds.foldl (fun s (e : Nat) => s.perform (.lock e (if e ∈ marked then 0 else 1)))
    (initial prism)

private theorem build_prism :
    Graph.build 6 [[0, 1, 4, 3], [1, 2, 5, 4], [2, 0, 3, 5]] [] = .ok prism := by rfl

/-- The outer sides are marked and the inner ones are not, and all faces are in one network. -/
theorem deduce_prism : (faceNetwork prism).deduce (prismState [0, 4, 7]) =
    .error (.contradiction (.bothSides [0, 1, 2])) := by
  decide +kernel

/-- The loop around one of the quadrangles is kept; the one around the prism does not part its faces. -/
theorem faceNetwork_keeps_iff_prism :
    (∀ s : State, s.count = prism.edges.size → s.size = 2 →
        s.Admits (prismState [0, 1, 2, 3]).assignment →
        (faceNetwork prism).Spares (prismState [0, 1, 2, 3]).assignment s) ∧
      ¬ Separates prism (markedEdges prism (prismState [0, 4, 7])) := by
  have wellFormed := wellFormed_of_build build_prism
  constructor
  · have encloses : prism.Encloses (markedEdges prism (prismState [0, 1, 2, 3])) (· == 0) := by
      unfold Encloses
      decide +kernel
    have injective : Function.Injective Bool.toNat := by decide
    exact (faceNetwork_keeps_iff build_prism (by rfl) (by rfl) (by decide +kernel)).mpr
      ⟨_, (Encloses.parts wellFormed encloses).map injective⟩
  · intro separates
    have full : (prismState [0, 4, 7]).allDetermined = true := by decide +kernel
    have keeps := (faceNetwork_keeps_iff build_prism (by rfl) (by rfl) full).mpr separates
    exact (keeps _ (by rfl) (by rfl) (Admits.assignment full)).1 _ deduce_prism _ rfl

/-- So the rule does not keep every solution on every graph. -/
theorem not_faceNetwork_keeps :
    ¬ ∀ (vertexCount : Nat) (cycles : List (List Int)) (hints : Hints) (graph : Graph) (s t : State),
      Graph.build vertexCount cycles hints = .ok graph → s.frame = (initial graph).frame →
      t.frame = (initial graph).frame → t.allDetermined = true → isSolved graph t = true →
      s.Admits t.assignment → (faceNetwork graph).Spares t.assignment s := by
  intro keeps
  have full : (prismState [0, 4, 7]).allDetermined = true := by decide +kernel
  have solved : isSolved prism (prismState [0, 4, 7]) = true := by decide +kernel
  have spares := keeps 6 _ [] prism (prismState [0, 4, 7]) (prismState [0, 4, 7]) build_prism (by rfl)
    (by rfl) full solved (Admits.assignment full)
  exact spares.1 _ deduce_prism _ rfl

/-! ### The other rules -/

/-- The rules that look at one place and the check keep every solution on every graph. -/
theorem localRules_keep {vertexCount : Nat} {cycles : List (List Int)} {hints : Hints}
    (built : Graph.build vertexCount cycles hints = .ok graph) (count : s.count = graph.edges.size)
    (count' : t.count = graph.edges.size) (full : t.allDetermined = true)
    (solved : isSolved graph t = true) (admits : s.Admits t.assignment) :
    (∀ rule ∈ localRules graph, ∃ updates, rule.deduce s = .ok updates ∧
        ∀ update ∈ updates, update.Spares t.assignment) ∧
      isConsistent graph s = true := by
  have wellFormed := wellFormed_of_build built
  have solution := (isSolved_iff wellFormed count' full (Admits.assignment full)).mp solved
  have ring := solution.ring wellFormed
  have agrees := agrees_loopOf count admits
  refine ⟨fun rule listed => ?_, isConsistent_of_ring ring agrees solution.hints⟩
  obtain ⟨updates, deduced, decide⟩ := localRules_decide ring agrees solution.hints listed
  exact ⟨updates, deduced, fun update member => (decide update member).spares count⟩

/-- So they keep the loop around the prism, also while it is marked in part and they go on from there. -/
theorem localRules_keep_prism :
    let partly := ((initial prism).perform (.remove 0 [1])).perform (.remove 4 [1])
    let around := prismState [0, 4, 7]
    (twoEdgesPerVertex prism).deduce partly = .ok [disable 1] ∧
      isSolved prism around = true ∧ partly.Admits around.assignment ∧
      (∀ rule ∈ localRules prism, ∃ updates, rule.deduce partly = .ok updates ∧
        ∀ update ∈ updates, update.Spares around.assignment) ∧
      isConsistent prism partly = true := by
  intro partly around
  have full : around.allDetermined = true := by decide +kernel
  have solved : isSolved prism around = true := by decide +kernel
  have admits : partly.Admits around.assignment := by
    unfold State.Admits
    decide +kernel
  exact ⟨by decide +kernel, solved, admits,
    localRules_keep build_prism (by rfl) (by rfl) full solved admits⟩

end PencilPuzzle.Loop
