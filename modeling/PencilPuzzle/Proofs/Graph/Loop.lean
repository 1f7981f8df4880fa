import Mathlib.Data.List.Chain
import Mathlib.Data.List.Perm.Basic
import PencilPuzzle.Proofs.Graph.Build
import PencilPuzzle.Proofs.Graph.Path
import PencilPuzzle.Proofs.Sorted

/-!
# Loops

A set of edges passes as a loop exactly when it is the sides of one cycle of at least three different
vertices. In between stands the local view of a loop, which rules and checks work with: two edges
meet at every vertex that is touched, and links lead from each edge to each other one. A part of a
loop that contains both edges at each of its vertices is therefore the whole loop.
-/

namespace PencilPuzzle.Graph

variable {graph : Graph} {loop : List Nat} {e f g v w : Nat} {edge side : Edge}

theorem mem_endsOf : v ∈ graph.endsOf e ↔ ∃ edge, graph.edges[e]? = some edge ∧ v ∈ edge.ends := by
  unfold endsOf
  cases graph.edges[e]? <;> simp

/-! ### The local view -/

/-- Two of the edges meet at every vertex they touch, and links lead from each to each. -/
structure Ring (graph : Graph) (loop : List Nat) : Prop where
  distinct : loop.Nodup
  long : 3 ≤ loop.length
  two : ∀ e ∈ loop, ∀ v ∈ graph.endsOf e, graph.degree loop v = 2
  connected : ∀ e ∈ loop, ∀ f ∈ loop, Relation.ReflTransGen (graph.Linked (· ∈ loop)) e f

theorem length_path_eq_iff (distinct : loop.Nodup) (first : e ∈ loop) :
    (graph.path (· ∈ loop) e).length = loop.length ↔ ∀ f ∈ loop, f ∈ graph.path (· ∈ loop) e := by
  have within : graph.path (· ∈ loop) e ⊆ loop := fun f onPath =>
    of_decide_eq_true (isMember_of_mem_path (decide_eq_true first) onPath)
  have fewer := List.subperm_of_subset (graph.nodup_path _ e) within
  constructor
  · intro same f member
    exact (fewer.perm_of_length_le (Nat.le_of_eq same.symm)).mem_iff.mpr member
  · intro all
    exact Nat.le_antisymm fewer.length_le (List.subperm_of_subset distinct all).length_le

theorem isLoop_iff_ring {edges : List Nat} :
    graph.isLoop edges = true ↔ graph.Ring edges.eraseDups := by
  have distinct := nodup_eraseDups edges
  unfold isLoop
  dsimp only
  split
  next first rest members =>
    rw [members] at distinct
    have member : first ∈ first :: rest := List.mem_cons_self ..
    simp only [members, Bool.and_eq_true, decide_eq_true_eq, List.all_eq_true, List.mem_flatMap,
      forall_exists_index, and_imp]
    rw [length_path_eq_iff distinct member]
    constructor
    · rintro ⟨⟨long, two⟩, covered⟩
      refine ⟨distinct, long, fun e member v ends => two v e member ends, fun e here f there => ?_⟩
      exact mem_path.mp ((mem_path_congr (covered e here)).mp (covered f there))
    · intro ring
      exact ⟨⟨ring.long, fun v e member ends => ring.two e member v ends⟩,
        fun f there => mem_path.mpr (ring.connected first member f there)⟩
  next none =>
    apply iff_of_false Bool.false_ne_true
    intro ring
    have long := ring.long
    rw [none] at long
    simp at long

theorem countP_edgesAt (distinct : loop.Nodup) (v : Nat) :
    (graph.edgesAt v).countP (· ∈ loop) = graph.degree loop v := by
  have same : ((graph.edgesAt v).filter (· ∈ loop)).Perm (loop.filter (v ∈ graph.endsOf ·)) := by
    rw [List.perm_ext_iff_of_nodup ((graph.nodup_edgesAt v).filter _) (distinct.filter _)]
    intro e
    rw [List.mem_filter, List.mem_filter, decide_eq_true_eq, decide_eq_true_eq]
    exact ⟨fun h => ⟨h.2, (mem_edgesAt.mp h.1).2⟩, fun h => ⟨mem_edgesAt_of_mem_endsOf h.2, h.1⟩⟩
  rw [degree, List.countP_eq_length_filter, List.countP_eq_length_filter, same.length_eq]

theorem degree_eq_countP (graph : Graph) (loop : List Nat) (v : Nat) :
    graph.degree loop v = (loop.filterMap (graph.edges[·]?)).countP (v ∈ ·.ends) := by
  rw [List.countP_filterMap, degree]
  apply List.countP_congr
  intro e _
  rw [decide_eq_true_eq, mem_endsOf]
  cases graph.edges[e]? <;> simp

theorem nodup_filterMap_edges (wellFormed : graph.WellFormed) (distinct : loop.Nodup) :
    (loop.filterMap (graph.edges[·]?)).Nodup :=
  distinct.filterMap fun e f edge here there => wellFormed.distinct e f edge here there

private theorem filter_edgesAt_eq (distinct : loop.Nodup) (two : graph.degree loop v = 2)
    (different : e ≠ f)
    (here : e ∈ loop) (there : f ∈ loop) (ends : v ∈ graph.endsOf e) (ends' : v ∈ graph.endsOf f) :
    (graph.edgesAt v).filter (· ∈ loop) = [e, f] ∨ (graph.edgesAt v).filter (· ∈ loop) = [f, e] := by
  have listed {g : Nat} (member : g ∈ loop) (touches : v ∈ graph.endsOf g) :
      g ∈ (graph.edgesAt v).filter (· ∈ loop) :=
    List.mem_filter.mpr ⟨mem_edgesAt_of_mem_endsOf touches, decide_eq_true member⟩
  have first := listed here ends
  have second := listed there ends'
  rw [← countP_edgesAt distinct, List.countP_eq_length_filter] at two
  obtain ⟨x, y, pair⟩ := List.length_eq_two.mp two
  rw [pair] at first second ⊢
  simp only [List.mem_cons, List.not_mem_nil, or_false] at first second
  rcases first with rfl | rfl <;> rcases second with rfl | rfl
  · exact absurd rfl different
  · exact .inl rfl
  · exact .inr rfl
  · exact absurd rfl different

namespace Ring

theorem lt_size (ring : graph.Ring loop) (member : e ∈ loop) : e < graph.edges.size := by
  obtain ⟨f, there, different⟩ : ∃ f ∈ loop, f ≠ e := by
    by_contra none
    push Not at none
    have alone : loop ⊆ [e] := fun f there => List.mem_singleton.mpr (none f there)
    have short := (List.subperm_of_subset ring.distinct alone).length_le
    have := ring.long
    rw [List.length_singleton] at short
    omega
  cases (ring.connected f there e member) with
  | refl => exact absurd rfl different
  | tail _ linked =>
    obtain ⟨v, _, ends⟩ := linked.share
    exact (mem_edgesAt.mp (mem_edgesAt_of_mem_endsOf ends)).1

theorem degree_cases (ring : graph.Ring loop) (v : Nat) :
    graph.degree loop v = 0 ∨ graph.degree loop v = 2 := by
  by_cases touched : ∃ e ∈ loop, v ∈ graph.endsOf e
  · obtain ⟨e, member, ends⟩ := touched
    exact .inr (ring.two e member v ends)
  · push Not at touched
    exact .inl (List.countP_eq_zero.mpr fun e member => by simpa using touched e member)

/-- A part of a loop that goes on wherever the loop does is the whole loop. -/
theorem subset_of_closed (ring : graph.Ring loop) {part : Nat → Prop} (some : e ∈ loop)
    (here : part e)
    (closed : ∀ e ∈ loop, part e → ∀ f ∈ loop, ∀ v ∈ graph.endsOf e, v ∈ graph.endsOf f → part f) :
    ∀ f ∈ loop, part f := by
  intro f there
  have leads := ring.connected e some f there
  clear there
  suffices both : f ∈ loop ∧ part f from both.2
  induction leads with
  | refl => exact ⟨some, here⟩
  | @tail g f _ linked ih =>
    have member : f ∈ loop := of_decide_eq_true linked.isMember_right
    obtain ⟨v, ends, ends'⟩ := linked.share
    exact ⟨member, closed g ih.1 ih.2 f member v ends ends'⟩

/-- A part of a loop in which two edges meet wherever one ends is the whole loop. -/
theorem subset_of_two (ring : graph.Ring loop) {part : List Nat} (distinct : part.Nodup)
    (subset : part ⊆ loop) (some : e ∈ part)
    (two : ∀ e ∈ part, ∀ v ∈ graph.endsOf e, 2 ≤ graph.degree part v) : loop ⊆ part := by
  apply ring.subset_of_closed (subset some) some
  intro e _ here f there v ends ends'
  have both := two e here v ends
  have all := ring.two f there v ends'
  rw [degree, List.countP_eq_length_filter] at both all
  have fewer : (part.filter (v ∈ graph.endsOf ·)).Subperm (loop.filter (v ∈ graph.endsOf ·)) :=
    List.subperm_of_subset (distinct.filter _) fun g member => by
      obtain ⟨onPart, touches⟩ := List.mem_filter.mp member
      exact List.mem_filter.mpr ⟨subset onPart, touches⟩
  have same := (fewer.perm_of_length_le (by omega)).mem_iff (a := f)
  exact (List.mem_filter.mp (same.mpr (List.mem_filter.mpr ⟨there, decide_eq_true ends'⟩))).1

end Ring

/-! ### Cycles -/

/-- The edges are the sides of a cycle of different vertices. -/
structure Traces (graph : Graph) (loop cycle : List Nat) : Prop where
  distinct : cycle.Nodup
  long : 3 ≤ cycle.length
  whole : ∀ side ∈ sides cycle, ∃ e : Nat, graph.edges[e]? = some side
  mem_iff : ∀ e, e ∈ loop ↔ ∃ side ∈ sides cycle, graph.edges[e]? = some side

def Joins (graph : Graph) (loop : List Nat) (v w : Nat) : Prop :=
  ∃ e ∈ loop, graph.edges[e]? = some (Edge.joining v w)

theorem Joins.symm (joins : graph.Joins loop v w) : graph.Joins loop w v := by
  obtain ⟨e, member, here⟩ := joins
  exact ⟨e, member, Edge.joining_comm v w ▸ here⟩

theorem exists_joining (wellFormed : graph.WellFormed) (ends : v ∈ graph.endsOf e) :
    ∃ w, graph.edges[e]? = some (Edge.joining v w) := by
  obtain ⟨edge, here, ends⟩ := mem_endsOf.mp ends
  have ordered := Edge.joining_ends (Nat.le_of_lt (wellFormed.edge_ordered here))
  simp only [Edge.ends, List.mem_cons, List.not_mem_nil, or_false] at ends
  rcases ends with rfl | rfl
  · exact ⟨edge.stop, by rw [ordered, here]⟩
  · exact ⟨edge.start, by rw [Edge.joining_comm, ordered, here]⟩

theorem exists_other_joins (wellFormed : graph.WellFormed) (distinct : loop.Nodup)
    (two : ∀ e ∈ loop, ∀ v ∈ graph.endsOf e, graph.degree loop v = 2) (joins : graph.Joins loop v w) :
    ∃ u, u ≠ w ∧ graph.Joins loop v u := by
  obtain ⟨e, member, here⟩ := joins
  have ends : v ∈ graph.endsOf e := mem_endsOf.mpr ⟨_, here, by simp⟩
  obtain ⟨f, there, different, ends'⟩ : ∃ f ∈ loop, f ≠ e ∧ v ∈ graph.endsOf f := by
    by_contra none
    push Not at none
    have alone : loop.filter (v ∈ graph.endsOf ·) ⊆ [e] := fun f listed => by
      obtain ⟨there, touches⟩ := List.mem_filter.mp listed
      by_contra other
      exact none f there (fun same => other (List.mem_singleton.mpr same)) (of_decide_eq_true touches)
    have few := (List.subperm_of_subset (distinct.filter _) alone).length_le
    rw [← List.countP_eq_length_filter] at few
    have := two e member v ends
    rw [degree] at this
    simp only [List.length_singleton] at few
    omega
  obtain ⟨u, joined⟩ := exists_joining wellFormed ends'
  refine ⟨u, ?_, f, there, joined⟩
  rintro rfl
  exact different (wellFormed.distinct f e _ joined here)

theorem Joins.lt_vertexCount (wellFormed : graph.WellFormed) (joins : graph.Joins loop v w) :
    v < graph.vertexCount := by
  obtain ⟨e, _, here⟩ := joins
  exact wellFormed.lt_vertexCount (mem_endsOf.mpr ⟨_, here, by simp⟩)

theorem Joins.ne (wellFormed : graph.WellFormed) (joins : graph.Joins loop v w) : v ≠ w := by
  obtain ⟨e, _, here⟩ := joins
  rintro rfl
  have ordered := wellFormed.edge_ordered here
  simp [Edge.joining] at ordered

private theorem joins_of_isChain {cycle : List Nat} (chain : cycle.IsChain (graph.Joins loop))
    (closed : ∀ v ∈ cycle.getLast?, ∀ w ∈ cycle.head?, graph.Joins loop v w)
    (isSide : side ∈ sides cycle) : ∃ e ∈ loop, graph.edges[e]? = some side := by
  obtain ⟨i, v, w, here, next, rfl⟩ := mem_sides.mp isSide
  obtain ⟨inside, rfl⟩ := List.getElem?_eq_some_iff.mp here
  unfold placeAfter at next
  split at next
  next further =>
    obtain ⟨_, rfl⟩ := List.getElem?_eq_some_iff.mp next
    exact List.isChain_iff_getElem.mp chain i further
  next last =>
    refine closed _ ?_ w (by rw [List.head?_eq_getElem?, next]; rfl)
    rw [List.getLast?_eq_getElem?, show cycle.length - 1 = i by omega, here]
    rfl

structure Trail (graph : Graph) (loop vertices : List Nat) : Prop where
  simple : vertices.Nodup
  chain : vertices.IsChain (graph.Joins loop)
  known : ∀ v ∈ vertices, v < graph.vertexCount

theorem Trail.length_le {vertices : List Nat} (trail : graph.Trail loop vertices) :
    vertices.length ≤ graph.vertexCount := by
  have within : vertices ⊆ List.range graph.vertexCount := fun v member =>
    List.mem_range.mpr (trail.known v member)
  have few := (List.subperm_of_subset trail.simple within).length_le
  rwa [List.length_range] at few

section TwoAtEach

variable (wellFormed : graph.WellFormed) (distinct : loop.Nodup)
  (two : ∀ e ∈ loop, ∀ v ∈ graph.endsOf e, graph.degree loop v = 2)
include wellFormed distinct two

/-- Where two edges meet at every vertex, a trail closes or goes on. -/
theorem Trail.closes_or_extends {rest : List Nat} (trail : graph.Trail loop (v :: w :: rest)) :
    (∃ cycle : List Nat, cycle.Nodup ∧ 3 ≤ cycle.length ∧
      ∀ side ∈ sides cycle, ∃ e ∈ loop, graph.edges[e]? = some side) ∨
        ∃ u, graph.Trail loop (u :: v :: w :: rest) := by
  obtain ⟨u, different, onward⟩ := exists_other_joins wellFormed distinct two
    (List.isChain_cons_cons.mp trail.chain).1
  by_cases met : u ∈ rest
  · -- The trail has come back to one of its own vertices.
    obtain ⟨between, beyond, rfl⟩ := List.append_of_mem met
    have start : v :: w :: between ++ [u] <+: v :: w :: (between ++ u :: beyond) := by
      simp [List.prefix_append_right_inj]
    have chain := List.IsChain.prefix trail.chain start
    refine .inl ⟨_, trail.simple.sublist start.sublist, by simp, fun side isSide => ?_⟩
    refine joins_of_isChain chain ?_ isSide
    rw [List.getLast?_concat]
    simpa using onward.symm
  · have new : u ∉ v :: w :: rest := by
      simp only [List.mem_cons, not_or]
      exact ⟨(onward.ne wellFormed).symm, different, met⟩
    exact .inr ⟨u, List.nodup_cons.mpr ⟨new, trail.simple⟩,
      List.isChain_cons_cons.mpr ⟨onward.symm, trail.chain⟩,
      List.forall_mem_cons.mpr ⟨onward.symm.lt_vertexCount wellFormed, trail.known⟩⟩

private theorem Trail.exists_cycle {rest : List Nat} (room : Nat)
    (enough : graph.vertexCount ≤ rest.length + 2 + room)
    (trail : graph.Trail loop (v :: w :: rest)) :
    ∃ cycle : List Nat, cycle.Nodup ∧ 3 ≤ cycle.length ∧
      ∀ side ∈ sides cycle, ∃ e ∈ loop, graph.edges[e]? = some side := by
  induction room generalizing v w rest with
  | zero =>
    obtain closed | ⟨u, longer⟩ := trail.closes_or_extends wellFormed distinct two
    · exact closed
    · have fits := longer.length_le
      simp only [List.length_cons] at fits
      omega
  | succ room ih =>
    obtain closed | ⟨u, longer⟩ := trail.closes_or_extends wellFormed distinct two
    · exact closed
    · refine ih ?_ longer
      rw [List.length_cons]
      omega

end TwoAtEach

section Along

variable {cycle : List Nat} (ring : graph.Ring loop) (simple : cycle.Nodup) (long : 3 ≤ cycle.length)
  (along : ∀ side ∈ sides cycle, ∃ e ∈ loop, graph.edges[e]? = some side)
include ring simple long along

/-- At its own vertices a cycle along a loop has both edges of the loop. -/
theorem Ring.side_of_meet (onCycle : v ∈ cycle) (member : f ∈ loop) (ends : v ∈ graph.endsOf f) :
    ∃ side ∈ sides cycle, graph.edges[f]? = some side := by
  obtain ⟨s, t, different, pair⟩ := filter_sides simple long onCycle
  have side (x : Edge) (h : x = s ∨ x = t) : ∃ e ∈ loop, graph.edges[e]? = some x ∧
      x ∈ sides cycle ∧ v ∈ graph.endsOf e := by
    have listed : x ∈ (sides cycle).filter (v ∈ ·.ends) := by rw [pair]; simpa using h
    obtain ⟨isSide, touches⟩ := List.mem_filter.mp listed
    obtain ⟨e, onLoop, here⟩ := along x isSide
    exact ⟨e, onLoop, here, isSide, mem_endsOf.mpr ⟨x, here, of_decide_eq_true touches⟩⟩
  obtain ⟨e₁, member₁, here₁, isSide₁, ends₁⟩ := side s (.inl rfl)
  obtain ⟨e₂, member₂, here₂, isSide₂, ends₂⟩ := side t (.inr rfl)
  have unlike : e₁ ≠ e₂ := by
    rintro rfl
    exact different (Option.some.inj (here₁.symm.trans here₂))
  have meet := filter_edgesAt_eq ring.distinct (ring.two f member v ends) unlike member₁ member₂
    ends₁ ends₂
  have atVertex : f ∈ (graph.edgesAt v).filter (· ∈ loop) :=
    List.mem_filter.mpr ⟨mem_edgesAt_of_mem_endsOf ends, decide_eq_true member⟩
  have either : f = e₁ ∨ f = e₂ := by
    obtain meet | meet := meet <;> rw [meet] at atVertex <;> simpa [or_comm] using atVertex
  rcases either with rfl | rfl
  · exact ⟨s, isSide₁, here₁⟩
  · exact ⟨t, isSide₂, here₂⟩

/-- A cycle along a loop cannot be left and so is all of the loop. -/
theorem Ring.traces_of_sides (wellFormed : graph.WellFormed) : graph.Traces loop cycle := by
  have covered : ∀ e ∈ loop, ∃ side ∈ sides cycle, graph.edges[e]? = some side := by
    obtain ⟨first, isFirst⟩ : ∃ side, side ∈ sides cycle :=
      List.exists_mem_of_length_pos (by rw [length_sides]; omega)
    obtain ⟨start, onLoop, here⟩ := along first isFirst
    refine ring.subset_of_closed onLoop ⟨first, isFirst, here⟩ ?_
    rintro e member ⟨side, isSide, here⟩ f there v ends ends'
    obtain ⟨edge, same, touches⟩ := mem_endsOf.mp ends
    cases here.symm.trans same
    exact ring.side_of_meet simple long along (mem_of_mem_sides isSide touches) there ends'
  refine ⟨simple, long, fun side isSide => ?_, fun e => ⟨covered e, ?_⟩⟩
  · obtain ⟨e, _, here⟩ := along side isSide
    exact ⟨e, here⟩
  · rintro ⟨side, isSide, here⟩
    obtain ⟨f, member, there⟩ := along side isSide
    exact wellFormed.distinct f e side there here ▸ member

end Along

theorem Ring.exists_traces (wellFormed : graph.WellFormed) (ring : graph.Ring loop) :
    ∃ cycle, graph.Traces loop cycle := by
  obtain ⟨e, member⟩ : ∃ e, e ∈ loop := List.exists_mem_of_length_pos (by have := ring.long; omega)
  obtain ⟨edge, here⟩ : ∃ edge, graph.edges[e]? = some edge :=
    ⟨_, Array.getElem?_eq_getElem (ring.lt_size member)⟩
  obtain ⟨w, joined⟩ := exists_joining wellFormed (mem_endsOf.mpr ⟨_, here, List.mem_cons_self ..⟩)
  have joins : graph.Joins loop edge.start w := ⟨e, member, joined⟩
  have trail : graph.Trail loop [edge.start, w] := by
    refine ⟨?_, List.isChain_pair.mpr joins, ?_⟩
    · simpa using joins.ne wellFormed
    · simpa using ⟨joins.lt_vertexCount wellFormed, joins.symm.lt_vertexCount wellFormed⟩
  obtain ⟨cycle, simple, long, along⟩ :=
    trail.exists_cycle wellFormed ring.distinct ring.two graph.vertexCount (Nat.le_add_left _ _)
  exact ⟨cycle, ring.traces_of_sides simple long along wellFormed⟩

namespace Traces

variable {cycle : List Nat} (wellFormed : graph.WellFormed) (traces : graph.Traces loop cycle)
include wellFormed traces

private theorem perm_sides (distinct : loop.Nodup) :
    (loop.filterMap (graph.edges[·]?)).Perm (sides cycle) := by
  rw [List.perm_ext_iff_of_nodup (nodup_filterMap_edges wellFormed distinct)
    (nodup_sides traces.distinct traces.long)]
  intro side
  rw [List.mem_filterMap]
  constructor
  · rintro ⟨e, member, here⟩
    obtain ⟨other, isSide, there⟩ := (traces.mem_iff e).mp member
    cases here.symm.trans there
    exact isSide
  · intro isSide
    obtain ⟨e, here⟩ := traces.whole side isSide
    exact ⟨e, (traces.mem_iff e).mpr ⟨side, isSide, here⟩, here⟩

private theorem degree_eq (distinct : loop.Nodup) (v : Nat) : graph.degree loop v = 2 * cycle.count v := by
  rw [← countP_sides traces.distinct (by have := traces.long; omega),
    ← (traces.perm_sides wellFormed distinct).countP_eq, degree_eq_countP]

private theorem linked_after (distinct : loop.Nodup) {i : Nat} {side next : Edge}
    (here : (sides cycle)[i]? = some side) (there : (sides cycle)[i + 1]? = some next)
    (numbered : graph.edges[e]? = some side) (numbered' : graph.edges[f]? = some next) :
    graph.Linked (· ∈ loop) e f := by
  have different : e ≠ f := by
    rintro rfl
    cases numbered.symm.trans numbered'
    have inside := (List.getElem?_eq_some_iff.mp here).1
    have := (List.getElem?_inj inside (nodup_sides traces.distinct traces.long)).mp
      (here.trans there.symm)
    omega
  have member := (traces.mem_iff e).mpr ⟨side, List.mem_of_getElem? here, numbered⟩
  have member' := (traces.mem_iff f).mpr ⟨next, List.mem_of_getElem? there, numbered'⟩
  obtain ⟨u, v, _, second, rfl⟩ := getElem?_sides.mp here
  obtain ⟨v', w, second', _, rfl⟩ := getElem?_sides.mp there
  have further := (List.getElem?_eq_some_iff.mp second').1
  rw [placeAfter, if_pos further] at second
  cases second.symm.trans second'
  refine ⟨v, filter_edgesAt_eq distinct ?_ different member member'
    (mem_endsOf.mpr ⟨_, numbered, by simp⟩) (mem_endsOf.mpr ⟨_, numbered', by simp⟩)⟩
  rw [traces.degree_eq wellFormed distinct,
    List.count_eq_one_of_mem traces.distinct (List.mem_of_getElem? second)]

private theorem leads_from_first (distinct : loop.Nodup) {first : Edge}
    (start : (sides cycle)[0]? = some first) (numbered : graph.edges[e]? = some first) (i : Nat)
    {side : Edge} (here : (sides cycle)[i]? = some side) (numbered' : graph.edges[f]? = some side) :
    Relation.ReflTransGen (graph.Linked (· ∈ loop)) e f := by
  induction i generalizing f side with
  | zero =>
    cases start.symm.trans here
    exact wellFormed.distinct e f _ numbered numbered' ▸ .refl
  | succ i ih =>
    have inside := (List.getElem?_eq_some_iff.mp here).1
    obtain ⟨before, there⟩ : ∃ before, (sides cycle)[i]? = some before :=
      ⟨_, List.getElem?_eq_getElem (by omega)⟩
    obtain ⟨g, numbered''⟩ := traces.whole before (List.mem_of_getElem? there)
    exact (ih there numbered'').tail
      (traces.linked_after wellFormed distinct there here numbered'' numbered')

theorem ring (distinct : loop.Nodup) : graph.Ring loop := by
  have long := traces.long
  refine ⟨distinct, ?_, fun e member v ends => ?_, fun e here f there => ?_⟩
  · have same := (traces.perm_sides wellFormed distinct).length_eq
    have fewer := List.length_filterMap_le (graph.edges[·]?) loop
    rw [length_sides] at same
    omega
  · obtain ⟨side, isSide, numbered⟩ := (traces.mem_iff e).mp member
    obtain ⟨edge, same, touches⟩ := mem_endsOf.mp ends
    cases numbered.symm.trans same
    rw [traces.degree_eq wellFormed distinct,
      List.count_eq_one_of_mem traces.distinct (mem_of_mem_sides isSide touches)]
  · obtain ⟨first, start⟩ : ∃ first, (sides cycle)[0]? = some first :=
      ⟨_, List.getElem?_eq_getElem (by rw [length_sides]; omega)⟩
    obtain ⟨g, numbered⟩ := traces.whole first (List.mem_of_getElem? start)
    have leads {x : Nat} (member : x ∈ loop) :
        Relation.ReflTransGen (graph.Linked (· ∈ loop)) g x := by
      obtain ⟨side, isSide, numbered'⟩ := (traces.mem_iff x).mp member
      obtain ⟨i, place⟩ := List.mem_iff_getElem?.mp isSide
      exact traces.leads_from_first wellFormed distinct start numbered i place numbered'
    exact (symm (leads here)).trans (leads there)

end Traces

theorem isLoop_iff (wellFormed : graph.WellFormed) {edges : List Nat} :
    graph.isLoop edges = true ↔ ∃ cycle, graph.Traces edges cycle := by
  rw [isLoop_iff_ring]
  constructor
  · intro ring
    obtain ⟨cycle, traces⟩ := ring.exists_traces wellFormed
    exact ⟨cycle, traces.distinct, traces.long, traces.whole,
      fun e => List.mem_eraseDups.symm.trans (traces.mem_iff e)⟩
  · rintro ⟨cycle, traces⟩
    have same : graph.Traces edges.eraseDups cycle :=
      ⟨traces.distinct, traces.long, traces.whole,
        fun e => List.mem_eraseDups.trans (traces.mem_iff e)⟩
    exact same.ring wellFormed (nodup_eraseDups edges)

end PencilPuzzle.Graph
