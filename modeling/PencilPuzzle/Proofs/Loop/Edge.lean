import PencilPuzzle.Loop.Puzzle
import PencilPuzzle.Proofs.Graph.Loop
import PencilPuzzle.Proofs.Search.Completeness
import PencilPuzzle.Proofs.State.Shape

/-!
# Edges and solutions of a loop puzzle

A solution marks the sides of one cycle of vertices and meets every hint. What a state already says
about the edges agrees with each solution that it admits: what is marked belongs to the loop of the
solution, what is disabled does not, and the loop runs over edges that are marked or open.
-/

namespace PencilPuzzle.Loop

open State PencilPuzzle.Graph

variable {graph : Graph} {s : State} {a : Nat → Nat} {e f v : Nat}

/-! ### Solutions -/

def loopOf (graph : Graph) (a : Nat → Nat) : List Nat := graph.edgeIds.filter (a · = Mark.marked.value)

theorem mem_loopOf : e ∈ loopOf graph a ↔ e < graph.edges.size ∧ a e = Mark.marked.value := by
  rw [loopOf, List.mem_filter, edgeIds, List.mem_range, decide_eq_true_eq]

theorem nodup_loopOf (graph : Graph) (a : Nat → Nat) : (loopOf graph a).Nodup :=
  List.nodup_range.filter _

/-- The marked edges are the sides of one cycle, and every hinted face has as many of them as its
hint says. -/
structure Solution (graph : Graph) (a : Nat → Nat) : Prop where
  loop : ∃ cycle, graph.Traces (loopOf graph a) cycle
  hints : ∀ f hint, graph.hintOf f = some hint →
    ((graph.edgesOf f).countP (· ∈ loopOf graph a) : Int) = hint

theorem mem_faceIds_of_hintOf {f : Nat} {hint : Int} (given : graph.hintOf f = some hint) :
    f ∈ graph.faceIds := by
  obtain ⟨face, here, _⟩ := Option.bind_eq_some_iff.mp given
  exact List.mem_range.mpr (Array.getElem?_eq_some_iff.mp here).1

theorem Solution.ring (wellFormed : graph.WellFormed) (solution : Solution graph a) :
    graph.Ring (loopOf graph a) := by
  obtain ⟨cycle, traces⟩ := solution.loop
  exact traces.ring wellFormed (nodup_loopOf graph a)

/-! ### States -/

theorem frame_initial (graph : Graph) :
    (initial graph).frame = ⟨2, graph.edges.size, (initial graph).constraints⟩ := by
  have count : (initial graph).count = graph.edges.size := count_blank _ 2
  rw [State.frame, count]
  rfl

theorem settled_initial (graph : Graph) : (initial graph).Settled :=
  (settled_blank graph.edges.size 2).withConstraints _

theorem count_eq (shape : s.frame = (initial graph).frame) : s.count = graph.edges.size := by
  have count := congrArg Frame.count shape
  rw [frame_initial] at count
  exact count

theorem shaped_initial (wellFormed : graph.WellFormed) :
    (initial graph).Shaped 2 graph.edges.size where
  size_eq := rfl
  count_eq := count_eq rfl
  linked entry registered e member := by
    rcases List.mem_append.mp registered with face | vertex
    · obtain ⟨f, _, rfl⟩ := List.mem_map.mp face
      exact wellFormed.lt_size member
    · obtain ⟨v, _, found⟩ := List.mem_filterMap.mp vertex
      split at found
      · exact nomatch found
      next =>
        cases found
        exact (mem_edgesAt.mp member).1

theorem size_eq (shape : s.frame = (initial graph).frame) : s.size = 2 :=
  congrArg Frame.size shape

theorem isMarked_iff : isMarked s e = true ↔ s.candidates e = [Mark.marked.value] := by
  rw [isMarked, decide_eq_true_eq, value?_eq_some]

theorem isDisabled_iff : isDisabled s e = true ↔ s.candidates e = [Mark.disabled.value] := by
  rw [isDisabled, decide_eq_true_eq, value?_eq_some]

theorem isOpen_iff : isOpen s e = true ↔ 1 < (s.candidates e).length := by
  rw [isOpen, decide_eq_true_eq]
  rfl

theorem isEnabled_iff : isEnabled s e = true ↔ Mark.marked.value ∈ s.candidates e := by
  rw [isEnabled, hasCandidate, decide_eq_true_eq]

theorem lt_count_of_isEnabled (enabled : isEnabled s e = true) : e < s.count :=
  lt_count_of_mem_domain (isEnabled_iff.mp enabled)

theorem lt_count_of_isOpen (undecided : isOpen s e = true) : e < s.count := by
  obtain ⟨x, candidate⟩ := List.exists_mem_of_length_pos (Nat.lt_of_succ_lt (isOpen_iff.mp undecided))
  exact lt_count_of_mem_domain candidate

theorem isMarked_eq_false_of_isOpen (undecided : isOpen s e = true) : isMarked s e = false := by
  have several := isOpen_iff.mp undecided
  by_contra marked
  rw [isMarked_iff.mp (by simpa using marked)] at several
  exact absurd several (by simp)

/-- What is known of the edges is so on the loop. -/
structure Agrees (s : State) (loop : List Nat) : Prop where
  marked : ∀ e, isMarked s e = true → e ∈ loop
  disabled : ∀ e, isDisabled s e = true → e ∉ loop
  enabled : ∀ e ∈ loop, isEnabled s e = true

theorem agrees_loopOf (count : s.count = graph.edges.size) (admits : s.Admits a) :
    Agrees s (loopOf graph a) := by
  have taken {e x : Nat} (alone : s.candidates e = [x]) : e < graph.edges.size ∧ a e = x := by
    have inside : e < s.count :=
      lt_count_of_mem_domain (show x ∈ s.candidates e by rw [alone]; exact List.mem_cons_self ..)
    have listed : a e ∈ s.candidates e := admits e inside
    rw [alone, List.mem_singleton] at listed
    exact ⟨count ▸ inside, listed⟩
  refine ⟨fun e marked => ?_, fun e disabled member => ?_, fun e member => ?_⟩
  · exact mem_loopOf.mpr (taken (isMarked_iff.mp marked))
  · have here := (taken (isDisabled_iff.mp disabled)).2
    rw [(mem_loopOf.mp member).2] at here
    exact absurd here (by decide)
  · obtain ⟨inside, here⟩ := mem_loopOf.mp member
    rw [isEnabled_iff, ← here]
    exact admits e (count ▸ inside)

theorem isMarked_or_isOpen (enabled : isEnabled s e = true) :
    isMarked s e = true ∨ isOpen s e = true := by
  rw [isMarked_iff, isOpen_iff]
  have listed := isEnabled_iff.mp enabled
  match candidates : s.candidates e with
  | [] =>
    rw [candidates] at listed
    exact absurd listed List.not_mem_nil
  | [x] =>
    rw [candidates, List.mem_singleton] at listed
    exact .inl (by rw [listed])
  | _ :: _ :: _ => exact .inr (by simp)

/-! ### Decisions -/

theorem mem_map_open {edges : List Nat} {decision : Nat → Update} {update : Update}
    (h : update ∈ (edges.filter (isOpen s)).map decision) :
    ∃ e ∈ edges, isOpen s e = true ∧ update = decision e := by
  obtain ⟨e, candidate, rfl⟩ := List.mem_map.mp h
  obtain ⟨member, undecided⟩ := List.mem_filter.mp candidate
  exact ⟨e, member, undecided, rfl⟩

def Decides (s : State) (update : Update) : Prop :=
  ∃ e < s.count, update = mark e ∨ update = disable e

theorem decides_mark (undecided : isOpen s e = true) : Decides s (mark e) :=
  ⟨e, lt_count_of_isOpen undecided, .inl rfl⟩

theorem decides_disable (undecided : isOpen s e = true) : Decides s (disable e) :=
  ⟨e, lt_count_of_isOpen undecided, .inr rfl⟩

/-- The update decides an edge as it is on the loop. -/
def DecidesFor (s : State) (loop : List Nat) (update : Update) : Prop :=
  ∃ e < s.count, update = mark e ∧ e ∈ loop ∨ update = disable e ∧ e ∉ loop

theorem DecidesFor.spares (count : s.count = graph.edges.size) {update : Update}
    (decides : DecidesFor s (loopOf graph a) update) : update.Spares a := by
  obtain ⟨e, inside, ⟨rfl, member⟩ | ⟨rfl, outside⟩⟩ := decides
  · intro v var removed
    cases Int.ofNat.inj var
    rw [(mem_loopOf.mp member).2] at removed
    simp [mark, Mark.value] at removed
  · intro v var removed
    cases Int.ofNat.inj var
    refine outside (mem_loopOf.mpr ⟨count ▸ inside, ?_⟩)
    simpa [disable, Mark.value] using removed

theorem Decides.inRange (values : s.size = 2) {update : Update} (decides : Decides s update) :
    update.InRange s.frame := by
  obtain ⟨e, inside, either⟩ := decides
  have both : 0 < s.size ∧ 1 < s.size := by omega
  rcases either with rfl | rfl
  · exact ⟨⟨e, inside, rfl⟩, fun reference member => ⟨1, both.2, List.mem_singleton.mp member⟩⟩
  · exact ⟨⟨e, inside, rfl⟩, fun reference member => ⟨0, both.1, List.mem_singleton.mp member⟩⟩

/-- A rule that decides edges as they are on the loop spares the solution. -/
theorem spares_of_decidesFor {rule : Rule} (count : s.count = graph.edges.size)
    (fine : NoContradiction (rule.deduce s))
    (decides : ∀ updates, rule.deduce s = .ok updates →
      ∀ update ∈ updates, DecidesFor s (loopOf graph a) update) : rule.Spares a s :=
  ⟨fine, fun updates h update member => (decides updates h update member).spares count⟩

theorem wellBehaved_of_decides {rule : Rule} {frame : Frame} (values : frame.size = 2)
    (only : ∀ s, OnlyContradicts (rule.deduce s))
    (decides : ∀ s updates, rule.deduce s = .ok updates → ∀ update ∈ updates, Decides s update) :
    rule.WellBehaved frame := by
  rintro s rfl
  exact ⟨only s, fun updates h update member => (decides s updates h update member).inRange values⟩

end PencilPuzzle.Loop
