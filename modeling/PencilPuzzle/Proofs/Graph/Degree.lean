import PencilPuzzle.Proofs.Graph.Loop

/-!
# Members that meet in pairs

Where no more than two members meet at a vertex, nothing can join a loop of members from outside: the
loop is the path of each of its edges. And where a path never comes to a vertex with a single member,
it is a loop. Both come from the same local fact, that at the vertices of such a part no members meet
but those of the part, so that links within the part are links among all members.
-/

namespace PencilPuzzle.Graph

variable {graph : Graph} {isMember : Nat → Bool} {part loop : List Nat} {e f v w : Nat}

private theorem filter_eq_filter_of_length_le {α : Type} {few many : α → Bool} {list : List α}
    (weaker : ∀ a, few a = true → many a = true)
    (enough : (list.filter many).length ≤ (list.filter few).length) :
    list.filter few = list.filter many :=
  (List.monotone_filter_right list weaker).eq_of_length_le enough

/-! ### Parts cut off from all other members -/

/-- At the vertices of the part no other members meet. -/
def CutOff (graph : Graph) (isMember : Nat → Bool) (part : List Nat) : Prop :=
  ∀ e ∈ part, ∀ v ∈ graph.endsOf e, (graph.edgesAt v).filter (· ∈ part) = (graph.edgesAt v).filter isMember

namespace CutOff

variable (cutOff : graph.CutOff isMember part)
include cutOff

theorem linked_iff (member : e ∈ part) : graph.Linked (· ∈ part) e f ↔ graph.Linked isMember e f := by
  refine exists_congr fun v => ?_
  by_cases ends : v ∈ graph.endsOf e
  · rw [cutOff e member v ends]
  · -- Links of an edge are found at its ends alone.
    have absent (test : Nat → Bool) (list : List Nat) (here : e ∈ list) :
        (graph.edgesAt v).filter test ≠ list := by
      rintro rfl
      exact ends (mem_edgesAt.mp (List.mem_filter.mp here).1).2
    exact iff_of_false (by simp [absent]) (by simp [absent])

theorem mem_of_linked (member : e ∈ part) (linked : graph.Linked isMember e f) : f ∈ part :=
  of_decide_eq_true ((cutOff.linked_iff member).mpr linked).isMember_right

theorem leads_iff (member : e ∈ part) :
    Relation.ReflTransGen (graph.Linked (· ∈ part)) e f ↔
      Relation.ReflTransGen (graph.Linked isMember) e f := by
  constructor
  · intro leads
    suffices both : f ∈ part ∧ Relation.ReflTransGen (graph.Linked isMember) e f from both.2
    induction leads with
    | refl => exact ⟨member, .refl⟩
    | tail _ linked ih =>
      have onward := (cutOff.linked_iff ih.1).mp linked
      exact ⟨cutOff.mem_of_linked ih.1 onward, ih.2.tail onward⟩
  · intro leads
    suffices both : f ∈ part ∧ Relation.ReflTransGen (graph.Linked (· ∈ part)) e f from both.2
    induction leads with
    | refl => exact ⟨member, .refl⟩
    | tail _ linked ih =>
      exact ⟨cutOff.mem_of_linked ih.1 linked, ih.2.tail ((cutOff.linked_iff ih.1).mpr linked)⟩

end CutOff

section AtMostTwo

variable (few : ∀ v, (graph.edgesAt v).countP isMember ≤ 2)
include few

/-! ### Loops of members -/

private theorem Ring.cutOff (ring : graph.Ring loop) (members : ∀ e ∈ loop, isMember e = true) :
    graph.CutOff isMember loop := by
  intro e member v ends
  have two := ring.two e member v ends
  rw [← countP_edgesAt ring.distinct, List.countP_eq_length_filter] at two
  refine filter_eq_filter_of_length_le (fun x onLoop => members x (of_decide_eq_true onLoop)) ?_
  rw [two, ← List.countP_eq_length_filter]
  exact few v

theorem Ring.mem_path_iff (ring : graph.Ring loop) (members : ∀ e ∈ loop, isMember e = true)
    (member : e ∈ loop) : f ∈ graph.path isMember e ↔ f ∈ loop := by
  rw [mem_path, ← (ring.cutOff few members).leads_iff member, ← mem_path]
  constructor
  · intro onPath
    exact of_decide_eq_true (isMember_of_mem_path (decide_eq_true member) onPath)
  · exact fun there => mem_path.mpr (ring.connected e member f there)

/-! ### Paths that close -/

variable (paired : ∀ v, (graph.edgesAt v).countP isMember ≠ 1)
include paired

private theorem cutOff_path (member : isMember e = true) :
    graph.CutOff isMember (graph.path isMember e) := by
  intro f onPath v ends
  have isMember_f := isMember_of_mem_path member onPath
  have here : f ∈ (graph.edgesAt v).filter isMember :=
    List.mem_filter.mpr ⟨mem_edgesAt_of_mem_endsOf ends, isMember_f⟩
  have two : ((graph.edgesAt v).filter isMember).length = 2 := by
    have some := List.length_pos_of_mem here
    have most := few v
    have several := paired v
    rw [List.countP_eq_length_filter] at most several
    omega
  obtain ⟨x, y, pair⟩ := List.length_eq_two.mp two
  have onward : ∀ g ∈ (graph.edgesAt v).filter isMember, g ∈ graph.path isMember e := by
    intro g there
    have linked : g = f ∨ graph.Linked isMember f g := by
      rw [pair] at here there
      simp only [List.mem_cons, List.not_mem_nil, or_false] at here there
      rcases here with rfl | rfl <;> rcases there with rfl | rfl
      · exact .inl rfl
      · exact .inr ⟨v, .inl pair⟩
      · exact .inr ⟨v, .inr pair⟩
      · exact .inl rfl
    rcases linked with rfl | linked
    · exact onPath
    · exact mem_path.mpr ((mem_path.mp onPath).tail linked)
  refine List.filter_congr fun g atVertex => ?_
  rw [Bool.eq_iff_iff, decide_eq_true_eq]
  exact ⟨isMember_of_mem_path member, fun isMember_g => onward g (List.mem_filter.mpr ⟨atVertex, isMember_g⟩)⟩

/-- Two edges of the path meet at each of its vertices. -/
theorem degree_path (member : isMember e = true) (onPath : f ∈ graph.path isMember e)
    (ends : v ∈ graph.endsOf f) : graph.degree (graph.path isMember e) v = 2 := by
  have some : 0 < (graph.edgesAt v).countP isMember :=
    List.countP_pos_iff.mpr ⟨f, mem_edgesAt_of_mem_endsOf ends, isMember_of_mem_path member onPath⟩
  have most := few v
  have several := paired v
  rw [← countP_edgesAt (graph.nodup_path isMember e), List.countP_eq_length_filter,
    cutOff_path few paired member f onPath v ends, ← List.countP_eq_length_filter]
  omega

/-- Where members never end, the path of a member is a loop. -/
theorem ring_path (wellFormed : graph.WellFormed) (member : isMember e = true)
    (inside : e < graph.edges.size) : graph.Ring (graph.path isMember e) := by
  have distinct := graph.nodup_path isMember e
  have two : ∀ f ∈ graph.path isMember e, ∀ v ∈ graph.endsOf f,
      graph.degree (graph.path isMember e) v = 2 :=
    fun f onPath v ends => degree_path few paired member onPath ends
  refine ⟨distinct, ?long, two, fun f here g there => ?connected⟩
  case connected =>
    have back : Relation.ReflTransGen (graph.Linked isMember) f e := symm (mem_path.mp here)
    exact ((cutOff_path few paired member).leads_iff here).mpr (back.trans (mem_path.mp there))
  case long =>
    -- The edge goes on at both of its ends, and not by the same edge, for that would join the same vertices.
    obtain ⟨edge, here⟩ : ∃ edge, graph.edges[e]? = some edge := ⟨_, Array.getElem?_eq_getElem inside⟩
    obtain ⟨w, joined⟩ := exists_joining wellFormed (mem_endsOf.mpr ⟨_, here, List.mem_cons_self ..⟩)
    have joins : graph.Joins (graph.path isMember e) edge.start w := ⟨e, graph.self_mem_path _ e, joined⟩
    obtain ⟨u, different, first, onPath, joined₁⟩ := exists_other_joins wellFormed distinct two joins
    obtain ⟨u', different', second, onPath', joined₂⟩ := exists_other_joins wellFormed distinct two joins.symm
    have apart := joins.ne wellFormed
    have three : [e, first, second].Nodup := by
      have unlike {x y : Nat} {side side' : Edge} (left : graph.edges[x]? = some side)
          (right : graph.edges[y]? = some side') (differ : side ≠ side') : x ≠ y := by
        rintro rfl
        exact differ (Option.some.inj (left.symm.trans right))
      have one := unlike joined joined₁ (by rw [Ne, Edge.joining_eq_joining]; omega)
      have other := unlike joined joined₂ (by rw [Ne, Edge.joining_eq_joining]; omega)
      have last := unlike joined₁ joined₂ (by rw [Ne, Edge.joining_eq_joining]; omega)
      simp [one, other, last]
    exact (List.subperm_of_subset three (by simp [onPath, onPath', graph.self_mem_path])).length_le

end AtMostTwo

end PencilPuzzle.Graph
