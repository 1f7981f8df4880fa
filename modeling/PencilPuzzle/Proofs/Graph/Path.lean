import Mathlib.Data.List.Nodup
import Mathlib.Logic.Relation
import PencilPuzzle.Graph.Path

/-!
# Paths as classes of linked edges

Two members are linked when they are the only ones to meet at some vertex. The path through an edge
is exactly what links lead to from it, each edge once: the walk has room for every edge and for the
two it may put off, so it never stops before it has nothing left to visit. Links go both ways, so
two paths are the same set or have nothing in common.
-/

namespace PencilPuzzle

theorem countP_lt_countP {α : Type} {p q : α → Bool} {list : List α} {a : α}
    (weaker : ∀ x ∈ list, p x = true → q x = true) (member : a ∈ list) (passes : q a = true)
    (fails : p a = false) : list.countP p < list.countP q := by
  obtain ⟨before, after, rfl⟩ := List.append_of_mem member
  have first := List.countP_mono_left fun x here => weaker x (List.mem_append_left _ here)
  have second := List.countP_mono_left fun x here =>
    weaker x (List.mem_append_right _ (List.mem_cons_of_mem a here))
  rw [List.countP_append, List.countP_append, List.countP_cons_of_neg (by simp [fails]),
    List.countP_cons_of_pos passes]
  omega

namespace Graph

variable {graph : Graph} {isMember : Nat → Bool} {e f v : Nat}

/-! ### Edges at a vertex -/

theorem mem_edgesAt : e ∈ graph.edgesAt v ↔ e < graph.edges.size ∧ v ∈ graph.endsOf e := by
  rw [edgesAt_eq, List.mem_filter, edgeIds, List.mem_range, decide_eq_true_eq]

theorem mem_edgesAt_of_mem_endsOf (h : v ∈ graph.endsOf e) : e ∈ graph.edgesAt v := by
  refine mem_edgesAt.mpr ⟨Nat.lt_of_not_le fun beyond => ?_, h⟩
  rw [endsOf, Array.getElem?_eq_none beyond] at h
  exact absurd h List.not_mem_nil

theorem nodup_edgesAt (graph : Graph) (v : Nat) : (graph.edgesAt v).Nodup := by
  rw [edgesAt_eq]
  exact List.nodup_range.filter _

/-! ### Links -/

/-- The two edges are the only members that meet at some vertex. -/
def Linked (graph : Graph) (isMember : Nat → Bool) (e f : Nat) : Prop :=
  ∃ v, (graph.edgesAt v).filter isMember = [e, f] ∨ (graph.edgesAt v).filter isMember = [f, e]

theorem Linked.symm (linked : graph.Linked isMember e f) : graph.Linked isMember f e := by
  obtain ⟨v, meet⟩ := linked
  exact ⟨v, meet.symm⟩

instance : Std.Symm (graph.Linked isMember) := ⟨fun _ _ => Linked.symm⟩

theorem Linked.meet (linked : graph.Linked isMember e f) :
    ∃ v, e ∈ (graph.edgesAt v).filter isMember ∧ f ∈ (graph.edgesAt v).filter isMember := by
  obtain ⟨v, meet | meet⟩ := linked
  all_goals
    refine ⟨v, ?_⟩
    rw [meet]
    simp

theorem Linked.isMember_right (linked : graph.Linked isMember e f) : isMember f = true := by
  obtain ⟨v, _, there⟩ := linked.meet
  exact (List.mem_filter.mp there).2

theorem Linked.share (linked : graph.Linked isMember e f) :
    ∃ v, v ∈ graph.endsOf e ∧ v ∈ graph.endsOf f := by
  obtain ⟨v, here, there⟩ := linked.meet
  exact ⟨v, (mem_edgesAt.mp (List.mem_filter.mp here).1).2,
    (mem_edgesAt.mp (List.mem_filter.mp there).1).2⟩

private theorem continuation_eq_some :
    graph.continuation isMember e v = some f ↔
      (graph.edgesAt v).filter isMember = [e, f] ∨ (graph.edgesAt v).filter isMember = [f, e] := by
  have distinct := (graph.nodup_edgesAt v).filter isMember
  unfold continuation
  split
  next a b meet =>
    rw [meet] at distinct ⊢
    have different : a ≠ b := by simpa using distinct
    by_cases first : a = e
    · subst first
      simp [different.symm]
    · by_cases second : b = e
      · subst second
        simp [different]
      · simp [first, second]
  next other =>
    refine iff_of_false (by simp) ?_
    rintro (meet | meet)
    · exact other e f meet
    · exact other f e meet

theorem mem_continuations : f ∈ graph.continuations isMember e ↔ graph.Linked isMember e f := by
  rw [continuations, List.mem_filterMap]
  constructor
  · rintro ⟨v, _, continues⟩
    exact ⟨v, continuation_eq_some.mp continues⟩
  · rintro ⟨v, meet⟩
    have listed : e ∈ (graph.edgesAt v).filter isMember := by
      obtain meet | meet := meet <;> rw [meet] <;> simp
    exact ⟨v, (mem_edgesAt.mp (List.mem_filter.mp listed).1).2, continuation_eq_some.mpr meet⟩

theorem length_continuations_le (graph : Graph) (isMember : Nat → Bool) (e : Nat) :
    (graph.continuations isMember e).length ≤ 2 := by
  have ends : (graph.endsOf e).length ≤ 2 := by
    rw [endsOf]
    cases graph.edges[e]? <;> simp [Edge.ends]
  exact Nat.le_trans (List.length_filterMap_le _ _) ends

private theorem continuations_of_size_le (beyond : graph.edges.size ≤ e) :
    graph.continuations isMember e = [] := by
  rw [continuations, endsOf, Array.getElem?_eq_none beyond]
  rfl

/-! ### Following links -/

def unvisited (graph : Graph) (found : List Nat) : Nat := graph.edgeIds.countP (· ∉ found)

theorem unvisited_append_lt {found : List Nat} (inside : e < graph.edges.size) (new : e ∉ found) :
    graph.unvisited (found ++ [e]) < graph.unvisited found := by
  refine countP_lt_countP (fun x _ absent => ?_) (List.mem_range.mpr inside) (decide_eq_true new)
    (by simp)
  simp only [List.mem_append, not_or, decide_eq_true_eq] at absent ⊢
  exact absent.1

/-- A visit takes one edge off the list and puts at most two on it. -/
theorem visit_le {found pending : List Nat} {steps : Nat} (new : e ∉ found)
    (enough : (e :: pending).length + 2 * graph.unvisited found ≤ steps + 1) :
    (((graph.continuations isMember e).filter (· ∉ found ++ [e])).reverse ++ pending).length +
      2 * graph.unvisited (found ++ [e]) ≤ steps := by
  have fewer := List.length_filter_le (· ∉ found ++ [e]) (graph.continuations isMember e)
  rw [List.length_append, List.length_reverse]
  rw [List.length_cons] at enough
  by_cases inside : e < graph.edges.size
  · have two := graph.length_continuations_le isMember e
    have := unvisited_append_lt inside new
    omega
  · rw [continuations_of_size_le (Nat.le_of_not_lt inside)] at fewer ⊢
    have : graph.unvisited (found ++ [e]) ≤ graph.unvisited found := by
      apply List.countP_mono_left
      intro x _ absent
      simp only [List.mem_append, not_or, decide_eq_true_eq] at absent ⊢
      exact absent.1
    simp only [List.filter_nil, List.length_nil] at fewer ⊢
    omega

private theorem follow_prefix (graph : Graph) (isMember : Nat → Bool) (steps : Nat)
    (pending found : List Nat) : found <+: graph.follow isMember steps pending found := by
  fun_induction graph.follow isMember steps pending found with
  | case1 => exact List.prefix_rfl
  | case2 => exact List.prefix_rfl
  | case3 steps e pending found old ih => exact ih
  | case4 steps e pending found new visited next ih => exact (List.prefix_append found [e]).trans ih

theorem nodup_follow {steps : Nat} {pending found : List Nat} (distinct : found.Nodup) :
    (graph.follow isMember steps pending found).Nodup := by
  fun_induction graph.follow isMember steps pending found with
  | case1 => exact distinct
  | case2 => exact distinct
  | case3 steps e pending found old ih => exact ih distinct
  | case4 steps e pending found new visited next ih =>
    apply ih
    rw [List.nodup_append']
    exact ⟨distinct, List.nodup_singleton e, List.disjoint_singleton.mpr new⟩

/-- Nothing is found but what links lead to from a pending edge. -/
theorem of_mem_follow {steps : Nat} {pending found : List Nat}
    (h : f ∈ graph.follow isMember steps pending found) :
    f ∈ found ∨ ∃ e ∈ pending, Relation.ReflTransGen (graph.Linked isMember) e f := by
  fun_induction graph.follow isMember steps pending found with
  | case1 => exact .inl h
  | case2 => exact .inl h
  | case3 steps e pending found old ih =>
    obtain old | ⟨start, listed, leads⟩ := ih h
    · exact .inl old
    · exact .inr ⟨start, List.mem_cons_of_mem e listed, leads⟩
  | case4 steps e pending found new visited next ih =>
    obtain old | ⟨start, listed, leads⟩ := ih h
    · obtain old | same := List.mem_append.mp old
      · exact .inl old
      · cases List.mem_singleton.mp same
        exact .inr ⟨f, List.mem_cons_self .., .refl⟩
    · obtain put | listed := List.mem_append.mp listed
      · have linked := mem_continuations.mp (List.mem_filter.mp (List.mem_reverse.mp put)).1
        exact .inr ⟨e, List.mem_cons_self .., .head linked leads⟩
      · exact .inr ⟨start, List.mem_cons_of_mem e listed, leads⟩

/-- With enough steps all pending edges are found and every link from what is found is followed. -/
theorem follow_closed (isMember : Nat → Bool) {steps : Nat} {pending found : List Nat}
    (enough : pending.length + 2 * graph.unvisited found ≤ steps)
    (ahead : ∀ e ∈ found, ∀ f, graph.Linked isMember e f → f ∈ found ∨ f ∈ pending) :
    (∀ e ∈ pending, e ∈ graph.follow isMember steps pending found) ∧
      ∀ e ∈ graph.follow isMember steps pending found, ∀ f, graph.Linked isMember e f →
        f ∈ graph.follow isMember steps pending found := by
  fun_induction graph.follow isMember steps pending found with
  | case1 pending found =>
    cases List.eq_nil_of_length_eq_zero (by omega : pending.length = 0)
    simpa using ahead
  | case2 steps found => simpa using ahead
  | case3 steps e pending found old ih =>
    rw [List.length_cons] at enough
    obtain ⟨all, closed⟩ := ih (by omega) fun x member f linked => by
      obtain here | there := ahead x member f linked
      · exact .inl here
      · rcases List.mem_cons.mp there with rfl | later
        · exact .inl old
        · exact .inr later
    refine ⟨fun x member => ?_, closed⟩
    rcases List.mem_cons.mp member with rfl | later
    · exact (graph.follow_prefix isMember steps pending found).subset old
    · exact all x later
  | case4 steps e pending found new visited next ih =>
    obtain ⟨all, closed⟩ := ih (visit_le new enough) fun x member f linked => by
      by_cases known : f ∈ visited
      · exact .inl known
      -- A link that is still open comes from the edge just visited or was put off before.
      refine .inr (List.mem_append.mpr ?_)
      obtain old | same := List.mem_append.mp member
      · obtain here | there := ahead x old f linked
        · exact absurd (List.mem_append_left [e] here) known
        · rcases List.mem_cons.mp there with rfl | later
          · exact absurd (List.mem_append_right found (List.mem_singleton_self f)) known
          · exact .inr later
      · cases List.mem_singleton.mp same
        refine .inl (List.mem_reverse.mpr (List.mem_filter.mpr ⟨?_, decide_eq_true known⟩))
        exact mem_continuations.mpr linked
    refine ⟨fun x member => ?_, closed⟩
    rcases List.mem_cons.mp member with rfl | later
    · exact (graph.follow_prefix isMember steps _ visited).subset
        (List.mem_append_right found (List.mem_singleton_self x))
    · exact all x (List.mem_append_right _ later)

/-! ### Walks without a bound -/

/-- The same walk with no bound on its steps: from what is pending and what was found so far it ends
with all that it finds. -/
inductive Walks (graph : Graph) (isMember : Nat → Bool) : List Nat → List Nat → List Nat → Prop where
  | done {found : List Nat} : Walks graph isMember [] found found
  | again {e : Nat} {pending found result : List Nat} (old : e ∈ found)
      (rest : Walks graph isMember pending found result) :
      Walks graph isMember (e :: pending) found result
  | visit {e : Nat} {pending found result : List Nat} (new : e ∉ found)
      (rest : Walks graph isMember
        (((graph.continuations isMember e).filter (· ∉ found ++ [e])).reverse ++ pending)
        (found ++ [e]) result) :
      Walks graph isMember (e :: pending) found result

private theorem walks_follow {steps : Nat} {pending found : List Nat}
    (enough : pending.length + 2 * graph.unvisited found ≤ steps) :
    graph.Walks isMember pending found (graph.follow isMember steps pending found) := by
  fun_induction graph.follow isMember steps pending found with
  | case1 pending found =>
    cases List.eq_nil_of_length_eq_zero (by omega : pending.length = 0)
    exact .done
  | case2 steps found => exact .done
  | case3 steps e pending found old ih =>
    rw [List.length_cons] at enough
    exact .again old (ih (by omega))
  | case4 steps e pending found new visited next ih => exact .visit new (ih (visit_le new enough))

theorem Walks.unique {pending found result other : List Nat}
    (walks : graph.Walks isMember pending found result)
    (walks' : graph.Walks isMember pending found other) : result = other := by
  induction walks with
  | done =>
    cases walks'
    rfl
  | again old _ ih =>
    cases walks' with
    | again _ rest => exact ih rest
    | visit new _ => exact absurd old new
  | visit new _ ih =>
    cases walks' with
    | again old _ => exact absurd old new
    | visit _ rest => exact ih rest

/-! ### Paths -/

theorem nodup_path (graph : Graph) (isMember : Nat → Bool) (e : Nat) :
    (graph.path isMember e).Nodup :=
  nodup_follow List.nodup_nil

/-- Every edge is visited once and puts at most two others off. -/
theorem unvisited_nil_le (graph : Graph) (e : Nat) :
    [e].length + 2 * graph.unvisited [] ≤ 2 * graph.edges.size + 1 := by
  have most : graph.unvisited [] ≤ graph.edgeIds.length := List.countP_le_length
  rw [edgeIds, List.length_range] at most
  simp only [List.length_singleton]
  omega

theorem walks_iff {result : List Nat} :
    graph.Walks isMember [e] [] result ↔ result = graph.path isMember e := by
  have walks : graph.Walks isMember [e] [] (graph.path isMember e) :=
    walks_follow (graph.unvisited_nil_le e)
  constructor
  · exact fun other => other.unique walks
  · rintro rfl
    exact walks

theorem head?_path (graph : Graph) (isMember : Nat → Bool) (e : Nat) :
    (graph.path isMember e).head? = some e := by
  obtain ⟨rest, path⟩ := graph.follow_prefix isMember (2 * graph.edges.size)
    (((graph.continuations isMember e).filter (· ∉ [] ++ [e])).reverse ++ []) ([] ++ [e])
  rw [Graph.path, follow, if_neg List.not_mem_nil, ← path]
  rfl

theorem mem_path : f ∈ graph.path isMember e ↔ Relation.ReflTransGen (graph.Linked isMember) e f := by
  constructor
  · intro found
    obtain none | ⟨start, listed, leads⟩ := of_mem_follow found
    · exact absurd none List.not_mem_nil
    · exact List.mem_singleton.mp listed ▸ leads
  · intro leads
    obtain ⟨all, closed⟩ := follow_closed isMember (graph.unvisited_nil_le e)
      fun _ member => absurd member List.not_mem_nil
    induction leads with
    | refl => exact all e (List.mem_singleton_self e)
    | tail _ linked ih => exact closed _ ih _ linked

theorem self_mem_path (graph : Graph) (isMember : Nat → Bool) (e : Nat) :
    e ∈ graph.path isMember e :=
  mem_path.mpr .refl

theorem mem_path_congr (h : f ∈ graph.path isMember e) {x : Nat} :
    x ∈ graph.path isMember e ↔ x ∈ graph.path isMember f := by
  have there := mem_path.mp h
  have back : Relation.ReflTransGen (graph.Linked isMember) f e := symm there
  rw [mem_path, mem_path]
  exact ⟨back.trans, there.trans⟩

theorem isMember_of_mem_path (member : isMember e = true) (h : f ∈ graph.path isMember e) :
    isMember f = true := by
  cases mem_path.mp h with
  | refl => exact member
  | tail _ linked => exact linked.isMember_right

theorem lt_size_of_mem_path (inside : e < graph.edges.size) (h : f ∈ graph.path isMember e) :
    f < graph.edges.size := by
  cases mem_path.mp h with
  | refl => exact inside
  | tail _ linked =>
    obtain ⟨v, _, there⟩ := linked.meet
    exact (mem_edgesAt.mp (List.mem_filter.mp there).1).1

end Graph

end PencilPuzzle
