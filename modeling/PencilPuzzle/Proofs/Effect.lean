import PencilPuzzle.Proofs.Latin
import PencilPuzzle.Proofs.Loop.Puzzle
import PencilPuzzle.Proofs.Sorted
import PencilPuzzle.Proofs.State.Shape
import PencilPuzzle.Proofs.Towers.Line

/-!
# No idle updates

Every rule proposes only what changes something: it strikes candidates that are there, and it names no
variable twice, or an edge only while both values are left to it. So a rule has nothing to propose exactly
if applying its updates goes through and leaves the state as it is. A list whose first update is for a
given also leaves the state as it is, since it fails at once; only the elimination in groups can propose
one.
-/

namespace PencilPuzzle

open State

variable {s : State} {update first : Update} {updates rest : List Update} {v x : Nat}

/-! ### Updates with effect -/

namespace Update

/-- The update strikes candidates of its variable, at least one, and nothing else. -/
def Effective (s : State) (update : Update) : Prop :=
  ∃ v : Nat, update.var = v ∧ update.removed ≠ [] ∧
    ∀ value ∈ update.removed, ∃ x : Nat, value = x ∧ x ∈ s.candidates v

/-- More than one candidate is left to the variable of the update. -/
def Undecided (s : State) (update : Update) : Prop :=
  ∃ v : Nat, update.var = v ∧ 1 < (s.candidates v).length

theorem Effective.inRange (effective : update.Effective s) : update.InRange s.frame := by
  obtain ⟨v, var, some, present⟩ := effective
  obtain ⟨value, listed⟩ := List.exists_mem_of_ne_nil _ some
  obtain ⟨x, _, candidate⟩ := present value listed
  refine ⟨⟨v, lt_count_of_mem_domain candidate, var⟩, fun value listed => ?_⟩
  obtain ⟨x, same, candidate⟩ := present value listed
  exact ⟨x, Domain.lt_size candidate, same⟩

private theorem Effective.remove_cases (effective : update.Effective s) : ∃ v : Nat, update.var = v ∧
    (s.isLocked v = true ∧
        s.remove update.var update.removed = .error (.contradiction (.givenEliminated v)) ∨
      s.isLocked v = false ∧ ∃ t, s.remove update.var update.removed = .ok (t, true)) := by
  obtain ⟨v, _, var, opened⟩ := remove_of_inRange effective.inRange
  obtain ⟨w, var', some, present⟩ := effective
  obtain rfl : v = w := Int.ofNat.inj (var.symm.trans var')
  obtain ⟨value, listed⟩ := List.exists_mem_of_ne_nil _ some
  obtain ⟨x, rfl, candidate⟩ := present value listed
  have fails : decide ((x : Int) ∉ update.removed) = false := by simpa using listed
  refine ⟨v, var, ?_⟩
  rw [opened]
  cases locked : s.isLocked v with
  | false => exact .inr ⟨rfl, _, narrow_of_fails locked candidate fails⟩
  | true =>
    refine .inl ⟨rfl, ?_⟩
    cases narrowed : s.narrow v fun x => (x : Int) ∉ update.removed with
    | error fault => rw [(narrow_eq_error narrowed).2.2]
    | ok result =>
      obtain ⟨t, _ | _⟩ := result
      · rw [(narrow_eq_false narrowed).2 x candidate] at fails
        exact nomatch fails
      · rw [(narrow_eq_true narrowed).1] at locked
        exact nomatch locked

theorem Undecided.isLocked (givens : s.GivensHold) (undecided : update.Undecided s)
    (var : update.var = (v : Int)) : s.isLocked v = false := by
  obtain ⟨w, var', several⟩ := undecided
  obtain rfl : v = w := Int.ofNat.inj (var.symm.trans var')
  by_contra locked
  rw [isDetermined_iff.mp (givens v (by simpa using locked))] at several
  exact Nat.lt_irrefl 1 several

end Update

namespace State

def StartsAtGiven (s : State) (updates : List Update) : Prop :=
  ∃ first ∈ updates.head?, ∃ v : Nat, first.var = v ∧ s.isLocked v = true

private theorem applyUpdates_of_startsAtGiven (effective : ∀ update ∈ updates, update.Effective s)
    (given : s.StartsAtGiven updates) :
    ∃ v, s.applyUpdates updates = (s, .error (.contradiction (.givenEliminated v))) := by
  obtain ⟨first, head, v, var, locked⟩ := given
  obtain ⟨rest, rfl⟩ := List.head?_eq_some_iff.mp head
  obtain ⟨w, var', ⟨_, failed⟩ | ⟨unlocked, _⟩⟩ := (effective first (List.mem_cons_self ..)).remove_cases
  · refine ⟨w, ?_⟩
    rw [applyUpdates, failed]
  · obtain rfl : v = w := Int.ofNat.inj (var.symm.trans var')
    exact Bool.noConfusion (locked.symm.trans unlocked)

/-- Where the first update is for no given, it changes the state for good. -/
theorem mark_lt_applyUpdates (effective : first.Effective s) (free : ¬ s.StartsAtGiven (first :: rest)) :
    s.mark < (s.applyUpdates (first :: rest)).1.mark := by
  obtain ⟨v, var, ⟨locked, _⟩ | ⟨_, t, removed⟩⟩ := effective.remove_cases
  · exact absurd ⟨first, rfl, v, var, locked⟩ free
  · have more : s.mark < t.mark := by
      rw [mark_remove removed]
      exact Nat.lt_succ_self _
    obtain ⟨_, failed, _⟩ | ⟨u, _, again, _, _, applied⟩ | ⟨u, flag, again, _, applied⟩ :=
      applyUpdates_cons s first rest
    · exact nomatch failed.symm.trans removed
    · cases again.symm.trans removed
      rw [applied]
      exact more
    · cases again.symm.trans removed
      rw [applied]
      exact more.trans_le (narrowsTo_applyUpdates t rest).mark_le

theorem applyUpdates_eq_iff (effective : ∀ update ∈ updates, update.Effective s) :
    (s.applyUpdates updates).1 = s ↔ updates = [] ∨ s.StartsAtGiven updates := by
  constructor
  · intro same
    by_contra none
    obtain ⟨some, free⟩ := not_or.mp none
    obtain ⟨first, rest, rfl⟩ := List.exists_cons_of_ne_nil some
    have more := mark_lt_applyUpdates (effective first (List.mem_cons_self ..)) free
    rw [same] at more
    exact Nat.lt_irrefl _ more
  · rintro (rfl | given)
    · rfl
    · obtain ⟨v, failed⟩ := applyUpdates_of_startsAtGiven effective given
      rw [failed]

private theorem eq_nil_iff_applyUpdates (effective : ∀ update ∈ updates, update.Effective s) :
    updates = [] ↔ s.applyUpdates updates = (s, .ok 0) := by
  constructor
  · rintro rfl
    rfl
  · intro quiet
    refine ((applyUpdates_eq_iff effective).mp (congrArg Prod.fst quiet)).resolve_right fun given => ?_
    obtain ⟨v, failed⟩ := applyUpdates_of_startsAtGiven effective given
    exact nomatch failed.symm.trans quiet

private theorem eq_nil_iff_of_undecided (givens : s.GivensHold)
    (effective : ∀ update ∈ updates, update.Effective s)
    (undecided : ∀ update ∈ updates, update.Undecided s) :
    updates = [] ↔ (s.applyUpdates updates).1 = s := by
  rw [applyUpdates_eq_iff effective, iff_self_or]
  rintro ⟨first, head, v, var, locked⟩
  have unlocked := (undecided first (List.mem_of_mem_head? head)).isLocked givens var
  exact nomatch locked.symm.trans unlocked

private theorem two_candidates {y : Nat} (one : x ∈ s.candidates v) (other : y ∈ s.candidates v)
    (different : x ≠ y) : 1 < (s.candidates v).length := by
  by_contra few
  match listed : s.candidates v with
  | [] => exact absurd (listed ▸ one) List.not_mem_nil
  | [z] =>
    rw [listed, List.mem_singleton] at one other
    exact different (one.trans other.symm)
  | _ :: _ :: _ => simp [listed] at few

/-! ### Removals -/

private theorem effective_removals {refused : Nat → List Nat} :
    ∀ update ∈ s.removals refused, update.Effective s := by
  intro update proposed
  obtain ⟨v, _, var, struck, removed, out⟩ := mem_removals proposed
  refine ⟨v, var, ?_, fun value listed => ?_⟩
  · obtain ⟨w, _, found⟩ := List.mem_filterMap.mp proposed
    dsimp only at found
    split at found
    next => exact nomatch found
    next some =>
      cases found
      simpa using some
  · rw [removed] at listed
    obtain ⟨x, member, rfl⟩ := List.mem_map.mp listed
    exact ⟨x, rfl, (out x member).1⟩

private theorem pairwise_removals (s : State) (refused : Nat → List Nat) :
    (s.removals refused).Pairwise fun update later => update.var < later.var := by
  refine List.pairwise_filterMap.mpr
    (List.pairwise_lt_range.imp fun {v w} below update found later found' => ?_)
  dsimp only at found found'
  split at found
  next => exact nomatch found
  next =>
    split at found'
    next => exact nomatch found'
    next =>
      rw [← Option.some.inj found, ← Option.some.inj found']
      exact Int.ofNat_lt.mpr below

private theorem undecided_removals {refused : Nat → List Nat}
    (beside : ∀ v, ∀ x ∈ refused v, ∃ y ∈ s.candidates v, x ≠ y) :
    ∀ update ∈ s.removals refused, update.Undecided s := by
  intro update proposed
  obtain ⟨v, var, some, present⟩ := effective_removals update proposed
  obtain ⟨value, listed⟩ := List.exists_mem_of_ne_nil _ some
  obtain ⟨w, x, var', rfl, candidate, out⟩ := exists_mem_removals_iff.mp ⟨update, proposed, rfl, listed⟩
  obtain ⟨y, other, different⟩ := beside w x out
  exact ⟨w, var', two_candidates candidate other different⟩

end State

/-! ### Groups of different values -/

namespace Latin

private theorem candidate_of_mem_singles (single : (v, x) ∈ singles s) : x ∈ s.candidates v := by
  obtain ⟨⟨key, group⟩, _, found⟩ := List.mem_flatMap.mp single
  obtain ⟨y, _, only⟩ := List.mem_filterMap.mp found
  split at only
  next w alone =>
    cases only
    exact (mem_holders.mp (alone ▸ List.mem_singleton_self v)).2
  next => exact nomatch only

private theorem exists_of_mem_displaced (lost : x ∈ displaced s (singles s) v) :
    ∃ y ∈ s.candidates v, x ≠ y := by
  obtain ⟨⟨w, y⟩, single, same⟩ := List.any_eq_true.mp (List.mem_filter.mp lost).2
  obtain ⟨rfl, other⟩ : w = v ∧ y ≠ x := by simpa using same
  exact ⟨y, candidate_of_mem_singles single, other.symm⟩

end Latin

/-! ### Clued lines -/

namespace Towers

variable {line : ClueLine} {lines : List ClueLine} {options : LineOptions}

private theorem lineOptions_eq_ok (h : lineOptions s line = .ok options) :
    ∃ xs ∈ options.arrangements, List.Forall₂ (fun x v => x ∈ s.candidates v) xs options.vars := by
  obtain ⟨vars, _, h⟩ := bind_eq_ok.mp h
  obtain ⟨_, _, h⟩ := bind_eq_ok.mp h
  split at h
  next => exact nomatch h
  next some =>
    obtain rfl := Except.ok.inj h
    obtain ⟨xs, found⟩ := List.exists_mem_of_ne_nil _ some
    exact ⟨xs, found, List.forall₂_map_right_iff.mp (mem_arrangements.mp found).1⟩

private theorem allOptions_eq_ok {found : List LineOptions} (h : allOptions s lines = .ok found) :
    ∀ options ∈ found, ∃ line ∈ lines, lineOptions s line = .ok options := by
  induction lines generalizing found with
  | nil =>
    cases h
    exact fun _ member => absurd member List.not_mem_nil
  | cons line rest ih =>
    obtain ⟨first, here, h⟩ := bind_eq_ok.mp h
    obtain ⟨others, later, h⟩ := bind_eq_ok.mp h
    cases h
    refine List.forall_mem_cons.mpr ⟨⟨line, List.mem_cons_self .., here⟩, fun options member => ?_⟩
    obtain ⟨other, listed, same⟩ := ih later options member
    exact ⟨other, List.mem_cons_of_mem line listed, same⟩

private theorem exists_of_mem_unused (found : lineOptions s line = .ok options)
    (unused : x ∈ options.unused s v) : ∃ y ∈ s.candidates v, x ≠ y := by
  obtain ⟨_, position, here, idle⟩ := mem_unused.mp unused
  obtain ⟨xs, arranged, picks⟩ := lineOptions_eq_ok found
  obtain ⟨inside, rfl⟩ := List.getElem?_eq_some_iff.mp here
  have within : position < xs.length := picks.length_eq ▸ inside
  refine ⟨xs[position], picks.get within inside, fun same => idle xs arranged ?_⟩
  rw [List.getElem?_eq_getElem within, same]

private theorem visibility_eq_ok (h : (visibility lines).deduce s = .ok updates) :
    ∃ refused : Nat → List Nat,
      updates = s.removals refused ∧ ∀ v, ∀ x ∈ refused v, ∃ y ∈ s.candidates v, x ≠ y := by
  obtain ⟨found, all, h⟩ := bind_eq_ok.mp h
  refine ⟨_, (Except.ok.inj h).symm, fun v x out => ?_⟩
  obtain ⟨options, member, unused⟩ := List.mem_flatMap.mp out
  obtain ⟨line, _, listed⟩ := allOptions_eq_ok all options member
  exact exists_of_mem_unused listed unused

end Towers

/-! ### Edges -/

namespace Loop

variable {graph : Graph} {e : Nat}

def DecidesOpen (s : State) (update : Update) : Prop :=
  ∃ e, isOpen s e = true ∧ (update = mark e ∨ update = disable e)

/-- The update takes one of its two values from an edge that has both. -/
def Halves (s : State) (update : Update) : Prop :=
  ∃ e x : Nat, update.var = e ∧ update.removed = [(x : Int)] ∧ s.candidates e = [0, 1] ∧ (x = 0 ∨ x = 1)

private theorem candidates_of_isOpen (values : s.size = 2) (undecided : isOpen s e = true) :
    s.candidates e = [0, 1] := by
  have within : (s.candidates e).Sublist (List.range s.size) := (s.domain e).sublist
  have several := isOpen_iff.mp undecided
  rw [values] at within
  exact within.eq_of_length_le several

private theorem DecidesOpen.halves (values : s.size = 2) (decides : DecidesOpen s update) :
    Halves s update := by
  obtain ⟨e, undecided, rfl | rfl⟩ := decides
  · exact ⟨e, 1, rfl, rfl, candidates_of_isOpen values undecided, .inr rfl⟩
  · exact ⟨e, 0, rfl, rfl, candidates_of_isOpen values undecided, .inl rfl⟩

theorem Halves.effective (halves : Halves s update) : update.Effective s := by
  obtain ⟨e, x, var, removed, both, either⟩ := halves
  refine ⟨e, var, by simp [removed], fun value listed => ⟨x, by simpa [removed] using listed, ?_⟩⟩
  rw [both]
  obtain rfl | rfl := either <;> decide

theorem Halves.undecided (halves : Halves s update) : update.Undecided s := by
  obtain ⟨e, x, var, _, both, _⟩ := halves
  refine ⟨e, var, ?_⟩
  rw [both]
  decide

private theorem decidesOpen_of_mem_passVertex {v : Nat} (tight : looseEnd? graph s v = none)
    (h : update ∈ passVertex graph s v) : DecidesOpen s update := by
  have enabled (e : Nat) (listed : e ∈ (graph.edgesAt v).filter (isEnabled s)) : isEnabled s e = true :=
    (List.mem_filter.mp listed).2
  have free {e : Nat} (enabled : isEnabled s e = true) (unmarked : isMarked s e = false) :
      isOpen s e = true :=
    (isMarked_or_isOpen enabled).resolve_left (Bool.eq_false_iff.mp unmarked)
  unfold passVertex at h
  unfold looseEnd? at tight
  split at h
  next e one =>
    rw [one] at enabled tight
    have unmarked : isMarked s e = false := by simpa using tight
    exact ⟨e, free (enabled e (by simp)) unmarked, .inr (List.mem_singleton.mp h)⟩
  next e f two =>
    rw [two] at enabled
    split at h
    next _ unmarked => exact ⟨f, free (enabled f (by simp)) unmarked, .inl (List.mem_singleton.mp h)⟩
    next unmarked _ => exact ⟨e, free (enabled e (by simp)) unmarked, .inl (List.mem_singleton.mp h)⟩
    next => exact absurd h List.not_mem_nil
  next => exact absurd h List.not_mem_nil

private theorem decidesOpen_deadEnd (h : (deadEnd graph).deduce s = .ok updates)
    (member : update ∈ updates) : DecidesOpen s update := by
  have tight := exists_deadEnd_iff.mp ⟨updates, h⟩
  unfold deadEnd at h
  dsimp only at h
  split at h
  next => exact nomatch h
  next =>
    cases h
    obtain ⟨v, listed, proposed⟩ := List.mem_flatMap.mp (List.mem_eraseDups.mp member)
    exact decidesOpen_of_mem_passVertex (tight v listed) proposed

private theorem decidesOpen_faceNetwork (h : (faceNetwork graph).deduce s = .ok updates)
    (member : update ∈ updates) : DecidesOpen s update := by
  obtain closed | separated | settled := mem_faceNetwork h member
  · obtain ⟨e, _, _, undecided, rfl⟩ := mem_closeNetworks closed
    exact ⟨e, undecided, .inr rfl⟩
  · obtain ⟨_, _, e, _, undecided, rfl, _⟩ := mem_separateNetworks separated
    exact ⟨e, undecided, .inl rfl⟩
  · obtain ⟨_, _, e, _, undecided, ⟨rfl, _⟩ | ⟨rfl, _⟩⟩ := mem_settleBoundary settled
    · exact ⟨e, undecided, .inr rfl⟩
    · exact ⟨e, undecided, .inl rfl⟩

private theorem decidesOpen_of_deduce {rule : Rule} (shipped : rule ∈ rules graph)
    (h : rule.deduce s = .ok updates) (member : update ∈ updates) : DecidesOpen s update := by
  simp only [rules, List.mem_cons, List.not_mem_nil, or_false] at shipped
  obtain rfl | rfl | rfl | rfl | rfl | rfl := shipped
  · obtain ⟨_, e, _, _, undecided, rfl⟩ := mem_zeroFace h member
    exact ⟨e, undecided, .inr rfl⟩
  · obtain ⟨_, _, e, _, _, undecided, ⟨_, rfl⟩ | ⟨_, rfl⟩⟩ := mem_exactEdgeCount h member
    · exact ⟨e, undecided, .inr rfl⟩
    · exact ⟨e, undecided, .inl rfl⟩
  · obtain ⟨_, e, _, _, undecided, rfl⟩ := mem_twoEdgesPerVertex h member
    exact ⟨e, undecided, .inr rfl⟩
  · exact decidesOpen_deadEnd h member
  · obtain ⟨_, _, e, closing, rfl, _⟩ := mem_prematureLoop h member
    exact ⟨e, (closingEdge?_eq_some closing).1, .inr rfl⟩
  · exact decidesOpen_faceNetwork h member

theorem nodup_of_deduce {rule : Rule} (shipped : rule ∈ rules graph) (h : rule.deduce s = .ok updates) :
    updates.Nodup := by
  obtain ⟨list, rfl⟩ : ∃ list : List Update, updates = list.eraseDups := by
    simp only [rules, List.mem_cons, List.not_mem_nil, or_false] at shipped
    obtain rfl | rfl | rfl | rfl | rfl | rfl := shipped
    · exact ⟨_, (Except.ok.inj h).symm⟩
    · exact ⟨_, (Except.ok.inj h).symm⟩
    · exact ⟨_, (Except.ok.inj h).symm⟩
    · unfold deadEnd at h
      dsimp only at h
      split at h
      next => exact nomatch h
      next => exact ⟨_, (Except.ok.inj h).symm⟩
    · exact ⟨_, (Except.ok.inj h).symm⟩
    · unfold faceNetwork at h
      dsimp only at h
      split at h
      next => exact nomatch h
      next => exact ⟨_, (Except.ok.inj h).symm⟩
  exact nodup_eraseDups list

end Loop

/-! ### All rules -/

/-- What a rule proposes strikes present candidates, of each variable once and in order, or one value of an
open edge, and no decision is listed twice. So exactly where there is nothing to propose the updates go
through without a change. They leave the state as it is exactly where there is nothing to propose, too,
except that the elimination in groups may begin with a given, and then it fails at once. -/
theorem effective_of_deduce :
    (∀ (s : State) (lines : List Towers.ClueLine) (updates : List Update), s.Reachable →
      (∀ rule ∈ [Latin.elimination, Latin.hiddenSingle, Towers.visibility lines],
        rule.deduce s = .ok updates →
          (∀ update ∈ updates, update.Effective s) ∧
          updates.Pairwise (fun update later => update.var < later.var) ∧
          (updates = [] ↔ s.applyUpdates updates = (s, .ok 0))) ∧
      (∀ rule ∈ [Latin.hiddenSingle, Towers.visibility lines], rule.deduce s = .ok updates →
        (updates = [] ↔ (s.applyUpdates updates).1 = s)) ∧
      (Latin.elimination.deduce s = .ok updates →
        ((s.applyUpdates updates).1 = s ↔ updates = [] ∨ s.StartsAtGiven updates) ∧
        (s.StartsAtGiven updates →
          ∃ v, s.applyUpdates updates = (s, .error (.contradiction (.givenEliminated v)))))) ∧
    ∀ vertexCount cycles hints graph, Graph.build vertexCount cycles hints = .ok graph →
      ∀ s : State, (Loop.initial graph).Reaches s → ∀ rule ∈ Loop.rules graph, ∀ updates,
        rule.deduce s = .ok updates →
          (∀ update ∈ updates, Loop.Halves s update) ∧ updates.Nodup ∧
          (updates = [] ↔ s.applyUpdates updates = (s, .ok 0)) ∧
          (updates = [] ↔ (s.applyUpdates updates).1 = s) := by
  constructor
  · intro s lines updates reachable
    have givens := reachable.settled.givens
    have struck {rule : Rule}
        (shipped : rule ∈ [Latin.elimination, Latin.hiddenSingle, Towers.visibility lines])
        (h : rule.deduce s = .ok updates) : ∃ refused, updates = s.removals refused := by
      simp only [List.mem_cons, List.not_mem_nil, or_false] at shipped
      obtain rfl | rfl | rfl := shipped
      · exact ⟨_, (Except.ok.inj h).symm⟩
      · exact ⟨_, (Latin.hiddenSingle_eq_ok h).2⟩
      · obtain ⟨refused, same, _⟩ := Towers.visibility_eq_ok h
        exact ⟨refused, same⟩
    refine ⟨fun rule shipped h => ?_, fun rule shipped h => ?_, fun h => ?_⟩
    · obtain ⟨refused, rfl⟩ := struck shipped h
      exact ⟨effective_removals, pairwise_removals s refused, eq_nil_iff_applyUpdates effective_removals⟩
    · obtain ⟨refused, rfl, beside⟩ : ∃ refused : Nat → List Nat,
          updates = s.removals refused ∧ ∀ v, ∀ x ∈ refused v, ∃ y ∈ s.candidates v, x ≠ y := by
        simp only [List.mem_cons, List.not_mem_nil, or_false] at shipped
        obtain rfl | rfl := shipped
        · exact ⟨_, (Latin.hiddenSingle_eq_ok h).2, fun v x => Latin.exists_of_mem_displaced⟩
        · exact Towers.visibility_eq_ok h
      exact eq_nil_iff_of_undecided givens effective_removals (undecided_removals beside)
    · obtain ⟨refused, rfl⟩ := struck (List.mem_cons_self ..) h
      exact ⟨applyUpdates_eq_iff effective_removals, applyUpdates_of_startsAtGiven effective_removals⟩
  · intro vertexCount cycles hints graph built s reached rule shipped updates h
    have shaped := reached.shaped (Loop.shaped_initial (Graph.wellFormed_of_build built))
    have givens := (reached.settled (Loop.settled_initial graph)).givens
    have halves (update : Update) (member : update ∈ updates) : Loop.Halves s update :=
      (Loop.decidesOpen_of_deduce shipped h member).halves shaped.size_eq
    have effective (update : Update) (member : update ∈ updates) := (halves update member).effective
    have undecided (update : Update) (member : update ∈ updates) := (halves update member).undecided
    exact ⟨halves, Loop.nodup_of_deduce shipped h, eq_nil_iff_applyUpdates effective,
      eq_nil_iff_of_undecided givens effective undecided⟩

/-- A row of two in which one height is given, and two squares side by side of which the hinted one has lost
an edge. -/
theorem effective_of_deduce_small :
    let row := ((State.blank 2 2).perform (.addConstraint (.word "row") [0, 1])).perform (.lock 0 0)
    let squares := (Loop.initial Loop.twoSquares).perform (.assign 0 1)
    (Latin.elimination.deduce row = .ok [⟨1, [0]⟩] ∧ (row.applyUpdates [⟨1, [0]⟩]).1 ≠ row) ∧
      (Loop.exactEdgeCount Loop.twoSquares).deduce squares = .ok [Loop.mark 1, Loop.mark 2, Loop.mark 3] ∧
      (squares.applyUpdates [Loop.mark 1, Loop.mark 2, Loop.mark 3]).1 ≠ squares := by
  intro row squares
  have built : Graph.build 6 [[0, 1, 2, 3], [1, 4, 5, 2]] [(0, some 3)] = .ok Loop.twoSquares := by decide
  have reachable : row.Reachable := ⟨2, 2, _, rfl, .perform _ (.perform _ .refl)⟩
  have struck : Latin.elimination.deduce row = .ok [⟨1, [0]⟩] := by decide
  have marked : (Loop.exactEdgeCount Loop.twoSquares).deduce squares =
      .ok [Loop.mark 1, Loop.mark 2, Loop.mark 3] := by decide
  obtain ⟨states, graphs⟩ := effective_of_deduce
  refine ⟨⟨struck, fun same => ?_⟩, marked, fun same => ?_⟩
  · obtain none | ⟨first, head, v, var, locked⟩ := ((states row [] _ reachable).2.2 struck).1.mp same
    · exact nomatch none
    · cases head
      obtain rfl : 1 = v := Int.ofNat.inj var
      exact absurd locked (by decide)
  · have listed : Loop.exactEdgeCount Loop.twoSquares ∈ Loop.rules Loop.twoSquares :=
      List.mem_cons_of_mem _ (List.mem_cons_self ..)
    exact nomatch (graphs 6 _ _ _ built squares (.perform _ .refl) _ listed _ marked).2.2.2.mpr same

/-- Where two givens of a row have the same height, each of them is struck, and nothing changes. -/
theorem not_eq_nil_iff_applyUpdates_eq : ¬ ∀ (s : State) (updates : List Update), s.Reachable →
    Latin.elimination.deduce s = .ok updates → (updates = [] ↔ (s.applyUpdates updates).1 = s) := by
  intro claim
  let row := (((State.blank 2 2).perform (.addConstraint (.word "row") [0, 1])).perform (.lock 0 0)).perform
    (.lock 1 0)
  have reachable : row.Reachable := ⟨2, 2, _, rfl, .perform _ (.perform _ (.perform _ .refl))⟩
  have struck : Latin.elimination.deduce row = .ok [⟨0, [0]⟩, ⟨1, [0]⟩] := by decide
  have same : (row.applyUpdates [⟨0, [0]⟩, ⟨1, [0]⟩]).1 = row := by decide
  exact nomatch (claim row _ reachable struck).mpr same

end PencilPuzzle
