import PencilPuzzle.Proofs.Search.Lockstep

/-!
# Solving again

A call is compared with a second one on the state it left. Where it has left the state it was given,
or the one the rules had come to before the first guess, the second search runs in step with the
first from there on. The second call comes to the same verdict, except where the first found a broken
state before its first guess: that state is kept, and what is broken from the start is called invalid.
-/

namespace PencilPuzzle

open State

variable {μ ν : Type} {puzzle : Puzzle} {hook : Hook μ} {hook' : Hook ν}

namespace Search

variable {s : Search μ} {outcome : Outcome}

private theorem branch_terminal {levels depth : Nat} {converged : Bool}
    (terminal : outcome.isTerminal = true) :
    s.branch puzzle hook levels depth outcome converged = (s, .ok outcome) := by
  rw [branch, if_pos terminal]

end Search

/-! ### A second call -/

/-- Before the first guess, the rules have left a state that is broken. -/
def BrokenAtRoot (puzzle : Puzzle) (limit : Option Int) (state : State) : Prop :=
  (∃ summary, (runToFixpoint puzzle.rules limit state).result = .ok summary) ∧
    puzzle.classify false (runToFixpoint puzzle.rules limit state).state = .ok .unsolvable

namespace Solver

variable {solver : Solver} {memory : μ} {s : State} {outcome : Outcome}

private theorem solve_of_terminal (classified : puzzle.classify true s = .ok outcome)
    (terminal : outcome ≠ .unsolved) : (solver.solve puzzle hook memory s).result = .ok outcome := by
  have stops : outcome.isTerminal = true := by cases outcome <;> simp_all [Outcome.isTerminal]
  simp [solve, classified, stops]

private theorem solve_of_open (classified : puzzle.classify true s = .ok .unsolved) :
    (solver.solve puzzle hook memory s).result =
      ((start { solver with cancelled := false } memory s).explore puzzle hook
        (Search.enoughLevels s) 0).2 := by
  rw [solve_eq_finish classified, result_finish]

private theorem ne_unsolvable_of_initial (classified : puzzle.classify true s = .ok outcome) :
    outcome ≠ .unsolvable := by
  rintro rfl
  obtain ⟨broken, _⟩ | ⟨noVerdict, _⟩ | ⟨solved, _⟩ := Puzzle.classify_eq_ok classified
  · simp [Outcome.broken] at broken
  · simp at noVerdict
  · simp at solved

end Solver

namespace Solver

variable {solver again : Solver} {memory : μ} {s : State} {outcome : Outcome}

/-- How a call comes to a verdict, and the state it leaves: a contradiction before the first guess is
taken back, a verdict on what the rules left there is kept, and so is a solution found below; else the
call goes back to what the rules left. -/
theorem explore_verdict {t : Search μ} (terminal : outcome ≠ .unsolved)
    (explored : (start { solver with cancelled := false } memory s).explore puzzle hook
      (Search.enoughLevels s) 0 = (t, .ok outcome)) :
    let run := runToFixpoint puzzle.rules solver.passLimit s
    let left := (finish (t, .ok outcome)).state
    ((∃ cause, run.result = .error (.contradiction cause)) ∧ left = s) ∨
      ((∃ summary, run.result = .ok summary) ∧ puzzle.classify false run.state = .ok outcome ∧
        left = run.state) ∨
      ∃ summary node, run.result = .ok summary ∧ summary.converged = true ∧ node.state = run.state ∧
        puzzle.classify false run.state = .ok .unsolved ∧
        (start { solver with cancelled := false } memory s).propagate puzzle hook 0 =
          (node, .ok (.unsolved, true)) ∧
        node.branch puzzle hook s.undetermined.length 0 .unsolved true = (t, .ok outcome) ∧
        (outcome ≠ .solved → left = run.state) := by
  rw [Search.enoughLevels, Search.explore_succ] at explored
  simp only [start, Bool.false_eq_true, if_false] at explored
  split at explored
  next => simp at explored
  next node found converged propagated =>
    obtain ⟨reached, verdict⟩ := Search.propagate_eq_ok propagated
    have narrowed := narrowsTo_runToFixpoint puzzle.rules solver.passLimit s
    dsimp only at reached verdict
    rw [← reached] at narrowed verdict
    intro run left
    rw [← show node.state = run.state from reached]
    obtain ⟨⟨cause, failed⟩, root⟩ | ⟨⟨summary, finished⟩, root⟩ := Search.propagate_root propagated
    · obtain ⟨_, _, rfl⟩ | ⟨_, other, _⟩ := verdict
      · rw [Search.branch_terminal rfl] at explored
        obtain ⟨rfl, rfl⟩ : node = t ∧ .unsolvable = outcome := by simpa using explored
        refine .inl ⟨⟨cause, failed⟩, ?_⟩
        rw [show left = node.state.undo node.root from state_finish_of_ne (by simp), root]
        exact narrowed.undo
      · exact nomatch failed.symm.trans other
    · obtain ⟨_, other, _⟩ | ⟨_, same, converges, classified⟩ := verdict
      · exact nomatch finished.symm.trans other
      cases finished.symm.trans same
      have back (unsolved : outcome ≠ .solved) : left = node.state := by
        have noSolution : (node.branch puzzle hook s.undetermined.length 0 found converged).2 ≠
            .ok .solved := by
          rw [explored]
          exact fun solved => unsolved (Except.ok.inj solved)
        have kept := state_finish_branch root noSolution
        rw [explored] at kept
        exact kept
      cases stops : found.isTerminal with
      | true =>
        rw [Search.branch_terminal stops] at explored
        obtain ⟨rfl, rfl⟩ : node = t ∧ found = outcome := by simpa using explored
        refine .inr (.inl ⟨⟨summary, finished⟩, classified, ?_⟩)
        by_cases solved : found = .solved
        · subst solved
          rfl
        · exact back solved
      | false =>
        have unsolved : found = .unsolved := by cases found <;> simp_all [Outcome.isTerminal]
        subst unsolved
        cases converged with
        | false =>
          cases explored
          exact absurd rfl terminal
        | true =>
          exact .inr (.inr ⟨summary, node, finished, converges, rfl, classified, propagated, explored,
            back⟩)

section Again

variable (quiet : hook.Quiet) (quiet' : hook'.Quiet)
  (policy : again.policy = solver.policy) (passLimit : again.passLimit = solver.passLimit)
  (budget : again.budget = solver.budget) (fresh : again.guesses ≤ solver.guesses)
  (terminal : outcome ≠ .unsolved)
include quiet quiet' policy passLimit budget fresh terminal

private theorem solve_same {t : Search μ} (isOpen : puzzle.classify true s = .ok .unsolved)
    (explored : (start { solver with cancelled := false } memory s).explore puzzle hook
      (Search.enoughLevels s) 0 = (t, .ok outcome)) (memory' : ν) :
    (again.solve puzzle hook' memory' s).result = .ok outcome := by
  have size : s.undetermined.length < Search.enoughLevels s := Nat.lt_succ_self _
  have trails := Search.explore_trails puzzle quiet quiet' (Search.enoughLevels s)
    (Search.enoughLevels s) 0 (mirrors_start policy passLimit (by omega) memory memory' s) size size
  rw [explored] at trails
  rw [solve_of_open isOpen]
  exact (trails.echoes fun noVerdict => terminal (Except.ok.inj noVerdict)).result

/-- A second call from the first node of the first one, after the rules have run there, has the
verdict of what the first came to below that node. -/
theorem solve_below {node t : Search μ} {summary : FixpointSummary} {levels : Nat}
    (propagated : (start { solver with cancelled := false } memory s).propagate puzzle hook 0 =
      (node, .ok (.unsolved, true)))
    (finished : (runToFixpoint puzzle.rules solver.passLimit s).result = .ok summary)
    (converged : summary.converged = true)
    (classified : puzzle.classify false node.state = .ok .unsolved)
    (enough : node.state.undetermined.length ≤ levels)
    (branched : node.branch puzzle hook levels 0 .unsolved true = (t, .ok outcome)) (memory' : ν) :
    (again.solve puzzle hook' memory' node.state).result = .ok outcome := by
  obtain ⟨reached, _⟩ := Search.propagate_eq_ok propagated
  obtain ⟨still, quietRun⟩ := runToFixpoint_again finished converged
  change node.state = (runToFixpoint puzzle.rules solver.passLimit s).state at reached
  rw [← reached, ← passLimit] at still quietRun
  obtain ⟨node', propagated', explored⟩ := Search.explore_of_open
    (s := start { again with cancelled := false } memory' node.state) quiet' rfl quietRun rfl
    (still.symm ▸ classified) node.state.undetermined.length 0
  have reached' : node'.state = node.state := (Search.propagate_eq_ok propagated').1.trans still
  have mirrors := mirrors_nodes policy passLimit (by omega) quiet quiet' propagated propagated' reached'
  have trails := Search.trails_of_open puzzle quiet quiet' 0 mirrors classified enough (Nat.le_refl _)
  rw [branched] at trails
  rw [solve_of_open (Puzzle.classify_initial classified), Search.enoughLevels, explored]
  exact (trails.echoes fun noVerdict => terminal (Except.ok.inj noVerdict)).result

end Again

end Solver

/-- A second call on the state that a call with a verdict has left comes to the same verdict. Only
where the rules alone have shown that there is no solution, by leaving a broken state, does the
second call call that state invalid. -/
theorem solve_again (quiet : hook.Quiet) (quiet' : hook'.Quiet) {solver again : Solver}
    (policy : again.policy = solver.policy) (passLimit : again.passLimit = solver.passLimit)
    (budget : again.budget = solver.budget) (fresh : again.guesses ≤ solver.guesses)
    {s : State} {memory : μ} {outcome : Outcome}
    (first : (solver.solve puzzle hook memory s).result = .ok outcome)
    (terminal : outcome ≠ .unsolved) (memory' : ν) :
    (outcome = .unsolvable ∧ BrokenAtRoot puzzle solver.passLimit s →
        (again.solve puzzle hook' memory' (solver.solve puzzle hook memory s).state).result =
          .ok .invalid) ∧
      (¬ (outcome = .unsolvable ∧ BrokenAtRoot puzzle solver.passLimit s) →
        (again.solve puzzle hook' memory' (solver.solve puzzle hook memory s).state).result =
          .ok outcome) := by
  obtain ⟨_, classified, same⟩ | ⟨isOpen, t, explored, ended⟩ := Solver.solve_eq_ok first
  · refine ⟨fun broken => absurd broken.1 (Solver.ne_unsolvable_of_initial classified), fun _ => ?_⟩
    rw [same]
    exact Solver.solve_of_terminal classified terminal
  rw [ended]
  obtain ⟨⟨cause, failed⟩, back⟩ | ⟨finished, classified, left⟩ |
    ⟨summary, node, finished, converges, reached, classified, propagated, branched, back⟩ :=
    Solver.explore_verdict terminal explored
  · -- A contradiction: everything is taken back, and it is met again.
    have unbroken : ¬ BrokenAtRoot puzzle solver.passLimit s := by
      rintro ⟨⟨_, finished⟩, _⟩
      exact nomatch failed.symm.trans finished
    refine ⟨fun broken => absurd broken.2 unbroken, fun _ => ?_⟩
    rw [back]
    exact Solver.solve_same quiet quiet' policy passLimit budget fresh terminal isOpen explored memory'
  · -- A verdict at the first node: the state that has it is kept.
    rw [left, Solver.solve_of_terminal (Puzzle.classify_initial classified)
      (by cases outcome <;> simp_all)]
    refine ⟨fun broken => by rw [if_pos broken.1], fun other => ?_⟩
    rw [if_neg fun unsolvable => other ⟨unsolvable, finished, unsolvable ▸ classified⟩]
  · have unbroken : ¬ BrokenAtRoot puzzle solver.passLimit s := by
      rintro ⟨_, broken⟩
      exact nomatch Except.ok.inj (classified.symm.trans broken)
    refine ⟨fun broken => absurd broken.2 unbroken, fun _ => ?_⟩
    by_cases solved : outcome = .solved
    · subst solved
      exact Solver.solve_of_terminal (Puzzle.classify_initial (Search.explore_solved explored)) terminal
    · have narrowed := narrowsTo_runToFixpoint puzzle.rules solver.passLimit s
      rw [← reached] at back classified narrowed
      rw [back solved]
      exact Solver.solve_below quiet quiet' policy passLimit budget fresh terminal propagated finished
        converges classified narrowed.length_undetermined_le branched memory'

/-- A variable that should get value 1, and a rule that strikes it. -/
def misled : Puzzle where
  rules := [⟨"strike", fun _ => .ok [⟨0, [1]⟩]⟩]
  isConsistent _ := .ok true
  isSolved t := .ok (t.assignment 0 = 1)
  guessOrder := none

/-- The rule shows that there is no solution and leaves a full state that is none; a second call
calls it invalid. Two variables that can differ are solved by either call. -/
theorem solve_again_misled :
    let solver : Solver := ⟨.first, none, 0, 1, .unsolved, false, {}⟩
    let failed := solver.solve misled Hook.silent () (State.blank 1 2)
    let solved := solver.solve unlikePair Hook.silent () (State.blank 2 2)
    (failed.result = .ok .unsolvable ∧
        (solver.solve misled Hook.silent () failed.state).result = .ok .invalid) ∧
      solved.result = .ok .solved ∧
        (solver.solve unlikePair Hook.silent () solved.state).result = .ok .solved := by
  intro solver failed solved
  have none' : failed.result = .ok .unsolvable := by decide
  have some' : solved.result = .ok .solved := by decide
  have broken : BrokenAtRoot misled none (State.blank 1 2) := ⟨⟨⟨2, 1, true⟩, by decide⟩, by decide⟩
  obtain ⟨again, _⟩ := solve_again Hook.quiet_silent Hook.quiet_silent rfl rfl rfl (Nat.le_refl _)
    none' (by decide) ()
  obtain ⟨_, again'⟩ := solve_again Hook.quiet_silent Hook.quiet_silent rfl rfl rfl (Nat.le_refl _)
    some' (by decide) ()
  exact ⟨⟨none', again ⟨rfl, broken⟩⟩, some', again' fun wrong => nomatch wrong.1⟩

/-- So a second call does not always come to the verdict of the first. -/
theorem not_solve_again_same :
    ¬ ∀ (puzzle : Puzzle) (solver : Solver) (s : State) (outcome : Outcome), s.Reachable →
      (solver.solve puzzle Hook.silent () s).result = .ok outcome → outcome ≠ .unsolved →
      (solver.solve puzzle Hook.silent () (solver.solve puzzle Hook.silent () s).state).result =
        .ok outcome := by
  intro same
  have again := same misled ⟨.first, none, 0, 1, .unsolved, false, {}⟩ (State.blank 1 2) .unsolvable
    ⟨1, 2, _, rfl, .refl⟩ (by decide) (by decide)
  exact absurd again (by decide)

end PencilPuzzle
