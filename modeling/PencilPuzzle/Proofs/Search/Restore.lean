import PencilPuzzle.Proofs.Search.Soundness

/-!
# Going back without a solution

A call that ends without a solution leaves the state where the rules had got before the first guess,
or where it was if the rules did not get that far. It goes back in one step, to a mark that is moved
once, between the end of the first propagation and the first event: it is right wherever the call may
stop later, however deep, and the hook has no chance to stop it earlier.
-/

namespace PencilPuzzle

open State

variable {μ : Type} {puzzle : Puzzle} {hook : Hook μ} {solver : Solver} {memory : μ} {state : State}

def JournalEntry.isEvent : JournalEntry → Bool
  | .consulted _ => false
  | .event _ => true

def told (journal : List JournalEntry) : Bool := journal.any JournalEntry.isEvent

namespace Search

variable {s t : Search μ} {base : State}

/-- The mark to go back to is the one of a state from which this one was narrowed. -/
structure RootedIn (search : Search μ) (base : State) : Prop where
  narrows : base.NarrowsTo search.state
  root : search.root = base.mark

theorem RootedIn.undo (rooted : s.RootedIn base) : s.state.undo s.root = base := by
  rw [rooted.root]
  exact rooted.narrows.undo

theorem RootedIn.leads (rooted : s.RootedIn base) (leads : s.Leads t) : t.RootedIn base :=
  ⟨rooted.narrows.trans leads.state, leads.root.trans rooted.root⟩

/-- The search has come to an end before its hook was told of anything: the rules have met a
contradiction at the first node, or something has failed there. -/
structure StopsAtRules {α : Type} (run : Run FixpointSummary) (state : State)
    (reply : Reply μ α) : Prop where
  rooted : reply.1.RootedIn state
  silent : told reply.1.journal = false
  stopped : (∃ cause, run.result = .error (.contradiction cause)) ∨ ∃ fault, reply.2 = .error fault

private theorem told_afterRun (puzzle : Puzzle) (solver : Solver) (memory : μ) (state : State) :
    told ((solver.start memory state).afterRun puzzle 0).journal = false := by
  simp [told, afterRun, takeRun, reachDepth, Solver.start, JournalEntry.isEvent]

/-- Before the first event a search goes back to where it started, after it to what the rules left
at the first node. -/
theorem propagate_start (puzzle : Puzzle) (hook : Hook μ) (solver : Solver) (memory : μ)
    (state : State) :
    let run := runToFixpoint puzzle.rules solver.passLimit state
    let reply := (solver.start memory state).propagate puzzle hook 0
    StopsAtRules run state reply ∧ reply.2.toOption.all (fun verdict => verdict.1.isTerminal) ∨
      (∃ summary, run.result = .ok summary) ∧ reply.1.RootedIn run.state := by
  have silent := told_afterRun puzzle solver memory state
  have left : ((solver.start memory state).afterRun puzzle 0).RootedIn state :=
    ⟨narrowsTo_runToFixpoint _ _ _, rfl⟩
  dsimp only
  obtain ⟨cause, failed, ended⟩ | ⟨fault, _, _, ended⟩ | ⟨_, fault, _, _, ended⟩ |
    ⟨summary, _, finished, _, ended⟩ := propagate_cases puzzle hook 0 (solver.start memory state)
  · rw [ended]
    exact .inl ⟨⟨left, silent, .inl ⟨cause, failed⟩⟩, rfl⟩
  · rw [ended]
    exact .inl ⟨⟨left, silent, .inr ⟨fault, rfl⟩⟩, rfl⟩
  · -- The mark is moved only after the check, so a check that fails counts as the rules do.
    rw [ended]
    exact .inl ⟨⟨⟨left.narrows, left.root⟩, silent, .inr ⟨fault, rfl⟩⟩, rfl⟩
  · rw [ended]
    exact .inr ⟨⟨summary, finished⟩,
      RootedIn.leads ⟨NarrowsTo.refl, rfl⟩ (leads_emit .fixpoint 0 none hook _)⟩

private theorem explore_start (puzzle : Puzzle) (hook : Hook μ) (solver : Solver)
    (active : solver.cancelled = false) (memory : μ) (state : State) (levels : Nat) :
    let run := runToFixpoint puzzle.rules solver.passLimit state
    let reply := (solver.start memory state).explore puzzle hook (levels + 1) 0
    StopsAtRules run state reply ∨
      (∃ summary, run.result = .ok summary) ∧ reply.1.RootedIn run.state := by
  have node := propagate_start puzzle hook solver memory state
  dsimp only at node ⊢
  rw [explore_succ, if_neg (by simp [Solver.start, active])]
  split
  next t fault propagated =>
    rw [propagated] at node
    obtain ⟨stops, _⟩ | rooted := node
    · exact .inl ⟨stops.rooted, stops.silent, .inr ⟨fault, rfl⟩⟩
    · exact .inr rooted
  next t outcome converged propagated =>
    rw [propagated] at node
    obtain ⟨stops, terminal⟩ | ⟨finished, rooted⟩ := node
    · have ends : outcome.isTerminal = true := terminal
      rw [branch, if_pos ends]
      obtain contradiction | ⟨_, failed⟩ := stops.stopped
      · exact .inl ⟨stops.rooted, stops.silent, .inl contradiction⟩
      · exact nomatch failed
    · exact .inr ⟨finished, rooted.leads (leads_branch
        (fun u => leads_explore puzzle hook (Nat.succ_ne_zero 0) levels u) t outcome converged)⟩

end Search

theorem Solver.state_solve_of_open (isOpen : puzzle.classify true state = .ok .unsolved)
    (unsolved : (solver.solve puzzle hook memory state).result ≠ .ok .solved) :
    let run := runToFixpoint puzzle.rules solver.passLimit state
    let report := solver.solve puzzle hook memory state
    report.state = state ∧ ((∃ cause, run.result = .error (.contradiction cause)) ∨
        (∃ fault, report.result = .error fault) ∧ told report.journal = false) ∨
      (∃ summary, run.result = .ok summary) ∧ report.state = run.state := by
  have explored := Search.explore_start puzzle hook { solver with cancelled := false } rfl memory state
    state.undetermined.length
  dsimp only at explored ⊢
  rw [solve_eq_finish isOpen] at unsolved ⊢
  rw [result_finish] at unsolved ⊢
  rw [state_finish_of_ne unsolved, journal_finish]
  obtain ⟨rooted, silent, stopped⟩ | ⟨finished, rooted⟩ := explored
  · refine .inl ⟨rooted.undo, stopped.imp_right fun failed => ⟨failed, ?_⟩⟩
    exact List.any_reverse.trans silent
  · exact .inr ⟨finished, rooted.undo⟩

/-- A call that returns without a solution, or that its hook stops, leaves the state right after the
first run of the rules, if that has returned, and else the state it was given. The hook is told of an
event before it can stop the call at it. -/
theorem solve_restores
    (ended : let report := solver.solve puzzle hook memory state
      (∃ outcome, outcome ≠ .solved ∧ report.result = .ok outcome) ∨
        ∃ fault, report.result = .error fault ∧ told report.journal = true) :
    let run := runToFixpoint puzzle.rules solver.passLimit state
    let report := solver.solve puzzle hook memory state
    (∀ outcome, puzzle.classify true state = .ok outcome → outcome.isTerminal = true →
        report.state = state) ∧
      (∀ cause, run.result = .error (.contradiction cause) → report.state = state) ∧
      ∀ summary, puzzle.classify true state = .ok .unsolved → run.result = .ok summary →
        report.state = run.state := by
  intro run report
  have unsolved : report.result ≠ .ok .solved := by
    intro solved
    obtain ⟨outcome, other, returned⟩ | ⟨_, failed, _⟩ := ended
    · exact other (Except.ok.inj (returned.symm.trans solved))
    · exact nomatch failed.symm.trans solved
  refine ⟨fun outcome classified terminal => Solver.state_solve_of_terminal classified terminal,
    fun cause failed => ?_, fun summary isOpen finished => ?_⟩
  · -- Without a first node the state is not touched, whatever the rules would have done.
    cases classified : puzzle.classify true state with
    | error fault => exact Solver.state_solve_of_error classified
    | ok outcome =>
      cases outcome with
      | solved | unsolvable | invalid => exact Solver.state_solve_of_terminal classified rfl
      | unsolved =>
        obtain ⟨back, _⟩ | ⟨⟨_, finished⟩, _⟩ := Solver.state_solve_of_open classified unsolved
        · exact back
        · exact nomatch failed.symm.trans finished
  · obtain ⟨_, ⟨_, failed⟩ | ⟨⟨_, failed⟩, silent⟩⟩ | ⟨_, back⟩ :=
      Solver.state_solve_of_open isOpen unsolved
    · exact nomatch finished.symm.trans failed
    · obtain ⟨_, _, returned⟩ | ⟨_, _, happened⟩ := ended
      · exact nomatch returned.symm.trans failed
      · exact nomatch happened.symm.trans silent
    · exact back

/-- Three variables that no assignment solves, and a rule that strikes a value of the last. -/
def hopeless : Puzzle where
  rules := [⟨"strike", fun _ => .ok [⟨2, [0]⟩]⟩]
  isConsistent _ := .ok true
  isSolved _ := .ok false
  guessOrder := none

/-- A hook that stops the search at the second guess of a path. -/
def Hook.stopsBelow : Hook Unit := fun _ event =>
  ((), if event.kind = .guess ∧ event.depth = 2 then [.fail (.search .nothingToGuess)] else [])

/-- Stopped at its second guess, or out of guesses after five, the call goes back to what the rule
left, which is not the state it was given; a state that is broken at once stays as it is. -/
theorem solve_restores_hopeless :
    let solver : Solver := ⟨.first, none, 0, 5, .unsolved, false, {}⟩
    let given := State.blank 3 2
    let stopped := solver.solve hopeless Hook.stopsBelow () given
    let spent := solver.solve hopeless Hook.silent () given
    let broken := solver.solve hopeless Hook.silent () (State.blank 1 0)
    stopped.result = .error (.search .nothingToGuess) ∧ stopped.state.candidates 2 = [1] ∧
      spent.result = .ok .unsolved ∧ spent.state = stopped.state ∧
      broken.result = .ok .invalid ∧ broken.state = State.blank 1 0 := by
  intro solver given stopped spent broken
  have failed : stopped.result = .error (.search .nothingToGuess) := by decide
  have happened : told stopped.journal = true := by decide
  have noVerdict : spent.result = .ok .unsolved := by decide
  have invalid : broken.result = .ok .invalid := by decide
  have reached := (solve_restores (.inr ⟨_, failed, happened⟩)).2.2 ⟨2, 1, true⟩ (by decide) (by decide)
  have reached' := (solve_restores (.inl ⟨_, by decide, noVerdict⟩)).2.2 ⟨2, 1, true⟩ (by decide)
    (by decide)
  have kept := (solve_restores (.inl ⟨_, by decide, invalid⟩)).1 .invalid (by decide) rfl
  refine ⟨failed, ?_, noVerdict, reached'.trans reached.symm, invalid, kept⟩
  rw [reached]
  decide

end PencilPuzzle
