import PencilPuzzle.Proofs.Search.Lockstep
import PencilPuzzle.Proofs.Search.Restore

/-!
# What a budget decides

The budget only says where a search has to stop. With more room it takes the same course as far as
the smaller budget reaches, so a verdict that was found with the smaller budget stays, with the same
guesses. And a call that had to stop can be taken up again: with some room added it does what a new
solver with that much room does on the original state, although it starts from where the rules had
got before the first guess.
-/

namespace PencilPuzzle

open State

variable {μ ν : Type} {puzzle : Puzzle} {hook : Hook μ} {hook' : Hook ν}

/-! ### A larger budget -/

/-- What a call comes to without giving up, a call with more room comes to as well, with as many
guesses; and where the first gives up, the second has made no fewer. -/
theorem solve_budget_mono (puzzle : Puzzle) (quiet : hook.Quiet) (quiet' : hook'.Quiet)
    (solver larger : Solver) (policy : larger.policy = solver.policy)
    (passLimit : larger.passLimit = solver.passLimit) (guesses : larger.guesses = solver.guesses)
    (budget : solver.budget ≤ larger.budget) (memory : μ) (memory' : ν) (s : State) :
    let first := solver.solve puzzle hook memory s
    let second := larger.solve puzzle hook' memory' s
    (first.result ≠ .ok .unsolved → second.result = first.result ∧ second.state = first.state ∧
        second.solver.guesses = first.solver.guesses) ∧
      (first.result = .ok .unsolved → first.solver.guesses ≤ second.solver.guesses) := by
  cases classified : puzzle.classify true s with
  | error fault => simp [Solver.solve, classified, guesses]
  | ok outcome =>
    cases outcome with
    | solved | unsolvable | invalid =>
      simp [Solver.solve, classified, guesses, Outcome.isTerminal]
    | unsolved =>
      have size : s.undetermined.length < Search.enoughLevels s := Nat.lt_succ_self _
      have trails := Search.explore_trails puzzle quiet quiet' (Search.enoughLevels s)
        (Search.enoughLevels s) 0
        (Solver.mirrors_start policy passLimit (by omega) memory memory' s) size size
      have more := trails.guesses_le
      simp only [Solver.solve_eq_finish classified, Solver.result_finish, Solver.guesses_finish]
      refine ⟨fun ended => ?_, fun _ => by omega⟩
      have echoes := trails.echoes ended
      have asMany := echoes.mirrors.guesses
      exact ⟨echoes.result, Solver.state_finish_of_echoes echoes, by omega⟩

/-- Five guesses are too few; six are a proof that there is no solution, and a seventh is not made. -/
theorem solve_budget_mono_hopeless :
    let solver : Solver := ⟨.first, none, 0, 5, .unsolved, false, {}⟩
    let given := State.blank 3 2
    let five := solver.solve hopeless Hook.silent () given
    let six := { solver with budget := 6 }.solve hopeless Hook.silent () given
    let seven := { solver with budget := 7 }.solve hopeless Hook.silent () given
    five.result = .ok .unsolved ∧ five.solver.guesses ≤ six.solver.guesses ∧
      six.result = .ok .unsolvable ∧ seven.result = six.result ∧ seven.state = six.state ∧
      seven.solver.guesses = six.solver.guesses := by
  intro solver given five six seven
  have spent : five.result = .ok .unsolved := by decide
  have refuted : six.result = .ok .unsolvable := by decide
  have more := (solve_budget_mono hopeless Hook.quiet_silent Hook.quiet_silent solver
    { solver with budget := 6 } rfl rfl rfl (by decide) () () given).2 spent
  have same := (solve_budget_mono hopeless Hook.quiet_silent Hook.quiet_silent
    { solver with budget := 6 } { solver with budget := 7 } rfl rfl rfl (by decide) () () given).1
    fun unsolved => nomatch refuted.symm.trans unsolved
  refine ⟨spent, ?_, refuted, ?_⟩
  · dsimp only [five, six]
    exact more
  · dsimp only [six, seven]
    exact same

/-! ### More guesses later -/

namespace Solver

variable {solver again : Solver} {memory : μ} {memory' : ν} {s s' : State}

/-- A call from a state that is open, and that the rules leave open, comes to what its first node
comes to. -/
theorem solve_of_open_node (quiet : hook.Quiet) (memory : μ) {limit : Option Int}
    (passLimit : solver.passLimit = limit) {summary : FixpointSummary}
    (isOpen : puzzle.classify true s = .ok .unsolved)
    (finished : (runToFixpoint puzzle.rules limit s).result = .ok summary)
    (converged : summary.converged = true)
    (stays : puzzle.classify false (runToFixpoint puzzle.rules limit s).state = .ok .unsolved) :
    ∃ node, node.state = (runToFixpoint puzzle.rules limit s).state ∧
      (start { solver with cancelled := false } memory s).propagate puzzle hook 0 =
        (node, .ok (.unsolved, true)) ∧
      solver.solve puzzle hook memory s =
        finish (node.branch puzzle hook s.undetermined.length 0 .unsolved true) := by
  subst passLimit
  obtain ⟨node, propagated, explored⟩ := Search.explore_of_open
    (s := start { solver with cancelled := false } memory s) quiet rfl finished converged stays
    s.undetermined.length 0
  refine ⟨node, (Search.propagate_eq_ok propagated).1, propagated, ?_⟩
  rw [solve_eq_finish isOpen, Search.enoughLevels, explored]

private theorem settings_finish (reply : Search.Reply μ Outcome) :
    (finish reply).solver.policy = reply.1.solver.policy ∧
      (finish reply).solver.passLimit = reply.1.solver.passLimit := by
  obtain ⟨search, fault | outcome⟩ := reply
  · exact ⟨rfl, rfl⟩
  · cases outcome <;> exact ⟨rfl, rfl⟩

/-- Without a pass limit, a call only gives up where the rules have left an open state. -/
theorem open_of_unsolved (unlimited : solver.passLimit = none)
    (gaveUp : (solver.solve puzzle hook memory s).result = .ok .unsolved) :
    let run := runToFixpoint puzzle.rules solver.passLimit s
    puzzle.classify true s = .ok .unsolved ∧
      (∃ summary, run.result = .ok summary ∧ summary.converged = true) ∧
      puzzle.classify false run.state = .ok .unsolved := by
  obtain ⟨verdict, _⟩ | ⟨isOpen, t, explored, _⟩ := solve_eq_ok gaveUp
  · exact absurd rfl verdict
  refine ⟨isOpen, ?_⟩
  rw [Search.enoughLevels, Search.explore_succ] at explored
  simp only [start, Bool.false_eq_true, if_false] at explored
  split at explored
  next => simp at explored
  next node found converged propagated =>
    obtain ⟨_, ⟨_, _, rfl⟩ | ⟨summary, finished, _, classified⟩⟩ := Search.propagate_eq_ok propagated
    · simp [Search.branch, Outcome.isTerminal] at explored
    change (runToFixpoint puzzle.rules solver.passLimit s).result = .ok summary at finished
    refine ⟨⟨summary, finished, runToFixpoint_converged (unlimited ▸ finished)⟩, ?_⟩
    cases found with
    | unsolved => exact classified
    | solved | unsolvable | invalid => simp [Search.branch, Outcome.isTerminal] at explored

private theorem settings_solve (puzzle : Puzzle) (hook : Hook μ) (memory : μ) (solver : Solver)
    (s : State) :
    (solver.solve puzzle hook memory s).solver.policy = solver.policy ∧
      (solver.solve puzzle hook memory s).solver.passLimit = solver.passLimit := by
  unfold solve
  dsimp only
  split
  next => exact ⟨rfl, rfl⟩
  next =>
    split
    next => exact ⟨rfl, rfl⟩
    next =>
      have leads := Search.leads_explore_root puzzle hook (Search.enoughLevels s) 0
        (start { solver with cancelled := false } memory s)
      obtain ⟨policy, passLimit⟩ := settings_finish (Search.explore puzzle hook (Search.enoughLevels s) 0
        (start { solver with cancelled := false } memory s))
      exact ⟨policy.trans leads.policy, passLimit.trans leads.passLimit⟩

private theorem setBudget_add (solver : Solver) (room : Nat) :
    solver.setBudget (solver.guesses + room) =
      .ok { solver with budget := solver.guesses + room } :=
  setBudget_eq_ok.mpr ⟨by omega, rfl⟩

/-- From where the rules have got before the first guess, a call comes to what a call with as much
room comes to from the state they started on. -/
theorem solve_fixpoint (quiet : hook.Quiet) (quiet' : hook'.Quiet) (solver again : Solver)
    (policy : again.policy = solver.policy) {limit : Option Int}
    (passLimit : solver.passLimit = limit) (passLimit' : again.passLimit = limit)
    (room : again.budget + solver.guesses = solver.budget + again.guesses)
    (memory : μ) (memory' : ν) {summary : FixpointSummary}
    (isOpen : puzzle.classify true s = .ok .unsolved)
    (finished : (runToFixpoint puzzle.rules limit s).result = .ok summary)
    (converged : summary.converged = true)
    (stays : puzzle.classify false (runToFixpoint puzzle.rules limit s).state = .ok .unsolved) :
    let direct := solver.solve puzzle hook memory s
    let resumed := again.solve puzzle hook' memory' (runToFixpoint puzzle.rules limit s).state
    resumed.result = direct.result ∧ resumed.state = direct.state ∧
      resumed.solver.guesses + solver.guesses = direct.solver.guesses + again.guesses := by
  have fewer := (narrowsTo_runToFixpoint puzzle.rules limit s).length_undetermined_le
  obtain ⟨still, quietRun⟩ := runToFixpoint_again finished converged
  have limits : again.passLimit = solver.passLimit := passLimit'.trans passLimit.symm
  obtain ⟨node, reached, propagated, ended⟩ :=
    solve_of_open_node quiet memory passLimit isOpen finished converged stays
  obtain ⟨node', reached', propagated', ended'⟩ := solve_of_open_node quiet' memory' passLimit'
    (Puzzle.classify_initial stays) quietRun rfl (still.symm ▸ stays)
  rw [← reached] at fewer stays
  have same : node'.state = node.state := reached'.trans (still.trans reached.symm)
  have mirrors := mirrors_nodes policy limits (by omega) quiet quiet' propagated propagated' same
  have mirrors' := mirrors_nodes policy.symm limits.symm (by omega) quiet' quiet propagated'
    propagated same.symm
  have size := congrArg (·.undetermined.length) reached
  -- With the same room neither call can run out before the other, so each does as the other.
  have trails := Search.trails_of_open puzzle quiet quiet' 0 mirrors stays fewer size.le
  have trails' := Search.trails_of_open puzzle quiet' quiet 0 mirrors' (same.symm ▸ stays)
    (same.symm ▸ size.le) (same.symm ▸ fewer)
  obtain ⟨result, guesses⟩ := trails.antisymm trails'
  intro direct resumed
  rw [show resumed = _ from ended', show direct = _ from ended]
  simp only [result_finish, guesses_finish]
  refine ⟨result, ?_, guesses⟩
  by_cases solved : (node.branch puzzle hook s.undetermined.length 0 .unsolved true).2 = .ok .solved
  · exact state_finish_of_echoes (trails.echoes (by simp [solved]))
  · rw [state_finish_branch (Search.root_of_open propagated) solved,
      state_finish_branch (Search.root_of_open propagated') (result ▸ solved), same]

end Solver

/-- A call that has given up can be taken up: given some more guesses, the same solver comes to what a
new one with as many guesses comes to from the original state, with as many guesses made. -/
theorem solve_resume (quiet : hook'.Quiet) (solver fresh : Solver)
    (policy : fresh.policy = solver.policy) (unlimited : solver.passLimit = none)
    (unlimited' : fresh.passLimit = none) (unused : fresh.guesses = 0)
    {s : State} {memory : μ} (gaveUp : (solver.solve puzzle hook memory s).result = .ok .unsolved)
    (memory' : ν) :
    let first := solver.solve puzzle hook memory s
    ∃ more, first.solver.setBudget (first.solver.guesses + fresh.budget) = .ok more ∧
      let resumed := more.solve puzzle hook' memory' first.state
      let direct := fresh.solve puzzle hook' memory' s
      resumed.result = direct.result ∧ resumed.state = direct.state ∧
        resumed.solver.guesses = first.solver.guesses + direct.solver.guesses := by
  intro first
  obtain ⟨isOpen, ⟨summary, finished, converged⟩, stays⟩ := Solver.open_of_unsolved unlimited gaveUp
  obtain ⟨policy', passLimit'⟩ := Solver.settings_solve puzzle hook memory solver s
  have back : first.state = (runToFixpoint puzzle.rules solver.passLimit s).state := by
    obtain ⟨_, ⟨_, failed⟩ | ⟨⟨_, failed⟩, _⟩⟩ | ⟨_, back⟩ :=
      Solver.state_solve_of_open isOpen (by simp [gaveUp] :
        (solver.solve puzzle hook memory s).result ≠ .ok .solved)
    · exact nomatch finished.symm.trans failed
    · exact nomatch gaveUp.symm.trans failed
    · exact back
  refine ⟨_, Solver.setBudget_add _ _, ?_⟩
  have room : first.solver.guesses + fresh.budget + fresh.guesses =
      fresh.budget + first.solver.guesses := by omega
  obtain ⟨result, state, guesses⟩ := Solver.solve_fixpoint quiet quiet fresh
    { first.solver with budget := first.solver.guesses + fresh.budget }
    (policy'.trans policy.symm) (unlimited'.trans unlimited.symm) passLimit' room
    memory' memory' isOpen finished converged stays
  rw [← back] at result state guesses
  refine ⟨result, state, ?_⟩
  rw [unused] at guesses
  exact guesses.trans (Nat.add_comm _ _)

/-- Out of guesses after two, the call has left what the rule came to; six more guesses are the proof
that six are from the start. -/
theorem solve_resume_hopeless :
    let solver : Solver := ⟨.first, none, 0, 2, .unsolved, false, {}⟩
    let fresh := { solver with budget := 6 }
    let first := solver.solve hopeless Hook.silent () (State.blank 3 2)
    let direct := fresh.solve hopeless Hook.silent () (State.blank 3 2)
    first.result = .ok .unsolved ∧ first.state.candidates 2 = [1] ∧
      ∃ more, first.solver.setBudget (first.solver.guesses + fresh.budget) = .ok more ∧
        let resumed := more.solve hopeless Hook.silent () first.state
        resumed.result = .ok .unsolvable ∧ resumed.state = direct.state ∧
          resumed.solver.guesses = first.solver.guesses + direct.solver.guesses := by
  intro solver fresh first direct
  have gaveUp : first.result = .ok .unsolved := by decide
  have refuted : direct.result = .ok .unsolvable := by decide
  have reached : first.state.candidates 2 = [1] := by decide
  have resumes := solve_resume Hook.quiet_silent solver fresh rfl rfl rfl rfl gaveUp ()
  obtain ⟨more, room, result, state, guesses⟩ := resumes
  refine ⟨gaveUp, reached, more, ?_⟩
  dsimp only [first, direct] at refuted ⊢
  exact ⟨room, result.trans refuted, state, guesses⟩

end PencilPuzzle
