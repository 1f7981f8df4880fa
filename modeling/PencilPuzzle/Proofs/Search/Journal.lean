import PencilPuzzle.Proofs.Search.Soundness

/-!
# What a hook has been told

The events of a search, newest first. Each step that talks to the hook adds one event, and no other
step adds any: what the hook asks for in return is carried out without a word, and the rules that
were consulted are no events.
-/

namespace PencilPuzzle

variable {μ : Type} {hook : Hook μ}

def JournalEntry.event? : JournalEntry → Option Event
  | .consulted _ => none
  | .event reported => some reported

namespace Search

variable {s : Search μ}

def history (search : Search μ) : List Event := search.journal.filterMap JournalEntry.event?

def eventNow (kind : EventKind) (depth : Nat) (guess : Option Guess) (search : Search μ) : Event :=
  ⟨kind, search.state, depth, search.solver.guesses, search.solver.budget, guess⟩

theorem obey_unrecorded (s : Search μ) (commands : List Command) :
    (s.obey commands).1.journal = s.journal ∧
      (s.obey commands).1.solver.stats = s.solver.stats := by
  induction commands generalizing s with
  | nil => exact ⟨rfl, rfl⟩
  | cons command rest ih =>
    cases command with
    | cancel => exact ih { s with solver := s.solver.cancel }
    | fail fault => exact ⟨rfl, rfl⟩
    | setBudget budget =>
      unfold obey
      split
      next => exact ⟨rfl, rfl⟩
      next solver set =>
        obtain ⟨_, rfl⟩ := Solver.setBudget_eq_ok.mp set
        exact ih _

@[simp] theorem history_emit (s : Search μ) (hook : Hook μ) (kind : EventKind) (depth : Nat)
    (guess : Option Guess) :
    (s.emit hook kind depth guess).1.history = s.eventNow kind depth guess :: s.history :=
  congrArg (List.filterMap JournalEntry.event?) (obey_unrecorded _ _).1

@[simp] theorem stats_emit (s : Search μ) (hook : Hook μ) (kind : EventKind) (depth : Nat)
    (guess : Option Guess) : (s.emit hook kind depth guess).1.solver.stats = s.solver.stats :=
  (obey_unrecorded _ _).2

@[simp] theorem history_afterRun (s : Search μ) (puzzle : Puzzle) (depth : Nat) :
    (s.afterRun puzzle depth).history = s.history := by
  simp [history, afterRun, takeRun, reachDepth, JournalEntry.event?, ← List.map_reverse,
    List.filterMap_map, Function.comp_def]

@[simp] theorem history_countFixpoint (s : Search μ) (summary : FixpointSummary) :
    (s.countFixpoint summary).history = s.history := rfl

@[simp] theorem history_settleRoot (s : Search μ) (depth : Nat) :
    (s.settleRoot depth).history = s.history := by
  unfold settleRoot
  split <;> rfl

@[simp] theorem history_afterGuess (s : Search μ) (state : State) :
    (s.afterGuess state).history = s.history := rfl

@[simp] theorem history_takeBack (s : Search μ) (mark : Nat) :
    (s.takeBack mark).history = s.history := rfl

theorem guesses_propagate (puzzle : Puzzle) (hook : Hook μ) (depth : Nat) (s : Search μ) :
    (s.propagate puzzle hook depth).1.solver.guesses = s.solver.guesses := by
  obtain ⟨_, _, ended⟩ | ⟨_, _, _, ended⟩ | ⟨_, _, _, _, ended⟩ | ⟨_, _, _, _, ended⟩ :=
    propagate_cases puzzle hook depth s
  · rw [ended]
    rfl
  · rw [ended]
    rfl
  · rw [ended]
    rfl
  · rw [ended]
    dsimp only
    rw [guesses_emit, settleRoot]
    split <;> rfl

/-- A node's propagation reports the fixpoint it has come to; a contradiction is not reported, and
neither is a fault. -/
theorem history_propagate (puzzle : Puzzle) (hook : Hook μ) (depth : Nat) (s : Search μ) :
    let reply := s.propagate puzzle hook depth
    (reply.1.history = s.history ∧
        ∀ outcome converged, reply.2 = .ok (outcome, converged) → outcome = .unsolvable) ∨
      ∃ event, reply.1.history = event :: s.history ∧ event.kind = .fixpoint ∧ event.depth = depth ∧
        event.state = reply.1.state := by
  intro reply
  obtain ⟨_, _, ended⟩ | ⟨_, _, _, ended⟩ | ⟨summary, _, _, _, ended⟩ | ⟨summary, _, _, _, ended⟩ :=
    propagate_cases puzzle hook depth s
  · rw [show reply = _ from ended]
    refine .inl ⟨history_afterRun s puzzle depth, fun outcome converged found => ?_⟩
    cases found
    rfl
  · rw [show reply = _ from ended]
    exact .inl ⟨history_afterRun s puzzle depth, fun _ _ found => nomatch found⟩
  · rw [show reply = _ from ended]
    exact .inl ⟨history_afterRun s puzzle depth, fun _ _ found => nomatch found⟩
  · rw [show reply = _ from ended]
    refine .inr ⟨((((s.afterRun puzzle depth).countFixpoint summary).settleRoot depth).eventNow
      .fixpoint depth none), ?_, rfl, rfl, (state_emit .fixpoint depth none hook _).symm⟩
    simp

end Search

def SolveReport.history (report : SolveReport μ) : List Event :=
  (report.journal.filterMap JournalEntry.event?).reverse

@[simp] theorem Solver.history_finish (reply : Search.Reply μ Outcome) :
    (finish reply).history = reply.1.history := by
  rw [SolveReport.history, journal_finish, List.filterMap_reverse, List.reverse_reverse]
  rfl

@[simp] theorem Solver.stats_finish (reply : Search.Reply μ Outcome) :
    (finish reply).solver.stats = reply.1.solver.stats := by
  obtain ⟨search, fault | outcome⟩ := reply
  · rfl
  · cases outcome <;> rfl

theorem Solver.solve_unexplored {puzzle : Puzzle} (hook : Hook μ) (memory : μ) (solver : Solver)
    {s : State} (decided : puzzle.classify true s ≠ .ok .unsolved) :
    (solver.solve puzzle hook memory s).history = [] ∧
      (solver.solve puzzle hook memory s).solver.guesses = solver.guesses ∧
      (solver.solve puzzle hook memory s).solver.stats = solver.stats ∧
      (solver.solve puzzle hook memory s).result = puzzle.classify true s := by
  cases classified : puzzle.classify true s with
  | error fault => simp [solve, classified, SolveReport.history]
  | ok outcome =>
    cases outcome with
    | unsolved => exact absurd classified decided
    | solved | unsolvable | invalid =>
      simp [solve, classified, SolveReport.history, Outcome.isTerminal]

end PencilPuzzle
