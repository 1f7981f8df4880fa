import PencilPuzzle.Proofs.Search.Completeness
import PencilPuzzle.Proofs.Search.Journal
import PencilPuzzle.Proofs.Search.Restore

/-!
# How deep and how long a search can be

A guess settles a variable that was open, the rules open none again, and the next value is tried on
the very state that the last one was tried on. So below a node with `m` open variables there are at
most `m` levels of guesses, whatever the rules do: the level limit of the recursion is never met, and
what would happen there does not matter.
-/

namespace PencilPuzzle

open State

variable {μ : Type} {puzzle : Puzzle} {hook : Hook μ}

namespace Search

variable {s t u : Search μ} {openLeft depth v x : Nat} {values : List Nat}

/-! ### The level limit -/

/-- The work at one node, by the way in which the search goes on below it. -/
def visit (puzzle : Puzzle) (hook : Hook μ) (below : Search μ → Reply μ Outcome) (depth : Nat)
    (search : Search μ) : Reply μ Outcome :=
  if search.solver.cancelled then search.giveUp
  else
    match search.propagate puzzle hook depth with
    | (search, .error fault) => (search, .error fault)
    | (search, .ok (outcome, converged)) =>
      if outcome.isTerminal then (search, .ok outcome)
      else if !converged then search.giveUp
      else
        match puzzle.chooseVariable search.solver.policy search.state with
        | .error fault => (search, .error fault)
        | .ok v => tryValues hook below depth v (search.state.candidates v) search

/-- The search that does something of its own where it has no level left. -/
def exploreTo (limit : Nat → Search μ → Reply μ Outcome) (puzzle : Puzzle) (hook : Hook μ) :
    Nat → Nat → Search μ → Reply μ Outcome
  | 0, depth => limit depth
  | levels + 1, depth => visit puzzle hook (exploreTo limit puzzle hook levels (depth + 1)) depth

theorem explore_eq_visit (levels depth : Nat) :
    s.explore puzzle hook (levels + 1) depth =
      s.visit puzzle hook (explore puzzle hook levels (depth + 1)) depth := rfl

section Below

variable {attempt attempt' : Search μ → Reply μ Outcome}
  (agree : ∀ s : Search μ, s.state.undetermined.length ≤ openLeft → attempt' s = attempt s)
include agree

private theorem tryValue_congr (isOpen : v ∈ s.state.undetermined)
    (fewer : s.state.undetermined.length ≤ openLeft + 1) :
    s.tryValue hook attempt' depth v x = s.tryValue hook attempt depth v x := by
  rw [tryValue_eq, tryValue_eq]
  split
  next => rfl
  next state _ assigned =>
    have settled := length_undetermined_assign assigned isOpen
    have same := state_emit .guess (depth + 1) (some ⟨v, x⟩) hook (s.afterGuess state)
    split
    next => rfl
    next told emitted =>
      rw [emitted] at same
      rw [agree told]
      rw [show told.state = state from same]
      omega

private theorem tryValues_congr (below : ∀ s : Search μ, s.Leads (attempt s).1)
    (isOpen : v ∈ s.state.undetermined) (fewer : s.state.undetermined.length ≤ openLeft + 1) :
    s.tryValues hook attempt' depth v values = s.tryValues hook attempt depth v values := by
  induction values generalizing s with
  | nil => rfl
  | cons x rest ih =>
    rw [tryValues_cons, tryValues_cons, tryValue_congr agree isOpen fewer]
    split
    next => rfl
    next =>
      split
      next => rfl
      next => rfl
      next t outcome other tried =>
        -- The variable is open again, since the state is the one the value was tried on.
        have back := state_tryValue below tried other
        exact ih (back ▸ isOpen) (back ▸ fewer)

end Below

/-- What a node comes to depends only on what is done at searches with fewer open variables. -/
theorem visit_congr {below below' : Search μ → Reply μ Outcome}
    (leads : ∀ s : Search μ, s.Leads (below s).1)
    (agree : ∀ u : Search μ, u.state.undetermined.length < s.state.undetermined.length →
      below' u = below u) :
    s.visit puzzle hook below' depth = s.visit puzzle hook below depth := by
  have rooted := leads_propagate puzzle hook depth s
  unfold visit
  split
  next => rfl
  next =>
    split
    next => rfl
    next t outcome converged propagated =>
      rw [propagated] at rooted
      have fewer : t.state.undetermined.length ≤ s.state.undetermined.length :=
        rooted.state.length_undetermined_le
      split
      next => rfl
      next goesOn =>
        split
        next => rfl
        next =>
          split
          next => rfl
          next v chosen =>
            obtain ⟨isOpen, openLeft, counted⟩ :=
              open_of_chosen (propagate_notEmpty propagated (by simpa using goesOn)) chosen
            exact tryValues_congr (fun u few => agree u (by omega)) leads isOpen counted.le

/-- With a level for each open variable, and one more, the limit is not met. -/
theorem exploreTo_eq (limit : Nat → Search μ → Reply μ Outcome) (puzzle : Puzzle) (hook : Hook μ)
    (levels depth : Nat) (enough : s.state.undetermined.length < levels) :
    s.exploreTo limit puzzle hook levels depth = s.explore puzzle hook levels depth := by
  induction levels generalizing s depth with
  | zero => exact absurd enough (Nat.not_lt_zero _)
  | succ levels ih =>
    rw [explore_eq_visit, exploreTo]
    exact visit_congr (fun u => leads_explore puzzle hook (Nat.succ_ne_zero depth) levels u)
      fun u fewer => ih (depth + 1) (by omega)

/-! ### Depth -/

/-- On the way from `s` to `t` the search has been at no depth beyond `bound`. -/
structure Reaches (bound : Nat) (s t : Search μ) : Prop where
  events : ∀ event ∈ t.history, event ∈ s.history ∨ event.depth ≤ bound
  maxDepth : t.solver.stats.maxDepth ≤ max s.solver.stats.maxDepth bound

namespace Reaches

variable {bound : Nat}

private theorem of_same (history : t.history = s.history)
    (maxDepth : t.solver.stats.maxDepth = s.solver.stats.maxDepth) : s.Reaches bound t where
  events _ member := .inl (history ▸ member)
  maxDepth := maxDepth.trans_le (Nat.le_max_left _ _)

theorem refl : s.Reaches bound s := of_same rfl rfl

theorem trans (first : s.Reaches bound t) (second : t.Reaches bound u) : s.Reaches bound u where
  events event member := by
    obtain earlier | within := second.events event member
    · exact first.events event earlier
    · exact .inr within
  maxDepth := by
    have := first.maxDepth
    have := second.maxDepth
    omega

theorem emit (s : Search μ) (hook : Hook μ) (kind : EventKind) (within : depth ≤ bound)
    (guess : Option Guess) : s.Reaches bound (s.emit hook kind depth guess).1 where
  events event member := by
    rw [history_emit, List.mem_cons] at member
    obtain rfl | earlier := member
    · exact .inr within
    · exact .inl earlier
  maxDepth := by
    rw [stats_emit]
    exact Nat.le_max_left _ _

theorem afterRun (puzzle : Puzzle) (within : depth ≤ bound) (s : Search μ) :
    s.Reaches bound (s.afterRun puzzle depth) where
  events event member := .inl (history_afterRun s puzzle depth ▸ member)
  maxDepth := by
    change max s.solver.stats.maxDepth depth ≤ _
    omega

theorem settleRoot (s : Search μ) (depth : Nat) : s.Reaches bound (s.settleRoot depth) := by
  unfold Search.settleRoot
  split <;> exact of_same rfl rfl

theorem propagate (puzzle : Puzzle) (hook : Hook μ) (within : depth ≤ bound) (s : Search μ) :
    s.Reaches bound (s.propagate puzzle hook depth).1 := by
  have run := afterRun puzzle within s
  obtain ⟨_, _, ended⟩ | ⟨_, _, _, ended⟩ | ⟨summary, _, _, _, ended⟩ | ⟨summary, _, _, _, ended⟩ :=
    propagate_cases puzzle hook depth s
  · rw [ended]
    exact run
  · rw [ended]
    exact run
  · rw [ended]
    exact run.trans (of_same rfl rfl)
  · rw [ended]
    have counted : s.Reaches bound ((s.afterRun puzzle depth).countFixpoint summary) :=
      run.trans (of_same rfl rfl)
    exact (counted.trans (settleRoot _ depth)).trans (emit _ hook .fixpoint within none)

theorem closeTry (hook : Hook μ) (mark : Nat) (within : depth ≤ bound) (guess : Guess)
    {reply : Reply μ Outcome} (explored : s.Reaches bound reply.1) :
    s.Reaches bound (Search.closeTry hook mark depth guess reply).1 := by
  obtain ⟨below, fault | outcome⟩ := reply
  · exact explored
  · cases outcome with
    | solved => exact explored
    | unsolved | unsolvable | invalid =>
      have back : s.Reaches bound (below.takeBack mark) := explored.trans (of_same rfl rfl)
      exact back.trans (emit _ hook .backtrack within (some guess))

end Reaches

section Below

variable {attempt : Search μ → Reply μ Outcome} {bound : Nat}
  (reaches : ∀ s : Search μ, s.state.undetermined.length ≤ openLeft → s.Reaches bound (attempt s).1)
include reaches

private theorem tryValue_reaches (within : depth + 1 ≤ bound) (isOpen : v ∈ s.state.undetermined)
    (fewer : s.state.undetermined.length ≤ openLeft + 1) :
    s.Reaches bound (s.tryValue hook attempt depth v x).1 := by
  rw [tryValue_eq]
  split
  next => exact Reaches.refl
  next state _ assigned =>
    have settled := length_undetermined_assign assigned isOpen
    have same := state_emit .guess (depth + 1) (some ⟨v, x⟩) hook (s.afterGuess state)
    have guessed : s.Reaches bound (s.afterGuess state) := Reaches.of_same rfl rfl
    have tell := guessed.trans (Reaches.emit _ hook .guess within (some ⟨v, x⟩))
    split
    next told fault emitted =>
      rw [emitted] at tell
      exact tell
    next told emitted =>
      rw [emitted] at tell same
      have few : told.state.undetermined.length ≤ openLeft := by
        rw [show told.state = state from same]
        omega
      exact (tell.trans (reaches told few)).closeTry hook s.state.mark (by omega) ⟨v, x⟩

private theorem tryValues_reaches (below : ∀ s : Search μ, s.Leads (attempt s).1)
    (within : depth + 1 ≤ bound) (isOpen : v ∈ s.state.undetermined)
    (fewer : s.state.undetermined.length ≤ openLeft + 1) :
    s.Reaches bound (s.tryValues hook attempt depth v values).1 := by
  induction values generalizing s with
  | nil => exact Reaches.refl
  | cons x rest ih =>
    have tried : s.Reaches bound (s.tryValue hook attempt depth v x).1 :=
      tryValue_reaches reaches within isOpen fewer
    rw [tryValues_eq_goOn]
    split
    next => exact Reaches.of_same rfl rfl
    next =>
      refine goOn_induction (P := fun reply => s.Reaches bound reply.1) tried
        fun t outcome ended other => ?_
      have back := state_tryValue below ended other
      rw [ended] at tried
      exact tried.trans (ih (back ▸ isOpen) (back ▸ fewer))

end Below

/-- No depth is reached beyond the number of variables that were open above. -/
theorem explore_reaches (puzzle : Puzzle) (hook : Hook μ) (levels depth : Nat) {bound : Nat}
    (within : depth + s.state.undetermined.length ≤ bound) :
    s.Reaches bound (s.explore puzzle hook levels depth).1 := by
  induction levels generalizing s depth with
  | zero => exact Reaches.of_same rfl rfl
  | succ levels ih =>
    have node := Reaches.propagate puzzle hook (Nat.le_of_add_right_le within) s
    have rooted := leads_propagate puzzle hook depth s
    rw [explore_succ]
    split
    next => exact Reaches.of_same rfl rfl
    next =>
      split
      next propagated =>
        rw [propagated] at node
        exact node
      next t found converged propagated =>
        rw [propagated] at node rooted
        have fewer : t.state.undetermined.length ≤ s.state.undetermined.length :=
          rooted.state.length_undetermined_le
        refine node.trans ?_
        unfold branch
        split
        next => exact Reaches.refl
        next goesOn =>
          split
          next => exact Reaches.of_same rfl rfl
          next =>
            split
            next => exact Reaches.refl
            next v chosen =>
              obtain ⟨isOpen, openLeft, counted⟩ :=
                open_of_chosen (propagate_notEmpty propagated (by simpa using goesOn)) chosen
              exact tryValues_reaches (fun u few => ih (depth + 1) (by omega))
                (fun u => leads_explore puzzle hook (Nat.succ_ne_zero depth) levels u) (by omega)
                isOpen counted.le

end Search

/-! ### Calls -/

namespace Solver

private theorem reaches_solve (puzzle : Puzzle) (hook : Hook μ) (memory : μ) (solver : Solver) (s : State) :
    let report := solver.solve puzzle hook memory s
    (∀ event ∈ report.history, event.depth ≤ s.undetermined.length) ∧
      report.solver.stats.maxDepth ≤ max solver.stats.maxDepth s.undetermined.length := by
  by_cases isOpen : puzzle.classify true s = .ok .unsolved
  · have reaches := Search.explore_reaches puzzle hook (Search.enoughLevels s) 0
      (s := start { solver with cancelled := false } memory s) (Nat.zero_add _).le
    simp only [solve_eq_finish isOpen, history_finish, stats_finish]
    refine ⟨fun event member => ?_, reaches.maxDepth⟩
    obtain earlier | within := reaches.events event member
    · exact absurd earlier List.not_mem_nil
    · exact within
  · intro report
    obtain ⟨silent, _, stats, _⟩ : report.history = [] ∧ _ := solve_unexplored hook memory solver isOpen
    rw [silent, stats]
    exact ⟨fun event member => absurd member List.not_mem_nil, Nat.le_max_left _ _⟩

private theorem guesses_solve_le {s : State} (givens : s.GivensHold)
    (wellBehaved : puzzle.WellBehaved s.frame) (quiet : hook.Quiet) {solver : Solver}
    (unlimited : solver.passLimit = none) (memory : μ) :
    (solver.solve puzzle hook memory s).solver.guesses ≤
      solver.guesses + Search.guessBound s.size s.undetermined.length := by
  by_cases isOpen : puzzle.classify true s = .ok .unsolved
  · have ready : (start { solver with cancelled := false } memory s).Ready s.frame :=
      ⟨rfl, givens, unlimited, rfl⟩
    rw [solve_eq_finish isOpen, guesses_finish]
    obtain ⟨faulty, _⟩ | ⟨t, outcome, explored, spends, _⟩ :=
      Search.explore_ends puzzle quiet (Search.enoughLevels s) 0 ready (Nat.lt_succ_self _)
    · exact absurd wellBehaved faulty
    · rw [explored]
      exact spends.guesses
  · rw [(solve_unexplored hook memory solver isOpen).2.1]
    exact Nat.le_add_right _ _

end Solver

/-- On a puzzle that works as it should, a call comes to an end. The rules get to their fixpoint or to
a contradiction wherever they run, the level limit is not met, no guess is nested deeper than there
are open variables, and there are no more guesses than a tree of that depth has; with room for that
many there is a verdict. -/
theorem solve_terminates {s : State} (reachable : s.Reachable)
    (wellBehaved : puzzle.WellBehaved s.frame) (quiet : hook.Quiet) {solver : Solver}
    (unlimited : solver.passLimit = none) (memory : μ) :
    let start := Solver.start { solver with cancelled := false } memory s
    let report := solver.solve puzzle hook memory s
    let most := Search.guessBound s.size s.undetermined.length
    (∀ t : State, t.frame = s.frame →
        (∃ cause, (runToFixpoint puzzle.rules none t).result = .error (.contradiction cause)) ∨
          ∃ summary, (runToFixpoint puzzle.rules none t).result = .ok summary ∧
            summary.converged = true) ∧
      (∀ limit, start.exploreTo limit puzzle hook (Search.enoughLevels s) 0 =
        start.explore puzzle hook (Search.enoughLevels s) 0) ∧
      (∃ outcome, report.result = .ok outcome) ∧
      (∀ event ∈ report.history, event.depth ≤ s.undetermined.length) ∧
      report.solver.stats.maxDepth ≤ max solver.stats.maxDepth s.undetermined.length ∧
      report.solver.guesses ≤ solver.guesses + most ∧
      (solver.guesses + most ≤ solver.budget → report.result ≠ .ok .unsolved) := by
  have givens := reachable.settled.givens
  obtain ⟨shallow, maxDepth⟩ := Solver.reaches_solve puzzle hook memory solver s
  obtain ⟨fails, decides⟩ := Solver.solve_ends puzzle memory givens quiet unlimited
  intro start report most
  have returns : ∃ outcome, report.result = .ok outcome := by
    cases ended : report.result with
    | error fault => exact absurd wellBehaved (fails fault ended)
    | ok outcome => exact ⟨outcome, rfl⟩
  refine ⟨fun t shape => runToFixpoint_wellBehaved shape wellBehaved.rules, fun limit => ?_, returns,
    shallow, maxDepth, Solver.guesses_solve_le givens wellBehaved quiet unlimited memory, decides⟩
  exact Search.exploreTo_eq limit puzzle hook (Search.enoughLevels s) 0 (Nat.lt_succ_self _)

private theorem wellBehaved_hopeless : hopeless.WellBehaved (State.blank 3 2).frame where
  rules := by
    intro rule listed t shape
    cases List.mem_singleton.mp listed
    refine ⟨FailsOnly.ok, fun updates deduced update proposed => ?_⟩
    cases deduced
    cases List.mem_singleton.mp proposed
    exact ⟨⟨2, by decide, rfl⟩, fun reference member => ⟨0, by decide, List.mem_singleton.mp member⟩⟩
  consistent _ _ := ⟨true, rfl⟩
  solved _ _ _ := ⟨false, rfl⟩
  inRange t shape := shape ▸ (Puzzle.order_none rfl t).1
  covers t _ := (Puzzle.order_none rfl t).2

/-- Three variables with two values each need at most fourteen guesses, at most three deep. -/
theorem solve_terminates_hopeless :
    let solver : Solver := ⟨.first, none, 0, 14, .unsolved, false, {}⟩
    let report := solver.solve hopeless Hook.silent () (State.blank 3 2)
    report.result = .ok .unsolvable ∧ report.result ≠ .ok .unsolved ∧
      (∀ event ∈ report.history, event.depth ≤ 3) ∧ report.solver.guesses ≤ 14 := by
  intro solver report
  have refuted : report.result = .ok .unsolvable := by decide
  have three : (State.blank 3 2).undetermined.length = 3 := by decide
  have fourteen : solver.guesses + Search.guessBound (State.blank 3 2).size
      (State.blank 3 2).undetermined.length = 14 := by decide
  have reachable : (State.blank 3 2).Reachable := ⟨3, 2, _, rfl, .refl⟩
  obtain ⟨_, _, _, shallow, _, cheap, decides⟩ := solve_terminates reachable wellBehaved_hopeless
    Hook.quiet_silent (rfl : solver.passLimit = none) ()
  rw [three] at shallow
  rw [fourteen] at cheap decides
  refine ⟨refuted, decides (Nat.le_refl _), shallow, ?_⟩
  dsimp only [report]
  exact cheap

end PencilPuzzle
