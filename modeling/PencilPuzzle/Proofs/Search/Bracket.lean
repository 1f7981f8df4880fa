import PencilPuzzle.Proofs.Search.Journal

/-!
# Guesses and backtracks as brackets

The events of a call form a bracket sequence: a guess opens a bracket, the backtrack that takes it
back closes it, and the depth of an event is the number of brackets around it. A backtrack shows the
very state that the rules had left at its node. This holds of all that has been told, also when the
search is cancelled, runs out of guesses or fails half-way; only a solution leaves brackets open.
-/

namespace PencilPuzzle

open State

variable {μ : Type} {puzzle : Puzzle} {hook : Hook μ}

/-! ### Histories, newest event first -/

/-- The guesses that have not been taken back, the latest first. -/
def openGuesses : List Event → List Event
  | [] => []
  | event :: earlier =>
    match event.kind with
    | .guess => event :: openGuesses earlier
    | .backtrack => (openGuesses earlier).tail
    | .fixpoint => openGuesses earlier

def lastFixpoint? (history : List Event) (depth : Nat) : Option Event :=
  history.find? fun event => event.kind = .fixpoint ∧ event.depth = depth

def guessNumbers (history : List Event) : List Nat :=
  ((history.filter (·.kind = .guess)).map (·.guesses)).reverse

/-- The event belongs where it is: its depth is the number of open guesses, and a backtrack takes back
the latest of them and brings back the state that the rules had left before it. -/
structure Event.Follows (event : Event) (earlier : List Event) : Prop where
  depth : event.depth = (openGuesses (event :: earlier)).length
  backtrack : event.kind = .backtrack → ∃ made rest guess fixed, openGuesses earlier = made :: rest ∧
    made.guess = some guess ∧ event.guess = some guess ∧ made.depth = event.depth + 1 ∧
    lastFixpoint? earlier event.depth = some fixed ∧ fixed.state = event.state

def Bracketed (history : List Event) : Prop :=
  ∀ later event earlier, history = later ++ event :: earlier → event.Follows earlier

theorem bracketed_nil : Bracketed [] := by
  intro later event earlier split
  simp at split

theorem Bracketed.cons {event : Event} {earlier : List Event} (follows : event.Follows earlier)
    (bracketed : Bracketed earlier) : Bracketed (event :: earlier) := by
  intro later found before split
  cases later with
  | nil =>
    cases split
    exact follows
  | cons front later =>
    rw [List.cons_append, List.cons.injEq] at split
    exact bracketed later found before split.2

private theorem lastFixpoint?_cons_of_ne {event : Event} {depth : Nat} (earlier : List Event)
    (other : ¬ (event.kind = .fixpoint ∧ event.depth = depth)) :
    lastFixpoint? (event :: earlier) depth = lastFixpoint? earlier depth :=
  List.find?_cons_of_neg (by simpa using other)

private theorem guessNumbers_cons_guess {event : Event} (isGuess : event.kind = .guess)
    (earlier : List Event) :
    guessNumbers (event :: earlier) = guessNumbers earlier ++ [event.guesses] := by
  rw [guessNumbers, List.filter_cons_of_pos (by simp [isGuess]), List.map_cons, List.reverse_cons]
  rfl

private theorem guessNumbers_cons_of_ne {event : Event} (other : event.kind ≠ .guess)
    (earlier : List Event) : guessNumbers (event :: earlier) = guessNumbers earlier := by
  rw [guessNumbers, List.filter_cons_of_neg (by simp [other])]
  rfl

namespace Search

variable {s t : Search μ} {first depth : Nat} {outcome : Outcome}

/-- The history of a search that began with `first` guesses made. -/
structure Orderly (first : Nat) (search : Search μ) : Prop where
  bracketed : Bracketed search.history
  numbered : ∃ made, search.solver.guesses = first + made ∧
    guessNumbers search.history = List.range' (first + 1) made

theorem Orderly.tell (orderly : s.Orderly first) {event : Event}
    (history : t.history = event :: s.history) (guesses : t.solver.guesses = s.solver.guesses)
    (other : event.kind ≠ .guess) (follows : event.Follows s.history) : t.Orderly first := by
  refine ⟨?_, ?_⟩
  · rw [history]
    exact orderly.bracketed.cons follows
  · rw [history, guesses, guessNumbers_cons_of_ne other]
    exact orderly.numbered

private theorem Orderly.tell_fixpoint (orderly : s.Orderly first)
    (here : (openGuesses s.history).length = depth)
    {fixed : Event} (history : t.history = fixed :: s.history)
    (guesses : t.solver.guesses = s.solver.guesses) (kind : fixed.kind = .fixpoint)
    (atDepth : fixed.depth = depth) :
    t.Orderly first ∧ openGuesses t.history = openGuesses s.history ∧
      ∀ k < depth, lastFixpoint? t.history k = lastFixpoint? s.history k := by
  refine ⟨orderly.tell history guesses (by simp [kind]) ⟨?_, fun back => ?_⟩, ?_, fun k less => ?_⟩
  · rw [openGuesses, kind, atDepth, here]
  · exact nomatch kind.symm.trans back
  · rw [history, openGuesses, kind]
  · rw [history]
    exact lastFixpoint?_cons_of_ne _ (by omega)

private theorem Orderly.emit_guess (orderly : s.Orderly first) (hook : Hook μ) (state : State)
    (guess : Option Guess) (here : (openGuesses s.history).length = depth) :
    ((s.afterGuess state).emit hook .guess (depth + 1) guess).1.Orderly first := by
  obtain ⟨made, guesses, numbers⟩ := orderly.numbered
  refine ⟨?_, made + 1, ?_, ?_⟩
  · rw [history_emit]
    refine orderly.bracketed.cons ⟨?_, fun back => nomatch back⟩
    simp [openGuesses, eventNow, here]
  · rw [guesses_emit, afterGuess, guesses]
    rfl
  · rw [history_emit, guessNumbers_cons_guess rfl, history_afterGuess, numbers,
      List.range'_1_concat, eventNow, afterGuess, guesses, Nat.add_right_comm]

/-- What exploring at a depth, from `s` on, adds to the history: nothing at smaller depths, and
guesses that stay open only if the puzzle is solved. -/
structure Closes (first depth : Nat) (s : Search μ) (reply : Reply μ Outcome) : Prop where
  orderly : reply.1.Orderly first
  above : ∀ k < depth, lastFixpoint? reply.1.history k = lastFixpoint? s.history k
  closed : ∀ outcome, reply.2 = .ok outcome → outcome ≠ .solved →
    openGuesses reply.1.history = openGuesses s.history
  solved : reply.2 = .ok .solved → ∃ last earlier,
    reply.1.history = last :: earlier ∧ last.kind = .fixpoint

theorem Closes.trans {reply : Reply μ Outcome} (here : Closes first depth s (t, .ok outcome))
    (other : outcome ≠ .solved) (later : Closes first depth t reply) : Closes first depth s reply where
  orderly := later.orderly
  above k deeper := (later.above k deeper).trans (here.above k deeper)
  closed found ended unsolved := (later.closed found ended unsolved).trans (here.closed outcome rfl other)
  solved := later.solved

theorem Orderly.stays (orderly : s.Orderly first) {reply : Reply μ Outcome}
    (history : reply.1.history = s.history) (guesses : reply.1.solver.guesses = s.solver.guesses)
    (solved : reply.2 = .ok .solved → ∃ last earlier, s.history = last :: earlier ∧ last.kind = .fixpoint) :
    Closes first depth s reply where
  orderly := by
    obtain ⟨bracketed, numbered⟩ := orderly
    rw [← history] at bracketed numbered
    rw [← guesses] at numbered
    exact ⟨bracketed, numbered⟩
  above _ _ := by rw [history]
  closed _ _ _ := by rw [history]
  solved ended := by
    rw [history]
    exact solved ended

/-- Closing a try takes the guess back, unless it solved the puzzle or something failed. -/
theorem Closes.closeTry {made fixed : Event} {guess : Guess} {reply : Reply μ Outcome}
    (explored : Closes first (depth + 1) t reply) (leads : s.Leads reply.1)
    (history : t.history = made :: s.history) (isGuess : made.kind = .guess)
    (value : made.guess = some guess) (deeper : made.depth = depth + 1)
    (here : (openGuesses s.history).length = depth)
    (reached : lastFixpoint? s.history depth = some fixed) (same : fixed.state = s.state) :
    Closes first (depth + 1) s (Search.closeTry hook s.state.mark depth guess reply) := by
  obtain ⟨below, result⟩ := reply
  have above (k : Nat) (le : k < depth + 1) :
      lastFixpoint? below.history k = lastFixpoint? s.history k := by
    rw [explored.above k le, history]
    exact lastFixpoint?_cons_of_ne _ (by simp [isGuess])
  rcases result with fault | outcome
  · exact ⟨explored.orderly, above, fun _ ended => (nomatch ended), fun ended => nomatch ended⟩
  cases outcome with
  | solved =>
    refine ⟨explored.orderly, above, fun found ended unsolved => ?_, explored.solved⟩
    exact absurd (Except.ok.inj ended).symm unsolved
  | unsolved | unsolvable | invalid =>
    -- Whatever was guessed below is closed again, so the guess of this try is the latest open one.
    have opened : openGuesses below.history = made :: openGuesses s.history := by
      rw [explored.closed _ rfl (by simp), history, openGuesses, isGuess]
    have back : (below.takeBack s.state.mark).state = s.state := (leads_takeBack leads).1
    have follows : ((below.takeBack s.state.mark).eventNow .backtrack depth (some guess)).Follows
        below.history := by
      refine ⟨?_, fun _ => ⟨made, _, guess, fixed, opened, value, rfl, deeper, ?_, same.trans back.symm⟩⟩
      · simp [openGuesses, eventNow, opened, here]
      · exact (above depth (Nat.lt_succ_self depth)).trans reached
    have told := history_emit (below.takeBack s.state.mark) hook .backtrack depth (some guess)
    have guesses := guesses_emit .backtrack depth (some guess) hook (below.takeBack s.state.mark)
    dsimp only [Search.closeTry]
    refine ⟨explored.orderly.tell told guesses (by simp [eventNow]) follows, fun k le => ?_,
      fun _ _ _ => ?_, fun ended => ?_⟩
    · rw [told, lastFixpoint?_cons_of_ne _ (by simp [eventNow])]
      exact above k le
    · rw [told]
      simp [openGuesses, eventNow, opened]
    · obtain ⟨_, _, unsolved⟩ := map_eq_ok.mp ended
      exact nomatch unsolved

section Below

variable {attempt : Search μ → Reply μ Outcome} {v x : Nat} {values : List Nat}
  (below : ∀ s : Search μ, s.Leads (attempt s).1)
  (closes : ∀ s : Search μ, s.Orderly first → (openGuesses s.history).length = depth + 1 →
    Closes first (depth + 1) s (attempt s))
include below closes

private theorem tryValue_closes (orderly : s.Orderly first) (here : (openGuesses s.history).length = depth)
    {fixed : Event} (reached : lastFixpoint? s.history depth = some fixed)
    (same : fixed.state = s.state) :
    Closes first (depth + 1) s (s.tryValue hook attempt depth v x) := by
  rw [tryValue_eq]
  split
  next => exact orderly.stays rfl rfl fun solved => nomatch solved
  next state _ assigned =>
    have guessed := orderly.emit_guess hook state (some ⟨v, x⟩) here
    have history := history_emit (s.afterGuess state) hook .guess (depth + 1) (some ⟨v, x⟩)
    have leads := (leads_afterGuess assigned).trans
      (leads_emit .guess (depth + 1) (some ⟨v, x⟩) hook (s.afterGuess state))
    split
    next told fault emitted =>
      rw [emitted] at guessed history
      refine ⟨guessed, fun k _ => ?_, fun _ ended => (nomatch ended), fun ended => nomatch ended⟩
      rw [history]
      exact lastFixpoint?_cons_of_ne _ (by simp [eventNow])
    next told emitted =>
      rw [emitted] at guessed history leads
      have deeper : (openGuesses told.history).length = depth + 1 := by
        rw [history]
        exact congrArg Nat.succ here
      exact (closes told guessed deeper).closeTry (leads.trans (below told)) history rfl rfl rfl here
        reached same

private theorem tryValues_closes (orderly : s.Orderly first) (here : (openGuesses s.history).length = depth)
    {fixed : Event} (reached : lastFixpoint? s.history depth = some fixed)
    (same : fixed.state = s.state) :
    Closes first (depth + 1) s (s.tryValues hook attempt depth v values) := by
  induction values generalizing s with
  | nil =>
    refine orderly.stays rfl rfl fun solved => ?_
    rw [tryValues] at solved
    split at solved <;> simp at solved
  | cons x rest ih =>
    rw [tryValues_eq_goOn]
    split
    next => exact orderly.stays rfl rfl (by simp [giveUp])
    next =>
      have tried : Closes first (depth + 1) s (s.tryValue hook attempt depth v x) :=
        tryValue_closes below closes orderly here reached same
      refine goOn_induction tried fun t outcome ended other => ?_
      -- The next value starts like this one: same state, same open guesses, same last fixpoint here.
      have back := state_tryValue below ended other
      rw [ended] at tried
      refine tried.trans other (ih tried.orderly ?_ ?_ (same.trans back.symm))
      · rw [tried.closed outcome rfl other]
        exact here
      · exact (tried.above depth (Nat.lt_succ_self depth)).trans reached

end Below

private theorem branch_closes (puzzle : Puzzle) {levels : Nat} {found : Outcome} {converged : Bool}
    (closes : ∀ s : Search μ, s.Orderly first → (openGuesses s.history).length = depth + 1 →
      Closes first (depth + 1) s (s.explore puzzle hook levels (depth + 1)))
    (orderly : s.Orderly first) (here : (openGuesses s.history).length = depth)
    {fixed : Event} {earlier : List Event} (history : s.history = fixed :: earlier)
    (kind : fixed.kind = .fixpoint) (atDepth : fixed.depth = depth) (same : fixed.state = s.state) :
    Closes first (depth + 1) s (s.branch puzzle hook levels depth found converged) := by
  have reached : lastFixpoint? s.history depth = some fixed := by
    rw [history]
    exact List.find?_cons_of_pos (by simp [kind, atDepth])
  unfold branch
  split
  next => exact orderly.stays rfl rfl fun _ => ⟨fixed, earlier, history, kind⟩
  next =>
    split
    next => exact orderly.stays rfl rfl fun solved => nomatch solved
    next =>
      split
      next => exact orderly.stays rfl rfl fun solved => nomatch solved
      next v _ =>
        exact tryValues_closes (fun u => leads_explore puzzle hook (Nat.succ_ne_zero depth) levels u)
          closes orderly here reached same

private theorem explore_closes (puzzle : Puzzle) (hook : Hook μ) (levels depth : Nat)
    (orderly : s.Orderly first) (here : (openGuesses s.history).length = depth) :
    Closes first depth s (s.explore puzzle hook levels depth) := by
  induction levels generalizing s depth with
  | zero => exact orderly.stays rfl rfl fun solved => nomatch solved
  | succ levels ih =>
    rw [explore_succ]
    split
    next => exact orderly.stays rfl rfl fun solved => nomatch solved
    next =>
      have node := history_propagate puzzle hook depth s
      have guesses := guesses_propagate puzzle hook depth s
      rcases propagated : s.propagate puzzle hook depth with ⟨t, result⟩
      rw [propagated] at node guesses
      obtain ⟨history, silent⟩ | ⟨fixed, history, kind, atDepth, same⟩ := node
      · -- A contradiction or a fault: the node is over without an event.
        rcases result with fault | ⟨found, converged⟩
        · exact orderly.stays history guesses fun solved => nomatch solved
        · obtain rfl := silent found converged rfl
          exact orderly.stays history guesses fun solved => nomatch solved
      · obtain ⟨orderly', kept, above⟩ := orderly.tell_fixpoint here history guesses kind atDepth
        rcases result with fault | ⟨found, converged⟩
        · exact ⟨orderly', above, fun _ ended => (nomatch ended), fun ended => nomatch ended⟩
        · have branched : Closes first (depth + 1) t
              (t.branch puzzle hook levels depth found converged) :=
            branch_closes puzzle (fun u orderly here => ih (depth + 1) orderly here) orderly'
              ((congrArg List.length kept).trans here) history kind atDepth same
          exact ⟨branched.orderly,
            fun k less => (branched.above k (Nat.lt_succ_of_lt less)).trans (above k less),
            fun outcome ended unsolved => (branched.closed outcome ended unsolved).trans kept,
            branched.solved⟩

end Search

/-- What has been told in a call is a bracket sequence with consecutive guess numbers; its guesses
are all taken back, unless the puzzle is solved: then as many are open as the depth at which it was. -/
theorem solve_bracketed (puzzle : Puzzle) (hook : Hook μ) (memory : μ) (solver : Solver) (s : State) :
    let report := solver.solve puzzle hook memory s
    (∀ later event earlier, report.history = later ++ event :: earlier → event.Follows earlier) ∧
      (∃ made, report.solver.guesses = solver.guesses + made ∧
        guessNumbers report.history = List.range' (solver.guesses + 1) made) ∧
      (∀ outcome, report.result = .ok outcome → outcome ≠ .solved → openGuesses report.history = []) ∧
      (report.result = .ok .solved → puzzle.classify true s = .ok .solved ∧ report.history = [] ∨
        ∃ last, report.history.find? (·.kind = .fixpoint) = some last ∧
          (openGuesses report.history).length = last.depth) := by
  by_cases isOpen : puzzle.classify true s = .ok .unsolved
  · have orderly : (Solver.start { solver with cancelled := false } memory s).Orderly solver.guesses :=
      ⟨bracketed_nil, 0, rfl, rfl⟩
    obtain ⟨⟨bracketed, numbered⟩, _, closed, solved⟩ :=
      Search.explore_closes puzzle hook (Search.enoughLevels s) 0 orderly rfl
    simp only [Solver.solve_eq_finish isOpen, Solver.history_finish, Solver.guesses_finish,
      Solver.result_finish]
    refine ⟨bracketed, numbered, closed, fun ended => .inr ?_⟩
    obtain ⟨last, earlier, history, kind⟩ := solved ended
    have follows := bracketed [] last earlier history
    rw [history]
    exact ⟨last, List.find?_cons_of_pos (by simp [kind]), follows.depth.symm⟩
  · intro report
    obtain ⟨silent, unused, _, verdict⟩ : report.history = [] ∧ _ :=
      Solver.solve_unexplored hook memory solver isOpen
    rw [silent]
    refine ⟨bracketed_nil, ⟨0, unused, rfl⟩, fun _ _ _ => rfl, fun solved => .inl ⟨?_, rfl⟩⟩
    exact verdict.symm.trans solved

example :
    let solver : Solver := ⟨.first, none, 0, 1, .unsolved, false, {}⟩
    let report := solver.solve unlikePair Hook.silent () (State.blank 2 2)
    report.history.map (fun event => (event.kind, event.depth)) =
      [(.fixpoint, 1), (.guess, 1), (.fixpoint, 0)] := by decide

end PencilPuzzle
