import PencilPuzzle.Proofs.Search.Invariant

/-!
# Cancelling at an event

A hook that cancels at one event is compared with one that does nothing. Up to that event both calls
do the same. After it the cancelled one only takes guesses back: it stops at the next place where it
would run the rules or guess, and gives up there. If no such place is left on its way up, it ends as
the other does, because then the verdict was already known.
-/

namespace PencilPuzzle

open State

variable {μ ν : Type} {puzzle : Puzzle} {k : Nat}

/-- Cancels at the event before which it was told of `k` others. -/
def Hook.cancelsAt (k : Nat) : Hook Nat := fun before _ =>
  (before + 1, if before = k then [.cancel] else [])

namespace Search

variable {s t : Search Unit} {s' t' : Search Nat} {event : Event} {before : List JournalEntry}
  {kind : EventKind} {depth : Nat} {guess : Option Guess}

/-! ### The journal grows -/

private theorem journal_emit (hook : Hook μ) (kind : EventKind) (depth : Nat) (guess : Option Guess)
    (s : Search μ) : s.journal <:+ (s.emit hook kind depth guess).1.journal := by
  unfold Search.emit
  dsimp only
  rw [(obey_unrecorded _ _).1]
  exact List.suffix_cons ..

private theorem invariant_journal (puzzle : Puzzle) (hook : Hook μ) (start : List JournalEntry) :
    Invariant puzzle hook fun search => start <:+ search.journal where
  giveUp _ h _ := h
  afterRun _ _ h := h.trans (List.suffix_append ..)
  countFixpoint _ _ h := h
  settleRoot s depth h := by
    unfold settleRoot
    split <;> exact h
  emit s kind depth guess h := h.trans (journal_emit hook kind depth guess s)
  afterGuess _ _ h _ _ := h
  takeBack _ _ h := h

private theorem journal_explore (puzzle : Puzzle) (hook : Hook μ) (levels depth : Nat) (s : Search μ) :
    s.journal <:+ (s.explore puzzle hook levels depth).1.journal := by
  rw [← exploreTo_giveUp]
  exact (invariant_journal puzzle hook s.journal).exploreTo (fun _ _ h => h) levels depth
    List.suffix_rfl

/-! ### Two searches -/

def remembering (memory : ν) (search : Search μ) : Search ν where
  state := search.state
  solver := search.solver
  gaveUp := search.gaveUp
  root := search.root
  memory := memory
  journal := search.journal

def stop (search : Search μ) : Search μ := { search with solver := search.solver.cancel }

def report (kind : EventKind) (depth : Nat) (guess : Option Guess) (search : Search μ) : Search μ :=
  { search with journal := .event (search.eventNow kind depth guess) :: search.journal }

private theorem emit_silent (s : Search μ) (kind : EventKind) (depth : Nat) (guess : Option Guess) :
    s.emit Hook.silent kind depth guess = (s.report kind depth guess, .ok ()) := rfl

private theorem emit_cancelsAt (s : Search Nat) (here : s.memory = k) (kind : EventKind) (depth : Nat)
    (guess : Option Guess) :
    s.emit (Hook.cancelsAt k) kind depth guess =
      (((s.report kind depth guess).remembering (s.memory + 1)).stop, .ok ()) := by
  unfold Search.emit Hook.cancelsAt
  dsimp only
  rw [if_pos here]
  rfl

private theorem emit_cancelsAt_of_ne (s : Search Nat) (other : s.memory ≠ k) (kind : EventKind)
    (depth : Nat) (guess : Option Guess) :
    s.emit (Hook.cancelsAt k) kind depth guess =
      ((s.report kind depth guess).remembering (s.memory + 1), .ok ()) := by
  unfold Search.emit Hook.cancelsAt
  dsimp only
  rw [if_neg other]
  rfl

/-- The cancelling hook has not got to its event. -/
structure InStep (k : Nat) (s : Search Unit) (s' : Search Nat) : Prop where
  same : s' = s.remembering s.history.length
  early : s.history.length ≤ k
  active : s.solver.cancelled = false

/-- Since the event that it was cancelled at, the `k`-th after those before it, the search has only
taken guesses back. -/
structure Unwinds (k : Nat) (event : Event) (before : List JournalEntry) (search : Search Nat) : Prop where
  place : (before.filterMap JournalEntry.event?).length = k
  cancelled : search.solver.cancelled = true
  guesses : search.solver.guesses = event.guesses
  journal : ∃ after, search.journal = after ++ .event event :: before ∧
    ∀ entry ∈ after, ∃ told : Event, entry = .event told ∧ told.kind = .backtrack

/-- The second search is cancelled, but has not met a place where that makes a difference. -/
structure Stopped (k : Nat) (event : Event) (before : List JournalEntry) (s : Search Unit)
    (s' : Search Nat) : Prop where
  same : s' = (s.remembering s'.memory).stop
  unwinds : s'.Unwinds k event before

/-- The second search has given up at the event, and the first went on. -/
structure Apart (k : Nat) (event : Event) (before : List JournalEntry) (s : Search Unit)
    (s' : Search Nat) : Prop where
  later : .event event :: before <:+ s.journal
  gaveUp : s'.gaveUp = true
  unwinds : s'.Unwinds k event before

/-- So far it makes no difference whether the search is cancelled. -/
def Agrees (k : Nat) (s : Search Unit) (s' : Search Nat) : Prop :=
  s.InStep k s' ∨ ∃ event before, s.Stopped k event before s'

/-- The second reply is that of the first, or the second search has given up. -/
def Parts (k : Nat) (reply : Reply Unit Outcome) (reply' : Reply Nat Outcome) : Prop :=
  reply'.2 = reply.2 ∧ reply.1.Agrees k reply'.1 ∨
    reply'.2 = .ok .unsolved ∧ ∃ event before, reply.1.Apart k event before reply'.1

/-! ### Steps -/

theorem Unwinds.emit (unwinds : s'.Unwinds k event before) (depth : Nat) (guess : Option Guess) :
    ∃ t', s'.emit (Hook.cancelsAt k) .backtrack depth guess = (t', .ok ()) ∧
      t' = (s'.report .backtrack depth guess).remembering (s'.memory + 1) ∧ t'.Unwinds k event before := by
  obtain ⟨after, journal, quiet⟩ := unwinds.journal
  have again : s'.solver.cancel = s'.solver := by
    rw [Solver.cancel, ← unwinds.cancelled]
  refine ⟨(s'.report .backtrack depth guess).remembering (s'.memory + 1), ?_, rfl, unwinds.place,
    unwinds.cancelled, unwinds.guesses, .event (s'.eventNow .backtrack depth guess) :: after, ?_, ?_⟩
  · by_cases here : s'.memory = k
    · rw [emit_cancelsAt s' here, stop]
      dsimp only [remembering, report]
      rw [again]
    · exact emit_cancelsAt_of_ne s' here .backtrack depth guess
  · exact congrArg (_ :: ·) journal
  · exact List.forall_mem_cons.mpr ⟨⟨_, rfl, rfl⟩, quiet⟩

theorem Unwinds.takeBack (unwinds : s'.Unwinds k event before) (mark : Nat) :
    (s'.takeBack mark).Unwinds k event before :=
  ⟨unwinds.place, unwinds.cancelled, unwinds.guesses, unwinds.journal⟩

theorem Unwinds.giveUp (unwinds : s'.Unwinds k event before) : s'.giveUp.1.Unwinds k event before :=
  ⟨unwinds.place, unwinds.cancelled, unwinds.guesses, unwinds.journal⟩

theorem Stopped.giveUp (stopped : s.Stopped k event before s') :
    s.giveUp.1.Stopped k event before s'.giveUp.1 :=
  ⟨congrArg (·.giveUp.1) stopped.same, stopped.unwinds.giveUp⟩

theorem Stopped.takeBack (stopped : s.Stopped k event before s') (mark : Nat) :
    (s.takeBack mark).Stopped k event before (s'.takeBack mark) :=
  ⟨congrArg (·.takeBack mark) stopped.same, stopped.unwinds.takeBack mark⟩

private theorem Stopped.suffix (stopped : s.Stopped k event before s') :
    .event event :: before <:+ s.journal := by
  obtain ⟨after, journal, _⟩ := stopped.unwinds.journal
  have same : s'.journal = s.journal := congrArg Search.journal stopped.same
  exact ⟨after, journal.symm.trans same⟩

namespace InStep

variable (inStep : s.InStep k s')
include inStep

theorem giveUp : s.giveUp.1.InStep k s'.giveUp.1 :=
  ⟨congrArg (·.giveUp.1) inStep.same, inStep.early, inStep.active⟩

theorem afterRun (puzzle : Puzzle) (depth : Nat) :
    (s.afterRun puzzle depth).InStep k (s'.afterRun puzzle depth) := by
  refine ⟨?_, ?_, inStep.active⟩
  · rw [history_afterRun]
    exact congrArg (·.afterRun puzzle depth) inStep.same
  · rw [history_afterRun]
    exact inStep.early

theorem countFixpoint (summary : FixpointSummary) :
    (s.countFixpoint summary).InStep k (s'.countFixpoint summary) :=
  ⟨congrArg (·.countFixpoint summary) inStep.same, inStep.early, inStep.active⟩

theorem settleRoot (depth : Nat) : (s.settleRoot depth).InStep k (s'.settleRoot depth) := by
  unfold Search.settleRoot
  split
  · exact ⟨congrArg (·.settleRoot 0) inStep.same, inStep.early, inStep.active⟩
  · exact inStep

theorem afterGuess (state : State) : (s.afterGuess state).InStep k (s'.afterGuess state) :=
  ⟨congrArg (·.afterGuess state) inStep.same, inStep.early, inStep.active⟩

theorem takeBack (mark : Nat) : (s.takeBack mark).InStep k (s'.takeBack mark) :=
  ⟨congrArg (·.takeBack mark) inStep.same, inStep.early, inStep.active⟩

theorem emit (kind : EventKind) (depth : Nat) (guess : Option Guess) :
    ∃ t', s'.emit (Hook.cancelsAt k) kind depth guess = (t', .ok ()) ∧
      (s.report kind depth guess).Agrees k t' := by
  obtain ⟨rfl, early, active⟩ := inStep
  by_cases here : s.history.length = k
  · refine ⟨_, emit_cancelsAt _ here kind depth guess, .inr ⟨s.eventNow kind depth guess, s.journal, rfl,
      here, rfl, rfl, [], rfl, ?_⟩⟩
    exact fun _ member => nomatch member
  · exact ⟨_, emit_cancelsAt_of_ne _ here kind depth guess,
      .inl ⟨rfl, Nat.lt_of_le_of_ne early here, active⟩⟩

end InStep

namespace Agrees

variable (agrees : s.Agrees k s')
include agrees

theorem eq : s' = s.remembering s'.memory ∨ s' = (s.remembering s'.memory).stop := by
  obtain inStep | ⟨_, _, stopped⟩ := agrees
  · refine .inl ?_
    rw [inStep.same]
    rfl
  · exact .inr stopped.same

theorem state : s'.state = s.state := by
  obtain same | same := agrees.eq <;> exact congrArg Search.state same

theorem root : s'.root = s.root := by
  obtain same | same := agrees.eq <;> exact congrArg Search.root same

theorem gaveUp : s'.gaveUp = s.gaveUp := by
  obtain same | same := agrees.eq <;> exact congrArg Search.gaveUp same

theorem policy : s'.solver.policy = s.solver.policy := by
  obtain same | same := agrees.eq <;> exact congrArg (·.solver.policy) same

theorem giveUp : s.giveUp.1.Agrees k s'.giveUp.1 := by
  obtain inStep | ⟨event, before, stopped⟩ := agrees
  · exact .inl inStep.giveUp
  · exact .inr ⟨event, before, stopped.giveUp⟩

theorem back (mark depth : Nat) (guess : Option Guess) :
    ∃ t', (s'.takeBack mark).emit (Hook.cancelsAt k) .backtrack depth guess = (t', .ok ()) ∧
      ((s.takeBack mark).report .backtrack depth guess).Agrees k t' := by
  obtain inStep | ⟨event, before, stopped⟩ := agrees
  · exact (inStep.takeBack mark).emit .backtrack depth guess
  · obtain ⟨t', emitted, same, unwinds⟩ := (stopped.unwinds.takeBack mark).emit depth guess
    refine ⟨t', emitted, .inr ⟨event, before, ?_, unwinds⟩⟩
    rw [same, (stopped.takeBack mark).same]
    rfl

end Agrees

theorem InStep.propagate (inStep : s.InStep k s') (puzzle : Puzzle) (depth : Nat) :
    (s'.propagate puzzle (Hook.cancelsAt k) depth).2 = (s.propagate puzzle Hook.silent depth).2 ∧
      (s.propagate puzzle Hook.silent depth).1.Agrees k
        (s'.propagate puzzle (Hook.cancelsAt k) depth).1 := by
  have state : s'.state = s.state := congrArg Search.state inStep.same
  have passLimit : s'.solver.passLimit = s.solver.passLimit := congrArg (·.solver.passLimit) inStep.same
  have left := inStep.afterRun puzzle depth
  rw [propagate_eq, propagate_eq, state, passLimit]
  split
  next => exact ⟨rfl, .inl left⟩
  next => exact ⟨rfl, .inl left⟩
  next summary _ =>
    have counted := left.countFixpoint summary
    dsimp only
    rw [show ((s'.afterRun puzzle depth).countFixpoint summary).state =
      ((s.afterRun puzzle depth).countFixpoint summary).state from congrArg Search.state counted.same]
    split
    next => exact ⟨rfl, .inl counted⟩
    next =>
      obtain ⟨told, emitted, agrees⟩ := (counted.settleRoot depth).emit .fixpoint depth none
      rw [emitted, emit_silent]
      exact ⟨rfl, agrees⟩

/-! ### Nodes -/

private theorem journal_closeTry (hook : Hook μ) (mark depth : Nat) (guess : Guess)
    (reply : Reply μ Outcome) :
    reply.1.journal <:+ (closeTry hook mark depth guess reply).1.journal := by
  obtain ⟨below, fault | outcome⟩ := reply
  · exact List.suffix_rfl
  · cases outcome with
    | solved => exact List.suffix_rfl
    | unsolved | unsolvable | invalid =>
      exact journal_emit hook .backtrack depth (some guess) (below.takeBack mark)

theorem Parts.closeTry {reply : Reply Unit Outcome} {reply' : Reply Nat Outcome}
    (parts : Parts k reply reply') (mark depth : Nat) (guess : Guess) :
    Parts k (Search.closeTry Hook.silent mark depth guess reply)
      (Search.closeTry (Hook.cancelsAt k) mark depth guess reply') := by
  obtain ⟨t, result⟩ := reply
  obtain ⟨t', result'⟩ := reply'
  obtain ⟨same, agrees⟩ | ⟨unsolved, event, before, apart⟩ := parts
  · cases same
    rcases result with fault | outcome
    · exact .inl ⟨rfl, agrees⟩
    cases outcome with
    | solved => exact .inl ⟨rfl, agrees⟩
    | unsolved | unsolvable | invalid =>
      obtain ⟨told, emitted, agrees⟩ := agrees.back mark depth (some guess)
      dsimp only [Search.closeTry]
      rw [emitted, emit_silent]
      exact .inl ⟨rfl, agrees⟩
  · cases unsolved
    obtain ⟨told, emitted, same, unwinds⟩ := (apart.unwinds.takeBack mark).emit depth (some guess)
    have grows := journal_closeTry Hook.silent mark depth guess (t, result)
    refine .inr ?_
    dsimp only [Search.closeTry]
    rw [emitted]
    refine ⟨rfl, event, before, apart.later.trans grows, ?_, unwinds⟩
    rw [same]
    exact apart.gaveUp

/-- What follows a try keeps the two replies related, if it does so from searches that agree. -/
theorem Parts.goOn {reply : Reply Unit Outcome} {reply' : Reply Nat Outcome}
    {next : Search Unit → Reply Unit Outcome} {next' : Search Nat → Reply Nat Outcome}
    (parts : Parts k reply reply') (again : ∀ t t', t.Agrees k t' → Parts k (next t) (next' t'))
    (grows : ∀ t, t.journal <:+ (next t).1.journal)
    (ends : ∀ t' event before, t'.Unwinds k event before → t'.gaveUp = true →
      ∃ u', next' t' = (u', .ok .unsolved) ∧ u'.gaveUp = true ∧ u'.Unwinds k event before) :
    Parts k (Search.goOn next reply) (Search.goOn next' reply') := by
  obtain ⟨t, result⟩ := reply
  obtain ⟨t', result'⟩ := reply'
  obtain ⟨same, agrees⟩ | ⟨unsolved, event, before, later, gaveUp, unwinds⟩ := parts
  · cases same
    rcases result with fault | outcome
    · exact .inl ⟨rfl, agrees⟩
    cases outcome with
    | solved => exact .inl ⟨rfl, agrees⟩
    | unsolved | unsolvable | invalid => exact again t t' agrees
  · cases unsolved
    obtain ⟨u', ended, gaveUp', unwinds'⟩ := ends t' event before unwinds gaveUp
    have grown : t.journal <:+ (Search.goOn next (t, result)).1.journal := by
      refine goOn_induction (P := fun reply => t.journal <:+ reply.1.journal) List.suffix_rfl
        fun u outcome found _ => ?_
      cases found
      exact grows t
    change Parts k _ (next' t')
    rw [ended]
    exact .inr ⟨rfl, event, before, later.trans grown, gaveUp', unwinds'⟩

theorem Unwinds.tryValues (unwinds : s'.Unwinds k event before) (gaveUp : s'.gaveUp = true)
    (attempt : Search Nat → Reply Nat Outcome) (depth v : Nat) (values : List Nat) :
    ∃ t', s'.tryValues (Hook.cancelsAt k) attempt depth v values = (t', .ok .unsolved) ∧
      t'.gaveUp = true ∧ t'.Unwinds k event before := by
  cases values with
  | nil =>
    rw [Search.tryValues, if_pos gaveUp]
    exact ⟨s', rfl, gaveUp, unwinds⟩
  | cons x rest =>
    rw [tryValues_cons, if_pos (.inl unwinds.cancelled)]
    exact ⟨s'.giveUp.1, rfl, rfl, unwinds.giveUp⟩

private theorem explore_cancelled {hook : Hook μ} {s : Search μ} (cancelled : s.solver.cancelled = true)
    (levels depth : Nat) : s.explore puzzle hook levels depth = s.giveUp := by
  cases levels with
  | zero => rfl
  | succ levels => rw [explore_succ, if_pos cancelled]

section Below

variable {levels v x : Nat} {values : List Nat}

private theorem journal_tryValues (puzzle : Puzzle) (hook : Hook μ) (levels below depth v : Nat)
    (values : List Nat) (s : Search μ) :
    s.journal <:+ (s.tryValues hook (explore puzzle hook levels below) depth v values).1.journal :=
  (invariant_journal puzzle hook s.journal).tryValues
    (fun t earlier => earlier.trans (journal_explore puzzle hook levels below t)) List.suffix_rfl

variable (parts : ∀ s s', InStep k s s' → Parts k (s.explore puzzle Hook.silent levels (depth + 1))
    (s'.explore puzzle (Hook.cancelsAt k) levels (depth + 1)))
include parts

private theorem tryValue_parts (inStep : s.InStep k s') :
    Parts k (s.tryValue Hook.silent (explore puzzle Hook.silent levels (depth + 1)) depth v x)
      (s'.tryValue (Hook.cancelsAt k) (explore puzzle (Hook.cancelsAt k) levels (depth + 1)) depth v x) := by
  have state : s'.state = s.state := congrArg Search.state inStep.same
  rw [tryValue_eq, tryValue_eq, state]
  split
  next => exact .inl ⟨rfl, .inl inStep⟩
  next state _ _ =>
    obtain ⟨told, emitted, agrees⟩ := (inStep.afterGuess state).emit .guess (depth + 1) (some ⟨v, x⟩)
    rw [emitted, emit_silent]
    refine Parts.closeTry ?_ s.state.mark depth ⟨v, x⟩
    obtain inStep | ⟨event, before, stopped⟩ := agrees
    · exact parts _ told inStep
    · -- Cancelled by the guess itself: one search gives up at the node below, where the other goes on.
      have grows := journal_explore puzzle Hook.silent levels (depth + 1)
        ((s.afterGuess state).report .guess (depth + 1) (some ⟨v, x⟩))
      rw [explore_cancelled stopped.unwinds.cancelled]
      exact .inr ⟨rfl, event, before, stopped.suffix.trans grows, rfl, stopped.unwinds.giveUp⟩

private theorem tryValues_parts (agrees : s.Agrees k s') :
    Parts k (s.tryValues Hook.silent (explore puzzle Hook.silent levels (depth + 1)) depth v values)
      (s'.tryValues (Hook.cancelsAt k) (explore puzzle (Hook.cancelsAt k) levels (depth + 1)) depth v
        values) := by
  induction values generalizing s s' with
  | nil =>
    rw [tryValues, tryValues, agrees.gaveUp]
    exact .inl ⟨rfl, agrees⟩
  | cons x rest ih =>
    obtain inStep | ⟨event, before, stopped⟩ := agrees
    · have solver : s'.solver = s.solver := congrArg Search.solver inStep.same
      rw [tryValues_eq_goOn, tryValues_eq_goOn, solver]
      split
      next => exact .inl ⟨rfl, .inl inStep.giveUp⟩
      next =>
        exact (tryValue_parts parts inStep).goOn (fun t t' => ih)
          (fun t => journal_tryValues puzzle Hook.silent levels _ _ v rest t)
          fun t' event before unwinds gaveUp => unwinds.tryValues gaveUp _ depth v rest
    · -- The cancelled search gives up at this value. Whatever the other does from here on, its
      -- journal only grows, so the event stays in it.
      have grows := journal_tryValues puzzle Hook.silent levels (depth + 1) depth v (x :: rest) s
      rw [tryValues_cons (s := s'), if_pos (.inl stopped.unwinds.cancelled)]
      exact .inr ⟨rfl, event, before, stopped.suffix.trans grows, rfl, stopped.unwinds.giveUp⟩

private theorem branch_parts (agrees : s.Agrees k s') (found : Outcome) (converged : Bool) :
    Parts k (s.branch puzzle Hook.silent levels depth found converged)
      (s'.branch puzzle (Hook.cancelsAt k) levels depth found converged) := by
  unfold branch
  rw [agrees.policy, agrees.state]
  split
  next => exact .inl ⟨rfl, agrees⟩
  next =>
    split
    next => exact .inl ⟨rfl, agrees.giveUp⟩
    next =>
      split
      next => exact .inl ⟨rfl, agrees⟩
      next => exact tryValues_parts parts agrees

end Below

private theorem explore_parts (puzzle : Puzzle) (levels depth : Nat) (inStep : s.InStep k s') :
    Parts k (s.explore puzzle Hook.silent levels depth)
      (s'.explore puzzle (Hook.cancelsAt k) levels depth) := by
  induction levels generalizing s s' depth with
  | zero => exact .inl ⟨rfl, .inl inStep.giveUp⟩
  | succ levels ih =>
    have active' : s'.solver.cancelled = false := by
      rw [inStep.same]
      exact inStep.active
    obtain ⟨same, agrees⟩ := inStep.propagate puzzle depth
    rw [explore_succ, explore_succ, inStep.active, active']
    simp only [Bool.false_eq_true, if_false]
    rcases propagated : s.propagate puzzle Hook.silent depth with ⟨t, result⟩
    rcases propagated' : s'.propagate puzzle (Hook.cancelsAt k) depth with ⟨t', result'⟩
    rw [propagated, propagated'] at same agrees
    obtain rfl : result' = result := same
    rcases result' with fault | ⟨found, converged⟩
    · exact .inl ⟨rfl, agrees⟩
    · exact branch_parts (fun u u' => ih (depth + 1)) agrees found converged

theorem Unwinds.split (unwinds : s'.Unwinds k event before) (later : .event event :: before <:+ s.journal) :
    ∃ earlier after after', s.journal.reverse = earlier ++ .event event :: after ∧
      s'.journal.reverse = earlier ++ .event event :: after' ∧
      (earlier.filterMap JournalEntry.event?).length = k ∧
      ∀ entry ∈ after', ∃ told : Event, entry = .event told ∧ told.kind = .backtrack := by
  obtain ⟨after, journal⟩ := later
  obtain ⟨after', journal', quiet⟩ := unwinds.journal
  refine ⟨before.reverse, after.reverse, after'.reverse, ?_, ?_, ?_, fun entry member => ?_⟩
  · simp [← journal]
  · simp [journal']
  · rw [List.filterMap_reverse, List.length_reverse]
    exact unwinds.place
  · exact quiet entry (List.mem_reverse.mp member)

end Search

/-! ### Calls -/

namespace Solver

private theorem state_finish_congr {reply : Search.Reply μ Outcome} {reply' : Search.Reply ν Outcome}
    (result : reply'.2 = reply.2) (state : reply'.1.state = reply.1.state)
    (root : reply'.1.root = reply.1.root) : (finish reply').state = (finish reply).state := by
  by_cases solved : reply.2 = .ok .solved
  · rw [state_finish_solved solved, state_finish_solved (result.trans solved), state]
  · rw [state_finish_of_ne solved, state_finish_of_ne (result ▸ solved), state, root]

end Solver

/-- Cancelling at an event takes effect at once and never leads to another verdict. Where the event
happens, both calls have done the same up to it; from then on the cancelled one consults no rule,
makes no guess and reports nothing but guesses taken back, and it ends without a verdict or as the
other does, on the same state. Where the event does not happen, the calls do not differ. -/
theorem solve_cancelsAt (puzzle : Puzzle) (solver : Solver) (s : State) (k : Nat) :
    let whole := solver.solve puzzle Hook.silent () s
    let cut := solver.solve puzzle (Hook.cancelsAt k) 0 s
    (whole.history.length ≤ k ∧ cut.journal = whole.journal ∧ cut.result = whole.result ∧
        cut.state = whole.state) ∨
      ∃ before event after after',
        whole.journal = before ++ .event event :: after ∧
        cut.journal = before ++ .event event :: after' ∧
        (before.filterMap JournalEntry.event?).length = k ∧
        (∀ entry ∈ after', ∃ told : Event, entry = .event told ∧ told.kind = .backtrack) ∧
        cut.solver.guesses = event.guesses ∧
        (cut.result = .ok .unsolved ∨ cut.result = whole.result ∧ cut.state = whole.state) := by
  intro whole cut
  -- Without a search there is no event.
  cases classified : puzzle.classify true s with
  | error fault => simp [whole, cut, Solver.solve, classified, SolveReport.history]
  | ok outcome =>
    cases outcome with
    | solved | unsolvable | invalid =>
      simp [whole, cut, Solver.solve, classified, SolveReport.history, Outcome.isTerminal]
    | unsolved =>
      have inStep : (Solver.start { solver with cancelled := false } () s).InStep k
          (Solver.start { solver with cancelled := false } 0 s) := ⟨rfl, Nat.zero_le k, rfl⟩
      have parts := Search.explore_parts puzzle (Search.enoughLevels s) 0 inStep
      simp only [whole, cut, Solver.solve_eq_finish classified, Solver.history_finish,
        Solver.journal_finish, Solver.result_finish, Solver.guesses_finish]
      obtain ⟨same, agrees⟩ | ⟨unsolved, event, before, later, _, unwinds⟩ := parts
      · have state := Solver.state_finish_congr same agrees.state agrees.root
        obtain inStep | ⟨event, before, stopped⟩ := agrees
        · have journal := congrArg (fun search : Search Nat => search.journal.reverse) inStep.same
          exact .inl ⟨inStep.early, journal, same, state⟩
        · obtain ⟨earlier, after, after', journal, journal', place, quiet⟩ :=
            stopped.unwinds.split stopped.suffix
          exact .inr ⟨earlier, event, after, after', journal, journal', place, quiet,
            stopped.unwinds.guesses, .inr ⟨same, state⟩⟩
      · obtain ⟨earlier, after, after', journal, journal', place, quiet⟩ := unwinds.split later
        exact .inr ⟨earlier, event, after, after', journal, journal', place, quiet, unwinds.guesses,
          .inl unsolved⟩

/-- Cancelled at the first guess there is no verdict; cancelled when the last guess has been taken back,
the last of nineteen events, the call still knows that there is no solution. -/
example :
    let solver : Solver := ⟨.first, none, 0, 6, .unsolved, false, {}⟩
    let cancelledAt k := solver.solve hopeless (Hook.cancelsAt k) 0 (State.blank 3 2)
    (cancelledAt 1).result = .ok .unsolved ∧ (cancelledAt 1).history.length = 3 ∧
      (cancelledAt 18).result = .ok .unsolvable ∧ (cancelledAt 18).history.length = 19 := by decide

end PencilPuzzle
