import PencilPuzzle.Proofs.Search.Budget
import PencilPuzzle.Proofs.Search.Invariant

/-!
# Guess accounts

A solver outlives its calls. Its caller solves, cancels and moves the budget in any order, and a hook
may do the last two at any event or stop the call with a fault. Whoever looks at the solver, and
whenever, finds no more guesses made than the budget allows and none forgotten. A call that has no
pass limit to stop it and no hook that cancels or moves the budget ends without a verdict only once
the last guess is made.
-/

namespace PencilPuzzle

open State

variable {μ : Type} {puzzle : Puzzle} {hook : Hook μ}

/-! ### Readings -/

structure Reading where
  guesses : Nat
  budget : Nat
  deriving DecidableEq

def Solver.reading (solver : Solver) : Reading := ⟨solver.guesses, solver.budget⟩

def Event.reading (event : Event) : Reading := ⟨event.guesses, event.budget⟩

/-- Readings of one solver, newest first: never more guesses than budget, and never fewer guesses than
before. -/
structure InOrder (seen : List Reading) : Prop where
  within : ∀ reading ∈ seen, reading.guesses ≤ reading.budget
  grows : seen.Pairwise fun later earlier => earlier.guesses ≤ later.guesses

namespace InOrder

variable {last next : Reading} {seen : List Reading}

theorem push (inOrder : InOrder (last :: seen)) (more : last.guesses ≤ next.guesses)
    (within : next.guesses ≤ next.budget) : InOrder (next :: last :: seen) where
  within := List.forall_mem_cons.mpr ⟨within, inOrder.within⟩
  grows := by
    have earlier := (List.pairwise_cons.mp inOrder.grows).1
    refine List.pairwise_cons.mpr ⟨List.forall_mem_cons.mpr ⟨more, fun old member => ?_⟩, inOrder.grows⟩
    exact (earlier old member).trans more

theorem tail (inOrder : InOrder (last :: seen)) : InOrder seen :=
  ⟨fun old member => inOrder.within old (List.mem_cons_of_mem last member),
    (List.pairwise_cons.mp inOrder.grows).2⟩

private theorem replace (inOrder : InOrder (last :: seen)) (more : last.guesses ≤ next.guesses)
    (within : next.guesses ≤ next.budget) : InOrder (next :: seen) where
  within := List.forall_mem_cons.mpr ⟨within, inOrder.tail.within⟩
  grows := by
    have earlier := (List.pairwise_cons.mp inOrder.grows).1
    exact List.pairwise_cons.mpr ⟨fun old member => (earlier old member).trans more, inOrder.tail.grows⟩

end InOrder

private theorem Solver.guesses_le_of_setBudget {solver next : Solver} {budget : Int}
    (h : solver.setBudget budget = .ok next) :
    next.guesses = solver.guesses ∧ next.guesses ≤ next.budget := by
  obtain ⟨room, rfl⟩ := setBudget_eq_ok.mp h
  refine ⟨rfl, ?_⟩
  dsimp only
  omega

private theorem Solver.guesses_new {settings : Settings} {options : SolverOptions} {solver : Solver}
    (made : Solver.new settings options = .ok solver) :
    solver.guesses = 0 ∧ solver.guesses ≤ solver.budget := by
  obtain ⟨_, _, _, _, rfl⟩ := new_eq_ok.mp made
  exact ⟨rfl, Nat.zero_le _⟩

/-! ### Searching -/

namespace Search

variable {s : Search μ} {seen : List Reading} {budget : Nat}

/-- Whatever a hook asks for, in whatever order, the account stays in order. -/
theorem guesses_obey_le (s : Search μ) (commands : List Command)
    (within : s.solver.guesses ≤ s.solver.budget) :
    (s.obey commands).1.solver.guesses ≤ (s.obey commands).1.solver.budget := by
  induction commands generalizing s with
  | nil => exact within
  | cons command rest ih =>
    cases command with
    | cancel => exact ih { s with solver := s.solver.cancel } within
    | fail fault => exact within
    | setBudget budget =>
      unfold obey
      split
      next => exact within
      next solver set => exact ih _ (Solver.guesses_le_of_setBudget set).2

private theorem guesses_emit_le (hook : Hook μ) (kind : EventKind) (depth : Nat) (guess : Option Guess)
    (within : s.solver.guesses ≤ s.solver.budget) :
    (s.emit hook kind depth guess).1.solver.guesses ≤
      (s.emit hook kind depth guess).1.solver.budget :=
  guesses_obey_le _ _ within

/-- The readings before the search, its events and the solver as it is now are in order. -/
def Accounts (seen : List Reading) (search : Search μ) : Prop :=
  InOrder (search.solver.reading :: (search.history.map Event.reading ++ seen))

theorem Accounts.emit (accounts : s.Accounts seen) (hook : Hook μ) (kind : EventKind) (depth : Nat)
    (guess : Option Guess) : (s.emit hook kind depth guess).1.Accounts seen := by
  have told : (s.eventNow kind depth guess).reading = s.solver.reading := rfl
  have within := guesses_emit_le hook kind depth guess (accounts.within _ (List.mem_cons_self ..))
  unfold Accounts at accounts ⊢
  rw [history_emit, List.map_cons, List.cons_append, told]
  exact accounts.push (guesses_emit kind depth guess hook s).ge within

private theorem invariant_accounts (puzzle : Puzzle) (hook : Hook μ) (seen : List Reading) :
    Invariant puzzle hook (Accounts seen) where
  giveUp _ accounts _ := accounts
  afterRun s depth accounts := by
    unfold Accounts
    rw [history_afterRun]
    exact accounts
  countFixpoint _ _ accounts := accounts
  settleRoot s depth accounts := by
    unfold settleRoot
    split <;> exact accounts
  emit _ kind depth guess accounts := accounts.emit hook kind depth guess
  afterGuess _ _ accounts _ room := accounts.replace (Nat.le_succ _) room
  takeBack _ _ accounts := accounts

/-! ### Searches that only the budget stops -/

/-- Nothing but the budget can stop the search, and if it has, the last guess was made. -/
structure Thrifty (most : Nat) (search : Search μ) : Prop where
  active : search.solver.cancelled = false
  unlimited : search.solver.passLimit = none
  budget : search.solver.budget = most
  within : search.solver.guesses ≤ most
  spent : search.gaveUp = true → search.solver.guesses = most

private theorem obey_onlyFails {commands : List Command}
    (onlyFails : ∀ command ∈ commands, ∃ fault, command = .fail fault) : (s.obey commands).1 = s := by
  cases commands with
  | nil => rfl
  | cons command rest =>
    obtain ⟨fault, rfl⟩ := onlyFails command (List.mem_cons_self ..)
    rfl

end Search

def Hook.OnlyFails (hook : Hook μ) : Prop :=
  ∀ memory event, ∀ command ∈ (hook memory event).2, ∃ fault, command = .fail fault

private theorem Hook.Quiet.onlyFails (quiet : hook.Quiet) : hook.OnlyFails := by
  intro memory event command asked
  rw [quiet memory event] at asked
  exact absurd asked List.not_mem_nil

private theorem Search.invariant_thrifty (puzzle : Puzzle) (onlyFails : hook.OnlyFails) (most : Nat) :
    Invariant puzzle hook (Thrifty most) where
  giveUp s thrifty stoppable := by
    refine ⟨thrifty.active, thrifty.unlimited, thrifty.budget, thrifty.within, fun _ => ?_⟩
    obtain cancelled | spent | limited := stoppable
    · exact nomatch thrifty.active.symm.trans cancelled
    · exact Nat.le_antisymm thrifty.within (thrifty.budget ▸ spent)
    · exact absurd thrifty.unlimited limited
  afterRun _ _ thrifty := ⟨thrifty.active, thrifty.unlimited, thrifty.budget, thrifty.within, thrifty.spent⟩
  countFixpoint _ _ thrifty :=
    ⟨thrifty.active, thrifty.unlimited, thrifty.budget, thrifty.within, thrifty.spent⟩
  settleRoot s depth thrifty := by
    unfold settleRoot
    split
    · exact ⟨thrifty.active, thrifty.unlimited, thrifty.budget, thrifty.within, thrifty.spent⟩
    · exact thrifty
  emit s kind depth guess thrifty := by
    unfold emit
    dsimp only
    rw [obey_onlyFails (onlyFails _ _)]
    exact ⟨thrifty.active, thrifty.unlimited, thrifty.budget, thrifty.within, thrifty.spent⟩
  afterGuess s state thrifty _ room := by
    have same := thrifty.budget
    refine ⟨thrifty.active, thrifty.unlimited, same, ?_, fun gaveUp => ?_⟩
    · change s.solver.guesses + 1 ≤ most
      omega
    · -- A search that had given up before would have no guess left.
      have spent := thrifty.spent gaveUp
      omega
  takeBack _ _ thrifty := ⟨thrifty.active, thrifty.unlimited, thrifty.budget, thrifty.within, thrifty.spent⟩

/-! ### One call -/

namespace Solver

variable {solver : Solver} {memory : μ} {s : State}

@[simp] theorem reading_finish (reply : Search.Reply μ Outcome) :
    (finish reply).solver.reading = reply.1.solver.reading := by
  obtain ⟨search, fault | outcome⟩ := reply
  · rfl
  · cases outcome <;> rfl

private theorem reading_solve_unexplored (decided : puzzle.classify true s ≠ .ok .unsolved) :
    (solver.solve puzzle hook memory s).solver.reading = solver.reading := by
  unfold solve
  split
  next => rfl
  next outcome classified =>
    cases outcome with
    | unsolved => exact absurd classified decided
    | solved | unsolvable | invalid => rfl

private theorem inOrder_solve (puzzle : Puzzle) (hook : Hook μ) (memory : μ) (s : State)
    {seen : List Reading} (inOrder : InOrder (solver.reading :: seen)) :
    let report := solver.solve puzzle hook memory s
    InOrder (report.solver.reading :: (report.history.map Event.reading ++ seen)) := by
  by_cases isOpen : puzzle.classify true s = .ok .unsolved
  · have accounts : ((start { solver with cancelled := false } memory s).explore puzzle hook
        (Search.enoughLevels s) 0).1.Accounts seen :=
      (Search.invariant_accounts puzzle hook seen).explore 0 (Nat.lt_succ_self _) inOrder
    rw [solve_eq_finish isOpen]
    dsimp only
    rw [history_finish, reading_finish]
    exact accounts
  · intro report
    have silent : report.history = [] := (solve_unexplored hook memory solver isOpen).1
    have same : report.solver.reading = solver.reading := reading_solve_unexplored isOpen
    rw [silent, same]
    exact inOrder

/-- A call that nothing but the budget can stop has made its last guess if it ends without a verdict. -/
theorem guesses_solve_unsolved (puzzle : Puzzle) (onlyFails : hook.OnlyFails)
    (unlimited : solver.passLimit = none) (within : solver.guesses ≤ solver.budget)
    (unsolved : (solver.solve puzzle hook memory s).result = .ok .unsolved) :
    (solver.solve puzzle hook memory s).solver.guesses =
      (solver.solve puzzle hook memory s).solver.budget := by
  obtain ⟨verdict, _⟩ | ⟨_, t, explored, ended⟩ := solve_eq_ok unsolved
  · exact absurd rfl verdict
  · have begins : (start { solver with cancelled := false } memory s).Thrifty solver.budget :=
      ⟨rfl, unlimited, rfl, within, fun gaveUp => nomatch gaveUp⟩
    have thrifty : ((start { solver with cancelled := false } memory s).explore puzzle hook
        (Search.enoughLevels s) 0).1.Thrifty solver.budget :=
      (Search.invariant_thrifty puzzle onlyFails solver.budget).explore 0 (Nat.lt_succ_self _) begins
    rw [explored] at thrifty
    rw [ended]
    exact (thrifty.spent (Search.gaveUp_of_explore explored)).trans thrifty.budget.symm

end Solver

/-! ### Many calls -/

inductive SolverCall (μ : Type) where
  | solve (hook : Hook μ)
  | cancel
  | setBudget (budget : Int)

/-- A solver in use, with the state of its puzzle and the memory of its hooks. -/
structure SolverSession (μ : Type) where
  state : State
  solver : Solver
  memory : μ
  /-- The readings that hooks and the caller could take so far, newest first. -/
  seen : List Reading

namespace SolverSession

/-- The caller and then, in a call of `solve`, the hook at each event can look at the solver. -/
def perform (puzzle : Puzzle) (session : SolverSession μ) : SolverCall μ → SolverSession μ
  | .solve hook =>
    let report := session.solver.solve puzzle hook session.memory session.state
    ⟨report.state, report.solver, report.memory,
      report.solver.reading :: (report.history.map Event.reading ++ session.seen)⟩
  | .cancel =>
    { session with solver := session.solver.cancel, seen := session.solver.reading :: session.seen }
  | .setBudget budget =>
    match session.solver.setBudget budget with
    | .error _ => { session with seen := session.solver.reading :: session.seen }
    | .ok solver => { session with solver, seen := solver.reading :: session.seen }

def start (solver : Solver) (memory : μ) (state : State) : SolverSession μ :=
  ⟨state, solver, memory, [solver.reading]⟩

def run (puzzle : Puzzle) (session : SolverSession μ) (calls : List (SolverCall μ)) : SolverSession μ :=
  calls.foldl (perform puzzle) session

/-- What was seen last is what the solver shows, and all that was seen is in order. -/
structure Audited (session : SolverSession μ) : Prop where
  latest : ∃ earlier, session.seen = session.solver.reading :: earlier
  inOrder : InOrder session.seen

variable {session : SolverSession μ}

theorem Audited.perform (audited : session.Audited) (puzzle : Puzzle) (call : SolverCall μ) :
    (session.perform puzzle call).Audited := by
  obtain ⟨⟨earlier, latest⟩, inOrder⟩ := audited
  -- Each call begins with the solver as it was last seen, so that reading may be listed twice.
  have again : InOrder (session.solver.reading :: session.seen) := by
    rw [latest] at inOrder ⊢
    exact inOrder.push (Nat.le_refl _) (inOrder.within _ (List.mem_cons_self ..))
  cases call with
  | solve hook =>
    exact ⟨⟨_, rfl⟩, session.solver.inOrder_solve puzzle hook session.memory session.state again⟩
  | cancel => exact ⟨⟨_, rfl⟩, again⟩
  | setBudget budget =>
    dsimp only [SolverSession.perform]
    split
    next => exact ⟨⟨_, rfl⟩, again⟩
    next solver accepted =>
      obtain ⟨same, within⟩ := Solver.guesses_le_of_setBudget accepted
      exact ⟨⟨_, rfl⟩, again.replace same.ge within⟩

theorem Audited.run (audited : session.Audited) (puzzle : Puzzle) (calls : List (SolverCall μ)) :
    (session.run puzzle calls).Audited := by
  induction calls generalizing session with
  | nil => exact audited
  | cons call rest ih => exact ih (audited.perform puzzle call)

end SolverSession

/-- However a solver is used, the guesses made stay within the budget and are never taken back, whoever
looks: the caller after a call, a hook when it is told of an event, or a hook that has just asked for
something, be it accepted or not. And a call under no pass limit, whose hook can only fail, makes the
last guess that it may before it ends without a verdict. -/
theorem session_inOrder (puzzle : Puzzle) {settings : Settings} {options : SolverOptions} {solver : Solver}
    (made : Solver.new settings options = .ok solver) (memory : μ) (s : State) (calls : List (SolverCall μ)) :
    let session := (SolverSession.start solver memory s).run puzzle calls
    (∀ reading ∈ session.seen, reading.guesses ≤ reading.budget) ∧
      (session.seen.Pairwise fun later earlier => earlier.guesses ≤ later.guesses) ∧
      (∀ search : Search μ, search.solver.reading ∈ session.seen → ∀ commands,
        let asked := (search.obey commands).1
        asked.solver.guesses = search.solver.guesses ∧ asked.solver.guesses ≤ asked.solver.budget) ∧
      ∀ hook : Hook μ, hook.OnlyFails → session.solver.passLimit = none →
        let report := session.solver.solve puzzle hook session.memory session.state
        report.result = .ok .unsolved → report.solver.guesses = report.solver.budget := by
  intro session
  have unused : (SolverSession.start solver memory s).Audited := by
    refine ⟨⟨[], rfl⟩, List.forall_mem_cons.mpr ⟨?_, fun _ member => nomatch member⟩,
      List.pairwise_singleton ..⟩
    exact (Solver.guesses_new made).2
  obtain ⟨⟨earlier, latest⟩, inOrder⟩ : session.Audited := unused.run puzzle calls
  have within : session.solver.guesses ≤ session.solver.budget :=
    inOrder.within session.solver.reading (latest ▸ List.mem_cons_self ..)
  refine ⟨inOrder.within, inOrder.grows, fun search shown commands => ⟨?_, ?_⟩,
    fun hook onlyFails unlimited unsolved => ?_⟩
  · exact (Search.obey_keeps search commands).2.2.2.2.2
  · exact Search.guesses_obey_le search commands (inOrder.within _ shown)
  · exact session.solver.guesses_solve_unsolved puzzle onlyFails unlimited within unsolved

/-- A hook that, whenever a guess is taken back, allows four guesses and then only one. -/
def Hook.wavers : Hook Unit := fun _ event =>
  ((), if event.kind = .backtrack then [.setBudget 4, .setBudget 1] else [])

/-- Two guesses were allowed and made when the hook allows four and fails with its second wish. What the
caller asks for then changes nothing, and the next call makes the other two. -/
theorem session_inOrder_hopeless :
    let solver : Solver := ⟨.first, none, 0, 2, .unsolved, false, {}⟩
    let session := (SolverSession.start solver () (State.blank 3 2)).run hopeless
      [.solve Hook.wavers, .cancel, .setBudget 1]
    let report := session.solver.solve hopeless Hook.silent session.memory session.state
    session.solver.reading = ⟨2, 4⟩ ∧ (∀ reading ∈ session.seen, reading.guesses ≤ reading.budget) ∧
      report.result = .ok .unsolved ∧ report.solver.guesses = report.solver.budget := by
  intro solver session report
  have made : Solver.new {} { maxGuesses := some 2 } = .ok solver := by decide
  have wavered : session.solver.reading = ⟨2, 4⟩ := by decide
  have unlimited : session.solver.passLimit = none := by decide
  have unsolved : report.result = .ok .unsolved := by decide
  obtain ⟨within, _, _, spends⟩ := session_inOrder hopeless made () (State.blank 3 2)
    [.solve Hook.wavers, .cancel, .setBudget 1]
  refine ⟨wavered, within, unsolved, ?_⟩
  dsimp only [report, session, solver] at unlimited unsolved spends ⊢
  exact spends Hook.silent Hook.quiet_silent.onlyFails unlimited unsolved

end PencilPuzzle
