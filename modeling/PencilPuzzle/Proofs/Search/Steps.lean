import PencilPuzzle.Proofs.Propagation
import PencilPuzzle.Proofs.Search.Solver
import PencilPuzzle.Search.Solve

/-!
# Steps of a search

What one step of a search leaves of the search it started from. A step only narrows the state, never
forgets that a branch was given up, and keeps the settings; trying a value that fails also brings
back the very state it was tried on. These facts hold whether a step ends with a result or a fault.
-/

namespace PencilPuzzle.Search

open State

variable {μ : Type} {puzzle : Puzzle} {hook : Hook μ} {s t : Search μ}

/-- What a search keeps of an earlier one in the same call. -/
structure Leads (s t : Search μ) : Prop where
  state : s.state.NarrowsTo t.state
  gaveUp : s.gaveUp = true → t.gaveUp = true
  root : t.root = s.root
  policy : t.solver.policy = s.solver.policy
  passLimit : t.solver.passLimit = s.solver.passLimit
  guesses : s.solver.guesses ≤ t.solver.guesses

theorem Leads.refl : s.Leads s := ⟨NarrowsTo.refl, id, rfl, rfl, rfl, Nat.le_refl _⟩

theorem Leads.trans {u : Search μ} (first : s.Leads t) (second : t.Leads u) : s.Leads u where
  state := first.state.trans second.state
  gaveUp h := second.gaveUp (first.gaveUp h)
  root := second.root.trans first.root
  policy := second.policy.trans first.policy
  passLimit := second.passLimit.trans first.passLimit
  guesses := first.guesses.trans second.guesses

/-! ### Talking to the hook -/

/-- A hook changes nothing but the budget and whether the search is cancelled. -/
theorem obey_keeps (s : Search μ) (commands : List Command) :
    (s.obey commands).1.state = s.state ∧ (s.obey commands).1.gaveUp = s.gaveUp ∧
      (s.obey commands).1.root = s.root ∧
      (s.obey commands).1.solver.policy = s.solver.policy ∧
      (s.obey commands).1.solver.passLimit = s.solver.passLimit ∧
      (s.obey commands).1.solver.guesses = s.solver.guesses := by
  induction commands generalizing s with
  | nil => exact ⟨rfl, rfl, rfl, rfl, rfl, rfl⟩
  | cons command rest ih =>
    cases command with
    | cancel => exact ih { s with solver := s.solver.cancel }
    | fail fault => exact ⟨rfl, rfl, rfl, rfl, rfl, rfl⟩
    | setBudget budget =>
      unfold obey
      split
      next => exact ⟨rfl, rfl, rfl, rfl, rfl, rfl⟩
      next solver set =>
        obtain ⟨_, rfl⟩ := Solver.setBudget_eq_ok.mp set
        exact ih _

section Emit

variable (kind : EventKind) (depth : Nat) (guess : Option Guess) (hook : Hook μ) (s : Search μ)

@[simp] theorem state_emit : (s.emit hook kind depth guess).1.state = s.state :=
  (obey_keeps _ _).1

@[simp] theorem gaveUp_emit : (s.emit hook kind depth guess).1.gaveUp = s.gaveUp :=
  (obey_keeps _ _).2.1

@[simp] theorem root_emit : (s.emit hook kind depth guess).1.root = s.root :=
  (obey_keeps _ _).2.2.1

@[simp] theorem guesses_emit :
    (s.emit hook kind depth guess).1.solver.guesses = s.solver.guesses :=
  (obey_keeps _ _).2.2.2.2.2

@[simp] theorem policy_emit :
    (s.emit hook kind depth guess).1.solver.policy = s.solver.policy :=
  (obey_keeps _ _).2.2.2.1

@[simp] theorem passLimit_emit :
    (s.emit hook kind depth guess).1.solver.passLimit = s.solver.passLimit :=
  (obey_keeps _ _).2.2.2.2.1

theorem leads_emit : s.Leads (s.emit hook kind depth guess).1 where
  state := by
    rw [state_emit]
    exact NarrowsTo.refl
  gaveUp h := by rw [gaveUp_emit, h]
  root := root_emit kind depth guess hook s
  policy := policy_emit kind depth guess hook s
  passLimit := passLimit_emit kind depth guess hook s
  guesses := (guesses_emit kind depth guess hook s).ge

end Emit

/-! ### Propagation at a node -/

def rootedAt (root : Nat) (search : Search μ) : Search μ := { search with root }

private theorem leads_settleRoot (s : Search μ) (depth : Nat) :
    (s.rootedAt (s.settleRoot depth).root).Leads (s.settleRoot depth) := by
  unfold settleRoot
  split <;> exact Leads.refl

theorem Leads.rootedAt (h : s.Leads t) (root : Nat) : (s.rootedAt root).Leads (t.rootedAt root) :=
  ⟨h.state, h.gaveUp, rfl, h.policy, h.passLimit, h.guesses⟩

def afterRun (puzzle : Puzzle) (depth : Nat) (search : Search μ) : Search μ :=
  (search.reachDepth depth).takeRun
    (runToFixpoint puzzle.rules search.solver.passLimit search.state)

private theorem leads_afterRun (puzzle : Puzzle) (depth : Nat) (s : Search μ) :
    s.Leads (s.afterRun puzzle depth) :=
  ⟨narrowsTo_runToFixpoint _ _ _, id, rfl, rfl, rfl, Nat.le_refl _⟩

private theorem leads_countFixpoint (s : Search μ) (summary : FixpointSummary) :
    s.Leads (s.countFixpoint summary) :=
  ⟨NarrowsTo.refl, id, rfl, rfl, rfl, Nat.le_refl _⟩

/-- Propagation at a node, by what the run of the rules and the check after it come to. -/
theorem propagate_eq (puzzle : Puzzle) (hook : Hook μ) (depth : Nat) (s : Search μ) :
    s.propagate puzzle hook depth =
      match (runToFixpoint puzzle.rules s.solver.passLimit s.state).result with
      | .error (.contradiction _) => (s.afterRun puzzle depth, .ok (.unsolvable, true))
      | .error fault => (s.afterRun puzzle depth, .error fault)
      | .ok summary =>
        let counted := (s.afterRun puzzle depth).countFixpoint summary
        match puzzle.classify false counted.state with
        | .error fault => (counted, .error fault)
        | .ok outcome =>
          let told := (counted.settleRoot depth).emit hook .fixpoint depth none
          (told.1, told.2.map fun _ => (outcome, summary.converged)) := by
  unfold propagate afterRun
  dsimp only
  cases (runToFixpoint puzzle.rules s.solver.passLimit s.state).result with
  | error fault => cases fault <;> rfl
  | ok summary =>
    dsimp only
    rcases puzzle.classify false _ with fault | outcome
    · rfl
    · dsimp only
      rcases emit hook .fixpoint depth none _ with ⟨told, fault | _⟩ <;> rfl

/-- All that propagation at a node can come to: a contradiction, a fault of the rules, a fault of
the checks, or an outcome that the hook is told about. -/
theorem propagate_cases (puzzle : Puzzle) (hook : Hook μ) (depth : Nat) (s : Search μ) :
    let run := runToFixpoint puzzle.rules s.solver.passLimit s.state
    let left := s.afterRun puzzle depth
    (∃ cause, run.result = .error (.contradiction cause) ∧
        s.propagate puzzle hook depth = (left, .ok (.unsolvable, true))) ∨
      (∃ fault, NoContradiction run.result ∧ run.result = .error fault ∧
        s.propagate puzzle hook depth = (left, .error fault)) ∨
      (∃ summary fault, run.result = .ok summary ∧ puzzle.classify false run.state = .error fault ∧
        s.propagate puzzle hook depth = (left.countFixpoint summary, .error fault)) ∨
      ∃ summary outcome, run.result = .ok summary ∧ puzzle.classify false run.state = .ok outcome ∧
        s.propagate puzzle hook depth =
          (let told := ((left.countFixpoint summary).settleRoot depth).emit hook .fixpoint depth none
          (told.1, told.2.map fun _ => (outcome, summary.converged))) := by
  have eq := propagate_eq puzzle hook depth s
  dsimp only at eq ⊢
  split at eq
  next cause failed => exact .inl ⟨cause, failed, eq⟩
  next fault other failed =>
    refine .inr (.inl ⟨fault, fun found h cause same => ?_, failed, eq⟩)
    exact other cause ((Except.error.inj (failed.symm.trans h)).trans same)
  next summary ended =>
    split at eq
    next fault failed => exact .inr (.inr (.inl ⟨summary, fault, ended, failed, eq⟩))
    next outcome classified => exact .inr (.inr (.inr ⟨summary, outcome, ended, classified, eq⟩))

/-- Propagation at the first node moves the mark to go back to. -/
theorem leads_propagate (puzzle : Puzzle) (hook : Hook μ) (depth : Nat) (s : Search μ) :
    (s.rootedAt (s.propagate puzzle hook depth).1.root).Leads (s.propagate puzzle hook depth).1 := by
  have run := leads_afterRun puzzle depth s
  obtain ⟨_, _, ended⟩ | ⟨_, _, _, ended⟩ | ⟨summary, _, _, _, ended⟩ | ⟨summary, _, _, _, ended⟩ :=
    propagate_cases puzzle hook depth s
  · rw [ended]
    exact run
  · rw [ended]
    exact run
  · rw [ended]
    exact run.trans (leads_countFixpoint _ summary)
  · have counted := run.trans (leads_countFixpoint _ summary)
    have settled := (counted.rootedAt _).trans (leads_settleRoot _ depth)
    rw [ended]
    dsimp only
    rw [root_emit]
    exact settled.trans (leads_emit .fixpoint depth none hook _)

private theorem leads_propagate_of_pos (puzzle : Puzzle) (hook : Hook μ) {depth : Nat} (below : depth ≠ 0)
    (s : Search μ) : s.Leads (s.propagate puzzle hook depth).1 := by
  have leads := leads_propagate puzzle hook depth s
  have same : (s.propagate puzzle hook depth).1.root = s.root := by
    obtain ⟨_, _, ended⟩ | ⟨_, _, _, ended⟩ | ⟨_, _, _, _, ended⟩ | ⟨_, _, _, _, ended⟩ :=
      propagate_cases puzzle hook depth s
    · rw [ended]
      rfl
    · rw [ended]
      rfl
    · rw [ended]
      rfl
    · rw [ended]
      dsimp only
      rw [root_emit, settleRoot, if_neg below]
      rfl
  rw [same] at leads
  exact leads

theorem propagate_eq_ok {depth : Nat} {outcome : Outcome} {converged : Bool}
    (h : s.propagate puzzle hook depth = (t, .ok (outcome, converged))) :
    let run := runToFixpoint puzzle.rules s.solver.passLimit s.state
    t.state = run.state ∧
      ((∃ cause, run.result = .error (.contradiction cause) ∧ outcome = .unsolvable) ∨
        ∃ summary, run.result = .ok summary ∧ summary.converged = converged ∧
          puzzle.classify false run.state = .ok outcome) := by
  obtain ⟨cause, failed, ended⟩ | ⟨_, _, _, ended⟩ | ⟨_, _, _, _, ended⟩ |
    ⟨summary, found, run, classified, ended⟩ := propagate_cases puzzle hook depth s
  · rw [ended] at h
    cases h
    exact ⟨rfl, .inl ⟨cause, failed, rfl⟩⟩
  · rw [ended] at h
    simp at h
  · rw [ended] at h
    simp at h
  · rw [ended, Prod.mk.injEq, map_eq_ok] at h
    obtain ⟨rfl, _, _, pair⟩ := h
    cases pair
    refine ⟨?_, .inr ⟨summary, run, rfl, classified⟩⟩
    rw [state_emit, settleRoot]
    split <;> rfl

/-! ### Trying one value -/

/-- Guesses a value, explores below the guess and, unless that solved the puzzle, goes back. -/
def tryValue (hook : Hook μ) (attempt : Search μ → Reply μ Outcome) (depth v x : Nat)
    (search : Search μ) : Reply μ Outcome :=
  match search.makeGuess v x with
  | (guessed, .error fault) => (guessed, .error fault)
  | (guessed, .ok ()) =>
    match guessed.emit hook .guess (depth + 1) (some ⟨v, x⟩) with
    | (told, .error fault) => (told, .error fault)
    | (told, .ok ()) =>
      match attempt told with
      | (below, .error fault) => (below, .error fault)
      | (below, .ok .solved) => (below, .ok .solved)
      | (below, .ok outcome) =>
        match (below.takeBack search.state.mark).emit hook .backtrack depth (some ⟨v, x⟩) with
        | (back, .error fault) => (back, .error fault)
        | (back, .ok ()) => (back, .ok outcome)

variable {attempt : Search μ → Reply μ Outcome} {depth v x : Nat} {rest : List Nat}

theorem tryValues_cons :
    s.tryValues hook attempt depth v (x :: rest) =
      if s.solver.cancelled ∨ s.solver.budget ≤ s.solver.guesses then s.giveUp
      else
        match s.tryValue hook attempt depth v x with
        | (tried, .error fault) => (tried, .error fault)
        | (tried, .ok .solved) => (tried, .ok .solved)
        | (tried, .ok _) => tried.tryValues hook attempt depth v rest := by
  rw [tryValues, tryValue]
  rcases s.makeGuess v x with ⟨guessed, fault | _⟩
  · rfl
  dsimp only
  rcases guessed.emit hook .guess (depth + 1) (some ⟨v, x⟩) with ⟨told, fault | _⟩
  · rfl
  dsimp only
  rcases attempt told with ⟨below, fault | outcome⟩
  · rfl
  cases outcome with
  | solved => rfl
  | unsolved | unsolvable | invalid =>
    dsimp only
    rcases (below.takeBack s.state.mark).emit hook .backtrack depth (some ⟨v, x⟩) with
      ⟨back, fault | _⟩ <;> rfl

/-- What follows once a value has been tried: the next step, unless the puzzle is solved or something
failed. -/
def goOn (next : Search μ → Reply μ Outcome) : Reply μ Outcome → Reply μ Outcome
  | (tried, .error fault) => (tried, .error fault)
  | (tried, .ok .solved) => (tried, .ok .solved)
  | (tried, .ok _) => next tried

theorem goOn_induction {P : Reply μ Outcome → Prop} {next : Search μ → Reply μ Outcome}
    {reply : Reply μ Outcome} (stops : P reply)
    (again : ∀ t outcome, reply = (t, .ok outcome) → outcome ≠ .solved → P (next t)) :
    P (goOn next reply) := by
  obtain ⟨t, fault | outcome⟩ := reply
  · exact stops
  · cases outcome with
    | solved => exact stops
    | unsolved | unsolvable | invalid => exact again t _ rfl (by simp)

theorem tryValues_eq_goOn :
    s.tryValues hook attempt depth v (x :: rest) =
      if s.solver.cancelled ∨ s.solver.budget ≤ s.solver.guesses then s.giveUp
      else goOn (tryValues hook attempt depth v rest) (s.tryValue hook attempt depth v x) := by
  rw [tryValues_cons]
  rcases s.tryValue hook attempt depth v x with ⟨tried, fault | outcome⟩
  · rfl
  · cases outcome <;> rfl

def afterGuess (state : State) (search : Search μ) : Search μ :=
  { search with state, solver := { search.solver with guesses := search.solver.guesses + 1 } }

private theorem makeGuess_eq_ok (h : s.makeGuess v x = (t, .ok ())) :
    ∃ state flag, s.state.assign v x = .ok (state, flag) ∧ t = s.afterGuess state := by
  unfold makeGuess at h
  split at h
  next => simp at h
  next state flag assigned => exact ⟨state, flag, assigned, (congrArg Prod.fst h).symm⟩

/-- What is done once a guess has been explored: unless it solved the puzzle, it is taken back. -/
def closeTry (hook : Hook μ) (mark depth : Nat) (guess : Guess) : Reply μ Outcome → Reply μ Outcome
  | (below, .error fault) => (below, .error fault)
  | (below, .ok .solved) => (below, .ok .solved)
  | (below, .ok outcome) =>
    let back := (below.takeBack mark).emit hook .backtrack depth (some guess)
    (back.1, back.2.map fun _ => outcome)

/-- Trying a value, by whether the guess can be made and whether the hook lets the search go on. -/
theorem tryValue_eq :
    s.tryValue hook attempt depth v x =
      match s.state.assign v x with
      | .error fault => (s, .error fault)
      | .ok (state, _) =>
        match (s.afterGuess state).emit hook .guess (depth + 1) (some ⟨v, x⟩) with
        | (told, .error fault) => (told, .error fault)
        | (told, .ok ()) => closeTry hook s.state.mark depth ⟨v, x⟩ (attempt told) := by
  unfold tryValue makeGuess afterGuess
  rcases s.state.assign v x with fault | ⟨state, flag⟩
  · rfl
  dsimp only
  rcases emit hook .guess (depth + 1) (some ⟨v, x⟩) _ with ⟨told, fault | _⟩
  · rfl
  dsimp only
  rcases attempt told with ⟨below, fault | outcome⟩
  · rfl
  cases outcome with
  | solved => rfl
  | unsolved | unsolvable | invalid =>
    dsimp only [closeTry]
    rcases (below.takeBack s.state.mark).emit hook .backtrack depth (some ⟨v, x⟩) with
      ⟨back, fault | _⟩ <;> rfl

theorem leads_afterGuess {state : State} {flag : Bool} (h : s.state.assign v x = .ok (state, flag)) :
    s.Leads (s.afterGuess state) :=
  ⟨NarrowsTo.of_assign h, id, rfl, rfl, rfl, Nat.le_succ _⟩

theorem leads_makeGuess (s : Search μ) (v x : Nat) : s.Leads (s.makeGuess v x).1 := by
  unfold makeGuess
  split
  next => exact Leads.refl
  next assigned => exact leads_afterGuess assigned

/-- Going back from below a guess restores the state and keeps what else the search has learned. -/
theorem leads_takeBack (h : s.Leads t) :
    (t.takeBack s.state.mark).state = s.state ∧ s.Leads (t.takeBack s.state.mark) := by
  have back : (t.takeBack s.state.mark).state = s.state := h.state.undo
  refine ⟨back, ?_, h.gaveUp, h.root, h.policy, h.passLimit, h.guesses⟩
  rw [back]
  exact NarrowsTo.refl

private theorem leads_closeTry (hook : Hook μ) (depth : Nat) (guess : Guess) {reply : Reply μ Outcome}
    (explored : s.Leads reply.1) : s.Leads (closeTry hook s.state.mark depth guess reply).1 := by
  obtain ⟨below, fault | outcome⟩ := reply
  · exact explored
  · cases outcome with
    | solved => exact explored
    | unsolved | unsolvable | invalid =>
      exact (leads_takeBack explored).2.trans (leads_emit .backtrack depth (some guess) hook _)

theorem tryValue_eq_ok {outcome : Outcome}
    (h : s.tryValue hook attempt depth v x = (t, .ok outcome)) :
    ∃ state flag told below, s.state.assign v x = .ok (state, flag) ∧
      (s.afterGuess state).emit hook .guess (depth + 1) (some ⟨v, x⟩) = (told, .ok ()) ∧
      attempt told = (below, .ok outcome) ∧
      (outcome = .solved ∧ t = below ∨ outcome ≠ .solved ∧
        (below.takeBack s.state.mark).emit hook .backtrack depth (some ⟨v, x⟩) = (t, .ok ())) := by
  unfold tryValue at h
  split at h
  next => simp at h
  next made =>
    obtain ⟨state, flag, assigned, rfl⟩ := makeGuess_eq_ok made
    split at h
    next => simp at h
    next told emitted =>
      split at h
      next => simp at h
      next below explored =>
        cases h
        exact ⟨state, flag, told, t, assigned, emitted, explored, .inl ⟨rfl, rfl⟩⟩
      next below outcome' other explored =>
        split at h
        next => simp at h
        next back emittedBack =>
          cases h
          exact ⟨state, flag, told, below, assigned, emitted, explored,
            .inr ⟨other, emittedBack⟩⟩

section Below

variable (below : ∀ s : Search μ, s.Leads (attempt s).1)
include below

theorem leads_tryValue (hook : Hook μ) (s : Search μ) (depth v x : Nat) :
    s.Leads (s.tryValue hook attempt depth v x).1 := by
  rw [tryValue_eq]
  split
  next => exact Leads.refl
  next state _ assigned =>
    have told := (leads_afterGuess assigned).trans
      (leads_emit .guess (depth + 1) (some ⟨v, x⟩) hook (s.afterGuess state))
    split
    next tell fault emitted =>
      rw [emitted] at told
      exact told
    next tell emitted =>
      rw [emitted] at told
      exact leads_closeTry hook depth ⟨v, x⟩ (told.trans (below tell))

theorem state_tryValue {outcome : Outcome}
    (h : s.tryValue hook attempt depth v x = (t, .ok outcome)) (unsolved : outcome ≠ .solved) :
    t.state = s.state := by
  obtain ⟨state, flag, told, last, assigned, emitted, explored, ⟨solved, _⟩ | ⟨_, back⟩⟩ :=
    tryValue_eq_ok h
  · exact absurd solved unsolved
  · have tell := (leads_afterGuess assigned).trans
      (leads_emit .guess (depth + 1) (some ⟨v, x⟩) hook _)
    rw [emitted] at tell
    have ended := tell.trans (below told)
    rw [explored] at ended
    have same := state_emit .backtrack depth (some ⟨v, x⟩) hook (last.takeBack s.state.mark)
    rw [back] at same
    exact same.trans (leads_takeBack ended).1

theorem leads_tryValues (hook : Hook μ) (s : Search μ) (depth v : Nat) (values : List Nat) :
    s.Leads (s.tryValues hook attempt depth v values).1 := by
  induction values generalizing s with
  | nil => exact Leads.refl
  | cons x rest ih =>
    have here := leads_tryValue below hook s depth v x
    rw [tryValues_eq_goOn]
    split
    next => exact ⟨NarrowsTo.refl, fun _ => rfl, rfl, rfl, rfl, Nat.le_refl _⟩
    next =>
      refine goOn_induction (P := fun reply => s.Leads reply.1) here fun t outcome ended _ => ?_
      rw [ended] at here
      exact here.trans (ih t)

end Below

/-! ### Choosing a variable -/

theorem mem_openAmong {state : State} {references : List Int} {among : List Nat}
    (h : state.openAmong references = .ok among) :
    ∀ w ∈ among, w < state.count ∧ state.isDetermined w = false := by
  induction references generalizing among with
  | nil =>
    cases h
    simp
  | cons reference rest ih =>
    obtain ⟨w, var, h⟩ := bind_eq_ok.mp h
    obtain ⟨others, later, h⟩ := bind_eq_ok.mp h
    cases settled : state.isDetermined w with
    | true =>
      rw [settled] at h
      exact Except.ok.inj h ▸ ih later
    | false =>
      rw [settled] at h
      cases h
      exact List.forall_mem_cons.mpr ⟨⟨(checkVar_eq_ok.mp var).2, settled⟩, ih later⟩

private theorem fewestCandidates_mem (state : State) (best : Nat) (among : List Nat) :
    state.fewestCandidates best among ∈ best :: among := by
  induction among generalizing best with
  | nil => exact List.mem_cons_self ..
  | cons w rest ih =>
    unfold fewestCandidates
    split
    · exact List.mem_cons_of_mem best (ih w)
    · rcases List.mem_cons.mp (ih best) with same | later
      · exact List.mem_cons.mpr (.inl same)
      · exact List.mem_cons_of_mem best (List.mem_cons_of_mem w later)

theorem chooseVariable_eq_ok {policy : Policy} {state : State} {w : Nat}
    (h : puzzle.chooseVariable policy state = .ok w) :
    w < state.count ∧ state.isDetermined w = false := by
  obtain ⟨among, listed, h⟩ := bind_eq_ok.mp h
  have settled := mem_openAmong listed
  cases among with
  | nil => simp at h
  | cons front rest =>
    cases policy with
    | first =>
      cases h
      exact settled w (List.mem_cons_self ..)
    | fewest =>
      cases h
      exact settled _ (fewestCandidates_mem state front rest)

/-! ### Exploring a tree -/

private theorem leads_giveUp (s : Search μ) : s.Leads s.giveUp.1 :=
  ⟨NarrowsTo.refl, fun _ => rfl, rfl, rfl, rfl, Nat.le_refl _⟩

def branch (puzzle : Puzzle) (hook : Hook μ) (levels depth : Nat) (outcome : Outcome)
    (converged : Bool) (search : Search μ) : Reply μ Outcome :=
  if outcome.isTerminal then (search, .ok outcome)
  else if !converged then search.giveUp
  else
    match puzzle.chooseVariable search.solver.policy search.state with
    | .error fault => (search, .error fault)
    | .ok v =>
      tryValues hook (explore puzzle hook levels (depth + 1)) depth v (search.state.candidates v)
        search

theorem explore_succ (levels depth : Nat) :
    s.explore puzzle hook (levels + 1) depth =
      if s.solver.cancelled then s.giveUp
      else
        match s.propagate puzzle hook depth with
        | (t, .error fault) => (t, .error fault)
        | (t, .ok (outcome, converged)) => t.branch puzzle hook levels depth outcome converged := rfl

theorem leads_branch {levels depth : Nat}
    (below : ∀ s : Search μ, s.Leads (s.explore puzzle hook levels (depth + 1)).1) (s : Search μ)
    (outcome : Outcome) (converged : Bool) :
    s.Leads (s.branch puzzle hook levels depth outcome converged).1 := by
  unfold branch
  split
  · exact Leads.refl
  · split
    · exact leads_giveUp s
    · split
      next => exact Leads.refl
      next => exact leads_tryValues below hook s depth _ _

theorem leads_explore (puzzle : Puzzle) (hook : Hook μ) {depth : Nat} (below : depth ≠ 0)
    (levels : Nat) (s : Search μ) :
    s.Leads (s.explore puzzle hook levels depth).1 := by
  induction levels generalizing depth s with
  | zero => exact leads_giveUp s
  | succ levels ih =>
    have here := leads_propagate_of_pos puzzle hook below s
    rw [explore_succ]
    split
    · exact leads_giveUp s
    · split
      next ended =>
        rw [ended] at here
        exact here
      next ended =>
        rw [ended] at here
        exact here.trans (leads_branch (fun t => ih (Nat.succ_ne_zero depth) t) _ _ _)

/-- Exploring from the first node on moves the mark to go back to at most once, at that node. -/
theorem leads_explore_root (puzzle : Puzzle) (hook : Hook μ) (levels depth : Nat) (s : Search μ) :
    (s.rootedAt (s.explore puzzle hook levels depth).1.root).Leads
      (s.explore puzzle hook levels depth).1 := by
  cases levels with
  | zero => exact leads_giveUp s
  | succ levels =>
    have here := leads_propagate puzzle hook depth s
    rw [explore_succ]
    split
    · exact leads_giveUp s
    · split
      next ended =>
        rw [ended] at here
        exact here
      next node outcome converged ended =>
        rw [ended] at here
        have later := leads_branch
          (fun t => leads_explore puzzle hook (Nat.succ_ne_zero depth) levels t) node outcome converged
        rw [later.root]
        exact here.trans later

end PencilPuzzle.Search
