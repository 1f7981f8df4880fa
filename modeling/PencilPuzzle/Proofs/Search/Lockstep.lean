import PencilPuzzle.Proofs.Search.Completeness

/-!
# Searches in lockstep

Two searches that agree on the state, the settings and what was given up take the same course, as
long as the second has room for as many guesses as the first: what they report, count and remember
for other purposes has no influence. They part only where the first has no guess left. From there on
the first ends without a verdict and without another guess, while the second goes on.
-/

namespace PencilPuzzle

open State

variable {μ ν α : Type} {puzzle : Puzzle} {hook : Hook μ} {hook' : Hook ν}

namespace Search

variable {s t : Search μ} {s' t' : Search ν} {lead lag : Nat} {outcome : Outcome}

/-- The second search is where the first is, `lead` and `lag` being the guesses they started with. -/
structure Mirrors (lead lag : Nat) (s : Search μ) (s' : Search ν) : Prop where
  state : s'.state = s.state
  root : s'.root = s.root
  policy : s'.solver.policy = s.solver.policy
  passLimit : s'.solver.passLimit = s.solver.passLimit
  guesses : s'.solver.guesses + lead = s.solver.guesses + lag
  budget : s.solver.budget + lag ≤ s'.solver.budget + lead
  active : s.solver.cancelled = false
  active' : s'.solver.cancelled = false
  gaveUp : s'.gaveUp = s.gaveUp

/-- The second search has come to the same result, and to where the first is. -/
structure Echoes (lead lag : Nat) (reply : Reply μ α) (reply' : Reply ν α) : Prop where
  result : reply'.2 = reply.2
  mirrors : reply.1.Mirrors lead lag reply'.1

/-- The search has no verdict because no guess was left. -/
structure RanOut (reply : Reply μ Outcome) : Prop where
  result : reply.2 = .ok .unsolved
  gaveUp : reply.1.gaveUp = true
  spent : reply.1.solver.budget ≤ reply.1.solver.guesses

/-- The second search has done as the first, unless the first ran out of guesses; then it has made
no fewer. -/
def Trails (lead lag : Nat) (reply : Reply μ Outcome) (reply' : Reply ν Outcome) : Prop :=
  Echoes lead lag reply reply' ∨
    RanOut reply ∧ reply.1.solver.guesses + lag ≤ reply'.1.solver.guesses + lead

/-- With a verdict, or with a fault, the first search did not run out of guesses. -/
theorem Trails.echoes {reply : Reply μ Outcome} {reply' : Reply ν Outcome}
    (trails : Trails lead lag reply reply') (ended : reply.2 ≠ .ok .unsolved) :
    Echoes lead lag reply reply' := by
  obtain echoes | ⟨ranOut, _⟩ := trails
  · exact echoes
  · exact absurd ranOut.result ended

theorem Trails.guesses_le {reply : Reply μ Outcome} {reply' : Reply ν Outcome}
    (trails : Trails lead lag reply reply') :
    reply.1.solver.guesses + lag ≤ reply'.1.solver.guesses + lead := by
  obtain echoes | ⟨_, more⟩ := trails
  · exact echoes.mirrors.guesses.ge
  · exact more

/-! ### Steps -/

namespace Mirrors

variable (mirrors : s.Mirrors lead lag s')
include mirrors

theorem emit (quiet : hook.Quiet) (quiet' : hook'.Quiet) (kind : EventKind) (depth : Nat)
    (guess : Option Guess) :
    ∃ t t', s.emit hook kind depth guess = (t, .ok ()) ∧ s'.emit hook' kind depth guess = (t', .ok ()) ∧
      t.Mirrors lead lag t' := by
  unfold Search.emit
  dsimp only
  rw [quiet, quiet']
  exact ⟨_, _, rfl, rfl, mirrors.state, mirrors.root, mirrors.policy, mirrors.passLimit, mirrors.guesses,
    mirrors.budget, mirrors.active, mirrors.active', mirrors.gaveUp⟩

theorem giveUp : s.giveUp.1.Mirrors lead lag s'.giveUp.1 :=
  ⟨mirrors.state, mirrors.root, mirrors.policy, mirrors.passLimit, mirrors.guesses, mirrors.budget,
    mirrors.active, mirrors.active', rfl⟩

theorem afterRun (puzzle : Puzzle) (depth : Nat) :
    (s.afterRun puzzle depth).Mirrors lead lag (s'.afterRun puzzle depth) := by
  refine ⟨?_, mirrors.root, mirrors.policy, mirrors.passLimit, mirrors.guesses, mirrors.budget,
    mirrors.active, mirrors.active', mirrors.gaveUp⟩
  change (runToFixpoint _ _ _).state = (runToFixpoint _ _ _).state
  rw [mirrors.state, mirrors.passLimit]

theorem countFixpoint (summary : FixpointSummary) :
    (s.countFixpoint summary).Mirrors lead lag (s'.countFixpoint summary) :=
  ⟨mirrors.state, mirrors.root, mirrors.policy, mirrors.passLimit, mirrors.guesses, mirrors.budget,
    mirrors.active, mirrors.active', mirrors.gaveUp⟩

theorem settleRoot (depth : Nat) : (s.settleRoot depth).Mirrors lead lag (s'.settleRoot depth) := by
  unfold Search.settleRoot
  split
  · exact ⟨mirrors.state, congrArg mark mirrors.state, mirrors.policy, mirrors.passLimit,
      mirrors.guesses, mirrors.budget, mirrors.active, mirrors.active', mirrors.gaveUp⟩
  · exact mirrors

theorem afterGuess (state : State) : (s.afterGuess state).Mirrors lead lag (s'.afterGuess state) := by
  refine ⟨rfl, mirrors.root, mirrors.policy, mirrors.passLimit, ?_, mirrors.budget, mirrors.active,
    mirrors.active', mirrors.gaveUp⟩
  have := mirrors.guesses
  change s'.solver.guesses + 1 + lead = s.solver.guesses + 1 + lag
  omega

theorem takeBack (mark : Nat) : (s.takeBack mark).Mirrors lead lag (s'.takeBack mark) :=
  ⟨congrArg (State.undo · mark) mirrors.state, mirrors.root, mirrors.policy, mirrors.passLimit,
    mirrors.guesses, mirrors.budget, mirrors.active, mirrors.active', mirrors.gaveUp⟩

theorem propagate (quiet : hook.Quiet) (quiet' : hook'.Quiet) (puzzle : Puzzle) (depth : Nat) :
    Echoes lead lag (s.propagate puzzle hook depth) (s'.propagate puzzle hook' depth) := by
  have same : runToFixpoint puzzle.rules s'.solver.passLimit s'.state =
      runToFixpoint puzzle.rules s.solver.passLimit s.state := by
    rw [mirrors.state, mirrors.passLimit]
  have left := mirrors.afterRun puzzle depth
  rw [propagate_eq, propagate_eq, same]
  split
  next => exact ⟨rfl, left⟩
  next => exact ⟨rfl, left⟩
  next summary _ =>
    dsimp only
    rw [(left.countFixpoint summary).state]
    split
    next => exact ⟨rfl, left.countFixpoint summary⟩
    next =>
      obtain ⟨told, told', emitted, emitted', later⟩ :=
        ((left.countFixpoint summary).settleRoot depth).emit quiet quiet' .fixpoint depth none
      rw [emitted, emitted']
      exact ⟨rfl, later⟩

end Mirrors

@[simp] theorem guesses_closeTry (hook : Hook μ) (mark depth : Nat) (guess : Guess)
    (reply : Reply μ Outcome) :
    (closeTry hook mark depth guess reply).1.solver.guesses = reply.1.solver.guesses := by
  obtain ⟨below, fault | outcome⟩ := reply
  · rfl
  · cases outcome with
    | solved => rfl
    | unsolved | unsolvable | invalid =>
      exact guesses_emit .backtrack depth (some guess) hook (below.takeBack mark)

theorem RanOut.closeTry {reply : Reply μ Outcome} (quiet : hook.Quiet) (ranOut : RanOut reply)
    (mark depth : Nat) (guess : Guess) : RanOut (Search.closeTry hook mark depth guess reply) := by
  obtain ⟨below, result⟩ := reply
  obtain ⟨noVerdict, gaveUp, spent⟩ := ranOut
  cases noVerdict
  obtain ⟨back, emitted, spends, _⟩ :=
    Spends.emit quiet .backtrack depth (some guess) (below.takeBack mark)
  have same := gaveUp_emit .backtrack depth (some guess) hook (below.takeBack mark)
  have made := guesses_emit .backtrack depth (some guess) hook (below.takeBack mark)
  dsimp only [Search.closeTry]
  rw [emitted] at same made ⊢
  refine ⟨rfl, same.trans gaveUp, ?_⟩
  change back.solver.budget ≤ back.solver.guesses
  rw [spends.budget, show back.solver.guesses = below.solver.guesses from made]
  exact spent

theorem Trails.closeTry {reply : Reply μ Outcome} {reply' : Reply ν Outcome} (quiet : hook.Quiet)
    (quiet' : hook'.Quiet) (trails : Trails lead lag reply reply') (mark depth : Nat) (guess : Guess) :
    Trails lead lag (Search.closeTry hook mark depth guess reply)
      (Search.closeTry hook' mark depth guess reply') := by
  obtain ⟨same, mirrors⟩ | ⟨ranOut, more⟩ := trails
  · obtain ⟨below, result⟩ := reply
    obtain ⟨below', result'⟩ := reply'
    cases same
    obtain ⟨back, back', emitted, emitted', mirrorsBack⟩ :=
      (mirrors.takeBack mark).emit quiet quiet' .backtrack depth (some guess)
    rcases result with fault | outcome
    · exact .inl ⟨rfl, mirrors⟩
    cases outcome with
    | solved => exact .inl ⟨rfl, mirrors⟩
    | unsolved | unsolvable | invalid =>
      dsimp only [Search.closeTry]
      rw [emitted, emitted']
      exact .inl ⟨rfl, mirrorsBack⟩
  · refine .inr ⟨ranOut.closeTry quiet mark depth guess, ?_⟩
    rw [guesses_closeTry, guesses_closeTry]
    exact more

/-- A search that goes on after a try stands to the other as before, if the next step does. -/
theorem Trails.goOn {reply : Reply μ Outcome} {reply' : Reply ν Outcome}
    {next : Search μ → Reply μ Outcome} {next' : Search ν → Reply ν Outcome}
    (trails : Trails lead lag reply reply')
    (again : ∀ t t' outcome, reply = (t, .ok outcome) → outcome ≠ .solved → t.Mirrors lead lag t' →
      Trails lead lag (next t) (next' t'))
    (stops : ∀ t : Search μ, t.gaveUp = true → t.solver.budget ≤ t.solver.guesses →
      RanOut (next t) ∧ (next t).1.solver.guesses = t.solver.guesses)
    (onward : ∀ t' : Search ν, t'.solver.guesses ≤ (next' t').1.solver.guesses) :
    Trails lead lag (Search.goOn next reply) (Search.goOn next' reply') := by
  obtain ⟨t, result⟩ := reply
  obtain ⟨t', result'⟩ := reply'
  obtain ⟨same, mirrors⟩ | ⟨⟨noVerdict, gaveUp, spent⟩, more⟩ := trails
  · cases same
    rcases result with fault | outcome
    · exact .inl ⟨rfl, mirrors⟩
    cases outcome with
    | solved => exact .inl ⟨rfl, mirrors⟩
    | unsolved | unsolvable | invalid => exact again t t' _ rfl (by simp) mirrors
  · cases noVerdict
    obtain ⟨ranOut, made⟩ := stops t gaveUp spent
    refine .inr ⟨ranOut, ?_⟩
    change (next t).1.solver.guesses + lag ≤ _
    rw [made]
    rcases result' with fault | outcome
    · exact more
    cases outcome with
    | solved => exact more
    | unsolved | unsolvable | invalid => exact more.trans (Nat.add_le_add_right (onward t') lead)

/-! ### Nodes -/

section Below

variable {attempt : Search μ → Reply μ Outcome} {attempt' : Search ν → Reply ν Outcome}
  {openLeft depth v x : Nat} {values : List Nat}

theorem RanOut.tryValues (gaveUp : s.gaveUp = true) (spent : s.solver.budget ≤ s.solver.guesses) :
    RanOut (s.tryValues hook attempt depth v values) ∧
      (s.tryValues hook attempt depth v values).1.solver.guesses = s.solver.guesses := by
  cases values with
  | nil =>
    rw [Search.tryValues, gaveUp]
    exact ⟨⟨rfl, gaveUp, spent⟩, rfl⟩
  | cons x rest =>
    rw [tryValues_cons, if_pos (.inr spent)]
    exact ⟨⟨rfl, rfl, spent⟩, rfl⟩

variable (quiet : hook.Quiet) (quiet' : hook'.Quiet)
  (trails : ∀ (s : Search μ) (s' : Search ν), s.Mirrors lead lag s' →
    s.state.undetermined.length ≤ openLeft → Trails lead lag (attempt s) (attempt' s'))
include quiet quiet' trails

private theorem tryValue_trails (mirrors : s.Mirrors lead lag s') (isOpen : v ∈ s.state.undetermined)
    (fewer : s.state.undetermined.length ≤ openLeft + 1) :
    Trails lead lag (s.tryValue hook attempt depth v x)
      (s'.tryValue hook' attempt' depth v x) := by
  rw [tryValue_eq, tryValue_eq, mirrors.state]
  split
  next => exact .inl ⟨rfl, mirrors⟩
  next state _ assigned =>
    have settled := length_undetermined_assign assigned isOpen
    have same := state_emit .guess (depth + 1) (some ⟨v, x⟩) hook (s.afterGuess state)
    obtain ⟨told, told', emitted, emitted', mirrorsTold⟩ :=
      (mirrors.afterGuess state).emit quiet quiet' .guess (depth + 1) (some ⟨v, x⟩)
    rw [emitted] at same
    rw [emitted, emitted']
    have fewerLeft : told.state.undetermined.length ≤ openLeft := by
      rw [show told.state = state from same]
      omega
    exact (trails told told' mirrorsTold fewerLeft).closeTry quiet quiet' s.state.mark depth ⟨v, x⟩

private theorem tryValues_trails (below : ∀ s : Search μ, s.Leads (attempt s).1)
    (below' : ∀ s : Search ν, s.Leads (attempt' s).1) (mirrors : s.Mirrors lead lag s')
    (isOpen : v ∈ s.state.undetermined) (fewer : s.state.undetermined.length ≤ openLeft + 1) :
    Trails lead lag (s.tryValues hook attempt depth v values)
      (s'.tryValues hook' attempt' depth v values) := by
  induction values generalizing s s' with
  | nil =>
    refine .inl ⟨?_, mirrors⟩
    rw [tryValues, tryValues, mirrors.gaveUp]
  | cons x rest ih =>
    have guesses := mirrors.guesses
    have budget := mirrors.budget
    by_cases spent : s.solver.budget ≤ s.solver.guesses
    · have more := (leads_tryValues below' hook' s' depth v (x :: rest)).guesses
      rw [tryValues_cons, if_pos (.inr spent)]
      refine .inr ⟨⟨rfl, rfl, spent⟩, ?_⟩
      change s.solver.guesses + lag ≤ _
      omega
    have spent' : ¬ s'.solver.budget ≤ s'.solver.guesses := by omega
    rw [tryValues_eq_goOn, tryValues_eq_goOn, if_neg (by simp [mirrors.active, spent]),
      if_neg (by simp [mirrors.active', spent'])]
    refine (tryValue_trails quiet quiet' trails mirrors isOpen fewer).goOn
      (fun t t' outcome tried other mirrorsTried => ?_) (fun t => RanOut.tryValues)
      (fun t' => (leads_tryValues below' hook' t' depth v rest).guesses)
    have back := state_tryValue below tried other
    exact ih mirrorsTried (back ▸ isOpen) (back ▸ fewer)

end Below

private theorem branch_trails (puzzle : Puzzle) (quiet : hook.Quiet) (quiet' : hook'.Quiet)
    (levels levels' : Nat) {depth : Nat} {found : Outcome} {converged : Bool}
    (trails : ∀ (s : Search μ) (s' : Search ν), s.Mirrors lead lag s' →
      s.state.undetermined.length < levels → s.state.undetermined.length < levels' →
      Trails lead lag (s.explore puzzle hook levels (depth + 1))
        (s'.explore puzzle hook' levels' (depth + 1)))
    (mirrors : s.Mirrors lead lag s')
    (notEmpty : found.isTerminal = false → s.state.hasEmptyDomain = false)
    (enough : s.state.undetermined.length ≤ levels) (enough' : s.state.undetermined.length ≤ levels') :
    Trails lead lag (s.branch puzzle hook levels depth found converged)
      (s'.branch puzzle hook' levels' depth found converged) := by
  unfold branch
  rw [mirrors.policy, mirrors.state]
  split
  next => exact .inl ⟨rfl, mirrors⟩
  next goesOn =>
    split
    next => exact .inl ⟨rfl, mirrors.giveUp⟩
    next =>
      split
      next => exact .inl ⟨rfl, mirrors⟩
      next v chosen =>
        obtain ⟨isOpen, openLeft, counted⟩ :=
          open_of_chosen (notEmpty (by simpa using goesOn)) chosen
        exact tryValues_trails quiet quiet'
          (fun u u' mirrors few => trails u u' mirrors (by omega) (by omega))
          (fun u => leads_explore puzzle hook (Nat.succ_ne_zero depth) levels u)
          (fun u => leads_explore puzzle hook' (Nat.succ_ne_zero depth) levels' u)
          mirrors isOpen counted.le

/-- From every node on, the second search does as the first. -/
theorem explore_trails (puzzle : Puzzle) (quiet : hook.Quiet) (quiet' : hook'.Quiet)
    (levels levels' depth : Nat) (mirrors : s.Mirrors lead lag s')
    (enough : s.state.undetermined.length < levels) (enough' : s.state.undetermined.length < levels') :
    Trails lead lag (s.explore puzzle hook levels depth) (s'.explore puzzle hook' levels' depth) := by
  induction levels generalizing s s' levels' depth with
  | zero => exact absurd enough (Nat.not_lt_zero _)
  | succ levels ih =>
    obtain ⟨levels', rfl⟩ := Nat.exists_eq_succ_of_ne_zero (Nat.ne_zero_of_lt enough')
    have node := mirrors.propagate quiet quiet' puzzle depth
    have rooted := leads_propagate puzzle hook depth s
    rw [explore_succ, explore_succ, mirrors.active, mirrors.active']
    simp only [Bool.false_eq_true, if_false]
    rcases propagated : s.propagate puzzle hook depth with ⟨t, result⟩
    rcases propagated' : s'.propagate puzzle hook' depth with ⟨t', result'⟩
    rw [propagated, propagated'] at node
    rw [propagated] at rooted
    have fewer : t.state.undetermined.length ≤ s.state.undetermined.length :=
      rooted.state.length_undetermined_le
    obtain rfl : result' = result := node.result
    rcases result' with fault | ⟨found, converged⟩
    · exact .inl ⟨rfl, node.mirrors⟩
    · exact branch_trails puzzle quiet quiet' levels levels'
        (fun u u' mirrors few few' => ih levels' _ mirrors few few') node.mirrors
        (propagate_notEmpty propagated) (by omega) (by omega)

theorem trails_of_open (puzzle : Puzzle) (quiet : hook.Quiet) (quiet' : hook'.Quiet) {levels levels' : Nat}
    (depth : Nat) (mirrors : s.Mirrors lead lag s')
    (isOpen : puzzle.classify false s.state = .ok .unsolved)
    (enough : s.state.undetermined.length ≤ levels) (enough' : s.state.undetermined.length ≤ levels') :
    Trails lead lag (s.branch puzzle hook levels depth .unsolved true)
      (s'.branch puzzle hook' levels' depth .unsolved true) :=
  branch_trails puzzle quiet quiet' levels levels'
    (fun _ _ mirrors few few' =>
      explore_trails puzzle quiet quiet' levels levels' (depth + 1) mirrors few few')
    mirrors (fun _ => (Puzzle.classify_eq_unsolved isOpen).1) enough enough'

/-! ### Searches with the same number of guesses left -/

/-- Two searches each of which does as the other come to the same result, with as many guesses. -/
theorem Trails.antisymm {reply : Reply μ Outcome} {reply' : Reply ν Outcome}
    (trails : Trails lead lag reply reply') (back : Trails lag lead reply' reply) :
    reply'.2 = reply.2 ∧ reply'.1.solver.guesses + lead = reply.1.solver.guesses + lag := by
  refine ⟨?_, Nat.le_antisymm back.guesses_le trails.guesses_le⟩
  obtain ⟨same, _⟩ | ⟨ranOut, _⟩ := trails
  · exact same
  obtain ⟨same, _⟩ | ⟨ranOut', _⟩ := back
  · exact same.symm
  · exact ranOut'.result.trans ranOut.result.symm

/-! ### The first node -/

private theorem propagate_keeps (quiet : hook.Quiet) {depth : Nat} {converged : Bool}
    (h : s.propagate puzzle hook depth = (t, .ok (outcome, converged))) :
    t.gaveUp = s.gaveUp ∧ t.solver.guesses = s.solver.guesses ∧
      t.solver.budget = s.solver.budget ∧ t.solver.cancelled = s.solver.cancelled := by
  obtain ⟨_, _, ended⟩ | ⟨_, _, _, ended⟩ | ⟨_, _, _, _, ended⟩ | ⟨summary, _, _, _, ended⟩ :=
    propagate_cases puzzle hook depth s
  · rw [ended] at h
    cases h
    exact ⟨rfl, rfl, rfl, rfl⟩
  · rw [ended] at h
    simp at h
  · rw [ended] at h
    simp at h
  · unfold Search.emit at ended
    dsimp only at ended
    rw [quiet] at ended
    rw [ended] at h
    cases h
    unfold settleRoot
    split <;> exact ⟨rfl, rfl, rfl, rfl⟩

/-- After the rules have run at the first node, a search goes back to what they left; if they met a
contradiction, it goes back to where it started. -/
theorem propagate_root {converged : Bool}
    (h : s.propagate puzzle hook 0 = (t, .ok (outcome, converged))) :
    (∃ cause, (runToFixpoint puzzle.rules s.solver.passLimit s.state).result =
        .error (.contradiction cause)) ∧ t.root = s.root ∨
      (∃ summary, (runToFixpoint puzzle.rules s.solver.passLimit s.state).result = .ok summary) ∧
        t.root = t.state.mark := by
  obtain ⟨cause, failed, ended⟩ | ⟨_, _, _, ended⟩ | ⟨_, _, _, _, ended⟩ |
    ⟨summary, _, finished, _, ended⟩ := propagate_cases puzzle hook 0 s
  · rw [ended] at h
    cases h
    exact .inl ⟨⟨cause, failed⟩, rfl⟩
  · rw [ended] at h
    simp at h
  · rw [ended] at h
    simp at h
  · rw [ended, Prod.mk.injEq] at h
    refine .inr ⟨⟨summary, finished⟩, ?_⟩
    rw [← h.1, root_emit, state_emit]
    rfl

/-- What the search comes to at a node where the rules have got to their fixpoint and left the state
open. -/
theorem explore_of_open (quiet : hook.Quiet) (active : s.solver.cancelled = false)
    {summary : FixpointSummary}
    (finished : (runToFixpoint puzzle.rules s.solver.passLimit s.state).result = .ok summary)
    (converged : summary.converged = true)
    (isOpen : puzzle.classify false (runToFixpoint puzzle.rules s.solver.passLimit s.state).state =
      .ok .unsolved) (levels depth : Nat) :
    ∃ node, s.propagate puzzle hook depth = (node, .ok (.unsolved, true)) ∧
      s.explore puzzle hook (levels + 1) depth = node.branch puzzle hook levels depth .unsolved true := by
  obtain ⟨node, propagated⟩ : ∃ node,
      s.propagate puzzle hook depth = (node, .ok (.unsolved, true)) := by
    obtain ⟨_, failed, _⟩ | ⟨_, _, failed, _⟩ | ⟨_, _, _, failed, _⟩ |
      ⟨summary', outcome, finished', classified, ended⟩ := propagate_cases puzzle hook depth s
    · exact nomatch finished.symm.trans failed
    · exact nomatch finished.symm.trans failed
    · exact nomatch isOpen.symm.trans failed
    · cases finished.symm.trans finished'
      cases isOpen.symm.trans classified
      obtain ⟨told, emitted, _, _⟩ := Spends.emit quiet .fixpoint depth none
        (((s.afterRun puzzle depth).countFixpoint summary).settleRoot depth)
      rw [emitted, converged] at ended
      exact ⟨told, ended⟩
  refine ⟨node, propagated, ?_⟩
  rw [explore_succ, active, propagated]
  rfl

theorem root_of_open {converged : Bool}
    (h : s.propagate puzzle hook 0 = (t, .ok (.unsolved, converged))) : t.root = t.state.mark := by
  obtain ⟨⟨_, failed⟩, _⟩ | ⟨_, root⟩ := propagate_root h
  · obtain ⟨_, ⟨_, _, unsolvable⟩ | ⟨_, finished, _⟩⟩ := propagate_eq_ok h
    · exact nomatch unsolvable
    · exact nomatch failed.symm.trans finished
  · exact root

end Search

/-! ### Calls -/

namespace Solver

variable {solver again : Solver} {memory : μ} {memory' : ν} {s s' : State} {lead lag : Nat}

theorem state_finish_of_echoes {reply : Search.Reply μ Outcome} {reply' : Search.Reply ν Outcome}
    (echoes : Search.Echoes lead lag reply reply') : (finish reply').state = (finish reply).state := by
  by_cases solved : reply.2 = .ok .solved
  · rw [state_finish_solved solved, state_finish_solved (echoes.result.trans solved)]
    exact echoes.mirrors.state
  · rw [state_finish_of_ne solved, state_finish_of_ne (echoes.result ▸ solved),
      echoes.mirrors.state, echoes.mirrors.root]

theorem state_finish_branch {node : Search μ} {levels : Nat} {outcome : Outcome} {converged : Bool}
    (root : node.root = node.state.mark)
    (unsolved : (node.branch puzzle hook levels 0 outcome converged).2 ≠ .ok .solved) :
    (finish (node.branch puzzle hook levels 0 outcome converged)).state = node.state := by
  have leads := Search.leads_branch (fun u => Search.leads_explore puzzle hook
    (Nat.succ_ne_zero 0) levels u) node outcome converged
  rw [state_finish_of_ne unsolved, leads.root, root]
  exact leads.state.undo

section Start

variable (policy : again.policy = solver.policy) (passLimit : again.passLimit = solver.passLimit)
  (budget : solver.budget + again.guesses ≤ again.budget + solver.guesses)
include policy passLimit budget

theorem mirrors_start (memory : μ) (memory' : ν) (s : State) :
    (start { solver with cancelled := false } memory s).Mirrors solver.guesses again.guesses
      (start { again with cancelled := false } memory' s) :=
  ⟨rfl, rfl, policy, passLimit, Nat.add_comm _ _, budget, rfl, rfl, rfl⟩

/-- Two calls whose first nodes have the same open state are in step there, wherever they started. -/
theorem mirrors_nodes {node : Search μ} {node' : Search ν} (quiet : hook.Quiet) (quiet' : hook'.Quiet)
    (propagated : (start { solver with cancelled := false } memory s).propagate puzzle hook 0 =
      (node, .ok (.unsolved, true)))
    (propagated' : (start { again with cancelled := false } memory' s').propagate puzzle hook' 0 =
      (node', .ok (.unsolved, true)))
    (same : node'.state = node.state) : node.Mirrors solver.guesses again.guesses node' := by
  obtain ⟨gaveUp, guesses, room, active⟩ := Search.propagate_keeps quiet propagated
  obtain ⟨gaveUp', guesses', room', active'⟩ := Search.propagate_keeps quiet' propagated'
  have leads := Search.leads_propagate puzzle hook 0
    (start { solver with cancelled := false } memory s)
  have leads' := Search.leads_propagate puzzle hook' 0
    (start { again with cancelled := false } memory' s')
  rw [propagated] at leads
  rw [propagated'] at leads'
  refine ⟨same, ?_, leads'.policy.trans (policy.trans leads.policy.symm),
    leads'.passLimit.trans (passLimit.trans leads.passLimit.symm), ?_, ?_, active, active',
    gaveUp'.trans gaveUp.symm⟩
  · rw [Search.root_of_open propagated, Search.root_of_open propagated', same]
  · rw [guesses, guesses']
    exact Nat.add_comm _ _
  · rw [room, room']
    exact budget

end Start

end Solver

end PencilPuzzle
