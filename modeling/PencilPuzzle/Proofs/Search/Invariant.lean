import PencilPuzzle.Proofs.Search.Termination

/-!
# Invariants of a search

A property of searches that every step keeps is kept by a whole search, however it ends: with an
outcome, with a fault, or cut short by the hook. Each step comes with what is known where it is taken.
A guess is made only by a search that is not cancelled and has a guess left, and a branch is left
without a verdict only for one of three reasons.
-/

namespace PencilPuzzle.Search

open State

variable {μ : Type} {puzzle : Puzzle} {hook : Hook μ} {P : Search μ → Prop} {s t : Search μ}
  {depth v x : Nat}

/-- Something may stop the search short of a verdict: a cancellation, the budget or the pass limit. -/
def Stoppable (search : Search μ) : Prop :=
  search.solver.cancelled = true ∨ search.solver.budget ≤ search.solver.guesses ∨
    search.solver.passLimit ≠ none

structure Invariant (puzzle : Puzzle) (hook : Hook μ) (P : Search μ → Prop) : Prop where
  giveUp : ∀ s, P s → s.Stoppable → P s.giveUp.1
  afterRun : ∀ s depth, P s → P (s.afterRun puzzle depth)
  countFixpoint : ∀ s summary, P s → P (s.countFixpoint summary)
  settleRoot : ∀ s depth, P s → P (s.settleRoot depth)
  emit : ∀ s kind depth guess, P s → P (s.emit hook kind depth guess).1
  afterGuess : ∀ s state, P s → s.solver.cancelled = false → s.solver.guesses < s.solver.budget →
    P (s.afterGuess state)
  takeBack : ∀ s mark, P s → P (s.takeBack mark)

private theorem stoppable_of_not_converged {outcome : Outcome}
    (h : s.propagate puzzle hook depth = (t, .ok (outcome, false))) (goesOn : outcome.isTerminal = false) :
    t.Stoppable := by
  have leads := leads_propagate puzzle hook depth s
  rw [h] at leads
  refine .inr (.inr fun unlimited => ?_)
  obtain ⟨_, ⟨_, _, rfl⟩ | ⟨summary, finished, short, _⟩⟩ := propagate_eq_ok h
  · exact nomatch goesOn
  · rw [← show t.solver.passLimit = s.solver.passLimit from leads.passLimit, unlimited] at finished
    exact nomatch short.symm.trans (runToFixpoint_converged finished)

namespace Invariant

variable (invariant : Invariant puzzle hook P)
include invariant

theorem propagate (h : P s) : P (s.propagate puzzle hook depth).1 := by
  have run := invariant.afterRun s depth h
  obtain ⟨_, _, ended⟩ | ⟨_, _, _, ended⟩ | ⟨summary, _, _, _, ended⟩ | ⟨summary, _, _, _, ended⟩ :=
    propagate_cases puzzle hook depth s
  · rw [ended]
    exact run
  · rw [ended]
    exact run
  · rw [ended]
    exact invariant.countFixpoint _ summary run
  · rw [ended]
    have counted := invariant.countFixpoint _ summary run
    exact invariant.emit _ _ _ _ (invariant.settleRoot _ depth counted)

theorem closeTry {reply : Reply μ Outcome} (mark : Nat) (guess : Guess) (h : P reply.1) :
    P (Search.closeTry hook mark depth guess reply).1 := by
  obtain ⟨below, fault | outcome⟩ := reply
  · exact h
  · cases outcome with
    | solved => exact h
    | unsolved | unsolvable | invalid =>
      exact invariant.emit _ _ _ _ (invariant.takeBack below mark h)

section Below

variable {attempt : Search μ → Reply μ Outcome} (below : ∀ s, P s → P (attempt s).1)
include below

theorem tryValue (active : s.solver.cancelled = false) (room : s.solver.guesses < s.solver.budget)
    (h : P s) : P (s.tryValue hook attempt depth v x).1 := by
  rw [tryValue_eq]
  split
  next => exact h
  next state _ _ =>
    have tell := invariant.emit _ .guess (depth + 1) (some ⟨v, x⟩)
      (invariant.afterGuess s state h active room)
    split
    next told fault emitted =>
      rw [emitted] at tell
      exact tell
    next told emitted =>
      rw [emitted] at tell
      exact invariant.closeTry s.state.mark ⟨v, x⟩ (below told tell)

theorem tryValues {values : List Nat} (h : P s) :
    P (s.tryValues hook attempt depth v values).1 := by
  induction values generalizing s with
  | nil => exact h
  | cons x rest ih =>
    rw [tryValues_eq_goOn]
    split
    next stopped => exact invariant.giveUp s h (stopped.imp id .inl)
    next goesOn =>
      simp only [not_or, Bool.not_eq_true, Nat.not_le] at goesOn
      have tried : P (s.tryValue hook attempt depth v x).1 :=
        invariant.tryValue below goesOn.1 goesOn.2 h
      refine goOn_induction (P := fun reply => P reply.1) tried fun t _ ended _ => ?_
      rw [ended] at tried
      exact ih tried

theorem visit (h : P s) : P (s.visit puzzle hook attempt depth).1 := by
  have node : P (s.propagate puzzle hook depth).1 := invariant.propagate h
  unfold Search.visit
  split
  next cancelled => exact invariant.giveUp s h (.inl cancelled)
  next =>
    split
    next propagated =>
      rw [propagated] at node
      exact node
    next t outcome converged propagated =>
      rw [propagated] at node
      split
      next => exact node
      next goesOn =>
        split
        next short =>
          obtain rfl : converged = false := by simpa using short
          exact invariant.giveUp t node (stoppable_of_not_converged propagated (by simpa using goesOn))
        next =>
          split
          next => exact node
          next => exact invariant.tryValues below node

end Below

/-- Where no level is left something else may be done that keeps the property. -/
theorem exploreTo {limit : Nat → Search μ → Reply μ Outcome}
    (stays : ∀ depth s, P s → P (limit depth s).1) (levels depth : Nat) (h : P s) :
    P (s.exploreTo limit puzzle hook levels depth).1 := by
  induction levels generalizing s depth with
  | zero => exact stays depth s h
  | succ levels ih => exact invariant.visit (fun _ => ih (depth + 1)) h

theorem explore {levels : Nat} (depth : Nat) (enough : s.state.undetermined.length < levels) (h : P s) :
    P (s.explore puzzle hook levels depth).1 := by
  -- Levels running out is no reason to give up, but with enough of them it does not happen.
  rw [← exploreTo_eq (fun _ search => (search, .ok .unsolvable)) puzzle hook levels depth enough]
  exact invariant.exploreTo (fun _ _ h => h) levels depth h

end Invariant

theorem exploreTo_giveUp (levels depth : Nat) (s : Search μ) :
    s.exploreTo (fun _ => giveUp) puzzle hook levels depth = s.explore puzzle hook levels depth := by
  induction levels generalizing depth s with
  | zero => rfl
  | succ levels ih =>
    rw [exploreTo, explore_eq_visit, funext (ih (depth + 1))]

/-! ### Giving up -/

private theorem gaveUp_of_tryValues {attempt : Search μ → Reply μ Outcome} {values : List Nat}
    (h : s.tryValues hook attempt depth v values = (t, .ok .unsolved)) : t.gaveUp = true := by
  induction values generalizing s with
  | nil =>
    by_contra active
    rw [tryValues, Prod.mk.injEq] at h
    obtain ⟨rfl, unsolved⟩ := h
    simp [active] at unsolved
  | cons x rest ih =>
    rw [tryValues_cons] at h
    split at h
    next =>
      cases h
      rfl
    next =>
      split at h
      next => simp at h
      next => simp at h
      next => exact ih h

theorem gaveUp_of_explore {levels : Nat}
    (h : s.explore puzzle hook levels depth = (t, .ok .unsolved)) : t.gaveUp = true := by
  cases levels with
  | zero =>
    cases h
    rfl
  | succ levels =>
    rw [explore_succ] at h
    split at h
    next =>
      cases h
      rfl
    next =>
      split at h
      next => simp at h
      next node found converged _ =>
        unfold branch at h
        split at h
        next terminal =>
          cases h
          exact nomatch terminal
        next =>
          split at h
          next =>
            cases h
            rfl
          next =>
            split at h
            next => simp at h
            next => exact gaveUp_of_tryValues h

end PencilPuzzle.Search
