import PencilPuzzle.Proofs.State.Operation
import PencilPuzzle.Search.Solver

/-!
# How solvers are made

When a solver can be made and when its budget can be set, and what comes of it. Other proofs know of
the checks on policy, pass limit and budget only what is said here.
-/

namespace PencilPuzzle.Solver

variable {settings : Settings} {options : SolverOptions} {solver next : Solver}

theorem setBudget_eq_ok {budget : Int} : solver.setBudget budget = .ok next ↔
    (solver.guesses : Int) ≤ budget ∧ { solver with budget := budget.toNat } = next := by
  unfold setBudget
  by_cases negative : budget < 0
  · rw [if_pos negative]
    exact iff_of_false nofun fun room => by omega
  · rw [if_neg negative]
    by_cases spent : budget < solver.guesses
    · rw [if_pos spent]
      exact iff_of_false nofun fun room => by omega
    · rw [if_neg spent, Except.ok.injEq, and_iff_right (Int.not_lt.mp spent)]

theorem checkPassLimit_eq_ok {limit checked : Option Int} : checkPassLimit limit = .ok checked ↔
    (∀ passes, limit = some passes → 1 ≤ passes) ∧ limit = checked := by
  cases limit with
  | none => simp [checkPassLimit]
  | some passes =>
    by_cases small : passes < 1
    · simp [checkPassLimit, small]
    · simp [checkPassLimit, small, Int.not_lt.mp small]

theorem new_eq_ok : Solver.new settings options = .ok solver ↔
    (∀ passes, (options.maxFixpointPasses <|> settings.maxFixpointPasses) = some passes → 1 ≤ passes) ∧
      0 ≤ options.maxGuesses.getD settings.maxGuesses ∧
      ∃ policy, Policy.ofName? (options.guessPolicy.getD settings.guessPolicy) = some policy ∧
        ⟨policy, options.maxFixpointPasses <|> settings.maxFixpointPasses, 0,
          (options.maxGuesses.getD settings.maxGuesses).toNat, .unsolved, false, {}⟩ = solver := by
  unfold Solver.new
  dsimp only
  cases Policy.ofName? (options.guessPolicy.getD settings.guessPolicy) with
  | none => simp
  | some policy =>
    simp only [bind_eq_ok, checkPassLimit_eq_ok, setBudget_eq_ok]
    constructor
    · rintro ⟨_, ⟨allowed, rfl⟩, room, rfl⟩
      exact ⟨allowed, room, policy, rfl, rfl⟩
    · rintro ⟨allowed, room, _, named, rfl⟩
      cases named
      exact ⟨_, ⟨allowed, rfl⟩, room, rfl⟩

end PencilPuzzle.Solver
