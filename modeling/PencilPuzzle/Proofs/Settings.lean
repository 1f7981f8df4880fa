import PencilPuzzle.Proofs.Search.Solver
import PencilPuzzle.Settings.Reading

/-!
# What becomes of settings

Nothing here depends on the library that finds and understands the values. Settings that are accepted
are within their bounds, which are just those a solver insists on, so a solver can always be made of
them. Settings that are refused come with a list that misses nothing and is in order: each problem is
that of a setting for which a value was given, or an unknown name.
-/

namespace PencilPuzzle.Settings

variable {Value : Type} {readers : Readers Value} {found : Findings Value} {settings : Settings}

structure Legal (settings : Settings) : Prop where
  maxGuesses : 0 ≤ settings.maxGuesses
  guessPolicy : settings.guessPolicy ∈ policies
  maxFixpointPasses : ∀ limit, settings.maxFixpointPasses = some limit → 1 ≤ limit

private theorem legal_default : Legal {} where
  maxGuesses := by decide
  guessPolicy := by decide
  maxFixpointPasses := nofun

/-! ### One setting -/

section Field

variable {α : Type} {name : String} {read : Value → Except Problem α} {value : Value} {least n : Int}

private theorem Readers.le_of_atLeast (accepted : readers.atLeast least value = .ok n) : least ≤ n := by
  cases number : readers.integer value with
  | error problem => simp [atLeast, number, bind, Except.bind] at accepted
  | ok m =>
    by_cases small : m < least
    · simp [atLeast, number, small, bind, Except.bind] at accepted
    · simp only [atLeast, number, small, bind, Except.bind, if_false, Except.ok.injEq] at accepted
      omega

private theorem Readers.le_of_limit (accepted : readers.limit least value = .ok (some n)) : least ≤ n := by
  cases isNull : readers.isNull value with
  | true => simp [limit, isNull, pure, Except.pure] at accepted
  | false =>
    cases number : readers.atLeast least value with
    | error problem => simp [limit, isNull, number, bind, Except.bind] at accepted
    | ok m =>
      simp only [limit, isNull, number, bind, Except.bind, pure, Except.pure, Bool.false_eq_true,
        if_false, Except.ok.injEq, Option.some.injEq] at accepted
      exact accepted ▸ le_of_atLeast number

theorem Readers.mem_of_choice {choices : List String}
    (accepted : readers.choice choices value = .ok name) : name ∈ choices := by
  unfold choice at accepted
  split at accepted
  · split at accepted
    · cases accepted
      assumption
    · exact nomatch accepted
  · exact nomatch accepted

/-- What is true of a default and of all values that are taken is true of a setting. -/
theorem Findings.field_induction {P : α → Prop} {default a : α} (atDefault : P default)
    (taken : ∀ value a, read value = .ok a → P a) (accepted : found.field name read default = .ok a) :
    P a := by
  unfold field at accepted
  split at accepted
  · cases accepted
    exact atDefault
  · exact taken _ a accepted

private theorem Findings.field_of_absent {default : α} (absent : found.value? name = none) :
    found.field name read default = .ok default := by
  rw [field, absent]

theorem Findings.mem_problem? {result : Except Problem α} {entry : String × Problem} :
    entry ∈ (problem? name result).toList ↔ entry.1 = name ∧ result = .error entry.2 := by
  cases result with
  | ok a => simp [problem?]
  | error problem => simp [problem?, Prod.ext_iff, eq_comm]

theorem Findings.problem?_eq_nil {result : Except Problem α} :
    (problem? name result).toList = [] ↔ ∃ a, result = .ok a := by
  cases result <;> simp [problem?]

private theorem Findings.sublist_problem? (name : String) (result : Except Problem α) :
    ((problem? name result).toList.map Prod.fst).Sublist [name] := by
  cases result with
  | ok a => exact List.nil_sublist _
  | error problem => exact List.Sublist.refl _

private theorem Findings.exists_of_field {default : α} {problem : Problem}
    (refused : found.field name read default = .error problem) :
    ∃ value, found.value? name = some value ∧ read value = .error problem := by
  unfold field at refused
  split at refused
  · exact nomatch refused
  · exact ⟨_, ‹_›, refused⟩

end Field

/-! ### All settings -/

namespace Findings

theorem problems_eq_nil : found.problems readers = [] ↔
    (∃ a, found.maxGuesses readers = .ok a) ∧ (∃ a, found.guessPolicy readers = .ok a) ∧
      (∃ a, found.maxFixpointPasses readers = .ok a) ∧ (∃ a, found.reportInterval readers = .ok a) ∧
      (∃ a, found.verbose readers = .ok a) ∧ found.unknown = [] := by
  simp only [problems, List.append_eq_nil_iff, problem?_eq_nil, List.map_eq_nil_iff, and_assoc]

private theorem settings_eq_ok : found.settings readers = .ok settings ↔
    found.maxGuesses readers = .ok settings.maxGuesses ∧
      found.guessPolicy readers = .ok settings.guessPolicy ∧
      found.maxFixpointPasses readers = .ok settings.maxFixpointPasses ∧
      found.reportInterval readers = .ok settings.reportInterval ∧
      found.verbose readers = .ok settings.verbose ∧ found.unknown = [] := by
  constructor
  · intro accepted
    unfold Findings.settings at accepted
    split at accepted
    next guesses policy passes interval verbose unknown =>
      cases accepted
      exact ⟨guesses, policy, passes, interval, verbose, unknown⟩
    next => exact nomatch accepted
  · rintro ⟨guesses, policy, passes, interval, verbose, unknown⟩
    rw [Findings.settings, guesses, policy, passes, interval, verbose, unknown]

/-- Settings are refused when there is something wrong with them, and all of it is reported. -/
theorem settings_eq_error {problems : List (String × Problem)} :
    found.settings readers = .error problems ↔
      problems = found.problems readers ∧ problems ≠ [] := by
  cases result : found.settings readers with
  | ok settings =>
    obtain ⟨guesses, policy, passes, interval, verbose, unknown⟩ := settings_eq_ok.mp result
    have none : found.problems readers = [] := problems_eq_nil.mpr
      ⟨⟨_, guesses⟩, ⟨_, policy⟩, ⟨_, passes⟩, ⟨_, interval⟩, ⟨_, verbose⟩, unknown⟩
    exact iff_of_false nofun fun listed => listed.2 (listed.1.trans none)
  | error listed =>
    have all : listed = found.problems readers := by
      unfold Findings.settings at result
      split at result
      · exact nomatch result
      · exact (Except.error.inj result).symm
    have some : listed ≠ [] := by
      intro none
      obtain ⟨⟨a, guesses⟩, ⟨b, policy⟩, ⟨c, passes⟩, ⟨d, interval⟩, ⟨e, verbose⟩, unknown⟩ :=
        problems_eq_nil.mp (all.symm.trans none)
      have accepted : found.settings readers = .ok ⟨a, b, c, d, e⟩ :=
        settings_eq_ok.mpr ⟨guesses, policy, passes, interval, verbose, unknown⟩
      exact nomatch result.symm.trans accepted
    rw [Except.error.injEq]
    exact ⟨fun same => same ▸ ⟨all, some⟩, fun ⟨same, _⟩ => all.trans same.symm⟩

theorem problems_inOrder (found : Findings Value) (readers : Readers Value) :
    ∃ known, known.Sublist names ∧
      (found.problems readers).map Prod.fst = known ++ found.unknown := by
  refine ⟨_, ?_, by rw [problems, List.map_append, List.map_map]; exact congrArg _ (List.map_id _)⟩
  simp only [List.map_append]
  exact ((((sublist_problem? _ _).append (sublist_problem? _ _)).append (sublist_problem? _ _)).append
    (sublist_problem? _ _)).append (sublist_problem? _ _)

theorem given_of_mem_problems {entry : String × Problem} (member : entry ∈ found.problems readers) :
    (∃ value, found.value? entry.1 = some value) ∨
      entry.1 ∈ found.unknown ∧ entry.2 = .unknownSetting := by
  simp only [problems, List.mem_append, mem_problem?, List.mem_map] at member
  obtain ((((known | known) | known) | known) | known) | ⟨name, unknown, rfl⟩ := member
  case inr => exact .inr ⟨unknown, rfl⟩
  all_goals
    obtain ⟨value, given, _⟩ := exists_of_field known.2
    exact .inl ⟨value, known.1 ▸ given⟩

private theorem legal_of_settings (accepted : found.settings readers = .ok settings) : settings.Legal := by
  obtain ⟨guesses, policy, passes, _⟩ := settings_eq_ok.mp accepted
  have limited (value : Value) (passes : Option Int) (read : readers.limit 1 value = .ok passes)
      (limit : Int) (same : passes = some limit) : 1 ≤ limit :=
    Readers.le_of_limit (same ▸ read)
  exact {
    maxGuesses := field_induction legal_default.maxGuesses (fun _ _ => Readers.le_of_atLeast) guesses
    guessPolicy := field_induction legal_default.guessPolicy (fun _ _ => Readers.mem_of_choice) policy
    maxFixpointPasses := field_induction legal_default.maxFixpointPasses limited passes }

theorem settings_of_nothing (nothing : ∀ name ∈ names, found.value? name = none)
    (unknown : found.unknown = []) : found.settings readers = .ok {} := by
  refine settings_eq_ok.mpr ⟨?_, ?_, ?_, ?_, ?_, unknown⟩ <;>
    exact field_of_absent (nothing _ (by decide))

end Findings

/-! ### The bounds are those of a solver -/

theorem exists_policy_iff {name : String} :
    (∃ policy, Policy.ofName? name = some policy) ↔ name ∈ policies := by
  unfold Policy.ofName?
  by_cases first : name = "first"
  · simp [first, policies]
  · by_cases fewest : name = "fewest" <;> simp [first, fewest, policies]

/-- Of legal settings a solver is made, and it keeps to them. -/
theorem solver_of_legal (legal : settings.Legal) :
    ∃ policy, Policy.ofName? settings.guessPolicy = some policy ∧
      Solver.new settings {} = .ok ⟨policy, settings.maxFixpointPasses, 0, settings.maxGuesses.toNat,
        .unsolved, false, {}⟩ := by
  obtain ⟨policy, named⟩ := exists_policy_iff.mpr legal.guessPolicy
  exact ⟨policy, named,
    Solver.new_eq_ok.mpr ⟨legal.maxFixpointPasses, legal.maxGuesses, policy, named, rfl⟩⟩

/-- The bounds on settings are those a solver insists on, no more and no less. -/
theorem exists_solver_iff_legal :
    (∃ solver, Solver.new settings {} = .ok solver) ↔ settings.Legal := by
  constructor
  · rintro ⟨solver, made⟩
    obtain ⟨allowed, room, policy, named, _⟩ := Solver.new_eq_ok.mp made
    exact ⟨room, exists_policy_iff.mp ⟨policy, named⟩, allowed⟩
  · intro legal
    obtain ⟨_, _, made⟩ := solver_of_legal legal
    exact ⟨_, made⟩

theorem exists_solver_of_settings (accepted : found.settings readers = .ok settings) :
    ∃ solver, Solver.new settings {} = .ok solver :=
  exists_solver_iff_legal.mpr (Findings.legal_of_settings accepted)

end PencilPuzzle.Settings
