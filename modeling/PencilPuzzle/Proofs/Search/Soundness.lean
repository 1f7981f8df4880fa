import Mathlib.Data.Set.Defs
import PencilPuzzle.Proofs.Search.Steps

/-!
# Verdicts of a search

A puzzle is sound for a set of assignments when none of its rules and checks turns against a member
of the set, and a full state passes as a solution exactly when it spells out a member. A search over
a sound puzzle is then right whenever it has a verdict: what it calls solved is a solution taken
from the initial domains, and what it calls unsolvable or invalid has no solution there. The rules,
the checks, the hook and the settings are arbitrary, and so are the places where the search gives up:
a branch without a verdict is remembered, and from then on nothing is called unsolvable.
-/

namespace PencilPuzzle

open State

variable {μ : Type} {puzzle : Puzzle} {hook : Hook μ} {solutions : Set (Nat → Nat)} {s t : State}
  {a : Nat → Nat} {frame : Frame} {initial : Bool} {outcome : Outcome}

/-- The rules and checks do not turn against a solution that the state still admits, and a full
state is accepted exactly when it is one. -/
structure Puzzle.Sound (puzzle : Puzzle) (frame : Frame) (solutions : Set (Nat → Nat)) : Prop where
  spares : ∀ t : State, t.frame = frame → ∀ a ∈ solutions, t.Admits a →
    ∀ rule ∈ puzzle.rules, rule.Spares a t
  consistent : ∀ t : State, t.frame = frame → ∀ a ∈ solutions, t.Admits a →
    puzzle.isConsistent t ≠ .ok false
  solved : ∀ t : State, t.frame = frame → t.allDetermined = true → ∀ a, t.Admits a →
    ∀ verdict, puzzle.isSolved t = .ok verdict → (verdict = true ↔ a ∈ solutions)

/-! ### Full states -/

namespace State

/-- The values of the determined variables; the others are read as 0. -/
def assignment (state : State) (v : Nat) : Nat := (state.value? v).getD 0

theorem hasEmptyDomain_eq_false :
    s.hasEmptyDomain = false ↔ ∀ v < s.count, s.candidates v ≠ [] := by
  simp [hasEmptyDomain, domains_eq, Domain.isEmpty, candidates]

theorem allDetermined_iff :
    s.allDetermined = true ↔ ∀ v < s.count, s.isDetermined v = true := by
  simp [allDetermined, domains_eq, isDetermined]

theorem value?_eq_some {v x : Nat} : s.value? v = some x ↔ s.candidates v = [x] :=
  Domain.value?_eq_some

theorem isDetermined_iff_candidates {v : Nat} :
    s.isDetermined v = true ↔ s.candidates v = [s.assignment v] := by
  rw [isDetermined_iff, List.length_eq_one_iff]
  constructor
  · rintro ⟨x, alone⟩
    rw [assignment, value?_eq_some.mpr alone, Option.getD_some, alone]
  · intro alone
    exact ⟨_, alone⟩

theorem Admits.assignment (full : s.allDetermined = true) : s.Admits s.assignment := by
  intro v inside
  have alone := isDetermined_iff_candidates.mp (allDetermined_iff.mp full v inside)
  have listed : s.assignment v ∈ s.candidates v := alone ▸ List.mem_cons_self ..
  exact listed

theorem Admits.eq_assignment {v : Nat} (admits : s.Admits a) (inside : v < s.count)
    (settled : s.isDetermined v = true) : a v = s.assignment v := by
  have listed : a v ∈ s.candidates v := admits v inside
  rw [isDetermined_iff_candidates.mp settled] at listed
  exact List.mem_singleton.mp listed

theorem Admits.hasEmptyDomain (admits : s.Admits a) : s.hasEmptyDomain = false :=
  hasEmptyDomain_eq_false.mpr fun v inside => List.ne_nil_of_mem (admits v inside)

theorem Admits.of_narrowsTo (narrowed : s.NarrowsTo t) (admits : t.Admits a) : s.Admits a :=
  fun v inside => narrowed.subset (admits v (narrowed.count_eq ▸ inside))

theorem Admits.assign {v : Nat} {flag : Bool} (admits : s.Admits a)
    (h : s.assign v (a v) = .ok (t, flag)) : t.Admits a := by
  obtain ⟨w, x, var, value, _, narrowed⟩ := assign_eq_ok h
  have sameVar : w = v := (eq_of_checkVar var).symm
  have sameValue : x = a v := by have := (checkValue_eq_ok.mp value).1; omega
  subst sameVar sameValue
  cases flag with
  | false => exact (narrow_eq_false narrowed).1 ▸ admits
  | true =>
    intro u inside
    rw [mem_domain_narrow narrowed]
    refine ⟨admits u ((NarrowsTo.of_narrow narrowed).count_eq ▸ inside), ?_⟩
    rintro rfl
    exact decide_eq_true rfl

end State

/-! ### Classifying a state -/

namespace Puzzle

/-- All that classifying a state can say, and what it has seen then. -/
theorem classify_eq_ok (h : puzzle.classify initial s = .ok outcome) :
    outcome = .broken initial ∧
        (s.hasEmptyDomain = true ∨ puzzle.isConsistent s = .ok false ∨
          s.allDetermined = true ∧ puzzle.isSolved s = .ok false) ∨
      outcome = .unsolved ∧ s.hasEmptyDomain = false ∧ s.allDetermined = false ∨
      outcome = .solved ∧ s.allDetermined = true ∧ puzzle.isSolved s = .ok true := by
  unfold classify at h
  split at h
  next empty => exact .inl ⟨(Except.ok.inj h).symm, .inl empty⟩
  next notEmpty =>
    obtain ⟨consistent, checked, h⟩ := bind_eq_ok.mp h
    cases consistent with
    | false => exact .inl ⟨(Except.ok.inj h).symm, .inr (.inl checked)⟩
    | true =>
      cases full : s.allDetermined with
      | false =>
        rw [full] at h
        exact .inr (.inl ⟨(Except.ok.inj h).symm, Bool.eq_false_iff.mpr notEmpty, rfl⟩)
      | true =>
        rw [full] at h
        obtain ⟨solved, judged, h⟩ := bind_eq_ok.mp h
        cases solved with
        | false => exact .inl ⟨(Except.ok.inj h).symm, .inr (.inr ⟨rfl, judged⟩)⟩
        | true => exact .inr (.inr ⟨(Except.ok.inj h).symm, rfl, judged⟩)

/-- A state met during the search that is taken for an initial one: only what is broken is called
by another name. -/
theorem classify_initial (h : puzzle.classify false s = .ok outcome) :
    puzzle.classify true s = .ok (if outcome = .unsolvable then .invalid else outcome) := by
  unfold classify at h ⊢
  cases empty : s.hasEmptyDomain with
  | true =>
    rw [empty] at h
    cases h
    rfl
  | false =>
    rw [empty] at h
    obtain ⟨consistent, checked, h⟩ := bind_eq_ok.mp h
    rw [checked]
    cases consistent with
    | false =>
      cases h
      rfl
    | true =>
      cases full : s.allDetermined with
      | false =>
        rw [full] at h
        cases h
        rfl
      | true =>
        rw [full] at h
        obtain ⟨solved, judged, h⟩ := bind_eq_ok.mp h
        rw [judged]
        cases solved <;> cases h <;> rfl

private theorem classify_eq_solved (h : puzzle.classify initial s = .ok .solved) :
    s.allDetermined = true ∧ puzzle.isSolved s = .ok true := by
  obtain ⟨broken, _⟩ | ⟨openState, _⟩ | ⟨_, full⟩ := classify_eq_ok h
  · cases initial <;> simp [Outcome.broken] at broken
  · simp at openState
  · exact full

theorem classify_eq_unsolved (h : puzzle.classify initial s = .ok .unsolved) :
    s.hasEmptyDomain = false ∧ s.allDetermined = false := by
  obtain ⟨broken, _⟩ | ⟨_, open'⟩ | ⟨solved, _⟩ := classify_eq_ok h
  · cases initial <;> simp [Outcome.broken] at broken
  · exact open'
  · simp at solved

theorem Sound.classify (sound : puzzle.Sound s.frame solutions) (member : a ∈ solutions)
    (admits : s.Admits a) (h : puzzle.classify initial s = .ok outcome) :
    outcome = .solved ∨ outcome = .unsolved := by
  obtain ⟨_, empty | inconsistent | ⟨full, unsolved⟩⟩ | ⟨openState, _⟩ | ⟨solved, _⟩ :=
    classify_eq_ok h
  · rw [admits.hasEmptyDomain] at empty
    simp at empty
  · exact absurd inconsistent (sound.consistent s rfl a member admits)
  · have judged := sound.solved s rfl full a admits false unsolved
    exact absurd (judged.mpr member) Bool.false_ne_true
  · exact .inr openState
  · exact .inl solved

end Puzzle

/-! ### Searching -/

namespace Search

variable {s t : Search μ} {attempt : Search μ → Reply μ Outcome} {levels depth v : Nat}
  {values : List Nat}

/-- The search has not lost its solution: it found one or knows that it gave up. -/
def Keeps (reply : Search μ) (outcome : Outcome) : Prop :=
  outcome = .solved ∨ outcome = .unsolved ∧ reply.gaveUp = true

section Below

variable
  (keeps : ∀ s t : Search μ, ∀ outcome, s.state.frame = frame → s.state.GivensHold →
    s.state.Admits a → attempt s = (t, .ok outcome) → t.Keeps outcome)
include keeps

private theorem tryValue_keeps (shape : s.state.frame = frame) (givens : s.state.GivensHold)
    (admits : s.state.Admits a) (h : s.tryValue hook attempt depth v (a v) = (t, .ok outcome)) :
    t.Keeps outcome := by
  obtain ⟨state, flag, told, last, assigned, emitted, explored, ended⟩ := tryValue_eq_ok h
  have narrowed := NarrowsTo.of_assign assigned
  have toldState : told.state = state := by
    have same := state_emit .guess (depth + 1) (some ⟨v, a v⟩) hook (s.afterGuess state)
    rw [emitted] at same
    exact same
  have kept := keeps told last outcome (toldState ▸ narrowed.frame_eq.trans shape)
    (toldState ▸ narrowed.givensHold givens) (toldState ▸ admits.assign assigned) explored
  rcases ended with ⟨solved, _⟩ | ⟨unsolved, back⟩
  · exact .inl solved
  · have same := gaveUp_emit .backtrack depth (some ⟨v, a v⟩) hook (last.takeBack s.state.mark)
    rw [back] at same
    obtain solved | ⟨noVerdict, gaveUp⟩ := kept
    · exact absurd solved unsolved
    · exact .inr ⟨noVerdict, same.trans gaveUp⟩

/-- By the time the assigned value is behind, the puzzle is solved or a branch was given up. -/
theorem tryValues_keeps (below : ∀ s : Search μ, s.Leads (attempt s).1)
    (shape : s.state.frame = frame) (givens : s.state.GivensHold)
    (admits : s.state.Admits a) (ahead : s.gaveUp = true ∨ a v ∈ values)
    (h : s.tryValues hook attempt depth v values = (t, .ok outcome)) : t.Keeps outcome := by
  induction values generalizing s with
  | nil =>
    have gaveUp : s.gaveUp = true := by simpa using ahead
    rw [tryValues, gaveUp] at h
    cases h
    exact .inr ⟨rfl, gaveUp⟩
  | cons x rest ih =>
    rw [tryValues_cons] at h
    split at h
    · cases h
      exact .inr ⟨rfl, rfl⟩
    · split at h
      next => simp at h
      next =>
        cases h
        exact .inl rfl
      next tried found other attempted =>
        have same := state_tryValue below attempted other
        have leads := leads_tryValue below hook s depth v x
        rw [attempted] at leads
        refine ih (same ▸ shape) (same ▸ givens) (same ▸ admits) ?_ h
        rcases ahead with gaveUp | listed
        · exact .inl (leads.gaveUp gaveUp)
        · rcases List.mem_cons.mp listed with rfl | later
          · obtain solved | ⟨_, gaveUp⟩ := tryValue_keeps keeps shape givens admits attempted
            · exact absurd solved other
            · exact .inl gaveUp
          · exact .inr later

end Below

/-- Below a node that admits a solution, a search finds one or knows that it gave up. -/
theorem explore_keeps (sound : puzzle.Sound frame solutions) (member : a ∈ solutions)
    (shape : s.state.frame = frame) (givens : s.state.GivensHold) (admits : s.state.Admits a)
    (h : s.explore puzzle hook levels depth = (t, .ok outcome)) : t.Keeps outcome := by
  induction levels generalizing depth s t outcome with
  | zero =>
    cases h
    exact .inr ⟨rfl, rfl⟩
  | succ levels ih =>
    rw [explore_succ] at h
    split at h
    · cases h
      exact .inr ⟨rfl, rfl⟩
    split at h
    next => simp at h
    next node found converged propagated =>
      obtain ⟨reached, verdict⟩ := propagate_eq_ok propagated
      have narrowed := narrowsTo_runToFixpoint puzzle.rules s.solver.passLimit s.state
      obtain ⟨kept, fine⟩ := runToFixpoint_admits givens admits
        fun u path here => sound.spares u (path.frame_eq.trans shape) a member here
      rw [← reached] at narrowed kept verdict
      have nodeShape := narrowed.frame_eq.trans shape
      obtain ⟨cause, contradiction, _⟩ | ⟨summary, _, _, classified⟩ := verdict
      · exact absurd rfl (fine _ contradiction cause)
      unfold branch at h
      split at h
      next terminal =>
        cases h
        subst nodeShape
        obtain solved | unsolved := sound.classify member kept classified
        · exact .inl solved
        · simp [unsolved, Outcome.isTerminal] at terminal
      next =>
        split at h
        · cases h
          exact .inr ⟨rfl, rfl⟩
        split at h
        next => simp at h
        next v chosen =>
          have inside := (chooseVariable_eq_ok chosen).1
          exact tryValues_keeps
            (fun u w o shape' givens' admits' explored => ih shape' givens' admits' explored)
            (fun u => leads_explore puzzle hook (Nat.succ_ne_zero depth) levels u) nodeShape
            (narrowed.givensHold givens) kept (.inr (kept v inside)) h

private theorem tryValues_solved
    (solved : ∀ s t : Search μ, attempt s = (t, .ok .solved) → puzzle.classify false t.state = .ok .solved)
    (h : s.tryValues hook attempt depth v values = (t, .ok .solved)) :
    puzzle.classify false t.state = .ok .solved := by
  induction values generalizing s with
  | nil =>
    rw [tryValues] at h
    split at h <;> simp at h
  | cons x rest ih =>
    rw [tryValues_cons] at h
    split at h
    · simp [giveUp] at h
    · split at h
      next => simp at h
      next attempted =>
        cases h
        obtain ⟨_, _, told, last, _, _, explored, ⟨_, rfl⟩ | ⟨unsolved, _⟩⟩ :=
          tryValue_eq_ok attempted
        · exact solved told t explored
        · exact absurd rfl unsolved
      next => exact ih h

theorem explore_solved (h : s.explore puzzle hook levels depth = (t, .ok .solved)) :
    puzzle.classify false t.state = .ok .solved := by
  induction levels generalizing depth s t with
  | zero => simp [explore, giveUp] at h
  | succ levels ih =>
    rw [explore_succ] at h
    split at h
    · simp [giveUp] at h
    split at h
    next => simp at h
    next node found converged propagated =>
      obtain ⟨reached, verdict⟩ := propagate_eq_ok propagated
      unfold branch at h
      split at h
      next =>
        cases h
        obtain ⟨_, _, contradiction⟩ | ⟨_, _, _, classified⟩ := verdict
        · simp at contradiction
        · exact reached ▸ classified
      next =>
        split at h
        · simp [giveUp] at h
        split at h
        next => simp at h
        next => exact tryValues_solved (fun u w explored => ih explored) h

end Search

/-! ### Solving -/

namespace Solver

variable {memory : μ} {solver : Solver} {reply : Search.Reply μ Outcome}

@[simp] theorem result_finish : (finish reply).result = reply.2 := by
  obtain ⟨search, fault | outcome⟩ := reply
  · rfl
  · cases outcome <;> rfl

theorem state_finish_solved (h : reply.2 = .ok .solved) : (finish reply).state = reply.1.state := by
  obtain ⟨search, result⟩ := reply
  cases h
  rfl

theorem state_finish_of_ne (h : reply.2 ≠ .ok .solved) :
    (finish reply).state = reply.1.state.undo reply.1.root := by
  obtain ⟨search, fault | outcome⟩ := reply
  · rfl
  · cases outcome with
    | solved => exact absurd rfl h
    | unsolved | unsolvable | invalid => rfl

@[simp] theorem journal_finish : (finish reply).journal = reply.1.journal.reverse := by
  obtain ⟨search, fault | outcome⟩ := reply
  · rfl
  · cases outcome <;> rfl

@[simp] theorem guesses_finish : (finish reply).solver.guesses = reply.1.solver.guesses := by
  obtain ⟨search, fault | outcome⟩ := reply
  · rfl
  · cases outcome <;> rfl

theorem state_solve_of_error {fault : Fault} (failed : puzzle.classify true s = .error fault) :
    (solver.solve puzzle hook memory s).state = s := by
  simp [solve, failed]

theorem state_solve_of_terminal (classified : puzzle.classify true s = .ok outcome)
    (terminal : outcome.isTerminal = true) : (solver.solve puzzle hook memory s).state = s := by
  simp [solve, classified, terminal]

theorem solve_eq_finish (classified : puzzle.classify true s = .ok .unsolved) :
    solver.solve puzzle hook memory s =
      finish ((start { solver with cancelled := false } memory s).explore puzzle hook
        (Search.enoughLevels s) 0) := by
  simp [solve, classified, Outcome.isTerminal]

/-- The verdicts of a call: either the initial state was classified as it stands, or the search has
come to them. -/
theorem solve_eq_ok (h : (solver.solve puzzle hook memory s).result = .ok outcome) :
    (outcome ≠ .unsolved ∧ puzzle.classify true s = .ok outcome ∧
        (solver.solve puzzle hook memory s).state = s) ∨
      puzzle.classify true s = .ok .unsolved ∧
        ∃ t, (start { solver with cancelled := false } memory s).explore puzzle hook
          (Search.enoughLevels s) 0 = (t, .ok outcome) ∧
        solver.solve puzzle hook memory s = finish (t, .ok outcome) := by
  unfold solve at h ⊢
  dsimp only at h ⊢
  split at h
  next => simp at h
  next found classified =>
    split at h
    next terminal =>
      cases h
      refine .inl ⟨?_, classified, ?_⟩
      · rintro rfl
        simp [Outcome.isTerminal] at terminal
      · rw [if_pos terminal]
    next openState =>
      have unsolved : found = .unsolved := by cases found <;> simp_all [Outcome.isTerminal]
      rw [result_finish] at h
      refine .inr ⟨unsolved ▸ classified, _, Prod.ext rfl h, ?_⟩
      rw [if_neg openState]
      exact congrArg finish (Prod.ext rfl h)

private theorem solve_solved (h : (solver.solve puzzle hook memory s).result = .ok .solved) :
    s.NarrowsTo (solver.solve puzzle hook memory s).state ∧
      (solver.solve puzzle hook memory s).state.allDetermined = true ∧
      puzzle.isSolved (solver.solve puzzle hook memory s).state = .ok true := by
  obtain ⟨_, classified, same⟩ | ⟨_, t, explored, ended⟩ := solve_eq_ok h
  · rw [same]
    exact ⟨NarrowsTo.refl, Puzzle.classify_eq_solved classified⟩
  · have leads := Search.leads_explore_root puzzle hook (Search.enoughLevels s) 0
      (start { solver with cancelled := false } memory s)
    rw [explored] at leads
    rw [ended, state_finish_solved rfl]
    exact ⟨leads.state, Puzzle.classify_eq_solved (Search.explore_solved explored)⟩

theorem solve_solution (sound : puzzle.Sound s.frame solutions)
    (h : (solver.solve puzzle hook memory s).result = .ok .solved) :
    (solver.solve puzzle hook memory s).state.allDetermined = true ∧
      (solver.solve puzzle hook memory s).state.assignment ∈ solutions ∧
      s.Admits (solver.solve puzzle hook memory s).state.assignment := by
  obtain ⟨narrowed, full, accepted⟩ := solve_solved h
  have admits := Admits.assignment full
  have judged := sound.solved _ narrowed.frame_eq full _ admits true accepted
  exact ⟨full, judged.mp rfl, admits.of_narrowsTo narrowed⟩

theorem solve_keeps (givens : s.GivensHold) (sound : puzzle.Sound s.frame solutions)
    (member : a ∈ solutions) (admits : s.Admits a)
    (h : (solver.solve puzzle hook memory s).result = .ok outcome) :
    outcome = .solved ∨ outcome = .unsolved := by
  obtain ⟨_, classified, _⟩ | ⟨_, t, explored, _⟩ := solve_eq_ok h
  · exact sound.classify member admits classified
  · obtain solved | ⟨unsolved, _⟩ := Search.explore_keeps sound member rfl givens admits explored
    · exact .inl solved
    · exact .inr unsolved

theorem solve_refutes (givens : s.GivensHold) (sound : puzzle.Sound s.frame solutions)
    (h : (solver.solve puzzle hook memory s).result = .ok .unsolvable ∨
      (solver.solve puzzle hook memory s).result = .ok .invalid) :
    ∀ a ∈ solutions, ¬ s.Admits a := by
  intro a member admits
  obtain unsolvable | invalid := h
  · obtain h | h := solve_keeps givens sound member admits unsolvable <;> simp at h
  · obtain h | h := solve_keeps givens sound member admits invalid <;> simp at h

end Solver

/-- A verdict is right, whatever the hook asks for and wherever the search gives up: a solved puzzle
shows a solution from the initial domains, and where there is none to be found there is none. -/
theorem solve_sound {initial : State} (reachable : initial.Reachable)
    (sound : puzzle.Sound initial.frame solutions) (hook : Hook μ) (memory : μ) (solver : Solver) :
    let report := solver.solve puzzle hook memory initial
    (report.result = .ok .solved →
        report.state.allDetermined = true ∧ report.state.assignment ∈ solutions ∧
          initial.Admits report.state.assignment) ∧
      (report.result = .ok .unsolvable ∨ report.result = .ok .invalid →
        ∀ a ∈ solutions, ¬ initial.Admits a) := by
  exact ⟨Solver.solve_solution sound, Solver.solve_refutes reachable.settled.givens sound⟩

/-- Two variables that must differ; once the first is settled, the second loses its value. -/
def unlikePair : Puzzle where
  rules := [⟨"unlike", fun t => .ok (if t.isDetermined 0 then [⟨1, [t.assignment 0]⟩] else [])⟩]
  isConsistent _ := .ok true
  isSolved t := .ok (t.assignment 0 ≠ t.assignment 1)
  guessOrder := none

private theorem sound_unlikePair (size : Nat) :
    unlikePair.Sound (State.blank 2 size).frame {a | a 0 ≠ a 1} where
  spares t shape a unlike admits rule listed := by
    have two : t.count = 2 := congrArg Frame.count shape
    cases List.mem_singleton.mp listed
    apply Rule.spares_of_ok rfl
    intro update proposed v var
    by_cases settled : t.isDetermined 0
    · have first := admits.eq_assignment (by omega) settled
      rw [if_pos settled, List.mem_singleton] at proposed
      subst proposed
      have second : v = 1 := (Int.ofNat.inj var).symm
      rw [second, List.mem_singleton, ← first]
      exact fun same => unlike (Int.ofNat.inj same).symm
    · rw [if_neg settled] at proposed
      exact absurd proposed List.not_mem_nil
  consistent _ _ _ _ _ := by simp [unlikePair]
  solved t shape full a admits verdict judged := by
    have two : t.count = 2 := congrArg Frame.count shape
    have settled := allDetermined_iff.mp full
    cases judged
    have first := admits.eq_assignment (by omega) (settled 0 (by omega))
    have second := admits.eq_assignment (by omega) (settled 1 (by omega))
    simp [← first, ← second]

/-- With two values the pair is solved, with one it is not. -/
theorem solve_sound_unlikePair :
    let solver : Solver := ⟨.first, none, 0, 1, .unsolved, false, {}⟩
    let solved := solver.solve unlikePair Hook.silent () (State.blank 2 2)
    let failed := solver.solve unlikePair Hook.silent () (State.blank 2 1)
    solved.result = .ok .solved ∧ solved.state.assignment 0 ≠ solved.state.assignment 1 ∧
      failed.result = .ok .invalid ∧ ∀ a : Nat → Nat, a 0 ≠ a 1 → ¬ (State.blank 2 1).Admits a := by
  intro solver solved failed
  have some' : solved.result = .ok .solved := by decide
  have none' : failed.result = .ok .invalid := by decide
  have right := solve_sound ⟨2, 2, _, rfl, .refl⟩ (sound_unlikePair 2)
    Hook.silent () solver
  have wrong := solve_sound ⟨2, 1, _, rfl, .refl⟩ (sound_unlikePair 1)
    Hook.silent () solver
  exact ⟨some', (right.1 some').2.1, none', wrong.2 (.inr none')⟩

end PencilPuzzle
