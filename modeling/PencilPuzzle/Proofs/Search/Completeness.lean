import Mathlib.Algebra.BigOperators.Intervals
import Mathlib.Algebra.Order.BigOperators.Group.Finset
import Mathlib.Tactic.Ring
import PencilPuzzle.Proofs.Search.Soundness

/-!
# Searches that come to an end with a verdict

On a puzzle whose rules and checks never fail on their own account, a search without a pass limit
and under a hook that asks for nothing always ends with an outcome. Each guess settles a variable
that was open, so the tree below a node with `m` open variables holds at most `d + … + d ^ m`
guesses, where `d` is the number of values; a budget with room for that many is never exhausted, and
then there is nothing left that could stop the search short of a verdict.
-/

namespace PencilPuzzle

open State

variable {μ : Type} {puzzle : Puzzle} {hook : Hook μ} {frame : Frame} {s : State} {rules : List Rule}

/-! ### Rules that do not fail -/

def Update.InRange (frame : Frame) (update : Update) : Prop :=
  (∃ v < frame.count, update.var = (v : Int)) ∧
    ∀ reference ∈ update.removed, ∃ x < frame.size, reference = (x : Int)

/-- On states of this shape the rule proposes updates in range or finds a contradiction. -/
def Rule.WellBehaved (frame : Frame) (rule : Rule) : Prop :=
  ∀ t : State, t.frame = frame → OnlyContradicts (rule.deduce t) ∧
    ∀ updates, rule.deduce t = .ok updates → ∀ update ∈ updates, update.InRange frame

theorem inRange_removals {refused : Nat → List Nat} :
    ∀ update ∈ s.removals refused, update.InRange s.frame := by
  intro update proposed
  obtain ⟨v, inside, var, struck, removed, out⟩ := mem_removals proposed
  refine ⟨⟨v, inside, var⟩, fun reference member => ?_⟩
  rw [removed] at member
  obtain ⟨x, listed, rfl⟩ := List.mem_map.mp member
  exact ⟨x, Domain.lt_size (out x listed).1, rfl⟩

private theorem State.checkValues_of_inRange {references : List Int}
    (inRange : ∀ reference ∈ references, ∃ x < s.size, reference = (x : Int)) :
    ∃ values, s.checkValues references = .ok values := by
  induction references with
  | nil => exact ⟨[], rfl⟩
  | cons reference rest ih =>
    obtain ⟨x, bound, eq⟩ := inRange reference (List.mem_cons_self ..)
    obtain ⟨values, checked⟩ := ih fun other member => inRange other (List.mem_cons_of_mem _ member)
    refine ⟨x :: values, ?_⟩
    rw [checkValues, checkValue_eq_ok.mpr ⟨eq, bound⟩, checked]
    rfl

theorem State.checkVars_of_inRange {references : List Int}
    (inRange : ∀ reference ∈ references, ∃ v < s.count, reference = (v : Int)) :
    ∃ vars, s.checkVars references = .ok vars := by
  induction references with
  | nil => exact ⟨[], rfl⟩
  | cons reference rest ih =>
    obtain ⟨v, inside, eq⟩ := inRange reference (List.mem_cons_self ..)
    obtain ⟨vars, checked⟩ := ih fun other member => inRange other (List.mem_cons_of_mem _ member)
    refine ⟨v :: vars, ?_⟩
    rw [checkVars, checkVar_eq_ok.mpr ⟨eq, inside⟩, checked]
    rfl

private theorem onlyContradicts_narrow (s : State) (v : Nat) (test : Nat → Bool) :
    OnlyContradicts (s.narrow v test) := by
  unfold narrow
  dsimp only
  split
  · exact FailsOnly.ok
  · split
    · exact FailsOnly.error ⟨_, rfl⟩
    · exact FailsOnly.ok

theorem State.remove_of_inRange {update : Update} (inRange : update.InRange s.frame) :
    ∃ v < s.count, update.var = (v : Int) ∧
      s.remove update.var update.removed = s.narrow v fun x => (x : Int) ∉ update.removed := by
  obtain ⟨⟨v, inside, var⟩, values⟩ := inRange
  obtain ⟨struck, checked⟩ := checkValues_of_inRange values
  refine ⟨v, inside, var, ?_⟩
  rw [State.remove, checkVar_eq_ok.mpr ⟨var, inside⟩, checked]
  simp only [mem_of_checkValues checked]
  rfl

private theorem onlyContradicts_remove {update : Update} (inRange : update.InRange s.frame) :
    OnlyContradicts (s.remove update.var update.removed) := by
  obtain ⟨v, _, _, opened⟩ := remove_of_inRange inRange
  rw [opened]
  exact onlyContradicts_narrow s v _

theorem onlyContradicts_applyUpdates {updates : List Update} (shape : s.frame = frame)
    (inRange : ∀ update ∈ updates, update.InRange frame) :
    OnlyContradicts (s.applyUpdates updates).2 := by
  induction updates generalizing s with
  | nil => exact FailsOnly.ok
  | cons update rest ih =>
    have here := onlyContradicts_remove (shape ▸ inRange update (List.mem_cons_self ..))
    have later {t : State} {flag : Bool}
        (removed : s.remove update.var update.removed = .ok (t, flag)) :
        OnlyContradicts (t.applyUpdates rest).2 :=
      ih ((NarrowsTo.of_remove removed).frame_eq.trans shape)
        fun other member => inRange other (List.mem_cons_of_mem update member)
    obtain ⟨_, failed, applied⟩ | ⟨_, _, _, _, _, applied⟩ | ⟨t, flag, removed, _, applied⟩ :=
      applyUpdates_cons s update rest
    · rw [applied]
      exact here.pass failed
    · rw [applied]
      exact FailsOnly.error ⟨_, rfl⟩
    · rw [applied]
      exact (later removed).map

theorem runToFixpoint_wellBehaved (shape : s.frame = frame)
    (wellBehaved : ∀ rule ∈ rules, rule.WellBehaved frame) :
    (∃ cause, (runToFixpoint rules none s).result = .error (.contradiction cause)) ∨
      ∃ summary, (runToFixpoint rules none s).result = .ok summary ∧ summary.converged = true := by
  have step (t : State) (same : t.frame = frame) (rule : Rule) (member : rule ∈ rules) :
      OnlyContradicts (rule.deduce t) ∧ ∀ updates, rule.deduce t = .ok updates →
        (t.applyUpdates updates).1.frame = frame ∧ OnlyContradicts (t.applyUpdates updates).2 := by
    obtain ⟨only, inRange⟩ := wellBehaved rule member t same
    exact ⟨only, fun updates deduced => ⟨(narrowsTo_applyUpdates t updates).frame_eq.trans same,
      onlyContradicts_applyUpdates same (inRange updates deduced)⟩⟩
  cases ended : (runToFixpoint rules none s).result with
  | error fault =>
    obtain ⟨_, fair⟩ := passes_keeps _ step (Fixpoint.enoughPasses s) shape
    obtain ⟨cause, rfl⟩ := fair fault ended
    exact .inl ⟨cause, rfl⟩
  | ok summary => exact .inr ⟨summary, rfl, runToFixpoint_converged ended⟩

/-! ### Puzzles that do not fail -/

/-- On states of this shape the rules, the checks and the guess order serve the search: nothing but
a contradiction fails, and a variable that is open can be found in the order. -/
structure Puzzle.WellBehaved (puzzle : Puzzle) (frame : Frame) : Prop where
  rules : ∀ rule ∈ puzzle.rules, rule.WellBehaved frame
  consistent : ∀ t : State, t.frame = frame → ∃ verdict, puzzle.isConsistent t = .ok verdict
  solved : ∀ t : State, t.frame = frame → t.allDetermined = true →
    ∃ verdict, puzzle.isSolved t = .ok verdict
  inRange : ∀ t : State, t.frame = frame → ∀ reference ∈ puzzle.order t,
    ∃ v < frame.count, reference = (v : Int)
  covers : ∀ t : State, t.frame = frame → ∀ v ∈ t.undetermined, (v : Int) ∈ puzzle.order t

theorem Puzzle.order_none (none : puzzle.guessOrder = none) (t : State) :
    (∀ reference ∈ puzzle.order t, ∃ v < t.count, reference = (v : Int)) ∧
      ∀ v ∈ t.undetermined, (v : Int) ∈ puzzle.order t := by
  rw [order, none]
  refine ⟨fun reference member => ?_, fun v member => List.mem_map_of_mem member⟩
  obtain ⟨v, isOpen, rfl⟩ := List.mem_map.mp member
  exact ⟨v, List.mem_range.mp (List.mem_filter.mp isOpen).1, rfl⟩

private theorem State.openAmong_of_inRange {references : List Int}
    (inRange : ∀ reference ∈ references, ∃ v < s.count, reference = (v : Int)) :
    ∃ among, s.openAmong references = .ok among ∧
      ∀ v : Nat, (v : Int) ∈ references → s.isDetermined v = false → v ∈ among := by
  induction references with
  | nil => exact ⟨[], rfl, by simp⟩
  | cons reference rest ih =>
    obtain ⟨w, inside, rfl⟩ := inRange reference (List.mem_cons_self ..)
    obtain ⟨among, listed, covers⟩ := ih fun other member => inRange other (List.mem_cons_of_mem _ member)
    refine ⟨if s.isDetermined w then among else w :: among, ?_, fun v member isOpen => ?_⟩
    · rw [openAmong, checkVar_eq_ok.mpr ⟨rfl, inside⟩, listed]
      rfl
    · rcases List.mem_cons.mp member with same | later
      · cases Int.ofNat.inj same
        simp [isOpen]
      · have found := covers v later isOpen
        split
        · exact found
        · exact List.mem_cons_of_mem w found

theorem State.mem_undetermined_of_not {v : Nat} (notEmpty : s.hasEmptyDomain = false)
    (inside : v < s.count) (isOpen : s.isDetermined v = false) : v ∈ s.undetermined := by
  have some := List.length_pos_iff.mpr (hasEmptyDomain_eq_false.mp notEmpty v inside)
  have several : (s.candidates v).length ≠ 1 := by
    intro one
    rw [isDetermined_iff.mpr one] at isOpen
    exact Bool.noConfusion isOpen
  rw [mem_undetermined]
  omega

theorem State.length_undetermined_assign {t : State} {v x : Nat} {flag : Bool}
    (h : s.assign v x = .ok (t, flag)) (isOpen : v ∈ s.undetermined) :
    t.undetermined.length < s.undetermined.length := by
  obtain ⟨w, y, var, _, _, narrowed⟩ := assign_eq_ok h
  have same : w = v := (eq_of_checkVar var).symm
  subst same
  have only : ∀ z ∈ t.candidates w, z = y := by
    intro z member
    cases flag with
    | false =>
      obtain ⟨rfl, passes⟩ := narrow_eq_false narrowed
      exact of_decide_eq_true (passes z member)
    | true => exact of_decide_eq_true (((mem_domain_narrow narrowed).mp member).2 rfl)
  refine (NarrowsTo.of_narrow narrowed).length_undetermined_lt isOpen fun still => ?_
  have subset : t.candidates w ⊆ [y] := fun z member => List.mem_singleton.mpr (only z member)
  have single : (t.candidates w).length ≤ 1 :=
    (List.subperm_of_subset (t.domain w).nodup subset).length_le
  exact absurd (mem_undetermined.mp still) (Nat.not_lt.mpr single)

theorem State.assign_undetermined {v x : Nat} (givens : s.GivensHold) (isOpen : v ∈ s.undetermined)
    (candidate : x ∈ s.domain v) : ∃ t flag, s.assign v x = .ok (t, flag) := by
  have several := mem_undetermined.mp isOpen
  have inside := lt_count_of_mem_domain candidate
  have unlocked : s.isLocked v = false := by
    by_contra locked
    have := isDetermined_iff.mp (givens v (by simpa using locked))
    omega
  have opened : s.assign v x = s.narrow v (· = x) := by
    rw [assign, checkVar_eq_ok.mpr ⟨rfl, inside⟩,
      checkValue_eq_ok.mpr ⟨rfl, Domain.lt_size candidate⟩]
    change (if s.hasCandidate v x then _ else _) = _
    exact if_pos (decide_eq_true candidate)
  rw [opened]
  unfold State.narrow
  dsimp only
  rw [if_neg (by simp [unlocked] : ¬ s.isLocked v = true)]
  split <;> exact ⟨_, _, rfl⟩

theorem Puzzle.exists_chosen (policy : Policy)
    (inRange : ∀ reference ∈ puzzle.order s, ∃ v < s.count, reference = (v : Int))
    (covers : ∀ v ∈ s.undetermined, (v : Int) ∈ puzzle.order s)
    (isOpen : puzzle.classify false s = .ok .unsolved) :
    ∃ v ∈ s.undetermined, puzzle.chooseVariable policy s = .ok v := by
  obtain ⟨broken, _⟩ | ⟨_, notEmpty, notFull⟩ | ⟨solved, _⟩ := classify_eq_ok isOpen
  · simp [Outcome.broken] at broken
  · obtain ⟨among, listed, lists⟩ := openAmong_of_inRange inRange
    obtain ⟨w, inside, undecided⟩ : ∃ w < s.count, s.isDetermined w = false := by
      by_contra none
      simp only [not_exists, not_and, Bool.not_eq_false] at none
      rw [allDetermined_iff.mpr none] at notFull
      exact Bool.noConfusion notFull
    have candidate := lists w
      (covers w (mem_undetermined_of_not notEmpty inside undecided)) undecided
    obtain ⟨v, chosen⟩ : ∃ v, puzzle.chooseVariable policy s = .ok v := by
      rw [Puzzle.chooseVariable, listed]
      cases among with
      | nil => exact absurd candidate List.not_mem_nil
      | cons front rest => cases policy <;> exact ⟨_, rfl⟩
    obtain ⟨inside, undecided⟩ := Search.chooseVariable_eq_ok chosen
    exact ⟨v, mem_undetermined_of_not notEmpty inside undecided, chosen⟩
  · simp at solved

namespace Puzzle.WellBehaved

variable (wellBehaved : puzzle.WellBehaved frame) (shape : s.frame = frame)
include wellBehaved shape

theorem classify (initial : Bool) : ∃ outcome, puzzle.classify initial s = .ok outcome := by
  obtain ⟨consistent, checked⟩ := wellBehaved.consistent s shape
  unfold Puzzle.classify
  split
  · exact ⟨_, rfl⟩
  · rw [checked]
    cases consistent with
    | false => exact ⟨_, rfl⟩
    | true =>
      cases full : s.allDetermined with
      | false => exact ⟨_, rfl⟩
      | true =>
        obtain ⟨solved, judged⟩ := wellBehaved.solved s shape full
        rw [judged]
        cases solved <;> exact ⟨_, rfl⟩

theorem chooseVariable (policy : Policy) (isOpen : puzzle.classify false s = .ok .unsolved) :
    ∃ v ∈ s.undetermined, puzzle.chooseVariable policy s = .ok v := by
  subst shape
  exact exists_chosen policy (wellBehaved.inRange s rfl) (wellBehaved.covers s rfl) isOpen

end Puzzle.WellBehaved

/-! ### What a search spends -/

def Hook.Quiet (hook : Hook μ) : Prop := ∀ memory event, (hook memory event).2 = []

theorem Hook.quiet_silent : (Hook.silent : Hook μ).Quiet := fun _ _ => rfl

namespace Search

variable {s t u : Search μ} {cost more : Nat}

/-- On the way from `s` to `t` at most `cost` guesses were made, and the search gave up only if the
budget had no room for them. -/
structure Spends (s t : Search μ) (cost : Nat) : Prop where
  budget : t.solver.budget = s.solver.budget
  cancelled : t.solver.cancelled = s.solver.cancelled
  guesses : t.solver.guesses ≤ s.solver.guesses + cost
  gaveUp : s.solver.guesses + cost ≤ s.solver.budget → t.gaveUp = s.gaveUp

namespace Spends

theorem refl : s.Spends s 0 := ⟨rfl, rfl, Nat.le_refl _, fun _ => rfl⟩

theorem trans (first : s.Spends t cost) (second : t.Spends u more) : s.Spends u (cost + more) where
  budget := second.budget.trans first.budget
  cancelled := second.cancelled.trans first.cancelled
  guesses := by
    have := first.guesses
    have := second.guesses
    omega
  gaveUp room := by
    have spent := first.guesses
    have same := first.budget
    rw [second.gaveUp (by omega), first.gaveUp (by omega)]

theorem mono (h : s.Spends t cost) (le : cost ≤ more) : s.Spends t more :=
  ⟨h.budget, h.cancelled, h.guesses.trans (Nat.add_le_add_left le _), fun room => h.gaveUp (by omega)⟩

theorem emit (quiet : hook.Quiet) (kind : EventKind) (depth : Nat) (guess : Option Guess)
    (s : Search μ) :
    ∃ t, s.emit hook kind depth guess = (t, .ok ()) ∧ s.Spends t 0 ∧ t.state = s.state := by
  unfold Search.emit
  dsimp only
  rw [quiet]
  exact ⟨_, rfl, ⟨rfl, rfl, Nat.le_refl _, fun _ => rfl⟩, rfl⟩

theorem giveUp (spent : s.solver.budget ≤ s.solver.guesses) : s.Spends s.giveUp.1 (1 + cost) :=
  ⟨rfl, rfl, Nat.le_add_right _ _, fun room => by omega⟩

end Spends

/-- A search that nothing but its budget can stop. -/
structure Ready (frame : Frame) (search : Search μ) : Prop where
  shape : search.state.frame = frame
  givens : search.state.GivensHold
  passLimit : search.solver.passLimit = none
  active : search.solver.cancelled = false

theorem Ready.trans (ready : s.Ready frame) (leads : s.Leads t) (spends : s.Spends t cost) :
    t.Ready frame where
  shape := leads.state.frame_eq.trans ready.shape
  givens := leads.state.givensHold ready.givens
  passLimit := leads.passLimit.trans ready.passLimit
  active := spends.cancelled.trans ready.active

/-- The search ends with an outcome at a bounded cost, and without a verdict only if it gave up; or
it fails because something it works with is faulty. -/
def Ends (faulty : Prop) (s : Search μ) (reply : Reply μ Outcome) (cost : Nat) : Prop :=
  (faulty ∧ ∃ t fault, reply = (t, .error fault)) ∨
    ∃ t outcome, reply = (t, .ok outcome) ∧ s.Spends t cost ∧ (outcome = .unsolved → t.gaveUp = true)

variable {faulty : Prop} {reply : Reply μ Outcome}

theorem Spends.ends (first : s.Spends t cost) (ends : t.Ends faulty reply more) :
    s.Ends faulty reply (cost + more) := by
  obtain failed | ⟨u, outcome, eq, spends, unsolved⟩ := ends
  · exact .inl failed
  · exact .inr ⟨u, outcome, eq, first.trans spends, unsolved⟩

theorem Ends.mono (h : s.Ends faulty reply cost) (le : cost ≤ more) : s.Ends faulty reply more := by
  obtain failed | ⟨u, outcome, eq, spends, unsolved⟩ := h
  · exact .inl failed
  · exact .inr ⟨u, outcome, eq, spends.mono le, unsolved⟩

/-- Without a pass limit the rules get to their fixpoint unless they or the checks fail. -/
theorem propagate_ends (puzzle : Puzzle) (quiet : hook.Quiet) (ready : s.Ready frame) (depth : Nat) :
    (¬ puzzle.WellBehaved frame ∧ ∃ t fault, s.propagate puzzle hook depth = (t, .error fault)) ∨
      ∃ t outcome, s.propagate puzzle hook depth = (t, .ok (outcome, true)) ∧ s.Spends t 0 := by
  have left : s.Spends (s.afterRun puzzle depth) 0 := ⟨rfl, rfl, Nat.le_refl _, fun _ => rfl⟩
  have narrowed := narrowsTo_runToFixpoint puzzle.rules s.solver.passLimit s.state
  obtain ⟨cause, _, ended⟩ | ⟨fault, fine, failed, ended⟩ | ⟨summary, fault, _, failed, ended⟩ |
    ⟨summary, outcome, finished, _, ended⟩ := propagate_cases puzzle hook depth s
  · exact .inr ⟨_, _, ended, left⟩
  · refine .inl ⟨fun wellBehaved => ?_, _, _, ended⟩
    rw [ready.passLimit] at failed fine
    obtain ⟨cause, contradiction⟩ | ⟨_, finished, _⟩ :=
      runToFixpoint_wellBehaved ready.shape wellBehaved.rules
    · exact fine _ contradiction cause rfl
    · rw [failed] at finished
      exact nomatch finished
  · refine .inl ⟨fun wellBehaved => ?_, _, _, ended⟩
    obtain ⟨outcome, classified⟩ := wellBehaved.classify (narrowed.frame_eq.trans ready.shape) false
    rw [failed] at classified
    exact nomatch classified
  · obtain ⟨told, emitted, spends, _⟩ := Spends.emit quiet .fixpoint depth none
      (((s.afterRun puzzle depth).countFixpoint summary).settleRoot depth)
    rw [ready.passLimit] at finished
    refine .inr ⟨told, outcome, ?_, Spends.trans ?_ spends⟩
    · rw [ended, emitted, runToFixpoint_converged finished]
      rfl
    · unfold settleRoot
      split <;> exact ⟨rfl, rfl, Nat.le_refl _, fun _ => rfl⟩

section Below

variable {attempt : Search μ → Reply μ Outcome} {openLeft depth v x : Nat} {values : List Nat}
  (quiet : hook.Quiet)
  (ends : ∀ s : Search μ, s.Ready frame → s.state.undetermined.length ≤ openLeft →
    s.Ends faulty (attempt s) cost)
include quiet ends

private theorem tryValue_ends (ready : s.Ready frame) (isOpen : v ∈ s.state.undetermined)
    (candidate : x ∈ s.state.domain v) (fewer : s.state.undetermined.length ≤ openLeft + 1) :
    s.Ends faulty (s.tryValue hook attempt depth v x) (1 + cost) := by
  obtain ⟨state, flag, assigned⟩ := assign_undetermined ready.givens isOpen candidate
  have settled := length_undetermined_assign assigned isOpen
  have made : s.makeGuess v x = (s.afterGuess state, .ok ()) := by
    rw [makeGuess, assigned]
    rfl
  have guessed : s.Spends (s.afterGuess state) 1 :=
    ⟨rfl, rfl, Nat.le_refl _, fun _ => rfl⟩
  obtain ⟨told, emitted, toldSpends, sameState⟩ :=
    Spends.emit quiet .guess (depth + 1) (some ⟨v, x⟩) (s.afterGuess state)
  have leads : s.Leads told := by
    have guess := leads_makeGuess s v x
    have tell := leads_emit .guess (depth + 1) (some ⟨v, x⟩) hook (s.afterGuess state)
    rw [made] at guess
    rw [emitted] at tell
    exact guess.trans tell
  have spent := guessed.trans toldSpends
  have fewerLeft : told.state.undetermined.length ≤ openLeft := by
    rw [sameState]
    exact Nat.le_of_lt_succ (Nat.lt_of_lt_of_le settled fewer)
  unfold tryValue
  rw [made]
  dsimp only
  rw [emitted]
  dsimp only
  obtain ⟨isFaulty, last, fault, failed⟩ | ⟨last, outcome, explored, cheap, unsolved⟩ :=
    ends told (ready.trans leads spent) fewerLeft
  · rw [failed]
    exact .inl ⟨isFaulty, last, fault, rfl⟩
  obtain ⟨back, emittedBack, backSpends, _⟩ :=
    Spends.emit quiet .backtrack depth (some ⟨v, x⟩) (last.takeBack s.state.mark)
  have taken : last.Spends (last.takeBack s.state.mark) 0 :=
    ⟨rfl, rfl, Nat.le_refl _, fun _ => rfl⟩
  have kept := gaveUp_emit .backtrack depth (some ⟨v, x⟩) hook (last.takeBack s.state.mark)
  rw [emittedBack] at kept
  rw [explored]
  cases outcome with
  | solved => exact .inr ⟨last, .solved, rfl, spent.trans cheap, unsolved⟩
  | unsolved | unsolvable | invalid =>
    dsimp only
    rw [emittedBack]
    exact .inr ⟨back, _, rfl, (spent.trans cheap).trans (taken.trans backSpends),
      fun none => kept.trans (unsolved none)⟩

private theorem tryValues_ends (below : ∀ s : Search μ, s.Leads (attempt s).1) (ready : s.Ready frame)
    (isOpen : v ∈ s.state.undetermined) (candidates : ∀ x ∈ values, x ∈ s.state.domain v)
    (fewer : s.state.undetermined.length ≤ openLeft + 1) :
    s.Ends faulty (s.tryValues hook attempt depth v values) (values.length * (1 + cost)) := by
  induction values generalizing s with
  | nil =>
    refine .inr ⟨s, _, rfl, Spends.refl.mono (Nat.zero_le _), fun unsolved => ?_⟩
    by_contra active
    simp [active] at unsolved
  | cons x rest ih =>
    have length : (x :: rest).length * (1 + cost) = 1 + cost + rest.length * (1 + cost) := by
      rw [List.length_cons]
      ring
    rw [length, tryValues_cons, ready.active]
    split
    next spent =>
      have none : s.solver.budget ≤ s.solver.guesses := by simpa using spent
      exact .inr ⟨s.giveUp.1, .unsolved, rfl, (Spends.giveUp none).mono (Nat.le_add_right _ _),
        fun _ => rfl⟩
    next =>
      have leads := leads_tryValue below hook s depth v x
      obtain ⟨isFaulty, t, fault, failed⟩ | ⟨t, outcome, tried, spends, unsolved⟩ :=
        tryValue_ends quiet ends ready isOpen (candidates x (List.mem_cons_self ..)) fewer
      · rw [failed]
        exact .inl ⟨isFaulty, t, fault, rfl⟩
      rw [tried] at leads ⊢
      have again (other : outcome ≠ .solved) : s.Ends faulty
          (t.tryValues hook attempt depth v rest) (1 + cost + rest.length * (1 + cost)) := by
        have same := state_tryValue below tried other
        refine spends.ends (ih (ready.trans leads spends) (same ▸ isOpen) ?_ (same ▸ fewer))
        exact fun y member => same ▸ candidates y (List.mem_cons_of_mem x member)
      cases outcome with
      | solved => exact .inr ⟨t, .solved, rfl, spends.mono (Nat.le_add_right _ _), unsolved⟩
      | unsolved | unsolvable | invalid => exact again (by simp)

end Below

theorem propagate_notEmpty {depth : Nat} {found : Outcome} {converged : Bool}
    (h : s.propagate puzzle hook depth = (t, .ok (found, converged))) (goesOn : found.isTerminal = false) :
    t.state.hasEmptyDomain = false := by
  have unsolved : found = .unsolved := by cases found <;> simp_all [Outcome.isTerminal]
  obtain ⟨reached, ⟨_, _, contradiction⟩ | ⟨_, _, _, classified⟩⟩ := propagate_eq_ok h
  · rw [contradiction] at unsolved
    cases unsolved
  · rw [unsolved, ← reached] at classified
    exact (Puzzle.classify_eq_unsolved classified).1

/-- The variable to guess on is open, so the tree below has fewer open variables. -/
theorem open_of_chosen {state : State} {policy : Policy} {v : Nat}
    (notEmpty : state.hasEmptyDomain = false) (chosen : puzzle.chooseVariable policy state = .ok v) :
    v ∈ state.undetermined ∧ ∃ openLeft, state.undetermined.length = openLeft + 1 := by
  obtain ⟨inside, undecided⟩ := chooseVariable_eq_ok chosen
  have isOpen := mem_undetermined_of_not notEmpty inside undecided
  exact ⟨isOpen, _, (Nat.succ_pred_eq_of_pos (List.length_pos_of_mem isOpen)).symm⟩

def guessBound (size openLeft : Nat) : Nat := ∑ k ∈ Finset.Icc 1 openLeft, size ^ k

theorem guessBound_succ (size openLeft : Nat) :
    guessBound size (openLeft + 1) = size * (1 + guessBound size openLeft) := by
  have top (m : Nat) : guessBound size (m + 1) = guessBound size m + size ^ (m + 1) :=
    Finset.sum_Icc_succ_top (Nat.le_add_left 1 m) _
  induction openLeft with
  | zero => simp [guessBound]
  | succ m ih =>
    calc guessBound size (m + 1 + 1)
        = size * (1 + guessBound size m) + size ^ (m + 1 + 1) := by rw [top (m + 1), ih]
      _ = size * (1 + (guessBound size m + size ^ (m + 1))) := by ring
      _ = size * (1 + guessBound size (m + 1)) := by rw [top m]

theorem guessBound_mono {size few many : Nat} (le : few ≤ many) :
    guessBound size few ≤ guessBound size many :=
  Finset.sum_le_sum_of_subset (Finset.Icc_subset_Icc (Nat.le_refl 1) le)

/-- A search that only its budget can stop comes to an end within the bound. -/
theorem explore_ends (puzzle : Puzzle) (quiet : hook.Quiet) (levels depth : Nat)
    (ready : s.Ready frame) (enough : s.state.undetermined.length < levels) :
    s.Ends (¬ puzzle.WellBehaved frame) (s.explore puzzle hook levels depth)
      (guessBound frame.size s.state.undetermined.length) := by
  induction levels generalizing depth s with
  | zero => exact absurd enough (Nat.not_lt_zero _)
  | succ levels ih =>
    have rooted := leads_propagate puzzle hook depth s
    rw [explore_succ, ready.active]
    obtain ⟨isFaulty, t, fault, failed⟩ | ⟨t, outcome, propagated, spends⟩ :=
      propagate_ends puzzle quiet ready depth
    · rw [failed]
      exact .inl ⟨isFaulty, t, fault, rfl⟩
    rw [propagated] at rooted ⊢
    have narrowed : s.state.NarrowsTo t.state := rooted.state
    have shape := narrowed.frame_eq.trans ready.shape
    have ready' : t.Ready frame := ⟨shape, narrowed.givensHold ready.givens,
      rooted.passLimit.trans ready.passLimit, spends.cancelled.trans ready.active⟩
    obtain ⟨reached, verdict⟩ := propagate_eq_ok propagated
    change s.Ends _ (t.branch puzzle hook levels depth outcome true) _
    unfold branch
    cases terminal : outcome.isTerminal with
    | true =>
      refine .inr ⟨t, outcome, rfl, spends.mono (Nat.zero_le _), ?_⟩
      rintro rfl
      cases terminal
    | false =>
      have unsolved : outcome = .unsolved := by cases outcome <;> simp_all [Outcome.isTerminal]
      subst unsolved
      obtain ⟨_, _, contradiction⟩ | ⟨_, _, _, classified⟩ := verdict
      · simp at contradiction
      rw [← reached] at classified
      simp only [Bool.not_true, Bool.false_eq_true, if_false]
      split
      next fault failed =>
        refine .inl ⟨fun wellBehaved => ?_, t, fault, rfl⟩
        obtain ⟨_, _, chosen⟩ := wellBehaved.chooseVariable shape t.solver.policy classified
        rw [failed] at chosen
        cases chosen
      next v chosen =>
        obtain ⟨isOpen, openLeft, counted⟩ :=
          open_of_chosen (propagate_notEmpty propagated terminal) chosen
        have fewer := narrowed.length_undetermined_le
        have branches : t.Ends _ (t.tryValues hook (explore puzzle hook levels (depth + 1)) depth v
            (t.state.candidates v)) _ :=
          tryValues_ends quiet
            (fun u ready few => (ih (depth + 1) ready (by omega)).mono (guessBound_mono few))
            (fun u => leads_explore puzzle hook (Nat.succ_ne_zero depth) levels u) ready' isOpen
            (fun x member => member) counted.le
        have short : (t.state.candidates v).length ≤ frame.size := by
          have size : t.state.size = frame.size := congrArg Frame.size shape
          have bound := (t.state.domain v).sublist.length_le
          exact bound.trans (List.length_range.trans size).le
        have cost := Nat.mul_le_mul_right (1 + guessBound frame.size openLeft) short
        rw [← guessBound_succ, ← counted] at cost
        have smaller : guessBound frame.size t.state.undetermined.length ≤ _ := guessBound_mono fewer
        exact (spends.ends branches).mono ((Nat.zero_add _).trans_le (cost.trans smaller))

end Search

/-! ### Solving -/

namespace Solver

variable {memory : μ} {solver : Solver} {solutions : Set (Nat → Nat)}

/-- A call only fails if something is faulty, and it has a verdict if the budget has room for the
whole tree. -/
theorem solve_ends (puzzle : Puzzle) (memory : μ) (givens : s.GivensHold) (quiet : hook.Quiet)
    (unlimited : solver.passLimit = none) :
    (∀ fault, (solver.solve puzzle hook memory s).result = .error fault →
        ¬ puzzle.WellBehaved s.frame) ∧
      (solver.guesses + Search.guessBound s.size s.undetermined.length ≤ solver.budget →
        (solver.solve puzzle hook memory s).result ≠ .ok .unsolved) := by
  unfold solve
  dsimp only
  split
  next fault failed =>
    refine ⟨fun _ _ wellBehaved => ?_, fun _ h => nomatch h⟩
    obtain ⟨outcome, classified⟩ := wellBehaved.classify rfl true
    rw [failed] at classified
    exact nomatch classified
  next first classified =>
    split
    next terminal =>
      refine ⟨fun _ h => (nomatch h), fun _ unsolved => ?_⟩
      cases unsolved
      exact nomatch terminal
    next =>
      have ready : (start { solver with cancelled := false } memory s).Ready s.frame :=
        ⟨rfl, givens, unlimited, rfl⟩
      rw [result_finish]
      obtain ⟨isFaulty, t, fault, failed⟩ | ⟨t, outcome, explored, spends, unsolved⟩ :=
        Search.explore_ends puzzle quiet (Search.enoughLevels s) 0 ready (Nat.lt_succ_self _)
      · rw [failed]
        exact ⟨fun _ _ => isFaulty, fun _ h => nomatch h⟩
      · rw [explored]
        refine ⟨fun _ h => (nomatch h), fun room noVerdict => ?_⟩
        have kept := spends.gaveUp room
        rw [unsolved (Except.ok.inj noVerdict)] at kept
        exact nomatch kept

/-- With enough budget a call decides whether there is a solution. -/
theorem solve_decides (givens : s.GivensHold) (wellBehaved : puzzle.WellBehaved s.frame)
    (sound : puzzle.Sound s.frame solutions) (quiet : hook.Quiet) (unlimited : solver.passLimit = none)
    (room : solver.guesses + Search.guessBound s.size s.undetermined.length ≤ solver.budget) :
    (solver.solve puzzle hook memory s).result = .ok .solved ↔ ∃ a ∈ solutions, s.Admits a := by
  obtain ⟨fails, decides⟩ := solve_ends puzzle memory givens quiet unlimited
  refine ⟨fun solved => ?_, ?_⟩
  · obtain ⟨_, member, admits⟩ := solve_solution sound solved
    exact ⟨_, member, admits⟩
  · rintro ⟨a, member, admits⟩
    cases ended : (solver.solve puzzle hook memory s).result with
    | error fault => exact absurd wellBehaved (fails fault ended)
    | ok outcome =>
      obtain solved | unsolved := solve_keeps givens sound member admits ended
      · rw [solved]
      · exact absurd (unsolved ▸ ended) (decides room)

end Solver

end PencilPuzzle
