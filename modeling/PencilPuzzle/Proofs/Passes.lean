import PencilPuzzle.Proofs.Confluence

/-!
# Pass after pass

A run without a limit makes one pass after the other until a pass fails or is quiet. Every pass but the
last takes a candidate away, so the run ends, at the latest one pass after there is nothing left to take.
A limit does not change what the passes do: a run with a limit is the beginning of the run without one,
and a run without a limit from where it stopped is the rest.
-/

namespace PencilPuzzle

open State

variable {s t : State} {rules : List Rule} {run : Run FixpointSummary} {p : Nat}

/-! ### Runs without a limit -/

/-- A run together with what comes before it: the rules consulted, the passes and the updates. -/
def Run.after (later : Run FixpointSummary) (consulted : List Nat) (passes updates : Nat) :
    Run FixpointSummary where
  state := later.state
  consulted := consulted ++ later.consulted
  result := later.result.map fun summary =>
    ⟨summary.passes + passes, updates + summary.updates, summary.converged⟩

theorem Run.after_zero (later : Run FixpointSummary) : later.after [] 0 0 = later := by
  obtain ⟨state, consulted, result⟩ := later
  cases result with
  | error fault => rfl
  | ok summary => simp [Run.after, Except.map]

private theorem Run.after_after (later : Run FixpointSummary) (consulted consulted' : List Nat)
    (passes passes' updates updates' : Nat) :
    (later.after consulted passes updates).after consulted' passes' updates' =
      later.after (consulted' ++ consulted) (passes + passes') (updates' + updates) := by
  obtain ⟨state, first, result⟩ := later
  cases result with
  | error fault => simp [Run.after, Except.map]
  | ok summary => simp [Run.after, Except.map, Nat.add_assoc]

namespace Fixpoint

/-- In which pass a run without a limit ends, and what it comes to. -/
inductive Ends (rules : List Rule) : Nat → State → Run FixpointSummary → Prop
  | failed {s : State} {fault : Fault} :
      (pass 0 rules s).result = .error fault →
        Ends rules 1 s ⟨(pass 0 rules s).state, (pass 0 rules s).consulted, .error fault⟩
  | quiet {s : State} :
      (pass 0 rules s).result = .ok 0 →
        Ends rules 1 s ⟨(pass 0 rules s).state, (pass 0 rules s).consulted, .ok ⟨1, 0, true⟩⟩
  | again {s : State} {changed p : Nat} {later : Run FixpointSummary} :
      (pass 0 rules s).result = .ok changed → changed ≠ 0 →
        Ends rules p (pass 0 rules s).state later →
          Ends rules (p + 1) s (later.after (pass 0 rules s).consulted 1 changed)

theorem passes_succ {changed : Nat} (counted : (pass 0 rules s).result = .ok changed)
    (effective : changed ≠ 0) (limit : Nat) :
    passes rules (limit + 1) s =
      (passes rules limit (pass 0 rules s).state).after (pass 0 rules s).consulted 1 changed := by
  rw [passes]
  dsimp only
  rw [counted]
  cases changed with
  | zero => exact absurd rfl effective
  | succ changed => rfl

private theorem exists_ends (rules : List Rule) (s : State) :
    ∃ p ≤ s.candidateTotal + 1, ∃ run, Ends rules p s run := by
  induction total : s.candidateTotal using Nat.strong_induction_on generalizing s with
  | _ total ih =>
    cases counted : (pass 0 rules s).result with
    | error fault => exact ⟨1, Nat.le_add_left 1 _, _, .failed counted⟩
    | ok changed =>
      by_cases effective : changed = 0
      · exact ⟨1, Nat.le_add_left 1 _, _, .quiet (effective ▸ counted)⟩
      · have fewer := candidateTotal_pass counted effective
        obtain ⟨p, bound, later, ends⟩ := ih _ (total ▸ fewer) _ rfl
        exact ⟨p + 1, by omega, _, .again counted effective ends⟩

namespace Ends

theorem pos (ends : Ends rules p s run) : 1 ≤ p := by
  cases ends with
  | failed => exact Nat.le_refl 1
  | quiet => exact Nat.le_refl 1
  | again => exact Nat.le_add_left 1 _

/-- A limit that is not passed is not felt. -/
theorem passes_eq (ends : Ends rules p s run) {limit : Nat} (enough : p ≤ limit) :
    passes rules limit s = run := by
  induction ends generalizing limit with
  | failed failed =>
    obtain ⟨more, rfl⟩ := Nat.exists_eq_add_of_le' enough
    rw [passes]
    dsimp only
    rw [failed]
  | quiet quiet =>
    obtain ⟨more, rfl⟩ := Nat.exists_eq_add_of_le' enough
    rw [passes]
    dsimp only
    rw [quiet]
    rfl
  | again counted effective _ ih =>
    obtain ⟨more, rfl⟩ := Nat.exists_eq_add_of_le' (Nat.le_of_add_left_le enough)
    rw [passes_succ counted effective, ih (Nat.le_of_succ_le_succ enough)]

private theorem pass_eq {q : Nat} {run' : Run FixpointSummary} (ends : Ends rules p s run)
    (ends' : Ends rules q s run') : p = q := by
  induction ends generalizing q run' with
  | failed failed =>
    cases ends' with
    | failed => rfl
    | quiet quiet => exact nomatch failed.symm.trans quiet
    | again counted => exact nomatch failed.symm.trans counted
  | quiet quiet =>
    cases ends' with
    | failed failed => exact nomatch failed.symm.trans quiet
    | quiet => rfl
    | again counted effective => exact absurd (Except.ok.inj (counted.symm.trans quiet)) effective
  | again counted effective _ ih =>
    cases ends' with
    | failed failed => exact nomatch failed.symm.trans counted
    | quiet quiet => exact absurd (Except.ok.inj (counted.symm.trans quiet)) effective
    | again _ _ later => exact congrArg Nat.succ (ih later)

theorem unique {q : Nat} {run' : Run FixpointSummary} (ends : Ends rules p s run)
    (ends' : Ends rules q s run') : p = q ∧ run = run' := by
  refine ⟨ends.pass_eq ends', ?_⟩
  -- A limit that neither run feels gives the result of both.
  rw [← ends.passes_eq (Nat.le_max_left p q), ← ends'.passes_eq (Nat.le_max_right p q)]

/-- The summary counts the passes, and each update it counts is one change. -/
theorem summary (ends : Ends rules p s run) {summary : FixpointSummary}
    (returned : run.result = .ok summary) :
    summary.passes = p ∧ run.state.mark = s.mark + summary.updates := by
  induction ends generalizing summary with
  | failed => exact nomatch returned
  | quiet quiet =>
    cases returned
    exact ⟨rfl, mark_pass 0 rules _ quiet⟩
  | @again s changed p later counted _ _ ih =>
    obtain ⟨rest, ended, rfl⟩ := map_eq_ok.mp returned
    obtain ⟨passes, marked⟩ := ih ended
    rw [mark_pass 0 rules s counted] at marked
    exact ⟨congrArg (· + 1) passes, marked.trans (Nat.add_assoc ..)⟩

/-- A limit below the last pass stops the run before it, and what is left is the rest of it. -/
theorem split (ends : Ends rules p s run) {k : Nat} (early : k < p) :
    ∃ updates, (passes rules k s).result = .ok ⟨k, updates, false⟩ ∧
      ∃ later, Ends rules (p - k) (passes rules k s).state later ∧
        run = later.after (passes rules k s).consulted k updates := by
  induction k generalizing p s run with
  | zero => exact ⟨0, rfl, run, ends, run.after_zero.symm⟩
  | succ k ih =>
    cases ends with
    | failed => omega
    | quiet => omega
    | @again _ changed p later counted effective rest =>
      obtain ⟨updates, stopped, later, ends, rfl⟩ := ih rest (Nat.lt_of_succ_lt_succ early)
      rw [passes_succ counted effective, Nat.add_sub_add_right]
      refine ⟨changed + updates, ?_, later, ends, Run.after_after ..⟩
      rw [Run.after, stopped]
      rfl

end Ends

end Fixpoint

open Fixpoint

private theorem ends_runToFixpoint (rules : List Rule) (s : State) :
    ∃ p ≤ 1 + s.candidateTotal, Ends rules p s (runToFixpoint rules none s) := by
  obtain ⟨p, bound, run, ends⟩ := exists_ends rules s
  have same : runToFixpoint rules none s = run := ends.passes_eq bound
  exact ⟨p, Nat.add_comm 1 _ ▸ bound, same ▸ ends⟩

private theorem runToFixpoint_some (rules : List Rule) {k : Nat} (positive : 1 ≤ k) (s : State) :
    runToFixpoint rules (some k) s = passes rules k s := by
  rw [runToFixpoint, if_neg (by omega), Int.toNat_natCast]

/-! ### What a run returns with -/

/-- What the rules have come to when a run from `s` returns with `t`. -/
structure ConvergesTo (rules : List Rule) (s t : State) (summary : FixpointSummary) : Prop where
  converged : summary.converged = true
  /-- Every update that is counted has put one change on the trail. -/
  updates : t.trail.length = s.trail.length + summary.updates
  subset : ∀ v x, x ∈ t.candidates v → x ∈ s.candidates v
  /-- No rule has anything left to do. -/
  rests : ∀ rule ∈ rules, ∃ updates, rule.deduce t = .ok updates ∧ t.applyUpdates updates = (t, .ok 0)
  again : (runToFixpoint rules none t).state = t ∧
    (runToFixpoint rules none t).result = .ok ⟨1, 0, true⟩
  notEmpty : s.hasEmptyDomain = false → t.hasEmptyDomain = false

/-- A run without a limit ends, at the latest in the pass after as many as there are candidates, and when it
returns, its rules have nothing left to do. -/
theorem runToFixpoint_convergesTo (rules : List Rule) (s : State) :
    ∃ p ≤ 1 + s.candidateTotal, Ends rules p s (runToFixpoint rules none s) ∧
      ∀ summary, (runToFixpoint rules none s).result = .ok summary →
        summary.passes = p ∧ ConvergesTo rules s (runToFixpoint rules none s).state summary := by
  obtain ⟨p, bound, ends⟩ := ends_runToFixpoint rules s
  refine ⟨p, bound, ends, fun summary returned => ?_⟩
  obtain ⟨passes, marked⟩ := ends.summary returned
  have converged := runToFixpoint_converged returned
  have quiet := passes_converged returned converged
  refine ⟨passes, converged, marked, fun v x => (narrowsTo_runToFixpoint rules none s).subset, ?_, ?_, ?_⟩
  · intro rule member
    obtain ⟨updates, deduced, rests⟩ := rests_of_quiet quiet rule member
    exact ⟨updates, deduced, applyUpdates_of_rests rests⟩
  · exact runToFixpoint_again returned converged
  · exact fun notEmpty => notEmpty_passes notEmpty returned

/-! ### Runs with a limit -/

/-- The run without a limit ends in one pass only. With a limit from that pass on a run is the same; with a
smaller one it stops there, and the run from where it stopped, which ends in the last of the passes that are
missing, is the rest. -/
theorem runToFixpoint_capped (rules : List Rule) (s : State) :
    ∃ p, (∀ q run, Ends rules q s run ↔ q = p ∧ run = runToFixpoint rules none s) ∧
      (∀ k : Nat, p ≤ k → runToFixpoint rules (some k) s = runToFixpoint rules none s) ∧
      ∀ k : Nat, 1 ≤ k → k < p →
        let capped := runToFixpoint rules (some k) s
        let later := runToFixpoint rules none capped.state
        ∃ updates, capped.result = .ok ⟨k, updates, false⟩ ∧ Ends rules (p - k) capped.state later ∧
          runToFixpoint rules none s = later.after capped.consulted k updates := by
  obtain ⟨p, _, ends⟩ := ends_runToFixpoint rules s
  refine ⟨p, fun q run => ⟨fun other => ?_, ?_⟩, fun k enough => ?_, fun k positive early => ?_⟩
  · exact other.unique ends
  · rintro ⟨rfl, rfl⟩
    exact ends
  · rw [runToFixpoint_some rules (ends.pos.trans enough)]
    exact ends.passes_eq enough
  · dsimp only
    rw [runToFixpoint_some rules positive]
    obtain ⟨updates, stopped, later, rest, same⟩ := ends.split early
    obtain ⟨_, _, rest'⟩ := ends_runToFixpoint rules (passes rules k s).state
    obtain ⟨_, rfl⟩ := rest.unique rest'
    exact ⟨updates, stopped, rest, same⟩

end PencilPuzzle
