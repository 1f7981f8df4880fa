import PencilPuzzle.Fixpoint
import PencilPuzzle.Proofs.State.Operation

/-!
# Propagation

What a run of rules does to a state and what it can end with. A run is a chain of changes, one for
each update it counts, so a pass without an effective update leaves the state exactly as it was, and
a run without a limit always gets to such a pass. An assignment that no rule gives up survives the
run and keeps it from ending in a contradiction.
-/

namespace PencilPuzzle

open State

variable {s : State} {rules : List Rule} {a : Nat → Nat}

/-! ### Runs are chains of changes -/

theorem State.NarrowsTo.eq_of_mark_eq {t : State} (h : s.NarrowsTo t) (same : t.mark = s.mark) :
    t = s := by
  have back := h.undo
  rw [← same] at back
  have none : t.undo t.mark = t := by
    rw [State.undo, mark, Nat.sub_self, rewind]
  exact none.symm.trans back

theorem mark_remove {reference : Int} {references : List Int} {t : State} {flag : Bool}
    (h : s.remove reference references = .ok (t, flag)) : t.mark = s.mark + flag.toNat := by
  obtain ⟨_, _, _, _, narrowed⟩ := remove_eq_ok h
  cases flag with
  | true => exact mark_narrow narrowed
  | false =>
    obtain ⟨rfl, _⟩ := narrow_eq_false narrowed
    rfl

private theorem mark_applyUpdates (s : State) (updates : List Update) {changed : Nat}
    (h : (s.applyUpdates updates).2 = .ok changed) :
    (s.applyUpdates updates).1.mark = s.mark + changed := by
  induction updates generalizing s changed with
  | nil =>
    cases h
    rfl
  | cons update rest ih =>
    obtain ⟨t, flag, later, removed, _, done, rfl, final⟩ := applyUpdates_cons_eq_ok h
    rw [final, ih t done, mark_remove removed]
    omega

theorem applyUpdates_of_rests {updates : List Update} (rests : (s.applyUpdates updates).2 = .ok 0) :
    s.applyUpdates updates = (s, .ok 0) :=
  Prod.ext ((narrowsTo_applyUpdates s updates).eq_of_mark_eq (mark_applyUpdates s updates rests)) rests

private theorem narrowsTo_pass (index : Nat) (rules : List Rule) (s : State) :
    s.NarrowsTo (Fixpoint.pass index rules s).state := by
  induction rules generalizing index s with
  | nil => exact NarrowsTo.refl
  | cons rule rest ih =>
    unfold Fixpoint.pass
    split
    next => exact NarrowsTo.refl
    next updates _ =>
      have first := narrowsTo_applyUpdates s updates
      split
      next applied =>
        rw [applied] at first
        exact first
      next reached _ applied =>
        rw [applied] at first
        exact first.trans (ih (index + 1) reached)

theorem mark_pass (index : Nat) (rules : List Rule) (s : State) {changed : Nat}
    (h : (Fixpoint.pass index rules s).result = .ok changed) :
    (Fixpoint.pass index rules s).state.mark = s.mark + changed := by
  induction rules generalizing index s changed with
  | nil =>
    cases h
    rfl
  | cons rule rest ih =>
    unfold Fixpoint.pass at h ⊢
    split at h
    next => simp at h
    next updates _ =>
      split at h
      next => simp at h
      next reached first applied =>
        obtain ⟨later, counted, rfl⟩ := map_eq_ok.mp h
        have here := mark_applyUpdates s updates (congrArg Prod.snd applied)
        rw [applied] at here
        have there := ih (index + 1) reached counted
        rw [here, Nat.add_assoc] at there
        exact there

private theorem pass_quiet (h : (Fixpoint.pass 0 rules s).result = .ok 0) :
    (Fixpoint.pass 0 rules s).state = s :=
  (narrowsTo_pass 0 rules s).eq_of_mark_eq (mark_pass 0 rules s h)

theorem candidateTotal_pass {changed : Nat} (counted : (Fixpoint.pass 0 rules s).result = .ok changed)
    (effective : changed ≠ 0) :
    (Fixpoint.pass 0 rules s).state.candidateTotal < s.candidateTotal := by
  have cost := (narrowsTo_pass 0 rules s).candidateTotal_add_mark_le
  rw [mark_pass 0 rules s counted] at cost
  omega

private theorem narrowsTo_passes (rules : List Rule) (limit : Nat) (s : State) :
    s.NarrowsTo (Fixpoint.passes rules limit s).state := by
  induction limit generalizing s with
  | zero => exact NarrowsTo.refl
  | succ limit ih =>
    have first := narrowsTo_pass 0 rules s
    unfold Fixpoint.passes
    dsimp only
    split
    · exact first
    · exact first
    · exact first.trans (ih _)

theorem narrowsTo_runToFixpoint (rules : List Rule) (limit : Option Int) (s : State) :
    s.NarrowsTo (runToFixpoint rules limit s).state := by
  unfold runToFixpoint
  split
  · exact narrowsTo_passes rules _ s
  · split
    · exact NarrowsTo.refl
    · exact narrowsTo_passes rules _ s

/-! ### Quiet runs -/

theorem passes_converged {limit : Nat} {summary : FixpointSummary}
    (h : (Fixpoint.passes rules limit s).result = .ok summary) (converged : summary.converged = true) :
    (Fixpoint.pass 0 rules (Fixpoint.passes rules limit s).state).result = .ok 0 := by
  induction limit generalizing s summary with
  | zero =>
    cases h
    simp at converged
  | succ limit ih =>
    unfold Fixpoint.passes at h ⊢
    dsimp only at h ⊢
    split at h
    next => simp at h
    next quiet =>
      dsimp only
      rw [pass_quiet quiet]
      exact quiet
    next changed counted =>
      obtain ⟨later, ended, rfl⟩ := map_eq_ok.mp h
      exact ih ended converged

private theorem passes_of_quiet {limit : Nat} (quiet : (Fixpoint.pass 0 rules s).result = .ok 0) :
    (Fixpoint.passes rules (limit + 1) s).state = s ∧
      (Fixpoint.passes rules (limit + 1) s).result = .ok ⟨1, 0, true⟩ := by
  have same := pass_quiet quiet
  unfold Fixpoint.passes
  dsimp only
  rw [quiet]
  exact ⟨same, rfl⟩

/-- A run from where a converged run ended changes nothing and converges again. -/
theorem runToFixpoint_again {limit : Option Int} {summary : FixpointSummary}
    (h : (runToFixpoint rules limit s).result = .ok summary) (converged : summary.converged = true) :
    (runToFixpoint rules limit (runToFixpoint rules limit s).state).state =
        (runToFixpoint rules limit s).state ∧
      (runToFixpoint rules limit (runToFixpoint rules limit s).state).result = .ok ⟨1, 0, true⟩ := by
  cases limit with
  | none => exact passes_of_quiet (passes_converged h converged)
  | some limit =>
    unfold runToFixpoint at h ⊢
    dsimp only at h ⊢
    by_cases none : limit < 1
    · simp [none] at h
    · simp only [none, if_false] at h ⊢
      obtain ⟨more, enough⟩ : ∃ more, limit.toNat = more + 1 := ⟨limit.toNat - 1, by omega⟩
      have quiet := passes_converged h converged
      rw [enough] at quiet ⊢
      exact passes_of_quiet quiet

/-- A pass that is not quiet costs a candidate, so a run with more passes than candidates
converges. -/
theorem converged_of_candidateTotal_lt {limit : Nat} (enough : s.candidateTotal < limit)
    {summary : FixpointSummary} (h : (Fixpoint.passes rules limit s).result = .ok summary) :
    summary.converged = true := by
  induction limit generalizing s summary with
  | zero => exact absurd enough (Nat.not_lt_zero _)
  | succ limit ih =>
    unfold Fixpoint.passes at h
    dsimp only at h
    split at h
    next => simp at h
    next =>
      cases h
      rfl
    next changed effective counted =>
      obtain ⟨later, ended, rfl⟩ := map_eq_ok.mp h
      have fewer : (Fixpoint.pass 0 rules s).state.candidateTotal < limit :=
        (candidateTotal_pass counted effective).trans_le (Nat.le_of_lt_succ enough)
      change later.converged = true
      exact ih fewer ended

theorem runToFixpoint_converged {summary : FixpointSummary}
    (h : (runToFixpoint rules none s).result = .ok summary) : summary.converged = true :=
  converged_of_candidateTotal_lt (Nat.lt_succ_self _) h

/-! ### What every rule keeps -/

section Keeps

variable {kind : Fault → Prop} (invariant : State → Prop)
  (step : ∀ t, invariant t → ∀ rule ∈ rules, FailsOnly kind (rule.deduce t) ∧
    ∀ updates, rule.deduce t = .ok updates →
      invariant (t.applyUpdates updates).1 ∧ FailsOnly kind (t.applyUpdates updates).2)
include step

private theorem pass_keeps (index : Nat) (here : invariant s) :
    invariant (Fixpoint.pass index rules s).state ∧
      FailsOnly kind (Fixpoint.pass index rules s).result := by
  induction rules generalizing index s with
  | nil => exact ⟨here, FailsOnly.ok⟩
  | cons rule rest ih =>
    obtain ⟨fine, keeps⟩ := step s here rule (List.mem_cons_self ..)
    unfold Fixpoint.pass
    split
    next failed => exact ⟨here, fine.pass failed⟩
    next updates deduced =>
      have applied := keeps updates deduced
      split
      next failed =>
        rw [failed] at applied
        exact ⟨applied.1, applied.2.pass rfl⟩
      next reached _ done =>
        rw [done] at applied
        obtain ⟨later, fine'⟩ := ih
          (fun t holds other member => step t holds other (List.mem_cons_of_mem rule member))
          (index + 1) applied.1
        exact ⟨later, fine'.map⟩

/-- What every rule keeps a run keeps, and it fails only in the way its rules do. -/
theorem passes_keeps (limit : Nat) (here : invariant s) :
    invariant (Fixpoint.passes rules limit s).state ∧
      FailsOnly kind (Fixpoint.passes rules limit s).result := by
  induction limit generalizing s with
  | zero => exact ⟨here, FailsOnly.ok⟩
  | succ limit ih =>
    obtain ⟨first, fine⟩ := pass_keeps invariant step 0 here
    unfold Fixpoint.passes
    dsimp only
    split
    next failed => exact ⟨first, fine.pass failed⟩
    next => exact ⟨first, FailsOnly.ok⟩
    next =>
      obtain ⟨later, fine'⟩ := ih first
      exact ⟨later, fine'.map⟩

end Keeps

/-! ### Assignments that survive -/

/-- The assignment takes the value of every variable from its domain. -/
def State.Admits (state : State) (a : Nat → Nat) : Prop := ∀ v < state.count, a v ∈ state.domain v

def Update.Spares (a : Nat → Nat) (update : Update) : Prop :=
  ∀ v : Nat, update.var = v → (a v : Int) ∉ update.removed

/-- On this state the rule neither finds a contradiction nor strikes an assigned value. -/
def Rule.Spares (a : Nat → Nat) (state : State) (rule : Rule) : Prop :=
  NoContradiction (rule.deduce state) ∧
    ∀ updates, rule.deduce state = .ok updates → ∀ update ∈ updates, update.Spares a

theorem Rule.spares_of_ok {rule : Rule} {updates : List Update} (deduced : rule.deduce s = .ok updates)
    (spare : ∀ update ∈ updates, update.Spares a) : rule.Spares a s := by
  unfold Rule.Spares
  rw [deduced]
  exact ⟨FailsOnly.ok, fun _ h => Except.ok.inj h ▸ spare⟩

theorem mem_removals {refused : Nat → List Nat} {update : Update}
    (h : update ∈ s.removals refused) :
    ∃ v < s.count, update.var = v ∧ ∃ struck : List Nat, update.removed = struck.map Int.ofNat ∧
      ∀ x ∈ struck, x ∈ s.domain v ∧ x ∈ refused v := by
  obtain ⟨v, inside, found⟩ := List.mem_filterMap.mp h
  refine ⟨v, List.mem_range.mp inside, ?_⟩
  dsimp only at found
  split at found
  · simp at found
  · cases found
    refine ⟨rfl, _, rfl, fun x struck => ?_⟩
    obtain ⟨listed, out⟩ := List.mem_filter.mp struck
    exact ⟨listed, of_decide_eq_true out⟩

theorem mem_removals_of_refused {refused : Nat → List Nat} {v x : Nat} (candidate : x ∈ s.candidates v)
    (out : x ∈ refused v) :
    ⟨v, ((s.candidates v).filter (· ∈ refused v)).map Int.ofNat⟩ ∈ s.removals refused := by
  refine List.mem_filterMap.mpr ⟨v, List.mem_range.mpr (lt_count_of_mem_domain candidate), ?_⟩
  dsimp only
  split
  next none =>
    have struck : x ∈ (s.candidates v).filter (· ∈ refused v) :=
      List.mem_filter.mpr ⟨candidate, decide_eq_true out⟩
    exact absurd (none ▸ struck) List.not_mem_nil
  next => rfl

/-- Removals strike the refused candidates, all of them and nothing else. -/
theorem exists_mem_removals_iff {refused : Nat → List Nat} {reference value : Int} :
    (∃ update ∈ s.removals refused, update.var = reference ∧ value ∈ update.removed) ↔
      ∃ v x : Nat, reference = v ∧ value = x ∧ x ∈ s.candidates v ∧ x ∈ refused v := by
  constructor
  · rintro ⟨update, proposed, rfl, member⟩
    obtain ⟨v, _, var, struck, removed, out⟩ := mem_removals proposed
    rw [removed] at member
    obtain ⟨x, listed, rfl⟩ := List.mem_map.mp member
    exact ⟨v, x, var, rfl, out x listed⟩
  · rintro ⟨v, x, rfl, rfl, candidate, out⟩
    have struck : x ∈ (s.candidates v).filter (· ∈ refused v) :=
      List.mem_filter.mpr ⟨candidate, decide_eq_true out⟩
    exact ⟨_, mem_removals_of_refused candidate out, rfl, List.mem_map_of_mem struck⟩

theorem spares_removals {refused : Nat → List Nat} (keeps : ∀ v < s.count, a v ∉ refused v) :
    ∀ update ∈ s.removals refused, update.Spares a := by
  intro update proposed v var member
  obtain ⟨w, inside, var', struck, removed, out⟩ := mem_removals proposed
  cases Int.ofNat.inj (var.symm.trans var')
  rw [removed] at member
  obtain ⟨x, listed, same⟩ := List.mem_map.mp member
  cases Int.ofNat.inj same
  exact keeps v inside (out _ listed).2

/-- Narrowing by a test that the assigned value passes works on every variable: a given has only
that value left. -/
theorem narrow_admits {v : Nat} {test : Nat → Bool} (givens : s.GivensHold) (admits : s.Admits a)
    (inside : v < s.count) (passes : test (a v) = true) :
    ∃ t flag, s.narrow v test = .ok (t, flag) ∧ t.Admits a := by
  have present := admits v inside
  by_cases same : (s.domain v).keep test = s.domain v
  · exact ⟨s, false, by simp [narrow, same], admits⟩
  · have unlocked : s.isLocked v = false := by
      by_contra locked
      have alone := isDetermined_iff.mp (givens v (by simpa using locked))
      obtain ⟨x, only⟩ := List.length_eq_one_iff.mp alone
      refine same (Domain.ext fun y => ?_)
      have here : a v ∈ s.candidates v := present
      have there : y ∈ s.domain v ↔ y ∈ s.candidates v := Iff.rfl
      rw [only, List.mem_singleton] at here
      rw [Domain.mem_keep, there, only, List.mem_singleton]
      exact ⟨And.left, fun h => ⟨h, h ▸ here ▸ passes⟩⟩
    obtain ⟨t, changed⟩ : ∃ t, s.narrow v test = .ok (t, true) := by
      simp [narrow, same, unlocked]
    refine ⟨t, true, changed, fun w bound => (mem_domain_narrow changed).mpr ⟨?_, fun h => h ▸ passes⟩⟩
    exact admits w ((NarrowsTo.of_narrow changed).count_eq ▸ bound)

private theorem remove_admits {update : Update} (givens : s.GivensHold) (admits : s.Admits a)
    (spare : update.Spares a) :
    NoContradiction (s.remove update.var update.removed) ∧
      ∀ t flag, s.remove update.var update.removed = .ok (t, flag) → t.Admits a := by
  have narrowed {v : Nat} {struck : List Nat} (var : s.checkVar update.var = .ok v)
      (values : s.checkValues update.removed = .ok struck) :
      ∃ t flag, s.narrow v (· ∉ struck) = .ok (t, flag) ∧ t.Admits a := by
    obtain ⟨eq, inside⟩ := checkVar_eq_ok.mp var
    refine narrow_admits givens admits inside (decide_eq_true fun member => ?_)
    exact spare v eq ((mem_of_checkValues values).mpr member)
  constructor
  · refine FailsOnly.bind (fun fault failed => ?_) fun v var => FailsOnly.bind (fun fault failed => ?_)
      fun struck values => ?_
    · simp [checkVar_eq_error failed]
    · obtain ⟨_, rfl⟩ := checkValues_eq_error failed
      simp
    · obtain ⟨t, flag, done, _⟩ := narrowed var values
      rw [done]
      exact FailsOnly.ok
  · intro t flag removed
    obtain ⟨v, struck, var, values, here⟩ := remove_eq_ok removed
    obtain ⟨t', flag', there, kept⟩ := narrowed var values
    rw [here] at there
    cases there
    exact kept

theorem applyUpdates_admits {updates : List Update} (givens : s.GivensHold) (admits : s.Admits a)
    (spare : ∀ update ∈ updates, update.Spares a) :
    (s.applyUpdates updates).1.Admits a ∧ NoContradiction (s.applyUpdates updates).2 := by
  induction updates generalizing s with
  | nil => exact ⟨admits, FailsOnly.ok⟩
  | cons update rest ih =>
    obtain ⟨fine, kept⟩ := remove_admits givens admits (spare update (List.mem_cons_self ..))
    have later {t : State} {flag : Bool} (removed : s.remove update.var update.removed = .ok (t, flag)) :
        (t.applyUpdates rest).1.Admits a ∧ NoContradiction (t.applyUpdates rest).2 :=
      ih ((NarrowsTo.of_remove removed).givensHold givens) (kept t flag removed)
        fun u member => spare u (List.mem_cons_of_mem update member)
    obtain ⟨_, failed, applied⟩ | ⟨t, v, removed, some, none, applied⟩ | ⟨t, flag, removed, _, applied⟩ :=
      applyUpdates_cons s update rest
    · rw [applied]
      exact ⟨admits, fine.pass failed⟩
    · -- A variable whose assigned value is spared does not run empty.
      obtain ⟨x, present⟩ := List.exists_mem_of_ne_nil _ some
      have inside : v < t.count := (NarrowsTo.of_remove removed).count_eq ▸ lt_count_of_mem_domain present
      have spared : a v ∈ t.candidates v := kept t true removed v inside
      exact absurd (none ▸ spared) List.not_mem_nil
    · rw [applied]
      exact ⟨(later removed).1, (later removed).2.map⟩

/-- An assignment that the rules spare survives a run, and the run meets no contradiction. -/
theorem runToFixpoint_admits {limit : Option Int} (givens : s.GivensHold) (admits : s.Admits a)
    (spare : ∀ t, s.NarrowsTo t → t.Admits a → ∀ rule ∈ rules, rule.Spares a t) :
    (runToFixpoint rules limit s).state.Admits a ∧
      NoContradiction (runToFixpoint rules limit s).result := by
  have step (t : State) (holds : s.NarrowsTo t ∧ t.Admits a) (rule : Rule) (member : rule ∈ rules) :
      NoContradiction (rule.deduce t) ∧ ∀ updates, rule.deduce t = .ok updates →
        (s.NarrowsTo (t.applyUpdates updates).1 ∧ (t.applyUpdates updates).1.Admits a) ∧
          NoContradiction (t.applyUpdates updates).2 := by
    obtain ⟨fine, keeps⟩ := spare t holds.1 holds.2 rule member
    refine ⟨fine, fun updates deduced => ?_⟩
    obtain ⟨still, fine'⟩ :=
      applyUpdates_admits (holds.1.givensHold givens) holds.2 (keeps updates deduced)
    exact ⟨⟨holds.1.trans (narrowsTo_applyUpdates t updates), still⟩, fine'⟩
  have passes (limit : Nat) : (Fixpoint.passes rules limit s).state.Admits a ∧
      NoContradiction (Fixpoint.passes rules limit s).result := by
    obtain ⟨⟨_, kept⟩, fine⟩ := passes_keeps _ step limit ⟨NarrowsTo.refl, admits⟩
    exact ⟨kept, fine⟩
  unfold runToFixpoint
  split
  · exact passes _
  · split
    · exact ⟨admits, FailsOnly.error (by simp)⟩
    · exact passes _

end PencilPuzzle
