import PencilPuzzle.Proofs.Search.Completeness

/-!
# Propagation in any order

A state is stable when every variable has a candidate and no rule fails or has anything left to take
away. A rule that never takes away what belongs to a stable state below keeps all of these states, and if
all rules are like that, so does a run. A run that converges ends on a stable state itself, which is then
the greatest one; a run that meets a contradiction shows that there is none. Neither depends on the order
in which the rules run.
-/

namespace PencilPuzzle

open State

variable {s t u : State} {rules order order' : List Rule} {rule : Rule} {updates : List Update}
  {a : Nat → Nat} {v x : Nat}

/-! ### States below -/

structure State.Within (t s : State) : Prop where
  frame : t.frame = s.frame
  subset : ∀ v x, x ∈ t.domain v → x ∈ s.domain v

theorem State.NarrowsTo.within (h : s.NarrowsTo t) : t.Within s :=
  ⟨h.frame_eq, fun _ _ => h.subset⟩

namespace State.Within

theorem count_eq (within : t.Within s) : t.count = s.count := congrArg Frame.count within.frame

theorem size_eq (within : t.Within s) : t.size = s.size := congrArg Frame.size within.frame

theorem constraints_eq (within : t.Within s) : t.constraints = s.constraints :=
  congrArg Frame.constraints within.frame

theorem admits (within : t.Within s) (admits : t.Admits a) : s.Admits a :=
  fun v inside => within.subset v _ (admits v (within.count_eq.symm ▸ inside))

theorem candidates_eq (first : t.Within s) (second : s.Within t) (v : Nat) :
    t.candidates v = s.candidates v := by
  have perm : (t.candidates v).Perm (s.candidates v) :=
    (List.perm_ext_iff_of_nodup (t.domain v).nodup (s.domain v).nodup).mpr fun x =>
      ⟨first.subset v x, second.subset v x⟩
  exact perm.eq_of_pairwise (fun _ _ _ _ h h' => absurd h (Nat.lt_asymm h')) (t.domain v).ordered
    (s.domain v).ordered

theorem checkVars_eq_ok (within : t.Within s) {references : List Int} {vars : List Nat}
    (checked : t.checkVars references = .ok vars) : s.checkVars references = .ok vars := by
  induction references generalizing vars with
  | nil => exact checked
  | cons reference rest ih =>
    obtain ⟨v, here, checked⟩ := bind_eq_ok.mp checked
    obtain ⟨others, later, checked⟩ := bind_eq_ok.mp checked
    have here' : s.checkVar reference = .ok v := by
      rw [checkVar_eq_ok, ← within.count_eq]
      exact checkVar_eq_ok.mp here
    exact bind_eq_ok.mpr ⟨v, here', bind_eq_ok.mpr ⟨others, ih later, checked⟩⟩

theorem value?_eq_some_of_ne_nil (within : t.Within s) (left : t.candidates v ≠ [])
    (value : s.value? v = some x) : t.value? v = some x := by
  have alone := State.value?_eq_some.mp value
  have only : ∀ y ∈ t.candidates v, y = x := by
    intro y candidate
    have above : y ∈ s.candidates v := within.subset v y candidate
    rwa [alone, List.mem_singleton] at above
  obtain ⟨y, member⟩ := List.exists_mem_of_ne_nil _ left
  have here : x ∈ t.candidates v := only y member ▸ member
  refine State.value?_eq_some.mpr (List.perm_singleton.mp ?_)
  refine (List.perm_ext_iff_of_nodup (t.domain v).nodup (List.nodup_singleton x)).mpr fun y => ?_
  rw [List.mem_singleton]
  exact ⟨only y, fun same => same ▸ here⟩

theorem value?_eq_some (within : t.Within s) (notEmpty : t.hasEmptyDomain = false)
    (value : s.value? v = some x) : t.value? v = some x := by
  have alone := State.value?_eq_some.mp value
  have inside : v < t.count := by
    rw [within.count_eq]
    exact lt_count_of_mem_domain (show x ∈ s.candidates v by rw [alone]; exact List.mem_singleton_self x)
  exact within.value?_eq_some_of_ne_nil (hasEmptyDomain_eq_false.mp notEmpty v inside) value

end State.Within

private theorem State.exists_admits (notEmpty : t.hasEmptyDomain = false) : ∃ a, t.Admits a := by
  choose! a admits using fun v (inside : v < t.count) =>
    List.exists_mem_of_ne_nil _ (hasEmptyDomain_eq_false.mp notEmpty v inside)
  exact ⟨a, admits⟩

private theorem State.exists_admits_with (notEmpty : t.hasEmptyDomain = false) (member : x ∈ t.domain v) :
    ∃ a, t.Admits a ∧ a v = x := by
  obtain ⟨a, admits⟩ := exists_admits notEmpty
  refine ⟨Function.update a v x, fun w inside => ?_, Function.update_self v x a⟩
  by_cases same : w = v
  · subst same
    rw [Function.update_self]
    exact member
  · rw [Function.update_of_ne same]
    exact admits w inside

private theorem State.within_of_admits (notEmpty : t.hasEmptyDomain = false) (frame : t.frame = s.frame)
    (all : ∀ a, t.Admits a → s.Admits a) : t.Within s := by
  refine ⟨frame, fun v x member => ?_⟩
  obtain ⟨a, admits, rfl⟩ := exists_admits_with notEmpty member
  have count : t.count = s.count := congrArg Frame.count frame
  exact all a admits v (count ▸ lt_count_of_mem_domain member)

/-! ### Updates without effect -/

private theorem remove_of_rests (rests : (s.applyUpdates updates).2 = .ok 0) :
    ∀ update ∈ updates, s.remove update.var update.removed = .ok (s, false) := by
  induction updates with
  | nil => exact fun _ member => nomatch member
  | cons update rest ih =>
    obtain ⟨t, flag, later, removed, _, done, counted, _⟩ := applyUpdates_cons_eq_ok rests
    obtain ⟨rfl, none⟩ : later = 0 ∧ flag.toNat = 0 := by omega
    obtain rfl : flag = false := by simpa using none
    obtain rfl := eq_of_remove_false removed
    exact List.forall_mem_cons.mpr ⟨removed, ih done⟩

theorem not_refused_of_rests {refused : Nat → List Nat}
    (rests : (s.applyUpdates (s.removals refused)).2 = .ok 0) (member : x ∈ s.domain v) :
    x ∉ refused v := by
  intro out
  have struck : x ∈ (s.candidates v).filter (· ∈ refused v) :=
    List.mem_filter.mpr ⟨member, decide_eq_true out⟩
  have proposed := mem_removals_of_refused member out
  obtain ⟨w, values, var, checked, narrowed⟩ := remove_eq_ok (remove_of_rests rests _ proposed)
  cases eq_of_checkVar var
  have same := List.map_injective_iff.mpr Int.ofNat_injective (checkValues_eq_ok checked).1
  exact of_decide_eq_true ((narrow_eq_false narrowed).2 x member) (same ▸ struck)

/-! ### Stable states -/

/-- Every variable has a candidate and no rule fails or has anything left to take away. -/
structure State.Stable (rules : List Rule) (t : State) : Prop where
  notEmpty : t.hasEmptyDomain = false
  rests : ∀ rule ∈ rules, ∃ updates, rule.deduce t = .ok updates ∧ (t.applyUpdates updates).2 = .ok 0

theorem State.Stable.of_subset (stable : t.Stable rules) (subset : order ⊆ rules) : t.Stable order :=
  ⟨stable.notEmpty, fun rule member => stable.rests rule (subset member)⟩

/-- From a state of this shape the rule takes nothing that belongs to a stable state below. -/
def Rule.Monotone (frame : Frame) (rule : Rule) : Prop :=
  ∀ t u : State, t.frame = frame → u.Within t → u.Stable [rule] → ∀ a, u.Admits a → rule.Spares a t

theorem rests_of_quiet {index : Nat} (quiet : (Fixpoint.pass index rules s).result = .ok 0) :
    ∀ rule ∈ rules, ∃ updates, rule.deduce s = .ok updates ∧ (s.applyUpdates updates).2 = .ok 0 := by
  induction rules generalizing index with
  | nil => simp
  | cons rule rest ih =>
    unfold Fixpoint.pass at quiet
    split at quiet
    next => simp at quiet
    next updates deduced =>
      split at quiet
      next => simp at quiet
      next reached changed applied =>
        obtain ⟨later, counted, none⟩ := map_eq_ok.mp quiet
        obtain ⟨rfl, rfl⟩ : changed = 0 ∧ later = 0 := by omega
        have effect : (s.applyUpdates updates).2 = .ok 0 := congrArg Prod.snd applied
        cases applied.symm.trans (applyUpdates_of_rests effect)
        exact List.forall_mem_cons.mpr ⟨⟨updates, deduced, effect⟩, ih counted⟩

/-! ### Runs that succeed empty no domain -/

private theorem notEmpty_applyUpdates (notEmpty : s.hasEmptyDomain = false) {changed : Nat}
    (done : (s.applyUpdates updates).2 = .ok changed) :
    (s.applyUpdates updates).1.hasEmptyDomain = false := by
  induction updates generalizing s changed with
  | nil => exact notEmpty
  | cons update rest ih =>
    obtain ⟨t, _, _, removed, left, done, _, final⟩ := applyUpdates_cons_eq_ok done
    have count := (NarrowsTo.of_remove removed).count_eq
    rw [final]
    exact ih (hasEmptyDomain_eq_false.mpr fun v inside =>
      left v (hasEmptyDomain_eq_false.mp notEmpty v (count ▸ inside))) done

private theorem notEmpty_pass {index : Nat} (notEmpty : s.hasEmptyDomain = false) {changed : Nat}
    (done : (Fixpoint.pass index rules s).result = .ok changed) :
    (Fixpoint.pass index rules s).state.hasEmptyDomain = false := by
  induction rules generalizing index s changed with
  | nil => exact notEmpty
  | cons rule rest ih =>
    unfold Fixpoint.pass at done ⊢
    split at done
    next => simp at done
    next updates _ =>
      split at done
      next => simp at done
      next reached first applied =>
        obtain ⟨later, counted, _⟩ := map_eq_ok.mp done
        have here := notEmpty_applyUpdates notEmpty (congrArg Prod.snd applied)
        rw [applied] at here
        exact ih here counted

theorem notEmpty_passes {limit : Nat} (notEmpty : s.hasEmptyDomain = false) {summary : FixpointSummary}
    (done : (Fixpoint.passes rules limit s).result = .ok summary) :
    (Fixpoint.passes rules limit s).state.hasEmptyDomain = false := by
  induction limit generalizing s summary with
  | zero => exact notEmpty
  | succ limit ih =>
    unfold Fixpoint.passes at done ⊢
    dsimp only at done ⊢
    split at done
    next => exact nomatch done
    next quiet => exact notEmpty_pass notEmpty quiet
    next changed counted =>
      obtain ⟨later, ended, _⟩ := map_eq_ok.mp done
      exact ih (notEmpty_pass notEmpty counted) ended

/-! ### The greatest stable state -/

/-- A stable state below `s`, and above all others. -/
structure GreatestStable (rules : List Rule) (s t : State) : Prop where
  within : t.Within s
  stable : t.Stable rules
  greatest : ∀ u : State, u.Within s → u.Stable rules → u.Within t

private theorem GreatestStable.of_perm (greatest : GreatestStable rules s t) (perm : order.Perm rules) :
    GreatestStable order s t where
  within := greatest.within
  stable := greatest.stable.of_subset perm.subset
  greatest u within stable := greatest.greatest u within (stable.of_subset perm.symm.subset)

section Monotone

variable (givens : s.GivensHold) (monotone : ∀ rule ∈ rules, rule.Monotone s.frame)
include givens monotone

private theorem within_applyUpdates (narrowed : s.NarrowsTo u) (stable : t.Stable rules)
    (within : t.Within u) (member : rule ∈ rules) :
    NoContradiction (rule.deduce u) ∧
      ∀ updates, rule.deduce u = .ok updates →
        t.Within (u.applyUpdates updates).1 ∧ NoContradiction (u.applyUpdates updates).2 := by
  have spares := monotone rule member u t narrowed.frame_eq within
    (stable.of_subset (List.cons_subset.mpr ⟨member, List.nil_subset _⟩))
  -- A stable state is the set of its assignments, and the rule spares each of them by itself. That
  -- there is one at all rules out a contradiction.
  obtain ⟨some, admitted⟩ := exists_admits stable.notEmpty
  refine ⟨(spares some admitted).1, fun updates deduced => ?_⟩
  have applied (a : Nat → Nat) (admits : t.Admits a) :=
    applyUpdates_admits (narrowed.givensHold givens) (within.admits admits)
      ((spares a admits).2 updates deduced)
  refine ⟨within_of_admits stable.notEmpty ?_ fun a admits => (applied a admits).1,
    (applied some admitted).2⟩
  exact within.frame.trans (narrowsTo_applyUpdates u updates).frame_eq.symm

/-- A run keeps what is stable below, and meets no contradiction if anything is. -/
theorem within_runToFixpoint (within : t.Within s) (stable : t.Stable rules) :
    t.Within (runToFixpoint rules none s).state ∧
      NoContradiction (runToFixpoint rules none s).result := by
  have step (u : State) (holds : s.NarrowsTo u ∧ t.Within u) (rule : Rule) (member : rule ∈ rules) :
      NoContradiction (rule.deduce u) ∧ ∀ updates, rule.deduce u = .ok updates →
        (s.NarrowsTo (u.applyUpdates updates).1 ∧ t.Within (u.applyUpdates updates).1) ∧
          NoContradiction (u.applyUpdates updates).2 := by
    obtain ⟨fine, keeps⟩ := within_applyUpdates givens monotone holds.1 stable holds.2 member
    refine ⟨fine, fun updates deduced => ?_⟩
    obtain ⟨still, fine'⟩ := keeps updates deduced
    exact ⟨⟨holds.1.trans (narrowsTo_applyUpdates u updates), still⟩, fine'⟩
  obtain ⟨⟨_, kept⟩, fine⟩ :=
    passes_keeps _ step (Fixpoint.enoughPasses s) ⟨NarrowsTo.refl, within⟩
  exact ⟨kept, fine⟩

variable (notEmpty : s.hasEmptyDomain = false) (wellBehaved : ∀ rule ∈ rules, rule.WellBehaved s.frame)
include notEmpty wellBehaved

/-- A run ends on the greatest stable state below, or with a contradiction if there is none. -/
theorem runToFixpoint_greatest :
    (∃ cause, (runToFixpoint rules none s).result = .error (.contradiction cause)) ∧
        (∀ t : State, t.Within s → ¬ t.Stable rules) ∨
      (∃ summary, (runToFixpoint rules none s).result = .ok summary ∧ summary.converged = true) ∧
        GreatestStable rules s (runToFixpoint rules none s).state := by
  obtain ⟨cause, contradiction⟩ | ⟨summary, done, converged⟩ := runToFixpoint_wellBehaved rfl wellBehaved
  · refine .inl ⟨⟨cause, contradiction⟩, fun t within stable => ?_⟩
    exact (within_runToFixpoint givens monotone within stable).2 _ contradiction cause rfl
  · have stable : (runToFixpoint rules none s).state.Stable rules :=
      ⟨notEmpty_passes notEmpty done, rests_of_quiet (passes_converged done converged)⟩
    refine .inr ⟨⟨summary, done, converged⟩, (narrowsTo_runToFixpoint rules none s).within, stable, ?_⟩
    exact fun t within stable => (within_runToFixpoint givens monotone within stable).1

theorem runToFixpoint_perm (perm : order.Perm rules) :
    (∃ cause, (runToFixpoint order none s).result = .error (.contradiction cause)) ∧
        (∀ t : State, t.Within s → ¬ t.Stable rules) ∨
      (∃ summary, (runToFixpoint order none s).result = .ok summary ∧ summary.converged = true) ∧
        GreatestStable rules s (runToFixpoint order none s).state := by
  obtain ⟨contradiction, none⟩ | ⟨converged, greatest⟩ := runToFixpoint_greatest givens
    (fun rule member => monotone rule (perm.subset member)) notEmpty
    (fun rule member => wellBehaved rule (perm.subset member))
  · exact .inl ⟨contradiction, fun t within stable => none t within (stable.of_subset perm.subset)⟩
  · exact .inr ⟨converged, greatest.of_perm perm.symm⟩

end Monotone

end PencilPuzzle
