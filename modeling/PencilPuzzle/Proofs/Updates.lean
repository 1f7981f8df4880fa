import PencilPuzzle.Proofs.Search.Completeness

/-!
# Updates in any order

What updates leave of a variable are the candidates that none of them strikes, and they contradict exactly if
that is nothing for some variable that had any. Neither depends on their order. A contradiction can come from
a given or from a domain that runs empty, but a given has one value only, so to strike that is to strike all
of them.
-/

namespace PencilPuzzle

open State

variable {s t : State} {update : Update} {updates rest order : List Update} {v x : Nat}

/-! ### What updates strike -/

def Update.strikes (update : Update) (v x : Nat) : Bool :=
  update.var = (v : Int) && (x : Int) ∈ update.removed

namespace State

def spared (s : State) (updates : List Update) (v : Nat) : List Nat :=
  (s.candidates v).filter fun x => !updates.any (·.strikes v x)

/-- Some variable has candidates, and updates strike all of them. -/
def Exhausted (s : State) (updates : List Update) : Prop :=
  ∃ v, s.candidates v ≠ [] ∧ s.spared updates v = []

theorem spared_nil (s : State) (v : Nat) : s.spared [] v = s.candidates v := by
  simp [spared]

theorem spared_cons (s : State) (update : Update) (rest : List Update) (v : Nat) :
    s.spared (update :: rest) v = (s.spared [update] v).filter fun x => !rest.any (·.strikes v x) := by
  simp [spared, List.filter_filter, Bool.and_comm]

private theorem spared_perm (perm : order.Perm updates) (v : Nat) :
    s.spared order v = s.spared updates v := by
  unfold spared
  simp only [perm.any_eq]

theorem not_exhausted_nil (s : State) : ¬ s.Exhausted [] := by
  rintro ⟨v, some, none⟩
  exact some (spared_nil s v ▸ none)

theorem Exhausted.cons (exhausted : s.Exhausted [update]) (rest : List Update) :
    s.Exhausted (update :: rest) := by
  obtain ⟨v, some, none⟩ := exhausted
  refine ⟨v, some, ?_⟩
  rw [spared_cons, none, List.filter_nil]

private theorem exhausted_perm (perm : order.Perm updates) : s.Exhausted order ↔ s.Exhausted updates := by
  simp only [Exhausted, spared_perm perm]

/-! ### One update -/

section Step

variable (spared : ∀ v, t.candidates v = s.spared [update] v)
include spared

private theorem spared_cons_of_step (rest : List Update) (v : Nat) :
    s.spared (update :: rest) v = t.spared rest v := by
  rw [spared_cons, ← spared, State.spared]

theorem exhausted_cons_iff (left : ∀ v, s.candidates v ≠ [] → t.candidates v ≠ []) :
    s.Exhausted (update :: rest) ↔ t.Exhausted rest := by
  have kept (v : Nat) : t.candidates v ≠ [] ↔ s.candidates v ≠ [] := by
    refine ⟨fun some none => some ?_, left v⟩
    rw [spared, State.spared, none, List.filter_nil]
  simp only [Exhausted, spared_cons_of_step spared, kept]

end Step

private theorem spared_of_ne {w : Nat} (named : update.var = (v : Int)) (other : w ≠ v) :
    s.spared [update] w = s.candidates w := by
  have apart : update.var ≠ (w : Int) := fun same => other (Int.ofNat.inj (same.symm.trans named))
  simp [spared, Update.strikes, apart]

private theorem spared_of_eq (named : update.var = (v : Int)) :
    s.spared [update] v = (s.candidates v).filter fun x : Nat => (x : Int) ∉ update.removed := by
  simp [spared, Update.strikes, named]

section Range

variable (inRange : update.InRange s.frame)
include inRange

private theorem candidates_of_remove {flag : Bool}
    (removed : s.remove update.var update.removed = .ok (t, flag))
    (w : Nat) : t.candidates w = s.spared [update] w := by
  obtain ⟨v, _, named, opened⟩ := remove_of_inRange inRange
  rw [candidates_narrow (opened.symm.trans removed)]
  split
  next same => rw [same, spared_of_eq named]
  next other => rw [spared_of_ne named other]

private theorem exhausted_of_remove {fault : Fault} (givens : s.GivensHold)
    (failed : s.remove update.var update.removed = .error fault) :
    (∃ cause, fault = .contradiction cause) ∧ s.Exhausted [update] := by
  obtain ⟨v, _, named, opened⟩ := remove_of_inRange inRange
  obtain ⟨locked, ⟨x, present, fails⟩, rfl⟩ := narrow_eq_error (opened.symm.trans failed)
  obtain ⟨y, alone⟩ := List.length_eq_one_iff.mp (isDetermined_iff.mp (givens v locked))
  obtain rfl : x = y := List.mem_singleton.mp (alone ▸ present)
  refine ⟨⟨_, rfl⟩, v, List.ne_nil_of_mem present, ?_⟩
  rw [spared_of_eq named, alone]
  simpa using fails

end Range

/-! ### All updates -/

/-- Updates in range contradict if they strike out a variable, and else leave what they do not strike. -/
theorem applyUpdates_spared (givens : s.GivensHold) (inRange : ∀ update ∈ updates, update.InRange s.frame) :
    (∃ cause, (s.applyUpdates updates).2 = .error (.contradiction cause)) ∧ s.Exhausted updates ∨
      (∃ changed, (s.applyUpdates updates).2 = .ok changed) ∧ ¬ s.Exhausted updates ∧
        ∀ v, (s.applyUpdates updates).1.candidates v = s.spared updates v := by
  induction updates generalizing s with
  | nil => exact .inr ⟨⟨0, rfl⟩, not_exhausted_nil s, fun v => (spared_nil s v).symm⟩
  | cons update rest ih =>
    obtain ⟨here, others⟩ := List.forall_mem_cons.mp inRange
    obtain ⟨fault, failed, applied⟩ | ⟨t, v, removed, some, none, applied⟩ |
      ⟨t, flag, removed, left, applied⟩ := applyUpdates_cons s update rest
    · obtain ⟨⟨cause, rfl⟩, exhausted⟩ := exhausted_of_remove here givens failed
      exact .inl ⟨⟨cause, congrArg Prod.snd applied⟩, exhausted.cons rest⟩
    · have exhausted : s.Exhausted [update] :=
        ⟨v, some, (candidates_of_remove here removed v).symm.trans none⟩
      exact .inl ⟨⟨_, congrArg Prod.snd applied⟩, exhausted.cons rest⟩
    · -- What all updates leave of `s` is what the others leave of `t`.
      have step := candidates_of_remove here removed
      have narrows := NarrowsTo.of_remove removed
      rw [applied, exhausted_cons_iff step left]
      simp only [spared_cons_of_step step]
      obtain ⟨⟨cause, contradicts⟩, exhausted⟩ | ⟨⟨changed, done⟩, open', kept⟩ :=
        ih (narrows.givensHold givens) (narrows.frame_eq.symm ▸ others)
      · exact .inl ⟨⟨cause, by rw [contradicts]; rfl⟩, exhausted⟩
      · exact .inr ⟨⟨changed + flag.toNat, by rw [done]; rfl⟩, open', kept⟩

/-- In every order the same updates contradict, or leave the same of every variable. -/
theorem applyUpdates_perm (reachable : s.Reachable) (inRange : ∀ update ∈ updates, update.InRange s.frame)
    (perm : order.Perm updates) :
    ((∃ cause, (s.applyUpdates updates).2 = .error (.contradiction cause)) ∧
          (∃ cause, (s.applyUpdates order).2 = .error (.contradiction cause)) ∨
        (∃ changed, (s.applyUpdates updates).2 = .ok changed) ∧
          (∃ changed, (s.applyUpdates order).2 = .ok changed) ∧
          ∀ v, (s.applyUpdates updates).1.candidates v = s.spared updates v ∧
            (s.applyUpdates order).1.candidates v = s.spared updates v) ∧
      ((∃ cause, (s.applyUpdates updates).2 = .error (.contradiction cause)) ↔ s.Exhausted updates) := by
  have givens := reachable.settled.givens
  have given := applyUpdates_spared givens inRange
  have other := applyUpdates_spared givens fun update member => inRange update (perm.mem_iff.mp member)
  simp only [exhausted_perm perm, spared_perm perm] at other
  obtain ⟨contradicts, exhausted⟩ | ⟨⟨changed, done⟩, left, kept⟩ := given
  · have contradicts' := (other.resolve_right fun fine => fine.2.1 exhausted).1
    exact ⟨.inl ⟨contradicts, contradicts'⟩, iff_of_true contradicts exhausted⟩
  · obtain ⟨done', _, kept'⟩ := other.resolve_left fun failed => left failed.2
    refine ⟨.inr ⟨⟨changed, done⟩, done', fun v => ⟨kept v, kept' v⟩⟩, iff_of_false ?_ left⟩
    rintro ⟨cause, contradicts⟩
    exact nomatch done.symm.trans contradicts

/-- Updates that overlap leave the same in reverse. Of two that contradict, one for a given and the other for
a domain that runs empty, only the first is met. -/
theorem applyUpdates_perm_reverse :
    let s := (State.blank 2 3).perform (.lock 0 1)
    let overlapping : List Update := [⟨1, [0]⟩, ⟨1, [0, 1]⟩, ⟨0, [2]⟩, ⟨1, [0]⟩]
    let opposing : List Update := [⟨0, [1]⟩, ⟨1, [0, 1, 2]⟩]
    (s.applyUpdates overlapping.reverse).1.candidates 1 = [2] ∧
      (∃ cause, (s.applyUpdates opposing.reverse).2 = .error (.contradiction cause)) ∧
      (s.applyUpdates opposing).2 ≠ (s.applyUpdates opposing.reverse).2 := by
  intro s overlapping opposing
  have reachable : s.Reachable := ⟨2, 3, _, rfl, .perform (.lock 0 1) .refl⟩
  have inRange (updates : List Update)
      (known : ∀ update ∈ updates, update.var.toNat < 2 ∧ update.var = update.var.toNat ∧
        ∀ x ∈ update.removed, x.toNat < 3 ∧ x = x.toNat) : ∀ update ∈ updates, update.InRange s.frame := by
    intro update member
    obtain ⟨inside, var, values⟩ := known update member
    exact ⟨⟨_, inside, var⟩, fun x listed => ⟨_, values x listed⟩⟩
  have merged := applyUpdates_perm reachable (inRange overlapping (by decide)) (List.reverse_perm overlapping)
  have refused := applyUpdates_perm reachable (inRange opposing (by decide)) (List.reverse_perm opposing)
  have exhausted : s.Exhausted opposing := ⟨0, by decide, by decide⟩
  refine ⟨?_, ?_, by decide⟩
  · have done : (s.applyUpdates overlapping).2 = .ok 2 := by decide
    obtain ⟨⟨cause, failed⟩, _⟩ | ⟨_, _, kept⟩ := merged.1
    · exact nomatch done.symm.trans failed
    · exact (kept 1).2.trans (by decide)
  · obtain ⟨_, again⟩ | ⟨⟨changed, done⟩, _, _⟩ := refused.1
    · exact again
    · obtain ⟨cause, failed⟩ := refused.2.mpr exhausted
      exact nomatch done.symm.trans failed

end State

end PencilPuzzle
