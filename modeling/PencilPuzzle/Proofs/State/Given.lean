import PencilPuzzle.Proofs.State.Operation

/-!
# How far a given is given

A given is meant to be there for the lifetime of the state. Almost every operation keeps to it: what
would take the value of a given away is a contradiction, its domain cannot be chosen again, and going
back restores nothing of it, as no change of it was recorded. The exception is `lock`. It asks whether
anything is on record, but not, as `chooseDomain` does, whether the variable is locked. So as long as no
change was made, or when all were taken back, a second `lock` puts another value in the place of the
first.
-/

namespace PencilPuzzle.State

variable {s t : State} {v x : Nat}

def outcome (state : State) : Operation → Except Fault Unit
  | .lock reference value => (state.lock reference value).map fun _ => ()
  | .chooseDomain reference references => (state.chooseDomain reference references).map fun _ => ()
  | .addConstraint key references => (state.addConstraint key references).map fun _ => ()
  | .remove reference references => (state.remove reference references).map fun _ => ()
  | .restrict reference references => (state.restrict reference references).map fun _ => ()
  | .assign reference value => (state.assign reference value).map fun _ => ()
  | .applyUpdates updates => (state.applyUpdates updates).2.map fun _ => ()
  | .undo _ => .ok ()

/-- An operation that, if it did what it says, would leave a variable without a value it has, or with its
domain chosen anew. -/
def Operation.Opposes (v x : Nat) : Operation → Prop
  | .lock reference value => reference = v ∧ value ≠ x
  | .chooseDomain reference _ => reference = v
  | .remove reference references => reference = v ∧ (x : Int) ∈ references
  | .restrict reference references => reference = v ∧ (x : Int) ∉ references
  | .assign reference value => reference = v ∧ value ≠ x
  | .applyUpdates updates => ∃ update ∈ updates, update.var = v ∧ (x : Int) ∈ update.removed
  | .addConstraint .. | .undo _ => False

/-- A variable is locked to a value, and no change of it is on record. -/
structure Fixed (v x : Nat) (state : State) : Prop where
  locked : state.isLocked v = true
  alone : state.candidates v = [x]
  untouched : ∀ change ∈ state.trail, change.var ≠ v

private theorem fixed_given (inside : v < s.count) (bound : x < s.size) (fresh : s.trail = []) :
    (s.given v x).Fixed v x where
  locked := by rw [isLocked_given inside, if_pos rfl]
  alone := by rw [candidates_given inside bound, if_pos rfl]
  untouched change recorded := absurd (fresh ▸ recorded : change ∈ []) List.not_mem_nil

namespace Fixed

theorem value? (fixed : s.Fixed v x) : s.value? v = some x := Domain.value?_eq_some.mpr fixed.alone

private theorem lt_count (fixed : s.Fixed v x) : v < s.count := by
  have present : x ∈ s.candidates v := fixed.alone ▸ List.mem_singleton_self x
  exact lt_count_of_mem_domain present

private theorem ne_of_unlocked {w : Nat} (fixed : s.Fixed v x) (unlocked : s.isLocked w = false) :
    v ≠ w := by
  rintro rfl
  exact Bool.false_ne_true (unlocked.symm.trans fixed.locked)

/-! ### What an operation does to a given -/

theorem narrow {w : Nat} {test : Nat → Bool} {flag : Bool} (fixed : s.Fixed v x)
    (h : s.narrow w test = .ok (t, flag)) : t.Fixed v x := by
  cases flag with
  | false =>
    obtain ⟨rfl, _⟩ := narrow_eq_false h
    exact fixed
  | true =>
    have locks := isLocked_narrow h
    obtain ⟨unlocked, ⟨y, present, _⟩, rfl⟩ := narrow_eq_true h
    have other := fixed.ne_of_unlocked unlocked
    refine ⟨(locks v).trans fixed.locked, ?_, fun change recorded => ?_⟩
    · rw [candidates_change (lt_count_of_mem_domain present), if_neg other]
      exact fixed.alone
    · rcases List.mem_cons.mp recorded with rfl | older
      · exact other.symm
      · exact fixed.untouched change older

theorem of_narrowsTo (fixed : s.Fixed v x) (h : s.NarrowsTo t) : t.Fixed v x := by
  induction h with
  | refl => exact fixed
  | step _ change ih => exact ih.narrow change

theorem rewind (fixed : s.Fixed v x) (steps : Nat) : (s.rewind steps).Fixed v x := by
  refine rewind_keeps (fun s change older recorded fixed => ?_) fixed steps
  have other := fixed.untouched change (recorded ▸ List.mem_cons_self ..)
  refine ⟨?_, ?_, fun earlier member => ?_⟩
  · exact (s.isLocked_restored change older v).trans fixed.locked
  · exact (s.candidates_restored_of_ne change older other.symm).trans fixed.alone
  · exact fixed.untouched earlier (recorded ▸ List.mem_cons_of_mem change member)

theorem chooseDomain {reference : Int} {references : List Int} (fixed : s.Fixed v x)
    (h : s.chooseDomain reference references = .ok t) : t.Fixed v x := by
  obtain ⟨w, chosen, _, _, unlocked, _, rfl⟩ := chooseDomain_eq_ok h
  have other := fixed.ne_of_unlocked unlocked
  exact ⟨(isLocked_setDomain ..).trans fixed.locked, (candidates_setDomain_of_ne other _).trans fixed.alone,
    fixed.untouched⟩

theorem addConstraint {key : Key} {references : List Int} (fixed : s.Fixed v x)
    (h : s.addConstraint key references = .ok t) : t.Fixed v x := by
  obtain ⟨linked, _, _, rfl⟩ := addConstraint_eq_ok h
  exact ⟨(isLocked_mk ..).trans fixed.locked, (candidates_mk ..).trans fixed.alone, fixed.untouched⟩

/-- A given stays locked to its value, unless it is locked again with nothing on record. -/
theorem perform (fixed : s.Fixed v x) (operation : Operation) :
    (s.perform operation).Fixed v x ∨
      ∃ y : Nat, operation = .lock v y ∧ s.trail = [] ∧ y < s.size ∧ (s.perform operation).Fixed v y := by
  cases operation with
  | lock reference value =>
    cases done : s.lock reference value with
    | error fault =>
      rw [State.perform, done]
      exact .inl fixed
    | ok t =>
      obtain ⟨w, y, ⟨rfl, inside⟩, ⟨rfl, bound⟩, fresh, rfl⟩ := lock_eq_ok.mp done
      rw [State.perform, done]
      by_cases same : v = w
      · subst same
        exact .inr ⟨y, rfl, fresh, bound, fixed_given inside bound fresh⟩
      · refine .inl ⟨?_, ?_, fixed.untouched⟩
        · exact (isLocked_given inside y v).trans ((if_neg same).trans fixed.locked)
        · exact (candidates_given inside bound v).trans ((if_neg same).trans fixed.alone)
  | chooseDomain reference references => exact .inl (orUnchanged_of fixed fun _ => fixed.chooseDomain)
  | addConstraint key references => exact .inl (orUnchanged_of fixed fun _ => fixed.addConstraint)
  | remove | restrict | assign | applyUpdates => exact .inl (fixed.of_narrowsTo (narrowsTo_perform rfl s))
  | undo mark => exact .inl (fixed.rewind _)

private theorem perform_lock {y : Nat} (fixed : s.Fixed v x) (fresh : s.trail = []) (bound : y < s.size) :
    (s.perform (.lock v y)).Fixed v y := by
  have done : s.lock v y = .ok (s.given v y) :=
    lock_eq_ok.mpr ⟨v, y, ⟨rfl, fixed.lt_count⟩, ⟨rfl, bound⟩, fresh, rfl⟩
  rw [State.perform, done]
  exact fixed_given fixed.lt_count bound fresh

theorem performAll (fixed : s.Fixed v x) (operations : List Operation) :
    ∃ y, (s.performAll operations).Fixed v y := by
  induction operations generalizing s x with
  | nil => exact ⟨x, fixed⟩
  | cons operation rest ih =>
    obtain kept | ⟨y, _, _, _, changed⟩ := fixed.perform operation
    · exact ih kept
    · exact ih changed

/-! ### What a given refuses -/

theorem passes {test : Nat → Bool} {result : State × Bool} (fixed : s.Fixed v x)
    (h : s.narrow v test = .ok result) : test x = true := by
  have listed : x ∈ s.candidates v := fixed.alone ▸ List.mem_singleton_self x
  have present : x ∈ s.domain v := listed
  obtain ⟨t, flag⟩ := result
  cases flag with
  | false => exact (narrow_eq_false h).2 x present
  | true => exact absurd rfl (fixed.ne_of_unlocked (narrow_eq_true h).1)

private theorem not_mem_of_remove {references : List Int} {result : State × Bool} (fixed : s.Fixed v x)
    (h : s.remove v references = .ok result) : (x : Int) ∉ references := by
  obtain ⟨w, struck, var, values, narrowed⟩ := remove_eq_ok h
  obtain rfl := eq_of_checkVar var
  rw [mem_of_checkValues values]
  exact of_decide_eq_true (fixed.passes narrowed)

private theorem not_mem_of_applyUpdates {updates : List Update} {changed : Nat} (fixed : s.Fixed v x)
    (h : (s.applyUpdates updates).2 = .ok changed) :
    ∀ update ∈ updates, update.var = v → (x : Int) ∉ update.removed := by
  induction updates generalizing s changed with
  | nil => exact fun update none => absurd none List.not_mem_nil
  | cons first rest ih =>
    obtain ⟨t, flag, left, done, _, later, _⟩ := applyUpdates_cons_eq_ok h
    have here (same : first.var = v) : (x : Int) ∉ first.removed := fixed.not_mem_of_remove (same ▸ done)
    exact List.forall_mem_cons.mpr ⟨here, ih (fixed.of_narrowsTo (NarrowsTo.of_remove done)) later⟩

/-- What would take the value of a given fails, save locking it again with nothing on record. -/
theorem refuses {operation : Operation} (fixed : s.Fixed v x) (opposes : operation.Opposes v x) :
    (∃ fault, s.outcome operation = .error fault) ∨
      ∃ y : Nat, operation = .lock v y ∧ s.trail = [] ∧ y < s.size := by
  cases result : s.outcome operation with
  | error fault => exact .inl ⟨fault, rfl⟩
  | ok done =>
    right
    cases operation with
    | lock reference value =>
      obtain ⟨t, locked, _⟩ := map_eq_ok.mp result
      obtain ⟨w, y, ⟨rfl, _⟩, ⟨rfl, bound⟩, fresh, _⟩ := lock_eq_ok.mp locked
      exact ⟨y, by rw [opposes.1], fresh, bound⟩
    | chooseDomain reference references =>
      obtain ⟨t, chosen, _⟩ := map_eq_ok.mp result
      obtain ⟨w, _, var, _, unlocked, _⟩ := chooseDomain_eq_ok chosen
      rw [opposes] at var
      exact absurd (eq_of_checkVar var) (fixed.ne_of_unlocked unlocked)
    | addConstraint | undo => exact opposes.elim
    | remove reference references =>
      obtain ⟨narrowed, removed, _⟩ := map_eq_ok.mp result
      obtain ⟨rfl, member⟩ := opposes
      exact absurd member (fixed.not_mem_of_remove removed)
    | restrict reference references =>
      obtain ⟨narrowed, restricted, _⟩ := map_eq_ok.mp result
      obtain ⟨rfl, missing⟩ := opposes
      obtain ⟨w, kept, var, values, narrowed⟩ := restrict_eq_ok restricted
      obtain rfl := eq_of_checkVar var
      have listed : x ∈ kept := of_decide_eq_true (fixed.passes narrowed)
      exact absurd ((mem_of_checkValues values).mpr listed) missing
    | assign reference value =>
      obtain ⟨narrowed, assigned, _⟩ := map_eq_ok.mp result
      obtain ⟨rfl, other⟩ := opposes
      obtain ⟨w, y, var, val, candidate, _⟩ := assign_eq_ok assigned
      obtain rfl := eq_of_checkVar var
      have listed : y ∈ s.candidates v := candidate
      rw [fixed.alone, List.mem_singleton] at listed
      exact absurd ((checkValue_eq_ok.mp val).1.trans (congrArg Nat.cast listed)) other
    | applyUpdates updates =>
      obtain ⟨changed, applied, _⟩ := map_eq_ok.mp result
      obtain ⟨update, listed, same, member⟩ := opposes
      exact absurd member (fixed.not_mem_of_applyUpdates applied update listed same)

end Fixed

/-! ### Runs -/

/-- A given keeps its value throughout a run exactly when it is never locked to another one with nothing on
record. It is locked in any case, and what would take the value that it has fails, save that one kind of
call. -/
theorem given_stays_iff (locked : s.lock v x = .ok t) (operations : List Operation) :
    let reached (made : Nat) := t.performAll (operations.take made)
    ((∀ made, (reached made).value? v = some x ∧ (reached made).isLocked v = true) ↔
        ∀ made (y : Nat), operations[made]? = some (.lock v y) → (reached made).trail = [] →
          y < (reached made).size → y = x) ∧
      ∀ made, (reached made).isLocked v = true ∧ ∃ y, (reached made).value? v = some y ∧
        ∀ operation : Operation, operation.Opposes v y →
          (∃ fault, (reached made).outcome operation = .error fault) ∨
            ∃ z : Nat, operation = .lock v z ∧ (reached made).trail = [] ∧ z < (reached made).size := by
  intro reached
  obtain ⟨w, y, ⟨same, inside⟩, ⟨same', bound⟩, fresh, rfl⟩ := lock_eq_ok.mp locked
  cases Int.ofNat.inj same
  cases Int.ofNat.inj same'
  have start : (s.given v x).Fixed v x := fixed_given inside bound fresh
  have next {made : Nat} {operation : Operation} (now : operations[made]? = some operation) :
      reached (made + 1) = (reached made).perform operation := by
    obtain ⟨short, rfl⟩ := List.getElem?_eq_some_iff.mp now
    simp only [reached, State.performAll, List.take_succ_eq_append_getElem short, List.foldl_append]
    rfl
  refine ⟨⟨fun stays made y now fresh bound => ?_, fun spared made => ?_⟩, fun made => ?_⟩
  · obtain ⟨z, fixed⟩ := start.performAll (operations.take made)
    have changed := fixed.perform_lock fresh bound
    have value := (stays (made + 1)).1
    rw [next now, changed.value?] at value
    exact Option.some.inj value
  · suffices fixed : (reached made).Fixed v x from ⟨fixed.value?, fixed.locked⟩
    induction made with
    | zero => exact start
    | succ made ih =>
      cases now : operations[made]? with
      | none =>
        have all : operations.length ≤ made := List.getElem?_eq_none_iff.mp now
        have same : operations.take (made + 1) = operations.take made := by
          rw [List.take_of_length_le all, List.take_of_length_le (Nat.le_succ_of_le all)]
        simp only [reached, same]
        exact ih
      | some operation =>
        rw [next now]
        obtain kept | ⟨y, rfl, fresh, bound, changed⟩ := ih.perform operation
        · exact kept
        · exact spared made y now fresh bound ▸ changed
  · obtain ⟨y, fixed⟩ := start.performAll (operations.take made)
    exact ⟨fixed.locked, y, fixed.value?, fun operation => fixed.refuses⟩

/-- Once the only change is taken back, the given can be locked to another value. -/
theorem given_stays_iff_undone :
    let first := (State.blank 2 2).given 0 0
    let operations : List Operation :=
      [.remove 1 [0], .lock 0 1, .remove 0 [0], .undo 0, .lock 0 1]
    let reached (made : Nat) := first.performAll (operations.take made)
    (State.blank 2 2).lock 0 0 = .ok first ∧ (reached 4).value? 0 = some 0 ∧ (reached 5).value? 0 = some 1 ∧
      ¬ ∀ made (y : Nat), operations[made]? = some (.lock 0 y) → (reached made).trail = [] →
        y < (reached made).size → y = 0 := by
  intro first operations reached
  have locked : (State.blank 2 2).lock (0 : Nat) (0 : Nat) = .ok first := rfl
  have before : (reached 4).value? 0 = some 0 := by decide
  have after : (reached 5).value? 0 = some 1 := by decide
  refine ⟨locked, before, after, fun spared => ?_⟩
  have kept := ((given_stays_iff locked operations).1.mpr spared 5).1
  exact absurd (after.symm.trans kept) (by decide)

theorem not_given_stays :
    ¬ ∀ (s t : State) (v x : Nat) (operations : List Operation), s.Reachable → s.lock v x = .ok t →
      (t.performAll operations).value? v = some x ∧ (t.performAll operations).isLocked v = true := by
  intro stays
  have fresh : (State.blank 1 2).Reachable := ⟨1, 2, State.blank 1 2, rfl, .refl⟩
  have kept := (stays (State.blank 1 2) ((State.blank 1 2).given 0 0) 0 0 [.lock 0 1] fresh rfl).1
  exact absurd kept (by decide)

end PencilPuzzle.State
