import PencilPuzzle.Proofs.State.Narrowing
import PencilPuzzle.Rule
import PencilPuzzle.State.Constraint

/-!
# Operations on a state

Every operation a caller may perform, and the states that can be reached with them. The operations
of the solving phase all come down to narrowing one domain after checking what they are given, so
each is opened once, into that narrowing. What holds in every reachable state is shown operation by
operation: here, that a given has one value and that no change of a given is ever recorded.
-/

namespace PencilPuzzle

variable {α β : Type}

theorem bind_eq_ok {first : Except Fault α} {second : α → Except Fault β} {b : β} :
    first >>= second = .ok b ↔ ∃ a, first = .ok a ∧ second a = .ok b := by
  cases first <;> simp [bind, Except.bind]

theorem map_eq_ok {result : Except Fault α} {f : α → β} {b : β} :
    result.map f = .ok b ↔ ∃ a, result = .ok a ∧ f a = b := by
  cases result <;> simp [Except.map]

/-- A computation that fails only with faults of one kind. -/
def FailsOnly (kind : Fault → Prop) (result : Except Fault α) : Prop :=
  ∀ fault, result = .error fault → kind fault

namespace FailsOnly

variable {kind : Fault → Prop} {result : Except Fault α}

theorem ok {a : α} : FailsOnly kind (.ok a : Except Fault α) := fun _ h => nomatch h

theorem error {fault : Fault} (h : kind fault) : FailsOnly kind (.error fault : Except Fault α) :=
  fun _ same => Except.error.inj same ▸ h

theorem pass {fault : Fault} (h : FailsOnly kind result) (failed : result = .error fault) :
    FailsOnly kind (.error fault : Except Fault β) :=
  error (h fault failed)

theorem map {f : α → β} (h : FailsOnly kind result) : FailsOnly kind (result.map f) := by
  cases result with
  | error fault => exact h.pass rfl
  | ok a => exact ok

theorem bind {next : α → Except Fault β} (h : FailsOnly kind result)
    (later : ∀ a, result = .ok a → FailsOnly kind (next a)) : FailsOnly kind (result >>= next) := by
  cases result with
  | error fault => exact h.pass rfl
  | ok a => exact later a rfl

end FailsOnly

abbrev NoContradiction (result : Except Fault α) : Prop :=
  FailsOnly (fun fault => ∀ cause, fault ≠ .contradiction cause) result

abbrev OnlyContradicts (result : Except Fault α) : Prop :=
  FailsOnly (fun fault => ∃ cause, fault = .contradiction cause) result

/-- Either a result, a contradiction or a fault of one kind. -/
abbrev ContradictsOr (kind : Fault → Prop) (result : Except Fault α) : Prop :=
  FailsOnly (fun fault => kind fault ∨ ∃ cause, fault = .contradiction cause) result

namespace State

variable {s t : State}

/-! ### Opening the operations -/

theorem checkVar_eq_ok {reference : Int} {v : Nat} :
    s.checkVar reference = .ok v ↔ reference = v ∧ v < s.count := by
  unfold checkVar
  split
  next inside =>
    simp only [Except.ok.injEq]
    omega
  next outside =>
    simp only [reduceCtorEq, false_iff]
    omega

theorem checkValue_eq_ok {reference : Int} {x : Nat} :
    s.checkValue reference = .ok x ↔ reference = x ∧ x < s.size := by
  unfold checkValue
  split
  next inside =>
    simp only [Except.ok.injEq]
    omega
  next outside =>
    simp only [reduceCtorEq, false_iff]
    omega

theorem checkVar_eq_error {reference : Int} {fault : Fault}
    (h : s.checkVar reference = .error fault) :
    fault = .state (.unknownVariable reference s.count) := by
  unfold checkVar at h
  split at h
  · simp at h
  · exact (Except.error.inj h).symm

theorem checkValues_eq_error {references : List Int} {fault : Fault}
    (h : s.checkValues references = .error fault) :
    ∃ reference, fault = .state (.unknownValue reference s.size) := by
  induction references with
  | nil => simp [checkValues] at h
  | cons reference rest ih =>
    unfold checkValues at h
    cases here : s.checkValue reference with
    | error first =>
      rw [here] at h
      unfold checkValue at here
      split at here
      · simp at here
      · exact ⟨reference, (Except.error.inj h).symm.trans (Except.error.inj here).symm⟩
    | ok x =>
      rw [here] at h
      cases later : s.checkValues rest with
      | error second =>
        rw [later] at h
        exact ih (later.trans (congrArg _ (Except.error.inj h)))
      | ok xs =>
        rw [later] at h
        cases h

theorem checkValues_eq_ok {references : List Int} {xs : List Nat}
    (h : s.checkValues references = .ok xs) : references = xs.map Int.ofNat ∧ ∀ x ∈ xs, x < s.size := by
  induction references generalizing xs with
  | nil =>
    cases h
    simp
  | cons reference rest ih =>
    obtain ⟨first, here, h⟩ := bind_eq_ok.mp h
    obtain ⟨others, later, h⟩ := bind_eq_ok.mp h
    cases h
    obtain ⟨rfl, inside⟩ := checkValue_eq_ok.mp here
    obtain ⟨rfl, bounded⟩ := ih later
    exact ⟨rfl, List.forall_mem_cons.mpr ⟨inside, bounded⟩⟩

theorem eq_of_checkVar {v w : Nat} (h : s.checkVar v = .ok w) : v = w :=
  Int.ofNat.inj (checkVar_eq_ok.mp h).1

theorem mem_of_checkValues {references : List Int} {xs : List Nat} (h : s.checkValues references = .ok xs)
    {x : Nat} : (x : Int) ∈ references ↔ x ∈ xs := by
  rw [(checkValues_eq_ok h).1]
  exact List.mem_map_of_injective fun _ _ => Int.ofNat.inj

theorem checkVars_eq_ok {references : List Int} {vars : List Nat}
    (h : s.checkVars references = .ok vars) :
    references = vars.map Int.ofNat ∧ ∀ v ∈ vars, v < s.count := by
  induction references generalizing vars with
  | nil =>
    cases h
    simp
  | cons reference rest ih =>
    obtain ⟨v, here, h⟩ := bind_eq_ok.mp h
    obtain ⟨others, later, h⟩ := bind_eq_ok.mp h
    cases h
    obtain ⟨rfl, inside⟩ := checkVar_eq_ok.mp here
    obtain ⟨rfl, bounded⟩ := ih later
    exact ⟨rfl, List.forall_mem_cons.mpr ⟨inside, bounded⟩⟩

theorem checkVars_natCast {vars : List Nat} (inside : ∀ v ∈ vars, v < s.count) :
    s.checkVars (vars.map Int.ofNat) = .ok vars := by
  induction vars with
  | nil => rfl
  | cons v rest ih =>
    obtain ⟨here, inside⟩ := List.forall_mem_cons.mp inside
    have found : s.checkVar (Int.ofNat v) = .ok v := checkVar_eq_ok.mpr ⟨rfl, here⟩
    rw [List.map_cons, checkVars, found, ih inside]
    rfl

theorem addConstraints_natCast (s : State) {entries : List (Key × List Nat)}
    (distinct : ((s.constraints ++ entries).map Prod.fst).Nodup)
    (inside : ∀ entry ∈ entries, ∀ v ∈ entry.2, v < s.count) :
    s.addConstraints (entries.map fun entry => (entry.1, entry.2.map Int.ofNat)) =
      .ok { s with constraints := s.constraints ++ entries } := by
  induction entries generalizing s with
  | nil => rw [List.append_nil, List.map_nil, addConstraints]
  | cons entry rest ih =>
    obtain ⟨key, linked⟩ := entry
    obtain ⟨here, others⟩ := List.forall_mem_cons.mp inside
    have new : key ∉ s.constraintKeys := by
      intro taken
      rw [List.map_append, List.nodup_append] at distinct
      exact distinct.2.2 key taken key (List.mem_cons_self ..) rfl
    have added : s.addConstraint key (linked.map Int.ofNat) =
        .ok { s with constraints := s.constraints ++ [(key, linked)] } := by
      rw [addConstraint, if_neg new, checkVars_natCast here]
      rfl
    have later := ih { s with constraints := s.constraints ++ [(key, linked)] }
      (by simpa using distinct) others
    rw [List.map_cons, addConstraints, added]
    refine later.trans ?_
    simp only [List.append_assoc, List.singleton_append]

theorem remove_eq_ok {reference : Int} {references : List Int} {result : State × Bool}
    (h : s.remove reference references = .ok result) :
    ∃ v struck, s.checkVar reference = .ok v ∧ s.checkValues references = .ok struck ∧
      s.narrow v (· ∉ struck) = .ok result := by
  obtain ⟨v, var, h⟩ := bind_eq_ok.mp h
  obtain ⟨struck, values, h⟩ := bind_eq_ok.mp h
  exact ⟨v, struck, var, values, h⟩

theorem restrict_eq_ok {reference : Int} {references : List Int} {result : State × Bool}
    (h : s.restrict reference references = .ok result) :
    ∃ v kept, s.checkVar reference = .ok v ∧ s.checkValues references = .ok kept ∧
      s.narrow v (· ∈ kept) = .ok result := by
  obtain ⟨_, _, h⟩ := bind_eq_ok.mp h
  obtain ⟨kept, values, h⟩ := bind_eq_ok.mp h
  obtain ⟨v, var, h⟩ := bind_eq_ok.mp h
  exact ⟨v, kept, var, values, h⟩

theorem assign_eq_ok {reference value : Int} {result : State × Bool}
    (h : s.assign reference value = .ok result) :
    ∃ v x, s.checkVar reference = .ok v ∧ s.checkValue value = .ok x ∧ x ∈ s.domain v ∧
      s.narrow v (· = x) = .ok result := by
  obtain ⟨v, var, h⟩ := bind_eq_ok.mp h
  obtain ⟨x, val, h⟩ := bind_eq_ok.mp h
  split at h
  next candidate => exact ⟨v, x, var, val, of_decide_eq_true candidate, h⟩
  next => simp at h

theorem chooseDomain_eq_ok {reference : Int} {references : List Int}
    (h : s.chooseDomain reference references = .ok t) :
    ∃ v chosen, s.checkVar reference = .ok v ∧ s.trail = [] ∧ s.isLocked v = false ∧
      s.checkValues references = .ok chosen ∧
      t = s.setDomain v (Domain.select s.size (· ∈ chosen)) := by
  obtain ⟨v, var, h⟩ := bind_eq_ok.mp h
  split at h
  next => exact nomatch h
  next fresh =>
    split at h
    next => exact nomatch h
    next unlocked =>
      obtain ⟨chosen, values, h⟩ := bind_eq_ok.mp h
      exact ⟨v, chosen, var, not_not.mp fresh, Bool.eq_false_iff.mpr unlocked, values,
        (Except.ok.inj h).symm⟩

theorem addConstraint_eq_ok {key : Key} {references : List Int}
    (h : s.addConstraint key references = .ok t) :
    ∃ linked, key ∉ s.constraintKeys ∧ s.checkVars references = .ok linked ∧
      t = { s with constraints := s.constraints ++ [(key, linked)] } := by
  unfold addConstraint at h
  split at h
  next => exact nomatch h
  next new =>
    obtain ⟨linked, vars, h⟩ := bind_eq_ok.mp h
    exact ⟨linked, new, vars, (Except.ok.inj h).symm⟩

/-! ### Givens -/

def given (state : State) (v x : Nat) : State :=
  { state with slots := state.slots.setIfInBounds v ⟨Domain.select state.size (· = x), true⟩ }

theorem lock_eq_ok {reference value : Int} : s.lock reference value = .ok t ↔
    ∃ v x : Nat, (reference = v ∧ v < s.count) ∧ (value = x ∧ x < s.size) ∧ s.trail = [] ∧
      s.given v x = t := by
  simp only [lock, bind_eq_ok, checkVar_eq_ok, checkValue_eq_ok]
  refine exists_congr fun v => ?_
  rw [← exists_and_left]
  refine exists_congr fun x => and_congr_right fun _ => and_congr_right fun _ => ?_
  by_cases fresh : s.trail = []
  · simp [fresh, given]
  · simp [fresh]

theorem frame_given (s : State) (v x : Nat) : (s.given v x).frame = s.frame := by
  simp [frame, given, count]

theorem isLocked_given {v : Nat} (inside : v < s.count) (x w : Nat) :
    (s.given v x).isLocked w = if w = v then true else s.isLocked w := by
  have bound : v < s.slots.size := inside
  rw [isLocked_eq, isLocked_eq, given, Array.getElem?_setIfInBounds]
  by_cases same : w = v
  · subst same
    simp [bound]
  · simp [same, Ne.symm same]

theorem candidates_given {v x : Nat} (inside : v < s.count) (value : x < s.size) (w : Nat) :
    (s.given v x).candidates w = if w = v then [x] else s.candidates w := by
  have bound : v < s.slots.size := inside
  have alone : (List.range s.size).filter (· = x) = [x] := by
    rw [List.filter_eq, List.count_range, if_pos value, List.replicate_one]
  rw [candidates_eq, candidates_eq, given, Array.getElem?_setIfInBounds]
  by_cases same : w = v
  · subst same
    simp [bound, Domain.select, alone]
  · simp [same, Ne.symm same]

/-! ### Changes -/

theorem NarrowsTo.of_narrow {v : Nat} {test : Nat → Bool} {flag : Bool}
    (h : s.narrow v test = .ok (t, flag)) : s.NarrowsTo t := by
  cases flag with
  | true => exact NarrowsTo.refl.step h
  | false =>
    obtain ⟨rfl, _⟩ := narrow_eq_false h
    exact NarrowsTo.refl

theorem NarrowsTo.of_remove {reference : Int} {references : List Int} {flag : Bool}
    (h : s.remove reference references = .ok (t, flag)) : s.NarrowsTo t := by
  obtain ⟨_, _, _, _, h⟩ := remove_eq_ok h
  exact of_narrow h

private theorem NarrowsTo.of_restrict {reference : Int} {references : List Int} {flag : Bool}
    (h : s.restrict reference references = .ok (t, flag)) : s.NarrowsTo t := by
  obtain ⟨_, _, _, _, h⟩ := restrict_eq_ok h
  exact of_narrow h

theorem NarrowsTo.of_assign {reference value : Int} {flag : Bool}
    (h : s.assign reference value = .ok (t, flag)) : s.NarrowsTo t := by
  obtain ⟨_, _, _, _, _, h⟩ := assign_eq_ok h
  exact of_narrow h

/-! ### Updates -/

theorem eq_of_remove_false {reference : Int} {references : List Int}
    (h : s.remove reference references = .ok (t, false)) : t = s := by
  obtain ⟨_, _, _, _, narrowed⟩ := remove_eq_ok h
  exact (narrow_eq_false narrowed).1

/-- What the first of several updates does: it fails, it empties a domain, or it leaves something of every
variable and the others follow. -/
theorem applyUpdates_cons (s : State) (update : Update) (rest : List Update) :
    (∃ fault, s.remove update.var update.removed = .error fault ∧
        s.applyUpdates (update :: rest) = (s, .error fault)) ∨
      (∃ t v, s.remove update.var update.removed = .ok (t, true) ∧ s.candidates v ≠ [] ∧
        t.candidates v = [] ∧
        s.applyUpdates (update :: rest) = (t, .error (.contradiction (.domainEmptied v)))) ∨
      ∃ t flag, s.remove update.var update.removed = .ok (t, flag) ∧
        (∀ v, s.candidates v ≠ [] → t.candidates v ≠ []) ∧
        s.applyUpdates (update :: rest) =
          ((t.applyUpdates rest).1, (t.applyUpdates rest).2.map (· + flag.toNat)) := by
  cases removed : s.remove update.var update.removed with
  | error fault =>
    refine .inl ⟨fault, rfl, ?_⟩
    rw [applyUpdates, removed]
  | ok result =>
    obtain ⟨t, flag⟩ := result
    cases flag with
    | false =>
      obtain rfl := eq_of_remove_false removed
      refine .inr (.inr ⟨t, false, rfl, fun _ some => some, ?_⟩)
      rw [applyUpdates, removed]
      refine Prod.ext rfl ?_
      show (t.applyUpdates rest).2 = (t.applyUpdates rest).2.map (· + 0)
      cases (t.applyUpdates rest).2 <;> rfl
    | true =>
      obtain ⟨v, _, var, _, narrowed⟩ := remove_eq_ok removed
      have named := (checkVar_eq_ok.mp var).1
      have number : update.var.toNat = v := by omega
      by_cases empty : (t.domain v).isEmpty = true
      · obtain ⟨_, ⟨x, present, _⟩, _⟩ := narrow_eq_true narrowed
        refine .inr (.inl ⟨t, v, rfl, List.ne_nil_of_mem present, List.isEmpty_iff.mp empty, ?_⟩)
        simp only [applyUpdates, removed, number, empty, if_true]
      · refine .inr (.inr ⟨t, true, rfl, fun w some none => ?_, ?_⟩)
        · by_cases same : w = v
          · exact empty (List.isEmpty_iff.mpr (same ▸ none))
          · rw [candidates_narrow narrowed, if_neg same] at none
            exact some none
        · simp [applyUpdates, removed, number, empty]

theorem applyUpdates_cons_eq_ok {update : Update} {rest : List Update} {changed : Nat}
    (h : (s.applyUpdates (update :: rest)).2 = .ok changed) :
    ∃ t flag later, s.remove update.var update.removed = .ok (t, flag) ∧
      (∀ v, s.candidates v ≠ [] → t.candidates v ≠ []) ∧
      (t.applyUpdates rest).2 = .ok later ∧ later + flag.toNat = changed ∧
      (s.applyUpdates (update :: rest)).1 = (t.applyUpdates rest).1 := by
  obtain ⟨_, _, applied⟩ | ⟨_, _, _, _, _, applied⟩ | ⟨t, flag, removed, left, applied⟩ :=
    applyUpdates_cons s update rest
  · rw [applied] at h
    exact nomatch h
  · rw [applied] at h
    exact nomatch h
  · rw [applied] at h ⊢
    obtain ⟨later, done, counted⟩ := map_eq_ok.mp h
    exact ⟨t, flag, later, removed, left, done, counted, rfl⟩

theorem narrowsTo_applyUpdates (s : State) (updates : List Update) :
    s.NarrowsTo (s.applyUpdates updates).1 := by
  induction updates generalizing s with
  | nil => exact NarrowsTo.refl
  | cons update rest ih =>
    obtain ⟨_, _, applied⟩ | ⟨t, _, removed, _, _, applied⟩ | ⟨t, _, removed, _, applied⟩ :=
      applyUpdates_cons s update rest
    · rw [applied]
      exact NarrowsTo.refl
    · rw [applied]
      exact NarrowsTo.of_remove removed
    · rw [applied]
      exact (NarrowsTo.of_remove removed).trans (ih t)

/-! ### Runs of operations -/

/-- What a caller may do to a state. Taking a mark changes nothing and is not listed. -/
inductive Operation where
  | lock (reference value : Int)
  | chooseDomain (reference : Int) (references : List Int)
  | addConstraint (key : Key) (references : List Int)
  | remove (reference : Int) (references : List Int)
  | restrict (reference : Int) (references : List Int)
  | assign (reference value : Int)
  | applyUpdates (updates : List Update)
  | undo (mark : Nat)

/-- What a call leaves of a state; one that fails leaves it as it was. -/
def orUnchanged (state : State) (result : Except Fault State) : State :=
  match result with
  | .ok changed => changed
  | .error _ => state

/-- The state after an operation, whether it succeeded or not. -/
def perform (state : State) : Operation → State
  | .lock reference value => state.orUnchanged (state.lock reference value)
  | .chooseDomain reference references =>
    state.orUnchanged (state.chooseDomain reference references)
  | .addConstraint key references => state.orUnchanged (state.addConstraint key references)
  | .remove reference references =>
    state.orUnchanged ((state.remove reference references).map Prod.fst)
  | .restrict reference references =>
    state.orUnchanged ((state.restrict reference references).map Prod.fst)
  | .assign reference value => state.orUnchanged ((state.assign reference value).map Prod.fst)
  | .applyUpdates updates => (state.applyUpdates updates).1
  | .undo mark => state.undo mark

/-- Whether an operation is one of the solving phase, which only take values away. -/
def Operation.narrows : Operation → Bool
  | .remove .. | .restrict .. | .assign .. | .applyUpdates _ => true
  | .lock .. | .chooseDomain .. | .addConstraint .. | .undo _ => false

inductive Reaches (start : State) : State → Prop
  | refl : Reaches start start
  | perform {state : State} (operation : Operation) :
      Reaches start state → Reaches start (state.perform operation)

def performAll (state : State) (operations : List Operation) : State := operations.foldl perform state

theorem Reaches.performAll {start : State} (h : start.Reaches s) (operations : List Operation) :
    start.Reaches (s.performAll operations) := by
  induction operations generalizing s with
  | nil => exact h
  | cons operation rest ih => exact ih (h.perform operation)

def Reachable (state : State) : Prop :=
  ∃ count size start, State.new count size = .ok start ∧ start.Reaches state

/-- A given has one value, and no recorded change is one of a given. -/
structure Settled (state : State) : Prop where
  givens : state.GivensHold
  trail : ∀ change ∈ state.trail, state.isLocked change.var = false

theorem orUnchanged_of {P : State → Prop} {result : Except Fault State} (here : P s)
    (there : ∀ t, result = .ok t → P t) : P (s.orUnchanged result) := by
  cases result with
  | error fault => exact here
  | ok t => exact there t rfl

theorem NarrowsTo.orUnchanged {result : Except Fault (State × Bool)}
    (narrows : ∀ t flag, result = .ok (t, flag) → s.NarrowsTo t) :
    s.NarrowsTo (s.orUnchanged (result.map Prod.fst)) := by
  apply orUnchanged_of NarrowsTo.refl
  intro t done
  obtain ⟨⟨_, flag⟩, succeeded, rfl⟩ := map_eq_ok.mp done
  exact narrows _ flag succeeded

/-- An operation of the solving phase is a chain of changes, also where it fails on the way. -/
theorem narrowsTo_perform {operation : Operation} (narrows : operation.narrows = true) (s : State) :
    s.NarrowsTo (s.perform operation) := by
  cases operation with
  | remove reference references => exact NarrowsTo.orUnchanged fun _ _ => NarrowsTo.of_remove
  | restrict reference references => exact NarrowsTo.orUnchanged fun _ _ => NarrowsTo.of_restrict
  | assign reference value => exact NarrowsTo.orUnchanged fun _ _ => NarrowsTo.of_assign
  | applyUpdates updates => exact narrowsTo_applyUpdates s updates
  | lock | chooseDomain | addConstraint | undo => exact nomatch narrows

/-! ### Changes taken back -/

theorem isLocked_restored (s : State) (change : Change s.size) (older : List (Change s.size)) (w : Nat) :
    State.isLocked { s.setDomain change.var change.before with trail := older } w = s.isLocked w :=
  (isLocked_mk (s.setDomain change.var change.before) ..).trans (isLocked_setDomain ..)

theorem candidates_restored_of_ne (s : State) (change : Change s.size) (older : List (Change s.size))
    {w : Nat} (other : w ≠ change.var) :
    State.candidates { s.setDomain change.var change.before with trail := older } w = s.candidates w :=
  (candidates_mk (s.setDomain change.var change.before) ..).trans (candidates_setDomain_of_ne other _)

/-- What the newest change can be taken back without losing is kept by any number of steps back. -/
theorem rewind_keeps {P : State → Prop}
    (back : ∀ (s : State) (change : Change s.size) (older : List (Change s.size)),
      s.trail = change :: older → P s →
        P { s.setDomain change.var change.before with trail := older })
    (here : P s) (steps : Nat) : P (s.rewind steps) := by
  induction steps generalizing s with
  | zero =>
    rw [rewind]
    exact here
  | succ steps ih =>
    unfold rewind
    split
    next => exact here
    next change older recorded => exact ih (back s change older recorded here)

/-! ### Settled states -/

namespace Settled

theorem narrow {v : Nat} {test : Nat → Bool} {flag : Bool} (settled : s.Settled)
    (h : s.narrow v test = .ok (t, flag)) : t.Settled := by
  cases flag with
  | false =>
    obtain ⟨rfl, _⟩ := narrow_eq_false h
    exact settled
  | true =>
    refine ⟨settled.givens.narrow h, fun change recorded => ?_⟩
    rw [isLocked_narrow h]
    obtain ⟨unlocked, _, rfl⟩ := narrow_eq_true h
    rcases List.mem_cons.mp recorded with rfl | recorded
    · exact unlocked
    · exact settled.trail change recorded

theorem of_narrowsTo (settled : s.Settled) (h : s.NarrowsTo t) : t.Settled := by
  induction h with
  | refl => exact settled
  | step _ change ih => exact ih.narrow change

theorem rewind (settled : s.Settled) (steps : Nat) : (s.rewind steps).Settled := by
  refine rewind_keeps (fun s change older recorded settled => ?_) settled steps
  have unlocked := settled.trail change (recorded ▸ List.mem_cons_self ..)
  have locks (w : Nat) := s.isLocked_restored change older w
  refine ⟨settled.givens.of_unlocked unlocked locks fun w other => ?_, fun earlier member => ?_⟩
  · exact s.candidates_restored_of_ne change older other
  · exact (locks _).trans (settled.trail earlier (recorded ▸ List.mem_cons_of_mem change member))

theorem lock {reference value : Int} (settled : s.Settled)
    (h : s.lock reference value = .ok t) : t.Settled := by
  obtain ⟨v, x, ⟨_, inside⟩, ⟨_, bound⟩, fresh, rfl⟩ := lock_eq_ok.mp h
  have untouched : ∀ change ∈ (s.given v x).trail, (s.given v x).isLocked change.var = false :=
    fun change recorded => absurd (fresh ▸ recorded : change ∈ []) List.not_mem_nil
  refine ⟨fun w locked => ?_, untouched⟩
  rw [isDetermined_iff, candidates_given inside bound]
  split
  next => rfl
  next other =>
    rw [isLocked_given inside, if_neg other] at locked
    exact isDetermined_iff.mp (settled.givens w locked)

theorem chooseDomain {reference : Int} {references : List Int} (settled : s.Settled)
    (h : s.chooseDomain reference references = .ok t) : t.Settled := by
  obtain ⟨v, chosen, _, empty, unlocked, _, rfl⟩ := chooseDomain_eq_ok h
  refine ⟨settled.givens.of_unlocked unlocked (isLocked_setDomain s v · _)
    fun w other => candidates_setDomain_of_ne other _, fun change recorded => ?_⟩
  have none : change ∈ s.trail := recorded
  exact absurd (empty ▸ none) List.not_mem_nil

theorem withConstraints (settled : s.Settled) (constraints : List (Key × List Nat)) :
    State.Settled { s with constraints } := by
  refine ⟨fun w locked => ?_, fun change recorded => ?_⟩
  · rw [isLocked_mk] at locked
    rw [isDetermined_iff, candidates_mk]
    exact isDetermined_iff.mp (settled.givens w locked)
  · rw [isLocked_mk]
    exact settled.trail change recorded

theorem addConstraint {key : Key} {references : List Int} (settled : s.Settled)
    (h : s.addConstraint key references = .ok t) : t.Settled := by
  obtain ⟨linked, _, _, rfl⟩ := addConstraint_eq_ok h
  exact settled.withConstraints _

end Settled

private theorem slots_blank (count size : Nat) :
    (State.blank count size).slots = Array.replicate count ⟨Domain.full size, false⟩ := by
  cases count <;> rfl

theorem count_blank (count size : Nat) : (State.blank count size).count = count := by
  rw [State.count, slots_blank, Array.size_replicate]

theorem isLocked_blank (count size v : Nat) : (State.blank count size).isLocked v = false := by
  rw [isLocked_eq, slots_blank]
  change (Option.map Slot.locked (Array.replicate count ⟨Domain.full size, false⟩)[v]?).getD false = false
  rw [Array.getElem?_replicate]
  split <;> rfl

theorem candidates_blank {count v : Nat} (inside : v < count) (size : Nat) :
    (State.blank count size).candidates v = List.range size := by
  rw [candidates_eq, slots_blank]
  change (Option.map (fun slot => slot.domain.values)
    (Array.replicate count (⟨Domain.full size, false⟩ : Slot size))[v]?).getD [] = List.range size
  rw [Array.getElem?_replicate, if_pos inside]
  rfl

theorem settled_blank (count size : Nat) : (State.blank count size).Settled where
  givens v locked := absurd locked (by rw [isLocked_blank]; exact Bool.false_ne_true)
  trail change recorded := absurd recorded List.not_mem_nil

theorem new_eq_ok {count size : Int} (h : State.new count size = .ok s) :
    s = State.blank count.toNat size.toNat := by
  unfold State.new at h
  split at h
  · simp at h
  · split at h
    · simp at h
    · dsimp only at h
      split at h
      · obtain ⟨_, _, h⟩ := bind_eq_ok.mp h
        exact (Except.ok.inj h).symm
      · exact (Except.ok.inj h).symm

theorem Settled.perform (settled : s.Settled) (operation : Operation) :
    (s.perform operation).Settled := by
  cases operation with
  | lock reference value => exact orUnchanged_of settled fun _ => settled.lock
  | chooseDomain reference references => exact orUnchanged_of settled fun _ => settled.chooseDomain
  | addConstraint key references => exact orUnchanged_of settled fun _ => settled.addConstraint
  | remove | restrict | assign | applyUpdates => exact settled.of_narrowsTo (narrowsTo_perform rfl s)
  | undo mark => exact settled.rewind _

theorem Reaches.settled (h : s.Reaches t) (settled : s.Settled) : t.Settled := by
  induction h with
  | refl => exact settled
  | perform operation _ ih => exact ih.perform operation

theorem Reachable.settled (h : s.Reachable) : s.Settled := by
  obtain ⟨_, _, _, created, reaches⟩ := h
  exact reaches.settled (new_eq_ok created ▸ settled_blank _ _)

end State

end PencilPuzzle
