import Mathlib.Data.Set.List
import PencilPuzzle.Proofs.State.Shape

/-!
# Constraints in both directions

A state lists its constraints once, in order of registration, and answers from that list which variables
a key links and which keys a variable has. The two answers agree because no key is listed twice. A ledger
keeps one table for each of the two questions, and entering a constraint writes the first table at once and
the second variable by variable. It comes to the same: a ledger that follows the operations on a state says
whatever the state says, and as everything is checked before the first line is written, a call that fails
leaves no trace in it.
-/

namespace PencilPuzzle

/-! ### Ledgers -/

@[ext] structure Ledger where
  /-- The variables of each key, in order of registration. -/
  byKey : List (Key × List Nat)
  /-- The keys of each variable. -/
  byVar : Array (List Key)
  deriving DecidableEq

namespace Ledger

def blank (count : Nat) : Ledger := ⟨[], Array.replicate count []⟩

/-- Work on a ledger. What is written before a fault stays written. -/
abbrev Work := ExceptT Fault (StateM Ledger)

def keys (ledger : Ledger) : List Key := ledger.byKey.map Prod.fst

def enter (ledger : Ledger) (key : Key) (linked : List Nat) : Ledger :=
  { ledger with byKey := ledger.byKey ++ [(key, linked)] }

def file (ledger : Ledger) (key : Key) (v : Nat) : Ledger :=
  { ledger with byVar := ledger.byVar.modify v (· ++ [key]) }

def checkVar (reference : Int) : Work Nat := do
  let count := (← get).byVar.size
  if 0 ≤ reference ∧ reference < count then return reference.toNat
  else throw (.state (.unknownVariable reference count))

def register (key : Key) (references : List Int) : Work Unit := do
  if key ∈ (← get).keys then throw (.state (.repeatedConstraint key))
  else
    let linked ← references.mapM checkVar
    modify (·.enter key linked)
    for v in linked do
      modify (·.file key v)

def call (ledger : Ledger) (key : Key) (references : List Int) : Except Fault Unit × Ledger :=
  (register key references).run.run ledger

/-- Of the operations on a state only registrations concern a ledger. -/
def follow (ledger : Ledger) : State.Operation → Ledger
  | .addConstraint key references => (ledger.call key references).2
  | _ => ledger

/-! ### Working on a ledger -/

section

variable {α β : Type} {first : Work α} {next : α → Work β} {before after : Ledger}

private theorem run_bind_ok {a : α} (done : first.run.run before = (.ok a, after)) :
    (first >>= next).run.run before = (next a).run.run after := by
  rw [ExceptT.run_bind, StateT.run_bind, done]
  rfl

private theorem run_bind_error {fault : Fault} (failed : first.run.run before = (.error fault, after)) :
    (first >>= next).run.run before = (.error fault, after) := by
  rw [ExceptT.run_bind, StateT.run_bind, failed]
  rfl

end

private theorem run_get (ledger : Ledger) : (get : Work Ledger).run.run ledger = (.ok ledger, ledger) := rfl

private theorem run_modify (f : Ledger → Ledger) (ledger : Ledger) :
    (modify f : Work PUnit).run.run ledger = (.ok (), f ledger) := rfl

/-- The loop over the variables files the key once for each time a variable is listed. -/
theorem run_file (key : Key) (linked : List Nat) (ledger : Ledger) :
    (forIn (m := Work) linked PUnit.unit fun v _ => do
      modify (·.file key v)
      pure (ForInStep.yield PUnit.unit)).run.run ledger = (.ok (), linked.foldl (·.file key ·) ledger) := by
  induction linked generalizing ledger with
  | nil => rfl
  | cons v rest ih =>
    rw [List.forIn_cons]
    exact ih (ledger.file key v)

end Ledger

namespace State

variable {s t : State} {key : Key} {linked : List Nat}

/-- The tables that say what a state says. -/
def ledger (state : State) : Ledger where
  byKey := state.constraints
  byVar := ((List.range state.count).map state.constraintsOf).toArray

theorem size_byVar_ledger (state : State) : state.ledger.byVar.size = state.count := by
  simp [ledger]

private theorem byVar_ledger (state : State) (v : Nat) :
    state.ledger.byVar[v]? = if v < state.count then some (state.constraintsOf v) else none := by
  rw [ledger, List.getElem?_toArray, List.getElem?_map]
  split
  next inside => rw [List.getElem?_range inside, Option.map_some]
  next outside => rw [List.getElem?_eq_none (by simpa using outside), Option.map_none]

/-! ### Following a state -/

private theorem run_checkVar (state : State) (reference : Int) :
    (Ledger.checkVar reference).run.run state.ledger = (state.checkVar reference, state.ledger) := by
  change (if 0 ≤ reference ∧ reference < state.ledger.byVar.size then (pure reference.toNat : Ledger.Work Nat)
    else throw _).run.run state.ledger = _
  rw [checkVar, size_byVar_ledger]
  split <;> rfl

private theorem run_checkVars (state : State) (references : List Int) :
    (references.mapM Ledger.checkVar).run.run state.ledger = (state.checkVars references, state.ledger) := by
  induction references with
  | nil => rfl
  | cons reference rest ih =>
    have first := state.run_checkVar reference
    rw [List.mapM_cons, checkVars]
    cases here : state.checkVar reference with
    | error fault =>
      rw [here] at first
      exact Ledger.run_bind_error first
    | ok v =>
      rw [here] at first
      rw [Ledger.run_bind_ok first]
      cases later : state.checkVars rest with
      | error fault =>
        rw [later] at ih
        exact Ledger.run_bind_error ih
      | ok others =>
        rw [later] at ih
        exact Ledger.run_bind_ok ih

private theorem constraintsOf_eq (state : State) (v : Nat) :
    state.constraintsOf v =
      state.constraints.flatMap fun entry => List.replicate (entry.2.count v) entry.1 := rfl

theorem constraintsOf_append (state : State) (key : Key) (linked : List Nat) (v : Nat) :
    State.constraintsOf { state with constraints := state.constraints ++ [(key, linked)] } v =
      state.constraintsOf v ++ List.replicate (linked.count v) key := by
  simp [constraintsOf_eq]

private theorem byKey_foldl_file (linked : List Nat) (ledger : Ledger) :
    (linked.foldl (·.file key ·) ledger).byKey = ledger.byKey := by
  induction linked generalizing ledger with
  | nil => rfl
  | cons v rest ih => exact ih (ledger.file key v)

private theorem byVar_foldl_file (linked : List Nat) (ledger : Ledger) (v : Nat) :
    (linked.foldl (·.file key ·) ledger).byVar[v]? =
      ledger.byVar[v]?.map (· ++ List.replicate (linked.count v) key) := by
  induction linked generalizing ledger with
  | nil => simp
  | cons w rest ih =>
    rw [List.foldl_cons, ih, Ledger.file, Array.getElem?_modify, List.count_cons]
    by_cases same : w = v
    · simp [same, Function.comp_def, List.replicate_succ]
    · simp [same]

/-- Entering a constraint and filing its key is adding it to the state. -/
theorem foldl_file_ledger (state : State) (key : Key) (linked : List Nat) :
    linked.foldl (·.file key ·) (state.ledger.enter key linked) =
      State.ledger { state with constraints := state.constraints ++ [(key, linked)] } := by
  refine Ledger.ext (byKey_foldl_file linked _) (Array.ext_getElem? fun v => ?_)
  have before : (state.ledger.enter key linked).byVar[v]? = _ := state.byVar_ledger v
  rw [byVar_foldl_file, before, byVar_ledger, constraintsOf_append]
  change _ = if v < state.count then _ else _
  split <;> rfl

/-- Registering on the ledger of a state is registering on the state: nothing is written before the last of the
checks, so a fault finds the ledger as it was. -/
theorem call_ledger (state : State) (key : Key) (references : List Int) :
    state.ledger.call key references =
      ((state.addConstraint key references).map fun _ => (),
        (state.perform (.addConstraint key references)).ledger) := by
  have checked := state.run_checkVars references
  have listed : state.ledger.keys = state.constraintKeys := rfl
  rw [Ledger.call, Ledger.register, State.perform, addConstraint, Ledger.run_bind_ok (Ledger.run_get _),
    listed]
  by_cases taken : key ∈ state.constraintKeys
  · rw [if_pos taken, if_pos taken]
    rfl
  · rw [if_neg taken, if_neg taken]
    cases found : state.checkVars references with
    | error fault =>
      rw [found] at checked
      exact Ledger.run_bind_error checked
    | ok linked =>
      rw [found] at checked
      rw [Ledger.run_bind_ok checked, Ledger.run_bind_ok (Ledger.run_modify _ _),
        Ledger.run_bind_ok (Ledger.run_file key linked _), foldl_file_ledger]
      rfl

private theorem ledger_of_frame_eq (same : t.frame = s.frame) : t.ledger = s.ledger := by
  have constraints : t.constraints = s.constraints := congrArg Frame.constraints same
  have count : t.count = s.count := congrArg Frame.count same
  have keys : t.constraintsOf = s.constraintsOf := funext fun v => by
    rw [constraintsOf, constraints, constraintsOf]
  rw [ledger, ledger, constraints, count, keys]

private theorem follow_ledger (state : State) (operation : Operation) :
    state.ledger.follow operation = (state.perform operation).ledger := by
  cases operation with
  | addConstraint key references => exact congrArg Prod.snd (state.call_ledger key references)
  | lock | chooseDomain | remove | restrict | assign | applyUpdates | undo =>
    exact (ledger_of_frame_eq (frame_perform (by nofun) state)).symm

private theorem foldl_follow_ledger (state : State) (operations : List Operation) :
    operations.foldl Ledger.follow state.ledger = (state.performAll operations).ledger := by
  induction operations generalizing state with
  | nil => rfl
  | cons operation rest ih =>
    rw [List.foldl_cons, follow_ledger]
    exact ih (state.perform operation)

private theorem ledger_blank (count size : Nat) : (State.blank count size).ledger = Ledger.blank count := by
  refine Ledger.ext rfl (Array.ext_getElem? fun v => ?_)
  rw [byVar_ledger, count_blank, Ledger.blank, Array.getElem?_replicate]
  rfl

/-! ### What is registered -/

theorem addConstraint_succeeds_iff {references : List Int} :
    (∃ t, s.addConstraint key references = .ok t) ↔
      key ∉ s.constraintKeys ∧ ∀ reference ∈ references, 0 ≤ reference ∧ reference < s.count := by
  constructor
  · rintro ⟨t, added⟩
    obtain ⟨linked, new, checked, _⟩ := addConstraint_eq_ok added
    obtain ⟨rfl, inside⟩ := checkVars_eq_ok checked
    refine ⟨new, List.forall_mem_map.mpr fun v member => ?_⟩
    exact ⟨Int.natCast_nonneg v, Int.ofNat_lt.mpr (inside v member)⟩
  · rintro ⟨new, inside⟩
    lift references to List Nat using fun reference member => (inside reference member).1
    have bounded : ∀ v ∈ references, v < s.count := fun v member =>
      Int.ofNat_lt.mp (inside v (List.mem_map_of_mem member)).2
    have checked : s.checkVars (references.map Int.ofNat) = .ok references := checkVars_natCast bounded
    refine ⟨{ s with constraints := s.constraints ++ [(key, references)] }, ?_⟩
    exact (if_neg new).trans (congrArg (· >>= _) checked)

/-- The registration that an operation makes, if it is one that succeeds. -/
def addition (state : State) : Operation → List (Key × List Int)
  | .addConstraint key references =>
    match state.addConstraint key references with
    | .ok _ => [(key, references)]
    | .error _ => []
  | _ => []

def additions (state : State) : List Operation → List (Key × List Int)
  | [] => []
  | operation :: rest => state.addition operation ++ (state.perform operation).additions rest

def entry (call : Key × List Int) : Key × List Nat := (call.1, call.2.map Int.toNat)

private theorem constraints_perform (state : State) (operation : Operation) :
    (state.perform operation).constraints = state.constraints ++ (state.addition operation).map entry := by
  cases operation with
  | addConstraint key references =>
    rw [perform, addition]
    cases added : state.addConstraint key references with
    | error fault => exact (List.append_nil _).symm
    | ok t =>
      obtain ⟨linked, _, checked, rfl⟩ := addConstraint_eq_ok added
      obtain ⟨rfl, _⟩ := checkVars_eq_ok checked
      simp [orUnchanged, entry, Function.comp_def]
  | lock | chooseDomain | remove | restrict | assign | applyUpdates | undo =>
    exact (congrArg Frame.constraints (frame_perform (by nofun) state)).trans (List.append_nil _).symm

/-- At most one constraint is added at a time, under a new key and with variables that exist. -/
theorem addition_cases (state : State) (operation : Operation) :
    state.addition operation = [] ∨ ∃ (key : Key) (linked : List Nat), key ∉ state.constraintKeys ∧
      state.addition operation = [(key, linked.map Int.ofNat)] := by
  cases operation with
  | addConstraint key references =>
    rw [addition]
    cases added : state.addConstraint key references with
    | error fault => exact .inl rfl
    | ok t =>
      obtain ⟨linked, new, checked, _⟩ := addConstraint_eq_ok added
      exact .inr ⟨key, linked, new, by rw [(checkVars_eq_ok checked).1]⟩
  | lock | chooseDomain | remove | restrict | assign | applyUpdates | undo => exact .inl rfl

private theorem constraints_performAll (state : State) (operations : List Operation) :
    (state.performAll operations).constraints =
      state.constraints ++ (state.additions operations).map entry := by
  induction operations generalizing state with
  | nil => exact (List.append_nil _).symm
  | cons operation rest ih =>
    rw [additions, List.map_append, ← List.append_assoc, ← constraints_perform]
    exact ih (state.perform operation)

private theorem cast_of_mem_additions {operations : List Operation} {call : Key × List Int}
    (made : call ∈ s.additions operations) : (entry call).2.map Int.ofNat = call.2 := by
  induction operations generalizing s with
  | nil => exact absurd made List.not_mem_nil
  | cons operation rest ih =>
    obtain here | later := List.mem_append.mp made
    · obtain none | ⟨key, linked, _, one⟩ := s.addition_cases operation
      · exact absurd (none ▸ here) List.not_mem_nil
      · cases List.mem_singleton.mp (one ▸ here)
        simp [entry, Function.comp_def]
    · exact ih later

theorem nodup_perform (distinct : s.constraintKeys.Nodup) (operation : Operation) :
    (s.perform operation).constraintKeys.Nodup := by
  rw [constraintKeys, constraints_perform, List.map_append]
  obtain none | ⟨key, linked, new, one⟩ := s.addition_cases operation
  · rwa [none, List.map_nil, List.map_nil, List.append_nil]
  · rw [one]
    refine List.nodup_append.mpr ⟨distinct, List.nodup_cons.mpr ⟨List.not_mem_nil, List.nodup_nil⟩, ?_⟩
    rintro old listed _ only rfl
    obtain rfl : old = key := List.mem_singleton.mp only
    exact new listed

theorem Reaches.nodup_constraintKeys (h : s.Reaches t) (distinct : s.constraintKeys.Nodup) :
    t.constraintKeys.Nodup := by
  induction h with
  | refl => exact distinct
  | perform operation _ ih => exact nodup_perform ih operation

/-! ### Looking constraints up -/

private theorem not_mem_of_others {entries : List (Key × List Nat)}
    (others : ∀ entry ∈ entries, entry.1 ≠ key)
    (v : Nat) : key ∉ entries.flatMap fun entry => List.replicate (entry.2.count v) entry.1 := by
  intro member
  obtain ⟨entry, inside, replicated⟩ := List.mem_flatMap.mp member
  exact others entry inside (List.eq_of_mem_replicate replicated).symm

private theorem constraintsOf_subset (state : State) (v : Nat) :
    state.constraintsOf v ⊆ state.constraintKeys := by
  intro key member
  obtain ⟨entry, listed, replicated⟩ := List.mem_flatMap.mp member
  exact List.eq_of_mem_replicate replicated ▸ List.mem_map_of_mem listed

section

variable (distinct : s.constraintKeys.Nodup) (listed : (key, linked) ∈ s.constraints)
include distinct

private theorem pairwise_constraintsOf (v : Nat) :
    (s.constraintsOf v).Pairwise fun a b => s.constraintKeys.idxOf a ≤ s.constraintKeys.idxOf b := by
  have places : ∀ (i : Nat) (inside : i < s.constraints.length),
      s.constraintKeys.idxOf s.constraints[i].1 = i := by
    intro i inside
    have there := distinct.idxOf_getElem i (by simpa [constraintKeys] using inside)
    simpa [constraintKeys] using there
  -- The keys come in blocks, one for each constraint, and all keys of a block are the same.
  rw [constraintsOf_eq]
  refine List.pairwise_flatMap.mpr ⟨fun entry _ => ?_, List.pairwise_iff_getElem.mpr ?_⟩
  · exact List.pairwise_replicate.mpr (.inr (Nat.le_refl _))
  · intro i j inside inside' earlier a here b there
    have first : a = s.constraints[i].1 := List.eq_of_mem_replicate here
    have second : b = s.constraints[j].1 := List.eq_of_mem_replicate there
    rw [first, second, places, places]
    exact Nat.le_of_lt earlier

include listed

private theorem exists_split : ∃ older newer, s.constraints = older ++ (key, linked) :: newer ∧
    (∀ entry ∈ older, entry.1 ≠ key) ∧ ∀ entry ∈ newer, entry.1 ≠ key := by
  obtain ⟨older, newer, split⟩ := List.append_of_mem listed
  rw [constraintKeys, split, List.map_append, List.map_cons, List.nodup_append, List.nodup_cons] at distinct
  obtain ⟨_, ⟨later, _⟩, apart⟩ := distinct
  refine ⟨older, newer, split, fun entry member => ?_, fun entry member same => ?_⟩
  · exact apart entry.1 (List.mem_map_of_mem member) key (List.mem_cons_self ..)
  · exact later (List.mem_map.mpr ⟨entry, member, same⟩)

private theorem variablesOf_of_mem : s.variablesOf key = .ok linked := by
  obtain ⟨older, newer, split, before, _⟩ := exists_split distinct listed
  have found : s.constraints.find? (·.1 = key) = some (key, linked) := by
    rw [split, List.find?_append, List.find?_eq_none.mpr (by simpa using before)]
    simp
  rw [variablesOf, found]

private theorem count_constraintsOf (v : Nat) : (s.constraintsOf v).count key = linked.count v := by
  obtain ⟨older, newer, split, before, after⟩ := exists_split distinct listed
  rw [constraintsOf_eq, split, List.flatMap_append, List.flatMap_cons, List.count_append, List.count_append,
    List.count_eq_zero.mpr (not_mem_of_others before v), List.count_eq_zero.mpr (not_mem_of_others after v),
    List.count_replicate_self, Nat.zero_add, Nat.add_zero]

end

/-- After any operations on a new state, of which some may be registrations that fail: the keys are those of
the registrations that succeeded, once each and in order; a key is found at a variable as often as the variable
is found at the key, where its registration named it; what is found at a variable follows the order of
registration; a ledger that has followed the operations has the same in its two tables and would answer another
call as the state does; and a call that fails changes neither. -/
theorem constraints_of_performAll {count size : Nat} {start : State}
    (created : State.new count size = .ok start) (operations : List Operation) :
    let reached := start.performAll operations
    let ledger := operations.foldl Ledger.follow (Ledger.blank count)
    let keys := reached.constraintKeys
    (keys = (start.additions operations).map Prod.fst ∧ keys.Nodup) ∧
      (∀ call ∈ start.additions operations, ∃ linked, reached.variablesOf call.1 = .ok linked ∧
        linked.map Int.ofNat = call.2 ∧ ∀ v, (reached.constraintsOf v).count call.1 = linked.count v) ∧
      (∀ v, reached.constraintsOf v ⊆ keys ∧
        (reached.constraintsOf v).Pairwise fun a b => keys.idxOf a ≤ keys.idxOf b) ∧
      ledger.byKey = reached.constraints ∧
      ledger.byVar = ((List.range count).map reached.constraintsOf).toArray ∧
      ∀ key references,
        ((∃ t, reached.addConstraint key references = .ok t) ↔
          key ∉ keys ∧ ∀ reference ∈ references, 0 ≤ reference ∧ reference < count) ∧
        (ledger.call key references).1 = (reached.addConstraint key references).map (fun _ => ()) ∧
        ∀ fault, reached.addConstraint key references = .error fault →
          reached.perform (.addConstraint key references) = reached ∧
            (ledger.call key references).2 = ledger := by
  intro reached ledger keys
  have blank : start = State.blank count size := new_eq_ok created
  subst blank
  have reaches : (State.blank count size).Reaches reached := Reaches.refl.performAll operations
  have shaped := reaches.shaped (shaped_blank count size)
  have distinct : keys.Nodup := reaches.nodup_constraintKeys List.nodup_nil
  have entries : reached.constraints = ((State.blank count size).additions operations).map entry :=
    constraints_performAll _ operations
  -- What is said of the ledger is said of the tables of the state, which are the same.
  have follows : ledger = reached.ledger := by
    rw [← foldl_follow_ledger, ledger_blank]
  refine ⟨⟨?_, distinct⟩, fun call made => ?_, fun v => ?_, congrArg Ledger.byKey follows, ?_,
    fun key references => ⟨?_, ?_, fun fault failed => ?_⟩⟩
  · change reached.constraints.map Prod.fst = _
    rw [entries, List.map_map]
    rfl
  · have listed : entry call ∈ reached.constraints := entries ▸ List.mem_map_of_mem made
    exact ⟨(entry call).2, variablesOf_of_mem distinct listed, cast_of_mem_additions made,
      count_constraintsOf distinct listed⟩
  · exact ⟨reached.constraintsOf_subset v, pairwise_constraintsOf distinct v⟩
  · rw [follows, State.ledger, shaped.count_eq]
  · rw [addConstraint_succeeds_iff, shaped.count_eq]
  · rw [follows, call_ledger]
  · have unchanged : reached.perform (.addConstraint key references) = reached := by
      rw [perform, failed, orUnchanged]
    refine ⟨unchanged, ?_⟩
    rw [follows, call_ledger, unchanged]

/-- A row that lists a variable twice, a second one under its key, a column that ends in a variable that does
not exist, and the same column once more, with a change made and taken back in between. -/
theorem constraints_of_performAll_refused :
    let row := Key.member "row" 0
    let column := Key.member "col" 0
    let operations := [.addConstraint row [0, 1, 0], .addConstraint row [2], .remove 1 [0],
      .addConstraint column [2, 3], .undo 0, .addConstraint column [2, 0]]
    let reached := (State.blank 3 2).performAll operations
    let ledger := operations.foldl Ledger.follow (Ledger.blank 3)
    State.new 3 2 = .ok (State.blank 3 2) ∧ reached.constraintKeys = [row, column] ∧
      (reached.constraintsOf 0).count row = 2 ∧
      ledger.byVar = #[[row, row, column], [row], [column]] ∧
      (ledger.call column [1]).1 = .error (.state (.repeatedConstraint column)) ∧
      (ledger.call column [1]).2 = ledger := by
  intro row column operations reached ledger
  have created : State.new (3 : Nat) (2 : Nat) = .ok (State.blank 3 2) := rfl
  have succeeded : (State.blank 3 2).additions operations = [(row, [0, 1, 0]), (column, [2, 0])] := by
    decide
  obtain ⟨⟨keys, _⟩, found, _, _, byVar, calls⟩ := constraints_of_performAll created operations
  rw [succeeded] at keys found
  obtain ⟨linked, _, named, counted⟩ := found _ (List.mem_cons_self ..)
  have same : linked = [0, 1, 0] := List.map_injective_iff.mpr (fun _ _ => Int.ofNat.inj) named
  have refused : reached.addConstraint column [1] = .error (.state (.repeatedConstraint column)) := by
    decide
  obtain ⟨_, answered, kept⟩ := calls column [1]
  refine ⟨created, keys, ?_, ?_, ?_, (kept _ refused).2⟩
  · rw [counted 0, same]
    rfl
  · rw [byVar]
    decide
  · rw [answered, refused]
    rfl

end State

end PencilPuzzle
