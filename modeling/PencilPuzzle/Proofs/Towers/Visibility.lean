import PencilPuzzle.Proofs.Towers.Line

/-!
# What the rule for clued lines strikes

The rule for clued lines loses nothing and keeps nothing that it could strike: it ends with a
contradiction exactly when some clued line cannot be arranged at all, and otherwise it strikes a
candidate exactly when, at some place of its variable, no arrangement of a clued line has it there.
For each clued line the rule keeps a list of all heights, so room for such a list is a side condition.
-/

namespace PencilPuzzle.Towers

open State

variable {s : State} {line : ClueLine} {lines : List ClueLine} {options : LineOptions} {v x : Nat}

/-! ### Arrangements of a line -/

/-- One candidate for each variable of a line, all of them different, so that the clues are met. -/
structure ClueLine.Arrangement (line : ClueLine) (s : State) (xs : List Nat) : Prop where
  picks : List.Forall₂ (fun (x : Nat) reference => ∃ v : Nat, reference = (v : Int) ∧ x ∈ s.candidates v)
    xs line.vars
  distinct : xs.Nodup
  meets : line.Meets (xs.map (· + 1))

/-- At some place of the variable no arrangement of the line has the value. -/
def ClueLine.Refuses (line : ClueLine) (s : State) (v x : Nat) : Prop :=
  ∃ position : Nat, line.vars[position]? = some (v : Int) ∧
    ∀ xs, line.Arrangement s xs → xs[position]? ≠ some x

/-- The options of a line are its variables and its arrangements. -/
structure LineOptions.Lists (options : LineOptions) (line : ClueLine) (s : State) : Prop where
  vars : line.vars = options.vars.map Int.ofNat
  mem_iff : ∀ xs, xs ∈ options.arrangements ↔ line.Arrangement s xs

private theorem lists_arrangements {vars : List Nat} (named : line.vars = vars.map Int.ofNat) :
    LineOptions.Lists ⟨vars, arrangements line.front line.back (vars.map s.candidates)⟩ line s := by
  refine ⟨named, fun xs => mem_arrangements.trans ?_⟩
  have picks : List.Forall₂ (· ∈ ·) xs (vars.map s.candidates) ↔
      List.Forall₂ (fun (x : Nat) reference => ∃ v : Nat, reference = (v : Int) ∧ x ∈ s.candidates v)
        xs line.vars := by
    rw [named, List.forall₂_map_right_iff, List.forall₂_map_right_iff]
    simp
  rw [picks]
  exact ⟨fun ⟨fits, distinct, meets⟩ => ⟨fits, distinct, meets⟩,
    fun arranged => ⟨arranged.picks, arranged.distinct, arranged.meets⟩⟩

theorem LineOptions.Lists.mem_unused_iff (lists : options.Lists line s) :
    x ∈ options.unused s v ↔ x ∈ s.candidates v ∧ line.Refuses s v x := by
  have place (position : Nat) :
      line.vars[position]? = some (v : Int) ↔ options.vars[position]? = some v := by
    rw [lists.vars, List.getElem?_map, Option.map_eq_some_iff]
    exact ⟨fun ⟨w, here, same⟩ => Int.ofNat.inj same ▸ here, fun here => ⟨v, here, rfl⟩⟩
  simp only [mem_unused, ClueLine.Refuses, place, lists.mem_iff]

/-! ### Looking for arrangements -/

section Search

variable (inRange : ∀ reference ∈ line.vars, ∃ v < s.count, reference = (v : Int))
  (allInRange : ∀ line ∈ lines, ∀ reference ∈ line.vars, ∃ v < s.count, reference = (v : Int))

include inRange in
private theorem lineOptions_cases (room : Room.checkList s.size = .ok ()) :
    (∃ options, lineOptions s line = .ok options ∧ options.Lists line s ∧
        ∃ xs, line.Arrangement s xs) ∨
      lineOptions s line = .error (.contradiction (.noArrangement line.vars)) ∧
        ∀ xs, ¬ line.Arrangement s xs := by
  obtain ⟨vars, checked⟩ := checkVars_of_inRange inRange
  have lists := lists_arrangements (s := s) (checkVars_eq_ok checked).1
  rw [lineOptions, checked, room]
  cases found : arrangements line.front line.back (vars.map s.candidates) with
  | nil =>
    rw [found] at lists
    refine .inr ⟨?_, fun xs arranged => List.not_mem_nil ((lists.mem_iff xs).mpr arranged)⟩
    simp [bind, Except.bind, found]
  | cons xs rest =>
    rw [found] at lists
    refine .inl ⟨_, ?_, lists, xs, (lists.mem_iff xs).mp (List.mem_cons_self ..)⟩
    simp [bind, Except.bind, found]

include inRange in
private theorem lineOptions_lacking {fault : Fault} (lacking : Room.checkList s.size = .error fault) :
    lineOptions s line = .error fault := by
  obtain ⟨vars, checked⟩ := checkVars_of_inRange inRange
  rw [lineOptions, checked, lacking]
  rfl

include allInRange

theorem allOptions_cases (room : lines ≠ [] → Room.checkList s.size = .ok ()) :
    (∃ options, allOptions s lines = .ok options ∧ List.Forall₂ (LineOptions.Lists · · s) options lines ∧
        ∀ line ∈ lines, ∃ xs, line.Arrangement s xs) ∨
      ∃ line ∈ lines, allOptions s lines = .error (.contradiction (.noArrangement line.vars)) ∧
        ∀ xs, ¬ line.Arrangement s xs := by
  induction lines with
  | nil => exact .inl ⟨[], rfl, .nil, fun _ member => absurd member List.not_mem_nil⟩
  | cons line rest ih =>
    obtain ⟨inRange, allInRange⟩ := List.forall_mem_cons.mp allInRange
    have room := room (List.cons_ne_nil line rest)
    obtain ⟨first, here, lists, arranged⟩ | ⟨failed, none⟩ := lineOptions_cases inRange room
    · obtain ⟨others, later, listed, all⟩ | ⟨other, member, failed, none⟩ :=
        ih allInRange fun _ => room
      · refine .inl ⟨first :: others, ?_, .cons lists listed, List.forall_mem_cons.mpr ⟨arranged, all⟩⟩
        exact bind_eq_ok.mpr ⟨first, here, bind_eq_ok.mpr ⟨others, later, rfl⟩⟩
      · refine .inr ⟨other, List.mem_cons_of_mem line member, ?_, none⟩
        rw [allOptions, here, failed]
        rfl
    · refine .inr ⟨line, List.mem_cons_self .., ?_, none⟩
      rw [allOptions, failed]
      rfl

private theorem allOptions_lacking {fault : Fault} (some : lines ≠ [])
    (lacking : Room.checkList s.size = .error fault) : allOptions s lines = .error fault := by
  obtain ⟨line, rest, rfl⟩ := List.exists_cons_of_ne_nil some
  rw [allOptions, lineOptions_lacking (allInRange line (List.mem_cons_self ..)) lacking]
  rfl

end Search

/-! ### The rule -/

theorem exists_mem_unused_iff {found : List LineOptions}
    (listed : List.Forall₂ (LineOptions.Lists · · s) found lines) :
    (∃ options ∈ found, x ∈ options.unused s v) ↔
      x ∈ s.candidates v ∧ ∃ line ∈ lines, line.Refuses s v x := by
  induction listed with
  | nil => simp
  | cons lists _ ih =>
    simp only [List.exists_mem_cons_iff, lists.mem_unused_iff, ih]
    exact and_or_left.symm

/-- The rule finds a contradiction exactly when a clued line cannot be arranged, and otherwise strikes
those candidates, and only those, which a clued line refuses. A host without room for a list of all
heights fails at the first clued line, whatever could be deduced. -/
theorem visibility_exact
    (inRange : ∀ line ∈ lines, ∀ reference ∈ line.vars, ∃ v < s.count, reference = (v : Int)) :
    (((∃ line ∈ lines, line.isClued = true) → Room.checkList s.size = .ok ()) →
      ((∃ cause, (visibility lines).deduce s = .error (.contradiction cause)) ↔
        ∃ line ∈ lines, line.isClued = true ∧ ∀ xs, ¬ line.Arrangement s xs) ∧
      ((∀ line ∈ lines, line.isClued = true → ∃ xs, line.Arrangement s xs) →
        ∃ updates, (visibility lines).deduce s = .ok updates ∧ ∀ reference value : Int,
          (∃ update ∈ updates, update.var = reference ∧ value ∈ update.removed) ↔
            ∃ v x : Nat, reference = v ∧ value = x ∧ x ∈ s.candidates v ∧
              ∃ line ∈ lines, line.isClued = true ∧ line.Refuses s v x)) ∧
    ∀ fault, (∃ line ∈ lines, line.isClued = true) → Room.checkList s.size = .error fault →
      (visibility lines).deduce s = .error fault := by
  have clued (line : ClueLine) : line ∈ lines.filter ClueLine.isClued ↔ line ∈ lines ∧ line.isClued = true :=
    List.mem_filter
  have allInRange : ∀ line ∈ lines.filter ClueLine.isClued, ∀ reference ∈ line.vars,
      ∃ v < s.count, reference = (v : Int) := fun line member => inRange line ((clued line).mp member).1
  refine ⟨fun room => ?_, fun fault ⟨line, member, here⟩ lacking => ?_⟩
  · have room : lines.filter ClueLine.isClued ≠ [] → Room.checkList s.size = .ok () := fun some => by
      obtain ⟨line, member⟩ := List.exists_mem_of_ne_nil _ some
      exact room ⟨line, (clued line).mp member⟩
    obtain ⟨options, found, listed, all⟩ | ⟨line, member, failed, none⟩ := allOptions_cases allInRange room
    · have deduced : (visibility lines).deduce s =
          .ok (s.removals fun v => options.flatMap fun line => line.unused s v) :=
        bind_eq_ok.mpr ⟨options, found, rfl⟩
      refine ⟨?_, fun _ => ⟨_, deduced, fun reference value => ?_⟩⟩
      · refine iff_of_false (fun ⟨cause, failed⟩ => nomatch deduced.symm.trans failed) ?_
        rintro ⟨line, member, here, none⟩
        obtain ⟨xs, arranged⟩ := all line ((clued line).mpr ⟨member, here⟩)
        exact none xs arranged
      · simp only [exists_mem_removals_iff, List.mem_flatMap, exists_mem_unused_iff listed, clued,
          and_assoc, and_self_left]
    · have deduced : (visibility lines).deduce s = .error (.contradiction (.noArrangement line.vars)) := by
        simp only [visibility, failed]
        rfl
      obtain ⟨member, here⟩ := (clued line).mp member
      refine ⟨iff_of_true ⟨_, deduced⟩ ⟨line, member, here, none⟩, fun all => ?_⟩
      obtain ⟨xs, arranged⟩ := all line member here
      exact absurd arranged (none xs)
  · have some : lines.filter ClueLine.isClued ≠ [] := List.ne_nil_of_mem ((clued line).mpr ⟨member, here⟩)
    simp only [visibility, allOptions_lacking allInRange some lacking]
    rfl

/-- Two towers are seen from both ends of a line of three, so the tallest one stands in the middle. -/
theorem visibility_exact_three :
    let line : ClueLine := ⟨[0, 1, 2], 2, 2⟩
    let s := State.blank 3 3
    (∃ xs, line.Arrangement s xs) ∧ line.Refuses s 1 0 ∧ ¬ line.Refuses s 1 2 := by
  intro line s
  have inRange : ∀ line' ∈ [line], ∀ reference ∈ line'.vars, ∃ v < s.count, reference = (v : Int) := by
    decide
  have arranged : line.Arrangement s [0, 2, 1] :=
    ⟨.cons ⟨0, rfl, by decide⟩ (.cons ⟨1, rfl, by decide⟩ (.cons ⟨2, rfl, by decide⟩ .nil)), by decide,
      .inr rfl, .inr rfl⟩
  obtain ⟨updates, deduced, strikes⟩ := ((visibility_exact inRange).1 fun _ => rfl).2
    fun other member _ => List.mem_singleton.mp member ▸ ⟨_, arranged⟩
  have computed : (visibility [line]).deduce s = .ok [⟨0, [2]⟩, ⟨1, [0, 1]⟩, ⟨2, [2]⟩] := by decide
  cases computed.symm.trans deduced
  refine ⟨⟨_, arranged⟩, ?_, fun refused => ?_⟩
  · obtain ⟨v, x, var, value, _, other, member, _, refused⟩ := (strikes 1 0).mp (by decide)
    cases Int.ofNat.inj var
    cases Int.ofNat.inj value
    exact List.mem_singleton.mp member ▸ refused
  · have struck := (strikes 1 2).mpr
      ⟨1, 2, rfl, rfl, by decide, line, List.mem_singleton_self _, rfl, refused⟩
    exact absurd struck (by decide)

end PencilPuzzle.Towers
