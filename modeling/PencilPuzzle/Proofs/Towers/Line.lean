import PencilPuzzle.Proofs.Search.Completeness
import PencilPuzzle.Towers.Line

/-!
# Arrangements of a line

The running count of visible towers is the number of towers that are taller than all towers before
them, and the arrangements of a line are exactly the ways to give its variables different values,
each from its domain, so that both clues are met. The search for them is cut short where the front
clue is out of reach, which loses nothing: no more towers can come into view than are still to be
placed. So the rule for clued lines spares every assignment under which the lines meet their clues.
-/

namespace PencilPuzzle.Towers

open State

/-! ### Towers in view -/

def towersSeen (heights : List Nat) : Nat :=
  (List.range heights.length).countP fun i => ∀ j < i, heights.getD j 0 < heights.getD i 0

private theorem visibleAbove_eq (tallest : Nat) (heights : List Nat) :
    visibleAbove tallest heights = (List.range heights.length).countP fun i =>
      tallest < heights.getD i 0 ∧ ∀ j < i, heights.getD j 0 < heights.getD i 0 := by
  induction heights generalizing tallest with
  | nil => rfl
  | cons height rest ih =>
    -- A later tower is in view if it is taller than the first one and in view behind it.
    have later (i : Nat) : (tallest < (height :: rest).getD (i + 1) 0 ∧
        ∀ j < i + 1, (height :: rest).getD j 0 < (height :: rest).getD (i + 1) 0) ↔
        max tallest height < rest.getD i 0 ∧ ∀ j < i, rest.getD j 0 < rest.getD i 0 := by
      rw [Nat.forall_lt_succ_left, max_lt_iff]
      simp only [List.getD_cons_succ, List.getD_cons_zero, and_assoc]
    rw [visibleAbove, List.length_cons, List.range_succ_eq_map, List.countP_cons, List.countP_map]
    simp only [Function.comp_def, Nat.succ_eq_add_one, later, ← ih]
    split
    next taller => simp [taller, max_eq_right (Nat.le_of_lt taller)]
    next lower => simp [lower, max_eq_left (Nat.le_of_not_lt lower)]

theorem countVisible_eq {heights : List Nat} (positive : ∀ height ∈ heights, 0 < height) :
    countVisible heights = towersSeen heights := by
  rw [countVisible, visibleAbove_eq, towersSeen]
  apply List.countP_congr
  intro i inside
  have bound := List.mem_range.mp inside
  have present := positive _ (List.getElem_mem bound)
  simp [List.getD_eq_getElem?_getD, bound, present]

private theorem visibleAbove_le_length (tallest : Nat) (heights : List Nat) :
    visibleAbove tallest heights ≤ heights.length := by
  rw [visibleAbove_eq]
  exact List.countP_le_length.trans List.length_range.le

theorem visibleAbove_append (tallest : Nat) (front : List Nat) :
    ∃ reached, (∀ height ∈ front, height ≤ reached) ∧ tallest ≤ reached ∧
      ∀ rest, visibleAbove tallest (front ++ rest) =
        visibleAbove tallest front + visibleAbove reached rest := by
  induction front generalizing tallest with
  | nil => exact ⟨tallest, by simp, Nat.le_refl _, fun rest => (Nat.zero_add _).symm⟩
  | cons height front ih =>
    by_cases taller : tallest < height
    · obtain ⟨reached, bounded, above, eq⟩ := ih height
      refine ⟨reached, List.forall_mem_cons.mpr ⟨above, bounded⟩, by omega, fun rest => ?_⟩
      rw [List.cons_append, visibleAbove, visibleAbove, if_pos taller, if_pos taller, eq]
      omega
    · obtain ⟨reached, bounded, above, eq⟩ := ih tallest
      refine ⟨reached, List.forall_mem_cons.mpr ⟨by omega, bounded⟩, above, fun rest => ?_⟩
      rw [List.cons_append, visibleAbove, visibleAbove, if_neg taller, if_neg taller, eq]

theorem visibleAbove_eq_zero {tallest : Nat} {rest : List Nat}
    (bounded : ∀ height ∈ rest, height ≤ tallest) : visibleAbove tallest rest = 0 := by
  induction rest with
  | nil => rfl
  | cons height rest ih =>
    obtain ⟨here, later⟩ := List.forall_mem_cons.mp bounded
    rw [visibleAbove, if_neg (Nat.not_lt.mpr here), ih later]

theorem countVisible_le_append (front rest : List Nat) :
    countVisible front ≤ countVisible (front ++ rest) := by
  obtain ⟨_, _, _, eq⟩ := visibleAbove_append 0 front
  rw [countVisible, countVisible, eq]
  exact Nat.le_add_right _ _

theorem countVisible_append_of_mem {top : Nat} {front rest : List Nat} (member : top ∈ front)
    (bounded : ∀ height ∈ rest, height ≤ top) :
    countVisible (front ++ rest) = countVisible front := by
  obtain ⟨reached, below, _, eq⟩ := visibleAbove_append 0 front
  have nothing : visibleAbove reached rest = 0 :=
    visibleAbove_eq_zero fun height later => (bounded height later).trans (below top member)
  rw [countVisible, countVisible, eq, nothing, Nat.add_zero]

/-! ### Arrangements -/

theorem reachable_zero {front : Int} {visible : Nat} :
    reachable front visible 0 = true ↔ front = 0 ∨ (visible : Int) = front := by
  simp only [reachable, Bool.or_eq_true, decide_eq_true_eq, Bool.and_eq_true]
  omega

theorem mem_fillings_cons {front : Int} {taken domain : List Nat} {visible tallest : Nat}
    {rest : List (List Nat)} {xs : List Nat} :
    xs ∈ fillings front taken visible tallest (domain :: rest) ↔
      reachable front visible (rest.length + 1) = true ∧ ∃ x ∈ domain, x ∉ taken ∧ ∃ ys,
        ys ∈ (if tallest < x + 1 then fillings front (x :: taken) (visible + 1) (x + 1) rest
          else fillings front (x :: taken) visible tallest rest) ∧ x :: ys = xs := by
  rw [fillings]
  split
  next inReach =>
    simp only [List.mem_flatMap, inReach, true_and]
    refine exists_congr fun x => and_congr_right fun _ => ?_
    by_cases used : x ∈ taken
    · simp [used]
    · rw [if_neg used]
      split <;> simp [used]
  next outOfReach => simp [outOfReach]

/-- The search for fillings finds those that meet the front clue, and only those. -/
theorem mem_fillings {front : Int} {taken : List Nat} {visible tallest : Nat}
    {domains : List (List Nat)} {xs : List Nat} :
    xs ∈ fillings front taken visible tallest domains ↔
      List.Forall₂ (· ∈ ·) xs domains ∧ xs.Nodup ∧ (∀ x ∈ xs, x ∉ taken) ∧
        (front = 0 ∨ ((visible + visibleAbove tallest (xs.map (· + 1)) : Nat) : Int) = front) := by
  induction domains generalizing xs taken visible tallest with
  | nil =>
    rw [fillings]
    cases xs with
    | nil => simp [← reachable_zero, visibleAbove]
    | cons x xs => split <;> simp
  | cons domain rest ih =>
    rw [mem_fillings_cons]
    cases xs with
    | nil => simp
    | cons x xs =>
      have later : xs ∈ (if tallest < x + 1 then fillings front (x :: taken) (visible + 1) (x + 1) rest
          else fillings front (x :: taken) visible tallest rest) ↔
          List.Forall₂ (· ∈ ·) xs rest ∧ xs.Nodup ∧ (∀ y ∈ xs, y ∉ x :: taken) ∧
            (front = 0 ∨
              ((visible + visibleAbove tallest ((x :: xs).map (· + 1)) : Nat) : Int) = front) := by
        rw [List.map_cons, visibleAbove]
        split
        next taller => rw [ih, Nat.add_right_comm, Nat.add_assoc]
        next lower => rw [ih]
      constructor
      · rintro ⟨_, y, member, free, ys, found, same⟩
        cases same
        obtain ⟨fits, distinct, fresh, clue⟩ := later.mp found
        refine ⟨.cons member fits, List.nodup_cons.mpr ⟨fun again => ?_, distinct⟩, ?_, clue⟩
        · exact fresh x again (List.mem_cons_self ..)
        · exact List.forall_mem_cons.mpr
            ⟨free, fun y listed used => fresh y listed (List.mem_cons_of_mem x used)⟩
      · rintro ⟨fits, distinct, fresh, clue⟩
        obtain ⟨member, fits⟩ := List.forall₂_cons.mp fits
        obtain ⟨once, distinct⟩ := List.nodup_cons.mp distinct
        obtain ⟨free, fresh⟩ := List.forall_mem_cons.mp fresh
        refine ⟨?_, x, member, free, xs, later.mpr ⟨fits, distinct, fun y listed => ?_, clue⟩, rfl⟩
        · -- The towers still to come are at least as many as those that will be seen.
          have bound := visibleAbove_le_length tallest ((x :: xs).map (· + 1))
          rw [List.length_map, List.length_cons, fits.length_eq] at bound
          simp only [reachable, Bool.or_eq_true, decide_eq_true_eq, Bool.and_eq_true]
          omega
        · rw [List.mem_cons, not_or]
          exact ⟨fun same => once (same ▸ listed), fresh y listed⟩

theorem agrees_iff {clue : Int} {visible : Nat} :
    agrees clue visible = true ↔ clue = 0 ∨ (visible : Int) = clue := by
  simp only [agrees, Bool.or_eq_true, decide_eq_true_eq]
  omega

def ClueLine.Meets (line : ClueLine) (heights : List Nat) : Prop :=
  (line.front = 0 ∨ (countVisible heights : Int) = line.front) ∧
    (line.back = 0 ∨ (countVisible heights.reverse : Int) = line.back)

theorem mem_arrangements {line : ClueLine} {domains : List (List Nat)} {xs : List Nat} :
    xs ∈ arrangements line.front line.back domains ↔
      List.Forall₂ (· ∈ ·) xs domains ∧ xs.Nodup ∧ line.Meets (xs.map (· + 1)) := by
  rw [arrangements, List.mem_filter, mem_fillings, agrees_iff, ClueLine.Meets, List.map_reverse]
  simp only [List.not_mem_nil, not_false_eq_true, implies_true, true_and, Nat.zero_add,
    countVisible, and_assoc]

/-! ### The rule for clued lines -/

section Rule

variable {s : State} {a : Nat → Nat} {line : ClueLine} {lines : List ClueLine}

/-- The assignment gives the variables of the line different values that meet its clues. -/
def ClueLine.HoldsFor (line : ClueLine) (a : Nat → Nat) : Prop :=
  ∀ vars : List Nat, line.vars = vars.map Int.ofNat →
    (vars.map a).Nodup ∧ line.Meets (vars.map fun v => a v + 1)

private theorem noContradiction_checkVars (s : State) (references : List Int) :
    NoContradiction (s.checkVars references) := by
  induction references with
  | nil => exact FailsOnly.ok
  | cons reference rest ih =>
    refine FailsOnly.bind (fun fault failed => ?_) fun v _ => FailsOnly.bind ih fun vars _ => FailsOnly.ok
    simp [checkVar_eq_error failed]

private theorem noContradiction_checkList (size : Int) : NoContradiction (Room.checkList size) := by
  unfold Room.checkList
  split
  · exact FailsOnly.error (by simp)
  · split
    · exact FailsOnly.error (by simp)
    · exact FailsOnly.ok

theorem mem_arrangements_of_holds (holds : line.HoldsFor a) (admits : s.Admits a) {vars : List Nat}
    (checked : s.checkVars line.vars = .ok vars) :
    vars.map a ∈ arrangements line.front line.back (vars.map s.candidates) := by
  obtain ⟨named, inside⟩ := checkVars_eq_ok checked
  obtain ⟨distinct, meets⟩ := holds vars named
  refine mem_arrangements.mpr ⟨?_, distinct, ?_⟩
  · rw [List.forall₂_map_left_iff, List.forall₂_map_right_iff, List.forall₂_same]
    exact fun v member => admits v (inside v member)
  · rw [List.map_map]
    exact meets

theorem mem_unused {options : LineOptions} {v x : Nat} :
    x ∈ options.unused s v ↔ x ∈ s.candidates v ∧ ∃ position : Nat, options.vars[position]? = some v ∧
      ∀ xs ∈ options.arrangements, xs[position]? ≠ some x := by
  have idle (position : Nat) : options.uses position x = false ↔
      ∀ xs ∈ options.arrangements, xs[position]? ≠ some x := by
    simp [LineOptions.uses, List.any_eq_false]
  rw [LineOptions.unused, List.mem_flatMap]
  constructor
  · rintro ⟨⟨w, position⟩, placed, struck⟩
    dsimp only at struck
    split at struck
    next same =>
      subst same
      obtain ⟨candidate, unused⟩ := List.mem_filter.mp struck
      exact ⟨candidate, position, List.mem_zipIdx_iff_getElem?.mp placed,
        (idle position).mp ((Bool.not_eq_true' _).mp unused)⟩
    next => exact absurd struck List.not_mem_nil
  · rintro ⟨candidate, position, placed, none⟩
    refine ⟨(v, position), List.mem_zipIdx_iff_getElem?.mpr placed, ?_⟩
    dsimp only
    rw [if_pos rfl]
    exact List.mem_filter.mpr ⟨candidate, (Bool.not_eq_true' _).mpr ((idle position).mpr none)⟩

/-- The options are those of the line, and the assigned values are one of them. -/
def LineOptions.Offers (options : LineOptions) (a : Nat → Nat) : Prop :=
  options.vars.map a ∈ options.arrangements

private theorem lineOptions_offers (holds : line.HoldsFor a) (admits : s.Admits a) :
    NoContradiction (lineOptions s line) ∧
      ∀ options, lineOptions s line = .ok options → options.Offers a := by
  constructor
  · refine FailsOnly.bind (noContradiction_checkVars s _) fun vars checked =>
      FailsOnly.bind (noContradiction_checkList _) fun _ _ => ?_
    have member := mem_arrangements_of_holds holds admits checked
    split
    next none =>
      rw [none] at member
      exact absurd member List.not_mem_nil
    next => exact FailsOnly.ok
  · intro options found
    obtain ⟨vars, checked, found⟩ := bind_eq_ok.mp found
    obtain ⟨_, _, found⟩ := bind_eq_ok.mp found
    have member := mem_arrangements_of_holds holds admits checked
    split at found
    · simp at found
    · cases found
      exact member

private theorem allOptions_offer (holds : ∀ line ∈ lines, line.HoldsFor a) (admits : s.Admits a) :
    NoContradiction (allOptions s lines) ∧
      ∀ options, allOptions s lines = .ok options → ∀ option ∈ options, option.Offers a := by
  induction lines with
  | nil =>
    refine ⟨FailsOnly.ok, fun options found => ?_⟩
    cases found
    simp
  | cons line rest ih =>
    obtain ⟨fine, offers⟩ := lineOptions_offers (holds line (List.mem_cons_self ..)) admits
    obtain ⟨fine', offer⟩ := ih fun other member => holds other (List.mem_cons_of_mem line member)
    refine ⟨FailsOnly.bind fine fun _ _ => FailsOnly.bind fine' fun _ _ => FailsOnly.ok, ?_⟩
    intro options found
    obtain ⟨first, here, found⟩ := bind_eq_ok.mp found
    obtain ⟨others, later, found⟩ := bind_eq_ok.mp found
    cases found
    exact List.forall_mem_cons.mpr ⟨offers first here, offer others later⟩

private theorem not_mem_unused {options : LineOptions} (offers : options.Offers a) (v : Nat) :
    a v ∉ options.unused s v := by
  intro lost
  obtain ⟨_, position, placed, idle⟩ := mem_unused.mp lost
  apply idle _ offers
  rw [List.getElem?_map, placed]
  rfl

theorem spares_visibility (holds : ∀ line ∈ lines, line.isClued = true → line.HoldsFor a)
    (admits : s.Admits a) : (visibility lines).Spares a s := by
  obtain ⟨fine, offer⟩ := allOptions_offer (s := s)
    (fun line member => holds line (List.mem_filter.mp member).1 (List.mem_filter.mp member).2) admits
  refine ⟨FailsOnly.bind fine fun _ _ => FailsOnly.ok, fun updates deduced => ?_⟩
  obtain ⟨options, found, proposed⟩ := bind_eq_ok.mp deduced
  cases proposed
  apply spares_removals
  intro v _ lost
  obtain ⟨option, member, lost⟩ := List.mem_flatMap.mp lost
  exact not_mem_unused (offer options found option member) v lost

theorem visibility_failsOnly {t : State}
    (inRange : ∀ line ∈ lines, ∀ reference ∈ line.vars, ∃ v < t.count, reference = (v : Int)) :
    ContradictsOr (fun fault => Room.checkList t.size = .error fault) ((visibility lines).deduce t) := by
  have lineFair {line : ClueLine} (member : line ∈ lines) :
      ContradictsOr (fun fault => Room.checkList t.size = .error fault) (lineOptions t line) := by
    refine FailsOnly.bind (fun fault failed => ?_) fun vars _ =>
      FailsOnly.bind (fun fault failed => .inl failed) fun _ _ => ?_
    · obtain ⟨vars, checked⟩ := checkVars_of_inRange (inRange line member)
      rw [checked] at failed
      exact nomatch failed
    · split
      · exact FailsOnly.error (.inr ⟨_, rfl⟩)
      · exact FailsOnly.ok
  have allFair {few : List ClueLine} (subset : few ⊆ lines) :
      ContradictsOr (fun fault => Room.checkList t.size = .error fault) (allOptions t few) := by
    induction few with
    | nil => exact FailsOnly.ok
    | cons line rest ih =>
      refine FailsOnly.bind (lineFair (subset (List.mem_cons_self ..))) fun _ _ =>
        FailsOnly.bind (ih fun other member => subset (List.mem_cons_of_mem line member))
          fun _ _ => FailsOnly.ok
  exact FailsOnly.bind (allFair (List.filter_subset_self lines)) fun _ _ => FailsOnly.ok

theorem visibility_inRange {t : State} {updates : List Update}
    (deduced : (visibility lines).deduce t = .ok updates) : ∀ update ∈ updates, update.InRange t.frame := by
  obtain ⟨options, _, proposed⟩ := bind_eq_ok.mp deduced
  cases proposed
  exact inRange_removals

theorem wellBehaved_visibility {frame : Frame} (room : Room.checkList frame.size = .ok ())
    (inRange : ∀ line ∈ lines, ∀ reference ∈ line.vars, ∃ v < frame.count, reference = (v : Int)) :
    (visibility lines).WellBehaved frame := by
  rintro t rfl
  refine ⟨fun fault failed => ?_, fun updates => visibility_inRange⟩
  obtain lacking | contradiction := visibility_failsOnly inRange fault failed
  · have none : Except.ok () = Except.error fault := room.symm.trans lacking
    exact nomatch none
  · exact contradiction

end Rule

end PencilPuzzle.Towers
