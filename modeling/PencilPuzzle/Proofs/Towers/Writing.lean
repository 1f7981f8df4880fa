import PencilPuzzle.Proofs.Rows
import PencilPuzzle.Proofs.Text.Skip
import PencilPuzzle.Proofs.Towers.Spelling

/-!
# Writing tower grids

What is written for a grid and a state has a spelling: the field is a row of tokens, in which letters
take the place of open cells, in runs of any length, and a bar stands only between numbers of adjacent
cells. So it can be read again, and what comes out shows the same heights.
-/

namespace PencilPuzzle.Towers.GameId

open State

/-! ### Fields as tokens -/

def skipTokens (run : Nat) : List Token := (Text.skips run).map Token.skip

/-- What stands before a number, with so many open cells before it. -/
def gap (run : Nat) (afterNumber : Bool) : List Token :=
  skipTokens run ++ if afterNumber && run = 0 then [.bar] else []

/-- The tokens of the field that is written for a list of heights. -/
def tokensFrom (run : Nat) (afterNumber : Bool) : List Nat → List Token
  | [] => skipTokens run
  | height :: rest =>
    if height = 0 then tokensFrom (run + 1) afterNumber rest
    else gap run afterNumber ++ .number (digits height) :: tokensFrom 0 true rest

variable {limit : DigitLimit} {numeral : List Char → Nat → Prop} {cell run v size height : Nat}
  {afterNumber : Bool} {heights : List Nat} {first rest : List Token} {token : Token} {word : List Char}

theorem fieldText_append (first rest : List Token) :
    fieldText (first ++ rest) = fieldText first ++ fieldText rest := List.flatMap_append ..

theorem fieldText_cons (token : Token) (rest : List Token) :
    fieldText (token :: rest) = token.text ++ fieldText rest := List.flatMap_cons ..

theorem advance_append (first rest : List Token) : advance (first ++ rest) = advance first + advance rest :=
  Marks.advance_append Token.advance first rest

theorem puts_append : Puts cell (first ++ rest) v word ↔
    Puts cell first v word ∨ Puts (cell + advance first) rest v word :=
  Marks.meets_append

private theorem fieldText_skipTokens (run : Nat) : fieldText (skipTokens run) = Text.skips run := by
  rw [fieldText, skipTokens, List.flatMap_map]
  exact List.flatMap_singleton' _

private theorem advance_skipTokens (run : Nat) : advance (skipTokens run) = run := by
  rw [advance, skipTokens, Marks.advance, List.map_map]
  exact Text.advance_skips run

private theorem fieldText_gap (run : Nat) (afterNumber : Bool) :
    fieldText (gap run afterNumber) = Text.skips run ++ if afterNumber && run = 0 then ['_'] else [] := by
  rw [gap, fieldText_append, fieldText_skipTokens]
  split <;> rfl

private theorem advance_gap (run : Nat) (afterNumber : Bool) : advance (gap run afterNumber) = run := by
  rw [gap, advance_append, advance_skipTokens]
  split <;> rfl

private theorem not_isNumber_of_mem_gap (member : token ∈ gap run afterNumber) : ¬ token.IsNumber := by
  obtain skip | bar := List.mem_append.mp member
  · obtain ⟨letter, _, rfl⟩ := List.mem_map.mp skip
    exact fun number => number
  · split at bar
    next =>
      rw [List.mem_singleton.mp bar]
      exact fun number => number
    next => exact absurd bar List.not_mem_nil

private theorem skipTokens_eq_gap (run : Nat) : skipTokens run = gap run false := (List.append_nil _).symm

private theorem not_puts_of_forall (none : ∀ token ∈ first, ¬ token.IsNumber) :
    ¬ Puts cell first v word := by
  rintro ⟨before, after, rfl, _⟩
  exact none (.number word) (List.mem_append_right before (List.mem_cons_self ..)) trivial

private theorem fieldText_tokensFrom (run : Nat) (afterNumber : Bool) (heights : List Nat) :
    fieldText (tokensFrom run afterNumber heights) = fieldFrom run afterNumber heights := by
  induction heights generalizing run afterNumber with
  | nil => exact fieldText_skipTokens run
  | cons height rest ih =>
    rw [tokensFrom, fieldFrom]
    split
    next => exact ih (run + 1) afterNumber
    next =>
      rw [fieldText_append, fieldText_gap, fieldText_cons, ih, ← List.append_assoc]
      rfl

private theorem advance_tokensFrom (run : Nat) (afterNumber : Bool) (heights : List Nat) :
    advance (tokensFrom run afterNumber heights) = run + heights.length := by
  induction heights generalizing run afterNumber with
  | nil => exact advance_skipTokens run
  | cons height rest ih =>
    rw [tokensFrom, List.length_cons]
    split
    next =>
      rw [ih]
      omega
    next =>
      rw [advance_append, advance_gap, advance_cons, ih]
      show run + (1 + (0 + rest.length)) = _
      omega

private theorem puts_tokensFrom : Puts cell (tokensFrom run afterNumber heights) v word ↔
    ∃ i height, heights[i]? = some height ∧ height ≠ 0 ∧ cell + run + i = v ∧ word = digits height := by
  have none (cell run : Nat) (afterNumber : Bool) (v : Nat) (word : List Char) :
      ¬ Puts cell (gap run afterNumber) v word :=
    not_puts_of_forall fun token => not_isNumber_of_mem_gap
  induction heights generalizing cell run afterNumber with
  | nil =>
    rw [tokensFrom, skipTokens_eq_gap]
    refine iff_of_false (none cell run false v word) ?_
    rintro ⟨i, height, listed, _⟩
    exact nomatch listed
  | cons first rest ih =>
    -- The first height is in its place, or a later one is.
    have split : (∃ i height, (first :: rest)[i]? = some height ∧ height ≠ 0 ∧ cell + run + i = v ∧
          word = digits height) ↔
        (first ≠ 0 ∧ cell + run = v ∧ word = digits first) ∨
          ∃ i height, rest[i]? = some height ∧ height ≠ 0 ∧ cell + run + (i + 1) = v ∧
            word = digits height := by
      constructor
      · rintro ⟨i, height, listed, set, place, same⟩
        cases i with
        | zero =>
          cases listed
          exact .inl ⟨set, place, same⟩
        | succ i => exact .inr ⟨i, height, listed, set, place, same⟩
      · rintro (⟨set, place, same⟩ | ⟨i, height, listed, set, place, same⟩)
        · exact ⟨0, first, rfl, set, place, same⟩
        · exact ⟨i + 1, height, listed, set, place, same⟩
    have shift (i : Nat) : cell + (run + 1) + i = cell + run + (i + 1) := by omega
    rw [split, tokensFrom]
    by_cases zero : first = 0
    · rw [if_pos zero]
      refine ih.trans ?_
      simp only [shift, zero, ne_eq, not_true_eq_false, false_and, false_or]
    · have shift' (i : Nat) : cell + run + 1 + 0 + i = cell + run + (i + 1) := by omega
      rw [if_neg zero, puts_append, or_iff_right (none cell run afterNumber v word),
        puts_cons, advance_gap]
      refine (or_congr_right ih).trans (or_congr ?_ ?_)
      · simp only [Token.number.injEq, ne_eq, zero, not_false_eq_true, true_and, and_comm, eq_comm]
      · simp only [Token.advance, shift']

private theorem sound_tokensFrom
    (reads : ∀ height ∈ heights, height ≤ size ∧ numeral (digits height) height)
    (run : Nat) (afterNumber : Bool) :
    ∀ token ∈ tokensFrom run afterNumber heights, token.Sound numeral size := by
  have gaps (run : Nat) (afterNumber : Bool) : ∀ token ∈ gap run afterNumber, token.Sound numeral size := by
    intro token member
    cases token with
    | skip letter =>
      have listed : letter ∈ Text.skips run := by
        obtain skip | bar := List.mem_append.mp member
        · obtain ⟨other, found, same⟩ := List.mem_map.mp skip
          cases same
          exact found
        · split at bar <;> simp at bar
      exact Text.letter_of_mem_skips listed
    | bar => trivial
    | number digits => exact absurd trivial (not_isNumber_of_mem_gap member)
  induction heights generalizing run afterNumber with
  | nil =>
    rw [tokensFrom, skipTokens_eq_gap]
    exact gaps run false
  | cons height rest ih =>
    obtain ⟨⟨low, here⟩, reads⟩ := List.forall_mem_cons.mp reads
    rw [tokensFrom]
    split
    next => exact ih reads (run + 1) afterNumber
    next =>
      intro token member
      obtain before | rfl | after := List.mem_append.mp member |>.imp_right List.mem_cons.mp
      · exact gaps run afterNumber token before
      · exact ⟨height, low, here⟩
      · exact ih reads 0 true token after

private theorem isChain_of_forall (none : ∀ token ∈ first, ¬ token.IsNumber) :
    first.IsChain fun token next => ¬ (token.IsNumber ∧ next.IsNumber) := by
  induction first with
  | nil => exact List.IsChain.nil
  | cons token first ih =>
    obtain ⟨here, none⟩ := List.forall_mem_cons.mp none
    exact List.isChain_cons.mpr ⟨fun _ _ both => here both.1, ih none⟩

/-- A number that follows another one has a letter or a bar before it. -/
theorem gap_ne_nil (run : Nat) : gap run true ≠ [] := by
  intro empty
  have advance := advance_gap run true
  rw [empty] at advance
  subst advance
  exact nomatch empty

/-- A field as it is written has no two numbers side by side, nor one that would follow a number. -/
theorem whole_tokensFrom (run : Nat) (afterNumber : Bool) (heights : List Nat) :
    ((tokensFrom run afterNumber heights).IsChain fun token next => ¬ (token.IsNumber ∧ next.IsNumber)) ∧
      (afterNumber = true → ∀ token ∈ (tokensFrom run afterNumber heights).head?, ¬ token.IsNumber) := by
  have gaps (run : Nat) (afterNumber : Bool) : ∀ token ∈ gap run afterNumber, ¬ token.IsNumber :=
    fun token => not_isNumber_of_mem_gap
  induction heights generalizing run afterNumber with
  | nil =>
    rw [tokensFrom, skipTokens_eq_gap]
    exact ⟨isChain_of_forall (gaps run false),
      fun _ token first => gaps run false token (List.mem_of_head? first)⟩
  | cons height rest ih =>
    rw [tokensFrom]
    split
    next => exact ih (run + 1) afterNumber
    next =>
      obtain ⟨whole, apart⟩ := ih 0 true
      constructor
      · refine List.isChain_append.mpr ⟨isChain_of_forall (gaps run afterNumber), ?_, ?_⟩
        · exact List.isChain_cons.mpr ⟨fun next first both => apart rfl next first both.2, whole⟩
        · intro token last next _ both
          exact gaps run afterNumber token (List.mem_of_getLast? last) both.1
      · rintro rfl token first
        obtain ⟨front, before, same⟩ := List.exists_cons_of_ne_nil (gap_ne_nil run)
        rw [same] at first
        cases first
        exact gaps run true token (same ▸ List.mem_cons_self ..)

/-! ### Heights -/

section Heights

variable {grid : Grid} {state : State}

private theorem flatten_heights (grid : Grid) (state : State) :
    (grid.heights state).flatten = (List.range (grid.size * grid.size)).map (Grid.heightOf state) := by
  rw [← flatMap_rows, Grid.heights, ← List.flatMap_def]
  refine List.flatMap_congr fun y _ => ?_
  rw [Grid.lineHeights, Grid.line, List.map_map]
  rfl

theorem getElem?_heights {i height : Nat} : (grid.heights state).flatten[i]? = some height ↔
    i < grid.size * grid.size ∧ Grid.heightOf state i = height := by
  rw [flatten_heights, List.getElem?_map, Option.map_eq_some_iff]
  constructor
  · rintro ⟨j, listed, same⟩
    obtain ⟨bound, rfl⟩ := List.getElem?_eq_some_iff.mp listed
    rw [List.getElem_range] at same
    rw [List.length_range] at bound
    exact ⟨bound, same⟩
  · rintro ⟨bound, same⟩
    exact ⟨i, List.getElem?_range bound, same⟩

private theorem heights_congr {other : State}
    (same : ∀ v < grid.size * grid.size, Grid.heightOf state v = Grid.heightOf other v) :
    grid.heights state = grid.heights other := by
  refine List.map_congr_left fun y bound => List.map_congr_left fun v member => same v ?_
  exact Grid.lt_of_mem_line (List.mem_range.mp bound) member

end Heights

/-! ### What is written -/

section Written

variable {grid : Grid} {state : State} {c : Char}

def written (grid : Grid) (state : State) : Spelling where
  size := digits grid.size
  clues := (Side.all.flatMap grid.clues.on).map fun clue => if clue = 0 then [] else digits clue
  field :=
    if (grid.heights state).flatten.all (· = 0) then none
    else some (tokensFrom 0 false (grid.heights state).flatten)

private theorem text_written (grid : Grid) (state : State) :
    (written grid state).text = text grid state := by
  unfold Spelling.text Spelling.parts Parts.text written text cluesText
  dsimp only
  congr 1
  by_cases blank : (grid.heights state).flatten.all (· = 0) = true
  · rw [if_pos blank, if_pos blank]
    rfl
  · rw [if_neg blank, if_neg blank, Option.map_some, fieldText_tokensFrom]

private theorem le_of_mem_clues {clue : Nat} (member : clue ∈ Side.all.flatMap grid.clues.on) :
    clue ≤ grid.size := by
  obtain ⟨side, _, listed⟩ := List.mem_flatMap.mp member
  cases side with
  | top => exact grid.clues.top.le_size clue listed
  | bottom => exact grid.clues.bottom.le_size clue listed
  | left => exact grid.clues.left.le_size clue listed
  | right => exact grid.clues.right.le_size clue listed

theorem length_allClues (grid : Grid) : (Side.all.flatMap grid.clues.on).length = 4 * grid.size := by
  simp only [Side.all, List.flatMap_cons, List.flatMap_nil, List.length_append, List.length_nil,
    Grid.length_clues]
  omega

private theorem isClue_digits {clue : Nat} (reads : ∀ n ≤ size, numeral (digits n) n) (low : clue ≤ size) :
    IsClue numeral (if clue = 0 then [] else digits clue) clue := by
  by_cases zero : clue = 0
  · exact .inl ⟨if_pos zero, zero⟩
  · rw [if_neg zero]
    exact .inr (reads clue low)

private theorem sound_written (size : state.size = grid.size)
    (reads : ∀ n ≤ grid.size, numeral (digits n) n) :
    (written grid state).Sound numeral grid.size where
  reads := reads grid.size le_rfl
  pos := grid.size_pos
  count := (List.length_map _).trans (length_allClues grid)
  clues := by
    intro text member
    obtain ⟨clue, listed, rfl⟩ := List.mem_map.mp member
    have low := le_of_mem_clues listed
    exact ⟨clue, low, isClue_digits reads low⟩
  field := by
    intro tokens given
    obtain ⟨_, rfl⟩ : _ ∧ _ = tokens := by simpa [written] using given
    refine ⟨⟨sound_tokensFrom (fun height member => ?_) 0 false, (whole_tokensFrom 0 false _).1⟩, ?_⟩
    · rw [flatten_heights] at member
      obtain ⟨v, _, rfl⟩ := List.mem_map.mp member
      have low := size ▸ Grid.heightOf_le state v
      exact ⟨low, reads _ low⟩
    · rw [advance_tokensFrom, flatten_heights, List.length_map, List.length_range, Nat.zero_add]

private theorem gives_written : (written grid state).Gives numeral v height ↔
    v < grid.size * grid.size ∧ Grid.heightOf state v ≠ 0 ∧
      numeral (digits (Grid.heightOf state v)) height := by
  have numbers : v < grid.size * grid.size ∧ Grid.heightOf state v ≠ 0 ∧
      numeral (digits (Grid.heightOf state v)) height ↔
        ∃ word, Puts 0 (tokensFrom 0 false (grid.heights state).flatten) v word ∧ numeral word height := by
    simp only [puts_tokensFrom, getElem?_heights]
    constructor
    · rintro ⟨inside, set, reads⟩
      exact ⟨_, ⟨v, _, ⟨inside, rfl⟩, set, by omega, rfl⟩, reads⟩
    · rintro ⟨word, ⟨i, _, ⟨inside, rfl⟩, set, place, rfl⟩, reads⟩
      obtain rfl : i = v := by omega
      exact ⟨inside, set, reads⟩
  rw [numbers]
  unfold Spelling.Gives written
  dsimp only
  by_cases blank : (grid.heights state).flatten.all (· = 0) = true
  · rw [if_pos blank]
    refine iff_of_false (fun ⟨tokens, given, _⟩ => nomatch given) ?_
    rintro ⟨word, puts, _⟩
    obtain ⟨i, height, listed, set, _⟩ := puts_tokensFrom.mp puts
    exact set (of_decide_eq_true (List.all_eq_true.mp blank height (List.mem_of_getElem? listed)))
  · rw [if_neg blank]
    constructor
    · rintro ⟨tokens, given, gives⟩
      cases given
      exact gives
    · intro gives
      exact ⟨_, rfl, gives⟩

end Written

/-! ### Reading what is written -/

theorem IsClue.unique {clue other : Nat} (first : IsClue limit.Reads word clue)
    (second : IsClue limit.Reads word other) : clue = other := by
  have none {n : Nat} (reads : limit.Reads [] n) : False := (DigitLimit.reads_iff.mp reads).1.1 rfl
  obtain ⟨rfl, rfl⟩ | reads := first
  · obtain ⟨_, rfl⟩ | reads := second
    · rfl
    · exact (none reads).elim
  · obtain ⟨rfl, _⟩ | again := second
    · exact (none reads).elim
    · exact reads.unique again

private theorem clueRow_ext {a b : ClueRow size} (same : a.values = b.values) : a = b := by
  cases a
  cases b
  cases same
  rfl

/-- A grid is settled by its size and its clues in order. -/
theorem grid_ext {a b : Grid} (size : a.size = b.size)
    (clues : Side.all.flatMap a.clues.on = Side.all.flatMap b.clues.on) : a = b := by
  obtain ⟨size, pos, ⟨top, bottom, left, right⟩⟩ := a
  obtain ⟨_, _, ⟨top', bottom', left', right'⟩⟩ := b
  cases size
  simp only [Side.all, List.flatMap_cons, List.flatMap_nil, List.append_nil, Clues.on] at clues
  obtain ⟨tops, clues⟩ := List.append_inj clues (top.length_eq.trans top'.length_eq.symm)
  obtain ⟨bottoms, clues⟩ := List.append_inj clues (bottom.length_eq.trans bottom'.length_eq.symm)
  obtain ⟨lefts, rights⟩ := List.append_inj clues (left.length_eq.trans left'.length_eq.symm)
  rw [clueRow_ext tops, clueRow_ext bottoms, clueRow_ext lefts, clueRow_ext rights]

private theorem eq_of_describes {grid other : Grid} {state parsed : State}
    (reads : ∀ n ≤ grid.size, limit.Reads (digits n) n)
    (describes : (written grid state).Describes limit.Reads other parsed) : other = grid := by
  have listed : (written grid state).clues.Forall₂ (IsClue limit.Reads) (Side.all.flatMap grid.clues.on) :=
    List.forall₂_map_left_iff.mpr (List.forall₂_same.mpr fun clue member =>
      isClue_digits reads (le_of_mem_clues member))
  refine grid_ext (describes.size.unique (reads grid.size le_rfl)) ?_
  exact List.right_unique_forall₂' (fun _ _ _ first second => first.unique second) describes.clues listed

/-- What is written for a state is read as the same grid, with the determined cells as its givens and
all others open. So the same is written again. -/
theorem parse_write {grid : Grid} {state : State} (reached : grid.initial.Reaches state)
    (fine : state.hasEmptyDomain = false) (allows : limit.Allows (digits grid.size).length) :
    ∃ parsed, parse limit (write grid state) = .ok (grid, parsed) ∧
      grid.heights parsed = grid.heights state ∧
      (∀ v < grid.size * grid.size, parsed.isLocked v = state.isDetermined v ∧
        (state.isDetermined v = false → parsed.candidates v = List.range grid.size)) ∧
      write grid parsed = write grid state := by
  have shaped := reached.shaped (Grid.shaped_initial grid)
  have reads (n : Nat) (low : n ≤ grid.size) : limit.Reads (digits n) n :=
    DigitLimit.reads_toDigits allows low
  have decimal := sound_written shaped.size_eq fun n _ => Text.decimal_toDigits n
  have same : (written grid state).text = Text.trim (write grid state).toList := by
    rw [write, String.toList_ofList, ← text_written, decimal.trim_text]
  obtain ⟨other, parsed, read, describes⟩ := parse_of_sound (sound_written shaped.size_eq reads) same
  obtain rfl := eq_of_describes reads describes
  -- A number is written for a determined cell and read as its height; all other cells are left open.
  have settled (v : Nat) (inside : v < other.size * other.size) (determined : state.isDetermined v = true) :
      parsed.isLocked v = true ∧ parsed.candidates v = state.candidates v := by
    have alone := isDetermined_iff_candidates.mp determined
    have height := Grid.heightOf_of_candidates alone
    have low : Grid.heightOf state v ≤ other.size := shaped.size_eq ▸ Grid.heightOf_le state v
    have gives : (written other state).Gives limit.Reads v (Grid.heightOf state v) :=
      gives_written.mpr ⟨inside, by omega, reads _ low⟩
    obtain ⟨locked, candidates⟩ := describes.fixed v _ gives (by omega)
    rw [height] at candidates
    exact ⟨locked, candidates.trans alone.symm⟩
  have left (v : Nat) (inside : v < other.size * other.size) (undetermined : state.isDetermined v = false) :
      parsed.isLocked v = false ∧ parsed.candidates v = List.range other.size := by
    refine describes.free v inside fun height gives => ?_
    exact absurd (Grid.heightOf_eq_zero undetermined) (gives_written.mp gives).2.1
  have heights : other.heights parsed = other.heights state := by
    refine heights_congr fun v inside => ?_
    cases determined : state.isDetermined v with
    | true =>
      have alone := isDetermined_iff_candidates.mp determined
      rw [Grid.heightOf_of_candidates alone,
        Grid.heightOf_of_candidates ((settled v inside determined).2.trans alone)]
    | false =>
      rw [Grid.heightOf_eq_zero determined]
      -- With two candidates there are two heights, so the cell is open again.
      have several : 1 < (state.candidates v).length := by
        have some := hasEmptyDomain_eq_false.mp fine v (shaped.count_eq ▸ inside)
        have many : ¬ (state.candidates v).length = 1 := by
          rw [← isDetermined_iff, determined]
          exact Bool.false_ne_true
        have := List.length_pos_iff.mpr some
        omega
      have bound : (state.candidates v).length ≤ other.size := by
        have short := (state.domain v).sublist.length_le
        rw [List.length_range] at short
        exact short.trans shaped.size_eq.le
      refine Grid.heightOf_eq_zero (Bool.eq_false_iff.mpr fun again => ?_)
      have single := isDetermined_iff.mp again
      rw [(left v inside determined).2, List.length_range] at single
      omega
  refine ⟨parsed, read, heights, fun v inside => ?_, ?_⟩
  · cases determined : state.isDetermined v with
    | true => exact ⟨(settled v inside determined).1, nofun⟩
    | false => exact ⟨(left v inside determined).1, fun _ => (left v inside determined).2⟩
  · rw [write, write, text, text, heights]

theorem parse_write_cornerClue :
    let state := Grid.cornerClue.initial.perform (.lock 3 0)
    write Grid.cornerClue state = "2:2///////,c1" ∧
      ∃ parsed, parse DigitLimit.usual "2:2///////,c1" = .ok (Grid.cornerClue, parsed) ∧
        Grid.cornerClue.heights parsed = [[0, 0], [0, 1]] ∧
        parsed.isLocked 3 = true ∧ parsed.isLocked 0 = false ∧ parsed.candidates 0 = [0, 1] := by
  intro state
  have spelled : write Grid.cornerClue state = "2:2///////,c1" := by decide
  have allows : DigitLimit.usual.Allows (digits Grid.cornerClue.size).length := by
    intro most given
    cases given
    decide
  obtain ⟨parsed, read, heights, cells, _⟩ := parse_write (.perform (.lock 3 0) .refl) (by decide) allows
  rw [spelled] at read
  exact ⟨spelled, parsed, read, heights.trans (by decide), (cells 3 (by decide)).1, (cells 0 (by decide)).1,
    (cells 0 (by decide)).2 (by decide)⟩

end PencilPuzzle.Towers.GameId
