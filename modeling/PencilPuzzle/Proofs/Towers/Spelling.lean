import PencilPuzzle.Proofs.Towers.Field

/-!
# Spellings of tower grids

A spelling is what an identifier should be: digits for the size, a text for each clue, and maybe a
field. An identifier with a sound spelling is read, and the grid and state that come out of it are what
the spelling describes. Every other identifier is refused, for one of a few reasons.
-/

namespace PencilPuzzle.Towers

/-! ### Rows of clues -/

theorem ClueRow.new_eq_ok {size : Nat} {values : List Nat} (count : values.length = size)
    (bounded : ∀ clue ∈ values, clue ≤ size) (side : Side) :
    ∃ row, ClueRow.new size side (values.map Int.ofNat) = .ok row ∧ row.values = values := by
  have length_eq : (values.map Int.ofNat).length = size := by rw [List.length_map, count]
  have inside : ∀ clue ∈ values.map Int.ofNat, 0 ≤ clue ∧ clue ≤ size := by
    intro clue member
    obtain ⟨value, listed, rfl⟩ := List.mem_map.mp member
    exact ⟨Int.natCast_nonneg value, Int.ofNat_le.mpr (bounded value listed)⟩
  unfold ClueRow.new
  rw [dif_pos length_eq, dif_pos inside]
  refine ⟨_, rfl, ?_⟩
  show (values.map Int.ofNat).map Int.toNat = values
  rw [List.map_map]
  exact List.map_id' values

namespace GameId

/-! ### What an identifier is made of -/

namespace Parts

def text (parts : Parts) : List Char :=
  parts.size ++ ':' :: parts.clues ++
    match parts.field with
    | none => []
    | some field => ',' :: field

/-- An identifier can be taken apart into these parts. -/
structure Sound (parts : Parts) : Prop where
  nonempty : parts.size ≠ []
  digits : ∀ c ∈ parts.size, Text.isDigit c = true
  clues : ',' ∉ parts.clues
  field : ∀ field ∈ parts.field, '\n' ∉ field

structure Opens (numeral : List Char → Nat → Prop) (parts : Parts) (size : Nat) : Prop where
  sound : parts.Sound
  reads : numeral parts.size size
  pos : 1 ≤ size
  count : (Text.splitOn '/' parts.clues).length = 4 * size

end Parts

/-- The text of a clue; without any text there is none. -/
def IsClue (numeral : List Char → Nat → Prop) (text : List Char) (clue : Nat) : Prop :=
  text = [] ∧ clue = 0 ∨ numeral text clue

/-- With everything before it in order, a piece is the next to be read. -/
inductive Parts.LeadTo (numeral : List Char → Nat → Prop) (parts : Parts) (size : Nat) : List Char → Prop
  | clue {before after : List (List Char)} {piece : List Char}
      (cut : Text.splitOn '/' parts.clues = before ++ piece :: after)
      (sound : ∀ text ∈ before, ∃ clue ≤ size, IsClue numeral text clue) : LeadTo numeral parts size piece
  | token {field piece : List Char} {tokens : List Token} {pieces : List (List Char)}
      (clues : ∀ text ∈ Text.splitOn '/' parts.clues, ∃ clue ≤ size, IsClue numeral text clue)
      (given : parts.field = some field)
      (cut : Text.runs Text.isDigit field = tokens.map Token.text ++ piece :: pieces)
      (sound : ∀ token ∈ tokens, token.Sound numeral size)
      (inside : ∀ v digits, Puts 0 tokens v digits → v < size * size) : LeadTo numeral parts size piece

/-- The size, a text for each clue, and maybe the tokens of a field. -/
structure Spelling where
  size : List Char
  clues : List (List Char)
  field : Option (List Token)

namespace Spelling

def parts (spelling : Spelling) : Parts :=
  ⟨spelling.size, Text.joinWith '/' spelling.clues, spelling.field.map fieldText⟩

def text (spelling : Spelling) : List Char := spelling.parts.text

/-- It is one of a grid of this size, its numbers being read in a given way. -/
structure Sound (numeral : List Char → Nat → Prop) (spelling : Spelling) (size : Nat) : Prop where
  reads : numeral spelling.size size
  pos : 1 ≤ size
  count : spelling.clues.length = 4 * size
  clues : ∀ text ∈ spelling.clues, ∃ clue ≤ size, IsClue numeral text clue
  field : ∀ tokens ∈ spelling.field, IsField numeral size tokens ∧ advance tokens = size * size

/-- The field has a number at this cell. -/
def Gives (numeral : List Char → Nat → Prop) (spelling : Spelling) (v height : Nat) : Prop :=
  ∃ tokens ∈ spelling.field, ∃ digits, Puts 0 tokens v digits ∧ numeral digits height

/-- The grid has the clues in order, and the state fixes the cells with a number other than 0; all
other cells may have any height. -/
structure Describes (numeral : List Char → Nat → Prop) (spelling : Spelling) (grid : Grid) (state : State) :
    Prop where
  size : numeral spelling.size grid.size
  clues : spelling.clues.Forall₂ (IsClue numeral) (Side.all.flatMap grid.clues.on)
  frame : state.frame = grid.initial.frame
  trail : state.trail = []
  fixed : ∀ v height, spelling.Gives numeral v height → height ≠ 0 →
    state.isLocked v = true ∧ state.candidates v = [height - 1]
  free : ∀ v < grid.size * grid.size, (∀ height, spelling.Gives numeral v height → height = 0) →
    state.isLocked v = false ∧ state.candidates v = List.range grid.size

end Spelling

variable {limit : DigitLimit} {id : String} {size : Nat} {texts : List (List Char)} {clues : List Nat}
  {text piece : List Char} {clue : Nat} {fault : Fault} {parts : Parts} {tokens : List Token}
  {numeral : List Char → Nat → Prop} {spelling : Spelling} {grid : Grid} {state : State}

theorem new_eq_ok (pos : 1 ≤ size) (count : clues.length = 4 * size)
    (bounded : ∀ clue ∈ clues, clue ≤ size) :
    ∃ grid, Grid.new size (cluesOn size clues) = .ok grid ∧ grid.size = size ∧
      Side.all.flatMap grid.clues.on = clues := by
  have row (side : Side) : ∃ row, ClueRow.new size side (cluesOn size clues side) = .ok row ∧
      row.values = (clues.drop (side.index * size)).take size := by
    refine ClueRow.new_eq_ok ?_ (fun clue member => ?_) side
    · have last : side.index + 1 ≤ 4 := by cases side <;> decide
      have : (side.index + 1) * size ≤ 4 * size := Nat.mul_le_mul_right size last
      rw [Nat.succ_mul] at this
      rw [List.length_take, List.length_drop, count]
      omega
    · exact bounded clue (List.mem_of_mem_drop (List.mem_of_mem_take member))
  obtain ⟨top, hereTop, valuesTop⟩ := row .top
  obtain ⟨bottom, hereBottom, valuesBottom⟩ := row .bottom
  obtain ⟨left, hereLeft, valuesLeft⟩ := row .left
  obtain ⟨right, hereRight, valuesRight⟩ := row .right
  refine ⟨⟨size, pos, ⟨top, bottom, left, right⟩⟩, ?_, rfl, ?_⟩
  · rw [Grid.new, dif_pos (show 0 < (size : Int).toNat from pos)]
    simp only [Int.toNat_natCast, hereTop, hereBottom, hereLeft, hereRight]
    rfl
  · simp only [Side.all, List.flatMap_cons, List.flatMap_nil, Clues.on, valuesTop, valuesBottom,
      valuesLeft, valuesRight, Side.index]
    have step (n : Nat) : (clues.drop (n * size)).take size ++ clues.drop ((n + 1) * size) =
        clues.drop (n * size) := by
      rw [Nat.succ_mul, ← List.drop_drop]
      exact List.take_append_drop size _
    have none : clues.drop (4 * size) = [] := List.drop_eq_nil_of_le (by omega)
    rw [← none, step 3, step 2, step 1, step 0, Nat.zero_mul, List.drop_zero]

/-! ### Clues -/

private theorem readClue_eq_ok : readClue limit id size text = .ok clue ↔
    IsClue limit.Reads text clue ∧ clue ≤ size := by
  unfold readClue IsClue
  cases text with
  | nil =>
    have none : ¬ limit.Reads [] clue := fun reads => (DigitLimit.reads_iff.mp reads).1.1 rfl
    constructor
    · intro read
      cases read
      exact ⟨.inl ⟨rfl, rfl⟩, Nat.zero_le size⟩
    · rintro ⟨⟨_, rfl⟩ | reads, _⟩
      · rfl
      · exact absurd reads none
  | cons c rest =>
    rw [List.isEmpty_cons, if_neg Bool.false_ne_true]
    constructor
    · intro read
      split at read
      next =>
        obtain ⟨n, reads, read⟩ := bind_eq_ok.mp read
        split at read
        next low =>
          cases read
          exact ⟨.inr reads, low⟩
        next => exact nomatch read
      next => exact nomatch read
    · rintro ⟨⟨empty, _⟩ | reads, low⟩
      · exact nomatch empty
      · rw [if_pos (isDigits_of_reads reads), show limit.read (c :: rest) = .ok clue from reads]
        exact if_pos low

private theorem readClue_eq_error (h : readClue limit id size text = .error fault) :
    (∃ cause, fault = .gameId cause) ∨ isDigits text = true ∧ limit.read text = .error fault := by
  unfold readClue at h
  split at h
  next => exact nomatch h
  next =>
    split at h
    next like =>
      cases read : limit.read text with
      | error other =>
        rw [read] at h
        cases h
        exact .inr ⟨like, rfl⟩
      | ok n =>
        rw [read] at h
        refine .inl ?_
        by_cases low : n ≤ size
        · exact nomatch h.symm.trans (if_pos low)
        · exact ⟨_, (Except.error.inj (h.symm.trans (if_neg low)))⟩
    next =>
      cases h
      exact .inl ⟨_, rfl⟩

private theorem readClue_of_unread (like : isDigits piece = true) (unread : limit.read piece = .error fault)
    (id : String) (size : Nat) : readClue limit id size piece = .error fault := by
  have some : ¬ piece.isEmpty = true := by
    intro empty
    rw [isDigits, empty] at like
    exact Bool.false_ne_true like
  rw [readClue, if_neg some, if_pos like, unread]
  rfl

private theorem readClues_eq_ok : readClues limit id size texts = .ok clues ↔
    texts.Forall₂ (IsClue limit.Reads) clues ∧ ∀ clue ∈ clues, clue ≤ size := by
  induction texts generalizing clues with
  | nil =>
    rw [List.forall₂_nil_left_iff]
    constructor
    · intro read
      cases read
      exact ⟨rfl, fun clue member => absurd member List.not_mem_nil⟩
    · rintro ⟨rfl, _⟩
      rfl
  | cons text rest ih =>
    constructor
    · intro read
      obtain ⟨clue, here, read⟩ := bind_eq_ok.mp read
      obtain ⟨others, later, read⟩ := bind_eq_ok.mp read
      cases read
      obtain ⟨sound, low⟩ := readClue_eq_ok.mp here
      obtain ⟨sounds, bounded⟩ := ih.mp later
      exact ⟨.cons sound sounds, List.forall_mem_cons.mpr ⟨low, bounded⟩⟩
    · rintro ⟨listed, bounded⟩
      cases listed with
      | cons here later =>
        obtain ⟨low, bounded⟩ := List.forall_mem_cons.mp bounded
        rw [readClues, readClue_eq_ok.mpr ⟨here, low⟩, ih.mpr ⟨later, bounded⟩]
        rfl

private theorem exists_readClues : (∃ clues, readClues limit id size texts = .ok clues) ↔
    ∀ text ∈ texts, ∃ clue ≤ size, IsClue limit.Reads text clue := by
  induction texts with
  | nil => exact ⟨fun _ text member => absurd member List.not_mem_nil, fun _ => ⟨[], rfl⟩⟩
  | cons text rest ih =>
    rw [List.forall_mem_cons, ← ih]
    constructor
    · rintro ⟨clues, read⟩
      obtain ⟨clue, here, read⟩ := bind_eq_ok.mp read
      obtain ⟨others, later, _⟩ := bind_eq_ok.mp read
      exact ⟨⟨clue, (readClue_eq_ok.mp here).symm⟩, others, later⟩
    · rintro ⟨⟨clue, low, here⟩, others, later⟩
      refine ⟨clue :: others, ?_⟩
      rw [readClues, readClue_eq_ok.mpr ⟨here, low⟩, later]
      rfl

private theorem readClues_eq_error (h : readClues limit id size texts = .error fault) :
    (∃ cause, fault = .gameId cause) ∨ ∃ before piece after, texts = before ++ piece :: after ∧
      (∀ text ∈ before, ∃ clue ≤ size, IsClue limit.Reads text clue) ∧
      isDigits piece = true ∧ limit.read piece = .error fault := by
  induction texts with
  | nil => exact nomatch h
  | cons text rest ih =>
    rw [readClues] at h
    cases here : readClue limit id size text with
    | error other =>
      rw [here] at h
      cases h
      refine (readClue_eq_error here).imp_right fun unread => ?_
      exact ⟨[], text, rest, rfl, fun _ member => absurd member List.not_mem_nil, unread⟩
    | ok clue =>
      obtain ⟨sound, low⟩ := readClue_eq_ok.mp here
      rw [here] at h
      cases later : readClues limit id size rest with
      | ok others =>
        rw [later] at h
        exact nomatch h
      | error other =>
        rw [later] at h
        cases h
        obtain refused | ⟨before, piece, after, rfl, sounds, unread⟩ := ih later
        · exact .inl refused
        · exact .inr ⟨text :: before, piece, after, rfl,
            List.forall_mem_cons.mpr ⟨⟨clue, low, sound⟩, sounds⟩, unread⟩

private theorem readClues_of_unread {before after : List (List Char)}
    (sound : ∀ text ∈ before, ∃ clue ≤ size, IsClue limit.Reads text clue)
    (like : isDigits piece = true) (unread : limit.read piece = .error fault) (id : String) :
    readClues limit id size (before ++ piece :: after) = .error fault := by
  induction before with
  | nil =>
    rw [List.nil_append, readClues, readClue_of_unread like unread id size]
    rfl
  | cons text rest ih =>
    obtain ⟨⟨clue, low, here⟩, sound⟩ := List.forall_mem_cons.mp sound
    rw [List.cons_append, readClues, readClue_eq_ok.mpr ⟨here, low⟩, ih sound]
    rfl

/-! ### Parts -/

/-- There is at most one way to take an identifier apart. -/
theorem parts?_eq_some : parts? text = some parts ↔ parts.Sound ∧ parts.text = text := by
  have colon : Text.isDigit ':' = false := by decide
  constructor
  · intro found
    obtain ⟨⟨size, rest⟩, run, cut⟩ := Option.bind_eq_some_iff.mp found
    obtain ⟨rfl, some, inside⟩ := (Text.runUpTo_eq_some colon).mp run
    have whole : rest.takeWhile (· ≠ ',') ++ rest.dropWhile (· ≠ ',') = rest :=
      List.takeWhile_append_dropWhile
    have clean : ',' ∉ rest.takeWhile (· ≠ ',') := by
      intro member
      exact of_decide_eq_true (List.all_eq_true.mp List.all_takeWhile ',' member) rfl
    dsimp only at cut
    split at cut
    next back =>
      cases cut
      refine ⟨⟨some, inside, clean, nofun⟩, ?_⟩
      rw [back, List.append_nil] at whole
      simp only [Parts.text, whole, List.append_nil]
    next comma field back =>
      split at cut
      next => exact nomatch cut
      next line =>
        cases cut
        have stops : comma = ',' := by
          have first : (rest.dropWhile (· ≠ ',')).head? = Option.some comma := by rw [back]; rfl
          have outside := List.head?_dropWhile_not (· ≠ ',') rest
          rw [first] at outside
          simpa using outside
        refine ⟨⟨some, inside, clean, fun other here => Option.some.inj here ▸ line⟩, ?_⟩
        rw [back, stops] at whole
        simp only [Parts.text, List.append_assoc, List.cons_append, whole]
  · rintro ⟨⟨some, inside, clean, line⟩, rfl⟩
    obtain ⟨size, clues, field⟩ := parts
    have kept : ∀ c ∈ clues, decide (c ≠ ',') = true := by
      intro c member
      exact decide_eq_true fun same => clean (same ▸ member)
    cases field with
    | none =>
      refine Option.bind_eq_some_iff.mpr ⟨(size, clues), ?_, ?_⟩
      · exact (Text.runUpTo_eq_some colon).mpr ⟨by simp [Parts.text], some, inside⟩
      · dsimp only
        rw [List.dropWhile_eq_nil_iff.mpr kept, List.takeWhile_eq_self_iff.mpr kept]
    | some field =>
      refine Option.bind_eq_some_iff.mpr ⟨(size, clues ++ ',' :: field), ?_, ?_⟩
      · exact (Text.runUpTo_eq_some colon).mpr ⟨by simp [Parts.text], some, inside⟩
      · dsimp only
        rw [Text.dropWhile_block kept (by decide), Text.takeWhile_block kept (by decide)]
        exact if_neg (line field rfl)

/-! ### Reading a spelling -/

private theorem isDigit_of_isClue (sound : IsClue limit.Reads text clue) :
    ∀ c ∈ text, Text.isDigit c = true := by
  obtain ⟨rfl, _⟩ | reads := sound
  · exact fun c member => absurd member List.not_mem_nil
  · exact (DigitLimit.reads_iff.mp reads).1.isDigit

private theorem Spelling.Sound.sound_parts (sound : spelling.Sound limit.Reads size) :
    spelling.parts.Sound where
  nonempty := (DigitLimit.reads_iff.mp sound.reads).1.1
  digits := (DigitLimit.reads_iff.mp sound.reads).1.isDigit
  clues := by
    intro member
    obtain same | ⟨text, listed, inside⟩ := Text.mem_joinWith member
    · exact absurd same (by decide)
    · obtain ⟨clue, _, here⟩ := sound.clues text listed
      exact absurd (isDigit_of_isClue here ',' inside) (by decide)
  field := by
    intro field given member
    obtain ⟨tokens, here, rfl⟩ := Option.map_eq_some_iff.mp given
    obtain ⟨token, listed, inside⟩ := List.mem_flatMap.mp member
    exact not_mem_text ((sound.field tokens here).1.sound token listed) inside

private theorem Spelling.Sound.splitOn_clues (sound : spelling.Sound limit.Reads size) :
    Text.splitOn '/' spelling.parts.clues = spelling.clues := by
  refine Text.splitOn_joinWith (fun text listed member => ?_) fun none => ?_
  · obtain ⟨clue, _, here⟩ := sound.clues text listed
    exact absurd (isDigit_of_isClue here '/' member) (by decide)
  · have count := sound.count
    have pos := sound.pos
    rw [none, List.length_nil] at count
    omega

/-- What happens once the size is read. -/
theorem parse_of_reads (sound : parts.Sound) (same : parts.text = Text.trim id.toList)
    (reads : limit.Reads parts.size size) :
    parse limit id =
      if size = 0 then .error (.gameId (.emptyTowers id))
      else if (Text.splitOn '/' parts.clues).length ≠ 4 * size then
        .error (limit.faultAbout (4 * size : Nat)
          (.gameId (.clueCount (4 * size) (Text.splitOn '/' parts.clues).length id)))
      else (do
        let clues ← readClues limit id size (Text.splitOn '/' parts.clues)
        let grid ← Grid.new size (cluesOn size clues)
        match parts.field with
        | none => .ok (grid, grid.initial)
        | some field =>
          (loadField limit id grid grid.initial 0 (Text.runs Text.isDigit field)).map (Prod.mk grid)) := by
  rw [parse, parts?_eq_some.mpr ⟨sound, same⟩]
  dsimp only
  rw [show limit.read parts.size = .ok size from reads]
  refine congrArg (ite _ _) (congrArg (ite _ _) (bind_congr fun clues => bind_congr fun grid => ?_))
  cases parts.field with
  | none => rfl
  | some field =>
    show loadField limit id grid grid.initial 0 (Text.runs Text.isDigit field) >>= _ =
      (loadField limit id grid grid.initial 0 (Text.runs Text.isDigit field)).map (Prod.mk grid)
    cases loadField limit id grid grid.initial 0 (Text.runs Text.isDigit field) <;> rfl

/-- An identifier whose size and number of clues are in order is read clue by clue. -/
theorem parse_of_opens (opens : parts.Opens limit.Reads size) (same : parts.text = Text.trim id.toList) :
    (∀ fault, readClues limit id size (Text.splitOn '/' parts.clues) = .error fault →
      parse limit id = .error fault) ∧
    ∀ clues, readClues limit id size (Text.splitOn '/' parts.clues) = .ok clues →
      ∃ grid, grid.size = size ∧ Side.all.flatMap grid.clues.on = clues ∧
        parse limit id =
          match parts.field with
          | none => .ok (grid, grid.initial)
          | some field =>
            (loadField limit id grid grid.initial 0 (Text.runs Text.isDigit field)).map (Prod.mk grid) := by
  obtain ⟨sound, reads, pos, count⟩ := opens
  have positive : ¬ size = 0 := by omega
  rw [parse_of_reads sound same reads, if_neg positive, if_neg (not_not.mpr count)]
  constructor
  · intro fault failed
    rw [failed]
    rfl
  · intro clues read
    obtain ⟨listed, bounded⟩ := readClues_eq_ok.mp read
    obtain ⟨grid, made, sized, kept⟩ := new_eq_ok pos (listed.length_eq.symm.trans count) bounded
    refine ⟨grid, sized, kept, ?_⟩
    rw [read]
    show Grid.new size (cluesOn size clues) >>= _ = _
    rw [made]
    rfl

private theorem isLocked_initial (grid : Grid) (v : Nat) : grid.initial.isLocked v = false :=
  (State.isLocked_mk (.blank (grid.size * grid.size) grid.size) ..).trans (State.isLocked_blank ..)

private theorem candidates_initial {v : Nat} (inside : v < grid.size * grid.size) :
    grid.initial.candidates v = List.range grid.size :=
  (State.candidates_mk (.blank (grid.size * grid.size) grid.size) ..).trans
    (State.candidates_blank inside grid.size)

private theorem describes_of_loads (sound : spelling.Sound limit.Reads grid.size)
    (listed : spelling.clues.Forall₂ (IsClue limit.Reads) (Side.all.flatMap grid.clues.on))
    (loads : Loads limit.Reads 0 (spelling.field.getD []) grid.initial state) :
    spelling.Describes limit.Reads grid state where
  size := sound.reads
  clues := listed
  frame := loads.frame
  trail := (loads.fresh (fresh_initial grid)).trail
  fixed := by
    rintro v height ⟨tokens, here, digits, puts, reads⟩ set
    rw [Option.mem_def.mp here] at loads
    exact loads.fixed v digits height puts reads set
  free := by
    intro v inside unset
    obtain ⟨locked, candidates⟩ := loads.kept v fun digits height puts reads => by
      cases here : spelling.field with
      | none =>
        rw [here] at puts
        exact absurd puts not_puts_nil
      | some tokens =>
        rw [here] at puts
        exact unset height ⟨tokens, here, digits, puts, reads⟩
    rw [locked, candidates, isLocked_initial, candidates_initial inside]
    exact ⟨rfl, rfl⟩

/-- An identifier with a sound spelling is read, and the spelling describes what comes out. -/
theorem parse_of_sound (sound : spelling.Sound limit.Reads size)
    (same : spelling.text = Text.trim id.toList) :
    ∃ grid state, parse limit id = .ok (grid, state) ∧ spelling.Describes limit.Reads grid state := by
  have cut := sound.splitOn_clues
  have opens : spelling.parts.Opens limit.Reads size :=
    ⟨sound.sound_parts, sound.reads, sound.pos, (congrArg List.length cut).trans sound.count⟩
  obtain ⟨_, read⟩ := parse_of_opens opens same
  rw [cut] at read
  obtain ⟨clues, fine⟩ := exists_readClues.mpr sound.clues
  have listed := (readClues_eq_ok.mp fine).1
  obtain ⟨grid, rfl, kept, parsed⟩ := read clues fine
  rw [← kept] at listed
  cases given : spelling.field with
  | none =>
    refine ⟨grid, grid.initial, ?_, describes_of_loads sound listed ?_⟩
    · rw [parsed, Spelling.parts, given]
      rfl
    · rw [given]
      exact loads_of_open fun v digits height puts => absurd puts not_puts_nil
  | some tokens =>
    obtain ⟨field, covers⟩ := sound.field tokens given
    obtain ⟨state, loaded, loads⟩ := loadField_of_sound (fresh_initial grid) field.sound
      ((Nat.zero_add _).trans covers) id
    refine ⟨grid, state, ?_, describes_of_loads sound listed ?_⟩
    · rw [parsed, Spelling.parts, given]
      dsimp only [Option.map_some]
      rw [runs_fieldText field, loaded]
      rfl
    · rw [given]
      exact loads

/-! ### Spellings in the digits from 0 to 9 -/

private theorem shown_of_decimal {c : Char} {n : Nat} (decimal : Text.Decimal text n) (member : c ∈ text) :
    33 ≤ c.toNat ∧ c.toNat ≤ 126 := by
  have := Text.digit_bounds.mp (decimal.2.1 c member)
  omega

private theorem shown_text {token : Token} {c : Char} (sound : token.Sound Text.Decimal size)
    (member : c ∈ token.text) : 33 ≤ c.toNat ∧ c.toNat ≤ 126 := by
  cases token with
  | skip letter =>
    have low : 97 ≤ letter.toNat ∧ letter.toNat ≤ 122 := sound
    rw [List.mem_singleton.mp member]
    omega
  | bar =>
    rw [List.mem_singleton.mp member]
    decide
  | number digits =>
    obtain ⟨height, _, decimal⟩ := sound
    exact shown_of_decimal decimal member

theorem Spelling.Sound.shown {c : Char} (sound : spelling.Sound Text.Decimal size)
    (member : c ∈ spelling.text) : 33 ≤ c.toNat ∧ c.toNat ≤ 126 := by
  rw [Spelling.text, Parts.text, List.mem_append, List.mem_append, List.mem_cons] at member
  obtain (front | rfl | middle) | back := member
  · exact shown_of_decimal sound.reads front
  · decide
  · obtain rfl | ⟨text, listed, inside⟩ := Text.mem_joinWith middle
    · decide
    · obtain ⟨clue, _, ⟨rfl, _⟩ | decimal⟩ := sound.clues text listed
      · exact absurd inside List.not_mem_nil
      · exact shown_of_decimal decimal inside
  · cases given : spelling.field with
    | none =>
      rw [Spelling.parts, given] at back
      exact absurd back List.not_mem_nil
    | some tokens =>
      rw [Spelling.parts, given] at back
      obtain rfl | inside := List.mem_cons.mp back
      · decide
      · obtain ⟨token, listed, here⟩ := List.mem_flatMap.mp inside
        exact shown_text ((sound.field tokens given).1.sound token listed) here

theorem Spelling.Sound.trim_text (sound : spelling.Sound Text.Decimal size) :
    Text.trim spelling.text = spelling.text :=
  Text.trimBy_eq_self (fun _ first => Text.isBlank_eq_false (sound.shown (List.mem_of_head? first)))
    fun _ last => Text.isBlank_eq_false (sound.shown (List.mem_of_getLast? last))

/-! ### Reading anything else -/

theorem parse_of_unread (sound : parts.Sound) (same : parts.text = Text.trim id.toList)
    (unread : limit.read parts.size = .error fault) : parse limit id = .error fault := by
  rw [parse, parts?_eq_some.mpr ⟨sound, same⟩]
  dsimp only
  rw [unread]
  rfl

theorem parse_of_leadTo (opens : parts.Opens limit.Reads size) (same : parts.text = Text.trim id.toList)
    (leads : parts.LeadTo limit.Reads size piece) (like : isDigits piece = true)
    (unread : limit.read piece = .error fault) : parse limit id = .error fault := by
  obtain ⟨stops, goes⟩ := parse_of_opens opens same
  cases leads with
  | clue cut sound => exact stops fault (cut ▸ readClues_of_unread sound like unread id)
  | token clues given cut sound inside =>
    obtain ⟨clues, read⟩ := exists_readClues.mpr clues
    obtain ⟨grid, rfl, _, parsed⟩ := goes clues read
    obtain ⟨state, _, loaded⟩ := loadField_append (fresh_initial grid) sound inside id
    rw [parsed, given]
    dsimp only
    rw [cut, loaded, loadField, loadToken_of_isDigits like, loadNumber, unread]
    rfl

/-- What comes of an identifier. -/
inductive Outcome (limit : DigitLimit) (id : String) : Prop
  | spelled (spelling : Spelling) (size : Nat) (same : spelling.text = Text.trim id.toList)
      (sound : spelling.Sound limit.Reads size)
  | refused (cause : GameIdFault) (failed : parse limit id = .error (.gameId cause))
  | unreadSize (parts : Parts) (fault : Fault) (sound : parts.Sound) (same : parts.text = Text.trim id.toList)
      (unread : limit.read parts.size = .error fault) (failed : parse limit id = .error fault)
  | longCount (parts : Parts) (size most : Nat) (same : parts.text = Text.trim id.toList)
      (reads : limit.Reads parts.size size) (given : most ∈ limit)
      (beyond : most < DigitLimit.digitCount (4 * size : Nat))
      (failed : parse limit id = .error (.numeral (.longNumber most)))
  | unread (parts : Parts) (size : Nat) (piece : List Char) (fault : Fault)
      (opens : parts.Opens limit.Reads size) (same : parts.text = Text.trim id.toList)
      (leads : parts.LeadTo limit.Reads size piece) (like : isDigits piece = true)
      (unread : limit.read piece = .error fault) (failed : parse limit id = .error fault)

private theorem outcome_of_opens (opens : parts.Opens limit.Reads size)
    (same : parts.text = Text.trim id.toList) : Outcome limit id := by
  obtain ⟨stops, goes⟩ := parse_of_opens opens same
  have joined : Text.joinWith '/' (Text.splitOn '/' parts.clues) = parts.clues :=
    Text.joinWith_splitOn '/' parts.clues
  cases read : readClues limit id size (Text.splitOn '/' parts.clues) with
  | error fault =>
    have failed := stops fault read
    obtain ⟨cause, rfl⟩ | ⟨before, piece, after, cut, sound, like, unread⟩ := readClues_eq_error read
    · exact .refused cause failed
    · exact .unread parts size piece fault opens same (.clue cut sound) like unread failed
  | ok clues =>
    obtain ⟨grid, rfl, kept, parsed⟩ := goes clues read
    have sound := exists_readClues.mp ⟨clues, read⟩
    cases given : parts.field with
    | none =>
      refine .spelled ⟨parts.size, Text.splitOn '/' parts.clues, none⟩ grid.size ?_
        ⟨opens.reads, opens.pos, opens.count, sound, nofun⟩
      rw [← same, Spelling.text, Spelling.parts, joined, Option.map_none, ← given]
    | some field =>
      rw [given] at parsed
      dsimp only at parsed
      obtain ⟨tokens, cut, sounds, covers⟩ | ⟨cause, failed⟩ |
          ⟨tokens, piece, rest, fault, cut, sounds, inside, like, unread, failed⟩ :=
        loadField_cases (fresh_initial grid)
          (fun _ (member : _ ∈ Text.runs Text.isDigit field) => Text.isPiece_of_mem_runs member) limit id 0
      · refine .spelled ⟨parts.size, Text.splitOn '/' parts.clues, some tokens⟩ grid.size ?_
          ⟨opens.reads, opens.pos, opens.count, sound, ?_⟩
        · have whole : fieldText tokens = field := by
            rw [fieldText, List.flatMap_def, ← cut, Text.flatten_runs]
          rw [← same, Spelling.text, Spelling.parts, joined, Option.map_some, whole, ← given]
        · intro others here
          cases here
          refine ⟨isField_of_runs sounds (cut.trans (List.append_nil _).symm), ?_⟩
          rw [← covers, Nat.zero_add]
      · refine .refused cause ?_
        rw [parsed, failed]
        rfl
      · refine .unread parts grid.size piece fault opens same (.token sound given cut sounds inside) like
          unread ?_
        rw [parsed, failed]
        rfl

theorem outcome (limit : DigitLimit) (id : String) : Outcome limit id := by
  cases found : parts? (Text.trim id.toList) with
  | none => exact .refused (.malformedTowers id) (by rw [parse, found])
  | some parts =>
    obtain ⟨sound, same⟩ := parts?_eq_some.mp found
    cases read : limit.read parts.size with
    | error fault =>
      exact .unreadSize parts fault sound same read (parse_of_unread sound same read)
    | ok size =>
      have opened := parse_of_reads sound same read
      by_cases zero : size = 0
      · exact .refused (.emptyTowers id) (opened.trans (if_pos zero))
      by_cases count : (Text.splitOn '/' parts.clues).length = 4 * size
      · exact outcome_of_opens ⟨sound, read, Nat.pos_of_ne_zero zero, count⟩ same
      · have failed := opened.trans ((if_neg zero).trans (if_pos count))
        obtain same' | ⟨most, given, beyond, same'⟩ := limit.faultAbout_cases (4 * size : Nat)
            (.gameId (.clueCount (4 * size) (Text.splitOn '/' parts.clues).length id))
        · rw [same'] at failed
          exact .refused _ failed
        · rw [same'] at failed
          exact .longCount parts size most same read given beyond failed

end GameId

end PencilPuzzle.Towers
