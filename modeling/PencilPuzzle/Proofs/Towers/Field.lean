import PencilPuzzle.Proofs.Numeral
import PencilPuzzle.Proofs.Rows
import PencilPuzzle.Proofs.Text.Split
import PencilPuzzle.Proofs.Towers.Grid
import PencilPuzzle.Towers.GameId

/-!
# Fields of tower grids

A field is a row of tokens: a letter skips cells, a number is the height of a cell, and a bar stands
between numbers. Each token of a field does one thing to a state that is still open, so a row of tokens
fixes the cells at its numbers and leaves all others as they are. Whatever a field is cut into, reading
it either finds such a row of tokens, or stops at the first piece that is none.
-/

namespace PencilPuzzle.Towers.GameId

open State

/-! ### Tokens -/

inductive Token where
  | skip (letter : Char)
  | bar
  | number (digits : List Char)
  deriving DecidableEq

namespace Token

def text : Token → List Char
  | skip letter => [letter]
  | bar => ['_']
  | number digits => digits

/-- How many cells it goes on: a letter as many as its place in the alphabet. -/
def advance : Token → Nat
  | skip letter => letter.toNat - 'a'.toNat + 1
  | bar => 0
  | number _ => 1

def IsNumber : Token → Prop
  | number _ => True
  | _ => False

/-- It may stand in the field of a grid of this size, whose numbers are read in a given way. -/
def Sound (numeral : List Char → Nat → Prop) (size : Nat) : Token → Prop
  | skip letter => 'a' ≤ letter ∧ letter ≤ 'z'
  | bar => True
  | number digits => ∃ height ≤ size, numeral digits height

end Token

def fieldText (tokens : List Token) : List Char := tokens.flatMap Token.text

def advance (tokens : List Token) : Nat := Marks.advance Token.advance tokens

/-- Tokens of a field, in which no number is cut in two. -/
structure IsField (numeral : List Char → Nat → Prop) (size : Nat) (tokens : List Token) : Prop where
  sound : ∀ token ∈ tokens, token.Sound numeral size
  whole : tokens.IsChain fun token next => ¬ (token.IsNumber ∧ next.IsNumber)

/-- Going on from a cell, the tokens come to a cell where they have a number. -/
def Puts (cell : Nat) (tokens : List Token) (v : Nat) (digits : List Char) : Prop :=
  Marks.Meets Token.advance cell tokens v (.number digits)

variable {numeral : List Char → Nat → Prop} {limit : DigitLimit} {id : String} {grid : Grid}
  {s t u : State} {cell v height size : Nat} {token : Token} {tokens others : List Token}
  {digits piece text : List Char} {letter : Char} {pieces : List (List Char)} {fault : Fault}

theorem advance_cons (token : Token) (tokens : List Token) :
    advance (token :: tokens) = token.advance + advance tokens :=
  Marks.advance_cons Token.advance token tokens

theorem not_puts_nil : ¬ Puts cell [] v digits := Marks.not_meets_nil

theorem puts_cons : Puts cell (token :: tokens) v digits ↔
    token = .number digits ∧ cell = v ∨ Puts (cell + token.advance) tokens v digits :=
  Marks.meets_cons

theorem Puts.le (puts : Puts cell tokens v digits) : cell ≤ v := Marks.Meets.le puts

theorem Puts.lt (puts : Puts cell tokens v digits) : v < cell + advance tokens :=
  Marks.Meets.add_step_le puts

/-! ### Cutting a field -/

private theorem not_isDigit_of_letter (bounds : 'a' ≤ letter ∧ letter ≤ 'z') :
    Text.isDigit letter = false := by
  have low : 97 ≤ letter.toNat ∧ letter.toNat ≤ 122 := bounds
  by_contra digit
  have := Text.digit_bounds.mp ((Text.isDigit_iff (by omega)).mp (Bool.of_not_eq_false digit))
  omega

private theorem not_isDigitLike_of_letter (bounds : 'a' ≤ letter ∧ letter ≤ 'z') :
    Text.isDigitLike letter = false := by
  have low : 97 ≤ letter.toNat ∧ letter.toNat ≤ 122 := bounds
  rw [Text.isDigitLike_of_ascii (by omega), not_isDigit_of_letter bounds]

private theorem isPiece_text (sound : token.Sound limit.Reads size) :
    Text.IsPiece Text.isDigit token.text := by
  cases token with
  | skip letter => exact .inr ⟨letter, not_isDigit_of_letter sound, rfl⟩
  | bar => exact Text.isPiece_singleton Text.isDigit '_'
  | number digits =>
    obtain ⟨height, _, reads⟩ := sound
    exact .inl (Text.exists_denotes.mp ⟨height, (DigitLimit.reads_iff.mp reads).1⟩)

theorem isNumber_iff (sound : token.Sound limit.Reads size) :
    token.IsNumber ↔ ∀ c ∈ token.text, Text.isDigit c = true := by
  cases token with
  | skip letter =>
    refine ⟨False.elim, fun inside => ?_⟩
    have digit := inside letter (List.mem_singleton_self letter)
    rw [not_isDigit_of_letter sound] at digit
    exact nomatch digit
  | bar => exact ⟨False.elim, fun inside => nomatch inside '_' (List.mem_singleton_self '_')⟩
  | number digits =>
    obtain ⟨height, _, reads⟩ := sound
    exact ⟨fun _ => (DigitLimit.reads_iff.mp reads).1.isDigit, fun _ => trivial⟩

theorem not_mem_text (sound : token.Sound limit.Reads size) : '\n' ∉ token.text := by
  intro member
  cases token with
  | skip letter =>
    rw [← List.mem_singleton.mp member] at sound
    exact absurd sound.1 (by decide)
  | bar => exact nomatch member
  | number digits => exact nomatch (isNumber_iff sound).mp trivial '\n' member

theorem isChain_text_iff (sound : ∀ token ∈ tokens, token.Sound limit.Reads size) :
    (tokens.map Token.text).IsChain (Text.Apart Text.isDigit) ↔
      tokens.IsChain fun token next => ¬ (token.IsNumber ∧ next.IsNumber) := by
  induction tokens with
  | nil => simp
  | cons token rest ih =>
    obtain ⟨here, sound⟩ := List.forall_mem_cons.mp sound
    rw [List.map_cons, List.isChain_cons, List.isChain_cons, ih sound, List.head?_map]
    refine and_congr_left fun _ => ?_
    cases rest with
    | nil => simp
    | cons next rest =>
      have there := sound next (List.mem_cons_self ..)
      simp only [List.head?_cons, Option.map_some, Option.mem_def, Option.some.injEq, forall_eq',
        Text.Apart, isNumber_iff here, isNumber_iff there]

theorem runs_fieldText (field : IsField limit.Reads size tokens) :
    Text.runs Text.isDigit (fieldText tokens) = tokens.map Token.text := by
  rw [fieldText, List.flatMap_def]
  refine Text.runs_flatten (fun piece member => ?_) ((isChain_text_iff field.sound).mpr field.whole)
  obtain ⟨token, listed, rfl⟩ := List.mem_map.mp member
  exact isPiece_text (field.sound token listed)

theorem isField_of_runs (sound : ∀ token ∈ tokens, token.Sound limit.Reads size)
    (cut : Text.runs Text.isDigit text = tokens.map Token.text ++ pieces) :
    IsField limit.Reads size tokens where
  sound := sound
  whole := by
    have chain := Text.isChain_runs Text.isDigit text
    rw [cut] at chain
    exact (isChain_text_iff sound).mp chain.left_of_append

/-! ### Loading a token -/

/-- A state of the grid before anything was changed. -/
structure Fresh (grid : Grid) (s : State) : Prop where
  size_eq : s.size = grid.size
  count_eq : s.count = grid.size * grid.size
  trail : s.trail = []

theorem fresh_initial (grid : Grid) : Fresh grid grid.initial where
  size_eq := rfl
  count_eq := Grid.count_eq rfl
  trail := rfl

/-- The numbers of a row of tokens are fixed, other than 0, and all other cells are left alone. -/
structure Loads (numeral : List Char → Nat → Prop) (cell : Nat) (tokens : List Token) (s t : State) :
    Prop where
  frame : t.frame = s.frame
  mark : t.mark = s.mark
  fixed : ∀ v digits height, Puts cell tokens v digits → numeral digits height → height ≠ 0 →
    t.isLocked v = true ∧ t.candidates v = [height - 1]
  kept : ∀ v, (∀ digits height, Puts cell tokens v digits → numeral digits height → height = 0) →
    t.isLocked v = s.isLocked v ∧ t.candidates v = s.candidates v

theorem Loads.fresh (loads : Loads numeral cell tokens s t) (fresh : Fresh grid s) : Fresh grid t where
  size_eq := (congrArg Frame.size loads.frame).trans fresh.size_eq
  count_eq := (congrArg Frame.count loads.frame).trans fresh.count_eq
  trail := List.length_eq_zero_iff.mp (loads.mark.trans (List.length_eq_zero_iff.mpr fresh.trail))

theorem loads_of_open (unset : ∀ v digits height, Puts cell tokens v digits → numeral digits height →
    height = 0) : Loads numeral cell tokens s s where
  frame := rfl
  mark := rfl
  fixed v digits height puts denotes set := absurd (unset v digits height puts denotes) set
  kept _ _ := ⟨rfl, rfl⟩

theorem Loads.cons (first : Loads numeral cell [token] s t)
    (rest : Loads numeral (cell + token.advance) tokens t u) : Loads numeral cell (token :: tokens) s u where
  frame := rest.frame.trans first.frame
  mark := rest.mark.trans first.mark
  fixed v digits height puts denotes set := by
    obtain ⟨rfl, rfl⟩ | later := puts_cons.mp puts
    · -- The tokens behind a number do not come back to its cell.
      have kept := rest.kept cell fun _ _ again => absurd again.le (by simp [Token.advance])
      rw [kept.1, kept.2]
      exact first.fixed cell digits height (puts_cons.mpr (.inl ⟨rfl, rfl⟩)) denotes set
    · exact rest.fixed v digits height later denotes set
  kept v unset := by
    have later := rest.kept v fun digits height puts => unset digits height (puts_cons.mpr (.inr puts))
    rw [later.1, later.2]
    refine first.kept v fun digits height puts => unset digits height ?_
    obtain here | none := puts_cons.mp puts
    · exact puts_cons.mpr (.inl here)
    · exact absurd none not_puts_nil

private theorem cellAt_natCast {x y : Nat} (column : x < grid.size) (row : y < grid.size) :
    grid.cellAt x y = .ok (grid.cell x y) := by
  rw [Grid.cellAt, if_pos (by omega), Int.toNat_natCast, Int.toNat_natCast]

private theorem setGiven_eq_ok (fresh : Fresh grid s) (inside : cell < grid.size * grid.size)
    (low : 1 ≤ height) (high : height ≤ grid.size) :
    grid.setGiven s (cell % grid.size : Nat) (cell / grid.size : Nat) height =
      .ok (s.given cell (height - 1)) := by
  have column : cell % grid.size < grid.size := Nat.mod_lt _ grid.size_pos
  have row : cell / grid.size < grid.size := Nat.div_lt_of_lt_mul inside
  have place : grid.cellAt (cell % grid.size : Nat) (cell / grid.size : Nat) = .ok cell := by
    rw [cellAt_natCast column row, Grid.cell, Nat.mul_comm, Nat.div_add_mod]
  rw [Grid.setGiven, if_pos (by omega), place]
  refine lock_eq_ok.mpr ⟨cell, height - 1, ⟨rfl, ?_⟩, ⟨by omega, ?_⟩, fresh.trail, rfl⟩
  · rw [fresh.count_eq]
    exact inside
  · rw [fresh.size_eq]
    omega

theorem isDigits_of_reads (reads : limit.Reads digits height) : isDigits digits = true := by
  have denotes := (DigitLimit.reads_iff.mp reads).1
  obtain ⟨c, rest, rfl⟩ := List.exists_cons_of_ne_nil denotes.1
  simp only [isDigits, List.isEmpty_cons, Bool.not_false, Bool.true_and, List.all_eq_true]
  intro c member
  rw [Text.isDigitLike, denotes.isDigit c member, Bool.true_or]

theorem loadToken_of_isDigits (like : isDigits piece = true) (limit : DigitLimit) (id : String) (grid : Grid)
    (s : State) (cell : Nat) :
    loadToken limit id grid s cell piece = loadNumber limit id grid s cell piece := by
  have whole := like
  rw [isDigits, Bool.and_eq_true, List.all_eq_true] at whole
  obtain ⟨some, inside⟩ := whole
  have skips : piece.head?.bind Text.skip? = none := by
    refine Option.bind_eq_none_iff.mpr fun c first => if_neg fun bounds => ?_
    have digit := inside c (List.mem_of_head? first)
    rw [not_isDigitLike_of_letter bounds] at digit
    exact nomatch digit
  have bar : piece ≠ ['_'] := by
    rintro rfl
    exact nomatch like
  rw [loadToken, skips]
  exact (if_neg bar).trans (if_pos like)

/-- The state after a number; a height of 0 leaves the cell open. -/
def put (s : State) (cell height : Nat) : State := if height = 0 then s else s.given cell (height - 1)

private theorem loadNumber_of_reads (fresh : Fresh grid s) (inside : cell < grid.size * grid.size)
    (high : height ≤ grid.size) (reads : limit.Reads digits height) (id : String) :
    loadNumber limit id grid s cell digits = .ok (put s cell height, cell + 1) := by
  rw [loadNumber, show limit.read digits = .ok height from reads]
  refine (if_neg (by omega)).trans ?_
  by_cases zero : height = 0
  · rw [put, if_pos zero, if_pos zero]
  · rw [put, if_neg zero, if_neg zero, setGiven_eq_ok fresh inside (by omega) high]
    rfl

private theorem loads_number (fresh : Fresh grid s) (inside : cell < grid.size * grid.size)
    (high : height ≤ grid.size) (reads : limit.Reads digits height) :
    Loads limit.Reads cell [.number digits] s (put s cell height) := by
  have same {v : Nat} {digits' : List Char} {height' : Nat} (puts : Puts cell [.number digits] v digits')
      (reads' : limit.Reads digits' height') : cell = v ∧ height' = height := by
    obtain ⟨here, arrive⟩ | none := puts_cons.mp puts
    · cases here
      exact ⟨arrive, reads'.unique reads⟩
    · exact absurd none not_puts_nil
  by_cases zero : height = 0
  · rw [put, if_pos zero]
    exact loads_of_open fun v digits' height' puts reads' => (same puts reads').2.trans zero
  · rw [put, if_neg zero]
    have count : cell < s.count := by rw [fresh.count_eq]; exact inside
    have value : height - 1 < s.size := by rw [fresh.size_eq]; omega
    refine ⟨frame_given s _ _, rfl, fun v digits' height' puts reads' _ => ?_, fun v unset => ?_⟩
    · obtain ⟨rfl, rfl⟩ := same puts reads'
      rw [isLocked_given count, candidates_given count value, if_pos rfl, if_pos rfl]
      exact ⟨rfl, rfl⟩
    · have away : v ≠ cell := by
        rintro rfl
        exact zero (unset digits height (puts_cons.mpr (.inl ⟨rfl, rfl⟩)) reads)
      rw [isLocked_given count, candidates_given count value, if_neg away, if_neg away]
      exact ⟨rfl, rfl⟩

private theorem loadToken_of_sound (fresh : Fresh grid s) (sound : token.Sound limit.Reads grid.size)
    (inside : token.IsNumber → cell < grid.size * grid.size) (id : String) :
    ∃ t, loadToken limit id grid s cell token.text = .ok (t, cell + token.advance) ∧
      Loads limit.Reads cell [token] s t := by
  have unset (other : ¬ token.IsNumber) : Loads limit.Reads cell [token] s s := by
    refine loads_of_open fun v digits height puts => ?_
    obtain ⟨rfl, _⟩ | none := puts_cons.mp puts
    · exact absurd trivial other
    · exact absurd none not_puts_nil
  cases token with
  | skip letter =>
    have found : Text.skip? letter = some (letter.toNat - 'a'.toNat + 1) := if_pos sound
    refine ⟨s, ?_, unset (fun isNumber => isNumber)⟩
    simp only [loadToken, Token.text, List.head?_cons, Option.bind_some, found, Token.advance]
  | bar => exact ⟨s, rfl, unset (fun isNumber => isNumber)⟩
  | number digits =>
    obtain ⟨height, high, reads⟩ := sound
    refine ⟨put s cell height, ?_, loads_number fresh (inside trivial) high reads⟩
    rw [Token.text, loadToken_of_isDigits (isDigits_of_reads reads),
      loadNumber_of_reads fresh (inside trivial) high reads]
    rfl

/-- Where all its numbers lie in the grid, a row of tokens is loaded and what follows is read from there. -/
theorem loadField_append (fresh : Fresh grid s) (sound : ∀ token ∈ tokens, token.Sound limit.Reads grid.size)
    (inside : ∀ v digits, Puts cell tokens v digits → v < grid.size * grid.size) (id : String) :
    ∃ t, Loads limit.Reads cell tokens s t ∧ ∀ pieces,
      loadField limit id grid s cell (tokens.map Token.text ++ pieces) =
        loadField limit id grid t (cell + advance tokens) pieces := by
  induction tokens generalizing s cell with
  | nil => exact ⟨s, loads_of_open fun v digits height puts => absurd puts not_puts_nil, fun pieces => rfl⟩
  | cons token rest ih =>
    obtain ⟨here, sound⟩ := List.forall_mem_cons.mp sound
    have below : token.IsNumber → cell < grid.size * grid.size := by
      intro isNumber
      cases token with
      | skip | bar => exact isNumber.elim
      | number digits => exact inside cell digits (puts_cons.mpr (.inl ⟨rfl, rfl⟩))
    obtain ⟨t, loaded, first⟩ := loadToken_of_sound fresh here below id
    obtain ⟨u, later, read⟩ := ih (first.fresh fresh) sound fun v digits puts =>
      inside v digits (puts_cons.mpr (.inr puts))
    refine ⟨u, first.cons later, fun pieces => ?_⟩
    rw [advance_cons, ← Nat.add_assoc, ← read pieces, List.map_cons, List.cons_append, loadField, loaded]
    rfl

theorem loadField_of_sound (fresh : Fresh grid s)
    (sound : ∀ token ∈ tokens, token.Sound limit.Reads grid.size)
    (covers : cell + advance tokens = grid.size * grid.size) (id : String) :
    ∃ t, loadField limit id grid s cell (tokens.map Token.text) = .ok t ∧
      Loads limit.Reads cell tokens s t := by
  obtain ⟨t, loads, read⟩ := loadField_append fresh sound (fun v digits puts => covers ▸ puts.lt) id
  refine ⟨t, ?_, loads⟩
  have all := read []
  rw [List.append_nil] at all
  rw [all, loadField, if_pos covers]

/-! ### What else a field can be -/

/-- A piece is a token, or no field goes on with it, or it looks like digits that are not read. -/
theorem loadToken_cases (whole : Text.IsPiece Text.isDigit piece) (limit : DigitLimit) (id : String)
    (grid : Grid) (s : State) (cell : Nat) :
    (∃ token : Token, piece = token.text ∧ token.Sound limit.Reads grid.size ∧
        (token.IsNumber → cell < grid.size * grid.size)) ∨
      (∃ cause, loadToken limit id grid s cell piece = .error (.gameId cause)) ∨
      ∃ fault, isDigits piece = true ∧ limit.read piece = .error fault ∧
        loadToken limit id grid s cell piece = .error fault := by
  by_cases like : isDigits piece = true
  · rw [loadToken_of_isDigits like, loadNumber]
    cases read : limit.read piece with
    | error fault => exact .inr (.inr ⟨fault, like, rfl, rfl⟩)
    | ok height =>
      by_cases outside : grid.size < height ∨ grid.size * grid.size ≤ cell
      · exact .inr (.inl ⟨_, if_pos outside⟩)
      · rw [not_or, Nat.not_lt, Nat.not_le] at outside
        exact .inl ⟨.number piece, rfl, ⟨height, outside.1, read⟩, fun _ => outside.2⟩
  by_cases bar : piece = ['_']
  · exact .inl ⟨.bar, bar, trivial, nofun⟩
  cases skips : piece.head?.bind Text.skip? with
  | none =>
    refine .inr (.inl ⟨.unexpectedMark (String.ofList piece) id, ?_⟩)
    rw [loadToken, skips]
    exact (if_neg bar).trans (if_neg like)
  | some count =>
    obtain ⟨c, first, skip⟩ := Option.bind_eq_some_iff.mp skips
    have bounds : 'a' ≤ c ∧ c ≤ 'z' := by
      by_contra none
      exact nomatch skip.symm.trans (if_neg none)
    -- A letter is no digit, so it is the whole piece.
    obtain ⟨_, inside⟩ | ⟨d, _, rfl⟩ := whole
    · exact nomatch (not_isDigit_of_letter bounds).symm.trans (inside c (List.mem_of_head? first))
    · cases first
      exact .inl ⟨.skip c, rfl, bounds, nofun⟩

/-- What is cut from a field is a row of tokens that covers the grid, or no field of the grid, or it has
in it something that looks like digits and is not read. -/
theorem loadField_cases (fresh : Fresh grid s) (whole : ∀ piece ∈ pieces, Text.IsPiece Text.isDigit piece)
    (limit : DigitLimit) (id : String) (cell : Nat) :
    (∃ tokens : List Token, pieces = tokens.map Token.text ∧
        (∀ token ∈ tokens, token.Sound limit.Reads grid.size) ∧
        cell + advance tokens = grid.size * grid.size) ∨
      (∃ cause, loadField limit id grid s cell pieces = .error (.gameId cause)) ∨
      ∃ (tokens : List Token) (piece : List Char) (rest : List (List Char)) (fault : Fault),
        pieces = tokens.map Token.text ++ piece :: rest ∧
        (∀ token ∈ tokens, token.Sound limit.Reads grid.size) ∧
        (∀ v digits, Puts cell tokens v digits → v < grid.size * grid.size) ∧
        isDigits piece = true ∧ limit.read piece = .error fault ∧
        loadField limit id grid s cell pieces = .error fault := by
  induction pieces generalizing s cell with
  | nil =>
    by_cases covers : cell = grid.size * grid.size
    · exact .inl ⟨[], rfl, fun _ member => absurd member List.not_mem_nil, covers⟩
    · exact .inr (.inl ⟨_, if_neg covers⟩)
  | cons piece rest ih =>
    obtain ⟨here, following⟩ := List.forall_mem_cons.mp whole
    obtain ⟨token, rfl, sound, inside⟩ | ⟨cause, refused⟩ | ⟨fault, like, unread, failed⟩ :=
      loadToken_cases here limit id grid s cell
    · obtain ⟨t, loaded, loads⟩ := loadToken_of_sound fresh sound inside id
      have step : loadField limit id grid s cell (token.text :: rest) =
          loadField limit id grid t (cell + token.advance) rest := by
        rw [loadField, loaded]
        rfl
      rw [step]
      obtain ⟨tokens, rfl, sounds, covers⟩ | refused |
          ⟨tokens, piece, rest, fault, rfl, sounds, within, like, unread, failed⟩ :=
        ih (loads.fresh fresh) following (cell + token.advance)
      · refine .inl ⟨token :: tokens, rfl, List.forall_mem_cons.mpr ⟨sound, sounds⟩, ?_⟩
        rw [advance_cons, ← Nat.add_assoc, covers]
      · exact .inr (.inl refused)
      · refine .inr (.inr ⟨token :: tokens, piece, rest, fault, rfl,
          List.forall_mem_cons.mpr ⟨sound, sounds⟩, fun v digits puts => ?_, like, unread, failed⟩)
        obtain ⟨rfl, rfl⟩ | later := puts_cons.mp puts
        · exact inside trivial
        · exact within v digits later
    · refine .inr (.inl ⟨cause, ?_⟩)
      rw [loadField, refused]
      rfl
    · refine .inr (.inr ⟨[], piece, rest, fault, rfl, fun _ member => absurd member List.not_mem_nil,
        fun v digits puts => absurd puts not_puts_nil, like, unread, ?_⟩)
      rw [loadField, failed]
      rfl

end PencilPuzzle.Towers.GameId
