import PencilPuzzle.DigitLimit
import PencilPuzzle.Text.Blank
import PencilPuzzle.Text.Skip
import PencilPuzzle.Text.Split
import PencilPuzzle.Towers.Grid

/-!
# Identifiers of tower grids

An identifier is `N:clues` or `N:clues,field`. The `4N` clues, separated by slashes, go along the
top, the bottom, the left and the right; an empty one says nothing. The field lists the cells row by
row: a number is a given height, a letter skips cells, and `_` keeps two numbers apart. Numbers are
read up to a limit on their digits.
-/

namespace PencilPuzzle.Towers.GameId

/-! ### Reading -/

structure Parts where
  size : List Char
  clues : List Char
  field : Option (List Char)

/-- Takes an identifier apart. A field does not run over the end of a line. -/
def parts? (text : List Char) : Option Parts := do
  let (size, rest) ← Text.runUpTo Text.isDigit ':' text
  let clues := rest.takeWhile (· ≠ ',')
  match rest.dropWhile (· ≠ ',') with
  | [] => some ⟨size, clues, none⟩
  | _ :: field => if '\n' ∈ field then none else some ⟨size, clues, some field⟩

def isDigits (text : List Char) : Bool := !text.isEmpty && text.all Text.isDigitLike

def readClue (limit : DigitLimit) (id : String) (size : Nat) (text : List Char) :
    Except Fault Nat :=
  if text.isEmpty then .ok 0
  else if isDigits text then do
    let clue ← limit.read text
    if clue ≤ size then .ok clue
    else .error (.gameId (.invalidClue (String.ofList text) id))
  else .error (.gameId (.invalidClue (String.ofList text) id))

def readClues (limit : DigitLimit) (id : String) (size : Nat) :
    List (List Char) → Except Fault (List Nat)
  | [] => .ok []
  | text :: rest => do
    let clue ← readClue limit id size text
    let others ← readClues limit id size rest
    return clue :: others

def cluesOn (size : Nat) (clues : List Nat) (side : Side) : List Int :=
  ((clues.drop (side.index * size)).take size).map Int.ofNat

/-- The state and the next cell after a number, which fixes the current cell; 0 leaves it open. -/
def loadNumber (limit : DigitLimit) (id : String) (grid : Grid) (state : State) (cell : Nat)
    (token : List Char) : Except Fault (State × Nat) := do
  let height ← limit.read token
  if grid.size < height ∨ grid.size * grid.size ≤ cell then
    .error (.gameId (.invalidGiven (String.ofList token) cell id))
  else if height = 0 then .ok (state, cell + 1)
  else do
    let fixed ← grid.setGiven state (cell % grid.size : Nat) (cell / grid.size : Nat) height
    return (fixed, cell + 1)

/-- The state and the next cell after one token of a field. -/
def loadToken (limit : DigitLimit) (id : String) (grid : Grid) (state : State) (cell : Nat)
    (token : List Char) : Except Fault (State × Nat) :=
  match token.head?.bind Text.skip? with
  | some count => .ok (state, cell + count)
  | none =>
    if token = ['_'] then .ok (state, cell)
    else if isDigits token then loadNumber limit id grid state cell token
    else .error (.gameId (.unexpectedMark (String.ofList token) id))

/-- Puts the givens of a field on a state, from a cell on; the field has to end with the grid. -/
def loadField (limit : DigitLimit) (id : String) (grid : Grid) (state : State) (cell : Nat) :
    List (List Char) → Except Fault State
  | [] =>
    if cell = grid.size * grid.size then .ok state
    else .error (.gameId (.fieldLength cell (grid.size * grid.size) id))
  | token :: rest => do
    let (state, cell) ← loadToken limit id grid state cell token
    loadField limit id grid state cell rest

def parse (limit : DigitLimit) (id : String) : Except Fault (Grid × State) :=
  match parts? (Text.trim id.toList) with
  | none => .error (.gameId (.malformedTowers id))
  | some parts => do
    let size ← limit.read parts.size
    let texts := Text.splitOn '/' parts.clues
    if size = 0 then .error (.gameId (.emptyTowers id))
    else if texts.length ≠ 4 * size then
      .error (limit.faultAbout (4 * size : Nat) (.gameId (.clueCount (4 * size) texts.length id)))
    else do
      let clues ← readClues limit id size texts
      let grid ← Grid.new size (cluesOn size clues)
      match parts.field with
      | none => return (grid, grid.initial)
      | some field =>
        let state ← loadField limit id grid grid.initial 0 (Text.runs Text.isDigit field)
        return (grid, state)

/-! ### Writing -/

def digits (n : Nat) : List Char := Nat.toDigits 10 n

/-- The field of a list of heights, with `run` open cells before them. A number directly behind
another one is kept apart from it. -/
def fieldFrom (run : Nat) (afterNumber : Bool) : List Nat → List Char
  | [] => Text.skips run
  | height :: rest =>
    if height = 0 then fieldFrom (run + 1) afterNumber rest
    else
      Text.skips run ++ (if afterNumber && run = 0 then ['_'] else []) ++ digits height ++
        fieldFrom 0 true rest

def cluesText (grid : Grid) : List Char :=
  Text.joinWith '/' ((Side.all.flatMap grid.clues.on).map fun clue =>
    if clue = 0 then [] else digits clue)

/-- The identifier of the clues of a grid and the determined cells of a state. -/
def text (grid : Grid) (state : State) : List Char :=
  let heights := (grid.heights state).flatten
  digits grid.size ++ ':' :: cluesText grid ++
    if heights.all (· = 0) then [] else ',' :: fieldFrom 0 false heights

def write (grid : Grid) (state : State) : String := String.ofList (text grid state)

end PencilPuzzle.Towers.GameId
