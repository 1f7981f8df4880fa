import PencilPuzzle.DigitLimit
import PencilPuzzle.Graph.Tiling
import PencilPuzzle.Loop.Puzzle
import PencilPuzzle.Text.Blank
import PencilPuzzle.Text.CodePoint
import PencilPuzzle.Text.Skip
import PencilPuzzle.Text.Split

/-!
# Identifiers of loop puzzles

An identifier is `WxHtT:field` with the width and height of the grid and its kind, 0 for squares
and 2 for hexagons. The field lists the faces in order: a digit is a hint up to 9, a capital a hint
from 10 to 35, and a small letter skips faces without hints. Numbers are read up to a limit on their
digits.
-/

namespace PencilPuzzle.Loop.GameId

/-! ### Reading -/

/-- The hint that a digit or a capital stands for. -/
def hint? (c : Char) : Option Nat :=
  if '0' ≤ c ∧ c ≤ '9' then some (c.toNat - '0'.toNat)
  else if 'A' ≤ c ∧ c ≤ 'Z' then some (c.toNat - 'A'.toNat + 10)
  else none

/-- The hints of the rest of a field, from a face on. -/
def hintsFrom (limit : DigitLimit) (field : String) (faces : Int) (face : Nat) :
    List Char → Except Fault (List (Nat × Nat))
  | [] =>
    if (face : Int) = faces then .ok []
    else .error (limit.faultAbout faces (.gameId (.hintLength field face faces)))
  | c :: rest =>
    if faces ≤ face then .error (.gameId (.longHints field faces))
    else
      match hint? c, Text.skip? c with
      | some hint, _ => do
        let others ← hintsFrom limit field faces (face + 1) rest
        return (face, hint) :: others
      | none, some count => hintsFrom limit field faces (face + count) rest
      | none, none => .error (.gameId (.unexpectedHint (String.singleton c) field))

/-- The hints of a field that covers a number of faces, by face. -/
def parseHints (limit : DigitLimit) (field : String) (faces : Int) :
    Except Fault (List (Nat × Nat)) :=
  hintsFrom limit field faces 0 field.toList

structure Parts where
  width : List Char
  height : List Char
  tiling : List Char
  field : List Char

/-- Takes an identifier apart. It does not run over the end of a line. -/
def parts? (text : List Char) : Option Parts := do
  let (width, rest) ← Text.runUpTo Text.isDigit 'x' text
  let (height, rest) ← Text.runUpTo Text.isDigit 't' rest
  let (tiling, field) ← Text.runUpTo Text.isDigit ':' rest
  if '\n' ∈ field then none
  else some ⟨width, height, tiling, field⟩

def tiling? (number : Nat) :
    Option (Int → Int → Hints → Except Fault (Drawing Tiling.Position)) :=
  match number with
  | 0 => some Tiling.squareGrid
  | 2 => some Tiling.honeycombGrid
  | _ => none

def parse (limit : DigitLimit) (id : String) : Except Fault (Drawing Tiling.Position) :=
  match parts? (Text.trim id.toList) with
  | none => .error (.gameId (.malformedLoop id))
  | some parts => do
    let width ← limit.read parts.width
    let height ← limit.read parts.height
    let tiling ← limit.read parts.tiling
    if width = 0 ∨ height = 0 then .error (.gameId (.emptyLoop id))
    else
      match tiling? tiling with
      | none => .error (.gameId (.unknownTiling tiling id))
      | some grid => do
        let hints ← parseHints limit (String.ofList parts.field) (width * height : Nat)
        grid width height
          (hints.map fun (face, hint) => ((face : Int), some (hint : Int)))

/-! ### Writing -/

/-- A hint as it is written: in digits below 10, otherwise as the code point that many places on from
that of `A` for 10. -/
def hintText (hint : Int) : Except Fault (List Text.CodePoint) :=
  if hint < 10 then .ok ((toString hint).toList.map Text.codePoint)
  else
    let code := hint.toNat - 10 + 'A'.toNat
    if inRange : code < 0x110000 then .ok [⟨code, inRange⟩]
    else if code < 0x80000000 then .error (.size .noCharacter)
    else .error (.size .wideCharacter)

def skipText (run : Nat) : List Text.CodePoint := (Text.skips run).map Text.codePoint

/-- The field of a list of hints, with `run` faces without hints before them. -/
def fieldFrom (run : Nat) : List (Option Int) → Except Fault (List Text.CodePoint)
  | [] => .ok (skipText run)
  | none :: rest => fieldFrom (run + 1) rest
  | some hint :: rest => do
    let first ← hintText hint
    let others ← fieldFrom 0 rest
    return skipText run ++ first ++ others

def encodeHints (graph : Graph) : Except Fault (List Text.CodePoint) :=
  fieldFrom 0 (graph.faceIds.map graph.hintOf)

end PencilPuzzle.Loop.GameId
