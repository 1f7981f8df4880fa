import PencilPuzzle.Text.Blank
import PencilPuzzle.Text.Digit

/-!
# Integers in settings

An integer may be given as text. Its plain form has no more than a minus sign and digits, and is
read as it stands. Any other text is first brought into that form: white space around it, a plus
sign, zeros in front, single underscores between digits and a fraction of zeros are dropped.
-/

namespace PencilPuzzle.Settings

inductive IntegerFault where
  | unreadable
  | tooLong
  deriving DecidableEq

def splitMinus : List Char → Bool × List Char
  | '-' :: rest => (true, rest)
  | text => (false, text)

/-! ### The plain form -/

/-- The most digits of an integer in plain form. -/
def integerLength : Nat := 4300

/-- Reads digits without zeros in front, or a single zero, behind an optional minus sign. Too many
leading digits are found before anything is found wrong behind them. -/
def readPlain (text : List Char) : Except IntegerFault Int :=
  let (negative, body) := splitMinus text
  let digits := body.takeWhile Char.isDigit
  if body = ['0'] then .ok 0
  else if digits.isEmpty || digits.head? = some '0' then .error .unreadable
  else if integerLength < digits.length then .error .tooLong
  else if digits = body then
    match Text.number? digits with
    | some n => .ok (if negative then -(n : Int) else n)
    | none => .error .unreadable
  else .error .unreadable

/-! ### Getting there -/

def dropPlus? : List Char → Option (List Char)
  | '+' :: '-' :: _ => none
  | '+' :: rest => some rest
  | text => some text

/-- What stands behind zeros and underscores, the last of which is known; it is kept where neither
another digit nor a minus sign follows. -/
def behindZeros (last : Char) : List Char → Option (List Char)
  | [] => some [last]
  | c :: rest =>
    if c = '0' ∨ c = '_' then behindZeros c rest
    else if c.isDigit || c = '-' then some (c :: rest)
    else if c = '.' then some (last :: c :: rest)
    else none

/-- Drops zeros in front, with the underscores among them. -/
def dropZeros? : List Char → Option (List Char)
  | [] => none
  | c :: rest =>
    if c = '0' then behindZeros c rest
    else if c.isDigit then some (c :: rest)
    else none

def dropFraction (text : List Char) : List Char :=
  let fraction := (text.dropWhile (· ≠ '.')).drop 1
  if !fraction.isEmpty && fraction.all (· = '0') then text.takeWhile (· ≠ '.') else text

def hasDoubleUnderscore : List Char → Bool
  | '_' :: '_' :: _ => true
  | _ :: rest => hasDoubleUnderscore rest
  | [] => false

/-- Drops underscores if each of them is a single one inside the text. -/
def dropUnderscores (text : List Char) : List Char :=
  if text.head? = some '_' || text.getLast? = some '_' || hasDoubleUnderscore text then text
  else text.filter (· ≠ '_')

def plain? (text : List Char) : Option (List Char) := do
  let signed ← dropPlus? (Text.trimBy Text.isWhiteSpace text)
  let (negative, body) := splitMinus signed
  let significant ← dropZeros? body
  let digits := dropUnderscores (dropFraction significant)
  return if negative then '-' :: digits else digits

/-- The integer that a text denotes. That it is too long is only said of a text that starts with its
digits; once brought into plain form it is unreadable like any other. -/
def readIntegerText (text : String) : Except IntegerFault Int :=
  match readPlain text.toList, plain? text.toList with
  | .error .unreadable, some plain => (readPlain plain).mapError fun _ => .unreadable
  | result, _ => result

end PencilPuzzle.Settings
