import PencilPuzzle.Fault
import PencilPuzzle.Text.Digit

/-!
# Limits on long numbers

Numbers in identifiers and messages may have any number of digits, or only so many: the limit is a
parameter of whatever reads or shows them. It counts digits as they stand, leading zeros included.
-/

namespace PencilPuzzle

/-- The most digits a number may have; without a limit every number is read and shown. -/
abbrev DigitLimit := Option Nat

namespace DigitLimit

/-- The limit to work with where nothing speaks for another one. -/
def usual : DigitLimit := some 4300

def fault? (limit : DigitLimit) (digits : Nat) (fault : Nat → NumeralFault) : Option Fault :=
  limit.bind fun most => if most < digits then some (.numeral (fault most)) else none

/-- The number a text of digits denotes. The digits up to the first other character count against
the limit before anything else is found wrong with the text. -/
def read (limit : DigitLimit) (text : List Char) : Except Fault Nat :=
  let digits := (text.takeWhile Text.isDigit).length
  match limit.fault? digits (.longText digits), Text.number? text with
  | some fault, _ => .error fault
  | none, some n => .ok n
  | none, none => .error (.numeral (.notNumeral (String.ofList text)))

def digitCount (n : Int) : Nat := (Nat.toDigits 10 n.natAbs).length

/-- The fault to raise where `fault` speaks of a number: a number over the limit is one itself. -/
def faultAbout (limit : DigitLimit) (n : Int) (fault : Fault) : Fault :=
  (limit.fault? (digitCount n) .longNumber).getD fault

end DigitLimit

end PencilPuzzle
