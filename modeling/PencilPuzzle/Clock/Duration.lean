import PencilPuzzle.Clock.Binary64
import PencilPuzzle.Fault

/-!
# Durations

Seconds as whole numbers or as binary floating-point numbers, the arithmetic between the two, and
the clock reading `HH:MM:SS.ss`. Whole numbers are exact; as soon as one side is floating-point the
result is rounded to the nearest floating-point number, and a result without one is a fault.
-/

namespace PencilPuzzle.Clock

inductive Seconds where
  | whole (count : Int)
  /-- The exact value of a floating-point number. -/
  | real (value : Rat)
  deriving DecidableEq

namespace Seconds

def toReal : Seconds → Except Fault Rat
  | whole count =>
    match nearest? count with
    | some value => .ok value
    | none => .error (.clock .wideWhole)
  | real value => .ok value

/-- The result of an operation, given for whole and for floating-point numbers. -/
def combine (exact : Int → Int → Int) (rounded : Rat → Rat → Rat) :
    Seconds → Seconds → Except Fault Seconds
  | whole a, whole b => .ok (whole (exact a b))
  | a, b => do
    let first ← a.toReal
    let second ← b.toReal
    match nearest? (rounded first second) with
    | some value => .ok (real value)
    | none => .error (.clock .notFinite)

def add : Seconds → Seconds → Except Fault Seconds := combine (· + ·) (· + ·)

def sub : Seconds → Seconds → Except Fault Seconds := combine (· - ·) (· - ·)

def mul : Seconds → Seconds → Except Fault Seconds := combine (· * ·) (· * ·)

end Seconds

/-- The part of a number that is left over from whole minutes, with the sign of the number. -/
def minuteRemainder (value : Rat) : Rat :=
  let quotient := value / 60
  let truncated : Int := if value < 0 then -(-quotient).floor else quotient.floor
  value - 60 * truncated

/-- Floor division of a floating-point number by sixty, every step rounded: minutes and the seconds
that remain. A remainder just below zero can round up to a full minute. -/
def splitReal (value : Rat) : Int × Rat :=
  let remainder := minuteRemainder value
  let quotient := roundBinary64 (roundBinary64 (value - remainder) / 60)
  let (quotient, remainder) :=
    if remainder < 0 then (roundBinary64 (quotient - 1), roundBinary64 (remainder + 60))
    else (quotient, remainder)
  let low := quotient.floor
  (if 1 / 2 < quotient - low then low + 1 else low, remainder)

def splitMinutes : Seconds → Int × Rat
  | .whole count => (count.fdiv 60, count.fmod 60)
  | .real value => splitReal value

/-- Seconds with two decimals, a half going to the even neighbour, in at least five characters. -/
def secondsText (seconds : Rat) : String :=
  let hundredths := roundHalfEven (seconds * 100)
  Text.zeroPadded 2 (hundredths / 100) ++ "." ++ Text.zeroPadded 2 (hundredths % 100)

/-- A duration as hours, minutes and seconds; minutes and seconds are split before rounding. -/
def durationText (duration : Seconds) : String :=
  let (minutes, seconds) := splitMinutes duration
  Text.zeroPadded 2 (minutes.fdiv 60) ++ ":" ++ Text.zeroPadded 2 (minutes.fmod 60) ++ ":" ++
    secondsText seconds

end PencilPuzzle.Clock
