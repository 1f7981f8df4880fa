/-!
# Binary floating point, exactly

Numbers with a 53-bit significand as the rationals they are, and rounding to the nearest of them.
Numbers of 2^1024 and more lie beyond the largest of them.
-/

namespace PencilPuzzle.Clock

/-- The nearest integer; a half goes to the even neighbour. -/
def roundHalfEven (q : Rat) : Int :=
  let low := q.floor
  let rest := q - low
  if rest < 1 / 2 then low
  else if 1 / 2 < rest then low + 1
  else if low % 2 = 0 then low
  else low + 1

def twoPow (exponent : Int) : Rat :=
  if 0 ≤ exponent then (Nat.pow 2 exponent.toNat : Nat)
  else 1 / (Nat.pow 2 (-exponent).toNat : Nat)

/-- The largest exponent whose power of two is at most a positive number. -/
def binaryExponent (q : Rat) : Int :=
  let guess : Int := (Nat.log2 q.num.natAbs : Int) - (Nat.log2 q.den : Int)
  if twoPow guess ≤ q then guess else guess - 1

/-- The exponent of the last place of the numbers around a positive number. -/
def lastPlace (q : Rat) : Int := max (binaryExponent q - 52) (-1074)

/-- The nearest number of 53 significant bits; of two equally near ones, the even one. -/
def roundBinary64 (q : Rat) : Rat :=
  if q = 0 then 0
  else
    let place := twoPow (lastPlace q.abs)
    roundHalfEven (q / place) * place

def nearest? (q : Rat) : Option Rat :=
  let rounded := roundBinary64 q
  if rounded.abs < twoPow 1024 then some rounded else none

end PencilPuzzle.Clock
