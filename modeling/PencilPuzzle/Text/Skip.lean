/-!
# Skip letters

A lower-case letter stands for a run of empty places: `a` for one, `z` for twenty-six.
-/

namespace PencilPuzzle.Text

/-- How many places a letter skips. -/
def skip? (c : Char) : Option Nat :=
  if 'a' ≤ c ∧ c ≤ 'z' then some (c.toNat - 'a'.toNat + 1) else none

/-- The letter that skips `count` places, for counts from 1 to 26. -/
def skipLetter (count : Nat) : Char := Char.ofNat ('a'.toNat + count - 1)

/-- A run of empty places, in letters as long-reaching as possible. -/
def skips (count : Nat) : List Char :=
  List.replicate (count / 26) 'z' ++ if count % 26 = 0 then [] else [skipLetter (count % 26)]

end PencilPuzzle.Text
