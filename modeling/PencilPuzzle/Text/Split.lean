/-!
# Cutting text

Cutting text at a separator and into runs of characters of one class.
-/

namespace PencilPuzzle.Text

/-- The pieces between separators; there is always one more piece than there are separators. -/
def splitOn (separator : Char) : List Char → List (List Char)
  | [] => [[]]
  | c :: rest =>
    match splitOn separator rest with
    | [] => [[c]]
    | piece :: others => if c = separator then [] :: piece :: others else (c :: piece) :: others

def joinWith (separator : Char) : List (List Char) → List Char
  | [] => []
  | [piece] => piece
  | piece :: rest => piece ++ separator :: joinWith separator rest

/-- Cuts text into the longest runs of characters of a class; every other character stands alone. -/
def runs (inClass : Char → Bool) : List Char → List (List Char)
  | [] => []
  | c :: rest =>
    match runs inClass rest with
    | (d :: run) :: others =>
      if inClass c && inClass d then (c :: d :: run) :: others else [c] :: (d :: run) :: others
    | others => [c] :: others

/-- A nonempty run of characters of a class at the front, up to a given character; with it comes
what stands behind that character. -/
def runUpTo (inClass : Char → Bool) (stop : Char) (text : List Char) :
    Option (List Char × List Char) :=
  match text.takeWhile inClass, text.dropWhile inClass with
  | c :: run, d :: rest => if d = stop then some (c :: run, rest) else none
  | _, _ => none

end PencilPuzzle.Text
