/-!
# Settings

The defaults that a solver and a reporter fall back on. They are kept as they were given: whoever
uses a setting checks it.
-/

namespace PencilPuzzle

structure Settings where
  maxGuesses : Int := 10
  guessPolicy : String := "first"
  maxFixpointPasses : Option Int := none
  reportInterval : Int := 100
  verbose : Bool := false
  deriving DecidableEq

end PencilPuzzle
