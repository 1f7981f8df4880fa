import PencilPuzzle.Key

/-!
# Faults

Every way in which an operation of the library can fail, grouped by the part that notices it, and
the one sentence that reports it. A contradiction is a fault of its own kind: it says that the
deductions made so far leave no solution, and the search treats it as a dead end and not as an
error.
-/

namespace PencilPuzzle

/-! ### Contradictions -/

inductive Contradiction where
  | givenEliminated (var : Nat)
  | domainEmptied (var : Nat)
  | noPlace (value : Nat) (constraint : Key)
  | noArrangement (line : List Int)
  | looseEnd (edge vertex : Nat)
  | markedInside (edge network : Nat)
  | bothSides (network : List Nat)
  | stated (reason : String)
  deriving DecidableEq

def Contradiction.message : Contradiction → String
  | givenEliminated var => s!"Update eliminates the given value of variable {var}."
  | domainEmptied var => s!"Domain of variable {var} is empty."
  | noPlace value constraint =>
    s!"No place left for value {value} in " ++ constraint.text ++ "."
  | noArrangement line =>
    "No arrangement of line " ++ Text.bracketed (line.map toString) ++ " fits its clues."
  | looseEnd edge vertex => s!"Marked edge {edge} ends at vertex {vertex}."
  | markedInside edge network => s!"Marked edge {edge} inside face network {network}."
  | bothSides network =>
    "Face network GraphSubset(" ++ Text.listing (network.map toString) ++
      ") is both inside and outside."
  | stated reason => reason

/-! ### Faults of a state -/

inductive StateFault where
  | negativeVariableCount
  | noValues
  | unknownVariable (var : Int) (count : Nat)
  | unknownValue (value : Int) (size : Nat)
  | repeatedConstraint (key : Key)
  | unknownConstraint (key : Key)
  | alreadyStarted
  | lockedVariable (var : Nat)
  | notCandidate (value var : Nat)
  deriving DecidableEq

def StateFault.message : StateFault → String
  | negativeVariableCount => "Number of variables must be non-negative."
  | noValues => "Domain size must be positive."
  | unknownVariable var count =>
    s!"Variable {var} out of range (0..{(count : Int) - 1})."
  | unknownValue value size => s!"Value {value} out of range (0..{(size : Int) - 1})."
  | repeatedConstraint key => "Constraint " ++ key.text ++ " already registered."
  | unknownConstraint key => key.text
  | alreadyStarted => "Initial state can only be changed before solving starts."
  | lockedVariable var => s!"Variable {var} is locked."
  | notCandidate value var => s!"Value {value} is not a candidate of variable {var}."

/-! ### Faults of propagation and search -/

inductive SearchFault where
  | noPasses (limit : Int)
  | unknownPolicy (name : String)
  | noFixpointPasses (limit : Int)
  | negativeBudget
  | budgetSpent (budget : Int) (guesses : Nat)
  | nothingToGuess
  | interrupted (reason : String)
  deriving DecidableEq

def SearchFault.message : SearchFault → String
  | noPasses limit => s!"max_passes must be at least 1, got {limit}."
  | unknownPolicy name => "Unknown guess policy: " ++ Text.quote name ++ "."
  | noFixpointPasses limit => s!"max_fixpoint_passes must be at least 1, got {limit}."
  | negativeBudget => "max_guesses must be non-negative."
  | budgetSpent budget guesses =>
    s!"max_guesses ({budget}) cannot be below the {guesses} guesses already made."
  | nothingToGuess => "No undetermined variable to guess on."
  | interrupted reason => reason

/-! ### Faults of graphs and of sets of their faces -/

inductive GraphFault where
  | shortFace (face : Nat)
  | repeatedVertex (face : Nat) (vertices : List Int)
  | unknownVertex (face : Nat) (vertex : Int)
  | crowdedEdge (edge start stop : Nat) (faces : List Nat)
  | unknownHints (faces : List Int)
  | emptyGrid (width height : Int)
  | outOfRange
  /-- A reference that no list is long enough to need. -/
  | farReference
  | foreignFaces (faces : List Int) (graph : String)
  | differentGraphs
  | noFaces
  deriving DecidableEq

/-- Whether the faces do not form a planar subdivision at all. -/
def GraphFault.isStructural : GraphFault → Bool
  | shortFace .. | repeatedVertex .. | unknownVertex .. | crowdedEdge .. => true
  | _ => false

def GraphFault.message : GraphFault → String
  | shortFace face => s!"Face {face} has fewer than three vertices."
  | repeatedVertex face vertices =>
    s!"Face {face} repeats a vertex: " ++ Text.bracketed (vertices.map toString) ++ "."
  | unknownVertex face vertex => s!"Face {face} references unknown vertex {vertex}."
  | crowdedEdge edge start stop faces =>
    s!"Edge {edge} Edge(start={start}, end={stop}) borders more than two faces: " ++
      Text.listing (faces.map toString) ++ "."
  | unknownHints faces =>
    "Hints given for unknown faces: " ++ Text.listing (faces.map toString) ++ "."
  | emptyGrid width height => s!"Grid dimensions must be positive, got {width}x{height}."
  | outOfRange => "tuple index out of range"
  | farReference => "cannot fit 'int' into an index-sized integer"
  | foreignFaces faces graph =>
    "Faces " ++ Text.listing (faces.map toString) ++ " do not belong to " ++ graph ++ "."
  | differentGraphs => "Cannot combine subsets of different graphs."
  | noFaces => "min() arg is an empty sequence"

/-! ### Faults of tower grids -/

inductive TowersFault where
  | emptyGrid
  | clueCount (size : Nat) (side : String) (count : Nat)
  | clueRange (side : String) (size : Nat) (clues : List Int)
  | cellOutside (column row : Int) (size : Nat)
  | lineOutside (index : Int) (size : Nat)
  | unknownSide (side : Int)
  | heightRange (size : Nat) (height : Int)
  deriving DecidableEq

def TowersFault.message : TowersFault → String
  | emptyGrid => "Grid size must be positive."
  | clueCount size side count => s!"Expected {size} {side} clues, got {count}."
  | clueRange side size clues =>
    side.capitalize ++ s!" clues must be in 0..{size}: " ++
      Text.bracketed (clues.map toString) ++ "."
  | cellOutside column row size => s!"Cell ({column}, {row}) outside {size}x{size} grid."
  | lineOutside index size => s!"Line index {index} outside 0..{(size : Int) - 1}."
  | unknownSide side => s!"Unknown side: {side}."
  | heightRange size height => s!"Height must be in 1..{size}, got {height}."

/-! ### Faults of game identifiers -/

inductive GameIdFault where
  | malformedTowers (id : String)
  | emptyTowers (id : String)
  | clueCount (expected count : Nat) (id : String)
  | invalidClue (clue id : String)
  | invalidGiven (given : String) (cell : Nat) (id : String)
  | unexpectedMark (mark id : String)
  | fieldLength (covered expected : Nat) (id : String)
  | malformedLoop (id : String)
  | emptyLoop (id : String)
  | unknownTiling (tiling : Nat) (id : String)
  | longHints (field : String) (faces : Int)
  | unexpectedHint (mark field : String)
  | hintLength (field : String) (covered : Nat) (faces : Int)
  deriving DecidableEq

def GameIdFault.message : GameIdFault → String
  | malformedTowers id => "Malformed Towers game id: " ++ Text.quote id ++ "."
  | emptyTowers id => "Grid size must be positive in " ++ Text.quote id ++ "."
  | clueCount expected count id =>
    s!"Expected {expected} clues, got {count} in " ++ Text.quote id ++ "."
  | invalidClue clue id => "Invalid clue " ++ Text.quote clue ++ " in " ++ Text.quote id ++ "."
  | invalidGiven given cell id =>
    "Invalid given " ++ Text.quote given ++ s!" at cell {cell} in " ++ Text.quote id ++ "."
  | unexpectedMark mark id =>
    "Unexpected character " ++ Text.quote mark ++ " in " ++ Text.quote id ++ "."
  | fieldLength covered expected id =>
    s!"Field covers {covered} cells, expected {expected} in " ++ Text.quote id ++ "."
  | malformedLoop id => "Malformed Loopy game id: " ++ Text.quote id ++ "."
  | emptyLoop id => "Grid dimensions must be positive in " ++ Text.quote id ++ "."
  | unknownTiling tiling id => s!"Unsupported grid type t{tiling} in " ++ Text.quote id ++ "."
  | longHints field faces =>
    "Hint field " ++ Text.quote field ++ s!" is longer than {faces} faces."
  | unexpectedHint mark field =>
    "Unexpected character " ++ Text.quote mark ++ " in hint field " ++ Text.quote field ++ "."
  | hintLength field covered faces =>
    "Hint field " ++ Text.quote field ++ s!" covers {covered} faces, expected {faces}."

/-! ### Faults of numerals -/

inductive NumeralFault where
  /-- Text that looks like digits without being a number. -/
  | notNumeral (text : String)
  /-- Text with more digits than are read. -/
  | longText (digits limit : Nat)
  /-- A number with more digits than are written. -/
  | longNumber (limit : Nat)
  deriving DecidableEq

/-- Only the beginning of a long text is shown. -/
def NumeralFault.message : NumeralFault → String
  | notNumeral text =>
    "invalid literal for int() with base 10: " ++
      String.ofList ((Text.quoteChars text.toList).take 200)
  | longText digits limit =>
    s!"Exceeds the limit ({limit} digits) for integer string conversion: value has {digits} " ++
      "digits; use sys.set_int_max_str_digits() to increase the limit"
  | longNumber limit =>
    s!"Exceeds the limit ({limit} digits) for integer string conversion; " ++
      "use sys.set_int_max_str_digits() to increase the limit"

/-! ### Faults of size -/

inductive SizeFault where
  /-- A number beyond the last code point was to be written as a character. -/
  | noCharacter
  /-- The same for a number that does not fit into 32 bits. -/
  | wideCharacter
  | wideSet
  | wideList
  | memory
  deriving DecidableEq

def SizeFault.message : SizeFault → String
  | noCharacter => "chr() arg not in range(0x110000)"
  | wideCharacter => "Python int too large to convert to C int"
  | wideSet => "Python int too large to convert to C ssize_t"
  | wideList => "cannot fit 'int' into an index-sized integer"
  | memory => ""

/-! ### Faults of clocks -/

inductive ClockFault where
  /-- A whole number beyond the largest floating-point one. -/
  | wideWhole
  /-- A reading that is no finite number. -/
  | notFinite
  deriving DecidableEq

def ClockFault.message : ClockFault → String
  | wideWhole => "int too large to convert to float"
  | notFinite => "cannot convert float NaN to integer"

/-! ### All faults -/

inductive Fault where
  | contradiction (cause : Contradiction)
  | state (cause : StateFault)
  | search (cause : SearchFault)
  | graph (cause : GraphFault)
  | towers (cause : TowersFault)
  | gameId (cause : GameIdFault)
  | numeral (cause : NumeralFault)
  | size (cause : SizeFault)
  | clock (cause : ClockFault)
  deriving DecidableEq

def Fault.message : Fault → String
  | contradiction cause => cause.message
  | state cause => cause.message
  | search cause => cause.message
  | graph cause => cause.message
  | towers cause => cause.message
  | gameId cause => cause.message
  | numeral cause => cause.message
  | size cause => cause.message
  | clock cause => cause.message

end PencilPuzzle
