import PencilPuzzle.Settings

/-!
# Reading settings

Each setting is declared with its name, its default and the values it admits. Where values are found
and how they are understood is up to a library for settings, which is a parameter here: all that is
seen of its sources is what they give under a name, and of its values how they read as a number, as a
truth value and as text. All problems are reported together, setting by setting, and names that are
no settings after them.
-/

namespace PencilPuzzle.Settings

/-- What stands before the name of a setting in that of its environment variable. -/
def stem : String := "GRIDLOGIC_"

/-- The settings, and which of them are truth values. -/
def fields : List (String × Bool) :=
  [("max_guesses", false), ("guess_policy", false), ("max_fixpoint_passes", false),
    ("report_interval", false), ("verbose", true)]

def names : List String := fields.map Prod.fst

def policies : List String := ["first", "fewest"]

inductive Problem where
  | notInteger
  | unreadableInteger
  | longInteger
  | fraction
  | tooSmall
  | notBoolean
  | unreadableBoolean
  | notAChoice
  | unknownSetting
  deriving DecidableEq

def Problem.name : Problem → String
  | notInteger => "int_type"
  | unreadableInteger => "int_parsing"
  | longInteger => "int_parsing_size"
  | fraction => "int_from_float"
  | tooSmall => "greater_than_equal"
  | notBoolean => "bool_type"
  | unreadableBoolean => "bool_parsing"
  | notAChoice => "literal_error"
  | unknownSetting => "extra_forbidden"

/-! ### The library -/

/-- How a library understands values of its own kind. -/
structure Readers (Value : Type) where
  integer : Value → Except Problem Int
  truth : Value → Except Problem Bool
  /-- The text that a value is; text is not made of other values. -/
  text? : Value → Option String
  isNull : Value → Bool

/-- What a library has found in the sources it was asked to look into. -/
structure Findings (Value : Type) where
  value? : String → Option Value
  /-- The names given that are no settings. -/
  unknown : List String

variable {Value : Type}

namespace Readers

def atLeast (readers : Readers Value) (least : Int) (value : Value) : Except Problem Int := do
  let n ← readers.integer value
  if n < least then .error .tooSmall else .ok n

/-- A limit, or none at all. -/
def limit (readers : Readers Value) (least : Int) (value : Value) :
    Except Problem (Option Int) := do
  if readers.isNull value then return none
  return some (← readers.atLeast least value)

def choice (readers : Readers Value) (choices : List String) (value : Value) :
    Except Problem String :=
  match readers.text? value with
  | some text => if text ∈ choices then .ok text else .error .notAChoice
  | none => .error .notAChoice

end Readers

/-! ### All settings -/

namespace Findings

/-- The value of a setting, or its default, or the problem with it. -/
def field {α : Type} (found : Findings Value) (name : String) (read : Value → Except Problem α)
    (default : α) : Except Problem α :=
  match found.value? name with
  | none => .ok default
  | some value => read value

def problem? {α : Type} (name : String) : Except Problem α → Option (String × Problem)
  | .ok _ => none
  | .error problem => some (name, problem)

def maxGuesses (found : Findings Value) (readers : Readers Value) : Except Problem Int :=
  found.field "max_guesses" (readers.atLeast 0) ({} : Settings).maxGuesses

def guessPolicy (found : Findings Value) (readers : Readers Value) : Except Problem String :=
  found.field "guess_policy" (readers.choice policies) ({} : Settings).guessPolicy

def maxFixpointPasses (found : Findings Value) (readers : Readers Value) :
    Except Problem (Option Int) :=
  found.field "max_fixpoint_passes" (readers.limit 1) ({} : Settings).maxFixpointPasses

def reportInterval (found : Findings Value) (readers : Readers Value) : Except Problem Int :=
  found.field "report_interval" readers.integer ({} : Settings).reportInterval

def verbose (found : Findings Value) (readers : Readers Value) : Except Problem Bool :=
  found.field "verbose" readers.truth ({} : Settings).verbose

/-- Everything wrong with the settings that were found. -/
def problems (found : Findings Value) (readers : Readers Value) : List (String × Problem) :=
  (problem? "max_guesses" (found.maxGuesses readers)).toList ++
    (problem? "guess_policy" (found.guessPolicy readers)).toList ++
    (problem? "max_fixpoint_passes" (found.maxFixpointPasses readers)).toList ++
    (problem? "report_interval" (found.reportInterval readers)).toList ++
    (problem? "verbose" (found.verbose readers)).toList ++
    found.unknown.map fun name => (name, .unknownSetting)

def settings (found : Findings Value) (readers : Readers Value) :
    Except (List (String × Problem)) Settings :=
  match found.maxGuesses readers, found.guessPolicy readers, found.maxFixpointPasses readers,
    found.reportInterval readers, found.verbose readers, found.unknown with
  | .ok maxGuesses, .ok guessPolicy, .ok maxFixpointPasses, .ok reportInterval, .ok verbose, [] =>
    .ok { maxGuesses, guessPolicy, maxFixpointPasses, reportInterval, verbose }
  | _, _, _, _, _, _ => .error (found.problems readers)

end Findings

end PencilPuzzle.Settings
