import PencilPuzzle.Text.Quoted

/-!
# Faults of directions for settings

A library for settings takes directions along with the values, and fails as a whole where a source
cannot be used or a direction cannot be followed.
-/

namespace PencilPuzzle.Settings

/-- What a value was used for although its kind does not allow it. -/
inductive Misuse where
  | measured
  | walked
  | searched
  | unpacked
  | called
  | subscripted
  | subtracted
  | matched
  | path
  deriving DecidableEq

def Misuse.message (use : Misuse) (kind : String) : String :=
  match use with
  | measured => s!"object of type '{kind}' has no len()"
  | walked => s!"'{kind}' object is not iterable"
  | searched => s!"argument of type '{kind}' is not iterable"
  | unpacked => s!"cannot unpack non-iterable {kind} object"
  | called => s!"'{kind}' object is not callable"
  | subscripted => s!"'{kind}' object is not subscriptable"
  | subtracted => s!"unsupported operand type(s) for -: '{kind}' and 'int'"
  | matched => s!"expected string or bytes-like object, got '{kind}'"
  | path => s!"expected str, bytes or os.PathLike object, not {kind}"

inductive Malformation where
  /-- Fewer parts than the two of a pair. -/
  | fewParts (count : Nat)
  | manyParts
  | zeroByte
  | variableName
  deriving DecidableEq

def Malformation.message : Malformation → String
  | fewParts count => s!"not enough values to unpack (expected 2, got {count})"
  | manyParts => "too many values to unpack (expected 2)"
  | zeroByte => "embedded null byte"
  | variableName => "illegal environment variable name"

inductive ArgumentFault where
  | missingText (flag : String)
  | needlessText (flag text : String)
  | leftover (arguments : List String)
  deriving DecidableEq

def ArgumentFault.message : ArgumentFault → String
  | missingText flag => s!"argument {flag}: expected one argument"
  | needlessText flag text => s!"argument {flag}: ignored explicit argument " ++ Text.quote text
  | leftover arguments => "unrecognized arguments: " ++ " ".intercalate arguments

/-- A direction that is understood and cannot be followed. -/
inductive DirectionFault where
  /-- A collection in the place of the stem of names. -/
  | stem (setting : String)
  /-- Something else in the place of a list of arguments. -/
  | argumentList (kind : String)
  /-- A stem of flags that is no name. -/
  | flagStem (text : String)
  | argument (cause : ArgumentFault)
  deriving DecidableEq

def DirectionFault.message : DirectionFault → String
  | stem setting => s!"error getting value for field \"{setting}\" from source \"EnvSettingsSource\""
  | argumentList kind =>
    s!"cli_parse_args must be a list or tuple of strings, received <class '{kind}'>"
  | flagStem text => "CLI settings source prefix is invalid: " ++ text
  | argument cause => "error parsing CLI: " ++ cause.message

inductive SettingsFault where
  | misused (use : Misuse) (kind : String)
  /-- A keyword by the name under which the settings themselves are passed. -/
  | takenKeyword (name : String)
  | lacking (kind member : String)
  | malformed (cause : Malformation)
  | namelessVariable
  /-- Flags were to be marked by no character at all. -/
  | noMark
  | direction (cause : DirectionFault)
  /-- The program ends with this code. -/
  | stopped (code : Nat)
  deriving DecidableEq

def SettingsFault.message : SettingsFault → String
  | misused use kind => use.message kind
  | takenKeyword name => s!"BaseSettings.__init__() got multiple values for argument '{name}'"
  | lacking kind member => s!"'{kind}' object has no attribute '{member}'"
  | malformed cause => cause.message
  | namelessVariable => "[Errno 22] Invalid argument"
  | noMark => "string index out of range"
  | direction cause => cause.message
  | stopped code => toString code

end PencilPuzzle.Settings
