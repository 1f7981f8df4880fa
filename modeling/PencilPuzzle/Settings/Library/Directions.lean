import PencilPuzzle.Settings.Library.CommandLine

/-!
# Directions for reading settings

Some keywords give no setting but say how the settings are to be read: how environment variables are
called and compared, which of them count, and which arguments are read besides. They all begin with
an underscore. A direction that is not given, or given as null, leaves things as they are.
-/

namespace PencilPuzzle.Settings

abbrev Keywords := List (String × Value)

def Keywords.direction (keywords : Keywords) (name : String) : Value :=
  (keywords.lookup name).getD .null

def Keywords.isOn (keywords : Keywords) (name : String) : Bool := (keywords.direction name).isOn

namespace Directions

/-- All keywords that are directions. Those on encodings, on nested settings and on the looks of the
help make no difference to the settings read here. -/
def names : List String :=
  ["_case_sensitive", "_nested_model_default_partial_update", "_env_prefix", "_env_prefix_target",
    "_env_file", "_env_file_depth", "_env_file_encoding", "_env_ignore_empty",
    "_env_nested_delimiter", "_env_nested_max_split", "_env_parse_none_str", "_env_parse_enums",
    "_cli_prog_name", "_cli_parse_args", "_cli_settings_source", "_cli_parse_none_str",
    "_cli_hide_none_type", "_cli_avoid_json", "_cli_enforce_required",
    "_cli_use_class_docs_for_groups", "_cli_exit_on_error", "_cli_prefix", "_cli_flag_prefix_char",
    "_cli_implicit_flags", "_cli_ignore_unknown_args", "_cli_kebab_case", "_cli_shortcuts",
    "_cli_show_env_vars", "_secrets_dir", "_build_sources"]

/-- The keyword under which the settings themselves are passed, so that nothing else can be. -/
def takenKeyword : String := "__pydantic_self__"

/-! ### Sources given instead -/

def partsOf : Value → Except SettingsFault (List Value)
  | .text text => .ok (text.toList.map fun c => .text (String.ofList [c]))
  | .list items => .ok items
  | .record fields => .ok (fields.map fun field => .text field.1)
  | value => .error (.misused .unpacked value.kindName)

/-- Sources can be given as a value that has none; any other value has something in it that is no
source. -/
def checkNoSources (sources : Value) : Except SettingsFault Unit :=
  if !sources.isOn then .ok ()
  else
    match sources with
    | .text _ | .record _ => .error (.misused .called "str")
    | .list (source :: _) => .error (.misused .called source.kindName)
    | value => .error (.misused .walked value.kindName)

/-- Checks a pair of sources and keywords that takes the place of all others. -/
def checkReplacement (value : Value) : Except SettingsFault Unit := do
  match ← partsOf value with
  | [sources, _] => checkNoSources sources
  | parts =>
    .error (.malformed (if parts.length < 2 then .fewParts parts.length else .manyParts))

/-! ### Files -/

def checkPath : Value → Except SettingsFault Unit
  | .text _ => .ok ()
  | value => .error (.misused .path value.kindName)

/-- Files are named by a path or by several. None of them is there to be read. -/
def checkPaths : Value → Except SettingsFault Unit
  | .null | .text _ | .record _ => .ok ()
  | .list items => items.forM checkPath
  | value => .error (.misused .walked value.kindName)

/-! ### Environment variables -/

structure Lookup where
  /-- Whether capital and small letters are told apart in names. -/
  exactNames : Bool
  /-- What stands before the name of a setting in that of its environment variable. -/
  stem : Value
  /-- Whether environment variables without text count as missing. -/
  skipsEmpty : Bool
  /-- The text that stands for no value. -/
  nullText : Option String

/-- A stem has a length, whatever else is wrong with it. -/
def checkStem : Value → Except SettingsFault Unit
  | .text _ | .list _ | .record _ => .ok ()
  | value => .error (.misused .measured value.kindName)

/-- A number of splits is counted down, which text and collections are not unless they are empty. -/
def checkSplits (value : Value) : Except SettingsFault Unit :=
  match value with
  | .text _ | .list _ | .record _ =>
    if value.isOn then .error (.misused .subtracted value.kindName) else .ok ()
  | _ => .ok ()

/-- Reads the directions for environment variables. The stem may be directed to names of another
kind, of which there are none. -/
def readLookup (stem : String) (keywords : Keywords) : Except SettingsFault Lookup := do
  checkSplits (keywords.direction "_env_nested_max_split")
  let chosen := match keywords.direction "_env_prefix" with
    | .null => .text stem
    | value => value
  checkStem chosen
  checkPaths (keywords.direction "_env_file")
  let isUsed := match keywords.direction "_env_prefix_target" with
    | .null => true
    | .text target => target = "variable" || target = "all"
    | _ => false
  return {
    exactNames := keywords.isOn "_case_sensitive"
    stem := if isUsed then chosen else .text ""
    skipsEmpty := keywords.isOn "_env_ignore_empty"
    nullText := (keywords.direction "_env_parse_none_str").text? }

/-- The stem as text, which a collection is not; the first of the settings misses it. -/
def Lookup.stemFor (lookup : Lookup) (first : String) : Except SettingsFault String :=
  match lookup.stem with
  | .text stem => .ok stem
  | _ => .error (.direction (.stem first))

/-! ### Arguments -/

/-- The text for no value on the command line: that of environment variables, unless it is empty. -/
def argumentNull (keywords : Keywords) : Option String :=
  let environment := keywords.direction "_env_parse_none_str"
  let own := keywords.direction "_cli_parse_none_str"
  if environment.isOn then environment.text?
  else if own.isOn then own.text?
  else match keywords.direction "_cli_avoid_json" with
    | .bool true => some "None"
    | _ => some "null"

/-- Whether text is a name: letters, digits and underscores, no digit in front. All characters
outside the ASCII range count as letters. -/
def isName (text : List Char) : Bool :=
  let isLetter (c : Char) : Bool := c.isAlpha || c = '_' || 0x80 ≤ c.toNat
  match text with
  | [] => false
  | first :: rest => isLetter first && rest.all fun c => isLetter c || c.isDigit

/-- The stem of flags: names with points between them. -/
def readFlagStem : Value → Except SettingsFault String
  | .null | .text "" | .list [] | .record [] => .ok ""
  | .text stem =>
    if stem.toList.head? = some '.' || stem.toList.getLast? = some '.' ||
        !isName (stem.toList.filter (· ≠ '.')) then
      .error (.direction (.flagStem stem))
    else .ok (stem ++ ".")
  | value =>
    if value.isOn then .error (.lacking value.kindName "startswith")
    else .error (.misused .measured value.kindName)

def readMark : Value → Except SettingsFault String
  | .text "" => .error .noMark
  | .text mark => .ok mark
  | .null | .list _ | .record _ => .ok "-"
  | value => .error (.misused .searched value.kindName)

def readShortcuts : Value → Except SettingsFault (List (String × List String))
  | .record fields => .ok (fields.map fun field => (field.1, match field.2 with
    | .text name => [name]
    | .list names => names.filterMap Value.text?
    | _ => []))
  | value => if value.isOn then .error (.lacking value.kindName "items") else .ok []

def readTurning : Value → Turning
  | .text "toggle" => .on
  | value => if value.isOn then .onOff else .byText

/-- Whether capital letters in flags count as small ones: so they do unless directed otherwise. -/
def foldsFlags (keywords : Keywords) : Bool :=
  match keywords.direction "_case_sensitive" with
  | .null | .bool false => true
  | _ => false

def readCommandLine (keywords : Keywords) : Except SettingsFault CommandLine := do
  let stem ← readFlagStem (keywords.direction "_cli_prefix")
  let mark ← readMark (keywords.direction "_cli_flag_prefix_char")
  let shortcuts ← readShortcuts (keywords.direction "_cli_shortcuts")
  return {
    mark
    stem
    shortcuts
    hyphens := keywords.isOn "_cli_kebab_case"
    turning := readTurning (keywords.direction "_cli_implicit_flags")
    foldsFlags := foldsFlags keywords
    skipsUnknown := keywords.isOn "_cli_ignore_unknown_args"
    stopsOnFault := match keywords.direction "_cli_exit_on_error" with
      | .null => true
      | value => value.isOn
    nullText := argumentNull keywords }

/-- An argument, which ought to be text. Empty values count as empty text. -/
def readArgument (line : CommandLine) : Value → Except SettingsFault String
  | .text argument => .ok argument
  | value =>
    if !value.isOn then .ok ""
    else .error (.misused (if line.foldsFlags then .matched else .subscripted) value.kindName)

/-- The arguments to be read. The program has none of its own. -/
def readArguments (line : CommandLine) : Value → Except SettingsFault (List String)
  | .bool _ | .int 0 => .ok []
  | .list items => items.mapM (readArgument line)
  | .real value =>
    if value = 0 then .ok []
    else .error (.direction (.argumentList (Value.real value).kindName))
  | value => .error (.direction (.argumentList value.kindName))

/-- What arguments give to settings, each of which comes with whether it is a truth value. -/
def argumentEntries (settings : List (String × Bool)) (keywords : Keywords) :
    Except SettingsFault Keywords :=
  match keywords.direction "_cli_parse_args" with
  | .null => .ok []
  | value => do
    let line ← readCommandLine keywords
    line.read settings (← readArguments line value)

end Directions

end PencilPuzzle.Settings
