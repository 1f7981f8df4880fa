import PencilPuzzle.Settings.Library.Directions

/-!
# Sources of settings

One library for settings. They come from keywords, which may be values of any kind, and from
environment variables and arguments, which are text. An argument hides the keyword of the same
setting, and a keyword hides its environment variable.
-/

namespace PencilPuzzle.Settings

structure Sources where
  keywords : Keywords
  environment : List (String × String)

inductive Refusal where
  /-- A source that cannot be used, or a direction that cannot be followed. -/
  | fault (cause : SettingsFault)
  /-- The settings with a problem, and unknown keywords. -/
  | problems (list : List (String × Problem))

/-! ### The sources in layers -/

/-- An environment variable has a name, which holds no equals sign, and no character is zero. -/
def checkVariable (name text : String) : Except SettingsFault Unit :=
  if '\x00' ∈ name.toList || '\x00' ∈ text.toList then .error (.malformed .zeroByte)
  else if '=' ∈ name.toList then .error (.malformed .variableName)
  else if name.isEmpty then .error .namelessVariable
  else .ok ()

/-- What each source gives, in the order in which they are asked. -/
structure Layers where
  arguments : Keywords
  keywords : Keywords
  environment : Keywords

/-- What is found in the layers. Only keywords can be given under a name that is no setting. -/
def Layers.findings (layers : Layers) : Findings Value where
  value? name := ((layers.arguments.lookup name).or (layers.keywords.lookup name)).or
    (layers.environment.lookup name)
  unknown := (layers.keywords.map Prod.fst).eraseDups.filter (· ∉ names)

/-- What environment variables give to a setting: the last one counts. -/
def fromEnvironment? (lookup : Directions.Lookup) (environment : List (String × String))
    (variableName : String) : Option Value :=
  let fold (name : String) : String := if lookup.exactNames then name else Text.lower name
  let counting := environment.filter fun entry => !(lookup.skipsEmpty && entry.2.isEmpty)
  (counting.reverse.find? fun entry => fold entry.1 = fold variableName).map fun entry =>
    CommandLine.valueOf lookup.nullText entry.2

/-- Asks all sources, following the directions among the keywords. Nothing is asked if the keywords
bring other sources with them. -/
def Sources.layers (sources : Sources) : Except SettingsFault Layers := do
  sources.environment.forM fun entry => checkVariable entry.1 entry.2
  if (sources.keywords.lookup Directions.takenKeyword).isSome then
    .error (.takenKeyword Directions.takenKeyword)
  else
    match sources.keywords.direction "_build_sources" with
    | .null =>
      let lookup ← Directions.readLookup stem sources.keywords
      let arguments ← Directions.argumentEntries fields sources.keywords
      let stem ← lookup.stemFor (names.headD "")
      Directions.checkPaths (sources.keywords.direction "_secrets_dir")
      let keywords := sources.keywords.filter fun entry => entry.1 ∉ Directions.names
      return {
        arguments
        keywords := keywords.map fun entry =>
          if Text.lower entry.1 ∈ names then (Text.lower entry.1, entry.2) else entry
        environment := names.filterMap fun name =>
          (fromEnvironment? lookup sources.environment (stem ++ name)).map (name, ·) }
    | replacement =>
      Directions.checkReplacement replacement
      return ⟨[], [], []⟩

/-- The settings that the sources describe, or everything wrong with them. -/
def read (sources : Sources) : Except Refusal Settings := do
  let layers ← sources.layers.mapError .fault
  (layers.findings.settings readers).mapError .problems

end PencilPuzzle.Settings
