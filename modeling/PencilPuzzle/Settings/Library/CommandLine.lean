import PencilPuzzle.Settings.Library.Fault
import PencilPuzzle.Settings.Library.Value
import PencilPuzzle.Text.Blank
import PencilPuzzle.Text.Digit
import PencilPuzzle.Text.Lower

/-!
# Settings on a command line

Arguments give settings through flags. Each argument is first recognised for itself: as a flag,
perhaps with text attached to it, as something that only looks like a flag, or as plain text. A flag
that takes text and has none attached takes the plain text behind it. Short flags without text may
be written together. Arguments that no flag takes are left over.
-/

namespace PencilPuzzle.Settings

/-! ### Flags -/

inductive FlagEffect where
  /-- Gives a setting the text that comes with the flag. -/
  | text (setting : String)
  /-- Turns a setting on, or off where the spelling denies it. -/
  | turn (setting : String)
  /-- Shows how the program is used, and ends it. -/
  | help
  deriving DecidableEq

structure Flag where
  spellings : List String
  effect : FlagEffect
  deriving DecidableEq

def Flag.name (flag : Flag) : String := "/".intercalate flag.spellings

def Flag.takesText (flag : Flag) : Bool :=
  match flag.effect with
  | .text _ => true
  | _ => false

inductive Turning where
  /-- By text, like everything else. -/
  | byText
  /-- By a flag that turns the setting on. -/
  | on
  /-- By one flag that turns it on and one that turns it off. -/
  | onOff
  deriving DecidableEq

structure CommandLine where
  /-- What a flag begins with; long flags have it twice. Never empty. -/
  mark : String := "-"
  /-- What stands before the names of settings. -/
  stem : String := ""
  /-- Whether underscores in names are written as hyphens. -/
  hyphens : Bool := false
  turning : Turning := .byText
  /-- Further names of flags. -/
  shortcuts : List (String × List String) := []
  /-- Whether capital letters in flags count as small ones. -/
  foldsFlags : Bool := true
  skipsUnknown : Bool := false
  /-- Whether a fault ends the program. -/
  stopsOnFault : Bool := true
  /-- The text that stands for no value. -/
  nullText : Option String := some "null"

namespace CommandLine

def marks (line : CommandLine) : List Char := line.mark.toList

/-- The spelling of the flag with a name: a name of one character needs one mark only. -/
def spell (line : CommandLine) (name : String) : String :=
  let width := if name.length = 1 then 1 else 2
  String.ofList ((line.marks ++ line.marks).take width) ++ name

/-- The spelling that turns off what a long flag turns on. -/
def denial? (spelling : String) : Option String :=
  match spelling.toList with
  | '-' :: '-' :: name => some ("--no-" ++ String.ofList name)
  | _ => none

def isDenial (spelling : String) : Bool := spelling.toList.take 5 = "--no-".toList

/-- The names of the flag of a setting, but for those that other settings have already. -/
def flagNames (line : CommandLine) (taken : List String) (setting : String) : List String :=
  let name := line.stem ++
    String.ofList (setting.toList.map fun c => if line.hyphens && c = '_' then '-' else c)
  if name ∈ taken then []
  else
    name :: (line.shortcuts.filter fun shortcut => shortcut.1 = name).flatMap fun shortcut =>
      shortcut.2.filter (· ∉ taken)

def flag (line : CommandLine) (isTruth : Bool) (setting : String) (names : List String) : Flag :=
  let spellings := names.map line.spell
  match isTruth, line.turning with
  | true, .on => ⟨spellings, .turn setting⟩
  | true, .onOff =>
    ⟨spellings.flatMap fun spelling => spelling :: (denial? spelling).toList, .turn setting⟩
  | _, _ => ⟨spellings, .text setting⟩

/-- The flags of settings, each of which comes with whether it is a truth value. A setting without a
name of its own has no flag. -/
def flagsAfter (line : CommandLine) (taken : List String) : List (String × Bool) → List Flag
  | [] => []
  | (setting, isTruth) :: rest =>
    match line.flagNames taken setting with
    | [] => line.flagsAfter taken rest
    | names => line.flag isTruth setting names :: line.flagsAfter (taken ++ names) rest

def flags (line : CommandLine) (settings : List (String × Bool)) : List Flag :=
  ⟨[line.spell "h", line.spell "help"], .help⟩ :: line.flagsAfter [] settings

def find? (flags : List Flag) (spelling : String) : Option Flag :=
  flags.find? fun flag => spelling ∈ flag.spellings

/-! ### Recognising arguments -/

inductive Part where
  | plain (text : String)
  | unknown (text : String)
  | flag (flag : Flag) (spelling : String)
  | flagWith (flag : Flag) (text : String)
  /-- A flag with text attached that takes none. -/
  | overladen (flag : Flag) (text : String)
  deriving DecidableEq

/-- The parts of a flag with text attached, directly or by an equals sign. The first letter of text
attached to a short flag that takes none is a short flag itself. -/
def attached (line : CommandLine) (flags : List Flag) (flag : Flag) (spelling : String)
    (byEquals : Bool) (text : List Char) : List Part :=
  if flag.takesText then [.flagWith flag (String.ofList text)]
  else
    match spelling.toList, text with
    | mark :: second :: _, letter :: rest =>
      if second ∈ line.marks || byEquals || letter ∈ line.marks then
        [.overladen flag (String.ofList text)]
      else
        let spelling' := String.ofList [mark, letter]
        .flag flag spelling ::
          match find? flags spelling', rest with
          | none, _ => [.unknown (String.ofList (mark :: text))]
          | some next, [] => [.flag next spelling']
          | some next, '=' :: value => line.attached flags next spelling' true value
          | some next, rest => line.attached flags next spelling' false rest
    | _, _ => [.overladen flag (String.ofList text)]
termination_by text.length

/-- Whether text is a negative number, perhaps with a point, and perhaps with a line end. -/
def isNegativeNumber (text : List Char) : Bool :=
  let body := if text.getLast? = some '\n' then text.dropLast else text
  match body with
  | '-' :: digits =>
    match digits.dropWhile Text.isDigit with
    | [] => !digits.isEmpty
    | '.' :: fraction => !fraction.isEmpty && fraction.all Text.isDigit
    | _ => false
  | _ => false

/-- The parts of an argument. One that begins with a mark and is no flag is plain all the same if it
is only the mark, a negative number, or holds a space. -/
def recognise (line : CommandLine) (flags : List Flag) (argument : String) : List Part :=
  match argument.toList with
  | [] => [.plain argument]
  | first :: rest =>
    if first ∉ line.marks then [.plain argument]
    else
      match find? flags argument, rest with
      | some flag, _ => [.flag flag argument]
      | none, [] => [.plain argument]
      | none, second :: behind =>
        let front := argument.toList.takeWhile (· ≠ '=')
        match find? flags (String.ofList front), argument.toList.drop front.length with
        | some flag, _ :: value => line.attached flags flag (String.ofList front) true value
        | _, _ =>
          let short := String.ofList [first, second]
          match find? flags short with
          | some flag => line.attached flags flag short false behind
          | none =>
            if isNegativeNumber argument.toList || ' ' ∈ argument.toList then [.plain argument]
            else [.unknown argument]

/-- The parts of all arguments. Two hyphens alone end the flags, and are unknown themselves. -/
def parts (line : CommandLine) (flags : List Flag) : List String → List Part
  | [] => []
  | argument :: rest =>
    if argument = "--" then .unknown argument :: rest.map .plain
    else line.recognise flags argument ++ line.parts flags rest

/-! ### Taking what the parts give -/

/-- What arguments give, in their order, and which of them are left over. -/
structure Harvest where
  given : List (String × Value)
  leftover : List String

inductive Stop where
  | help
  | fault (cause : ArgumentFault)

def valueOf (nullText : Option String) (text : String) : Value :=
  if nullText = some text then .null else .text text

def give (line : CommandLine) (flag : Flag) (text : String) (harvest : Harvest) : Harvest :=
  match flag.effect with
  | .text setting =>
    { harvest with given := (setting, valueOf line.nullText text) :: harvest.given }
  | _ => harvest

def take (line : CommandLine) : List Part → Except Stop Harvest
  | [] => .ok ⟨[], []⟩
  | .plain text :: rest | .unknown text :: rest => do
    let harvest ← line.take rest
    return { harvest with leftover := text :: harvest.leftover }
  | .flagWith flag text :: rest => do
    let harvest ← line.take rest
    return line.give flag text harvest
  | .overladen flag text :: _ => .error (.fault (.needlessText flag.name text))
  | .flag flag spelling :: rest =>
    match flag.effect, rest with
    | .help, _ => .error .help
    | .turn setting, rest => do
      let harvest ← line.take rest
      return { harvest with given := (setting, .bool !isDenial spelling) :: harvest.given }
    | .text _, .plain text :: rest => do
      let harvest ← line.take rest
      return line.give flag text harvest
    | .text _, _ => .error (.fault (.missingText flag.name))

/-- An argument with the name of its flag in small letters. Behind that name a line end cuts the
argument off. -/
def foldFlag (line : CommandLine) (argument : String) : String :=
  let body := argument.toList.drop line.marks.length
  let inName (c : Char) : Bool := c ≠ '=' && !Text.isBlank c
  if argument.toList.take line.marks.length ≠ line.marks || (body.takeWhile inName).isEmpty then
    argument
  else
    Text.lower (line.mark ++ String.ofList (body.takeWhile inName)) ++
      String.ofList ((body.dropWhile inName).takeWhile (· ≠ '\n'))

/-- The settings that arguments give, the last one of each name first. -/
def read (line : CommandLine) (settings : List (String × Bool)) (arguments : List String) :
    Except SettingsFault (List (String × Value)) :=
  let arguments := if line.foldsFlags then arguments.map line.foldFlag else arguments
  let refuse (cause : ArgumentFault) : Except SettingsFault (List (String × Value)) :=
    if line.stopsOnFault then .error (.stopped 2) else .error (.direction (.argument cause))
  match line.take (line.parts (line.flags settings) arguments) with
  | .error .help => .error (.stopped 0)
  | .error (.fault cause) => refuse cause
  | .ok harvest =>
    if harvest.leftover.isEmpty || line.skipsUnknown then .ok harvest.given.reverse
    else refuse (.leftover harvest.leftover)

end CommandLine

end PencilPuzzle.Settings
