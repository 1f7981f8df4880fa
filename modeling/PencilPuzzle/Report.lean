import PencilPuzzle.Clock.Duration
import PencilPuzzle.Search.Event
import PencilPuzzle.Settings

/-!
# Progress reports

A reporter counts the events it is told of and writes a line for every one of them, or for every
`interval`-th: how many events and guesses there were, how much is determined, and how long it took.
It reads its clock once when it is made and once for every line. A clock may fail, and a line that
would need its reading is then not written.
-/

namespace PencilPuzzle

/-- What a reporter is told. Label, variable and value are shown as they are given. -/
structure Notice where
  /-- The name of the kind of event. -/
  label : String
  state : State
  depth : Int
  guesses : Int
  var : Option Int
  value : Option Int

def Event.notice (event : Event) : Notice where
  label := event.kind.name
  state := event.state
  depth := event.depth
  guesses := event.guesses
  var := event.guess.map fun guess => (guess.var : Int)
  value := event.guess.map fun guess => (guess.value : Int)

structure Reporter where
  interval : Int
  verbose : Bool
  /-- Without a stream nothing is written. -/
  silent : Bool
  /-- The drawing of the state that follows each line, if there is one. -/
  render : Option (State → String)
  /-- The reading of the clock at each look. -/
  clock : Nat → Except Fault Clock.Seconds
  /-- The reading of the first look. -/
  start : Clock.Seconds
  /-- How often the clock has been looked at. -/
  looks : Nat
  events : Nat
  written : String

namespace Reporter

def new (settings : Settings) (interval : Option Int) (verbose : Option Bool) (silent : Bool)
    (render : Option (State → String)) (clock : Nat → Except Fault Clock.Seconds) :
    Except Fault Reporter := do
  let start ← clock 0
  return {
    interval := interval.getD settings.reportInterval
    verbose := verbose.getD settings.verbose
    silent := silent
    render := render
    clock := clock
    start := start
    looks := 1
    events := 0
    written := "" }

/-- Whether the event just counted is written; an interval below one counts as one. -/
def isDue (reporter : Reporter) : Bool :=
  !reporter.silent &&
    (reporter.verbose || (reporter.events : Int) % max reporter.interval 1 = 0)

/-- The time since the first look at the clock, by another look. -/
def elapsed (reporter : Reporter) : Except Fault Clock.Seconds := do
  let now ← reporter.clock reporter.looks
  now.sub reporter.start

/-- The guess at the end of a line; a value that is not given has a word of its own. -/
def guessText (notice : Notice) : String :=
  match notice.var with
  | none => ""
  | some v =>
    let value := match notice.value with
      | some x => toString x
      | none => "None"
    s!" V:{v}=" ++ value

def line (reporter : Reporter) (notice : Notice) (elapsed : Clock.Seconds) : String :=
  "[" ++ notice.label ++ "] E:" ++ Text.grouped reporter.events ++ s!" D:{notice.depth} G:" ++
    Text.grouped notice.guesses ++
    s!" Det:{notice.state.determinedCount}/{notice.state.count} T:" ++
    Clock.durationText elapsed ++ guessText notice

def entry (reporter : Reporter) (notice : Notice) (elapsed : Clock.Seconds) : String :=
  let drawing := match reporter.render with
    | some render => render notice.state ++ "\n"
    | none => ""
  reporter.line notice elapsed ++ "\n" ++ drawing

/-- Counts an event and writes it if it is due. A fault of the clock leaves it counted. -/
def receive (reporter : Reporter) (notice : Notice) : Reporter × Except Fault Unit :=
  let counted := { reporter with events := reporter.events + 1 }
  if counted.isDue then
    let looked := { counted with looks := counted.looks + 1 }
    match counted.elapsed with
    | .error fault => (looked, .error fault)
    | .ok elapsed =>
      ({ looked with written := looked.written ++ looked.entry notice elapsed }, .ok ())
  else (counted, .ok ())

end Reporter

end PencilPuzzle
