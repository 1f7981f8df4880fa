import PencilPuzzle.Rule
import PencilPuzzle.State.Constraint

/-!
# Lines of towers

How many towers are seen along a line, and the rule that keeps only those heights which some
arrangement of a clued line uses. Value `x` of a variable is a tower of height `x + 1`.
-/

namespace PencilPuzzle.Towers

/-- How many towers rise above everything before them and above `tallest`. -/
def visibleAbove (tallest : Nat) : List Nat → Nat
  | [] => 0
  | height :: rest =>
    if tallest < height then visibleAbove height rest + 1 else visibleAbove tallest rest

/-- How many towers are seen from the front of a line. -/
def countVisible (heights : List Nat) : Nat := visibleAbove 0 heights

/-- The same for heights that may be negative: only what rises above the ground is seen. -/
def countVisibleInts (heights : List Int) : Nat := countVisible (heights.map Int.toNat)

/-- A row or column with the clues at its two ends; a clue of 0 says nothing. -/
structure ClueLine where
  /-- The variables from the front end on. -/
  vars : List Int
  front : Int
  back : Int
  deriving DecidableEq

def ClueLine.isClued (line : ClueLine) : Bool := line.front ≠ 0 || line.back ≠ 0

/-- Whether a clue agrees with what is seen. -/
def agrees (clue : Int) (visible : Nat) : Bool := clue = 0 || clue = visible

/-- Whether the front clue can still be met with `visible` towers seen and `remaining` to come. -/
def reachable (front : Int) (visible remaining : Nat) : Bool :=
  front = 0 || (visible ≤ front && front ≤ visible + remaining)

/-- The ways to fill the rest of a line with different values so that the front clue is met. -/
def fillings (front : Int) (taken : List Nat) (visible tallest : Nat) :
    List (List Nat) → List (List Nat)
  | [] => if reachable front visible 0 then [[]] else []
  | domain :: rest =>
    if reachable front visible (rest.length + 1) then
      domain.flatMap fun x =>
        if x ∈ taken then []
        else if tallest < x + 1 then
          (fillings front (x :: taken) (visible + 1) (x + 1) rest).map (x :: ·)
        else (fillings front (x :: taken) visible tallest rest).map (x :: ·)
    else []

/-- The ways to fill a line with different values so that both clues are met. -/
def arrangements (front back : Int) (domains : List (List Nat)) : List (List Nat) :=
  (fillings front [] 0 0 domains).filter fun filling =>
    agrees back (countVisible (filling.reverse.map (· + 1)))

structure LineOptions where
  vars : List Nat
  arrangements : List (List Nat)

/-- The arrangements of a line; it is a contradiction if there are none. Looking for them needs a
list of all heights. -/
def lineOptions (state : State) (line : ClueLine) : Except Fault LineOptions := do
  let vars ← state.checkVars line.vars
  Room.checkList state.size
  match arrangements line.front line.back (vars.map state.candidates) with
  | [] => .error (.contradiction (.noArrangement line.vars))
  | found => .ok ⟨vars, found⟩

def allOptions (state : State) : List ClueLine → Except Fault (List LineOptions)
  | [] => .ok []
  | line :: rest => do
    let first ← lineOptions state line
    let others ← allOptions state rest
    return first :: others

def LineOptions.uses (options : LineOptions) (position x : Nat) : Bool :=
  options.arrangements.any fun arrangement => arrangement[position]? = some x

/-- The candidates of `v` that a line has no use for at some position of `v`. -/
def LineOptions.unused (options : LineOptions) (state : State) (v : Nat) : List Nat :=
  options.vars.zipIdx.flatMap fun (w, position) =>
    if w = v then (state.candidates v).filter fun x => !options.uses position x else []

/-- Strikes heights that no arrangement of a clued line uses. -/
def visibility (lines : List ClueLine) : Rule where
  name := "visibility"
  deduce state := do
    let options ← allOptions state (lines.filter ClueLine.isClued)
    return state.removals fun v => options.flatMap fun line => line.unused state v

end PencilPuzzle.Towers
