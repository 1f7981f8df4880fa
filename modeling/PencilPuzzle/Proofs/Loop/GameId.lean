import PencilPuzzle.Loop.GameId
import PencilPuzzle.Proofs.Graph.Grid
import PencilPuzzle.Proofs.Loop.Puzzle
import PencilPuzzle.Proofs.Numeral
import PencilPuzzle.Proofs.Rows
import PencilPuzzle.Proofs.Text.Split

/-!
# Which identifiers of loop puzzles are read

A field is read character by character: each one puts a hint on the current face or skips faces, and
at the end all faces must be covered. Whatever grid the numbers before it ask for can be drawn with such
hints, so an identifier is either read as that grid or refused as an identifier.
-/

namespace PencilPuzzle.Loop.GameId

open Tiling PencilPuzzle.Graph

/-! ### What an identifier is made of -/

/-- A digit means a hint up to 9, a capital one from 10 to 35. -/
def Means (c : Char) (hint : Nat) : Prop :=
  ('0' ≤ c ∧ c ≤ '9') ∧ c.toNat = '0'.toNat + hint ∨
    ('A' ≤ c ∧ c ≤ 'Z') ∧ c.toNat + 10 = 'A'.toNat + hint

def IsMark (c : Char) : Prop := '0' ≤ c ∧ c ≤ '9' ∨ 'A' ≤ c ∧ c ≤ 'Z' ∨ 'a' ≤ c ∧ c ≤ 'z'

/-- How many faces a mark goes on: a small letter as many as its place in the alphabet. -/
def step (c : Char) : Nat := if 'a' ≤ c ∧ c ≤ 'z' then c.toNat - 'a'.toNat + 1 else 1

def advance (field : List Char) : Nat := Marks.advance step field

/-- Going on from a face, the field comes to a face where it has a hint. -/
def Puts (face : Nat) (field : List Char) (f hint : Nat) : Prop :=
  ∃ c, Marks.Meets step face field f c ∧ Means c hint

def cornersOf (tiling : Nat) : Nat → Nat → List Position :=
  if tiling = 0 then squareCorners else hexagonCorners

namespace Parts

def text (parts : Parts) : List Char :=
  parts.width ++ 'x' :: (parts.height ++ 't' :: (parts.tiling ++ ':' :: parts.field))

/-- An identifier can be taken apart into these parts. -/
structure Sound (parts : Parts) : Prop where
  width : parts.width ≠ [] ∧ ∀ c ∈ parts.width, Text.isDigit c = true
  height : parts.height ≠ [] ∧ ∀ c ∈ parts.height, Text.isDigit c = true
  tiling : parts.tiling ≠ [] ∧ ∀ c ∈ parts.tiling, Text.isDigit c = true
  field : '\n' ∉ parts.field

/-- The parts are those of a grid of this width, height and kind, and of hints for its faces. -/
structure Fits (parts : Parts) (width height tiling : Nat) : Prop where
  columns : Text.Denotes parts.width width
  rows : Text.Denotes parts.height height
  number : Text.Denotes parts.tiling tiling
  wide : 1 ≤ width
  high : 1 ≤ height
  kind : tiling = 0 ∨ tiling = 2
  marks : ∀ c ∈ parts.field, IsMark c
  covers : advance parts.field = width * height

end Parts

/-- The state of the puzzle, with every step checked: its faces and then its vertices are registered. -/
def setUp (graph : Graph) : Except Fault State := do
  let blank ← State.new graph.edges.size 2
  blank.addConstraints ((initial graph).constraints.map fun entry => (entry.1, entry.2.map Int.ofNat))

/-- The drawing is the grid of this width, height and kind, with the hints of the field, and a puzzle can be
set up on it. -/
structure Shows (width height tiling : Nat) (field : List Char) (drawing : Drawing Position) : Prop where
  plain : grid (cornersOf tiling) width height [] = .ok ⟨drawing.positions, drawing.graph.unhinted⟩
  wellFormed : drawing.graph.WellFormed
  faces : drawing.graph.faces.size = width * height
  distinct : Distinct drawing.positions
  located : ∀ f < width * height,
    Locates drawing.positions (drawing.graph.verticesOf f) (cornersOf tiling (f % width) (f / width))
  hints : ∀ f hint, drawing.graph.hintOf f = some hint ↔ ∃ n : Nat, Puts 0 field f n ∧ hint = n
  playable : setUp drawing.graph = .ok (initial drawing.graph)

variable {limit : DigitLimit} {id field : String} {c : Char} {text rest : List Char} {parts : Parts}
  {width height tiling faces face f hint : Nat} {hints : List (Nat × Nat)}

/-! ### Fields -/

theorem hint?_eq_some : hint? c = some hint ↔ Means c hint := by
  unfold hint? Means
  by_cases digit : '0' ≤ c ∧ c ≤ '9'
  · have low : 48 ≤ c.toNat ∧ c.toNat ≤ 57 := digit
    have other : ¬ ('A' ≤ c ∧ c ≤ 'Z') := by
      intro capital
      have : 65 ≤ c.toNat ∧ c.toNat ≤ 90 := capital
      omega
    rw [if_pos digit, Option.some.injEq]
    show c.toNat - 48 = hint ↔ _ ∧ c.toNat = 48 + hint ∨ _
    simp only [digit, other, and_self, true_and, false_and, or_false]
    omega
  · rw [if_neg digit]
    by_cases capital : 'A' ≤ c ∧ c ≤ 'Z'
    · have high : 65 ≤ c.toNat ∧ c.toNat ≤ 90 := capital
      rw [if_pos capital, Option.some.injEq]
      show c.toNat - 65 + 10 = hint ↔ _ ∨ _ ∧ c.toNat + 10 = 65 + hint
      simp only [digit, capital, and_self, true_and, false_and, false_or]
      omega
    · rw [if_neg capital]
      simp [digit, capital]

/-- A character puts a hint, or it skips faces, or it is no mark. -/
theorem mark_cases (c : Char) :
    (∃ hint, hint? c = some hint ∧ IsMark c ∧ step c = 1) ∨
      (hint? c = none ∧ Text.skip? c = some (step c) ∧ IsMark c ∧ 1 ≤ step c) ∨
      hint? c = none ∧ Text.skip? c = none ∧ ¬ IsMark c := by
  unfold hint? Text.skip? step IsMark
  by_cases small : 'a' ≤ c ∧ c ≤ 'z'
  · have bounds : 97 ≤ c.toNat ∧ c.toNat ≤ 122 := small
    have digit : ¬ ('0' ≤ c ∧ c ≤ '9') := by
      intro digit
      have : 48 ≤ c.toNat ∧ c.toNat ≤ 57 := digit
      omega
    have capital : ¬ ('A' ≤ c ∧ c ≤ 'Z') := by
      intro capital
      have : 65 ≤ c.toNat ∧ c.toNat ≤ 90 := capital
      omega
    rw [if_neg digit, if_neg capital, if_pos small, if_pos small]
    exact .inr (.inl ⟨rfl, rfl, .inr (.inr small), Nat.succ_pos _⟩)
  · rw [if_neg small, if_neg small]
    by_cases digit : '0' ≤ c ∧ c ≤ '9'
    · rw [if_pos digit]
      exact .inl ⟨_, rfl, .inl digit, rfl⟩
    · rw [if_neg digit]
      by_cases capital : 'A' ≤ c ∧ c ≤ 'Z'
      · rw [if_pos capital]
        exact .inl ⟨_, rfl, .inr (.inl capital), rfl⟩
      · rw [if_neg capital]
        exact .inr (.inr ⟨rfl, rfl, by simp [digit, capital, small]⟩)

private theorem step_pos (c : Char) : 1 ≤ step c := by
  unfold step
  split <;> omega

theorem advance_cons (c : Char) (rest : List Char) : advance (c :: rest) = step c + advance rest :=
  Marks.advance_cons step c rest

theorem not_puts_nil : ¬ Puts face [] f hint := fun ⟨_, meets, _⟩ => Marks.not_meets_nil meets

theorem puts_cons : Puts face (c :: rest) f hint ↔
    face = f ∧ Means c hint ∨ Puts (face + step c) rest f hint := by
  simp only [Puts, Marks.meets_cons, or_and_right, exists_or, and_assoc, exists_eq_left']

/-- The hints of a text that is a field from a face on. -/
def hintsAt (face : Nat) : List Char → List (Nat × Nat)
  | [] => []
  | c :: rest =>
    match hint? c with
    | some hint => (face, hint) :: hintsAt (face + step c) rest
    | none => hintsAt (face + step c) rest

theorem mem_hintsAt : (f, hint) ∈ hintsAt face text ↔ Puts face text f hint := by
  induction text generalizing face with
  | nil => exact iff_of_false List.not_mem_nil not_puts_nil
  | cons c rest ih =>
    rw [hintsAt, puts_cons, ← hint?_eq_some]
    cases hint? c with
    | none => simp [ih]
    | some here => simp [ih, eq_comm]

private theorem hintsAt_ordered (face : Nat) (text : List Char) :
    ((hintsAt face text).map Prod.fst).Pairwise (· < ·) ∧
      ∀ f ∈ (hintsAt face text).map Prod.fst, face ≤ f ∧ f < face + advance text := by
  induction text generalizing face with
  | nil => exact ⟨List.Pairwise.nil, fun f member => absurd member List.not_mem_nil⟩
  | cons c rest ih =>
    obtain ⟨ordered, inside⟩ := ih (face + step c)
    have later (f : Nat) (member : f ∈ (hintsAt (face + step c) rest).map Prod.fst) :
        face ≤ f ∧ f < face + advance (c :: rest) := by
      have := inside f member
      rw [advance_cons]
      omega
    rw [hintsAt]
    obtain ⟨hint, here, _, one⟩ | ⟨none, _⟩ | ⟨none, _⟩ := mark_cases c
    · rw [here]
      refine ⟨List.pairwise_cons.mpr ⟨fun f member => ?_, ordered⟩, List.forall_mem_cons.mpr ⟨?_, later⟩⟩
      · have := inside f member
        dsimp only
        omega
      · rw [advance_cons]
        dsimp only
        omega
    · rw [none]
      exact ⟨ordered, later⟩
    · rw [none]
      exact ⟨ordered, later⟩

theorem hintsFrom_eq_ok : hintsFrom limit field faces face text = .ok hints ↔
    ((∀ c ∈ text, IsMark c) ∧ face + advance text = faces) ∧ hintsAt face text = hints := by
  induction text generalizing face hints with
  | nil =>
    rw [hintsFrom, hintsAt]
    by_cases covers : face = faces
    · simp [covers, advance]
    · have other : ¬ (face : Int) = faces := by omega
      simp [covers, other, advance]
  | cons c rest ih =>
    have pos := step_pos c
    rw [hintsFrom, hintsAt, advance_cons, List.forall_mem_cons]
    by_cases beyond : faces ≤ face
    · rw [if_pos (show (faces : Int) ≤ face by omega)]
      exact iff_of_false nofun fun ⟨⟨_, covers⟩, _⟩ => by omega
    · rw [if_neg (show ¬ (faces : Int) ≤ face by omega)]
      obtain ⟨hint, here, mark, one⟩ | ⟨none, skip, mark, _⟩ | ⟨none, skip, other⟩ := mark_cases c
      · rw [here, one, ← Nat.add_assoc]
        constructor
        · intro read
          obtain ⟨others, later, read⟩ := bind_eq_ok.mp read
          cases read
          obtain ⟨⟨marks, covers⟩, same⟩ := ih.mp later
          exact ⟨⟨⟨mark, marks⟩, covers⟩, by rw [same]⟩
        · rintro ⟨⟨⟨_, marks⟩, covers⟩, rfl⟩
          exact bind_eq_ok.mpr ⟨_, ih.mpr ⟨⟨marks, covers⟩, rfl⟩, rfl⟩
      · rw [none, skip, ← Nat.add_assoc]
        refine ih.trans ?_
        simp only [mark, true_and]
      · rw [none, skip]
        exact iff_of_false nofun fun ⟨⟨⟨mark, _⟩, _⟩, _⟩ => other mark

private theorem hintsFrom_failsOnly (field : String) (faces : Int) (face : Nat) (text : List Char) :
    FailsOnly (fun fault => ∃ cause, fault = .gameId cause) (hintsFrom none field faces face text) := by
  induction text generalizing face with
  | nil =>
    rw [hintsFrom]
    split
    · exact .ok
    · exact .error ⟨_, rfl⟩
  | cons c rest ih =>
    rw [hintsFrom]
    split
    · exact .error ⟨_, rfl⟩
    · split
      · exact (ih _).bind fun _ _ => .ok
      · exact ih _
      · exact .error ⟨_, rfl⟩

/-! ### Parts -/

theorem parts?_eq_some : parts? text = some parts ↔ parts.Sound ∧ parts.text = text := by
  have cross : Text.isDigit 'x' = false := by decide
  have kind : Text.isDigit 't' = false := by decide
  have colon : Text.isDigit ':' = false := by decide
  constructor
  · intro found
    obtain ⟨⟨width, rest⟩, first, found⟩ := Option.bind_eq_some_iff.mp found
    obtain ⟨⟨height, rest'⟩, second, found⟩ := Option.bind_eq_some_iff.mp found
    obtain ⟨⟨tiling, field⟩, third, found⟩ := Option.bind_eq_some_iff.mp found
    dsimp only at found
    split at found
    next => exact nomatch found
    next line =>
      cases found
      obtain ⟨rfl, columns⟩ := (Text.runUpTo_eq_some cross).mp first
      obtain ⟨rfl, rows⟩ := (Text.runUpTo_eq_some kind).mp second
      obtain ⟨rfl, number⟩ := (Text.runUpTo_eq_some colon).mp third
      exact ⟨⟨columns, rows, number, line⟩, rfl⟩
  · rintro ⟨sound, rfl⟩
    refine Option.bind_eq_some_iff.mpr ⟨_, (Text.runUpTo_eq_some cross).mpr ⟨rfl, sound.width⟩, ?_⟩
    refine Option.bind_eq_some_iff.mpr ⟨_, (Text.runUpTo_eq_some kind).mpr ⟨rfl, sound.height⟩, ?_⟩
    refine Option.bind_eq_some_iff.mpr ⟨_, (Text.runUpTo_eq_some colon).mpr ⟨rfl, sound.tiling⟩, ?_⟩
    exact if_neg sound.field

theorem Parts.Fits.sound (fits : parts.Fits width height tiling) : parts.Sound where
  width := Text.exists_denotes.mp ⟨width, fits.columns⟩
  height := Text.exists_denotes.mp ⟨height, fits.rows⟩
  tiling := Text.exists_denotes.mp ⟨tiling, fits.number⟩
  field member := absurd (fits.marks '\n' member) (by unfold IsMark; decide)

/-! ### Setting up the puzzle -/

private theorem member_injective (family : String) : Function.Injective (Key.member family) := by
  intro i j same
  simpa [Key.member] using same

private theorem vertexKeys_sublist (graph : Graph) (vertices : List Nat) :
    ((vertices.filterMap fun v =>
      match graph.edgesAt v with
      | [] => none
      | edges => some (Key.member "vertex" v, edges)).map Prod.fst).Sublist
        (vertices.map (Key.member "vertex")) := by
  induction vertices with
  | nil => exact List.Sublist.slnil
  | cons v rest ih =>
    rw [List.filterMap_cons, List.map_cons]
    cases graph.edgesAt v with
    | nil => exact ih.cons _
    | cons e edges => exact ih.cons_cons _

theorem nodup_keys (graph : Graph) : ((initial graph).constraints.map Prod.fst).Nodup := by
  have faces : ((graph.faceIds.map fun f => (Key.member "face" f, graph.edgesOf f)).map Prod.fst).Nodup := by
    rw [List.map_map]
    exact List.nodup_range.map (member_injective "face")
  have vertices := vertexKeys_sublist graph graph.vertexIds
  rw [initial]
  dsimp only
  rw [List.map_append, List.nodup_append]
  refine ⟨faces, vertices.nodup (List.nodup_range.map (member_injective "vertex")), ?_⟩
  intro key face other vertex
  obtain ⟨_, listed, rfl⟩ := List.mem_map.mp face
  obtain ⟨f, _, rfl⟩ := List.mem_map.mp listed
  obtain ⟨v, _, rfl⟩ := List.mem_map.mp (vertices.subset vertex)
  simp [Key.member]

private theorem lt_size_of_constraint {graph : Graph} (wellFormed : graph.WellFormed) :
    ∀ entry ∈ (initial graph).constraints, ∀ e ∈ entry.2, e < graph.edges.size := by
  intro entry registered e linked
  obtain face | vertex := List.mem_append.mp registered
  · obtain ⟨f, _, rfl⟩ := List.mem_map.mp face
    exact wellFormed.lt_size linked
  · obtain ⟨v, _, some⟩ := List.mem_filterMap.mp vertex
    split at some
    next => exact nomatch some
    next =>
      cases some
      exact (mem_edgesAt.mp linked).1

private theorem setUp_eq_ok {graph : Graph} (wellFormed : graph.WellFormed) :
    setUp graph = .ok (initial graph) := by
  have blank : State.new graph.edges.size 2 = .ok (State.blank graph.edges.size 2) := by
    have room : Room.checkSet 2 = .ok () := rfl
    rw [State.new, if_neg (by omega), if_neg (by decide)]
    split <;> rfl
  have count : (State.blank graph.edges.size 2).count = graph.edges.size := State.count_blank _ 2
  have inside := lt_size_of_constraint wellFormed
  rw [← count] at inside
  rw [setUp, blank]
  exact State.addConstraints_natCast _ (nodup_keys graph) inside

/-! ### Grids -/

def graphHints (hints : List (Nat × Nat)) : Hints :=
  hints.map fun entry => ((entry.1 : Int), some (entry.2 : Int))

theorem mem_graphHints {value : Int} : ((f : Int), some value) ∈ graphHints hints ↔
    ∃ n : Nat, (f, n) ∈ hints ∧ value = n := by
  unfold graphHints
  rw [List.mem_map]
  constructor
  · rintro ⟨⟨g, n⟩, member, same⟩
    cases same
    exact ⟨n, member, rfl⟩
  · rintro ⟨n, member, rfl⟩
    exact ⟨(f, n), member, rfl⟩

theorem proper_hintsAt (covers : advance text = faces) : (graphHints (hintsAt 0 text)).Proper faces := by
  obtain ⟨ordered, inside⟩ := hintsAt_ordered 0 text
  constructor
  · have different : ((hintsAt 0 text).map Prod.fst).Nodup := ordered.imp Nat.ne_of_lt
    have keys : (graphHints (hintsAt 0 text)).map Prod.fst =
        ((hintsAt 0 text).map Prod.fst).map Int.ofNat := by
      rw [graphHints, List.map_map, List.map_map]
      rfl
    rw [keys]
    exact different.map fun _ _ same => Int.ofNat.inj same
  · intro entry member
    obtain ⟨⟨f, hint⟩, listed, rfl⟩ := List.mem_map.mp member
    have := inside f (List.mem_map_of_mem listed)
    dsimp only
    omega
  · intro entry member
    obtain ⟨_, _, rfl⟩ := List.mem_map.mp member
    exact nofun

private theorem grid_of_field (wide : 1 ≤ width) (high : 1 ≤ height) (kind : tiling = 0 ∨ tiling = 2)
    (covers : advance text = width * height) :
    ∃ drawing, grid (cornersOf tiling) width height (graphHints (hintsAt 0 text)) = .ok drawing ∧
      Shows width height tiling text drawing := by
  have simple (x y : Nat) : 3 ≤ (cornersOf tiling x y).length ∧ (cornersOf tiling x y).Nodup := by
    rcases kind with rfl | rfl
    · exact ⟨Nat.le_succ 3, nodup_squareCorners x y⟩
    · exact ⟨Nat.le_add_left 3 3, nodup_hexagonCorners x y⟩
  have cell (x y x' y' : Nat) (start stop : Position) (along : RunsAlong (cornersOf tiling x y) start stop)
      (along' : RunsAlong (cornersOf tiling x' y') start stop) : x = x' ∧ y = y' := by
    rcases kind with rfl | rfl
    · exact square_of_runsAlong along along'
    · exact hexagon_of_runsAlong along along'
  obtain ⟨positions, pairs, distinct, located, tiles, drawn⟩ :=
    grid_of_proper (show 1 ≤ (width : Int) by omega) (show 1 ≤ (height : Int) by omega) simple cell
  rw [Int.toNat_natCast, Int.toNat_natCast, cells_eq, List.map_map] at tiles
  have count : pairs.length = width * height := by
    have length := congrArg List.length tiles
    rw [List.length_map, List.length_map, List.length_range, Nat.mul_comm] at length
    exact length
  have proper : (graphHints (hintsAt 0 text)).Proper pairs.length := count ▸ proper_hintsAt covers
  have vertices := vertices_ofCycles positions.size (pairs.map Prod.fst) (graphHints (hintsAt 0 text))
  have faces : (ofCycles positions.size (pairs.map Prod.fst) (graphHints (hintsAt 0 text))).faces.size =
      width * height := by
    rw [size_ofCycles, List.length_map, count]
  have drawing := drawn _ proper
  have wellFormed := (grid_eq_ok drawing).1
  have playable := setUp_eq_ok wellFormed
  refine ⟨_, drawing, ?_, wellFormed, faces, distinct, fun f inside => ?_, fun f hint => ?_, playable⟩
  · rw [unhinted_ofCycles]
    exact drawn [] (Hints.proper_nil _)
  · have cycle := getElem?_vertices (faces.symm ▸ inside)
    rw [vertices, List.getElem?_map] at cycle
    obtain ⟨pair, here, same⟩ := Option.map_eq_some_iff.mp cycle
    have tile := congrArg (·[f]?) tiles
    rw [List.getElem?_map, here, List.getElem?_map, List.getElem?_range (Nat.mul_comm .. ▸ inside)] at tile
    have place := located pair (List.mem_of_getElem? here)
    rw [same, Option.some.inj tile] at place
    exact place
  · rw [hintOf_ofCycles _ (by rw [List.length_map]; exact proper), mem_graphHints]
    exact exists_congr fun n => and_congr_left fun _ => mem_hintsAt

/-! ### Reading -/

/-- What happens once the numbers are read. -/
theorem parse_of_denotes (sound : parts.Sound) (same : parts.text = Text.trim id.toList)
    (columns : Text.Denotes parts.width width) (rows : Text.Denotes parts.height height)
    (number : Text.Denotes parts.tiling tiling) :
    parse none id =
      if width = 0 ∨ height = 0 then .error (.gameId (.emptyLoop id))
      else
        match tiling? tiling with
        | none => .error (.gameId (.unknownTiling tiling id))
        | some grid =>
          hintsFrom none (String.ofList parts.field) (width * height : Nat) 0 parts.field >>= fun hints =>
            grid width height (graphHints hints) := by
  have read {digits : List Char} {n : Nat} (denotes : Text.Denotes digits n) :
      DigitLimit.read none digits = .ok n := DigitLimit.reads_none.mpr denotes
  rw [parse, parts?_eq_some.mpr ⟨sound, same⟩]
  dsimp only
  rw [read columns, read rows, read number]
  simp only [parseHints, String.toList_ofList]
  rfl

private theorem parse_of_fits (fits : parts.Fits width height tiling)
    (same : parts.text = Text.trim id.toList) :
    ∃ drawing, parse none id = .ok drawing ∧ Shows width height tiling parts.field drawing := by
  have wide := fits.wide
  have high := fits.high
  obtain ⟨drawing, drawn, shows⟩ := grid_of_field wide high fits.kind fits.covers
  refine ⟨drawing, ?_, shows⟩
  have read : hintsFrom none (String.ofList parts.field) (width * height : Nat) 0 parts.field =
      .ok (hintsAt 0 parts.field) :=
    hintsFrom_eq_ok.mpr ⟨⟨fits.marks, (Nat.zero_add _).trans fits.covers⟩, rfl⟩
  rw [parse_of_denotes fits.sound same fits.columns fits.rows fits.number, if_neg (by omega), read]
  rcases fits.kind with rfl | rfl
  · exact drawn
  · exact drawn

/-- An identifier that is not one of a grid and of hints for its faces is refused. -/
theorem parse_cases (id : String) :
    (∃ (parts : Parts) (width height tiling : Nat), parts.text = Text.trim id.toList ∧
      parts.Fits width height tiling) ∨ ∃ cause, parse none id = .error (.gameId cause) := by
  cases found : parts? (Text.trim id.toList) with
  | none => exact .inr ⟨.malformedLoop id, by rw [parse, found]⟩
  | some parts =>
    obtain ⟨sound, same⟩ := parts?_eq_some.mp found
    obtain ⟨width, columns⟩ := Text.exists_denotes.mpr sound.width
    obtain ⟨height, rows⟩ := Text.exists_denotes.mpr sound.height
    obtain ⟨tiling, number⟩ := Text.exists_denotes.mpr sound.tiling
    rw [parse_of_denotes sound same columns rows number]
    by_cases empty : width = 0 ∨ height = 0
    · exact .inr ⟨_, if_pos empty⟩
    rw [if_neg empty]
    by_cases kind : tiling = 0 ∨ tiling = 2
    · cases read : hintsFrom none (String.ofList parts.field) (width * height : Nat) 0 parts.field with
      | error fault =>
        obtain ⟨cause, rfl⟩ := hintsFrom_failsOnly _ _ _ _ fault read
        exact .inr ⟨cause, by rcases kind with rfl | rfl <;> rfl⟩
      | ok hints =>
        obtain ⟨⟨marks, covers⟩, _⟩ := hintsFrom_eq_ok.mp read
        exact .inl ⟨parts, width, height, tiling, same, columns, rows, number, by omega, by omega, kind,
          marks, (Nat.zero_add _).symm.trans covers⟩
    · have unknown : tiling? tiling = none := by
        unfold tiling?
        split
        next => exact absurd (.inl rfl) kind
        next => exact absurd (.inr rfl) kind
        next => rfl
      exact .inr ⟨_, by rw [unknown]⟩

/-- Without a limit on digits, an identifier is read if and only if it is one of a grid and of hints for
its faces, and then that grid with those hints comes out; every other one is refused as an identifier. -/
theorem parse_decoded (id : String) :
    ((∃ drawing, parse none id = .ok drawing) ↔ ∃ (parts : Parts) (width height tiling : Nat),
        parts.text = Text.trim id.toList ∧ parts.Fits width height tiling) ∧
      (∀ drawing, parse none id = .ok drawing → ∀ (parts : Parts) (width height tiling : Nat),
        parts.text = Text.trim id.toList → parts.Fits width height tiling →
          Shows width height tiling parts.field drawing) ∧
      ∀ fault, parse none id = .error fault → ∃ cause, fault = .gameId cause := by
  have reads : (∃ (parts : Parts) (width height tiling : Nat), parts.text = Text.trim id.toList ∧
      parts.Fits width height tiling) → ∃ drawing, parse none id = .ok drawing := by
    rintro ⟨parts, width, height, tiling, same, fits⟩
    obtain ⟨drawing, read, _⟩ := parse_of_fits fits same
    exact ⟨drawing, read⟩
  refine ⟨⟨fun ⟨drawing, read⟩ => ?_, reads⟩, ?_, fun fault failed => ?_⟩
  · obtain fits | ⟨cause, refused⟩ := parse_cases id
    · exact fits
    · exact nomatch read.symm.trans refused
  · intro drawing read parts width height tiling same fits
    obtain ⟨other, read', shows⟩ := parse_of_fits fits same
    cases read.symm.trans read'
    exact shows
  · obtain fits | ⟨cause, refused⟩ := parse_cases id
    · obtain ⟨drawing, read⟩ := reads fits
      exact nomatch failed.symm.trans read
    · cases failed.symm.trans refused
      exact ⟨cause, rfl⟩

theorem parse_decoded_row : ∃ drawing, parse none " 3x1t0:2aA" = .ok drawing ∧
    Shows 3 1 0 ['2', 'a', 'A'] drawing ∧ drawing.graph.hintOf 0 = some 2 ∧ drawing.graph.hintOf 1 = none ∧
      drawing.graph.hintOf 2 = some 10 := by
  let parts : Parts := ⟨['3'], ['1'], ['0'], ['2', 'a', 'A']⟩
  have same : parts.text = Text.trim " 3x1t0:2aA".toList := by decide
  have columns : Text.Decimal ['3'] 3 := ⟨by decide, by simp, rfl⟩
  have rows : Text.Decimal ['1'] 1 := ⟨by decide, by simp, rfl⟩
  have number : Text.Decimal ['0'] 0 := ⟨by decide, by simp, rfl⟩
  have marks : ∀ c ∈ ['2', 'a', 'A'], IsMark c := by simp [IsMark]
  have fits : parts.Fits 3 1 0 :=
    ⟨columns.denotes, rows.denotes, number.denotes, by decide, by decide, .inl rfl, marks, by decide⟩
  obtain ⟨reads, shows, _⟩ := parse_decoded " 3x1t0:2aA"
  obtain ⟨drawing, read⟩ := reads.mpr ⟨parts, 3, 1, 0, same, fits⟩
  have shown := shows drawing read parts 3 1 0 same fits
  have hint (f n : Nat) (put : (f, n) ∈ hintsAt 0 ['2', 'a', 'A']) :
      drawing.graph.hintOf f = some (n : Int) :=
    (shown.hints f n).mpr ⟨n, mem_hintsAt.mp put, rfl⟩
  refine ⟨drawing, read, shown, hint 0 2 (by decide), ?_, hint 2 10 (by decide)⟩
  refine Option.eq_none_iff_forall_ne_some.mpr fun value given => ?_
  obtain ⟨n, put, _⟩ := (shown.hints 1 value).mp given
  have member : (1, n) ∈ [(0, 2), (2, 10)] := mem_hintsAt.mpr put
  simp at member

end PencilPuzzle.Loop.GameId
