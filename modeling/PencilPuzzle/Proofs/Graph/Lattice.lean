import PencilPuzzle.Proofs.Graph.Contact

/-!
# The places of a grid

Which tiles of a grid touch, and where there are corners. The pairs of cells whose tiles touch are listed
once each, from the cell in the column or in the row before, and the corners by the tiles they lie beside,
so that both can be counted.
-/

namespace PencilPuzzle

open PencilPuzzle.Graph Finset

theorem Touches.symm {α : Type} {tile other : List α} {start stop : α}
    (touches : Touches tile other start stop) : Touches other tile stop start :=
  And.symm touches

namespace Tiling

variable {corners : Nat → Nat → List Position} {width height x y x' y' : Nat} {start stop : Position}
  {cell other : Nat × Nat}

/-! ### Cells whose tiles touch -/

/-- Squares meet next to each other in a row or in a column. -/
def SquaresMeet (cell other : Nat × Nat) : Prop :=
  cell.2 = other.2 ∧ (cell.1 + 1 = other.1 ∨ other.1 + 1 = cell.1) ∨
    cell.1 = other.1 ∧ (cell.2 + 1 = other.2 ∨ other.2 + 1 = cell.2)

/-- Hexagons meet next to each other in a column, and in neighbouring columns where their heights overlap:
those of an odd column lie half a hexagon lower. -/
def HexagonsMeet (cell other : Nat × Nat) : Prop :=
  cell.1 = other.1 ∧ (cell.2 + 1 = other.2 ∨ other.2 + 1 = cell.2) ∨
    (cell.1 + 1 = other.1 ∨ other.1 + 1 = cell.1) ∧
      (other.2 = cell.2 ∨ cell.1 % 2 = 0 ∧ other.2 + 1 = cell.2 ∨ cell.1 % 2 = 1 ∧ other.2 = cell.2 + 1)

private theorem touches_square_right (x y : Nat) :
    Touches (squareCorners x y) (squareCorners (x + 1) y) (x + 1, y) (x + 1, y + 1) :=
  ⟨⟨1, rfl, rfl⟩, 3, by simp [squareCorners], by simp [squareCorners, placeAfter]⟩

private theorem touches_square_below (x y : Nat) :
    Touches (squareCorners x y) (squareCorners x (y + 1)) (x + 1, y + 1) (x, y + 1) :=
  ⟨⟨2, rfl, rfl⟩, 0, by simp [squareCorners], by simp [squareCorners, placeAfter]⟩

theorem touches_square_iff :
    (∃ start stop, Touches (squareCorners x y) (squareCorners x' y') start stop) ↔
      SquaresMeet (x, y) (x', y') := by
  constructor
  · rintro ⟨start, stop, ⟨i, tail, head⟩, back⟩
    have four : (squareCorners x y).length = 4 := rfl
    have bound := (List.getElem?_eq_some_iff.mp tail).1
    obtain ⟨column, row⟩ := runsAlong_square back
    unfold SquaresMeet
    rw [four] at bound head
    match i, bound with
    | 0, _ | 1, _ | 2, _ | 3, _ =>
      obtain rfl := Option.some.inj tail
      obtain rfl := Option.some.inj head
      dsimp only at column row ⊢
      omega
  · rintro (⟨same, next | next⟩ | ⟨same, next | next⟩) <;> dsimp only at same next <;> subst same next
    · exact ⟨_, _, touches_square_right x y⟩
    · exact ⟨_, _, (touches_square_right x' y).symm⟩
    · exact ⟨_, _, touches_square_below x y⟩
    · exact ⟨_, _, (touches_square_below x y').symm⟩

private theorem touches_hexagon_below (x y : Nat) :
    ∃ start stop, Touches (hexagonCorners x y) (hexagonCorners x (y + 1)) start stop := by
  refine ⟨_, _, ⟨3, rfl, rfl⟩, 0, ?_, ?_⟩ <;> simp [hexagonCorners, hexWidth, hexHeight, placeAfter] <;> omega

private theorem touches_hexagon_lower (lower : x % 2 = 0 ∧ y' = y ∨ x % 2 = 1 ∧ y' = y + 1) :
    ∃ start stop, Touches (hexagonCorners x y) (hexagonCorners (x + 1) y') start stop := by
  refine ⟨_, _, ⟨2, rfl, rfl⟩, 5, ?_, ?_⟩ <;> simp [hexagonCorners, hexWidth, hexHeight, placeAfter] <;> omega

private theorem touches_hexagon_upper (upper : x % 2 = 0 ∧ y' + 1 = y ∨ x % 2 = 1 ∧ y' = y) :
    ∃ start stop, Touches (hexagonCorners x y) (hexagonCorners (x + 1) y') start stop := by
  refine ⟨_, _, ⟨1, rfl, rfl⟩, 4, ?_, ?_⟩ <;> simp [hexagonCorners, hexWidth, hexHeight, placeAfter] <;> omega

theorem touches_hexagon_iff :
    (∃ start stop, Touches (hexagonCorners x y) (hexagonCorners x' y') start stop) ↔
      HexagonsMeet (x, y) (x', y') := by
  constructor
  · rintro ⟨start, stop, ⟨i, tail, head⟩, back⟩
    have six : (hexagonCorners x y).length = 6 := rfl
    have bound := (List.getElem?_eq_some_iff.mp tail).1
    obtain ⟨column, row⟩ := runsAlong_hexagon back
    unfold HexagonsMeet
    rw [six] at bound head
    match i, bound with
    | 0, _ | 1, _ | 2, _ | 3, _ | 4, _ | 5, _ =>
      obtain rfl := Option.some.inj tail
      obtain rfl := Option.some.inj head
      dsimp only [hexWidth, hexHeight] at column row ⊢
      omega
  · have turned (touches : ∃ start stop, Touches (hexagonCorners x' y') (hexagonCorners x y) start stop) :
        ∃ start stop, Touches (hexagonCorners x y) (hexagonCorners x' y') start stop :=
      let ⟨start, stop, touches⟩ := touches
      ⟨stop, start, touches.symm⟩
    rintro (⟨same, next | next⟩ | ⟨next | next, overlap⟩) <;> dsimp only at *
    · subst same next
      exact touches_hexagon_below x y
    · subst same next
      exact turned (touches_hexagon_below x y')
    · subst next
      by_cases lower : x % 2 = 0 ∧ y' = y ∨ x % 2 = 1 ∧ y' = y + 1
      · exact touches_hexagon_lower lower
      · exact touches_hexagon_upper (by omega)
    · subst next
      by_cases lower : x' % 2 = 0 ∧ y = y' ∨ x' % 2 = 1 ∧ y = y' + 1
      · exact turned (touches_hexagon_lower lower)
      · exact turned (touches_hexagon_upper (by omega))

/-! ### Listing without repeats -/

section Block

variable {α : Type} [DecidableEq α] {columns rows : Finset Nat} {place : Nat × Nat → α} {a : α}

def block (columns rows : Finset Nat) (place : Nat × Nat → α) : Finset α := (columns ×ˢ rows).image place

theorem mem_block : a ∈ block columns rows place ↔ ∃ x ∈ columns, ∃ y ∈ rows, place (x, y) = a := by
  simp only [block, mem_image, mem_product, Prod.exists, and_assoc, exists_and_left]

theorem card_block (injective : Function.Injective place) :
    (block columns rows place).card = columns.card * rows.card := by
  rw [block, card_image_of_injective _ injective, card_product]

end Block

def withRight (cell : Nat × Nat) : (Nat × Nat) × (Nat × Nat) := (cell, cell.1 + 1, cell.2)

def withBelow (cell : Nat × Nat) : (Nat × Nat) × (Nat × Nat) := (cell, cell.1, cell.2 + 1)

/-- The cells of one column and the next that overlap although they are in different rows. -/
def withSlanting (cell : Nat × Nat) : (Nat × Nat) × (Nat × Nat) :=
  if cell.1 % 2 = 0 then ((cell.1, cell.2 + 1), cell.1 + 1, cell.2) else (cell, cell.1 + 1, cell.2 + 1)

def squareLinks (width height : Nat) : Finset ((Nat × Nat) × (Nat × Nat)) :=
  block (range (width - 1)) (range height) withRight ∪ block (range width) (range (height - 1)) withBelow

def hexagonLinks (width height : Nat) : Finset ((Nat × Nat) × (Nat × Nat)) :=
  squareLinks width height ∪ block (range (width - 1)) (range (height - 1)) withSlanting

theorem mem_squareLinks : (cell, other) ∈ squareLinks width height ↔
    (cell.1 < width ∧ cell.2 < height) ∧ (other.1 < width ∧ other.2 < height) ∧
      (cell.1 + 1 = other.1 ∧ cell.2 = other.2 ∨ cell.1 = other.1 ∧ cell.2 + 1 = other.2) := by
  simp only [squareLinks, mem_union, mem_block, withRight, withBelow, mem_range, Prod.ext_iff]
  constructor
  · rintro (⟨x, bound, y, bound', here, there⟩ | ⟨x, bound, y, bound', here, there⟩) <;> omega
  · rintro ⟨inside, inside', next | next⟩
    · exact .inl ⟨cell.1, by omega, cell.2, by omega, by omega⟩
    · exact .inr ⟨cell.1, by omega, cell.2, by omega, by omega⟩

theorem mem_hexagonLinks : (cell, other) ∈ hexagonLinks width height ↔
    (cell.1 < width ∧ cell.2 < height) ∧ (other.1 < width ∧ other.2 < height) ∧
      (cell.1 + 1 = other.1 ∧ cell.2 = other.2 ∨ cell.1 = other.1 ∧ cell.2 + 1 = other.2 ∨
        cell.1 + 1 = other.1 ∧
          (cell.1 % 2 = 0 ∧ other.2 + 1 = cell.2 ∨ cell.1 % 2 = 1 ∧ other.2 = cell.2 + 1)) := by
  simp only [hexagonLinks, mem_union, mem_squareLinks, mem_block, withSlanting, mem_range]
  constructor
  · rintro (near | ⟨x, bound, y, bound', pair⟩)
    · omega
    · split at pair <;> simp only [Prod.ext_iff] at pair <;> omega
  · rintro ⟨inside, inside', next | next | ⟨next, ⟨even, up⟩ | ⟨odd, down⟩⟩⟩
    · exact .inl ⟨inside, inside', .inl next⟩
    · exact .inl ⟨inside, inside', .inr next⟩
    · refine .inr ⟨cell.1, by omega, other.2, by omega, ?_⟩
      rw [if_pos even]
      exact Prod.ext (Prod.ext rfl up) (Prod.ext next rfl)
    · refine .inr ⟨cell.1, by omega, cell.2, by omega, ?_⟩
      rw [if_neg (by omega)]
      exact Prod.ext rfl (Prod.ext next down.symm)

theorem card_squareLinks : (squareLinks width height).card = (width - 1) * height + width * (height - 1) := by
  have apart : Disjoint (block (range (width - 1)) (range height) withRight)
      (block (range width) (range (height - 1)) withBelow) := by
    rw [disjoint_left]
    rintro ⟨cell, other⟩ across down
    simp only [mem_block, withRight, withBelow, mem_range, Prod.ext_iff] at across down
    omega
  rw [squareLinks, card_union_of_disjoint apart, card_block, card_block, card_range, card_range, card_range,
    card_range]
  · exact fun cell other same => congrArg Prod.fst same
  · exact fun cell other same => congrArg Prod.fst same

theorem card_squareLinks_add (wide : 1 ≤ width) (high : 1 ≤ height) :
    (squareLinks width height).card + width + height = 2 * (width * height) := by
  obtain ⟨a, rfl⟩ := Nat.exists_eq_add_of_le' wide
  obtain ⟨b, rfl⟩ := Nat.exists_eq_add_of_le' high
  rw [card_squareLinks, Nat.add_sub_cancel, Nat.add_sub_cancel]
  ring

theorem card_hexagonLinks : (hexagonLinks width height).card =
    (width - 1) * height + width * (height - 1) + (width - 1) * (height - 1) := by
  have apart : Disjoint (squareLinks width height)
      (block (range (width - 1)) (range (height - 1)) withSlanting) := by
    rw [disjoint_left]
    rintro ⟨cell, other⟩ near slanting
    rw [mem_squareLinks] at near
    obtain ⟨x, _, y, _, pair⟩ := mem_block.mp slanting
    unfold withSlanting at pair
    split at pair <;> simp only [Prod.ext_iff] at pair <;> omega
  rw [hexagonLinks, card_union_of_disjoint apart, card_squareLinks, card_block, card_range, card_range]
  intro cell other same
  unfold withSlanting at same
  split at same <;> split at same <;> simp only [Prod.ext_iff] at same ⊢ <;> omega

theorem card_hexagonLinks_add (wide : 1 ≤ width) (high : 1 ≤ height) :
    (hexagonLinks width height).card + 2 * width + 2 * height = 3 * (width * height) + 1 := by
  obtain ⟨a, rfl⟩ := Nat.exists_eq_add_of_le' wide
  obtain ⟨b, rfl⟩ := Nat.exists_eq_add_of_le' high
  rw [card_hexagonLinks, Nat.add_sub_cancel, Nat.add_sub_cancel]
  ring

/-! ### Corners -/

def squareSpots (width height : Nat) : Finset Position :=
  block (range (width + 1)) (range (height + 1)) fun cell => (cell.1, cell.2)

/-- A place beside the centre of a hexagon. -/
def spotBeside (right below : Int) (cell : Nat × Nat) : Position :=
  (45 * cell.1 + right, 52 * cell.2 + 26 * (cell.1 % 2 : Nat) + below)

/-- The corners of hexagons: two above each of them and below the last row, and one more at either end of the
rows. -/
def hexagonSpots (width height : Nat) : Finset Position :=
  (block (range width) (range (height + 1)) (spotBeside (-15) (-26)) ∪
      block (range width) (range (height + 1)) (spotBeside 15 (-26))) ∪
    (block {0} (range height) (spotBeside (-30) 0) ∪ block {width - 1} (range height) (spotBeside 30 0))

theorem mem_squareSpots (wide : 1 ≤ width) (high : 1 ≤ height) (spot : Position) :
    spot ∈ squareSpots width height ↔ ∃ cell ∈ cells width height, spot ∈ squareCorners cell.1 cell.2 := by
  simp only [squareSpots, mem_block, mem_range, mem_cells, mem_squareCorners, Prod.ext_iff, Prod.exists]
  constructor
  · rintro ⟨x, bound, y, bound', here, there⟩
    exact ⟨min x (width - 1), min y (height - 1), by omega, by omega⟩
  · rintro ⟨x, y, inside, here, there⟩
    exact ⟨spot.1.toNat, by omega, spot.2.toNat, by omega, by omega⟩

theorem card_squareSpots : (squareSpots width height).card = (width + 1) * (height + 1) := by
  rw [squareSpots, card_block, card_range, card_range]
  intro cell other same
  simp only [Prod.ext_iff] at same ⊢
  omega

private theorem spotBeside_injective (right below : Int) : Function.Injective (spotBeside right below) := by
  rintro ⟨x, y⟩ ⟨x', y'⟩ same
  simp only [spotBeside, Prod.ext_iff] at same
  obtain ⟨column, row⟩ := same
  obtain rfl : x = x' := by omega
  exact Prod.ext rfl (by omega)

theorem mem_hexagonSpots (wide : 1 ≤ width) (high : 1 ≤ height) (spot : Position) :
    spot ∈ hexagonSpots width height ↔ ∃ cell ∈ cells width height, spot ∈ hexagonCorners cell.1 cell.2 := by
  simp only [hexagonSpots, mem_union, mem_block, mem_range, mem_singleton, mem_cells, mem_hexagonCorners,
    Prod.exists]
  constructor
  · rintro ((⟨x, bound, y, bound', rfl⟩ | ⟨x, bound, y, bound', rfl⟩) | ⟨x, bound, y, bound', rfl⟩ |
      ⟨x, bound, y, bound', rfl⟩)
    · refine ⟨x, min y (height - 1), by omega, .inl ⟨.inl rfl, ?_⟩⟩
      simp only [spotBeside]
      omega
    · refine ⟨x, min y (height - 1), by omega, .inl ⟨.inr rfl, ?_⟩⟩
      simp only [spotBeside]
      omega
    · exact ⟨x, y, by omega, .inr ⟨.inl rfl, by simp [spotBeside]⟩⟩
    · exact ⟨x, y, by omega, .inr ⟨.inr rfl, by simp [spotBeside]⟩⟩
  · rintro ⟨x, y, inside, ⟨left | right, upper | lower⟩ | ⟨left | right, middle⟩⟩
    · exact .inl (.inl ⟨x, inside.1, y, by omega, Prod.ext left.symm upper.symm⟩)
    · refine .inl (.inl ⟨x, inside.1, y + 1, by omega, Prod.ext left.symm ?_⟩)
      simp only [spotBeside]
      omega
    · exact .inl (.inr ⟨x, inside.1, y, by omega, Prod.ext right.symm upper.symm⟩)
    · refine .inl (.inr ⟨x, inside.1, y + 1, by omega, Prod.ext right.symm ?_⟩)
      simp only [spotBeside]
      omega
    · -- The left corner lies above or below a hexagon of the column before.
      by_cases first : x = 0
      · exact .inr (.inl ⟨0, rfl, y, inside.2, Prod.ext (by simp only [spotBeside]; omega)
          (by simp only [spotBeside]; omega)⟩)
      · refine .inl (.inr ⟨x - 1, by omega, y + x % 2, by omega, Prod.ext ?_ ?_⟩) <;>
          simp only [spotBeside] <;> omega
    · by_cases last : x = width - 1
      · exact .inr (.inr ⟨x, last, y, inside.2, Prod.ext right.symm (by simp only [spotBeside]; omega)⟩)
      · refine .inl (.inl ⟨x + 1, by omega, y + x % 2, by omega, Prod.ext ?_ ?_⟩) <;>
          simp only [spotBeside] <;> omega

/-- Places in different columns, or on different sides of their columns. -/
theorem disjoint_spots {columns columns' rows rows' : Finset Nat} {right right' below below' : Int}
    (apart : ∀ x ∈ columns, ∀ x' ∈ columns', (45 * x + right : Int) ≠ 45 * x' + right') :
    Disjoint (block columns rows (spotBeside right below))
      (block columns' rows' (spotBeside right' below')) := by
  rw [disjoint_left]
  intro spot here there
  obtain ⟨x, inside, _, _, rfl⟩ := mem_block.mp here
  obtain ⟨x', inside', _, _, same⟩ := mem_block.mp there
  exact apart x inside x' inside' (congrArg Prod.fst same).symm

theorem card_hexagonSpots : (hexagonSpots width height).card = 2 * (width * (height + 1)) + 2 * height := by
  rw [hexagonSpots, card_union_of_disjoint, card_union_of_disjoint, card_union_of_disjoint]
  · simp only [card_block (spotBeside_injective ..), card_range, card_singleton]
    omega
  · refine disjoint_spots fun x inside x' inside' => ?_
    rw [mem_singleton] at inside inside'
    omega
  · exact disjoint_spots fun x _ x' _ => by omega
  · simp only [disjoint_union_left, disjoint_union_right]
    refine ⟨⟨disjoint_spots ?_, disjoint_spots ?_⟩, disjoint_spots ?_, disjoint_spots ?_⟩ <;>
      simp only [mem_range, mem_singleton] <;> omega

end Tiling

end PencilPuzzle
