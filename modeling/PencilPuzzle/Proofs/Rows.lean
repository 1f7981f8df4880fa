import Mathlib.Algebra.GroupWithZero.Nat
import Mathlib.Data.List.Range

/-!
# Row by row

Going through the cells of a grid row by row is counting: the cell in column `x` of row `y` comes at
`y * width + x`. A list of marks goes through the cells as well, each mark by as many cells as its step says.
-/

namespace PencilPuzzle

variable {α : Type} {step : α → Nat} {mark here : α} {marks later : List α} {cell place : Nat}

theorem row_add_lt {x y width height : Nat} (column : x < width) (row : y < height) :
    y * width + x < height * width :=
  calc y * width + x < y * width + width := Nat.add_lt_add_left column _
    _ = (y + 1) * width := (Nat.succ_mul ..).symm
    _ ≤ height * width := Nat.mul_le_mul_right width row

theorem row_add_eq_iff {x y width n : Nat} (column : x < width) :
    y * width + x = n ↔ x = n % width ∧ y = n / width := by
  constructor
  · rintro rfl
    rw [Nat.mul_comm, Nat.mul_add_mod, Nat.mod_eq_of_lt column, Nat.mul_add_div (Nat.zero_lt_of_lt column),
      Nat.div_eq_of_lt column]
    exact ⟨rfl, rfl⟩
  · rintro ⟨rfl, rfl⟩
    exact Nat.div_add_mod' n width

theorem flatMap_rows (f : Nat → α) (height width : Nat) :
    ((List.range height).flatMap fun y => (List.range width).map fun x => f (y * width + x)) =
      (List.range (height * width)).map f := by
  induction height with
  | zero => simp
  | succ height ih =>
    rw [List.range_succ, List.flatMap_append, ih, Nat.succ_mul, List.range_add, List.map_append, List.map_map]
    simp only [List.flatMap_cons, List.flatMap_nil, List.append_nil]
    rfl

namespace Marks

/-! ### Marks on the cells -/

def advance (step : α → Nat) (marks : List α) : Nat := (marks.map step).sum

/-- Going on from a cell, a list of marks has a mark at a place. -/
def Meets (step : α → Nat) (cell : Nat) (marks : List α) (place : Nat) (mark : α) : Prop :=
  ∃ before after, marks = before ++ mark :: after ∧ cell + advance step before = place

@[simp] theorem advance_nil (step : α → Nat) : advance step [] = 0 := rfl

theorem advance_cons (step : α → Nat) (here : α) (later : List α) :
    advance step (here :: later) = step here + advance step later := by
  rw [advance, List.map_cons, List.sum_cons, advance]

theorem advance_append (step : α → Nat) (marks later : List α) :
    advance step (marks ++ later) = advance step marks + advance step later := by
  rw [advance, List.map_append, List.sum_append, advance, advance]

theorem not_meets_nil : ¬ Meets step cell [] place mark := by
  rintro ⟨before, after, split, _⟩
  cases before <;> exact nomatch split

theorem meets_cons : Meets step cell (here :: later) place mark ↔
    here = mark ∧ cell = place ∨ Meets step (cell + step here) later place mark := by
  constructor
  · rintro ⟨before, after, split, arrive⟩
    cases before with
    | nil =>
      obtain ⟨rfl, _⟩ := List.cons.inj split
      exact .inl ⟨rfl, arrive⟩
    | cons first before =>
      obtain ⟨rfl, rest⟩ := List.cons.inj split
      rw [advance_cons, ← Nat.add_assoc] at arrive
      exact .inr ⟨before, after, rest, arrive⟩
  · rintro (⟨rfl, rfl⟩ | ⟨before, after, rfl, rfl⟩)
    · exact ⟨[], later, rfl, rfl⟩
    · refine ⟨here :: before, after, rfl, ?_⟩
      rw [advance_cons, Nat.add_assoc]

theorem meets_append : Meets step cell (marks ++ later) place mark ↔
    Meets step cell marks place mark ∨ Meets step (cell + advance step marks) later place mark := by
  induction marks generalizing cell with
  | nil => exact (or_iff_right not_meets_nil).symm
  | cons here marks ih =>
    rw [List.cons_append, meets_cons, ih, meets_cons, advance_cons, Nat.add_assoc, or_assoc]

theorem Meets.le (meets : Meets step cell marks place mark) : cell ≤ place := by
  obtain ⟨_, _, _, rfl⟩ := meets
  exact Nat.le_add_right ..

theorem Meets.add_step_le (meets : Meets step cell marks place mark) :
    place + step mark ≤ cell + advance step marks := by
  obtain ⟨before, after, rfl, rfl⟩ := meets
  rw [advance_append, advance_cons]
  omega

end Marks

end PencilPuzzle
