/-!
# Sorted lists

Sorting by insertion. Of two elements that may stand in either order, the one that came first in
the list stays first. In a sorted list equal elements are neighbours, so repeats are easy to drop.
-/

namespace PencilPuzzle

variable {α : Type}

/-- Puts an element before the first one that it may precede. -/
def insertBy (precedes : α → α → Bool) (a : α) : List α → List α
  | [] => [a]
  | b :: rest => if precedes a b then a :: b :: rest else b :: insertBy precedes a rest

theorem insertBy_perm (precedes : α → α → Bool) (a : α) (list : List α) :
    (insertBy precedes a list).Perm (a :: list) := by
  induction list with
  | nil => exact List.Perm.refl _
  | cons b rest ih =>
    rw [insertBy]
    split
    · exact List.Perm.refl _
    · exact (List.Perm.cons b ih).trans (List.Perm.swap a b rest)

def sortBy (precedes : α → α → Bool) : List α → List α
  | [] => []
  | a :: rest => insertBy precedes a (sortBy precedes rest)

theorem sortBy_perm (precedes : α → α → Bool) (list : List α) :
    (sortBy precedes list).Perm list := by
  induction list with
  | nil => exact List.Perm.refl _
  | cons a rest ih => exact (insertBy_perm precedes a _).trans (List.Perm.cons a ih)

@[simp] theorem mem_sortBy {precedes : α → α → Bool} {list : List α} {a : α} :
    a ∈ sortBy precedes list ↔ a ∈ list :=
  (sortBy_perm precedes list).mem_iff

/-! ### Repeats -/

/-- Keeps one of several equal elements that stand next to each other. -/
def dropRepeats [DecidableEq α] : List α → List α
  | a :: b :: rest => if a = b then dropRepeats (b :: rest) else a :: dropRepeats (b :: rest)
  | list => list

@[simp] theorem mem_dropRepeats [DecidableEq α] {list : List α} {a : α} :
    a ∈ dropRepeats list ↔ a ∈ list := by
  induction list with
  | nil => simp [dropRepeats]
  | cons b rest ih =>
    cases rest with
    | nil => simp [dropRepeats]
    | cons c rest =>
      rw [dropRepeats]
      split
      next same => rw [ih, same]; simp
      next => rw [List.mem_cons, ih, List.mem_cons (a := a) (b := b)]

/-- Numbers in ascending order, each of them once. -/
def ascendingSet (numbers : List Nat) : List Nat := dropRepeats (sortBy (fun a b => a ≤ b) numbers)

@[simp] theorem mem_ascendingSet {numbers : List Nat} {n : Nat} :
    n ∈ ascendingSet numbers ↔ n ∈ numbers := by
  simp [ascendingSet]

/-- Integers in ascending order. -/
def ascending (numbers : List Int) : List Int := sortBy (fun a b => a ≤ b) numbers

end PencilPuzzle
