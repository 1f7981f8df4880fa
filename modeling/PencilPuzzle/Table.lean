/-!
# Tables of functions

A table holds the values of a function on the numbers below a bound. It is filled when it is first
looked at and kept from then on. The function is part of the table's type, so looking a value up is
the same as computing it, and nothing else ever needs to be known about a table.
-/

namespace PencilPuzzle

variable {α : Type} {size : Nat} {f : Nat → α}

structure Table (size : Nat) (f : Nat → α) where
  values : Thunk (Array α)
  get_values : values.get = ((List.range size).map f).toArray

namespace Table

/-- The value at a number; beyond the table it is computed. -/
def get (table : Table size f) (index : Nat) : α :=
  match table.values.get[index]? with
  | some value => value
  | none => f index

@[simp] theorem get_eq (table : Table size f) (index : Nat) : table.get index = f index := by
  unfold get
  rw [table.get_values]
  split
  next value found =>
    simp only [List.getElem?_toArray, List.getElem?_map, Option.map_eq_some_iff] at found
    obtain ⟨number, here, rfl⟩ := found
    obtain ⟨_, rfl⟩ := List.getElem?_eq_some_iff.mp here
    simp
  next => rfl

instance : Subsingleton (Table size f) where
  allEq a b := by
    obtain ⟨⟨left⟩, hleft⟩ := a
    obtain ⟨⟨right⟩, hright⟩ := b
    have : left = right := funext fun _ => hleft.trans hright.symm
    subst this
    rfl

end Table

end PencilPuzzle
