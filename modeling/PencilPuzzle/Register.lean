import PencilPuzzle.LastIndex

/-!
# Registers

A list of items in order of arrival that can be asked for the newest place of an item. To answer
without going through all items, a register sorts their places onto shelves by a key of the item;
a good key spreads the items evenly. Nothing but the speed of a search depends on the key.
-/

namespace PencilPuzzle

/-! ### Shelves -/

/-- Puts a number on a shelf, in front of what is there; missing shelves are added. -/
def shelve (shelves : Array (List Nat)) (shelf place : Nat) : Array (List Nat) :=
  let enough := shelves ++ Array.replicate (shelf + 1 - shelves.size) []
  enough.modify shelf (place :: ·)

private theorem getD_padded (shelves : Array (List Nat)) (count other : Nat) :
    (shelves ++ Array.replicate count [])[other]?.getD [] = shelves[other]?.getD [] := by
  rw [Array.getElem?_append]
  split
  · rfl
  next beyond =>
    rw [Array.getElem?_replicate, Array.getElem?_eq_none (Nat.le_of_not_lt beyond)]
    split <;> rfl

private theorem getD_shelve (shelves : Array (List Nat)) (shelf place other : Nat) :
    (shelve shelves shelf place).getD other [] =
      if other = shelf then place :: shelves.getD shelf [] else shelves.getD other [] := by
  have padded := getD_padded shelves (shelf + 1 - shelves.size) other
  simp only [Array.getD_eq_getD_getElem?, shelve, Array.getElem?_modify]
  by_cases same : other = shelf
  · subst same
    have present : other < (shelves ++ Array.replicate (other + 1 - shelves.size) []).size := by
      simp only [Array.size_append, Array.size_replicate]
      omega
    rw [Array.getElem?_eq_getElem present] at padded ⊢
    simpa using padded
  · simp [same, Ne.symm same, padded]

/-! ### Items -/

variable {α : Type}

/-- The places of the items with a given key, newest first. -/
def placesWith (key : α → Nat) (items : Array α) (shelf : Nat) : List Nat :=
  (List.range items.size).reverse.filter fun place => (items[place]?.map key) = some shelf

private theorem placesWith_push (key : α → Nat) (items : Array α) (item : α) (shelf : Nat) :
    placesWith key (items.push item) shelf =
      if shelf = key item then items.size :: placesWith key items shelf
      else placesWith key items shelf := by
  have older : ∀ place ∈ (List.range items.size).reverse,
      decide (((items.push item)[place]?.map key) = some shelf) =
        decide ((items[place]?.map key) = some shelf) := by
    intro place member
    have : place < items.size := List.mem_range.mp (List.mem_reverse.mp member)
    rw [Array.getElem?_push, if_neg (by omega)]
  rw [placesWith, Array.size_push, List.range_succ, List.reverse_append, List.reverse_singleton,
    List.singleton_append, List.filter_cons, List.filter_congr older, ← placesWith]
  simp [eq_comm]

structure Register (key : α → Nat) where
  items : Array α
  shelves : Array (List Nat)
  shelves_eq : ∀ shelf, shelves.getD shelf [] = placesWith key items shelf

namespace Register

variable {key : α → Nat}

def empty : Register key where
  items := #[]
  shelves := #[]
  shelves_eq := fun _ => rfl

def size (register : Register key) : Nat := register.items.size

def push : Register key → α → Register key
  | ⟨items, shelves, shelves_eq⟩, item =>
    let place := items.size
    { items := items.push item
      shelves := shelve shelves (key item) place
      shelves_eq := fun shelf => by
        rw [getD_shelve, placesWith_push]
        split
        next same => rw [← shelves_eq, same]
        next => exact shelves_eq shelf }

/-- The newest place of an item. -/
def find? [DecidableEq α] (register : Register key) (item : α) : Option Nat :=
  (register.shelves.getD (key item) []).find? fun place => register.items[place]? = some item

theorem find?_eq [DecidableEq α] (register : Register key) (item : α) :
    register.find? item = lastIndex? register.items item := by
  rw [find?, register.shelves_eq, placesWith, List.find?_filter, lastIndex?_eq]
  congr 1
  funext place
  by_cases here : register.items[place]? = some item <;> simp [here]

end Register

end PencilPuzzle
