import PencilPuzzle.Table

/-!
# Occurrences

Given a list of keys for each of a number of things, the things at which a key occurs. Asked for one
key this is a search through all things; the table of all keys is filled in a single pass over them.
-/

namespace PencilPuzzle

/-- The numbers below `count` whose keys include a given one, ascending. -/
def occurrences (count : Nat) (keys : Nat → List Nat) (key : Nat) : List Nat :=
  (List.range count).filter fun index => key ∈ keys index

/-- Puts a number in front of the list of each of its keys. -/
def enter (index : Nat) : List Nat → Array (List Nat) → Array (List Nat)
  | [], lists => lists
  | key :: rest, lists =>
    let entered := enter index rest lists
    if key ∈ rest then entered else entered.modify key (index :: ·)

theorem getElem?_enter (index key : Nat) (keys : List Nat) (lists : Array (List Nat)) :
    (enter index keys lists)[key]? =
      lists[key]?.map fun list => if key ∈ keys then index :: list else list := by
  induction keys with
  | nil => simp [enter]
  | cons first rest ih =>
    rw [enter]
    split
    next again =>
      rw [ih]
      by_cases same : key = first <;> simp [same, again]
    next new =>
      rw [Array.getElem?_modify, ih]
      by_cases same : first = key
      · subst same
        cases lists[first]? <;> simp [new]
      · simp [same, Ne.symm same]

def enterBelow (keys : Nat → List Nat) : Nat → Array (List Nat) → Array (List Nat)
  | 0, lists => lists
  | count + 1, lists => enterBelow keys count (enter count (keys count) lists)

theorem getElem?_enterBelow (keys : Nat → List Nat) (count key : Nat)
    (lists : Array (List Nat)) :
    (enterBelow keys count lists)[key]? =
      lists[key]?.map fun list => occurrences count keys key ++ list := by
  induction count generalizing lists with
  | zero => simp [enterBelow, occurrences]
  | succ count ih =>
    rw [enterBelow, ih, getElem?_enter, Option.map_map]
    congr 1
    funext list
    by_cases here : key ∈ keys count <;>
      simp [occurrences, List.range_succ, here]

def occurrenceLists (size count : Nat) (keys : Nat → List Nat) : Array (List Nat) :=
  enterBelow keys count (Array.replicate size [])

theorem occurrenceLists_eq (size count : Nat) (keys : Nat → List Nat) :
    occurrenceLists size count keys =
      ((List.range size).map (occurrences count keys)).toArray := by
  refine Array.ext_getElem? fun key => ?_
  rw [occurrenceLists, getElem?_enterBelow]
  by_cases inside : key < size <;> simp [inside]

def Table.ofOccurrences (size count : Nat) (keys : Nat → List Nat) :
    Table size (occurrences count keys) where
  values := Thunk.mk fun _ => occurrenceLists size count keys
  get_values := occurrenceLists_eq size count keys

end PencilPuzzle
