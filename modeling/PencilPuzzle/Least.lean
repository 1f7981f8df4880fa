/-!
# Searching from below

The least number below a bound that passes a test. Numbers are tried in order and nothing beyond the
one that is found is looked at, so a search that ends early does not mind a large bound.
-/

namespace PencilPuzzle

/-- The least of `count` numbers from `start` on that passes a test. -/
def leastFrom? (test : Nat → Bool) : (count start : Nat) → Option Nat
  | 0, _ => none
  | count + 1, start => if test start then some start else leastFrom? test count (start + 1)

private theorem leastFrom?_eq (test : Nat → Bool) (count start : Nat) :
    leastFrom? test count start = (List.range' start count).find? test := by
  induction count generalizing start with
  | zero => rfl
  | succ count ih =>
    rw [leastFrom?, List.range'_succ, List.find?_cons]
    split
    next passes => simp [passes]
    next fails => simp [fails, ih]

def leastBelow? (bound : Nat) (test : Nat → Bool) : Option Nat := leastFrom? test bound 0

theorem leastBelow?_eq (bound : Nat) (test : Nat → Bool) :
    leastBelow? bound test = (List.range bound).find? test := by
  rw [leastBelow?, leastFrom?_eq, List.range_eq_range']

end PencilPuzzle
