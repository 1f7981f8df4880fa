import PencilPuzzle.Text.Numeral
import PencilPuzzle.Text.Quoted

/-!
# Constraint keys

A constraint of a puzzle (a row, a face, a vertex) is known by a key: a word, a number, or a tuple
of keys such as `("row", 3)`.
-/

namespace PencilPuzzle

inductive Key where
  | word (text : String)
  | number (value : Int)
  | tuple (items : List Key)
  deriving Inhabited

namespace Key

mutual

/-- Two keys are the same when they have the same shape and the same words and numbers in it. -/
def same : Key → Key → Bool
  | word a, word b => a == b
  | number a, number b => a == b
  | tuple a, tuple b => sameItems a b
  | _, _ => false

def sameItems : List Key → List Key → Bool
  | [], [] => true
  | a :: as, b :: bs => same a b && sameItems as bs
  | _, _ => false

end

mutual

theorem same_iff : ∀ a b : Key, same a b = true ↔ a = b
  | word a, word b => by simp [same]
  | number a, number b => by simp [same]
  | tuple a, tuple b => by simp [same, sameItems_iff a b]
  | word _, number _ => by simp [same]
  | word _, tuple _ => by simp [same]
  | number _, word _ => by simp [same]
  | number _, tuple _ => by simp [same]
  | tuple _, word _ => by simp [same]
  | tuple _, number _ => by simp [same]

theorem sameItems_iff : ∀ a b : List Key, sameItems a b = true ↔ a = b
  | [], [] => by simp [sameItems]
  | [], _ :: _ => by simp [sameItems]
  | _ :: _, [] => by simp [sameItems]
  | a :: as, b :: bs => by simp [sameItems, same_iff a b, sameItems_iff as bs]

end

instance : DecidableEq Key := fun a b => decidable_of_iff _ (same_iff a b)

mutual

/-- A key as it is shown in messages: words are quoted, tuples stand in round brackets. -/
def text : Key → String
  | word s => Text.quote s
  | number n => toString n
  | tuple items => Text.bracketed (texts items)

def texts : List Key → List String
  | [] => []
  | key :: rest => text key :: texts rest

end

/-- The key of the `index`-th constraint of a family. -/
def member (family : String) (index : Nat) : Key := tuple [word family, number index]

end Key

end PencilPuzzle
