/-!
# Searching from the end

The last place of an item in an array, found by looking from its end. What was added lately is found
soon.
-/

namespace PencilPuzzle

variable {α : Type} [DecidableEq α]

/-- The last place of an item among the first `count` ones. -/
def lastIndexBelow? (items : Array α) (item : α) : Nat → Option Nat
  | 0 => none
  | count + 1 =>
    if items[count]? = some item then some count else lastIndexBelow? items item count

def lastIndex? (items : Array α) (item : α) : Option Nat := lastIndexBelow? items item items.size

theorem lastIndexBelow?_eq_some {items : Array α} {item : α} {count index : Nat} :
    lastIndexBelow? items item count = some index ↔
      index < count ∧ items[index]? = some item ∧
        ∀ later, index < later → later < count → items[later]? ≠ some item := by
  induction count with
  | zero => simp [lastIndexBelow?]
  | succ count ih =>
    rw [lastIndexBelow?]
    split
    next here =>
      simp only [Option.some.injEq]
      constructor
      · rintro rfl
        exact ⟨Nat.lt_succ_self _, here, fun later above below => absurd below (by omega)⟩
      · rintro ⟨below, _, last⟩
        have : ¬ index < count := fun h => last count h (Nat.lt_succ_self _) here
        omega
    next elsewhere =>
      rw [ih]
      constructor
      · rintro ⟨below, found, last⟩
        refine ⟨by omega, found, fun later above bound => ?_⟩
        by_cases same : later = count
        · exact same ▸ elsewhere
        · exact last later above (by omega)
      · rintro ⟨below, found, last⟩
        have : index ≠ count := fun h => elsewhere (h ▸ found)
        exact ⟨by omega, found, fun later above bound => last later above (by omega)⟩

theorem lastIndexBelow?_eq_none {items : Array α} {item : α} {count : Nat} :
    lastIndexBelow? items item count = none ↔ ∀ index < count, items[index]? ≠ some item := by
  induction count with
  | zero => simp [lastIndexBelow?]
  | succ count ih =>
    rw [lastIndexBelow?]
    split
    next here =>
      refine iff_of_false (by simp) fun absent => ?_
      exact absent count (by omega) here
    next elsewhere =>
      rw [ih]
      constructor
      · intro h index below
        by_cases same : index = count
        · exact same ▸ elsewhere
        · exact h index (by omega)
      · exact fun h index below => h index (by omega)

private theorem lastIndexBelow?_eq (items : Array α) (item : α) (count : Nat) :
    lastIndexBelow? items item count =
      (List.range count).reverse.find? fun index => items[index]? = some item := by
  induction count with
  | zero => rfl
  | succ count ih =>
    rw [lastIndexBelow?, ih, List.range_succ, List.reverse_append, List.reverse_singleton,
      List.singleton_append, List.find?_cons]
    split <;> simp_all

theorem lastIndex?_eq (items : Array α) (item : α) :
    lastIndex? items item =
      (List.range items.size).reverse.find? fun index => items[index]? = some item :=
  lastIndexBelow?_eq items item items.size

end PencilPuzzle
