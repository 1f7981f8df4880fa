/-!
# Domains

The values a variable may still take: a set of numbers below the size of the puzzle's value range,
listed in ascending order. A domain is a sublist of that range, so two domains with the same
members are the same domain.
-/

namespace PencilPuzzle

structure Domain (size : Nat) where
  values : List Nat
  sublist : values.Sublist (List.range size)
  deriving DecidableEq

namespace Domain

variable {size : Nat}

instance : Membership Nat (Domain size) := ⟨fun domain value => value ∈ domain.values⟩

instance (value : Nat) (domain : Domain size) : Decidable (value ∈ domain) :=
  inferInstanceAs (Decidable (value ∈ domain.values))

theorem mem_values {domain : Domain size} {value : Nat} :
    value ∈ domain.values ↔ value ∈ domain := Iff.rfl

theorem lt_size {domain : Domain size} {value : Nat} (h : value ∈ domain) : value < size :=
  List.mem_range.mp (domain.sublist.subset h)

theorem nodup (domain : Domain size) : domain.values.Nodup :=
  domain.sublist.nodup List.nodup_range

def select (size : Nat) (test : Nat → Bool) : Domain size where
  values := (List.range size).filter test
  sublist := List.filter_sublist

@[simp] theorem mem_select {test : Nat → Bool} {value : Nat} :
    value ∈ select size test ↔ value < size ∧ test value = true := by
  simp [← mem_values, select]

def full (size : Nat) : Domain size where
  values := List.range size
  sublist := List.Sublist.refl _

@[simp] theorem mem_full {value : Nat} : value ∈ full size ↔ value < size := by
  simp [← mem_values, full]

def empty (size : Nat) : Domain size where
  values := []
  sublist := List.nil_sublist _

@[simp] theorem not_mem_empty {value : Nat} : value ∉ empty size := by
  simp [← mem_values, empty]

def keep (domain : Domain size) (test : Nat → Bool) : Domain size where
  values := domain.values.filter test
  sublist := List.filter_sublist.trans domain.sublist

@[simp] theorem mem_keep {domain : Domain size} {test : Nat → Bool} {value : Nat} :
    value ∈ domain.keep test ↔ value ∈ domain ∧ test value = true := by
  simp [← mem_values, keep]

def count (domain : Domain size) : Nat := domain.values.length

def isEmpty (domain : Domain size) : Bool := domain.values.isEmpty

def isDetermined (domain : Domain size) : Bool := domain.count == 1

def value? (domain : Domain size) : Option Nat :=
  match domain.values with
  | [value] => some value
  | _ => none

theorem value?_eq_some {domain : Domain size} {value : Nat} :
    domain.value? = some value ↔ domain.values = [value] := by
  unfold value?
  split <;> simp_all

theorem ordered (domain : Domain size) : domain.values.Pairwise (· < ·) :=
  List.Pairwise.sublist domain.sublist List.pairwise_lt_range

/-- Which of `count` numbers from `start` on are listed, if the list is ascending from there. -/
def bitsFrom : (count start : Nat) → List Nat → List Bool
  | 0, _, _ => []
  | count + 1, start, [] => false :: bitsFrom count (start + 1) []
  | count + 1, start, value :: rest =>
    if value = start then true :: bitsFrom count (start + 1) rest
    else false :: bitsFrom count (start + 1) (value :: rest)

private theorem bitsFrom_eq {count start : Nat} {values : List Nat} (ordered : values.Pairwise (· < ·))
    (above : ∀ value ∈ values, start ≤ value) :
    bitsFrom count start values = (List.range' start count).map fun value => decide (value ∈ values) := by
  induction count generalizing start values with
  | zero => rfl
  | succ count ih =>
    cases values with
    | nil =>
      rw [bitsFrom, ih List.Pairwise.nil (by simp), List.range'_succ]
      simp
    | cons value rest =>
      have later := List.pairwise_cons.mp ordered
      rw [bitsFrom, List.range'_succ]
      split
      next here =>
        rw [ih later.2 fun other member => here ▸ later.1 other member]
        simp only [List.map_cons, here, List.mem_cons, true_or, decide_true, List.cons.injEq,
          true_and]
        refine List.map_congr_left fun other member => ?_
        have : start < other := (List.mem_range'_1.mp member).1
        simp [Nat.ne_of_gt this]
      next elsewhere =>
        have beyond : ∀ other ∈ value :: rest, start + 1 ≤ other := by
          intro other member
          have least := above value (List.mem_cons_self ..)
          rcases List.mem_cons.mp member with rfl | member
          · omega
          · have := later.1 other member
            omega
        rw [ih ordered beyond]
        have missing : start ∉ value :: rest := fun member => absurd (beyond start member) (by omega)
        simp only [List.map_cons, missing, decide_false]

/-- Membership of every value below `size`, from value 0 on. -/
def bits (domain : Domain size) : List Bool := bitsFrom size 0 domain.values

theorem bits_eq (domain : Domain size) :
    domain.bits = (List.range size).map fun value => decide (value ∈ domain.values) := by
  rw [bits, bitsFrom_eq domain.ordered fun value _ => Nat.zero_le value, List.range_eq_range']

theorem values_eq_filter (domain : Domain size) :
    domain.values = (List.range size).filter (· ∈ domain.values) := by
  have ordered := domain.ordered
  obtain ⟨values, sublist⟩ := domain
  refine List.Perm.eq_of_pairwise ?_ ordered ?_ ?_
  · intro a b _ _ h h'
    omega
  · exact List.Pairwise.sublist List.filter_sublist List.pairwise_lt_range
  · refine (List.perm_ext_iff_of_nodup (ordered.imp Nat.ne_of_lt) ?_).mpr ?_
    · exact List.Sublist.nodup List.filter_sublist List.nodup_range
    · intro a
      simp only [List.mem_filter, List.mem_range, decide_eq_true_eq]
      exact ⟨fun h => ⟨List.mem_range.mp (sublist.subset h), h⟩, And.right⟩

@[ext] theorem ext {a b : Domain size} (h : ∀ value, value ∈ a ↔ value ∈ b) : a = b := by
  have same : a.values = b.values := by
    rw [values_eq_filter a, values_eq_filter b]
    congr 1
    funext value
    exact decide_eq_decide.mpr (h value)
  cases a
  cases b
  cases same
  rfl

end Domain

end PencilPuzzle
