import Mathlib.Data.List.Sort
import PencilPuzzle.Sorted

/-!
# Sorted lists are in order

Insertion keeps a list in order, so sorting puts it in order. When repeats are dropped the first of them
stays, which in a sorted list is the one that precedes the others. Numbers without repeats in ascending
order are the same list whenever they are the same numbers.
-/

namespace PencilPuzzle

variable {α : Type} {precedes : α → α → Bool}

section Preorder

variable (total : ∀ a b, precedes a b = true ∨ precedes b a = true)
  (trans : ∀ a b c, precedes a b = true → precedes b c = true → precedes a c = true)
include total trans

private theorem pairwise_insertBy (a : α) {list : List α} (sorted : list.Pairwise (precedes · · = true)) :
    (insertBy precedes a list).Pairwise (precedes · · = true) := by
  induction list with
  | nil => exact List.pairwise_singleton _ a
  | cons b rest ih =>
    obtain ⟨first, later⟩ := List.pairwise_cons.mp sorted
    rw [insertBy]
    split
    next before =>
      refine List.pairwise_cons.mpr ⟨fun c member => ?_, sorted⟩
      rcases List.mem_cons.mp member with rfl | behind
      · exact before
      · exact trans a b c before (first c behind)
    next after =>
      refine List.pairwise_cons.mpr ⟨fun c member => ?_, ih later⟩
      rcases List.mem_cons.mp ((insertBy_perm precedes a rest).mem_iff.mp member) with rfl | behind
      · exact (total b c).resolve_right after
      · exact first c behind

theorem pairwise_sortBy (list : List α) : (sortBy precedes list).Pairwise (precedes · · = true) := by
  induction list with
  | nil => exact List.Pairwise.nil
  | cons a rest ih => exact pairwise_insertBy total trans a ih

end Preorder

/-! ### Repeats -/

/-- Where several elements of a sorted list have one key, the first of them decides where the key stands. -/
theorem pairwise_eraseDups {β : Type} [DecidableEq β] {precedes : α → α → Prop} {list : List α} (key : α → β)
    (sorted : list.Pairwise precedes) :
    (list.map key).eraseDups.Pairwise fun b c =>
      b ≠ c ∧ ∃ x ∈ list, key x = b ∧ ∀ y ∈ list, key y = c → precedes x y := by
  induction size : list.length using Nat.strongRecOn generalizing list with
  | ind count ih =>
    cases list with
    | nil => exact List.Pairwise.nil
    | cons a rest =>
      obtain ⟨first, later⟩ := List.pairwise_cons.mp sorted
      rw [List.length_cons] at size
      have fewer := List.length_filter_le ((fun b => !b == key a) ∘ key) rest
      rw [List.map_cons, List.eraseDups_cons, List.filter_map]
      have other {b : β} (member : b ∈ ((rest.filter ((fun b => !b == key a) ∘ key)).map key).eraseDups) :
          b ≠ key a := by
        obtain ⟨x, kept, rfl⟩ := List.mem_map.mp (List.mem_eraseDups.mp member)
        simpa using (List.mem_filter.mp kept).2
      refine List.pairwise_cons.mpr ⟨fun c member => ?head, ?tail⟩
      case head =>
        have different := other member
        refine ⟨different.symm, a, List.mem_cons_self .., rfl, fun y listed same => ?_⟩
        rcases List.mem_cons.mp listed with rfl | behind
        · exact absurd same.symm different
        · exact first y behind
      case tail =>
        -- The key of the first element is gone from what remains, so no element with another key is.
        refine (ih _ (by omega) (later.filter _) rfl).imp_of_mem fun {b c} _ member => ?_
        rintro ⟨different, x, kept, same, before⟩
        refine ⟨different, x, List.mem_cons_of_mem a (List.mem_filter.mp kept).1, same,
          fun y listed named => ?_⟩
        have distinct := other member
        rcases List.mem_cons.mp listed with rfl | behind
        · exact absurd named.symm distinct
        · exact before y (List.mem_filter.mpr ⟨behind, by simpa [named] using distinct⟩) named

theorem nodup_eraseDups [DecidableEq α] (list : List α) : list.eraseDups.Nodup := by
  have apart := pairwise_eraseDups id (List.pairwise_of_forall (l := list) fun _ _ => trivial)
  rw [List.map_id] at apart
  exact apart.imp And.left

private theorem pairwise_dropRepeats {numbers : List Nat} (sorted : numbers.Pairwise (· ≤ ·)) :
    (dropRepeats numbers).Pairwise (· < ·) := by
  induction numbers with
  | nil => exact List.Pairwise.nil
  | cons n rest ih =>
    obtain ⟨first, later⟩ := List.pairwise_cons.mp sorted
    cases rest with
    | nil => exact List.pairwise_singleton _ n
    | cons m rest =>
      rw [dropRepeats]
      split
      next => exact ih later
      next different =>
        -- What is not the same as its neighbour is below it, and so below all that follows.
        refine List.pairwise_cons.mpr ⟨fun k member => ?_, ih later⟩
        have below := first m (List.mem_cons_self ..)
        rcases List.mem_cons.mp (mem_dropRepeats.mp member) with rfl | behind
        · exact Nat.lt_of_le_of_ne below different
        · have beyond := (List.pairwise_cons.mp later).1 k behind
          omega

private theorem pairwise_ascendingSet (numbers : List Nat) : (ascendingSet numbers).Pairwise (· < ·) := by
  have sorted : (sortBy (fun a b : Nat => a ≤ b) numbers).Pairwise fun a b => decide (a ≤ b) = true :=
    pairwise_sortBy (fun a b => by simpa using Nat.le_total a b) (fun a b c => by simpa using Nat.le_trans)
      numbers
  exact pairwise_dropRepeats (by simpa using sorted)

theorem ascendingSet_congr {numbers others : List Nat} (same : ∀ n, n ∈ numbers ↔ n ∈ others) :
    ascendingSet numbers = ascendingSet others :=
  (pairwise_ascendingSet numbers).eq_of_mem_iff (pairwise_ascendingSet others) fun n => by
    rw [mem_ascendingSet, mem_ascendingSet, same]

end PencilPuzzle
