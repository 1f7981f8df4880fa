import Mathlib.Data.List.Nodup
import PencilPuzzle.Graph.Build

/-!
# Cycles and their sides

A cycle of different vertices has one side for each of them, and when there are three or more, all
sides are different. Every vertex of the cycle ends two of them and no other vertex ends any.
-/

namespace PencilPuzzle

namespace Edge

variable {u v w x : Nat}

theorem joining_eq_joining : joining u v = joining w x ↔ u = w ∧ v = x ∨ u = x ∧ v = w := by
  simp only [joining, Edge.mk.injEq]
  omega

@[simp] theorem mem_ends_joining : u ∈ (joining v w).ends ↔ u = v ∨ u = w := by
  simp only [joining, ends, List.mem_cons, List.not_mem_nil, or_false]
  omega

theorem joining_ends {edge : Edge} (ordered : edge.start ≤ edge.stop) :
    joining edge.start edge.stop = edge := by
  rw [joining, Nat.min_eq_left ordered, Nat.max_eq_right ordered]

private theorem joining_ordered (different : v ≠ w) : (joining v w).start < (joining v w).stop := by
  simp only [joining]
  omega

end Edge

namespace Graph

variable {cycle : List Nat} {side : Edge} {i v w : Nat}

/-! ### Places on a cycle -/

def placeAfter (count i : Nat) : Nat := if i + 1 < count then i + 1 else 0

theorem getElem?_placeAfter (inside : i < cycle.length) :
    (cycle.drop 1 ++ cycle.take 1)[i]? = cycle[placeAfter cycle.length i]? := by
  rw [List.getElem?_append, List.length_drop, List.getElem?_drop, List.getElem?_take, placeAfter]
  by_cases last : i + 1 < cycle.length
  · rw [if_pos (by omega), if_pos last, Nat.add_comm]
  · rw [if_neg (by omega), if_neg last, if_pos (by omega)]
    congr 1
    omega

theorem placeAfter_lt {count : Nat} (inside : i < count) : placeAfter count i < count := by
  unfold placeAfter
  split <;> omega

theorem placeAfter_ne {count : Nat} (long : 2 ≤ count) : placeAfter count i ≠ i := by
  unfold placeAfter
  split <;> omega

theorem placeAfter_eq_mod {count : Nat} (inside : i < count) : placeAfter count i = (i + 1) % count := by
  unfold placeAfter
  split
  next further => exact (Nat.mod_eq_of_lt further).symm
  next last => rw [show i + 1 = count by omega, Nat.mod_self]

theorem getElem?_sides :
    (sides cycle)[i]? = some side ↔
      ∃ v w, cycle[i]? = some v ∧ cycle[placeAfter cycle.length i]? = some w ∧ side = Edge.joining v w := by
  rw [sides, List.getElem?_zipWith_eq_some]
  constructor
  · rintro ⟨v, w, here, next, rfl⟩
    rw [getElem?_placeAfter (List.getElem?_eq_some_iff.mp here).1] at next
    exact ⟨v, w, here, next, rfl⟩
  · rintro ⟨v, w, here, next, rfl⟩
    rw [← getElem?_placeAfter (List.getElem?_eq_some_iff.mp here).1] at next
    exact ⟨v, w, here, next, rfl⟩

theorem mem_sides :
    side ∈ sides cycle ↔ ∃ i v w, cycle[i]? = some v ∧ cycle[placeAfter cycle.length i]? = some w ∧
      side = Edge.joining v w := by
  rw [List.mem_iff_getElem?]
  exact exists_congr fun i => getElem?_sides

@[simp] theorem length_sides (cycle : List Nat) : (sides cycle).length = cycle.length := by
  simp only [sides, List.length_zipWith, List.length_append, List.length_drop, List.length_take]
  omega

theorem mem_of_mem_sides (member : side ∈ sides cycle) (ends : v ∈ side.ends) : v ∈ cycle := by
  obtain ⟨i, u, w, here, next, rfl⟩ := mem_sides.mp member
  rcases Edge.mem_ends_joining.mp ends with rfl | rfl
  · exact List.mem_of_getElem? here
  · exact List.mem_of_getElem? next

/-! ### Different vertices -/

section Distinct

variable (distinct : cycle.Nodup)
include distinct

private theorem eq_of_getElem? {j : Nat} (here : cycle[i]? = some v) (there : cycle[j]? = some v) : i = j :=
  (List.getElem?_inj (List.getElem?_eq_some_iff.mp here).1 distinct).mp (here.trans there.symm)

theorem side_ordered (long : 2 ≤ cycle.length) (member : side ∈ sides cycle) :
    side.start < side.stop := by
  obtain ⟨i, v, w, here, next, rfl⟩ := mem_sides.mp member
  apply Edge.joining_ordered
  rintro rfl
  exact placeAfter_ne long (eq_of_getElem? distinct next here)

theorem nodup_sides (long : 3 ≤ cycle.length) : (sides cycle).Nodup := by
  rw [List.nodup_iff_getElem?_ne_getElem?]
  intro i j before inside same
  rw [length_sides] at inside
  obtain ⟨side, there⟩ : ∃ side, (sides cycle)[j]? = some side :=
    ⟨_, List.getElem?_eq_getElem (by rw [length_sides]; exact inside)⟩
  obtain ⟨v, w, here, next, rfl⟩ := getElem?_sides.mp (same.trans there)
  obtain ⟨v', w', here', next', joined⟩ := getElem?_sides.mp there
  rcases Edge.joining_eq_joining.mp joined with ⟨rfl, rfl⟩ | ⟨rfl, rfl⟩
  · have := eq_of_getElem? distinct here here'
    omega
  · -- The same side the other way round: only a cycle of two has one.
    have first := eq_of_getElem? distinct here next'
    have second := eq_of_getElem? distinct next here'
    unfold placeAfter at first second
    split at first <;> split at second <;> omega

end Distinct

private theorem countP_zipWith_joining {starts stops : List Nat} (same : starts.length = stops.length)
    (differ : ∀ i v w : Nat, starts[i]? = some v → stops[i]? = some w → v ≠ w) (u : Nat) :
    (List.zipWith Edge.joining starts stops).countP (u ∈ ·.ends) =
      starts.count u + stops.count u := by
  induction starts generalizing stops with
  | nil =>
    cases List.eq_nil_of_length_eq_zero same.symm
    rfl
  | cons v starts ih =>
    cases stops with
    | nil => simp at same
    | cons w stops =>
      have rest := ih (Nat.succ.inj same) fun i v w here there => differ (i + 1) v w here there
      have different : v ≠ w := differ 0 v w rfl rfl
      rw [List.zipWith_cons_cons, List.countP_cons, rest, List.count_cons, List.count_cons]
      by_cases first : u = v
      · subst first
        simp [different.symm]
        omega
      · by_cases second : u = w
        · subst second
          simp [different]
          omega
        · simp [first, second, Ne.symm first, Ne.symm second]

/-- Every vertex ends two sides for each time it is passed. -/
theorem countP_sides (distinct : cycle.Nodup) (long : 2 ≤ cycle.length) (u : Nat) :
    (sides cycle).countP (u ∈ ·.ends) = 2 * cycle.count u := by
  have rotated : (cycle.drop 1 ++ cycle.take 1).Perm cycle := by
    have swap : (cycle.drop 1 ++ cycle.take 1).Perm (cycle.take 1 ++ cycle.drop 1) :=
      List.perm_append_comm
    rwa [List.take_append_drop] at swap
  rw [sides, countP_zipWith_joining rotated.length_eq.symm, rotated.count_eq]
  · omega
  · rintro i v w here next rfl
    rw [getElem?_placeAfter (List.getElem?_eq_some_iff.mp here).1] at next
    exact placeAfter_ne long (eq_of_getElem? distinct next here)

theorem filter_sides (distinct : cycle.Nodup) (long : 3 ≤ cycle.length) (member : v ∈ cycle) :
    ∃ side other, side ≠ other ∧ (sides cycle).filter (v ∈ ·.ends) = [side, other] := by
  have two := countP_sides distinct (by omega) v
  rw [List.count_eq_one_of_mem distinct member, List.countP_eq_length_filter] at two
  obtain ⟨side, other, pair⟩ := List.length_eq_two.mp two
  have different := (nodup_sides distinct long).filter (v ∈ ·.ends)
  rw [pair] at different
  exact ⟨side, other, by simpa using different, pair⟩

end Graph

end PencilPuzzle
