import Mathlib.Data.Nat.Bitwise
import PencilPuzzle.Proofs.Rows
import PencilPuzzle.Proofs.State.Shape
import PencilPuzzle.State.Snapshot

/-!
# Reading a snapshot

The bits of a snapshot run across the borders of its bytes. All the same each of them has its place in
the bytes and can be read there, and who knows how many variables there are and how many values they
may take knows which place tells what. So nothing of the domains and of the locks is lost, and two
states with equal bytes have the same domains and the same locks.
-/

namespace PencilPuzzle

/-! ### Bits in bytes -/

theorem bitsToNat_append_singleton (bits : List Bool) (bit : Bool) :
    bitsToNat (bits ++ [bit]) = 2 * bitsToNat bits + bit.toNat := by
  rw [bitsToNat, List.foldl_append, ← bitsToNat, List.foldl_cons, List.foldl_nil]

private theorem testBit_bitsToNat (bits : List Bool) (place : Nat) :
    (bitsToNat bits).testBit place = bits.reverse.getD place false := by
  -- A number is read from the front on, so its lowest bit is split off at the end.
  induction bits using List.reverseRecOn generalizing place with
  | nil => simp [bitsToNat]
  | append_singleton bits bit ih =>
    rw [bitsToNat_append_singleton, List.reverse_append, List.reverse_singleton, List.singleton_append]
    cases place with
    | zero => cases bit <;> simp [Nat.testBit_zero]
    | succ place =>
      have half : (2 * bitsToNat bits + bit.toNat) / 2 = bitsToNat bits := by
        cases bit <;> simp only [Bool.toNat_false, Bool.toNat_true] <;> omega
      rw [Nat.testBit_succ, half, ih, List.getD_cons_succ]

private theorem bitsToNat_lt (bits : List Bool) : bitsToNat bits < 2 ^ bits.length := by
  refine Nat.lt_pow_two_of_testBit _ fun place beyond => ?_
  rw [testBit_bitsToNat, List.getD_eq_default _ _ (by rwa [List.length_reverse])]

/-- The bit at a place of a sequence of bytes, in each of them the most significant first. -/
def bitAt (bytes : List UInt8) (place : Nat) : Bool :=
  (bytes.getD (place / 8) 0).toNat.testBit (7 - place % 8)

private theorem testBit_byteOfBits (bits : Array Bool) (index : Nat) {offset : Nat} (inside : offset < 8) :
    (byteOfBits bits index).toNat.testBit (7 - offset) = bits.getD (8 * index + offset) false := by
  have small := bitsToNat_lt ((List.range 8).map fun offset => bits.getD (8 * index + offset) false)
  rw [List.length_map, List.length_range] at small
  have mirrored : 8 - 1 - (7 - offset) = offset := by omega
  rw [byteOfBits, Nat.toUInt8_eq, UInt8.toNat_ofNat', Nat.mod_eq_of_lt small, testBit_bitsToNat,
    List.getD_reverse _ (by rw [List.length_map, List.length_range]; omega), List.length_map,
    List.length_range, mirrored,
    List.getD_eq_getElem _ _ (by rwa [List.length_map, List.length_range]), List.getElem_map,
    List.getElem_range]

private theorem bitAt_packBits (bits : Array Bool) (place : Nat) :
    bitAt (packBits bits) place = bits.getD place false := by
  have offset : place % 8 < 8 := Nat.mod_lt _ (by decide)
  by_cases inside : place / 8 < (bits.size + 7) / 8
  · have byte : (packBits bits).getD (place / 8) 0 = byteOfBits bits (place / 8) := by
      rw [List.getD_eq_getElem _ _ (by rwa [packBits, List.length_map, List.length_range])]
      simp [packBits]
    rw [bitAt, byte, testBit_byteOfBits bits _ offset, Nat.div_add_mod]
  · have beyond : bits.size ≤ place := by omega
    have none : (packBits bits).length ≤ place / 8 := by
      rw [packBits, List.length_map, List.length_range]
      exact Nat.le_of_not_lt inside
    rw [bitAt, List.getD_eq_default _ _ none, Array.getD_eq_getD_getElem?, Array.getElem?_eq_none beyond]
    exact Nat.zero_testBit _

namespace State

variable {s t : State}

/-! ### Bits of a state -/

private theorem flatMap_bits_domains (state : State) :
    state.domains.flatMap Domain.bits =
      (List.range (state.count * state.size)).map fun place =>
        state.hasCandidate (place / state.size) (place % state.size) := by
  rw [← flatMap_rows, domains_eq, List.flatMap_map]
  refine List.flatMap_congr fun v _ => ?_
  rw [Domain.bits_eq]
  refine List.map_congr_left fun x bound => ?_
  obtain ⟨column, row⟩ := (row_add_eq_iff (List.mem_range.mp bound)).mp (Eq.refl (v * state.size + x))
  rw [← column, ← row, hasCandidate, candidates]

private theorem locks_eq (state : State) :
    state.slots.toList.map Slot.locked = (List.range state.count).map state.isLocked := by
  apply List.ext_getElem (by simp [count])
  intro v inside _
  have present : v < state.slots.size := by simpa using inside
  simp [isLocked_eq, present]

/-- The bit of a value, and behind the bits of all values that of a lock. -/
theorem snapshotBits_eq (state : State) :
    state.snapshotBits =
      ((List.range (state.count * state.size)).map fun place =>
          state.hasCandidate (place / state.size) (place % state.size)) ++
        (List.range state.count).map state.isLocked := by
  rw [snapshotBits, flatMap_bits_domains, locks_eq]

private theorem bitAt_snapshot (state : State) (place : Nat) :
    bitAt state.snapshot place = state.snapshotBits[place]?.getD false := by
  rw [snapshot, bitAt_packBits, Array.getD_eq_getD_getElem?, List.getElem?_toArray]

private theorem bitAt_snapshot_value {v x : Nat} (inside : v < s.count) (bound : x < s.size) :
    bitAt s.snapshot (v * s.size + x) = s.hasCandidate v x := by
  have place : v * s.size + x < s.count * s.size := row_add_lt bound inside
  obtain ⟨column, row⟩ := (row_add_eq_iff bound).mp (Eq.refl (v * s.size + x))
  rw [bitAt_snapshot, snapshotBits_eq, List.getElem?_append_left (by simpa using place), List.getElem?_map,
    List.getElem?_range place, Option.map_some, Option.getD_some, ← column, ← row]

private theorem bitAt_snapshot_lock {v : Nat} (inside : v < s.count) :
    bitAt s.snapshot (s.count * s.size + v) = s.isLocked v := by
  rw [bitAt_snapshot, snapshotBits_eq, List.getElem?_append_right (by simp), List.length_map,
    List.length_range, Nat.add_sub_cancel_left, List.getElem?_map, List.getElem?_range inside,
    Option.map_some, Option.getD_some]

/-! ### Reading a state -/

/-- The remaining values of each variable, and whether it is locked, as bytes tell them. -/
def readSlots (count size : Nat) (bytes : List UInt8) : List (List Nat × Bool) :=
  (List.range count).map fun v =>
    ((List.range size).filter fun x => bitAt bytes (v * size + x), bitAt bytes (count * size + v))

private theorem readSlots_snapshot (state : State) :
    readSlots state.count state.size state.snapshot =
      (List.range state.count).map fun v => (state.candidates v, state.isLocked v) := by
  refine List.map_congr_left fun v member => ?_
  have inside := List.mem_range.mp member
  have values : ((List.range state.size).filter fun x => bitAt state.snapshot (v * state.size + x)) =
      state.candidates v := by
    rw [candidates, Domain.values_eq_filter]
    exact List.filter_congr fun x bound => bitAt_snapshot_value inside (List.mem_range.mp bound)
  rw [values, bitAt_snapshot_lock inside]

theorem snapshot_eq_snapshot_iff (counts : s.count = t.count) (sizes : s.size = t.size) :
    s.snapshot = t.snapshot ↔
      ∀ v < s.count, s.candidates v = t.candidates v ∧ s.isLocked v = t.isLocked v := by
  constructor
  · intro same v inside
    have read := readSlots_snapshot s
    rw [same, counts, sizes, readSlots_snapshot, List.map_inj_left] at read
    obtain ⟨values, lock⟩ := Prod.mk.inj (read v (List.mem_range.mpr (counts ▸ inside)))
    exact ⟨values.symm, lock.symm⟩
  · intro same
    have bits : s.snapshotBits = t.snapshotBits := by
      rw [snapshotBits_eq, snapshotBits_eq, ← counts, ← sizes]
      congr 1
      · refine List.map_congr_left fun place member => ?_
        have inside : place / s.size < s.count :=
          Nat.div_lt_of_lt_mul (Nat.mul_comm .. ▸ List.mem_range.mp member)
        rw [hasCandidate, hasCandidate, (same _ inside).1]
      · exact List.map_congr_left fun v member => (same v (List.mem_range.mp member)).2
    rw [snapshot, snapshot, bits]

/-- Between states that operations lead to from one new state the bytes differ exactly where a domain or a
lock does, and from the bytes and the shape of the new state all of them can be told. -/
theorem snapshot_of_reaches {count size : Nat} {start : State} (created : State.new count size = .ok start)
    (left : start.Reaches s) (right : start.Reaches t) :
    (s.snapshot = t.snapshot ↔
        ∀ v < count, s.candidates v = t.candidates v ∧ s.isLocked v = t.isLocked v) ∧
      readSlots count size s.snapshot =
        (List.range count).map fun v => (s.candidates v, s.isLocked v) := by
  have blank : start = State.blank count size := new_eq_ok created
  subst blank
  have here := left.shaped (shaped_blank count size)
  have there := right.shaped (shaped_blank count size)
  have same := snapshot_eq_snapshot_iff (here.count_eq.trans there.count_eq.symm)
    (here.size_eq.trans there.size_eq.symm)
  have read := readSlots_snapshot s
  rw [here.count_eq] at same read
  rw [here.size_eq] at read
  exact ⟨same, read⟩

/-- Two ways to the same domains have one snapshot, though the changes and the constraints differ, and a third
with other domains has another. The bits of the last variable go on into the second byte, where those of the
locks follow. -/
theorem snapshot_of_reaches_narrowed :
    let left := (State.blank 3 3).performAll [.lock 0 1, .remove 1 [0], .remove 1 [2]]
    let right := (State.blank 3 3).performAll [.lock 0 1, .addConstraint (.word "row") [0, 1], .assign 1 1]
    let other := (State.blank 3 3).performAll [.assign 0 1, .assign 1 1]
    State.new 3 3 = .ok (State.blank 3 3) ∧ left.mark = 2 ∧ right.mark = 1 ∧
      left.snapshot = right.snapshot ∧ left.snapshot ≠ other.snapshot ∧
      readSlots 3 3 left.snapshot = [([1], true), ([1], false), ([0, 1, 2], false)] := by
  intro left right other
  have created : State.new (3 : Nat) (3 : Nat) = .ok (State.blank 3 3) := rfl
  have toLeft : (State.blank 3 3).Reaches left := Reaches.refl.performAll _
  have toRight : (State.blank 3 3).Reaches right := Reaches.refl.performAll _
  have toOther : (State.blank 3 3).Reaches other := Reaches.refl.performAll _
  obtain ⟨same, read⟩ := snapshot_of_reaches created toLeft toRight
  obtain ⟨same', _⟩ := snapshot_of_reaches created toLeft toOther
  refine ⟨created, by decide, by decide, same.mpr (by decide), fun equal => ?_, read.trans (by decide)⟩
  exact absurd (same'.mp equal) (by decide)

end State

end PencilPuzzle
