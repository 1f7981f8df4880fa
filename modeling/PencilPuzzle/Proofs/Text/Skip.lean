import Mathlib.Algebra.BigOperators.Group.List.Basic
import PencilPuzzle.Proofs.Rows
import PencilPuzzle.Text.Skip

/-!
# Runs of skip letters

A run of empty places is written in as few letters as can be: each letter but the last one skips as many
places as there are letters. The letters together skip the whole run.
-/

namespace PencilPuzzle.Text

variable {letter : Char} {count : Nat}

def skipped (letter : Char) : Nat := letter.toNat - 'a'.toNat + 1

private theorem skipLetter_toNat (low : 1 ≤ count) (high : count ≤ 26) :
    (skipLetter count).toNat = 96 + count := by
  have letter : 'a'.toNat + count - 1 = 96 + count := by
    show 97 + count - 1 = 96 + count
    omega
  have valid : (96 + count).isValidChar := .inl (by omega)
  rw [skipLetter, letter, Char.ofNat, dif_pos valid]
  rfl

theorem letter_of_mem_skips (member : letter ∈ skips count) : 'a' ≤ letter ∧ letter ≤ 'z' := by
  show 97 ≤ letter.toNat ∧ letter.toNat ≤ 122
  rw [skips, List.mem_append] at member
  obtain long | short := member
  · rw [List.eq_of_mem_replicate long]
    decide
  · split at short
    next => exact absurd short List.not_mem_nil
    next left =>
      have bound := Nat.mod_lt count (show 0 < 26 by decide)
      rw [List.mem_singleton.mp short, skipLetter_toNat (by omega) (by omega)]
      omega

theorem advance_skips (count : Nat) : Marks.advance skipped (skips count) = count := by
  have long : Marks.advance skipped (List.replicate (count / 26) 'z') = 26 * (count / 26) := by
    rw [Marks.advance, List.map_replicate, List.sum_replicate, Nat.mul_comm]
    rfl
  have bound := Nat.mod_lt count (show 0 < 26 by decide)
  rw [skips, Marks.advance_append, long]
  by_cases whole : count % 26 = 0
  · rw [if_pos whole, Marks.advance_nil]
    omega
  · rw [if_neg whole, Marks.advance_cons, Marks.advance_nil, skipped,
      skipLetter_toNat (by omega) (by omega)]
    show 26 * (count / 26) + (96 + count % 26 - 97 + 1 + 0) = count
    omega

theorem length_skips (count : Nat) : (skips count).length = (count + 25) / 26 := by
  rw [skips, List.length_append, List.length_replicate]
  by_cases whole : count % 26 = 0
  · rw [if_pos whole, List.length_nil]
    omega
  · rw [if_neg whole, List.length_singleton]
    omega

end PencilPuzzle.Text
