import Mathlib.Data.Rat.Floor
import Mathlib.Tactic.FieldSimp
import Mathlib.Tactic.Linarith
import Mathlib.Tactic.Ring
import PencilPuzzle.Clock.Binary64

/-!
# Rounding

The nearest integer is at most a half away, and an even integer is reached from a half below it on. Rounding
to 53 significant bits leaves alone what has no more than these: an integer that is a multiple of a power of
two and less than 2^53 times as large.
-/

namespace PencilPuzzle.Clock

variable {q : Rat} {n : Int}

/-! ### The nearest integer -/

private theorem roundHalfEven_cases (q : Rat) :
    roundHalfEven q = ⌊q⌋ ∧ q - ⌊q⌋ ≤ 1 / 2 ∨ roundHalfEven q = ⌊q⌋ + 1 ∧ 1 / 2 ≤ q - ⌊q⌋ := by
  have floor : q.floor = ⌊q⌋ := rfl
  unfold roundHalfEven
  dsimp only
  rw [floor]
  split
  next below => exact .inl ⟨rfl, below.le⟩
  next reached =>
    split
    next above => exact .inr ⟨rfl, above.le⟩
    next most =>
      split
      next => exact .inl ⟨rfl, not_lt.mp most⟩
      next => exact .inr ⟨rfl, not_lt.mp reached⟩

theorem abs_roundHalfEven_sub_le (q : Rat) : |(roundHalfEven q : Rat) - q| ≤ 1 / 2 := by
  have low := Int.floor_le q
  have high := Int.lt_floor_add_one q
  rw [abs_le]
  obtain ⟨same, near⟩ | ⟨same, near⟩ := roundHalfEven_cases q
  · rw [same]
    constructor <;> linarith
  · rw [same, Int.cast_add, Int.cast_one]
    constructor <;> linarith

theorem roundHalfEven_le (le : q ≤ n) : roundHalfEven q ≤ n := by
  have near := (abs_le.mp (abs_roundHalfEven_sub_le q)).2
  have below : (roundHalfEven q : Rat) < n + 1 := by linarith
  exact Int.lt_add_one_iff.mp (by exact_mod_cast below)

theorem le_roundHalfEven (le : (n : Rat) ≤ q) : n ≤ roundHalfEven q := by
  have near := (abs_le.mp (abs_roundHalfEven_sub_le q)).1
  have above : (n : Rat) < roundHalfEven q + 1 := by linarith
  exact Int.lt_add_one_iff.mp (by exact_mod_cast above)

@[simp] theorem roundHalfEven_intCast (n : Int) : roundHalfEven n = n :=
  le_antisymm (roundHalfEven_le le_rfl) (le_roundHalfEven le_rfl)

/-- An even number is the nearest one from a half below it on. -/
theorem le_roundHalfEven_iff (even : n % 2 = 0) : n ≤ roundHalfEven q ↔ (n : Rat) - 1 / 2 ≤ q := by
  constructor
  · intro reached
    have near := (abs_le.mp (abs_roundHalfEven_sub_le q)).2
    have reached : (n : Rat) ≤ roundHalfEven q := by exact_mod_cast reached
    linarith
  · intro near
    by_cases whole : (n : Rat) ≤ q
    · exact le_roundHalfEven whole
    · -- The integer below is the odd one before `n`, a half or more away.
      have floor : q.floor = n - 1 := by
        change ⌊q⌋ = n - 1
        rw [Int.floor_eq_iff]
        push_cast
        constructor <;> linarith
      unfold roundHalfEven
      dsimp only
      rw [floor]
      push_cast
      rw [if_neg (by linarith)]
      split
      next => omega
      next =>
        rw [if_neg (by omega)]
        omega

/-! ### Numbers of 53 bits -/

private theorem twoPow_eq (exponent : Int) : twoPow exponent = (2 : Rat) ^ exponent := by
  unfold twoPow
  split
  next nonneg =>
    obtain ⟨k, rfl⟩ := Int.eq_ofNat_of_zero_le nonneg
    simp
  next negative =>
    obtain ⟨k, same⟩ := Int.eq_ofNat_of_zero_le (by omega : 0 ≤ -exponent)
    obtain rfl : exponent = -(k : Int) := by omega
    simp

private theorem twoPow_pos (exponent : Int) : 0 < twoPow exponent := by
  rw [twoPow_eq]
  exact zpow_pos two_pos exponent

private theorem binaryExponent_natCast {n : Nat} (pos : n ≠ 0) : binaryExponent n = Nat.log2 n := by
  have guess : twoPow (Nat.log2 n) ≤ (n : Rat) := by
    rw [twoPow_eq, zpow_natCast]
    exact_mod_cast Nat.log2_self_le pos
  have first : (Nat.log2 (n : Rat).num.natAbs : Int) - Nat.log2 (n : Rat).den = Nat.log2 n := by
    have one : Nat.log2 1 = 0 := by decide
    rw [Rat.num_natCast, Rat.den_natCast, Int.natAbs_natCast, one, Nat.cast_zero, sub_zero]
  unfold binaryExponent
  dsimp only
  rw [first, if_pos guess]

theorem roundBinary64_nonneg (nonneg : 0 ≤ q) : 0 ≤ roundBinary64 q := by
  unfold roundBinary64
  split
  next => exact le_rfl
  next =>
    have place := twoPow_pos (lastPlace q.abs)
    have count : (0 : Int) ≤ roundHalfEven (q / twoPow (lastPlace q.abs)) :=
      le_roundHalfEven (by rw [Int.cast_zero]; positivity)
    have count : (0 : Rat) ≤ roundHalfEven (q / twoPow (lastPlace q.abs)) := by exact_mod_cast count
    positivity

/-- A multiple of a power of two that is less than 2^53 times as large has at most 53 significant bits. -/
theorem roundBinary64_natCast {k t : Nat} (small : k < 2 ^ 53) :
    roundBinary64 ((2 ^ t * k : Nat) : Rat) = (2 ^ t * k : Nat) := by
  by_cases zero : k = 0
  · simp [zero, roundBinary64]
  have pos : 2 ^ t * k ≠ 0 := by positivity
  have low : lastPlace ((2 ^ t * k : Nat) : Rat).abs ≤ t := by
    have bound : Nat.log2 (2 ^ t * k) < t + 53 := by
      rw [Nat.log2_lt pos, pow_add]
      exact Nat.mul_lt_mul_of_pos_left small (by positivity)
    rw [lastPlace, Rat.abs_of_nonneg (by positivity), binaryExponent_natCast pos]
    omega
  obtain ⟨shift, same⟩ := Int.eq_ofNat_of_zero_le (sub_nonneg.mpr low)
  have scaled : ((2 ^ t * k : Nat) : Rat) = ((2 ^ shift * k : Nat) : Int) *
      twoPow (lastPlace ((2 ^ t * k : Nat) : Rat).abs) := by
    rw [twoPow_eq, show lastPlace _ = (t : Int) - shift by omega, zpow_sub₀ two_ne_zero,
      zpow_natCast, zpow_natCast]
    push_cast
    field_simp
  have place := (twoPow_pos (lastPlace ((2 ^ t * k : Nat) : Rat).abs)).ne'
  rw [roundBinary64, if_neg (by exact_mod_cast pos)]
  dsimp only
  rw [(div_eq_iff place).mpr scaled, roundHalfEven_intCast]
  exact scaled.symm

end PencilPuzzle.Clock
