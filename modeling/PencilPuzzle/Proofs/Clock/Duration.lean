import Mathlib.Tactic.NormNum
import PencilPuzzle.Clock.Duration
import PencilPuzzle.Proofs.Clock.Binary64
import PencilPuzzle.Proofs.Numeral

/-!
# Clock readings

A text with the form of a clock reading tells one time. The reading of a duration is as close to it as two
decimals allow; but the seconds are rounded after the whole minutes have been taken off, so that a
remainder of 59.995 seconds or more is read as 60.00 seconds and not as one minute more.
-/

namespace PencilPuzzle

namespace Text

variable {n : Nat}

/-! ### Numbers filled with zeros -/

private theorem toList_zeroPadded (width n : Nat) : (zeroPadded width n).toList =
    List.replicate (width - (Nat.toDigits 10 n).length) '0' ++ Nat.toDigits 10 n := by
  rw [zeroPadded, if_neg (by omega), Int.natAbs_natCast, String.toList_ofList]

private theorem decimal_zeroPadded (width n : Nat) : Decimal (zeroPadded width n).toList n := by
  rw [toList_zeroPadded]
  exact (decimal_toDigits n).zeros_append _

private theorem le_length_zeroPadded (width n : Nat) : width ≤ (zeroPadded width n).toList.length := by
  rw [toList_zeroPadded, List.length_append, List.length_replicate]
  omega

theorem length_zeroPadded_two (small : n < 100) : (zeroPadded 2 n).toList.length = 2 := by
  have digits := (Nat.length_toDigits_le_iff (b := 10) (n := n) (k := 2) (by decide) (by decide)).mpr small
  rw [toList_zeroPadded, List.length_append, List.length_replicate]
  omega

end Text

namespace Clock

/-! ### Readings -/

/-- What a clock shows, down to hundredths of a second. -/
@[ext]
structure Reading where
  hours : Nat
  minutes : Nat
  seconds : Nat
  hundredths : Nat

namespace Reading

variable {text : String} {reading : Reading} {minutes hundredths : Nat}

def time (reading : Reading) : Rat :=
  3600 * reading.hours + 60 * reading.minutes + reading.seconds + reading.hundredths / 100

/-- Two or more digits for the hours and two digits for each of the other parts. -/
def Spelled (reading : Reading) (text : String) : Prop :=
  ∃ hours minutes seconds hundredths : List Char,
    text.toList = hours ++ ':' :: (minutes ++ ':' :: (seconds ++ '.' :: hundredths)) ∧
    (Text.Decimal hours reading.hours ∧ 2 ≤ hours.length) ∧
    (Text.Decimal minutes reading.minutes ∧ minutes.length = 2) ∧
    (Text.Decimal seconds reading.seconds ∧ seconds.length = 2) ∧
    (Text.Decimal hundredths reading.hundredths ∧ hundredths.length = 2)

/-- Sixty minutes are an hour, and sixty seconds are a minute. -/
def InRange (reading : Reading) : Prop := reading.minutes ≤ 59 ∧ reading.seconds ≤ 59

theorem Spelled.unique {other : Reading} (spelled : reading.Spelled text) (again : other.Spelled text) :
    reading = other := by
  obtain ⟨h, m, s, c, here, ⟨hours, _⟩, ⟨minutes, two⟩, ⟨seconds, two'⟩, ⟨hundredths, two''⟩⟩ := spelled
  obtain ⟨h', m', s', c', there, ⟨hours', _⟩, ⟨minutes', len⟩, ⟨seconds', len'⟩, ⟨hundredths', len''⟩⟩ :=
    again
  -- The hours may have any number of digits: the three other parts are counted off from the end.
  obtain ⟨rfl, afterHours⟩ := List.append_inj' (here.symm.trans there) (by
    simp only [List.length_cons, List.length_append]
    omega)
  obtain ⟨rfl, afterMinutes⟩ := List.append_inj (List.cons.inj afterHours).2 (two.trans len.symm)
  obtain ⟨rfl, afterSeconds⟩ := List.append_inj (List.cons.inj afterMinutes).2 (two'.trans len'.symm)
  obtain rfl := (List.cons.inj afterSeconds).2
  exact Reading.ext (hours.unique hours') (minutes.unique minutes') (seconds.unique seconds')
    (hundredths.unique hundredths')

/-- Whole minutes and hundredths of a second, in the parts of a clock. -/
def ofCounts (minutes hundredths : Nat) : Reading :=
  ⟨minutes / 60, minutes % 60, hundredths / 100, hundredths % 100⟩

private theorem time_ofCounts : (ofCounts minutes hundredths).time = 60 * minutes + hundredths / 100 := by
  have whole : ((60 * (minutes / 60) + minutes % 60 : Nat) : Rat) = minutes := by rw [Nat.div_add_mod]
  have part : ((100 * (hundredths / 100) + hundredths % 100 : Nat) : Rat) = hundredths := by
    rw [Nat.div_add_mod]
  push_cast at whole part
  rw [time, ofCounts]
  linarith

end Reading

/-- The text is a clock reading in range, and its time is the nearest one with two decimals. -/
def Tells (text : String) (value : Rat) : Prop :=
  ∃ reading : Reading, reading.Spelled text ∧ reading.InRange ∧ |reading.time - value| ≤ 1 / 200

/-! ### Whole minutes and the rest -/

namespace Seconds

variable {duration : Seconds}

def value : Seconds → Rat
  | whole count => count
  | real value => value

/-- What is left over from whole minutes. -/
def rest (duration : Seconds) : Rat := duration.value - 60 * ⌊duration.value / 60⌋

/-- Rounding does not disturb the number of whole minutes. -/
def SplitsExactly (duration : Seconds) : Prop := (splitMinutes duration).1 = ⌊duration.value / 60⌋

private theorem rest_nonneg (duration : Seconds) : 0 ≤ duration.rest := by
  have low := Int.floor_le (duration.value / 60)
  rw [rest]
  linarith

private theorem rest_lt (duration : Seconds) : duration.rest < 60 := by
  have high := Int.lt_floor_add_one (duration.value / 60)
  rw [rest]
  linarith

end Seconds

variable {duration : Seconds} {q : Rat}

private theorem splitMinutes_whole (count : Int) :
    (splitMinutes (.whole count)).1 = ⌊(count : Rat) / 60⌋ := by
  have floor := Rat.floor_intCast_div_natCast count 60
  push_cast at floor
  rw [floor, splitMinutes, Int.fdiv_eq_ediv_of_nonneg count (by decide)]

private theorem splitReal_of_nonneg (nonneg : 0 ≤ q) : splitReal q =
    let quotient := roundBinary64 (roundBinary64 (60 * ⌊q / 60⌋) / 60)
    (if 1 / 2 < quotient - ⌊quotient⌋ then ⌊quotient⌋ + 1 else ⌊quotient⌋, q - 60 * ⌊q / 60⌋) := by
  have remainder : minuteRemainder q = q - 60 * ⌊q / 60⌋ := by
    rw [minuteRemainder, if_neg (not_lt.mpr nonneg)]
    rfl
  have left := (Seconds.real q).rest_nonneg
  rw [Seconds.rest, Seconds.value] at left
  unfold splitReal
  dsimp only
  rw [remainder, if_neg (not_lt.mpr left), sub_sub_cancel]
  rfl

private theorem splitMinutes_snd (nonneg : 0 ≤ duration.value) :
    (splitMinutes duration).2 = duration.rest := by
  cases duration with
  | whole count =>
    rw [Seconds.rest, Seconds.value, ← splitMinutes_whole]
    simp only [splitMinutes]
    have parts := Int.fmod_def count 60
    rw [parts]
    push_cast
    rfl
  | real q => rw [splitMinutes, splitReal_of_nonneg (by exact nonneg), Seconds.rest, Seconds.value]

private theorem splitMinutes_nonneg (nonneg : 0 ≤ duration.value) : 0 ≤ (splitMinutes duration).1 := by
  cases duration with
  | whole count =>
    rw [splitMinutes_whole]
    exact Int.floor_nonneg.mpr (div_nonneg nonneg (by norm_num))
  | real q =>
    have minutes : (0 : Rat) ≤ ⌊q / 60⌋ := by
      exact_mod_cast Int.floor_nonneg.mpr (div_nonneg nonneg (by norm_num : (0 : Rat) ≤ 60))
    have product := roundBinary64_nonneg (mul_nonneg (by norm_num : (0 : Rat) ≤ 60) minutes)
    have quotient := roundBinary64_nonneg (div_nonneg product (by norm_num : (0 : Rat) ≤ 60))
    have low := Int.floor_nonneg.mpr quotient
    rw [splitMinutes, splitReal_of_nonneg (by exact nonneg)]
    dsimp only
    split <;> omega

/-- Below 2^55 seconds the whole minutes are a number of 53 bits, and so are their seconds. -/
theorem splitsExactly_real (nonneg : 0 ≤ q) (small : q < 2 ^ 55) : (Seconds.real q).SplitsExactly := by
  obtain ⟨minutes, count⟩ := Int.eq_ofNat_of_zero_le
    (Int.floor_nonneg.mpr (div_nonneg nonneg (by norm_num : (0 : Rat) ≤ 60)))
  have low := Int.floor_le (q / 60)
  rw [count] at low
  have bound : 15 * minutes < 2 ^ 53 := by
    have bound : (15 * minutes : Rat) < 2 ^ 53 := by
      push_cast at low
      linarith
    exact_mod_cast bound
  -- Sixty times the minutes is four times a number below 2^53.
  have product : roundBinary64 (60 * ⌊q / 60⌋) = 60 * minutes := by
    have rounded := roundBinary64_natCast (t := 2) bound
    have same : ((2 ^ 2 * (15 * minutes) : Nat) : Rat) = 60 * minutes := by
      push_cast
      ring
    rw [same] at rounded
    rw [count, Int.cast_natCast]
    exact rounded
  have quotient : roundBinary64 minutes = minutes := by
    have rounded := roundBinary64_natCast (k := minutes) (t := 0) (by omega)
    simpa using rounded
  rw [Seconds.SplitsExactly, splitMinutes, splitReal_of_nonneg nonneg, product, Seconds.value, count,
    mul_div_cancel_left₀ _ (by norm_num), quotient]
  simp

/-! ### The text of a duration -/

private theorem spelled_ofCounts {minutes hundredths : Nat} (small : hundredths < 10000) :
    (Reading.ofCounts minutes hundredths).Spelled
      (Text.zeroPadded 2 (Int.fdiv minutes 60) ++ ":" ++ Text.zeroPadded 2 (Int.fmod minutes 60) ++ ":" ++
        (Text.zeroPadded 2 ((hundredths : Int) / 100) ++ "." ++
          Text.zeroPadded 2 ((hundredths : Int) % 100))) := by
  refine ⟨_, _, _, _, ?_,
    ⟨Text.decimal_zeroPadded 2 _, Text.le_length_zeroPadded 2 _⟩,
    ⟨Text.decimal_zeroPadded 2 _, Text.length_zeroPadded_two (n := minutes % 60) (by omega)⟩,
    ⟨Text.decimal_zeroPadded 2 _, Text.length_zeroPadded_two (n := hundredths / 100) (by omega)⟩,
    ⟨Text.decimal_zeroPadded 2 _, Text.length_zeroPadded_two (n := hundredths % 100) (by omega)⟩⟩
  have colon : ":".toList = [':'] := rfl
  have point : ".".toList = ['.'] := rfl
  have hours : Int.fdiv minutes 60 = (minutes / 60 : Nat) := Int.fdiv_eq_ediv_of_nonneg _ (by decide)
  have left : Int.fmod minutes 60 = (minutes % 60 : Nat) := Int.fmod_eq_emod_of_nonneg _ (by decide)
  rw [hours, left]
  simp only [String.toList_append, colon, point, List.append_assoc, List.singleton_append]
  rfl

private theorem exists_hundredths (nonneg : 0 ≤ q) (small : q < 60) : ∃ hundredths : Nat,
    roundHalfEven (q * 100) = hundredths ∧ hundredths ≤ 6000 ∧
    (hundredths = 6000 ↔ 11999 / 200 ≤ q) ∧ |(hundredths : Rat) / 100 - q| ≤ 1 / 200 := by
  have low : ((0 : Int) : Rat) ≤ q * 100 := by
    push_cast
    linarith
  have high : q * 100 ≤ ((6000 : Int) : Rat) := by
    push_cast
    linarith
  obtain ⟨hundredths, part⟩ := Int.eq_ofNat_of_zero_le (le_roundHalfEven low)
  have most : hundredths ≤ 6000 := by
    have := roundHalfEven_le high
    omega
  have reached := le_roundHalfEven_iff (q := q * 100) (n := 6000) (by decide)
  have close := abs_roundHalfEven_sub_le (q * 100)
  rw [part] at reached close
  refine ⟨hundredths, part, most, ?_, ?_⟩
  · calc
      hundredths = 6000 ↔ (6000 : Int) ≤ (hundredths : Int) := by omega
      _ ↔ ((6000 : Int) : Rat) - 1 / 2 ≤ q * 100 := reached
      _ ↔ 11999 / 200 ≤ q := by
        push_cast
        constructor <;> intro le <;> linarith
  · rw [abs_le] at close ⊢
    push_cast at close
    constructor <;> linarith

private theorem exists_spelled_ofCounts (nonneg : 0 ≤ duration.value) : ∃ minutes hundredths : Nat,
    (Reading.ofCounts minutes hundredths).Spelled (durationText duration) ∧
    (splitMinutes duration).1 = minutes ∧ hundredths ≤ 6000 ∧
    (hundredths = 6000 ↔ 11999 / 200 ≤ duration.rest) ∧
    |(hundredths : Rat) / 100 - duration.rest| ≤ 1 / 200 := by
  obtain ⟨minutes, whole⟩ := Int.eq_ofNat_of_zero_le (splitMinutes_nonneg nonneg)
  obtain ⟨hundredths, part, most, facts⟩ := exists_hundredths duration.rest_nonneg duration.rest_lt
  have pair : splitMinutes duration = (↑minutes, duration.rest) :=
    Prod.ext whole (splitMinutes_snd nonneg)
  refine ⟨minutes, hundredths, ?_, whole, most, facts⟩
  rw [durationText, pair]
  dsimp only
  rw [secondsText, part]
  exact spelled_ofCounts (by omega)

private theorem splitsExactly_of_lt (nonneg : 0 ≤ duration.value)
    (small : (∃ count, duration = .whole count) ∨ duration.value < 2 ^ 55) : duration.SplitsExactly := by
  cases duration with
  | whole count => exact splitMinutes_whole count
  | real q =>
    obtain ⟨_, same⟩ | small := small
    · exact nomatch same
    · exact splitsExactly_real nonneg small

/-- A duration is read as a clock reading that is as close as two decimals allow. Its seconds are out of
range, at 60.00, exactly where 59.995 seconds or more are left over from the whole minutes. -/
theorem durationText_tells_iff (nonneg : 0 ≤ duration.value) :
    ((∃ count, duration = .whole count) ∨ duration.value < 2 ^ 55 → duration.SplitsExactly) ∧
    (∃ reading : Reading, reading.Spelled (durationText duration) ∧ reading.minutes ≤ 59 ∧
      (duration.rest < 11999 / 200 ∧ reading.seconds ≤ 59 ∨
        11999 / 200 ≤ duration.rest ∧ reading.seconds = 60 ∧ reading.hundredths = 0) ∧
      (duration.SplitsExactly → |reading.time - duration.value| ≤ 1 / 200)) ∧
    (duration.SplitsExactly →
      (Tells (durationText duration) duration.value ↔ duration.rest < 11999 / 200)) := by
  obtain ⟨minutes, hundredths, spelled, whole, most, full, close⟩ := exists_spelled_ofCounts nonneg
  have hour : minutes % 60 ≤ 59 := Nat.le_of_lt_succ (Nat.mod_lt minutes (by decide))
  have minute (below : hundredths ≠ 6000) : hundredths / 100 ≤ 59 := by omega
  have near (splits : duration.SplitsExactly) :
      |(Reading.ofCounts minutes hundredths).time - duration.value| ≤ 1 / 200 := by
    have count : (⌊duration.value / 60⌋ : Rat) = minutes := by
      rw [← splits, whole, Int.cast_natCast]
    have taken : duration.value = 60 * minutes + duration.rest := by
      rw [Seconds.rest, count, add_sub_cancel]
    rw [Reading.time_ofCounts, taken, add_sub_add_left_eq_sub]
    exact close
  refine ⟨splitsExactly_of_lt nonneg, ⟨_, spelled, hour, ?_, near⟩, fun splits => ?_⟩
  · by_cases reached : hundredths = 6000
    · exact .inr ⟨full.mp reached, by rw [reached]; rfl, by rw [reached]; rfl⟩
    · exact .inl ⟨not_le.mp (mt full.mpr reached), minute reached⟩
  · rw [← not_le, ← full]
    constructor
    · rintro ⟨reading, again, range, _⟩ reached
      have same : reading.seconds = hundredths / 100 := by rw [again.unique spelled]; rfl
      have := range.2
      omega
    · exact fun below => ⟨_, spelled, ⟨hour, minute below⟩, near splits⟩

/-- An hour, two minutes and five and a half seconds. -/
theorem durationText_tells_hour :
    0 ≤ (Seconds.real (7451 / 2)).value ∧ Tells (durationText (.real (7451 / 2))) (7451 / 2) := by
  have nonneg : 0 ≤ (Seconds.real (7451 / 2)).value := by decide +kernel
  have below : (Seconds.real (7451 / 2)).rest < 11999 / 200 := by decide +kernel
  obtain ⟨splits, -, tells⟩ := durationText_tells_iff nonneg
  exact ⟨nonneg, (tells (splits (.inr (by decide +kernel)))).mpr below⟩

theorem not_durationText_tells : ¬ ∀ duration : Seconds, 0 ≤ duration.value → duration.SplitsExactly →
    Tells (durationText duration) duration.value := by
  intro claim
  have splits : (Seconds.real (30719 / 512)).SplitsExactly := by
    rw [Seconds.SplitsExactly]
    decide +kernel
  obtain ⟨reading, spelled, range, _⟩ := claim (.real (30719 / 512)) (by decide +kernel) splits
  have text : durationText (.real (30719 / 512)) = "00:00:60.00" := by decide +kernel
  have zero : Text.Decimal ['0', '0'] 0 := ⟨by decide, by simp, rfl⟩
  have sixty : Text.Decimal ['6', '0'] 60 := ⟨by decide, by simp, rfl⟩
  have full : (⟨0, 0, 60, 0⟩ : Reading).Spelled (durationText (.real (30719 / 512))) := by
    rw [text]
    exact ⟨['0', '0'], ['0', '0'], ['6', '0'], ['0', '0'], rfl, ⟨zero, by decide⟩, ⟨zero, rfl⟩, ⟨sixty, rfl⟩,
      ⟨zero, rfl⟩⟩
  rw [spelled.unique full] at range
  exact absurd range.2 (by decide)

end Clock

end PencilPuzzle
