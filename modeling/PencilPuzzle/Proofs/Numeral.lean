import Mathlib.Data.List.TakeWhile
import Mathlib.Data.Nat.Digits.Defs
import PencilPuzzle.DigitLimit

/-!
# Numerals

What number a text of digits denotes: each decimal digit of whatever script has its value, and the
first one counts most. Among the characters of ASCII the digits are those from 0 to 9, and nothing else
looks like one. A limit on digits only takes numerals away.
-/

namespace PencilPuzzle

namespace Text

variable {c : Char} {digits text : List Char} {n : Nat}

/-! ### Digits of any script -/

/-- The text consists of decimal digits, of any script, and this is its value. -/
def Denotes (digits : List Char) (n : Nat) : Prop :=
  digits ≠ [] ∧ ∃ values : List Nat, digits.map digit? = values.map some ∧ Nat.ofDigits 10 values.reverse = n

private theorem readDigits_eq_some {number : Nat} : readDigits number text = some n ↔
    ∃ values : List Nat, text.map digit? = values.map some ∧
      values.foldl (fun high digit => digit + 10 * high) number = n := by
  induction text generalizing number with
  | nil => simp [readDigits]
  | cons c rest ih =>
    rw [readDigits, Option.bind_eq_some_iff]
    constructor
    · rintro ⟨digit, here, read⟩
      obtain ⟨values, same, total⟩ := ih.mp read
      refine ⟨digit :: values, by rw [List.map_cons, List.map_cons, here, same], ?_⟩
      rw [List.foldl_cons, Nat.add_comm digit]
      exact total
    · rintro ⟨values, same, total⟩
      cases values with
      | nil => simp at same
      | cons digit values =>
        obtain ⟨here, same⟩ := List.cons.inj same
        refine ⟨digit, here, ih.mpr ⟨values, same, ?_⟩⟩
        rw [List.foldl_cons, Nat.add_comm digit] at total
        exact total

theorem number?_eq_some : number? digits = some n ↔ Denotes digits n := by
  unfold Denotes
  cases digits with
  | nil => simp [number?]
  | cons c rest =>
    rw [number?, readDigits_eq_some]
    · simp only [ne_eq, reduceCtorEq, not_false_eq_true, true_and, Nat.ofDigits_eq_foldr,
        List.foldr_reverse, Nat.cast_id]
    · simp

theorem Denotes.unique {m : Nat} (first : Denotes digits n) (second : Denotes digits m) : n = m :=
  Option.some.inj ((number?_eq_some.mpr first).symm.trans (number?_eq_some.mpr second))

theorem exists_denotes : (∃ n, Denotes digits n) ↔ digits ≠ [] ∧ ∀ c ∈ digits, isDigit c = true := by
  constructor
  · rintro ⟨n, some, values, same, _⟩
    refine ⟨some, fun c member => ?_⟩
    have found : digit? c ∈ values.map Option.some := same ▸ List.mem_map_of_mem member
    obtain ⟨value, _, here⟩ := List.mem_map.mp found
    rw [isDigit, ← here]
    rfl
  · rintro ⟨some, inside⟩
    refine ⟨_, some, digits.map fun c => (digit? c).getD 0, ?_, rfl⟩
    rw [List.map_map]
    refine List.map_congr_left fun c member => ?_
    obtain ⟨value, here⟩ := Option.isSome_iff_exists.mp (inside c member)
    simp [here]

theorem Denotes.isDigit (denotes : Denotes digits n) : ∀ c ∈ digits, isDigit c = true :=
  (exists_denotes.mp ⟨n, denotes⟩).2

private theorem digit?_lt {value : Nat} (h : digit? c = some value) : value < 10 := by
  obtain ⟨start, _, within⟩ := List.exists_of_findSome?_eq_some h
  split at within
  next =>
    cases within
    omega
  next => exact nomatch within

theorem Denotes.lt (denotes : Denotes digits n) : n < 10 ^ digits.length := by
  obtain ⟨_, values, same, rfl⟩ := denotes
  have length : values.reverse.length = digits.length := by
    rw [List.length_reverse, ← List.length_map (f := some), ← same, List.length_map]
  rw [← length]
  refine Nat.ofDigits_lt_base_pow_length (by decide) fun value member => ?_
  have found : some value ∈ digits.map digit? := same ▸ List.mem_map_of_mem (List.mem_reverse.mp member)
  obtain ⟨c, _, here⟩ := List.mem_map.mp found
  exact digit?_lt here

/-! ### Digits of ASCII -/

/-- The text consists of the digits from 0 to 9, and this is its value. -/
def Decimal (digits : List Char) (n : Nat) : Prop :=
  digits ≠ [] ∧ (∀ c ∈ digits, '0' ≤ c ∧ c ≤ '9') ∧ Nat.ofDigitChars 10 digits 0 = n

def IsAscii (text : List Char) : Prop := ∀ c ∈ text, c.toNat < 128

theorem IsAscii.of_part (ascii : IsAscii text) (part : digits <:+: text) : IsAscii digits :=
  fun c member => ascii c (part.subset member)

theorem digit_bounds : '0' ≤ c ∧ c ≤ '9' ↔ 48 ≤ c.toNat ∧ c.toNat ≤ 57 := Iff.rfl

private theorem digit?_of_mem (digit : '0' ≤ c ∧ c ≤ '9') : digit? c = some (c.toNat - 48) := by
  rw [digit_bounds] at digit
  have first : (48 : Nat) ≤ c.toNat ∧ c.toNat < 48 + 10 := by omega
  simp only [digit?, zeroDigits, List.findSome?_cons, if_pos first]

private theorem digit?_of_not_mem (ascii : c.toNat < 128) (other : ¬ ('0' ≤ c ∧ c ≤ '9')) :
    digit? c = none := by
  rw [digit_bounds] at other
  have high : ∀ start ∈ zeroDigits, start = 48 ∨ 128 ≤ start := by decide
  refine List.findSome?_eq_none_iff.mpr fun start listed => if_neg ?_
  have := high start listed
  omega

theorem isDigit_iff (ascii : c.toNat < 128) : isDigit c = true ↔ '0' ≤ c ∧ c ≤ '9' := by
  by_cases digit : '0' ≤ c ∧ c ≤ '9'
  · simp [isDigit, digit?_of_mem digit, digit]
  · simp [isDigit, digit?_of_not_mem ascii digit, digit]

theorem isDigitLike_of_ascii (ascii : c.toNat < 128) : isDigitLike c = isDigit c := by
  have high : ∀ range ∈ digitLookalikes, 128 ≤ range.1 := by decide
  rw [isDigitLike, List.any_eq_false.mpr, Bool.or_false]
  intro range listed
  have := high range listed
  simp only [Bool.and_eq_true, decide_eq_true_eq]
  omega

theorem Decimal.denotes (decimal : Decimal digits n) : Denotes digits n := by
  obtain ⟨some, inside, total⟩ := decimal
  refine ⟨some, digits.map fun c => c.toNat - 48, ?_, ?_⟩
  · rw [List.map_map]
    exact List.map_congr_left fun c member => digit?_of_mem (inside c member)
  · rw [← total, Nat.ofDigits_eq_foldr, List.foldr_reverse, Nat.ofDigitChars, List.foldl_map]
    congr
    funext high c
    exact Nat.add_comm ..

theorem denotes_iff_decimal (ascii : IsAscii digits) : Denotes digits n ↔ Decimal digits n := by
  constructor
  · intro denotes
    have inside (c : Char) (member : c ∈ digits) : '0' ≤ c ∧ c ≤ '9' :=
      (isDigit_iff (ascii c member)).mp (denotes.isDigit c member)
    have decimal : Decimal digits (Nat.ofDigitChars 10 digits 0) := ⟨denotes.1, inside, rfl⟩
    exact decimal.denotes.unique denotes ▸ decimal
  · exact Decimal.denotes

theorem decimal_toDigits (n : Nat) : Decimal (Nat.toDigits 10 n) n := by
  refine ⟨Nat.toDigits_ne_nil, fun c member => ?_, Nat.ofDigitChars_ten_toDigits⟩
  have digit := Nat.isDigit_of_mem_toDigits (by decide) (by decide) member
  simp only [Char.isDigit, ge_iff_le, Bool.and_eq_true, decide_eq_true_eq] at digit
  exact digit

theorem Decimal.unique {m : Nat} (first : Decimal digits n) (second : Decimal digits m) : n = m :=
  first.2.2.symm.trans second.2.2

theorem Decimal.zeros_append (k : Nat) (decimal : Decimal digits n) :
    Decimal (List.replicate k '0' ++ digits) n := by
  obtain ⟨some, inside, total⟩ := decimal
  refine ⟨by simp [some], fun c member => ?_, ?_⟩
  · obtain zero | member := List.mem_append.mp member
    · rw [List.eq_of_mem_replicate zero]
      decide
    · exact inside c member
  · rw [Nat.ofDigitChars_append, Nat.ofDigitChars_replicate_zero, Nat.mul_zero, total]

theorem length_toDigits_mono {m : Nat} (le : m ≤ n) :
    (Nat.toDigits 10 m).length ≤ (Nat.toDigits 10 n).length := by
  have pos : 0 < (Nat.toDigits 10 n).length := List.length_pos_iff.mpr Nat.toDigits_ne_nil
  have below := (Nat.length_toDigits_le_iff (by decide) pos).mp le_rfl
  exact (Nat.length_toDigits_le_iff (by decide) pos).mpr (le.trans_lt below)

end Text

/-! ### Limits -/

namespace DigitLimit

variable {limit : DigitLimit} {text : List Char} {n : Nat} {fault : Fault}

def Allows (limit : DigitLimit) (digits : Nat) : Prop := ∀ most ∈ limit, digits ≤ most

private theorem allows_none (digits : Nat) : Allows none digits := fun _ some => nomatch some

private theorem fault?_eq_none {digits : Nat} {numeral : Nat → NumeralFault} :
    limit.fault? digits numeral = none ↔ limit.Allows digits := by
  cases limit with
  | none => simp [fault?, Allows]
  | some most => simp [fault?, Allows]

private theorem fault?_eq_some {digits : Nat} {numeral : Nat → NumeralFault}
    (h : limit.fault? digits numeral = some fault) :
    ∃ most ∈ limit, most < digits ∧ fault = .numeral (numeral most) := by
  obtain ⟨most, given, beyond⟩ := Option.bind_eq_some_iff.mp h
  split at beyond
  next exceeds =>
    cases beyond
    exact ⟨most, given, exceeds, rfl⟩
  next => exact nomatch beyond

def Reads (limit : DigitLimit) (text : List Char) (n : Nat) : Prop := limit.read text = .ok n

private theorem read_eq_ok : limit.read text = .ok n ↔ Text.Denotes text n ∧ limit.Allows text.length := by
  rw [← Text.number?_eq_some, ← @fault?_eq_none limit text.length (.longText text.length)]
  unfold read
  dsimp only
  constructor
  · intro h
    split at h
    next => exact nomatch h
    next fits denoted =>
      cases h
      rw [List.takeWhile_eq_self_iff.mpr (Text.number?_eq_some.mp denoted).isDigit] at fits
      exact ⟨denoted, fits⟩
    next => exact nomatch h
  · rintro ⟨denoted, fits⟩
    rw [List.takeWhile_eq_self_iff.mpr (Text.number?_eq_some.mp denoted).isDigit, fits, denoted]

theorem reads_iff : limit.Reads text n ↔ Text.Denotes text n ∧ limit.Allows text.length := read_eq_ok

theorem Reads.unique {m : Nat} (first : limit.Reads text n) (second : limit.Reads text m) : n = m :=
  (reads_iff.mp first).1.unique (reads_iff.mp second).1

theorem reads_none : Reads none text n ↔ Text.Denotes text n :=
  reads_iff.trans (and_iff_left (allows_none _))

/-- Four times a number has at most one digit more than its numeral. -/
theorem Reads.length_of_four (reads : limit.Reads text n) {most : Nat} (given : most ∈ limit)
    (beyond : most < digitCount (4 * n : Nat)) : text.length = most := by
  obtain ⟨denotes, allows⟩ := reads_iff.mp reads
  have fits := allows most given
  have short : digitCount (4 * n : Nat) ≤ text.length + 1 := by
    refine (Nat.length_toDigits_le_iff (by decide) (Nat.succ_pos _)).mpr ?_
    have := denotes.lt
    rw [Int.natAbs_natCast, Nat.pow_succ]
    omega
  omega

theorem reads_toDigits {m : Nat} (allows : limit.Allows (Nat.toDigits 10 n).length) (le : m ≤ n) :
    limit.Reads (Nat.toDigits 10 m) m := by
  refine reads_iff.mpr ⟨(Text.decimal_toDigits m).denotes, fun most given => ?_⟩
  exact (Text.length_toDigits_mono le).trans (allows most given)

theorem read_eq_error (h : limit.read text = .error fault) :
    (∃ most ∈ limit, most < (text.takeWhile Text.isDigit).length ∧
      fault = .numeral (.longText (text.takeWhile Text.isDigit).length most)) ∨
    (∀ n, ¬ Text.Denotes text n) ∧ fault = .numeral (.notNumeral (String.ofList text)) := by
  unfold read at h
  dsimp only at h
  split at h
  next beyond =>
    cases h
    exact .inl (fault?_eq_some beyond)
  next => exact nomatch h
  next none =>
    cases h
    refine .inr ⟨fun n denotes => ?_, rfl⟩
    rw [Text.number?_eq_some.mpr denotes] at none
    exact nomatch none

theorem read_none_eq_error (h : ∀ n, ¬ Text.Denotes text n) :
    read none text = .error (.numeral (.notNumeral (String.ofList text))) := by
  cases failed : read none text with
  | ok n => exact absurd (read_eq_ok.mp failed).1 (h n)
  | error fault =>
    obtain ⟨_, given, _⟩ | ⟨_, rfl⟩ := read_eq_error failed
    · exact nomatch given
    · rfl

theorem read_of_long {most : Nat} (inside : ∀ c ∈ text, Text.isDigit c = true) (beyond : most < text.length) :
    read (some most) text = .error (.numeral (.longText text.length most)) := by
  have fault : fault? (some most) text.length (.longText text.length) =
      some (.numeral (.longText text.length most)) := if_pos beyond
  unfold read
  dsimp only
  rw [List.takeWhile_eq_self_iff.mpr inside, fault]

/-- Speaking of a number fails itself only where the number is over the limit. -/
theorem faultAbout_cases (limit : DigitLimit) (number : Int) (fault : Fault) :
    limit.faultAbout number fault = fault ∨ ∃ most ∈ limit, most < digitCount number ∧
      limit.faultAbout number fault = .numeral (.longNumber most) := by
  unfold faultAbout
  cases beyond : limit.fault? (digitCount number) .longNumber with
  | none => exact .inl rfl
  | some other => exact .inr (fault?_eq_some beyond)

end DigitLimit

end PencilPuzzle
